import ItalyTrip.Frames

namespace ItalyTrip

open Calls

/-- The same token later: revoked once, revoked for good. -/
structure RefreshToken.Continues (token later : RefreshToken) : Prop where
  id : later.id = token.id
  hash : later.tokenHash = token.tokenHash
  user : later.userID = token.userID
  revoked : token.revokedAt ≠ none → later.revokedAt ≠ none

theorem RefreshToken.Continues.refl (token : RefreshToken) : token.Continues token :=
  ⟨rfl, rfl, rfl, fun h => h⟩

theorem RefreshToken.Continues.trans {a b c : RefreshToken} (h : a.Continues b)
    (h' : b.Continues c) : a.Continues c :=
  ⟨h'.id.trans h.id, h'.hash.trans h.hash, h'.user.trans h.user, fun hr => h'.revoked (h.revoked hr)⟩

/-- The token is in the database, perhaps revoked since. -/
def Kept (token : RefreshToken) (w : World) : Prop :=
  ∃ later ∈ w.db.refreshTokens, token.Continues later

def TokensKept (w w' : World) : Prop := ∀ token ∈ w.db.refreshTokens, Kept token w'

theorem Kept.later {token : RefreshToken} {w w' : World} (h : Kept token w)
    (kept : TokensKept w w') : Kept token w' := by
  obtain ⟨now, hn, hc⟩ := h
  obtain ⟨later, hl, hc'⟩ := kept now hn
  exact ⟨later, hl, hc.trans hc'⟩

theorem tokensKept_trans (a b c : World) (h : TokensKept a b) (h' : TokensKept b c) :
    TokensKept a c :=
  fun token ht => (h token ht).later h'

/-- The token is in the database and revoked. -/
def Spent (token : RefreshToken) (w : World) : Prop :=
  ∃ later ∈ w.db.refreshTokens, token.Continues later ∧ later.revokedAt ≠ none

theorem Spent.later {token : RefreshToken} {w w' : World} (h : Spent token w)
    (kept : TokensKept w w') : Spent token w' := by
  obtain ⟨now, hn, hc, hr⟩ := h
  obtain ⟨later, hl, hc'⟩ := kept now hn
  exact ⟨later, hl, hc.trans hc', hc'.revoked hr⟩

theorem tokensKept_same {w w' : World} (h : w'.db.refreshTokens = w.db.refreshTokens) :
    TokensKept w w' := by
  intro token ht
  exact ⟨token, h ▸ ht, .refl token⟩

theorem tokensKept_map {w w' : World} {f : RefreshToken → RefreshToken}
    (h : w'.db.refreshTokens = w.db.refreshTokens.map f) (hf : ∀ token : RefreshToken, token.Continues (f token)) :
    TokensKept w w' := by
  intro token ht
  refine ⟨f token, ?_, hf token⟩
  rw [h]
  exact List.mem_map_of_mem ht

theorem perform_tokens {o : Choice} {w w' : World} {c : Call} {r : Reply c}
    (h : perform o w c = some (r, w')) : TokensKept w w' := by
  rcases perform_effect h with hdb | ⟨q, rfl, hdb⟩
  · exact tokensKept_same (by rw [hdb])
  · cases q with
    | createRefreshToken arg =>
      rcases Database.createRefreshToken_cases w.db o.defaults arg with ⟨hx, _⟩ | ⟨row, hx, _⟩
      · exact tokensKept_same (by rw [hdb]; exact congrArg _ hx)
      · intro token ht
        refine ⟨token, ?_, .refl token⟩
        rw [hdb]
        change token ∈ (w.db.createRefreshToken o.defaults arg).2.refreshTokens
        rw [hx]
        exact List.mem_append_left _ ht
    | revokeRefreshToken id =>
      refine tokensKept_map (by rw [hdb]; rfl) fun token => ?_
      split
      next => exact ⟨rfl, rfl, rfl, fun _ => Option.some_ne_none _⟩
      next => exact .refl token
    | revokeRefreshTokensForUser user =>
      refine tokensKept_map (by rw [hdb]; rfl) fun token => ?_
      split
      next => exact ⟨rfl, rfl, rfl, fun _ => Option.some_ne_none _⟩
      next => exact .refl token
    | _ => exact tokensKept_same (by rw [hdb]; exact (Database.exec_frame _).2.2.2 (by simp [Query.writes]))

/-- Tokens of a valid database with the same hash are the same. -/
theorem Database.Valid.token_eq {db : Database} (h : db.Valid) {a b : RefreshToken}
    (ha : a ∈ db.refreshTokens) (hb : b ∈ db.refreshTokens) (hash : a.tokenHash = b.tokenHash) :
    a = b :=
  List.inj_on_of_nodup_map h.tokens_hash ha hb hash

def isCreation : Sigma Reply → Bool
  | ⟨.query (.createRefreshToken _), _⟩ => true
  | _ => false

/-- How often a request has called for a new refresh token. -/
def creations (past : Past Reply) : Nat := past.countP isCreation

def createdToken : Sigma Reply → Option RefreshToken
  | ⟨.query (.createRefreshToken _), .ok row⟩ => some row
  | _ => none

/-- The refresh tokens a request has created. -/
def createdBy (past : Past Reply) : List RefreshToken := past.filterMap createdToken

theorem createdBy_length (past : Past Reply) : (createdBy past).length ≤ creations past := by
  induction past with
  | nil => simp [createdBy]
  | cons x past ih =>
    simp only [createdBy, creations] at ih ⊢
    rw [List.filterMap_cons, List.countP_cons]
    split
    next => omega
    next row hrow =>
      have hx : isCreation x = true := by
        unfold createdToken at hrow
        split at hrow
        next => rfl
        next => cases hrow
      simp only [hx, List.length_cons, if_true]
      omega

theorem createdBy_other {c : Call} {r : Reply c} {past : Past Reply}
    (hc : ¬ ∃ arg, c = .query (.createRefreshToken arg)) :
    createdBy (⟨c, r⟩ :: past) = createdBy past := by
  refine List.filterMap_cons_none ?_
  unfold createdToken
  split
  next arg row heq => exact absurd ⟨arg, congrArg Sigma.fst heq⟩ hc
  next => rfl

theorem creations_other {c : Call} {r : Reply c} {past : Past Reply}
    (hc : ¬ ∃ arg, c = .query (.createRefreshToken arg)) :
    creations (⟨c, r⟩ :: past) = creations past := by
  refine List.countP_cons_of_neg ?_
  unfold isCreation
  split
  next arg _ heq => exact absurd ⟨arg, congrArg Sigma.fst heq⟩ hc
  next => exact Bool.false_ne_true

/-- What the first call for a token creates is its reply. -/
theorem mem_createdBy_create {arg : CreateRefreshTokenParams} {r : Except DbError RefreshToken}
    {past : Past Reply} {row : RefreshToken} (first : creations past = 0)
    (h : row ∈ createdBy (⟨.query (.createRefreshToken arg), r⟩ :: past)) : r = .ok row := by
  have none : createdBy past = [] := by
    have := createdBy_length past
    exact List.length_eq_zero_iff.mp (by omega)
  cases r with
  | error e =>
    change row ∈ createdBy past at h
    rw [none] at h
    exact absurd h List.not_mem_nil
  | ok row' =>
    change row ∈ row' :: createdBy past at h
    rw [none] at h
    rw [List.mem_singleton.mp h]

/-- The request has looked its cookie's token up and found it not revoked. -/
def FoundLive (app : Application) (req : Request) (past : Past Reply) (stored : RefreshToken) : Prop :=
  ⟨.query (.findRefreshTokenByHash (app.hashRefreshToken (req.cookie.getD ""))), .ok stored⟩ ∈ past ∧
    stored.revokedAt = none

/-- What a request knows when it calls for a new refresh token: who it is for and, in a refresh,
that the token it found is revoked now. -/
structure Rotates (app : Application) (req : Request) (past : Past Reply) (stored : RefreshToken)
    (userID : UUID) : Prop where
  found : FoundLive app req past stored
  revoked : ⟨.query (.revokeRefreshToken stored.id), .ok ()⟩ ∈ past
  user : ∃ user : User, ⟨.query (.findUserById stored.userID), .ok user⟩ ∈ past ∧ user.id = userID

def TokenCall (app : Application) (req : Request) (past : Past Reply) : Call → Prop
  | .query (.findRefreshTokenByHash _) => req.route = .refresh → past = []
  | .query (.revokeRefreshToken id) =>
    req.route = .refresh ∧ ∃ stored, FoundLive app req past stored ∧ stored.id = id
  | .query (.createRefreshToken arg) =>
    creations past = 0 ∧ (req.route = .refresh → ∃ stored, Rotates app req past stored arg.userID)
  | _ => True

def TokenDone (app : Application) (req : Request) (past : Past Reply) (response : Response) : Prop :=
  req.route = .refresh →
    (response.status = 200 → creations past ≠ 0) ∧
    (response = Users.alreadyUsed → ∃ (stored : RefreshToken) (r : Except DbError Unit),
      past = [⟨.query (.revokeRefreshTokensForUser stored.userID), r⟩,
        ⟨.query (.findRefreshTokenByHash (app.hashRefreshToken (req.cookie.getD ""))), .ok stored⟩])

variable {app : Application} {past : Past Reply}

theorem Rotates.cons {req : Request} {stored : RefreshToken} {userID : UUID} {x : Sigma Reply}
    (h : Rotates app req past stored userID) : Rotates app req (x :: past) stored userID := by
  obtain ⟨user, hu, hid⟩ := h.user
  exact ⟨⟨List.mem_cons_of_mem _ h.found.1, h.found.2⟩, List.mem_cons_of_mem _ h.revoked,
    user, List.mem_cons_of_mem _ hu, hid⟩

@[simp] theorem creations_nil : creations [] = 0 := rfl

@[simp] theorem creations_cons {x : Sigma Reply} :
    creations (x :: past) = creations past + if isCreation x then 1 else 0 := List.countP_cons

/-- Refusals other than of a token used before say nothing about tokens. -/
theorem tokenDone_refused {req : Request} {status : Nat} {message : String}
    {cookie : Option SetCookie} (hs : status ≠ 200) (hm : message ≠ "refresh token already used") :
    TokenDone app req past ⟨status, .error message none, cookie⟩ := by
  refine fun _ => ⟨fun h => absurd h hs, fun h => ?_⟩
  have body := congrArg Response.body h
  simp only [Users.alreadyUsed, Users.clearRefreshCookie, writeErrorFromString, Body.error.injEq,
    and_true] at body
  exact absurd body hm

theorem session_tokens {req : Request} {user : User} (fresh : creations past = 0)
    (rotates : req.route = .refresh → ∃ stored, Rotates app req past stored user.id) :
    (Users.session app user).run.Ensures (TokenCall app req)
      (fun past result => TokenDone app req past (written result)) past := by
  have failed : ∀ {past : Past Reply}, TokenDone app req past Users.refreshFailed :=
    tokenDone_refused (by decide) (by simp)
  rw [Users.ensures_session]
  refine ⟨trivial, fun t => ⟨trivial, fun t' => ⟨fun _ _ => ?_, fun token _ =>
    ⟨trivial, fun _ => failed, fun rawToken => ⟨trivial, fun t'' => ⟨⟨?_, ?_⟩, fun _ => failed, ?_⟩⟩⟩⟩⟩⟩
  · exact tokenDone_refused (by decide) (by simp)
  · simp [fresh, isCreation]
  · intro hr
    obtain ⟨stored, h⟩ := rotates hr
    exact ⟨stored, h.cons.cons.cons.cons⟩
  · intro row _
    refine ⟨fun _ => ?_, fun h => ?_⟩
    · simp [isCreation]
    · exact absurd (congrArg Response.status h) (by simp [Users.sessionResponse, writeJSON,
        Users.alreadyUsed, Users.clearRefreshCookie, writeErrorFromString])

theorem FoundLive.cons {req : Request} {stored : RefreshToken} {x : Sigma Reply}
    (h : FoundLive app req past stored) : FoundLive app req (x :: past) stored :=
  ⟨List.mem_cons_of_mem _ h.1, h.2⟩

theorem refresh_tokens {req : Request} (route : req.route = .refresh) :
    (Users.refresh app req.cookie).run.Ensures (TokenCall app req)
      (fun past result => TokenDone app req past (written result)) [] := by
  have looked : ∀ stored : RefreshToken, ¬ stored.revokedAt.isSome = true →
      FoundLive app req (Users.found app req.cookie stored []) stored :=
    fun stored live => ⟨List.mem_cons_self, by simpa using live⟩
  refine Users.ensures_refresh
    { noCookie := fun _ => tokenDone_refused (by decide) (by simp)
      lookup := fun _ => rfl
      notFound := fun err => by cases err <;> exact tokenDone_refused (by decide) (by simp)
      reused := fun stored r _ _ => ⟨fun h => (by cases h), fun _ => ⟨stored, r, rfl⟩⟩
      expired := fun _ _ _ _ => tokenDone_refused (by decide) (by simp)
      revoke := fun stored t live => ⟨route, stored, (looked stored live).cons, rfl⟩
      notRevoked := fun _ _ _ => tokenDone_refused (by decide) (by simp)
      notOwned := fun _ _ _ => tokenDone_refused (by decide) (by simp)
      session := fun stored t user live => ?_ }
  refine session_tokens (by simp [Users.rotated, Users.found, isCreation]) fun _ => ?_
  refine ⟨stored, (looked stored live).cons.cons.cons, ?_, user, List.mem_cons_self, rfl⟩
  simp [Users.rotated]

/-- Refresh tokens are revoked by a refresh that found them, and created by a session. -/
theorem serve_tokens (req : Request) :
    (serve app req).Ensures (TokenCall app req) (TokenDone app req) [] := by
  obtain ⟨header, cookie, route⟩ := req
  cases route with
  | login body =>
    simp only [ensures_serve, handle, Users.login, ensures_run_bind, ensures_orThrow,
      ensures_request, ensures_throwIf]
    refine ⟨fun _ _ h => (by cases h), fun req _ => ⟨trivial, fun r => ⟨fun _ _ h => (by cases h),
      fun user _ => ⟨fun _ h => (by cases h), fun _ => ?_⟩⟩⟩⟩
    exact session_tokens (by simp [isCreation]) fun h => (by cases h)
  | refresh => exact ensures_serve.mpr (refresh_tokens rfl)
  | authorized route =>
    refine (serve_writes ⟨header, cookie, .authorized route⟩).mono (fun past c hc => ?_) ?_
    · have silent : Table.refreshTokens ∉ (Route.authorized route).writes := by
        cases route <;> simp [Route.writes]
      unfold TokenCall
      split
      next hash => exact fun h => (by cases h)
      next id => exact absurd (hc _ rfl List.mem_cons_self) silent
      next arg => exact absurd (hc _ rfl List.mem_cons_self) silent
      next => trivial
    · exact fun _ _ _ h => (by cases h)

theorem perform_found {o : Choice} {w w' : World} {hash : String} {stored : RefreshToken}
    (h : perform o w (.query (.findRefreshTokenByHash hash)) = some (.ok stored, w')) :
    stored ∈ w'.db.refreshTokens ∧ stored.tokenHash = hash := by
  have hx := perform_ok h
  cases hf : w.db.findRefreshTokenByHash hash with
  | none => simp [Database.exec, hf, oneRow] at hx
  | some row =>
    simp only [Database.exec, hf, oneRow, Prod.mk.injEq, Except.ok.injEq] at hx
    obtain ⟨rfl, hdb⟩ := hx
    rw [← hdb]
    exact ⟨List.mem_of_find?_eq_some hf, by simpa using List.find?_some hf⟩

theorem perform_owner {o : Choice} {w w' : World} {id : UUID} {user : User}
    (h : perform o w (.query (.findUserById id)) = some (.ok user, w')) : user.id = id := by
  have hx := perform_ok h
  cases hf : w.db.findUserById id with
  | none => simp [Database.exec, hf, oneRow] at hx
  | some row =>
    simp only [Database.exec, hf, oneRow, Prod.mk.injEq, Except.ok.injEq] at hx
    rw [← hx.1]
    simpa using List.find?_some hf

theorem perform_revoked {o : Choice} {w w' : World} {id : UUID}
    (h : perform o w (.query (.revokeRefreshToken id)) = some (.ok (), w')) {token : RefreshToken}
    (kept : Kept token w) (hid : token.id = id) : Spent token w' := by
  obtain ⟨now, hn, hc⟩ := kept
  have hx : w.db.revokeRefreshToken w.clock id = w'.db := congrArg Prod.snd (perform_ok h)
  refine ⟨{ now with revokedAt := some w.clock }, ?_, ⟨hc.id, hc.hash, hc.user, ?_⟩, ?_⟩
  · rw [← hx]
    refine List.mem_map.mpr ⟨now, hn, ?_⟩
    rw [if_pos (hc.id.trans hid)]
  · exact fun _ => Option.some_ne_none _
  · exact Option.some_ne_none _

theorem perform_created {o : Choice} {w w' : World} {arg : CreateRefreshTokenParams}
    {row : RefreshToken} (h : perform o w (.query (.createRefreshToken arg)) = some (.ok row, w')) :
    row ∈ w'.db.refreshTokens ∧ row.userID = arg.userID := by
  have hx : w.db.createRefreshToken o.defaults arg = (.ok row, w'.db) := perform_ok h
  rcases Database.createRefreshToken_cases w.db o.defaults arg with ⟨_, e, he⟩ | ⟨row', hrow, _, hu, _⟩
  · rw [hx] at he
    cases he
  · rw [hx] at hrow
    obtain ⟨hr, hdb⟩ := Prod.mk.inj hrow
    obtain rfl := Except.ok.inj hr
    rw [hdb]
    exact ⟨List.mem_append_right _ (List.mem_singleton_self _), hu⟩

/-- What a request's exchanges say of the tokens in the database. -/
structure KnowsTokens (app : Application) (req : Request) (past : Past Reply) (w : World) : Prop where
  found : ∀ hash (stored : RefreshToken), ⟨.query (.findRefreshTokenByHash hash), .ok stored⟩ ∈ past →
    stored.tokenHash = hash ∧ Kept stored w
  owner : ∀ id (user : User), ⟨.query (.findUserById id), .ok user⟩ ∈ past → user.id = id
  spent : req.route = .refresh → ∀ stored, FoundLive app req past stored →
    ⟨.query (.revokeRefreshToken stored.id), .ok ()⟩ ∈ past → Spent stored w
  looked : ∀ id r, ⟨.query (.revokeRefreshToken id), r⟩ ∈ past →
    ∃ stored, FoundLive app req past stored ∧ stored.id = id
  created : ∀ row ∈ createdBy past, Kept row w
  once : creations past ≤ 1
  rotated : req.route = .refresh → creations past ≠ 0 → ∃ stored, FoundLive app req past stored ∧
    ⟨.query (.revokeRefreshToken stored.id), .ok ()⟩ ∈ past ∧
    ∀ row ∈ createdBy past, row.userID = stored.userID

theorem KnowsTokens.later {req : Request} {w w' : World} (h : KnowsTokens app req past w)
    (kept : TokensKept w w') : KnowsTokens app req past w' where
  found hash stored hm := ⟨(h.found hash stored hm).1, (h.found hash stored hm).2.later kept⟩
  owner := h.owner
  spent route stored live hr := (h.spent route stored live hr).later kept
  looked := h.looked
  created row hrow := (h.created row hrow).later kept
  once := h.once
  rotated := h.rotated

theorem KnowsTokens.step {req : Request} {w w' : World} {o : Choice} {c : Call}
    {next : Reply c → Prog Call Reply Response} {r : Reply c}
    (leads : (serve app req).Leads past (.call c next))
    (h : KnowsTokens app req past w) (hp : perform o w c = some (r, w')) :
    KnowsTokens app req (⟨c, r⟩ :: past) w' := by
  have old := h.later (perform_tokens hp)
  have calls := (serve_tokens req).at_call leads
  refine ⟨?_, ?_, ?_, ?_, ?_, ?_, ?_⟩
  · intro hash stored hm
    rcases List.mem_cons.mp hm with hm | hm
    · cases hm
      obtain ⟨hmem, hhash⟩ := perform_found hp
      exact ⟨hhash, stored, hmem, .refl stored⟩
    · exact old.found hash stored hm
  · intro id user hm
    rcases List.mem_cons.mp hm with hm | hm
    · cases hm
      exact perform_owner hp
    · exact old.owner id user hm
  · intro route stored live hm
    rcases List.mem_cons.mp hm with here | before
    · cases here
      rcases List.mem_cons.mp live.1 with hl | hl
      · cases hl
      · exact perform_revoked hp (h.found _ stored hl).2 rfl
    · rcases List.mem_cons.mp live.1 with hl | hl
      · cases hl
        rw [calls route] at before
        exact absurd before List.not_mem_nil
      · exact old.spent route stored ⟨hl, live.2⟩ before
  · intro id r' hm
    rcases List.mem_cons.mp hm with here | before
    · cases here
      obtain ⟨_, stored, live, hid⟩ := calls
      exact ⟨stored, live.cons, hid⟩
    · obtain ⟨stored, live, hid⟩ := h.looked id r' before
      exact ⟨stored, live.cons, hid⟩
  all_goals by_cases hc : ∃ arg, c = .query (.createRefreshToken arg)
  · obtain ⟨arg, rfl⟩ := hc
    intro row hrow
    obtain rfl := mem_createdBy_create calls.1 hrow
    exact ⟨row, (perform_created hp).1, .refl row⟩
  · rw [createdBy_other hc]
    exact old.created
  · obtain ⟨arg, rfl⟩ := hc
    rw [creations_cons, calls.1]
    split <;> omega
  · rw [creations_other hc]
    exact old.once
  · obtain ⟨arg, rfl⟩ := hc
    intro route _
    obtain ⟨stored, rot⟩ := calls.2 route
    refine ⟨stored, rot.found.cons, List.mem_cons_of_mem _ rot.revoked, ?_⟩
    intro row hrow
    obtain ⟨user, hu, hid⟩ := rot.user
    obtain rfl := mem_createdBy_create calls.1 hrow
    rw [(perform_created hp).2, ← hid]
    exact h.owner _ user hu
  · intro route made
    rw [creations_other hc] at made
    obtain ⟨stored, live, revoked, users⟩ := h.rotated route made
    refine ⟨stored, live.cons, List.mem_cons_of_mem _ revoked, ?_⟩
    rwa [createdBy_other hc]

variable (app)

/-- Every exchange of any request keeps what the others know of the tokens. -/
theorem session_rules {may : Pool.Condition Reply World Request} :
    Pool.Local (server app) may (fun w => w.db.Valid) TokensKept (KnowsTokens app) where
  arrive req w _ := by
    refine ⟨?_, ?_, ?_, ?_, ?_, ?_, ?_⟩
    · exact fun _ _ h => absurd h List.not_mem_nil
    · exact fun _ _ h => absurd h List.not_mem_nil
    · exact fun _ _ _ h => absurd h List.not_mem_nil
    · exact fun _ _ h => absurd h List.not_mem_nil
    · exact fun _ h => absurd h List.not_mem_nil
    · exact Nat.zero_le 1
    · exact fun _ h => absurd rfl h
  act := by
    intro req past c next o r w w' leads valid knows hp _
    exact ⟨perform_valid valid hp, perform_tokens hp, knows.step leads hp⟩
  env _ _ valid := ⟨valid, tokensKept_same rfl⟩
  stable _ _ _ _ kept knows := knows.later kept

end ItalyTrip
