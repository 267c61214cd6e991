import ItalyTrip.RefreshExchange
import ItalyTrip.Archive

namespace ItalyTrip

open Calls

/-- The call revokes no refresh token. -/
def KeepsTokens : Call → Prop
  | .query (.revokeRefreshToken _) => False
  | .query (.revokeRefreshTokensForUser _) => False
  | _ => True

theorem perform_keepsTokens {o : Choice} {w w' : World} {c : Call} {r : Reply c}
    (keeps : KeepsTokens c) (h : perform o w c = some (r, w')) {token : RefreshToken}
    (ht : token ∈ w.db.refreshTokens) : token ∈ w'.db.refreshTokens := by
  obtain hdb | ⟨q, rfl, hdb⟩ := perform_effect h
  · rwa [hdb]
  · cases q with
    | createRefreshToken arg =>
      rw [hdb]
      obtain ⟨hx, _⟩ | ⟨row, hx, _⟩ := Database.createRefreshToken_cases w.db o.defaults arg
      · change token ∈ (w.db.createRefreshToken o.defaults arg).2.refreshTokens
        rwa [hx]
      · change token ∈ (w.db.createRefreshToken o.defaults arg).2.refreshTokens
        rw [hx]
        exact List.mem_append_left _ ht
    | revokeRefreshToken id => exact keeps.elim
    | revokeRefreshTokensForUser user => exact keeps.elim
    | _ => rwa [hdb, (Database.exec_frame _).2.2.2 (by simp [Query.writes])]

theorem perform_revoke {o : Choice} {w w' : World} {id : UUID} {r : Except DbError Unit}
    (h : perform o w (.query (.revokeRefreshToken id)) = some (r, w')) :
    o.fault = .before ∧ w' = w ∨
      o.fault ≠ .before ∧ w' = { w with db := w.db.revokeRefreshToken w.clock id } := by
  simp only [perform, Database.exec] at h
  split at h
  all_goals
    next quiet =>
      obtain ⟨rfl, rfl⟩ := Prod.mk.inj (Option.some.inj h)
      simp [quiet]

theorem perform_quiet {o : Choice} {w w' : World} {q : Query} {row : q.Row}
    (h : perform o w (.query q) = some (.ok row, w')) : o.fault = .none := by
  simp only [perform] at h
  split at h
  next quiet => exact quiet
  all_goals
    have reply := (Prod.mk.inj (Option.some.inj h)).1
    cases reply

/-- How a refresh ends. -/
inductive RefreshEnd (app : Application) (cookie : Option String) : Past Reply → Response → Prop
  | notFound (err : DbError) : RefreshEnd app cookie
      [⟨.query (.findRefreshTokenByHash (app.hashRefreshToken (cookie.getD ""))), .error err⟩]
      (Users.lookupError err)
  | reused (stored : RefreshToken) (r : Except DbError Unit) :
      stored.revokedAt.isSome = true → RefreshEnd app cookie
      (⟨.query (.revokeRefreshTokensForUser stored.userID), r⟩ :: Users.found app cookie stored [])
      Users.alreadyUsed
  | expired (stored : RefreshToken) (t : Instant) : stored.expiresAt < t → RefreshEnd app cookie
      (⟨.now, t⟩ :: Users.found app cookie stored []) Users.expiredResponse
  | notRevoked (stored : RefreshToken) (t : Instant) (err : DbError) : RefreshEnd app cookie
      (Users.rotated app cookie stored t (.error err) []) Users.revokeFailed
  | rotated (stored : RefreshToken) (t : Instant) (later : Past Reply) (response : Response) :
      (∀ x ∈ later, KeepsTokens x.1) → response ≠ Users.alreadyUsed → RefreshEnd app cookie
      (later ++ Users.rotated app cookie stored t (.ok ()) []) response

variable {app : Application} {req : Request} {rawToken : String} {stored : RefreshToken}
  {choices : Nat → Choice} {w w' : World} {response : Response}

theorem ensures_refreshEnd (route : req.route = .refresh) (cookie : req.cookie.getD "" ≠ "") :
    (serve app req).Ensures (fun _ _ => True) (RefreshEnd app req.cookie) [] := by
  rw [ensures_serve, handle, route]
  refine Users.ensures_refresh
    { noCookie := fun none => absurd none cookie
      notFound := fun err => .notFound err
      reused := fun stored r used => .reused stored r used
      expired := fun stored t _ late => .expired stored t late
      notRevoked := fun stored t err => .notRevoked stored t err
      notOwned := fun stored t err => .rotated stored t
        [⟨.query (.findUserById stored.userID), .error err⟩] _ (by simp [KeepsTokens]) (by decide)
      session := fun stored t user _ => ?_ }
  refine Users.ensures_session.mpr
    ⟨trivial, fun t₁ => ⟨trivial, fun t₂ => ⟨fun err _ => ?_, fun token _ => ⟨trivial, fun err => ?_,
      fun fresh => ⟨trivial, fun t₃ => ⟨trivial, fun err => ?_, fun row => ?_⟩⟩⟩⟩⟩⟩
  · exact .rotated stored t [_, _, _] _ (by simp [KeepsTokens]) (by decide)
  · exact .rotated stored t [_, _, _, _] _ (by simp [KeepsTokens]) (by decide)
  · exact .rotated stored t [_, _, _, _, _, _] _ (by simp [KeepsTokens]) (by decide)
  · refine .rotated stored t [_, _, _, _, _, _] _ (by simp [KeepsTokens]) fun h => ?_
    exact absurd (congrArg Response.status h) (by simp [Users.sessionResponse, writeJSON,
      Users.alreadyUsed, Users.clearRefreshCookie, writeErrorFromString])

theorem perform_lookup {r : Except DbError RefreshToken} {o : Choice}
    (found : w.db.findRefreshTokenByHash (app.hashRefreshToken rawToken) = some stored)
    (h : perform o w (.query (.findRefreshTokenByHash (app.hashRefreshToken rawToken))) =
      some (r, w')) :
    w' = w ∧ (o.fault = .none ∧ r = .ok stored ∨ o.fault ≠ .none ∧ ∃ err, r = .error err) := by
  obtain ⟨same, ⟨quiet, answer⟩ | ⟨faulty, lost⟩⟩ := perform_reads rfl h
  · refine ⟨same, Or.inl ⟨quiet, ?_⟩⟩
    rw [answer, Database.exec, found]
    rfl
  · exact ⟨same, Or.inr ⟨faulty, _, lost⟩⟩

/-- The world after a refresh has asked for its token to be revoked. -/
theorem rotated_answered {stored' : RefreshToken} {t : Instant} {r : Except DbError Unit}
    (found : w.db.findRefreshTokenByHash (app.hashRefreshToken rawToken) = some stored)
    (h : Prog.Answered perform choices w (Users.rotated app (some rawToken) stored' t r []) w') :
    stored' = stored ∧ (choices 0).fault = .none ∧
      ((choices 2).fault = .before ∧ w' = { w with clock := t } ∨
        (choices 2).fault ≠ .before ∧
          w' = { w with clock := t, db := w.db.revokeRefreshToken t stored.id }) := by
  obtain ⟨w₃, ⟨w₂, ⟨w₁, rfl, lookup⟩, clock⟩, revoke⟩ := h
  obtain ⟨rfl, ⟨quiet, same⟩ | ⟨_, err, lost⟩⟩ := perform_lookup found lookup
  · obtain rfl := Except.ok.inj same
    obtain ⟨rfl, -, time⟩ := perform_now clock
    refine ⟨rfl, quiet, ?_⟩
    obtain ⟨early, rfl⟩ | ⟨done, rfl⟩ := perform_revoke revoke
    · exact Or.inl ⟨early, time⟩
    · refine Or.inr ⟨done, ?_⟩
      rw [time]
  · cases lost

theorem revoke_others {db : Database} {t : Instant} {id : UUID} {token : RefreshToken}
    (ht : token ∈ db.refreshTokens) (other : token.id ≠ id) :
    token ∈ (db.revokeRefreshToken t id).refreshTokens :=
  List.mem_map.mpr ⟨token, ht, if_neg other⟩

theorem rotated_others {stored' : RefreshToken} {t : Instant} {r : Except DbError Unit}
    (found : w.db.findRefreshTokenByHash (app.hashRefreshToken rawToken) = some stored)
    (h : Prog.Answered perform choices w (Users.rotated app (some rawToken) stored' t r []) w')
    {token : RefreshToken} (ht : token ∈ w.db.refreshTokens) (other : token.id ≠ stored.id) :
    token ∈ w'.db.refreshTokens := by
  obtain ⟨rfl, -, ⟨_, rfl⟩ | ⟨_, rfl⟩⟩ := rotated_answered found h
  · exact ht
  · exact revoke_others ht other

/-- While a token is not revoked, presenting it is not taken for reuse, and revokes no other token. -/
theorem live_refresh (route : req.route = .refresh) (cookie : req.cookie = some rawToken)
    (given : rawToken ≠ "") (live : stored.revokedAt = none)
    (found : w.db.findRefreshTokenByHash (app.hashRefreshToken rawToken) = some stored)
    (h : visit app w req choices = some (response, w')) :
    response ≠ Users.alreadyUsed ∧ ∀ token ∈ w.db.refreshTokens, token.id ≠ stored.id →
      token ∈ w'.db.refreshTokens := by
  obtain ⟨past, leads, answered⟩ := Prog.run_answered h
  have hend := (ensures_refreshEnd route (by rwa [cookie])).at_done leads
  rw [cookie] at hend
  cases hend with
  | notFound err =>
    obtain ⟨w₁, rfl, lookup⟩ := answered
    obtain ⟨rfl, -⟩ := perform_lookup found lookup
    exact ⟨by cases err <;> decide, fun token ht _ => ht⟩
  | reused stored' r used =>
    obtain ⟨w₂, ⟨w₁, rfl, lookup⟩, _⟩ := answered
    obtain ⟨-, ⟨_, same⟩ | ⟨_, err, lost⟩⟩ := perform_lookup found lookup
    · obtain rfl := Except.ok.inj same
      simp [live] at used
    · cases lost
  | expired stored' t _ =>
    obtain ⟨w₂, ⟨w₁, rfl, lookup⟩, clock⟩ := answered
    obtain ⟨rfl, -⟩ := perform_lookup found lookup
    rw [(perform_now clock).2.2]
    exact ⟨by decide, fun token ht _ => ht⟩
  | notRevoked stored' t err =>
    exact ⟨by decide, fun token ht other => rotated_others found answered ht other⟩
  | rotated stored' t later _ keeps fresh =>
    refine ⟨fresh, fun token ht other => ?_⟩
    obtain ⟨w₁, rotated, kept⟩ := answered.append (I := fun w => token ∈ w.db.refreshTokens)
      fun x hx _ _ _ ht hp => perform_keepsTokens (keeps x hx) hp ht
    exact kept (rotated_others found rotated ht other)

/-- The table is as it was, and the same cookie still works: presenting it again is not answered as
already used, and revokes no other session. -/
def Unharmed (app : Application) (req : Request) (stored : RefreshToken) (w w' : World) : Prop :=
  w'.db.refreshTokens = w.db.refreshTokens ∧
    ∀ choices response w'', visit app w' req choices = some (response, w'') →
      response ≠ Users.alreadyUsed ∧ ∀ token ∈ w'.db.refreshTokens, token.id ≠ stored.id →
        token ∈ w''.db.refreshTokens

theorem Unharmed.of_same (route : req.route = .refresh) (cookie : req.cookie = some rawToken)
    (given : rawToken ≠ "") (live : stored.revokedAt = none)
    (found : w.db.findRefreshTokenByHash (app.hashRefreshToken rawToken) = some stored)
    (same : w'.db.refreshTokens = w.db.refreshTokens) : Unharmed app req stored w w' := by
  refine ⟨same, fun choices response w'' h => live_refresh route cookie given live ?_ h⟩
  rw [← found, Database.findRefreshTokenByHash, same, Database.findRefreshTokenByHash]

/-- A token that is revoked by now was not left alone. -/
theorem Spent.harmed (valid : w.db.Valid) (stored_mem : stored ∈ w.db.refreshTokens)
    (live : stored.revokedAt = none) (spent : Spent stored w') :
    ¬ Unharmed app req stored w w' := by
  rintro ⟨same, -⟩
  obtain ⟨later, hl, continues, revoked⟩ := spent
  rw [same] at hl
  obtain rfl := valid.token_eq stored_mem hl continues.hash.symm
  exact revoked live

theorem rotated_spent {t : Instant} (stored_mem : stored ∈ w.db.refreshTokens)
    (h : w' = { w with clock := t, db := w.db.revokeRefreshToken t stored.id }) :
    Spent stored w' := by
  refine ⟨{ stored with revokedAt := some t }, ?_, ⟨rfl, rfl, rfl, fun _ => Option.some_ne_none _⟩,
    Option.some_ne_none _⟩
  rw [h]
  exact List.mem_map.mpr ⟨stored, stored_mem, if_pos rfl⟩

/-- A refresh that fails leaves the session as it was exactly when it fails before its token is
revoked. -/
theorem failed_refresh_iff (valid : w.db.Valid) (route : req.route = .refresh)
    (cookie : req.cookie = some rawToken) (given : rawToken ≠ "")
    (found : w.db.findRefreshTokenByHash (app.hashRefreshToken rawToken) = some stored)
    (live : stored.revokedAt = none) (unexpired : w.clock + (choices 1).tick ≤ stored.expiresAt)
    (h : visit app w req choices = some (response, w')) (failed : response.status ≠ 200) :
    Unharmed app req stored w w' ↔
      ((choices 0).fault ≠ .none ∨ (choices 2).fault = .before) := by
  have stored_mem : stored ∈ w.db.refreshTokens := List.mem_of_find?_eq_some found
  have same : w'.db.refreshTokens = w.db.refreshTokens → Unharmed app req stored w w' :=
    Unharmed.of_same route cookie given live found
  obtain ⟨past, leads, answered⟩ := Prog.run_answered h
  have hend := (ensures_refreshEnd route (by rwa [cookie])).at_done leads
  rw [cookie] at hend
  cases hend with
  | notFound err =>
    obtain ⟨w₁, rfl, lookup⟩ := answered
    obtain ⟨rfl, ⟨_, lost⟩ | ⟨faulty, _⟩⟩ := perform_lookup found lookup
    · cases lost
    · exact iff_of_true (same rfl) (Or.inl faulty)
  | reused stored' r used =>
    obtain ⟨w₂, ⟨w₁, rfl, lookup⟩, _⟩ := answered
    obtain ⟨-, ⟨_, ok⟩ | ⟨_, err, lost⟩⟩ := perform_lookup found lookup
    · obtain rfl := Except.ok.inj ok
      simp [live] at used
    · cases lost
  | expired stored' t late =>
    obtain ⟨w₂, ⟨w₁, rfl, lookup⟩, clock⟩ := answered
    obtain ⟨rfl, ⟨_, ok⟩ | ⟨_, err, lost⟩⟩ := perform_lookup found lookup
    · obtain rfl := Except.ok.inj ok
      obtain ⟨rfl, -⟩ := Prod.mk.inj (Option.some.inj clock)
      exact absurd late (Int.not_lt.mpr unexpired)
    · cases lost
  | notRevoked stored' t err =>
    obtain ⟨rfl, quiet, ⟨early, rfl⟩ | ⟨done, rfl⟩⟩ := rotated_answered found answered
    · exact iff_of_true (same rfl) (Or.inr early)
    · refine iff_of_false ((rotated_spent stored_mem rfl).harmed valid stored_mem live) ?_
      simp [quiet, done]
  | rotated stored' t later _ keeps fresh =>
    obtain ⟨w₁, rotated, kept⟩ := answered.append (I := fun w => Spent stored w)
      fun x hx _ _ _ spent hp => spent.later (perform_tokens hp)
    obtain ⟨w₃, ⟨w₂, before, clock⟩, revoke⟩ := rotated
    have quiet := perform_quiet revoke
    obtain ⟨rfl, quiet', ⟨early, _⟩ | ⟨done, rfl⟩⟩ :=
      rotated_answered found ⟨w₃, ⟨w₂, before, clock⟩, revoke⟩
    · cases quiet.symm.trans early
    · refine iff_of_false ((kept (rotated_spent stored_mem rfl)).harmed valid stored_mem live) ?_
      simp [quiet', done]

/-- The `n`-th call fails before it does anything. -/
private def sampleFailing (n : Nat) : Nat → Choice := fun k =>
  { sampleChoice 0 3 0 with text := "s", fault := if k = n then .before else .none }

private def sampleStored : RefreshToken := ⟨2, 1, "#r", 60000000000, none⟩

theorem failed_refresh_revocation : ∃ w',
    visit sampleApp sampleSession (sampleRefresh "r") (sampleFailing 2) =
      some (Users.revokeFailed, w') ∧
    Unharmed sampleApp (sampleRefresh "r") sampleStored sampleSession w' := by
  have h : visit sampleApp sampleSession (sampleRefresh "r") (sampleFailing 2) =
      some (Users.revokeFailed, sampleSession) := by
    decide +kernel
  exact ⟨_, h, (failed_refresh_iff sampleSession_valid rfl rfl (by decide) (by decide) rfl
    (by decide) h (by decide)).mpr (Or.inr rfl)⟩

/-- The account has another session. -/
private def sampleSessions : World :=
  { sampleSession with db := { sampleSession.db with
      refreshTokens := [sampleStored, ⟨5, 1, "#o", 60000000000, none⟩] } }

/-- The insert of the new token fails. The cookie then counts as used already, and ends both sessions. -/
theorem failed_refresh_locks_out : ∃ w' w'',
    visit sampleApp sampleSessions (sampleRefresh "r") (sampleFailing 8) =
      some (Users.refreshFailed, w') ∧
    visit sampleApp w' (sampleRefresh "r") (sampleFailing 9) = some (Users.alreadyUsed, w'') ∧
    w'.db.refreshTokens ≠ sampleSessions.db.refreshTokens ∧
    w''.db.refreshTokens.all (·.revokedAt.isSome) = true ∧
    ¬ Unharmed sampleApp (sampleRefresh "r") sampleStored sampleSessions w' := by
  let w' : World := { sampleSessions with db := sampleSessions.db.revokeRefreshToken 0 2 }
  let w'' : World := { w' with db := w'.db.revokeRefreshTokensForUser 0 1 }
  have again : visit sampleApp w' (sampleRefresh "r") (sampleFailing 9) =
      some (Users.alreadyUsed, w'') := by
    decide +kernel
  exact ⟨w', w'', by decide +kernel, again, by decide +kernel, by decide +kernel,
    fun unharmed => (unharmed.2 _ _ _ again).1 rfl⟩

end ItalyTrip
