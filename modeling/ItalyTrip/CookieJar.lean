import ItalyTrip.Sessions
import ItalyTrip.System

namespace ItalyTrip

open Calls

/-- A Login or Refresh on its way: the request, the server's answer once it has handled it, and whether
the browser has got that. -/
structure Message where
  request : Request
  answer : Option Response
  received : Bool

/-- What a browser makes of `Set-Cookie`. -/
def setCookie (jar : Option String) (response : Response) : Option String :=
  match response.cookie with
  | none => jar
  | some cookie => if cookie.maxAge < 0 then none else some cookie.value

/-- One browser with its tabs and one cookie jar, the messages between it and the server, and the server.
`handled` records what the server has handled, the latest first. -/
structure JarWorld where
  browser : Browser
  jar : Option String
  messages : List Message
  server : World
  handled : List (Request × Response)

/-- `delivery` is the message whose answer a fetch of `/auth/refresh` gets, if that is not lost. The
other requests of the tabs get any response. -/
structure JarChoice where
  client : ClientChoice
  delivery : Option Nat
  statusText : String

/-- What happens besides: the tabs and the browser go on, somebody logs in, the server handles a message,
an answer to Login arrives, time passes at the server. -/
inductive JarEvent where
  | browser (e : BrowserEvent)
  | evict
  | login (body : Except String LoginRequest)
  | handle (i : Nat) (choices : Nat → Choice)
  | loggedIn (i : Nat)
  | wait (ticks : Nat)

namespace JarWorld

variable (w : JarWorld)

def send (route : Route) : JarWorld :=
  { w with messages := w.messages ++ [⟨⟨"", w.jar, route⟩, none, false⟩] }

/-- The answer of a message arrives. -/
def receive (i : Nat) : Option (Request × Response × JarWorld) :=
  match w.messages[i]? with
  | some ⟨request, some response, false⟩ => some (request, response,
    { w with messages := w.messages.set i ⟨request, some response, true⟩
             jar := setCookie w.jar response })
  | _ => none

def onBrowser (o : ClientChoice) (c : ClientCall) : Option (ClientReply c × JarWorld) :=
  match w.browser.perform o c with
  | some (r, browser) => some (r, { w with browser })
  | none => none

/-- The refresh is sent where its chain begins, with the cookie the jar holds then. -/
def perform (o : JarChoice) : (c : ClientCall) → Option (ClientReply c × JarWorld)
  | .beginRefresh tab p => (w.send .refresh).onBrowser o.client (.beginRefresh tab p)
  | .fetch .refresh =>
    match o.delivery with
    | none => w.onBrowser { o.client with response := .error "Failed to fetch" } (.fetch .refresh)
    | some i =>
      match w.receive i with
      | some (⟨_, _, .refresh⟩, response, w') =>
        w'.onBrowser { o.client with response := .ok (response.http o.statusText) } (.fetch .refresh)
      | _ => none
  | c => w.onBrowser o.client c

/-- The server handles requests one at a time and without faults. -/
def handle (app : Application) (i : Nat) (choices : Nat → Choice) : JarWorld :=
  match w.messages[i]? with
  | some ⟨request, none, received⟩ =>
    match visit app w.server request fun n => { choices n with fault := .none } with
    | some (response, server) =>
      { w with server, messages := w.messages.set i ⟨request, some response, received⟩
               handled := (request, response) :: w.handled }
    | none => w
  | _ => w

def loggedIn (i : Nat) : JarWorld :=
  match w.receive i with
  | some (⟨_, _, .login _⟩, response, w') =>
    match response.body with
    | .auth token _ => { w' with browser := w'.browser.env (.login token) }
    | _ => w'
  | _ => w

def env (app : Application) : JarEvent → JarWorld
  | .browser e => { w with browser := w.browser.env e }
  | .evict => { w with jar := none }
  | .login body => w.send (.login body)
  | .handle i choices => w.handle app i choices
  | .loggedIn i => w.loggedIn i
  | .wait ticks => { w with server := { w.server with clock := w.server.clock + (ticks : Nat) } }

end JarWorld

/-- Any number of tabs of one browser, each with its own client, which share the jar. -/
def jarMachine (app : Application) (localeLE : String → String → Bool) :
    Machine ClientCall ClientReply JarWorld JarChoice JarEvent ClientTask (Except JsError Unit) where
  start task := (task.script localeLE).run
  perform o w := w.perform o
  sync := ClientCall.sync
  engine := ClientTask.tab
  env e w := w.env app e

abbrev JarPool := Pool ClientCall ClientReply JarWorld ClientTask (Except JsError Unit)

abbrev JarAction := Calls.Action JarChoice JarEvent ClientTask

/-- A refresh token that the answer gives the browser. -/
def Response.issues (response : Response) : Option String :=
  match response.cookie with
  | none => none
  | some cookie => if cookie.maxAge < 0 then none else some cookie.value

abbrev hashOf (app : Application) (cookie : Option String) : String :=
  app.hashRefreshToken (cookie.getD "")

/-- What a session does to the tokens: it may add one, under a hash that is not there yet. -/
structure Extended (app : Application) (before after : List RefreshToken) (response : Response) :
    Prop where
  tokens : ∃ new, after = before ++ new ∧ ∀ row ∈ new, row.revokedAt = none
  issued : ∀ rawToken, response.issues = some rawToken →
    (∀ row ∈ before, row.tokenHash ≠ app.hashRefreshToken rawToken) ∧
      ∃ row ∈ after, row.tokenHash = app.hashRefreshToken rawToken
  answer : response.status ≠ 401

/-- What handling a Login or Refresh does to the tokens: nothing, or it finds the token revoked, or it
begins a session, after revoking the token of a Refresh. -/
inductive Handled (app : Application) (w w' : World) (req : Request) (response : Response) : Prop
  | refused (tokens : w'.db.refreshTokens = w.db.refreshTokens) (issues : response.issues = none)
      (refusal : req.route = .refresh → response.status = 401 ∧ response ≠ Users.alreadyUsed ∧
        (req.cookie.getD "" = "" ∨ ∀ row ∈ w.db.refreshTokens, row.tokenHash = hashOf app req.cookie →
          row.revokedAt = none))
  | reused (route : req.route = .refresh) (cookie : req.cookie.getD "" ≠ "") (row)
      (found : row ∈ w.db.refreshTokens)
      (hash : row.tokenHash = hashOf app req.cookie) (spent : row.revokedAt ≠ none)
      (answer : response = Users.alreadyUsed)
  | login (route : req.route ≠ .refresh)
      (session : Extended app w.db.refreshTokens w'.db.refreshTokens response)
  | rotated (route : req.route = .refresh) (cookie : req.cookie.getD "" ≠ "") (row) (now : Instant)
      (found : row ∈ w.db.refreshTokens) (hash : row.tokenHash = hashOf app req.cookie)
      (live : row.revokedAt = none)
      (session : Extended app (w.db.revokeRefreshToken now row.id).refreshTokens
        w'.db.refreshTokens response)

/-- The exchanges of a request that is handled alone and without faults. -/
abbrev Quietly (w : World) (past : Past Reply) (w' : World) : Prop :=
  Prog.Replays perform (fun o : Choice => o.fault = .none) w past w'

variable {app : Application}

theorem perform_sameTokens {o : Choice} {w w' : World} {c : Call} {r : Reply c} (within : Within [] c)
    (h : perform o w c = some (r, w')) : w'.db.refreshTokens = w.db.refreshTokens := by
  rcases perform_effect h with hdb | ⟨q, rfl, hdb⟩
  · rw [hdb]
  · have none : q.writes ⊆ [] := within q rfl
    rw [hdb]
    exact (Database.exec_frame q).2.2.2 fun hq => absurd (none hq) List.not_mem_nil

theorem Quietly.sameTokens {w w' : World} {c : Call} {r : Reply c} {past : Past Reply}
    (within : Within [] c) (h : Quietly w (⟨c, r⟩ :: past) w') :
    ∃ w₁, Quietly w past w₁ ∧ w'.db.refreshTokens = w₁.db.refreshTokens := by
  obtain ⟨o, w₁, _, before, hp⟩ := h
  exact ⟨w₁, before, perform_sameTokens within hp⟩

theorem extended_same {before : List RefreshToken} {response : Response} (status : response.status ≠ 401)
    (issues : response.issues = none) : Extended app before before response := by
  refine ⟨⟨[], (List.append_nil _).symm, fun _ h => absurd h List.not_mem_nil⟩, ?_, status⟩
  intro rawToken h
  rw [issues] at h
  cases h

/-- A call for a new token leaves the tokens as they are, or adds one under a hash of its own. -/
theorem created_token {o : Choice} {w w' : World} {arg : CreateRefreshTokenParams}
    {r : Except DbError RefreshToken} (quiet : o.fault = .none)
    (h : perform o w (.query (.createRefreshToken arg)) = some (r, w')) :
    ((∃ e, r = .error e) ∧ w'.db.refreshTokens = w.db.refreshTokens) ∨
      ∃ row : RefreshToken, r = .ok row ∧ w'.db.refreshTokens = w.db.refreshTokens ++ [row] ∧
        row.tokenHash = arg.tokenHash ∧ row.revokedAt = none ∧
        ∀ other ∈ w.db.refreshTokens, other.tokenHash ≠ arg.tokenHash := by
  have hx : w.db.createRefreshToken o.defaults arg = (r, w'.db) := perform_faultless quiet h
  rcases Database.createRefreshToken_cases w.db o.defaults arg with
    ⟨same, error⟩ | ⟨row, hrow, hash, _, live, _, free, _⟩
  · rw [hx] at same error
    exact Or.inl ⟨error, congrArg Database.refreshTokens same⟩
  · rw [hx] at hrow
    obtain ⟨hr, hdb⟩ := Prod.mk.inj hrow
    refine Or.inr ⟨row, hr, congrArg Database.refreshTokens hdb, hash, live, ?_⟩
    intro other hother equal
    have taken : w.db.refreshTokens.any (·.tokenHash == row.tokenHash) = true :=
      List.any_eq_true.mpr ⟨other, hother, by simp [equal, hash]⟩
    rw [free] at taken
    cases taken

theorem session_extends {user : User} {w : World} {before : Past Reply} :
    (Users.session app user).run.Ensures (fun _ _ => True) (fun past result => ∀ w', Quietly w past w' →
      ∃ w₁, Quietly w before w₁ ∧
        Extended app w₁.db.refreshTokens w'.db.refreshTokens (written result)) before := by
  have clocks : ∀ {w₃ : World} {t t' : Instant},
      Quietly w (⟨.now, t'⟩ :: ⟨.now, t⟩ :: before) w₃ →
      ∃ w₁, Quietly w before w₁ ∧ w₃.db.refreshTokens = w₁.db.refreshTokens := by
    intro w₃ t t' h
    obtain ⟨w₂, h, same⟩ := h.sameTokens within_now
    obtain ⟨w₁, h, same'⟩ := h.sameTokens within_now
    exact ⟨w₁, h, same.trans same'⟩
  have generated : ∀ {w₅ : World} {t t' t'' : Instant} {r : Reply .generateRefreshToken},
      Quietly w (⟨.now, t''⟩ :: ⟨.generateRefreshToken, r⟩ :: ⟨.now, t'⟩ :: ⟨.now, t⟩ :: before) w₅ →
      ∃ w₁, Quietly w before w₁ ∧ w₅.db.refreshTokens = w₁.db.refreshTokens := by
    intro w₅ t t' t'' r h
    obtain ⟨w₄, h, same⟩ := h.sameTokens within_now
    obtain ⟨w₃, h, same'⟩ := h.sameTokens within_generate
    obtain ⟨w₁, h, same''⟩ := clocks h
    exact ⟨w₁, h, (same.trans same').trans same''⟩
  rw [Users.ensures_session]
  refine ⟨trivial, fun t => ⟨trivial, fun t' => ⟨fun _ _ w' h => ?_, fun token _ =>
    ⟨trivial, fun _ w' h => ?_, fun rawToken => ⟨trivial, fun t'' => ⟨trivial, fun err w' h => ?_,
      fun row w' h => ?_⟩⟩⟩⟩⟩⟩
  · obtain ⟨w₁, h, same⟩ := clocks h
    exact ⟨w₁, h, same ▸ extended_same (by decide) rfl⟩
  · obtain ⟨w₂, h, same⟩ := h.sameTokens within_generate
    obtain ⟨w₁, h, same'⟩ := clocks h
    exact ⟨w₁, h, same.trans same' ▸ extended_same (by decide) rfl⟩
  · obtain ⟨o, w₅, quiet, h, hp⟩ := h
    obtain ⟨w₁, h, same⟩ := generated h
    rcases created_token quiet hp with ⟨_, same'⟩ | ⟨row, hr, _⟩
    · exact ⟨w₁, h, same'.trans same ▸ extended_same (by decide) rfl⟩
    · cases hr
  · obtain ⟨o, w₅, quiet, h, hp⟩ := h
    obtain ⟨w₁, h, same⟩ := generated h
    rcases created_token quiet hp with ⟨⟨e, hr⟩, _⟩ | ⟨row', hr, added, hash, live, free⟩
    · cases hr
    · cases hr
      rw [same] at added free
      refine ⟨w₁, h, ⟨[row], added, ?_⟩, ?_, Nat.ne_of_beq_eq_false rfl⟩
      · intro new hnew
        rwa [List.mem_singleton.mp hnew]
      · intro raw issued
        obtain rfl : rawToken = raw := by
          simp only [Response.issues, written, Users.sessionResponse] at issued
          split at issued
          · cases issued
          · exact Option.some.inj issued
        refine ⟨free, row, ?_, hash⟩
        rw [added]
        exact List.mem_append_right _ (List.mem_singleton_self _)

/-- What a refresh has found, and the database it found it in. -/
theorem found_quietly {w w' : World} {cookie : Option String} {stored : RefreshToken}
    (h : Quietly w (Users.found app cookie stored []) w') :
    w'.db = w.db ∧ stored ∈ w.db.refreshTokens ∧ stored.tokenHash = hashOf app cookie := by
  obtain ⟨o, w₁, quiet, rfl, hp⟩ := h
  obtain ⟨hr, hdb⟩ := Prod.mk.inj (perform_faultless quiet hp)
  have hf := oneRow_ok hr.symm
  exact ⟨hdb.symm, List.mem_of_find?_eq_some hf, by simpa using List.find?_some hf⟩

theorem revoked_quietly {w w' : World} {cookie : Option String} {stored : RefreshToken} {t : Instant}
    {r : Except DbError Unit} (h : Quietly w (Users.rotated app cookie stored t r []) w') :
    r = .ok () ∧ (∃ now, w'.db = w.db.revokeRefreshToken now stored.id) ∧
      stored ∈ w.db.refreshTokens ∧ stored.tokenHash = hashOf app cookie := by
  obtain ⟨o, w₂, quiet, h, hp⟩ := h
  obtain ⟨o', w₁, _, h, hp'⟩ := h
  obtain ⟨same, found⟩ := found_quietly h
  have same' : w₂.db = w₁.db := by rw [(perform_now hp').2.2]
  obtain ⟨hr, hdb⟩ := Prod.mk.inj (perform_faultless quiet hp)
  exact ⟨hr.symm, ⟨w₂.clock, by rw [← hdb, same', same]⟩, found⟩

/-- A live row of a valid database is the only one under its hash. -/
theorem only_live {w : World} (valid : w.db.Valid) {stored : RefreshToken} {hash : String}
    (hmem : stored ∈ w.db.refreshTokens) (hhash : stored.tokenHash = hash)
    (live : stored.revokedAt = none) :
    ∀ row ∈ w.db.refreshTokens, row.tokenHash = hash → row.revokedAt = none := by
  intro row hrow heq
  rwa [valid.token_eq hrow hmem (heq.trans hhash.symm)]

theorem refresh_handled {w : World} {req : Request} (route : req.route = .refresh)
    (valid : w.db.Valid) :
    (Users.refresh app req.cookie).run.Ensures (fun _ _ => True) (fun past result =>
      ∀ w', Quietly w past w' → Handled app w w' req (written result)) [] := by
  have unused : ∀ {status : Nat} {message : String} {cookie : Option SetCookie},
      message ≠ "refresh token already used" →
      (⟨status, .error message none, cookie⟩ : Response) ≠ Users.alreadyUsed := by
    intro status message cookie hm h
    have body := congrArg Response.body h
    simp only [Users.alreadyUsed, Users.clearRefreshCookie, writeErrorFromString, Body.error.injEq,
      and_true] at body
    exact hm body
  have live : ∀ {stored : RefreshToken}, ¬ stored.revokedAt.isSome = true →
      stored.revokedAt = none := fun h => by simpa using h
  by_cases missing : req.cookie.getD "" = ""
  · simp only [Users.refresh, missing, ensures_run_bind, ensures_throwIf, not_true, false_implies,
      and_true, forall_const]
    rintro w' rfl
    exact .refused rfl rfl fun _ => ⟨rfl, unused (by simp), Or.inl missing⟩
  refine Users.ensures_refresh
    { noCookie := fun h => absurd h missing
      notFound := fun err w' h => ?_
      reused := fun stored r used w' h => ?_
      expired := fun stored t hlive _ w' h => ?_
      notRevoked := fun stored t err w' h => ?_
      notOwned := fun stored t err w' h => ?_
      session := fun stored t user hlive => ?_ }
  · obtain ⟨o, w₁, quiet, rfl, hp⟩ := h
    obtain ⟨hr, hdb⟩ := Prod.mk.inj (perform_faultless quiet hp)
    obtain ⟨rfl, none⟩ := oneRow_error hr.symm
    refine .refused (by rw [← hdb]) rfl fun _ => ⟨rfl, unused (by simp), Or.inr ?_⟩
    intro row hrow heq
    exact absurd (by simpa using heq) (List.find?_eq_none.mp none row hrow)
  · obtain ⟨o, w₁, quiet, h, hp⟩ := h
    obtain ⟨_, hmem, hhash⟩ := found_quietly h
    exact .reused route missing stored hmem hhash (by simpa [Option.isSome_iff_ne_none] using used) rfl
  · obtain ⟨o, w₁, quiet, h, hp⟩ := h
    obtain ⟨same, hmem, hhash⟩ := found_quietly h
    have same' : w'.db = w₁.db := by rw [(perform_now hp).2.2]
    refine .refused (by rw [same', same]) rfl fun _ => ⟨rfl, unused (by simp), Or.inr ?_⟩
    exact only_live valid hmem hhash (live hlive)
  · obtain ⟨failed, _⟩ := revoked_quietly h
    cases failed
  · obtain ⟨o, w₁, quiet, h, hp⟩ := h
    obtain ⟨_, ⟨now, hdb⟩, hmem, _⟩ := revoked_quietly h
    obtain ⟨hr, _⟩ := Prod.mk.inj (perform_faultless quiet hp)
    obtain ⟨_, none⟩ := oneRow_error hr.symm
    obtain ⟨user, huser, hid⟩ := Database.hasUser_iff.mp (valid.tokens_user stored hmem)
    rw [hdb] at none
    exact absurd (by simpa using hid) (List.find?_eq_none.mp none user huser)
  · refine (session_extends (w := w)).mono (fun _ _ _ => trivial) fun past result made w' h => ?_
    obtain ⟨w₁, before, extended⟩ := made w' h
    obtain ⟨w₂, before, same⟩ := before.sameTokens (by simp [Query.writes])
    obtain ⟨_, ⟨now, hdb⟩, hmem, hhash⟩ := revoked_quietly before
    rw [same, hdb] at extended
    exact .rotated route missing stored now hmem hhash (live hlive) extended

/-- A Login says nothing about the tokens there are, whoever it is for. -/
theorem login_handled {w : World} {req : Request} {body : Except String LoginRequest}
    (route : req.route = .login body) :
    (Users.login app body).run.Ensures (fun _ _ => True) (fun past result =>
      ∀ w', Quietly w past w' → Handled app w w' req (written result)) [] := by
  have other : req.route ≠ .refresh := by simp [route]
  have failed : ∀ {w' : World} {status : Nat} {message : String},
      w'.db.refreshTokens = w.db.refreshTokens →
      Handled app w w' req (writeErrorFromString status message) :=
    fun same => .refused same rfl fun h => absurd h other
  simp only [Users.login, ensures_run_bind, ensures_orThrow, ensures_request, ensures_throwIf]
  refine ⟨?_, fun req _ => ⟨trivial, fun r => ⟨?_, fun user _ => ⟨?_, fun _ => ?_⟩⟩⟩⟩
  · rintro message _ w' rfl
    exact failed rfl
  · intro err _ w' h
    obtain ⟨w₁, rfl, same⟩ := h.sameTokens (by simp [Query.writes])
    cases err <;> exact failed same
  · intro _ w' h
    obtain ⟨w₁, rfl, same⟩ := h.sameTokens (by simp [Query.writes])
    exact failed same
  · refine (session_extends (w := w)).mono (fun _ _ _ => trivial) fun past result made w' h => ?_
    obtain ⟨w₁, before, extended⟩ := made w' h
    obtain ⟨w₂, rfl, same⟩ := before.sameTokens (by simp [Query.writes])
    rw [same] at extended
    exact .login other extended

/-- What handling a Login or Refresh alone and without faults does. -/
theorem visit_handled {w w' : World} {req : Request} {response : Response} {choices : Nat → Choice}
    (valid : w.db.Valid) (route : req.route = .refresh ∨ ∃ body, req.route = .login body)
    (quiet : ∀ n, (choices n).fault = .none) (h : visit app w req choices = some (response, w')) :
    Handled app w w' req response := by
  have replays : ∃ past, (serve app req).Leads past (.done response) ∧ Quietly w past w' :=
    Prog.run_replays quiet h
  obtain ⟨past, leads, before⟩ := replays
  have cases : (serve app req).Ensures (fun _ _ => True) (fun past response =>
      ∀ w', Quietly w past w' → Handled app w w' req response) [] := by
    rw [ensures_serve, handle]
    rcases route with route | ⟨body, route⟩ <;> rw [route]
    · exact refresh_handled route valid
    · exact login_handled route
  exact cases.at_done leads w' before

end ItalyTrip
