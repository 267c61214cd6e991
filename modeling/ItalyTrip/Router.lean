import ItalyTrip.Album
import ItalyTrip.Events
import ItalyTrip.Upload
import ItalyTrip.Users

namespace ItalyTrip

open Calls

/-- The routes behind `RequireAuth`. -/
inductive AuthorizedRoute where
  | me
  | currentEvent
  | createEvent (body : Option Events.CreateEventRequest)
  | uploadPhoto (req : UploadRequest)
  | listPhotos
  | downloadAll
  | originalPhoto (id : String)

inductive Route where
  | login (body : Except String LoginRequest)
  | refresh
  | authorized (route : AuthorizedRoute)

structure Request where
  authorization : String
  cookie : Option String
  route : Route

def AuthorizedRoute.handle (app : Application) (user : User) : AuthorizedRoute → Handler Response
  | .me => Users.me (some user)
  | .currentEvent => Events.current
  | .createEvent body => Events.create (some user) body
  | .uploadPhoto req => Photos.upload app (some user) req
  | .listPhotos => Photos.list
  | .downloadAll => Photos.downloadAll app
  | .originalPhoto id => Photos.original app id

def handle (app : Application) (req : Request) : Handler Response :=
  match req.route with
  | .login body => Users.login app body
  | .refresh => Users.refresh app req.cookie
  | .authorized route => do
    let user ← requireAuth app req.authorization
    route.handle app user

/-- The response that was written, early or not. -/
def written : Except Response Response → Response
  | .ok response => response
  | .error response => response

@[simp] theorem written_ok {response : Response} : written (.ok response) = response := rfl

@[simp] theorem written_error {response : Response} : written (.error response) = response := rfl

@[simp] theorem written_map_ok {α : Type} {f : α → Response} {a : α} :
    written (Except.map f (.ok a)) = f a := rfl

@[simp] theorem written_map_error {α : Type} {f : α → Response} {response : Response} :
    written (Except.map f (.error response)) = response := rfl

def serve (app : Application) (req : Request) : Prog Call Reply Response :=
  (handle app req).run >>= fun result => pure (written result)

/-- The server under any number of concurrent requests; by itself the world only lets time pass. -/
def server (app : Application) : Machine Call Reply World Choice Nat Request Response where
  start := serve app
  perform := perform
  sync _ := false
  engine _ := 0
  env ticks w := { w with clock := w.clock + ticks }

abbrev ServerPool := Pool Call Reply World Request Response

abbrev ServerAction := Calls.Action Choice Nat Request

/-- The server keeps the constraints of its database, whatever it is asked. -/
theorem exec_valid {app : Application} {s : ServerPool} (valid : s.world.db.Valid)
    (actions : List ServerAction) : (s.exec (server app) actions).world.db.Valid :=
  Pool.exec_world (I := fun w : World => w.db.Valid) (fun _ _ _ _ _ valid hp => perform_valid valid hp)
    (fun _ _ valid => valid) valid actions

/-- A request handled alone. -/
def visit (app : Application) (w : World) (req : Request) (choices : Nat → Choice) :
    Option (Response × World) :=
  (serve app req).run perform choices w

/-- Requests handled one at a time. -/
def visits (app : Application) (w : World) : List (Request × (Nat → Choice)) → Option World
  | [] => some w
  | (req, choices) :: rest =>
    match visit app w req choices with
    | some (_, w') => visits app w' rest
    | none => none

theorem visit_isSome (app : Application) (w : World) (req : Request) (choices : Nat → Choice) :
    (visit app w req choices).isSome :=
  Prog.run_isSome (fun _ _ => perform_isSome) _ _ _

/-- What every call keeps true of the world holds after any number of requests. -/
theorem visit_keeps {app : Application} {I : World → Prop}
    (keep : ∀ o w (c : Call) (r : Reply c) w', I w → perform o w c = some (r, w') → I w')
    {w w' : World} {req : Request} {choices : Nat → Choice} {response : Response} (init : I w)
    (h : visit app w req choices = some (response, w')) : I w' := by
  obtain ⟨_, _, kept⟩ := Prog.run_invariant (I := fun _ w => I w)
    (fun _ _ w c _ r w' _ hw hp => keep _ w c r w' hw hp) init h
  exact kept

theorem visits_keeps {app : Application} {I : World → Prop}
    (keep : ∀ w req choices response w', I w → visit app w req choices = some (response, w') → I w')
    {requests : List (Request × (Nat → Choice))} {w w' : World} (init : I w)
    (h : visits app w requests = some w') : I w' := by
  induction requests generalizing w with
  | nil => exact Option.some.inj h ▸ init
  | cons request requests ih =>
    obtain ⟨req, choices⟩ := request
    simp only [visits] at h
    split at h
    next response w₁ hv => exact ih (keep w req choices response w₁ init hv) h
    next => cases h

variable {app : Application} {atCall : Past Reply → Call → Prop} {past : Past Reply}

@[simp] theorem ensures_serve {req : Request} {atDone : Past Reply → Response → Prop} :
    (serve app req).Ensures atCall atDone past ↔
      (handle app req).run.Ensures atCall (fun past result => atDone past (written result)) past := by
  simp only [serve, Prog.ensures_bind, Prog.ensures_pure]

@[simp] theorem ensures_requireAuth {header : String}
    {atDone : Past Reply → Except Response User → Prop} :
    (requireAuth app header).run.Ensures atCall atDone past ↔
      (bearerToken header = none → atDone past
        (.error (writeErrorFromString 401 "missing or malformed authorization header"))) ∧
      ∀ token, bearerToken header = some token → atCall past .now ∧ ∀ t : Instant,
        (∀ err, verify app token t = .error err →
          atDone (⟨.now, t⟩ :: past) (.error (authError err))) ∧
        ∀ subject, verify app token t = .ok subject →
          (∀ err, app.parseUUID subject = .error err → atDone (⟨.now, t⟩ :: past)
            (.error (writeErrorFromString 401 "invalid token subject"))) ∧
          ∀ id, app.parseUUID subject = .ok id →
            atCall (⟨.now, t⟩ :: past) (.query (.findUserById id)) ∧
            (∀ err, atDone (⟨.query (.findUserById id), .error err⟩ :: ⟨.now, t⟩ :: past)
              (.error userNotFound)) ∧
            ∀ user, atDone (⟨.query (.findUserById id), .ok user⟩ :: ⟨.now, t⟩ :: past) (.ok user) := by
  simp only [requireAuth, ensures_run_bind, ensures_someOrThrow, ensures_orThrow, ensures_request,
    forall_except, Except.error.injEq, Except.ok.injEq, forall_eq', reduceCtorEq, false_implies,
    implies_true, and_true, true_and]

/-- The bearer token names this user at this time. -/
structure Signed (app : Application) (header token : String) (t : Instant) (subject : String)
    (id : UUID) : Prop where
  bearer : bearerToken header = some token
  verified : verify app token t = .ok subject
  parsed : app.parseUUID subject = .ok id

/-- What a request to a route behind `RequireAuth` may do, case by case. -/
structure AuthorizedCases (app : Application) (header : String) (route : AuthorizedRoute)
    (atCall : Past Reply → Call → Prop) (atDone : Past Reply → Response → Prop) : Prop where
  noToken : bearerToken header = none → atDone []
    (writeErrorFromString 401 "missing or malformed authorization header") := by intros; trivial
  clock : atCall [] .now := by trivial
  rejected : ∀ token t err, bearerToken header = some token → verify app token t = .error err →
    atDone [⟨.now, t⟩] (authError err) := by intros; trivial
  badSubject : ∀ token t subject err, bearerToken header = some token →
    verify app token t = .ok subject → app.parseUUID subject = .error err →
    atDone [⟨.now, t⟩] (writeErrorFromString 401 "invalid token subject") := by intros; trivial
  lookup : ∀ {token t subject id}, Signed app header token t subject id →
    atCall [⟨.now, t⟩] (.query (.findUserById id)) := by intros; trivial
  notFound : ∀ {token t subject id}, Signed app header token t subject id → ∀ err,
    atDone [⟨.query (.findUserById id), .error err⟩, ⟨.now, t⟩] userNotFound := by intros; trivial
  handled : ∀ {token t subject id}, Signed app header token t subject id → ∀ user,
    (route.handle app user).run.Ensures atCall (fun past result => atDone past (written result))
      [⟨.query (.findUserById id), .ok user⟩, ⟨.now, t⟩]

theorem ensures_authorized {req : Request} {route : AuthorizedRoute}
    {atDone : Past Reply → Response → Prop} (hroute : req.route = .authorized route)
    (h : AuthorizedCases app req.authorization route atCall atDone) :
    (serve app req).Ensures atCall atDone [] := by
  rw [ensures_serve, handle, hroute]
  simp only [ensures_run_bind, ensures_requireAuth]
  refine ⟨h.noToken, fun token bearer => ⟨h.clock, fun t => ⟨?_, fun subject verified => ?_⟩⟩⟩
  · exact fun err => h.rejected token t err bearer
  refine ⟨fun err => h.badSubject token t subject err bearer verified, fun id parsed => ?_⟩
  have signed : Signed app req.authorization token t subject id := ⟨bearer, verified, parsed⟩
  exact ⟨h.lookup signed, h.notFound signed, h.handled signed⟩

/-- While the token stays good, only a missing user keeps a request from its handler. -/
theorem ensures_signed {req : Request} {route : AuthorizedRoute} {token subject : String} {id : UUID}
    {goal : Past Reply → Response → Prop} (hroute : req.route = .authorized route)
    (bearer : bearerToken req.authorization = some token)
    (parsed : app.parseUUID subject = .ok id) (clock : atCall [] .now)
    (lookup : ∀ t id, atCall [⟨.now, t⟩] (.query (.findUserById id)))
    (notFound : ∀ t err, goal [⟨.query (.findUserById id), .error err⟩, ⟨.now, t⟩] userNotFound)
    (handled : ∀ t id user, (route.handle app user).run.Ensures atCall
      (fun past result => (∀ t : Instant, ⟨.now, t⟩ ∈ past → verify app token t = .ok subject) →
        goal past (written result)) [⟨.query (.findUserById id), .ok user⟩, ⟨.now, t⟩]) :
    (serve app req).Ensures atCall (fun past response =>
      (∀ t : Instant, ⟨.now, t⟩ ∈ past → verify app token t = .ok subject) →
        goal past response) [] := by
  refine ensures_authorized hroute
    { noToken := fun h => by rw [bearer] at h; cases h
      clock := clock
      rejected := ?_
      badSubject := ?_
      lookup := fun _ => lookup _ _
      notFound := ?_
      handled := fun _ => handled _ _ }
  · intro token' t err h rejected verified
    obtain rfl := Option.some.inj (bearer.symm.trans h)
    rw [verified t List.mem_cons_self] at rejected
    cases rejected
  · intro token' t subject' err h signed bad verified
    obtain rfl := Option.some.inj (bearer.symm.trans h)
    obtain rfl := Except.ok.inj ((verified t List.mem_cons_self).symm.trans signed)
    rw [parsed] at bad
    cases bad
  · intro token' t subject' id' signed err verified
    obtain rfl := Option.some.inj (bearer.symm.trans signed.bearer)
    have now := verified t (List.mem_cons_of_mem _ List.mem_cons_self)
    obtain rfl := Except.ok.inj (now.symm.trans signed.verified)
    obtain rfl := Except.ok.inj (parsed.symm.trans signed.parsed)
    exact notFound t err

section Sample

private def hexValue (c : Char) : Option Nat :=
  if '0' ≤ c ∧ c ≤ '9' then some (c.toNat - 48)
  else if 'a' ≤ c ∧ c ≤ 'f' then some (c.toNat - 87)
  else if 'A' ≤ c ∧ c ≤ 'F' then some (c.toNat - 55)
  else none

/-- A small server: it reads canonical UUIDs, and the token `user` belongs to user 1. -/
def sampleApp : Application where
  parseUUID raw :=
    let digits := raw.toList.filter (· ≠ '-')
    match digits.mapM hexValue with
    | some values =>
      if values.length = 32 ∧ raw.toList.length = 36 then
        .ok (BitVec.ofNat 128 (values.foldl (fun n v => 16 * n + v) 0))
      else .error "invalid UUID length"
    | none => .error "invalid UUID format"
  parseRFC3339 raw := if raw = "1970-01-01T00:00:02Z" then .ok 2000000000 else .error "bad time"
  detectContentType data :=
    if [0xff, 0xd8, 0xff].isPrefixOf data then "image/jpeg" else "application/octet-stream"
  decodeConfig _ := .ok (1, 1)
  decode _ := .ok ⟨1, 1, [0]⟩
  catmullRom src _ _ := src
  encode _ _ := .ok [0xff, 0xd8, 0xff, 0xd9]
  parseWithClaims _ token _ :=
    if token = "user" then .ok (uuidString 1, true)
    else if token = "old" then .error .tokenExpired else .error .other
  signedString _ _ _ _ := .ok "user"
  compareHashAndPassword hash password := hash = "#" ++ password
  hashRefreshToken token := "#" ++ token
  quote s := "\"" ++ s ++ "\""
  jwtSecret := "secret"
  jwtTTL := 86400000000000
  refreshTokenTTL := 2592000000000000
  maxUploadBytes := 1024

def sampleUser : User := ⟨1, "trip@example.com", "#pasta", none⟩

/-- A database with the shared account and nothing else. -/
def sampleWorld : World := ⟨⟨[sampleUser], [], [], []⟩, [], 0⟩

def sampleRequest (route : AuthorizedRoute) : Request := ⟨"Bearer user", none, .authorized route⟩

def sampleCreate (startsAt endsAt : Instant) : Request :=
  sampleRequest (.createEvent (some ⟨startsAt * 1000000000, endsAt * 1000000000⟩))

def sampleUpload (clientID : String) : Request :=
  sampleRequest (.uploadPhoto ⟨100, .ok (.ok [0xff, 0xd8, 0xff]), clientID, "1970-01-01T00:00:02Z"⟩)

/-- No faults; each reading of the clock finds it `seconds` later. -/
def sampleChoice (seconds : Nat) (id : UUID) (createdAt : Instant) : Choice :=
  ⟨.none, seconds * 1000000000, id, createdAt, "text", none, true⟩

theorem sampleWorld_valid : sampleWorld.db.Valid := by
  constructor <;> simp [sampleWorld, sampleUser]

/-- An event from 0 to 10 seconds is created and a photo is uploaded to it. -/
def sampleTrip : List (Request × (Nat → Choice)) :=
  [(sampleCreate 0 10, fun _ => sampleChoice 1 7 1),
    (sampleUpload (uuidString 9), fun _ => sampleChoice 1 8 0)]

def sampleTripWorld : World := (visits sampleApp sampleWorld sampleTrip).getD sampleWorld

def sampleEvent : Event := ⟨7, "Italy Trip", 0, 10000000000, 1, some 1⟩

def samplePhoto : Photo :=
  ⟨8, 7, 1, uuidString 9, Photos.photoKey (uuidString 8), Photos.thumbKey (uuidString 8),
    "image/jpeg", 1, 1, 3, 2000000000⟩

end Sample

end ItalyTrip
