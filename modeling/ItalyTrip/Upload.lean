import ItalyTrip.Images
import ItalyTrip.Lock

namespace ItalyTrip

/-- The body of an upload: its size on the wire, what `FormFile` and then reading the part give, and
the two form values. -/
structure UploadRequest where
  bodySize : Nat
  file : Except String (Except String Bytes)
  clientID : String
  takenAt : String

namespace Photos

open Calls

def defaultMaxUploadBytes : Int64 := (15 : Int64) <<< (20 : Int64)

def uploadLimit (app : Application) : Int64 :=
  if app.maxUploadBytes ≤ 0 then defaultMaxUploadBytes else app.maxUploadBytes

/-- An error and whether it is a `MaxBytesError`. -/
inductive ReadError where
  | tooLarge
  | other (message : String)

def uploadResponse (row : Photo) (duplicate : Bool) : UploadResponse :=
  ⟨uuidString row.id, row.clientID, duplicate⟩

def tooLargeResponse (limit : Int64) : Response :=
  writeErrorFromString 413 s!"photo exceeds the {limit.toInt} byte limit"

def formFile (limit : Int64) (req : UploadRequest) : Except ReadError (Except String Bytes) :=
  if limit.toInt < req.bodySize then .error .tooLarge
  else req.file.mapError fun err => .other ("missing or unreadable 'file' field: " ++ err)

def parseClientID (app : Application) (raw : String) : Except String String :=
  if raw = "" then .error "client_id is required"
  else ((app.parseUUID raw).mapError ("client_id must be a UUID: " ++ ·)).map uuidString

def parseTakenAt (app : Application) (raw : String) : Except String Instant :=
  if raw = "" then .error "taken_at is required"
  else (app.parseRFC3339 raw).mapError ("taken_at must be RFC3339: " ++ ·)

/-- The sum `limit + 1` wraps at the largest `int64`. -/
def readUpload (file : Except String Bytes) (limit : Int64) : Except ReadError Bytes := do
  let content ← file.mapError .other
  let data := content.take (limit + 1).toInt.toNat
  if limit.toInt < data.length then throw .tooLarge
  if data.length = 0 then throw (.other "uploaded file is empty")
  return data

def readResponse (limit : Int64) : ReadError → Response
  | .tooLarge => tooLargeResponse limit
  | .other err => writeErrorFromString 400 err

structure UploadForm where
  file : Except String Bytes
  clientID : String
  takenAt : Instant

def readForm (app : Application) (req : UploadRequest) : Except Response UploadForm := do
  let file ← (formFile (uploadLimit app) req).mapError (readResponse (uploadLimit app))
  let clientID ← (parseClientID app req.clientID).mapError (writeErrorFromString 400)
  let takenAt ← (parseTakenAt app req.takenAt).mapError (writeErrorFromString 400)
  return ⟨file, clientID, takenAt⟩

/-- Sniff the real type: a client can declare any it likes. -/
def requireJPEG (detected : String) : Except Response Unit :=
  if detected = "image/jpeg" then .ok ()
  else .error (writeErrorFromString 400 s!"file must be a JPEG, detected {detected}")

def readImage (app : Application) (file : Except String Bytes) :
    Except Response (Bytes × Images.Thumb) := do
  let original ← (readUpload file (uploadLimit app)).mapError (readResponse (uploadLimit app))
  requireJPEG (app.detectContentType original)
  let thumb ← (Images.make app.toPackages original).mapError fun _ =>
    writeErrorFromString 400 "file is not a decodable JPEG"
  return (original, thumb)

/-- The response blames the request. -/
def Refusal (response : Response) : Prop :=
  ∃ status message, response = writeErrorFromString status message ∧ 400 ≤ status ∧ status < 423

def Refuses {α : Type} (x : Except Response α) : Prop := ∀ response, x = .error response → Refusal response

theorem refuses_ok {α : Type} {a : α} : Refuses (.ok a) := fun _ h => by cases h

theorem refuses_mapError {ε α : Type} {x : Except ε α} {f : ε → Response}
    (h : ∀ e, Refusal (f e)) : Refuses (x.mapError f) := by
  intro response hx
  cases x with
  | ok a => cases hx
  | error e =>
    cases hx
    exact h e

theorem Refuses.bind {α β : Type} {x : Except Response α} {f : α → Except Response β}
    (hx : Refuses x) (hf : ∀ a, Refuses (f a)) : Refuses (x >>= f) := by
  intro response h
  cases x with
  | ok a => exact hf a response h
  | error e =>
    cases h
    exact hx _ rfl

theorem refusal_bad {message : String} : Refusal (writeErrorFromString 400 message) :=
  ⟨400, message, rfl, by decide, by decide⟩

theorem readResponse_refusal {limit : Int64} (err : ReadError) :
    Refusal (readResponse limit err) := by
  cases err with
  | tooLarge => exact ⟨413, _, rfl, by decide, by decide⟩
  | other message => exact refusal_bad

/-- A form or file that is turned down is always the client's fault. -/
theorem readForm_refuses (app : Application) (req : UploadRequest) : Refuses (readForm app req) := by
  refine (refuses_mapError readResponse_refusal).bind fun file => ?_
  refine (refuses_mapError fun _ => refusal_bad).bind fun clientID => ?_
  exact (refuses_mapError fun _ => refusal_bad).bind fun takenAt => refuses_ok

theorem readForm_ok {app : Application} {req : UploadRequest} {form : UploadForm}
    (h : readForm app req = .ok form) : formFile (uploadLimit app) req = .ok form.file ∧
      parseClientID app req.clientID = .ok form.clientID ∧
      parseTakenAt app req.takenAt = .ok form.takenAt := by
  unfold readForm at h
  obtain ⟨file, hfile, h⟩ := except_bind_ok h
  obtain ⟨clientID, hid, h⟩ := except_bind_ok h
  obtain ⟨takenAt, htime, h⟩ := except_bind_ok h
  cases h
  exact ⟨mapError_ok hfile, mapError_ok hid, mapError_ok htime⟩

theorem readImage_refuses (app : Application) (file : Except String Bytes) :
    Refuses (readImage app file) := by
  refine (refuses_mapError readResponse_refusal).bind fun original => ?_
  refine Refuses.bind ?_ fun _ => ?_
  · intro response h
    unfold requireJPEG at h
    split at h
    next => cases h
    next =>
      cases h
      exact refusal_bad
  · exact (refuses_mapError fun _ => refusal_bad).bind fun thumb => refuses_ok

/-- A read that is not empty and fills `limit + 1` bytes is over the limit, also where the sum wraps. -/
theorem lt_of_limit {limit : Int64} {n : Nat} (full : n = (limit + 1).toInt.toNat) (pos : n ≠ 0) :
    limit.toInt < n := by
  have lt := limit.toInt_lt
  have le := limit.le_toInt
  rw [Int64.toInt_add, show (1 : Int64).toInt = 1 from rfl, Int.bmod_def] at full
  split at full <;> omega

/-- What is accepted of a file is the whole file. -/
theorem readUpload_ok {file : Except String Bytes} {limit : Int64} {data : Bytes}
    (h : readUpload file limit = .ok data) : file = .ok data := by
  unfold readUpload at h
  obtain ⟨content, read, h⟩ := except_bind_ok h
  dsimp only at h
  split at h
  · cases h
  next small =>
    split at h
    · cases h
    next nonempty =>
      cases h
      rw [mapError_ok read]
      congr 1
      refine (List.take_of_length_le ?_).symm
      by_contra long
      exact small (lt_of_limit (List.length_take_of_le (Nat.le_of_not_le long)) nonempty)

theorem formFile_ok {limit : Int64} {req : UploadRequest} {file : Except String Bytes}
    (h : formFile limit req = .ok file) : req.file = .ok file := by
  unfold formFile at h
  split at h
  · cases h
  · exact mapError_ok h

theorem readImage_ok {app : Application} {file : Except String Bytes} {original : Bytes}
    {thumb : Images.Thumb} (h : readImage app file = .ok (original, thumb)) :
    file = .ok original ∧ Images.make app.toPackages original = .ok thumb := by
  unfold readImage at h
  obtain ⟨data, read, h⟩ := except_bind_ok h
  obtain ⟨_, _, h⟩ := except_bind_ok h
  obtain ⟨image, made, h⟩ := except_bind_ok h
  cases h
  exact ⟨readUpload_ok (mapError_ok read), mapError_ok made⟩

def photoKey (id : String) : String := "photos/" ++ id ++ ".jpg"

def thumbKey (id : String) : String := "thumbs/" ++ id ++ ".jpg"

theorem photoKey_inj {a b : String} (h : photoKey a = photoKey b) : a = b := by
  have h := congrArg String.toList h
  exact String.ext (by simpa [photoKey] using h)

theorem thumbKey_inj {a b : String} (h : thumbKey a = thumbKey b) : a = b := by
  have h := congrArg String.toList h
  exact String.ext (by simpa [thumbKey] using h)

theorem photoKey_ne_thumbKey (a b : String) : photoKey a ≠ thumbKey b := by
  intro h
  have h := congrArg String.toList h
  simp [photoKey, thumbKey] at h

def saveFailed : Response := writeErrorFromString 500 "failed to save photo"

/-- A unique violation is turned back into the row that won. -/
def resolveRace (eventID : UUID) (clientID : String) : DbError → Handler Photo
  | .uniqueViolation => do
    let winner ← call (.query (.findPhotoByClientId eventID clientID))
    orThrow winner fun _ => saveFailed
  | _ => throw saveFailed

@[simp] theorem ensures_resolveRace {eventID : UUID} {clientID : String} {err : DbError}
    {atCall : Past Reply → Call → Prop} {past : Past Reply}
    {atDone : Past Reply → Except Response Photo → Prop} :
    (resolveRace eventID clientID err).run.Ensures atCall atDone past ↔
      (err ≠ .uniqueViolation → atDone past (.error saveFailed)) ∧
      (err = .uniqueViolation → atCall past (.query (.findPhotoByClientId eventID clientID)) ∧
        (∀ e, atDone (⟨.query (.findPhotoByClientId eventID clientID), .error e⟩ :: past)
          (.error saveFailed)) ∧
        ∀ row, atDone (⟨.query (.findPhotoByClientId eventID clientID), .ok row⟩ :: past)
          (.ok row)) := by
  cases err with
  | noRows => simp [resolveRace]
  | failure => simp [resolveRace]
  | uniqueViolation => simp [resolveRace, forall_except]

def savePhoto (event : Event) (user : User) (form : UploadForm) (original : Bytes)
    (thumb : Images.Thumb) : Handler Response := do
  let photoID ← call .newUUID
  let storageKey := photoKey (uuidString photoID)
  let thumbKey := thumbKey (uuidString photoID)
  let stored ← call (.put storageKey original "image/jpeg")
  orThrow stored fun _ => writeErrorFromString 502 "failed to store photo"
  let thumbStored ← call (.put thumbKey thumb.jpeg "image/jpeg")
  orThrow thumbStored fun _ => writeErrorFromString 502 "failed to store thumbnail"
  let created ← call (.query (.createPhoto ⟨photoID, event.id, user.id, form.clientID, storageKey,
    thumbKey, "image/jpeg", thumb.width, thumb.height, original.length, form.takenAt⟩))
  match created with
  | .ok created => return writeJSON 201 [] (.upload (uploadResponse created false))
  | .error err =>
    let raced ← resolveRace event.id form.clientID err
    return writeJSON 200 [] (.upload (uploadResponse raced true))

def existsFailed : Response := writeErrorFromString 500 "failed to check for an existing photo"

/-- A stored `client_id` means this is a retry whose first response was lost. -/
def saveUnlessStored (app : Application) (event : Event) (user : User) (form : UploadForm) :
    Except DbError Photo → Handler Response
  | .ok existing => return writeJSON 200 [] (.upload (uploadResponse existing true))
  | .error .noRows => do
    let image ← orThrow (readImage app form.file) id
    savePhoto event user form image.1 image.2
  | .error _ => throw existsFailed

/-- The order of operations is load-bearing: the guard comes first, and a retry is recognised before
anything is decoded or stored. -/
def upload (app : Application) (context : Option User) (req : UploadRequest) : Handler Response := do
  let event ← requireRunning
  let user ← someOrThrow context (writeErrorFromString 401 "not authenticated")
  let form ← orThrow (readForm app req) id
  let existing ← call (.query (.findPhotoByClientId event.id form.clientID))
  saveUnlessStored app event user form existing

variable {app : Application} {atCall : Past Reply → Call → Prop} {past : Past Reply}
  {atDone : Past Reply → Except Response Response → Prop}

theorem ensures_saveUnlessStored {event : Event} {user : User} {form : UploadForm}
    {before : Except DbError Photo → Past Reply} :
    (∀ existing, (saveUnlessStored app event user form existing).run.Ensures atCall atDone
      (before existing)) ↔
      (∀ row, atDone (before (.ok row)) (.ok (writeJSON 200 [] (.upload (uploadResponse row true))))) ∧
      (∀ err, err ≠ .noRows → atDone (before (.error err)) (.error existsFailed)) ∧
      (∀ response, readImage app form.file = .error response →
        atDone (before (.error .noRows)) (.error response)) ∧
      ∀ image, readImage app form.file = .ok image →
        (savePhoto event user form image.1 image.2).run.Ensures atCall atDone
          (before (.error .noRows)) := by
  rw [forall_except]
  constructor
  · rintro ⟨herr, hok⟩
    refine ⟨hok, fun err hne => ?_, ?_⟩
    · have h := herr err
      cases err with
      | noRows => exact absurd rfl hne
      | uniqueViolation => exact h
      | failure => exact h
    · have h := herr .noRows
      simpa only [saveUnlessStored, ensures_run_bind, ensures_orThrow, id] using h
  · rintro ⟨hok, herr, hnone⟩
    refine ⟨fun err => ?_, hok⟩
    cases err with
    | noRows => simpa only [saveUnlessStored, ensures_run_bind, ensures_orThrow, id] using hnone
    | uniqueViolation => exact herr .uniqueViolation (by simp)
    | failure => exact herr .failure (by simp)

/-- The exchanges of an upload up to its lookup. -/
abbrev lookedUp (event : Event) (t : Instant) (form : UploadForm) (found : Except DbError Photo)
    (past : Past Reply) : Past Reply :=
  ⟨.query (.findPhotoByClientId event.id form.clientID), found⟩ :: readEvent event t past

/-- The upload gets past the guard with this form. -/
structure Passes (app : Application) (context : Option User) (req : UploadRequest) (event : Event)
    (t : Instant) (user : User) (form : UploadForm) : Prop where
  running : ¬ event.IsOver t
  authenticated : context = some user
  wellFormed : readForm app req = .ok form

/-- What an upload may do, case by case, up to the point where it saves a new photo. -/
structure UploadCases (app : Application) (context : Option User) (req : UploadRequest)
    (atCall : Past Reply → Call → Prop) (atDone : Past Reply → Except Response Response → Prop)
    (past : Past Reply) : Prop where
  current : atCall past (.query .getCurrentEvent) := by trivial
  notLoaded : ∀ err, atDone (⟨.query .getCurrentEvent, .error err⟩ :: past)
    (.error (loadError err)) := by intros; trivial
  clock : ∀ event, atCall (⟨.query .getCurrentEvent, .ok event⟩ :: past) .now := by intros; trivial
  ended : ∀ (event : Event) (t : Instant), event.IsOver t →
    atDone (readEvent event t past) (.error overResponse) := by intros; trivial
  anonymous : ∀ (event : Event) (t : Instant), ¬ event.IsOver t → context = none →
    atDone (readEvent event t past)
      (.error (writeErrorFromString 401 "not authenticated")) := by intros; trivial
  badForm : ∀ (event : Event) (t : Instant) (user : User), ¬ event.IsOver t → context = some user →
    ∀ response, readForm app req = .error response →
      atDone (readEvent event t past) (.error response) := by intros; trivial
  lookup : ∀ {event t user form}, Passes app context req event t user form →
    atCall (readEvent event t past)
      (.query (.findPhotoByClientId event.id form.clientID)) := by intros; trivial
  stored : ∀ {event t user form}, Passes app context req event t user form → ∀ row,
    atDone (lookedUp event t form (.ok row) past)
      (.ok (writeJSON 200 [] (.upload (uploadResponse row true)))) := by intros; trivial
  notLooked : ∀ {event t user form}, Passes app context req event t user form → ∀ err, err ≠ .noRows →
    atDone (lookedUp event t form (.error err) past) (.error existsFailed) := by intros; trivial
  badImage : ∀ {event t user form}, Passes app context req event t user form → ∀ response,
    readImage app form.file = .error response →
      atDone (lookedUp event t form (.error .noRows) past) (.error response) := by intros; trivial
  save : ∀ {event t user form}, Passes app context req event t user form → ∀ image,
    readImage app form.file = .ok image →
      (savePhoto event user form image.1 image.2).run.Ensures atCall atDone
        (lookedUp event t form (.error .noRows) past)

theorem ensures_upload {context : Option User} {req : UploadRequest} :
    (upload app context req).run.Ensures atCall atDone past ↔
      UploadCases app context req atCall atDone past := by
  simp only [upload, ensures_run_bind, ensures_requireRunning, ensures_someOrThrow, ensures_orThrow,
    ensures_request, id, ensures_saveUnlessStored]
  constructor
  · rintro ⟨current, notLoaded, guarded⟩
    have accepted : ∀ {event t user form}, Passes app context req event t user form → _ :=
      fun {event t user form} h =>
        (((guarded event).2 t).2 h.running).2 user h.authenticated |>.2 form h.wellFormed
    exact
      { current, notLoaded
        clock := fun event => (guarded event).1
        ended := fun event t => ((guarded event).2 t).1
        anonymous := fun event t running => (((guarded event).2 t).2 running).1
        badForm := fun event t user running known => ((((guarded event).2 t).2 running).2 user known).1
        lookup := fun h => (accepted h).1
        stored := fun h => (accepted h).2.1
        notLooked := fun h => (accepted h).2.2.1
        badImage := fun h => (accepted h).2.2.2.1
        save := fun h => (accepted h).2.2.2.2 }
  · intro h
    refine ⟨h.current, h.notLoaded, fun event => ⟨h.clock event, fun t => ⟨h.ended event t, ?_⟩⟩⟩
    refine fun running => ⟨h.anonymous event t running, fun user known => ?_⟩
    refine ⟨h.badForm event t user running known, fun form wellFormed => ?_⟩
    have passes : Passes app context req event t user form := ⟨running, known, wellFormed⟩
    exact ⟨h.lookup passes, h.stored passes, h.notLooked passes, h.badImage passes, h.save passes⟩

end Photos

end ItalyTrip
