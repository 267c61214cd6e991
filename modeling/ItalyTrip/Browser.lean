import ItalyTrip.Server

namespace ItalyTrip

open Calls

/-- A capture in IndexedDB, keyed by `clientId`. -/
structure PendingPhoto where
  clientId : String
  bytes : Bytes
  contentType : String
  takenAt : String
  attempts : Nat
  nextAttemptAt : Int
  failed : Bool
  lastError : Option String
  deriving DecidableEq, Repr

structure Blob where
  bytes : Bytes
  type : String
  deriving DecidableEq, Repr

/-- The form of an upload. -/
structure UploadInput where
  blob : Blob
  clientId : String
  takenAt : String
  deriving DecidableEq, Repr

/-- The requests of the API client. The token is that of the Authorization header. -/
inductive HttpRequest where
  | upload (token : Option String) (input : UploadInput)
  | refresh
  | get (token : Option String) (path : String)
  deriving DecidableEq, Repr

/-- The fields of a JSON object that the client reads. -/
structure Payload where
  error : Option String
  code : Option String
  token : Option String
  deriving DecidableEq, Repr

/-- `payload` is `none` where the body is not a JSON object. -/
structure HttpResponse where
  status : Nat
  statusText : String
  payload : Option Payload
  deriving DecidableEq, Repr

def HttpResponse.ok (res : HttpResponse) : Bool := 200 ≤ res.status && res.status < 300

structure ApiError where
  status : Nat
  message : String
  code : Option String
  deriving DecidableEq, Repr

def ApiError.isLocked (e : ApiError) : Bool := e.status == 423

/-- 4xx other than 423 will never succeed on a retry. -/
def ApiError.isPermanent (e : ApiError) : Bool :=
  400 ≤ e.status && e.status < 500 && e.status != 423

/-- What a promise rejects with. -/
inductive JsError where
  | api (e : ApiError)
  | other (message : String)
  deriving DecidableEq, Repr

def JsError.message : JsError → String
  | .api e => e.message
  | .other message => message

structure UploaderStatus where
  pending : Nat
  failed : Nat
  message : Option String
  deriving DecidableEq, Repr

/-- The mutable fields of an `Uploader`; `draining` is whether that promise is there. -/
structure Fields where
  status : UploaderStatus
  draining : Bool
  again : Bool
  retryTimer : Option Nat
  sweepTimer : Option Nat
  started : Bool
  deriving DecidableEq, Repr

def Fields.initial : Fields := ⟨⟨0, 0, none⟩, false, false, none, none, false⟩

/-- The calls of the client. Those between two awaits are one segment. -/
inductive ClientCall where
  | arrayBuffer (blob : Blob)
  | idbPut (item : PendingPhoto)
  | idbDelete (clientId : String)
  | idbGetAll
  | fetch (req : HttpRequest)
  | json (res : HttpResponse)
  | cloneJson (res : HttpResponse)
  | beginRefresh (tab p : Nat)
  | awaitRefresh (p : Nat)
  | turn
  | never
  | now
  | getToken
  | setToken (token : String)
  | clearToken
  | refreshPromise (tab : Nat)
  | settleRefresh (tab p : Nat) (result : Except JsError String)
  | fields (tab : Nat)
  | setFields (tab : Nat) (fields : Fields)
  | setTimer (delay : Int)
  | clearTimer (timer : Nat)

@[reducible] def ClientReply : ClientCall → Type
  | .arrayBuffer _ => Except String Bytes
  | .idbPut _ => Except String Unit
  | .idbDelete _ => Except String Unit
  | .idbGetAll => Except String (List PendingPhoto)
  | .fetch _ => Except String HttpResponse
  | .json _ => Except String Payload
  | .cloneJson _ => Except String Payload
  | .beginRefresh _ _ => Unit
  | .awaitRefresh _ => Except JsError String
  | .turn => Unit
  | .never => Empty
  | .now => Int
  | .getToken => Option String
  | .setToken _ => Except String Unit
  | .clearToken => Unit
  | .refreshPromise _ => Nat
  | .settleRefresh _ _ _ => Unit
  | .fields _ => Fields
  | .setFields _ _ => Unit
  | .setTimer _ => Nat
  | .clearTimer _ => Unit

/-- A call that is answered before control goes back to the event loop. -/
def ClientCall.sync : ClientCall → Bool
  | .now | .getToken | .setToken _ | .clearToken | .refreshPromise _ | .settleRefresh _ _ _
  | .fields _ | .setFields _ _ | .setTimer _ | .clearTimer _ => true
  | _ => false

/-- A refresh promise: made, being worked on, settled. -/
inductive RefreshState where
  | made
  | running
  | settled (result : Except JsError String)

structure Tab where
  fields : Fields
  refreshPromise : Option Nat

/-- What the tabs of one browser share, and each tab's own state. `refreshAnswers` records what
`/auth/refresh` has answered. -/
structure Browser where
  store : List PendingPhoto
  token : Option String
  tabs : Nat → Tab
  refreshes : List RefreshState
  refreshAnswers : List HttpResponse
  timers : Nat
  clock : Int

structure ClientChoice where
  fault : Fault
  readable : Bool
  response : Except String HttpResponse
  tick : Int

/-- What happens besides: time passes, a tab is loaded again, another part of the app logs in. -/
inductive BrowserEvent where
  | tick (ms : Nat)
  | reload (tab : Nat)
  | login (token : String)

namespace Browser

variable (b : Browser)

def put (item : PendingPhoto) : Browser :=
  { b with store := item :: b.store.filter (·.clientId != item.clientId) }

def delete (clientId : String) : Browser :=
  { b with store := b.store.filter (·.clientId != clientId) }

def setTab (tab : Nat) (t : Tab) : Browser :=
  { b with tabs := fun n => if n = tab then t else b.tabs n }

/-- A request of IndexedDB or storage that fails before or after its work. -/
def faulty {α : Type} (fault : Fault) (answer : α) (done : Browser) :
    Option (Except String α × Browser) :=
  match fault with
  | .none => some (.ok answer, done)
  | .before => some (.error "failed", b)
  | .after => some (.error "failed", done)

def readJson (readable : Bool) (res : HttpResponse) : Except String Payload :=
  match res.payload with
  | some payload => if readable then .ok payload else .error "body could not be read"
  | none => .error "not a JSON object"

def perform (o : ClientChoice) : (c : ClientCall) → Option (ClientReply c × Browser)
  | .arrayBuffer blob => b.faulty o.fault blob.bytes b
  | .idbPut item => b.faulty o.fault () (b.put item)
  | .idbDelete clientId => b.faulty o.fault () (b.delete clientId)
  | .idbGetAll => b.faulty o.fault (b.store.insertionSort fun x y => x.clientId ≤ y.clientId) b
  | .fetch req =>
    match req, o.response with
    | .refresh, .ok res => some (.ok res, { b with refreshAnswers := res :: b.refreshAnswers })
    | _, response => some (response, b)
  | .json res => some (readJson o.readable res, b)
  | .cloneJson res => some (readJson o.readable res, b)
  | .beginRefresh tab p =>
    match (b.tabs tab).refreshPromise, b.refreshes[p]? with
    | some q, some .made =>
      if q = p then some ((), { b with refreshes := b.refreshes.set p .running }) else none
    | _, _ => none
  | .awaitRefresh p =>
    match b.refreshes[p]? with
    | some (.settled result) => some (result, b)
    | _ => none
  | .turn => some ((), b)
  | .never => none
  | .now => some (b.clock + o.tick, { b with clock := b.clock + o.tick })
  | .getToken => some (b.token, b)
  | .setToken token => b.faulty o.fault () { b with token := some token }
  | .clearToken => some ((), { b with token := none })
  | .refreshPromise tab =>
    match (b.tabs tab).refreshPromise with
    | some p => some (p, b)
    | none =>
      let p := b.refreshes.length
      some (p, { b.setTab tab { b.tabs tab with refreshPromise := some p } with
        refreshes := b.refreshes ++ [.made] })
  | .settleRefresh tab p result =>
    some ((), { b.setTab tab { b.tabs tab with refreshPromise := none } with
      refreshes := b.refreshes.set p (.settled result) })
  | .fields tab => some ((b.tabs tab).fields, b)
  | .setFields tab fields => some ((), b.setTab tab { b.tabs tab with fields })
  | .setTimer _ => some (b.timers, { b with timers := b.timers + 1 })
  | .clearTimer _ => some ((), b)

variable {b}

theorem faulty_cases {α : Type} {fault : Fault} {answer : α} {done b' : Browser} {r : Except String α}
    (h : b.faulty fault answer done = some (r, b')) :
    r = .ok answer ∧ b' = done ∨ (∃ m, r = .error m) ∧ (b' = b ∨ b' = done) := by
  cases fault with
  | none =>
    cases h
    exact Or.inl ⟨rfl, rfl⟩
  | before =>
    cases h
    exact Or.inr ⟨⟨_, rfl⟩, Or.inl rfl⟩
  | after =>
    cases h
    exact Or.inr ⟨⟨_, rfl⟩, Or.inr rfl⟩

/-- What a faulty call and its success keep, it keeps. -/
theorem faulty_keeps {α β : Type} {fault : Fault} {answer : α} {done b' : Browser}
    {r : Except String α} {f : Browser → β} (h : b.faulty fault answer done = some (r, b'))
    (keep : f done = f b) : f b' = f b := by
  rcases faulty_cases h with ⟨_, rfl⟩ | ⟨_, rfl | rfl⟩
  · exact keep
  · rfl
  · exact keep

/-- What a call leaves alone. -/
theorem perform_frame {o : ClientChoice} {b' : Browser} {c : ClientCall} {r : ClientReply c}
    (h : b.perform o c = some (r, b')) :
    ((∀ item, c ≠ .idbPut item) → (∀ clientId, c ≠ .idbDelete clientId) → b'.store = b.store) ∧
    ((∀ tab p, c ≠ .beginRefresh tab p) → (∀ tab, c ≠ .refreshPromise tab) →
      (∀ tab p result, c ≠ .settleRefresh tab p result) → b'.refreshes = b.refreshes) ∧
    (c ≠ .fetch .refresh → b'.refreshAnswers = b.refreshAnswers) := by
  cases c with
  | idbPut item =>
    exact ⟨fun h => absurd rfl (h item), fun _ _ _ => faulty_keeps h rfl,
      fun _ => faulty_keeps h rfl⟩
  | idbDelete k =>
    exact ⟨fun _ h => absurd rfl (h k), fun _ _ _ => faulty_keeps h rfl,
      fun _ => faulty_keeps h rfl⟩
  | arrayBuffer blob =>
    exact ⟨fun _ _ => faulty_keeps h rfl, fun _ _ _ => faulty_keeps h rfl,
      fun _ => faulty_keeps h rfl⟩
  | idbGetAll =>
    exact ⟨fun _ _ => faulty_keeps h rfl, fun _ _ _ => faulty_keeps h rfl,
      fun _ => faulty_keeps h rfl⟩
  | setToken token =>
    exact ⟨fun _ _ => faulty_keeps h rfl, fun _ _ _ => faulty_keeps h rfl,
      fun _ => faulty_keeps h rfl⟩
  | fetch req =>
    simp only [perform] at h
    split at h
    next =>
      cases h
      exact ⟨fun _ _ => rfl, fun _ _ _ => rfl, fun h => absurd rfl h⟩
    next =>
      cases h
      exact ⟨fun _ _ => rfl, fun _ _ _ => rfl, fun _ => rfl⟩
  | beginRefresh tab p =>
    simp only [perform] at h
    split at h
    next =>
      split at h
      next =>
        cases h
        exact ⟨fun _ _ => rfl, fun h => absurd rfl (h tab p), fun _ => rfl⟩
      next => cases h
    next => cases h
  | awaitRefresh p =>
    simp only [perform] at h
    split at h
    next =>
      cases h
      exact ⟨fun _ _ => rfl, fun _ _ _ => rfl, fun _ => rfl⟩
    next => cases h
  | refreshPromise tab =>
    simp only [perform] at h
    split at h <;> cases h <;> exact ⟨fun _ _ => rfl, fun _ h => absurd rfl (h tab), fun _ => rfl⟩
  | settleRefresh tab p result =>
    cases h
    exact ⟨fun _ _ => rfl, fun _ _ h => absurd rfl (h tab p result), fun _ => rfl⟩
  | never => cases h
  | _ =>
    cases h
    exact ⟨fun _ _ => rfl, fun _ _ _ => rfl, fun _ => rfl⟩

variable (b)

def env : BrowserEvent → Browser
  | .tick ms => { b with clock := b.clock + ms }
  | .reload tab => b.setTab tab ⟨.initial, none⟩
  | .login token => { b with token := some token }

end Browser

end ItalyTrip
