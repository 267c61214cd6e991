import ItalyTrip.Uploader

namespace ItalyTrip

open Calls

/-- The calls of an `Uploader` whose `upload` is the one its constructor was given. To upload is to begin
and then to await; `again` reads that field. The field `draining` is assigned the promise of a drain that
begins and null where it ends; later callers join it. -/
inductive UploadCall where
  | arrayBuffer (blob : Blob)
  | idbPut (item : PendingPhoto)
  | idbDelete (clientId : String)
  | idbGetAll
  | awaitUpload (tab : Nat) (input : UploadInput)
  | turn
  | never
  | beginUpload (tab : Nat) (input : UploadInput)
  | now
  | fields (tab : Nat)
  | setFields (tab : Nat) (fields : Fields)
  | again (tab : Nat)
  | beginDrain (tab : Nat)
  | joinDrain (tab : Nat)
  | settleDrain (p : Nat) (result : Except JsError Unit)
  | endDrain (tab : Nat)
  | setTimer (delay : Int)
  | clearTimer (timer : Nat)

@[reducible] def UploadReply : UploadCall → Type
  | .arrayBuffer _ => Except String Bytes
  | .idbPut _ => Except String Unit
  | .idbDelete _ => Except String Unit
  | .idbGetAll => Except String (List PendingPhoto)
  | .awaitUpload _ _ => Except JsError (Option Payload)
  | .turn => Unit
  | .never => Empty
  | .beginUpload _ _ => Unit
  | .now => Int
  | .fields _ => Fields
  | .setFields _ _ => Unit
  | .again _ => Bool
  | .beginDrain _ => Nat
  | .joinDrain _ => Nat
  | .settleDrain _ _ => Unit
  | .endDrain _ => Unit
  | .setTimer _ => Nat
  | .clearTimer _ => Unit

/-- A call that is answered before control goes back to the event loop. -/
def UploadCall.sync : UploadCall → Bool
  | .beginUpload _ _ | .now | .fields _ | .setFields _ _ | .again _ | .beginDrain _ | .joinDrain _
  | .settleDrain _ _ | .endDrain _ | .setTimer _ | .clearTimer _ => true
  | .arrayBuffer _ | .idbPut _ | .idbDelete _ | .idbGetAll | .awaitUpload _ _ | .turn | .never => false

abbrev UploadScript := ExceptT JsError (Prog UploadCall UploadReply)

namespace UploaderClass

abbrev await (c : UploadCall) : UploadScript (UploadReply c) := request c

def resolved {α : Type} (result : Except String α) : UploadScript α := orThrow result .other

def queueEnqueue (item : Capture) : UploadScript PendingPhoto := do
  let bytes ← resolved (← await (.arrayBuffer item.blob))
  let pending : PendingPhoto :=
    ⟨item.clientId, bytes, if item.blob.type = "" then "image/jpeg" else item.blob.type, item.takenAt,
      0, 0, false, none⟩
  resolved (← await (.idbPut pending))
  return pending

def all : UploadScript (List PendingPhoto) := do resolved (← await .idbGetAll)

/-- What is due of these items, the earliest capture first. -/
def dueOf (localeLE : String → String → Bool) (now : Int) (items : List PendingPhoto) :
    List PendingPhoto :=
  (items.filter fun item => !item.failed && item.nextAttemptAt ≤ now).insertionSort
    fun a b => localeLE a.takenAt b.takenAt

def due (localeLE : String → String → Bool) (now : Int) : UploadScript (List PendingPhoto) := do
  let items ← all
  return dueOf localeLE now items

def put (item : PendingPhoto) : UploadScript Unit := do resolved (← await (.idbPut item))

def remove (clientId : String) : UploadScript Unit := do resolved (← await (.idbDelete clientId))

def counts : UploadScript (Nat × Nat) := do
  let items ← all
  return ((items.filter fun item => !item.failed).length, (items.filter (·.failed)).length)

variable (localeLE : String → String → Bool) (tab : Nat)

def setFields (f : Fields → Fields) : UploadScript Unit := do
  let fields ← await (.fields tab)
  await (.setFields tab (f fields))

def refreshCounts : UploadScript Unit := do
  let (pending, failed) ← counts
  setFields tab fun s => { s with status := { s.status with pending, failed } }

def inputOf (item : PendingPhoto) : UploadInput :=
  ⟨PhotoQueue.toBlob item, item.clientId, item.takenAt⟩

def upload (input : UploadInput) : UploadScript (Option Payload) := do
  await (.beginUpload tab input)
  let answer ← await (.awaitUpload tab input)
  orThrow answer id

def handleFailure (item : PendingPhoto) (error : JsError) : UploadScript Unit := do
  let attempts := item.attempts + 1
  let retryLater : UploadScript Unit := do
    let now ← await .now
    put { item with
      attempts, nextAttemptAt := now + Uploader.backoffMs attempts, lastError := some error.message }
  match error with
  | .api e =>
    if e.isLocked then
      remove item.clientId
      setFields tab fun s => { s with status := { s.status with message := some Uploader.lostMessage } }
    else if e.isPermanent then
      put { item with attempts, failed := true, lastError := some error.message }
    else retryLater
  | .other _ => retryLater

def send (item : PendingPhoto) : UploadScript Unit := do
  let sent ← attempt do
    let _ ← upload tab (inputOf item)
    remove item.clientId
  match sent with
  | .ok _ => return
  | .error error => handleFailure tab item error

def sendAll : List PendingPhoto → UploadScript Unit
  | [] => return
  | item :: items => do
    send tab item
    sendAll items

/-- The `do … while (this.again)` of a drain. After `rounds` turns it is not followed any further. -/
def drainLoop : Nat → UploadScript Unit
  | 0 => do nomatch ← await .never
  | rounds + 1 => do
    setFields tab fun s => { s with again := false }
    let now ← await .now
    sendAll tab (← due localeLE now)
    if ← await (.again tab) then drainLoop rounds

def cancelRetry : UploadScript Unit := do
  let fields ← await (.fields tab)
  match fields.retryTimer with
  | none => return
  | some timer =>
    await (.clearTimer timer)
    await (.setFields tab { fields with retryTimer := none })

def wakeForFirst (waiting : List PendingPhoto) : UploadScript Unit :=
  match (waiting.map (·.nextAttemptAt)).min? with
  | none => return
  | some soonest => do
    let now ← await .now
    let timer ← await (.setTimer (max 0 (soonest - now)))
    setFields tab fun s => { s with retryTimer := some timer }

def scheduleNextRetry : UploadScript Unit := do
  cancelRetry tab
  let fields ← await (.fields tab)
  if !fields.started then return
  let items ← all
  wakeForFirst tab (items.filter fun item => !item.failed)

def runDrain (rounds : Nat) : UploadScript Unit := do
  let drained ← attempt (drainLoop localeLE tab rounds)
  refreshCounts tab
  scheduleNextRetry tab
  orThrow drained id

/-- A drain that is running takes the request over: the caller gets its promise. -/
def drain (rounds : Nat) : UploadScript Unit := do
  if (← await (.fields tab)).draining then
    setFields tab fun s => { s with again := true }
    let _ ← await (.joinDrain tab)
  else
    let p ← await (.beginDrain tab)
    let drained ← attempt (runDrain localeLE tab rounds)
    await (.settleDrain p drained)
    await .turn
    await (.endDrain tab)
    orThrow drained id

def enqueue (rounds : Nat) (item : Capture) : UploadScript Unit := do
  let _ ← queueEnqueue item
  refreshCounts tab
  drain localeLE tab rounds

def start (rounds : Nat) : UploadScript Unit := do
  let fields ← await (.fields tab)
  if fields.started then return
  let timer ← await (.setTimer Uploader.SWEEP_INTERVAL_MS)
  await (.setFields tab { fields with started := true, sweepTimer := some timer })
  drain localeLE tab rounds

def clearTimer (timer : Option Nat) : UploadScript Unit :=
  match timer with
  | some timer => await (.clearTimer timer)
  | none => return

def stop : UploadScript Unit := do
  let fields ← await (.fields tab)
  if !fields.started then return
  clearTimer fields.sweepTimer
  clearTimer fields.retryTimer
  await (.setFields tab { fields with started := false, sweepTimer := none, retryTimer := none })

def onRetryTimer (rounds : Nat) : UploadScript Unit := do
  setFields tab fun s => { s with retryTimer := none }
  drain localeLE tab rounds

end UploaderClass

/-- What calls an uploader: the app, and the events that are its triggers. -/
inductive UploadTask where
  | enqueue (tab rounds : Nat) (item : Capture)
  | start (tab rounds : Nat)
  | stop (tab : Nat)
  | drain (tab rounds : Nat)
  | retryTimer (tab rounds : Nat)
  deriving DecidableEq

def UploadTask.tab : UploadTask → Nat
  | .enqueue tab _ _ | .start tab _ | .stop tab | .drain tab _ | .retryTimer tab _ => tab

def UploadTask.script (localeLE : String → String → Bool) : UploadTask → UploadScript Unit
  | .enqueue tab rounds item => UploaderClass.enqueue localeLE tab rounds item
  | .start tab rounds => UploaderClass.start localeLE tab rounds
  | .stop tab => UploaderClass.stop tab
  | .drain tab rounds => UploaderClass.drain localeLE tab rounds
  | .retryTimer tab rounds => UploaderClass.onRetryTimer localeLE tab rounds

/-- When an upload of a capture began, and when and how it ended. -/
inductive UploadEvent where
  | began (tab : Nat) (clientId : String) (time : Int)
  | settled (tab : Nat) (clientId : String) (time : Int) (answer : Except JsError (Option Payload))

/-- The tabs of one browser. `drains` are the promises of all drains, and `draining` is the one that a
tab's uploader has last begun; `history` records the uploads, the latest first. -/
structure UploadWorld where
  browser : Browser
  drains : List (Option (Except JsError Unit))
  draining : Nat → Nat
  history : List UploadEvent

structure UploadChoice where
  client : ClientChoice
  answer : Except JsError (Option Payload)

namespace UploadWorld

/-- No drain has begun yet. -/
def start (b : Browser) : UploadWorld := ⟨b, [], fun _ => 0, []⟩

variable (w : UploadWorld)

def onBrowser (o : UploadChoice) (c : ClientCall) : Option (ClientReply c × UploadWorld) :=
  match w.browser.perform o.client c with
  | some (r, browser) => some (r, { w with browser })
  | none => none

def setDraining (tab : Nat) (draining : Bool) : UploadWorld :=
  let t := w.browser.tabs tab
  { w with browser := w.browser.setTab tab { t with fields := { t.fields with draining } } }

def perform (o : UploadChoice) : (c : UploadCall) → Option (UploadReply c × UploadWorld)
  | .arrayBuffer blob => w.onBrowser o (.arrayBuffer blob)
  | .idbPut item => w.onBrowser o (.idbPut item)
  | .idbDelete clientId => w.onBrowser o (.idbDelete clientId)
  | .idbGetAll => w.onBrowser o .idbGetAll
  | .turn => w.onBrowser o .turn
  | .never => none
  | .now => w.onBrowser o .now
  | .fields tab => w.onBrowser o (.fields tab)
  | .setFields tab fields => w.onBrowser o (.setFields tab fields)
  | .again tab => some ((w.browser.tabs tab).fields.again, w)
  | .setTimer delay => w.onBrowser o (.setTimer delay)
  | .clearTimer timer => w.onBrowser o (.clearTimer timer)
  | .beginUpload tab input =>
    some ((), { w with history := .began tab input.clientId w.browser.clock :: w.history })
  | .awaitUpload tab input =>
    some (o.answer,
      { w with history := .settled tab input.clientId w.browser.clock o.answer :: w.history })
  | .beginDrain tab =>
    some (w.drains.length, { w.setDraining tab true with
      drains := w.drains ++ [none]
      draining := fun n => if n = tab then w.drains.length else w.draining n })
  | .joinDrain tab => if (w.browser.tabs tab).fields.draining then some (w.draining tab, w) else none
  | .settleDrain p result => some ((), { w with drains := w.drains.set p (some result) })
  | .endDrain tab => some ((), w.setDraining tab false)

end UploadWorld

/-- Any number of uploaders, one in each tab, over one store. -/
def uploaders (localeLE : String → String → Bool) :
    Machine UploadCall UploadReply UploadWorld UploadChoice BrowserEvent UploadTask
      (Except JsError Unit) where
  start task := (task.script localeLE).run
  perform o w := w.perform o
  sync := UploadCall.sync
  engine := UploadTask.tab
  env e w := { w with browser := w.browser.env e }

abbrev UploadPool := Pool UploadCall UploadReply UploadWorld UploadTask (Except JsError Unit)

abbrev UploadAction := Calls.Action UploadChoice BrowserEvent UploadTask

section Sample

def sampleItem (clientId takenAt : String) : PendingPhoto :=
  ⟨clientId, [0xff, 0xd8, 0xff], "image/jpeg", takenAt, 0, 0, false, none⟩

/-- The uploaders of all tabs, with these captures in the store. -/
def sampleUploads (store : List PendingPhoto) : UploadPool :=
  ⟨.start { sampleBrowser "user" with store }, []⟩

/-- Thread `i` makes `n` calls; an upload among them is answered like this. -/
def sampleActs (i n : Nat) (answer : Except JsError (Option Payload)) : List UploadAction :=
  List.replicate n (.act i ⟨sampleNet (.error "Failed to fetch"), answer⟩)

end Sample

end ItalyTrip
