import ItalyTrip.PhotoQueue

namespace ItalyTrip

open Calls

namespace Uploader

def BASE_BACKOFF_MS : Nat := 2000

def MAX_BACKOFF_MS : Nat := 5 * 60000

def SWEEP_INTERVAL_MS : Nat := 60000

def backoffMs (attempts : Nat) : Nat := min (BASE_BACKOFF_MS * Nat.pow 2 (attempts - 1)) MAX_BACKOFF_MS

variable (localeLE : String → String → Bool) (tab : Nat)

def setFields (f : Fields → Fields) : Script Unit := do
  let fields ← await (.fields tab)
  await (.setFields tab (f fields))

def refreshCounts : Script Unit := do
  let (pending, failed) ← PhotoQueue.counts
  setFields tab fun s => { s with status := { s.status with pending, failed } }

def lostMessage : String :=
  "The trip ended before some photos finished uploading. Those are lost."

/-- A 423 drops the item, any other 4xx marks it failed, and all else is tried again later. -/
def handleFailure (item : PendingPhoto) (error : JsError) : Script Unit := do
  let attempts := item.attempts + 1
  let retryLater : Script Unit := do
    let now ← await .now
    PhotoQueue.put { item with
      attempts, nextAttemptAt := now + backoffMs attempts, lastError := some error.message }
  match error with
  | .api e =>
    if e.isLocked then
      PhotoQueue.remove item.clientId
      setFields tab fun s => { s with status := { s.status with message := some lostMessage } }
    else if e.isPermanent then
      PhotoQueue.put { item with attempts, failed := true, lastError := some error.message }
    else retryLater
  | .other _ => retryLater

/-- 201 and 200 are both success. The item goes only then, and within the same `try`. -/
def send (item : PendingPhoto) : Script Unit := do
  let sent ← attempt do
    let _ ← ApiClient.upload tab ⟨PhotoQueue.toBlob item, item.clientId, item.takenAt⟩
    PhotoQueue.remove item.clientId
  match sent with
  | .ok _ => return
  | .error error => handleFailure tab item error

def sendAll : List PendingPhoto → Script Unit
  | [] => return
  | item :: items => do
    send tab item
    sendAll items

/-- The `do … while (this.again)` of a drain. After `rounds` turns it is not followed any further. -/
def drainLoop : Nat → Script Unit
  | 0 => do nomatch ← await .never
  | rounds + 1 => do
    setFields tab fun s => { s with again := false }
    let now ← await .now
    sendAll tab (← PhotoQueue.due localeLE now)
    if (← await (.fields tab)).again then drainLoop rounds

def cancelRetry : Script Unit := do
  let fields ← await (.fields tab)
  match fields.retryTimer with
  | none => return
  | some timer =>
    await (.clearTimer timer)
    await (.setFields tab { fields with retryTimer := none })

def wakeForFirst (waiting : List PendingPhoto) : Script Unit :=
  match (waiting.map (·.nextAttemptAt)).min? with
  | none => return
  | some soonest => do
    let now ← await .now
    let timer ← await (.setTimer (max 0 (soonest - now)))
    setFields tab fun s => { s with retryTimer := some timer }

/-- Wakes the uploader exactly when the earliest backoff expires. -/
def scheduleNextRetry : Script Unit := do
  cancelRetry tab
  let fields ← await (.fields tab)
  if !fields.started then return
  let items ← PhotoQueue.all
  wakeForFirst tab (items.filter fun item => !item.failed)

def runDrain (rounds : Nat) : Script Unit := do
  let drained ← attempt (drainLoop localeLE tab rounds)
  refreshCounts tab
  scheduleNextRetry tab
  orThrow drained id

/-- A drain that is running takes the request over. -/
def drain (rounds : Nat) : Script Unit := do
  if (← await (.fields tab)).draining then
    setFields tab fun s => { s with again := true }
  else
    setFields tab fun s => { s with draining := true }
    let drained ← attempt (runDrain localeLE tab rounds)
    await .turn
    setFields tab fun s => { s with draining := false }
    orThrow drained id

/-- Writes a capture to durable storage, then tries to send it. -/
def enqueue (rounds : Nat) (item : Capture) : Script Unit := do
  let _ ← PhotoQueue.enqueue item
  refreshCounts tab
  drain localeLE tab rounds

def start (rounds : Nat) : Script Unit := do
  let fields ← await (.fields tab)
  if fields.started then return
  let timer ← await (.setTimer SWEEP_INTERVAL_MS)
  await (.setFields tab { fields with started := true, sweepTimer := some timer })
  drain localeLE tab rounds

def clearTimer (timer : Option Nat) : Script Unit :=
  match timer with
  | some timer => await (.clearTimer timer)
  | none => return

def stop : Script Unit := do
  let fields ← await (.fields tab)
  if !fields.started then return
  clearTimer fields.sweepTimer
  clearTimer fields.retryTimer
  await (.setFields tab { fields with started := false, sweepTimer := none, retryTimer := none })

def onRetryTimer (rounds : Nat) : Script Unit := do
  setFields tab fun s => { s with retryTimer := none }
  drain localeLE tab rounds

end Uploader

/-- What runs in a tab. A trigger is one of the events that start a drain; `get` stands for the other
requests of the app and `refresh` for the chain behind a refresh promise. -/
inductive ClientTask where
  | enqueue (tab rounds : Nat) (item : Capture)
  | start (tab rounds : Nat)
  | stop (tab : Nat)
  | trigger (tab rounds : Nat)
  | retryTimer (tab rounds : Nat)
  | refresh (tab p : Nat)
  | get (tab : Nat) (path : String)

def ClientTask.tab : ClientTask → Nat
  | .enqueue tab _ _ | .start tab _ | .stop tab | .trigger tab _ | .retryTimer tab _
  | .refresh tab _ | .get tab _ => tab

def ClientTask.script (localeLE : String → String → Bool) : ClientTask → Script Unit
  | .enqueue tab rounds item => Uploader.enqueue localeLE tab rounds item
  | .start tab rounds => Uploader.start localeLE tab rounds
  | .stop tab => Uploader.stop tab
  | .trigger tab rounds => Uploader.drain localeLE tab rounds
  | .retryTimer tab rounds => Uploader.onRetryTimer localeLE tab rounds
  | .refresh tab p => ApiClient.refreshChain tab p
  | .get tab path => do
    let _ ← ApiClient.get tab path

/-- The tabs of one browser against any network and any endpoints. A tab runs one segment at a time. -/
def client (localeLE : String → String → Bool) :
    Machine ClientCall ClientReply Browser ClientChoice BrowserEvent ClientTask (Except JsError Unit) where
  start task := (task.script localeLE).run
  perform o b := b.perform o
  sync := ClientCall.sync
  engine := ClientTask.tab
  env e b := b.env e

abbrev ClientPool := Pool ClientCall ClientReply Browser ClientTask (Except JsError Unit)

/-- The upload endpoint has answered an upload of this capture. -/
def Answered (past : Past ClientReply) (clientId : String) (res : HttpResponse) : Prop :=
  ∃ token input, input.clientId = clientId ∧ ⟨.fetch (.upload token input), .ok res⟩ ∈ past

/-- Calls that neither change the queue nor settle a refresh. -/
def ClientCall.quiet : ClientCall → Bool
  | .idbPut _ | .idbDelete _ | .settleRefresh _ _ _ => false
  | .arrayBuffer _ | .idbGetAll | .fetch _ | .json _ | .cloneJson _ | .beginRefresh _ _
  | .awaitRefresh _ | .turn | .never | .now | .getToken | .setToken _ | .clearToken
  | .refreshPromise _ | .fields _ | .setFields _ _ | .setTimer _ | .clearTimer _ => true

/-- What holds of the calls of every task, if it holds of quiet calls and of puts of captures that are
not given up. -/
structure Tolerant (P : Past ClientReply → ClientCall → Prop) : Prop where
  quiet : ∀ past c, c.quiet = true → P past c
  pending : ∀ past item, item.failed = false → P past (.idbPut item)

namespace Uploader

variable {P : Past ClientReply → ClientCall → Prop} {past : Past ClientReply}

/-- A claim about the calls of a function only. -/
abbrev Calls {α : Type} (P : Past ClientReply → ClientCall → Prop) (x : Script α)
    (past : Past ClientReply) : Prop :=
  x.run.Ensures P (fun _ _ => True) past

theorem Calls.bind {α β : Type} {x : Script α} {f : α → Script β} (hx : Calls P x past)
    (hf : ∀ a past, Calls P (f a) past) : Calls P (x >>= f) past := by
  rw [Calls, ensures_run_bind]
  refine hx.mono (fun _ _ h => h) fun past r _ => ?_
  cases r with
  | error e => trivial
  | ok a => exact hf a past

theorem Calls.ite {α : Type} {condition : Prop} [Decidable condition] {x y : Script α}
    (hx : Calls P x past) (hy : Calls P y past) : Calls P (if condition then x else y) past :=
  ensures_run_ite.mpr ⟨fun _ => hx, fun _ => hy⟩

theorem Calls.attempt {α : Type} {x : Script α} (h : Calls P x past) :
    Calls P (attempt x) past :=
  ensures_attempt.mpr h

theorem calls_pure {α : Type} {a : α} : Calls P (pure a) past := trivial

theorem calls_orThrow {α ε : Type} {x : Except ε α} {f : ε → JsError} :
    Calls P (orThrow x f) past :=
  ensures_orThrow.mpr ⟨fun _ _ => trivial, fun _ _ => trivial⟩

theorem calls_someOrThrow {α : Type} {x : Option α} {e : JsError} :
    Calls P (someOrThrow x e) past :=
  ensures_someOrThrow.mpr ⟨fun _ => trivial, fun _ _ => trivial⟩

theorem calls_quiet (tolerant : Tolerant P) {c : ClientCall} (h : c.quiet = true) :
    Calls P (await c) past :=
  ⟨tolerant.quiet past c h, fun _ => trivial⟩

variable {tab : Nat}

theorem sendAll_calls (sends : ∀ tab item past, item.failed = false → Calls P (send tab item) past)
    {items : List PendingPhoto} (pending : ∀ item ∈ items, item.failed = false)
    (past : Past ClientReply) : Calls P (sendAll tab items) past := by
  induction items generalizing past with
  | nil => exact calls_pure
  | cons item items ih =>
    refine (sends tab item past (pending item List.mem_cons_self)).bind fun _ past => ?_
    exact ih (fun i hi => pending i (List.mem_cons_of_mem _ hi)) past

variable (tolerant : Tolerant P)

include tolerant

theorem all_calls : Calls P PhotoQueue.all past :=
  (calls_quiet tolerant rfl).bind fun _ _ => calls_orThrow

theorem setFields_calls {f : Fields → Fields} : Calls P (setFields tab f) past :=
  (calls_quiet tolerant rfl).bind fun _ _ => calls_quiet tolerant rfl

theorem refreshCounts_calls : Calls P (refreshCounts tab) past :=
  ((all_calls tolerant).bind fun _ _ => calls_pure).bind fun _ _ => setFields_calls tolerant

theorem clearTimer_calls {timer : Option Nat} : Calls P (clearTimer timer) past := by
  cases timer with
  | none => exact calls_pure
  | some timer => exact calls_quiet tolerant rfl

theorem cancelRetry_calls : Calls P (cancelRetry tab) past := by
  refine (calls_quiet tolerant rfl).bind fun fields past => ?_
  cases fields.retryTimer with
  | none => exact calls_pure
  | some timer => exact (calls_quiet tolerant rfl).bind fun _ _ => calls_quiet tolerant rfl

theorem wakeForFirst_calls {waiting : List PendingPhoto} :
    Calls P (wakeForFirst tab waiting) past := by
  unfold wakeForFirst
  cases (waiting.map (·.nextAttemptAt)).min? with
  | none => exact calls_pure
  | some soonest =>
    exact (calls_quiet tolerant rfl).bind fun _ _ => (calls_quiet tolerant rfl).bind fun _ _ =>
      setFields_calls tolerant

theorem scheduleNextRetry_calls : Calls P (scheduleNextRetry tab) past := by
  refine (cancelRetry_calls tolerant).bind fun _ _ => (calls_quiet tolerant rfl).bind fun _ _ => ?_
  refine Calls.ite calls_pure ?_
  exact (all_calls tolerant).bind fun _ _ => wakeForFirst_calls tolerant

theorem stop_calls : Calls P (stop tab) past := by
  refine (calls_quiet tolerant rfl).bind fun _ _ => Calls.ite calls_pure ?_
  exact (clearTimer_calls tolerant).bind fun _ _ => (clearTimer_calls tolerant).bind fun _ _ =>
    calls_quiet tolerant rfl

theorem parse_calls {res : HttpResponse} : Calls P (ApiClient.parse res) past :=
  ApiClient.ensures_parse.mpr ⟨fun _ => ⟨tolerant.quiet _ _ rfl, fun _ => trivial⟩,
    fun _ => ⟨fun _ => trivial, fun _ => ⟨tolerant.quiet _ _ rfl, fun _ => trivial, fun _ => trivial⟩⟩⟩

theorem fetchAuthed_calls {build : Option String → HttpRequest} :
    Calls P (ApiClient.fetchAuthed build) past :=
  (calls_quiet tolerant rfl).bind fun _ _ => (calls_quiet tolerant rfl).bind fun _ _ => calls_orThrow

theorem fetchWithRefresh_calls {build : Option String → HttpRequest} :
    Calls P (ApiClient.fetchWithRefresh tab build) past := by
  refine (fetchAuthed_calls tolerant).bind fun res _ => Calls.ite calls_pure ?_
  refine (calls_quiet tolerant rfl).bind fun _ _ => Calls.ite calls_pure ?_
  refine Calls.bind (Calls.attempt ?_) fun refreshed _ => ?_
  · exact (calls_quiet tolerant rfl).bind fun _ _ => (calls_quiet tolerant rfl).bind fun _ _ =>
      calls_orThrow
  · cases refreshed with
    | error e => exact (calls_quiet tolerant rfl).bind fun _ _ => calls_pure
    | ok token => exact fetchAuthed_calls tolerant

theorem exchangeToken_calls : Calls P ApiClient.exchangeToken past := by
  refine (calls_quiet tolerant rfl).bind fun _ _ => calls_orThrow.bind fun _ _ => ?_
  refine (parse_calls tolerant).bind fun _ _ => calls_someOrThrow.bind fun _ _ => ?_
  exact (calls_quiet tolerant rfl).bind fun _ _ => calls_orThrow.bind fun _ _ => calls_pure

theorem get_calls {path : String} : Calls P (ApiClient.get tab path) past :=
  (fetchWithRefresh_calls tolerant).bind fun _ _ => parse_calls tolerant

theorem enqueue_calls {item : Capture} : Calls P (PhotoQueue.enqueue item) past := by
  refine (calls_quiet tolerant rfl).bind fun _ _ => calls_orThrow.bind fun bytes _ => ?_
  refine Calls.bind ⟨tolerant.pending _ _ rfl, fun _ => trivial⟩ fun _ _ => ?_
  exact calls_orThrow.bind fun _ _ => calls_pure

/-- What the calls after a rejected upload depend on. -/
theorem handleFailure_calls {item : PendingPhoto} (pending : item.failed = false) {error : JsError}
    (h : ∀ e, error = .api e →
      (e.isLocked = true → P past (.idbDelete item.clientId)) ∧
      (e.isLocked = false → e.isPermanent = true →
        ∀ item', item'.clientId = item.clientId → P past (.idbPut item'))) :
    Calls P (handleFailure tab item error) past := by
  have later : Calls P (do
      let now ← await .now
      PhotoQueue.put { item with
        attempts := item.attempts + 1, nextAttemptAt := now + backoffMs (item.attempts + 1),
        lastError := some error.message }) past := by
    refine (calls_quiet tolerant rfl).bind fun _ _ => ?_
    exact Calls.bind ⟨tolerant.pending _ _ pending, fun _ => trivial⟩ fun _ _ => calls_orThrow
  cases error with
  | other message => exact later
  | api e =>
    refine ensures_run_ite.mpr ⟨fun locked => ?_, fun unlocked => ?_⟩
    · refine Calls.bind (Calls.bind ⟨(h e rfl).1 locked, fun _ => trivial⟩ fun _ _ => calls_orThrow) ?_
      exact fun _ _ => setFields_calls tolerant
    · refine ensures_run_ite.mpr ⟨fun permanent => ?_, fun _ => later⟩
      refine Calls.bind ⟨(h e rfl).2 ?_ permanent _ rfl, fun _ => trivial⟩ fun _ _ => calls_orThrow
      simpa using unlocked

theorem send_calls {item : PendingPhoto} (pending : item.failed = false)
    (h : (ApiClient.upload tab ⟨PhotoQueue.toBlob item, item.clientId, item.takenAt⟩).run.Ensures P
      (fun past r => match r with
        | .ok _ => P past (.idbDelete item.clientId)
        | .error error => ∀ e, error = .api e →
          (e.isLocked = true → P past (.idbDelete item.clientId)) ∧
          (e.isLocked = false → e.isPermanent = true →
            ∀ item', item'.clientId = item.clientId → P past (.idbPut item'))) past) :
    Calls P (send tab item) past := by
  simp only [Calls, send, ensures_run_bind, ensures_attempt]
  refine h.mono (fun _ _ h => h) fun past r hr => ?_
  cases r with
  | error error => exact handleFailure_calls tolerant pending hr
  | ok payload =>
    simp only [PhotoQueue.remove, ensures_run_bind, ensures_request, ensures_resolved]
    refine ⟨hr, fun removed => ⟨fun m _ => ?_, fun _ _ => trivial⟩⟩
    exact handleFailure_calls tolerant pending fun e h => by cases h

theorem due_calls {localeLE : String → String → Bool} {now : Int}
    {f : List PendingPhoto → Script Unit}
    (h : ∀ items : List PendingPhoto, (∀ item ∈ items, item.failed = false) →
      ∀ past, Calls P (f items) past) : Calls P (PhotoQueue.due localeLE now >>= f) past := by
  simp only [Calls, PhotoQueue.due, PhotoQueue.all, ensures_run_bind, ensures_request,
    ensures_resolved, ensures_run_pure]
  refine ⟨tolerant.quiet _ _ rfl, fun read => ⟨fun _ _ => trivial, fun items _ => h _ ?_ _⟩⟩
  intro item hi
  rw [List.mem_insertionSort, List.mem_filter] at hi
  simpa using (Bool.and_eq_true_iff.mp hi.2).1

variable {localeLE : String → String → Bool}
  (sends : ∀ tab item past, item.failed = false → Calls P (send tab item) past)

include sends

theorem drainLoop_calls (rounds : Nat) (past : Past ClientReply) :
    Calls P (drainLoop localeLE tab rounds) past := by
  induction rounds generalizing past with
  | zero => exact (calls_quiet tolerant rfl).bind fun never _ => nomatch never
  | succ rounds ih =>
    refine (setFields_calls tolerant).bind fun _ _ => (calls_quiet tolerant rfl).bind fun _ _ => ?_
    refine due_calls tolerant fun items pending _ => ?_
    refine (sendAll_calls sends pending _).bind fun _ _ => ?_
    exact (calls_quiet tolerant rfl).bind fun _ past => Calls.ite (ih past) calls_pure

theorem drain_calls {rounds : Nat} : Calls P (drain localeLE tab rounds) past := by
  have runDrain : ∀ past, Calls P (runDrain localeLE tab rounds) past := fun past => by
    refine (drainLoop_calls tolerant sends rounds past).attempt.bind fun _ _ => ?_
    refine (refreshCounts_calls tolerant).bind fun _ _ => ?_
    exact (scheduleNextRetry_calls tolerant).bind fun _ _ => calls_orThrow
  refine (calls_quiet tolerant rfl).bind fun _ _ => Calls.ite (setFields_calls tolerant) ?_
  refine (setFields_calls tolerant).bind fun _ past => (runDrain past).attempt.bind fun _ _ => ?_
  refine (calls_quiet tolerant rfl).bind fun _ _ => (setFields_calls tolerant).bind fun _ _ => ?_
  exact calls_orThrow

/-- A claim about calls holds in every task if it holds while an item is sent and in the chain of a
refresh. -/
theorem task_calls (chain : ∀ tab p, Calls P (ApiClient.refreshChain tab p) []) (task : ClientTask) :
    Calls P (task.script localeLE) [] := by
  cases task with
  | enqueue tab rounds item =>
    refine (enqueue_calls tolerant).bind fun _ _ => (refreshCounts_calls tolerant).bind fun _ _ => ?_
    exact drain_calls tolerant sends
  | start tab rounds =>
    refine (calls_quiet tolerant rfl).bind fun _ _ => Calls.ite calls_pure ?_
    refine (calls_quiet tolerant rfl).bind fun _ _ => (calls_quiet tolerant rfl).bind fun _ _ => ?_
    exact drain_calls tolerant sends
  | stop tab => exact stop_calls tolerant
  | trigger tab rounds => exact drain_calls tolerant sends
  | retryTimer tab rounds =>
    exact (setFields_calls tolerant).bind fun _ _ => drain_calls tolerant sends
  | refresh tab p => exact chain tab p
  | get tab path => exact (get_calls tolerant).bind fun _ _ => calls_pure

end Uploader

section Sample

/-- No faults; a fetch gets this response. -/
def sampleNet (response : Except String HttpResponse) : ClientChoice := ⟨.none, true, response, 0⟩

def sampleBrowser (token : String) : Browser :=
  ⟨[], some token, fun _ => ⟨.initial, none⟩, [], [], 0, 0⟩

def sampleCapture : Capture :=
  ⟨"00000000-0000-0000-0000-000000000009", ⟨[0xff, 0xd8, 0xff], "image/jpeg"⟩, "1970-01-01T00:00:02Z"⟩

end Sample

end ItalyTrip
