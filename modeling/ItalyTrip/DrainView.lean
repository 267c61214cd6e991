import ItalyTrip.UploaderClass

namespace ItalyTrip

open Calls

/-- Where a task of an uploader is in its drain. `opening` is a round whose queue has not been read, with
the clock once that is read; after `answered` the outcome of an upload is to be recorded. -/
inductive Stage where
  | idle
  | opening (now : Option Int)
  | ready
  | uploading
  | answered (answer : Except JsError (Option Payload)) (now : Option Int)
  | ended

/-- What the exchanges of a task tell of it: the fields as its segment knows them, the promise of its
drain while it runs, and of its last snapshot of the queue the items that are left and the uploads that
were begun. `stored` says that it has put a new capture. -/
structure View where
  read : Option Fields
  promise : Option Nat
  stage : Stage
  snapshot : List PendingPhoto
  items : List PendingPhoto
  sent : List UploadInput
  stored : Bool

namespace View

def initial : View := ⟨none, none, .idle, [], [], [], false⟩

variable (localeLE : String → String → Bool) (v : View)

/-- The item that was being sent is dealt with. -/
def next : View := { v with read := none, stage := .ready, items := v.items.tail }

def afterNow (now : Int) : View :=
  match v.stage with
  | .opening _ => { v with stage := .opening (some now) }
  | .answered answer _ => { v with stage := .answered answer (some now) }
  | _ => v

def afterGetAll (result : Except String (List PendingPhoto)) : View :=
  match v.stage, result with
  | .opening (some now), .ok items =>
    let due := UploaderClass.dueOf localeLE now items
    { v with read := none, stage := .ready, snapshot := due, items := due, sent := [] }
  | .opening _, _ => { v with read := none, stage := .ended }
  | _, _ => { v with read := none }

/-- An item that could not be removed after its upload has failed like the upload. -/
def afterDelete (result : Except String Unit) : View :=
  match v.stage, result with
  | .answered _ _, .ok _ => v.next
  | .answered (.ok _) _, .error m => { v with read := none, stage := .answered (.error (.other m)) none }
  | _, _ => { v with read := none, stage := .ended }

def afterPut (result : Except String Unit) : View :=
  match v.stage, result with
  | .answered _ _, .ok _ => v.next
  | .answered _ _, .error _ => { v with read := none, stage := .ended }
  | _, _ => { v with read := none, stored := true }

variable {v} in
theorem afterDelete_ok {answer : Except JsError (Option Payload)} {now : Option Int}
    (stage : v.stage = .answered answer now) : v.afterDelete (.ok ()) = v.next := by
  unfold afterDelete
  rw [stage]

variable {v} in
theorem afterPut_ok {answer : Except JsError (Option Payload)} {now : Option Int}
    (stage : v.stage = .answered answer now) : v.afterPut (.ok ()) = v.next := by
  unfold afterPut
  rw [stage]

variable {v} in
theorem afterPut_idle (stage : v.stage = .idle) (result : Except String Unit) :
    v.afterPut result = { v with read := none, stored := true } := by
  unfold afterPut
  rw [stage]

variable {localeLE v} in
theorem afterGetAll_opening {now : Int} {items : List PendingPhoto}
    (stage : v.stage = .opening (some now)) :
    v.afterGetAll localeLE (.ok items) = { v with
      read := none, stage := .ready, snapshot := UploaderClass.dueOf localeLE now items
      items := UploaderClass.dueOf localeLE now items, sent := [] } := by
  unfold afterGetAll
  rw [stage]

variable {localeLE v} in
theorem afterGetAll_apart (stage : ∀ now, v.stage ≠ .opening now)
    (result : Except String (List PendingPhoto)) :
    v.afterGetAll localeLE result = { v with read := none } := by
  unfold afterGetAll
  split
  next opens => exact absurd opens (stage _)
  next opens _ => exact absurd opens (stage _)
  next => rfl

@[simp] theorem afterNow_read (now : Int) : (v.afterNow now).read = v.read := by
  unfold afterNow
  split <;> rfl

@[simp] theorem afterGetAll_read (result : Except String (List PendingPhoto)) :
    (v.afterGetAll localeLE result).read = none := by
  unfold afterGetAll
  split <;> rfl

@[simp] theorem afterDelete_read (result : Except String Unit) : (v.afterDelete result).read = none := by
  unfold afterDelete
  split <;> rfl

@[simp] theorem afterPut_read (result : Except String Unit) : (v.afterPut result).read = none := by
  unfold afterPut
  split <;> rfl

@[simp] theorem afterNow_promise (now : Int) : (v.afterNow now).promise = v.promise := by
  unfold afterNow
  split <;> rfl

@[simp] theorem afterGetAll_promise (result : Except String (List PendingPhoto)) :
    (v.afterGetAll localeLE result).promise = v.promise := by
  unfold afterGetAll
  split <;> rfl

@[simp] theorem afterDelete_promise (result : Except String Unit) :
    (v.afterDelete result).promise = v.promise := by
  unfold afterDelete
  split <;> rfl

@[simp] theorem afterPut_promise (result : Except String Unit) :
    (v.afterPut result).promise = v.promise := by
  unfold afterPut
  split <;> rfl

def after : Sigma UploadReply → View
  | ⟨.arrayBuffer _, _⟩ | ⟨.turn, _⟩ | ⟨.never, _⟩ => { v with read := none }
  | ⟨.idbPut _, result⟩ => v.afterPut result
  | ⟨.idbDelete _, result⟩ => v.afterDelete result
  | ⟨.idbGetAll, result⟩ => v.afterGetAll localeLE result
  | ⟨.beginUpload _ input, _⟩ => { v with stage := .uploading, sent := v.sent ++ [input] }
  | ⟨.awaitUpload _ _, answer⟩ => { v with read := none, stage := .answered answer none }
  | ⟨.now, now⟩ => v.afterNow now
  | ⟨.fields _, values⟩ => { v with read := some values }
  | ⟨.setFields _ values, _⟩ => { v with read := some values }
  | ⟨.again _, again⟩ => { v with stage := if again then .opening none else .ended }
  | ⟨.beginDrain _, p⟩ => { v with read := none, promise := some p, stage := .opening none }
  | ⟨.endDrain _, _⟩ => { v with read := none, promise := none, stage := .idle }
  | ⟨.joinDrain _, _⟩ | ⟨.settleDrain _ _, _⟩ | ⟨.setTimer _, _⟩ | ⟨.clearTimer _, _⟩ => v

end View

/-- The view of a task after its exchanges. -/
def look (localeLE : String → String → Bool) : Past UploadReply → View
  | [] => .initial
  | x :: past => (look localeLE past).after localeLE x

/-- A drain is a task's from where it begins to where it ends. -/
theorem look_promise {localeLE : String → String → Bool} {c : UploadCall} {r : UploadReply c}
    {past : Past UploadReply} (begins : ∀ tab, c ≠ .beginDrain tab) (ends : ∀ tab, c ≠ .endDrain tab) :
    (look localeLE (⟨c, r⟩ :: past)).promise = (look localeLE past).promise := by
  cases c with
  | beginDrain tab => exact absurd rfl (begins tab)
  | endDrain tab => exact absurd rfl (ends tab)
  | now => exact View.afterNow_promise _ _
  | idbGetAll => exact View.afterGetAll_promise _ _ _
  | idbPut item => exact View.afterPut_promise _ _
  | idbDelete clientId => exact View.afterDelete_promise _ _
  | _ => rfl

/-- A round takes its snapshot of what is due, and then drops the items of it from the front. -/
theorem look_lists (localeLE : String → String → Bool) (past : Past UploadReply) {c : UploadCall}
    (r : UploadReply c) :
    (∃ (now : Int) (items : List PendingPhoto), (look localeLE past).stage = .opening (some now) ∧
      (⟨c, r⟩ : Sigma UploadReply) = ⟨.idbGetAll, .ok items⟩ ∧
      (look localeLE (⟨c, r⟩ :: past)).snapshot = UploaderClass.dueOf localeLE now items ∧
      (look localeLE (⟨c, r⟩ :: past)).items = UploaderClass.dueOf localeLE now items) ∨
    (look localeLE (⟨c, r⟩ :: past)).snapshot = (look localeLE past).snapshot ∧
      ((look localeLE (⟨c, r⟩ :: past)).items = (look localeLE past).items ∨
        (look localeLE (⟨c, r⟩ :: past)).items = (look localeLE past).items.tail) := by
  cases c with
  | idbGetAll =>
    change (∃ now items, _ ∧ _ ∧ ((look localeLE past).afterGetAll localeLE r).snapshot = _ ∧
      ((look localeLE past).afterGetAll localeLE r).items = _) ∨
        ((look localeLE past).afterGetAll localeLE r).snapshot = _ ∧
          (((look localeLE past).afterGetAll localeLE r).items = _ ∨ _)
    unfold View.afterGetAll
    split
    next now items stage => exact Or.inl ⟨now, items, stage, rfl, rfl, rfl⟩
    next => exact Or.inr ⟨rfl, Or.inl rfl⟩
    next => exact Or.inr ⟨rfl, Or.inl rfl⟩
  | now =>
    refine Or.inr ?_
    change ((look localeLE past).afterNow r).snapshot = _ ∧
      (((look localeLE past).afterNow r).items = _ ∨ _)
    unfold View.afterNow
    split <;> exact ⟨rfl, Or.inl rfl⟩
  | idbPut new =>
    refine Or.inr ?_
    change ((look localeLE past).afterPut r).snapshot = _ ∧
      (((look localeLE past).afterPut r).items = _ ∨ ((look localeLE past).afterPut r).items = _)
    unfold View.afterPut
    split
    · exact ⟨rfl, Or.inr rfl⟩
    · exact ⟨rfl, Or.inl rfl⟩
    · exact ⟨rfl, Or.inl rfl⟩
  | idbDelete clientId =>
    refine Or.inr ?_
    change ((look localeLE past).afterDelete r).snapshot = _ ∧
      (((look localeLE past).afterDelete r).items = _ ∨ ((look localeLE past).afterDelete r).items = _)
    unfold View.afterDelete
    split
    · exact ⟨rfl, Or.inr rfl⟩
    · exact ⟨rfl, Or.inl rfl⟩
    · exact ⟨rfl, Or.inl rfl⟩
  | _ => exact Or.inr ⟨rfl, Or.inl rfl⟩

/-- Once a task has put its capture, it has. -/
theorem look_stored {localeLE : String → String → Bool} {past : Past UploadReply} {x : Sigma UploadReply}
    (stored : (look localeLE past).stored = true) : (look localeLE (x :: past)).stored = true := by
  obtain ⟨c, r⟩ := x
  cases c with
  | idbGetAll =>
    change ((look localeLE past).afterGetAll localeLE r).stored = true
    unfold View.afterGetAll
    split <;> exact stored
  | now =>
    change ((look localeLE past).afterNow r).stored = true
    unfold View.afterNow
    split <;> exact stored
  | idbPut new =>
    change ((look localeLE past).afterPut r).stored = true
    unfold View.afterPut
    split
    · exact stored
    · exact stored
    · rfl
  | idbDelete clientId =>
    change ((look localeLE past).afterDelete r).stored = true
    unfold View.afterDelete
    split <;> exact stored
  | _ => exact stored

theorem stored_suffix {localeLE : String → String → Bool} {past later : Past UploadReply}
    (suffix : past <:+ later) (stored : (look localeLE past).stored = true) :
    (look localeLE later).stored = true := by
  obtain ⟨recent, rfl⟩ := suffix
  induction recent with
  | nil => exact stored
  | cons x recent ih => exact look_stored ih

/-- The upload has succeeded or come too late. -/
def Concludes : Except JsError (Option Payload) → Prop
  | .ok _ => True
  | .error (.api e) => e.isLocked = true
  | .error (.other _) => False

/-- What is put back after an upload that failed: a permanent failure is marked, any other is due again
after its backoff. -/
def Recorded (item : PendingPhoto) (error : JsError) (now : Option Int) (new : PendingPhoto) : Prop :=
  match error, now with
  | .api e, none => e.isLocked = false ∧ e.isPermanent = true ∧
    new = { item with attempts := item.attempts + 1, failed := true, lastError := some error.message }
  | .api e, some now => e.isLocked = false ∧ e.isPermanent = false ∧ new = { item with
      attempts := item.attempts + 1, nextAttemptAt := now + Uploader.backoffMs (item.attempts + 1)
      lastError := some error.message }
  | .other _, some now => new = { item with
      attempts := item.attempts + 1, nextAttemptAt := now + Uploader.backoffMs (item.attempts + 1)
      lastError := some error.message }
  | .other _, none => False

theorem Recorded.counts {item new : PendingPhoto} {error : JsError} {now : Option Int}
    (h : Recorded item error now new) :
    new.clientId = item.clientId ∧ new.attempts = item.attempts + 1 := by
  cases error with
  | api e =>
    cases now with
    | none =>
      obtain ⟨_, _, rfl⟩ := h
      exact ⟨rfl, rfl⟩
    | some now =>
      obtain ⟨_, _, rfl⟩ := h
      exact ⟨rfl, rfl⟩
  | other m =>
    cases now with
    | none => cases h
    | some now =>
      obtain rfl := h
      exact ⟨rfl, rfl⟩

/-- The capture of an enqueue, as it is first put. -/
def FirstPut (task : UploadTask) (new : PendingPhoto) : Prop :=
  ∃ tab rounds item, task = .enqueue tab rounds item ∧ new.clientId = item.clientId ∧
    new.attempts = 0 ∧ new.failed = false

/-- The uploader's fields are written over what was read in the same segment: `draining` stays, and
`again` is reset only where a round begins. -/
structure Writes (v : View) (values : Fields) : Prop where
  draining : ∀ old, v.read = some old → values.draining = old.draining
  again : ∀ old, v.read = some old → old.again = true → values.again = true ∨ v.stage = .opening none
  known : v.read ≠ none

/-- What a task may do, by its view. -/
def Allowed (task : UploadTask) (v : View) : UploadCall → Prop
  | .idbPut new =>
    v.promise = none ∧ v.stage = .idle ∧ v.stored = false ∧ FirstPut task new ∨
      v.promise ≠ none ∧ ∃ item rest error now, v.items = item :: rest ∧
        v.stage = .answered (.error error) now ∧ Recorded item error now new
  | .idbDelete clientId => v.promise ≠ none ∧ ∃ item rest answer, v.items = item :: rest ∧
    v.stage = .answered answer none ∧ Concludes answer ∧ clientId = item.clientId
  | .beginUpload tab input => tab = task.tab ∧ v.promise ≠ none ∧ v.stage = .ready ∧
    ∃ item rest, v.items = item :: rest ∧ input = UploaderClass.inputOf item
  | .awaitUpload tab input => tab = task.tab ∧ v.promise ≠ none ∧ v.stage = .uploading ∧
    ∃ item rest, v.items = item :: rest ∧ input = UploaderClass.inputOf item
  | .fields tab => tab = task.tab
  | .setFields tab values => tab = task.tab ∧ Writes v values
  | .again tab => tab = task.tab ∧ v.promise ≠ none ∧ v.stage = .ready ∧ v.items = []
  | .beginDrain tab => tab = task.tab ∧ v.promise = none ∧ v.stage = .idle ∧
    ∃ old, v.read = some old ∧ old.draining = false
  | .joinDrain tab => tab = task.tab ∧ v.promise = none ∧
    ∃ old, v.read = some old ∧ old.again = true
  | .settleDrain p _ => v.promise = some p ∧ v.stage = .ended
  | .endDrain tab => tab = task.tab ∧ v.promise ≠ none ∧ v.stage = .ended
  | .idbGetAll => v.stage ≠ .opening none
  | .arrayBuffer _ | .turn | .never | .now | .setTimer _ | .clearTimer _ => True

end ItalyTrip
