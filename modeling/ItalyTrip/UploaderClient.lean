import ItalyTrip.UploaderClass

namespace ItalyTrip

open Calls

/-- How the app's own uploader carries out the calls of the class: its `upload` is that of the API client,
and nobody keeps the promise of its drains. -/
def UploadCall.carryOut : (c : UploadCall) → Prog ClientCall ClientReply (UploadReply c)
  | .arrayBuffer blob => .call (.arrayBuffer blob) .done
  | .idbPut item => .call (.idbPut item) .done
  | .idbDelete clientId => .call (.idbDelete clientId) .done
  | .idbGetAll => .call .idbGetAll .done
  | .awaitUpload tab input => (ApiClient.upload tab input).run
  | .turn => .call .turn .done
  | .never => .call .never .done
  | .beginUpload _ _ => pure ()
  | .now => .call .now .done
  | .fields tab => .call (.fields tab) .done
  | .setFields tab values => .call (.setFields tab values) .done
  | .again tab => .call (.fields tab) fun (values : Fields) => .done values.again
  | .beginDrain tab => .call (.fields tab) fun (values : Fields) =>
    .call (.setFields tab { values with draining := true }) fun _ => .done 0
  | .joinDrain _ => pure 0
  | .settleDrain _ _ => pure ()
  | .endDrain tab => .call (.fields tab) fun (values : Fields) =>
    .call (.setFields tab { values with draining := false }) .done
  | .setTimer delay => .call (.setTimer delay) .done
  | .clearTimer timer => .call (.clearTimer timer) .done

def UploadTask.client : UploadTask → ClientTask
  | .enqueue tab rounds item => .enqueue tab rounds item
  | .start tab rounds => .start tab rounds
  | .stop tab => .stop tab
  | .drain tab rounds => .trigger tab rounds
  | .retryTimer tab rounds => .retryTimer tab rounds

namespace UploaderClass

/-- A script of the class in the hands of the app's uploader. -/
abbrev app {α : Type} (x : UploadScript α) : Script α := implementing UploadCall.carryOut x

variable {localeLE : String → String → Bool} {tab : Nat}

@[simp] theorem app_all : app all = PhotoQueue.all := by
  simp only [all, resolved, implementing_bind, implementing_request, implementing_orThrow]
  rfl

@[simp] theorem app_queueEnqueue (item : Capture) :
    app (queueEnqueue item) = PhotoQueue.enqueue item := by
  simp only [queueEnqueue, resolved, implementing_bind, implementing_request, implementing_pure,
    implementing_orThrow]
  rfl

@[simp] theorem app_due (now : Int) : app (due localeLE now) = PhotoQueue.due localeLE now := by
  simp only [due, implementing_bind, implementing_pure, app_all]
  rfl

@[simp] theorem app_put (item : PendingPhoto) : app (put item) = PhotoQueue.put item := by
  simp only [put, resolved, implementing_bind, implementing_request, implementing_orThrow]
  rfl

@[simp] theorem app_remove (clientId : String) : app (remove clientId) = PhotoQueue.remove clientId := by
  simp only [remove, resolved, implementing_bind, implementing_request, implementing_orThrow]
  rfl

@[simp] theorem app_setFields (f : Fields → Fields) :
    app (setFields tab f) = Uploader.setFields tab f := by
  simp only [setFields, implementing_bind, implementing_request]
  rfl

@[simp] theorem app_refreshCounts : app (refreshCounts tab) = Uploader.refreshCounts tab := by
  simp only [refreshCounts, counts, implementing_bind, implementing_pure, app_all, app_setFields]
  rfl

@[simp] theorem app_handleFailure (item : PendingPhoto) (error : JsError) :
    app (handleFailure tab item error) = Uploader.handleFailure tab item error := by
  cases error with
  | api e =>
    simp only [handleFailure, implementing_ite, implementing_bind, implementing_request, app_remove,
      app_put, app_setFields]
    rfl
  | other message =>
    simp only [handleFailure, implementing_bind, implementing_request, app_put]
    rfl

@[simp] theorem app_upload (input : UploadInput) : app (upload tab input) = ApiClient.upload tab input := by
  simp only [upload, implementing_bind, implementing_request, implementing_orThrow]
  exact attempt_orThrow (ApiClient.upload tab input)

@[simp] theorem app_send (item : PendingPhoto) : app (send tab item) = Uploader.send tab item := by
  simp only [send, implementing_bind, implementing_attempt, app_upload, app_remove]
  congr
  funext sent
  cases sent with
  | ok _ => rfl
  | error error => exact app_handleFailure item error

@[simp] theorem app_sendAll (items : List PendingPhoto) :
    app (sendAll tab items) = Uploader.sendAll tab items := by
  induction items with
  | nil => rfl
  | cons item items ih =>
    simp only [sendAll, implementing_bind, app_send, ih]
    rfl

@[simp] theorem app_drainLoop (rounds : Nat) :
    app (drainLoop localeLE tab rounds) = Uploader.drainLoop localeLE tab rounds := by
  induction rounds with
  | zero =>
    simp only [drainLoop, implementing_bind, implementing_request]
    refine congrArg (ItalyTrip.await .never >>= ·) (funext fun never => ?_)
    cases never
  | succ rounds ih =>
    simp only [drainLoop, implementing_bind, implementing_request, implementing_ite,
      implementing_pure, app_setFields, app_due, app_sendAll, ih]
    rfl

@[simp] theorem app_cancelRetry : app (cancelRetry tab) = Uploader.cancelRetry tab := by
  simp only [cancelRetry, implementing_bind, implementing_request]
  refine congrArg (ItalyTrip.await (.fields tab) >>= ·) (funext fun fields => ?_)
  obtain ⟨_, _, _, retryTimer, _, _⟩ := fields
  cases retryTimer with
  | none => rfl
  | some timer =>
    simp only [implementing_bind, implementing_request]
    rfl

@[simp] theorem app_wakeForFirst (waiting : List PendingPhoto) :
    app (wakeForFirst tab waiting) = Uploader.wakeForFirst tab waiting := by
  unfold wakeForFirst Uploader.wakeForFirst
  cases (waiting.map (·.nextAttemptAt)).min? with
  | none => rfl
  | some soonest =>
    simp only [implementing_bind, implementing_request, app_setFields]
    rfl

@[simp] theorem app_scheduleNextRetry :
    app (scheduleNextRetry tab) = Uploader.scheduleNextRetry tab := by
  simp only [scheduleNextRetry, implementing_bind, implementing_request, implementing_ite,
    implementing_pure, app_cancelRetry, app_all, app_wakeForFirst]
  rfl

@[simp] theorem app_runDrain (rounds : Nat) :
    app (runDrain localeLE tab rounds) = Uploader.runDrain localeLE tab rounds := by
  simp only [runDrain, implementing_bind, implementing_attempt, implementing_orThrow, app_drainLoop,
    app_refreshCounts, app_scheduleNextRetry]
  rfl

@[simp] theorem app_drain (rounds : Nat) :
    app (drain localeLE tab rounds) = Uploader.drain localeLE tab rounds := by
  simp only [drain, implementing_bind, implementing_request, implementing_ite, implementing_attempt,
    implementing_orThrow, implementing_pure, app_setFields, app_runDrain]
  rfl

@[simp] theorem app_clearTimer (timer : Option Nat) : app (clearTimer timer) = Uploader.clearTimer timer := by
  cases timer <;> rfl

theorem app_stop : app (stop tab) = Uploader.stop tab := by
  simp only [stop, implementing_bind, implementing_request, implementing_ite, implementing_pure,
    app_clearTimer]
  rfl

theorem app_start (rounds : Nat) :
    app (start localeLE tab rounds) = Uploader.start localeLE tab rounds := by
  simp only [start, implementing_bind, implementing_request, implementing_ite, implementing_pure,
    app_drain]
  rfl

end UploaderClass

/-- The app's uploader runs the scripts of the class, with the API client's `upload`. -/
theorem script_client (localeLE : String → String → Bool) (task : UploadTask) :
    UploaderClass.app (task.script localeLE) = task.client.script localeLE := by
  cases task with
  | enqueue tab rounds item =>
    simp only [UploadTask.script, UploaderClass.enqueue, implementing_bind,
      UploaderClass.app_queueEnqueue, UploaderClass.app_refreshCounts, UploaderClass.app_drain]
    rfl
  | start tab rounds => exact UploaderClass.app_start rounds
  | stop tab => exact UploaderClass.app_stop
  | drain tab rounds => exact UploaderClass.app_drain rounds
  | retryTimer tab rounds =>
    simp only [UploadTask.script, UploaderClass.onRetryTimer, implementing_bind,
      UploaderClass.app_setFields, UploaderClass.app_drain]
    rfl

end ItalyTrip
