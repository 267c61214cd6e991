import ItalyTrip.DrainExclusive

namespace ItalyTrip

open Calls

variable {localeLE : String → String → Bool} {tab : Nat} {past : Past UploadReply} {α β : Type}

/-- The reading of the clock that a call rests on. What is put again to be tried later is stamped with it,
and a drain sets its timer from it. -/
def Clocked (localeLE : String → String → Bool) (past : Past UploadReply) : UploadCall → Prop
  | .idbPut new => new.nextAttemptAt = 0 ∨ new.failed = true ∨ (look localeLE past).promise ≠ none ∧
      ∃ now before, past = ⟨.now, now⟩ :: before ∧
        new.nextAttemptAt = now + Uploader.backoffMs new.attempts
  | .setTimer delay => (look localeLE past).promise = none ∨ ∃ now items before soonest,
      past = ⟨.now, now⟩ :: ⟨.idbGetAll, .ok items⟩ :: before ∧
        ((items.filter fun item => !item.failed).map (·.nextAttemptAt)).min? = some soonest ∧
        delay = max 0 (soonest - now)
  | _ => True

namespace UploaderClass

/-- A part of a drain. -/
def Clocks (localeLE : String → String → Bool) (x : UploadScript α) (past : Past UploadReply) : Prop :=
  (look localeLE past).promise ≠ none →
    x.run.Ensures (Clocked localeLE) (fun past' _ => (look localeLE past').promise ≠ none) past

theorem Clocks.bind {x : UploadScript α} {f : α → UploadScript β} (h : Clocks localeLE x past)
    (next : ∀ a past', Clocks localeLE (f a) past') : Clocks localeLE (x >>= f) past := by
  intro running
  refine ensures_run_bind.mpr ((h running).mono (fun _ _ hc => hc) fun past' r running' => ?_)
  cases r with
  | ok a => exact next a past' running'
  | error e => exact running'

theorem clocks_done (r : Except JsError α) (x : UploadScript α) (done : x.run = pure r) :
    Clocks localeLE x past := by
  intro running
  rw [done]
  exact running

theorem clocks_orThrow {γ : Type} (x : Except γ α) (f : γ → JsError) :
    Clocks localeLE (orThrow x f) past := by
  cases x with
  | ok a => exact clocks_done (.ok a) _ rfl
  | error e => exact clocks_done (.error (f e)) _ rfl

theorem clocks_attempt {x : UploadScript α} (h : Clocks localeLE x past) :
    Clocks localeLE (attempt x) past := by
  intro running
  exact ensures_attempt.mpr (h running)

theorem clocks_call {c : UploadCall} {f : UploadReply c → UploadScript β}
    (clocked : (look localeLE past).promise ≠ none → Clocked localeLE past c)
    (ends : ∀ n, c ≠ .endDrain n) (begins : ∀ n, c ≠ .beginDrain n)
    (next : ∀ r, Clocks localeLE (f r) (⟨c, r⟩ :: past)) : Clocks localeLE (await c >>= f) past := by
  intro running
  simp only [ensures_run_bind, ensures_request]
  refine ⟨clocked running, fun r => next r ?_⟩
  rwa [look_promise begins ends]

theorem setFields_clocks (f : Fields → Fields) : Clocks localeLE (setFields tab f) past := by
  refine clocks_call (fun _ => trivial) nofun nofun fun values running => ?_
  exact ensures_request.mpr ⟨trivial, fun _ => running⟩

theorem put_clocks {item : PendingPhoto}
    (clocked : (look localeLE past).promise ≠ none → Clocked localeLE past (.idbPut item)) :
    Clocks localeLE (put item) past :=
  clocks_call clocked nofun nofun fun r => clocks_orThrow r _

theorem remove_clocks (clientId : String) : Clocks localeLE (remove clientId) past :=
  clocks_call (fun _ => trivial) nofun nofun fun r => clocks_orThrow r _

theorem all_clocks : Clocks localeLE all past :=
  clocks_call (fun _ => trivial) nofun nofun fun r => clocks_orThrow r _

theorem refreshCounts_clocks : Clocks localeLE (refreshCounts tab) past := by
  refine (all_clocks.bind fun items _ => ?_ : Clocks localeLE counts past).bind fun _ _ => ?_
  · exact clocks_done (.ok _) _ rfl
  · exact setFields_clocks _

/-- What failed is stamped with the reading of the clock just before. -/
theorem handleFailure_clocks (item : PendingPhoto) (error : JsError) :
    Clocks localeLE (handleFailure tab item error) past := by
  have retryLater : Clocks localeLE (do
      let now ← await .now
      put { item with
        attempts := item.attempts + 1, nextAttemptAt := now + Uploader.backoffMs (item.attempts + 1)
        lastError := some error.message }) past := by
    refine clocks_call (fun _ => trivial) nofun nofun fun now => put_clocks fun running => ?_
    exact Or.inr (Or.inr ⟨running, now, past, rfl, rfl⟩)
  cases error with
  | other message => exact retryLater
  | api e =>
    unfold handleFailure
    dsimp only
    split
    · exact (remove_clocks _).bind fun _ _ => setFields_clocks _
    · split
      · exact put_clocks fun _ => Or.inr (Or.inl rfl)
      · exact retryLater

theorem send_clocks (item : PendingPhoto) : Clocks localeLE (send tab item) past := by
  have uploads : Clocks localeLE (do let _ ← upload tab (inputOf item); remove item.clientId) past := by
    refine Clocks.bind ?_ fun _ _ => remove_clocks _
    refine clocks_call (fun _ => trivial) nofun nofun fun _ => ?_
    exact clocks_call (fun _ => trivial) nofun nofun fun answer => clocks_orThrow answer _
  refine (clocks_attempt uploads).bind fun sent _ => ?_
  cases sent with
  | ok _ => exact clocks_done (.ok ()) _ rfl
  | error error => exact handleFailure_clocks item error

theorem sendAll_clocks (items : List PendingPhoto) : Clocks localeLE (sendAll tab items) past := by
  induction items generalizing past with
  | nil => exact clocks_done (.ok ()) _ rfl
  | cons item items ih => exact (send_clocks item).bind fun _ _ => ih

theorem drainLoop_clocks (rounds : Nat) : Clocks localeLE (drainLoop localeLE tab rounds) past := by
  induction rounds generalizing past with
  | zero => exact clocks_call (fun _ => trivial) nofun nofun fun never => never.elim
  | succ rounds ih =>
    refine (setFields_clocks fun s => { s with again := false }).bind fun _ _ => ?_
    refine clocks_call (fun _ => trivial) nofun nofun fun now => ?_
    refine (all_clocks.bind fun items _ => clocks_done (.ok _) _ rfl).bind fun items _ => ?_
    refine (sendAll_clocks items).bind fun _ _ =>
      clocks_call (fun _ => trivial) nofun nofun fun again => ?_
    cases again with
    | false => exact clocks_done (.ok ()) _ rfl
    | true => exact ih

theorem cancelRetry_clocks : Clocks localeLE (cancelRetry tab) past := by
  refine clocks_call (fun _ => trivial) nofun nofun fun values => ?_
  cases values.retryTimer with
  | none => exact clocks_done (.ok ()) _ rfl
  | some timer =>
    refine clocks_call (fun _ => trivial) nofun nofun fun _ running => ?_
    exact ensures_request.mpr ⟨trivial, fun _ => running⟩

/-- A drain sets its timer from what it has just read of the queue and of the clock. -/
theorem wakeForFirst_clocks (items : List PendingPhoto) (before : Past UploadReply) :
    Clocks localeLE (wakeForFirst tab (items.filter fun item => !item.failed))
      (⟨.idbGetAll, .ok items⟩ :: before) := by
  unfold wakeForFirst
  cases first : ((items.filter fun item => !item.failed).map (·.nextAttemptAt)).min? with
  | none => exact clocks_done (.ok ()) _ rfl
  | some soonest =>
    refine clocks_call (fun _ => trivial) nofun nofun fun now => ?_
    refine clocks_call (fun _ => ?_) nofun nofun fun timer => ?_
    · exact Or.inr ⟨now, items, before, soonest, rfl, first, rfl⟩
    · exact setFields_clocks _

theorem scheduleNextRetry_clocks : Clocks localeLE (scheduleNextRetry tab) past := by
  refine cancelRetry_clocks.bind fun _ past₁ => clocks_call (fun _ => trivial) nofun nofun fun values => ?_
  cases started : values.started with
  | false => exact clocks_done (.ok ()) _ rfl
  | true =>
    change Clocks localeLE ((await .idbGetAll >>= fun result => resolved result) >>= fun items =>
      wakeForFirst tab (items.filter fun item => !item.failed)) _
    rw [bind_assoc]
    refine clocks_call (fun _ => trivial) nofun nofun fun result => ?_
    cases result with
    | error m => exact clocks_done (.error (.other m)) _ rfl
    | ok items => exact wakeForFirst_clocks items _

theorem runDrain_clocks (rounds : Nat) : Clocks localeLE (runDrain localeLE tab rounds) past := by
  refine (clocks_attempt (drainLoop_clocks rounds)).bind fun drained _ => ?_
  refine refreshCounts_clocks.bind fun _ _ => scheduleNextRetry_clocks.bind fun _ _ => ?_
  exact clocks_orThrow drained id

theorem drain_clocked (rounds : Nat) :
    (drain localeLE tab rounds).run.Ensures (Clocked localeLE) (fun _ _ => True) past := by
  refine ensures_run_bind.mpr (ensures_request.mpr ⟨trivial, fun values => ?_⟩)
  refine ensures_run_ite.mpr ⟨fun _ => ?_, fun _ => ?_⟩
  · simp only [setFields, ensures_run_bind, ensures_request, ensures_run_pure]
    exact ⟨trivial, fun _ => ⟨trivial, fun _ => ⟨trivial, fun _ => trivial⟩⟩⟩
  · refine ensures_run_bind.mpr (ensures_request.mpr ⟨trivial, fun p => ?_⟩)
    have runs := @runDrain_clocks localeLE tab (⟨.beginDrain tab, p⟩ :: ⟨.fields tab, values⟩ :: past) rounds
    refine ensures_run_bind.mpr ((clocks_attempt runs (Option.some_ne_none p)).mono (fun _ _ hc => hc) ?_)
    rintro past₁ (e | drained) _
    · trivial
    · simp only [ensures_run_bind, ensures_request]
      refine ⟨trivial, fun _ => ⟨trivial, fun _ => ⟨trivial, fun _ => ?_⟩⟩⟩
      exact ensures_orThrow.mpr ⟨fun _ _ => trivial, fun _ _ => trivial⟩

end UploaderClass

/-- All calls of a script rest on readings of the clock in this way. -/
theorem script_clocked (localeLE : String → String → Bool) (task : UploadTask) :
    (task.script localeLE).run.Ensures (Clocked localeLE) (fun _ _ => True) [] := by
  cases task with
  | enqueue n rounds item =>
    simp only [UploadTask.script, UploaderClass.enqueue, UploaderClass.queueEnqueue,
      UploaderClass.refreshCounts, UploaderClass.counts, UploaderClass.all, UploaderClass.setFields,
      ensures_run_bind, ensures_request, UploaderClass.ensures_resolved, ensures_run_pure]
    refine ⟨trivial, fun _ => ⟨fun _ _ => trivial, fun _ _ => ⟨Or.inl rfl, fun _ => ?_⟩⟩⟩
    refine ⟨fun _ _ => trivial, fun _ _ => ⟨trivial, fun _ => ⟨fun _ _ => trivial, fun _ _ => ?_⟩⟩⟩
    exact ⟨trivial, fun _ => ⟨trivial, fun _ => UploaderClass.drain_clocked rounds⟩⟩
  | start n rounds =>
    refine ensures_run_bind.mpr (ensures_request.mpr ⟨trivial, fun values => ?_⟩)
    refine ensures_run_ite.mpr ⟨fun _ => trivial, fun _ => ?_⟩
    refine ensures_run_bind.mpr (ensures_request.mpr ⟨Or.inl rfl, fun timer => ?_⟩)
    refine ensures_run_bind.mpr (ensures_request.mpr ⟨trivial, fun _ => ?_⟩)
    exact UploaderClass.drain_clocked rounds
  | stop n =>
    have clears : ∀ timer past', (UploaderClass.clearTimer timer).run.Ensures (Clocked localeLE)
        (fun _ _ => True) past' := by
      intro timer past'
      cases timer with
      | none => trivial
      | some timer => exact ensures_request.mpr ⟨trivial, fun _ => trivial⟩
    refine ensures_run_bind.mpr (ensures_request.mpr ⟨trivial, fun values => ?_⟩)
    refine ensures_run_ite.mpr ⟨fun _ => trivial, fun _ => ?_⟩
    refine ensures_run_bind.mpr ((clears _ _).mono (fun _ _ hc => hc) ?_)
    rintro past₁ (e | _) _
    · trivial
    · refine ensures_run_bind.mpr ((clears _ _).mono (fun _ _ hc => hc) ?_)
      rintro past₂ (e | _) _
      · trivial
      · exact ensures_request.mpr ⟨trivial, fun _ => trivial⟩
  | drain n rounds => exact UploaderClass.drain_clocked rounds
  | retryTimer n rounds =>
    simp only [UploadTask.script, UploaderClass.onRetryTimer, UploaderClass.setFields, ensures_run_bind,
      ensures_request]
    exact ⟨trivial, fun _ => ⟨trivial, fun _ => UploaderClass.drain_clocked rounds⟩⟩

end ItalyTrip
