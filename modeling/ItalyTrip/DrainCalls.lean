import ItalyTrip.DrainView

namespace ItalyTrip

open Calls

namespace View

/-- Not in the middle of a round. -/
def Rests (v : View) : Prop := v.stage = .idle ∨ v.stage = .ended

theorem Rests.not_opening {v : View} (rests : v.Rests) : v.stage ≠ .opening none := by
  intro stage
  rcases rests with h | h <;> rw [stage] at h <;> cases h

/-- The same but for the fields that were read. -/
structure Like (v v' : View) : Prop where
  promise : v.promise = v'.promise
  stage : v.stage = v'.stage
  snapshot : v.snapshot = v'.snapshot
  items : v.items = v'.items
  sent : v.sent = v'.sent
  stored : v.stored = v'.stored

theorem Like.trans {v v' v'' : View} (h : v.Like v') (h' : v'.Like v'') : v.Like v'' :=
  ⟨h.promise.trans h'.promise, h.stage.trans h'.stage, h.snapshot.trans h'.snapshot,
    h.items.trans h'.items, h.sent.trans h'.sent, h.stored.trans h'.stored⟩

theorem like_read (v : View) (read : Option Fields) : Like { v with read } v :=
  ⟨rfl, rfl, rfl, rfl, rfl, rfl⟩

theorem Like.rests {v v' : View} (h : v.Like v') (rests : v'.Rests) : v.Rests := by
  unfold Rests at *
  rwa [h.stage]

theorem afterNow_rests {v : View} (rests : v.Rests) (now : Int) : v.afterNow now = v := by
  unfold afterNow
  rcases rests with h | h <;> rw [h]

theorem afterGetAll_rests {localeLE : String → String → Bool} {v : View} (rests : v.Rests)
    (result : Except String (List PendingPhoto)) : (v.afterGetAll localeLE result).Like v := by
  obtain ⟨_, _, stage, _, _, _, _⟩ := v
  rcases rests with h | h
  all_goals
    obtain rfl : stage = _ := h
    exact like_read _ _

end View

namespace UploaderClass

variable {localeLE : String → String → Bool} {task : UploadTask} {tab : Nat}
  {past : Past UploadReply} {α β : Type}

@[simp] theorem ensures_resolved {result : Except String α}
    {atCall : Past UploadReply → UploadCall → Prop}
    {atDone : Past UploadReply → Except JsError α → Prop} :
    (resolved result).run.Ensures atCall atDone past ↔
      (∀ m, result = .error m → atDone past (.error (.other m))) ∧
        ∀ a, result = .ok a → atDone past (.ok a) := by
  simp only [resolved, ensures_orThrow]

/-- From this view the calls of the script are allowed, and its outcome meets `post`. -/
abbrev Sees (localeLE : String → String → Bool) (task : UploadTask) (x : UploadScript α)
    (past : Past UploadReply) (post : View → Except JsError α → Prop) : Prop :=
  x.run.Ensures (fun past c => Allowed task (look localeLE past) c)
    (fun past r => post (look localeLE past) r) past

theorem Sees.bind {x : UploadScript α} {f : α → UploadScript β}
    {mid : View → Except JsError α → Prop} {post : View → Except JsError β → Prop}
    (h : Sees localeLE task x past mid)
    (next : ∀ a past, mid (look localeLE past) (.ok a) → Sees localeLE task (f a) past post)
    (failed : ∀ e v, mid v (.error e) → post v (.error e)) :
    Sees localeLE task (x >>= f) past post := by
  refine ensures_run_bind.mpr (h.mono (fun _ _ hc => hc) fun past r hr => ?_)
  cases r with
  | ok a => exact next a past hr
  | error e => exact failed e _ hr

theorem sees_call {c : UploadCall} {f : UploadReply c → UploadScript β}
    {post : View → Except JsError β → Prop} (allowed : Allowed task (look localeLE past) c)
    (next : ∀ r, Sees localeLE task (f r) (⟨c, r⟩ :: past) post) :
    Sees localeLE task (await c >>= f) past post :=
  ensures_run_bind.mpr (ensures_request.mpr ⟨allowed, next⟩)

theorem sees_ite {condition : Prop} [Decidable condition] {x y : UploadScript α}
    {post : View → Except JsError α → Prop} (first : condition → Sees localeLE task x past post)
    (second : ¬ condition → Sees localeLE task y past post) :
    Sees localeLE task (if condition then x else y) past post :=
  ensures_run_ite.mpr ⟨first, second⟩

theorem Sees.attempt {x : UploadScript α} {post : View → Except JsError α → Prop}
    (h : Sees localeLE task x past post) :
    Sees localeLE task (attempt x) past (fun v r => ∃ a, r = .ok a ∧ post v a) :=
  ensures_attempt.mpr (h.mono (fun _ _ hc => hc) fun _ r hr => ⟨r, rfl, hr⟩)

theorem sees_orThrow {x : Except JsError α} {post : View → Except JsError α → Prop}
    (h : post (look localeLE past) x) : Sees localeLE task (orThrow x id) past post := by
  cases x <;> exact h

/-- The script does nothing to the view but to read fields. -/
abbrev Stays (localeLE : String → String → Bool) (task : UploadTask) (x : UploadScript α)
    (past : Past UploadReply) : Prop :=
  Sees localeLE task x past fun v _ => v.Like (look localeLE past)

theorem Stays.bind {x : UploadScript α} {f : α → UploadScript β} {post : View → Except JsError β → Prop}
    (h : Stays localeLE task x past)
    (next : ∀ a past', (look localeLE past').Like (look localeLE past) →
      Sees localeLE task (f a) past' post)
    (failed : ∀ e v, v.Like (look localeLE past) → post v (.error e)) :
    Sees localeLE task (x >>= f) past post :=
  Sees.bind h next failed

theorem Stays.andThen {x : UploadScript α} {f : α → UploadScript β} (h : Stays localeLE task x past)
    (next : ∀ a past', (look localeLE past').Like (look localeLE past) →
      Stays localeLE task (f a) past') : Stays localeLE task (x >>= f) past :=
  h.bind (fun a past' like => (next a past' like).mono (fun _ _ hc => hc) fun _ _ hr => hr.trans like)
    fun _ _ like => like

theorem stays_pure {a : α} : Stays localeLE task (pure a) past := View.like_read _ _

/-- Fields are read, changed and written in one segment. -/
theorem setFields_sees {f : Fields → Fields} (own : tab = task.tab)
    (draining : ∀ old, (f old).draining = old.draining)
    (again : ∀ old, old.again = true →
      (f old).again = true ∨ (look localeLE past).stage = .opening none) :
    Sees localeLE task (setFields tab f) past fun v r => v.Like (look localeLE past) ∧ r = .ok () ∧
      ∃ old, v.read = some (f old) := by
  simp only [Sees, setFields, ensures_run_bind, ensures_request]
  refine ⟨own, fun old => ⟨⟨own, ?_, ?_, ?_⟩, fun _ =>
    ⟨⟨rfl, rfl, rfl, rfl, rfl, rfl⟩, trivial, old, rfl⟩⟩⟩
  · intro read same
    obtain rfl := Option.some.inj same
    exact draining old
  · intro read same
    obtain rfl := Option.some.inj same
    exact again old
  · exact Option.some_ne_none _

theorem setFields_keeps {f : Fields → Fields} (own : tab = task.tab)
    (draining : ∀ old, (f old).draining = old.draining)
    (again : ∀ old, old.again = true → (f old).again = true) :
    Stays localeLE task (setFields tab f) past :=
  (setFields_sees own draining fun old h => Or.inl (again old h)).mono (fun _ _ hc => hc)
    fun _ _ hr => hr.1

theorem all_stays (rests : (look localeLE past).Rests) : Stays localeLE task all past := by
  simp only [Stays, Sees, all, ensures_run_bind, ensures_request, ensures_resolved]
  exact ⟨rests.not_opening, fun result => ⟨fun _ _ => View.afterGetAll_rests rests result,
    fun _ _ => View.afterGetAll_rests rests result⟩⟩

theorem refreshCounts_stays (own : tab = task.tab) (rests : (look localeLE past).Rests) :
    Stays localeLE task (refreshCounts tab) past := by
  have counts : Stays localeLE task counts past :=
    (all_stays rests).andThen fun _ _ _ => stays_pure
  exact counts.andThen fun _ _ _ => setFields_keeps own (fun _ => rfl) fun _ h => h

theorem cancelRetry_stays (own : tab = task.tab) : Stays localeLE task (cancelRetry tab) past := by
  simp only [Stays, Sees, cancelRetry, ensures_run_bind, ensures_request]
  refine ⟨own, fun old => ?_⟩
  split
  next => exact View.like_read _ _
  next timer _ =>
    simp only [ensures_run_bind, ensures_request]
    refine ⟨trivial, fun _ => ⟨⟨own, ?_, ?_, ?_⟩, fun _ => ⟨rfl, rfl, rfl, rfl, rfl, rfl⟩⟩⟩
    · intro read same
      obtain rfl := Option.some.inj same
      rfl
    · intro read same
      obtain rfl := Option.some.inj same
      exact Or.inl
    · exact Option.some_ne_none _

theorem now_stays (rests : (look localeLE past).Rests) : Stays localeLE task (await .now) past := by
  simp only [Stays, Sees, ensures_request]
  refine ⟨trivial, fun now => ?_⟩
  have same : (look localeLE past).afterNow now = look localeLE past := View.afterNow_rests rests now
  exact same ▸ View.like_read _ _

theorem wakeForFirst_stays (own : tab = task.tab) (rests : (look localeLE past).Rests)
    (waiting : List PendingPhoto) : Stays localeLE task (wakeForFirst tab waiting) past := by
  unfold wakeForFirst
  split
  next => exact stays_pure
  next soonest _ =>
    refine (now_stays rests).andThen fun now past _ => ?_
    have timer : Stays localeLE task (await (.setTimer (max 0 (soonest - now)))) past :=
      ensures_request.mpr ⟨trivial, fun _ => View.like_read _ _⟩
    exact timer.andThen fun _ _ _ => setFields_keeps own (fun _ => rfl) fun _ h => h

theorem scheduleNextRetry_stays (own : tab = task.tab) (rests : (look localeLE past).Rests) :
    Stays localeLE task (scheduleNextRetry tab) past := by
  refine (cancelRetry_stays own).andThen fun _ past like => ?_
  have fields : Stays localeLE task (await (.fields tab)) past :=
    ensures_request.mpr ⟨own, fun _ => View.like_read _ _⟩
  refine fields.andThen fun old past' like' => ?_
  refine ensures_run_ite.mpr ⟨fun _ => stays_pure, fun _ => ?_⟩
  have rests' := like'.rests (like.rests rests)
  exact (all_stays rests').andThen fun items _ like'' => wakeForFirst_stays own (like''.rests rests') _

/-- The part of a drain that sends: the promise stays, and what is left is sent or the round is over. -/
structure Sends (before v : View) (rest : List PendingPhoto) (r : Except JsError α) : Prop where
  promise : v.promise = before.promise
  sent : ∀ a, r = .ok a → v.stage = .ready ∧ v.items = rest
  failed : ∀ e, r = .error e → v.stage = .ended

theorem put_sees {item new : PendingPhoto} {rest : List PendingPhoto} {error : JsError}
    {now : Option Int} (running : (look localeLE past).promise ≠ none)
    (items : (look localeLE past).items = item :: rest)
    (stage : (look localeLE past).stage = .answered (.error error) now)
    (recorded : Recorded item error now new) :
    Sees localeLE task (put new) past fun v r => Sends (look localeLE past) v rest r := by
  have after : ∀ result, look localeLE (⟨.idbPut new, result⟩ :: past) =
      (look localeLE past).afterPut result := fun _ => rfl
  simp only [Sees, put, ensures_run_bind, ensures_request, ensures_resolved, after, View.afterPut, stage]
  refine ⟨Or.inr ⟨running, item, rest, error, now, items, stage, recorded⟩, fun result => ⟨?_, ?_⟩⟩
  · rintro m rfl
    exact ⟨rfl, fun _ h => (by cases h), fun _ _ => rfl⟩
  · rintro _ rfl
    exact ⟨rfl, fun _ _ => ⟨rfl, congrArg List.tail items⟩, fun _ h => (by cases h)⟩

/-- The item is removed; where that fails after a success, the item has failed. -/
theorem remove_sees {item : PendingPhoto} {rest : List PendingPhoto}
    {answer : Except JsError (Option Payload)} (running : (look localeLE past).promise ≠ none)
    (items : (look localeLE past).items = item :: rest)
    (stage : (look localeLE past).stage = .answered answer none) (concludes : Concludes answer) :
    Sees localeLE task (remove item.clientId) past fun v r => v.promise = (look localeLE past).promise ∧
      (∀ a, r = .ok a → v.stage = .ready ∧ v.items = rest) ∧
      ∀ e, r = .error e → ((∃ error, answer = .error error) → v.stage = .ended) ∧
        ∀ payload, answer = .ok payload → v.items = item :: rest ∧ v.stage = .answered (.error e) none := by
  have after : ∀ result, look localeLE (⟨.idbDelete item.clientId, result⟩ :: past) =
      (look localeLE past).afterDelete result := fun _ => rfl
  simp only [Sees, remove, ensures_run_bind, ensures_request, ensures_resolved, after,
    View.afterDelete, stage]
  refine ⟨⟨running, item, rest, answer, items, stage, concludes, rfl⟩, fun result => ⟨?_, ?_⟩⟩
  · rintro m rfl
    cases answer with
    | ok payload =>
      refine ⟨rfl, fun _ h => (by cases h), fun e h => ⟨?_, fun _ _ => ?_⟩⟩
      · rintro ⟨_, none⟩
        cases none
      · cases h
        exact ⟨items, rfl⟩
    | error error =>
      exact ⟨rfl, fun _ h => (by cases h), fun _ _ => ⟨fun _ => rfl, fun _ h => (by cases h)⟩⟩
  · rintro _ rfl
    refine ⟨rfl, fun _ _ => ⟨?_, ?_⟩, fun _ h => (by cases h)⟩
    · cases answer <;> rfl
    · cases answer <;> exact congrArg List.tail items

/-- The outcome of an upload is recorded. -/
theorem handleFailure_sees {item : PendingPhoto} {rest : List PendingPhoto} {error : JsError}
    (own : tab = task.tab) (running : (look localeLE past).promise ≠ none)
    (items : (look localeLE past).items = item :: rest)
    (stage : (look localeLE past).stage = .answered (.error error) none) :
    Sees localeLE task (handleFailure tab item error) past
      fun v r => Sends (look localeLE past) v rest r := by
  have later : ∀ now : Int, look localeLE (⟨.now, now⟩ :: past) =
      { look localeLE past with stage := .answered (.error error) (some now) } := by
    intro now
    have same : look localeLE (⟨.now, now⟩ :: past) = (look localeLE past).afterNow now := rfl
    rw [same, View.afterNow, stage]
  have retry : ∀ now new, Recorded item error (some now) new →
      Sees localeLE task (put new) (⟨.now, now⟩ :: past) fun v r => Sends (look localeLE past) v rest r := by
    intro now new recorded
    have sees := @put_sees localeLE task (⟨.now, now⟩ :: past) item new rest error (some now)
      (by rw [later]; exact running) (by rw [later]; exact items) (by rw [later]) recorded
    refine sees.mono (fun _ _ hc => hc) fun _ _ hr => ⟨hr.promise.trans ?_, hr.sent, hr.failed⟩
    rw [later]
  cases error with
  | other message =>
    simp only [Sees, handleFailure, ensures_run_bind, ensures_request]
    exact ⟨trivial, fun now => retry now _ rfl⟩
  | api e =>
    refine ensures_run_ite.mpr ⟨fun locked => ?_, fun unlocked => ?_⟩
    · change Sees localeLE task (remove item.clientId >>= fun _ => _) past
        fun v r => Sends (look localeLE past) v rest r
      refine (remove_sees running items stage locked).bind (fun _ past' removed => ?_) ?_
      · have told : Sees localeLE task (setFields tab fun s => { s with
            status := { s.status with message := some Uploader.lostMessage } }) past' _ :=
          setFields_sees own (fun _ => rfl) fun _ h => Or.inl h
        refine told.mono (fun _ _ hc => hc) ?_
        rintro _ r ⟨like, rfl, _⟩
        refine ⟨like.promise.trans removed.1, fun _ _ => ?_, fun _ h => (by cases h)⟩
        rw [like.stage, like.items]
        exact removed.2.1 _ rfl
      · exact fun e v removed => ⟨removed.1, fun _ h => (by cases h),
          fun _ _ => (removed.2.2 e rfl).1 ⟨_, rfl⟩⟩
    · refine ensures_run_ite.mpr ⟨fun permanent => ?_, fun transient => ?_⟩
      · exact put_sees running items stage ⟨by simpa using unlocked, permanent, rfl⟩
      · simp only [ensures_run_bind, ensures_request]
        exact ⟨trivial, fun now => retry now _ ⟨by simpa using unlocked, by simpa using transient, rfl⟩⟩

theorem send_sees {item : PendingPhoto} {rest : List PendingPhoto} (own : tab = task.tab)
    (running : (look localeLE past).promise ≠ none) (items : (look localeLE past).items = item :: rest)
    (stage : (look localeLE past).stage = .ready) :
    Sees localeLE task (send tab item) past fun v r => Sends (look localeLE past) v rest r := by
  have failed : ∀ (past' : Past UploadReply) (error : JsError),
      (look localeLE past').promise = (look localeLE past).promise →
      (look localeLE past').items = item :: rest →
      (look localeLE past').stage = .answered (.error error) none →
      Sees localeLE task (handleFailure tab item error) past' fun v r =>
        Sends (look localeLE past) v rest r := by
    intro past' error promise items stage
    refine (handleFailure_sees own (promise ▸ running) items stage).mono (fun _ _ hc => hc) ?_
    exact fun _ _ hr => ⟨hr.promise.trans promise, hr.sent, hr.failed⟩
  simp only [Sees, send, upload, ensures_run_bind, ensures_attempt, ensures_request]
  refine ⟨⟨own, running, stage, item, rest, items, rfl⟩, fun _ =>
    ⟨⟨own, running, rfl, item, rest, items, rfl⟩, fun answer => ?_⟩⟩
  cases answer with
  | error error => exact failed _ error rfl items rfl
  | ok payload =>
    have kept := @remove_sees localeLE task (⟨.awaitUpload tab (inputOf item), .ok payload⟩ ::
      ⟨.beginUpload tab (inputOf item), ()⟩ :: past) item rest (.ok payload) running items rfl trivial
    refine kept.mono (fun _ _ hc => hc) fun past' r removed => ?_
    cases r with
    | ok _ => exact ⟨removed.1, removed.2.1, fun _ h => (by cases h)⟩
    | error error =>
      obtain ⟨left, stage⟩ := (removed.2.2 error rfl).2 payload rfl
      exact failed past' error removed.1 left stage

theorem sendAll_sees {items : List PendingPhoto} (own : tab = task.tab)
    (running : (look localeLE past).promise ≠ none) (left : (look localeLE past).items = items)
    (stage : (look localeLE past).stage = .ready) :
    Sees localeLE task (sendAll tab items) past fun v r => Sends (look localeLE past) v [] r := by
  induction items generalizing past with
  | nil => exact ⟨rfl, fun _ _ => ⟨stage, left⟩, fun _ h => (by cases h)⟩
  | cons item items ih =>
    refine (send_sees own running left stage).bind (fun _ past' sent => ?_) fun e v sent => ?_
    · obtain ⟨stage', left'⟩ := sent.sent _ rfl
      refine (ih (sent.promise ▸ running) left' stage').mono (fun _ _ hc => hc) fun _ _ rest => ?_
      exact ⟨rest.promise.trans sent.promise, rest.sent, rest.failed⟩
    · exact ⟨sent.promise, fun _ h => (by cases h), fun _ _ => sent.failed e rfl⟩

/-- The loop of a drain is over. -/
structure Ends (before v : View) : Prop where
  promise : v.promise = before.promise
  stage : v.stage = .ended

theorem due_sees {now : Int} (stage : (look localeLE past).stage = .opening (some now)) :
    Sees localeLE task (due localeLE now) past fun v r => v.promise = (look localeLE past).promise ∧
      (∀ items, r = .ok items → v.stage = .ready ∧ v.items = items) ∧
      ∀ e, r = .error e → v.stage = .ended := by
  have after : ∀ result, look localeLE (⟨.idbGetAll, result⟩ :: past) =
      (look localeLE past).afterGetAll localeLE result := fun _ => rfl
  simp only [Sees, due, all, ensures_run_bind, ensures_request, ensures_resolved, ensures_run_pure, after,
    View.afterGetAll, stage]
  refine ⟨fun opening => ?_, fun result => ⟨?_, ?_⟩⟩
  · exact absurd (stage.symm.trans opening) (by simp)
  · rintro m rfl
    exact ⟨rfl, fun _ h => (by cases h), fun _ _ => rfl⟩
  · rintro items rfl
    refine ⟨rfl, fun due h => ⟨rfl, ?_⟩, fun _ h => (by cases h)⟩
    exact Except.ok.inj h

theorem drainLoop_sees {rounds : Nat} (own : tab = task.tab)
    (running : (look localeLE past).promise ≠ none)
    (stage : (look localeLE past).stage = .opening none) :
    Sees localeLE task (drainLoop localeLE tab rounds) past fun v _ => Ends (look localeLE past) v := by
  induction rounds generalizing past with
  | zero =>
    simp only [Sees, drainLoop, ensures_run_bind, ensures_request]
    exact ⟨trivial, fun never => Empty.elim never⟩
  | succ rounds ih =>
    have reset : Sees localeLE task (setFields tab fun s => { s with again := false }) past _ :=
      setFields_sees own (fun _ => rfl) fun _ _ => Or.inr stage
    refine reset.bind (fun _ past₁ opened => ?_) fun _ _ failed => (by cases failed.2.1)
    obtain ⟨like, _⟩ := opened
    refine sees_call trivial fun now => ?_
    have looked : look localeLE (⟨.now, now⟩ :: past₁) =
        { look localeLE past₁ with stage := .opening (some now) } := by
      have same : look localeLE (⟨.now, now⟩ :: past₁) = (look localeLE past₁).afterNow now := rfl
      rw [same, View.afterNow, like.stage, stage]
    have read := @due_sees localeLE task (⟨.now, now⟩ :: past₁) now (by rw [looked])
    rw [looked] at read
    refine Sees.bind read (fun items past₂ taken => ?_) fun e v failed => ?_
    · obtain ⟨ready, left⟩ := taken.2.1 items rfl
      have running₂ : (look localeLE past₂).promise = (look localeLE past).promise :=
        taken.1.trans like.promise
      refine (sendAll_sees own (running₂ ▸ running) left ready).bind (fun _ past₃ sent => ?_) fun e v sent => ?_
      · obtain ⟨ready₃, left₃⟩ := sent.sent _ rfl
        have running₃ := sent.promise.trans running₂
        refine sees_call ⟨own, running₃ ▸ running, ready₃, left₃⟩ fun again => ?_
        cases again with
        | false => exact ⟨running₃, rfl⟩
        | true =>
          refine (@ih (⟨.again tab, true⟩ :: past₃) (running₃ ▸ running) rfl).mono (fun _ _ hc => hc) ?_
          exact fun _ _ ends => ⟨ends.promise.trans running₃, ends.stage⟩
      · exact ⟨sent.promise.trans running₂, sent.failed e rfl⟩
    · exact ⟨failed.1.trans like.promise, failed.2.2 e rfl⟩

theorem runDrain_sees {rounds : Nat} (own : tab = task.tab)
    (running : (look localeLE past).promise ≠ none)
    (stage : (look localeLE past).stage = .opening none) :
    Sees localeLE task (runDrain localeLE tab rounds) past fun v _ => Ends (look localeLE past) v := by
  refine (drainLoop_sees own running stage).attempt.bind (fun drained past₁ looped => ?_) ?_
  · obtain ⟨_, _, ends⟩ := looped
    refine (refreshCounts_stays own (Or.inr ends.stage)).bind (fun _ past₂ like => ?_) ?_
    · have ends₂ : Ends (look localeLE past) (look localeLE past₂) :=
        ⟨like.promise.trans ends.promise, like.stage.trans ends.stage⟩
      refine (scheduleNextRetry_stays own (Or.inr ends₂.stage)).bind (fun _ past₃ like₃ => ?_) ?_
      · exact sees_orThrow ⟨like₃.promise.trans ends₂.promise, like₃.stage.trans ends₂.stage⟩
      · exact fun _ _ like₃ => ⟨like₃.promise.trans ends₂.promise, like₃.stage.trans ends₂.stage⟩
    · exact fun _ _ like => ⟨like.promise.trans ends.promise, like.stage.trans ends.stage⟩
  · rintro _ _ ⟨_, h, _⟩
    cases h

theorem drain_sees {rounds : Nat} (own : tab = task.tab) (free : (look localeLE past).promise = none)
    (idle : (look localeLE past).stage = .idle) :
    Sees localeLE task (drain localeLE tab rounds) past fun v _ => v.promise = none := by
  refine sees_call own fun old => sees_ite (fun _ => ?_) fun still => ?_
  · have asks : Sees localeLE task (setFields tab fun s => { s with again := true })
        (⟨.fields tab, old⟩ :: past) _ :=
      setFields_sees own (fun _ => rfl) fun _ _ => Or.inl rfl
    refine asks.bind (fun _ past₁ asked => ?_) fun _ _ failed => (by cases failed.2.1)
    obtain ⟨like, _, old, read⟩ := asked
    exact sees_call ⟨own, like.promise.trans free, _, read, rfl⟩ fun _ => like.promise.trans free
  · refine sees_call ⟨own, free, idle, old, rfl, by simpa using still⟩ fun p => ?_
    have runs := @runDrain_sees localeLE task tab (⟨.beginDrain tab, p⟩ :: ⟨.fields tab, old⟩ :: past) rounds
      own (Option.some_ne_none p) rfl
    refine runs.attempt.bind (fun drained past₁ ran => ?_) ?_
    · obtain ⟨_, _, ends⟩ := ran
      refine sees_call ⟨ends.promise, ends.stage⟩ fun _ => sees_call trivial fun _ => ?_
      refine sees_call ⟨own, ?_, ends.stage⟩ fun _ => sees_orThrow rfl
      exact fun none => absurd (ends.promise.symm.trans none) (Option.some_ne_none p)
    · rintro _ _ ⟨_, h, _⟩
      cases h

theorem queueEnqueue_sees {rounds : Nat} {item : Capture} :
    Sees localeLE (.enqueue tab rounds item) (queueEnqueue item) [] fun v _ =>
      v.promise = none ∧ v.stage = .idle := by
  simp only [Sees, queueEnqueue, ensures_run_bind, ensures_request, ensures_resolved, ensures_run_pure]
  refine ⟨trivial, fun read => ⟨fun _ _ => ⟨rfl, rfl⟩, fun bytes _ => ⟨?_, fun put => ?_⟩⟩⟩
  · exact Or.inl ⟨rfl, rfl, rfl, tab, rounds, item, rfl, rfl, rfl, rfl⟩
  · exact ⟨fun _ _ => ⟨rfl, rfl⟩, fun _ _ => ⟨rfl, rfl⟩⟩

theorem start_sees {rounds : Nat} (own : tab = task.tab) :
    Sees localeLE task (start localeLE tab rounds) [] fun v _ => v.promise = none := by
  refine sees_call own fun old => sees_ite (fun _ => rfl) fun _ => sees_call trivial fun timer => ?_
  refine sees_call ⟨own, ?_, ?_, Option.some_ne_none _⟩ fun _ => drain_sees own rfl rfl
  · rintro _ ⟨⟩
    rfl
  · rintro _ ⟨⟩ again
    exact Or.inl again

theorem clearTimer_sees (timer : Option Nat) :
    Sees localeLE task (clearTimer timer) past fun v r => v = look localeLE past ∧ r = .ok () := by
  cases timer with
  | none => exact ⟨rfl, rfl⟩
  | some timer => exact ensures_request.mpr ⟨trivial, fun _ => ⟨rfl, rfl⟩⟩

theorem stop_sees (own : tab = task.tab) :
    Sees localeLE task (stop tab) [] fun v _ => v.promise = none := by
  refine sees_call own fun old => sees_ite (fun _ => rfl) fun _ => ?_
  refine (clearTimer_sees old.sweepTimer).bind (fun _ past₁ same => ?_) fun _ _ h => (by cases h.2)
  refine (clearTimer_sees old.retryTimer).bind (fun _ past₂ same₂ => ?_) fun _ _ h => (by cases h.2)
  have read : (look localeLE past₂).read = some old := by
    rw [same₂.1, same.1]
    rfl
  refine ensures_request.mpr ⟨⟨own, ?_, ?_, ?_⟩, fun _ => ?_⟩
  · intro old' h
    rw [read] at h
    cases h
    rfl
  · intro old' h again
    rw [read] at h
    cases h
    exact Or.inl again
  · rw [read]
    exact Option.some_ne_none _
  · change (look localeLE past₂).promise = none
    rw [same₂.1, same.1]
    rfl

end UploaderClass

/-- Every task calls what its view allows, and is done only outside a drain. -/
theorem script_allowed (localeLE : String → String → Bool) (task : UploadTask) :
    UploaderClass.Sees localeLE task (task.script localeLE) [] fun v _ => v.promise = none := by
  cases task with
  | enqueue tab rounds item =>
    refine UploaderClass.queueEnqueue_sees.bind (fun _ past stored => ?_) fun _ _ failed => failed.1
    have counted := @UploaderClass.refreshCounts_stays localeLE (.enqueue tab rounds item) tab past rfl
      (Or.inl stored.2)
    refine counted.bind (fun _ past₁ like => ?_) fun _ _ like => like.promise.trans stored.1
    exact UploaderClass.drain_sees rfl (like.promise.trans stored.1) (like.stage.trans stored.2)
  | start tab rounds => exact UploaderClass.start_sees rfl
  | stop tab => exact UploaderClass.stop_sees rfl
  | drain tab rounds => exact UploaderClass.drain_sees rfl rfl rfl
  | retryTimer tab rounds =>
    have cleared := @UploaderClass.setFields_keeps localeLE (.retryTimer tab rounds) tab []
      (fun s => { s with retryTimer := none }) rfl (fun _ => rfl) fun _ h => h
    refine cleared.bind (fun _ past like => ?_) fun _ _ like => like.promise
    exact UploaderClass.drain_sees rfl like.promise like.stage

end ItalyTrip
