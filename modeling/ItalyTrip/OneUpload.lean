import ItalyTrip.QueueStore

namespace ItalyTrip

open Calls

variable {localeLE : String → String → Bool}

/-- An upload call of the tab is in flight. -/
def Uploading (tab : Nat) (u : UploadThread) : Bool :=
  u.task.tab == tab && match u.pending with
    | some (.awaitUpload _ _) => true
    | _ => false

namespace View

/-- An item of the snapshot is being sent. -/
def Sending (v : View) : Prop := v.stage = .uploading ∨ ∃ answer now, v.stage = .answered answer now

/-- The lists of the view are the same. -/
structure Lists (v v' : View) : Prop where
  snapshot : v'.snapshot = v.snapshot
  items : v'.items = v.items
  sent : v'.sent = v.sent

end View

/-- What has been sent of a snapshot: so far the items before those that are left, and perhaps the first
of these. -/
structure InOrder (v : View) (done : List PendingPhoto) : Prop where
  split : v.snapshot = done ++ v.items
  ready : v.stage = .ready → v.sent = done.map UploaderClass.inputOf
  sending : v.Sending → ∃ item rest, v.items = item :: rest ∧ v.sent = (done ++ [item]).map UploaderClass.inputOf
  sent : v.sent <+: v.snapshot.map UploaderClass.inputOf

theorem InOrder.keeps {v v' : View} {done : List PendingPhoto} (h : InOrder v done) (lists : v.Lists v')
    (ready : v'.stage = .ready → v.stage = .ready) (sending : v'.Sending → v.Sending) :
    InOrder v' done := by
  refine ⟨?_, ?_, ?_, ?_⟩
  · rw [lists.snapshot, lists.items]
    exact h.split
  · intro stage
    rw [lists.sent]
    exact h.ready (ready stage)
  · intro stage
    rw [lists.sent, lists.items]
    exact h.sending (sending stage)
  · rw [lists.sent, lists.snapshot]
    exact h.sent

/-- The item that was being sent is dealt with. -/
theorem InOrder.next {v : View} {done rest : List PendingPhoto} {item : PendingPhoto}
    (h : InOrder v done) (sending : v.Sending) (items : v.items = item :: rest) :
    InOrder v.next (done ++ [item]) := by
  obtain ⟨item', rest', items', sent⟩ := h.sending sending
  obtain ⟨rfl, rfl⟩ := List.cons.inj (items'.symm.trans items)
  refine ⟨?_, fun _ => sent, ?_, h.sent⟩
  · rw [List.append_assoc]
    exact h.split.trans (by rw [items]; simp [View.next, items])
  · rintro (stage | ⟨_, _, stage⟩) <;> cases stage

theorem InOrder.after {task : UploadTask} {v : View} {done : List PendingPhoto} {c : UploadCall}
    (h : InOrder v done) (allowed : Allowed task v c) (r : UploadReply c) :
    ∃ done, InOrder (v.after localeLE ⟨c, r⟩) done := by
  cases c with
  | beginUpload tab input =>
    obtain ⟨_, _, stage, item, rest, items, rfl⟩ := allowed
    have sent : v.sent ++ [UploaderClass.inputOf item] = (done ++ [item]).map UploaderClass.inputOf := by
      rw [h.ready stage, List.map_append]
      rfl
    refine ⟨done, h.split, fun h => (by cases h), fun _ => ⟨item, rest, items, sent⟩, ?_⟩
    refine ⟨rest.map UploaderClass.inputOf, ?_⟩
    change v.sent ++ [UploaderClass.inputOf item] ++ _ = v.snapshot.map _
    rw [sent, h.split, items, ← List.map_append, List.append_assoc]
    rfl
  | awaitUpload tab input =>
    exact ⟨done, h.keeps ⟨rfl, rfl, rfl⟩ (fun h => (by cases h)) fun _ => Or.inl allowed.2.2.1⟩
  | idbDelete clientId =>
    obtain ⟨_, item, rest, answer, items, stage, _, _⟩ := allowed
    have sending : v.Sending := Or.inr ⟨answer, none, stage⟩
    have after : v.after localeLE ⟨.idbDelete clientId, r⟩ = v.afterDelete r := rfl
    rw [after]
    cases r with
    | ok _ =>
      rw [View.afterDelete_ok stage]
      exact ⟨_, h.next sending items⟩
    | error m =>
      unfold View.afterDelete
      rw [stage]
      cases answer with
      | ok _ => exact ⟨done, h.keeps ⟨rfl, rfl, rfl⟩ (fun h => (by cases h)) fun _ => sending⟩
      | error _ => exact ⟨done, h.keeps ⟨rfl, rfl, rfl⟩ (fun h => (by cases h)) fun _ => sending⟩
  | idbPut new =>
    have after : v.after localeLE ⟨.idbPut new, r⟩ = v.afterPut r := rfl
    rw [after]
    rcases allowed with ⟨_, stage, _⟩ | ⟨_, item, rest, error, now, items, stage, _⟩
    · rw [View.afterPut_idle stage]
      exact ⟨done, h.keeps ⟨rfl, rfl, rfl⟩ id id⟩
    · have sending : v.Sending := Or.inr ⟨_, now, stage⟩
      cases r with
      | ok _ =>
        rw [View.afterPut_ok stage]
        exact ⟨_, h.next sending items⟩
      | error m =>
        unfold View.afterPut
        rw [stage]
        exact ⟨done, h.keeps ⟨rfl, rfl, rfl⟩ (fun h => (by cases h)) fun _ => sending⟩
  | idbGetAll =>
    have after : v.after localeLE ⟨.idbGetAll, r⟩ = v.afterGetAll localeLE r := rfl
    rw [after]
    unfold View.afterGetAll
    split
    next now items _ _ =>
      refine ⟨[], rfl, fun _ => rfl, ?_, List.nil_prefix⟩
      rintro (stage | ⟨_, _, stage⟩) <;> cases stage
    next =>
      refine ⟨done, h.keeps ⟨rfl, rfl, rfl⟩ (fun h => (by cases h)) ?_⟩
      rintro (stage | ⟨_, _, stage⟩) <;> cases stage
    next => exact ⟨done, h.keeps ⟨rfl, rfl, rfl⟩ id id⟩
  | now =>
    have after : v.after localeLE ⟨.now, r⟩ = v.afterNow r := rfl
    rw [after]
    unfold View.afterNow
    split
    next =>
      refine ⟨done, h.keeps ⟨rfl, rfl, rfl⟩ (fun h => (by cases h)) ?_⟩
      rintro (stage | ⟨_, _, stage⟩) <;> cases stage
    next answer now stage =>
      exact ⟨done, h.keeps ⟨rfl, rfl, rfl⟩ (fun h => (by cases h)) fun _ => Or.inr ⟨_, _, stage⟩⟩
    next => exact ⟨done, h⟩
  | again tab =>
    refine ⟨done, h.keeps ⟨rfl, rfl, rfl⟩ ?_ ?_⟩
    · cases r <;> exact fun h => (by cases h)
    · cases r <;> rintro (stage | ⟨_, _, stage⟩) <;> cases stage
  | beginDrain tab =>
    refine ⟨done, h.keeps ⟨rfl, rfl, rfl⟩ (fun h => (by cases h)) ?_⟩
    rintro (stage | ⟨_, _, stage⟩) <;> cases stage
  | endDrain tab =>
    refine ⟨done, h.keeps ⟨rfl, rfl, rfl⟩ (fun h => (by cases h)) ?_⟩
    rintro (stage | ⟨_, _, stage⟩) <;> cases stage
  | _ => exact ⟨done, h.keeps ⟨rfl, rfl, rfl⟩ id id⟩

theorem sends_in_order {t : UploadTask} {past : Past UploadReply}
    {q : Prog UploadCall UploadReply (Except JsError Unit)}
    (leads : (t.script localeLE).run.Leads past q) : ∃ done, InOrder (look localeLE past) done := by
  have init : ∃ done, InOrder (look localeLE []) done := by
    refine ⟨[], rfl, fun _ => rfl, ?_, List.nil_prefix⟩
    rintro (stage | ⟨_, _, stage⟩) <;> cases stage
  have keep : ∀ past c (r : UploadReply c), Allowed t (look localeLE past) c →
      (∃ done, InOrder (look localeLE past) done) →
      ∃ done, InOrder (look localeLE (⟨c, r⟩ :: past)) done := by
    rintro past c r allowed ⟨_, order⟩
    exact order.after allowed r
  exact (script_allowed localeLE t).along leads keep init

/-- A snapshot holds each capture once. -/
theorem snapshot_rules : Pool.Local (uploaders localeLE) (fun _ _ => True)
    (fun w => Keyed w.browser.store) (fun _ _ => True)
    fun _ past _ => Keyed (look localeLE past).snapshot where
  arrive _ _ _ := List.nodup_nil
  act t past c next o r w w' leads keyed old hp _ := by
    refine ⟨perform_keyed keyed hp, trivial, ?_⟩
    rcases look_lists localeLE past r with ⟨now, items, _, hx, taken, _⟩ | ⟨same, _⟩
    · cases hx
      rw [taken]
      exact dueOf_keyed (((uploads_getAll hp).map PendingPhoto.clientId).nodup_iff.mpr keyed)
    · rwa [same]
  env e w keyed := by
    refine ⟨?_, trivial⟩
    change Keyed (w.browser.env e).store
    rwa [env_store]
  stable _ _ _ _ _ h := h

/-- The upload that is in flight belongs to the drain that runs. -/
theorem Exclusive.uploading {tab : Nat} {s : UploadPool} (h : Exclusive localeLE tab s) {u : UploadThread}
    (hu : u ∈ s.threads) (uploading : Uploading tab u = true) : ∃ p, Drains localeLE tab u p := by
  obtain ⟨t, past, rest⟩ := u
  simp only [Uploading, Bool.and_eq_true, beq_iff_eq] at uploading
  obtain ⟨own, awaits⟩ := uploading
  cases rest with
  | none => cases awaits
  | some q =>
    cases q with
    | done a => cases awaits
    | call c next =>
      cases c with
      | awaitUpload n input =>
        obtain ⟨p, promise⟩ := Option.ne_none_iff_exists'.mp (h.allowed hu).2.1
        exact ⟨p, own, rfl, promise⟩
      | _ => cases awaits

/-- In every run of a tab's uploader, whatever starts its drains and whatever fails, one upload at a time
is in flight, and what is sent of a snapshot of the due items are its items in their order. -/
theorem one_at_a_time {tab : Nat} {b : Browser} (keyed : Keyed b.store) {actions : List UploadAction}
    (stays : ∀ a ∈ actions, a ≠ .env (.reload tab)) :
    let s : UploadPool := Pool.exec (uploaders localeLE) ⟨.start b, []⟩ actions
    s.threads.countP (Uploading tab) ≤ 1 ∧ ∀ u ∈ s.threads,
      (look localeLE u.past).sent <+: (look localeLE u.past).snapshot.map UploaderClass.inputOf ∧
        ((look localeLE u.past).sent.map UploadInput.clientId).Nodup := by
  intro s
  have exclusive : Exclusive localeLE tab s :=
    Pool.exec_keeps (fun s a ha h => h.step fun reload => absurd reload (stays a ha)) exclusive_init
  have good := (@snapshot_rules localeLE).exec (Pool.good_init (w := UploadWorld.start b) keyed)
    (Pool.runMeets_true _ actions)
  refine ⟨countP_le_one fun i j u v hu hv uploading uploading' => ?_, fun u hu => ?_⟩
  · obtain ⟨p, runs⟩ := exclusive.uploading (List.mem_of_getElem? hu) uploading
    obtain ⟨q, runs'⟩ := exclusive.uploading (List.mem_of_getElem? hv) uploading'
    exact exclusive.one i j u v p q hu hv runs runs'
  · obtain ⟨q, leads, _⟩ := exclusive.follows u hu
    obtain ⟨done, order⟩ := sends_in_order leads
    have once : Keyed (look localeLE u.past).snapshot := good.thread u hu
    refine ⟨order.sent, (order.sent.sublist.map UploadInput.clientId).nodup ?_⟩
    rw [List.map_map]
    exact once

private def sampleQueue : List PendingPhoto := [sampleItem "b" "09:00", sampleItem "a" "08:00"]

/-- The first capture is on the server and the second in flight when two more triggers fire. -/
private def sampleTriggers : List UploadAction :=
  .arrive (.drain 0 2) :: sampleActs 0 10 (.ok none) ++ .arrive (.drain 0 2) :: sampleActs 1 4 (.ok none) ++
    .arrive (.retryTimer 0 2) :: sampleActs 2 6 (.ok none)

private def sampleSending : UploadPool :=
  (sampleUploads sampleQueue).exec (uploaders fun x y => decide (x ≤ y)) sampleTriggers

theorem one_at_a_time_sample :
    sampleSending.threads.countP (Uploading 0) = 1 ∧ ∀ u ∈ sampleSending.threads,
      (look (fun x y => decide (x ≤ y)) u.past).sent <+:
        (look (fun x y => decide (x ≤ y)) u.past).snapshot.map UploaderClass.inputOf := by
  have one := @one_at_a_time (fun x y => decide (x ≤ y)) 0 { sampleBrowser "user" with store := sampleQueue }
    (by decide) sampleTriggers (by simp +contextual [sampleTriggers, sampleActs, or_imp])
  exact ⟨by decide +kernel, fun u hu => (one.2 u hu).1⟩

end ItalyTrip
