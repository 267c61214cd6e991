import ItalyTrip.DrainItems

namespace ItalyTrip

open Calls

variable {localeLE : String → String → Bool}

/-- The task has seen an upload of the capture succeed, and has then removed it. -/
def Acknowledged (past : Past UploadReply) (clientId : String) : Prop :=
  ∃ tab input payload, input.clientId = clientId ∧
    [⟨.idbDelete clientId, .ok ()⟩, ⟨.awaitUpload tab input, .ok payload⟩] <:+: past

theorem acknowledged_cons {x : Sigma UploadReply} {past : Past UploadReply} {clientId : String}
    (h : Acknowledged (x :: past) clientId) :
    (x = ⟨.idbDelete clientId, .ok ()⟩ ∧
      ∃ tab input payload earlier, past = ⟨.awaitUpload tab input, .ok payload⟩ :: earlier) ∨
      Acknowledged past clientId := by
  obtain ⟨tab, input, payload, same, here⟩ := h
  rcases List.infix_cons_iff.mp here with first | earlier
  · obtain ⟨removed, uploaded⟩ := List.cons_prefix_cons.mp first
    obtain ⟨earlier, rfl⟩ := uploaded
    exact Or.inl ⟨removed.symm, tab, input, payload, earlier, rfl⟩
  · exact Or.inr ⟨tab, input, payload, same, earlier⟩

/-- A drain that runs has the capture before it: it is in its snapshot and not yet dealt with. -/
structure InDrain (localeLE : String → String → Bool) (clientId : String) (u : UploadThread) : Prop where
  live : u.pending.isSome = true
  busy : (look localeLE u.past).stage.busy = true
  item : ∃ item ∈ (look localeLE u.past).items, item.clientId = clientId

instance (clientId : String) (u : UploadThread) : Decidable (InDrain localeLE clientId u) :=
  decidable_of_iff (_ ∧ _ ∧ _) ⟨fun ⟨live, busy, item⟩ => ⟨live, busy, item⟩, fun ⟨live, busy, item⟩ =>
    ⟨live, busy, item⟩⟩

/-- The task is about to remove the capture, which it has just seen uploaded. -/
def Acknowledges (clientId : String) (u : UploadThread) : Bool :=
  match u.pending, u.past with
  | some (.idbDelete k), ⟨.awaitUpload _ _, .ok _⟩ :: _ => k == clientId
  | _, _ => false

/-- Where an uploader removes the capture after it has seen it uploaded, no uploader of another tab has it
before it in a drain. -/
def RemovesAlone (localeLE : String → String → Bool) (clientId : String) (s : UploadPool) :
    UploadAction → Prop
  | .act i _ => ∀ u ∈ s.threads[i]?, Acknowledges clientId u = true →
    ∀ v ∈ s.threads, InDrain localeLE clientId v → v.task.tab = u.task.tab
  | _ => True

instance (clientId : String) (s : UploadPool) :
    (a : UploadAction) → Decidable (RemovesAlone localeLE clientId s a)
  | .act i _ => inferInstanceAs (Decidable (∀ u ∈ s.threads[i]?, _))
  | .arrive _ | .kill _ | .env _ => isTrue trivial

/-- Every tab is loaded again only when none of its scripts runs. -/
def LoadsQuietly (s : UploadPool) : UploadAction → Prop
  | .env (.reload tab) => ∀ u ∈ s.threads, u.task.tab = tab → u.pending = none
  | _ => True

instance (s : UploadPool) : (a : UploadAction) → Decidable (LoadsQuietly s a)
  | .env (.reload _) => inferInstanceAs (Decidable (∀ u ∈ s.threads, _))
  | .env (.tick _) | .env (.login _) | .arrive _ | .act _ _ | .kill _ => isTrue trivial

theorem LoadsQuietly.reloads {s : UploadPool} {a : UploadAction} (h : LoadsQuietly s a) (tab : Nat) :
    ReloadsQuietly tab s a := by
  rintro rfl
  exact h

/-- The capture is neither in the queue nor before any drain. -/
structure Out (localeLE : String → String → Bool) (clientId : String) (s : UploadPool) : Prop where
  store : ∀ item ∈ s.world.browser.store, item.clientId ≠ clientId
  held : ∀ u ∈ s.threads, ¬ InDrain localeLE clientId u

/-- Any number of uploaders over one store: each has one drain at a time, and no snapshot has a capture
twice. -/
structure Instances (localeLE : String → String → Bool) (first : List String) (s : UploadPool) : Prop where
  enrolled : Enrolled localeLE first s
  exclusive : ∀ tab, Exclusive localeLE tab s
  keyed : Keyed s.world.browser.store
  once : ∀ u ∈ s.threads, Keyed (look localeLE u.past).items

section Step

variable {first : List String} {clientId : String} {s s' : UploadPool}

theorem Instances.step (h : Instances localeLE first s) {a : UploadAction} (fresh : ArrivesNew first s a)
    (quiet : LoadsQuietly s a) : Instances localeLE first (s.step (uploaders localeLE) a) := by
  refine ⟨h.enrolled.step fresh, fun tab => (h.exclusive tab).step (quiet.reloads tab), ?_, fun u hu => ?_⟩
  · rcases Pool.step_world (m := uploaders localeLE) s a with
      same | ⟨i, o, t, past, c, next, r, x, _⟩ | ⟨e, same⟩
    · rw [same]
      exact h.keyed
    · exact perform_keyed h.keyed x.performed
    · rw [same]
      change Keyed (s.world.browser.env e).store
      rw [env_store]
      exact h.keyed
  · obtain ⟨i, hi⟩ := List.mem_iff_getElem?.mp hu
    rcases Pool.step_origin s a hi with ⟨t, rfl⟩ | ⟨v, hv, same⟩ | ⟨_, t, past, c, next, r, _, x, rfl⟩
    · exact List.nodup_nil
    · have before := h.once v (List.mem_of_getElem? hv)
      rcases same with rfl | rfl <;> exact before
    · rcases look_lists localeLE past r with ⟨now, taken, _, hx, _, same⟩ | ⟨_, same | same⟩
      · cases hx
        change Keyed (look localeLE (⟨.idbGetAll, .ok taken⟩ :: past)).items
        rw [same]
        exact dueOf_keyed (((uploads_getAll x.performed).map PendingPhoto.clientId).nodup_iff.mpr h.keyed)
      · exact same ▸ h.once _ x.mem
      · exact same ▸ (h.once _ x.mem).sublist ((List.tail_sublist _).map _)

/-- Whoever runs a drain with the capture before it runs the one drain of its tab. -/
theorem Instances.drains (h : Instances localeLE first s) {u : UploadThread} (hu : u ∈ s.threads)
    (holds : InDrain localeLE clientId u) : ∃ p, Drains localeLE u.task.tab u p := by
  obtain ⟨q, leads, _⟩ := h.enrolled.follows u hu
  have running : (look localeLE u.past).promise ≠ none := by
    intro none
    have idle := (drain_stage leads).mp none
    have busy := holds.busy
    rw [idle] at busy
    cases busy
  obtain ⟨p, promise⟩ := Option.ne_none_iff_exists'.mp running
  exact ⟨p, rfl, holds.live, promise⟩

/-- A drain has the capture before it since it found it in the queue. -/
theorem InDrain.before (h : Instances localeLE first s) {a : UploadAction} {v : UploadThread}
    (hv : v ∈ (s.step (uploaders localeLE) a).threads) (holds : InDrain localeLE clientId v) :
    (∃ u ∈ s.threads, InDrain localeLE clientId u) ∨
      ∃ item ∈ s.world.browser.store, item.clientId = clientId := by
  obtain ⟨i, hi⟩ := List.mem_iff_getElem?.mp hv
  obtain ⟨live, busy, item, hitem, same⟩ := holds
  rcases Pool.step_origin s a hi with ⟨t, rfl⟩ | ⟨u, hu, rfl | rfl⟩ | ⟨_, t, past, c, next, r, _, x, rfl⟩
  · cases hitem
  · exact Or.inl ⟨v, List.mem_of_getElem? hu, live, busy, item, hitem, same⟩
  · cases live
  · have allowed := (h.exclusive t.tab).allowed x.mem
    have mover : (look localeLE past).stage.busy = true → item ∈ (look localeLE past).items →
        ∃ u ∈ s.threads, InDrain localeLE clientId u :=
      fun before old => ⟨_, x.mem, rfl, before, item, old, same⟩
    rcases busy_since allowed busy with before | ⟨now, items, _, hx, taken⟩
    · rcases look_lists localeLE past r with ⟨now, items, stage, _⟩ | ⟨_, items | items⟩
      · rw [stage] at before
        cases before
      · exact Or.inl (mover before (items ▸ hitem))
      · exact Or.inl (mover before (List.mem_of_mem_tail (items ▸ hitem)))
    · cases hx
      change item ∈ (look localeLE (⟨.idbGetAll, .ok items⟩ :: past)).items at hitem
      rw [taken] at hitem
      exact Or.inr ⟨item, (uploads_getAll x.performed).subset (mem_dueOf.mp hitem).1, same⟩

/-- What has been in the queue and is out stays out: only a drain that has it before it puts it back. -/
theorem Out.step (out : Out localeLE clientId s) (h : Instances localeLE first s)
    (used : Used localeLE first s.threads clientId) (a : UploadAction) :
    Out localeLE clientId (s.step (uploaders localeLE) a) := by
  refine ⟨fun item hitem => ?_, fun v hv holds => ?_⟩
  · rcases Pool.step_world (m := uploaders localeLE) s a with
      same | ⟨i, o, t, past, c, next, r, x, _⟩ | ⟨e, same⟩
    · exact out.store item (same ▸ hitem)
    · rcases uploads_store x.performed hitem with old | rfl
      · exact out.store item old
      · rintro rfl
        rcases (h.exclusive t.tab).allowed x.mem with
          ⟨_, _, stored, put⟩ | ⟨_, front, rest, error, now, items, stage, recorded⟩
        · exact h.enrolled.first_put x.thread stored put used
        · refine out.held _ x.mem ⟨rfl, ?_, front, ?_, recorded.counts.1.symm⟩
          · rw [stage]
            rfl
          · exact items ▸ List.mem_cons_self
    · rw [same] at hitem
      exact out.store item (env_store _ e ▸ hitem)
  · rcases holds.before h hv with ⟨u, hu, before⟩ | ⟨item, hitem, same⟩
    · exact out.held u hu before
    · exact out.store item hitem same

/-- The one who removes the capture, and whom no other instance shares it with, has it out. -/
theorem Instances.removes (h : Instances localeLE first s) {i : Nat} {t : UploadTask}
    {past : Past UploadReply} {o : UploadChoice}
    {next : UploadReply (.idbDelete clientId) → Prog UploadCall UploadReply (Except JsError Unit)}
    (x : Pool.Exchange (uploaders localeLE) s s' i t past (.idbDelete clientId) next o (.ok ()))
    (alone : ∀ v ∈ s.threads, InDrain localeLE clientId v → v.task.tab = t.tab) :
    Out localeLE clientId s' := by
  obtain ⟨running, front, rest, answer, items, stage, _, rfl⟩ := (h.exclusive t.tab).allowed x.mem
  refine ⟨fun item hitem => ?_, fun v hv holds => ?_⟩
  · rcases uploads_delete x.performed with ⟨_, same⟩ | ⟨⟨_, error⟩, _⟩
    · rw [same] at hitem
      exact (mem_delete.mp hitem).2
    · cases error
  · obtain ⟨j, hj⟩ := List.mem_iff_getElem?.mp hv
    rcases x.at hj with ⟨_, rfl⟩ | ⟨ne, before⟩
    · have dealt : look localeLE (⟨.idbDelete front.clientId, .ok ()⟩ :: past) = (look localeLE past).next :=
        View.afterDelete_ok stage
      obtain ⟨item, hitem, same⟩ := holds.item
      rw [dealt, View.next, items] at hitem
      have once : Keyed (front :: rest) := items ▸ h.once _ x.mem
      exact (List.nodup_cons.mp once).1 (same ▸ List.mem_map_of_mem hitem)
    · have mem := List.mem_of_getElem? before
      obtain ⟨p, promise⟩ := Option.ne_none_iff_exists'.mp running
      obtain ⟨q, runs⟩ := h.drains mem holds
      rw [alone v mem holds] at runs
      exact ne ((h.exclusive t.tab).one j i _ _ q p before x.thread runs ⟨rfl, rfl, promise⟩)

end Step

/-- What has been acknowledged was in the queue, and is out. -/
structure StaysOut (localeLE : String → String → Bool) (first : List String) (clientId : String)
    (s : UploadPool) : Prop where
  instances : Instances localeLE first s
  used : ∀ u ∈ s.threads, Acknowledged u.past clientId → Used localeLE first s.threads clientId
  out : ∀ u ∈ s.threads, Acknowledged u.past clientId → Out localeLE clientId s

theorem StaysOut.step {first : List String} {clientId : String} {s : UploadPool}
    (h : StaysOut localeLE first clientId s) {a : UploadAction} (fresh : ArrivesNew first s a)
    (quiet : LoadsQuietly s a) (alone : RemovesAlone localeLE clientId s a) :
    StaysOut localeLE first clientId (s.step (uploaders localeLE) a) := by
  -- Either the capture was acknowledged before, or its removal is this step.
  have now : ∀ u ∈ (s.step (uploaders localeLE) a).threads, Acknowledged u.past clientId →
      Used localeLE first s.threads clientId ∧
        Out localeLE clientId (s.step (uploaders localeLE) a) := by
    intro u hu acknowledged
    obtain ⟨i, hi⟩ := List.mem_iff_getElem?.mp hu
    have known : ∀ v ∈ s.threads, Acknowledged v.past clientId → _ ∧ _ := fun v hv before =>
      ⟨h.used v hv before, (h.out v hv before).step h.instances (h.used v hv before) a⟩
    rcases Pool.step_origin s a hi with ⟨t, rfl⟩ | ⟨v, hv, same⟩ | ⟨o, t, past, c, next, r, ha, x, rfl⟩
    · obtain ⟨_, _, _, _, none⟩ := acknowledged
      cases List.infix_nil.mp none
    · refine known v (List.mem_of_getElem? hv) ?_
      rcases same with rfl | rfl <;> exact acknowledged
    · rcases acknowledged_cons acknowledged with ⟨here, uploaded⟩ | before
      · cases here
        subst ha
        have own : Acknowledges clientId ⟨t, past, some (.call (.idbDelete clientId) next)⟩ = true := by
          obtain ⟨tab, input, payload, earlier, rfl⟩ := uploaded
          exact beq_self_eq_true clientId
        obtain ⟨_, front, rest, _, items, _, _, rfl⟩ := (h.instances.exclusive t.tab).allowed x.mem
        exact ⟨h.instances.enrolled.items _ x.mem front (items ▸ List.mem_cons_self),
          h.instances.removes x (alone _ x.thread own)⟩
      · exact known _ x.mem before
  exact ⟨h.instances.step fresh quiet, fun u hu acknowledged => (now u hu acknowledged).1.step a,
    fun u hu acknowledged => (now u hu acknowledged).2⟩

theorem staysOut_run {b : Browser} (keyed : Keyed b.store) {clientId : String} {actions : List UploadAction}
    (fresh : Pool.Throughout (uploaders localeLE) (ArrivesNew (b.store.map PendingPhoto.clientId))
      ⟨.start b, []⟩ actions)
    (quiet : Pool.Throughout (uploaders localeLE) LoadsQuietly ⟨.start b, []⟩ actions)
    (alone : Pool.Throughout (uploaders localeLE) (RemovesAlone localeLE clientId) ⟨.start b, []⟩ actions) :
    StaysOut localeLE (b.store.map PendingPhoto.clientId) clientId
      (Pool.exec (uploaders localeLE) ⟨.start b, []⟩ actions) := by
  have init : StaysOut localeLE (b.store.map PendingPhoto.clientId) clientId ⟨.start b, []⟩ :=
    ⟨⟨enrolled_init, fun _ => exclusive_init, keyed, fun _ hu => absurd hu List.not_mem_nil⟩,
      fun _ hu => absurd hu List.not_mem_nil, fun _ hu => absurd hu List.not_mem_nil⟩
  exact ((fresh.and quiet).and alone).induction
    (fun _ _ h allowed => h.step allowed.1.1 allowed.1.2 allowed.2) init

/-- Where no other tab has the capture before it in a drain when one removes it, a capture that an uploader
has uploaded and removed is never in the queue again. -/
theorem stays_out {b : Browser} (keyed : Keyed b.store) {clientId : String} {actions : List UploadAction}
    (fresh : Pool.Throughout (uploaders localeLE) (ArrivesNew (b.store.map PendingPhoto.clientId))
      ⟨.start b, []⟩ actions)
    (quiet : Pool.Throughout (uploaders localeLE) LoadsQuietly ⟨.start b, []⟩ actions)
    (alone : Pool.Throughout (uploaders localeLE) (RemovesAlone localeLE clientId) ⟨.start b, []⟩ actions) :
    let s : UploadPool := Pool.exec (uploaders localeLE) ⟨.start b, []⟩ actions
    (∃ u ∈ s.threads, Acknowledged u.past clientId) →
      ∀ item ∈ s.world.browser.store, item.clientId ≠ clientId := by
  rintro s ⟨u, hu, acknowledged⟩
  exact ((staysOut_run keyed fresh quiet alone).out u hu acknowledged).store

/-- One uploader alone shares its drains with none. -/
theorem removesAlone_of_own {tab : Nat} {clientId : String} {s : UploadPool} {actions : List UploadAction}
    (own : ∀ u ∈ s.threads, u.task.tab = tab) (arrives : ∀ t, .arrive t ∈ actions → t.tab = tab) :
    Pool.Throughout (uploaders localeLE) (RemovesAlone localeLE clientId) s actions := by
  induction actions generalizing s with
  | nil => trivial
  | cons a as ih =>
    have here : ∀ t, a = .arrive t → t.tab = tab := by
      rintro t rfl
      exact arrives t List.mem_cons_self
    refine ⟨?_, ih (own_step own here) fun t ht => arrives t (List.mem_cons_of_mem _ ht)⟩
    cases a with
    | act i o =>
      intro u hu _ v hv _
      exact (own v hv).trans (own u (List.mem_of_getElem? hu)).symm
    | _ => trivial

theorem one_instance_stays_out {tab : Nat} {b : Browser} (keyed : Keyed b.store) {clientId : String}
    {actions : List UploadAction} (arrives : ∀ t, .arrive t ∈ actions → t.tab = tab)
    (fresh : Pool.Throughout (uploaders localeLE) (ArrivesNew (b.store.map PendingPhoto.clientId))
      ⟨.start b, []⟩ actions)
    (quiet : Pool.Throughout (uploaders localeLE) LoadsQuietly ⟨.start b, []⟩ actions) :
    let s : UploadPool := Pool.exec (uploaders localeLE) ⟨.start b, []⟩ actions
    (∃ u ∈ s.threads, Acknowledged u.past clientId) →
      ∀ item ∈ s.world.browser.store, item.clientId ≠ clientId := by
  rintro s ⟨u, hu, acknowledged⟩
  have alone := @removesAlone_of_own localeLE tab clientId ⟨.start b, []⟩ actions
    (fun _ hu => absurd hu List.not_mem_nil) arrives
  exact ((staysOut_run keyed fresh quiet alone).out u hu acknowledged).store

private def sampleShared : UploadPool := sampleUploads [sampleItem "a" "08:00"]

/-- Two tabs send the same capture. -/
private def sampleBoth : List UploadAction :=
  .arrive (.drain 0 2) :: sampleActs 0 7 (.ok none) ++ .arrive (.drain 1 2) :: sampleActs 1 7 (.ok none)

/-- Where the upload of one tab fails after that of the other has succeeded, the capture is back. -/
theorem acknowledged_again :
    let s := sampleShared.exec (uploaders fun x y => decide (x ≤ y))
      (sampleBoth ++ sampleActs 0 2 (.ok none) ++ sampleActs 1 3 (.error (.other "Failed to fetch")))
    ¬ ∀ u ∈ s.threads, ∀ clientId, Acknowledged u.past clientId →
      ∀ item ∈ s.world.browser.store, item.clientId ≠ clientId := by
  intro s out
  exact out _ List.mem_cons_self "a" ⟨0, _, none, rfl, [], _, rfl⟩ _ List.mem_cons_self rfl

/-- The other order: the upload that fails is put back first. -/
private def sampleOrdered : List UploadAction :=
  sampleBoth ++ sampleActs 1 3 (.error (.other "Failed to fetch")) ++ sampleActs 0 2 (.ok none)

theorem stays_out_sample :
    let s := sampleShared.exec (uploaders fun x y => decide (x ≤ y)) sampleOrdered
    (∃ u ∈ s.threads, Acknowledged u.past "a") ∧ ∀ item ∈ s.world.browser.store, item.clientId ≠ "a" := by
  intro s
  have acknowledged : ∃ u ∈ s.threads, Acknowledged u.past "a" :=
    ⟨_, List.mem_cons_self, 0, _, none, rfl, [], _, rfl⟩
  exact ⟨acknowledged, @stays_out (fun x y => decide (x ≤ y)) sampleShared.world.browser (by decide) "a"
    sampleOrdered (by decide +kernel) (by decide +kernel) (by decide +kernel) acknowledged⟩

end ItalyTrip
