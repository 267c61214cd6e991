import ItalyTrip.FreshCaptures

namespace ItalyTrip

open Calls

variable {localeLE : String → String → Bool}

def queueWorks : Sigma UploadReply → Bool
  | ⟨.idbPut _, .error _⟩ | ⟨.idbDelete _, .error _⟩ | ⟨.idbGetAll, .error _⟩ => false
  | _ => true

/-- IndexedDB does what it is asked, and the clock does not go back. -/
def Works : Pool.Condition UploadReply UploadWorld UploadTask := fun w x =>
  queueWorks ⟨x.call, x.reply⟩ = true ∧ w.browser.clock ≤ x.after.browser.clock

instance (w : UploadWorld) (x : Pool.Event UploadReply UploadWorld UploadTask) : Decidable (Works w x) :=
  inferInstanceAs (Decidable (_ ∧ _))

/-- One uploader over its store: its tab is loaded again only when none of its scripts runs. -/
def Steady (localeLE : String → String → Bool) (tab : Nat) (first : List String) (s : UploadPool) :
    UploadAction → Prop
  | .arrive t => t.tab = tab ∧ NewCapture first s t
  | .act i o => s.Meets (uploaders localeLE) Works (.act i o)
  | .kill _ => True
  | .env (.reload n) => n = tab → ∀ u ∈ s.threads, u.pending = none
  | .env _ => True

instance (tab : Nat) (first : List String) (s : UploadPool) :
    (a : UploadAction) → Decidable (Steady localeLE tab first s a)
  | .arrive _ => inferInstanceAs (Decidable (_ ∧ _))
  | .act i o => inferInstanceAs (Decidable (s.Meets (uploaders localeLE) Works (.act i o)))
  | .kill _ | .env (.tick _) | .env (.login _) => isTrue trivial
  | .env (.reload _) => inferInstanceAs (Decidable (_ → _))

/-- A snapshot is being sent. -/
def Stage.busy : Stage → Bool
  | .ready | .uploading | .answered _ _ => true
  | _ => false

/-- What is left of the snapshot of the drain that runs is in the queue as it was, and due. -/
structure OwnQueue (localeLE : String → String → Bool) (tab : Nat) (first : List String) (s : UploadPool) :
    Prop where
  exclusive : Exclusive localeLE tab s
  enrolled : Enrolled localeLE first s
  own : ∀ u ∈ s.threads, u.task.tab = tab
  keyed : Keyed s.world.browser.store
  opened : ∀ u ∈ s.threads, ∀ now, (look localeLE u.past).stage = .opening (some now) →
    now ≤ s.world.browser.clock
  items : ∀ u ∈ s.threads, ∀ p, Drains localeLE tab u p → (look localeLE u.past).stage.busy = true →
    Keyed (look localeLE u.past).items ∧ ∀ item ∈ (look localeLE u.past).items,
      item ∈ s.world.browser.store ∧ item.failed = false ∧ item.nextAttemptAt ≤ s.world.browser.clock

/-- The item has gone from the queue or has been tried again. -/
def Advanced (item : PendingPhoto) (store : List PendingPhoto) : Prop :=
  ∀ kept ∈ store, kept.clientId = item.clientId → item.attempts < kept.attempts

/-- A task is in a drain from its first round to the end of its clean-up. -/
theorem drain_stage {t : UploadTask} {past : Past UploadReply}
    {q : Prog UploadCall UploadReply (Except JsError Unit)}
    (leads : (t.script localeLE).run.Leads past q) :
    (look localeLE past).promise = none ↔ (look localeLE past).stage = .idle := by
  have keep : ∀ past c (r : UploadReply c), Allowed t (look localeLE past) c →
      ((look localeLE past).promise = none ↔ (look localeLE past).stage = .idle) →
      ((look localeLE (⟨c, r⟩ :: past)).promise = none ↔
        (look localeLE (⟨c, r⟩ :: past)).stage = .idle) := by
    intro past c r allowed h
    cases c with
    | now =>
      rw [look_promise (by simp) (by simp), h]
      change _ ↔ ((look localeLE past).afterNow r).stage = .idle
      unfold View.afterNow
      split
      next stage => simp [stage]
      next stage => simp [stage]
      next => rfl
    | idbGetAll =>
      rw [look_promise (by simp) (by simp), h]
      change _ ↔ ((look localeLE past).afterGetAll localeLE r).stage = .idle
      unfold View.afterGetAll
      split
      next stage => simp [stage]
      next stage _ => simp [stage]
      next => rfl
    | idbPut new =>
      rw [look_promise (by simp) (by simp), h]
      change _ ↔ ((look localeLE past).afterPut r).stage = .idle
      unfold View.afterPut
      split
      next stage => simp [stage, View.next]
      next stage => simp [stage]
      next => rfl
    | idbDelete clientId =>
      obtain ⟨_, item, rest, answer, _, stage, _, _⟩ := allowed
      rw [look_promise (by simp) (by simp), h]
      change _ ↔ ((look localeLE past).afterDelete r).stage = .idle
      unfold View.afterDelete
      rw [stage]
      cases answer <;> cases r <;> simp [View.next]
    | beginDrain tab => simp [look, View.after]
    | endDrain tab => simp [look, View.after]
    | beginUpload tab input =>
      rw [look_promise (by simp) (by simp)]
      simp [look, View.after, allowed.2.1]
    | awaitUpload tab input =>
      rw [look_promise (by simp) (by simp)]
      simp [look, View.after, allowed.2.1]
    | again tab =>
      rw [look_promise (by simp) (by simp)]
      cases r <;> simp [look, View.after, allowed.2.1]
    | _ => exact h
  exact (script_allowed localeLE t).along leads keep ⟨fun _ => rfl, fun _ => rfl⟩

theorem OwnQueue.allowed {tab : Nat} {first : List String} {s : UploadPool}
    (h : OwnQueue localeLE tab first s) {t : UploadTask} {past : Past UploadReply} {c : UploadCall}
    {next : UploadReply c → Prog UploadCall UploadReply (Except JsError Unit)}
    (hu : (⟨t, past, some (.call c next)⟩ : UploadThread) ∈ s.threads) :
    Allowed t (look localeLE past) c ∧
      ((look localeLE past).promise = none ↔ (look localeLE past).stage = .idle) := by
  obtain ⟨q, leads, same⟩ := h.enrolled.follows _ hu
  obtain rfl := same _ rfl
  exact ⟨(script_allowed localeLE t).at_call leads, drain_stage leads⟩

section Exchange

variable {tab : Nat} {first : List String} {s s' : UploadPool} {i : Nat} {t : UploadTask}
  {past : Past UploadReply} {c : UploadCall} {o : UploadChoice} {r : UploadReply c}
  {next : UploadReply c → Prog UploadCall UploadReply (Except JsError Unit)}

/-- The drain that runs deals with the first item that is left: it removes it or puts it back. -/
structure DealsWith (localeLE : String → String → Bool) (past : Past UploadReply) (c : UploadCall)
    (r : UploadReply c) (item : PendingPhoto) : Prop where
  call : c = .idbDelete item.clientId ∨ ∃ new, c = .idbPut new ∧ new.clientId = item.clientId
  promise : (look localeLE past).promise ≠ none
  items : ∃ rest, (look localeLE past).items = item :: rest
  stage : ∃ answer now, (look localeLE past).stage = .answered answer now
  next : look localeLE (⟨c, r⟩ :: past) = (look localeLE past).next

/-- An item stays in the queue until the drain that runs deals with it, and then has advanced. -/
theorem OwnQueue.advances (h : OwnQueue localeLE tab first s)
    (x : Pool.Exchange (uploaders localeLE) s s' i t past c next o r)
    (works : queueWorks ⟨c, r⟩ = true) {item : PendingPhoto} (hitem : item ∈ s.world.browser.store) :
    item ∈ s'.world.browser.store ∧ ¬ DealsWith localeLE past c r item ∨
      DealsWith localeLE past c r item ∧ Advanced item s'.world.browser.store := by
  have hp : s.world.perform o c = some (r, s'.world) := x.performed
  have allowed := (h.allowed x.mem).1
  have head : ∀ {answer now front rest}, (look localeLE past).promise ≠ none →
      (look localeLE past).stage = .answered answer now → (look localeLE past).items = front :: rest →
      item.clientId = front.clientId → item = front := by
    intro answer now front rest running stage items same
    obtain ⟨p, promise⟩ := Option.ne_none_iff_exists'.mp running
    have runs : Drains localeLE tab ⟨t, past, some (.call c next)⟩ p := ⟨h.own _ x.mem, rfl, promise⟩
    have kept := (h.items _ x.mem p runs (by rw [stage]; rfl)).2 front (items ▸ List.mem_cons_self)
    exact h.keyed.eq hitem kept.1 same
  cases c with
  | idbPut new =>
    rcases uploads_put hp with ⟨rfl, same⟩ | ⟨⟨_, rfl⟩, _⟩
    · rw [same]
      by_cases apart : item.clientId = new.clientId
      · rcases allowed with ⟨_, _, stored, put⟩ | ⟨running, front, rest, error, now, items, stage, recorded⟩
        · have used := h.enrolled.store item hitem
          exact absurd (apart ▸ used) (h.enrolled.first_put x.thread stored put)
        · obtain ⟨clientId, attempts⟩ := recorded.counts
          obtain rfl := head running stage items (apart.trans clientId)
          refine Or.inr ⟨⟨Or.inr ⟨new, rfl, clientId⟩, running, ⟨rest, items⟩, ⟨_, now, stage⟩,
            View.afterPut_ok stage⟩, fun kept hkept id => ?_⟩
          rcases mem_put.mp hkept with rfl | ⟨_, ne⟩
          · omega
          · exact absurd (id.trans clientId.symm) ne
      · refine Or.inl ⟨mem_put.mpr (Or.inr ⟨hitem, apart⟩), fun deals => ?_⟩
        rcases deals.call with h | ⟨_, h, id⟩
        · cases h
        · cases h
          exact apart id.symm
    · cases works
  | idbDelete clientId =>
    rcases uploads_delete hp with ⟨rfl, same⟩ | ⟨⟨_, rfl⟩, _⟩
    · rw [same]
      by_cases apart : item.clientId = clientId
      · obtain ⟨running, front, rest, answer, items, stage, _, rfl⟩ := allowed
        obtain rfl := head running stage items apart
        refine Or.inr ⟨⟨Or.inl rfl, running, ⟨rest, items⟩, ⟨_, none, stage⟩, View.afterDelete_ok stage⟩, ?_⟩
        intro kept hkept id
        exact absurd id (mem_delete.mp hkept).2
      · refine Or.inl ⟨mem_delete.mpr ⟨hitem, apart⟩, fun deals => ?_⟩
        rcases deals.call with h | ⟨_, h, _⟩
        · cases h
          exact apart rfl
        · cases h
    · cases works
  | _ =>
    refine Or.inl ⟨?_, fun deals => ?_⟩
    · rwa [(uploads_frame hp).store (by simp) (by simp)]
    · rcases deals.call with h | ⟨_, h, _⟩ <;> cases h

/-- An item that has advanced does not come back as it was. -/
theorem OwnQueue.advanced (h : OwnQueue localeLE tab first s)
    (x : Pool.Exchange (uploaders localeLE) s s' i t past c next o r) {item : PendingPhoto}
    (used : Used localeLE first s.threads item.clientId)
    (advanced : Advanced item s.world.browser.store) : Advanced item s'.world.browser.store := by
  intro kept hkept same
  rcases uploads_store x.performed hkept with old | rfl
  · exact advanced kept old same
  · rcases (h.allowed x.mem).1 with ⟨_, _, stored, put⟩ | ⟨running, front, rest, error, now, items, stage, recorded⟩
    · exact absurd (same ▸ used) (h.enrolled.first_put x.thread stored put)
    · obtain ⟨p, promise⟩ := Option.ne_none_iff_exists'.mp running
      have runs : Drains localeLE tab ⟨t, past, some (.call (.idbPut kept) next)⟩ p :=
        ⟨h.own _ x.mem, rfl, promise⟩
      have here := (h.items _ x.mem p runs (by rw [stage]; rfl)).2 front (items ▸ List.mem_cons_self)
      obtain ⟨clientId, attempts⟩ := recorded.counts
      have := advanced front here.1 (clientId.symm.trans same)
      omega

/-- A snapshot is being sent since it was taken. -/
theorem busy_since (allowed : Allowed t (look localeLE past) c)
    (busy : (look localeLE (⟨c, r⟩ :: past)).stage.busy = true) :
    (look localeLE past).stage.busy = true ∨
      ∃ (now : Int) (items : List PendingPhoto), (look localeLE past).stage = .opening (some now) ∧
        (⟨c, r⟩ : Sigma UploadReply) = ⟨.idbGetAll, .ok items⟩ ∧
        (look localeLE (⟨c, r⟩ :: past)).items = UploaderClass.dueOf localeLE now items := by
  cases c with
  | idbGetAll =>
    change ((look localeLE past).afterGetAll localeLE r).stage.busy = true at busy
    change _ ∨ ∃ now items, _ ∧ _ ∧ ((look localeLE past).afterGetAll localeLE r).items = _
    unfold View.afterGetAll at busy ⊢
    split at busy
    next now items stage => exact Or.inr ⟨now, items, stage, rfl, rfl⟩
    next => cases busy
    next => exact Or.inl busy
  | now =>
    refine Or.inl ?_
    change ((look localeLE past).afterNow r).stage.busy = true at busy
    unfold View.afterNow at busy
    split at busy
    next => cases busy
    next stage => rw [stage]; rfl
    next => exact busy
  | idbPut new =>
    refine Or.inl ?_
    change ((look localeLE past).afterPut r).stage.busy = true at busy
    unfold View.afterPut at busy
    split at busy
    next stage => rw [stage]; rfl
    next => cases busy
    next => exact busy
  | idbDelete clientId =>
    obtain ⟨_, _, _, _, _, stage, _, _⟩ := allowed
    exact Or.inl (by rw [stage]; rfl)
  | beginUpload n input => exact Or.inl (by rw [allowed.2.2.1]; rfl)
  | awaitUpload n input => exact Or.inl (by rw [allowed.2.2.1]; rfl)
  | again n => cases r <;> cases busy
  | beginDrain n => cases busy
  | endDrain n => cases busy
  | _ => exact Or.inl busy

/-- The clock of a round is the one that was last read. -/
theorem opening_since {now : Int}
    (stage : (look localeLE (⟨c, r⟩ :: past)).stage = .opening (some now)) :
    (look localeLE past).stage = .opening (some now) ∨ (⟨c, r⟩ : Sigma UploadReply) = ⟨.now, now⟩ := by
  cases c with
  | now =>
    change ((look localeLE past).afterNow r).stage = _ at stage
    unfold View.afterNow at stage
    split at stage
    next =>
      cases stage
      exact Or.inr rfl
    next => cases stage
    next => exact Or.inl stage
  | idbGetAll =>
    change ((look localeLE past).afterGetAll localeLE r).stage = _ at stage
    unfold View.afterGetAll at stage
    split at stage
    next => cases stage
    next => cases stage
    next => exact Or.inl stage
  | idbPut new =>
    change ((look localeLE past).afterPut r).stage = _ at stage
    unfold View.afterPut at stage
    split at stage
    next => cases stage
    next => cases stage
    next => exact Or.inl stage
  | idbDelete clientId =>
    change ((look localeLE past).afterDelete r).stage = _ at stage
    unfold View.afterDelete at stage
    split at stage <;> cases stage
  | again n => cases r <;> cases stage
  | beginUpload n input => cases stage
  | awaitUpload n input => cases stage
  | beginDrain n => cases stage
  | endDrain n => cases stage
  | _ => exact Or.inl stage

theorem uploads_now {w w' : UploadWorld} {now : Int} (h : w.perform o .now = some (now, w')) :
    now = w'.browser.clock := by
  cases h
  rfl

theorem OwnQueue.exchange (h : OwnQueue localeLE tab first s)
    (x : Pool.Exchange (uploaders localeLE) s s' i t past c next o r)
    (works : Works s.world ⟨t, past, c, r, s'.world⟩) (exclusive : Exclusive localeLE tab s')
    (enrolled : Enrolled localeLE first s') : OwnQueue localeLE tab first s' := by
  have hp : s.world.perform o c = some (r, s'.world) := x.performed
  obtain ⟨allowed, _⟩ := h.allowed x.mem
  have own : t.tab = tab := h.own _ x.mem
  refine ⟨exclusive, enrolled, ?_, perform_keyed h.keyed hp, ?_, ?_⟩
  · intro u hu
    rcases x.mem_threads hu with rfl | old
    · exact own
    · exact h.own u old
  · intro u hu now stage
    rcases x.mem_threads hu with rfl | old
    · rcases opening_since stage with before | here
      · exact (h.opened _ x.mem now before).trans works.2
      · cases here
        exact (uploads_now hp).le
    · exact (h.opened u old now stage).trans works.2
  · intro u hu p runs busy
    obtain ⟨j, hj⟩ := List.mem_iff_getElem?.mp hu
    rcases x.at hj with ⟨rfl, rfl⟩ | ⟨ne, old⟩
    · rcases busy_since allowed busy with before | ⟨now, items, stage, hx, taken⟩
      · have promise : (look localeLE past).promise = some p := by
          refine (look_promise ?_ ?_).symm.trans runs.promise
          · rintro n rfl
            cases busy
          · rintro n rfl
            cases busy
        obtain ⟨once, kept⟩ := h.items _ x.mem p ⟨own, rfl, promise⟩ before
        have fewer : (look localeLE (⟨c, r⟩ :: past)).items.Sublist (look localeLE past).items := by
          rcases look_lists localeLE past r with ⟨now, _, stage, _⟩ | ⟨_, same | same⟩
          · rw [stage] at before
            cases before
          · rw [same]
          · rw [same]
            exact List.tail_sublist _
        refine ⟨once.sublist (fewer.map _), fun item hitem => ?_⟩
        obtain ⟨here, notFailed, due⟩ := kept item (fewer.subset hitem)
        refine ⟨?_, notFailed, due.trans works.2⟩
        rcases h.advances x works.1 here with ⟨stays, _⟩ | ⟨deals, _⟩
        · exact stays
        · obtain ⟨rest, items⟩ := deals.items
          rw [deals.next, View.next, items] at hitem
          rw [items] at once
          exact absurd (List.mem_map_of_mem hitem) (List.nodup_cons.mp once).1
      · cases hx
        have perm := uploads_getAll hp
        have same : s'.world.browser.store = s.world.browser.store :=
          (uploads_frame hp).store (by simp) (by simp)
        rw [taken]
        refine ⟨dueOf_keyed ((perm.map PendingPhoto.clientId).nodup_iff.mpr h.keyed), fun item hitem => ?_⟩
        obtain ⟨read, notFailed, due⟩ := mem_dueOf.mp hitem
        refine ⟨same ▸ perm.subset read, notFailed, ?_⟩
        exact due.trans ((h.opened _ x.mem now stage).trans works.2)
    · obtain ⟨once, kept⟩ := h.items u (List.mem_of_getElem? old) p runs busy
      refine ⟨once, fun item hitem => ?_⟩
      obtain ⟨here, notFailed, due⟩ := kept item hitem
      refine ⟨?_, notFailed, due.trans works.2⟩
      rcases h.advances x works.1 here with ⟨stays, _⟩ | ⟨deals, _⟩
      · exact stays
      · obtain ⟨q, promise⟩ := Option.ne_none_iff_exists'.mp deals.promise
        exact absurd (h.exclusive.one j _ _ _ p q old x.thread runs ⟨own, rfl, promise⟩) ne

end Exchange

theorem OwnQueue.step {tab : Nat} {first : List String} {s : UploadPool}
    (h : OwnQueue localeLE tab first s) {a : UploadAction} (steady : Steady localeLE tab first s a) :
    OwnQueue localeLE tab first (s.step (uploaders localeLE) a) := by
  have exclusive : Exclusive localeLE tab (s.step (uploaders localeLE) a) := by
    refine h.exclusive.step ?_
    rintro rfl u hu _
    exact steady rfl u hu
  have enrolled : Enrolled localeLE first (s.step (uploaders localeLE) a) := by
    refine h.enrolled.step ?_
    cases a with
    | arrive t => exact steady.2
    | _ => trivial
  by_cases acts : ∃ i o, a = .act i o
  · obtain ⟨i, o, rfl⟩ := acts
    rcases Pool.step_act (m := uploaders localeLE) s i o with same | ⟨t, past, c, next, r, x⟩
    · rwa [same]
    · exact h.exchange x (Pool.Meets.at steady x) exclusive enrolled
  · have still : ∀ i o, a ≠ .act i o := fun i o same => acts ⟨i, o, same⟩
    obtain ⟨store, clock, _⟩ := @still_world localeLE s a still
    refine ⟨exclusive, enrolled, own_step h.own ?_, ?_, fun v hv now stage => ?_,
      fun v hv p runs busy => ?_⟩
    · rintro t rfl
      exact steady.1
    · rw [store]
      exact h.keyed
    · rcases still_origin still hv with new | ⟨u, hu, past, _⟩
      · rw [new] at stage
        cases stage
      · exact (h.opened u hu now (past ▸ stage)).trans clock
    · obtain ⟨once, kept⟩ := h.items v (drains_before still hv runs) p runs busy
      refine ⟨once, fun item hitem => ?_⟩
      obtain ⟨here, notFailed, due⟩ := kept item hitem
      exact ⟨store.symm ▸ here, notFailed, due.trans clock⟩

theorem ownQueue_init {tab : Nat} {b : Browser} (keyed : Keyed b.store) :
    OwnQueue localeLE tab (b.store.map PendingPhoto.clientId) ⟨.start b, []⟩ :=
  ⟨exclusive_init, enrolled_init, fun _ hu => absurd hu List.not_mem_nil, keyed,
    fun _ hu => absurd hu List.not_mem_nil, fun _ hu => absurd hu List.not_mem_nil⟩

end ItalyTrip
