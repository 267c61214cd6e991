import ItalyTrip.QueueStore

namespace ItalyTrip

open Calls

variable {localeLE : String → String → Bool}

/-- The capture that a task is to put in the queue. -/
def UploadTask.captured : UploadTask → Option String
  | .enqueue _ _ item => some item.clientId
  | _ => none

/-- A clientId is made once for each capture: it is neither one of these nor that of another task. -/
def NewCapture (first : List String) (s : UploadPool) (t : UploadTask) : Prop :=
  ∀ clientId ∈ t.captured, clientId ∉ first ∧ ∀ u ∈ s.threads, u.task.captured ≠ some clientId

instance (first : List String) (s : UploadPool) (t : UploadTask) : Decidable (NewCapture first s t) :=
  inferInstanceAs (Decidable (∀ clientId ∈ t.captured, _))

def ArrivesNew (first : List String) (s : UploadPool) : UploadAction → Prop
  | .arrive t => NewCapture first s t
  | _ => True

instance (first : List String) (s : UploadPool) : (a : UploadAction) → Decidable (ArrivesNew first s a)
  | .arrive t => inferInstanceAs (Decidable (NewCapture first s t))
  | .act _ _ | .kill _ | .env _ => isTrue trivial

/-- The capture has been in the queue. -/
def Used (localeLE : String → String → Bool) (first : List String) (threads : List UploadThread)
    (clientId : String) : Prop :=
  clientId ∈ first ∨
    ∃ u ∈ threads, u.task.captured = some clientId ∧ (look localeLE u.past).stored = true

/-- Whatever is in the queue or left of a snapshot of it has come there by the one task of its capture. -/
structure Enrolled (localeLE : String → String → Bool) (first : List String) (s : UploadPool) : Prop where
  follows : s.Follows (uploaders localeLE)
  new : ∀ u ∈ s.threads, ∀ clientId ∈ u.task.captured, clientId ∉ first
  apart : ∀ (i j : Nat) (u v : UploadThread) (clientId : String), s.threads[i]? = some u →
    s.threads[j]? = some v → u.task.captured = some clientId → v.task.captured = some clientId → i = j
  store : ∀ item ∈ s.world.browser.store, Used localeLE first s.threads item.clientId
  items : ∀ u ∈ s.threads, ∀ item ∈ (look localeLE u.past).items, Used localeLE first s.threads item.clientId

theorem Used.step {first : List String} {s : UploadPool} {clientId : String}
    (used : Used localeLE first s.threads clientId) (a : UploadAction) :
    Used localeLE first (s.step (uploaders localeLE) a).threads clientId := by
  rcases used with old | ⟨u, hu, captured, stored⟩
  · exact Or.inl old
  · obtain ⟨i, hi⟩ := List.mem_iff_getElem?.mp hu
    obtain ⟨v, hv, task, past⟩ := Pool.step_past s a hi
    exact Or.inr ⟨v, List.mem_of_getElem? hv, (congrArg _ task).trans captured, stored_suffix past stored⟩

theorem enrolled_init {b : Browser} :
    Enrolled localeLE (b.store.map PendingPhoto.clientId) ⟨.start b, []⟩ :=
  ⟨Pool.follows_init, fun _ hu => absurd hu List.not_mem_nil, fun _ _ _ _ _ hi => by simp at hi,
    fun _ hitem => Or.inl (List.mem_map_of_mem hitem), fun _ hu => absurd hu List.not_mem_nil⟩

/-- A thread that is about to put its capture for the first time puts a new one. -/
theorem Enrolled.first_put {first : List String} {s : UploadPool} (h : Enrolled localeLE first s) {i : Nat}
    {u : UploadThread} (hu : s.threads[i]? = some u) (stored : (look localeLE u.past).stored = false)
    {new : PendingPhoto} (put : FirstPut u.task new) : ¬ Used localeLE first s.threads new.clientId := by
  obtain ⟨tab, rounds, item, task, same, _⟩ := put
  have captured : u.task.captured = some new.clientId := by
    rw [task, same]
    rfl
  rintro (old | ⟨v, hv, captured', stored'⟩)
  · exact h.new u (List.mem_of_getElem? hu) _ captured old
  · obtain ⟨j, hj⟩ := List.mem_iff_getElem?.mp hv
    obtain rfl := h.apart i j u v _ hu hj captured captured'
    rw [Option.some.inj (hu.symm.trans hj), stored'] at stored
    cases stored

/-- What is put in the queue is then no longer new. -/
theorem Enrolled.put_used {first : List String} {s s' : UploadPool} {i : Nat} {t : UploadTask}
    {past : Past UploadReply} {new : PendingPhoto} {o : UploadChoice} {r : Except String Unit}
    {next : UploadReply (.idbPut new) → Prog UploadCall UploadReply (Except JsError Unit)}
    (h : Enrolled localeLE first s)
    (x : Pool.Exchange (uploaders localeLE) s s' i t past (.idbPut new) next o r) :
    Used localeLE first s.threads new.clientId ∨
      t.captured = some new.clientId ∧ (look localeLE (⟨.idbPut new, r⟩ :: past)).stored = true := by
  obtain ⟨q, leads, same⟩ := h.follows _ x.mem
  obtain rfl := same _ rfl
  rcases (script_allowed localeLE t).at_call leads with
    ⟨_, stage, _, _, _, item, rfl, same, _⟩ | ⟨_, item, rest, error, now, items, _, recorded⟩
  · refine Or.inr ⟨congrArg some same.symm, ?_⟩
    exact congrArg View.stored (View.afterPut_idle stage r)
  · refine Or.inl ?_
    rw [recorded.counts.1]
    exact h.items _ x.mem item (items ▸ List.mem_cons_self)

theorem Enrolled.step {first : List String} {s : UploadPool} (h : Enrolled localeLE first s)
    {a : UploadAction} (fresh : ArrivesNew first s a) :
    Enrolled localeLE first (s.step (uploaders localeLE) a) := by
  have items : ∀ u ∈ (s.step (uploaders localeLE) a).threads, ∀ item ∈ (look localeLE u.past).items,
      Used localeLE first s.threads item.clientId := by
    intro u hu item hitem
    obtain ⟨i, hi⟩ := List.mem_iff_getElem?.mp hu
    rcases Pool.step_origin s a hi with ⟨t, rfl⟩ | ⟨v, hv, same⟩ | ⟨_, t, past, c, next, r, _, x, rfl⟩
    · cases hitem
    · refine h.items v (List.mem_of_getElem? hv) item ?_
      rcases same with rfl | rfl <;> exact hitem
    · rcases look_lists localeLE past r with ⟨now, taken, _, hx, _, same⟩ | ⟨_, same | same⟩
      · cases hx
        rw [same] at hitem
        exact h.store item ((uploads_getAll x.performed).subset (mem_dueOf.mp hitem).1)
      · exact h.items _ x.mem item (same ▸ hitem)
      · exact h.items _ x.mem item (List.mem_of_mem_tail (same ▸ hitem))
  refine ⟨h.follows.step a, ?_, ?_, ?_, fun u hu item hitem => (items u hu item hitem).step a⟩
  · intro u hu clientId captured
    obtain ⟨i, hi⟩ := List.mem_iff_getElem?.mp hu
    rcases Pool.step_task s a hi with ⟨v, hv, task⟩ | ⟨arrived, _⟩
    · exact h.new v (List.mem_of_getElem? hv) clientId (task ▸ captured)
    · subst arrived
      exact (fresh clientId captured).1
  · intro i j u v clientId hi hj captured captured'
    rcases Pool.step_task s a hi with ⟨u', hu', task⟩ | ⟨arrived, here⟩
    · rcases Pool.step_task s a hj with ⟨v', hv', task'⟩ | ⟨arrived, _⟩
      · exact h.apart i j u' v' clientId hu' hv' (task ▸ captured) (task' ▸ captured')
      · subst arrived
        exact absurd (task ▸ captured) ((fresh clientId captured').2 u' (List.mem_of_getElem? hu'))
    · rcases Pool.step_task s a hj with ⟨v', hv', task'⟩ | ⟨_, here'⟩
      · subst arrived
        exact absurd (task' ▸ captured') ((fresh clientId captured).2 v' (List.mem_of_getElem? hv'))
      · exact here.symm.trans here'
  · intro item hitem
    rcases Pool.step_world (m := uploaders localeLE) s a with
      same | ⟨i, o, t, past, c, next, r, x, _⟩ | ⟨e, same⟩
    · rw [same] at hitem
      exact (h.store item hitem).step a
    · rcases uploads_store x.performed hitem with old | rfl
      · exact (h.store item old).step a
      · rcases h.put_used x with used | ⟨captured, stored⟩
        · exact used.step a
        · exact Or.inr ⟨_, x.mem_after, captured, stored⟩
    · rw [same] at hitem
      exact (h.store item (env_store _ e ▸ hitem)).step a

end ItalyTrip
