import ItalyTrip.Program

namespace Calls

/-- Programs started by tasks `T` over a world `W`. `O` is what the environment chooses when it
answers a call, `E` what the world does by itself; `perform` gives `none` while a call blocks.
Calls marked `sync` belong to one segment: no other task of the same engine moves before it. -/
structure Machine (C : Type) (R : C → Type) (W O E T α : Type) where
  start : T → Prog C R α
  perform : O → W → (c : C) → Option (R c × W)
  sync : C → Bool
  engine : T → Nat
  env : E → W → W

/-- A started task, its exchanges so far and what is left of its program (`none` once killed). -/
structure Thread (C : Type) (R : C → Type) (T α : Type) where
  task : T
  past : Past R
  rest : Option (Prog C R α)

structure Pool (C : Type) (R : C → Type) (W T α : Type) where
  world : W
  threads : List (Thread C R T α)

inductive Action (O E T : Type) where
  | arrive (t : T)
  | act (i : Nat) (choice : O)
  | kill (i : Nat)
  | env (e : E)

variable {C : Type} {R : C → Type} {W O E T α : Type}

theorem getElem?_set_cases {α : Type} {xs : List α} {i j : Nat} {a b : α}
    (h : (xs.set i a)[j]? = some b) : j = i ∧ b = a ∨ xs[j]? = some b := by
  rw [List.getElem?_set] at h
  split at h
  next hij =>
    split at h
    next => exact Or.inl ⟨hij.symm, (Option.some.inj h).symm⟩
    next => cases h
  next => exact Or.inr h

theorem getElem?_concat_cases {α : Type} {xs : List α} {j : Nat} {a b : α}
    (h : (xs ++ [a])[j]? = some b) : b = a ∨ xs[j]? = some b := by
  rw [List.getElem?_append] at h
  split at h
  next => exact Or.inr h
  next => exact Or.inl (List.mem_singleton.mp (List.mem_of_getElem? h))

/-- What holds at no two places of a list holds at most once. -/
theorem countP_le_one {α : Type} {xs : List α} {p : α → Bool}
    (h : ∀ (i j : Nat) (x y : α), xs[i]? = some x → xs[j]? = some y → p x = true → p y = true → i = j) :
    xs.countP p ≤ 1 := by
  induction xs with
  | nil => exact Nat.zero_le 1
  | cons x xs ih =>
    rw [List.countP_cons]
    split
    next hx =>
      have none : xs.countP p = 0 := by
        refine List.countP_eq_zero.mpr fun y hy hp => ?_
        obtain ⟨j, hj⟩ := List.mem_iff_getElem?.mp hy
        have := h 0 (j + 1) x y rfl hj hx hp
        omega
      omega
    next =>
      have := ih fun i j y z hy hz py pz => by
        have := h (i + 1) (j + 1) y z hy hz py pz
        omega
      omega

namespace Thread

/-- The call a thread is about to make. -/
def pending (u : Thread C R T α) : Option C :=
  match u.rest with
  | some (.call c _) => some c
  | _ => none

def result (u : Thread C R T α) : Option α :=
  match u.rest with
  | some (.done a) => some a
  | _ => none

def midSegment (m : Machine C R W O E T α) (u : Thread C R T α) : Bool :=
  u.pending.any m.sync

@[simp] theorem pending_call {t : T} {past : Past R} {c : C} {next : R c → Prog C R α} :
    pending ⟨t, past, some (.call c next)⟩ = some c := rfl

@[simp] theorem result_call {t : T} {past : Past R} {c : C} {next : R c → Prog C R α} :
    result ⟨t, past, some (.call c next)⟩ = none := rfl

@[simp] theorem result_done {t : T} {past : Past R} {a : α} :
    result (⟨t, past, some (.done a)⟩ : Thread C R T α) = some a := rfl

theorem rest_of_result {u : Thread C R T α} {a : α} (h : u.result = some a) :
    u.rest = some (.done a) := by
  unfold result at h
  split at h
  next b hb => rw [hb, Option.some.inj h]
  next => simp at h

end Thread

namespace Pool

variable (m : Machine C R W O E T α)

def free (threads : List (Thread C R T α)) (t : T) : Bool :=
  threads.all fun u => m.engine u.task != m.engine t || !u.midSegment m

/-- One step of the pool. An action that is not enabled changes nothing. -/
def step (s : Pool C R W T α) : Action O E T → Pool C R W T α
  | .arrive t =>
    if free m s.threads t then ⟨s.world, s.threads ++ [⟨t, [], some (m.start t)⟩]⟩ else s
  | .act i choice =>
    match s.threads[i]? with
    | some ⟨t, past, some (.call c next)⟩ =>
      if free m (s.threads.eraseIdx i) t then
        match m.perform choice s.world c with
        | some (r, w) => ⟨w, s.threads.set i ⟨t, ⟨c, r⟩ :: past, some (next r)⟩⟩
        | none => s
      else s
    | _ => s
  | .kill i =>
    match s.threads[i]? with
    | some ⟨t, past, some (.call _ _)⟩ => ⟨s.world, s.threads.set i ⟨t, past, none⟩⟩
    | _ => s
  | .env e => ⟨m.env e s.world, s.threads⟩

def exec (s : Pool C R W T α) (actions : List (Action O E T)) : Pool C R W T α :=
  actions.foldl (step m) s

@[simp] theorem exec_nil (s : Pool C R W T α) : s.exec m [] = s := rfl

@[simp] theorem exec_cons (s : Pool C R W T α) (a : Action O E T) (as : List (Action O E T)) :
    s.exec m (a :: as) = (s.step m a).exec m as := rfl

theorem exec_append (s : Pool C R W T α) (as bs : List (Action O E T)) :
    s.exec m (as ++ bs) = (s.exec m as).exec m bs := List.foldl_append

/-- One call answered: whose it was, what that thread had exchanged before, and the world after. -/
structure Event (R : C → Type) (W T : Type) where
  task : T
  past : Past R
  call : C
  reply : R call
  after : W

/-- The exchange an action makes, if it makes one. -/
def exchanged (s : Pool C R W T α) : Action O E T → Option (Event R W T)
  | .act i choice =>
    match s.threads[i]? with
    | some ⟨t, past, some (.call c _)⟩ =>
      if free m (s.threads.eraseIdx i) t then
        match m.perform choice s.world c with
        | some (r, w) => some ⟨t, past, c, r, w⟩
        | none => none
      else none
    | _ => none
  | _ => none

/-- A thread of the pool exchanges one call for one reply. -/
structure Exchange (s s' : Pool C R W T α) (i : Nat) (t : T) (past : Past R) (c : C)
    (next : R c → Prog C R α) (choice : O) (r : R c) : Prop where
  thread : s.threads[i]? = some ⟨t, past, some (.call c next)⟩
  performed : m.perform choice s.world c = some (r, s'.world)
  threads : s'.threads = s.threads.set i ⟨t, ⟨c, r⟩ :: past, some (next r)⟩
  exchanged : s.exchanged m (.act i choice) = some ⟨t, past, c, r, s'.world⟩

variable {m}

theorem step_act (s : Pool C R W T α) (i : Nat) (choice : O) :
    s.step m (.act i choice) = s ∨ ∃ t past c next r,
      Exchange m s (s.step m (.act i choice)) i t past c next choice r := by
  simp only [step]
  split
  next t past c next hi =>
    split
    next hfree =>
      split
      next r w hp =>
        exact Or.inr ⟨t, past, c, next, r, hi, hp, rfl, by simp only [exchanged, hi, hfree, hp, if_true]⟩
      next => exact Or.inl rfl
    next => exact Or.inl rfl
  next => exact Or.inl rfl

/-- A call that is free to move and does not block makes its exchange. -/
theorem step_performed {s : Pool C R W T α} {i : Nat} {t : T} {past : Past R} {c : C}
    {next : R c → Prog C R α} {choice : O} {r : R c} {w : W}
    (thread : s.threads[i]? = some ⟨t, past, some (.call c next)⟩)
    (hfree : free m (s.threads.eraseIdx i) t = true)
    (performed : m.perform choice s.world c = some (r, w)) :
    s.step m (.act i choice) = ⟨w, s.threads.set i ⟨t, ⟨c, r⟩ :: past, some (next r)⟩⟩ := by
  simp only [step, thread, hfree, performed, if_true]

theorem Exchange.free {s s' : Pool C R W T α} {i : Nat} {t : T} {past : Past R} {c : C}
    {next : R c → Prog C R α} {choice : O} {r : R c} (x : Exchange m s s' i t past c next choice r) :
    Pool.free m (s.threads.eraseIdx i) t = true := by
  have h := x.exchanged
  simp only [Pool.exchanged, x.thread] at h
  split at h
  next hfree => exact hfree
  next => cases h

theorem exchanged_spec {s : Pool C R W T α} {a : Action O E T} {e : Event R W T}
    (h : s.exchanged m a = some e) : ∃ i choice next, a = .act i choice ∧
      Exchange m s (s.step m a) i e.task e.past e.call next choice e.reply ∧
      e.after = (s.step m a).world := by
  cases a with
  | act i choice =>
    simp only [exchanged] at h
    split at h
    next t past c next hi =>
      split at h
      next hfree =>
        split at h
        next r w hp =>
          cases h
          have hstep := step_performed hi hfree hp
          refine ⟨i, choice, next, rfl, ⟨hi, ?_, ?_, ?_⟩, ?_⟩
          · rw [hstep, hp]
          · rw [hstep]
          · simp only [exchanged, hi, hfree, hp, hstep, if_true]
          · rw [hstep]
        next => cases h
      next => cases h
    next => cases h
  | arrive t => cases h
  | kill i => cases h
  | env e => cases h

theorem step_kill (s : Pool C R W T α) (i : Nat) :
    s.step m (.kill i) = s ∨ ∃ t past c next,
      s.threads[i]? = some ⟨t, past, some (.call c next)⟩ ∧
      s.step m (.kill i) = ⟨s.world, s.threads.set i ⟨t, past, none⟩⟩ := by
  simp only [step]
  split
  next t past c next hi => exact Or.inr ⟨t, past, c, next, hi, rfl⟩
  next => exact Or.inl rfl

theorem step_arrive (s : Pool C R W T α) (t : T) :
    s.step m (.arrive t) = s ∨
      s.step m (.arrive t) = ⟨s.world, s.threads ++ [⟨t, [], some (m.start t)⟩]⟩ := by
  simp only [step]
  split
  next => exact Or.inr rfl
  next => exact Or.inl rfl

/-- The world changes only by an exchange or by itself. -/
theorem step_world (s : Pool C R W T α) (a : Action O E T) :
    (s.step m a).world = s.world ∨
      (∃ i choice t past c next r, Exchange m s (s.step m a) i t past c next choice r ∧
        a = .act i choice) ∨
      ∃ e, (s.step m a).world = m.env e s.world := by
  cases a with
  | arrive t => rcases step_arrive (m := m) s t with h | h <;> exact Or.inl (by rw [h])
  | act i choice =>
    rcases step_act (m := m) s i choice with h | ⟨t, past, c, next, r, x⟩
    · exact Or.inl (by rw [h])
    · exact Or.inr (Or.inl ⟨i, choice, t, past, c, next, r, x, rfl⟩)
  | kill i => rcases step_kill (m := m) s i with h | ⟨_, _, _, _, _, h⟩ <;> exact Or.inl (by rw [h])
  | env e => exact Or.inr (Or.inr ⟨e, rfl⟩)

/-- A thread that is done stays as it is. -/
theorem step_done {s : Pool C R W T α} {u : Thread C R T α} {a : α} (hu : u ∈ s.threads)
    (done : u.result = some a) (action : Action O E T) : u ∈ (s.step m action).threads := by
  have rest := Thread.rest_of_result done
  have kept : ∀ {i : Nat} {t past c next} (x : Thread C R T α),
      s.threads[i]? = some ⟨t, past, some (.call c next)⟩ → u ∈ s.threads.set i x := by
    intro i t past c next x hi
    obtain ⟨j, hj⟩ := List.mem_iff_getElem?.mp hu
    have hne : i ≠ j := by
      rintro rfl
      rw [Option.some.inj (hj.symm.trans hi)] at rest
      cases rest
    refine List.mem_iff_getElem?.mpr ⟨j, ?_⟩
    rwa [List.getElem?_set_ne hne]
  cases action with
  | arrive t =>
    rcases step_arrive (m := m) s t with h | h <;> rw [h]
    · exact hu
    · exact List.mem_append_left _ hu
  | act i choice =>
    rcases step_act (m := m) s i choice with h | ⟨t, past, c, next, r, x⟩
    · rwa [h]
    · rw [x.threads]
      exact kept _ x.thread
  | kill i =>
    rcases step_kill (m := m) s i with h | ⟨t, past, c, next, hi, h⟩ <;> rw [h]
    · exact hu
    · exact kept _ hi
  | env e => exact hu

/-- Threads stay where they are and forget nothing. -/
theorem step_past (s : Pool C R W T α) (a : Action O E T) {i : Nat} {u : Thread C R T α}
    (hu : s.threads[i]? = some u) :
    ∃ v, (s.step m a).threads[i]? = some v ∧ v.task = u.task ∧ u.past <:+ v.past := by
  obtain ⟨lt, _⟩ := List.getElem?_eq_some_iff.mp hu
  have kept : ∀ {j : Nat} {x y : Thread C R T α}, s.threads[j]? = some y → y.task = x.task →
      y.past <:+ x.past →
      ∃ v, (s.threads.set j x)[i]? = some v ∧ v.task = u.task ∧ u.past <:+ v.past := by
    intro j x y hy task past
    by_cases hj : j = i
    · subst hj
      obtain rfl := Option.some.inj (hy.symm.trans hu)
      exact ⟨x, List.getElem?_set_self lt, task.symm, past⟩
    · exact ⟨u, by rwa [List.getElem?_set_ne hj], rfl, List.suffix_refl _⟩
  cases a with
  | arrive t =>
    rcases step_arrive (m := m) s t with h | h <;> rw [h]
    · exact ⟨u, hu, rfl, List.suffix_refl _⟩
    · exact ⟨u, by rwa [List.getElem?_append_left lt], rfl, List.suffix_refl _⟩
  | act j choice =>
    rcases step_act (m := m) s j choice with h | ⟨t, past, c, next, r, x⟩
    · exact ⟨u, by rwa [h], rfl, List.suffix_refl _⟩
    · rw [x.threads]
      exact kept x.thread rfl (List.suffix_cons _ _)
  | kill j =>
    rcases step_kill (m := m) s j with h | ⟨t, past, c, next, hj, h⟩ <;> rw [h]
    · exact ⟨u, hu, rfl, List.suffix_refl _⟩
    · exact kept hj rfl (List.suffix_refl _)
  | env e => exact ⟨u, hu, rfl, List.suffix_refl _⟩

/-- Where a thread comes from: it has just started, it was there before and may have been killed now,
or it has just made its exchange. -/
theorem step_origin (s : Pool C R W T α) (a : Action O E T) {i : Nat} {v : Thread C R T α}
    (hv : (s.step m a).threads[i]? = some v) :
    (∃ t, v = ⟨t, [], some (m.start t)⟩) ∨
      (∃ u, s.threads[i]? = some u ∧ (v = u ∨ v = { u with rest := none })) ∨
      ∃ choice t past c next r, a = .act i choice ∧
        Exchange m s (s.step m a) i t past c next choice r ∧
        v = ⟨t, ⟨c, r⟩ :: past, some (next r)⟩ := by
  cases a with
  | arrive t =>
    rcases step_arrive (m := m) s t with h | h <;> rw [h] at hv
    · exact Or.inr (Or.inl ⟨v, hv, Or.inl rfl⟩)
    · rcases getElem?_concat_cases hv with rfl | old
      · exact Or.inl ⟨t, rfl⟩
      · exact Or.inr (Or.inl ⟨v, old, Or.inl rfl⟩)
  | act j choice =>
    rcases step_act (m := m) s j choice with h | ⟨t, past, c, next, r, x⟩
    · rw [h] at hv
      exact Or.inr (Or.inl ⟨v, hv, Or.inl rfl⟩)
    · have hv' := hv
      rw [x.threads] at hv'
      rcases getElem?_set_cases hv' with ⟨rfl, rfl⟩ | old
      · exact Or.inr (Or.inr ⟨choice, t, past, c, next, r, rfl, x, rfl⟩)
      · exact Or.inr (Or.inl ⟨v, old, Or.inl rfl⟩)
  | kill j =>
    rcases step_kill (m := m) s j with h | ⟨t, past, c, next, hj, h⟩ <;> rw [h] at hv
    · exact Or.inr (Or.inl ⟨v, hv, Or.inl rfl⟩)
    · rcases getElem?_set_cases hv with ⟨rfl, rfl⟩ | old
      · exact Or.inr (Or.inl ⟨_, hj, Or.inr rfl⟩)
      · exact Or.inr (Or.inl ⟨v, old, Or.inl rfl⟩)
  | env e => exact Or.inr (Or.inl ⟨v, hv, Or.inl rfl⟩)

/-- A thread that was not there before has arrived, and is the last. -/
theorem step_task (s : Pool C R W T α) (a : Action O E T) {i : Nat} {v : Thread C R T α}
    (hv : (s.step m a).threads[i]? = some v) :
    (∃ u, s.threads[i]? = some u ∧ u.task = v.task) ∨ a = .arrive v.task ∧ s.threads.length = i := by
  cases a with
  | arrive t =>
    rcases step_arrive (m := m) s t with h | h <;> rw [h] at hv
    · exact Or.inl ⟨v, hv, rfl⟩
    · rw [List.getElem?_append] at hv
      split at hv
      next => exact Or.inl ⟨v, hv, rfl⟩
      next le =>
        obtain ⟨lt, rfl⟩ := List.getElem?_eq_some_iff.mp hv
        rw [List.length_singleton] at lt
        exact Or.inr ⟨by simp, by omega⟩
  | act j choice =>
    rcases step_act (m := m) s j choice with h | ⟨t, past, c, next, r, x⟩
    · exact Or.inl ⟨v, h ▸ hv, rfl⟩
    · rw [x.threads] at hv
      rcases getElem?_set_cases hv with ⟨rfl, rfl⟩ | old
      · exact Or.inl ⟨_, x.thread, rfl⟩
      · exact Or.inl ⟨v, old, rfl⟩
  | kill j =>
    rcases step_kill (m := m) s j with h | ⟨t, past, c, next, hj, h⟩ <;> rw [h] at hv
    · exact Or.inl ⟨v, hv, rfl⟩
    · rcases getElem?_set_cases hv with ⟨rfl, rfl⟩ | old
      · exact Or.inl ⟨_, hj, rfl⟩
      · exact Or.inl ⟨v, old, rfl⟩
  | env e => exact Or.inl ⟨v, hv, rfl⟩

theorem Exchange.mem_threads {s s' : Pool C R W T α} {i : Nat} {t : T} {past : Past R} {c : C}
    {next : R c → Prog C R α} {choice : O} {r : R c} (x : Exchange m s s' i t past c next choice r)
    {u : Thread C R T α} (hu : u ∈ s'.threads) :
    u = ⟨t, ⟨c, r⟩ :: past, some (next r)⟩ ∨ u ∈ s.threads := by
  rw [x.threads] at hu
  exact (List.mem_or_eq_of_mem_set hu).symm

theorem Exchange.mem {s s' : Pool C R W T α} {i : Nat} {t : T} {past : Past R} {c : C}
    {next : R c → Prog C R α} {choice : O} {r : R c}
    (x : Exchange m s s' i t past c next choice r) :
    (⟨t, past, some (.call c next)⟩ : Thread C R T α) ∈ s.threads :=
  List.mem_of_getElem? x.thread

theorem Exchange.mem_after {s s' : Pool C R W T α} {i : Nat} {t : T} {past : Past R} {c : C}
    {next : R c → Prog C R α} {choice : O} {r : R c} (x : Exchange m s s' i t past c next choice r) :
    (⟨t, ⟨c, r⟩ :: past, some (next r)⟩ : Thread C R T α) ∈ s'.threads := by
  obtain ⟨lt, _⟩ := List.getElem?_eq_some_iff.mp x.thread
  rw [x.threads]
  exact List.mem_set lt _

/-- The thread at a place after an exchange is the one that made it, or another one as it was. -/
theorem Exchange.at {s s' : Pool C R W T α} {i j : Nat} {t : T} {past : Past R} {c : C}
    {next : R c → Prog C R α} {choice : O} {r : R c} (x : Exchange m s s' i t past c next choice r)
    {v : Thread C R T α} (hv : s'.threads[j]? = some v) :
    j = i ∧ v = ⟨t, ⟨c, r⟩ :: past, some (next r)⟩ ∨ j ≠ i ∧ s.threads[j]? = some v := by
  rw [x.threads] at hv
  by_cases same : j = i
  · subst same
    obtain ⟨lt, _⟩ := List.getElem?_eq_some_iff.mp x.thread
    rw [List.getElem?_set_self lt] at hv
    exact Or.inl ⟨rfl, (Option.some.inj hv).symm⟩
  · rw [List.getElem?_set_ne (Ne.symm same)] at hv
    exact Or.inr ⟨same, hv⟩

/-- While a thread makes its exchange, no other thread of its engine is in a segment. -/
theorem Exchange.between {s s' : Pool C R W T α} {i j : Nat} {t : T} {past : Past R} {c : C}
    {next : R c → Prog C R α} {choice : O} {r : R c} (x : Exchange m s s' i t past c next choice r)
    {u : Thread C R T α} (hu : s.threads[j]? = some u) (ne : j ≠ i)
    (same : m.engine u.task = m.engine t) : u.midSegment m = false := by
  have others := List.all_eq_true.mp x.free u (List.mem_eraseIdx_iff_getElem?.mpr ⟨j, ne, hu⟩)
  simpa [same] using others

/-- A condition on the exchanges of a run. -/
abbrev Condition (R : C → Type) (W T : Type) := W → Event R W T → Prop

variable (m) in
/-- The exchange an action makes, if it makes one, meets the condition. -/
def Meets (may : Condition R W T) (s : Pool C R W T α) (a : Action O E T) : Prop :=
  match s.exchanged m a with
  | some x => may s.world x
  | none => True

variable (m) in
/-- All exchanges of a run meet the condition. -/
def RunMeets (may : Condition R W T) : Pool C R W T α → List (Action O E T) → Prop
  | _, [] => True
  | s, a :: as => s.Meets m may a ∧ RunMeets may (s.step m a) as

instance decidableMeets {may : Condition R W T} [∀ w x, Decidable (may w x)]
    (s : Pool C R W T α) (a : Action O E T) : Decidable (s.Meets m may a) :=
  match h : s.exchanged m a with
  | some x => decidable_of_iff (may s.world x) (by simp only [Meets, h])
  | none => isTrue (by simp only [Meets, h])

instance decidableRunMeets {may : Condition R W T} [∀ w x, Decidable (may w x)] :
    (s : Pool C R W T α) → (actions : List (Action O E T)) → Decidable (RunMeets m may s actions)
  | _, [] => isTrue trivial
  | s, a :: as =>
    have : Decidable (RunMeets m may (s.step m a) as) := decidableRunMeets _ as
    inferInstanceAs (Decidable (_ ∧ _))

theorem Meets.at {may : Condition R W T} {s s' : Pool C R W T α} {i : Nat} {t : T} {past : Past R}
    {c : C} {next : R c → Prog C R α} {choice : O} {r : R c}
    (meets : s.Meets m may (.act i choice)) (x : Exchange m s s' i t past c next choice r) :
    may s.world ⟨t, past, c, r, s'.world⟩ := by
  simpa only [Meets, x.exchanged] using meets

theorem runMeets_and {may may' : Condition R W T} {s : Pool C R W T α}
    {actions : List (Action O E T)} (h : RunMeets m may s actions) (h' : RunMeets m may' s actions) :
    RunMeets m (fun w x => may w x ∧ may' w x) s actions := by
  induction actions generalizing s with
  | nil => trivial
  | cons a as ih =>
    refine ⟨?_, ih h.2 h'.2⟩
    have here := h.1
    have here' := h'.1
    unfold Meets at here here' ⊢
    split
    next x hx =>
      rw [hx] at here here'
      exact ⟨here, here'⟩
    next => trivial

theorem RunMeets.mono {may may' : Condition R W T} (h : ∀ w x, may w x → may' w x)
    {s : Pool C R W T α} {actions : List (Action O E T)} (meets : RunMeets m may s actions) :
    RunMeets m may' s actions := by
  induction actions generalizing s with
  | nil => trivial
  | cons a as ih =>
    refine ⟨?_, ih meets.2⟩
    have here := meets.1
    unfold Meets at here ⊢
    split
    next x hx =>
      rw [hx] at here
      exact h _ x here
    next => trivial

theorem meets_true (s : Pool C R W T α) (a : Action O E T) : s.Meets m (fun _ _ => True) a := by
  unfold Meets
  split <;> trivial

theorem runMeets_true (s : Pool C R W T α) (actions : List (Action O E T)) :
    RunMeets m (fun _ _ => True) s actions := by
  induction actions generalizing s with
  | nil => trivial
  | cons a as ih => exact ⟨meets_true s a, ih _⟩

theorem exec_induction {P : Pool C R W T α → Prop} {may : Condition R W T}
    (step : ∀ s a, P s → s.Meets m may a → P (s.step m a))
    {s : Pool C R W T α} (init : P s) {actions : List (Action O E T)}
    (meets : RunMeets m may s actions) : P (s.exec m actions) := by
  induction actions generalizing s with
  | nil => exact init
  | cons a as ih => exact ih (step s a init meets.1) meets.2

variable (m) in
/-- Every action of a run is taken in a state that allows it. -/
def Throughout (may : Pool C R W T α → Action O E T → Prop) :
    Pool C R W T α → List (Action O E T) → Prop
  | _, [] => True
  | s, a :: as => may s a ∧ Throughout may (s.step m a) as

instance decidableThroughout {may : Pool C R W T α → Action O E T → Prop} [∀ s a, Decidable (may s a)] :
    (s : Pool C R W T α) → (actions : List (Action O E T)) → Decidable (Throughout m may s actions)
  | _, [] => isTrue trivial
  | s, a :: as =>
    have : Decidable (Throughout m may (s.step m a) as) := decidableThroughout _ as
    inferInstanceAs (Decidable (_ ∧ _))

theorem throughout_append {may : Pool C R W T α → Action O E T → Prop} {s : Pool C R W T α}
    {as bs : List (Action O E T)} :
    Throughout m may s (as ++ bs) ↔ Throughout m may s as ∧ Throughout m may (s.exec m as) bs := by
  induction as generalizing s with
  | nil => exact ⟨fun h => ⟨trivial, h⟩, And.right⟩
  | cons a as ih =>
    rw [List.cons_append, Throughout, Throughout, ih, and_assoc]
    rfl

theorem Throughout.induction {may : Pool C R W T α → Action O E T → Prop} {P : Pool C R W T α → Prop}
    (step : ∀ s a, P s → may s a → P (s.step m a)) {s : Pool C R W T α} (init : P s)
    {actions : List (Action O E T)} (h : Throughout m may s actions) : P (s.exec m actions) := by
  induction actions generalizing s with
  | nil => exact init
  | cons a as ih => exact ih (step s a init h.1) h.2

theorem RunMeets.throughout {may : Condition R W T} {s : Pool C R W T α} {actions : List (Action O E T)}
    (h : RunMeets m may s actions) : Throughout m (fun s a => s.Meets m may a) s actions := by
  induction actions generalizing s with
  | nil => trivial
  | cons a as ih => exact ⟨h.1, ih h.2⟩

theorem Throughout.and {may may' : Pool C R W T α → Action O E T → Prop} {s : Pool C R W T α}
    {actions : List (Action O E T)} (h : Throughout m may s actions)
    (h' : Throughout m may' s actions) : Throughout m (fun s a => may s a ∧ may' s a) s actions := by
  induction actions generalizing s with
  | nil => trivial
  | cons a as ih => exact ⟨⟨h.1, h'.1⟩, ih h.2 h'.2⟩

/-- What each action of a run keeps, the run keeps. -/
theorem exec_keeps {P : Pool C R W T α → Prop} {s : Pool C R W T α} {actions : List (Action O E T)}
    (step : ∀ s, ∀ a ∈ actions, P s → P (s.step m a)) (init : P s) : P (s.exec m actions) := by
  induction actions generalizing s with
  | nil => exact init
  | cons a as ih =>
    exact ih (fun s b hb => step s b (List.mem_cons_of_mem _ hb)) (step s a List.mem_cons_self init)

/-- What every exchange and the world itself keep of the world, a run keeps. -/
theorem exec_world {I : W → Prop} (act : ∀ choice w c r w', I w →
      m.perform choice w c = some (r, w') → I w') (env : ∀ e w, I w → I (m.env e w))
    {s : Pool C R W T α} (init : I s.world) (actions : List (Action O E T)) :
    I (s.exec m actions).world := by
  induction actions generalizing s with
  | nil => exact init
  | cons a as ih =>
    refine ih ?_
    rcases step_world (m := m) s a with same | ⟨_, _, _, _, _, _, _, x, _⟩ | ⟨e, he⟩
    · rwa [same]
    · exact act _ _ _ _ _ init x.performed
    · rw [he]
      exact env e _ init

/-- What holds at the end of a run, and of a state if it holds after a step, holds throughout. -/
theorem exec_until {H : Pool C R W T α → Prop} (before : ∀ s a, H (s.step m a) → H s)
    {s : Pool C R W T α} {actions : List (Action O E T)} (h : H (s.exec m actions)) : H s := by
  induction actions generalizing s with
  | nil => exact h
  | cons a as ih => exact before s a (ih h)

/-- Such a property may be used at every step. -/
theorem exec_induction_until {H P : Pool C R W T α → Prop}
    (before : ∀ s a, H (s.step m a) → H s) {s : Pool C R W T α} {actions : List (Action O E T)}
    (step : ∀ s, ∀ a ∈ actions, P s → H (s.step m a) → P (s.step m a)) (init : P s)
    (h : H (s.exec m actions)) : P (s.exec m actions) := by
  induction actions generalizing s with
  | nil => exact init
  | cons a as ih =>
    have here := step s a List.mem_cons_self init (exec_until before h)
    exact ih (fun s b hb => step s b (List.mem_cons_of_mem _ hb)) here h

/-- What one thread may rely on about the others. `G` holds of every world, `L` of a thread's task
and exchanges, and `rely` of every change another thread can make. -/
structure Local (m : Machine C R W O E T α) (may : Condition R W T) (G : W → Prop)
    (rely : W → W → Prop) (L : T → Past R → W → Prop) : Prop where
  arrive : ∀ t w, G w → L t [] w
  act : ∀ t past c next choice r w w', (m.start t).Leads past (.call c next) → G w →
    L t past w → m.perform choice w c = some (r, w') → may w ⟨t, past, c, r, w'⟩ →
    G w' ∧ rely w w' ∧ L t (⟨c, r⟩ :: past) w'
  env : ∀ e w, G w → G (m.env e w) ∧ rely w (m.env e w)
  stable : ∀ t past w w', rely w w' → L t past w → L t past w'

/-- `G` holds of the world, `L` of every thread, and every thread follows its program. -/
structure Good (m : Machine C R W O E T α) (G : W → Prop) (L : T → Past R → W → Prop)
    (s : Pool C R W T α) : Prop where
  world : G s.world
  thread : ∀ u ∈ s.threads, L u.task u.past s.world
  leads : ∀ u ∈ s.threads, ∀ q, u.rest = some q → (m.start u.task).Leads u.past q

theorem Local.step {may : Condition R W T} {G : W → Prop} {rely : W → W → Prop}
    {L : T → Past R → W → Prop} (rules : Local m may G rely L) {s : Pool C R W T α}
    {a : Action O E T} (good : Good m G L s) (meets : s.Meets m may a) :
    Good m G L (s.step m a) := by
  cases a with
  | arrive t =>
    rcases step_arrive (m := m) s t with h | h
    · rwa [h]
    · rw [h]
      refine ⟨good.world, ?_, ?_⟩
      · intro u hu
        rcases List.mem_append.mp hu with hu | hu
        · exact good.thread u hu
        · rw [List.mem_singleton.mp hu]
          exact rules.arrive t s.world good.world
      · intro u hu q hq
        rcases List.mem_append.mp hu with hu | hu
        · exact good.leads u hu q hq
        · rw [List.mem_singleton.mp hu] at hq ⊢
          rw [← Option.some.inj hq]
          exact .here
  | act i choice =>
    rcases step_act (m := m) s i choice with h | ⟨t, past, c, next, r, x⟩
    · rwa [h]
    · have leads := good.leads _ x.mem _ rfl
      obtain ⟨hG, hr, hL⟩ := rules.act t past c next choice r _ _ leads good.world
        (good.thread _ x.mem) x.performed (meets.at x)
      refine ⟨hG, ?_, ?_⟩
      · intro u hu
        rcases x.mem_threads hu with rfl | hu
        · exact hL
        · exact rules.stable _ _ _ _ hr (good.thread u hu)
      · intro u hu q hq
        rcases x.mem_threads hu with rfl | hu
        · rw [← Option.some.inj hq]
          exact leads.next r
        · exact good.leads u hu q hq
  | kill i =>
    rcases step_kill (m := m) s i with h | ⟨t, past, c, next, hi, h⟩
    · rwa [h]
    · rw [h]
      refine ⟨good.world, ?_, ?_⟩
      · intro u hu
        rcases List.mem_or_eq_of_mem_set hu with hu | rfl
        · exact good.thread u hu
        · exact good.thread ⟨t, past, some (.call c next)⟩ (List.mem_of_getElem? hi)
      · intro u hu q hq
        rcases List.mem_or_eq_of_mem_set hu with hu | rfl
        · exact good.leads u hu q hq
        · simp at hq
  | env e =>
    obtain ⟨hG, hr⟩ := rules.env e s.world good.world
    exact ⟨hG, fun u hu => rules.stable _ _ _ _ hr (good.thread u hu), good.leads⟩

theorem Local.exec {may : Condition R W T} {G : W → Prop} {rely : W → W → Prop}
    {L : T → Past R → W → Prop} (rules : Local m may G rely L) {s : Pool C R W T α}
    {actions : List (Action O E T)} (good : Good m G L s) (meets : RunMeets m may s actions) :
    Good m G L (s.exec m actions) :=
  exec_induction (fun _ _ => rules.step) good meets

/-- What the rules make of each exchange holds of all exchanges of a run. -/
theorem Local.runMeets {may may' : Condition R W T} {G : W → Prop} {rely : W → W → Prop}
    {L : T → Past R → W → Prop} (rules : Local m may G rely L)
    (imp : ∀ t past c next choice r w w', (m.start t).Leads past (.call c next) → G w →
      L t past w → m.perform choice w c = some (r, w') → may w ⟨t, past, c, r, w'⟩ →
      may' w ⟨t, past, c, r, w'⟩) {s : Pool C R W T α} {actions : List (Action O E T)}
    (good : Good m G L s) (meets : RunMeets m may s actions) : RunMeets m may' s actions := by
  induction actions generalizing s with
  | nil => trivial
  | cons a as ih =>
    refine ⟨?_, ih (rules.step good meets.1) meets.2⟩
    unfold Meets
    split
    next e he =>
      obtain ⟨i, choice, next, rfl, x, hafter⟩ := exchanged_spec he
      have := imp _ _ _ next choice _ _ _ (good.leads _ x.mem _ rfl) good.world
        (good.thread _ x.mem) x.performed (meets.1.at x)
      rwa [← hafter] at this
    next => trivial

/-- What every step may do to the world, a whole run may do. -/
theorem Local.exec_rely {may : Condition R W T} {G : W → Prop} {rely : W → W → Prop}
    {L : T → Past R → W → Prop} (rules : Local m may G rely L) (refl : ∀ w, rely w w)
    (trans : ∀ a b c, rely a b → rely b c → rely a c) {s : Pool C R W T α} (good : Good m G L s)
    {actions : List (Action O E T)} (meets : RunMeets m may s actions) :
    rely s.world (s.exec m actions).world := by
  refine (exec_induction (P := fun t => Good m G L t ∧ rely s.world t.world) ?_
    ⟨good, refl _⟩ meets).2
  rintro t a ⟨good, h⟩ meets
  refine ⟨rules.step good meets, trans _ _ _ h ?_⟩
  rcases step_world (m := m) t a with same | ⟨i, choice, _, _, _, _, _, x, rfl⟩ | ⟨e, he⟩
  · rw [same]
    exact refl _
  · exact (rules.act _ _ _ _ _ _ _ _ (good.leads _ x.mem _ rfl) good.world
      (good.thread _ x.mem) x.performed (meets.at x)).2.1
  · rw [he]
    exact (rules.env e _ good.world).2

theorem good_init {G : W → Prop} {L : T → Past R → W → Prop} {w : W} (h : G w) :
    Good m G L (⟨w, []⟩ : Pool C R W T α) :=
  ⟨h, fun _ hu => absurd hu (List.not_mem_nil), fun _ hu => absurd hu (List.not_mem_nil)⟩

/-- In every run from no thread, every thread follows its program. -/
theorem exec_leads {s : Pool C R W T α} (none : s.threads = []) (actions : List (Action O E T)) :
    ∀ u ∈ (s.exec m actions).threads, ∀ q, u.rest = some q → (m.start u.task).Leads u.past q := by
  have rules : Local m (fun _ _ => True) (fun _ => True) (fun _ _ => True) fun _ _ _ => True :=
    ⟨fun _ _ _ => trivial, fun _ _ _ _ _ _ _ _ _ _ _ _ _ => ⟨trivial, trivial, trivial⟩,
      fun _ _ _ => ⟨trivial, trivial⟩, fun _ _ _ _ _ _ => trivial⟩
  obtain ⟨w, threads⟩ := s
  subst none
  exact (rules.exec (good_init trivial) (runMeets_true _ _)).leads

variable (m) in
/-- The exchanges of every thread are those of its program, also once it has been killed. -/
def Follows (s : Pool C R W T α) : Prop :=
  ∀ u ∈ s.threads, ∃ q, (m.start u.task).Leads u.past q ∧ ∀ p, u.rest = some p → p = q

theorem Follows.step {s : Pool C R W T α} (h : s.Follows m) (a : Action O E T) :
    (s.step m a).Follows m := by
  intro v hv
  obtain ⟨i, hi⟩ := List.mem_iff_getElem?.mp hv
  rcases step_origin s a hi with ⟨t, rfl⟩ | ⟨u, hu, same⟩ | ⟨_, t, past, c, next, r, _, x, rfl⟩
  · exact ⟨_, .here, fun p hp => (Option.some.inj hp).symm⟩
  · obtain ⟨q, leads, rest⟩ := h u (List.mem_of_getElem? hu)
    rcases same with rfl | rfl
    · exact ⟨q, leads, rest⟩
    · exact ⟨q, leads, fun p hp => by cases hp⟩
  · obtain ⟨q, leads, rest⟩ := h _ x.mem
    obtain rfl := rest _ rfl
    exact ⟨_, leads.next r, fun p hp => (Option.some.inj hp).symm⟩

theorem follows_init {w : W} : (⟨w, []⟩ : Pool C R W T α).Follows m :=
  fun _ hu => absurd hu List.not_mem_nil

theorem exec_follows {w : W} (actions : List (Action O E T)) :
    (Pool.exec m ⟨w, []⟩ actions).Follows m :=
  exec_induction (fun _ a h _ => h.step a) follows_init (runMeets_true _ actions)

/-- An exchange that sets a mark leaves at most one thread more with it. -/
theorem Exchange.countP_le {s s' : Pool C R W T α} {i : Nat} {t : T} {past : Past R} {c : C}
    {next : R c → Prog C R α} {choice : O} {r : R c} (x : Exchange m s s' i t past c next choice r)
    (mark : T → Past R → Bool) :
    s'.threads.countP (fun u => mark u.task u.past) ≤
      s.threads.countP (fun u => mark u.task u.past) +
        if mark t (⟨c, r⟩ :: past) && !mark t past then 1 else 0 := by
  obtain ⟨hi, heq⟩ := List.getElem?_eq_some_iff.mp x.thread
  have old : (if mark t past then 1 else 0) ≤ s.threads.countP fun u => mark u.task u.past := by
    have := List.boole_getElem_le_countP (p := fun u : Thread C R T α => mark u.task u.past) hi
    rwa [heq] at this
  rw [x.threads, List.countP_set hi, heq]
  dsimp only
  generalize mark t past = before, s.threads.countP _ = n at old ⊢
  cases before <;> cases mark t (⟨c, r⟩ :: past) <;> simp at old ⊢
  omega

/-- A mark that can be set only while something is not spent, and tells that it is, is set once. -/
theorem Local.at_most_one {may : Condition R W T} {G : W → Prop} {rely : W → W → Prop}
    {L : T → Past R → W → Prop} (rules : Local m may G rely L) {mark : T → Past R → Bool}
    {spent : W → Prop} (unmarked : ∀ t, mark t [] = false)
    (known : ∀ t past w, L t past w → mark t past = true → spent w)
    (fresh : ∀ t past c next choice r w w', (m.start t).Leads past (.call c next) → G w →
      L t past w → m.perform choice w c = some (r, w') → may w ⟨t, past, c, r, w'⟩ →
      mark t (⟨c, r⟩ :: past) = true → mark t past = false → ¬ spent w)
    {s : Pool C R W T α} (good : Good m G L s)
    (init : s.threads.countP (fun u => mark u.task u.past) ≤ 1) {actions : List (Action O E T)}
    (meets : RunMeets m may s actions) :
    (s.exec m actions).threads.countP (fun u => mark u.task u.past) ≤ 1 := by
  refine (exec_induction (P := fun s => Good m G L s ∧
    s.threads.countP (fun u => mark u.task u.past) ≤ 1) ?_ ⟨good, init⟩ meets).2
  rintro s a ⟨good, count⟩ meets
  refine ⟨rules.step good meets, ?_⟩
  cases a with
  | arrive t =>
    rcases step_arrive (m := m) s t with h | h <;> rw [h]
    · exact count
    · simpa [List.countP_append, unmarked] using count
  | act i choice =>
    rcases step_act (m := m) s i choice with h | ⟨t, past, c, next, r, x⟩
    · rwa [h]
    · have le := x.countP_le mark
      split at le
      next hnew =>
        simp only [Bool.and_eq_true, Bool.not_eq_true'] at hnew
        have notSpent := fresh t past c next choice r _ _ (good.leads _ x.mem _ rfl) good.world
          (good.thread _ x.mem) x.performed (meets.at x) hnew.1 hnew.2
        have zero : s.threads.countP (fun u => mark u.task u.past) = 0 :=
          List.countP_eq_zero.mpr fun u hu hm => notSpent (known _ _ _ (good.thread u hu) hm)
        omega
      next => omega
  | kill i =>
    rcases step_kill (m := m) s i with h | ⟨t, past, c, next, hi, h⟩ <;> rw [h]
    · exact count
    · obtain ⟨hlt, heq⟩ := List.getElem?_eq_some_iff.mp hi
      have old := List.boole_getElem_le_countP (p := fun u : Thread C R T α => mark u.task u.past) hlt
      rw [List.countP_set hlt]
      rw [heq] at old ⊢
      simp only at old ⊢
      omega
  | env e => exact count

/-- What holds of a reply when it is given, and stays true of it, holds of the replies of these threads. -/
theorem replies_step_at {K : Pool C R W T α → Sigma R → Prop} {p : Nat → Prop} {s : Pool C R W T α}
    {a : Action O E T} (old : ∀ (i : Nat) u, p i → s.threads[i]? = some u → ∀ x ∈ u.past, K s x)
    (stable : ∀ x, K s x → K (s.step m a) x)
    (new : ∀ {i t past c next choice r}, p i → Exchange m s (s.step m a) i t past c next choice r →
      K (s.step m a) ⟨c, r⟩) :
    ∀ (i : Nat) u, p i → (s.step m a).threads[i]? = some u → ∀ x ∈ u.past, K (s.step m a) x := by
  intro i v own hv x hx
  rcases step_origin s a hv with ⟨t, rfl⟩ | ⟨u, hu, same⟩ | ⟨_, t, past, c, next, r, _, exchange, rfl⟩
  · exact absurd hx List.not_mem_nil
  · rcases same with rfl | rfl
    · exact stable x (old i _ own hu x hx)
    · exact stable x (old i u own hu x hx)
  · rcases List.mem_cons.mp hx with rfl | before
    · exact new own exchange
    · exact stable x (old i _ own exchange.thread x before)

theorem replies_step {K : Pool C R W T α → Sigma R → Prop} {s : Pool C R W T α} {a : Action O E T}
    (old : ∀ u ∈ s.threads, ∀ x ∈ u.past, K s x) (stable : ∀ x, K s x → K (s.step m a) x)
    (new : ∀ {i t past c next choice r}, Exchange m s (s.step m a) i t past c next choice r →
      K (s.step m a) ⟨c, r⟩) : ∀ u ∈ (s.step m a).threads, ∀ x ∈ u.past, K (s.step m a) x := by
  intro v hv
  obtain ⟨i, hi⟩ := List.mem_iff_getElem?.mp hv
  exact replies_step_at (p := fun _ => True) (fun _ u _ hu => old u (List.mem_of_getElem? hu)) stable
    (fun _ x => new x) i v trivial hi

end Pool

end Calls
