import ItalyTrip.Pool

namespace Calls

variable {C : Type} {R : C → Type} {G W O E T α β ε : Type}

/-- The discipline by which the tasks of one engine share a state `G`: what the state says of the reply to a
call of a segment, what an exchange makes of the state, what holds where a call is made, what holds of the
state between segments, and what is known of it where an awaited reply arrives. -/
structure Discipline (C : Type) (R : C → Type) (G : Type) where
  sync : C → Bool
  answers : (c : C) → R c → G → Prop
  change : Past R → (c : C) → R c → G → G
  allowed : Past R → C → G → Prop
  rest : G → Prop
  rely : Past R → (c : C) → R c → G → Prop

variable (d : Discipline C R G)

namespace Prog

/-- A program keeps the discipline: within a segment the state is its own, and what it awaits may arrive in
any state between segments. -/
def Keeps (post : Past R → α → G → Prop) : Prog C R α → Past R → G → Prop
  | .done a, past, g => post past a g
  | .call c next, past, g => d.allowed past c g ∧
    (d.sync c = true → ∀ r, d.answers c r g →
      (next r).Keeps post (⟨c, r⟩ :: past) (d.change past c r g)) ∧
    (d.sync c = false → d.rest g ∧ ∀ g' r, d.rest g' → d.rely past c r g' →
      (next r).Keeps post (⟨c, r⟩ :: past) (d.change past c r g'))

variable {d}

theorem Keeps.mono {post post' : Past R → α → G → Prop} {p : Prog C R α} {past : Past R} {g : G}
    (h : p.Keeps d post past g) (weaker : ∀ past a g, post past a g → post' past a g) :
    p.Keeps d post' past g := by
  induction p generalizing past g with
  | done a => exact weaker past a g h
  | call c next ih =>
    obtain ⟨allowed, within, across⟩ := h
    refine ⟨allowed, fun sync r answers => ih r (within sync r answers), fun waits => ?_⟩
    exact ⟨(across waits).1, fun g' r between rely => ih r ((across waits).2 g' r between rely)⟩

theorem keeps_bind {post : Past R → β → G → Prop} {p : Prog C R α} {f : α → Prog C R β} {past : Past R}
    {g : G} (h : p.Keeps d (fun past a g => (f a).Keeps d post past g) past g) :
    (p >>= f).Keeps d post past g := by
  induction p generalizing past g with
  | done a => exact h
  | call c next ih =>
    obtain ⟨allowed, within, across⟩ := h
    refine ⟨allowed, fun sync r answers => ih r (within sync r answers), fun waits => ?_⟩
    exact ⟨(across waits).1, fun g' r between rely => ih r ((across waits).2 g' r between rely)⟩

end Prog

section Exceptions

variable {d}

theorem keeps_run_bind {post : Past R → Except ε β → G → Prop} {x : ExceptT ε (Prog C R) α}
    {f : α → ExceptT ε (Prog C R) β} {past : Past R} {g : G}
    (h : x.run.Keeps d (fun past r g => match r with
      | .ok a => (f a).run.Keeps d post past g
      | .error e => post past (.error e) g) past g) : (x >>= f).run.Keeps d post past g := by
  rw [ExceptT.run_bind]
  refine Prog.keeps_bind (h.mono fun past r g hr => ?_)
  cases r <;> exact hr

theorem keeps_request {c : C} {post : Past R → Except ε (R c) → G → Prop} {past : Past R} {g : G}
    (allowed : d.allowed past c g)
    (within : d.sync c = true → ∀ r, d.answers c r g →
      post (⟨c, r⟩ :: past) (.ok r) (d.change past c r g))
    (across : d.sync c = false → d.rest g ∧ ∀ g' r, d.rest g' → d.rely past c r g' →
      post (⟨c, r⟩ :: past) (.ok r) (d.change past c r g')) :
    (request c : ExceptT ε (Prog C R) (R c)).run.Keeps d post past g := ⟨allowed, within, across⟩

theorem keeps_orThrow {γ : Type} {x : Except γ α} {f : γ → ε} {post : Past R → Except ε α → G → Prop}
    {past : Past R} {g : G} (h : post past (x.mapError f) g) :
    (orThrow x f : ExceptT ε (Prog C R) α).run.Keeps d post past g := by
  cases x <;> exact h

theorem keeps_attempt {x : ExceptT ε (Prog C R) α} {post : Past R → Except ε (Except ε α) → G → Prop}
    {past : Past R} {g : G} (h : x.run.Keeps d (fun past r g => post past (.ok r) g) past g) :
    (attempt x).run.Keeps d post past g := by
  have lifted : (attempt x).run = x.run >>= fun r => pure (.ok r) := map_eq_pure_bind _ _
  rw [lifted]
  exact Prog.keeps_bind h

end Exceptions

/-- The threads of an engine keep the discipline: one that is in a segment goes on from this state, any other
from whatever state it will find, and this state is one between segments if no thread is in one. -/
structure Segmented (m : Machine C R W O E T α) (n : Nat) (threads : List (Thread C R T α)) (g : G) :
    Prop where
  moving : ∀ u ∈ threads, m.engine u.task = n → u.midSegment m = true → ∀ p, u.rest = some p →
    p.Keeps d (fun _ _ g => d.rest g) u.past g
  waiting : ∀ u ∈ threads, m.engine u.task = n → u.midSegment m = false → ∀ c next,
    u.rest = some (.call c next) → ∀ g' r, d.rest g' → d.rely u.past c r g' →
      (next r).Keeps d (fun _ _ g => d.rest g) (⟨c, r⟩ :: u.past) (d.change u.past c r g')
  resting : (∀ u ∈ threads, m.engine u.task = n → u.midSegment m = false) → d.rest g

variable {d} {m : Machine C R W O E T α} {n : Nat} {threads : List (Thread C R T α)} {g g' : G}

/-- A thread that keeps the discipline from here on, and is the only one of its engine that may be in a
segment. -/
theorem Segmented.of_thread (same : m.sync = d.sync) {u : Thread C R T α} {p : Prog C R α}
    (hu : u ∈ threads) (own : m.engine u.task = n) (rest : u.rest = some p)
    (keeps : p.Keeps d (fun _ _ g => d.rest g) u.past g')
    (others : ∀ v ∈ threads, v = u ∨ (m.engine v.task = n → v.midSegment m = false ∧ ∀ c next,
      v.rest = some (.call c next) → ∀ g' r, d.rest g' → d.rely v.past c r g' →
        (next r).Keeps d (fun _ _ g => d.rest g) (⟨c, r⟩ :: v.past) (d.change v.past c r g'))) :
    Segmented d m n threads g' := by
  have mid : ∀ c next, u.rest = some (.call c next) → u.midSegment m = d.sync c := by
    intro c next hp
    rw [← same]
    simp [Thread.midSegment, Thread.pending, hp]
  refine ⟨fun v hv hown moves q hq => ?_, fun v hv hown waits c next hq => ?_, fun none => ?_⟩
  · rcases others v hv with rfl | other
    · obtain rfl := Option.some.inj (rest.symm.trans hq)
      exact keeps
    · rw [(other hown).1] at moves
      cases moves
  · rcases others v hv with rfl | other
    · obtain rfl := Option.some.inj (rest.symm.trans hq)
      exact (keeps.2.2 ((mid c next rest).symm.trans waits)).2
    · exact (other hown).2 c next hq
  · have waits := none u hu own
    cases p with
    | done a => exact keeps
    | call c next =>
      exact (keeps.2.2 ((mid c next rest).symm.trans waits)).1

/-- What a thread of the engine exchanges carries the discipline on. -/
theorem Segmented.exchange {s s' : Pool C R W T α} {i : Nat} {t : T} {past : Past R} {c : C}
    {next : R c → Prog C R α} {choice : O} {r : R c} (h : Segmented d m n s.threads g)
    (same : m.sync = d.sync) (x : Pool.Exchange m s s' i t past c next choice r) (own : m.engine t = n)
    (answers : d.sync c = true → d.answers c r g) (rely : d.sync c = false → d.rely past c r g) :
    Segmented d m n s'.threads (d.change past c r g) ∧
      (next r).Keeps d (fun _ _ g => d.rest g) (⟨c, r⟩ :: past) (d.change past c r g) := by
  have mid : (⟨t, past, some (.call c next)⟩ : Thread C R T α).midSegment m = d.sync c := by
    rw [← same]
    rfl
  have keeps : (next r).Keeps d (fun _ _ g => d.rest g) (⟨c, r⟩ :: past) (d.change past c r g) := by
    cases sync : d.sync c with
    | true => exact (h.moving _ x.mem own (mid.trans sync) _ rfl).2.1 sync r (answers sync)
    | false =>
      have between : d.rest g := by
        refine h.resting fun u hu hown => ?_
        obtain ⟨j, hj⟩ := List.mem_iff_getElem?.mp hu
        by_cases here : j = i
        · subst here
          obtain rfl := Option.some.inj (hj.symm.trans x.thread)
          exact mid.trans sync
        · exact x.between hj here (hown.trans own.symm)
      exact h.waiting _ x.mem own (mid.trans sync) c next rfl g r between (rely sync)
  refine ⟨Segmented.of_thread same x.mem_after own rfl keeps fun v hv => ?_, keeps⟩
  obtain ⟨j, hj⟩ := List.mem_iff_getElem?.mp hv
  rcases x.at hj with ⟨_, here⟩ | ⟨ne, before⟩
  · exact Or.inl here
  · refine Or.inr fun hown => ?_
    have waits := x.between before ne (hown.trans own.symm)
    exact ⟨waits, h.waiting v (List.mem_of_getElem? before) hown waits⟩

/-- A task arrives between segments, in any state there can be between them. -/
theorem Segmented.arrive (h : Segmented d m n threads g) (same : m.sync = d.sync) {t : T}
    (free : Pool.free m threads t = true) (own : m.engine t = n)
    (starts : (m.start t).Keeps d (fun _ _ g => d.rest g) [] g') :
    Segmented d m n (threads ++ [⟨t, [], some (m.start t)⟩]) g' := by
  refine Segmented.of_thread same (List.mem_append_right _ (List.mem_singleton_self _)) own rfl starts ?_
  intro v hv
  rcases List.mem_append.mp hv with old | new
  · refine Or.inr fun hown => ?_
    have waits : v.midSegment m = false := by
      simpa [hown, own] using List.all_eq_true.mp free v old
    exact ⟨waits, h.waiting v old hown waits⟩
  · exact Or.inl (List.mem_singleton.mp new)

theorem Segmented.congr {threads' : List (Thread C R T α)} (h : Segmented d m n threads g)
    (same : ∀ u : Thread C R T α, m.engine u.task = n → (u ∈ threads' ↔ u ∈ threads)) :
    Segmented d m n threads' g :=
  ⟨fun u hu own => h.moving u ((same u own).mp hu) own,
    fun u hu own => h.waiting u ((same u own).mp hu) own,
    fun none => h.resting fun u hu own => none u ((same u own).mpr hu) own⟩

/-- The threads of other engines do not matter. -/
theorem Segmented.set {i : Nat} {u v : Thread C R T α} (h : Segmented d m n threads g)
    (hi : threads[i]? = some u) (before : m.engine u.task ≠ n) (after : m.engine v.task ≠ n) :
    Segmented d m n (threads.set i v) g := by
  refine h.congr fun x own => ⟨fun hx => ?_, fun hx => ?_⟩
  · rcases List.mem_or_eq_of_mem_set hx with old | rfl
    · exact old
    · exact absurd own after
  · obtain ⟨j, hj⟩ := List.mem_iff_getElem?.mp hx
    have ne : i ≠ j := by
      rintro rfl
      obtain rfl := Option.some.inj (hj.symm.trans hi)
      exact before own
    exact List.mem_iff_getElem?.mpr ⟨j, by rwa [List.getElem?_set_ne ne]⟩

theorem Segmented.apart {s s' : Pool C R W T α} {i : Nat} {t : T} {past : Past R} {c : C}
    {next : R c → Prog C R α} {choice : O} {r : R c} (h : Segmented d m n s.threads g)
    (x : Pool.Exchange m s s' i t past c next choice r) (other : m.engine t ≠ n) :
    Segmented d m n s'.threads g := by
  rw [x.threads]
  exact h.set x.thread other other

theorem Segmented.arrive_apart (h : Segmented d m n threads g) {t : T} (other : m.engine t ≠ n) :
    Segmented d m n (threads ++ [⟨t, [], some (m.start t)⟩]) g := by
  refine h.congr fun u own => ⟨fun hu => ?_, fun hu => List.mem_append_left _ hu⟩
  rcases List.mem_append.mp hu with old | new
  · exact old
  · obtain rfl := List.mem_singleton.mp new
    exact absurd own other

theorem segmented_init (rest : d.rest g) : Segmented d m n [] g :=
  ⟨fun _ hu => absurd hu List.not_mem_nil, fun _ hu => absurd hu List.not_mem_nil, fun _ => rest⟩

end Calls
