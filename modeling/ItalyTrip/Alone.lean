import ItalyTrip.Program

namespace Calls

variable {C : Type} {R : C → Type} {α β γ ε W O L : Type}

namespace Prog

/-- Run alone from `w`, the program ends with what meets `post`, whichever of the allowed choices answer
its calls. -/
def Achieves (perform : O → W → (c : C) → Option (R c × W)) (allowed : O → Prop) :
    Prog C R α → (α → W → Prop) → W → Prop
  | .done a, post, w => post a w
  | .call c next, post, w => ∀ o, allowed o →
    match perform o w c with
    | some (r, w') => (next r).Achieves perform allowed post w'
    | none => False

variable {perform : O → W → (c : C) → Option (R c × W)} {allowed : O → Prop} {w : W}

theorem achieves_call {c : C} {next : R c → Prog C R α} {post : α → W → Prop} :
    (call c next).Achieves perform allowed post w ↔ ∀ o, allowed o → ∃ r w',
      perform o w c = some (r, w') ∧ (next r).Achieves perform allowed post w' := by
  refine forall_congr' fun o => imp_congr_right fun _ => ?_
  cases hp : perform o w c with
  | none => simp
  | some x =>
    obtain ⟨r, v⟩ := x
    simp

@[simp] theorem achieves_bind {p : Prog C R α} {f : α → Prog C R β} {post : β → W → Prop} :
    (p >>= f).Achieves perform allowed post w ↔
      p.Achieves perform allowed (fun a w => (f a).Achieves perform allowed post w) w := by
  induction p generalizing w with
  | done a => exact Iff.rfl
  | call c next ih =>
    have unfolded : (Prog.call c next >>= f) = Prog.call c fun r => next r >>= f := rfl
    rw [unfolded, achieves_call, achieves_call]
    simp only [ih]

@[simp] theorem achieves_map {p : Prog C R α} {f : α → β} {post : β → W → Prop} :
    (f <$> p).Achieves perform allowed post w ↔
      p.Achieves perform allowed (fun a w => post (f a) w) w := by
  rw [map_eq_pure_bind, achieves_bind]
  exact Iff.rfl

theorem Achieves.mono {p : Prog C R α} {post post' : α → W → Prop}
    (h : p.Achieves perform allowed post w) (imp : ∀ a w, post a w → post' a w) :
    p.Achieves perform allowed post' w := by
  induction p generalizing w with
  | done a => exact imp a w h
  | call c next ih =>
    rw [achieves_call] at h ⊢
    intro o ho
    obtain ⟨r, w', hp, after⟩ := h o ho
    exact ⟨r, w', hp, ih r after⟩

/-- A program that achieves its postcondition runs to an end that meets it. -/
theorem Achieves.run {p : Prog C R α} {post : α → W → Prop} (h : p.Achieves perform allowed post w)
    {choices : Nat → O} (may : ∀ n, allowed (choices n)) :
    ∃ a w', p.run perform choices w = some (a, w') ∧ post a w' := by
  induction p generalizing w choices with
  | done a => exact ⟨a, w, rfl, h⟩
  | call c next ih =>
    rw [achieves_call] at h
    obtain ⟨r, w', hp, after⟩ := h (choices 0) (may 0)
    obtain ⟨a, v, done, hpost⟩ := ih r after fun n => may (n + 1)
    exact ⟨a, v, by rw [run_call hp, done], hpost⟩

/-- The world with notes of the calls that are made, the latest first. -/
def noting (note : W → C → List L) (perform : O → W → (c : C) → Option (R c × W)) (o : O)
    (v : W × List L) (c : C) : Option (R c × (W × List L)) :=
  match perform o v.1 c with
  | some (r, w) => some (r, w, note v.1 c ++ v.2)
  | none => none

/-- To take notes changes nothing. -/
theorem run_noting {note : W → C → List L} {p : Prog C R α} {choices : Nat → O} {v v' : W × List L}
    {a : α} (h : p.run (noting note perform) choices v = some (a, v')) :
    p.run perform choices v.1 = some (a, v'.1) := by
  induction p generalizing v choices with
  | done b =>
    obtain ⟨rfl, rfl⟩ := Prod.mk.inj (Option.some.inj h)
    rfl
  | call c next ih =>
    simp only [Prog.run, noting] at h ⊢
    cases hp : perform (choices 0) v.1 c with
    | none =>
      rw [hp] at h
      cases h
    | some x =>
      rw [hp] at h
      exact ih x.1 h

end Prog

section Exceptions

variable {perform : O → W → (c : C) → Option (R c × W)} {allowed : O → Prop} {w : W}

/-- The rest of a program that may end early runs only after a normal result. -/
@[simp] theorem achieves_run_bind {x : ExceptT ε (Prog C R) α} {f : α → ExceptT ε (Prog C R) β}
    {post : Except ε β → W → Prop} :
    (x >>= f).run.Achieves perform allowed post w ↔
      x.run.Achieves perform allowed (fun r w => match r with
        | .ok a => (f a).run.Achieves perform allowed post w
        | .error e => post (.error e) w) w := by
  rw [ExceptT.run_bind, Prog.achieves_bind]
  constructor
  all_goals
    intro h
    refine h.mono fun r w hr => ?_
    cases r <;> exact hr

theorem achieves_request {c : C} {post : Except ε (R c) → W → Prop} :
    (request c : ExceptT ε (Prog C R) (R c)).run.Achieves perform allowed post w ↔
      ∀ o, allowed o → ∃ r w', perform o w c = some (r, w') ∧ post (.ok r) w' :=
  Prog.achieves_call

@[simp] theorem achieves_attempt {x : ExceptT ε (Prog C R) α}
    {post : Except ε (Except ε α) → W → Prop} :
    (attempt x).run.Achieves perform allowed post w ↔
      x.run.Achieves perform allowed (fun r w => post (.ok r) w) w := by
  rw [attempt, ExceptT.run_lift, Prog.achieves_map]

@[simp] theorem achieves_orThrow {x : Except γ α} {f : γ → ε} {post : Except ε α → W → Prop} :
    (orThrow x f : ExceptT ε (Prog C R) α).run.Achieves perform allowed post w ↔
      post (x.mapError f) w := by
  cases x <;> exact Iff.rfl

theorem achieves_throwIf {condition : Prop} [Decidable condition] {e : ε} {post : Except ε Unit → W → Prop}
    (passes : ¬ condition) :
    (throwIf condition e : ExceptT ε (Prog C R) Unit).run.Achieves perform allowed post w ↔
      post (.ok ()) w := by
  rw [throwIf, if_neg passes]
  exact Iff.rfl

end Exceptions

end Calls
