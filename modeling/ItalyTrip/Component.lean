import Mathlib.Data.List.Basic

namespace Components

/-- An effect of a component with the states `S`: what it depends on, and what it takes for such
dependencies. The number of the setup tells what is taken twice for the same ones apart. -/
structure Effect (S D R : Type) where
  deps : S → D
  take : Nat → D → Option R

/-- A place for a component: its state while it is mounted, the setups of the effect so far, what the effect
has taken and not given back, and what it has given back. -/
structure Site (S R : Type) where
  screen : Option S
  rounds : Nat
  taken : Option R
  returned : List R

namespace Site

variable {S R : Type}

def empty : Site S R := ⟨none, 0, none, []⟩

/-- All that the effect has ever taken. -/
def ever (x : Site S R) : List R := x.taken.toList ++ x.returned

end Site

namespace Effect

variable {S D R : Type} (e : Effect S D R)

def setup (round : Nat) (screen : Option S) : Option R := screen.bind fun s => e.take round (e.deps s)

/-- The effect has what its dependencies ask for. -/
def Holds (x : Site S R) : Prop := x.taken = e.setup x.rounds x.screen

variable {e} {x : Site S R} {screen : Option S}

theorem holds_empty : e.Holds .empty := rfl

theorem setup_congr {round : Nat} {screen' : Option S} (same : screen.map e.deps = screen'.map e.deps) :
    e.setup round screen = e.setup round screen' := by
  have through : ∀ screen : Option S, e.setup round screen = (screen.map e.deps).bind (e.take round) := by
    intro screen
    cases screen <;> rfl
  rw [through, through, same]

variable [DecidableEq D]

/-- The site shows `screen` from now on. Where the dependencies change, mounting and unmounting included, the
effect gives back what it has and takes anew. -/
def commit (e : Effect S D R) (x : Site S R) (screen : Option S) : Site S R :=
  if screen.map e.deps = x.screen.map e.deps then { x with screen := screen }
  else ⟨screen, x.rounds + 1, e.setup (x.rounds + 1) screen, x.ever⟩

@[simp] theorem commit_screen : (e.commit x screen).screen = screen := by
  unfold commit
  split <;> rfl

theorem commit_same (same : screen.map e.deps = x.screen.map e.deps) :
    e.commit x screen = { x with screen := screen } := if_pos same

theorem commit_changed (changed : screen.map e.deps ≠ x.screen.map e.deps) :
    e.commit x screen = ⟨screen, x.rounds + 1, e.setup (x.rounds + 1) screen, x.ever⟩ := if_neg changed

theorem Holds.commit (h : e.Holds x) : e.Holds (e.commit x screen) := by
  by_cases same : screen.map e.deps = x.screen.map e.deps
  · rw [commit_same same]
    exact h.trans (setup_congr same.symm)
  · rw [commit_changed same]
    rfl

/-- A commit takes what a change of the dependencies asks for, and drops nothing. -/
theorem commit_ever : (e.commit x screen).ever =
    (if screen.map e.deps = x.screen.map e.deps then none else e.setup (x.rounds + 1) screen).toList ++
      x.ever := by
  by_cases same : screen.map e.deps = x.screen.map e.deps
  · rw [commit_same same, if_pos same]
    rfl
  · rw [commit_changed same, if_neg same]
    rfl

theorem commit_takes {r : R} (changed : screen.map e.deps ≠ x.screen.map e.deps)
    (asks : e.setup (x.rounds + 1) screen = some r) : (e.commit x screen).ever = r :: x.ever := by
  rw [commit_ever, if_neg changed, asks]
  rfl

/-- Nothing is taken where the new state asks for nothing or has the old dependencies. -/
theorem commit_idle (idle : screen.map e.deps = x.screen.map e.deps ∨ e.setup (x.rounds + 1) screen = none) :
    (e.commit x screen).ever = x.ever := by
  rw [commit_ever]
  split
  next => rfl
  next changed => rw [idle.resolve_left changed]; rfl

end Effect

end Components
