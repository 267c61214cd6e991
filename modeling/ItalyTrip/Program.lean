import Mathlib.Data.List.Basic

namespace Calls

/-- A program that makes calls of type `C`, each answered by a reply of type `R c`. -/
inductive Prog (C : Type) (R : C → Type) (α : Type) where
  | done (a : α)
  | call (c : C) (next : R c → Prog C R α)

variable {C : Type} {R : C → Type} {α β γ ε W O : Type}

/-- The calls a program has made and their replies, the most recent one first. -/
abbrev Past (R : C → Type) := List (Sigma R)

namespace Prog

def bind : Prog C R α → (α → Prog C R β) → Prog C R β
  | .done a, f => f a
  | .call c next, f => .call c fun r => (next r).bind f

instance : Monad (Prog C R) where
  pure := .done
  bind := bind

/-- The program that makes one call and returns its reply. -/
def ask (c : C) : Prog C R (R c) := .call c .done

theorem bind_done (p : Prog C R α) : p.bind .done = p := by
  induction p with
  | done a => rfl
  | call c next ih =>
    simp only [bind]
    congr
    funext r
    exact ih r

theorem bind_assoc (p : Prog C R α) (f : α → Prog C R β) (g : β → Prog C R γ) :
    (p.bind f).bind g = p.bind fun a => (f a).bind g := by
  induction p with
  | done a => rfl
  | call c next ih =>
    simp only [bind]
    congr
    funext r
    exact ih r

instance : LawfulMonad (Prog C R) :=
  LawfulMonad.mk' (Prog C R) bind_done (fun _ _ => rfl) bind_assoc

/-- Every call meets `atCall` and every result `atDone`, whatever the replies are. Both see the
calls made before. -/
def Ensures (p : Prog C R α) (atCall : Past R → C → Prop) (atDone : Past R → α → Prop)
    (past : Past R) : Prop :=
  match p with
  | .done a => atDone past a
  | .call c next => atCall past c ∧ ∀ r, (next r).Ensures atCall atDone (⟨c, r⟩ :: past)

variable {atCall : Past R → C → Prop} {past : Past R}

@[simp] theorem ensures_pure {atDone : Past R → α → Prop} {a : α} :
    (pure a : Prog C R α).Ensures atCall atDone past ↔ atDone past a := Iff.rfl

-- The type of the reply is not indexed: where `c` is known, it shows as what `R c` unfolds to.
@[simp] theorem ensures_ask {c : C} {atDone : Past R → R c → Prop} :
    @Ensures C R (no_index (R c)) (ask c) atCall atDone past ↔
      atCall past c ∧ ∀ r, atDone (⟨c, r⟩ :: past) r := Iff.rfl

@[simp] theorem ensures_bind {atDone : Past R → β → Prop} {p : Prog C R α}
    {f : α → Prog C R β} :
    (p >>= f).Ensures atCall atDone past ↔
      p.Ensures atCall (fun past a => (f a).Ensures atCall atDone past) past := by
  induction p generalizing past with
  | done a => exact Iff.rfl
  | call c next ih => exact and_congr_right fun _ => forall_congr' fun r => ih r

@[simp] theorem ensures_map {atDone : Past R → β → Prop} {p : Prog C R α} {f : α → β} :
    (f <$> p).Ensures atCall atDone past ↔
      p.Ensures atCall (fun past a => atDone past (f a)) past := by
  rw [map_eq_pure_bind, ensures_bind]
  exact Iff.rfl

theorem Ensures.mono {atCall' : Past R → C → Prop} {atDone atDone' : Past R → α → Prop}
    {p : Prog C R α} (h : p.Ensures atCall atDone past)
    (hcall : ∀ past c, atCall past c → atCall' past c)
    (hdone : ∀ past a, atDone past a → atDone' past a) : p.Ensures atCall' atDone' past := by
  induction p generalizing past with
  | done a => exact hdone past a h
  | call c next ih => exact ⟨hcall past c h.1, fun r => ih r (h.2 r)⟩

theorem Ensures.and {atCall' : Past R → C → Prop} {atDone atDone' : Past R → α → Prop}
    {p : Prog C R α} (h : p.Ensures atCall atDone past) (h' : p.Ensures atCall' atDone' past) :
    p.Ensures (fun past c => atCall past c ∧ atCall' past c)
      (fun past a => atDone past a ∧ atDone' past a) past := by
  induction p generalizing past with
  | done a => exact ⟨h, h'⟩
  | call c next ih => exact ⟨⟨h.1, h'.1⟩, fun r => ih r (h.2 r) (h'.2 r)⟩

theorem ensures_true (p : Prog C R α) :
    p.Ensures (fun _ _ => True) (fun _ _ => True) past := by
  induction p generalizing past with
  | done a => trivial
  | call c next ih => exact ⟨trivial, fun r => ih r⟩

/-- What the calls of a program keep true of its past holds throughout. -/
theorem Ensures.keeps {allowed : C → Prop} {K : Past R → Prop} {p : Prog C R α}
    (h : p.Ensures (fun _ c => allowed c) (fun _ _ => True) past)
    (keep : ∀ past c r, allowed c → K past → K (⟨c, r⟩ :: past)) (init : K past) :
    p.Ensures (fun past _ => K past) (fun past _ => K past) past := by
  induction p generalizing past with
  | done a => exact init
  | call c next ih => exact ⟨init, fun r => ih r (h.2 r) (keep past c r h.1 init)⟩

/-- `p` reaches `q` after exchanging `past` with its environment. -/
inductive Leads (p : Prog C R α) : Past R → Prog C R α → Prop
  | here : Leads p [] p
  | next {past c next} : Leads p past (.call c next) → (r : R c) →
      Leads p (⟨c, r⟩ :: past) (next r)

theorem Ensures.of_leads {atDone : Past R → α → Prop} {p q : Prog C R α}
    (h : p.Ensures atCall atDone []) (leads : p.Leads past q) : q.Ensures atCall atDone past := by
  induction leads with
  | here => exact h
  | next _ r ih => exact ih.2 r

/-- What `Ensures` says of a call that a program is about to make. -/
theorem Ensures.at_call {atDone : Past R → α → Prop} {p : Prog C R α} {c : C}
    {next : R c → Prog C R α} (h : p.Ensures atCall atDone [])
    (leads : p.Leads past (.call c next)) : atCall past c :=
  (h.of_leads leads).1

theorem Ensures.at_done {atDone : Past R → α → Prop} {p : Prog C R α} {a : α}
    (h : p.Ensures atCall atDone []) (leads : p.Leads past (.done a)) : atDone past a :=
  h.of_leads leads

/-- What the calls that are made keep true of the past holds wherever the program gets. -/
theorem Ensures.along {atDone : Past R → α → Prop} {K : Past R → Prop} {p q : Prog C R α}
    (h : p.Ensures atCall atDone []) (leads : p.Leads past q)
    (keep : ∀ past c r, atCall past c → K past → K (⟨c, r⟩ :: past)) (init : K []) : K past := by
  induction leads with
  | here => exact init
  | next before r ih => exact keep _ _ r (h.at_call before) ih

/-- A call that has been answered was once about to be made. -/
theorem Leads.earlier {p q : Prog C R α} {later past : Past R} {c : C} {r : R c}
    (leads : p.Leads (later ++ ⟨c, r⟩ :: past) q) : ∃ next, p.Leads past (.call c next) := by
  induction later generalizing q with
  | nil =>
    cases leads with
    | next before _ => exact ⟨_, before⟩
  | cons x later ih =>
    cases leads with
    | next before _ => exact ih before

theorem Leads.trans {p q q' : Prog C R α} {later past : Past R} (h : p.Leads past q)
    (h' : q.Leads later q') : p.Leads (later ++ past) q' := by
  induction h' with
  | here => exact h
  | next _ r ih => exact .next ih r

theorem leads_done {a : α} {q : Prog C R α} (h : (done a).Leads past q) : past = [] ∧ q = done a := by
  induction h with
  | here => exact ⟨rfl, rfl⟩
  | next _ _ ih => cases ih.2

/-- A program and what follows it are at a call of the program, or past its end. -/
theorem Leads.of_bind {p : Prog C R α} {f : α → Prog C R β} {q : Prog C R β}
    (h : (p.bind f).Leads past q) :
    (∃ c next, p.Leads past (.call c next) ∧ q = .call c fun r => (next r).bind f) ∨
      ∃ a before new, p.Leads before (.done a) ∧ (f a).Leads new q ∧ past = new ++ before := by
  induction h with
  | here =>
    cases p with
    | done a => exact Or.inr ⟨a, [], [], .here, .here, rfl⟩
    | call c next => exact Or.inl ⟨c, next, .here, rfl⟩
  | next _ r ih =>
    rcases ih with ⟨c, next, leads, same⟩ | ⟨a, before, new, ended, leads, rfl⟩
    · obtain ⟨rfl, same⟩ := Prog.call.inj same
      obtain rfl := eq_of_heq same
      have later := leads.next r
      cases hq : next r with
      | done a =>
        rw [hq] at later
        refine Or.inr ⟨a, _, [], later, ?_, rfl⟩
        change (f a).Leads [] ((next r).bind f)
        rw [hq]
        exact .here
      | call c' next' =>
        rw [hq] at later
        refine Or.inl ⟨c', next', later, ?_⟩
        change (next r).bind f = _
        rw [hq]
        rfl
    · exact Or.inr ⟨a, before, _, ended, leads.next r, rfl⟩

theorem Ensures.at_past {atDone : Past R → α → Prop} {p q : Prog C R α} {c : C} {r : R c}
    (h : p.Ensures atCall atDone []) (leads : p.Leads past q) (hx : ⟨c, r⟩ ∈ past) :
    ∃ before, ⟨c, r⟩ :: before <:+ past ∧ atCall before c := by
  obtain ⟨later, before, rfl⟩ := List.append_of_mem hx
  obtain ⟨_, earlier⟩ := leads.earlier
  exact ⟨before, ⟨later, rfl⟩, h.at_call earlier⟩

/-- The program run alone: no other program touches the world between its calls. -/
def run (perform : O → W → (c : C) → Option (R c × W)) :
    Prog C R α → (Nat → O) → W → Option (α × W)
  | .done a, _, w => some (a, w)
  | .call c next, choices, w =>
    match perform (choices 0) w c with
    | none => none
    | some (r, w') => (next r).run perform (fun n => choices (n + 1)) w'

variable {perform : O → W → (c : C) → Option (R c × W)}

theorem run_call {c : C} {next : R c → Prog C R α} {choices : Nat → O} {w v : W} {r : R c}
    (h : perform (choices 0) w c = some (r, v)) :
    (call c next).run perform choices w = (next r).run perform (fun n => choices (n + 1)) v := by
  simp only [run, h]

private theorem run_invariant_from {p : Prog C R α} {I : Past R → W → Prop} {q : Prog C R α}
    {choices : Nat → O} {past : Past R} {w w' : W} {a : α}
    (step : ∀ n past w c next r w', p.Leads past (.call c next) → I past w →
      perform (choices n) w c = some (r, w') → I (⟨c, r⟩ :: past) w')
    (leads : p.Leads past q) (init : I past w) (h : q.run perform choices w = some (a, w')) :
    ∃ past, p.Leads past (.done a) ∧ I past w' := by
  induction q generalizing past choices w with
  | done b =>
    obtain ⟨rfl, rfl⟩ := Prod.mk.inj (Option.some.inj h)
    exact ⟨past, leads, init⟩
  | call c next ih =>
    simp only [run] at h
    split at h
    next => simp at h
    next r w₁ hp =>
      exact ih r (fun n => step (n + 1)) (leads.next r) (step 0 past w c next r w₁ leads init hp) h

/-- A property of past and world that every call keeps holds when the program is done. -/
theorem run_invariant {p : Prog C R α} {I : Past R → W → Prop} {choices : Nat → O} {w w' : W} {a : α}
    (step : ∀ n past w c next r w', p.Leads past (.call c next) → I past w →
      perform (choices n) w c = some (r, w') → I (⟨c, r⟩ :: past) w')
    (init : I [] w) (h : p.run perform choices w = some (a, w')) :
    ∃ past, p.Leads past (.done a) ∧ I past w' :=
  run_invariant_from step .here init h

/-- The exchanges of `past`, made one after the other from `w₀`, lead to `w`. -/
def Replays (perform : O → W → (c : C) → Option (R c × W)) (allowed : O → Prop) (w₀ : W) :
    Past R → W → Prop
  | [], w => w = w₀
  | ⟨c, r⟩ :: past, w =>
    ∃ o w₁, allowed o ∧ Replays perform allowed w₀ past w₁ ∧ perform o w₁ c = some (r, w)

theorem run_replays {p : Prog C R α} {allowed : O → Prop} {choices : Nat → O} {w w' : W} {a : α}
    (hallowed : ∀ n, allowed (choices n)) (h : p.run perform choices w = some (a, w')) :
    ∃ past, p.Leads past (.done a) ∧ Replays perform allowed w past w' :=
  run_invariant (fun n _ w _ _ _ _ _ replays hp => ⟨choices n, w, hallowed n, replays, hp⟩) rfl h

theorem run_map {f : α → β} {p : Prog C R α} {choices : Nat → O} {w w' : W} {b : β}
    (h : (f <$> p).run perform choices w = some (b, w')) :
    ∃ a, p.run perform choices w = some (a, w') ∧ f a = b := by
  induction p generalizing choices w with
  | done a =>
    obtain ⟨rfl, rfl⟩ := Prod.mk.inj (Option.some.inj h)
    exact ⟨a, rfl, rfl⟩
  | call c next ih =>
    have unfolded : (f <$> Prog.call c next) = Prog.call c fun r => f <$> next r := rfl
    rw [unfolded] at h
    simp only [run] at h ⊢
    split at h
    next => cases h
    next r w₁ hp => exact ih r h

/-- The exchanges of `past`, the `n`-th of them under the `n`-th choice, lead from `w₀` to `w`. -/
def Answered (perform : O → W → (c : C) → Option (R c × W)) (choices : Nat → O) (w₀ : W) :
    Past R → W → Prop
  | [], w => w = w₀
  | ⟨c, r⟩ :: past, w =>
    ∃ w₁, Answered perform choices w₀ past w₁ ∧ perform (choices past.length) w₁ c = some (r, w)

/-- What the later exchanges keep true of the world holds at the end if it did before them. -/
theorem Answered.append {choices : Nat → O} {w₀ w : W} {later past : Past R}
    (h : Answered perform choices w₀ (later ++ past) w) {I : W → Prop}
    (keep : ∀ x ∈ later, ∀ o w w', I w → perform o w x.1 = some (x.2, w') → I w') :
    ∃ w₁, Answered perform choices w₀ past w₁ ∧ (I w₁ → I w) := by
  induction later generalizing w with
  | nil => exact ⟨w, h, id⟩
  | cons x later ih =>
    obtain ⟨w₂, before, hp⟩ := h
    obtain ⟨w₁, answered, kept⟩ := ih before fun x hx => keep x (List.mem_cons_of_mem _ hx)
    exact ⟨w₁, answered, fun init => keep x List.mem_cons_self _ _ _ (kept init) hp⟩

private theorem run_bind_from {p q : Prog C R α} {f : α → Prog C R β} {choices : Nat → O}
    {past : Past R} {w₀ w w' : W} {b : β} (leads : p.Leads past q)
    (answered : Answered perform choices w₀ past w)
    (h : (q >>= f).run perform (fun n => choices (n + past.length)) w = some (b, w')) :
    ∃ past a w₁, p.Leads past (.done a) ∧ Answered perform choices w₀ past w₁ ∧
      (f a).run perform (fun n => choices (n + past.length)) w₁ = some (b, w') := by
  induction q generalizing past w with
  | done a => exact ⟨past, a, w, leads, answered, h⟩
  | call c next ih =>
    have unfolded : (Prog.call c next >>= f) = Prog.call c fun r => next r >>= f := rfl
    rw [unfolded] at h
    simp only [run, Nat.zero_add] at h
    split at h
    next => cases h
    next r w₁ hp =>
      refine ih r (leads.next r) ⟨w, answered, hp⟩ ?_
      simpa only [List.length_cons, Nat.add_assoc, Nat.add_comm 1] using h

/-- The run of a program and what follows it is a run of that program, then of the rest. -/
theorem run_bind {p : Prog C R α} {f : α → Prog C R β} {choices : Nat → O} {w w' : W} {b : β}
    (h : (p >>= f).run perform choices w = some (b, w')) :
    ∃ past a w₁, p.Leads past (.done a) ∧ Answered perform choices w past w₁ ∧
      (f a).run perform (fun n => choices (n + past.length)) w₁ = some (b, w') :=
  run_bind_from .here rfl h

theorem run_answered {p : Prog C R α} {choices : Nat → O} {w w' : W} {a : α}
    (h : p.run perform choices w = some (a, w')) :
    ∃ past, p.Leads past (.done a) ∧ Answered perform choices w past w' := by
  rw [← bind_pure p] at h
  obtain ⟨past, a', w₁, leads, answered, done⟩ := run_bind h
  obtain ⟨rfl, rfl⟩ := Prod.mk.inj (Option.some.inj done)
  exact ⟨past, leads, answered⟩

/-- A program whose calls never block runs to its result. -/
theorem run_isSome (total : ∀ o w c, (perform o w c).isSome) (p : Prog C R α)
    (choices : Nat → O) (w : W) : (p.run perform choices w).isSome := by
  induction p generalizing choices w with
  | done a => rfl
  | call c next ih =>
    obtain ⟨⟨r, w'⟩, hp⟩ := Option.isSome_iff_exists.mp (total (choices 0) w c)
    simpa only [run, hp] using ih r _ w'

section Implement

variable {C' : Type} {R' : C' → Type}

/-- Every call of the program, carried out by a program of other calls. -/
def implement (f : (c : C) → Prog C' R' (R c)) : Prog C R α → Prog C' R' α
  | .done a => .done a
  | .call c next => (f c).bind fun r => (next r).implement f

theorem implement_bind (f : (c : C) → Prog C' R' (R c)) (p : Prog C R α) (g : α → Prog C R β) :
    (p >>= g).implement f = p.implement f >>= fun a => (g a).implement f := by
  induction p with
  | done a => rfl
  | call c next ih =>
    have tails : (fun r => (next r >>= g).implement f) =
        fun r => (next r).implement f >>= fun a => (g a).implement f := funext ih
    exact (congrArg (f c).bind tails).trans (bind_assoc (f c) _ _).symm

theorem implement_ask (f : (c : C) → Prog C' R' (R c)) (c : C) : (ask c).implement f = f c :=
  bind_done (f c)

/-- What holds of all calls that carry a call out holds of all calls. -/
theorem ensures_implement {f : (c : C) → Prog C' R' (R c)} {P : Past R' → C' → Prop}
    (h : ∀ c past, (f c).Ensures P (fun _ _ => True) past) (p : Prog C R α) (past : Past R') :
    (p.implement f).Ensures P (fun _ _ => True) past := by
  induction p generalizing past with
  | done a => trivial
  | call c next ih =>
    refine ensures_bind.mpr ((h c past).mono (fun _ _ hc => hc) fun past' r _ => ih r past')

/-- `past` is what it took to carry out these calls, one after the other, with these replies. -/
inductive CarriedOut (f : (c : C) → Prog C' R' (R c)) : Past R → Past R' → Prop
  | nil : CarriedOut f [] []
  | cons {calls : Past R} {past new : Past R'} {c : C} {r : R c} : CarriedOut f calls past →
      (f c).Leads new (.done r) → CarriedOut f (⟨c, r⟩ :: calls) (new ++ past)

theorem CarriedOut.concat {f : (c : C) → Prog C' R' (R c)} {calls : Past R} {past new : Past R'} {c : C}
    {r : R c} (h : CarriedOut f calls past) (first : (f c).Leads new (.done r)) :
    CarriedOut f (calls ++ [⟨c, r⟩]) (past ++ new) := by
  induction h with
  | nil => simpa using CarriedOut.cons .nil first
  | cons _ leads ih => simpa using CarriedOut.cons ih leads

/-- A program whose calls are carried out has carried out some of them, and is at the next one. -/
theorem Leads.of_implement {f : (c : C) → Prog C' R' (R c)} {p : Prog C R α} {past : Past R'} {c' : C'}
    {next' : R' c' → Prog C' R' α} (h : (p.implement f).Leads past (.call c' next')) :
    ∃ calls c next before new rest, p.Leads calls (.call c next) ∧ CarriedOut f calls before ∧
      (f c).Leads new (.call c' rest) ∧ past = new ++ before := by
  induction p generalizing past with
  | done a => cases (leads_done h).2
  | call c next ih =>
    rcases h.of_bind with ⟨_, rest, leads, same⟩ | ⟨r, before, new, first, leads, rfl⟩
    · cases same
      exact ⟨[], c, next, [], past, rest, .here, .nil, leads, (List.append_nil past).symm⟩
    · obtain ⟨calls, c₁, next₁, before₁, new₁, rest, at_call, carried, carrying, rfl⟩ := ih r leads
      have one : (call c next).Leads [⟨c, r⟩] (next r) := Leads.here.next r
      exact ⟨calls ++ [⟨c, r⟩], c₁, next₁, before₁ ++ before, new₁, rest, one.trans at_call,
        carried.concat first, carrying, List.append_assoc _ _ _⟩

end Implement

end Prog

section Exceptions

def request (c : C) : ExceptT ε (Prog C R) (R c) := ExceptT.lift (Prog.ask c)

def throwIf (condition : Prop) [Decidable condition] (e : ε) : ExceptT ε (Prog C R) Unit :=
  if condition then throw e else pure ()

/-- A result or, through `f`, its error. -/
def orThrow (x : Except γ α) (f : γ → ε) : ExceptT ε (Prog C R) α :=
  match x with
  | .ok a => pure a
  | .error c => throw (f c)

def someOrThrow (x : Option α) (e : ε) : ExceptT ε (Prog C R) α :=
  match x with
  | some a => pure a
  | none => throw e

/-- The result of a program whether it ended early or not: `try` and `finally` go on from it. -/
def attempt (x : ExceptT ε (Prog C R) α) : ExceptT ε (Prog C R) (Except ε α) := ExceptT.lift x.run

theorem attempt_orThrow (x : ExceptT ε (Prog C R) α) : (attempt x >>= fun r => orThrow r id) = x := by
  refine ExceptT.ext ?_
  rw [ExceptT.run_bind, attempt, ExceptT.run_lift, bind_map_left]
  conv => rhs; rw [← bind_pure x.run]
  congr
  funext r
  cases r <;> rfl

theorem forall_except {P : Except ε α → Prop} :
    (∀ r, P r) ↔ (∀ e, P (.error e)) ∧ ∀ a, P (.ok a) := by
  constructor
  · exact fun h => ⟨fun e => h (.error e), fun a => h (.ok a)⟩
  · rintro ⟨he, ha⟩ (e | a)
    · exact he e
    · exact ha a

theorem except_bind_ok {x : Except ε α} {f : α → Except ε β} {b : β} (h : (x >>= f) = .ok b) :
    ∃ a, x = .ok a ∧ f a = .ok b := by
  cases x with
  | error e => cases h
  | ok a => exact ⟨a, rfl, h⟩

theorem mapError_ok {x : Except ε α} {f : ε → γ} {a : α} (h : x.mapError f = .ok a) : x = .ok a := by
  cases x with
  | error e => cases h
  | ok b =>
    cases h
    rfl

variable {atCall : Past R → C → Prop} {past : Past R}

/-- The steps of a program that may end early: the rest runs only after a normal result. -/
@[simp] theorem ensures_run_bind {atDone : Past R → Except ε β → Prop}
    {x : ExceptT ε (Prog C R) α} {f : α → ExceptT ε (Prog C R) β} :
    (x >>= f).run.Ensures atCall atDone past ↔
      x.run.Ensures atCall (fun past r => match r with
        | .ok a => (f a).run.Ensures atCall atDone past
        | .error e => atDone past (.error e)) past := by
  rw [ExceptT.run_bind, Prog.ensures_bind]
  constructor
  all_goals
    intro h
    refine h.mono (fun _ _ hc => hc) fun past r hr => ?_
    cases r <;> exact hr

@[simp] theorem ensures_run_pure {atDone : Past R → Except ε α → Prop} {a : α} :
    (pure a : ExceptT ε (Prog C R) α).run.Ensures atCall atDone past ↔
      atDone past (.ok a) := Iff.rfl

@[simp] theorem ensures_run_throw {atDone : Past R → Except ε α → Prop} {e : ε} :
    (throw e : ExceptT ε (Prog C R) α).run.Ensures atCall atDone past ↔
      atDone past (.error e) := Iff.rfl

@[simp] theorem ensures_run_ite {condition : Prop} [Decidable condition]
    {x y : ExceptT ε (Prog C R) α} {atDone : Past R → Except ε α → Prop} :
    (if condition then x else y).run.Ensures atCall atDone past ↔
      (condition → x.run.Ensures atCall atDone past) ∧
      (¬ condition → y.run.Ensures atCall atDone past) := by
  split
  next h => simp [h]
  next h => simp [h]

@[simp] theorem ensures_request {c : C} {atDone : Past R → Except ε (R c) → Prop} :
    @Prog.Ensures C R (no_index (Except ε (R c)))
      (@ExceptT.run ε (Prog C R) (no_index (R c)) (request c)) atCall atDone past ↔
      atCall past c ∧ ∀ r, atDone (⟨c, r⟩ :: past) (.ok r) := Iff.rfl

@[simp] theorem ensures_attempt {x : ExceptT ε (Prog C R) α}
    {atDone : Past R → Except ε (Except ε α) → Prop} :
    (attempt x).run.Ensures atCall atDone past ↔
      x.run.Ensures atCall (fun past r => atDone past (.ok r)) past := by
  rw [attempt, ExceptT.run_lift, Prog.ensures_map]

@[simp] theorem ensures_throwIf {condition : Prop} [Decidable condition] {e : ε}
    {atDone : Past R → Except ε Unit → Prop} :
    (throwIf condition e).run.Ensures atCall atDone past ↔
      (condition → atDone past (.error e)) ∧ (¬ condition → atDone past (.ok ())) := by
  simp only [throwIf, ensures_run_ite, ensures_run_throw, ensures_run_pure]

@[simp] theorem ensures_orThrow {x : Except γ α} {f : γ → ε}
    {atDone : Past R → Except ε α → Prop} :
    (orThrow x f).run.Ensures atCall atDone past ↔
      (∀ c, x = .error c → atDone past (.error (f c))) ∧ (∀ a, x = .ok a → atDone past (.ok a)) := by
  cases x with
  | ok a => simp [orThrow]
  | error c => simp [orThrow]

@[simp] theorem ensures_someOrThrow {x : Option α} {e : ε}
    {atDone : Past R → Except ε α → Prop} :
    (someOrThrow x e).run.Ensures atCall atDone past ↔
      (x = none → atDone past (.error e)) ∧ (∀ a, x = some a → atDone past (.ok a)) := by
  cases x with
  | some a => simp [someOrThrow]
  | none => simp [someOrThrow]

section Implementing

variable {C' : Type} {R' : C' → Type} (f : (c : C) → Prog C' R' (R c))

/-- The same for a program that may end early. -/
def implementing (x : ExceptT ε (Prog C R) α) : ExceptT ε (Prog C' R') α :=
  ExceptT.mk (x.run.implement f)

@[simp] theorem implementing_pure {a : α} :
    implementing f (pure a : ExceptT ε (Prog C R) α) = pure a := rfl

@[simp] theorem implementing_throw {e : ε} :
    implementing f (throw e : ExceptT ε (Prog C R) α) = throw e := rfl

@[simp] theorem implementing_bind {x : ExceptT ε (Prog C R) α} {g : α → ExceptT ε (Prog C R) β} :
    implementing f (x >>= g) = implementing f x >>= fun a => implementing f (g a) := by
  refine ExceptT.ext ?_
  simp only [implementing, ExceptT.run_bind, ExceptT.run_mk, Prog.implement_bind]
  congr
  funext r
  cases r <;> rfl

@[simp] theorem implementing_request {c : C} :
    implementing f (request c : ExceptT ε (Prog C R) (R c)) = ExceptT.lift (f c) := by
  refine ExceptT.ext ?_
  have lifted : (request c : ExceptT ε (Prog C R) (R c)).run =
      Prog.ask c >>= fun r => pure (.ok r) := map_eq_pure_bind _ _
  simp only [implementing, ExceptT.run_mk, lifted, Prog.implement_bind, Prog.implement_ask]
  exact (map_eq_pure_bind _ _).symm

@[simp] theorem implementing_ite {condition : Prop} [Decidable condition]
    {x y : ExceptT ε (Prog C R) α} :
    implementing f (if condition then x else y) =
      if condition then implementing f x else implementing f y := by
  split <;> rfl

@[simp] theorem implementing_orThrow {x : Except γ α} {g : γ → ε} :
    implementing f (orThrow x g : ExceptT ε (Prog C R) α) = orThrow x g := by
  cases x <;> rfl

@[simp] theorem implementing_attempt {x : ExceptT ε (Prog C R) α} :
    implementing f (attempt x) = attempt (implementing f x) := by
  refine ExceptT.ext ?_
  have lifted : (attempt x).run = x.run >>= fun r => pure (.ok r) := map_eq_pure_bind _ _
  simp only [implementing, ExceptT.run_mk, lifted, Prog.implement_bind]
  exact (map_eq_pure_bind _ _).symm

end Implementing

end Exceptions

end Calls
