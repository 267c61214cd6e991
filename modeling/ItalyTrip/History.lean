import Mathlib.Data.List.Chain

/-- A session history: the entry one is at, those behind it and those ahead of it, the nearest first. -/
structure History (E : Type) where
  behind : List E
  current : E
  ahead : List E

namespace History

variable {E : Type}

/-- All entries, the oldest first. -/
def entries (h : History E) : List E := h.behind.reverse ++ h.current :: h.ahead

/-- A new entry takes the place of all that is ahead. -/
def push (h : History E) (e : E) : History E := ⟨h.current :: h.behind, e, []⟩

def replace (h : History E) (e : E) : History E := { h with current := e }

def back (h : History E) : History E :=
  match h.behind with
  | [] => h
  | e :: rest => ⟨rest, e, h.current :: h.ahead⟩

def forward (h : History E) : History E :=
  match h.ahead with
  | [] => h
  | e :: rest => ⟨h.current :: h.behind, e, rest⟩

variable {h : History E} {e : E}

@[simp] theorem entries_back : h.back.entries = h.entries := by
  unfold back
  split
  · rfl
  next hb => simp [entries, hb]

@[simp] theorem entries_forward : h.forward.entries = h.entries := by
  unfold forward
  split
  · rfl
  next ha => simp [entries, ha]

/-- The oldest entry is one that may come first, and each other one may come after the one behind it. -/
structure Linked (first : E → Prop) (R : E → E → Prop) (h : History E) : Prop where
  oldest : ∀ e ∈ h.entries.head?, first e
  chain : h.entries.IsChain R

variable {first : E → Prop} {R : E → E → Prop}

theorem Linked.back (linked : h.Linked first R) : h.back.Linked first R :=
  ⟨by simpa using linked.oldest, by simpa using linked.chain⟩

theorem Linked.forward (linked : h.Linked first R) : h.forward.Linked first R :=
  ⟨by simpa using linked.oldest, by simpa using linked.chain⟩

/-- The entry behind, as far as there is one, lets the current one come after it. -/
theorem Linked.current (linked : h.Linked first R) :
    match h.behind with
    | [] => first h.current
    | b :: _ => R b h.current := by
  obtain ⟨oldest, chain⟩ := linked
  unfold entries at oldest chain
  cases hb : h.behind with
  | nil => exact oldest _ (by simp [hb])
  | cons b rest =>
    rw [hb, List.reverse_cons, List.append_assoc] at chain
    exact (List.isChain_append_cons_cons.mp chain).2.1

theorem Linked.push (linked : h.Linked first R) (after : R h.current e) : (h.push e).Linked first R := by
  obtain ⟨oldest, chain⟩ := linked
  have same : (h.push e).entries = h.behind.reverse ++ h.current :: [e] := by
    simp [History.push, entries]
  refine ⟨?_, ?_⟩
  · rw [same]
    unfold entries at oldest
    cases hb : h.behind.reverse with
    | nil => simpa [hb] using oldest
    | cons b rest => simpa [hb] using oldest
  · rw [same, List.isChain_append_cons_cons]
    exact ⟨(List.isChain_split.mp chain).1, after, List.isChain_singleton e⟩

/-- An entry may be replaced by one that may stand where it stands. -/
theorem Linked.replace (linked : h.Linked first R) (alone : first h.current → first e)
    (below : ∀ b, R b h.current → R b e) (above : ∀ a, R h.current a → R e a) :
    (h.replace e).Linked first R := by
  have before := linked.current
  obtain ⟨oldest, chain⟩ := linked
  obtain ⟨behind, current, ahead⟩ := h
  obtain ⟨upTo, onwards⟩ := List.isChain_split.mp chain
  refine ⟨?_, List.isChain_split.mpr ⟨?_, ?_⟩⟩
  · cases behind with
    | nil => simpa [entries, History.replace] using alone before
    | cons b rest => simpa [entries, History.replace] using oldest
  · cases behind with
    | nil => exact List.isChain_singleton e
    | cons b rest =>
      simp only [List.reverse_cons, List.append_assoc, List.singleton_append] at upTo
      obtain ⟨early, -, -⟩ := List.isChain_append_cons_cons.mp upTo
      simp only [History.replace, List.reverse_cons, List.append_assoc, List.singleton_append]
      exact List.isChain_append_cons_cons.mpr ⟨early, below b before, List.isChain_singleton e⟩
  · cases ahead with
    | nil => exact List.isChain_singleton e
    | cons a rest =>
      obtain ⟨next, later⟩ := List.isChain_cons_cons.mp onwards
      exact List.isChain_cons_cons.mpr ⟨above a next, later⟩

end History
