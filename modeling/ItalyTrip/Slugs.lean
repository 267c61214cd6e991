import ItalyTrip.Disposition

namespace ItalyTrip.Photos

/-- What `slugify` keeps of a name. -/
def kept (r : Char) : Bool := decide ('a' ≤ r ∧ r ≤ 'z' ∨ '0' ≤ r ∧ r ≤ '9')

/-- `[a-z0-9]+(-[a-z0-9]+)*`, by its last character. -/
inductive Slug : List Char → Prop
  | first {r} (letter : kept r) : Slug [r]
  | next {s r} (slug : Slug s) (letter : kept r) : Slug (s ++ [r])
  | word {s r} (slug : Slug s) (letter : kept r) : Slug (s ++ ['-', r])

/-- What the loop has written, and whether a dash came last or would. -/
inductive Writing : List Char × Bool → Prop
  | start : Writing ([], true)
  | word {s} (slug : Slug s) : Writing (s, false)
  | dash {s} (slug : Slug s) : Writing (s ++ ['-'], true)

theorem slugStep_kept {state : List Char × Bool} {r : Char} (h : kept r) :
    slugStep state r = (state.1 ++ [r], false) := if_pos (of_decide_eq_true h)

theorem slugStep_other {state : List Char × Bool} {r : Char} (h : ¬kept r) :
    slugStep state r = if state.2 then state else (state.1 ++ ['-'], true) :=
  if_neg fun letter => h (decide_eq_true letter)

theorem slugStep_writing {state : List Char × Bool} (h : Writing state) (r : Char) :
    Writing (slugStep state r) := by
  by_cases letter : kept r
  · rw [slugStep_kept letter]
    cases h with
    | start => exact .word (.first letter)
    | word slug => exact .word (.next slug letter)
    | dash slug =>
      rw [List.append_assoc]
      exact .word (.word slug letter)
  · rw [slugStep_other letter]
    cases h with
    | start => exact .start
    | word slug => exact .dash slug
    | dash slug => exact .dash slug

theorem foldl_writing (name : List Char) {state : List Char × Bool} (h : Writing state) :
    Writing (name.foldl slugStep state) := by
  induction name generalizing state with
  | nil => exact h
  | cons r name ih => exact ih (slugStep_writing h r)

theorem slugStep_filter (state : List Char × Bool) (r : Char) :
    (slugStep state r).1.filter kept = state.1.filter kept ++ [r].filter kept := by
  by_cases letter : kept r
  · rw [slugStep_kept letter, List.filter_append]
  · have dropped : [r].filter kept = [] := by simp [letter]
    have dash : ['-'].filter kept = [] := by decide
    rw [slugStep_other letter, dropped, List.append_nil]
    split
    · rfl
    · rw [List.filter_append, dash, List.append_nil]

/-- The loop keeps the letters in order. -/
theorem foldl_filter (name : List Char) (state : List Char × Bool) :
    (name.foldl slugStep state).1.filter kept = state.1.filter kept ++ name.filter kept := by
  induction name generalizing state with
  | nil => exact (List.append_nil _).symm
  | cons r name ih =>
    rw [List.foldl_cons, ih, slugStep_filter, List.append_assoc, ← List.filter_append]
    rfl

theorem Slug.last {s : List Char} (h : Slug s) : ∃ front r, s = front ++ [r] ∧ kept r := by
  cases h with
  | first letter => exact ⟨[], _, rfl, letter⟩
  | next slug letter => exact ⟨_, _, rfl, letter⟩
  | word slug letter => exact ⟨_, _, List.append_cons .., letter⟩

theorem Slug.nonempty {s : List Char} (h : Slug s) : s ≠ [] := by
  obtain ⟨front, r, rfl, -⟩ := h.last
  exact List.append_ne_nil_of_right_ne_nil front (List.cons_ne_nil r [])

theorem Slug.undashed {s : List Char} (h : Slug s) : s.getLast? ≠ some '-' := by
  obtain ⟨front, r, rfl, letter⟩ := h.last
  rw [List.getLast?_concat]
  rintro ⟨rfl⟩
  exact absurd letter (by decide)

theorem Slug.chars {s : List Char} (h : Slug s) : ∀ r ∈ s, kept r ∨ r = '-' := by
  induction h with
  | first letter => simpa using Or.inl letter
  | next slug letter ih =>
    intro r mem
    rcases List.mem_append.mp mem with before | last
    · exact ih r before
    · exact Or.inl (List.mem_singleton.mp last ▸ letter)
  | word slug letter ih =>
    intro r mem
    rcases List.mem_append.mp mem with before | last
    · exact ih r before
    · rcases List.mem_pair.mp last with rfl | rfl
      · exact Or.inr rfl
      · exact Or.inl letter

/-- What is returned of what the loop has written. -/
theorem slugify_writing {name : String} {state : List Char × Bool}
    (written : (name.toList.map toLower).foldl slugStep ([], true) = state) (h : Writing state) :
    state.1 = [] ∧ slugify name = "photos" ∨
      ∃ s, Slug s ∧ slugify name = String.ofList s ∧ state.1.filter kept = s.filter kept := by
  cases h with
  | start =>
    left
    refine ⟨rfl, ?_⟩
    simp [slugify, written]
  | word slug =>
    right
    refine ⟨_, slug, ?_, rfl⟩
    simp only [slugify, written, if_neg slug.undashed, if_neg slug.nonempty]
  | dash slug =>
    right
    refine ⟨_, slug, ?_, ?_⟩
    · simp only [slugify, written, List.getLast?_concat, if_true, List.dropLast_concat,
        if_neg slug.nonempty]
    · rw [List.filter_append]
      exact List.append_nil _

theorem slug_photos : Slug "photos".toList :=
  .next (.next (.next (.next (.next (.first (r := 'p') (by decide)) (r := 'h') (by decide))
    (r := 'o') (by decide)) (r := 't') (by decide)) (r := 'o') (by decide)) (r := 's') (by decide)

theorem slugify_slug (name : String) : Slug (slugify name).toList := by
  rcases slugify_writing rfl (foldl_writing (name.toList.map toLower) .start) with
    ⟨-, eq⟩ | ⟨s, slug, eq, -⟩
  · rw [eq]
    exact slug_photos
  · rw [eq, String.toList_ofList]
    exact slug

theorem kept_range {r : Char} (h : kept r) :
    0x61 ≤ r.toNat ∧ r.toNat ≤ 0x7a ∨ 0x30 ≤ r.toNat ∧ r.toNat ≤ 0x39 := of_decide_eq_true h

theorem toLower_kept {r : Char} (h : kept r) : toLower r = r := by
  have range := kept_range h
  have upper : ¬('A'.val ≤ r.val ∧ r.val ≤ 'Z'.val) := by
    rintro ⟨low, high⟩
    have low' : 0x41 ≤ r.toNat := low
    have high' : r.toNat ≤ 0x5a := high
    omega
  rw [toLower, if_neg (by omega), if_neg (by omega)]
  unfold Char.toLower
  exact dif_neg upper

theorem toLower_slug {s : List Char} (h : Slug s) : s.map toLower = s := by
  have same : ∀ r ∈ s, toLower r = r := by
    intro r mem
    rcases h.chars r mem with letter | rfl
    · exact toLower_kept letter
    · rfl
  rw [List.map_congr_left same, List.map_id']

theorem foldl_slug {s : List Char} (h : Slug s) : s.foldl slugStep ([], true) = (s, false) := by
  have dash : ¬kept '-' := by decide
  induction h with
  | first letter => exact slugStep_kept letter
  | next slug letter ih => rw [List.foldl_append, ih]; exact slugStep_kept letter
  | word slug letter ih =>
    rw [List.foldl_append, ih, List.foldl_cons, slugStep_other dash, List.foldl_cons,
      slugStep_kept letter]
    simp

theorem slugify_of_slug {name : String} (h : Slug name.toList) : slugify name = name := by
  have written : (name.toList.map toLower).foldl slugStep ([], true) = (name.toList, false) := by
    rw [toLower_slug h, foldl_slug h]
  simp only [slugify, written, if_neg h.undashed, if_neg h.nonempty, String.ofList_toList]

theorem slugify_letters (name : String) :
    if (name.toList.map toLower).filter kept = [] then slugify name = "photos"
    else (slugify name).toList.filter kept = (name.toList.map toLower).filter kept := by
  have letters : ((name.toList.map toLower).foldl slugStep ([], true)).1.filter kept =
      (name.toList.map toLower).filter kept := foldl_filter _ _
  rcases slugify_writing rfl (foldl_writing (name.toList.map toLower) .start) with
    ⟨empty, eq⟩ | ⟨s, slug, eq, same⟩
  · rw [empty, List.filter_nil] at letters
    rw [if_pos letters.symm]
    exact eq
  · rw [letters] at same
    obtain ⟨front, r, rfl, letter⟩ := slug.last
    have some_letter : (front ++ [r]).filter kept ≠ [] := by
      rw [List.filter_append, List.filter_cons_of_pos letter]
      exact List.append_ne_nil_of_right_ne_nil _ (List.cons_ne_nil r _)
    rw [same, if_neg some_letter, eq, String.toList_ofList]

theorem ordinary_kept {r : Char} (h : kept r) : Ordinary r := by
  have range := kept_range h
  refine ⟨⟨⟨by omega, by omega, ?_, ?_⟩, ?_⟩, by omega, by omega⟩ <;> rintro rfl <;> contradiction

theorem zipFilename_ordinary (name : String) : ∀ r ∈ (zipFilename name).toList, Ordinary r := by
  intro r mem
  rw [zipFilename, String.toList_append] at mem
  rcases List.mem_append.mp mem with front | suffix
  · rcases (slugify_slug name).chars r front with letter | rfl
    · exact ordinary_kept letter
    · decide
  · exact forall_chars (p := Ordinary) (by decide) r suffix

/-- The slug is in the grammar, its own slug and made of the name's letters, and the header carries
the archive's name as it is. -/
theorem slugify_canonical (table : Char → Bool) (packages : Packages) (name : String) :
    Slug (slugify name).toList ∧ slugify (slugify name) = slugify name ∧
    (if (name.toList.map toLower).filter kept = [] then slugify name = "photos"
      else (slugify name).toList.filter kept = (name.toList.map toLower).filter kept) ∧
    contentDisposition { packages with quote := Strconv.quote table } (zipFilename name) =
      "attachment; filename=\"" ++ zipFilename name ++ "\"" := by
  have long : 2 < (zipFilename name).toList.length := by
    rw [zipFilename, String.toList_append, List.length_append]
    exact Nat.lt_add_left _ (by decide)
  have longer : ∀ s : List Char, s.length ≤ 2 → (zipFilename name).toList ≠ s := by
    rintro s short rfl
    omega
  refine ⟨slugify_slug name, slugify_of_slug (slugify_slug name), slugify_letters name, ?_⟩
  exact contentDisposition_ordinary (zipFilename_ordinary name) (longer _ (by decide))
    (longer _ (by decide)) (longer _ (by decide))

end ItalyTrip.Photos
