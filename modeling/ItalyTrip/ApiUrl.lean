import ItalyTrip.Origins

namespace ItalyTrip.Env

theorem rdropWhile_append {α : Type} {p : α → Bool} (xs : List α) {ys : List α}
    (h : ys.rdropWhile p ≠ []) : (xs ++ ys).rdropWhile p = xs ++ ys.rdropWhile p := by
  have left : ys.reverse.dropWhile p ≠ [] := fun none => h (congrArg List.reverse none)
  rw [List.rdropWhile, List.reverse_append, List.dropWhile_append, if_neg (by simpa using left),
    List.reverse_append, List.reverse_reverse]
  rfl

def IsScheme (s : List Char) : Prop :=
  ∃ c rest, s = c :: rest ∧ c.isAlpha = true ∧ ∀ d ∈ rest, isSchemeChar d = true

/-- What follows the scheme of a value, all of it where it has none. -/
def afterScheme (value : List Char) : List Char :=
  if hasScheme value then (value.dropWhile isSchemeChar).drop 3 else value

/-- A base that a path can be put behind. -/
structure Usable (url : String) : Prop where
  absolute : ∃ scheme rest, IsScheme scheme ∧ url.toList = scheme ++ ':' :: '/' :: '/' :: rest ∧
    rest ≠ [] ∧ rest.head? ≠ some '/'
  unslashed : url.toList.getLast? ≠ some '/'
  stable : normalizeApiUrl (some url) = url

theorem isSchemeChar_letter {c : Char} (h : c.isAlpha = true) : isSchemeChar c = true := by
  simp [isSchemeChar, Char.isAlphanum, h]

theorem IsScheme.chars {s : List Char} (h : IsScheme s) : ∀ c ∈ s, isSchemeChar c = true := by
  obtain ⟨c, rest, rfl, letter, passes⟩ := h
  intro d mem
  rcases List.mem_cons.mp mem with rfl | mem
  · exact isSchemeChar_letter letter
  · exact passes d mem

theorem IsScheme.colonless {s : List Char} (h : IsScheme s) : ':' ∉ s := fun mem =>
  absurd (h.chars ':' mem) (by decide)

theorem IsScheme.slashless {s : List Char} (h : IsScheme s) : '/' ∉ s := fun mem =>
  absurd (h.chars '/' mem) (by decide)

theorem hasScheme_split {value : List Char} (h : hasScheme value = true) :
    ∃ scheme, IsScheme scheme ∧ value = scheme ++ ':' :: '/' :: '/' :: afterScheme value := by
  cases value with
  | nil => exact absurd h Bool.false_ne_true
  | cons c value =>
    have found := h
    rw [hasScheme, Bool.and_eq_true, List.isPrefixOf_iff_prefix] at found
    obtain ⟨letter, rest, split⟩ := found
    have behind : afterScheme (c :: value) = rest := by
      rw [afterScheme, if_pos h, List.dropWhile_cons_of_pos (isSchemeChar_letter letter), ← split]
      rfl
    refine ⟨c :: value.takeWhile isSchemeChar, ⟨c, _, rfl, letter, ?_⟩, ?_⟩
    · exact fun d mem => List.mem_takeWhile_imp mem
    · have parts : value.takeWhile isSchemeChar ++ ("://".toList ++ rest) = value := by
        rw [split, List.takeWhile_append_dropWhile]
      rw [behind, List.cons_append]
      exact congrArg (c :: ·) parts.symm

theorem hasScheme_of_split {scheme rest : List Char} (h : IsScheme scheme) :
    hasScheme (scheme ++ ':' :: '/' :: '/' :: rest) = true := by
  obtain ⟨c, more, rfl, letter, passes⟩ := h
  have stop : isSchemeChar ':' = false := by decide
  have dropped : more.dropWhile isSchemeChar = [] := List.dropWhile_eq_nil_iff.mpr passes
  rw [List.cons_append, hasScheme, letter, dropWhile_stop stop, dropped]
  rfl

theorem schemeFor_scheme (hostPort : List Char) : IsScheme (schemeFor hostPort).toList := by
  unfold schemeFor
  dsimp only
  split
  · exact ⟨'h', "ttp".toList, rfl, by decide, forall_chars (by decide)⟩
  · exact ⟨'h', "ttps".toList, rfl, by decide, forall_chars (by decide)⟩

/-- A value that is not blank is given a scheme if it has none, and stripped. -/
theorem normalizeApiUrl_split {value : String} (h : trim value.toList ≠ []) :
    ∃ scheme, IsScheme scheme ∧ (normalizeApiUrl (some value)).toList =
      (scheme ++ ':' :: '/' :: '/' :: afterScheme (trim value.toList)).rdropWhile (· == '/') := by
  by_cases has : hasScheme (trim value.toList) = true
  · obtain ⟨scheme, valid, split⟩ := hasScheme_split has
    refine ⟨scheme, valid, ?_⟩
    rw [← split]
    simp [normalizeApiUrl, prepended, h, has]
  · refine ⟨_, schemeFor_scheme (trim value.toList), ?_⟩
    rw [afterScheme, if_neg has]
    simp [normalizeApiUrl, prepended, h, has]

/-- What is left of the value behind its scheme. -/
def remainder (value : List Char) : List Char :=
  (afterScheme (trim value)).rdropWhile (· == '/')

theorem strip_behind (scheme rest : List Char) :
    (scheme ++ ':' :: '/' :: '/' :: rest).rdropWhile (· == '/') =
      if rest.rdropWhile (· == '/') = [] then scheme ++ [':']
      else scheme ++ ':' :: '/' :: '/' :: rest.rdropWhile (· == '/') := by
  have colon : (':' == '/') = false := by decide
  rw [rdropWhile_stop (p := (· == '/')) colon]
  by_cases empty : rest.rdropWhile (· == '/') = []
  · have slashes : ('/' :: '/' :: rest).rdropWhile (· == '/') = [] := by
      rw [List.rdropWhile_eq_nil_iff] at empty ⊢
      simpa using empty
    rw [slashes, if_pos empty]
  · rw [if_neg empty]
    exact congrArg (scheme ++ ':' :: ·) (rdropWhile_append ['/', '/'] empty)

/-- Only white space at the end of the base is lost when it is normalized again. -/
theorem normalizeApiUrl_again {url : String} {scheme rest : List Char} (valid : IsScheme scheme)
    (split : url.toList = scheme ++ ':' :: '/' :: '/' :: rest) :
    (normalizeApiUrl (some url)).toList =
      (scheme ++ ':' :: '/' :: '/' :: rest.rdropWhile isWhiteSpace).rdropWhile (· == '/') := by
  have slash : isWhiteSpace '/' = false := by decide
  have front : url.toList.dropWhile isWhiteSpace = url.toList := by
    obtain ⟨c, more, rfl, letter, -⟩ := valid
    have visible : isWhiteSpace c = false := by
      have range := letter_range letter
      have low : c.toNat ∉ [0x09, 0x0a, 0x0b, 0x0c, 0x0d, 0x20, 0xa0, 0x1680, 0x2028, 0x2029, 0x202f,
          0x205f, 0x3000, 0xfeff] := by
        simp only [List.mem_cons, List.not_mem_nil, or_false]
        omega
      rw [isWhiteSpace, decide_eq_false low, decide_eq_false (by omega : ¬0x2000 ≤ c.toNat)]
      rfl
    rw [split, List.cons_append, List.dropWhile_cons_of_neg (by simp [visible])]
  have trimmed : trim url.toList = scheme ++ ':' :: '/' :: '/' :: rest.rdropWhile isWhiteSpace := by
    have shape : scheme ++ ':' :: '/' :: '/' :: rest = (scheme ++ [':', '/']) ++ '/' :: rest := by simp
    rw [trim, front, split, shape, rdropWhile_stop slash]
    simp
  have has : hasScheme (trim url.toList) = true := trimmed ▸ hasScheme_of_split valid
  have present : trim url.toList ≠ [] := by
    rw [trimmed]
    simp
  rw [← trimmed]
  simp [normalizeApiUrl, prepended, present, has]

theorem default_usable : Usable DEFAULT_API_URL := by
  refine ⟨⟨"http".toList, "localhost:8080".toList, ?_, by decide, by decide, by decide⟩, by decide,
    by decide⟩
  exact ⟨'h', "ttp".toList, rfl, by decide, forall_chars (by decide)⟩

/-- The base is usable exactly when the value is blank or what it says behind the scheme begins and
ends as a host with a path does. -/
theorem normalizeApiUrl_usable_iff (value : String) : Usable (normalizeApiUrl (some value)) ↔
    trim value.toList = [] ∨ remainder value.toList ≠ [] ∧ (remainder value.toList).head? ≠ some '/' ∧
      (remainder value.toList).rdropWhile isWhiteSpace = remainder value.toList := by
  by_cases blank : trim value.toList = []
  · have fallback : normalizeApiUrl (some value) = DEFAULT_API_URL := by
      simp [normalizeApiUrl, blank]
    rw [fallback]
    exact ⟨fun _ => Or.inl blank, fun _ => default_usable⟩
  rw [or_iff_right blank]
  obtain ⟨scheme, valid, split⟩ := normalizeApiUrl_split blank
  rw [strip_behind] at split
  change _ = if remainder value.toList = [] then scheme ++ [':']
    else scheme ++ ':' :: '/' :: '/' :: remainder value.toList at split
  by_cases empty : remainder value.toList = []
  · rw [if_pos empty] at split
    constructor
    · intro usable
      obtain ⟨scheme', rest, -, found, -⟩ := usable.absolute
      have slash : '/' ∈ scheme ++ [':'] := by
        rw [← split, found]
        simp
      rcases List.mem_append.mp slash with inside | last
      · exact absurd inside valid.slashless
      · exact absurd last (by decide)
    · exact fun ⟨nonempty, _⟩ => absurd empty nonempty
  rw [if_neg empty] at split
  have again := normalizeApiUrl_again valid split
  constructor
  · intro usable
    obtain ⟨scheme', rest, valid', found, -, rooted⟩ := usable.absolute
    rw [split] at found
    obtain ⟨-, same⟩ := append_stop_inj valid.colonless valid'.colonless found
    have behind : remainder value.toList = rest := by simpa using same
    refine ⟨empty, behind ▸ rooted, ?_⟩
    have kept : (remainder value.toList).rdropWhile isWhiteSpace <+: remainder value.toList :=
      List.rdropWhile_prefix _ _
    apply kept.eq_of_length_le
    have whole := congrArg (List.length ∘ String.toList) usable.stable
    have stripped : (normalizeApiUrl (some (normalizeApiUrl (some value)))).toList <+:
        scheme ++ ':' :: '/' :: '/' :: (remainder value.toList).rdropWhile isWhiteSpace := by
      rw [again]
      exact List.rdropWhile_prefix _ _
    have bound := stripped.length_le
    simp only [Function.comp_apply, split, List.length_append, List.length_cons] at whole bound
    omega
  · rintro ⟨-, rooted, visible⟩
    have closed : (remainder value.toList).rdropWhile (· == '/') = remainder value.toList :=
      List.rdropWhile_idempotent _ _
    refine ⟨⟨scheme, _, valid, split, empty, rooted⟩, ?_, ?_⟩
    · have shape : scheme ++ ':' :: '/' :: '/' :: remainder value.toList =
          (scheme ++ [':', '/', '/']) ++ remainder value.toList := by simp
      rw [split, shape, List.getLast?_append_of_ne_nil _ empty, List.getLast?_eq_some_getLast empty,
        ne_eq, Option.some.injEq]
      simpa using List.rdropWhile_eq_self_iff.mp closed empty
    · apply String.toList_inj.mp
      rw [again, visible, strip_behind, closed, if_neg empty, split]

/-- A bare scheme passes for a value and leaves a base that is relative to the page's own origin. -/
theorem bare_scheme_unusable : normalizeApiUrl (some "https://") = "https:" ∧
    ¬Usable (normalizeApiUrl (some "https://")) := by
  have bare : normalizeApiUrl (some "https://") = "https:" := by decide
  refine ⟨bare, fun usable => ?_⟩
  obtain ⟨scheme, rest, -, found, -⟩ := usable.absolute
  have slash : '/' ∈ "https:".toList := by
    rw [← bare, found]
    simp
  exact absurd slash (by decide)

end ItalyTrip.Env
