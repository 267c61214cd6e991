import ItalyTrip.Filenames
import Mathlib.Tactic.IntervalCases

namespace ItalyTrip

namespace Strconv

/-- `strconv.IsPrint`; what lies above Latin-1 is looked up in a table. -/
def isPrint (table : Char → Bool) (r : Char) : Bool :=
  if r.toNat ≤ 0xff then
    0x20 ≤ r.toNat && r.toNat < 0x7f || 0xa1 ≤ r.toNat && r.toNat ≠ 0xad
  else table r

def lowerhex (width n : Nat) : List Char :=
  (List.range width).reverse.map fun i => Nat.digitChar (n / 16 ^ i % 16)

def appendEscapedRune (table : Char → Bool) (r : Char) : List Char :=
  if r = '"' ∨ r = '\\' then ['\\', r]
  else if isPrint table r then [r]
  else if r.toNat = 0x07 then ['\\', 'a']
  else if r.toNat = 0x08 then ['\\', 'b']
  else if r.toNat = 0x0c then ['\\', 'f']
  else if r.toNat = 0x0a then ['\\', 'n']
  else if r.toNat = 0x0d then ['\\', 'r']
  else if r.toNat = 0x09 then ['\\', 't']
  else if r.toNat = 0x0b then ['\\', 'v']
  else if r.toNat < 0x20 ∨ r.toNat = 0x7f then '\\' :: 'x' :: lowerhex 2 r.toNat
  else if r.toNat < 0x10000 then '\\' :: 'u' :: lowerhex 4 r.toNat
  else '\\' :: 'U' :: lowerhex 8 r.toNat

/-- `strconv.Quote`, which the verb `%q` prints a string with. -/
def quote (table : Char → Bool) (s : String) : String :=
  String.ofList ('"' :: s.toList.flatMap (appendEscapedRune table) ++ ['"'])

example : quote (fun _ => false) "a\"b\u200b" = "\"a\\\"b\\u200b\"" := by decide

end Strconv

/-- The bytes of a string. -/
def utf8 (s : List Char) : Bytes := s.flatMap String.utf8EncodeChar

/-- What is left of a string once `skip` bytes of it are read, rune by rune; a byte that begins no
encoding is U+FFFD. -/
def runesFrom : Nat → Bytes → List Char
  | _, [] => []
  | skip + 1, _ :: rest => runesFrom skip rest
  | 0, b :: rest =>
    match (b :: rest).toByteArray.utf8DecodeChar? 0 with
    | some r => r :: runesFrom (r.utf8Size - 1) rest
    | none => '\ufffd' :: runesFrom 0 rest

/-- What `range` yields over a string. -/
def runes (s : Bytes) : List Char := runesFrom 0 s

/-- `ContentDisposition` of a filename that need not be UTF-8: `strings.TrimSpace` and `path.Base`
handle a stray byte as they do U+FFFD, and `strings.Map` turns it into that. -/
def contentDispositionOf (packages : Packages) (filename : Bytes) : String :=
  contentDisposition packages (String.ofList (runes filename))

theorem runesFrom_append {front rest : Bytes} :
    runesFrom front.length (front ++ rest) = runesFrom 0 rest := by
  induction front with
  | nil => rfl
  | cons b front ih => exact ih

theorem runes_utf8 (s : List Char) : runes (utf8 s) = s := by
  induction s with
  | nil => rfl
  | cons r s ih =>
    have decodes : (utf8 (r :: s)).toByteArray.utf8DecodeChar? 0 = some r := by
      rw [utf8, List.flatMap_cons, List.toByteArray_append]
      exact ByteArray.utf8DecodeChar?_utf8EncodeChar_append
    have size := String.length_utf8EncodeChar r
    rw [utf8, List.flatMap_cons] at decodes ⊢
    cases encoded : String.utf8EncodeChar r with
    | nil => exact absurd encoded String.utf8EncodeChar_ne_nil
    | cons b front =>
      rw [encoded] at decodes size
      have width : r.utf8Size - 1 = front.length := by
        rw [← size]
        rfl
      rw [List.cons_append] at decodes ⊢
      rw [runes, runesFrom, decodes]
      exact congrArg (r :: ·) (by rw [width, runesFrom_append]; exact ih)

theorem contentDispositionOf_utf8 (packages : Packages) (filename : String) :
    contentDispositionOf packages (utf8 filename.toList) = contentDisposition packages filename := by
  rw [contentDispositionOf, runes_utf8, String.ofList_toList]

theorem or_high {b high : UInt8} (h : 0x80 ≤ high.toNat) : 0x80 ≤ (b ||| high).toNat := by
  rw [UInt8.toNat_or]
  exact h.trans Nat.right_le_or

/-- An ASCII character is its own byte, and no byte of another one is ASCII. -/
theorem utf8EncodeChar_byte {r : Char} {b : UInt8} (h : b ∈ String.utf8EncodeChar r) :
    b.toNat = r.toNat ∧ r.toNat < 0x80 ∨ 0x80 ≤ b.toNat ∧ 0x80 ≤ r.toNat := by
  by_cases ascii : r.val ≤ 0x7f
  · rw [String.utf8EncodeChar_eq_singleton (Char.utf8Size_eq_one_iff.mpr ascii),
      List.mem_singleton] at h
    have small : r.toNat ≤ 0x7f := ascii
    left
    rw [h, UInt32.toNat_toUInt8]
    constructor
    · exact Nat.mod_eq_of_lt (by change r.toNat < _; omega)
    · omega
  · right
    have large : 0x80 ≤ r.toNat := Nat.not_le.mp ascii
    refine ⟨?_, large⟩
    have several : r.utf8Size ≠ 1 := fun one => ascii (Char.utf8Size_eq_one_iff.mp one)
    have least := r.utf8Size_pos
    have most := r.utf8Size_le_four
    have sizes : r.utf8Size = 2 ∨ r.utf8Size = 3 ∨ r.utf8Size = 4 := by omega
    rcases sizes with two | three | four
    · rw [String.utf8EncodeChar_eq_cons_cons two] at h
      simp only [List.mem_cons, List.not_mem_nil, or_false] at h
      rcases h with rfl | rfl <;> exact or_high (by decide)
    · rw [String.utf8EncodeChar_eq_cons_cons_cons three] at h
      simp only [List.mem_cons, List.not_mem_nil, or_false] at h
      rcases h with rfl | rfl | rfl <;> exact or_high (by decide)
    · rw [String.utf8EncodeChar_eq_cons_cons_cons_cons four] at h
      simp only [List.mem_cons, List.not_mem_nil, or_false] at h
      rcases h with rfl | rfl | rfl | rfl <;> exact or_high (by decide)

theorem utf8_ascii {s : List Char} {b : UInt8} (h : b ∈ utf8 s) (ascii : b.toNat < 0x80) :
    ∃ r ∈ s, r.toNat = b.toNat := by
  obtain ⟨r, mem, byte⟩ := List.mem_flatMap.mp h
  rcases utf8EncodeChar_byte byte with ⟨eq, small⟩ | ⟨high, large⟩
  · exact ⟨r, mem, eq.symm⟩
  · omega

theorem utf8_append (s t : List Char) : utf8 (s ++ t) = utf8 s ++ utf8 t := List.flatMap_append

theorem utf8_inj {s t : List Char} (h : utf8 s = utf8 t) : s = t := by
  have read := congrArg runes h
  rwa [runes_utf8, runes_utf8] at read

/-- Characters that leave a quoted header value whole. -/
def Sane (r : Char) : Prop := 0x20 ≤ r.toNat ∧ r.toNat ≠ 0x7f ∧ r ≠ '"' ∧ r ≠ '/'

/-- They also start no escape. -/
def Verbatim (r : Char) : Prop := Sane r ∧ r ≠ '\\'

instance (r : Char) : Decidable (Verbatim r) :=
  inferInstanceAs (Decidable ((_ ∧ _ ∧ _ ∧ _) ∧ _))

theorem sanitise_plain (r : Char) : Verbatim (sanitise r) := by
  unfold sanitise
  split
  next bad => decide
  next good =>
    rw [not_or, not_or, not_or, not_or, not_lt] at good
    obtain ⟨control, double, backslash, slash, delete⟩ := good
    exact ⟨⟨control, delete, double, slash⟩, backslash⟩

theorem utf8_sane {s : List Char} (h : ∀ r ∈ s, Sane r) {b : UInt8} (mem : b ∈ utf8 s) :
    0x20 ≤ b ∧ b ≠ 0x7f ∧ b ≠ 0x22 ∧ b ≠ 0x2f := by
  have from_rune : ∀ n < 0x80, b.toNat = n → ∃ r, Sane r ∧ r.toNat = n := by
    intro n small eq
    obtain ⟨r, in_s, rune⟩ := utf8_ascii mem (by omega)
    exact ⟨r, h r in_s, rune.trans eq⟩
  have is_rune : ∀ {r c : Char}, r.toNat = c.toNat → r = c := Char.ext ∘ UInt32.toNat_inj.mp
  refine ⟨?_, ?_, ?_, ?_⟩
  · by_contra low
    have bound : b.toNat < 0x20 := by
      rw [UInt8.le_iff_toNat_le] at low
      exact not_le.mp low
    obtain ⟨r, sane, eq⟩ := from_rune _ (by omega) rfl
    have := sane.1
    omega
  · rintro rfl
    obtain ⟨r, sane, eq⟩ := from_rune 0x7f (by decide) rfl
    exact sane.2.1 eq
  · rintro rfl
    obtain ⟨r, sane, eq⟩ := from_rune 0x22 (by decide) rfl
    exact sane.2.2.1 (is_rune eq)
  · rintro rfl
    obtain ⟨r, sane, eq⟩ := from_rune 0x2f (by decide) rfl
    exact sane.2.2.2 (is_rune eq)

theorem utf8_plain {s : List Char} (h : ∀ r ∈ s, Verbatim r) {b : UInt8} (mem : b ∈ utf8 s) :
    b ≠ 0x22 ∧ b ≠ 0x5c := by
  refine ⟨(utf8_sane (fun r hr => (h r hr).1) mem).2.2.1, ?_⟩
  rintro rfl
  obtain ⟨r, in_s, rune⟩ := utf8_ascii mem (by decide)
  exact (h r in_s).2 (Char.ext (UInt32.toNat_inj.mp rune))

namespace Strconv

variable {table : Char → Bool}

theorem lowerhex_plain {width n : Nat} {d : Char} (h : d ∈ lowerhex width n) : Verbatim d := by
  obtain ⟨i, -, rfl⟩ := List.mem_map.mp h
  have all : ∀ m < 16, Verbatim (Nat.digitChar m) := by
    intro m small
    interval_cases m <;> decide
  exact all _ (Nat.mod_lt _ (by decide))

/-- A plain character is printed as it is or as an escape of plain ones. -/
theorem appendEscapedRune_plain (table : Char → Bool) {r : Char} (h : Verbatim r) :
    appendEscapedRune table r = [r] ∨
      ∃ k digits, appendEscapedRune table r = '\\' :: k :: digits ∧ ∀ d ∈ k :: digits, Verbatim d := by
  obtain ⟨⟨control, delete, double, -⟩, backslash⟩ := h
  unfold appendEscapedRune
  rw [if_neg (by rintro (h | h) <;> contradiction)]
  by_cases printed : isPrint table r = true
  · exact Or.inl (if_pos printed)
  right
  rw [if_neg printed, if_neg (by omega), if_neg (by omega), if_neg (by omega), if_neg (by omega),
    if_neg (by omega), if_neg (by omega), if_neg (by omega), if_neg (by omega)]
  have escape : ∀ k ∈ ['u', 'U'], ∀ width, ∀ d ∈ k :: lowerhex width r.toNat, Verbatim d := by
    intro k letter width d hd
    rcases List.mem_cons.mp hd with rfl | digit
    · rcases List.mem_pair.mp letter with rfl | rfl <;> decide
    · exact lowerhex_plain digit
  split
  · exact ⟨_, _, rfl, escape 'u' (by simp) 4⟩
  · exact ⟨_, _, rfl, escape 'U' (by simp) 8⟩

theorem appendEscapedRune_sane {r c : Char} (h : Verbatim r) (mem : c ∈ appendEscapedRune table r) :
    Sane c := by
  rcases appendEscapedRune_plain table h with same | ⟨k, digits, escaped, plain⟩
  · rw [same, List.mem_singleton] at mem
    exact mem ▸ h.1
  · rw [escaped] at mem
    rcases List.mem_cons.mp mem with rfl | rest
    · exact ⟨by decide, by decide, by decide, by decide⟩
    · exact (plain c rest).1

/-- Without a backslash, nothing was escaped. -/
theorem escaped_verbatim {s : List Char} (h : ∀ r ∈ s, Verbatim r)
    (clear : '\\' ∉ s.flatMap (appendEscapedRune table)) :
    s.flatMap (appendEscapedRune table) = s := by
  induction s with
  | nil => rfl
  | cons r s ih =>
    rw [List.flatMap_cons, List.mem_append, not_or] at clear
    have rest := ih (fun c hc => h c (List.mem_cons_of_mem r hc)) clear.2
    have plain := h r (List.mem_cons_self ..)
    rcases appendEscapedRune_plain table plain with same | ⟨k, digits, escaped, -⟩
    · rw [List.flatMap_cons, same, rest]
      rfl
    · rw [escaped] at clear
      exact absurd (List.mem_cons_self ..) clear.1

end Strconv

/-- A quoted string read up to its closing quote, and what follows; a backslash stands for the byte
after it. -/
def readQuoted : Bytes → Option (Bytes × Bytes)
  | [] => none
  | 0x22 :: rest => some ([], rest)
  | [0x5c] => none
  | 0x5c :: b :: rest => (readQuoted rest).map fun read => (b :: read.1, read.2)
  | b :: rest => (readQuoted rest).map fun read => (b :: read.1, read.2)

theorem readQuoted_byte {b : UInt8} (h : b ≠ 0x22 ∧ b ≠ 0x5c) (rest : Bytes) :
    readQuoted (b :: rest) = (readQuoted rest).map fun read => (b :: read.1, read.2) := by
  obtain ⟨quote, backslash⟩ := h
  rw [readQuoted.eq_5]
  · exact quote
  · rintro rfl
    exact absurd rfl backslash
  · exact fun _ _ eq => absurd eq backslash

theorem readQuoted_escape (b : UInt8) (rest : Bytes) :
    readQuoted (0x5c :: b :: rest) = (readQuoted rest).map fun read => (b :: read.1, read.2) := by
  rw [readQuoted]

theorem readQuoted_bytes {bs : Bytes} (h : ∀ b ∈ bs, b ≠ 0x22 ∧ b ≠ 0x5c) (rest : Bytes) :
    readQuoted (bs ++ rest) = (readQuoted rest).map fun read => (bs ++ read.1, read.2) := by
  induction bs with
  | nil => exact Option.map_id.symm ▸ rfl
  | cons b bs ih =>
    rw [List.cons_append, readQuoted_byte (h b (List.mem_cons_self ..)),
      ih fun c hc => h c (List.mem_cons_of_mem b hc), Option.map_map]
    rfl

theorem readQuoted_escaped {table : Char → Bool} {s : List Char} (h : ∀ r ∈ s, Verbatim r) :
    ∃ value, ∀ rest, readQuoted (utf8 (s.flatMap (Strconv.appendEscapedRune table)) ++ 0x22 :: rest) =
      some (value, rest) := by
  induction s with
  | nil => exact ⟨[], fun rest => by rw [List.flatMap_nil]; exact readQuoted.eq_2 rest⟩
  | cons r s ih =>
    obtain ⟨value, reads⟩ := ih fun c hc => h c (List.mem_cons_of_mem r hc)
    have plain := h r (List.mem_cons_self ..)
    rcases Strconv.appendEscapedRune_plain table plain with same | ⟨k, digits, escaped, letters⟩
    · refine ⟨utf8 [r] ++ value, fun rest => ?_⟩
      rw [List.flatMap_cons, same, utf8_append, List.append_assoc,
        readQuoted_bytes (fun b => utf8_plain (by simpa using plain)), reads]
      rfl
    · have bytes : ∀ b ∈ utf8 (k :: digits), b ≠ 0x22 ∧ b ≠ 0x5c := fun b => utf8_plain letters
      cases encoded : utf8 (k :: digits) with
      | nil => exact absurd (utf8_inj (t := []) encoded) (List.cons_ne_nil k digits)
      | cons b bs =>
        refine ⟨b :: bs ++ value, fun rest => ?_⟩
        have shape : utf8 ('\\' :: k :: digits) = 0x5c :: b :: bs := by
          rw [← encoded]
          rfl
        rw [encoded] at bytes
        rw [List.flatMap_cons, escaped, utf8_append, shape, List.append_assoc, List.cons_append,
          List.cons_append, readQuoted_escape,
          readQuoted_bytes (fun c hc => bytes c (List.mem_cons_of_mem b hc)), reads]
        rfl

/-- What a client can rely on of an attachment header. -/
structure Delimited (header name : Bytes) : Prop where
  shape : header = utf8 "attachment; filename=\"".toList ++ name ++ [0x22]
  quotes : header.count 0x22 = 2
  printable : ∀ b ∈ header, 0x20 ≤ b ∧ b ≠ 0x7f
  slashless : 0x2f ∉ name
  named : name ≠ [] ∧ name ≠ utf8 ['.'] ∧ name ≠ utf8 ['.', '.']
  closed : ∃ value, ∀ rest, readQuoted (name ++ 0x22 :: rest) = some (value, rest)

theorem contentDisposition_eq (packages : Packages) (filename : String) :
    ∃ clean : List Char, (∀ r ∈ clean, Verbatim r) ∧ clean ≠ [] ∧ clean ≠ ['.'] ∧ clean ≠ ['.', '.'] ∧
      contentDisposition packages filename =
        "attachment; filename=" ++ packages.quote (String.ofList clean) := by
  unfold contentDisposition
  by_cases degenerate : (pathBase (trimSpace filename.toList)).map sanitise = [] ∨
      (pathBase (trimSpace filename.toList)).map sanitise = ['.'] ∨
      (pathBase (trimSpace filename.toList)).map sanitise = ['.', '.']
  · refine ⟨"photo.jpg".toList, ?_, by decide, by decide, by decide, ?_⟩
    · exact forall_chars (by decide)
    · simp only [if_pos degenerate]
  · refine ⟨(pathBase (trimSpace filename.toList)).map sanitise, ?_, ?_, ?_, ?_, ?_⟩
    · intro r mem
      obtain ⟨c, -, rfl⟩ := List.mem_map.mp mem
      exact sanitise_plain c
    · exact fun h => degenerate (Or.inl h)
    · exact fun h => degenerate (Or.inr (Or.inl h))
    · exact fun h => degenerate (Or.inr (Or.inr h))
    · simp only [if_neg degenerate]

/-- For every filename, UTF-8 or not, the header is one quoted name that nothing breaks out of. -/
theorem contentDisposition_delimited (table : Char → Bool) (packages : Packages) (filename : Bytes) :
    ∃ name, Delimited (utf8
      (contentDispositionOf { packages with quote := Strconv.quote table } filename).toList) name := by
  obtain ⟨clean, verbatim, nonempty, not_dot, not_dots, eq⟩ :=
    contentDisposition_eq { packages with quote := Strconv.quote table }
      (String.ofList (runes filename))
  let escaped := clean.flatMap (Strconv.appendEscapedRune table)
  have shape :
      utf8 (contentDispositionOf { packages with quote := Strconv.quote table } filename).toList =
      utf8 "attachment; filename=\"".toList ++ utf8 escaped ++ [0x22] := by
    have quoted : (Strconv.quote table (String.ofList clean)).toList = '"' :: escaped ++ ['"'] := by
      rw [Strconv.quote, String.toList_ofList, String.toList_ofList]
    rw [contentDispositionOf, eq, String.toList_append, quoted, List.cons_append,
      ← List.singleton_append, ← List.append_assoc, utf8_append, utf8_append, utf8_append escaped,
      ← List.append_assoc]
    rfl
  have sane : ∀ r ∈ escaped, Sane r := by
    intro r mem
    obtain ⟨c, in_clean, rune⟩ := List.mem_flatMap.mp mem
    exact Strconv.appendEscapedRune_sane (verbatim c in_clean) rune
  have whole : ∀ dots, utf8 escaped = utf8 dots → '\\' ∉ dots → clean = dots := by
    intro dots same clear
    have eq : escaped = dots := utf8_inj same
    have unescaped : '\\' ∉ escaped := by
      rw [eq]
      exact clear
    exact (Strconv.escaped_verbatim verbatim unescaped).symm.trans eq
  refine ⟨utf8 escaped, shape, ?_, ?_, ?_, ?_, readQuoted_escaped verbatim⟩
  · have inner : (utf8 escaped).count 0x22 = 0 :=
      List.count_eq_zero.mpr fun mem => (utf8_sane sane mem).2.2.1 rfl
    have outer : (utf8 "attachment; filename=\"".toList).count 0x22 = 1 := by decide
    rw [shape, List.count_append, List.count_append, inner, outer]
    rfl
  · intro b mem
    rw [shape, List.append_assoc] at mem
    rcases List.mem_append.mp mem with before | rest
    · exact forall_chars (p := fun b => 0x20 ≤ b ∧ b ≠ 0x7f) (by decide) b before
    · rcases List.mem_append.mp rest with inside | after
      · have bytes := utf8_sane sane inside
        exact ⟨bytes.1, bytes.2.1⟩
      · rw [List.mem_singleton.mp after]
        decide
  · exact fun mem => (utf8_sane sane mem).2.2.2 rfl
  · exact ⟨fun h => nonempty (whole [] h (by simp)), fun h => not_dot (whole _ h (by simp)),
      fun h => not_dots (whole _ h (by simp))⟩

/-- Printable ASCII other than a blank, and nothing the header replaces. -/
def Ordinary (r : Char) : Prop := Verbatim r ∧ 0x20 < r.toNat ∧ r.toNat < 0x7f

instance (r : Char) : Decidable (Ordinary r) := inferInstanceAs (Decidable (_ ∧ _ ∧ _))

theorem isSpace_visible {r : Char} (low : 0x20 < r.toNat) (high : r.toNat < 0x7f) :
    isSpace r = false := by
  have elsewhere : r.toNat ∉ [0x09, 0x0a, 0x0b, 0x0c, 0x0d, 0x20, 0x85, 0xa0, 0x1680, 0x2028, 0x2029,
      0x202f, 0x205f, 0x3000] := by
    simp only [List.mem_cons, List.not_mem_nil, or_false]
    omega
  have below : ¬0x2000 ≤ r.toNat := by omega
  rw [isSpace, decide_eq_false elsewhere, decide_eq_false below]
  rfl

theorem trimSpace_clear {s : List Char} (h : ∀ r ∈ s, isSpace r = false) : trimSpace s = s := by
  have clear : ∀ r ∈ s, ¬isSpace r = true := by
    intro r mem
    rw [h r mem]
    exact Bool.false_ne_true
  have front : s.dropWhile isSpace = s := by
    rw [List.dropWhile_eq_self_iff]
    exact fun hs => clear _ (List.getElem_mem hs)
  rw [trimSpace, front, List.rdropWhile_eq_self_iff]
  exact fun hs => clear _ (List.getLast_mem hs)

theorem pathBase_ordinary {s : List Char} (nonempty : s ≠ []) (h : ∀ r ∈ s, Ordinary r) :
    pathBase s = s := by
  have slashless : ∀ r ∈ s, r ≠ '/' := fun r mem => (h r mem).1.1.2.2.2
  have strip : s.rdropWhile (· == '/') = s := by
    rw [List.rdropWhile_eq_self_iff]
    exact fun hs => by simpa using slashless _ (List.getLast_mem hs)
  have last : s.rtakeWhile (· != '/') = s := by
    rw [List.rtakeWhile_eq_self_iff]
    exact fun r mem => by simpa using slashless r mem
  simp only [pathBase, if_neg nonempty, strip, last]

theorem sanitise_verbatim {r : Char} (h : Verbatim r) : sanitise r = r := by
  obtain ⟨⟨control, delete, double, slash⟩, backslash⟩ := h
  refine if_neg ?_
  rintro (low | rfl | rfl | rfl | seven)
  · omega
  · exact double rfl
  · exact backslash rfl
  · exact slash rfl
  · exact delete seven

theorem quote_ordinary {table : Char → Bool} {s : String} (h : ∀ r ∈ s.toList, Ordinary r) :
    Strconv.quote table s = "\"" ++ s ++ "\"" := by
  have printed : ∀ r ∈ s.toList, Strconv.appendEscapedRune table r = [r] := by
    intro r mem
    obtain ⟨⟨⟨-, -, double, -⟩, backslash⟩, low, high⟩ := h r mem
    have ascii : Strconv.isPrint table r = true := by
      rw [Strconv.isPrint, if_pos (by omega), decide_eq_true (by omega : 0x20 ≤ r.toNat),
        decide_eq_true high]
      rfl
    rw [Strconv.appendEscapedRune, if_neg (by rintro (h | h) <;> contradiction), if_pos ascii]
  have same : s.toList.flatMap (Strconv.appendEscapedRune table) = s.toList := by
    rw [List.flatMap_congr printed, List.flatMap_singleton']
  rw [Strconv.quote, same]
  apply String.toList_inj.mp
  simp

/-- An ordinary filename is carried as it is. -/
theorem contentDisposition_ordinary {table : Char → Bool} {packages : Packages} {name : String}
    (h : ∀ r ∈ name.toList, Ordinary r) (nonempty : name.toList ≠ []) (not_dot : name.toList ≠ ['.'])
    (not_dots : name.toList ≠ ['.', '.']) :
    contentDisposition { packages with quote := Strconv.quote table } name =
      "attachment; filename=\"" ++ name ++ "\"" := by
  have clean : (pathBase (trimSpace name.toList)).map sanitise = name.toList := by
    have kept : ∀ r ∈ name.toList, sanitise r = r := fun r mem => sanitise_verbatim (h r mem).1
    have visible : ∀ r ∈ name.toList, isSpace r = false := fun r mem =>
      isSpace_visible (h r mem).2.1 (h r mem).2.2
    rw [trimSpace_clear visible, pathBase_ordinary nonempty h, List.map_congr_left kept, List.map_id']
  have named : ¬(name.toList = [] ∨ name.toList = ['.'] ∨ name.toList = ['.', '.']) := by
    rintro (none | dot | dots)
    · exact nonempty none
    · exact not_dot dot
    · exact not_dots dots
  have built : contentDisposition { packages with quote := Strconv.quote table } name =
      "attachment; filename=" ++ Strconv.quote table (String.ofList name.toList) := by
    unfold contentDisposition
    rw [clean]
    simp only [if_neg named]
  rw [built, String.ofList_toList, quote_ordinary h, ← String.append_assoc, ← String.append_assoc]
  rfl

end ItalyTrip
