import ItalyTrip.CaptureTime
import ItalyTrip.PhotoQueue
import Mathlib.Data.List.Lex
import Mathlib.Data.String.Basic

namespace ItalyTrip

open Calls

section StableSort

variable {α κ : Type} [LinearOrder κ] (key : α → κ)

theorem sorted_by_key (xs : List α) :
    (xs.insertionSort fun a b => key a ≤ key b).Pairwise fun a b => key a ≤ key b := by
  have total : Std.Total fun a b => key a ≤ key b := ⟨fun a b => le_total (key a) (key b)⟩
  have transitive : IsTrans α fun a b => key a ≤ key b := ⟨fun _ _ _ => le_trans⟩
  exact List.pairwise_insertionSort _ xs

/-- Two members of a list stand in it in one order or the other. -/
theorem pair_sublist_of_mem {a b : α} {xs : List α} (ha : a ∈ xs) (hb : b ∈ xs) (ne : a ≠ b) :
    [a, b].Sublist xs ∨ [b, a].Sublist xs := by
  obtain ⟨before, after, rfl⟩ := List.append_of_mem ha
  rcases List.mem_append.mp hb with hb | hb
  · right
    exact (List.singleton_sublist.mpr hb).append (List.singleton_sublist.mpr (by simp))
  · have later := (List.mem_cons.mp hb).resolve_left ne.symm
    left
    exact ((List.singleton_sublist.mpr later).cons_cons a).trans (List.sublist_append_right _ _)

/-- Without duplicates they stand in one order only. -/
theorem pair_sublist_antisymm {a b : α} {xs : List α} (nodup : xs.Nodup) (ab : [a, b].Sublist xs)
    (ba : [b, a].Sublist xs) : a = b := by
  induction xs with
  | nil => cases ab
  | cons x xs ih =>
    obtain ⟨fresh, rest⟩ := List.nodup_cons.mp nodup
    cases ab with
    | cons _ ab =>
      cases ba with
      | cons _ ba => exact ih rest ab ba
      | cons_cons _ ba => exact absurd (ab.subset (by simp)) fresh
    | cons_cons _ ab =>
      cases ba with
      | cons _ ba => exact absurd (ba.subset (by simp)) fresh
      | cons_cons _ ba => rfl

/-- Sorting by one key puts the members in the order of another one exactly where the first key,
and among its equals the order they came in, agrees with it. -/
theorem insertionSort_ordered_iff {xs : List α} (nodup : xs.Nodup) (time : α → Int) :
    (xs.insertionSort fun a b => key a ≤ key b).Pairwise (fun a b => time a ≤ time b) ↔
      ∀ x ∈ xs, ∀ y ∈ xs, time x < time y →
        key x < key y ∨ key x = key y ∧ [x, y].Sublist xs := by
  have perm := List.perm_insertionSort (fun a b => key a ≤ key b) xs
  have sorted := sorted_by_key key xs
  constructor
  · intro ordered x hx y hy earlier
    have ne : x ≠ y := by
      rintro rfl
      omega
    have notBefore : ¬[y, x].Sublist (xs.insertionSort fun a b => key a ≤ key b) := fun h => by
      have := List.pairwise_iff_forall_sublist.mp ordered h
      omega
    have before := (pair_sublist_of_mem (perm.mem_iff.mpr hx) (perm.mem_iff.mpr hy) ne).resolve_right
      notBefore
    rcases (List.pairwise_iff_forall_sublist.mp sorted before).lt_or_eq with lt | same
    · exact Or.inl lt
    · refine Or.inr ⟨same, (pair_sublist_of_mem hx hy ne).resolve_right fun other => ?_⟩
      exact notBefore (List.pair_sublist_insertionSort same.ge other)
  · intro agrees
    rw [List.pairwise_iff_forall_sublist]
    intro a b before
    by_contra later
    have ha := perm.mem_iff.mp (before.subset (by simp : a ∈ [a, b]))
    have hb := perm.mem_iff.mp (before.subset (by simp : b ∈ [a, b]))
    have le := List.pairwise_iff_forall_sublist.mp sorted before
    rcases agrees b hb a ha (by omega) with lt | ⟨same, other⟩
    · exact absurd le (not_le.mpr lt)
    · have after := List.pair_sublist_insertionSort (r := fun a b => key a ≤ key b) same.le other
      have eq := pair_sublist_antisymm (perm.nodup_iff.mpr nodup) before after
      subst eq
      omega

end StableSort

namespace Capture

/-- Where the root collation puts the characters of a time: punctuation, symbols, digits, letters. -/
def collationWeight (c : Char) : Nat :=
  if c = '-' then 0 else if c = ':' then 1 else if c = '+' then 2
  else if c.isDigit then 3 + (c.toNat - 48) else 13

def weigh (s : List Char) : List Nat := s.map collationWeight

def IsStamp (s : List Char) : Prop := ∀ c ∈ s, c.isDigit = true ∨ c ∈ ['-', ':', '+', 'T']

/-- What `localeCompare` does to texts of these characters: it goes by the first difference. -/
def Collates (localeLE : String → String → Bool) : Prop :=
  ∀ s t, IsStamp s.toList → IsStamp t.toList →
    (localeLE s t = true ↔ weigh s.toList ≤ weigh t.toList)

theorem weight_digit {d : Nat} (h : d < 10) : collationWeight d.digitChar = 3 + d := by
  have all : ∀ d < 10, collationWeight (Nat.digitChar d) = 3 + d := by decide
  exact all d h

theorem weigh_twoDigits {n : Nat} (h : n < 100) : weigh (twoDigits n) = [3 + n / 10, 3 + n % 10] := by
  simp [weigh, twoDigits, weight_digit (show n / 10 < 10 by omega), weight_digit (show n % 10 < 10 by omega)]

@[simp] theorem weigh_append (s t : List Char) : weigh (s ++ t) = weigh s ++ weigh t := List.map_append

@[simp] theorem weigh_cons (c : Char) (s : List Char) : weigh (c :: s) = collationWeight c :: weigh s := rfl

/-- Fields of two digits are compared as the numbers they are. -/
theorem field_lt {n m : Nat} (hn : n < 100) (hm : m < 100) (s t : List Char) :
    weigh (twoDigits n ++ s) < weigh (twoDigits m ++ t) ↔ n < m ∨ n = m ∧ weigh s < weigh t := by
  simp only [weigh_append, weigh_twoDigits hn, weigh_twoDigits hm, List.cons_append, List.nil_append,
    List.cons_lt_cons_iff, Nat.add_lt_add_iff_left, Nat.add_right_inj]
  exact place_lt

/-- How the text of an offset is compared: the signs first, the minus before the plus. -/
def zoneRank (offset : Int) : Nat := if 0 ≤ -offset then 1440 + offset.natAbs else offset.natAbs

theorem clock_lt {n m : Nat} (hn : n < 1440) (hm : m < 1440) :
    weigh (twoDigits (n / 60) ++ ':' :: twoDigits (n % 60)) <
      weigh (twoDigits (m / 60) ++ ':' :: twoDigits (m % 60)) ↔ n < m := by
  have minutes := @field_lt (n % 60) (m % 60) (by omega) (by omega) [] []
  simp only [List.append_nil, List.lt_irrefl, and_false, or_false] at minutes
  rw [field_lt (by omega) (by omega), weigh_cons, weigh_cons, List.cons_lt_cons_iff, minutes]
  omega

theorem zone_lt {a b : Int} (ha : a.natAbs < 1440) (hb : b.natAbs < 1440) :
    weigh (zoneText a) < weigh (zoneText b) ↔ zoneRank a < zoneRank b := by
  have plus : collationWeight '+' = 2 := by decide
  have minus : collationWeight '-' = 0 := by decide
  unfold zoneText zoneRank
  rw [weigh_cons, weigh_cons, List.cons_lt_cons_iff, clock_lt ha hb]
  by_cases east : a ≤ 0 <;> by_cases east' : b ≤ 0 <;> simp [east, east', plus, minus] <;> omega

/-- The fields of a date after its year, in the order of the text. -/
def reading (date : Date) : List Nat :=
  [date.getMonth, date.getDate, date.getHours, date.getMinutes, date.getSeconds,
    zoneRank date.getTimezoneOffset]

theorem afterYear_lt {x y : Date} (hx : x.getTimezoneOffset.natAbs < 1440)
    (hy : y.getTimezoneOffset.natAbs < 1440) :
    weigh (afterYear x) < weigh (afterYear y) ↔ reading x < reading y := by
  obtain ⟨xm, xd, xh, xmin, xs⟩ := fields_bounds x
  obtain ⟨ym, yd, yh, ymin, ys⟩ := fields_bounds y
  unfold afterYear reading
  simp only [field_lt xm ym, field_lt xd yd, field_lt xh yh, field_lt xmin ymin, field_lt xs ys, weigh_cons,
    List.cons_lt_cons_iff, lt_self_iff_false, true_and, false_or, zone_lt hx hy, and_false, or_false,
    Nat.add_lt_add_iff_right, Nat.add_right_cancel_iff]

/-- Two lists that go on after a stop below all they have are compared up to it first. -/
theorem stop_lt {a b : List Nat} (ha : ∀ n ∈ a, 0 < n) (hb : ∀ n ∈ b, 0 < n) (s t : List Nat) :
    a ++ 0 :: s < b ++ 0 :: t ↔ a < b ∨ a = b ∧ s < t := by
  induction a generalizing b with
  | nil =>
    cases b with
    | nil => simp
    | cons m b =>
      have positive := hb m (by simp)
      simp [List.cons_lt_cons_iff, positive]
  | cons n a ih =>
    have positive := ha n (by simp)
    cases b with
    | nil =>
      have later : ¬n < 0 := by omega
      have other : n ≠ 0 := by omega
      simp [List.cons_lt_cons_iff, later, other]
    | cons m b =>
      have rest := ih (fun k hk => ha k (List.mem_cons_of_mem n hk))
        (fun k hk => hb k (List.mem_cons_of_mem m hk))
      simp only [List.cons_append, List.cons_lt_cons_iff, rest, List.cons.injEq]
      tauto

theorem digits_positive {s : List Char} (digits : ∀ c ∈ s, c.isDigit = true) : ∀ n ∈ weigh s, 0 < n := by
  intro n hn
  obtain ⟨c, hc, rfl⟩ := List.mem_map.mp hn
  have digit := digits c hc
  unfold collationWeight
  split
  · rename_i same
    subst same
    simp at digit
  · split
    · decide
    · split
      · decide
      · omega

theorem toDigits_digits (n : Nat) : ∀ c ∈ Nat.toDigits 10 n, c.isDigit = true :=
  fun _ hc => Nat.isDigit_of_mem_toDigits (by decide) (by decide) hc

theorem toString_ofNat (n : Nat) : (toString (Int.ofNat n)).toList = Nat.toDigits 10 n := Nat.toList_repr

theorem toString_negSucc (n : Nat) :
    (toString (Int.negSucc n)).toList = '-' :: Nat.toDigits 10 (n + 1) := by
  change ("-" ++ Nat.repr (n + 1)).toList = _
  simp

theorem toDigits_inj {n m : Nat} (same : Nat.toDigits 10 n = Nat.toDigits 10 m) : n = m := by
  have value := congrArg (fun digits => Nat.ofDigitChars 10 digits 0) same
  simpa [Nat.ofDigitChars_ten_toDigits] using value

theorem toString_inj {a b : Int} (same : (toString a).toList = (toString b).toList) : a = b := by
  have noSign : ∀ n rest, Nat.toDigits 10 n ≠ '-' :: rest := fun n rest split => by
    have digit := toDigits_digits n '-' (by simp [split])
    revert digit
    decide
  cases a with
  | ofNat a =>
    cases b with
    | ofNat b =>
      rw [toString_ofNat, toString_ofNat] at same
      rw [toDigits_inj same]
    | negSucc b =>
      rw [toString_ofNat, toString_negSucc] at same
      exact absurd same (noSign a _)
  | negSucc a =>
    cases b with
    | ofNat b =>
      rw [toString_ofNat, toString_negSucc] at same
      exact absurd same.symm (noSign b _)
    | negSucc b =>
      rw [toString_negSucc, toString_negSucc] at same
      rw [Nat.succ.inj (toDigits_inj (List.cons.inj same).2)]

/-- Years are compared by their digits, which for years of four digits is their own order. -/
theorem year_lt (a b : Int) (s t : List Char) :
    weigh ((toString a).toList ++ '-' :: s) < weigh ((toString b).toList ++ '-' :: t) ↔
      weigh (toString a).toList < weigh (toString b).toList ∨
        weigh (toString a).toList = weigh (toString b).toList ∧ weigh s < weigh t := by
  have dash : collationWeight '-' = 0 := by decide
  have positive := fun n => digits_positive (toDigits_digits n)
  have head : ∀ n : Nat, ∃ k rest, weigh (Nat.toDigits 10 n) = k :: rest ∧ 0 < k := fun n => by
    cases split : weigh (Nat.toDigits 10 n) with
    | nil => exact absurd (List.map_eq_nil_iff.mp split) Nat.toDigits_ne_nil
    | cons k rest => exact ⟨k, rest, rfl, positive n k (by simp [split])⟩
  cases a with
  | ofNat a =>
    rw [toString_ofNat]
    cases b with
    | ofNat b =>
      rw [toString_ofNat]
      simp only [weigh_append, weigh_cons, dash, stop_lt (positive a) (positive b)]
    | negSucc b =>
      rw [toString_negSucc]
      obtain ⟨k, rest, split, low⟩ := head a
      have above : ¬k < 0 := by omega
      have other : k ≠ 0 := by omega
      simp [split, dash, List.cons_lt_cons_iff, above, other]
  | negSucc a =>
    rw [toString_negSucc]
    cases b with
    | ofNat b =>
      rw [toString_ofNat]
      obtain ⟨k, rest, split, low⟩ := head b
      simp [split, dash, List.cons_lt_cons_iff, low]
    | negSucc b =>
      simp only [toString_negSucc, weigh_append, weigh_cons, dash, List.cons_append, List.cons_lt_cons_iff,
        stop_lt (positive _) (positive _), lt_self_iff_false, false_or, true_and, List.cons.injEq]

def YearBefore (a b : Int) : Prop := weigh (toString a).toList < weigh (toString b).toList

theorem yearBefore_iff {n m : Nat} (hn : 1000 ≤ n ∧ n ≤ 9999) (hm : 1000 ≤ m ∧ m ≤ 9999) :
    YearBefore n m ↔ n < m := by
  have last := @field_lt (n % 100) (m % 100) (by omega) (by omega) [] []
  simp only [List.append_nil, List.lt_irrefl, and_false, or_false] at last
  rw [YearBefore, toString_year hn.1 hn.2, toString_year hm.1 hm.2, field_lt (by omega) (by omega), last]
  omega

/-- The wall clock of `x`, with its offset, reads before that of `y`. -/
def ShownBefore (x y : Date) : Prop :=
  YearBefore x.getFullYear y.getFullYear ∨ x.getFullYear = y.getFullYear ∧ reading x < reading y

theorem weight_of_digit {c : Char} (digit : c.isDigit = true) :
    collationWeight c = 3 + (c.toNat - 48) ∧ 48 ≤ c.toNat ∧ c.toNat ≤ 57 := by
  have bounds : 48 ≤ c.toNat ∧ c.toNat ≤ 57 := Char.isDigit_iff_toNat.mp digit
  have marks : c ≠ '-' ∧ c ≠ ':' ∧ c ≠ '+' := by
    refine ⟨?_, ?_, ?_⟩ <;> rintro rfl <;> simp at digit
  refine ⟨?_, bounds⟩
  simp [collationWeight, marks.1, marks.2.1, marks.2.2, digit]

theorem weight_of_mark {c : Char} (mark : c ∈ ['-', ':', '+', 'T']) :
    collationWeight c < 3 ∨ 12 < collationWeight c := by
  simp only [List.mem_cons, List.not_mem_nil, or_false] at mark
  rcases mark with rfl | rfl | rfl | rfl <;> decide

theorem weight_inj {c d : Char} (hc : c.isDigit = true ∨ c ∈ ['-', ':', '+', 'T'])
    (hd : d.isDigit = true ∨ d ∈ ['-', ':', '+', 'T']) (same : collationWeight c = collationWeight d) :
    c = d := by
  rcases hc with hc | hc <;> rcases hd with hd | hd
  · have := weight_of_digit hc
    have := weight_of_digit hd
    exact Char.toNat_inj.mp (by omega)
  · have := weight_of_digit hc
    have := weight_of_mark hd
    omega
  · have := weight_of_mark hc
    have := weight_of_digit hd
    omega
  · have all : ['-', ':', '+', 'T'].all fun c => ['-', ':', '+', 'T'].all fun d =>
        collationWeight c != collationWeight d || c == d := by decide
    have apart := List.all_eq_true.mp (List.all_eq_true.mp all c hc) d hd
    simpa [same] using apart

theorem weigh_inj {s t : List Char} (hs : IsStamp s) (ht : IsStamp t) (same : weigh s = weigh t) : s = t := by
  induction s generalizing t with
  | nil => exact (List.map_eq_nil_iff.mp same.symm).symm
  | cons c s ih =>
    cases t with
    | nil => simp [weigh] at same
    | cons d t =>
      obtain ⟨first, rest⟩ := List.cons.inj same
      rw [weight_inj (hs c (by simp)) (ht d (by simp)) first,
        ih (fun x hx => hs x (List.mem_cons_of_mem c hx)) (fun x hx => ht x (List.mem_cons_of_mem d hx)) rest]

theorem isStamp_year (year : Int) : IsStamp (toString year).toList := by
  intro c hc
  cases year with
  | ofNat n =>
    rw [toString_ofNat] at hc
    exact Or.inl (toDigits_digits n c hc)
  | negSucc n =>
    rw [toString_negSucc] at hc
    rcases List.mem_cons.mp hc with rfl | hc
    · exact Or.inr (by simp)
    · exact Or.inl (toDigits_digits (n + 1) c hc)

theorem isStamp_append {s t : List Char} (hs : IsStamp s) (ht : IsStamp t) : IsStamp (s ++ t) :=
  fun c hc => (List.mem_append.mp hc).elim (hs c) (ht c)

theorem isStamp_cons {c : Char} (hc : c ∈ ['-', ':', '+', 'T']) {s : List Char} (hs : IsStamp s) :
    IsStamp (c :: s) := by
  intro d hd
  rcases List.mem_cons.mp hd with rfl | hd
  · exact Or.inr hc
  · exact hs d hd

theorem isStamp_twoDigits {n : Nat} (h : n < 100) : IsStamp (twoDigits n) := by
  intro c hc
  simp only [twoDigits, List.mem_cons, List.not_mem_nil, or_false] at hc
  rcases hc with rfl | rfl
  · exact Or.inl (digit_read (by omega)).1
  · exact Or.inl (digit_read (by omega)).1

theorem isStamp_toRfc3339 {date : Date} (hoffset : date.getTimezoneOffset.natAbs < 1440) :
    IsStamp (toRfc3339 date).toList := by
  obtain ⟨hmonth, hday, hhours, hminutes, hseconds⟩ := fields_bounds date
  have zone : IsStamp (zoneText date.getTimezoneOffset) := by
    unfold zoneText
    refine isStamp_cons (by split <;> simp) (isStamp_append (isStamp_twoDigits (by omega)) ?_)
    exact isStamp_cons (by simp) (isStamp_twoDigits (by omega))
  rw [toRfc3339_split hoffset, afterYear]
  refine isStamp_append (isStamp_year _) (isStamp_cons (by simp) ?_)
  refine isStamp_append (isStamp_twoDigits hmonth) (isStamp_cons (by simp) ?_)
  refine isStamp_append (isStamp_twoDigits hday) (isStamp_cons (by simp) ?_)
  refine isStamp_append (isStamp_twoDigits hhours) (isStamp_cons (by simp) ?_)
  refine isStamp_append (isStamp_twoDigits hminutes) (isStamp_cons (by simp) ?_)
  exact isStamp_append (isStamp_twoDigits hseconds) zone

/-- The texts of two dates are compared as their wall clocks and offsets are. -/
theorem toRfc3339_lt {x y : Date} (hx : x.getTimezoneOffset.natAbs < 1440)
    (hy : y.getTimezoneOffset.natAbs < 1440) :
    weigh (toRfc3339 x).toList < weigh (toRfc3339 y).toList ↔ ShownBefore x y := by
  rw [toRfc3339_split hx, toRfc3339_split hy, year_lt, afterYear_lt hx hy, ShownBefore, YearBefore]
  refine or_congr Iff.rfl (and_congr_left fun _ => ?_)
  constructor
  · intro same
    exact toString_inj (weigh_inj (isStamp_year _) (isStamp_year _) same)
  · intro same
    rw [same]

end Capture

namespace PhotoQueue

/-- What IndexedDB answers: everything, in the order of its keys. -/
def stored (b : Browser) : List PendingPhoto := b.store.insertionSort fun x y => x.clientId ≤ y.clientId

def IsDue (now : Int) (item : PendingPhoto) : Prop := item.failed = false ∧ item.nextAttemptAt ≤ now

theorem due_run {localeLE : String → String → Bool} {now : Int} {choices : Nat → ClientChoice} {b : Browser}
    (reads : (choices 0).fault = .none) :
    (due localeLE now).run.run (fun o (b : Browser) => b.perform o) choices b =
      some (.ok (((stored b).filter fun item => !item.failed && item.nextAttemptAt ≤ now).insertionSort
        fun x y => localeLE x.takenAt y.takenAt), b) := by
  have read : b.perform (choices 0) .idbGetAll = some (.ok (stored b), b) := by
    simp only [Browser.perform, Browser.faulty, reads]
    rfl
  refine Eq.trans (Prog.run_call (r := .ok (stored b)) (v := b) ?_) rfl
  exact read

theorem stored_sorted (b : Browser) : (stored b).Pairwise fun x y => x.clientId ≤ y.clientId :=
  sorted_by_key (fun item : PendingPhoto => item.clientId) b.store

/-- Two keyed items come out of the store in the order of their keys. -/
theorem pair_stored_iff {b : Browser} (keyed : (b.store.map (·.clientId)).Nodup) {p : PendingPhoto → Bool}
    {x y : PendingPhoto} (hx : x ∈ (stored b).filter p) (hy : y ∈ (stored b).filter p) (ne : x ≠ y) :
    [x, y].Sublist ((stored b).filter p) ↔ x.clientId < y.clientId := by
  have sorted := (stored_sorted b).sublist (List.filter_sublist (p := p))
  constructor
  · intro before
    have le := List.pairwise_iff_forall_sublist.mp sorted before
    refine lt_of_le_of_ne le fun same => ne ?_
    have inStore : ∀ item ∈ (stored b).filter p, item ∈ b.store := fun item hi =>
      (List.mem_insertionSort _).mp (List.mem_of_mem_filter hi)
    exact List.inj_on_of_nodup_map keyed (inStore x hx) (inStore y hy) same
  · intro lt
    refine (pair_sublist_of_mem hx hy ne).resolve_right fun after => ?_
    exact absurd lt (not_lt.mpr (List.pairwise_iff_forall_sublist.mp sorted after))

theorem insertionSort_congr {r s : PendingPhoto → PendingPhoto → Prop} [DecidableRel r] [DecidableRel s]
    {items : List PendingPhoto} (same : ∀ a ∈ items, ∀ b ∈ items, r a b ↔ s a b) :
    items.insertionSort r = items.insertionSort s := by
  simpa using List.map_insertionSort r s id items same

/-- What the sort of `due` goes by. -/
def sortKey (item : PendingPhoto) : List Nat := Capture.weigh item.takenAt.toList

variable {captured : PendingPhoto → Date}

def Stamped (captured : PendingPhoto → Date) (item : PendingPhoto) : Prop :=
  item.takenAt = Capture.toRfc3339 (captured item) ∧ (captured item).getTimezoneOffset.natAbs < 1440

theorem Stamped.isStamp {item : PendingPhoto} (h : Stamped captured item) :
    Capture.IsStamp item.takenAt.toList := by
  rw [h.1]
  exact Capture.isStamp_toRfc3339 h.2

theorem sortKey_lt {x y : PendingPhoto} (hx : Stamped captured x) (hy : Stamped captured y) :
    sortKey x < sortKey y ↔ Capture.ShownBefore (captured x) (captured y) := by
  rw [sortKey, sortKey, hx.1, hy.1]
  exact Capture.toRfc3339_lt hx.2 hy.2

theorem sortKey_inj {x y : PendingPhoto} (hx : Stamped captured x) (hy : Stamped captured y) :
    sortKey x = sortKey y ↔ x.takenAt = y.takenAt := by
  constructor
  · exact fun same => String.toList_inj.mp (Capture.weigh_inj hx.isStamp hy.isStamp same)
  · intro same
    rw [sortKey, sortKey, same]

/-- `due` gives the due items, each once; they come in the order they were captured exactly where
that order shows on the wall clocks, and on the keys where the wall clocks show the same second. -/
theorem due_in_capture_order_iff {localeLE : String → String → Bool} (collates : Capture.Collates localeLE)
    {b : Browser} (keyed : (b.store.map (·.clientId)).Nodup)
    (stamped : ∀ item ∈ b.store, Stamped captured item)
    (now : Int) {choices : Nat → ClientChoice} (reads : (choices 0).fault = .none) :
    ∃ items, (due localeLE now).run.run (fun o (b : Browser) => b.perform o) choices b =
        some (.ok items, b) ∧
      items.Nodup ∧ (∀ item, item ∈ items ↔ item ∈ b.store ∧ IsDue now item) ∧
      (items.Pairwise (fun x y => (captured x).time ≤ (captured y).time) ↔
        ∀ x ∈ b.store, ∀ y ∈ b.store, IsDue now x → IsDue now y →
          (captured x).time < (captured y).time →
          Capture.ShownBefore (captured x) (captured y) ∨
            x.takenAt = y.takenAt ∧ x.clientId < y.clientId) := by
  set selected := (stored b).filter fun item => !item.failed && item.nextAttemptAt ≤ now with hselected
  have member : ∀ item, item ∈ selected ↔ item ∈ b.store ∧ IsDue now item := by
    intro item
    simp [hselected, stored, IsDue, List.mem_insertionSort]
  have nodup : selected.Nodup :=
    ((List.perm_insertionSort _ b.store).nodup_iff.mpr (List.Nodup.of_map _ keyed)).filter _
  have sorts : (selected.insertionSort fun x y => localeLE x.takenAt y.takenAt) =
      selected.insertionSort fun x y => sortKey x ≤ sortKey y := by
    refine insertionSort_congr fun x hx y hy => ?_
    exact collates _ _ (stamped x ((member x).mp hx).1).isStamp (stamped y ((member y).mp hy).1).isStamp
  have perm := List.perm_insertionSort (fun x y => sortKey x ≤ sortKey y) selected
  refine ⟨_, due_run reads, ?_, ?_, ?_⟩
  · rw [← hselected, sorts]
    exact perm.nodup_iff.mpr nodup
  · intro item
    rw [← hselected, sorts, perm.mem_iff, member]
  · rw [← hselected, sorts, insertionSort_ordered_iff sortKey nodup fun item => (captured item).time]
    constructor
    · intro agrees x hx y hy dueX dueY earlier
      have inX := (member x).mpr ⟨hx, dueX⟩
      have inY := (member y).mpr ⟨hy, dueY⟩
      have ne : x ≠ y := by
        rintro rfl
        omega
      refine (agrees x inX y inY earlier).imp (sortKey_lt (stamped x hx) (stamped y hy)).mp ?_
      rintro ⟨same, before⟩
      exact ⟨(sortKey_inj (stamped x hx) (stamped y hy)).mp same,
        (pair_stored_iff keyed inX inY ne).mp before⟩
    · intro agrees x hx y hy earlier
      obtain ⟨inX, dueX⟩ := (member x).mp hx
      obtain ⟨inY, dueY⟩ := (member y).mp hy
      have ne : x ≠ y := by
        rintro rfl
        omega
      refine (agrees x inX y inY dueX dueY earlier).imp (sortKey_lt (stamped x inX) (stamped y inY)).mpr ?_
      rintro ⟨same, before⟩
      exact ⟨(sortKey_inj (stamped x inX) (stamped y inY)).mpr same,
        (pair_stored_iff keyed hx hy ne).mpr before⟩

/-- The order of the weights alone. -/
def rootLE (s t : String) : Bool := decide (Capture.weigh s.toList ≤ Capture.weigh t.toList)

private def sampleShot (clientId takenAt : String) : PendingPhoto :=
  ⟨clientId, [], "image/jpeg", takenAt, 0, 0, false, none⟩

private def sampleShelf (store : List PendingPhoto) : Browser :=
  ⟨store, none, fun _ => ⟨Fields.initial, none⟩, [], [], 0, 0⟩

private def sampleReads : Nat → ClientChoice := fun _ => ⟨.none, true, .error "offline", 0⟩

/-- The second photo is taken half an hour after the first one, in the zone to the west. -/
private def sampleEast : PendingPhoto := sampleShot "a" "2026-07-01T10:00:00+02:00"

private def sampleWest : PendingPhoto := sampleShot "b" "2026-07-01T09:30:00+01:00"

private def sampleDate (item : PendingPhoto) : Date :=
  if item.clientId = "a" then ⟨1782892800000, -120⟩ else ⟨1782894600000, -60⟩

private theorem sampleStamped : ∀ item ∈ [sampleEast, sampleWest], Stamped sampleDate item := by
  intro item hi
  simp only [List.mem_cons, List.not_mem_nil, or_false] at hi
  rcases hi with rfl | rfl <;> exact ⟨by decide +kernel, by decide⟩

theorem due_in_capture_order_border :
    ∃ items, (due rootLE 0).run.run (fun o (b : Browser) => b.perform o) sampleReads
        (sampleShelf [sampleEast, sampleWest]) = some (.ok items, sampleShelf [sampleEast, sampleWest]) ∧
      items.Nodup ∧
      (∀ item, item ∈ items ↔ item ∈ (sampleShelf [sampleEast, sampleWest]).store ∧ IsDue 0 item) ∧
      (items.Pairwise (fun x y => (sampleDate x).time ≤ (sampleDate y).time) ↔
        ∀ x ∈ (sampleShelf [sampleEast, sampleWest]).store, ∀ y ∈ (sampleShelf [sampleEast, sampleWest]).store,
          IsDue 0 x → IsDue 0 y → (sampleDate x).time < (sampleDate y).time →
          Capture.ShownBefore (sampleDate x) (sampleDate y) ∨
            x.takenAt = y.takenAt ∧ x.clientId < y.clientId) :=
  due_in_capture_order_iff (fun s t _ _ => decide_eq_true_iff) (by decide) sampleStamped 0 rfl

/-- Across the border the later photo comes first. -/
theorem due_out_of_capture_order :
    (due rootLE 0).run.run (fun o (b : Browser) => b.perform o) sampleReads
        (sampleShelf [sampleEast, sampleWest]) =
      some (.ok [sampleWest, sampleEast], sampleShelf [sampleEast, sampleWest]) ∧
    (∀ item ∈ [sampleEast, sampleWest], item.takenAt = Capture.toRfc3339 (sampleDate item)) ∧
    (sampleDate sampleEast).time < (sampleDate sampleWest).time := by
  refine ⟨?_, fun item hi => (sampleStamped item hi).1, by decide⟩
  rw [due_run rfl]
  rfl

end PhotoQueue

end ItalyTrip
