import ItalyTrip.ArchiveNames
import ItalyTrip.CivilDays
import ItalyTrip.Disposition
import ItalyTrip.Router

namespace ItalyTrip

theorem append_lt_iff {p s t : Bytes} : p ++ s < p ++ t ↔ s < t := by
  induction p with
  | nil => rfl
  | cons b p ih => simp [ih]

theorem utf8_digit {d : Nat} (h : d < 10) (s : List Char) :
    utf8 (d.digitChar :: s) = UInt8.ofNat (48 + d) :: utf8 s := by
  have all : ∀ d < 10, String.utf8EncodeChar (Nat.digitChar d) = [UInt8.ofNat (48 + d)] := by decide
  have encoded := all d h
  simp [utf8, encoded]

theorem utf8_dash (s : List Char) : utf8 ('-' :: s) = 0x2d :: utf8 s := rfl

theorem digit_lt {d e : Nat} (hd : d < 10) (he : e < 10) (s t : List Char) :
    utf8 (d.digitChar :: s) < utf8 (e.digitChar :: t) ↔ d < e ∨ d = e ∧ utf8 s < utf8 t := by
  have small : ∀ n < 10, (UInt8.ofNat (48 + n)).toNat = 48 + n := by decide
  rw [utf8_digit hd, utf8_digit he, List.cons_lt_cons_iff, UInt8.lt_iff_toNat_lt, ← UInt8.toNat_inj,
    small d hd, small e he, Nat.add_lt_add_iff_left, Nat.add_right_inj]

/-- A number is its last digit after the number of its other digits. -/
theorem pad_succ {width : Nat} (positive : 0 < width) (n : Nat) :
    (pad (width + 1) n).toList = (pad width (n / 10)).toList ++ [(n % 10).digitChar] := by
  unfold pad
  by_cases one : n < 10
  · have digits : Nat.toDigits 10 n = [n.digitChar] := Nat.toDigits_of_lt_base one
    have zero : Nat.toDigits 10 0 = ['0'] := rfl
    obtain ⟨width, rfl⟩ := Nat.exists_eq_succ_of_ne_zero (Nat.ne_of_gt positive)
    simp [← String.length_toList, digits, zero, Nat.div_eq_of_lt one, Nat.mod_eq_of_lt one,
      List.replicate_succ']
  · have digits := Nat.toDigits_of_base_le (show 1 < 10 by decide) (Nat.le_of_not_lt one)
    simp [← String.length_toList, digits, Nat.add_sub_add_right]

theorem pad_one {n : Nat} (h : n < 10) : (pad 1 n).toList = [n.digitChar] := by
  have digits : Nat.toDigits 10 n = [n.digitChar] := Nat.toDigits_of_lt_base h
  simp [pad, ← String.length_toList, digits]

/-- Fields of one width are compared as the numbers they are. -/
theorem pad_lt {width n m : Nat} (hn : n < 10 ^ (width + 1)) (hm : m < 10 ^ (width + 1))
    (s t : List Char) :
    utf8 ((pad (width + 1) n).toList ++ s) < utf8 ((pad (width + 1) m).toList ++ t) ↔
      n < m ∨ n = m ∧ utf8 s < utf8 t := by
  induction width generalizing n m s t with
  | zero =>
    rw [pad_one (by omega), pad_one (by omega)]
    exact digit_lt (by omega) (by omega) s t
  | succ width ih =>
    rw [pad_succ (Nat.succ_pos _), pad_succ (Nat.succ_pos _), List.append_assoc, List.append_assoc,
      ih (Nat.div_lt_of_lt_mul (by omega)) (Nat.div_lt_of_lt_mul (by omega))]
    have last := digit_lt (Nat.mod_lt n (by decide)) (Nat.mod_lt m (show 10 > 0 by decide)) s t
    rw [List.singleton_append, List.singleton_append, last]
    exact place_lt

namespace GoTime

theorem daysBefore_lt {year month later : Nat} (low : 1 ≤ month) (h : month < later) :
    daysBefore year month + daysIn month year ≤ daysBefore year later := by
  induction later with
  | zero => omega
  | succ later ih =>
    obtain ⟨before, rfl⟩ := Nat.exists_eq_add_of_le' (show 1 ≤ later by omega)
    have next : daysBefore year (before + 1 + 1) =
      daysBefore year (before + 1) + daysIn (before + 1) year := rfl
    obtain rfl | earlier := Nat.eq_or_lt_of_le (Nat.le_of_lt_succ h)
    · exact Nat.le_of_eq next.symm
    · have := ih earlier
      omega

theorem daysBefore_december (year : Nat) :
    daysBefore year 12 + 31 = if isLeap year then 366 else 365 := by
  simp only [daysBefore, daysIn]
  split <;> rfl

theorem daysToYear_succ (year : Nat) :
    daysToYear year + daysBefore year 12 + 31 = daysToYear (year + 1) := by
  have whole := daysBefore_december year
  have fours : (year + 1 + 3) / 4 = (year + 3) / 4 + if year % 4 = 0 then 1 else 0 := by
    split <;> omega
  have centuries : (year + 1 + 99) / 100 = (year + 99) / 100 + if year % 100 = 0 then 1 else 0 := by
    split <;> omega
  have eras : (year + 1 + 399) / 400 = (year + 399) / 400 + if year % 400 = 0 then 1 else 0 := by
    split <;> omega
  unfold daysToYear
  rw [fours, centuries, eras]
  by_cases leap : isLeap year = true
  · rw [if_pos leap] at whole
    obtain ⟨four, century⟩ := isLeap_iff.mp leap
    rw [if_pos four]
    split <;> split <;> omega
  · rw [if_neg leap] at whole
    have common := mt isLeap_iff.mpr leap
    split <;> split <;> split <;> omega

theorem daysToYear_mono : Monotone daysToYear := by
  refine monotone_nat_of_le_succ fun year => ?_
  have := daysToYear_succ year
  omega

/-- A day of the calendar. -/
def IsDate (year month day : Nat) : Prop :=
  1 ≤ month ∧ month ≤ 12 ∧ 1 ≤ day ∧ day ≤ daysIn month year

/-- What `Date` counts the days of. -/
def dayCount (year month day : Nat) : Nat := daysToYear year + daysBefore year month + day

section

variable {year month day year' month' day' : Nat}

theorem dayCount_le (h : IsDate year month day) :
    dayCount year month day ≤ daysToYear (year + 1) := by
  obtain ⟨low, high, -, inMonth⟩ := h
  have whole := daysToYear_succ year
  unfold dayCount
  obtain rfl | before := Nat.eq_or_lt_of_le high
  · have december : daysIn 12 year = 31 := rfl
    omega
  · have := @daysBefore_lt year month 12 low before
    omega

theorem dayCount_lt (h : IsDate year month day) (h' : IsDate year' month' day')
    (before : year < year' ∨ year = year' ∧ (month < month' ∨ month = month' ∧ day < day')) :
    dayCount year month day < dayCount year' month' day' := by
  obtain ⟨low, -, -, inMonth⟩ := id h
  obtain ⟨-, -, first, -⟩ := h'
  obtain earlier | ⟨rfl, earlier | ⟨rfl, earlier⟩⟩ := before
  · have done := dayCount_le h
    have next := daysToYear_mono (show year + 1 ≤ year' from earlier)
    unfold dayCount at *
    omega
  · have done := @daysBefore_lt year month month' low earlier
    unfold dayCount
    omega
  · exact Nat.add_lt_add_left earlier _

theorem dayCount_inj (h : IsDate year month day) (h' : IsDate year' month' day')
    (same : dayCount year month day = dayCount year' month' day') :
    year = year' ∧ month = month' ∧ day = day' := by
  have before := dayCount_lt h h'
  have after := dayCount_lt h' h
  by_contra other
  obtain lt | gt : (year < year' ∨ year = year' ∧ (month < month' ∨ month = month' ∧ day < day')) ∨
      (year' < year ∨ year' = year ∧ (month' < month ∨ month' = month ∧ day' < day)) := by
    omega
  · exact Nat.ne_of_lt (before lt) same
  · exact Nat.ne_of_gt (after gt) same

theorem dayCount_lt_iff (h : IsDate year month day) (h' : IsDate year' month' day') :
    dayCount year month day < dayCount year' month' day' ↔
      year < year' ∨ year = year' ∧ (month < month' ∨ month = month' ∧ day < day') := by
  refine ⟨fun counts => ?_, dayCount_lt h h'⟩
  by_contra other
  have after := dayCount_lt h' h
  by_cases same : year = year' ∧ month = month' ∧ day = day'
  · obtain ⟨rfl, rfl, rfl⟩ := same
    exact Nat.lt_irrefl _ counts
  · exact Nat.lt_asymm counts (after (by omega))

end

end GoTime

/-- The year of a time in UTC. -/
def utcYear (t : Instant) : Int := (civilDate (t / 1000000000 / 86400)).year

/-- The text of a time in a year of four digits has its fields at fixed places. -/
theorem formatTime_fields {t : Instant} (low : 0 ≤ utcYear t) (high : utcYear t ≤ 9999) :
    ∃ year month day second : Nat, year < 10 ^ 4 ∧ GoTime.IsDate year month day ∧
      second < 86400 ∧
      t / 1000000000 = (GoTime.dayCount year month day - 719529 : Int) * 86400 + second ∧
      (formatTime t).toList = (pad 4 year).toList ++ ((pad 2 month).toList ++ ((pad 2 day).toList ++
        '-' :: ((pad 2 (second / 3600)).toList ++ ((pad 2 (second / 60 % 60)).toList ++
          (pad 2 (second % 60)).toList)))) := by
  obtain ⟨year, hyear⟩ := Int.eq_ofNat_of_zero_le low
  unfold utcYear at hyear high
  obtain ⟨month, day, hdate⟩ : ∃ month day,
      civilDate (t / 1000000000 / 86400) = ⟨year, month, day⟩ := ⟨_, _, by rw [← hyear]⟩
  obtain ⟨hmonth, hmonth', hday, hday', counted⟩ := civilDate_counts hdate
  refine ⟨year, month, day, (t / 1000000000 % 86400).toNat, by omega, ⟨hmonth, hmonth', hday, hday'⟩,
    by omega, ?_, ?_⟩
  · rw [GoTime.dayCount, counted, Int.toNat_of_nonneg (Int.emod_nonneg _ (by decide))]
    exact (Int.ediv_mul_add_emod _ _).symm
  · have positive : ¬ (year : Int) < 0 := by omega
    simp [formatTime, padYear, hdate, positive]

theorem timeOfDay_lt {second second' : Nat} (h : second < second') :
    second / 3600 < second' / 3600 ∨ second / 3600 = second' / 3600 ∧
      (second / 60 % 60 < second' / 60 % 60 ∨ second / 60 % 60 = second' / 60 % 60 ∧
        second % 60 < second' % 60) := by
  omega

/-- Texts of times are in the order of their seconds, whatever follows them. -/
theorem formatTime_lt {t t' : Instant} (ht : 0 ≤ utcYear t ∧ utcYear t ≤ 9999)
    (ht' : 0 ≤ utcYear t' ∧ utcYear t' ≤ 9999) (before : t / 1000000000 < t' / 1000000000)
    (s s' : List Char) : utf8 ((formatTime t).toList ++ s) < utf8 ((formatTime t').toList ++ s') := by
  obtain ⟨year, month, day, second, hyear, hdate, hsecond, seconds, text⟩ := formatTime_fields ht.1 ht.2
  obtain ⟨year', month', day', second', hyear', hdate', hsecond', seconds', text'⟩ :=
    formatTime_fields ht'.1 ht'.2
  have dates := GoTime.dayCount_lt_iff hdate hdate'
  have days := GoTime.daysIn_le month year
  have days' := GoTime.daysIn_le month' year'
  obtain ⟨-, hmonth, -, hday⟩ := id hdate
  obtain ⟨-, hmonth', -, hday'⟩ := id hdate'
  rw [text, text']
  simp only [List.append_assoc, List.cons_append]
  have years := @pad_lt 3 _ _ hyear hyear'
  have twoDigits := fun n m hn hm => @pad_lt 1 n m hn hm
  rw [years, twoDigits _ _ (by omega) (by omega), twoDigits _ _ (by omega) (by omega), utf8_dash,
    utf8_dash, List.cons_lt_cons_iff, twoDigits _ _ (by omega) (by omega),
    twoDigits _ _ (by omega) (by omega), twoDigits _ _ (by omega) (by omega)]
  obtain earlier | ⟨same, earlier⟩ :
      GoTime.dayCount year month day < GoTime.dayCount year' month' day' ∨
        GoTime.dayCount year month day = GoTime.dayCount year' month' day' ∧ second < second' := by
    rw [seconds, seconds'] at before
    change (_ : Int) < _ at before
    omega
  · obtain first | ⟨rfl, second | ⟨rfl, third⟩⟩ := dates.mp earlier
    · exact Or.inl first
    · exact Or.inr ⟨rfl, Or.inl second⟩
    · exact Or.inr ⟨rfl, Or.inr ⟨rfl, Or.inl third⟩⟩
  · obtain ⟨rfl, rfl, rfl⟩ := GoTime.dayCount_inj hdate hdate' same
    refine Or.inr ⟨rfl, Or.inr ⟨rfl, Or.inr ⟨rfl, Or.inr ⟨rfl, ?_⟩⟩⟩⟩
    obtain first | ⟨hours, second | ⟨minutes, third⟩⟩ := timeOfDay_lt earlier
    · exact Or.inl first
    · exact Or.inr ⟨hours, Or.inl second⟩
    · exact Or.inr ⟨hours, Or.inr ⟨minutes, Or.inl third⟩⟩

namespace Photos

/-- The second that `Format` shows. -/
def unixSecond (row : Photo) : Int := row.takenAt / 1000000000

def nameOf (row : Photo) : String := downloadFilename row.takenAt

theorem nameOf_congr {row row' : Photo} (same : unixSecond row = unixSecond row') :
    nameOf row = nameOf row' := by
  unfold unixSecond at same
  unfold nameOf downloadFilename formatTime
  rw [same]

theorem utf8_suffixed (row : Photo) (k : Nat) : utf8 (suffixed (nameOf row) k).toList =
    utf8 "italy-".toList ++ utf8 ((formatTime row.takenAt).toList ++
      ((if k = 1 then [] else '-' :: Nat.toDigits 10 k) ++ ".jpg".toList)) := by
  rw [nameOf, suffixed_toList, List.append_assoc, List.append_assoc, utf8_append]

/-- A photo of a later second has a later name, whatever their numbers. -/
theorem suffixed_lt {row row' : Photo} (hrow : 0 ≤ utcYear row.takenAt ∧ utcYear row.takenAt ≤ 9999)
    (hrow' : 0 ≤ utcYear row'.takenAt ∧ utcYear row'.takenAt ≤ 9999)
    (before : unixSecond row < unixSecond row') (k k' : Nat) :
    utf8 (suffixed (nameOf row) k).toList < utf8 (suffixed (nameOf row') k').toList := by
  rw [utf8_suffixed, utf8_suffixed, append_lt_iff]
  exact formatTime_lt hrow hrow' before _ _

/-- The dash of a number is below the dot of the extension. -/
theorem dash_lt (digits : List Char) :
    utf8 ('-' :: digits ++ ".jpg".toList) < utf8 ([] ++ ".jpg".toList) := by
  have dot : utf8 ([] ++ ".jpg".toList) = 0x2e :: utf8 "jpg".toList := by decide
  rw [List.cons_append, utf8_dash, dot, List.cons_lt_cons_iff]
  exact Or.inl (by decide)

theorem numbered_lt (row : Photo) {k : Nat} (h : 1 < k) :
    utf8 (suffixed (nameOf row) k).toList < utf8 (suffixed (nameOf row) 1).toList := by
  have other : k ≠ 1 := by omega
  rw [utf8_suffixed, utf8_suffixed, append_lt_iff, if_neg other, if_pos rfl]
  generalize (formatTime row.takenAt).toList = text
  rw [utf8_append text, utf8_append text, append_lt_iff]
  exact dash_lt _

/-- The photo of a name that the loop meets next gets the next number of that name. -/
theorem exists_entry {seen : Names} {names : List String} {name : String} (h : name ∈ names) :
    ∃ k, seen.count name < k ∧ suffixed name k ∈ entryNames seen names := by
  induction names generalizing seen with
  | nil => cases h
  | cons other names ih =>
    simp only [entryNames, uniqueName_eq]
    by_cases same : name = other
    · subst same
      exact ⟨_, Nat.lt_succ_self _, List.mem_cons_self⟩
    · obtain ⟨k, fresh, entry⟩ := @ih ((other, seen.count other + 1) :: seen)
        ((List.mem_cons.mp h).resolve_left same)
      rw [count_cons, if_neg same] at fresh
      exact ⟨k, fresh, List.mem_cons_of_mem _ entry⟩

def bytewise (a b : String) : Prop := utf8 a.toList ≤ utf8 b.toList

instance (a b : String) : Decidable (bytewise a b) :=
  inferInstanceAs (Decidable (utf8 a.toList ≤ utf8 b.toList))

theorem names_sorted {rows : List Photo}
    (seconds : rows.Pairwise fun p q => unixSecond p < unixSecond q)
    (years : ∀ row ∈ rows, 0 ≤ utcYear row.takenAt ∧ utcYear row.takenAt ≤ 9999) (seen : Names) :
    (entryNames seen (rows.map nameOf)).Pairwise bytewise := by
  induction rows generalizing seen with
  | nil => exact List.Pairwise.nil
  | cons row rows ih =>
    obtain ⟨first, later⟩ := List.pairwise_cons.mp seconds
    have rest := ih later fun row hrow => years row (List.mem_cons_of_mem _ hrow)
    simp only [List.map_cons, entryNames, uniqueName_eq]
    refine List.pairwise_cons.mpr ⟨fun entry hentry => ?_, rest _⟩
    obtain ⟨name, hname, k, -, rfl⟩ := mem_entryNames hentry
    obtain ⟨row', hrow', rfl⟩ := List.mem_map.mp hname
    have lt := suffixed_lt (years row List.mem_cons_self) (years row' (List.mem_cons_of_mem _ hrow'))
      (first row' hrow') (seen.count (nameOf row) + 1) k
    exact List.le_of_lt lt

theorem seconds_nodup {rows : List Photo} {seen : Names}
    (sorted : (entryNames seen (rows.map nameOf)).Pairwise bytewise)
    (fresh : ∀ row ∈ rows, seen.count (nameOf row) = 0) : (rows.map unixSecond).Nodup := by
  induction rows generalizing seen with
  | nil => exact List.nodup_nil
  | cons row rows ih =>
    have zero := fresh row List.mem_cons_self
    simp only [List.map_cons, entryNames, uniqueName_eq, zero] at sorted
    obtain ⟨first, rest⟩ := List.pairwise_cons.mp sorted
    -- a second photo of this name would have a number, and stand before this one
    have alone : nameOf row ∉ rows.map nameOf := by
      intro again
      obtain ⟨k, numbered, entry⟩ :=
        @exists_entry ((nameOf row, 0 + 1) :: seen) _ _ again
      rw [count_cons, if_pos rfl] at numbered
      exact first _ entry (numbered_lt row numbered)
    refine List.nodup_cons.mpr ⟨fun again => alone ?_, ih rest fun row' hrow' => ?_⟩
    · obtain ⟨row', hrow', same⟩ := List.mem_map.mp again
      exact List.mem_map.mpr ⟨row', hrow', nameOf_congr same⟩
    · have other : nameOf row' ≠ nameOf row := fun same =>
        alone (same ▸ List.mem_map_of_mem hrow')
      rw [count_cons, if_neg other]
      exact fresh row' (List.mem_cons_of_mem _ hrow')

/-- The names of an archive are in the order of the album exactly when no two of its photos were
taken in one second. -/
theorem names_in_album_order_iff {rows : List Photo} (listed : rows.Pairwise photoBefore)
    (years : ∀ row ∈ rows, 0 ≤ utcYear row.takenAt ∧ utcYear row.takenAt ≤ 9999) :
    (entryNames [] (rows.map nameOf)).Pairwise bytewise ↔ (rows.map unixSecond).Nodup := by
  refine ⟨fun sorted => seconds_nodup sorted fun _ _ => rfl, fun distinct => ?_⟩
  refine names_sorted ?_ years []
  have apart := List.pairwise_map.mp distinct
  refine (listed.and apart).imp fun {p q} h => ?_
  obtain ⟨ordered, differ⟩ := h
  have le : p.takenAt ≤ q.takenAt := by
    obtain lt | ⟨eq, -⟩ := ordered
    · exact Int.le_of_lt lt
    · exact Int.le_of_eq eq
  unfold unixSecond at *
  have floor := Int.ediv_le_ediv (show (0 : Int) < 1000000000 by decide) le
  exact lt_of_le_of_ne floor differ

private def sampleAlbum : List Photo := [samplePhoto, { samplePhoto with takenAt := 3000000000 }]

theorem names_in_album_order_sample :
    (entryNames [] (sampleAlbum.map nameOf)).Pairwise bytewise :=
  (@names_in_album_order_iff sampleAlbum (by decide) (by decide)).mpr (by decide)

/-- The second photo of a burst is `-2.jpg`, and a dash sorts before a dot. -/
theorem burst_out_of_order : ∃ rows : List Photo, rows.Pairwise photoBefore ∧
    (∀ row ∈ rows, 0 ≤ utcYear row.takenAt ∧ utcYear row.takenAt ≤ 9999) ∧
    entryNames [] (rows.map nameOf) = ["italy-19700101-000002.jpg", "italy-19700101-000002-2.jpg"] ∧
    ¬ (entryNames [] (rows.map nameOf)).Pairwise bytewise :=
  ⟨[samplePhoto, { samplePhoto with id := 10, takenAt := 2500000000 }], by decide, by decide,
    by decide +kernel, by decide +kernel⟩

end Photos

end ItalyTrip
