import ItalyTrip.EventForm

namespace ItalyTrip

namespace Download

open CreateEventModal (pad_two pad_four)

/-- The name of a photo that is saved on its own: the `Date` of its time, or `none` where that is `NaN`. -/
def downloadFilename (takenAt : Option Date) : String :=
  match takenAt with
  | none => "italy-photo.jpg"
  | some date =>
    "italy-" ++ toString date.getFullYear ++ Capture.pad (date.getMonth + 1 : Nat) ++
      Capture.pad date.getDate ++ "-" ++ Capture.pad date.getHours ++ Capture.pad date.getMinutes ++
      Capture.pad date.getSeconds ++ ".jpg"

example : downloadFilename (some ⟨1782892800500, -120⟩) = "italy-20260701-100000.jpg" := by decide +kernel

/-- The year of a date as both layouts write it. -/
theorem toString_padYear {year : Int} (low : 1000 ≤ year) (high : year ≤ 9999) :
    toString year = padYear year := by
  obtain ⟨n, rfl⟩ := Int.eq_ofNat_of_zero_le (show 0 ≤ year by omega)
  have plain : padYear n = pad 4 n := by simp [padYear]
  rw [plain, ← String.toList_inj, Capture.toString_year (by omega) (by omega), pad_four (by omega)]

theorem pad_twice {n : Nat} (h : n < 100) : Capture.pad n = pad 2 n := by
  rw [← String.toList_inj, Capture.pad_toList h, pad_two h]

theorem utcYear_local (date : Date) : utcYear (date.localSeconds * 1000000000) = date.getFullYear := by
  rw [utcYear, Int.mul_ediv_cancel _ (by decide)]
  rfl

/-- The name is the one that the server gives at the local time. -/
theorem downloadFilename_local {date : Date} (low : 1000 ≤ date.getFullYear)
    (high : date.getFullYear ≤ 9999) :
    downloadFilename (some date) = Photos.downloadFilename (date.localSeconds * 1000000000) := by
  obtain ⟨hmonth, hday, hhours, hminutes, hseconds⟩ := Capture.fields_bounds date
  have seconds : date.localSeconds * 1000000000 / 1000000000 = date.localSeconds :=
    Int.mul_ediv_cancel _ (by decide)
  obtain ⟨year, hyear⟩ := Int.eq_ofNat_of_zero_le (show 0 ≤ date.getFullYear by omega)
  have hdate : civilDate (date.localSeconds / 86400) = ⟨year, date.localDate.month, date.getDate⟩ := by
    rw [← hyear]
    rfl
  have month : date.getMonth + 1 = date.localDate.month := Nat.sub_add_cancel (civilDate_counts hdate).1
  simp only [downloadFilename, toString_padYear low high, pad_twice hmonth, pad_twice hday, pad_twice hhours,
    pad_twice hminutes, pad_twice hseconds]
  simp only [Photos.downloadFilename, formatTime, seconds, month, String.append_assoc]
  rfl

/-- The server gives one name to the times of one second. -/
theorem serverName_inj {t t' : Instant} (ht : 0 ≤ utcYear t ∧ utcYear t ≤ 9999)
    (ht' : 0 ≤ utcYear t' ∧ utcYear t' ≤ 9999) :
    Photos.downloadFilename t = Photos.downloadFilename t' ↔ t / 1000000000 = t' / 1000000000 := by
  refine ⟨fun same => ?_, fun same => by simp [Photos.downloadFilename, formatTime, same]⟩
  have text : (formatTime t).toList = (formatTime t').toList := by
    have names := congrArg String.toList same
    simpa [Photos.downloadFilename] using names
  by_contra differ
  obtain before | after := Int.lt_or_gt_of_ne differ
  · have lt := formatTime_lt ht ht' before [] []
    rw [text] at lt
    exact List.lt_irrefl _ lt
  · have lt := formatTime_lt ht' ht after [] []
    rw [text] at lt
    exact List.lt_irrefl _ lt

/-- The time of a photo as a browser reads it. -/
def dateOf (takenAt : Instant) (timezoneOffset : Int) : Date := ⟨takenAt / 1000000, timezoneOffset⟩

theorem localSeconds_dateOf (takenAt timezoneOffset : Int) :
    (dateOf takenAt timezoneOffset).localSeconds = takenAt / 1000000000 ↔ timezoneOffset = 0 := by
  unfold Date.localSeconds dateOf
  dsimp only
  omega

/-- A photo that is saved on its own has the name that the server gives it exactly where the browser is on
UTC, and two of them have one name exactly within a second of the local time. -/
theorem saved_names {t : Instant} {offset : Int}
    (inYears : 1000 ≤ (dateOf t offset).getFullYear ∧ (dateOf t offset).getFullYear ≤ 9999) :
    (0 ≤ utcYear t ∧ utcYear t ≤ 9999 →
      (downloadFilename (some (dateOf t offset)) = Photos.downloadFilename t ↔ offset = 0)) ∧
    ∀ t' offset', 1000 ≤ (dateOf t' offset').getFullYear ∧ (dateOf t' offset').getFullYear ≤ 9999 →
      (downloadFilename (some (dateOf t offset)) = downloadFilename (some (dateOf t' offset')) ↔
        (dateOf t offset).localSeconds = (dateOf t' offset').localSeconds) := by
  have year : ∀ {date : Date}, 1000 ≤ date.getFullYear ∧ date.getFullYear ≤ 9999 →
      0 ≤ utcYear (date.localSeconds * 1000000000) ∧ utcYear (date.localSeconds * 1000000000) ≤ 9999 := by
    intro date bounds
    rw [utcYear_local]
    exact ⟨by omega, bounds.2⟩
  refine ⟨fun utc => ?_, fun t' offset' inYears' => ?_⟩
  · rw [downloadFilename_local inYears.1 inYears.2, serverName_inj (year inYears) utc,
      Int.mul_ediv_cancel _ (by decide)]
    exact localSeconds_dateOf t offset
  · rw [downloadFilename_local inYears.1 inYears.2, downloadFilename_local inYears'.1 inYears'.2,
      serverName_inj (year inYears) (year inYears'), Int.mul_ediv_cancel _ (by decide),
      Int.mul_ediv_cancel _ (by decide)]

theorem saved_names_rome : downloadFilename (some (dateOf 1782892800500000000 (-120))) ≠
    Photos.downloadFilename 1782892800500000000 := by
  have differ := (@saved_names 1782892800500000000 (-120) (by decide +kernel)).1 (by decide +kernel)
  exact fun same => absurd (differ.mp same) (by decide)

end Download

end ItalyTrip
