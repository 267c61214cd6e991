import ItalyTrip.CivilDays
import ItalyTrip.Router

namespace ItalyTrip

/-- A `Date`: milliseconds since the Unix epoch, and what `getTimezoneOffset` answers for them. -/
structure Date where
  time : Int
  getTimezoneOffset : Int
  deriving DecidableEq, Repr

namespace Date

/-- The offset is the minutes behind UTC. -/
def localSeconds (date : Date) : Int := (date.time - date.getTimezoneOffset * 60000) / 1000

def localDate (date : Date) : CivilDate := civilDate (date.localSeconds / 86400)

def localSecond (date : Date) : Nat := (date.localSeconds % 86400).toNat

def getFullYear (date : Date) : Int := date.localDate.year

def getMonth (date : Date) : Nat := date.localDate.month - 1

def getDate (date : Date) : Nat := date.localDate.day

def getHours (date : Date) : Nat := date.localSecond / 3600

def getMinutes (date : Date) : Nat := date.localSecond / 60 % 60

def getSeconds (date : Date) : Nat := date.localSecond % 60

end Date

namespace Capture

def pad (value : Int) : String :=
  let text := toString value.natAbs
  String.ofList (List.replicate (2 - text.length) '0') ++ text

def toRfc3339 (date : Date) : String :=
  -- getTimezoneOffset is minutes *behind* UTC, so the sign is inverted.
  let offsetMinutes := -date.getTimezoneOffset
  let sign := if 0 ≤ offsetMinutes then "+" else "-"
  let offset :=
    sign ++ pad (offsetMinutes.natAbs / 60 : Nat) ++ ":" ++ pad (offsetMinutes.natAbs % 60 : Nat)
  toString date.getFullYear ++ "-" ++ pad (date.getMonth + 1 : Nat) ++ "-" ++ pad date.getDate ++
    "T" ++ pad date.getHours ++ ":" ++ pad date.getMinutes ++ ":" ++ pad date.getSeconds ++ offset

example : toRfc3339 ⟨1782892800500, -120⟩ = "2026-07-01T10:00:00+02:00" := by decide +kernel

example : toRfc3339 ⟨1782878400000, 210⟩ = "2026-07-01T00:30:00-03:30" := by decide +kernel

/-- The two digits of a field. -/
def twoDigits (n : Nat) : List Char := [(n / 10).digitChar, (n % 10).digitChar]

def zoneText (offset : Int) : List Char :=
  (if 0 ≤ -offset then '+' else '-') ::
    (twoDigits (offset.natAbs / 60) ++ ':' :: twoDigits (offset.natAbs % 60))

theorem toDigits_two {n : Nat} (low : 10 ≤ n) (high : n < 100) :
    Nat.toDigits 10 n = twoDigits n := by
  rw [Nat.toDigits_of_base_le (by decide) low, Nat.toDigits_of_lt_base (by omega)]
  rfl

theorem pad_toList {n : Nat} (high : n < 100) : (pad n).toList = twoDigits n := by
  unfold pad
  by_cases one : n < 10
  · have digits : Nat.toDigits 10 n = [n.digitChar] := Nat.toDigits_of_lt_base one
    simp [← String.length_toList, digits, twoDigits, Nat.div_eq_of_lt one, Nat.mod_eq_of_lt one]
  · simp [← String.length_toList, toDigits_two (Nat.le_of_not_lt one) high, twoDigits]

theorem toString_year {n : Nat} (low : 1000 ≤ n) (high : n ≤ 9999) :
    (toString (n : Int)).toList = twoDigits (n / 100) ++ twoDigits (n % 100) := by
  have text : (toString (n : Int)).toList = Nat.toDigits 10 n := Nat.toList_repr
  have tens : n % 100 / 10 = n / 10 % 10 := by omega
  have units : n % 100 % 10 = n % 10 := by omega
  rw [text, Nat.toDigits_of_base_le (by decide) (by omega),
    Nat.toDigits_of_base_le (by decide) (by omega), toDigits_two (by omega) (by omega),
    Nat.div_div_eq_div_mul]
  simp [twoDigits, tens, units]

/-- What follows the year and its dash. -/
def afterYear (date : Date) : List Char :=
  twoDigits (date.getMonth + 1) ++ '-' :: (twoDigits date.getDate ++ 'T' ::
    (twoDigits date.getHours ++ ':' :: (twoDigits date.getMinutes ++ ':' ::
      (twoDigits date.getSeconds ++ zoneText date.getTimezoneOffset))))

theorem fields_bounds (date : Date) :
    date.getMonth + 1 < 100 ∧ date.getDate < 100 ∧ date.getHours < 100 ∧ date.getMinutes < 100 ∧
      date.getSeconds < 100 := by
  obtain ⟨month, day⟩ := civilDate_bounds (date.localSeconds / 86400)
  unfold Date.getMonth Date.getDate Date.getHours Date.getMinutes Date.getSeconds Date.localDate
    Date.localSecond
  omega

/-- What the text of a date has at its places. -/
theorem toRfc3339_split {date : Date} (hoffset : date.getTimezoneOffset.natAbs < 1440) :
    (toRfc3339 date).toList = (toString date.getFullYear).toList ++ '-' :: afterYear date := by
  obtain ⟨hmonth, hday, hhours, hminutes, hseconds⟩ := fields_bounds date
  have offsetHours := @pad_toList (date.getTimezoneOffset.natAbs / 60) (by omega)
  have offsetMinutes := @pad_toList (date.getTimezoneOffset.natAbs % 60) (by omega)
  unfold toRfc3339 afterYear zoneText
  simp only [String.toList_append, pad_toList hmonth, pad_toList hday, pad_toList hhours,
    pad_toList hminutes, pad_toList hseconds, Int.natAbs_neg, offsetHours, offsetMinutes]
  split <;> simp

theorem digit_read {d : Nat} (h : d < 10) :
    d.digitChar.isDigit = true ∧ GoTime.digitValue d.digitChar = d := by
  have all : ∀ d < 10, (Nat.digitChar d).isDigit = true ∧
      GoTime.digitValue (Nat.digitChar d) = d := by decide
  exact all d h

theorem getnum_twoDigits {n : Nat} (h : n < 100) (fixed : Bool) (rest : List Char) :
    GoTime.getnum fixed (twoDigits n ++ rest) = some (n, rest) := by
  obtain ⟨tens, tensValue⟩ := @digit_read (n / 10) (by omega)
  obtain ⟨units, unitsValue⟩ := @digit_read (n % 10) (by omega)
  have value : 10 * (n / 10) + n % 10 = n := by omega
  simp [twoDigits, GoTime.getnum, tens, units, tensValue, unitsValue, value]

theorem element_twoDigits {n low high : Nat} (h : n < 100) (inside : low ≤ n ∧ n ≤ high)
    (std name : String) (fixed : Bool) (rest : List Char) :
    GoTime.element std name fixed low high (twoDigits n ++ rest) = .ok (n, rest) := by
  simp only [GoTime.element, getnum_twoDigits h]
  rw [if_neg (by omega)]

theorem yearOf_digits {n : Nat} (h : n ≤ 9999) (rest : List Char) :
    GoTime.yearOf (twoDigits (n / 100) ++ twoDigits (n % 100) ++ rest) = .ok (n, rest) := by
  obtain ⟨thousands, thousandsValue⟩ := @digit_read (n / 100 / 10) (by omega)
  obtain ⟨hundreds, hundredsValue⟩ := @digit_read (n / 100 % 10) (by omega)
  obtain ⟨tens, tensValue⟩ := @digit_read (n % 100 / 10) (by omega)
  obtain ⟨units, unitsValue⟩ := @digit_read (n % 100 % 10) (by omega)
  unfold twoDigits
  generalize (n / 100 / 10).digitChar = a, (n / 100 % 10).digitChar = b,
    (n % 100 / 10).digitChar = c, (n % 100 % 10).digitChar = d at *
  simp [GoTime.yearOf, GoTime.number, thousands, hundreds, tens, units, thousandsValue,
    hundredsValue, tensValue, unitsValue]
  omega

theorem zone_twoDigits {hours minutes : Nat} (hh : hours ≤ 24) (hm : minutes ≤ 59) {sign : Char}
    (hs : sign = '+' ∨ sign = '-') :
    GoTime.zone (sign :: (twoDigits hours ++ ':' :: twoDigits minutes)) =
      .ok (if sign = '+' then ((hours * 60 + minutes) * 60 : Nat)
        else -((hours * 60 + minutes) * 60 : Nat), []) := by
  have h := @getnum_twoDigits hours (by omega) true []
  have m := @getnum_twoDigits minutes (by omega) true []
  have inRange : ¬ 60 < minutes := by omega
  unfold twoDigits at *
  obtain rfl | rfl := hs
  · simp only [List.cons_append, List.nil_append, GoTime.zone] at *
    simp [h, m, Nat.not_lt.mpr hh, inRange]
  · simp only [List.cons_append, List.nil_append, GoTime.zone] at *
    simp [h, m, Nat.not_lt.mpr hh, inRange]

theorem zone_zoneText {offset : Int} (h : offset.natAbs < 1440) :
    GoTime.zone (zoneText offset) = .ok (-offset * 60, []) := by
  unfold zoneText
  rw [zone_twoDigits (by omega) (by omega) (by split <;> simp)]
  split
  next east =>
    simp only [↓reduceIte, Except.ok.injEq, Prod.mk.injEq, and_true]
    omega
  next west =>
    simp only [Char.reduceEq, ↓reduceIte, Except.ok.injEq, Prod.mk.injEq, and_true]
    omega

/-- No fraction follows the seconds. -/
theorem fraction_zoneText (offset : Int) : GoTime.fraction (zoneText offset) = (0, zoneText offset) := by
  unfold GoTime.fraction zoneText
  split
  next sep rest h =>
    obtain ⟨rfl, -⟩ := List.cons.inj h
    split <;> simp_all
  next => rfl

/-- The parser reads the fields of a text of two digits each. -/
theorem parseValue_text {year month day hours minutes seconds : Nat} {offset : Int}
    (hyear : year ≤ 9999) (hmonth : 1 ≤ month ∧ month ≤ 12)
    (hday : 1 ≤ day ∧ day ≤ GoTime.daysIn month year) (hhours : hours ≤ 23)
    (hminutes : minutes ≤ 59) (hseconds : seconds ≤ 59) (hoffset : offset.natAbs < 1440) :
    GoTime.parseValue (twoDigits (year / 100) ++ twoDigits (year % 100) ++ '-' ::
      (twoDigits month ++ '-' :: (twoDigits day ++ 'T' :: (twoDigits hours ++ ':' ::
        (twoDigits minutes ++ ':' :: (twoDigits seconds ++ zoneText offset)))))) =
      .ok (GoTime.date year month day hours minutes seconds 0 - -offset * 60 * 1000000000) := by
  have days := GoTime.daysIn_le month year
  have inMonth : ¬ (day < 1 ∨ GoTime.daysIn month year < day) := by omega
  have month := @element_twoDigits month 1 12 (by omega) hmonth
  have date := @element_twoDigits day 0 99 (by omega) (by omega)
  have hour := @element_twoDigits hours 0 23 (by omega) (by omega)
  have minute := @element_twoDigits minutes 0 59 (by omega) (by omega)
  have second := @element_twoDigits seconds 0 59 (by omega) (by omega)
  simp only [GoTime.parseValue, yearOf_digits hyear, GoTime.skip, month, date, hour, minute, second,
    fraction_zoneText, zone_zoneText hoffset, inMonth, ↓reduceIte, bind, Except.bind, pure,
    Except.pure, ne_eq, not_true_eq_false]

theorem toRfc3339_parsed {date : Date} {year : Nat} (hyear : date.getFullYear = year)
    (low : 1000 ≤ year) (high : year ≤ 9999) (hoffset : date.getTimezoneOffset.natAbs < 1440) :
    GoTime.parseValue (toRfc3339 date).toList = .ok (date.time / 1000 * 1000000000) := by
  have hdate : civilDate (date.localSeconds / 86400) = ⟨year, date.localDate.month, date.getDate⟩ := by
    rw [← hyear]
    rfl
  obtain ⟨hmonth, hmonth', hday, hday', counted⟩ := civilDate_counts hdate
  have month : date.getMonth + 1 = date.localDate.month := Nat.sub_add_cancel hmonth
  have days := GoTime.daysIn_le date.localDate.month year
  have second : date.localSecond < 86400 := by
    unfold Date.localSecond
    omega
  rw [toRfc3339_split hoffset, afterYear, hyear, toString_year low high, month,
    parseValue_text high ⟨hmonth, hmonth'⟩ ⟨hday, hday'⟩ ?_ ?_ ?_ hoffset]
  · have fields :
        date.getHours * 3600 + date.getMinutes * 60 + date.getSeconds = date.localSecond := by
      unfold Date.getHours Date.getMinutes Date.getSeconds
      omega
    have shift : date.localSeconds = date.time / 1000 - date.getTimezoneOffset * 60 := by
      unfold Date.localSeconds
      omega
    unfold GoTime.date
    dsimp only
    rw [fields, counted]
    unfold Date.localSecond
    rw [shift, Except.ok.injEq]
    change (_ : Int) = _
    omega
  · show date.localSecond / 3600 ≤ 23
    omega
  · show date.localSecond / 60 % 60 ≤ 59
    omega
  · show date.localSecond % 60 ≤ 59
    omega

end Capture

/-- The server reads the text of a `Date` as the second of that `Date`. -/
theorem capture_time_survives {app : Application}
    (hparse : app.parseRFC3339 = GoTime.parseRFC3339) (date : Date)
    (hyear : 1000 ≤ date.getFullYear ∧ date.getFullYear ≤ 9999)
    (hoffset : date.getTimezoneOffset.natAbs < 1440) :
    Photos.parseTakenAt app (Capture.toRfc3339 date) = .ok (date.time / 1000 * 1000000000) := by
  obtain ⟨year, hy⟩ := Int.eq_ofNat_of_zero_le (show 0 ≤ date.getFullYear by omega)
  have parsed := Capture.toRfc3339_parsed hy (by omega) (by omega) hoffset
  have text : Capture.toRfc3339 date ≠ "" := by
    intro h
    rw [h] at parsed
    cases parsed
  simp [Photos.parseTakenAt, text, hparse, GoTime.parseRFC3339, parsed, Except.mapError]

theorem capture_time_survives_summer :
    Photos.parseTakenAt { sampleApp with parseRFC3339 := GoTime.parseRFC3339 }
      (Capture.toRfc3339 ⟨1782892800500, -120⟩) = .ok 1782892800000000000 :=
  capture_time_survives rfl ⟨1782892800500, -120⟩ (by decide +kernel) (by decide)

end ItalyTrip
