import ItalyTrip.Program
import ItalyTrip.Records
import Mathlib.Data.List.Induction
import Mathlib.Data.List.TakeWhile
import Mathlib.Tactic.IntervalCases

namespace ItalyTrip

namespace GoTime

open Calls

def isLeap (year : Nat) : Bool := year % 4 == 0 && (year % 100 != 0 || year % 400 == 0)

def daysIn (month year : Nat) : Nat :=
  match month with
  | 2 => if isLeap year then 29 else 28
  | 4 | 6 | 9 | 11 => 30
  | _ => 31

/-- The days of a year before a month of it. -/
def daysBefore (year : Nat) : Nat → Nat
  | 0 | 1 => 0
  | month + 2 => daysBefore year (month + 1) + daysIn (month + 1) year

/-- The days from 0000-01-01 to the first day of a year. -/
def daysToYear (year : Nat) : Nat :=
  365 * year + (year + 3) / 4 - (year + 99) / 100 + (year + 399) / 400

/-- `Date` in UTC, for the ranges that the parser lets through. -/
def date (year month day hour min sec nsec : Nat) : Int :=
  let days : Int := (daysToYear year + daysBefore year month + day : Nat) - 719529
  let seconds : Int := days * 86400 + (hour * 3600 + min * 60 + sec : Nat)
  seconds * 1000000000 + nsec

example : date 2000 2 29 12 34 56 123456789 = 951827696123456789 := by decide

/-- A `ParseError`, without the value and the layout. -/
structure ParseError where
  layoutElem : String
  valueElem : List Char
  message : String

def layout : String := "2006-01-02T15:04:05Z07:00"

private def lowerhex (n : Nat) : Char := "0123456789abcdef".toList.getD n '0'

private def quoteChar (c : Char) : List Char :=
  if 0x80 ≤ c.toNat ∨ c < ' ' then
    (String.singleton c).toUTF8.toList.flatMap fun b =>
      ['\\', 'x', lowerhex (b.toNat / 16), lowerhex (b.toNat % 16)]
  else if c = '"' ∨ c = '\\' then ['\\', c] else [c]

def quote (s : List Char) : String := String.ofList ('"' :: s.flatMap quoteChar ++ ['"'])

def ParseError.error (value : String) (e : ParseError) : String :=
  if e.message = "" then
    "parsing time " ++ quote value.toList ++ " as " ++ quote layout.toList ++ ": cannot parse " ++
      quote e.valueElem ++ " as " ++ quote e.layoutElem.toList
  else "parsing time " ++ quote value.toList ++ e.message

/-- An element of the value and what is left of it. -/
abbrev Parsed (α : Type) := Except ParseError (α × List Char)

def digitValue (c : Char) : Nat := c.toNat - '0'.toNat

def number (digits : List Char) : Nat := digits.foldl (fun n c => 10 * n + digitValue c) 0

/-- The next character has to be this one. -/
def skip (c : Char) (value : List Char) : Except ParseError (List Char) :=
  match value with
  | x :: rest => if x = c then .ok rest else .error ⟨String.singleton c, value, ""⟩
  | [] => .error ⟨String.singleton c, value, ""⟩

/-- Two digits or, unless `fixed`, one. -/
def getnum (fixed : Bool) : List Char → Option (Nat × List Char)
  | a :: b :: rest =>
    if a.isDigit then
      if b.isDigit then some (10 * digitValue a + digitValue b, rest)
      else if fixed then none else some (digitValue a, b :: rest)
    else none
  | [a] => if a.isDigit && !fixed then some (digitValue a, []) else none
  | [] => none

/-- An element of two digits with its range. -/
def element (std name : String) (fixed : Bool) (low high : Nat) (value : List Char) : Parsed Nat :=
  match getnum fixed value with
  | none => .error ⟨std, value, ""⟩
  | some (n, rest) =>
    if n < low ∨ high < n then .error ⟨std, rest, ": " ++ name ++ " out of range"⟩ else .ok (n, rest)

def yearOf (value : List Char) : Parsed Nat :=
  if 4 ≤ value.length ∧ (value.take 4).all Char.isDigit then .ok (number (value.take 4), value.drop 4)
  else .error ⟨"2006", value, ""⟩

/-- A fraction may follow the seconds though the layout has none, after a period or a comma. -/
def fraction (value : List Char) : Nat × List Char :=
  match value with
  | sep :: rest =>
    let digits := rest.takeWhile Char.isDigit
    if (sep = '.' ∨ sep = ',') ∧ digits ≠ [] then
      let kept := digits.take 9
      (number kept * 10 ^ (9 - kept.length), rest.dropWhile Char.isDigit)
    else (0, value)
  | [] => (0, value)

private def zoneError (value : List Char) (message : String) : ParseError := ⟨"Z07:00", value, message⟩

/-- The offset in seconds. The ranges use `>` rather than `>=`, as some people do write offsets of 24
hours or 60 minutes. -/
def zone (value : List Char) : Parsed Int :=
  match value with
  | 'Z' :: rest => .ok (0, rest)
  | sign :: h :: h' :: ':' :: m :: m' :: rest =>
    match getnum true [h, h'], getnum true [m, m'] with
    | some (hr, _), some (mm, _) =>
      let offset : Int := ((hr * 60 + mm) * 60 : Nat)
      if mm > 60 then .error (zoneError rest ": time zone offset minute out of range")
      else if hr > 24 then .error (zoneError rest ": time zone offset hour out of range")
      else if sign = '+' then .ok (offset, rest)
      else if sign = '-' then .ok (-offset, rest)
      else .error (zoneError value "")
    | some (hr, _), none =>
      if hr > 24 then .error (zoneError rest ": time zone offset hour out of range")
      else .error (zoneError value "")
    | none, _ => .error (zoneError value "")
  | _ => .error (zoneError value "")

/-- `Parse` with the layout `RFC3339`. The package has a fast path for this layout: it accepts part of
these texts, with the same results. -/
def parseValue (value : List Char) : Except ParseError Instant := do
  let (year, value) ← yearOf value
  let value ← skip '-' value
  let (month, value) ← element "01" "month" true 1 12 value
  let value ← skip '-' value
  let (day, value) ← element "02" "day" true 0 99 value
  let value ← skip 'T' value
  let (hour, value) ← element "15" "hour" false 0 23 value
  let value ← skip ':' value
  let (min, value) ← element "04" "minute" true 0 59 value
  let value ← skip ':' value
  let (sec, value) ← element "05" "second" true 0 59 value
  let (nsec, value) := fraction value
  let (offset, value) ← zone value
  if value ≠ [] then throw ⟨"", value, ": extra text: " ++ quote value⟩
  if day < 1 ∨ daysIn month year < day then throw ⟨"", value, ": day out of range"⟩
  return date year month day hour min sec nsec - offset * 1000000000

def parseRFC3339 (value : String) : Except String Instant :=
  (parseValue value.toList).mapError (ParseError.error value)

example : parseRFC3339 "2026-07-01T10:00:00.5+02:00" = .ok 1782892800500000000 := by decide +kernel

theorem daysBefore_le (year : Nat) {month : Nat} (low : 1 ≤ month) (high : month ≤ 12) :
    daysBefore year month + daysIn month year ≤ 365 + if isLeap year then 1 else 0 := by
  interval_cases month <;> simp only [daysBefore, daysIn] <;> split <;> omega

theorem daysToYear_le {year : Nat} (high : year ≤ 9999) :
    daysToYear year + (365 + if isLeap year then 1 else 0) ≤ 3652425 := by
  unfold daysToYear
  rcases Nat.lt_or_eq_of_le high with less | rfl
  · split <;> omega
  · decide

/-- The inner years have a year before them and one after them. -/
theorem daysToYear_inner {year : Nat} (low : 1 ≤ year) (high : year ≤ 9998) :
    365 ≤ daysToYear year ∧ daysToYear year + (365 + if isLeap year then 1 else 0) ≤ 3652060 := by
  unfold daysToYear
  rcases Nat.lt_or_eq_of_le high with less | rfl
  · split <;> omega
  · decide

/-- What the parser reads as local time is in the year that it has read. -/
theorem date_year {year month day hour min sec nsec : Nat} (low : 1 ≤ month) (high : month ≤ 12)
    (hday : 1 ≤ day) (hdays : day ≤ daysIn month year) (hhour : hour ≤ 23) (hmin : min ≤ 59)
    (hsec : sec ≤ 59) (hnsec : nsec < 10 ^ 9) :
    ((daysToYear year : Int) - 719528) * 86400000000000 ≤ date year month day hour min sec nsec ∧
      date year month day hour min sec nsec <
        (((daysToYear year + (365 + if isLeap year then 1 else 0) : Nat) : Int) - 719528) * 86400000000000 := by
  have before := daysBefore_le year low high
  dsimp only [date]
  omega

/-- Local time is in the years 0 to 9999. -/
theorem date_range {year month day hour min sec nsec : Nat} (hyear : year ≤ 9999) (low : 1 ≤ month)
    (high : month ≤ 12) (hday : 1 ≤ day) (hdays : day ≤ daysIn month year) (hhour : hour ≤ 23)
    (hmin : min ≤ 59) (hsec : sec ≤ 59) (hnsec : nsec < 10 ^ 9) :
    -62167219200000000000 ≤ date year month day hour min sec nsec ∧
      date year month day hour min sec nsec < 253402300800000000000 := by
  have inYear := date_year low high hday hdays hhour hmin hsec hnsec
  have years := daysToYear_le hyear
  omega

theorem digitValue_le {c : Char} (h : c.isDigit = true) : digitValue c ≤ 9 := by
  simp only [Char.isDigit, Bool.and_eq_true, decide_eq_true_eq, UInt32.le_iff_toNat_le] at h
  change c.val.toNat - 48 ≤ 9
  have := h.2
  change c.val.toNat ≤ 57 at this
  omega

theorem number_lt {digits : List Char} (h : digits.all Char.isDigit = true) :
    number digits < 10 ^ digits.length := by
  induction digits using List.reverseRecOn with
  | nil => decide
  | append_singleton digits c ih =>
    simp only [List.all_append, List.all_cons, List.all_nil, Bool.and_true, Bool.and_eq_true] at h
    have less := ih h.1
    have digit := digitValue_le h.2
    simp only [number, List.foldl_append, List.foldl_cons, List.foldl_nil, List.length_append,
      List.length_singleton, Nat.pow_succ] at less ⊢
    omega

theorem element_range {std name : String} {fixed : Bool} {low high n : Nat} {value rest : List Char}
    (h : element std name fixed low high value = .ok (n, rest)) : low ≤ n ∧ n ≤ high := by
  unfold element at h
  split at h
  next => cases h
  next =>
    split at h
    next => cases h
    next inside =>
      cases h
      omega

theorem fraction_lt (value : List Char) : (fraction value).1 < 10 ^ 9 := by
  unfold fraction
  split
  next sep rest =>
    dsimp only
    split
    next =>
      generalize hkept : (rest.takeWhile Char.isDigit).take 9 = kept
      have short : kept.length ≤ 9 := hkept ▸ List.length_take_le _ _
      have digits : kept.all Char.isDigit = true := by
        rw [List.all_eq_true]
        intro c hc
        exact List.mem_takeWhile_imp (List.mem_of_mem_take (hkept ▸ hc))
      calc number kept * 10 ^ (9 - kept.length)
          < 10 ^ kept.length * 10 ^ (9 - kept.length) :=
            Nat.mul_lt_mul_of_pos_right (number_lt digits) (Nat.pow_pos (by decide))
        _ = 10 ^ 9 := by rw [← Nat.pow_add, Nat.add_sub_cancel' short]
    next => exact Nat.pow_pos (by decide)
  next => exact Nat.pow_pos (by decide)

theorem zone_le {value rest : List Char} {offset : Int} (h : zone value = .ok (offset, rest)) :
    -90000 ≤ offset ∧ offset ≤ 90000 := by
  unfold zone at h
  split at h
  next =>
    cases h
    decide
  next =>
    split at h
    next hr _ mm _ _ _ =>
      dsimp only at h
      split at h
      · cases h
      split at h
      · cases h
      split at h
      · cases h
        omega
      split at h
      · cases h
        omega
      · cases h
    next => split at h <;> cases h
    next => cases h
  next => cases h

/-- An accepted text has a local time in the year that it begins with, and an offset of at most 25 hours. -/
theorem parse_local {value : String} {t : Instant} (h : parseRFC3339 value = .ok t) :
    ∃ (year : Nat) (rest : List Char) (localTime offset : Int), yearOf value.toList = .ok (year, rest) ∧
      t = localTime - offset * 1000000000 ∧
      ((daysToYear year : Int) - 719528) * 86400000000000 ≤ localTime ∧
      localTime < (((daysToYear year + (365 + if isLeap year then 1 else 0) : Nat) : Int) - 719528) *
        86400000000000 ∧
      -90000 ≤ offset ∧ offset ≤ 90000 := by
  have h := mapError_ok h
  unfold parseValue at h
  obtain ⟨⟨year, rest⟩, hyear, h⟩ := except_bind_ok h
  obtain ⟨_, _, h⟩ := except_bind_ok h
  obtain ⟨⟨month, _⟩, hmonth, h⟩ := except_bind_ok h
  obtain ⟨_, _, h⟩ := except_bind_ok h
  obtain ⟨⟨day, _⟩, hday, h⟩ := except_bind_ok h
  obtain ⟨_, _, h⟩ := except_bind_ok h
  obtain ⟨⟨hour, _⟩, hhour, h⟩ := except_bind_ok h
  obtain ⟨_, _, h⟩ := except_bind_ok h
  obtain ⟨⟨min, _⟩, hmin, h⟩ := except_bind_ok h
  obtain ⟨_, _, h⟩ := except_bind_ok h
  obtain ⟨⟨sec, value⟩, hsec, h⟩ := except_bind_ok h
  obtain ⟨⟨offset, _⟩, hzone, h⟩ := except_bind_ok h
  dsimp only at h
  split at h
  · cases h
  split at h
  · cases h
  next days =>
    cases h
    have month_range := element_range hmonth
    obtain ⟨low, high⟩ : 1 ≤ day ∧ day ≤ daysIn month year := by omega
    have inYear := date_year month_range.1 month_range.2 low high (element_range hhour).2
      (element_range hmin).2 (element_range hsec).2 (fraction_lt value)
    exact ⟨year, rest, _, offset, hyear, rfl, inYear.1, inYear.2, zone_le hzone⟩

/-- No offset leads from the years 1 to 9998 out of those that `encoding/json` writes. -/
theorem parse_inner {value : String} {t : Instant} {year : Nat} {rest : List Char}
    (h : parseRFC3339 value = .ok t) (hyear : yearOf value.toList = .ok (year, rest)) (low : 1 ≤ year)
    (high : year ≤ 9998) : -62167219200000000000 ≤ t ∧ t < 253402300800000000000 := by
  obtain ⟨year', rest', localTime, offset, same, rfl, starts, ends, west, east⟩ := parse_local h
  cases hyear.symm.trans same
  obtain ⟨before, after⟩ := daysToYear_inner low high
  change (_ : Int) ≤ _ ∧ (_ : Int) < _
  omega

end GoTime

end ItalyTrip
