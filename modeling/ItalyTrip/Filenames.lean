import ItalyTrip.Handler
import Mathlib.Data.List.DropRight

namespace ItalyTrip

structure CivilDate where
  year : Int
  month : Nat
  day : Nat
  deriving DecidableEq, Repr

/-- The proleptic Gregorian date of a day counted from the Unix epoch; the year starts in March
until the last line. -/
def civilDate (days : Int) : CivilDate :=
  let z := days + 719468
  let era := z / 146097
  let doe := (z % 146097).toNat
  let yoe := (doe - doe / 1460 + doe / 36524 - doe / 146096) / 365
  let doy := doe - (365 * yoe + yoe / 4 - yoe / 100)
  let mp := (5 * doy + 2) / 153
  let month := if mp < 10 then mp + 3 else mp - 9
  ⟨yoe + era * 400 + if month ≤ 2 then 1 else 0, month, doy - (153 * mp + 2) / 5 + 1⟩

def pad (width n : Nat) : String :=
  let digits := toString n
  String.ofList (List.replicate (width - digits.length) '0') ++ digits

/-- Numbers are compared by all their digits but the last, and then by that. -/
theorem place_lt {n m : Nat} {p : Prop} :
    n / 10 < m / 10 ∨ n / 10 = m / 10 ∧ (n % 10 < m % 10 ∨ n % 10 = m % 10 ∧ p) ↔ n < m ∨ n = m ∧ p := by
  by_cases last : p
  · simp only [last, and_true]
    omega
  · simp only [last, and_false, or_false]
    omega

def padYear (year : Int) : String :=
  if year < 0 then "-" ++ pad 4 year.natAbs else pad 4 year.natAbs

/-- The layout `20060102-150405`, in UTC. -/
def formatTime (t : Instant) : String :=
  let seconds := t / 1000000000
  let date := civilDate (seconds / 86400)
  let second := (seconds % 86400).toNat
  padYear date.year ++ pad 2 date.month ++ pad 2 date.day ++ "-" ++
    pad 2 (second / 3600) ++ pad 2 (second / 60 % 60) ++ pad 2 (second % 60)

example : formatTime 951827696123456789 = "20000229-123456" := by decide

def isSpace (c : Char) : Bool :=
  c.toNat ∈ [0x09, 0x0a, 0x0b, 0x0c, 0x0d, 0x20, 0x85, 0xa0, 0x1680, 0x2028, 0x2029, 0x202f, 0x205f, 0x3000] ||
    (0x2000 ≤ c.toNat && c.toNat ≤ 0x200a)

def trimSpace (s : List Char) : List Char :=
  (s.dropWhile isSpace).rdropWhile isSpace

/-- What is checked of each character in turn holds of all of them. -/
theorem forall_chars {α : Type} {p : α → Prop} [DecidablePred p] {s : List α}
    (h : s.all (fun c => decide (p c)) = true) : ∀ c ∈ s, p c := by
  simpa using h

theorem letter_range {c : Char} (h : c.isAlpha = true) :
    0x41 ≤ c.toNat ∧ c.toNat ≤ 0x5a ∨ 0x61 ≤ c.toNat ∧ c.toNat ≤ 0x7a := by
  have cases : c.isUpper = true ∨ c.isLower = true := Bool.or_eq_true_iff.mp h
  rcases cases with upper | lower
  · exact Or.inl (of_decide_eq_true (p := 'A'.val ≤ c.val ∧ c.val ≤ 'Z'.val) upper)
  · obtain ⟨low, high⟩ := Bool.and_eq_true_iff.mp lower
    exact Or.inr ⟨of_decide_eq_true low, of_decide_eq_true high⟩

/-- `path.Base`. -/
def pathBase (path : List Char) : List Char :=
  if path = [] then ['.']
  else
    let base := (path.rdropWhile (· == '/')).rtakeWhile (· != '/')
    if base = [] then ['/'] else base

def sanitise (r : Char) : Char :=
  if r.toNat < 0x20 ∨ r = '"' ∨ r = '\\' ∨ r = '/' ∨ r.toNat = 0x7f then '-' else r

def contentDisposition (packages : Packages) (filename : String) : String :=
  let clean := (pathBase (trimSpace filename.toList)).map sanitise
  let clean := if clean = [] ∨ clean = ['.'] ∨ clean = ['.', '.'] then "photo.jpg".toList else clean
  "attachment; filename=" ++ packages.quote (String.ofList clean)

namespace Photos

def downloadFilename (takenAt : Instant) : String := "italy-" ++ formatTime takenAt ++ ".jpg"

/-- Besides the ASCII capitals, only U+0130 and U+212A have an ASCII lower case. -/
def toLower (r : Char) : Char :=
  if r.toNat = 0x130 then 'i' else if r.toNat = 0x212a then 'k' else r.toLower

def slugStep (state : List Char × Bool) (r : Char) : List Char × Bool :=
  if 'a' ≤ r ∧ r ≤ 'z' ∨ '0' ≤ r ∧ r ≤ '9' then (state.1 ++ [r], false)
  else if state.2 then state else (state.1 ++ ['-'], true)

def slugify (name : String) : String :=
  let b := ((name.toList.map toLower).foldl slugStep ([], true)).1
  let out := if b.getLast? = some '-' then b.dropLast else b
  if out = [] then "photos" else String.ofList out

example : slugify "Italy Trip" = "italy-trip" := by decide

def zipFilename (eventName : String) : String := slugify eventName ++ "-photos.zip"

/-- The names seen so far, with their counts. -/
abbrev Names := List (String × Nat)

def Names.count (seen : Names) (name : String) : Nat := (seen.lookup name).getD 0

def splitExtension (name : List Char) : List Char × List Char :=
  if '.' ∈ name then
    let stem := name.rdropWhile (· != '.')
    (stem.dropLast, '.' :: name.rtakeWhile (· != '.'))
  else (name, [])

def uniqueName (seen : Names) (name : String) : String × Names :=
  let count := seen.count name + 1
  let seen := (name, count) :: seen
  if count = 1 then (name, seen)
  else
    let (base, ext) := splitExtension name.toList
    (String.ofList base ++ "-" ++ toString count ++ String.ofList ext, seen)

example : (uniqueName [("a.jpg", 1)] "a.jpg").1 = "a-2.jpg" := by decide

end Photos

end ItalyTrip
