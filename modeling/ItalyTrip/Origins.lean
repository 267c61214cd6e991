import Mathlib.Data.List.Infix
import ItalyTrip.Filenames

namespace ItalyTrip

section Lists

variable {α : Type}

theorem takeWhile_stop {p : α → Bool} {stop : α} (stops : p stop = false) :
    ∀ {xs : List α}, (∀ x ∈ xs, p x = true) → ∀ ys, (xs ++ stop :: ys).takeWhile p = xs
  | [], _, ys => by simp [stops]
  | x :: xs, passes, ys => by
    have rest := takeWhile_stop stops (fun y hy => passes y (List.mem_cons_of_mem x hy)) ys
    simp [passes x (by simp), rest]

theorem dropWhile_stop {p : α → Bool} {stop : α} (stops : p stop = false) :
    ∀ xs ys, (xs ++ stop :: ys).dropWhile p = xs.dropWhile p ++ stop :: ys
  | [], ys => by simp [stops]
  | x :: xs, ys => by
    by_cases passes : p x = true
    · simp [passes, dropWhile_stop stops xs ys]
    · simp [passes]

theorem rdropWhile_stop {p : α → Bool} {stop : α} (stops : p stop = false) (xs ys : List α) :
    (xs ++ stop :: ys).rdropWhile p = xs ++ stop :: ys.rdropWhile p := by
  have split : (xs ++ stop :: ys).reverse = ys.reverse ++ stop :: xs.reverse := by simp
  simp only [List.rdropWhile, split, dropWhile_stop stops]
  simp

theorem rtakeWhile_stop {p : α → Bool} {stop : α} (stops : p stop = false) (xs : List α)
    {ys : List α} (passes : ∀ y ∈ ys, p y = true) : (xs ++ stop :: ys).rtakeWhile p = ys := by
  have split : (xs ++ stop :: ys).reverse = ys.reverse ++ stop :: xs.reverse := by simp
  have all : ∀ y ∈ ys.reverse, p y = true := fun y hy => passes y (List.mem_reverse.mp hy)
  simp only [List.rtakeWhile, split, takeWhile_stop stops all]
  simp

/-- The first stop determines what stands on both sides of it. -/
theorem append_stop_inj {stop : α} {xs ys us vs : List α} (hx : stop ∉ xs) (hu : stop ∉ us)
    (same : xs ++ stop :: ys = us ++ stop :: vs) : xs = us ∧ ys = vs := by
  induction xs generalizing us with
  | nil =>
    cases us with
    | nil => simpa using same
    | cons u us =>
      simp only [List.nil_append, List.cons_append, List.cons.injEq] at same
      exact absurd (same.1 ▸ List.mem_cons_self) hu
  | cons x xs ih =>
    cases us with
    | nil =>
      simp only [List.nil_append, List.cons_append, List.cons.injEq] at same
      exact absurd (same.1 ▸ List.mem_cons_self) hx
    | cons u us =>
      simp only [List.cons_append, List.cons.injEq] at same
      obtain ⟨rfl, same⟩ := same
      obtain ⟨rfl, rfl⟩ := ih (fun h => hx (.tail _ h)) (fun h => hu (.tail _ h)) same
      exact ⟨rfl, rfl⟩

end Lists

namespace Middleware

/-- `net.SplitHostPort`, whose errors are all `none`. -/
def splitHostPort (hostPort : List Char) : Option (List Char × List Char) :=
  if ':' ∈ hostPort then
    -- The port starts after the last colon.
    let before := (hostPort.rdropWhile (· != ':')).dropLast
    let port := hostPort.rtakeWhile (· != ':')
    if hostPort.head? = some '[' then
      let host := hostPort.tail.takeWhile (· != ']')
      -- The first ']' must stand just before the last colon.
      if before = '[' :: host ++ [']'] ∧ '[' ∉ hostPort.tail ∧ ']' ∉ port then some (host, port)
      else none
    else if ':' ∉ before ∧ '[' ∉ hostPort ∧ ']' ∉ hostPort then some (before, port)
    else none
  else none

def localHosts : List (List Char) :=
  ["localhost".toList, "127.0.0.1".toList, "::1".toList, "[::1]".toList]

def schemeFor (hostPort : List Char) : String :=
  let host := match splitHostPort hostPort with
    | some (host, _) => host
    | none => hostPort
  if host.map Photos.toLower ∈ localHosts then "http" else "https"

/-- The scheme `NormalizeOrigin` puts in front of a value, where it puts one. -/
def prepended (value : List Char) : Option String :=
  let trimmed := trimSpace value
  if trimmed = [] ∨ "://".toList <:+: trimmed then none else some (schemeFor trimmed)

/-- `parse` is `url.Parse`: the scheme and the host it reads, unless it fails. -/
def normalizeOrigin (parse : String → Option (String × String)) (value : String) : String :=
  let trimmed := trimSpace value.toList
  if trimmed = [] then ""
  else
    let trimmed := match prepended value.toList with
      | some scheme => scheme ++ "://" ++ String.ofList trimmed
      | none => String.ofList trimmed
    match parse trimmed with
    | some (scheme, host) => if host = "" then "" else scheme ++ "://" ++ host
    | none => ""

end Middleware

namespace Env

def DEFAULT_API_URL : String := "http://localhost:8080"

/-- What `String.prototype.trim` removes. -/
def isWhiteSpace (c : Char) : Bool :=
  c.toNat ∈ [0x09, 0x0a, 0x0b, 0x0c, 0x0d, 0x20, 0xa0, 0x1680, 0x2028, 0x2029, 0x202f, 0x205f, 0x3000,
      0xfeff] ||
    (0x2000 ≤ c.toNat && c.toNat ≤ 0x200a)

def trim (s : List Char) : List Char :=
  (s.dropWhile isWhiteSpace).rdropWhile isWhiteSpace

/-- Unlike `strings.ToLower`, `toLowerCase` keeps the dot of U+0130. -/
def toLowerCase (s : List Char) : List Char :=
  s.flatMap fun c => if c.toNat = 0x130 then ['i', Char.ofNat 0x307] else [Photos.toLower c]

def isSchemeChar (c : Char) : Bool := c.isAlphanum || c ∈ ['+', '.', '-']

/-- `/^[a-z][a-z0-9+.-]*:\/\//i`. -/
def hasScheme : List Char → Bool
  | [] => false
  | c :: rest =>
    c.isAlpha && "://".toList.isPrefixOf (rest.dropWhile isSchemeChar)

def schemeFor (hostPort : List Char) : String :=
  let host := toLowerCase ((hostPort.takeWhile (· != '/')).takeWhile (· != ':'))
  if host = "localhost".toList ∨ host = "127.0.0.1".toList then "http" else "https"

/-- The scheme `normalizeApiUrl` puts in front of a value, where it puts one. -/
def prepended (value : List Char) : Option String :=
  let trimmed := trim value
  if trimmed = [] ∨ hasScheme trimmed then none else some (schemeFor trimmed)

def normalizeApiUrl (value : Option String) : String :=
  let trimmed := trim (value.getD "").toList
  if trimmed = [] then DEFAULT_API_URL
  else
    let withScheme := match prepended (value.getD "").toList with
      | some scheme => (scheme ++ "://").toList ++ trimmed
      | none => trimmed
    String.ofList (withScheme.rdropWhile (· == '/'))

end Env

end ItalyTrip
