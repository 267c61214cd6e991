import ItalyTrip.Disposition
import ItalyTrip.Origins

namespace ItalyTrip.Url

/-- What stands before the first `stop`, and what follows it. -/
def cut (stop : Char) (s : List Char) : List Char × List Char :=
  (s.takeWhile (· != stop), (s.dropWhile (· != stop)).drop 1)

def isControl (c : Char) : Bool := c.toNat < 0x20 || c.toNat = 0x7f

def isHex (c : Char) : Bool :=
  c.isDigit || 'a' ≤ c && c ≤ 'f' || 'A' ≤ c && c ≤ 'F'

def unhex (c : Char) : Nat :=
  if c.isDigit then c.toNat - 48 else if 'a' ≤ c then c.toNat - 87 else c.toNat - 55

/-- `unescape` of a path, a fragment or user information, as far as it fails. -/
def unescapes : List Char → Bool
  | '%' :: a :: b :: rest => isHex a && isHex b && unescapes rest
  | '%' :: _ => false
  | _ :: rest => unescapes rest
  | [] => true

/-- The ASCII that stands for itself in a host. -/
def isHostChar (c : Char) : Bool :=
  c.isAlphanum || c ∈ "!$&'()*+,;=:[]<>\"-_.~".toList

/-- `unescape` of a host: ASCII is escaped only as `%25`. -/
def unescapeHost : List Char → Option Bytes
  | '%' :: a :: b :: rest =>
    if isHex a ∧ isHex b ∧ (8 ≤ unhex a ∨ a = '2' ∧ b = '5') then
      (unescapeHost rest).map (UInt8.ofNat (16 * unhex a + unhex b) :: ·)
    else none
  | '%' :: _ => none
  | c :: rest =>
    if isHostChar c ∨ 0x80 ≤ c.toNat then (unescapeHost rest).map (String.utf8EncodeChar c ++ ·)
    else none
  | [] => some []

def validOptionalPort : List Char → Bool
  | [] => true
  | c :: port => c = ':' && port.all Char.isDigit

def validUserinfo (s : List Char) : Bool :=
  s.all fun c => c.isAlphanum || c ∈ "-._:~!$&'()*+,;=%@".toList

def getScheme (rawURL : List Char) : Option (List Char × List Char) :=
  match rawURL.dropWhile Env.isSchemeChar with
  | ':' :: rest =>
    match rawURL.takeWhile Env.isSchemeChar with
    | [] => none
    | c :: scheme => if c.isAlpha then some (c :: scheme, rest) else some ([], rawURL)
  | _ => some ([], rawURL)

-- What `parseHost` makes of an address in brackets.
variable (parseIPLiteral : List Char → Option (List Char))

def parseHost (host : List Char) : Option (List Char) :=
  if '[' ∈ host then if '[' ∈ host.tail then none else parseIPLiteral host
  else if validOptionalPort (host.dropWhile (· != ':')) then (unescapeHost host).map runes
  else none

def parseAuthority (authority : List Char) : Option (List Char) :=
  if '@' ∈ authority then do
    let userinfo := (authority.rdropWhile (· != '@')).dropLast
    let host ← parseHost parseIPLiteral (authority.rtakeWhile (· != '@'))
    if validUserinfo userinfo ∧ unescapes userinfo then some host else none
  else parseHost parseIPLiteral authority

/-- The scheme and the host of a URL without a fragment. -/
def parseRest (rawURL : List Char) : Option (List Char × List Char) := do
  if rawURL.any isControl then none
  else if rawURL = ['*'] then some ([], [])
  else
    let (scheme, rest) ← getScheme rawURL
    let scheme := scheme.map Char.toLower
    let rest := (cut '?' rest).1
    if rest.head? ≠ some '/' ∧ scheme ≠ [] then some (scheme, [])
    else if rest.head? ≠ some '/' ∧ ':' ∈ (cut '/' rest).1 then none
    else if "//".toList.isPrefixOf rest ∧ (scheme ≠ [] ∨ ¬"///".toList.isPrefixOf rest) then
      let host ← parseAuthority parseIPLiteral ((rest.drop 2).takeWhile (· != '/'))
      if unescapes ((rest.drop 2).dropWhile (· != '/')) then some (scheme, host) else none
    else if unescapes rest then some (scheme, [])
    else none

/-- `url.Parse`, as far as a scheme and a host; what an escape spells that is not UTF-8 is U+FFFD. -/
def parse (rawURL : String) : Option (String × String) := do
  let (u, frag) := cut '#' rawURL.toList
  let (scheme, host) ← parseRest parseIPLiteral u
  if unescapes frag then some (String.ofList scheme, String.ofList host) else none

example : parse (fun _ => none) "HTTPS://u:p@Example.com:8443/a%20b?%#f" =
    some ("https", "Example.com:8443") := by
  decide +kernel

theorem cut_append {stop : Char} {xs : List Char} (h : stop ∉ xs) (ys : List Char) :
    cut stop (xs ++ ys) = (xs ++ (cut stop ys).1, (cut stop ys).2) := by
  have passes : ∀ x ∈ xs, (x != stop) = true := by
    intro x mem
    rw [bne_iff_ne]
    rintro rfl
    exact h mem
  rw [cut, List.takeWhile_append_of_pos passes, List.dropWhile_append_of_pos passes]
  rfl

theorem unescapeHost_ordinary {s : List Char} (h : ∀ c ∈ s, isHostChar c = true) :
    unescapeHost s = some (utf8 s) := by
  induction s with
  | nil => rw [unescapeHost]; rfl
  | cons c s ih =>
    have ordinary := h c List.mem_cons_self
    have rest := ih fun d mem => h d (List.mem_cons_of_mem c mem)
    have unescaped : c ≠ '%' := by
      rintro rfl
      exact absurd ordinary (by decide)
    rw [unescapeHost, if_pos (Or.inl ordinary), rest]
    · rfl
    · exact fun _ _ _ percent => absurd percent unescaped
    · exact unescaped

/-- A host with an optional port, in characters a host has no escapes for. -/
structure Clear (authority : List Char) : Prop where
  named : ∃ c rest, authority = c :: rest ∧ c ≠ '/'
  ordinary : ∀ c ∈ authority, isHostChar c = true
  bare : '[' ∉ authority
  port : validOptionalPort (authority.dropWhile (· != ':')) = true

theorem Clear.elsewhere {authority : List Char} (h : Clear authority) {c : Char}
    (reserved : isHostChar c = false) : c ∉ authority := fun mem => by
  rw [h.ordinary c mem] at reserved
  exact Bool.noConfusion reserved

theorem parseAuthority_clear {authority : List Char} (h : Clear authority) :
    parseAuthority parseIPLiteral authority = some authority := by
  have user : '@' ∉ authority := h.elsewhere (by decide)
  rw [parseAuthority, if_neg user, parseHost, if_neg h.bare, if_pos h.port,
    unescapeHost_ordinary h.ordinary, Option.map_some, runes_utf8]

/-- A path that `url.Parse` does not fail on. -/
def Readable (path : List Char) : Prop :=
  (cut '#' path).1.any isControl = false ∧ unescapes (cut '?' (cut '#' path).1).1 = true ∧
    unescapes (cut '#' path).2 = true

instance (path : List Char) : Decidable (Readable path) := inferInstanceAs (Decidable (_ ∧ _ ∧ _))

theorem getScheme_web {scheme : List Char} (web : scheme = "http".toList ∨ scheme = "https".toList)
    (rest : List Char) : getScheme (scheme ++ ':' :: rest) = some (scheme, rest) := by
  have colon : Env.isSchemeChar ':' = false := by decide
  have passes : ∀ c ∈ scheme, Env.isSchemeChar c = true := by
    rcases web with rfl | rfl <;> exact forall_chars (by decide)
  rw [getScheme, dropWhile_stop colon, List.dropWhile_eq_nil_iff.mpr passes,
    takeWhile_stop colon passes]
  rcases web with rfl | rfl <;> rfl

theorem rooted_cut (stop : Char) {path : List Char} (rooted : ∀ c ∈ path.head?, c = '/') :
    ∀ c ∈ (cut stop path).1.head?, c = '/' := by
  cases path with
  | nil => exact rooted
  | cons d path =>
    intro c head
    simp only [cut, List.takeWhile_cons] at head
    by_cases passes : (d != stop) = true
    · rw [if_pos passes] at head
      exact rooted c head
    · rw [if_neg passes] at head
      exact absurd head (by simp)

theorem split_rooted {authority path : List Char} (slashless : '/' ∉ authority)
    (rooted : ∀ c ∈ path.head?, c = '/') :
    (authority ++ path).takeWhile (· != '/') = authority ∧
      (authority ++ path).dropWhile (· != '/') = path := by
  have passes : ∀ c ∈ authority, (c != '/') = true := by
    intro c mem
    rw [bne_iff_ne]
    rintro rfl
    exact slashless mem
  rw [List.takeWhile_append_of_pos passes, List.dropWhile_append_of_pos passes]
  cases path with
  | nil => exact ⟨List.append_nil _, rfl⟩
  | cons c path =>
    obtain rfl := rooted c rfl
    exact ⟨List.append_nil _, rfl⟩

/-- What stands before the path of a web address. -/
theorem front_free {scheme authority : List Char}
    (web : scheme = "http".toList ∨ scheme = "https".toList) (clear : Clear authority) {c : Char}
    (reserved : isHostChar c = false) (other : c ≠ '/') :
    c ∉ scheme ++ ':' :: '/' :: '/' :: authority := by
  have outside : c ∉ scheme := by
    intro mem
    have ordinary : ∀ d ∈ scheme, isHostChar d = true := by
      rcases web with rfl | rfl <;> exact forall_chars (by decide)
    rw [ordinary c mem] at reserved
    exact Bool.noConfusion reserved
  have colon : c ≠ ':' := by
    rintro rfl
    exact absurd reserved (by decide)
  simp only [List.mem_append, List.mem_cons, outside, colon, other, clear.elsewhere reserved, or_self,
    not_false_eq_true]

theorem isHostChar_visible {c : Char} (h : isHostChar c = true) : 0x20 < c.toNat ∧ c.toNat < 0x7f := by
  rw [isHostChar, Bool.or_eq_true, decide_eq_true_iff] at h
  rcases h with letter | mark
  · rcases Bool.or_eq_true_iff.mp letter with alpha | digit
    · have range := letter_range alpha
      omega
    · have range : 0x30 ≤ c.toNat ∧ c.toNat ≤ 0x39 := Char.isDigit_iff_toNat.mp digit
      omega
  · exact forall_chars (p := fun c => 0x20 < c.toNat ∧ c.toNat < 0x7f) (by decide) c mark

theorem control_reserved {c : Char} (h : isControl c = true) : isHostChar c = false ∧ c ≠ '/' := by
  rw [isControl, Bool.or_eq_true, decide_eq_true_iff, decide_eq_true_iff] at h
  constructor
  · by_contra ordinary
    have visible := isHostChar_visible (Bool.not_eq_false _ ▸ ordinary)
    omega
  · rintro rfl
    exact absurd h (by decide)

theorem parseRest_web {scheme authority path : List Char}
    (web : scheme = "http".toList ∨ scheme = "https".toList) (clear : Clear authority)
    (rooted : ∀ c ∈ path.head?, c = '/') :
    parseRest parseIPLiteral (scheme ++ ':' :: '/' :: '/' :: authority ++ path) =
      if path.any isControl = false ∧ unescapes (cut '?' path).1 = true then some (scheme, authority)
      else none := by
  have front := @front_free _ _ web clear
  have quiet : (scheme ++ ':' :: '/' :: '/' :: authority).any isControl = false := by
    rw [List.any_eq_false]
    intro c mem control
    exact front (control_reserved control).1 (control_reserved control).2 mem
  have lower : scheme.map Char.toLower = scheme := by
    rcases web with rfl | rfl <;> decide
  have nonempty : scheme ≠ [] := by
    rcases web with rfl | rfl <;> decide
  have star : scheme ++ ':' :: '/' :: '/' :: authority ++ path ≠ ['*'] := by
    rcases web with rfl | rfl <;> simp
  have question : '?' ∉ '/' :: '/' :: authority := by
    simp [clear.elsewhere (show isHostChar '?' = false by decide)]
  obtain ⟨host, rest⟩ := split_rooted (clear.elsewhere (by decide)) (rooted_cut '?' rooted)
  rw [parseRest, List.any_append, quiet, Bool.false_or, if_neg star, List.append_assoc,
    List.cons_append, getScheme_web web]
  simp only [Option.bind_eq_bind, Option.bind_some, lower, cut_append question]
  by_cases control : path.any isControl = true
  · rw [if_pos control, if_neg (by simp [control])]
  have slash : ('/' :: '/' :: authority ++ (cut '?' path).1).head? = some '/' := rfl
  have double : "//".toList.isPrefixOf ('/' :: '/' :: authority ++ (cut '?' path).1) = true := rfl
  have behind : ('/' :: '/' :: authority ++ (cut '?' path).1).drop 2 =
      authority ++ (cut '?' path).1 := rfl
  rw [if_neg control, if_neg (fun h => h.1 slash), if_neg (fun h => h.1 slash),
    if_pos ⟨double, Or.inl nonempty⟩, behind, host, rest, parseAuthority_clear parseIPLiteral clear,
    Option.bind_some]
  simp [Bool.not_eq_true _ ▸ control]

/-- A web address is read as it stands, unless its path fails. -/
theorem parse_web {scheme authority path : List Char}
    (web : scheme = "http".toList ∨ scheme = "https".toList) (clear : Clear authority)
    (rooted : ∀ c ∈ path.head?, c = '/') :
    parse parseIPLiteral (String.ofList (scheme ++ ':' :: '/' :: '/' :: authority ++ path)) =
      if Readable path then some (String.ofList scheme, String.ofList authority) else none := by
  have hash := front_free web clear (show isHostChar '#' = false by decide) (by decide)
  rw [parse, String.toList_ofList, cut_append hash]
  dsimp only
  rw [parseRest_web parseIPLiteral web clear (rooted_cut '#' rooted)]
  by_cases reads : (cut '#' path).1.any isControl = false ∧
      unescapes (cut '?' (cut '#' path).1).1 = true
  · rw [if_pos reads]
    by_cases spelled : unescapes (cut '#' path).2 = true
    · rw [if_pos ⟨reads.1, reads.2, spelled⟩]
      exact if_pos spelled
    · rw [if_neg fun h : Readable path => spelled h.2.2]
      exact if_neg spelled
  · rw [if_neg reads, if_neg fun h : Readable path => reads ⟨h.1, h.2.1⟩]
    rfl

theorem getScheme_cases {rawURL scheme rest : List Char} (h : getScheme rawURL = some (scheme, rest)) :
    scheme = [] ∧ rest = rawURL ∨
      rawURL = scheme ++ ':' :: rest ∧ ∀ c ∈ scheme, Env.isSchemeChar c = true := by
  unfold getScheme at h
  split at h
  next behind dropped =>
    split at h
    next => cases h
    next c front taken =>
      split at h
      next letter =>
        obtain ⟨rfl, rfl⟩ := Prod.mk.inj (Option.some.inj h)
        right
        rw [← taken]
        constructor
        · rw [← dropped, List.takeWhile_append_dropWhile]
        · exact fun d mem => List.mem_takeWhile_imp mem
      next =>
        obtain ⟨rfl, rfl⟩ := Prod.mk.inj (Option.some.inj h)
        exact Or.inl ⟨rfl, rfl⟩
  next =>
    obtain ⟨rfl, rfl⟩ := Prod.mk.inj (Option.some.inj h)
    exact Or.inl ⟨rfl, rfl⟩

theorem cut_head {stop c : Char} {s : List Char} (h : s.head? ≠ some c) :
    (cut stop s).1.head? ≠ some c := by
  cases s with
  | nil => exact h
  | cons d s =>
    simp only [cut, List.takeWhile_cons]
    split
    · exact h
    · exact nofun

/-- A value with no slash at its start, nor right behind a scheme, names no host. -/
theorem parseRest_rootless {rawURL : List Char} (start : rawURL.head? ≠ some '/')
    (behind : ∀ scheme rest, rawURL = scheme ++ ':' :: rest →
      (∀ c ∈ scheme, Env.isSchemeChar c = true) → rest.head? ≠ some '/') {scheme host : List Char}
    (h : parseRest parseIPLiteral rawURL = some (scheme, host)) : host = [] := by
  unfold parseRest at h
  split at h
  next => cases h
  split at h
  next => exact (Prod.mk.inj (Option.some.inj h)).2.symm
  obtain ⟨⟨found, rest⟩, split, h⟩ := Option.bind_eq_some_iff.mp h
  dsimp only at h
  have rootless : rest.head? ≠ some '/' := by
    rcases getScheme_cases split with ⟨-, rfl⟩ | ⟨whole, letters⟩
    · exact start
    · exact behind found rest whole letters
  have cut_rootless : (cut '?' rest).1.head? ≠ some '/' := cut_head rootless
  have single : ¬("//".toList.isPrefixOf (cut '?' rest).1 = true) := by
    intro double
    obtain ⟨more, whole⟩ := List.isPrefixOf_iff_prefix.mp double
    rw [← whole] at cut_rootless
    exact cut_rootless rfl
  split at h
  next => exact (Prod.mk.inj (Option.some.inj h)).2.symm
  split at h
  next => cases h
  rw [if_neg fun both => single both.1] at h
  split at h
  next => exact (Prod.mk.inj (Option.some.inj h)).2.symm
  next => cases h

end ItalyTrip.Url
