import ItalyTrip.ApiUrl
import ItalyTrip.Cors
import ItalyTrip.Schemes
import ItalyTrip.Url

namespace ItalyTrip

def isLabelChar (c : Char) : Bool := c.isAlphanum || c = '-' || c = '_'

def IsLabel (label : List Char) : Prop := label ≠ [] ∧ ∀ c ∈ label, isLabelChar c = true

/-- A label that a browser takes for a part of an IPv4 address. -/
def IsNumber (label : List Char) : Prop :=
  (∀ c ∈ label, c.isDigit = true) ∨
    ∃ x hex, label = '0' :: x :: hex ∧ (x = 'x' ∨ x = 'X') ∧ ∀ c ∈ hex, Url.isHex c = true

/-- Labels separated by dots, the last of which is no number; one more dot may end them. -/
def IsDNSName (host : List Char) : Prop :=
  ∃ (labels : List (List Char)) (last dot : List Char),
    host = labels.flatMap (· ++ ['.']) ++ last ++ dot ∧ (∀ l ∈ labels, IsLabel l) ∧
      IsLabel last ∧ ¬IsNumber last ∧ (dot = [] ∨ dot = ['.'])

def IsIPv4 (host : List Char) : Prop :=
  ∃ a b c d : Fin 256, host = Nat.toDigits 10 a ++ '.' :: Nat.toDigits 10 b ++
    '.' :: Nat.toDigits 10 c ++ '.' :: Nat.toDigits 10 d

def isNameChar (c : Char) : Bool := isLabelChar c || c = '.'

theorem IsDNSName.chars {host : List Char} (h : IsDNSName host) :
    host ≠ [] ∧ ∀ c ∈ host, isNameChar c = true := by
  obtain ⟨labels, last, dot, rfl, front, ⟨nonempty, letters⟩, -, ending⟩ := h
  have label : ∀ {c}, isLabelChar c = true → isNameChar c = true := by
    intro c h
    rw [isNameChar, h]
    rfl
  constructor
  · simp [nonempty]
  · intro c mem
    rcases List.mem_append.mp mem with mem | mem
    · rcases List.mem_append.mp mem with mem | mem
      · obtain ⟨l, hl, mem⟩ := List.mem_flatMap.mp mem
        rcases List.mem_append.mp mem with mem | mem
        · exact label ((front l hl).2 c mem)
        · rw [List.mem_singleton.mp mem]
          decide
      · exact label (letters c mem)
    · rcases ending with rfl | rfl
      · cases mem
      · rw [List.mem_singleton.mp mem]
        decide

theorem digit_name {c : Char} (h : c.isDigit = true) : isNameChar c = true := by
  simp [isNameChar, isLabelChar, Char.isAlphanum, h]

theorem IsIPv4.chars {host : List Char} (h : IsIPv4 host) :
    host ≠ [] ∧ ∀ c ∈ host, isNameChar c = true := by
  obtain ⟨a, b, c, d, rfl⟩ := h
  have digits : ∀ n, ∀ c ∈ Nat.toDigits 10 n, isNameChar c = true := fun n c mem =>
    digit_name (Nat.isDigit_of_mem_toDigits (by decide) (by decide) mem)
  constructor
  · simp
  · intro x mem
    simp only [List.mem_append, List.mem_cons] at mem
    rcases mem with ((mem | rfl | mem) | rfl | mem) | rfl | mem
    · exact digits a x mem
    · decide
    · exact digits b x mem
    · decide
    · exact digits c x mem
    · decide
    · exact digits d x mem

/-- A configured value `[http://|https://]host[:port][/path]` amid white space. -/
structure Setting where
  before : List Char
  scheme : Option (List Char)
  address : Address
  after : List Char
  blank : (∀ c ∈ before, isSpace c = true) ∧ ∀ c ∈ after, isSpace c = true
  web : ∀ s ∈ scheme, s = "http".toList ∨ s = "https".toList
  named : IsDNSName address.host ∨ IsIPv4 address.host
  port : ∀ p ∈ address.port, Nat.ofDigitChars 10 p 0 < 65536

namespace Setting

def value (s : Setting) : String :=
  String.ofList (s.before ++ (match s.scheme with
    | some scheme => scheme ++ ':' :: '/' :: '/' :: s.address.text
    | none => s.address.text) ++ s.after)

/-- Local development is plain HTTP unless the value says otherwise. -/
def webScheme (s : Setting) : List Char :=
  s.scheme.getD (if IsLocal s.address.host then "http".toList else "https".toList)

def defaultPort (s : Setting) : Nat := if s.webScheme = "http".toList then 80 else 443

def originPort (s : Setting) : List Char :=
  match s.address.port with
  | none => []
  | some p =>
    if Nat.ofDigitChars 10 p 0 = s.defaultPort then []
    else ':' :: Nat.toDigits 10 (Nat.ofDigitChars 10 p 0)

/-- What a browser puts into an Origin header for the URL. -/
def origin (s : Setting) : String :=
  String.ofList (s.webScheme ++ ':' :: '/' :: '/' :: (s.address.host.map Char.toLower ++ s.originPort))

/-- The values the allowlist holds as a browser sends them. -/
structure Canonical (s : Setting) : Prop where
  guessed : s.scheme = none →
    ¬"://".toList <:+: s.address.path ∧ (IsLocal s.address.host → s.address.Separable)
  lowercase : s.address.host.map Char.toLower = s.address.host
  port : ∀ p ∈ s.address.port, Nat.ofDigitChars 10 p 0 ≠ s.defaultPort ∧
    Nat.toDigits 10 (Nat.ofDigitChars 10 p 0) = p
  readable : Url.Readable (s.address.path.rdropWhile isSpace)

theorem chars (s : Setting) : s.address.host ≠ [] ∧ ∀ c ∈ s.address.host, isNameChar c = true :=
  s.named.elim IsDNSName.chars IsIPv4.chars

end Setting

theorem isNameChar_host {c : Char} (h : isNameChar c = true) : Url.isHostChar c = true := by
  simp only [isNameChar, isLabelChar, Bool.or_eq_true, decide_eq_true_iff] at h
  rcases h with ((letter | rfl) | rfl) | rfl
  · rw [Url.isHostChar, letter]
    rfl
  all_goals decide

namespace Setting

theorem clear (s : Setting) : Url.Clear s.address.authority := by
  obtain ⟨nonempty, chars⟩ := s.chars
  have excluded : ∀ c, isNameChar c = false → c ∉ s.address.host := by
    intro c other mem
    rw [chars c mem] at other
    exact Bool.noConfusion other
  obtain ⟨c, rest, head⟩ := List.exists_cons_of_ne_nil nonempty
  have first : c ≠ '/' := by
    rintro rfl
    exact excluded '/' (by decide) (by simp [head])
  have before : ∀ c ∈ s.address.host, (c != ':') = true := by
    intro c mem
    rw [bne_iff_ne]
    rintro rfl
    exact excluded ':' (by decide) mem
  cases port : s.address.port with
  | none =>
    have whole : s.address.authority = s.address.host := by rw [Address.authority, port]
    rw [whole]
    refine ⟨⟨c, rest, head, first⟩, fun c mem => isNameChar_host (chars c mem),
      excluded '[' (by decide), ?_⟩
    rw [List.dropWhile_eq_nil_iff.mpr before]
    rfl
  | some p =>
    obtain ⟨-, digits⟩ := s.address.digits p port
    have whole : s.address.authority = s.address.host ++ ':' :: p := by rw [Address.authority, port]
    rw [whole]
    refine ⟨⟨c, rest ++ ':' :: p, by rw [head]; rfl, first⟩, ?_, ?_, ?_⟩
    · intro c mem
      rcases List.mem_append.mp mem with mem | mem
      · exact isNameChar_host (chars c mem)
      · rcases List.mem_cons.mp mem with rfl | mem
        · decide
        · exact isNameChar_host (digit_name (digits c mem))
    · intro mem
      rcases List.mem_append.mp mem with mem | mem
      · exact excluded '[' (by decide) mem
      · rcases List.mem_cons.mp mem with eq | mem
        · exact absurd eq (by decide)
        · exact absurd (digits '[' mem) (by decide)
    · rw [List.dropWhile_append_of_pos before]
      exact List.all_eq_true.mpr digits

/-- What is left of the value once it is trimmed. -/
def trimmedText (s : Setting) : List Char := (s.address.trimPath isSpace).text

theorem trimSpace_amid {before after text : List Char} (front : ∀ c ∈ before, isSpace c = true)
    (back : ∀ c ∈ after, isSpace c = true) (start : text.dropWhile isSpace = text) (h : text ≠ []) :
    trimSpace (before ++ text ++ after) = text.rdropWhile isSpace := by
  have behind : (text ++ after).dropWhile isSpace = text ++ after := by
    rw [List.dropWhile_append, start, if_neg (by simpa using h)]
  have shed : ∀ c ∈ after.reverse, isSpace c = true := fun c mem => back c (List.mem_reverse.mp mem)
  rw [trimSpace, List.append_assoc, List.dropWhile_append_of_pos front, behind, List.rdropWhile,
    List.reverse_append, List.dropWhile_append_of_pos shed]
  rfl

theorem text_start (s : Setting) : s.address.text.dropWhile isSpace = s.address.text := by
  obtain ⟨nonempty, chars⟩ := s.chars
  obtain ⟨c, rest, head⟩ := List.exists_cons_of_ne_nil nonempty
  have ascii := Url.isHostChar_visible (isNameChar_host (chars c (by simp [head])))
  have visible : isSpace c = false := isSpace_visible ascii.1 ascii.2
  rw [Address.text, head, List.cons_append, List.dropWhile_cons_of_neg (by simp [visible])]

theorem text_rdropWhile (s : Setting) : s.address.text.rdropWhile isSpace = s.trimmedText := by
  rw [trimmedText, ← Address.text_trim s.address.spares_backend, s.text_start]

theorem trimmedText_split (s : Setting) :
    s.trimmedText = s.address.authority ++ s.address.path.rdropWhile isSpace :=
  Address.text_authority _

theorem trimSpace_value (s : Setting) : trimSpace s.value.toList =
    match s.scheme with
    | some scheme => scheme ++ ':' :: '/' :: '/' :: s.trimmedText
    | none => s.trimmedText := by
  have nonempty := s.address.text_ne_nil
  rw [value, String.toList_ofList]
  cases given : s.scheme with
  | none => rw [trimSpace_amid s.blank.1 s.blank.2 s.text_start nonempty, s.text_rdropWhile]
  | some scheme =>
    have start : (scheme ++ ':' :: '/' :: '/' :: s.address.text).dropWhile isSpace =
        scheme ++ ':' :: '/' :: '/' :: s.address.text := by
      rcases s.web scheme given with rfl | rfl <;> rfl
    have regroup : ∀ ys : List Char,
        scheme ++ ':' :: '/' :: '/' :: ys = (scheme ++ [':', '/', '/']) ++ ys := by simp
    have left : s.address.text.rdropWhile isSpace ≠ [] := by
      rw [s.text_rdropWhile]
      exact Address.text_ne_nil _
    dsimp only
    rw [trimSpace_amid s.blank.1 s.blank.2 start (by simp), regroup, Env.rdropWhile_append _ left,
      ← regroup, s.text_rdropWhile]

theorem rooted (s : Setting) : ∀ c ∈ (s.address.path.rdropWhile isSpace).head?, c = '/' :=
  (s.address.trimPath isSpace).rooted

variable (parseIPLiteral : List Char → Option (List Char))

open Middleware

/-- Behind a scheme, a value is read as it stands. -/
theorem parse_schemed (s : Setting) {scheme : List Char}
    (web : scheme = "http".toList ∨ scheme = "https".toList) :
    Url.parse parseIPLiteral (String.ofList (scheme ++ ':' :: '/' :: '/' :: s.trimmedText)) =
      if Url.Readable (s.address.path.rdropWhile isSpace) then
        some (String.ofList scheme, String.ofList s.address.authority)
      else none := by
  rw [trimmedText_split, ← Url.parse_web parseIPLiteral web s.clear s.rooted]
  simp

/-- A colon ends the host, and what follows it is a port. -/
theorem behind_colon (s : Setting) {path scheme rest : List Char} (rooted : ∀ c ∈ path.head?, c = '/')
    (split : s.address.authority ++ path = scheme ++ ':' :: rest)
    (letters : ∀ c ∈ scheme, Env.isSchemeChar c = true) : rest.head? ≠ some '/' := by
  have colonless : ':' ∉ scheme := fun mem => absurd (letters ':' mem) (by decide)
  have slashless : '/' ∉ scheme := fun mem => absurd (letters '/' mem) (by decide)
  have host_colon : ':' ∉ s.address.host := fun mem => absurd (s.chars.2 ':' mem) (by decide)
  cases port : s.address.port with
  | none =>
    have whole : s.address.authority = s.address.host := by rw [Address.authority, port]
    rw [whole] at split
    rcases List.append_eq_append_iff.mp split with ⟨middle, shape, tail⟩ | ⟨middle, shape, tail⟩
    · cases middle with
      | nil =>
        rw [List.nil_append] at tail
        exact absurd (rooted ':' (by rw [tail]; rfl)) (by decide)
      | cons c middle =>
        obtain rfl := rooted c (by rw [tail]; rfl)
        exact absurd (by simp [shape]) slashless
    · cases middle with
      | nil =>
        rw [List.nil_append] at tail
        exact absurd (rooted ':' (by rw [← tail]; rfl)) (by decide)
      | cons c middle =>
        obtain rfl : ':' = c := (List.cons.inj tail).1
        exact absurd (by simp [shape]) host_colon
  | some p =>
    have whole : s.address.authority = s.address.host ++ ':' :: p := by rw [Address.authority, port]
    rw [whole, List.append_assoc] at split
    obtain ⟨-, rfl⟩ := append_stop_inj host_colon colonless split
    obtain ⟨nonempty, digits⟩ := s.address.digits p port
    obtain ⟨d, q, rfl⟩ := List.exists_cons_of_ne_nil nonempty
    rintro ⟨rfl⟩
    exact absurd (digits '/' List.mem_cons_self) (by decide)

/-- Without a scheme it names no host. -/
theorem parse_schemeless (s : Setting) {scheme host : String}
    (h : Url.parse parseIPLiteral (String.ofList s.trimmedText) = some (scheme, host)) : host = "" := by
  have hash : '#' ∉ s.address.authority := s.clear.elsewhere (by decide)
  rw [Url.parse, String.toList_ofList, trimmedText_split, Url.cut_append hash] at h
  obtain ⟨⟨found, name⟩, rest, h⟩ := Option.bind_eq_some_iff.mp h
  obtain ⟨c, more, head, first⟩ := s.clear.named
  have none : name = [] := by
    refine Url.parseRest_rootless parseIPLiteral ?_ ?_ rest
    · rw [head]
      exact fun eq => first (Option.some.inj eq)
    · exact fun _ _ split letters => s.behind_colon (Url.rooted_cut '#' s.rooted) split letters
  dsimp only at h
  split at h
  next =>
    rw [none] at h
    exact (Prod.mk.inj (Option.some.inj h)).2.symm
  next => cases h

/-- The scheme the code takes for the value's. -/
def guess (s : Setting) : List Char :=
  s.scheme.getD (if s.address.Separable ∧ IsLocal s.address.host then "http".toList else "https".toList)

theorem guess_web (s : Setting) : s.guess = "http".toList ∨ s.guess = "https".toList := by
  cases given : s.scheme with
  | some scheme =>
    rw [guess, given]
    exact s.web scheme given
  | none =>
    rw [guess, given]
    by_cases separable : s.address.Separable ∧ IsLocal s.address.host
    · exact Or.inl (if_pos separable)
    · exact Or.inr (if_neg separable)

theorem schemeFor_guess (s : Setting) (none : s.scheme = none) :
    schemeFor s.trimmedText = String.ofList s.guess := by
  have bare : s.address.host ≠ "[::1]".toList := fun eq =>
    absurd (s.chars.2 '[' (by rw [eq]; decide)) (by decide)
  have same : (s.address.trimPath isSpace).Separable ↔ s.address.Separable :=
    Address.separable_trim s.address.spares_backend
  rw [trimmedText, Address.backend_scheme, guess, none, Option.getD_none]
  by_cases separable : s.address.Separable ∧ IsLocal s.address.host
  · rw [if_pos separable, if_pos ⟨same.mpr separable.1, Or.inl separable.2⟩]
    rfl
  · rw [if_neg separable, if_neg]
    · rfl
    · rintro ⟨split, isLocal | loopback⟩
      · exact separable ⟨same.mp split, isLocal⟩
      · exact bare loopback

theorem trimmedText_separator (s : Setting) :
    "://".toList <:+: s.trimmedText ↔ "://".toList <:+: s.address.path :=
  (Address.separator_iff _).trans (Address.separator_trim s.address.spares_backend)

/-- What `NormalizeOrigin` hands to `url.Parse`. -/
def url (s : Setting) : String :=
  if s.scheme = none ∧ "://".toList <:+: s.address.path then String.ofList s.trimmedText
  else String.ofList (s.guess ++ ':' :: '/' :: '/' :: s.trimmedText)

theorem normalizeOrigin_url (parse : String → Option (String × String)) (s : Setting) :
    normalizeOrigin parse s.value =
      match parse s.url with
      | some (scheme, host) => if host = "" then "" else scheme ++ "://" ++ host
      | none => "" := by
  have trimmed := s.trimSpace_value
  have present : s.trimmedText ≠ [] := Address.text_ne_nil _
  unfold normalizeOrigin
  cases given : s.scheme with
  | some scheme =>
    simp only [given] at trimmed
    have separator : "://".toList <:+: scheme ++ ':' :: '/' :: '/' :: s.trimmedText :=
      ⟨scheme, s.trimmedText, by simp⟩
    have kept : prepended s.value.toList = none := by
      rw [prepended, trimmed]
      exact if_pos (Or.inr separator)
    have same : s.url = String.ofList (scheme ++ ':' :: '/' :: '/' :: s.trimmedText) := by
      rw [url, if_neg (by simp [given]), guess, given]
      rfl
    rw [kept, trimmed, same]
    exact if_neg (by simp)
  | none =>
    simp only [given] at trimmed
    rw [trimmed]
    by_cases separator : "://".toList <:+: s.address.path
    · have kept : prepended s.value.toList = none := by
        rw [prepended, trimmed]
        exact if_pos (Or.inr (s.trimmedText_separator.mpr separator))
      have same : s.url = String.ofList s.trimmedText := if_pos ⟨given, separator⟩
      rw [kept, same]
      exact if_neg present
    · have prefixed : prepended s.value.toList = some (String.ofList s.guess) := by
        rw [prepended, trimmed, ← s.schemeFor_guess given]
        refine if_neg ?_
        rintro (blank | infixed)
        · exact present blank
        · exact separator (s.trimmedText_separator.mp infixed)
      have joined : String.ofList (s.guess ++ ':' :: '/' :: '/' :: s.trimmedText) =
          String.ofList s.guess ++ "://" ++ String.ofList s.trimmedText := by
        apply String.toList_inj.mp
        simp
      have same : s.url = String.ofList (s.guess ++ ':' :: '/' :: '/' :: s.trimmedText) :=
        if_neg fun h => separator h.2
      rw [prefixed, same, joined]
      exact if_neg present

theorem normalizeOrigin_value (s : Setting) : normalizeOrigin (Url.parse parseIPLiteral) s.value =
    if ¬(s.scheme = none ∧ "://".toList <:+: s.address.path) ∧
        Url.Readable (s.address.path.rdropWhile isSpace) then
      String.ofList (s.guess ++ ':' :: '/' :: '/' :: s.address.authority)
    else "" := by
  rw [normalizeOrigin_url, url]
  by_cases schemeless : s.scheme = none ∧ "://".toList <:+: s.address.path
  · rw [if_pos schemeless, if_neg fun h => h.1 schemeless]
    split
    next scheme host parsed => exact if_pos (s.parse_schemeless parseIPLiteral parsed)
    next => rfl
  · rw [if_neg schemeless, s.parse_schemed parseIPLiteral s.guess_web]
    by_cases readable : Url.Readable (s.address.path.rdropWhile isSpace)
    · rw [if_pos readable, if_pos ⟨schemeless, readable⟩]
      obtain ⟨c, rest, head, -⟩ := s.clear.named
      have named : String.ofList s.address.authority ≠ "" := by
        rw [head]
        simp
      have joined : String.ofList (s.guess ++ ':' :: '/' :: '/' :: s.address.authority) =
          String.ofList s.guess ++ "://" ++ String.ofList s.address.authority := by
        apply String.toList_inj.mp
        simp
      rw [joined]
      exact if_neg named
    · rw [if_neg readable, if_neg fun h => readable h.2]

theorem webScheme_web (s : Setting) : s.webScheme = "http".toList ∨ s.webScheme = "https".toList := by
  cases given : s.scheme with
  | some scheme =>
    rw [webScheme, given]
    exact s.web scheme given
  | none =>
    rw [webScheme, given]
    by_cases isLocal : IsLocal s.address.host
    · exact Or.inl (if_pos isLocal)
    · exact Or.inr (if_neg isLocal)

theorem guess_iff (s : Setting) : s.guess = s.webScheme ↔
    (s.scheme = none → IsLocal s.address.host → s.address.Separable) := by
  cases given : s.scheme with
  | some scheme =>
    rw [guess, webScheme, given]
    exact ⟨nofun, fun _ => rfl⟩
  | none =>
    rw [guess, webScheme, given, Option.getD_none, Option.getD_none]
    by_cases isLocal : IsLocal s.address.host
    · by_cases separable : s.address.Separable
      · rw [if_pos ⟨separable, isLocal⟩, if_pos isLocal]
        exact ⟨fun _ _ _ => separable, fun _ => rfl⟩
      · rw [if_neg fun h => separable h.1, if_pos isLocal]
        exact ⟨fun eq => absurd eq (by decide), fun h => absurd (h rfl isLocal) separable⟩
    · rw [if_neg fun h => isLocal h.2, if_neg isLocal]
      exact ⟨fun _ _ yes => absurd yes isLocal, fun _ => rfl⟩

theorem authority_iff (s : Setting) :
    s.address.authority = s.address.host.map Char.toLower ++ s.originPort ↔
      s.address.host.map Char.toLower = s.address.host ∧ ∀ p ∈ s.address.port,
        Nat.ofDigitChars 10 p 0 ≠ s.defaultPort ∧ Nat.toDigits 10 (Nat.ofDigitChars 10 p 0) = p := by
  have length : s.address.host.length = (s.address.host.map Char.toLower).length := by simp
  cases port : s.address.port with
  | none =>
    have bare : s.originPort = [] := by rw [originPort, port]
    have whole : s.address.authority = s.address.host := by rw [Address.authority, port]
    rw [bare, whole, List.append_nil]
    exact ⟨fun same => ⟨same.symm, fun p mem => absurd mem (Option.not_mem_none p)⟩, fun h => h.1.symm⟩
  | some p =>
    have whole : s.address.authority = s.address.host ++ ':' :: p := by rw [Address.authority, port]
    rw [whole, originPort, port]
    dsimp only
    constructor
    · intro same
      obtain ⟨host, rest⟩ := List.append_inj same length
      refine ⟨host.symm, fun q mem => ?_⟩
      obtain rfl : p = q := Option.some.inj mem
      by_cases default : Nat.ofDigitChars 10 p 0 = s.defaultPort
      · rw [if_pos default] at rest
        cases rest
      · rw [if_neg default] at rest
        exact ⟨default, (List.cons.inj rest).2.symm⟩
    · rintro ⟨lowercase, h⟩
      obtain ⟨other, digits⟩ := h p rfl
      rw [if_neg other, digits, lowercase]

theorem origin_iff (s : Setting) :
    String.ofList (s.guess ++ ':' :: '/' :: '/' :: s.address.authority) = s.origin ↔
      s.guess = s.webScheme ∧
        s.address.authority = s.address.host.map Char.toLower ++ s.originPort := by
  have colonless : ∀ {scheme : List Char},
      scheme = "http".toList ∨ scheme = "https".toList → ':' ∉ scheme := by
    rintro scheme (rfl | rfl) <;> decide
  rw [origin, String.ofList_inj]
  constructor
  · intro same
    obtain ⟨scheme, rest⟩ := append_stop_inj (colonless s.guess_web) (colonless s.webScheme_web) same
    exact ⟨scheme, (List.cons.inj (List.cons.inj rest).2).2⟩
  · rintro ⟨scheme, rest⟩
    rw [scheme, rest]

theorem origin_visible (s : Setting)
    (h : String.ofList (s.guess ++ ':' :: '/' :: '/' :: s.address.authority) = s.origin) :
    ∀ c ∈ s.origin.toList, isSpace c = false := by
  have host : ∀ {c}, Url.isHostChar c = true → isSpace c = false := fun h =>
    isSpace_visible (Url.isHostChar_visible h).1 (Url.isHostChar_visible h).2
  have letters : ∀ c ∈ s.guess, isSpace c = false := by
    rcases s.guess_web with eq | eq <;> rw [eq] <;> exact forall_chars (by decide)
  rw [← h, String.toList_ofList]
  intro c mem
  simp only [List.mem_append, List.mem_cons] at mem
  rcases mem with mem | rfl | rfl | rfl | mem
  · exact letters c mem
  · decide
  · decide
  · decide
  · exact host (s.clear.ordinary c mem)

/-- The allowlist holds what a browser sends exactly for the canonical values. -/
theorem normalizeOrigin_browser_iff (s : Setting) :
    (normalizeOrigin (Url.parse parseIPLiteral) s.value = s.origin ∧ ∀ method : String,
      (cors [normalizeOrigin (Url.parse parseIPLiteral) s.value] ⟨method, [s.origin]⟩).headers.lookup
        "Access-Control-Allow-Origin" = some s.origin) ↔ s.Canonical := by
  have nonempty : s.origin ≠ "" := by simp [origin]
  rw [normalizeOrigin_value]
  by_cases read : ¬(s.scheme = none ∧ "://".toList <:+: s.address.path) ∧
      Url.Readable (s.address.path.rdropWhile isSpace)
  · rw [if_pos read]
    constructor
    · rintro ⟨same, -⟩
      obtain ⟨scheme, rest⟩ := s.origin_iff.mp same
      obtain ⟨lowercase, port⟩ := s.authority_iff.mp rest
      exact ⟨fun none => ⟨fun inside => read.1 ⟨none, inside⟩, s.guess_iff.mp scheme none⟩, lowercase,
        port, read.2⟩
    · intro canonical
      have same := s.origin_iff.mpr ⟨s.guess_iff.mpr fun none => (canonical.guessed none).2,
        s.authority_iff.mpr ⟨canonical.lowercase, canonical.port⟩⟩
      refine ⟨same, fun method => ?_⟩
      have kept : trimmed s.origin = s.origin := by
        rw [trimmed, trimSpace_clear (s.origin_visible same), String.ofList_toList]
      have allowed : (Incoming.mk method [s.origin]).getOrigin ∈
          ([s.origin].map trimmed).filter (· ≠ "") := by
        simp [Incoming.getOrigin, kept, nonempty]
      rw [same, cors_headers, if_pos allowed]
      rfl
  · rw [if_neg read]
    constructor
    · exact fun h => absurd h.1.symm nonempty
    · exact fun canonical => absurd ⟨fun h => (canonical.guessed h.1).1 h.2, canonical.readable⟩ read

def capitalised : Setting where
  before := []
  scheme := none
  address := ⟨"Example.com".toList, none, [], Or.inl (by decide),
    fun p mem => absurd mem (Option.not_mem_none p), fun c mem => absurd mem (Option.not_mem_none c)⟩
  after := []
  blank := ⟨fun _ mem => absurd mem List.not_mem_nil, fun _ mem => absurd mem List.not_mem_nil⟩
  web := fun s mem => absurd mem (Option.not_mem_none s)
  named := by
    refine Or.inl ⟨["Example".toList], "com".toList, [], rfl, ?_,
      ⟨by decide, forall_chars (by decide)⟩, ?_, Or.inl rfl⟩
    · intro label mem
      rw [List.mem_singleton.mp mem]
      exact ⟨by decide, forall_chars (by decide)⟩
    · rintro (digits | ⟨x, hex, shape, -⟩)
      · exact absurd (digits 'c' (by decide)) (by decide)
      · cases shape
  port := fun p mem => absurd mem (Option.not_mem_none p)

/-- A capital letter stays in the allowlist and is not in the header. -/
theorem capital_kept : capitalised.value = "Example.com" ∧
    capitalised.origin = "https://example.com" ∧
    normalizeOrigin (Url.parse fun _ => none) "Example.com" = "https://Example.com" ∧
    normalizeOrigin (Url.parse fun _ => none) capitalised.value ≠ capitalised.origin := by
  decide +kernel

end Setting

end ItalyTrip
