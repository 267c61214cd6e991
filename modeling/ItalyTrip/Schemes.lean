import ItalyTrip.Origins

namespace ItalyTrip

/-- A DNS name or an IPv4 address, in any letter case. -/
def IsName (host : List Char) : Prop :=
  host ≠ [] ∧ ∀ c ∈ host, c ∉ [':', '/', '[', ']'] ∧ isSpace c = false ∧ Env.isWhiteSpace c = false

instance (host : List Char) : Decidable (IsName host) :=
  @instDecidableAnd _ _ _ (List.decidableBAll _ host)

def IsBracketed (host : List Char) : Prop :=
  ∃ address, host = '[' :: (address ++ [']']) ∧ ':' ∈ address ∧ ∀ c ∈ address, c ∉ ['/', '[', ']']

/-- A scheme-less value `host[:port][/path]`. -/
structure Address where
  host : List Char
  port : Option (List Char)
  path : List Char
  named : IsName host ∨ IsBracketed host
  digits : ∀ p ∈ port, p ≠ [] ∧ ∀ c ∈ p, c.isDigit = true
  rooted : ∀ c ∈ path.head?, c = '/'

def IsLocal (host : List Char) : Prop :=
  host.map Char.toLower ∈ ["localhost".toList, "127.0.0.1".toList]

instance (host : List Char) : Decidable (IsLocal host) :=
  inferInstanceAs (Decidable (_ ∈ _))

namespace Address

def afterHost (a : Address) : List Char :=
  match a.port with
  | none => a.path
  | some p => ':' :: (p ++ a.path)

def text (a : Address) : List Char := a.host ++ a.afterHost

/-- `net.SplitHostPort` tells the host from what follows it, or nothing follows it. -/
def Separable (a : Address) : Prop :=
  a.path = [] ∨ a.port.isSome ∧ ':' ∉ a.path ∧ '[' ∉ a.path ∧ ']' ∉ a.path

instance (a : Address) : Decidable a.Separable :=
  inferInstanceAs (Decidable (_ ∨ _))

end Address

section LowerCase

/-- No character that a lower case outside ASCII could turn into, or stay. -/
def Plain (word : List Char) : Prop :=
  ∀ c ∈ word, c.toNat < 128 ∧ c ≠ 'i' ∧ c ≠ 'k'

instance (word : List Char) : Decidable (Plain word) := List.decidableBAll _ word

theorem ascii_of_toLower {c d : Char} (ascii : d.toNat < 128) (same : c.toLower = d) :
    c.toNat < 128 := by
  subst same
  by_cases upper : c.toNat < 128
  · exact upper
  · have kept : c.toLower = c := by
      unfold Char.toLower
      split
      · rename_i range
        have := UInt32.le_iff_toNat_le.mp range.2
        change c.toNat ≤ 90 at this
        omega
      · rfl
    rwa [kept] at ascii

theorem toLower_iff {c d : Char} (ascii : d.toNat < 128) (hi : d ≠ 'i') (hk : d ≠ 'k') :
    Photos.toLower c = d ↔ c.toLower = d := by
  unfold Photos.toLower
  split
  · constructor
    · rintro rfl
      contradiction
    · intro same
      have := ascii_of_toLower ascii same
      omega
  · split
    · constructor
      · rintro rfl
        contradiction
      · intro same
        have := ascii_of_toLower ascii same
        omega
    · exact Iff.rfl

theorem map_toLower_iff {word : List Char} (plain : Plain word) (host : List Char) :
    host.map Photos.toLower = word ↔ host.map Char.toLower = word := by
  induction host generalizing word with
  | nil => simp
  | cons c host ih =>
    cases word with
    | nil => simp
    | cons d word =>
      obtain ⟨ascii, hi, hk⟩ := plain d (by simp)
      have rest := ih fun x hx => plain x (List.mem_cons_of_mem d hx)
      simp only [List.map_cons, List.cons.injEq, toLower_iff ascii hi hk, rest]

/-- Without letters there is no case. -/
def Letterless (word : List Char) : Prop :=
  ∀ c ∈ word, c.toNat < 65 ∨ 91 ≤ c.toNat ∧ c.toNat < 97

instance (word : List Char) : Decidable (Letterless word) := List.decidableBAll _ word

theorem toLower_eq_iff {c d : Char} (letterless : d.toNat < 65 ∨ 91 ≤ d.toNat ∧ d.toNat < 97) :
    c.toLower = d ↔ c = d := by
  unfold Char.toLower
  split
  · rename_i range
    have low := UInt32.le_iff_toNat_le.mp range.1
    have high := UInt32.le_iff_toNat_le.mp range.2
    change 65 ≤ c.toNat at low
    change c.toNat ≤ 90 at high
    constructor
    · rintro rfl
      have moved : (c.val + ('a'.val - 'A'.val)).toNat = c.toNat + 32 := by
        rw [UInt32.toNat_add]
        change (c.toNat + 32) % 2 ^ 32 = _
        omega
      change (c.val + ('a'.val - 'A'.val)).toNat < 65 ∨ 91 ≤ (c.val + ('a'.val - 'A'.val)).toNat ∧
        (c.val + ('a'.val - 'A'.val)).toNat < 97 at letterless
      omega
    · rintro rfl
      omega
  · exact Iff.rfl

theorem map_toLower_eq_iff {word : List Char} (letterless : Letterless word) (host : List Char) :
    host.map Photos.toLower = word ↔ host = word := by
  have plain : Plain word := fun c hc => by
    have bound := letterless c hc
    refine ⟨by omega, ?_, ?_⟩ <;> rintro rfl <;> revert bound <;> decide
  rw [map_toLower_iff plain]
  clear plain
  induction host generalizing word with
  | nil => simp
  | cons c host ih =>
    cases word with
    | nil => simp
    | cons d word =>
      have rest := ih fun x hx => letterless x (List.mem_cons_of_mem d hx)
      simp only [List.map_cons, List.cons.injEq, toLower_eq_iff (letterless d (by simp)), rest]

theorem toLowerCase_iff {word : List Char} (plain : Plain word) (host : List Char) :
    Env.toLowerCase host = word ↔ host.map Char.toLower = word := by
  induction host generalizing word with
  | nil => simp [Env.toLowerCase]
  | cons c host ih =>
    by_cases dotted : c.toNat = 0x130
    · have split : Env.toLowerCase (c :: host) = 'i' :: Char.ofNat 0x307 :: Env.toLowerCase host := by
        simp [Env.toLowerCase, dotted]
      constructor
      · intro same
        rw [split] at same
        exact absurd rfl (plain 'i' (by simp [← same])).2.1
      · intro same
        have ascii := ascii_of_toLower (plain c.toLower (by simp [← same])).1 rfl
        omega
    · have split : Env.toLowerCase (c :: host) = Photos.toLower c :: Env.toLowerCase host := by
        simp [Env.toLowerCase, dotted]
      rw [split]
      cases word with
      | nil => simp
      | cons d word =>
        obtain ⟨ascii, hi, hk⟩ := plain d (by simp)
        have rest := ih fun x hx => plain x (List.mem_cons_of_mem d hx)
        simp only [List.map_cons, List.cons.injEq, toLower_iff ascii hi hk, rest]

end LowerCase

namespace Middleware

theorem last_colon {s : List Char} (h : ':' ∈ s) :
    ∃ before port, s = before ++ ':' :: port ∧ ':' ∉ port := by
  obtain ⟨port, before, split, first⟩ := List.eq_append_cons_of_mem (List.mem_reverse.mpr h)
  refine ⟨before.reverse, port.reverse, ?_, by simpa using first⟩
  simpa using congrArg List.reverse split

theorem splitHostPort_colon {before port : List Char} (last : ':' ∉ port) :
    splitHostPort (before ++ ':' :: port) =
      if (before ++ [':']).head? = some '[' then
        let host := (before ++ ':' :: port).tail.takeWhile (· != ']')
        if before = '[' :: host ++ [']'] ∧ '[' ∉ (before ++ ':' :: port).tail ∧ ']' ∉ port then
          some (host, port)
        else none
      else if ':' ∉ before ∧ '[' ∉ before ++ ':' :: port ∧ ']' ∉ before ++ ':' :: port then
        some (before, port)
      else none := by
  have passes : ∀ c ∈ port, (c != ':') = true := fun c hc => by
    simpa using fun (same : c = ':') => last (same ▸ hc)
  have dropped : port.rdropWhile (· != ':') = [] := by
    simpa [List.rdropWhile_eq_nil_iff] using passes
  have head : (before ++ ':' :: port).head? = (before ++ [':']).head? := by
    cases before <;> rfl
  have before' : (before ++ ':' :: port).rdropWhile (· != ':') = before ++ [':'] := by
    rw [rdropWhile_stop (by simp), dropped]
  have port' : (before ++ ':' :: port).rtakeWhile (· != ':') = port :=
    rtakeWhile_stop (by simp) before passes
  rw [splitHostPort, if_pos (by simp), before', port', head, List.dropLast_concat]

theorem splitHostPort_iff {s host port : List Char} :
    splitHostPort s = some (host, port) ↔
      ':' ∉ port ∧ '[' ∉ host ∧ ']' ∉ host ∧ '[' ∉ port ∧ ']' ∉ port ∧
        (s = host ++ ':' :: port ∧ ':' ∉ host ∨ s = '[' :: (host ++ ']' :: ':' :: port)) := by
  constructor
  · intro h
    have colon : ':' ∈ s := by
      by_contra none
      simp [splitHostPort, none] at h
    obtain ⟨before, rest, rfl, last⟩ := last_colon colon
    rw [splitHostPort_colon last] at h
    split at h
    · dsimp only at h
      split at h
      · rename_i bracket shape
        obtain ⟨whole, opening, closing⟩ := shape
        obtain ⟨rfl, rfl⟩ := by simpa using h
        generalize inside : (before ++ ':' :: rest).tail.takeWhile (· != ']') = host at *
        subst whole
        have free : ']' ∉ host := by
          rw [← inside]
          intro mem
          simpa using List.mem_takeWhile_imp mem
        simp only [List.cons_append, List.tail_cons, List.mem_append, not_or] at opening
        refine ⟨last, opening.1.1, free, fun h => opening.2 (.tail _ h), closing, Or.inr (by simp)⟩
      · cases h
    · split at h
      · rename_i shape
        obtain ⟨rfl, rfl⟩ := by simpa using h
        obtain ⟨single, opening, closing⟩ := shape
        simp only [List.mem_append, List.mem_cons, not_or] at opening closing
        exact ⟨last, opening.1, closing.1, opening.2.2, closing.2.2, Or.inl ⟨rfl, single⟩⟩
      · cases h
  · rintro ⟨last, openHost, closeHost, openPort, closePort, ⟨rfl, single⟩ | rfl⟩
    · have head : (host ++ [':']).head? ≠ some '[' := by
        cases host with
        | nil => simp
        | cons c host => simpa using fun (same : c = '[') => openHost (by simp [same])
      rw [splitHostPort_colon last, if_neg head, if_pos]
      exact ⟨single, by simp [openHost, openPort], by simp [closeHost, closePort]⟩
    · have whole : '[' :: (host ++ ']' :: ':' :: port) = ('[' :: host ++ [']']) ++ ':' :: port := by simp
      have passes : ∀ c ∈ host, (c != ']') = true := fun c hc => by
        simpa using fun (same : c = ']') => closeHost (same ▸ hc)
      have inside : (('[' :: host ++ [']']) ++ ':' :: port).tail.takeWhile (· != ']') = host := by
        simpa using takeWhile_stop (by simp) passes (':' :: port)
      rw [whole, splitHostPort_colon last, if_pos (by simp)]
      dsimp only
      rw [inside, if_pos]
      exact ⟨rfl, by simp [openHost, openPort], closePort⟩

theorem slash_not_local {host : List Char} (slash : '/' ∈ host) :
    host.map Photos.toLower ∉ localHosts := by
  have kept : '/' ∈ host.map Photos.toLower := List.mem_map.mpr ⟨'/', slash, by decide⟩
  have none : ∀ word ∈ localHosts, '/' ∉ word := by decide
  exact fun mem => none _ mem kept

end Middleware

theorem IsName.free {host : List Char} (named : IsName host) :
    ':' ∉ host ∧ '/' ∉ host ∧ '[' ∉ host ∧ ']' ∉ host := by
  refine ⟨?_, ?_, ?_, ?_⟩ <;> intro mem <;> simpa using (named.2 _ mem).1

/-- A host in brackets is local only as the loopback address. -/
theorem bracketed_local_iff {address : List Char} :
    ('[' :: (address ++ [']'])).map Photos.toLower ∈ Middleware.localHosts ↔
      '[' :: (address ++ [']']) = "[::1]".toList := by
  have opening : Photos.toLower '[' = '[' := by decide
  have loopback := @map_toLower_eq_iff "[::1]".toList (by decide) ('[' :: (address ++ [']']))
  simp only [Middleware.localHosts, List.mem_cons, List.not_mem_nil, or_false, loopback]
  constructor
  · rintro (same | same | same | same)
    · simp [opening] at same
    · simp [opening] at same
    · simp [opening] at same
    · exact same
  · exact fun same => Or.inr (Or.inr (Or.inr same))

/-- Inside brackets stands a colon, which no other local name has. -/
theorem inside_local_iff {address : List Char} (colon : ':' ∈ address) (opening : '[' ∉ address) :
    address.map Photos.toLower ∈ Middleware.localHosts ↔ address = "::1".toList := by
  have kept : ':' ∈ address.map Photos.toLower := List.mem_map.mpr ⟨':', colon, by decide⟩
  have loopback := @map_toLower_eq_iff "::1".toList (by decide) address
  have bracketed := @map_toLower_eq_iff "[::1]".toList (by decide) address
  simp only [Middleware.localHosts, List.mem_cons, List.not_mem_nil, or_false, loopback, bracketed]
  constructor
  · rintro (same | same | same | rfl)
    · simp [same] at kept
    · simp [same] at kept
    · exact same
    · simp at opening
  · exact fun same => Or.inr (Or.inr (Or.inl same))

theorem IsName.local_iff {host : List Char} (named : IsName host) :
    host.map Photos.toLower ∈ Middleware.localHosts ↔ IsLocal host := by
  obtain ⟨colon, -, opening, -⟩ := named.free
  have loopback := @map_toLower_eq_iff "::1".toList (by decide) host
  have bracketed := @map_toLower_eq_iff "[::1]".toList (by decide) host
  have ordinary : host ≠ "::1".toList ∧ host ≠ "[::1]".toList := by
    constructor <;> rintro rfl <;> simp at colon
  simp only [Middleware.localHosts, List.mem_cons, List.not_mem_nil, or_false, loopback, bracketed,
    ordinary.1, ordinary.2]
  simp only [IsLocal, List.mem_cons, List.not_mem_nil, or_false]
  rw [map_toLower_iff (by decide), map_toLower_iff (by decide)]

namespace Address

theorem port_free (a : Address) {p : List Char} (h : a.port = some p) :
    ':' ∉ p ∧ '[' ∉ p ∧ ']' ∉ p ∧ '/' ∉ p := by
  refine ⟨?_, ?_, ?_, ?_⟩ <;> intro mem <;> exact absurd ((a.digits p h).2 _ mem) (by decide)

theorem path_cases (a : Address) : a.path = [] ∨ ∃ rest, a.path = '/' :: rest := by
  cases h : a.path with
  | nil => exact Or.inl rfl
  | cons c rest =>
    have := a.rooted c (by simp [h])
    exact Or.inr ⟨rest, by rw [this]⟩

theorem Separable.free {a : Address} {p : List Char} (separable : a.Separable)
    (port : a.port = some p) :
    ':' ∉ p ++ a.path ∧ '[' ∉ p ++ a.path ∧ ']' ∉ p ++ a.path := by
  obtain ⟨colon, opening, closing, -⟩ := a.port_free port
  rcases separable with none | ⟨-, colon', opening', closing'⟩
  · simp [none, colon, opening, closing]
  · simp [colon, opening, closing, colon', opening', closing']

theorem not_separable {a : Address} (h : ¬a.Separable) :
    '/' ∈ a.afterHost ∧ (a.port = none ∨ ∃ p, a.port = some p ∧
      ¬(':' ∉ p ++ a.path ∧ '[' ∉ p ++ a.path ∧ ']' ∉ p ++ a.path)) := by
  rw [Separable, not_or] at h
  obtain ⟨rest, path⟩ := a.path_cases.resolve_left h.1
  cases port : a.port with
  | none => exact ⟨by simp [afterHost, port, path], Or.inl rfl⟩
  | some p =>
    refine ⟨by simp [afterHost, port, path], Or.inr ⟨p, rfl, fun free => h.2 ⟨by simp [port], ?_⟩⟩⟩
    simp only [List.mem_append, not_or] at free
    exact ⟨free.1.2, free.2.1.2, free.2.2.2⟩

theorem text_bracketed {a : Address} {address : List Char} (shape : a.host = '[' :: (address ++ [']'])) :
    a.text = '[' :: (address ++ ']' :: a.afterHost) := by
  simp [text, shape]

theorem not_opening {s rest host port : List Char} (shape : s = '[' :: rest) (opening : '[' ∉ host) :
    s ≠ host ++ ':' :: port := by
  rintro rfl
  cases host with
  | nil => simp at shape
  | cons c host =>
    simp only [List.cons_append, List.cons.injEq] at shape
    simp [shape.1] at opening

/-- Where the port is read off, the host before it still has the path in it. -/
theorem slash_before_port {a : Address} (named : IsName a.host) (path : '/' ∈ a.path)
    (port : a.port = none) {host rest : List Char} (same : a.text = host ++ ':' :: rest) : '/' ∈ host := by
  obtain ⟨colon, slash, -, -⟩ := named.free
  obtain ⟨after, hpath⟩ := a.path_cases.resolve_left (List.ne_nil_of_mem path)
  by_contra free
  have later : '/' ∈ rest := by
    have mem : '/' ∈ host ++ ':' :: rest := by simp [← same, text, afterHost, port, path]
    simpa [free] using mem
  obtain ⟨u, v, rfl, first⟩ := List.eq_append_cons_of_mem later
  have same' : a.host ++ '/' :: after = (host ++ ':' :: u) ++ '/' :: v := by
    simpa [text, afterHost, port, hpath] using same
  obtain ⟨whole, -⟩ := append_stop_inj slash (by simp [free, first]) same'
  simp [whole] at colon

theorem afterHost_none {a : Address} (port : a.port = none) {rest : List Char} :
    a.afterHost ≠ ':' :: rest := by
  rcases a.path_cases with path | ⟨after, path⟩ <;> simp [afterHost, port, path]

/-- What the backend takes for the host of a value that it cannot split still has a slash in it. -/
theorem schemeFor_unseparated {a : Address} (h : ¬a.Separable) :
    Middleware.schemeFor a.text = "https" := by
  obtain ⟨slash, blocked⟩ := not_separable h
  cases split : Middleware.splitHostPort a.text with
  | none =>
    rw [Middleware.schemeFor, split, if_neg]
    exact Middleware.slash_not_local (List.mem_append_right _ slash)
  | some pair =>
    obtain ⟨host, rest⟩ := pair
    obtain ⟨colon, opening, closing, opening', closing', shape⟩ := Middleware.splitHostPort_iff.mp split
    rw [Middleware.schemeFor, split, if_neg (Middleware.slash_not_local ?_)]
    rcases a.named with named | ⟨address, bracketed, -, inside⟩
    · obtain ⟨colon', -, bracket, -⟩ := named.free
      rcases shape with ⟨same, single⟩ | same
      · rcases blocked with port | ⟨p, port, taken⟩
        · exact slash_before_port named (by simpa [afterHost, port] using slash) port same
        · have same' : a.host ++ ':' :: (p ++ a.path) = host ++ ':' :: rest := by
            simpa [text, afterHost, port] using same
          obtain ⟨-, whole⟩ := append_stop_inj colon' single same'
          rw [whole] at taken
          exact absurd ⟨colon, opening', closing'⟩ taken
      · obtain ⟨c, host', hhost⟩ := List.exists_cons_of_ne_nil named.1
        simp only [text, hhost, List.cons_append, List.cons.injEq] at same
        simp [hhost, same.1] at bracket
    · rw [text_bracketed bracketed] at shape
      rcases shape with ⟨same, -⟩ | same
      · exact absurd same (not_opening rfl opening)
      · have free : ']' ∉ address := fun mem => by simpa using inside _ mem
        obtain ⟨-, after⟩ := append_stop_inj free closing (List.cons.inj same).2
        rcases blocked with port | ⟨p, port, taken⟩
        · exact absurd after (afterHost_none port)
        · have whole : p ++ a.path = rest := by simpa [afterHost, port] using after
          rw [whole] at taken
          exact absurd ⟨colon, opening', closing'⟩ taken

theorem schemeFor_name {a : Address} (named : IsName a.host) (h : a.Separable) :
    Middleware.schemeFor a.text = if IsLocal a.host then "http" else "https" := by
  obtain ⟨colon, -, opening, closing⟩ := named.free
  cases port : a.port with
  | none =>
    have path : a.path = [] := h.resolve_right (by simp [port])
    have whole : a.text = a.host := by simp [text, afterHost, port, path]
    have none : Middleware.splitHostPort a.host = none := by simp [Middleware.splitHostPort, colon]
    simp only [whole, Middleware.schemeFor, none, named.local_iff]
  | some p =>
    obtain ⟨free, opening', closing'⟩ := h.free port
    have split : Middleware.splitHostPort a.text = some (a.host, p ++ a.path) :=
      Middleware.splitHostPort_iff.mpr
        ⟨free, opening, closing, opening', closing', Or.inl ⟨by simp [text, afterHost, port], colon⟩⟩
    simp only [Middleware.schemeFor, split, named.local_iff]

theorem schemeFor_bracketed {a : Address} (bracketed : IsBracketed a.host) (h : a.Separable) :
    Middleware.schemeFor a.text = if a.host = "[::1]".toList then "http" else "https" := by
  obtain ⟨address, shape, colon, inside⟩ := bracketed
  have opening : '[' ∉ address := fun mem => by simpa using inside _ mem
  have closing : ']' ∉ address := fun mem => by simpa using inside _ mem
  cases port : a.port with
  | none =>
    have path : a.path = [] := h.resolve_right (by simp [port])
    have whole : a.text = a.host := by simp [text, afterHost, port, path]
    have none : Middleware.splitHostPort a.text = none := by
      cases split : Middleware.splitHostPort a.text with
      | none => rfl
      | some pair =>
        obtain ⟨-, opening', closing', -, -, same⟩ := Middleware.splitHostPort_iff.mp split
        rw [text_bracketed shape] at same
        rcases same with ⟨same, -⟩ | same
        · exact absurd same (not_opening rfl opening')
        · obtain ⟨-, after⟩ := append_stop_inj closing closing' (List.cons.inj same).2
          exact absurd after (afterHost_none port)
    simp only [Middleware.schemeFor, none]
    rw [whole, shape]
    simp only [bracketed_local_iff]
  | some p =>
    obtain ⟨free, opening', closing'⟩ := h.free port
    have split : Middleware.splitHostPort a.text = some (address, p ++ a.path) :=
      Middleware.splitHostPort_iff.mpr
        ⟨free, opening, closing, opening', closing',
          Or.inr (by rw [text_bracketed shape]; simp [afterHost, port])⟩
    have same : a.host = "[::1]".toList ↔ address = "::1".toList := by
      rw [shape]
      constructor
      · intro eq
        exact List.append_cancel_right (List.cons.inj eq).2
      · rintro rfl
        rfl
    simp only [Middleware.schemeFor, split, inside_local_iff colon opening, same]

theorem host_kind (a : Address) :
    IsName a.host ∧ a.host ≠ "[::1]".toList ∨ IsBracketed a.host ∧ ¬IsLocal a.host := by
  rcases a.named with named | bracketed
  · refine Or.inl ⟨named, fun same => ?_⟩
    simpa [same] using named.free.1
  · refine Or.inr ⟨bracketed, fun isLocal => ?_⟩
    obtain ⟨address, shape, -⟩ := bracketed
    have opening : Char.toLower '[' = '[' := by decide
    simp [IsLocal, shape, opening] at isLocal

/-- The scheme the backend guesses for an address. -/
theorem backend_scheme (a : Address) : Middleware.schemeFor a.text =
    if a.Separable ∧ (IsLocal a.host ∨ a.host = "[::1]".toList) then "http" else "https" := by
  by_cases h : a.Separable
  · rcases a.host_kind with ⟨named, ordinary⟩ | ⟨bracketed, foreign⟩
    · simp only [schemeFor_name named h, h, ordinary, or_false, true_and]
    · simp only [schemeFor_bracketed bracketed h, h, foreign, false_or, true_and]
  · simp only [schemeFor_unseparated h, h, false_and, if_false]

theorem takeWhile_name {a : Address} (named : IsName a.host) :
    (a.text.takeWhile (· != '/')).takeWhile (· != ':') = a.host := by
  obtain ⟨colon, slash, -, -⟩ := named.free
  have passes : ∀ c ∈ a.host, ((c != ':') = true ∧ (c != '/') = true) := by
    intro c hc
    have first : c ≠ '/' := fun same => slash (same ▸ hc)
    have second : c ≠ ':' := fun same => colon (same ▸ hc)
    simp [first, second]
  rw [List.takeWhile_takeWhile]
  have all : ∀ c ∈ a.host, decide ((c != ':') = true ∧ (c != '/') = true) = true :=
    fun c hc => decide_eq_true (passes c hc)
  cases port : a.port with
  | none =>
    rcases a.path_cases with path | ⟨rest, path⟩
    · simpa [text, afterHost, port, path] using passes
    · simpa only [text, afterHost, port, path] using takeWhile_stop (by decide) all rest
  | some p => simpa only [text, afterHost, port] using takeWhile_stop (by decide) all (p ++ a.path)

theorem takeWhile_bracketed {a : Address} (bracketed : IsBracketed a.host) :
    ∃ rest, (a.text.takeWhile (· != '/')).takeWhile (· != ':') = '[' :: rest := by
  obtain ⟨address, shape, -⟩ := bracketed
  rw [text_bracketed shape]
  simp

/-- The scheme the frontend guesses for it. -/
theorem frontend_scheme (a : Address) :
    Env.schemeFor a.text = if IsLocal a.host then "http" else "https" := by
  rcases a.host_kind with ⟨named, -⟩ | ⟨bracketed, foreign⟩
  · simp only [Env.schemeFor, takeWhile_name named,
      toLowerCase_iff (show Plain "localhost".toList by decide),
      toLowerCase_iff (show Plain "127.0.0.1".toList by decide)]
    simp only [IsLocal, List.mem_cons, List.not_mem_nil, or_false]
  · obtain ⟨rest, head⟩ := takeWhile_bracketed bracketed
    have opening : Photos.toLower '[' = '[' := by decide
    simp [Env.schemeFor, head, Env.toLowerCase, foreign, opening]

def authority (a : Address) : List Char :=
  match a.port with
  | none => a.host
  | some p => a.host ++ ':' :: p

theorem text_authority (a : Address) : a.text = a.authority ++ a.path := by
  cases port : a.port <;> simp [text, afterHost, authority, port]

theorem host_slash (a : Address) : '/' ∉ a.host := by
  rcases a.named with named | ⟨address, shape, -, inside⟩
  · exact named.free.2.1
  · have free : '/' ∉ address := fun mem => by simpa using inside _ mem
    simp [shape, free]

theorem authority_slash (a : Address) : '/' ∉ a.authority := by
  cases port : a.port with
  | none => simpa [authority, port] using a.host_slash
  | some p => simp [authority, port, a.host_slash, (a.port_free port).2.2.2]

theorem host_last (a : Address) : a.host.getLast? ≠ some ':' := by
  rcases a.named with named | ⟨address, shape, -, -⟩
  · exact fun last => named.free.1 (List.mem_of_getLast? last)
  · have split : a.host = ('[' :: address) ++ [']'] := by simp [shape]
    rw [split, List.getLast?_concat]
    decide

theorem authority_last (a : Address) (before : List Char) : a.authority ≠ before ++ [':'] := by
  intro same
  have last : a.authority.getLast? = some ':' := by simp [same]
  cases port : a.port with
  | none => exact a.host_last (by simpa [authority, port] using last)
  | some p =>
    obtain ⟨nonempty, -⟩ := a.digits p port
    obtain ⟨c, p', rfl⟩ := List.exists_cons_of_ne_nil nonempty
    have last' : (c :: p').getLast? = some ':' := by simpa [authority, port] using last
    exact (a.port_free port).1 (List.mem_of_getLast? last')

/-- Only the path can have a scheme separator in it. -/
theorem separator_iff (a : Address) : "://".toList <:+: a.text ↔ "://".toList <:+: a.path := by
  rw [text_authority]
  constructor
  · rintro ⟨u, v, same⟩
    have same' : u ++ ':' :: '/' :: '/' :: v = a.authority ++ a.path := by simpa using same
    rcases List.append_eq_append_iff.mp same' with ⟨after, whole, rest⟩ | ⟨after, rfl, rest⟩
    · cases after with
      | nil =>
        rcases a.path_cases with path | ⟨tail, path⟩ <;> simp [path] at rest
      | cons c after =>
        cases after with
        | nil =>
          obtain ⟨rfl, -⟩ := List.cons.inj rest
          exact absurd whole (a.authority_last u)
        | cons d after =>
          simp only [List.cons_append, List.cons.injEq] at rest
          exact absurd (by simp [whole, ← rest.2.1]) a.authority_slash
    · exact ⟨after, v, by simp [rest]⟩
  · exact fun within => within.trans (List.suffix_append _ _).isInfix

theorem text_head (a : Address) :
    ∃ c rest, a.text = c :: rest ∧ (c = '[' ∨ c ∈ a.host ∧ IsName a.host) := by
  rcases a.named with named | ⟨address, shape, -, -⟩
  · obtain ⟨c, rest, head⟩ := List.exists_cons_of_ne_nil named.1
    exact ⟨c, rest ++ a.afterHost, by simp [text, head], Or.inr ⟨by simp [head], named⟩⟩
  · exact ⟨'[', _, text_bracketed shape, Or.inl rfl⟩

theorem scheme_less (a : Address) : Env.hasScheme a.text = false := by
  obtain ⟨c, rest, head, kind⟩ := a.text_head
  by_contra has
  simp only [head, Env.hasScheme, Bool.not_eq_false, Bool.and_eq_true, List.isPrefixOf_iff_prefix] at has
  obtain ⟨letter, v, after⟩ := has
  have whole : a.text = (c :: rest.takeWhile Env.isSchemeChar ++ [':']) ++ '/' :: '/' :: v := by
    have parts : rest.takeWhile Env.isSchemeChar ++ ("://".toList ++ v) = rest := by
      rw [after, List.takeWhile_append_dropWhile]
    rw [head, List.cons_append, List.cons_append, List.append_assoc]
    exact congrArg (c :: ·) parts.symm
  have first : '/' ∉ c :: rest.takeWhile Env.isSchemeChar ++ [':'] := by
    simp only [List.mem_append, List.mem_cons, List.not_mem_nil, or_false, not_or]
    refine ⟨⟨?_, fun mem => ?_⟩, by decide⟩
    · rintro rfl
      revert letter
      decide
    · have passes := List.mem_takeWhile_imp mem
      revert passes
      decide
  rw [text_authority] at whole
  obtain ⟨tail, path⟩ := a.path_cases.resolve_left fun none => by
    have mem : '/' ∈ a.authority ++ a.path := by simp [whole]
    simp [none, a.authority_slash] at mem
  rw [path] at whole
  exact a.authority_last _ (append_stop_inj a.authority_slash first whole).1

/-- A trim that leaves alone what an authority is made of. -/
structure Spares (p : Char → Bool) (a : Address) : Prop where
  marks : p '/' = false ∧ p ':' = false ∧ p '[' = false ∧ p ']' = false
  digit : ∀ c : Char, c.isDigit = true → p c = false
  name : IsName a.host → ∀ c ∈ a.host, p c = false

theorem spares_backend (a : Address) : Spares isSpace a := by
  refine ⟨by decide, fun c digit => ?_, fun named c hc => (named.2 c hc).2.1⟩
  have bounds : 48 ≤ c.toNat ∧ c.toNat ≤ 57 := Char.isDigit_iff_toNat.mp digit
  have low : c.toNat ∉ [0x09, 0x0a, 0x0b, 0x0c, 0x0d, 0x20, 0x85, 0xa0, 0x1680, 0x2028, 0x2029, 0x202f,
      0x205f, 0x3000] := by
    simp only [List.mem_cons, List.not_mem_nil, or_false]
    omega
  simp only [isSpace, low, decide_false, Bool.false_or, Bool.and_eq_false_iff, decide_eq_false_iff_not]
  omega

theorem spares_frontend (a : Address) : Spares Env.isWhiteSpace a := by
  refine ⟨by decide, fun c digit => ?_, fun named c hc => (named.2 c hc).2.2⟩
  have bounds : 48 ≤ c.toNat ∧ c.toNat ≤ 57 := Char.isDigit_iff_toNat.mp digit
  have low : c.toNat ∉ [0x09, 0x0a, 0x0b, 0x0c, 0x0d, 0x20, 0xa0, 0x1680, 0x2028, 0x2029, 0x202f, 0x205f,
      0x3000, 0xfeff] := by
    simp only [List.mem_cons, List.not_mem_nil, or_false]
    omega
  simp only [Env.isWhiteSpace, low, decide_false, Bool.false_or, Bool.and_eq_false_iff,
    decide_eq_false_iff_not]
  omega

/-- The address with the end of its path cut off. -/
def trimPath (a : Address) (p : Char → Bool) : Address where
  host := a.host
  port := a.port
  path := a.path.rdropWhile p
  named := a.named
  digits := a.digits
  rooted := by
    intro c head
    have kept : a.path.rdropWhile p <+: a.path := List.rdropWhile_prefix p _
    obtain ⟨rest, whole⟩ := kept
    refine a.rooted c ?_
    rw [← whole, List.head?_append, Option.mem_def.mp head]
    rfl

theorem trimPath_path {a : Address} {p : Char → Bool} (slash : p '/' = false) {rest : List Char}
    (path : a.path = '/' :: rest) : (a.trimPath p).path = '/' :: rest.rdropWhile p := by
  simpa [trimPath, path] using rdropWhile_stop slash [] rest

theorem host_end {p : Char → Bool} {a : Address} (spares : Spares p a) {c : Char}
    (last : a.host.getLast? = some c) : p c = false := by
  rcases a.named with named | ⟨address, shape, -, -⟩
  · exact spares.name named c (List.mem_of_getLast? last)
  · have split : a.host = ('[' :: address) ++ [']'] := by simp [shape]
    rw [split, List.getLast?_concat, Option.some.injEq] at last
    exact last ▸ spares.marks.2.2.2

theorem authority_end {p : Char → Bool} {a : Address} (spares : Spares p a) {c : Char}
    (last : a.authority.getLast? = some c) : p c = false := by
  cases port : a.port with
  | none => exact host_end spares (by simpa [authority, port] using last)
  | some q =>
    obtain ⟨nonempty, digits⟩ := a.digits q port
    obtain ⟨d, q', rfl⟩ := List.exists_cons_of_ne_nil nonempty
    have last' : (d :: q').getLast? = some c := by simpa [authority, port] using last
    exact spares.digit c (digits c (List.mem_of_getLast? last'))

theorem text_trim {p : Char → Bool} {a : Address} (spares : Spares p a) :
    (a.text.dropWhile p).rdropWhile p = (a.trimPath p).text := by
  obtain ⟨c, rest, head, kind⟩ := a.text_head
  have stays : p c = false := by
    rcases kind with rfl | ⟨mem, named⟩
    · exact spares.marks.2.2.1
    · exact spares.name named c mem
  have front : a.text.dropWhile p = a.text := by simp [head, stays]
  rw [front, text_authority, text_authority]
  change _ = a.authority ++ a.path.rdropWhile p
  rcases a.path_cases with path | ⟨tail, path⟩
  · simp only [path, List.rdropWhile_nil, List.append_nil, List.rdropWhile_eq_self_iff]
    intro nonempty passes
    simp [authority_end spares (List.getLast?_eq_some_getLast nonempty)] at passes
  · rw [path, rdropWhile_stop spares.marks.1, ← List.nil_append ('/' :: tail),
      rdropWhile_stop spares.marks.1, List.nil_append]

theorem mem_trimPath {p : Char → Bool} {a : Address} {c : Char} (kept : p c = false) :
    c ∈ (a.trimPath p).path ↔ c ∈ a.path := by
  constructor
  · exact fun mem => (List.rdropWhile_prefix p a.path).subset mem
  · intro mem
    obtain ⟨u, v, split⟩ := List.append_of_mem mem
    simp [trimPath, split, rdropWhile_stop kept]

theorem separable_trim {p : Char → Bool} {a : Address} (spares : Spares p a) :
    (a.trimPath p).Separable ↔ a.Separable := by
  obtain ⟨slash, colon, opening, closing⟩ := spares.marks
  have bare : (a.trimPath p).path = [] ↔ a.path = [] := by
    rcases a.path_cases with path | ⟨rest, path⟩
    · simp [trimPath, path]
    · simp [trimPath_path slash path, path]
  simp only [Separable, bare, mem_trimPath colon, mem_trimPath opening, mem_trimPath closing]
  rfl

theorem separator_trim {p : Char → Bool} {a : Address} (spares : Spares p a) :
    "://".toList <:+: (a.trimPath p).path ↔ "://".toList <:+: a.path := by
  constructor
  · exact fun within => within.trans (List.rdropWhile_prefix p a.path).isInfix
  · rintro ⟨u, v, split⟩
    have split' : a.path = (u ++ [':', '/']) ++ '/' :: v := by simp [← split]
    refine ⟨u, v.rdropWhile p, ?_⟩
    simp only [trimPath, split', rdropWhile_stop spares.marks.1]
    simp

theorem text_ne_nil (a : Address) : a.text ≠ [] := by
  obtain ⟨c, rest, head, -⟩ := a.text_head
  simp [head]

theorem backend_prepends (a : Address) : Middleware.prepended a.text =
    if "://".toList <:+: a.path then none
    else some (if a.Separable ∧ (IsLocal a.host ∨ a.host = "[::1]".toList) then "http" else "https") := by
  have trimmed : trimSpace a.text = (a.trimPath isSpace).text := text_trim a.spares_backend
  simp only [Middleware.prepended, trimmed, text_ne_nil, false_or, separator_iff,
    separator_trim a.spares_backend, backend_scheme, separable_trim a.spares_backend]
  rfl

theorem frontend_prepends (a : Address) :
    Env.prepended a.text = some (if IsLocal a.host then "http" else "https") := by
  have trimmed : Env.trim a.text = (a.trimPath Env.isWhiteSpace).text := text_trim a.spares_frontend
  simp only [Env.prepended, trimmed, text_ne_nil, false_or, scheme_less, Bool.false_eq_true, if_false,
    frontend_scheme]
  rfl

end Address

/-- Both sides guess the same scheme for exactly these addresses. -/
theorem schemes_agree_iff (a : Address) :
    Middleware.prepended a.text = Env.prepended a.text ↔
      ¬"://".toList <:+: a.path ∧ (IsLocal a.host → a.Separable) ∧
        (a.host = "[::1]".toList → ¬a.Separable) := by
  rw [a.backend_prepends, a.frontend_prepends]
  by_cases separator : "://".toList <:+: a.path
  · rw [if_pos separator]
    constructor
    · intro same
      cases same
    · exact fun free => absurd separator free.1
  · have foreign : a.host = "[::1]".toList → ¬IsLocal a.host := fun same => by
      rw [same]
      decide
    rw [if_neg separator, Option.some_inj]
    by_cases isLocal : IsLocal a.host
    · have ordinary : a.host ≠ "[::1]".toList := fun same => foreign same isLocal
      by_cases separable : a.Separable <;>
        simp only [separator, isLocal, ordinary, separable] <;> decide
    · by_cases loopback : a.host = "[::1]".toList <;> by_cases separable : a.Separable <;>
        simp only [separator, isLocal, loopback, separable] <;> decide

def trailingSlash : Address where
  host := "localhost".toList
  port := none
  path := ['/']
  named := Or.inl (by decide)
  digits := by simp
  rooted := by simp

/-- A trailing slash is enough for the two sides to disagree. -/
theorem trailingSlash_schemes :
    trailingSlash.text = "localhost/".toList ∧
      Middleware.prepended trailingSlash.text = some "https" ∧
      Env.prepended trailingSlash.text = some "http" := by
  have separator : ¬("://".toList <:+: trailingSlash.path) := by
    rintro ⟨u, v, split⟩
    have length := congrArg List.length split
    simp only [List.length_append] at length
    change u.length + 3 + v.length = 1 at length
    omega
  have inside : IsLocal trailingSlash.host := by decide
  have unseparable : ¬(trailingSlash.Separable ∧
      (IsLocal trailingSlash.host ∨ trailingSlash.host = "[::1]".toList)) := by
    rintro ⟨separable, -⟩
    revert separable
    decide
  refine ⟨rfl, ?_, ?_⟩
  · rw [trailingSlash.backend_prepends, if_neg separator, if_neg unseparable]
  · rw [trailingSlash.frontend_prepends, if_pos inside]

end ItalyTrip
