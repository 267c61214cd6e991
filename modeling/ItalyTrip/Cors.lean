import ItalyTrip.Origins

namespace ItalyTrip.Middleware

/-- The headers of a response, one value for each name. -/
abbrev Headers := List (String × String)

/-- `gin.Context.Header`, which deletes what it is given no value for. -/
def Headers.header (headers : Headers) (key value : String) : Headers :=
  if value = "" then headers.filter (·.1 ≠ key)
  else (key, value) :: headers.filter (·.1 ≠ key)

/-- A request as far as CORS goes; `origin` holds the values of its Origin headers. -/
structure Incoming where
  method : String
  origin : List String

/-- `gin.Context.GetHeader`. -/
def Incoming.getOrigin (request : Incoming) : String := request.origin.headD ""

/-- A middleware either answers the request or hands it to the next handler. -/
inductive Handled where
  | abortWithStatus (status : Nat) (headers : Headers)
  | next (headers : Headers)

def Handled.headers : Handled → Headers
  | .abortWithStatus _ headers => headers
  | .next headers => headers

def trimmed (origin : String) : String := String.ofList (trimSpace origin.toList)

def cors (allowedOrigins : List String) (request : Incoming) : Handled :=
  let allowed := (allowedOrigins.map trimmed).filter (· ≠ "")
  let origin := request.getOrigin
  let headers := Headers.header [] "Vary" "Origin"
  let headers :=
    if origin ∈ allowed then
      let headers := headers.header "Access-Control-Allow-Origin" origin
      let headers := headers.header "Access-Control-Allow-Credentials" "true"
      let headers := headers.header "Access-Control-Allow-Methods"
        "GET, POST, PUT, PATCH, DELETE, OPTIONS"
      let headers := headers.header "Access-Control-Allow-Headers" "Content-Type, Authorization"
      headers.header "Access-Control-Max-Age" "600"
    else headers
  if request.method = "OPTIONS" then .abortWithStatus 204 headers else .next headers

def configured (value : String) : List String := (value.toList.splitOn ',').map String.ofList

def parseOrigins (parse : String → Option (String × String)) (value : String) : List String :=
  ((configured value).map (normalizeOrigin parse)).filter (· ≠ "")

theorem lookup_deleted {headers : Headers} {key name : String} (other : name ≠ key) :
    (headers.filter (·.1 ≠ key)).lookup name = headers.lookup name := by
  induction headers with
  | nil => rfl
  | cons entry headers ih =>
    obtain ⟨k, v⟩ := entry
    by_cases gone : k = key
    · have skipped : (name == k) = false := beq_false_of_ne (gone ▸ other)
      rw [List.filter_cons_of_neg (by simpa using gone), List.lookup_cons, skipped]
      exact ih
    · rw [List.filter_cons_of_pos (by simpa using gone), List.lookup_cons, List.lookup_cons, ih]

theorem lookup_header {headers : Headers} {key value : String} (h : value ≠ "") (name : String) :
    (headers.header key value).lookup name =
      if name = key then some value else headers.lookup name := by
  rw [Headers.header, if_neg h]
  by_cases same : name = key
  · rw [if_pos same, same, List.lookup_cons_self]
  · rw [if_neg same, List.lookup_cons, beq_false_of_ne same]
    exact lookup_deleted same

theorem parseOrigins_mem {parse : String → Option (String × String)} {config origin : String} :
    origin ∈ ((parseOrigins parse config).map trimmed).filter (· ≠ "") ↔
      origin ≠ "" ∧ ∃ part ∈ configured config, origin = trimmed (normalizeOrigin parse part) := by
  have blank : trimmed "" = "" := by decide
  simp only [parseOrigins, List.mem_filter, List.mem_map, decide_eq_true_iff]
  constructor
  · rintro ⟨⟨_, ⟨⟨part, mem, rfl⟩, -⟩, eq⟩, nonempty⟩
    exact ⟨nonempty, part, mem, eq.symm⟩
  · rintro ⟨nonempty, part, mem, rfl⟩
    have named : normalizeOrigin parse part ≠ "" := by
      intro none
      exact nonempty (by rw [none, blank])
    exact ⟨⟨_, ⟨⟨part, mem, rfl⟩, named⟩, rfl⟩, nonempty⟩

/-- What is configured is a scheme and a host whatever `url.Parse` makes of it. -/
theorem normalizeOrigin_separator {parse : String → Option (String × String)} {value : String}
    (h : normalizeOrigin parse value ≠ "") :
    ∃ scheme host, normalizeOrigin parse value = scheme ++ "://" ++ host := by
  unfold normalizeOrigin at h ⊢
  dsimp only at h ⊢
  by_cases blank : trimSpace value.toList = []
  · exact absurd (if_pos blank) h
  rw [if_neg blank] at h ⊢
  split
  next scheme host parsed =>
    rw [parsed] at h
    dsimp only at h
    by_cases empty : host = ""
    · exact absurd (if_pos empty) h
    · exact ⟨scheme, host, if_neg empty⟩
  next failed =>
    rw [failed] at h
    exact absurd rfl h

theorem trimmed_separator (scheme host : String) :
    "://".toList <:+: (trimmed (scheme ++ "://" ++ host)).toList := by
  have colon : isSpace ':' = false := by decide
  have slash : isSpace '/' = false := by decide
  have shape : (scheme ++ "://" ++ host).toList =
      scheme.toList ++ ':' :: '/' :: '/' :: host.toList := by simp
  have regroup : scheme.toList.dropWhile isSpace ++ ':' :: '/' :: '/' :: host.toList =
      (scheme.toList.dropWhile isSpace ++ [':', '/']) ++ '/' :: host.toList := by simp
  rw [trimmed, String.toList_ofList, trimSpace, shape, dropWhile_stop colon, regroup,
    rdropWhile_stop slash]
  exact ⟨scheme.toList.dropWhile isSpace, host.toList.rdropWhile isSpace, by simp⟩

/-- What a page on another origin can count on of the response. -/
structure Guarded (parse : String → Option (String × String)) (config : String) (request : Incoming)
    (handled : Handled) : Prop where
  allowed : (handled.headers.lookup "Access-Control-Allow-Origin").isSome ↔
    ∃ origin ∈ request.origin.head?, origin ≠ "" ∧
      ∃ part ∈ configured config, origin = trimmed (normalizeOrigin parse part)
  echoed : ∀ value ∈ handled.headers.lookup "Access-Control-Allow-Origin",
    value ∈ request.origin.head? ∧ "://".toList <:+: value.toList
  credentials : (handled.headers.lookup "Access-Control-Allow-Credentials").isSome →
    (handled.headers.lookup "Access-Control-Allow-Origin").isSome
  vary : handled.headers.lookup "Vary" = some "Origin"
  preflight : request.method = "OPTIONS" → ∃ headers, handled = .abortWithStatus 204 headers

theorem cors_headers (allowedOrigins : List String) (request : Incoming) (name : String) :
    (cors allowedOrigins request).headers.lookup name =
      if request.getOrigin ∈ (allowedOrigins.map trimmed).filter (· ≠ "") then
        if name = "Access-Control-Max-Age" then some "600"
        else if name = "Access-Control-Allow-Headers" then some "Content-Type, Authorization"
        else if name = "Access-Control-Allow-Methods" then some "GET, POST, PUT, PATCH, DELETE, OPTIONS"
        else if name = "Access-Control-Allow-Credentials" then some "true"
        else if name = "Access-Control-Allow-Origin" then some request.getOrigin
        else if name = "Vary" then some "Origin" else none
      else if name = "Vary" then some "Origin" else none := by
  have headers_if : ∀ headers : Headers, (if request.method = "OPTIONS" then
      Handled.abortWithStatus 204 headers else .next headers).headers = headers := by
    intro headers
    split <;> rfl
  unfold cors
  dsimp only
  rw [headers_if]
  by_cases allowed : request.getOrigin ∈ (allowedOrigins.map trimmed).filter (· ≠ "")
  · have nonempty : request.getOrigin ≠ "" := by simpa using (List.mem_filter.mp allowed).2
    rw [if_pos allowed, if_pos allowed, lookup_header (by decide), lookup_header (by decide),
      lookup_header (by decide), lookup_header (by decide), lookup_header nonempty,
      lookup_header (by decide)]
    rfl
  · rw [if_neg allowed, if_neg allowed, lookup_header (by decide)]
    rfl

theorem getOrigin_iff {request : Incoming} {origin : String} (h : origin ≠ "") :
    request.getOrigin = origin ↔ origin ∈ request.origin.head? := by
  cases values : request.origin with
  | nil =>
    rw [Incoming.getOrigin, values]
    constructor
    · exact fun eq => absurd eq.symm h
    · exact fun mem => absurd mem (by simp)
  | cons value rest =>
    rw [Incoming.getOrigin, values]
    exact Option.mem_some_iff.symm.trans Iff.rfl

/-- Whatever is configured, only a configured origin is let in, and it is named to its own page. -/
theorem cors_guarded (parse : String → Option (String × String)) (config : String)
    (request : Incoming) :
    Guarded parse config request (cors (parseOrigins parse config) request) := by
  by_cases allowed : request.getOrigin ∈ ((parseOrigins parse config).map trimmed).filter (· ≠ "")
  · have headers : ∀ name, _ = _ := cors_headers (parseOrigins parse config) request
    simp only [if_pos allowed] at headers
    obtain ⟨nonempty, part, mem, eq⟩ := parseOrigins_mem.mp allowed
    have sent := (getOrigin_iff nonempty).mp rfl
    constructor
    · rw [headers]
      exact ⟨fun _ => ⟨_, sent, nonempty, part, mem, eq⟩, fun _ => rfl⟩
    · intro value carried
      rw [headers] at carried
      have same : request.getOrigin = value := Option.some.inj carried
      have named : normalizeOrigin parse part ≠ "" := by
        intro none
        exact nonempty (eq.trans (by rw [none]; decide))
      obtain ⟨scheme, host, shape⟩ := normalizeOrigin_separator named
      refine ⟨same ▸ sent, ?_⟩
      rw [← same, eq, shape]
      exact trimmed_separator scheme host
    · rw [headers, headers]
      exact fun _ => rfl
    · rw [headers]
      rfl
    · exact fun preflight => ⟨_, by rw [cors, if_pos preflight]⟩
  · have headers : ∀ name, _ = _ := cors_headers (parseOrigins parse config) request
    simp only [if_neg allowed] at headers
    have absent : (cors (parseOrigins parse config) request).headers.lookup
        "Access-Control-Allow-Origin" = none := by
      rw [headers]
      rfl
    constructor
    · rw [absent]
      refine ⟨fun none => absurd none Bool.false_ne_true, ?_⟩
      rintro ⟨origin, sent, nonempty, part, mem, eq⟩
      have same := (getOrigin_iff nonempty).mpr sent
      exact absurd (parseOrigins_mem.mpr ⟨same ▸ nonempty, part, mem, same.trans eq⟩) allowed
    · rw [absent]
      exact fun value none => absurd none (by simp)
    · rw [headers]
      exact fun none => absurd none Bool.false_ne_true
    · rw [headers]
      rfl
    · exact fun preflight => ⟨_, by rw [cors, if_pos preflight]⟩

end ItalyTrip.Middleware
