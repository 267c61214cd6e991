import ItalyTrip.Sessions

namespace ItalyTrip

open Calls

/-- `time.Hour`. -/
def hour : Int64 := 3600000000000

/-- What `run` makes of a configured number of hours. -/
def lifetime (hours : Int64) : Int64 := hours * hour

/-- The application that `run` sets up. -/
def Application.configured (app : Application) (jwtHours refreshHours : Int64) : Application :=
  { app with jwtTTL := (lifetime jwtHours).toInt, refreshTokenTTL := (lifetime refreshHours).toInt }

/-- The most hours that fit into a duration. -/
def maxHours : Int64 := 2562047

/-- Up to this many hours, durations are positive and do not decrease. -/
def IsLifetime (hours : Int64) : Prop :=
  ∀ fewer more, 0 < fewer → fewer ≤ more → more ≤ hours →
    0 < lifetime fewer ∧ lifetime fewer ≤ lifetime more

theorem lifetime_toInt {hours : Int64} (positive : 0 < hours) (small : hours ≤ maxHours) :
    (lifetime hours).toInt = hours.toInt * 3600000000000 := by
  have low : 0 < hours.toInt := Int64.lt_iff_toInt_lt.mp positive
  have high : hours.toInt ≤ 2562047 := Int64.le_iff_toInt_le.mp small
  have unit : hour.toInt = 3600000000000 := by decide
  rw [lifetime, Int64.toInt_mul, unit, Int.bmod_def]
  split <;> omega

theorem isLifetime_iff {hours : Int64} : IsLifetime hours ↔ hours ≤ maxHours := by
  constructor
  · intro lasts
    by_contra long
    have next : (2562048 : Int64) ≤ hours := by
      have above : maxHours.toInt < hours.toInt := Int64.lt_iff_toInt_lt.mp (Int64.not_le.mp long)
      have bound : maxHours.toInt = 2562047 := by decide
      refine Int64.le_iff_toInt_le.mpr ?_
      change (2562048 : Int) ≤ _
      omega
    have wraps := (lasts 2562048 2562048 (by decide) (Int64.le_refl _) next).1
    exact absurd wraps (by decide)
  · intro small fewer more hfewer le hmore
    have short := Int64.le_trans hmore small
    have first := lifetime_toInt hfewer (Int64.le_trans le short)
    have second := lifetime_toInt (Int64.lt_of_lt_of_le hfewer le) short
    have ordered : fewer.toInt ≤ more.toInt := Int64.le_iff_toInt_le.mp le
    have low : 0 < fewer.toInt := Int64.lt_iff_toInt_lt.mp hfewer
    refine ⟨Int64.lt_iff_toInt_lt.mpr ?_, Int64.le_iff_toInt_le.mpr ?_⟩
    · rw [first]
      change (0 : Int) < _
      omega
    · rw [first, second]
      omega

/-- In whole seconds, as tokens have them, the expiry is after that time. -/
def Outlives (t expires : Instant) : Prop := t / 1000000000 < expires / 1000000000

/-- A refresh token is created with an expiry after the time it was counted from. -/
def CreatesLasting (past : Past Reply) (c : Call) : Prop :=
  ∀ arg, c = .query (.createRefreshToken arg) → ∃ t before, past = ⟨.now, t⟩ :: before ∧
    Outlives t arg.expiresAt

/-- A login or a refresh that is answered with a token: that expires after the time it was counted from, and
after the time it says it was issued at unless an hour has passed between the two; and the cookie has a
positive age. -/
def AnswersLasting (app : Application) (req : Request) (past : Past Reply) (response : Response) : Prop :=
  (∀ route, req.route ≠ .authorized route) → ∀ token user, response.body = .auth token user →
    (∃ cookie, response.cookie = some cookie ∧ 0 < cookie.maxAge) ∧
      ∃ t issuedAt expires, ⟨.now, t⟩ ∈ past ∧ ⟨.now, issuedAt⟩ ∈ past ∧
        app.signedString app.jwtSecret user.id expires issuedAt = .ok token ∧ Outlives t expires ∧
        (issuedAt < t + hour.toInt → issuedAt < expires)

def TokensLast (app : Application) : Prop :=
  ∀ req, (serve app req).Ensures CreatesLasting (AnswersLasting app req) []

variable {app : Application} {past : Past Reply}

/-- The time to live is an hour at least. -/
def AtLeastHour (ttl : Int) : Prop := 3600000000000 ≤ ttl

theorem AtLeastHour.outlives {ttl : Int} (h : AtLeastHour ttl) (t : Int) : Outlives t (t + ttl) := by
  unfold AtLeastHour at h
  change t / 1000000000 < (t + ttl) / 1000000000
  omega

theorem AtLeastHour.issued {ttl : Int} (h : AtLeastHour ttl) {t issuedAt : Int}
    (soon : issuedAt < t + hour.toInt) : issuedAt < t + ttl := by
  unfold AtLeastHour at h
  have unit : hour.toInt = 3600000000000 := by decide
  omega

theorem AtLeastHour.maxAge {ttl : Int} (h : AtLeastHour ttl) : 0 < ttl.tdiv 1000000000 := by
  unfold AtLeastHour at h
  rw [Int.tdiv_eq_ediv_of_nonneg (by omega)]
  omega

theorem answersLasting_error {req : Request} {status : Nat} {message : String} {code : Option String}
    {cookie : Option SetCookie} : AnswersLasting app req past ⟨status, .error message code, cookie⟩ :=
  fun _ _ _ auth => by cases auth

theorem session_lasts {req : Request} {user : User} (jwt : AtLeastHour app.jwtTTL)
    (refresh : AtLeastHour app.refreshTokenTTL) :
    (Users.session app user).run.Ensures CreatesLasting
      (fun past result => AnswersLasting app req past (written result)) past := by
  have quiet : ∀ past, CreatesLasting past .now := fun _ => nofun
  have failed : ∀ past, AnswersLasting app req past Users.refreshFailed := fun _ => answersLasting_error
  rw [Users.ensures_session]
  refine ⟨quiet _, fun t => ⟨quiet _, fun t' => ⟨fun _ _ => answersLasting_error, fun token signed => ?_⟩⟩⟩
  refine ⟨nofun, fun _ => failed _, fun rawToken => ⟨quiet _, fun t'' => ⟨?_, fun _ => failed _, ?_⟩⟩⟩
  · rintro arg ⟨⟩
    exact ⟨t'', _, rfl, refresh.outlives t''⟩
  · intro row _ token' user' auth
    obtain ⟨rfl, rfl⟩ := Body.auth.inj auth
    exact ⟨⟨_, rfl, refresh.maxAge⟩, t, t', t + app.jwtTTL, by simp, by simp, signed, jwt.outlives t, jwt.issued⟩

theorem tokens_last (jwt : AtLeastHour app.jwtTTL) (refresh : AtLeastHour app.refreshTokenTTL) :
    TokensLast app := by
  intro req
  have session := fun past user => @session_lasts app past req user jwt refresh
  obtain ⟨header, cookie, route⟩ := req
  cases route with
  | login body =>
    simp only [ensures_serve, handle, Users.login, ensures_run_bind, ensures_orThrow, ensures_request,
      ensures_throwIf]
    refine ⟨fun _ _ => answersLasting_error, fun req _ => ⟨fun _ eq => (by cases eq), fun r =>
      ⟨fun err _ => ?_, fun user _ => ⟨fun _ => answersLasting_error, fun _ => session _ user⟩⟩⟩⟩
    cases err <;> exact answersLasting_error
  | refresh =>
    refine ensures_serve.mpr (Users.ensures_refresh
      { noCookie := fun _ => answersLasting_error
        lookup := fun _ eq => by cases eq
        notFound := fun err => by cases err <;> exact answersLasting_error
        revokeAll := fun _ _ _ eq => by cases eq
        reused := fun _ _ _ => answersLasting_error
        clock := fun _ _ _ eq => by cases eq
        expired := fun _ _ _ _ => answersLasting_error
        revoke := fun _ _ _ _ eq => by cases eq
        notRevoked := fun _ _ _ => answersLasting_error
        owner := fun _ _ _ eq => by cases eq
        notOwned := fun _ _ _ => answersLasting_error
        session := fun _ _ user _ => session _ user })
  | authorized route =>
    refine (serve_writes ⟨header, cookie, .authorized route⟩).mono (fun past c hc => ?_) ?_
    · have silent : Table.refreshTokens ∉ (Route.authorized route).writes := by
        cases route <;> simp [Route.writes]
      rintro arg rfl
      exact absurd (hc _ rfl List.mem_cons_self) silent
    · exact fun _ _ _ unauthorized => absurd rfl (unauthorized route)

theorem lifetime_hour {hours : Int64} (positive : 0 < hours) (small : hours ≤ maxHours) :
    AtLeastHour (lifetime hours).toInt := by
  have low : 0 < hours.toInt := Int64.lt_iff_toInt_lt.mp positive
  rw [AtLeastHour, lifetime_toInt positive small]
  omega

/-- The configured lifetimes are lifetimes, and the tokens last, exactly as long as the hours fit into a
duration. -/
theorem lifetimes_iff {jwtHours refreshHours : Int64} (jwt : 0 < jwtHours) (refresh : 0 < refreshHours) :
    IsLifetime jwtHours ∧ IsLifetime refreshHours ∧ TokensLast (app.configured jwtHours refreshHours) ↔
      jwtHours ≤ maxHours ∧ refreshHours ≤ maxHours := by
  rw [isLifetime_iff, isLifetime_iff]
  refine ⟨fun h => ⟨h.1, h.2.1⟩, fun h => ⟨h.1, h.2, ?_⟩⟩
  exact tokens_last (lifetime_hour jwt h.1) (lifetime_hour refresh h.2)

theorem lifetimes_month : IsLifetime 720 ∧ IsLifetime 720 ∧ TokensLast (sampleApp.configured 720 720) :=
  (lifetimes_iff (by decide) (by decide)).mpr (by decide)

private def sampleEntry : Request := ⟨"", none, .login (.ok ⟨"trip@example.com", "pasta"⟩)⟩

/-- One hour more than fits is a lifetime of minus 292 years. The cookie of a login has expired when it is
set, which deletes it. -/
theorem lifetime_wraps : lifetime 2562047 = 9223369200000000000 ∧
    lifetime 2562048 = -9223371273709551616 ∧ ¬ IsLifetime 2562048 ∧
    ∃ token user rawToken w', visit (sampleApp.configured 720 2562048) sampleWorld sampleEntry
      (fun _ => sampleChoice 1 7 1) =
        some (⟨200, .auth token user, some ⟨rawToken, -9223371273⟩⟩, w') := by
  refine ⟨by decide, by decide, fun lasts => ?_, _, _, _, _, rfl⟩
  have positive := (lasts 2562048 2562048 (by decide) (by decide) (by decide)).1
  exact absurd positive (by decide)

end ItalyTrip
