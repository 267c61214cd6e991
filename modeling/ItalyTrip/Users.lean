import ItalyTrip.Handler

namespace ItalyTrip

open Calls

inductive AuthError where
  | expiredToken
  | invalidToken

/-- `Issuer.Verify`: the user id of the claims. -/
def verify (app : Application) (token : String) (time : Instant) : Except AuthError String :=
  match app.parseWithClaims app.jwtSecret token time with
  | .error .tokenExpired => .error .expiredToken
  | .error .other => .error .invalidToken
  | .ok (userID, valid) => if valid then .ok userID else .error .invalidToken

/-- `Issuer.Issue`: the clock is read for the expiry and again for the time of issue. -/
def issue (app : Application) (userID : String) (failed : Response) : Handler String := do
  let time ← call .now
  let issuedAt ← call .now
  orThrow (app.signedString app.jwtSecret userID (time + app.jwtTTL) issuedAt) fun _ => failed

def bearerToken (header : String) : Option String :=
  match header.toList.span (· ≠ ' ') with
  | (scheme, _ :: token) => if scheme = "Bearer".toList then some (String.ofList token) else none
  | (_, []) => none

def authError : AuthError → Response
  | .expiredToken => writeErrorWithCode 401 "token expired" "token_expired"
  | .invalidToken => writeErrorFromString 401 "invalid token"

def userNotFound : Response := writeErrorFromString 401 "user not found"

/-- Whatever error `FindUserById` gives, the user counts as not found. -/
def requireAuth (app : Application) (authorization : String) : Handler User := do
  let token ← someOrThrow (bearerToken authorization)
    (writeErrorFromString 401 "missing or malformed authorization header")
  let time ← call .now
  let subject ← orThrow (verify app token time) authError
  let userID ← orThrow (app.parseUUID subject) fun _ =>
    writeErrorFromString 401 "invalid token subject"
  let found ← call (.query (.findUserById userID))
  orThrow found fun _ => userNotFound

structure LoginRequest where
  email : String
  password : String

namespace Users

def userResponse (user : User) : UserResponse := ⟨uuidString user.id, user.email⟩

def refreshFailed : Response := writeErrorFromString 500 "failed to issue refresh token"

def tokenFailed : Response := writeErrorFromString 500 "failed to issue token"

def clearRefreshCookie (response : Response) : Response := { response with cookie := some ⟨"", -1⟩ }

def issueRefreshToken (app : Application) (userID : UUID) : Handler SetCookie := do
  let generated ← call .generateRefreshToken
  let rawToken ← orThrow generated fun _ => refreshFailed
  let time ← call .now
  let created ← call (.query (.createRefreshToken ⟨userID, app.hashRefreshToken rawToken,
    time + app.refreshTokenTTL⟩))
  let _ ← orThrow created fun _ => refreshFailed
  return ⟨rawToken, app.refreshTokenTTL.tdiv 1000000000⟩

/-- The access token and the rotated cookie of a session. -/
def session (app : Application) (user : User) : Handler Response := do
  let token ← issue app (uuidString user.id) tokenFailed
  let cookie ← issueRefreshToken app user.id
  return { writeJSON 200 [] (.auth token (userResponse user)) with cookie := some cookie }

def login (app : Application) (body : Except String LoginRequest) : Handler Response := do
  let req ← orThrow body (writeErrorFromString 400)
  let found ← call (.query (.findUserByEmail req.email))
  let user ← orThrow found fun
    | .noRows => writeErrorFromString 401 "invalid email or password"
    | _ => writeErrorFromString 500 "failed to login"
  throwIf (app.compareHashAndPassword user.passwordHash req.password = false)
    (writeErrorFromString 401 "invalid email or password")
  session app user

def alreadyUsed : Response := clearRefreshCookie (writeErrorFromString 401 "refresh token already used")

def lookupError : DbError → Response
  | .noRows => clearRefreshCookie (writeErrorFromString 401 "invalid refresh token")
  | _ => writeErrorFromString 500 "failed to look up refresh token"

def expiredResponse : Response :=
  clearRefreshCookie (writeErrorFromString 401 "refresh token expired")

def revokeFailed : Response := writeErrorFromString 500 "failed to revoke refresh token"

/-- A revoked token presented again revokes the whole family; that call's own error is dropped. -/
def refresh (app : Application) (cookie : Option String) : Handler Response := do
  let rawToken := cookie.getD ""
  throwIf (rawToken = "") (writeErrorFromString 401 "missing refresh token")
  let found ← call (.query (.findRefreshTokenByHash (app.hashRefreshToken rawToken)))
  let stored ← orThrow found lookupError
  if stored.revokedAt.isSome then
    let _ ← call (.query (.revokeRefreshTokensForUser stored.userID))
    return alreadyUsed
  else
    let time ← call .now
    throwIf (stored.expiresAt < time) expiredResponse
    let revoked ← call (.query (.revokeRefreshToken stored.id))
    orThrow revoked fun _ => revokeFailed
    let found ← call (.query (.findUserById stored.userID))
    let user ← orThrow found fun _ => userNotFound
    session app user

def me (context : Option User) : Handler Response := do
  let user ← someOrThrow context (writeErrorFromString 401 "not authenticated")
  return writeJSON 200 [] (.user (userResponse user))

variable {app : Application} {atCall : Past Reply → Call → Prop} {past : Past Reply}
  {atDone : Past Reply → Except Response Response → Prop}

def sessionResponse (app : Application) (user : User) (token rawToken : String) : Response :=
  { writeJSON 200 [] (.auth token (userResponse user)) with
    cookie := some ⟨rawToken, app.refreshTokenTTL.tdiv 1000000000⟩ }

/-- A session is answered with 200 only after its refresh token has been created. -/
theorem ensures_session {user : User} :
    (session app user).run.Ensures atCall atDone past ↔
      atCall past .now ∧ ∀ t : Instant, atCall (⟨.now, t⟩ :: past) .now ∧ ∀ t' : Instant,
        (∀ err, app.signedString app.jwtSecret (uuidString user.id) (t + app.jwtTTL) t' = .error err →
          atDone (⟨.now, t'⟩ :: ⟨.now, t⟩ :: past) (.error tokenFailed)) ∧
        ∀ token, app.signedString app.jwtSecret (uuidString user.id) (t + app.jwtTTL) t' = .ok token →
          atCall (⟨.now, t'⟩ :: ⟨.now, t⟩ :: past) .generateRefreshToken ∧
          (∀ err, atDone (⟨.generateRefreshToken, .error err⟩ :: ⟨.now, t'⟩ :: ⟨.now, t⟩ :: past)
            (.error refreshFailed)) ∧
          ∀ rawToken, atCall
              (⟨.generateRefreshToken, .ok rawToken⟩ :: ⟨.now, t'⟩ :: ⟨.now, t⟩ :: past) .now ∧
            ∀ t'' : Instant,
              let before : Past Reply := ⟨.now, t''⟩ :: ⟨.generateRefreshToken, .ok rawToken⟩ ::
                ⟨.now, t'⟩ :: ⟨.now, t⟩ :: past
              let create : Query := .createRefreshToken ⟨user.id, app.hashRefreshToken rawToken,
                t'' + app.refreshTokenTTL⟩
              atCall before (.query create) ∧
              (∀ err, atDone (⟨.query create, .error err⟩ :: before) (.error refreshFailed)) ∧
              ∀ row, atDone (⟨.query create, .ok row⟩ :: before)
                (.ok (sessionResponse app user token rawToken)) := by
  simp only [session, issue, issueRefreshToken, ensures_run_bind, ensures_request, ensures_orThrow,
    ensures_run_pure, forall_except, Except.error.injEq, Except.ok.injEq, forall_eq', reduceCtorEq,
    false_implies, implies_true, and_true, true_and, forall_const,
    sessionResponse]

/-- What a refresh knows once it has found its row. -/
def found (app : Application) (cookie : Option String) (stored : RefreshToken) (past : Past Reply) :
    Past Reply :=
  ⟨.query (.findRefreshTokenByHash (app.hashRefreshToken (cookie.getD ""))), .ok stored⟩ :: past

/-- What a refresh knows once it has asked for the row to be revoked. -/
def rotated (app : Application) (cookie : Option String) (stored : RefreshToken) (t : Instant)
    (r : Except DbError Unit) (past : Past Reply) : Past Reply :=
  ⟨.query (.revokeRefreshToken stored.id), r⟩ :: ⟨.now, t⟩ :: found app cookie stored past

/-- What a refresh may do, case by case. -/
structure RefreshCases (app : Application) (cookie : Option String) (past : Past Reply)
    (atCall : Past Reply → Call → Prop)
    (atDone : Past Reply → Except Response Response → Prop) : Prop where
  noCookie : cookie.getD "" = "" →
    atDone past (.error (writeErrorFromString 401 "missing refresh token"))
  lookup : atCall past (.query (.findRefreshTokenByHash (app.hashRefreshToken (cookie.getD "")))) := by
    trivial
  notFound : ∀ err, atDone
    (⟨.query (.findRefreshTokenByHash (app.hashRefreshToken (cookie.getD ""))), .error err⟩ :: past)
    (.error (lookupError err))
  revokeAll : ∀ stored, stored.revokedAt.isSome = true →
    atCall (found app cookie stored past)
      (.query (.revokeRefreshTokensForUser stored.userID)) := by intros; trivial
  reused : ∀ stored r, stored.revokedAt.isSome = true →
    atDone (⟨.query (.revokeRefreshTokensForUser stored.userID), r⟩ :: found app cookie stored past)
      (.ok alreadyUsed)
  clock : ∀ stored, ¬ stored.revokedAt.isSome = true →
    atCall (found app cookie stored past) .now := by intros; trivial
  expired : ∀ stored t, ¬ stored.revokedAt.isSome = true → stored.expiresAt < t →
    atDone (⟨.now, t⟩ :: found app cookie stored past) (.error expiredResponse)
  revoke : ∀ stored t, ¬ stored.revokedAt.isSome = true →
    atCall (⟨.now, t⟩ :: found app cookie stored past)
      (.query (.revokeRefreshToken stored.id)) := by intros; trivial
  notRevoked : ∀ stored t err, atDone (rotated app cookie stored t (.error err) past)
    (.error revokeFailed)
  owner : ∀ stored t, atCall (rotated app cookie stored t (.ok ()) past)
    (.query (.findUserById stored.userID)) := by intros; trivial
  notOwned : ∀ stored t err,
    atDone (⟨.query (.findUserById stored.userID), .error err⟩ ::
      rotated app cookie stored t (.ok ()) past) (.error userNotFound)
  session : ∀ stored t user, ¬ stored.revokedAt.isSome = true →
    (session app user).run.Ensures atCall atDone
      (⟨.query (.findUserById stored.userID), .ok user⟩ :: rotated app cookie stored t (.ok ()) past)

theorem ensures_refresh {cookie : Option String} (h : RefreshCases app cookie past atCall atDone) :
    (refresh app cookie).run.Ensures atCall atDone past := by
  simp only [refresh, ensures_run_bind, ensures_request, ensures_orThrow, ensures_throwIf,
    ensures_run_ite, ensures_run_pure, forall_except, Except.error.injEq, Except.ok.injEq,
    forall_eq', reduceCtorEq, false_implies, implies_true, and_true, true_and, forall_const]
  refine ⟨h.noCookie, fun _ => ⟨h.lookup, h.notFound, fun stored => ⟨fun used => ?_, fun live => ?_⟩⟩⟩
  · exact ⟨h.revokeAll stored used, fun err => h.reused stored (.error err) used,
      fun u => h.reused stored (.ok u) used⟩
  · refine ⟨h.clock stored live, fun t => ⟨h.expired stored t live, fun _ => ⟨h.revoke stored t live, ?_⟩⟩⟩
    exact ⟨h.notRevoked stored t, fun _ => ⟨h.owner stored t, h.notOwned stored t,
      fun user => h.session stored t user live⟩⟩

end Users

end ItalyTrip
