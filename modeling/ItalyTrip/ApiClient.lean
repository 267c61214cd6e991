import ItalyTrip.Browser

namespace ItalyTrip

open Calls

/-- A function of the client: it may reject. -/
abbrev Script := ExceptT JsError (Prog ClientCall ClientReply)

abbrev await (c : ClientCall) : Script (ClientReply c) := request c

/-- The value of a promise, or its rejection thrown. -/
def resolved {α : Type} (result : Except String α) : Script α := orThrow result .other

@[simp] theorem ensures_resolved {α : Type} {result : Except String α}
    {atCall : Past ClientReply → ClientCall → Prop} {past : Past ClientReply}
    {atDone : Past ClientReply → Except JsError α → Prop} :
    (resolved result).run.Ensures atCall atDone past ↔
      (∀ m, result = .error m → atDone past (.error (.other m))) ∧
        ∀ a, result = .ok a → atDone past (.ok a) := by
  simp only [resolved, ensures_orThrow]

namespace ApiClient

def isTokenExpired (payload : Except String Payload) : Bool :=
  match payload with
  | .ok payload => payload.code == some "token_expired"
  | .error _ => false

def apiError (res : HttpResponse) (payload : Except String Payload) : ApiError :=
  let read := payload.toOption
  ⟨res.status, (read.bind Payload.error).getD s!"HTTP {res.status}: {res.statusText}",
    read.bind Payload.code⟩

def throwIfError (res : HttpResponse) : Script Unit :=
  if res.ok then pure ()
  else do
    let payload ← await (.json res)
    throw (.api (apiError res payload))

def parse (res : HttpResponse) : Script (Option Payload) := do
  throwIfError res
  if res.status = 204 then return none
  let payload ← await (.json res)
  some <$> resolved payload

/-- One attempt, with the token there is now. -/
def fetchAuthed (build : Option String → HttpRequest) : Script HttpResponse := do
  let token ← await .getToken
  let res ← await (.fetch (build token))
  resolved res

/-- The chain on the fetch of `/auth/refresh`, up to `finally`. A missing token is stored as the
string that `undefined` turns into. -/
def exchangeToken : Script String := do
  let res ← await (.fetch .refresh)
  let data ← parse (← resolved res)
  let payload ← someOrThrow data (.other "undefined is not an object")
  let token := payload.token.getD "undefined"
  let stored ← await (.setToken token)
  resolved stored
  return token

def refreshChain (tab p : Nat) : Script Unit := do
  await (.beginRefresh tab p)
  let result ← attempt exchangeToken
  await (.settleRefresh tab p result)

/-- Concurrent calls share one refresh. -/
def refreshToken (tab : Nat) : Script String := do
  let p ← await (.refreshPromise tab)
  let result ← await (.awaitRefresh p)
  orThrow result id

/-- Any failure of the refresh leaves the caller with the response it had. -/
def fetchWithRefresh (tab : Nat) (build : Option String → HttpRequest) : Script HttpResponse := do
  let res ← fetchAuthed build
  if res.status ≠ 401 then return res
  let payload ← await (.cloneJson res)
  if ¬ isTokenExpired payload then return res
  match ← attempt (refreshToken tab) with
  | .error _ =>
    await .clearToken
    return res
  | .ok _ => fetchAuthed build

def request (tab : Nat) (build : Option String → HttpRequest) : Script (Option Payload) := do
  parse (← fetchWithRefresh tab build)

/-- `postForm` to the upload endpoint. -/
def upload (tab : Nat) (input : UploadInput) : Script (Option Payload) :=
  request tab fun token => .upload token input

def get (tab : Nat) (path : String) : Script (Option Payload) := request tab fun token => .get token path

variable {tab : Nat} {build : Option String → HttpRequest} {past : Past ClientReply}
  {atCall : Past ClientReply → ClientCall → Prop}

theorem ensures_fetchAuthed {atDone : Past ClientReply → Except JsError HttpResponse → Prop} :
    (fetchAuthed build).run.Ensures atCall atDone past ↔ atCall past .getToken ∧
      ∀ token, atCall (⟨.getToken, token⟩ :: past) (.fetch (build token)) ∧
        (∀ m, atDone (⟨.fetch (build token), .error m⟩ :: ⟨.getToken, token⟩ :: past)
          (.error (.other m))) ∧
        ∀ res, atDone (⟨.fetch (build token), .ok res⟩ :: ⟨.getToken, token⟩ :: past) (.ok res) := by
  simp only [fetchAuthed, ensures_run_bind, ensures_request, ensures_resolved, forall_except,
    Except.error.injEq, Except.ok.injEq, forall_eq', reduceCtorEq, false_implies, implies_true,
    and_true, true_and]

theorem ensures_refreshToken {atDone : Past ClientReply → Except JsError String → Prop} :
    (refreshToken tab).run.Ensures atCall atDone past ↔ atCall past (.refreshPromise tab) ∧
      ∀ p, atCall (⟨.refreshPromise tab, p⟩ :: past) (.awaitRefresh p) ∧
        (∀ e, atDone (⟨.awaitRefresh p, .error e⟩ :: ⟨.refreshPromise tab, p⟩ :: past) (.error e)) ∧
        ∀ token, atDone (⟨.awaitRefresh p, .ok token⟩ :: ⟨.refreshPromise tab, p⟩ :: past)
          (.ok token) := by
  simp only [refreshToken, ensures_run_bind, ensures_request, ensures_orThrow, forall_except, id,
    Except.error.injEq, Except.ok.injEq, forall_eq', reduceCtorEq, false_implies, implies_true,
    and_true, true_and]

/-- A response is thrown with its status unless it is a success. -/
theorem ensures_parse {res : HttpResponse}
    {atDone : Past ClientReply → Except JsError (Option Payload) → Prop} :
    (parse res).run.Ensures atCall atDone past ↔
      (res.ok = false → atCall past (.json res) ∧ ∀ payload,
        atDone (⟨.json res, payload⟩ :: past) (.error (.api (apiError res payload)))) ∧
      (res.ok = true → (res.status = 204 → atDone past (.ok none)) ∧
        (res.status ≠ 204 → atCall past (.json res) ∧
          (∀ m, atDone (⟨.json res, .error m⟩ :: past) (.error (.other m))) ∧
          ∀ payload, atDone (⟨.json res, .ok payload⟩ :: past) (.ok (some payload)))) := by
  cases hok : res.ok with
  | true =>
    simp only [parse, throwIfError, hok, if_true, pure_bind, ensures_run_ite, ensures_run_pure,
      ensures_run_bind, ensures_request, ensures_resolved, ExceptT.run_map, Prog.ensures_map,
      forall_except, Except.map, Except.error.injEq, Except.ok.injEq, forall_eq', reduceCtorEq,
      false_implies, implies_true, and_true, true_and, forall_const, ne_eq]
  | false =>
    simp only [parse, throwIfError, hok, Bool.false_eq_true, if_false, ensures_run_bind,
      ensures_request, ensures_run_throw, forall_const, false_implies, and_true]

/-- The exchanges of an attempt that was answered. -/
abbrev fetched (build : Option String → HttpRequest) (token : Option String) (res : HttpResponse)
    (past : Past ClientReply) : Past ClientReply :=
  ⟨.fetch (build token), .ok res⟩ :: ⟨.getToken, token⟩ :: past

/-- The response says that the token has expired. -/
structure SaysExpired (res : HttpResponse) (payload : Except String Payload) : Prop where
  status : res.status = 401
  code : isTokenExpired payload = true

/-- The exchanges of an attempt whose token had expired, up to the refresh. -/
abbrev fetchedExpired (tab : Nat) (build : Option String → HttpRequest) (token : Option String)
    (res : HttpResponse) (payload : Except String Payload) (p : Nat) (past : Past ClientReply) :
    Past ClientReply :=
  ⟨.refreshPromise tab, p⟩ :: ⟨.cloneJson res, payload⟩ :: fetched build token res past

/-- What a request may do, case by case: a 401 that says the token has expired is tried again once
after a refresh. -/
structure FetchCases (tab : Nat) (build : Option String → HttpRequest)
    (atCall : Past ClientReply → ClientCall → Prop)
    (atDone : Past ClientReply → Except JsError HttpResponse → Prop) (past : Past ClientReply) :
    Prop where
  token : atCall past .getToken := by trivial
  fetch : ∀ token, atCall (⟨.getToken, token⟩ :: past) (.fetch (build token)) := by intros; trivial
  failed : ∀ token m, atDone (⟨.fetch (build token), .error m⟩ :: ⟨.getToken, token⟩ :: past)
    (.error (.other m)) := by intros; trivial
  answered : ∀ token res, res.status ≠ 401 → atDone (fetched build token res past) (.ok res) := by
    intros; trivial
  read : ∀ token res, res.status = 401 →
    atCall (fetched build token res past) (.cloneJson res) := by intros; trivial
  refused : ∀ token res payload, res.status = 401 → isTokenExpired payload = false →
    atDone (⟨.cloneJson res, payload⟩ :: fetched build token res past) (.ok res) := by
    intros; trivial
  promise : ∀ {res payload}, SaysExpired res payload → ∀ token,
    atCall (⟨.cloneJson res, payload⟩ :: fetched build token res past) (.refreshPromise tab) := by
    intros; trivial
  wait : ∀ {res payload}, SaysExpired res payload → ∀ token p,
    atCall (fetchedExpired tab build token res payload p past) (.awaitRefresh p) := by intros; trivial
  clear : ∀ {res payload}, SaysExpired res payload → ∀ token p e,
    atCall (⟨.awaitRefresh p, .error e⟩ :: fetchedExpired tab build token res payload p past)
      .clearToken := by intros; trivial
  notRefreshed : ∀ {res payload}, SaysExpired res payload → ∀ token p e,
    atDone (⟨.clearToken, ()⟩ :: ⟨.awaitRefresh p, .error e⟩ ::
      fetchedExpired tab build token res payload p past) (.ok res) := by intros; trivial
  retry : ∀ {res payload}, SaysExpired res payload → ∀ token p refreshed,
    (fetchAuthed build).run.Ensures atCall atDone (⟨.awaitRefresh p, .ok refreshed⟩ ::
      fetchedExpired tab build token res payload p past)

theorem ensures_fetchWithRefresh {atDone : Past ClientReply → Except JsError HttpResponse → Prop}
    (h : FetchCases tab build atCall atDone past) :
    (fetchWithRefresh tab build).run.Ensures atCall atDone past := by
  simp only [fetchWithRefresh, ensures_run_bind, ensures_run_ite, ensures_run_pure, ensures_request,
    ensures_attempt, not_not, Bool.not_eq_true, Bool.not_eq_false, ensures_fetchAuthed]
  refine ⟨h.token, fun token => ⟨h.fetch token, h.failed token, fun res => ⟨h.answered token res, ?_⟩⟩⟩
  intro status
  refine ⟨h.read token res status, fun payload => ⟨h.refused token res payload status, ?_⟩⟩
  intro code
  have expired : SaysExpired res payload := ⟨status, code⟩
  rw [ensures_refreshToken]
  refine ⟨h.promise expired token, fun p => ⟨h.wait expired token p, ?_, h.retry expired token p⟩⟩
  intro e
  simp only [ensures_run_bind, ensures_request, ensures_run_pure]
  exact ⟨h.clear expired token p e, fun _ => h.notRefreshed expired token p e⟩

end ApiClient

end ItalyTrip
