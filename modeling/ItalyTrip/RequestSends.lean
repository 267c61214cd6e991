import ItalyTrip.DrainCalls
import ItalyTrip.UploaderClient

namespace ItalyTrip

open Calls

/-- A request is about to be sent, for the first time: so far it has only read the token. -/
def FirstSend (build : Option String → HttpRequest) (req : HttpRequest) (new : Past ClientReply) : Prop :=
  ∃ token, req = build token ∧ new = [⟨.getToken, token⟩]

/-- It is about to be sent again: it was sent once, with a token that had expired, and the refresh it has
waited for has succeeded. -/
def SecondSend (tab : Nat) (build : Option String → HttpRequest) (req : HttpRequest)
    (new : Past ClientReply) : Prop :=
  ∃ old res payload p refreshed token, ApiClient.SaysExpired res payload ∧ req = build token ∧
    new = ⟨.getToken, token⟩ :: ⟨.awaitRefresh p, .ok refreshed⟩ ::
      ApiClient.fetchedExpired tab build old res payload p []

variable (localeLE : String → String → Bool)

/-- A task is making the request that `build` builds, and of all its exchanges `new` are those of the
request. -/
inductive Requesting : ClientTask → (Option String → HttpRequest) → Past ClientReply → Past ClientReply → Prop
  | get (tab : Nat) (path : String) (new : Past ClientReply) :
    Requesting (.get tab path) (fun token => .get token path) new new
  | upload {task : UploadTask} {calls : Past UploadReply} {input : UploadInput}
      {next : Except JsError (Option Payload) → Prog UploadCall UploadReply (Except JsError Unit)}
      {before : Past ClientReply} (new : Past ClientReply) :
    (task.script localeLE).run.Leads calls (.call (.awaitUpload task.tab input) next) →
    Prog.CarriedOut UploadCall.carryOut calls before →
    Requesting task.client (fun token => .upload token input) new (new ++ before)

/-- A call that no script makes but the chain of a refresh. -/
def ClientCall.chained : ClientCall → Bool
  | .beginRefresh _ _ | .settleRefresh _ _ _ | .fetch .refresh => true
  | _ => false

variable {localeLE}

namespace ApiClient

open Uploader (Calls calls_pure)

variable {tab : Nat} {build : Option String → HttpRequest} {past : Past ClientReply}

/-- A request sends twice at most. -/
theorem request_sends : Calls
    (fun new c => ∀ req, c = .fetch req → FirstSend build req new ∨ SecondSend tab build req new)
    (request tab build) [] := by
  have sends : ∀ {token old res payload p refreshed}, SaysExpired res payload → ∀ req,
      ClientCall.fetch (build token) = .fetch req → FirstSend build req (⟨.getToken, token⟩ ::
        ⟨.awaitRefresh p, .ok refreshed⟩ :: fetchedExpired tab build old res payload p []) ∨
      SecondSend tab build req (⟨.getToken, token⟩ ::
        ⟨.awaitRefresh p, .ok refreshed⟩ :: fetchedExpired tab build old res payload p []) := by
    rintro token old res payload p refreshed expired _ ⟨⟩
    exact Or.inr ⟨old, res, payload, p, refreshed, token, expired, rfl, rfl⟩
  refine Calls.bind (ensures_fetchWithRefresh
    { token := nofun
      fetch := ?_
      read := nofun
      promise := nofun
      wait := nofun
      clear := nofun
      retry := fun expired old p refreshed => ?_ }) fun res _ => ?_
  · rintro token _ ⟨⟩
    exact Or.inl ⟨token, rfl, rfl⟩
  · exact ensures_fetchAuthed.mpr ⟨nofun, fun token => ⟨sends expired, fun _ => trivial, fun _ => trivial⟩⟩
  · exact ensures_parse.mpr ⟨fun _ => ⟨nofun, fun _ => trivial⟩,
      fun _ => ⟨fun _ => trivial, fun _ => ⟨nofun, fun _ => trivial, fun _ => trivial⟩⟩⟩

theorem fetch_unchained {req : HttpRequest} (named : req ≠ .refresh) :
    (ClientCall.fetch req).chained = false := by
  cases req with
  | refresh => exact absurd rfl named
  | _ => rfl

theorem request_unchained (named : ∀ token, build token ≠ .refresh) :
    Calls (fun _ c => c.chained = false) (request tab build) past := by
  have attempts : ∀ past, Calls (fun _ c => c.chained = false) (fetchAuthed build) past := by
    intro past
    exact ensures_fetchAuthed.mpr ⟨rfl, fun token => ⟨fetch_unchained (named token), fun _ => trivial,
      fun _ => trivial⟩⟩
  refine Calls.bind (ensures_fetchWithRefresh
    { fetch := fun token => fetch_unchained (named token)
      retry := fun _ _ _ _ => attempts _ }) fun res _ => ?_
  exact ensures_parse.mpr ⟨fun _ => ⟨rfl, fun _ => trivial⟩,
    fun _ => ⟨fun _ => trivial, fun _ => ⟨rfl, fun _ => trivial, fun _ => trivial⟩⟩⟩

/-- The chain of a refresh has called the endpoint, once, and has not settled its promise yet. -/
def Exchanging (tab p : Nat) (res : Except String HttpResponse) (past : Past ClientReply) : Prop :=
  ∃ later, past = later ++ [⟨.fetch .refresh, res⟩, ⟨.beginRefresh tab p, ()⟩] ∧
    ∀ x ∈ later, x.1.chained = false

/-- What a refresh may settle with: it succeeds only if its call was answered with a success. -/
def SettlesWith (res : Except String HttpResponse) (result : Except JsError String) : Prop :=
  ∀ token, result = .ok token → ∃ response, res = .ok response ∧ response.ok = true

/-- The chain of a refresh begins, calls the endpoint, and settles the promise as the last thing it does. -/
def Chains (tab p : Nat) (past : Past ClientReply) : ClientCall → Prop
  | .beginRefresh n q => n = tab ∧ q = p ∧ past = []
  | .fetch req => req = .refresh ∧ past = [⟨.beginRefresh tab p, ()⟩]
  | .settleRefresh n q result => n = tab ∧ q = p ∧
    ∃ res, Exchanging tab p res past ∧ SettlesWith res result
  | .refreshPromise _ | .awaitRefresh _ => False
  | _ => True

theorem Exchanging.cons {p : Nat} {res : Except String HttpResponse} (h : Exchanging tab p res past)
    {c : ClientCall} (r : ClientReply c) (apart : c.chained = false) :
    Exchanging tab p res (⟨c, r⟩ :: past) := by
  obtain ⟨later, rfl, hl⟩ := h
  refine ⟨⟨c, r⟩ :: later, rfl, fun x hx => ?_⟩
  rcases List.mem_cons.mp hx with rfl | hx
  · exact apart
  · exact hl x hx

theorem exchangeToken_chains {p : Nat} : exchangeToken.run.Ensures (Chains tab p)
    (fun past result => ∃ res, Exchanging tab p res past ∧ SettlesWith res result)
    [⟨.beginRefresh tab p, ()⟩] := by
  have fetched : ∀ res, Exchanging tab p res [⟨.fetch .refresh, res⟩, ⟨.beginRefresh tab p, ()⟩] :=
    fun res => ⟨[], rfl, fun _ hx => absurd hx List.not_mem_nil⟩
  have fails : ∀ {res past} (e : JsError), Exchanging tab p res past →
      ∃ res, Exchanging tab p res past ∧ SettlesWith res (.error e) :=
    fun _ exchanging => ⟨_, exchanging, fun _ same => by cases same⟩
  have stores : ∀ {response : HttpResponse} {past} (data : Option Payload), response.ok = true →
      Exchanging tab p (.ok response) past → Prog.Ensures (ExceptT.run (do
        let payload ← someOrThrow data (.other "undefined is not an object")
        let token := payload.token.getD "undefined"
        let stored ← await (.setToken token)
        resolved stored
        return token)) (Chains tab p)
      (fun past result => ∃ res, Exchanging tab p res past ∧ SettlesWith res result) past := by
    intro response past data ok exchanging
    simp only [ensures_run_bind, ensures_someOrThrow, ensures_request, ensures_resolved, ensures_run_pure]
    refine ⟨fun _ => fails _ exchanging, fun payload _ => ⟨trivial, fun stored => ⟨fun _ _ => ?_, ?_⟩⟩⟩
    · exact fails _ (exchanging.cons _ rfl)
    · exact fun _ _ => ⟨_, exchanging.cons _ rfl, fun _ _ => ⟨response, rfl, ok⟩⟩
  refine ensures_run_bind.mpr (ensures_request.mpr ⟨⟨rfl, rfl⟩, fun res => ?_⟩)
  refine ensures_run_bind.mpr (ensures_resolved.mpr ⟨fun _ _ => fails _ (fetched res), ?_⟩)
  rintro response rfl
  refine ensures_run_bind.mpr (ensures_parse.mpr ⟨fun _ => ⟨trivial, fun payload => ?_⟩, fun ok => ⟨?_, ?_⟩⟩)
  · exact fails _ ((fetched _).cons _ rfl)
  · exact fun _ => stores none ok (fetched _)
  · exact fun _ => ⟨trivial, fun _ => fails _ ((fetched _).cons _ rfl),
      fun payload => stores (some payload) ok ((fetched _).cons _ rfl)⟩

theorem refreshChain_chains (tab p : Nat) : Calls (Chains tab p) (refreshChain tab p) [] := by
  refine ensures_run_bind.mpr (ensures_request.mpr ⟨⟨rfl, rfl, rfl⟩, fun _ => ?_⟩)
  refine ensures_run_bind.mpr (ensures_attempt.mpr (exchangeToken_chains.mono (fun _ _ hc => hc) ?_))
  intro past result settles
  exact ensures_request.mpr ⟨⟨rfl, rfl, settles⟩, fun _ => trivial⟩

end ApiClient

theorem carryOut_unchained (c : UploadCall) (past : Past ClientReply) :
    c.carryOut.Ensures (fun _ c' => c'.chained = false) (fun _ _ => True) past := by
  cases c with
  | awaitUpload tab input => exact ApiClient.request_unchained (fun _ => by nofun)
  | beginUpload tab input => trivial
  | joinDrain tab => trivial
  | settleDrain p result => trivial
  | beginDrain tab => exact ⟨rfl, fun _ => ⟨rfl, fun _ => trivial⟩⟩
  | endDrain tab => exact ⟨rfl, fun _ => ⟨rfl, fun _ => trivial⟩⟩
  | _ => exact ⟨rfl, fun _ => trivial⟩

/-- Only an upload fetches anything. -/
theorem carryOut_fetches (c : UploadCall) : c.carryOut.Ensures
    (fun _ c' => ∀ req, c' = .fetch req → ∃ tab input, c = .awaitUpload tab input) (fun _ _ => True) [] := by
  cases c with
  | awaitUpload tab input =>
    exact (Prog.ensures_true _).mono (fun _ _ _ _ _ => ⟨tab, input, rfl⟩) fun _ _ _ => trivial
  | beginUpload tab input => trivial
  | joinDrain tab => trivial
  | settleDrain p result => trivial
  | beginDrain tab => exact ⟨nofun, fun _ => ⟨nofun, fun _ => trivial⟩⟩
  | endDrain tab => exact ⟨nofun, fun _ => ⟨nofun, fun _ => trivial⟩⟩
  | _ => exact ⟨nofun, fun _ => trivial⟩

/-- What a task may do about refreshes. -/
def RefreshRules (task : ClientTask) (past : Past ClientReply) (c : ClientCall) : Prop :=
  (∃ tab p, task = .refresh tab p ∧ ApiClient.Chains tab p past c) ∨ c.chained = false

theorem script_refreshes (task : ClientTask) :
    (task.script localeLE).run.Ensures (RefreshRules task) (fun _ _ => True) [] := by
  have apart : (task.script localeLE).run.Ensures (fun _ c => c.chained = false) (fun _ _ => True) [] →
      (task.script localeLE).run.Ensures (RefreshRules task) (fun _ _ => True) [] := by
    intro unchained
    exact unchained.mono (fun _ _ hc => Or.inr hc) fun _ _ _ => trivial
  have uploads : ∀ upload : UploadTask, (upload.client.script localeLE).run.Ensures
      (fun _ c => c.chained = false) (fun _ _ => True) [] := by
    intro upload
    rw [← script_client]
    exact Prog.ensures_implement carryOut_unchained _ _
  cases task with
  | enqueue tab rounds item => exact apart (uploads (.enqueue tab rounds item))
  | start tab rounds => exact apart (uploads (.start tab rounds))
  | stop tab => exact apart (uploads (.stop tab))
  | trigger tab rounds => exact apart (uploads (.drain tab rounds))
  | retryTimer tab rounds => exact apart (uploads (.retryTimer tab rounds))
  | refresh tab p =>
    refine (ApiClient.refreshChain_chains tab p).mono (fun _ _ hc => ?_) fun _ _ _ => trivial
    exact Or.inl ⟨tab, p, rfl, hc⟩
  | get tab path =>
    have gets : Uploader.Calls (fun _ c => c.chained = false) (ApiClient.get tab path) [] :=
      ApiClient.request_unchained (fun _ => by nofun)
    exact apart (gets.bind fun _ _ => Uploader.calls_pure)

theorem UploadTask.client_tab (task : UploadTask) : task.client.tab = task.tab := by
  cases task <;> rfl

/-- Every request that a task sends, but for that of a refresh, is sent for the first or the second time. -/
theorem script_sends {task : ClientTask} {past : Past ClientReply} {req : HttpRequest}
    {next : Except String HttpResponse → Prog ClientCall ClientReply (Except JsError Unit)}
    (leads : (task.script localeLE).run.Leads past (.call (.fetch req) next)) (named : req ≠ .refresh) :
    ∃ build new, Requesting localeLE task build new past ∧
      (FirstSend build req new ∨ SecondSend task.tab build req new) := by
  have uploads : ∀ upload : UploadTask,
      (upload.client.script localeLE).run.Leads past (.call (.fetch req) next) →
      ∃ build new, Requesting localeLE upload.client build new past ∧
        (FirstSend build req new ∨ SecondSend upload.client.tab build req new) := by
    intro upload leads
    rw [← script_client] at leads
    obtain ⟨calls, c, _, before, new, _, at_call, carried, carrying, rfl⟩ := Prog.Leads.of_implement leads
    obtain ⟨tab, input, rfl⟩ := (carryOut_fetches c).at_call carrying req rfl
    obtain ⟨rfl, _⟩ := (script_allowed localeLE upload).at_call at_call
    rw [upload.client_tab]
    exact ⟨_, new, .upload new at_call carried, ApiClient.request_sends.at_call carrying req rfl⟩
  cases task with
  | enqueue tab rounds item => exact uploads (.enqueue tab rounds item) leads
  | start tab rounds => exact uploads (.start tab rounds) leads
  | stop tab => exact uploads (.stop tab) leads
  | trigger tab rounds => exact uploads (.drain tab rounds) leads
  | retryTimer tab rounds => exact uploads (.retryTimer tab rounds) leads
  | refresh tab p =>
    exact absurd ((ApiClient.refreshChain_chains tab p).at_call leads).1 named
  | get tab path =>
    have sends := (@ApiClient.request_sends tab fun token => .get token path).bind
      fun _ _ => Uploader.calls_pure (a := ())
    exact ⟨_, past, .get tab path past, sends.at_call leads req rfl⟩

end ItalyTrip
