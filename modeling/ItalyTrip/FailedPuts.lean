import ItalyTrip.Uploader

namespace ItalyTrip

open Calls

/-- A 4xx other than 423. -/
def Refused (status : Nat) : Prop := 400 ≤ status ∧ status < 500 ∧ status ≠ 423

instance (status : Nat) : Decidable (Refused status) := inferInstanceAs (Decidable (_ ∧ _ ∧ _))

theorem isPermanent_iff {e : ApiError} : e.isPermanent = true ↔ Refused e.status := by
  simp [ApiError.isPermanent, Refused, and_assoc]

/-- The response is a 401 whose body says `token_expired`. -/
def HttpResponse.tokenExpired (res : HttpResponse) : Bool :=
  res.status == 401 && res.payload.any fun payload => payload.code == some "token_expired"

/-- The refresh that a thread waited for was refused by `/auth/refresh`. -/
def RefreshRefused (b : Browser) (past : Past ClientReply) : Prop :=
  ∃ p e, ⟨.awaitRefresh p, .error (.api e)⟩ ∈ past ∧ Refused e.status ∧
    ∃ answer ∈ b.refreshAnswers, answer.status = e.status

/-- Why a capture may be given up: the upload endpoint refused it, not for an expired token, or said
the token has expired and then the refresh or the second upload was refused. -/
inductive Refusal (b : Browser) (past : Past ClientReply) (clientId : String) : Prop
  | upload (res : HttpResponse) (answered : Answered past clientId res)
      (refused : Refused res.status) (fresh : res.tokenExpired = false)
  | afterExpiry (recent earlier : Past ClientReply) (token : Option String) (input : UploadInput)
      (res : HttpResponse)
      (split : past = recent ++ ⟨.fetch (.upload token input), .ok res⟩ :: earlier)
      (capture : input.clientId = clientId) (expired : res.tokenExpired = true)
      (refused : RefreshRefused b recent ∨
        ∃ res', Answered recent clientId res' ∧ Refused res'.status)

/-- No capture is given up for another reason. -/
def GivenUpWhenRefused : Pool.Condition ClientReply Browser ClientTask := fun b x =>
  ∀ item, x.call = .idbPut item → item.failed = true → Refusal b x.past item.clientId

/-- The task runs the uploader. -/
def ClientTask.uploads : ClientTask → Bool
  | .refresh _ _ | .get _ _ | .stop _ => false
  | _ => true

def unreadExpiry : Sigma ClientReply → Bool
  | ⟨.cloneJson res, .error _⟩ => res.tokenExpired
  | _ => false

/-- The code in the body of an expired token's 401 reaches the uploader. -/
def ExpiryRead : Pool.Condition ClientReply Browser ClientTask := fun _ x =>
  x.task.uploads = true → unreadExpiry ⟨x.call, x.reply⟩ = false

def awaited : ClientCall → Option Nat
  | .awaitRefresh p => some p
  | _ => none

/-- Not failed, or refused by `/auth/refresh`. -/
def RefreshState.refusedAtMost : RefreshState → Bool
  | .settled (.error (.api e)) => Refused e.status
  | .settled (.error (.other _)) => false
  | _ => true

/-- A refresh that the uploader waits for fails only where `/auth/refresh` refuses it. -/
def RefreshFailsRefused : Pool.Condition ClientReply Browser ClientTask := fun b x =>
  x.task.uploads = true → ∀ p ∈ awaited x.call, ∀ state ∈ b.refreshes[p]?, state.refusedAtMost = true

instance (b : Browser) (x : Pool.Event ClientReply Browser ClientTask) : Decidable (ExpiryRead b x) :=
  inferInstanceAs (Decidable (_ → _))

instance (b : Browser) (x : Pool.Event ClientReply Browser ClientTask) :
    Decidable (RefreshFailsRefused b x) :=
  inferInstanceAs (Decidable (_ → _))

/-- What the replies a thread has had say. -/
structure KnowsAnswers (task : ClientTask) (past : Past ClientReply) (b : Browser) : Prop where
  readBack : ∀ res payload, ⟨.cloneJson res, .ok payload⟩ ∈ past → res.payload = some payload
  unread : task.uploads = true → ∀ res m, ⟨.cloneJson res, .error m⟩ ∈ past → res.tokenExpired = false
  refused : task.uploads = true → ∀ p err, ⟨.awaitRefresh p, .error err⟩ ∈ past →
    ∃ e, err = .api e ∧ Refused e.status
  awaited : ∀ p e, ⟨.awaitRefresh p, .error (.api e)⟩ ∈ past →
    ∃ answer ∈ b.refreshAnswers, answer.status = e.status
  fetched : ∀ res, ⟨.fetch .refresh, .ok res⟩ ∈ past → res ∈ b.refreshAnswers

/-- A refresh promise rejected with a status was answered with it. -/
def RefreshesAnswered (b : Browser) : Prop :=
  ∀ (p : Nat) (e : ApiError), b.refreshes[p]? = some (.settled (.error (.api e))) →
    ∃ answer ∈ b.refreshAnswers, answer.status = e.status

def AnswersGrow (b b' : Browser) : Prop := b.refreshAnswers ⊆ b'.refreshAnswers

/-- What a thread's calls depend on. -/
def AnswerCall (task : ClientTask) (past : Past ClientReply) : ClientCall → Prop
  | .idbPut item => item.failed = true → ∀ b, KnowsAnswers task past b → Refusal b past item.clientId
  | .settleRefresh _ _ (.error (.api e)) => ∃ res : HttpResponse, ⟨.fetch .refresh, .ok res⟩ ∈ past ∧
    res.status = e.status
  | _ => True

theorem answerCall_tolerant (task : ClientTask) : Tolerant (AnswerCall task) where
  quiet past c h := by
    cases c <;> first | exact trivial | simp [ClientCall.quiet] at h
  pending past item pending failed := by
    rw [pending] at failed
    cases failed

variable {localeLE : String → String → Bool} {task : ClientTask}

/-- The chain rejects with a status only where `/auth/refresh` answered with it. -/
theorem chain_answers (tab p : Nat) : Uploader.Calls (AnswerCall task) (ApiClient.refreshChain tab p) [] := by
  simp only [ApiClient.refreshChain, ensures_run_bind, ensures_request, ensures_attempt,
    ApiClient.exchangeToken, ensures_resolved, ensures_someOrThrow, ApiClient.ensures_parse,
    ensures_run_pure]
  refine ⟨trivial, fun _ => ⟨trivial, fun r => ⟨fun _ _ => ⟨trivial, fun _ => trivial⟩, ?_⟩⟩⟩
  rintro res rfl
  refine ⟨fun _ => ⟨trivial, fun payload => ⟨⟨res, ?_, rfl⟩, fun _ => trivial⟩⟩, fun _ => ⟨?_, ?_⟩⟩
  · simp
  · exact fun _ => ⟨fun _ => ⟨trivial, fun _ => trivial⟩, fun _ h => by cases h⟩
  · refine fun _ => ⟨trivial, fun _ => ⟨trivial, fun _ => trivial⟩, fun payload => ?_⟩
    refine ⟨fun h => (by cases h), fun _ _ => ⟨trivial, fun stored => ⟨fun _ _ => ?_, fun _ _ => ?_⟩⟩⟩
    · exact ⟨trivial, fun _ => trivial⟩
    · exact ⟨trivial, fun _ => trivial⟩

theorem tokenExpired_of_read {res : HttpResponse} {payload : Payload} (status : res.status = 401)
    (read : res.payload = some payload) :
    res.tokenExpired = ApiClient.isTokenExpired (.ok payload) := by
  simp [HttpResponse.tokenExpired, ApiClient.isTokenExpired, status, read]

theorem KnowsAnswers.expired {past : Past ClientReply} {b : Browser} {res : HttpResponse}
    {payload : Except String Payload} (knows : KnowsAnswers task past b) (status : res.status = 401)
    (read : ⟨.cloneJson res, payload⟩ ∈ past) (expired : ApiClient.isTokenExpired payload = true) :
    res.tokenExpired = true := by
  cases payload with
  | error m => cases expired
  | ok payload => rw [tokenExpired_of_read status (knows.readBack _ _ read), expired]

/-- A response that ends an upload at the first attempt. -/
theorem refusal_first {past : Past ClientReply} {b : Browser} {token : Option String}
    {input : UploadInput} {res : HttpResponse} (h : ⟨.fetch (.upload token input), .ok res⟩ ∈ past)
    (fresh : res.tokenExpired = false) (refused : Refused res.status) :
    Refusal b past input.clientId :=
  .upload res ⟨token, input, rfl, h⟩ refused fresh

/-- Where the replies say what `KnowsAnswers` says, a refused response is a reason to give up. -/
theorem fetch_refusal {tab : Nat} {input : UploadInput} {past : Past ClientReply}
    (uploads : task.uploads = true) :
    (ApiClient.fetchWithRefresh tab fun token => .upload token input).run.Ensures (AnswerCall task)
      (fun past r => match r with
        | .ok res => ∀ b, KnowsAnswers task past b → Refused res.status → Refusal b past input.clientId
        | .error e => ∀ api, e ≠ .api api) past := by
  refine ApiClient.ensures_fetchWithRefresh
    { failed := fun _ _ _ h => by cases h
      answered := ?_
      refused := ?_
      notRefreshed := ?_
      retry := ?_ }
  · intro token res status b knows refused
    refine refusal_first List.mem_cons_self ?_ refused
    simp [HttpResponse.tokenExpired, status]
  · intro token res payload status unexpired b knows refused
    refine refusal_first (List.mem_cons_of_mem _ List.mem_cons_self) ?_ refused
    cases payload with
    | error m => exact knows.unread uploads _ m List.mem_cons_self
    | ok payload =>
      rw [tokenExpired_of_read status (knows.readBack _ _ List.mem_cons_self)]
      exact unexpired
  · intro res payload expired token p err b knows refused
    have awaited : ⟨.awaitRefresh p, .error err⟩ ∈ (⟨.clearToken, ()⟩ :: ⟨.awaitRefresh p, .error err⟩ ::
        ApiClient.fetchedExpired tab (fun token => .upload token input) token res payload p past) := by
      simp
    obtain ⟨e, rfl, status⟩ := knows.refused uploads p err awaited
    refine .afterExpiry [⟨.clearToken, ()⟩, ⟨.awaitRefresh p, .error (.api e)⟩,
      ⟨.refreshPromise tab, p⟩, ⟨.cloneJson res, payload⟩] _ token input res rfl rfl
      (knows.expired expired.status (by simp) expired.code) (Or.inl ⟨p, e, by simp, status, ?_⟩)
    exact knows.awaited p e awaited
  · intro res payload expired token p refreshed
    rw [ApiClient.ensures_fetchAuthed]
    refine ⟨trivial, fun token' => ⟨trivial, fun _ _ h => (by cases h), fun res' b knows refused => ?_⟩⟩
    exact .afterExpiry [⟨.fetch (.upload token' input), .ok res'⟩, ⟨.getToken, token'⟩,
      ⟨.awaitRefresh p, .ok refreshed⟩, ⟨.refreshPromise tab, p⟩, ⟨.cloneJson res, payload⟩] _
      token input res rfl rfl (knows.expired expired.status (by simp) expired.code)
      (Or.inr ⟨res', ⟨token', input, rfl, List.mem_cons_self⟩, refused⟩)

theorem Refusal.cons {b : Browser} {past : Past ClientReply} {clientId : String} {x : Sigma ClientReply}
    (h : Refusal b past clientId) : Refusal b (x :: past) clientId := by
  cases h with
  | upload res answered refused fresh =>
    obtain ⟨token, input, hc, hm⟩ := answered
    exact .upload res ⟨token, input, hc, List.mem_cons_of_mem _ hm⟩ refused fresh
  | afterExpiry recent earlier token input res split capture expired refused =>
    refine .afterExpiry (x :: recent) earlier token input res (by rw [split]; rfl) capture expired ?_
    rcases refused with ⟨p, e, hm, rest⟩ | ⟨res', ⟨token', input', hc, hm⟩, refused⟩
    · exact Or.inl ⟨p, e, List.mem_cons_of_mem _ hm, rest⟩
    · exact Or.inr ⟨res', ⟨token', input', hc, List.mem_cons_of_mem _ hm⟩, refused⟩

theorem KnowsAnswers.tail {b : Browser} {past : Past ClientReply} {x : Sigma ClientReply}
    (h : KnowsAnswers task (x :: past) b) : KnowsAnswers task past b where
  readBack res payload hm := h.readBack res payload (List.mem_cons_of_mem _ hm)
  unread uploads res m hm := h.unread uploads res m (List.mem_cons_of_mem _ hm)
  refused uploads p err hm := h.refused uploads p err (List.mem_cons_of_mem _ hm)
  awaited p e hm := h.awaited p e (List.mem_cons_of_mem _ hm)
  fetched res hm := h.fetched res (List.mem_cons_of_mem _ hm)

/-- An item is only given up for a refusal of its upload. -/
theorem send_answers (uploads : task.uploads = true) (tab : Nat) (item : PendingPhoto)
    (past : Past ClientReply) (pending : item.failed = false) :
    Uploader.Calls (AnswerCall task) (Uploader.send tab item) past := by
  refine Uploader.send_calls (answerCall_tolerant task) pending ?_
  simp only [ApiClient.upload, ApiClient.request, ensures_run_bind]
  refine (fetch_refusal uploads).mono (fun _ _ h => h) fun past r hr => ?_
  cases r with
  | error e => exact fun api h => absurd h (hr api)
  | ok res =>
    refine ApiClient.ensures_parse.mpr ⟨fun _ => ⟨trivial, fun payload => ?_⟩, fun _ =>
      ⟨fun _ => trivial, fun _ => ⟨trivial, fun _ _ h => (by cases h), fun _ => trivial⟩⟩⟩
    intro e he
    cases he
    refine ⟨fun _ => trivial, fun _ permanent item' hid _ b knows => ?_⟩
    rw [hid]
    exact (hr b knows.tail (isPermanent_iff.mp permanent)).cons

theorem task_answers (task : ClientTask) :
    Uploader.Calls (AnswerCall task) (task.script localeLE) [] := by
  have tolerant := answerCall_tolerant task
  cases uploads : task.uploads with
  | true => exact Uploader.task_calls tolerant (send_answers uploads) chain_answers task
  | false =>
    cases task with
    | stop tab => exact Uploader.stop_calls tolerant
    | refresh tab p => exact chain_answers tab p
    | get tab path => exact (Uploader.get_calls tolerant).bind fun _ _ => Uploader.calls_pure
    | _ => cases uploads

/-- Only `settleRefresh` settles a promise. -/
theorem perform_settled {o : ClientChoice} {b b' : Browser} {c : ClientCall} {r : ClientReply c}
    (h : b.perform o c = some (r, b')) {q : Nat} {result : Except JsError String}
    (settled : b'.refreshes[q]? = some (.settled result)) :
    b.refreshes[q]? = some (.settled result) ∨ ∃ tab p, c = .settleRefresh tab p result := by
  cases c with
  | settleRefresh tab p result' =>
    cases h
    rcases getElem?_set_cases settled with ⟨_, heq⟩ | old
    · cases heq
      exact Or.inr ⟨tab, p, rfl⟩
    · exact Or.inl old
  | beginRefresh tab p =>
    simp only [Browser.perform] at h
    split at h
    next =>
      split at h
      next =>
        cases h
        rcases getElem?_set_cases settled with ⟨_, heq⟩ | old
        · cases heq
        · exact Or.inl old
      next => cases h
    next => cases h
  | refreshPromise tab =>
    simp only [Browser.perform] at h
    split at h
    next =>
      cases h
      exact Or.inl settled
    next =>
      cases h
      rcases getElem?_concat_cases settled with heq | old
      · cases heq
      · exact Or.inl old
  | _ => exact Or.inl ((Browser.perform_frame h).2.1 (by simp) (by simp) (by simp) ▸ settled)

theorem perform_fetched {o : ClientChoice} {b b' : Browser} {res : HttpResponse}
    (h : b.perform o (.fetch .refresh) = some (.ok res, b')) :
    b'.refreshAnswers = res :: b.refreshAnswers := by
  simp only [Browser.perform] at h
  split at h
  next =>
    cases h
    rfl
  next hne =>
    obtain ⟨hr, rfl⟩ := Prod.mk.inj (Option.some.inj h)
    exact absurd hr (hne res rfl)

theorem perform_answers {o : ClientChoice} {b b' : Browser} {c : ClientCall} {r : ClientReply c}
    (h : b.perform o c = some (r, b')) : AnswersGrow b b' := by
  by_cases hc : c = .fetch .refresh
  · subst hc
    cases r with
    | ok res =>
      rw [AnswersGrow, perform_fetched h]
      exact List.subset_cons_self _ _
    | error m =>
      simp only [Browser.perform] at h
      split at h
      next => cases h
      next =>
        obtain ⟨_, rfl⟩ := Prod.mk.inj (Option.some.inj h)
        exact List.Subset.refl _
  · rw [AnswersGrow, (Browser.perform_frame h).2.2 hc]
    exact List.Subset.refl _

/-- The replies a thread gets say what `KnowsAnswers` says where the two conditions hold. -/
theorem KnowsAnswers.step {past : Past ClientReply} {o : ClientChoice} {b b' : Browser}
    {c : ClientCall} {r : ClientReply c} (answered : RefreshesAnswered b)
    (knows : KnowsAnswers task past b) (hp : b.perform o c = some (r, b'))
    (read : ExpiryRead b ⟨task, past, c, r, b'⟩)
    (refused : RefreshFailsRefused b ⟨task, past, c, r, b'⟩) :
    KnowsAnswers task (⟨c, r⟩ :: past) b' := by
  have grow := perform_answers hp
  refine ⟨?_, ?_, ?_, ?_, ?_⟩
  · intro res payload hm
    rcases List.mem_cons.mp hm with here | before
    · cases here
      obtain ⟨hr, _⟩ := Prod.mk.inj (Option.some.inj hp)
      unfold Browser.readJson at hr
      split at hr
      next payload' hpayload =>
        split at hr
        next => rw [hpayload, Except.ok.inj hr]
        next => cases hr
      next => cases hr
    · exact knows.readBack res payload before
  · intro uploads res m hm
    rcases List.mem_cons.mp hm with here | before
    · have := read uploads
      rwa [show (⟨c, r⟩ : Sigma ClientReply) = ⟨.cloneJson res, .error m⟩ from here.symm] at this
    · exact knows.unread uploads res m before
  · intro uploads p err hm
    rcases List.mem_cons.mp hm with here | before
    · cases here
      simp only [Browser.perform] at hp
      split at hp
      next result hresult =>
        cases hp
        have kind := refused uploads p rfl _ hresult
        cases err with
        | api e => exact ⟨e, rfl, by simpa [RefreshState.refusedAtMost] using kind⟩
        | other m => cases kind
      next => cases hp
    · exact knows.refused uploads p err before
  · intro p e hm
    rcases List.mem_cons.mp hm with here | before
    · cases here
      simp only [Browser.perform] at hp
      split at hp
      next result hresult =>
        cases hp
        exact answered p e hresult
      next => cases hp
    · obtain ⟨answer, ha, hs⟩ := knows.awaited p e before
      exact ⟨answer, grow ha, hs⟩
  · intro res hm
    rcases List.mem_cons.mp hm with here | before
    · cases here
      rw [perform_fetched hp]
      exact List.mem_cons_self
    · exact grow (knows.fetched res before)

variable (localeLE)

theorem answer_rules : Pool.Local (client localeLE) (fun b x => ExpiryRead b x ∧ RefreshFailsRefused b x)
    RefreshesAnswered AnswersGrow KnowsAnswers where
  arrive task b _ := by
    refine ⟨?_, ?_, ?_, ?_, ?_⟩
    · exact fun _ _ h => absurd h List.not_mem_nil
    · exact fun _ _ _ h => absurd h List.not_mem_nil
    · exact fun _ _ _ h => absurd h List.not_mem_nil
    · exact fun _ _ h => absurd h List.not_mem_nil
    · exact fun _ h => absurd h List.not_mem_nil
  act := by
    intro task past c next o r b b' leads answered knows hp may
    have grow := perform_answers hp
    refine ⟨?_, grow, knows.step answered hp may.1 may.2⟩
    intro p e settled
    rcases perform_settled hp settled with old | ⟨tab, q, rfl⟩
    · obtain ⟨answer, ha, hs⟩ := answered p e old
      exact ⟨answer, grow ha, hs⟩
    · obtain ⟨res, hres, hs⟩ := (task_answers task).at_call leads
      exact ⟨res, grow (knows.fetched res hres), hs⟩
  env := by
    intro e b answered
    cases e <;> exact ⟨answered, List.Subset.refl _⟩
  stable task past b b' grow knows := { knows with
    awaited := fun p e hm => by
      obtain ⟨answer, ha, hs⟩ := knows.awaited p e hm
      exact ⟨answer, grow ha, hs⟩
    fetched := fun res hm => grow (knows.fetched res hm) }

/-- In every run in which the body of an expired token's 401 can be read and a refresh that the
uploader waits for fails only where `/auth/refresh` refuses it, a capture is given up only for a
refusal. -/
theorem given_up_when_refused {b : Browser} (idle : b.refreshes = [])
    {actions : List (Calls.Action ClientChoice BrowserEvent ClientTask)}
    (read : Pool.RunMeets (client localeLE) ExpiryRead ⟨b, []⟩ actions)
    (refused : Pool.RunMeets (client localeLE) RefreshFailsRefused ⟨b, []⟩ actions) :
    Pool.RunMeets (client localeLE) GivenUpWhenRefused ⟨b, []⟩ actions := by
  have start : RefreshesAnswered b := fun p e h => by simp [idle] at h
  refine (answer_rules localeLE).runMeets ?_ (Pool.good_init start) (Pool.runMeets_and read refused)
  rintro task past _ next o r b b' leads _ knows hp _ item rfl failed
  exact (task_answers task).at_call leads failed b knows

private abbrev ClientAction := Calls.Action ClientChoice BrowserEvent ClientTask

private def expiredAnswer : HttpResponse :=
  ⟨401, "Unauthorized", some ⟨some "token expired", some "token_expired", none⟩⟩

/-- The upload finds the token expired; the refresh then gets this response. -/
private def sampleExpiry (response : Except String HttpResponse) : List ClientAction :=
  .arrive (.enqueue 0 1 sampleCapture) ::
    List.replicate 16 (.act 0 (sampleNet (.ok expiredAnswer))) ++
    .arrive (.refresh 0 0) :: List.replicate 4 (.act 1 (sampleNet response)) ++
    List.replicate 4 (.act 0 (sampleNet response))

private def uploadAnswer : Sigma ClientReply → Option HttpResponse
  | ⟨.fetch (.upload _ _), .ok res⟩ => some res
  | _ => none

private def putFailed : ClientCall → Bool
  | .idbPut item => item.failed
  | _ => false

/-- What every refusal leaves behind. -/
private def GivenUpWithCause : Pool.Condition ClientReply Browser ClientTask := fun b x =>
  putFailed x.call = true → b.refreshAnswers ≠ [] ∨
    (∃ res ∈ x.past.filterMap uploadAnswer, res.tokenExpired = false) ∨
    2 ≤ (x.past.filterMap uploadAnswer).length

private instance (b : Browser) (x : Pool.Event ClientReply Browser ClientTask) :
    Decidable (GivenUpWithCause b x) :=
  inferInstanceAs (Decidable (_ → _))

private theorem Answered.mem_uploadAnswer {past : Past ClientReply} {clientId : String}
    {res : HttpResponse} (h : Answered past clientId res) : res ∈ past.filterMap uploadAnswer := by
  obtain ⟨token, input, _, hm⟩ := h
  exact List.mem_filterMap.mpr ⟨_, hm, rfl⟩

private theorem GivenUpWhenRefused.cause {b : Browser} {x : Pool.Event ClientReply Browser ClientTask}
    (h : GivenUpWhenRefused b x) : GivenUpWithCause b x := by
  intro failed
  unfold putFailed at failed
  split at failed
  next item hc =>
    cases h item hc failed with
    | upload res answered _ fresh => exact Or.inr (Or.inl ⟨res, answered.mem_uploadAnswer, fresh⟩)
    | afterExpiry recent earlier token input res split _ _ refused =>
      rcases refused with ⟨_, _, _, _, answer, hm, _⟩ | ⟨res', answered, _⟩
      · exact Or.inl (List.ne_nil_of_mem hm)
      · refine Or.inr (Or.inr ?_)
        have := List.length_pos_of_mem answered.mem_uploadAnswer
        rw [split, List.filterMap_append, List.length_append,
          List.filterMap_cons_some (f := uploadAnswer) rfl, List.length_cons]
        omega
  next => cases failed

/-- Where the network fails under a refresh, the capture that waits for it is given up. -/
theorem dropped_refresh_gives_up :
    (Pool.exec (client fun _ _ => true) ⟨sampleBrowser "old", []⟩
      (sampleExpiry (.error "Failed to fetch"))).world.store.map (·.failed) = [true] ∧
    ¬ Pool.RunMeets (client fun _ _ => true) GivenUpWhenRefused ⟨sampleBrowser "old", []⟩
      (sampleExpiry (.error "Failed to fetch")) := by
  refine ⟨by decide +kernel, fun h => ?_⟩
  have := h.mono fun _ _ => GivenUpWhenRefused.cause
  revert this
  decide +kernel

private def refusedAnswer : HttpResponse :=
  ⟨401, "Unauthorized", some ⟨some "refresh token expired", none, none⟩⟩

theorem refused_refresh_gives_up :
    (Pool.exec (client fun _ _ => true) ⟨sampleBrowser "old", []⟩
      (sampleExpiry (.ok refusedAnswer))).world.store.map (·.failed) = [true] ∧
    Pool.RunMeets (client fun _ _ => true) GivenUpWhenRefused ⟨sampleBrowser "old", []⟩
      (sampleExpiry (.ok refusedAnswer)) :=
  ⟨by decide +kernel, given_up_when_refused _ rfl (by decide +kernel) (by decide +kernel)⟩

end ItalyTrip
