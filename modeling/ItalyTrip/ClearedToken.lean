import ItalyTrip.UploaderClient

namespace ItalyTrip

open Calls

/-- What happens to the token that the tabs share, and which thread reads it. -/
inductive TokenEvent where
  | read (thread : Nat)
  | stored (token : String)
  | cleared

/-- The token in the `Authorization` header of a request. -/
def HttpRequest.bearer : HttpRequest → Option String
  | .upload token _ | .get token _ => token
  | .refresh => none

variable (localeLE : String → String → Bool)

def tokenEvents (s : ClientPool) : Calls.Action ClientChoice BrowserEvent ClientTask → List TokenEvent
  | .act i o =>
    match s.exchanged (client localeLE) (.act i o) with
    | some ⟨_, _, .getToken, _, _⟩ => [.read i]
    | some ⟨_, _, .setToken token, _, _⟩ => if o.fault = .before then [] else [.stored token]
    | some ⟨_, _, .clearToken, _, _⟩ => [.cleared]
    | _ => []
  | .env (.login token) => [.stored token]
  | _ => []

/-- What happens to the token in a run, the latest first. -/
def tokenLog (s : ClientPool) : List (Calls.Action ClientChoice BrowserEvent ClientTask) → List TokenEvent
  | [] => []
  | a :: as => tokenLog (s.step (client localeLE) a) as ++ tokenEvents localeLE s a

/-- What the key was last set to after a thread has last read it, if it was. -/
def sinceRead (thread : Nat) : List TokenEvent → Option (Option String)
  | .read n :: log => if n = thread then none else sinceRead thread log
  | .stored token :: _ => some (some token)
  | .cleared :: _ => some none
  | [] => none

/-- The token that a task has read last. -/
def lastRead : Past ClientReply → Option (Option String)
  | ⟨.getToken, token⟩ :: _ => some token
  | _ :: past => lastRead past
  | [] => none

/-- The request that gives its token up was answered that it had expired, and the refresh has failed. -/
def GivesUp (past : Past ClientReply) (token : Option String) : Prop :=
  ∃ tab p req res payload err before, ApiClient.SaysExpired res payload ∧ req.bearer = token ∧
    past = ⟨.awaitRefresh p, .error err⟩ :: ⟨.refreshPromise tab, p⟩ :: ⟨.cloneJson res, payload⟩ ::
      ⟨.fetch req, .ok res⟩ :: ⟨.getToken, token⟩ :: before

variable {localeLE} {past : Past ClientReply}

/-- A token is cleared only by a request that gives it up. -/
def ClearsGivenUp (past : Past ClientReply) (c : ClientCall) : Prop :=
  c = .clearToken → ∃ token, GivesUp past token

namespace ApiClient

open Uploader (Calls calls_pure calls_orThrow calls_someOrThrow)

theorem await_clears {c : ClientCall} (other : c ≠ .clearToken) : Calls ClearsGivenUp (await c) past :=
  ⟨fun same => absurd same other, fun _ => trivial⟩

theorem parse_clears (res : HttpResponse) : Calls ClearsGivenUp (parse res) past :=
  ensures_parse.mpr ⟨fun _ => ⟨nofun, fun _ => trivial⟩,
    fun _ => ⟨fun _ => trivial, fun _ => ⟨nofun, fun _ => trivial, fun _ => trivial⟩⟩⟩

theorem fetchAuthed_clears (build : Option String → HttpRequest) :
    Calls ClearsGivenUp (fetchAuthed build) past :=
  (await_clears (by nofun)).bind fun _ _ => (await_clears (by nofun)).bind fun _ _ => calls_orThrow

theorem request_clears {tab : Nat} {build : Option String → HttpRequest}
    (bearer : ∀ token, (build token).bearer = token) : Calls ClearsGivenUp (request tab build) past := by
  have fetches : Calls ClearsGivenUp (fetchWithRefresh tab build) past := by
    refine ensures_fetchWithRefresh
      { token := nofun
        fetch := nofun
        read := nofun
        promise := nofun
        wait := nofun
        clear := fun expired token p e _ => ?_
        retry := fun _ _ _ _ => fetchAuthed_clears build }
    exact ⟨token, tab, p, build token, _, _, e, past, expired, bearer token, rfl⟩
  exact fetches.bind fun res _ => parse_clears res

theorem refreshChain_clears (tab p : Nat) : Calls ClearsGivenUp (refreshChain tab p) past := by
  have exchanges : ∀ past, Calls ClearsGivenUp exchangeToken past := by
    intro past
    refine (await_clears (by nofun)).bind fun _ _ => calls_orThrow.bind fun res _ => ?_
    refine (parse_clears res).bind fun _ _ => calls_someOrThrow.bind fun _ _ => ?_
    exact (await_clears (by nofun)).bind fun _ _ => calls_orThrow.bind fun _ _ => calls_pure
  refine (await_clears (by nofun)).bind fun _ past => (exchanges past).attempt.bind fun _ _ => ?_
  exact await_clears (by nofun)

end ApiClient

/-- What the uploader does through the API client clears a token only so. -/
theorem carryOut_clears (c : UploadCall) (past : Past ClientReply) :
    c.carryOut.Ensures ClearsGivenUp (fun _ _ => True) past := by
  cases c with
  | awaitUpload tab input => exact ApiClient.request_clears fun _ => rfl
  | beginUpload tab input => trivial
  | joinDrain tab => trivial
  | settleDrain p result => trivial
  | beginDrain tab => exact ⟨nofun, fun _ => ⟨nofun, fun _ => trivial⟩⟩
  | endDrain tab => exact ⟨nofun, fun _ => ⟨nofun, fun _ => trivial⟩⟩
  | again tab => exact ⟨nofun, fun _ => trivial⟩
  | _ => exact ⟨nofun, fun _ => trivial⟩

theorem script_clears (task : ClientTask) :
    (task.script localeLE).run.Ensures ClearsGivenUp (fun _ _ => True) [] := by
  have uploads : ∀ upload : UploadTask,
      (upload.client.script localeLE).run.Ensures ClearsGivenUp (fun _ _ => True) [] := by
    intro upload
    rw [← script_client]
    exact Prog.ensures_implement carryOut_clears _ _
  cases task with
  | enqueue tab rounds item => exact uploads (.enqueue tab rounds item)
  | start tab rounds => exact uploads (.start tab rounds)
  | stop tab => exact uploads (.stop tab)
  | trigger tab rounds => exact uploads (.drain tab rounds)
  | retryTimer tab rounds => exact uploads (.retryTimer tab rounds)
  | refresh tab p => exact ApiClient.refreshChain_clears tab p
  | get tab path =>
    have gets : Uploader.Calls ClearsGivenUp (ApiClient.get tab path) [] :=
      ApiClient.request_clears fun _ => rfl
    exact gets.bind fun _ _ => Uploader.calls_pure

/-- What a thread has read of the key is what it still holds, but for what has happened to it since. -/
def Remembers (s : ClientPool) (log : List TokenEvent) : Prop :=
  ∀ i u token, s.threads[i]? = some u → lastRead u.past = some token →
    s.world.token = (sinceRead i log).getD token

theorem remembers_init {b : Browser} : Remembers ⟨b, []⟩ [] := by
  intro i u token hu
  simp at hu

/-- What leaves the token alone. -/
theorem perform_token {b b' : Browser} {o : ClientChoice} {c : ClientCall} {r : ClientReply c}
    (h : b.perform o c = some (r, b')) (stores : ∀ token, c ≠ .setToken token) (clears : c ≠ .clearToken) :
    b'.token = b.token := by
  cases c with
  | arrayBuffer blob => exact Browser.faulty_keeps h rfl
  | idbPut item => exact Browser.faulty_keeps h rfl
  | idbDelete clientId => exact Browser.faulty_keeps h rfl
  | idbGetAll => exact Browser.faulty_keeps h rfl
  | setToken token => exact absurd rfl (stores token)
  | clearToken => exact absurd rfl clears
  | never => cases h
  | fetch req =>
    simp only [Browser.perform] at h
    split at h <;> cases h <;> rfl
  | beginRefresh tab p =>
    simp only [Browser.perform] at h
    split at h
    next =>
      split at h
      next =>
        cases h
        rfl
      next => cases h
    next => cases h
  | awaitRefresh p =>
    simp only [Browser.perform] at h
    split at h
    next =>
      cases h
      rfl
    next => cases h
  | refreshPromise tab =>
    simp only [Browser.perform] at h
    split at h <;> cases h <;> rfl
  | _ =>
    cases h
    rfl

section Exchange

variable {s s' : ClientPool} {log : List TokenEvent} {i : Nat} {t : ClientTask} {c : ClientCall}
  {o : ClientChoice} {r : ClientReply c}
  {next : ClientReply c → Prog ClientCall ClientReply (Except JsError Unit)}

/-- What is written to the key is what all threads find there. -/
theorem remembers_written {value : Option String} {events : List TokenEvent} (token : s.world.token = value)
    (since : ∀ thread, sinceRead thread events = some value) : Remembers s events := by
  intro j u read _ _
  rw [since, token]
  rfl

/-- An exchange that neither reads nor writes the key. -/
theorem Remembers.kept (h : Remembers s log)
    (x : Pool.Exchange (client localeLE) s s' i t past c next o r) (same : s'.world.token = s.world.token)
    (unread : lastRead (⟨c, r⟩ :: past) = lastRead past) : Remembers s' log := by
  intro j u token hu read
  rw [same]
  rcases x.at hu with ⟨rfl, rfl⟩ | ⟨_, before⟩
  · exact h j _ token x.thread (unread.symm.trans read)
  · exact h j u token before read

theorem Remembers.read {token : Option String}
    {next : Option String → Prog ClientCall ClientReply (Except JsError Unit)} (h : Remembers s log)
    (x : Pool.Exchange (client localeLE) s s' i t past .getToken next o token) :
    Remembers s' (.read i :: log) := by
  obtain ⟨held, same⟩ : s.world.token = token ∧ s.world = s'.world := Prod.mk.inj (Option.some.inj x.performed)
  intro j u token' hu read
  rw [← same]
  rcases x.at hu with ⟨rfl, rfl⟩ | ⟨ne, before⟩
  · obtain rfl : token = token' := Option.some.inj read
    rw [sinceRead, if_pos rfl]
    exact held
  · rw [sinceRead, if_neg (Ne.symm ne)]
    exact h j u token' before read

theorem Remembers.exchange (h : Remembers s log)
    (x : Pool.Exchange (client localeLE) s s' i t past c next o r) :
    Remembers s' (tokenEvents localeLE s (.act i o) ++ log) := by
  have hp : s.world.perform o c = some (r, s'.world) := x.performed
  cases c with
  | getToken =>
    have events : tokenEvents localeLE s (.act i o) = [.read i] := by
      simp only [tokenEvents, x.exchanged]
    rw [events]
    exact h.read x
  | setToken token =>
    have events : tokenEvents localeLE s (.act i o) = if o.fault = .before then [] else [.stored token] := by
      simp only [tokenEvents, x.exchanged]
    have stores : s.world.faulty o.fault () { s.world with token := some token } = some (r, s'.world) := hp
    rw [events]
    cases fault : o.fault with
    | before =>
      rw [fault] at stores
      obtain ⟨_, same⟩ := Prod.mk.inj (Option.some.inj stores)
      exact h.kept x (congrArg Browser.token same).symm rfl
    | none | after =>
      rw [fault] at stores
      obtain ⟨_, stored⟩ := Prod.mk.inj (Option.some.inj stores)
      exact remembers_written (congrArg Browser.token stored).symm fun _ => rfl
  | clearToken =>
    have events : tokenEvents localeLE s (.act i o) = [.cleared] := by
      simp only [tokenEvents, x.exchanged]
    obtain ⟨_, cleared⟩ := Prod.mk.inj (Option.some.inj hp)
    rw [events]
    exact remembers_written (congrArg Browser.token cleared).symm fun _ => rfl
  | _ =>
    have events : tokenEvents localeLE s (.act i o) = [] := by
      simp only [tokenEvents, x.exchanged]
    rw [events]
    exact h.kept x (perform_token hp nofun nofun) rfl

end Exchange

theorem Remembers.step {s : ClientPool} {log : List TokenEvent} (h : Remembers s log)
    (a : Calls.Action ClientChoice BrowserEvent ClientTask) :
    Remembers (s.step (client localeLE) a) (tokenEvents localeLE s a ++ log) := by
  -- Without an exchange no thread reads anything.
  have still : (∀ i o, a ≠ .act i o) → (s.step (client localeLE) a).world.token = s.world.token →
      Remembers (s.step (client localeLE) a) log := by
    intro quiet same j v token hv read
    rw [same]
    rcases Pool.step_origin s a hv with ⟨t, rfl⟩ | ⟨u, hu, rfl | rfl⟩ | ⟨o, _, _, _, _, _, acts, _⟩
    · cases read
    · exact h j v token hu read
    · exact h j u token hu read
    · exact absurd acts (quiet j o)
  cases a with
  | act i o =>
    cases made : s.exchanged (client localeLE) (.act i o) with
    | none =>
      have events : tokenEvents localeLE s (.act i o) = [] := by
        simp only [tokenEvents, made]
      rw [events]
      rcases Pool.step_act (m := client localeLE) s i o with same | ⟨t, past, c, next, r, x⟩
      · rwa [same]
      · cases made.symm.trans x.exchanged
    | some e =>
      obtain ⟨j, choice, next, acts, x, _⟩ := Pool.exchanged_spec made
      cases acts
      exact h.exchange x
  | arrive t =>
    refine still nofun ?_
    rcases Pool.step_arrive (m := client localeLE) s t with same | same <;> rw [same]
  | kill i =>
    refine still nofun ?_
    rcases Pool.step_kill (m := client localeLE) s i with same | ⟨_, _, _, _, _, same⟩ <;> rw [same]
  | env e =>
    cases e with
    | tick ms => exact still nofun rfl
    | reload tab => exact still nofun rfl
    | login token => exact remembers_written rfl fun _ => rfl

theorem Remembers.run {s : ClientPool} {log : List TokenEvent} (h : Remembers s log)
    (actions : List (Calls.Action ClientChoice BrowserEvent ClientTask)) :
    Remembers (s.exec (client localeLE) actions) (tokenLog localeLE s actions ++ log) := by
  induction actions generalizing s log with
  | nil => exact h
  | cons a as ih =>
    rw [tokenLog, List.append_assoc]
    exact ih (h.step a)

/-- In every run, a request that gives its token up clears the one it was sent with exactly if the key was
last set to no other token since. -/
theorem clearToken_iff {b : Browser} {actions : List (Calls.Action ClientChoice BrowserEvent ClientTask)}
    {i : Nat} {o : ClientChoice} {e : Pool.Event ClientReply Browser ClientTask}
    (made : (Pool.exec (client localeLE) ⟨b, []⟩ actions).exchanged (client localeLE) (.act i o) = some e)
    (clears : e.call = .clearToken) :
    ∃ token, GivesUp e.past token ∧
      ((∀ removed, (Pool.exec (client localeLE) ⟨b, []⟩ actions).world.token = some removed →
          token = some removed) ↔
        ∀ stored, sinceRead i (tokenLog localeLE ⟨b, []⟩ actions) = some (some stored) →
          token = some stored) := by
  have remembers : Remembers (Pool.exec (client localeLE) ⟨b, []⟩ actions)
      (tokenLog localeLE ⟨b, []⟩ actions ++ []) :=
    remembers_init.run actions
  have follows : Pool.Follows (client localeLE) (Pool.exec (client localeLE) ⟨b, []⟩ actions) :=
    Pool.exec_keeps (fun _ a _ follows => follows.step a) Pool.follows_init
  rw [List.append_nil] at remembers
  obtain ⟨t, past, c, r, w⟩ := e
  obtain rfl : c = .clearToken := clears
  obtain ⟨j, choice, next, acts, x, _⟩ := Pool.exchanged_spec made
  obtain ⟨rfl, rfl⟩ := Calls.Action.act.inj acts
  obtain ⟨q, leads, same⟩ := follows _ x.mem
  obtain rfl := same _ rfl
  obtain ⟨token, givesUp⟩ := (script_clears t).at_call leads rfl
  refine ⟨token, givesUp, ?_⟩
  obtain ⟨tab, p, req, res, payload, err, before, _, _, rfl⟩ := givesUp
  have held := remembers i _ token x.thread rfl
  rw [held]
  cases since : sinceRead i (tokenLog localeLE ⟨b, []⟩ actions) with
  | none => simp
  | some value => simp

section Sample

private def sampleStale : HttpResponse :=
  ⟨401, "Unauthorized", some ⟨some "token expired", some "token_expired", none⟩⟩

private def sampleNets (i n : Nat) (response : Except String HttpResponse) :
    List (Calls.Action ClientChoice BrowserEvent ClientTask) :=
  List.replicate n (.act i (sampleNet response))

private def sampleUnreached : Except String HttpResponse := .error "Failed to fetch"

/-- A request is told that its token has expired. -/
private def sampleTold : List (Calls.Action ClientChoice BrowserEvent ClientTask) :=
  .arrive (.get 0 "/photos") :: sampleNets 0 2 (.ok sampleStale)

/-- So is another one of the same tab, whose refresh stores a new token. -/
private def sampleRefreshes : List (Calls.Action ClientChoice BrowserEvent ClientTask) :=
  .arrive (.get 0 "/users/me") :: sampleNets 1 4 (.ok sampleStale) ++
    .arrive (.refresh 0 0) :: sampleNets 2 5 (.ok ⟨200, "OK", some ⟨none, none, some "new"⟩⟩)

/-- The first one reads its answer, and its own refresh, the thread after the others, cannot be reached. -/
private def sampleFails (thread p : Nat) : List (Calls.Action ClientChoice BrowserEvent ClientTask) :=
  sampleNets 0 2 sampleUnreached ++ .arrive (.refresh 0 p) :: sampleNets thread 3 sampleUnreached ++
    sampleNets 0 1 sampleUnreached

private def sampleGiving (actions : List (Calls.Action ClientChoice BrowserEvent ClientTask)) : ClientPool :=
  Pool.exec (client fun x y => decide (x ≤ y)) ⟨sampleBrowser "old", []⟩ actions

private def sampleClears : Calls.Action ClientChoice BrowserEvent ClientTask := .act 0 (sampleNet sampleUnreached)

private def givesUpOld (e : Pool.Event ClientReply Browser ClientTask) : Bool :=
  match e.call with
  | .clearToken => decide (lastRead e.past = some (some "old"))
  | _ => false

theorem clearToken_iff_alone : ∃ e token,
    (sampleGiving (sampleTold ++ sampleFails 1 0)).exchanged (client fun x y => decide (x ≤ y)) sampleClears =
        some e ∧ GivesUp e.past token ∧
      ((∀ removed, (sampleGiving (sampleTold ++ sampleFails 1 0)).world.token = some removed →
          token = some removed) ↔
        ∀ stored, sinceRead 0 (tokenLog (fun x y => decide (x ≤ y)) ⟨sampleBrowser "old", []⟩
          (sampleTold ++ sampleFails 1 0)) = some (some stored) → token = some stored) := by
  obtain ⟨token, gives⟩ := @clearToken_iff (fun x y => decide (x ≤ y)) (sampleBrowser "old")
    (sampleTold ++ sampleFails 1 0) 0 (sampleNet sampleUnreached) _ rfl rfl
  exact ⟨_, token, rfl, gives⟩

/-- The other request has refreshed the token meanwhile: the first one, which was sent with the old token,
clears the new one. -/
theorem clearToken_clears_newer :
    ((sampleGiving (sampleTold ++ sampleRefreshes ++ sampleFails 3 1)).exchanged
        (client fun x y => decide (x ≤ y)) sampleClears).any givesUpOld = true ∧
      (sampleGiving (sampleTold ++ sampleRefreshes ++ sampleFails 3 1)).world.token = some "new" ∧
      ((sampleGiving (sampleTold ++ sampleRefreshes ++ sampleFails 3 1)).step
        (client fun x y => decide (x ≤ y)) sampleClears).world.token = none := by
  decide +kernel

end Sample

end ItalyTrip
