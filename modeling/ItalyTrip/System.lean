import ItalyTrip.Router
import ItalyTrip.Uploader

namespace ItalyTrip

open Calls

/-- What a multipart body arrives as: its form values, and the file or an error in reading it. -/
def UploadRequest.carries (req : UploadRequest) (input : UploadInput) : Bool :=
  req.clientID == input.clientId && req.takenAt == input.takenAt &&
    match req.file with
    | .ok (.ok bytes) => bytes == input.blob.bytes
    | _ => true

def authorization : Option String → String
  | some token => "Bearer " ++ token
  | none => ""

/-- What the server gets of a request of the client. The cookie is the browser's own business. -/
def HttpRequest.reaches : HttpRequest → Request → Bool
  | .upload token input, ⟨header, _, .authorized (.uploadPhoto req)⟩ =>
    header == authorization token && req.carries input
  | .refresh, ⟨_, _, .refresh⟩ => true
  | .get token _, ⟨header, _, .authorized _⟩ => header == authorization token
  | _, _ => false

def Body.payload : Body → Option Payload
  | .error message code => some ⟨some message, code, none⟩
  | .auth token _ => some ⟨none, none, some token⟩
  | .event _ | .upload _ | .album _ | .user _ => some ⟨none, none, none⟩
  | .empty | .attachment _ _ _ _ | .zip _ _ => none

def Response.http (response : Response) (statusText : String) : HttpResponse :=
  ⟨response.status, statusText, response.body.payload⟩

/-- What becomes of a request: the network loses it or the answer, a gateway on the way gives up, or
the answer of the server thread that got it comes back. -/
inductive Delivery where
  | lost
  | gateway (status : Nat)
  | answered (thread : Nat) (statusText : String)

structure SystemChoice where
  client : ClientChoice
  delivery : Delivery

inductive SystemEvent where
  | browser (e : BrowserEvent)
  | server (a : ServerAction)

/-- One browser and the server. Any request may reach the server at any time: from this browser,
again and late, or from elsewhere. -/
structure SystemWorld where
  browser : Browser
  server : ServerPool

namespace SystemWorld

variable (w : SystemWorld)

def deliver (delivery : Delivery) (req : HttpRequest) : Option (Except String HttpResponse) :=
  match delivery with
  | .lost => some (.error "Failed to fetch")
  | .gateway status => if 500 ≤ status then some (.ok ⟨status, "", none⟩) else none
  | .answered thread statusText =>
    match w.server.threads[thread]? with
    | some u =>
      match u.result with
      | some response =>
        if req.reaches u.task then some (.ok (response.http statusText)) else none
      | none => none
    | none => none

def onBrowser (o : ClientChoice) (c : ClientCall) : Option (ClientReply c × SystemWorld) :=
  match w.browser.perform o c with
  | some (r, browser) => some (r, { w with browser })
  | none => none

def perform (o : SystemChoice) : (c : ClientCall) → Option (ClientReply c × SystemWorld)
  | .fetch req =>
    match w.deliver o.delivery req with
    | some response => w.onBrowser { o.client with response } (.fetch req)
    | none => none
  | c => w.onBrowser o.client c

def env (app : Application) : SystemEvent → SystemWorld
  | .browser e => { w with browser := w.browser.env e }
  | .server a => { w with server := w.server.step (ItalyTrip.server app) a }

end SystemWorld

/-- The tabs of one browser and the server, over a network that may lose, delay or fail anything. -/
def system (app : Application) (localeLE : String → String → Bool) :
    Machine ClientCall ClientReply SystemWorld SystemChoice SystemEvent ClientTask
      (Except JsError Unit) where
  start task := (task.script localeLE).run
  perform o w := w.perform o
  sync := ClientCall.sync
  engine := ClientTask.tab
  env e w := w.env app e

abbrev SystemPool := Pool ClientCall ClientReply SystemWorld ClientTask (Except JsError Unit)

abbrev SystemAction := Calls.Action SystemChoice SystemEvent ClientTask

variable {w w' : SystemWorld} {o : SystemChoice} {c : ClientCall} {r : ClientReply c}

theorem onBrowser_spec {choice : ClientChoice} (h : w.onBrowser choice c = some (r, w')) :
    w.browser.perform choice c = some (r, w'.browser) ∧ w'.server = w.server := by
  unfold SystemWorld.onBrowser at h
  split at h
  next hp =>
    cases h
    exact ⟨hp, rfl⟩
  next => cases h

/-- A call of a client does in the browser what it does against any network, and nothing else. -/
theorem perform_browser (h : w.perform o c = some (r, w')) :
    ∃ choice, w.browser.perform choice c = some (r, w'.browser) ∧ w'.server = w.server := by
  cases c with
  | fetch req =>
    simp only [SystemWorld.perform] at h
    split at h
    next => exact ⟨_, onBrowser_spec h⟩
    next => cases h
  | _ => exact ⟨o.client, onBrowser_spec h⟩

theorem perform_response {b b' : Browser} {choice : ClientChoice} {req : HttpRequest}
    {r : Except String HttpResponse} (h : b.perform choice (.fetch req) = some (r, b')) :
    choice.response = r := by
  simp only [Browser.perform] at h
  split at h
  next hresponse =>
    rw [hresponse]
    exact congrArg Prod.fst (Option.some.inj h)
  next => exact congrArg Prod.fst (Option.some.inj h)

/-- A response that is not a gateway's is that of a server thread for this request. -/
theorem perform_fetch {req : HttpRequest} {res : HttpResponse}
    (h : w.perform o (.fetch req) = some (.ok res, w')) :
    500 ≤ res.status ∨ ∃ u ∈ w.server.threads, ∃ response, u.result = some response ∧
      res.status = response.status ∧ req.reaches u.task = true := by
  simp only [SystemWorld.perform] at h
  split at h
  next response hd =>
    obtain rfl : response = .ok res := perform_response (onBrowser_spec h).1
    unfold SystemWorld.deliver at hd
    split at hd
    next => cases hd
    next =>
      split at hd
      next le =>
        cases hd
        exact Or.inl le
      next => cases hd
    next =>
      split at hd
      next u hu =>
        split at hd
        next answer hanswer =>
          split at hd
          next reached =>
            cases hd
            exact Or.inr ⟨u, List.mem_of_getElem? hu, answer, hanswer, rfl, reached⟩
          next => cases hd
        next => cases hd
      next => cases hd
  next => cases h

/-- What happens at the server in a run. -/
def serverActions (actions : List SystemAction) : List ServerAction :=
  actions.filterMap fun a => match a with
    | .env (.server a) => some a
    | _ => none

variable {app : Application} {localeLE : String → String → Bool}

theorem step_server (s : SystemPool) (a : SystemAction) :
    (s.step (system app localeLE) a).world.server =
      s.world.server.exec (server app) (serverActions [a]) := by
  cases a with
  | arrive task => rcases Pool.step_arrive (m := system app localeLE) s task with h | h <;> rw [h] <;> rfl
  | act i o =>
    rcases Pool.step_act (m := system app localeLE) s i o with h | ⟨_, _, _, _, _, x⟩
    · rw [h]
      rfl
    · obtain ⟨_, _, same⟩ := perform_browser x.performed
      exact same
  | kill i =>
    rcases Pool.step_kill (m := system app localeLE) s i with h | ⟨_, _, _, _, _, h⟩ <;> rw [h] <;> rfl
  | env e => cases e <;> rfl

/-- The server of a run of the system makes a run of its own. -/
theorem exec_server (s : SystemPool) (actions : List SystemAction) :
    (s.exec (system app localeLE) actions).world.server =
      s.world.server.exec (server app) (serverActions actions) := by
  induction actions generalizing s with
  | nil => rfl
  | cons a as ih =>
    rw [Pool.exec_cons, ih, step_server, ← Pool.exec_append]
    simp only [serverActions, ← List.filterMap_append]
    rfl

theorem step_client (s : SystemPool) (a : SystemAction) :
    ∃ actions, Pool.exec (client localeLE) ⟨s.world.browser, s.threads⟩ actions =
      ⟨(s.step (system app localeLE) a).world.browser, (s.step (system app localeLE) a).threads⟩ := by
  cases a with
  | arrive task =>
    refine ⟨[.arrive task], ?_⟩
    have same : Pool.free (client localeLE) s.threads task =
        Pool.free (system app localeLE) s.threads task := rfl
    simp only [Pool.exec_cons, Pool.exec_nil, Pool.step, same]
    split <;> rfl
  | act i o =>
    rcases Pool.step_act (m := system app localeLE) s i o with h | ⟨task, past, c, next, r, x⟩
    · exact ⟨[], by rw [h]; rfl⟩
    · obtain ⟨choice, hb, _⟩ := perform_browser x.performed
      refine ⟨[.act i choice], ?_⟩
      rw [x.threads]
      exact Pool.step_performed (m := client localeLE) (s := ⟨s.world.browser, s.threads⟩)
        x.thread x.free hb
  | kill i =>
    refine ⟨[.kill i], ?_⟩
    simp only [Pool.exec_cons, Pool.exec_nil, Pool.step]
    split <;> rfl
  | env e =>
    cases e with
    | browser e => exact ⟨[.env e], rfl⟩
    | server a => exact ⟨[], rfl⟩

/-- The tabs of a run of the system make a run against some network and some endpoints. -/
theorem exec_client (s : SystemPool) (actions : List SystemAction) :
    ∃ actions', Pool.exec (client localeLE) ⟨s.world.browser, s.threads⟩ actions' =
      ⟨(s.exec (system app localeLE) actions).world.browser,
        (s.exec (system app localeLE) actions).threads⟩ := by
  induction actions generalizing s with
  | nil => exact ⟨[], rfl⟩
  | cons a as ih =>
    obtain ⟨first, hfirst⟩ := @step_client app localeLE s a
    obtain ⟨rest, hrest⟩ := ih (s.step (system app localeLE) a)
    refine ⟨first ++ rest, ?_⟩
    rw [Pool.exec_append, hfirst, hrest, Pool.exec_cons]

section Sample

/-- The sample account and its browser; no event yet. -/
def sampleSystem : SystemPool := ⟨⟨sampleBrowser "user", ⟨sampleWorld, []⟩⟩, []⟩

/-- Calls of client thread `i`, with this fate of what it fetches. -/
def sampleCalls (i n : Nat) (delivery : Delivery) : List SystemAction :=
  List.replicate n (.act i ⟨sampleNet (.error "Failed to fetch"), delivery⟩)

/-- Server thread `i` gets a request and makes `n` calls. -/
def sampleServed (i n : Nat) (req : Request) (o : Choice) : List SystemAction :=
  .env (.server (.arrive req)) :: List.replicate n (.env (.server (.act i o)))

/-- An event from 0 to 10 seconds is created. -/
def sampleStarted : List SystemAction := sampleServed 0 6 (sampleCreate 0 10) (sampleChoice 1 7 1)

/-- A photo is taken, its upload is served and the answer arrives. -/
def sampleTaken : List SystemAction := .arrive (.enqueue 0 1 sampleCapture) :: sampleCalls 0 13 .lost

def sampleSent : List SystemAction :=
  sampleServed 1 9 (sampleUpload sampleCapture.clientId) (sampleChoice 1 8 0) ++
    sampleCalls 0 3 (.answered 1 "Created")

end Sample

end ItalyTrip
