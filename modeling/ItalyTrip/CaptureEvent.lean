import ItalyTrip.Frames
import ItalyTrip.System

namespace ItalyTrip

open Calls

/-- The current event, while it is running. -/
def runningEvent (w : World) : Option Event :=
  w.db.getCurrentEvent.filter fun event => ¬ event.IsOver w.clock

/-- Rows that are added only behind the current event leave it or replace it. -/
theorem getCurrentEvent_of_known {db db' : Database} {event event' : Event}
    (grow : db.events <+: db'.events) (current : db.getCurrentEvent = some event)
    (current' : db'.getCurrentEvent = some event') (known : event' ∈ db.events) : event' = event := by
  obtain ⟨new, hnew⟩ := grow
  unfold Database.getCurrentEvent at current current'
  rw [← hnew] at current'
  have mem := List.argmax_mem current
  have le := List.le_of_mem_argmax known current
  have le' := List.le_of_mem_argmax (List.mem_append_left new mem) current'
  have first := List.index_of_argmax current known le'
  have first' := List.index_of_argmax current' (List.mem_append_left new mem) le
  rw [List.idxOf_append_of_mem known, List.idxOf_append_of_mem mem] at first'
  exact (List.idxOf_inj known).mp (Nat.le_antisymm first' first)

variable {app : Application} {past : Past Reply}

/-- A photo is created in the event that its request has read and found running. -/
def CreatesInRead (app : Application) (req : Request) (past : Past Reply) (c : Call) : Prop :=
  ∀ arg, c = .query (.createPhoto arg) →
    (∃ upload, req.route = .authorized (.uploadPhoto upload) ∧
      Photos.parseClientID app upload.clientID = .ok arg.clientID) ∧
    ∃ event t rest, Photos.readEvent event t rest <:+ past ∧ ¬ event.IsOver t ∧ arg.eventID = event.id

theorem savePhoto_creates {event : Event} {user : User} {form : Photos.UploadForm} {original : Bytes}
    {thumb : Images.Thumb} :
    (Photos.savePhoto event user form original thumb).run.Ensures
      (fun past' c => ∀ arg, c = .query (.createPhoto arg) →
        past <:+ past' ∧ arg.clientID = form.clientID ∧ arg.eventID = event.id)
      (fun _ _ => True) past := by
  simp [Photos.savePhoto, forall_except]
  exact fun id stored => List.suffix_append [_, _, _] past

theorem upload_creates {context : Option User} {req : UploadRequest} :
    (Photos.upload app context req).run.Ensures
      (fun past c => ∀ arg, c = .query (.createPhoto arg) →
        Photos.parseClientID app req.clientID = .ok arg.clientID ∧
        ∃ event t rest, Photos.readEvent event t rest <:+ past ∧ ¬ event.IsOver t ∧ arg.eventID = event.id)
      (fun _ _ => True) past := by
  refine Photos.ensures_upload.mpr
    { current := by simp
      clock := fun _ => by simp
      lookup := fun _ => by simp
      save := ?_ }
  intro event t user form passes image _
  refine savePhoto_creates.mono (fun past' c h arg hc => ?_) fun _ _ h => h
  obtain ⟨suffix, hclient, hevent⟩ := h arg hc
  refine ⟨?_, event, t, past, (List.suffix_cons _ _).trans suffix, passes.running, hevent⟩
  rw [hclient]
  exact (Photos.readForm_ok passes.wellFormed).2.1

theorem serve_creates (req : Request) :
    (serve app req).Ensures (CreatesInRead app req) (fun _ _ => True) [] := by
  by_cases hw : Table.photos ∈ req.route.writes
  · obtain ⟨header, cookie, route⟩ := req
    cases route with
    | login body => simp [Route.writes] at hw
    | refresh => simp [Route.writes] at hw
    | authorized route =>
      cases route with
      | uploadPhoto upload =>
        refine ensures_authorized rfl
          { clock := by simp [CreatesInRead]
            lookup := fun _ => by simp [CreatesInRead]
            handled := fun _ user => ?_ }
        exact upload_creates.mono (fun past c h arg hc => ⟨⟨upload, rfl, (h arg hc).1⟩, (h arg hc).2⟩)
          fun _ _ h => h
      | _ => simp [Route.writes] at hw
  · refine (serve_writes req).mono (fun past c hc arg heq => ?_) fun _ _ h => h
    subst heq
    simp only [within_query, Query.writes, List.cons_subset] at hc
    exact absurd hc.1 hw

/-- The request uploads the capture with this client id. -/
def Request.uploads (app : Application) (clientId : String) (req : Request) : Bool :=
  match req.route with
  | .authorized (.uploadPhoto upload) =>
    decide (Photos.parseClientID app upload.clientID = Photos.parseClientID app clientId)
  | _ => false

def Call.readsEvent : Call → Bool
  | .query .getCurrentEvent => true
  | _ => false

/-- When an upload of the capture reads the current event, that is one of the known events or over. -/
def LaterOver (app : Application) (clientId : String) (known : List Event) :
    Pool.Condition Reply World Request := fun w x =>
  x.call.readsEvent = true → x.task.uploads app clientId = true →
    ∀ event ∈ w.db.getCurrentEvent, event ∈ known ∨ event.IsOver w.clock

instance (app : Application) (clientId : String) (known : List Event) (w : World)
    (x : Pool.Event Reply World Request) : Decidable (LaterOver app clientId known w x) :=
  inferInstanceAs (Decidable (_ → _))

/-- No photo and no request has this client id yet. -/
def FreshId (app : Application) (s : ServerPool) (clientId : String) : Prop :=
  (∀ row ∈ s.world.db.photos, Photos.parseClientID app clientId ≠ .ok row.clientID) ∧
    ∀ u ∈ s.threads, u.task.uploads app clientId = false

instance (app : Application) (s : ServerPool) (clientId : String) :
    Decidable (FreshId app s clientId) :=
  inferInstanceAs (Decidable (_ ∧ _))

/-- The photos of the capture are in this event, and events were only added since. -/
structure InEvent (app : Application) (clientId : String) (db : Database) (event : Event) (w : World) :
    Prop where
  grow : db.events <+: w.db.events
  rows : ∀ row ∈ w.db.photos, Photos.parseClientID app clientId = .ok row.clientID →
    row.eventID = event.id

/-- An upload of the capture has read this event as the current one, or one that was over. -/
def ReadsEvent (app : Application) (clientId : String) (event : Event) (req : Request)
    (past : Past Reply) (w : World) : Prop :=
  req.uploads app clientId = true →
    (∀ current : Event, ⟨.query .getCurrentEvent, .ok current⟩ ∈ past →
      current = event ∨ current.IsOver w.clock) ∧
    ∀ (current : Event) (t : Instant) rest, Photos.readEvent current t rest <:+ past →
      current = event ∨ current.IsOver t

theorem ReadsEvent.later {clientId : String} {event : Event} {req : Request} {past : Past Reply}
    {w w' : World} (h : ReadsEvent app clientId event req past w) (le : w.clock ≤ w'.clock) :
    ReadsEvent app clientId event req past w' := fun uploads =>
  ⟨fun current hm => ((h uploads).1 current hm).imp id fun ended => ended.mono le, (h uploads).2⟩

theorem ReadsEvent.step {clientId : String} {db : Database} {event : Event} {req : Request}
    {past : Past Reply} {w w' : World} {o : Choice} {c : Call} {r : Reply c}
    (current : db.getCurrentEvent = some event) (inEvent : InEvent app clientId db event w)
    (h : ReadsEvent app clientId event req past w) (hp : perform o w c = some (r, w'))
    (may : LaterOver app clientId db.events w ⟨req, past, c, r, w'⟩) :
    ReadsEvent app clientId event req (⟨c, r⟩ :: past) w' := by
  intro uploads
  obtain ⟨seen, read⟩ := h.later (perform_clock hp) uploads
  refine ⟨?_, ?_⟩
  · intro e hm
    rcases List.mem_cons.mp hm with here | before
    · cases here
      have hx := perform_ok hp
      cases hcur : w.db.getCurrentEvent with
      | none => simp [Database.exec, hcur, oneRow] at hx
      | some e' =>
        simp only [Database.exec, hcur, oneRow, Prod.mk.injEq, Except.ok.injEq] at hx
        obtain ⟨rfl, _⟩ := hx
        rcases may rfl uploads e' hcur with known | ended
        · exact Or.inl (getCurrentEvent_of_known inEvent.grow current hcur known)
        · exact Or.inr (ended.mono (perform_clock hp))
    · exact seen e before
  · intro e t rest suffix
    rcases List.suffix_cons_iff.mp suffix with here | before
    · obtain ⟨hx, rfl⟩ := List.cons.inj here
      cases hx
      obtain ⟨rfl, _, _⟩ := perform_now hp
      exact seen e List.mem_cons_self
    · exact read e t rest before

theorem InEvent.step {clientId : String} {db : Database} {event : Event} {req : Request}
    {past : Past Reply} {w w' : World} {o : Choice} {c : Call} {r : Reply c}
    (h : InEvent app clientId db event w) (creates : CreatesInRead app req past c)
    (read : ReadsEvent app clientId event req past w) (hp : perform o w c = some (r, w')) :
    InEvent app clientId db event w' := by
  refine ⟨?_, ?_⟩
  · rcases perform_events hp with same | ⟨_, row, _, hdb, _⟩
    · rw [same]
      exact h.grow
    · rw [hdb]
      exact h.grow.trans (List.prefix_append _ _)
  · intro row hrow parsed
    rcases perform_photos hp with same | ⟨arg, rfl, added⟩
    · exact h.rows row (same ▸ hrow) parsed
    · rw [added] at hrow
      rcases List.mem_append.mp hrow with old | here
      · exact h.rows row old parsed
      · obtain rfl := List.mem_singleton.mp here
        obtain ⟨⟨upload, route, hupload⟩, e, t, rest, suffix, running, harg⟩ := creates arg rfl
        have uploads : req.uploads app clientId = true := by
          simp [Request.uploads, route, hupload, parsed, CreatePhotoParams.row]
        rcases (read uploads).2 e t rest suffix with rfl | ended
        · exact harg
        · exact absurd ended running

/-- What every exchange of the server keeps of a capture taken while `event` was the current one. -/
theorem event_rules {clientId : String} {db : Database} {event : Event}
    (current : db.getCurrentEvent = some event) :
    Pool.Local (server app) (LaterOver app clientId db.events) (InEvent app clientId db event)
      (fun w w' => w.clock ≤ w'.clock) (ReadsEvent app clientId event) where
  arrive _ _ _ := fun _ => ⟨fun _ h => absurd h List.not_mem_nil, fun _ _ _ h => by simp at h⟩
  act := by
    intro req past c next o r w w' leads inEvent read hp may
    change perform o w c = some (r, w') at hp
    refine ⟨inEvent.step ?_ read hp, perform_clock hp, read.step current inEvent hp may⟩
    exact (serve_creates req).at_call leads
  env ticks w inEvent :=
    ⟨⟨inEvent.grow, inEvent.rows⟩, Int.le_add_of_nonneg_right (Int.natCast_nonneg _)⟩
  stable _ _ _ _ le read := read.later le

variable (localeLE : String → String → Bool)

/-- Where no upload of a capture meets a later event that is running, every photo of the capture is
in the event that was running when it was taken. -/
theorem capture_in_event {w : SystemWorld} (start : w.server.threads = [])
    {before after : List SystemAction} {s : SystemPool} {tab rounds : Nat} {capture : Capture}
    {event : Event} (reached : Pool.exec (system app localeLE) ⟨w, []⟩ before = s)
    (running : runningEvent s.world.server.world = some event)
    (fresh : FreshId app s.world.server capture.clientId)
    (ended : Pool.RunMeets (server app) (LaterOver app capture.clientId s.world.server.world.db.events)
      s.world.server (serverActions after)) :
    ∀ row ∈ (s.exec (system app localeLE)
        (.arrive (.enqueue tab rounds capture) :: after)).world.server.world.db.photos,
      Photos.parseClientID app capture.clientId = .ok row.clientID → row.eventID = event.id := by
  have leads : ∀ u ∈ s.world.server.threads, ∀ q, u.rest = some q →
      ((server app).start u.task).Leads u.past q := by
    rw [← reached, exec_server]
    exact Pool.exec_leads start _
  obtain ⟨current, _⟩ := Option.filter_eq_some_iff.mp running
  have good : Pool.Good (server app) (InEvent app capture.clientId s.world.server.world.db event)
      (ReadsEvent app capture.clientId event) s.world.server := by
    refine ⟨⟨List.prefix_refl _, fun row hrow parsed => absurd parsed (fresh.1 row hrow)⟩, ?_, leads⟩
    exact fun u hu uploads => absurd uploads (by simp [fresh.2 u hu])
  rw [exec_server]
  exact ((event_rules current).exec good ended).world.rows

/-- The camera is opened while an event from 0 to 10 seconds runs. -/
private def sampleOpened : List SystemAction :=
  sampleServed 0 6 (sampleCreate 0 10) (sampleChoice 1 7 1) ++
    .arrive (.start 0 1) :: sampleCalls 0 30 .lost

/-- The upload of a capture is lost and the camera is closed. -/
private def sampleOffline : List SystemAction :=
  sampleCalls 1 40 .lost ++ .arrive (.stop 0) :: sampleCalls 2 10 .lost

/-- The event ends, the next one is created, and the camera is opened again. -/
private def sampleNextTrip : List SystemAction :=
  .env (.server (.env 10000000000)) ::
    sampleServed 1 7 (sampleCreate 12 60) (sampleChoice 1 17 2) ++
    .env (.browser (.tick 60000)) :: .arrive (.start 0 1) :: sampleCalls 3 11 .lost ++
    sampleServed 2 9 (sampleUpload sampleCapture.clientId) (sampleChoice 1 8 0) ++
    sampleCalls 3 30 (.answered 2 "Created")

/-- A capture of the first event is stored under the second. -/
theorem capture_in_later_event :
    let s := Pool.exec (system sampleApp fun _ _ => true) sampleSystem sampleOpened
    runningEvent s.world.server.world = some sampleEvent ∧
    FreshId sampleApp s.world.server sampleCapture.clientId ∧
    ¬ ∀ row ∈ (s.exec (system sampleApp fun _ _ => true) (.arrive (.enqueue 0 1 sampleCapture) ::
        (sampleOffline ++ sampleNextTrip))).world.server.world.db.photos,
      Photos.parseClientID sampleApp sampleCapture.clientId = .ok row.clientID →
        row.eventID = sampleEvent.id := by
  decide +kernel

theorem capture_in_event_sent :
    let s := Pool.exec (system sampleApp fun _ _ => true) sampleSystem sampleStarted
    let photos := (s.exec (system sampleApp fun _ _ => true) (.arrive (.enqueue 0 1 sampleCapture) ::
      (sampleCalls 0 13 .lost ++ sampleSent))).world.server.world.db.photos
    photos ≠ [] ∧ ∀ row ∈ photos,
      Photos.parseClientID sampleApp sampleCapture.clientId = .ok row.clientID →
        row.eventID = sampleEvent.id := by
  have reached : Pool.exec (system sampleApp fun _ _ => true) ⟨sampleSystem.world, []⟩ sampleStarted =
      Pool.exec (system sampleApp fun _ _ => true) sampleSystem sampleStarted := rfl
  exact ⟨by decide +kernel, capture_in_event _ rfl reached (by decide +kernel) (by decide +kernel)
    (by decide +kernel)⟩

end ItalyTrip
