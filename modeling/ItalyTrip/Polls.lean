import ItalyTrip.AlbumFinal

namespace ItalyTrip

open Calls

/-- The request asks for the current event or starts one. -/
def TellsEvent (req : Request) : Prop :=
  req.route = .authorized .currentEvent ∨ ∃ body, req.route = .authorized (.createEvent body)

/-- What an answer about an event has been made from. -/
inductive ToldFrom (past : Past Reply) (told : EventResponse) : Prop
  | current {event : Event} {t : Instant} {count : Nat}
      (read : ⟨.query .getCurrentEvent, .ok event⟩ ∈ past) (time : ⟨.now, t⟩ ∈ past)
      (counted : ⟨.query (.countPhotos event.id), .ok count⟩ ∈ past)
      (answer : told = Events.eventResponse event t count)
  | started {event : Event} {t : Instant} {arg} (created : ⟨.query (.createEvent arg), .ok event⟩ ∈ past)
      (time : ⟨.now, t⟩ ∈ past) (answer : told = Events.eventResponse event t 0)

def TellsFrom (past : Past Reply) (response : Response) : Prop :=
  ∀ told, response.body = .event told → ToldFrom past told

variable {app : Application} {past : Past Reply} {req : Request}

theorem tellsFrom_error {status : Nat} {message : String} :
    TellsFrom past (writeErrorFromString status message) := fun _ h => by cases h

theorem tellsFrom_event {status : Nat} {times : List Instant} {told : EventResponse}
    (h : ToldFrom past told) : TellsFrom past (writeJSON status times (.event told)) := by
  intro told' body
  unfold writeJSON at body
  split at body <;> cases body
  exact h

theorem current_tells :
    Events.current.run.Ensures (fun _ _ => True) (fun past result => TellsFrom past (written result))
      past := by
  simp only [Events.current, ensures_run_bind, ensures_request, ensures_orThrow, ensures_run_pure,
    written_ok, written_error, true_and]
  refine fun found => ⟨fun err _ => by cases err <;> exact tellsFrom_error, fun event hevent => ?_⟩
  subst hevent
  refine fun counted => ⟨fun _ _ => tellsFrom_error, fun count hcount t => ?_⟩
  subst hcount
  exact tellsFrom_event (.current (by simp) List.mem_cons_self (by simp) rfl)

theorem start_tells {user : User} {body : Events.CreateEventRequest} :
    (Events.startEvent user body).run.Ensures (fun _ _ => True)
      (fun past result => TellsFrom past (written result)) past := by
  simp only [Events.startEvent, ensures_run_bind, ensures_request, ensures_orThrow, ensures_run_pure,
    written_ok, written_error, true_and]
  refine fun inserted => ⟨fun _ _ => tellsFrom_error, fun event hevent => ?_⟩
  subst hevent
  refine fun activated => ⟨fun _ _ => tellsFrom_error, fun _ _ t => ?_⟩
  refine tellsFrom_event (@ToldFrom.started _ _ event t ?_ ?_ List.mem_cons_self rfl)
  · exact ⟨Events.defaultEventName, body.startsAt, body.endsAt, user.id⟩
  · simp

theorem create_tells {context : Option User} {body : Option Events.CreateEventRequest} :
    (Events.create context body).run.Ensures (fun _ _ => True)
      (fun past result => TellsFrom past (written result)) past := by
  simp only [Events.create, ensures_run_bind, ensures_someOrThrow, ensures_throwIf,
    Events.ensures_refuseWhileRunning, written_error, true_and]
  refine ⟨fun _ => tellsFrom_error, fun user _ => ⟨fun _ => tellsFrom_error, fun req _ => ?_⟩⟩
  refine ⟨fun _ => tellsFrom_error, fun _ => ⟨start_tells, fun _ _ => tellsFrom_error, ?_⟩⟩
  exact fun event t => ⟨fun _ => tellsFrom_error, fun _ => start_tells⟩

theorem serve_tells (tells : TellsEvent req) :
    (serve app req).Ensures (fun _ _ => True) TellsFrom [] := by
  have told : ∀ {route : AuthorizedRoute}, req.route = .authorized route →
      (∀ past user, (route.handle app user).run.Ensures (fun _ _ => True)
        (fun past result => TellsFrom past (written result)) past) →
      (serve app req).Ensures (fun _ _ => True) TellsFrom [] := by
    intro route hroute handled
    exact ensures_authorized hroute
      { noToken := fun _ => tellsFrom_error
        rejected := fun _ _ err _ _ => by cases err <;> exact fun _ h => by cases h
        badSubject := fun _ _ _ _ _ _ _ => tellsFrom_error
        notFound := fun _ _ => tellsFrom_error
        handled := fun _ user => handled _ user }
  rcases tells with route | ⟨body, route⟩
  · exact told route fun _ _ => current_tells
  · exact told route fun _ _ => create_tells

/-- The reply was given by a database and a clock that have only grown since. -/
def SeenBefore (s : ServerPool) : Sigma Reply → Prop
  | ⟨.now, t⟩ => t ≤ s.world.clock
  | ⟨.query .getCurrentEvent, .ok event⟩ => event ∈ s.world.db.events
  | ⟨.query (.createEvent _), .ok event⟩ => event ∈ s.world.db.events
  | ⟨.query (.countPhotos id), .ok count⟩ => count ≤ s.world.db.countPhotos id
  | _ => True

/-- The reply was given since the world was as it is here. -/
def SeenSince (w : World) : Sigma Reply → Prop
  | ⟨.now, t⟩ => w.clock ≤ t
  | ⟨.query (.createEvent _), .ok event⟩ => ∀ old ∈ w.db.events, old.id ≠ event.id
  | ⟨.query (.countPhotos id), .ok count⟩ => w.db.countPhotos id ≤ count
  | _ => True

/-- Events and photos are only added, and time only passes. -/
structure Grown (w w' : World) : Prop where
  events : w.db.events ⊆ w'.db.events
  clock : w.clock ≤ w'.clock
  count : ∀ id, w.db.countPhotos id ≤ w'.db.countPhotos id

theorem grown_refl (w : World) : Grown w w := ⟨List.Subset.refl _, Int.le_refl _, fun _ => Nat.le_refl _⟩

theorem Grown.trans {a b c : World} (h : Grown a b) (h' : Grown b c) : Grown a c :=
  ⟨List.Subset.trans h.events h'.events, Int.le_trans h.clock h'.clock,
    fun id => Nat.le_trans (h.count id) (h'.count id)⟩

theorem step_grown (app : Application) (s : ServerPool) (a : ServerAction) :
    Grown s.world (s.step (server app) a).world := by
  obtain ⟨events, clock⟩ := step_grow app s a
  refine ⟨events, clock, fun id => ?_⟩
  unfold Database.countPhotos
  rcases step_photos app s a with same | ⟨_, _, _, _, _, _, _, _, added⟩
  · rw [same]
  · rw [added, List.filter_append, List.length_append]
    exact Nat.le_add_right _ _

theorem SeenBefore.step {s : ServerPool} {a : ServerAction} {x : Sigma Reply} (h : SeenBefore s x) :
    SeenBefore (s.step (server app) a) x := by
  have grown := step_grown app s a
  unfold SeenBefore at h ⊢
  split
  next => exact Int.le_trans h grown.clock
  next => exact grown.events h
  next => exact grown.events h
  next => exact Nat.le_trans h (grown.count _)
  next => trivial

theorem perform_started {o : Choice} {w w' : World} {arg : CreateEventParams} {event : Event}
    (h : perform o w (.query (.createEvent arg)) = some (.ok event, w')) :
    w'.db.events = w.db.events ++ [event] ∧ w.db.hasEvent event.id = false := by
  have answered : w.db.createEvent o.defaults arg = (.ok event, w'.db) := perform_ok h
  rcases Database.createEvent_cases w.db o.defaults arg with ⟨_, e, he⟩ | ⟨row, hrow, _, _, _, _, fresh, _⟩
  · rw [answered] at he
    cases he
  · obtain ⟨hevent, hdb⟩ := Prod.mk.inj (hrow.symm.trans answered)
    obtain rfl := Except.ok.inj hevent
    rw [← hdb]
    exact ⟨rfl, fresh⟩

theorem perform_seenBefore {o : Choice} {s s' : ServerPool} {c : Call} {r : Reply c}
    (grown : Grown s.world s'.world) (h : perform o s.world c = some (r, s'.world)) :
    SeenBefore s' ⟨c, r⟩ := by
  unfold SeenBefore
  split
  next same =>
    cases same
    exact Int.le_of_eq (perform_now h).1
  next event same =>
    cases same
    have current := oneRow_ok (congrArg Prod.fst (perform_ok h)).symm
    exact grown.events (List.argmax_mem current)
  next arg event same =>
    cases same
    rw [(perform_started h).1]
    exact List.mem_append_right _ List.mem_cons_self
  next id count same =>
    cases same
    have counted := Except.ok.inj (congrArg Prod.fst (perform_ok h))
    rw [← counted]
    exact grown.count id
  next => trivial

theorem perform_seenSince {o : Choice} {w w₁ w₂ : World} {c : Call} {r : Reply c}
    (grown : Grown w w₁) (h : perform o w₁ c = some (r, w₂)) : SeenSince w ⟨c, r⟩ := by
  unfold SeenSince
  split
  next same =>
    cases same
    obtain ⟨rfl, le, _⟩ := perform_now h
    exact Int.le_trans grown.clock le
  next arg event same =>
    cases same
    intro old hold same
    have known := Database.hasEvent_iff.mpr ⟨old, grown.events hold, same⟩
    rw [(perform_started h).2] at known
    cases known
  next id count same =>
    cases same
    have counted := Except.ok.inj (congrArg Prod.fst (perform_ok h))
    rw [← counted]
    exact grown.count id
  next => trivial

/-- What each thread has seen, and what those that arrived later have seen since. -/
structure SeenInOrder (app : Application) (n : Nat) (w : World) (s : ServerPool) : Prop where
  follows : s.Follows (server app)
  valid : s.world.db.Valid
  grown : Grown w s.world
  before : ∀ u ∈ s.threads, ∀ x ∈ u.past, SeenBefore s x
  since : ∀ (i : Nat) u, n ≤ i → s.threads[i]? = some u → ∀ x ∈ u.past, SeenSince w x

theorem SeenInOrder.step {n : Nat} {w : World} {s : ServerPool} (h : SeenInOrder app n w s)
    (a : ServerAction) : SeenInOrder app n w (s.step (server app) a) where
  follows := h.follows.step a
  valid := exec_valid h.valid [a]
  grown := h.grown.trans (step_grown app s a)
  before := Pool.replies_step h.before (fun _ h => h.step) fun x =>
    perform_seenBefore (step_grown app s a) x.performed
  since := Pool.replies_step_at (K := fun _ => SeenSince w) h.since (fun _ h => h) fun _ x =>
    perform_seenSince h.grown x.performed

theorem SeenInOrder.exec {n : Nat} {w : World} {s : ServerPool} (h : SeenInOrder app n w s)
    (actions : List ServerAction) : SeenInOrder app n w (s.exec (server app) actions) :=
  Pool.exec_induction (fun _ a h _ => h.step a) h (Pool.runMeets_true _ actions)

/-- What an answer tells of an event comes from what its request has seen. -/
theorem SeenInOrder.told {n : Nat} {w : World} {s : ServerPool} (h : SeenInOrder app n w s)
    {u : Calls.Thread Call Reply Request Response} (hu : u ∈ s.threads) (tells : TellsEvent u.task)
    {response : Response} (answered : u.result = some response) {told : EventResponse}
    (body : response.body = .event told) : ToldFrom u.past told := by
  obtain ⟨_, leads, rest⟩ := h.follows u hu
  obtain rfl := rest _ (Thread.rest_of_result answered)
  exact (serve_tells tells).at_done leads told body

/-- What a request was told of an event that was there. -/
theorem ToldFrom.known {s : ServerPool} {told : EventResponse} (h : ToldFrom past told)
    (seen : ∀ x ∈ past, SeenBefore s x) : ∃ event ∈ s.world.db.events, ∃ t count,
      told = Events.eventResponse event t count ∧ t ≤ s.world.clock ∧
      count ≤ s.world.db.countPhotos event.id := by
  cases h with
  | current read time counted answer =>
    exact ⟨_, seen _ read, _, _, answer, seen _ time, seen _ counted⟩
  | started created time answer => exact ⟨_, seen _ created, _, _, answer, seen _ time, Nat.zero_le _⟩

/-- What a later request was told of an event that was there before. -/
theorem ToldFrom.later {s : ServerPool} {w : World} {told : EventResponse} (h : ToldFrom past told)
    (seen : ∀ x ∈ past, SeenBefore s x) (since : ∀ x ∈ past, SeenSince w x) {old : Event}
    (hold : old ∈ w.db.events) (same : told.id = uuidString old.id) : ∃ event ∈ s.world.db.events,
      ∃ t count, told = Events.eventResponse event t count ∧ w.clock ≤ t ∧
        w.db.countPhotos event.id ≤ count := by
  cases h with
  | current read time counted answer =>
    exact ⟨_, seen _ read, _, _, answer, since _ time, since _ counted⟩
  | started created time answer =>
    refine absurd (uuidString_inj ?_) (since _ created old hold)
    rw [← same, answer]
    rfl

/-- A later answer about the same event shows the same event: it is not running again if it was over,
and no photo has gone. -/
theorem polls_monotone {w : World} (valid : w.db.Valid) {before after : List ServerAction}
    {s s' : ServerPool} (reached : Pool.exec (server app) ⟨w, []⟩ before = s)
    (reached' : s.exec (server app) after = s') {u v : Calls.Thread Call Reply Request Response}
    (hu : u ∈ s.threads) (tells : TellsEvent u.task) {response response' : Response}
    (answered : u.result = some response) {told told' : EventResponse}
    (body : response.body = .event told) {i : Nat} (arrived : s.threads.length ≤ i)
    (hv : s'.threads[i]? = some v) (tells' : TellsEvent v.task) (answered' : v.result = some response')
    (body' : response'.body = .event told') (same : told'.id = told.id) :
    told'.name = told.name ∧ told'.startsAt = told.startsAt ∧ told'.endsAt = told.endsAt ∧
      (told.isOver = true → told'.isOver = true) ∧ told.photoCount ≤ told'.photoCount := by
  have start : SeenInOrder app 0 w ⟨w, []⟩ :=
    ⟨Pool.follows_init, valid, grown_refl w, fun _ hu => absurd hu List.not_mem_nil,
      fun _ _ _ hu => by simp at hu⟩
  have first : SeenInOrder app 0 w s := reached ▸ start.exec before
  have middle : SeenInOrder app s.threads.length s.world s :=
    { first with
      grown := grown_refl _
      since := fun i u le hu => absurd (List.getElem?_eq_some_iff.mp hu).1 (Nat.not_lt.mpr le) }
  have second : SeenInOrder app s.threads.length s.world s' := reached' ▸ middle.exec after
  have hv' := List.mem_of_getElem? hv
  obtain ⟨event, hevent, t, count, rfl, le, most⟩ :=
    (first.told hu tells answered body).known (first.before u hu)
  obtain ⟨event', hevent', t', count', rfl, le', least⟩ :=
    (second.told hv' tells' answered' body').later (second.before v hv') (second.since i v arrived hv)
      hevent same
  -- Both answers are about the one row with that id.
  obtain rfl : event' = event := List.inj_on_of_nodup_map second.valid.events_id hevent'
    (second.grown.events hevent) (uuidString_inj same)
  refine ⟨rfl, rfl, rfl, fun isOver => ?_, Nat.le_trans most least⟩
  have ended : event'.IsOver t := of_decide_eq_true isOver
  exact decide_eq_true (ended.mono (Int.le_trans le le'))

/-- An event is started and asked for. -/
private def sampleAsked : ServerPool :=
  Pool.exec (server sampleApp) ⟨sampleWorld, []⟩
    (.arrive (sampleCreate 0 10) :: List.replicate 6 (.act 0 (sampleChoice 1 7 1)) ++
      .arrive (sampleRequest .currentEvent) :: List.replicate 5 (.act 1 (sampleChoice 1 0 0)))

/-- A photo is uploaded, and after the end the event is asked for again. -/
private def sampleAskedAgain : List ServerAction :=
  .arrive (sampleUpload (uuidString 9)) :: List.replicate 9 (.act 2 (sampleChoice 0 8 0)) ++
    .env 10000000000 ::
    .arrive (sampleRequest .currentEvent) :: List.replicate 5 (.act 3 (sampleChoice 0 0 0))

private def asksCurrent : Request → Bool
  | ⟨_, _, .authorized .currentEvent⟩ => true
  | _ => false

private theorem asksCurrent_tells {req : Request} (h : asksCurrent req = true) : TellsEvent req := by
  unfold asksCurrent at h
  split at h
  · exact Or.inl rfl
  · cases h

theorem polls_monotone_sample :
    let told : EventResponse := ⟨uuidString 7, "Italy Trip", 0, 10000000000, false, 0⟩
    let told' : EventResponse := ⟨uuidString 7, "Italy Trip", 0, 10000000000, true, 1⟩
    (∃ u ∈ sampleAsked.threads, u.result.map Response.body = some (.event told)) ∧
    (∃ u ∈ (sampleAsked.exec (server sampleApp) sampleAskedAgain).threads,
      u.result.map Response.body = some (.event told')) ∧
    told'.name = told.name ∧ told.photoCount ≤ told'.photoCount := by
  intro told told'
  have first : sampleAsked.threads[1]?.map (fun u => (asksCurrent u.task, u.result)) =
      some (true, some ⟨200, .event told, none⟩) := by
    decide +kernel
  have second : (sampleAsked.exec (server sampleApp) sampleAskedAgain).threads[3]?.map
      (fun u => (asksCurrent u.task, u.result)) = some (true, some ⟨200, .event told', none⟩) := by
    decide +kernel
  obtain ⟨u, hu, facts⟩ := Option.map_eq_some_iff.mp first
  obtain ⟨v, hv, facts'⟩ := Option.map_eq_some_iff.mp second
  obtain ⟨asks, answered⟩ := Prod.mk.inj facts
  obtain ⟨asks', answered'⟩ := Prod.mk.inj facts'
  have mem := List.mem_of_getElem? hu
  obtain ⟨name, _, _, _, count⟩ := polls_monotone (s := sampleAsked) sampleWorld_valid rfl rfl mem
    (asksCurrent_tells asks) answered rfl (by decide +kernel) hv (asksCurrent_tells asks') answered' rfl rfl
  refine ⟨⟨u, mem, by rw [answered]; rfl⟩, ⟨v, List.mem_of_getElem? hv, by rw [answered']; rfl⟩, ?_⟩
  exact ⟨name, count⟩

end ItalyTrip
