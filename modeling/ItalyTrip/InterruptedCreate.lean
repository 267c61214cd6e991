import ItalyTrip.Archive

namespace ItalyTrip

open Calls

/-- The request is let through to the insert of its event. -/
structure LetThrough (app : Application) (w : World) (req : Request) (choices : Nat → Choice)
    (body : Events.CreateEventRequest) : Prop where
  route : req.route = .authorized (.createEvent (some body))
  user : ∃ token subject id,
    Signed app req.authorization token (w.clock + (choices 0).tick) subject id ∧
      w.db.findUserById id ≠ none
  ordered : body.startsAt < body.endsAt
  answered : (choices 1).fault = .none ∧ (choices 2).fault = .none
  free : ∀ event ∈ w.db.getCurrentEvent, event.IsOver (w.clock + (choices 0).tick + (choices 3).tick)

/-- The number of the call that inserts the event; the clock is asked before it if there is an event. -/
def insertCall (w : World) : Nat := if w.db.getCurrentEvent = none then 3 else 4

/-- The event is inserted, but the insert is not answered, the user's event is not set, or the response
cannot be written. -/
structure Interrupted (app : Application) (w : World) (req : Request) (choices : Nat → Choice)
    (body : Events.CreateEventRequest) : Prop extends LetThrough app w req choices body where
  inserted : (choices (insertCall w)).fault ≠ .before ∧
    w.db.hasEvent (choices (insertCall w)).id = false
  broken : (choices (insertCall w)).fault = .after ∨ (choices (insertCall w + 1)).fault ≠ .none ∨
    ¬(jsonTime (timestamptz body.startsAt) = true ∧ jsonTime (timestamptz body.endsAt) = true)

/-- The events, and each user's active one, are as they were. -/
def Unstarted (w w' : World) : Prop := w'.db.events = w.db.events ∧ w'.db.users = w.db.users

variable {app : Application} {req : Request} {choices : Nat → Choice} {w w' : World} {o : Choice}

theorem clock_answered {t : Instant} (h : Prog.Answered perform choices w [⟨.now, t⟩] w') :
    t = w.clock + (choices 0).tick ∧ w' = { w with clock := t } := by
  obtain ⟨_, rfl, clock⟩ := h
  obtain ⟨rfl, rfl⟩ := Prod.mk.inj (Option.some.inj clock)
  exact ⟨rfl, rfl⟩

theorem user_answered {id : UUID} {r : Except DbError User} {t : Instant}
    (h : Prog.Answered perform choices w [⟨.query (.findUserById id), r⟩, ⟨.now, t⟩] w') :
    t = w.clock + (choices 0).tick ∧ w' = { w with clock := t } ∧
      ((choices 1).fault = .none ∧ r = oneRow (w.db.findUserById id) ∨
        (choices 1).fault ≠ .none ∧ r = .error .failure) := by
  obtain ⟨w₁, clock, user⟩ := h
  obtain ⟨rfl, rfl⟩ := clock_answered clock
  obtain ⟨rfl, answer⟩ := perform_reads rfl user
  exact ⟨rfl, rfl, answer⟩

/-- What is said of a run once its response is known. -/
def Settles (app : Application) (w : World) (req : Request) (choices : Nat → Choice) (past : Past Reply)
    (response : Response) : Prop :=
  ∀ w', Prog.Answered perform choices w past w' →
    ((response.status ≠ 201 → Unstarted w w') ↔ ¬∃ body, Interrupted app w req choices body)

/-- A request that is refused before the insert. -/
theorem settles_refused {past : Past Reply} {response : Response}
    (same : ∀ w', Prog.Answered perform choices w past w' → w'.db = w.db ∧
      ∀ body, ¬LetThrough app w req choices body) : Settles app w req choices past response := by
  intro w' answered
  obtain ⟨kept, refused⟩ := same w' answered
  refine iff_of_true (fun _ => ?_) fun ⟨body, interrupted⟩ => refused body interrupted.toLetThrough
  unfold Unstarted
  rw [kept]
  exact ⟨rfl, rfl⟩

/-- How an insert for an existing user ends. -/
theorem perform_insert {arg : CreateEventParams} {r : Reply (.query (.createEvent arg))}
    (user : w.db.hasUser arg.userID = true)
    (h : perform o w (.query (.createEvent arg)) = some (r, w')) :
    (o.fault = .before ∨ w.db.hasEvent o.id = true) ∧ w' = w ∧ (∃ err, r = .error err) ∨
      ∃ row : Event, w.db.hasEvent o.id = false ∧ w' = { w with
          db := { w.db with events := w.db.events ++ [row] } } ∧
        row.id = o.id ∧ row.startsAt = timestamptz arg.startsAt ∧ row.endsAt = timestamptz arg.endsAt ∧
        (o.fault = .after ∧ (∃ err, r = .error err) ∨ o.fault = .none ∧ r = .ok row) := by
  by_cases taken : w.db.hasEvent o.id = true
  · left
    have refused : w.db.createEvent o.defaults arg = (.error .uniqueViolation, w.db) := if_pos taken
    refine ⟨Or.inr taken, ?_⟩
    simp only [perform, Database.exec, refused] at h
    split at h
    all_goals
      obtain ⟨rfl, rfl⟩ := Prod.mk.inj (Option.some.inj h)
      exact ⟨rfl, _, rfl⟩
  · have fresh : w.db.hasEvent o.id = false := Bool.eq_false_iff.mpr taken
    let row : Event := ⟨o.id, arg.name, timestamptz arg.startsAt, timestamptz arg.endsAt, o.createdAt,
      some arg.userID⟩
    have accepted : w.db.createEvent o.defaults arg =
        (.ok row, { w.db with events := w.db.events ++ [row] }) := w.db.createEvent_accepted _ fresh user
    simp only [perform, Database.exec, accepted] at h
    split at h
    next quiet =>
      obtain ⟨rfl, rfl⟩ := Prod.mk.inj (Option.some.inj h)
      exact Or.inr ⟨row, fresh, rfl, rfl, rfl, rfl, Or.inr ⟨quiet, rfl⟩⟩
    next early =>
      obtain ⟨rfl, rfl⟩ := Prod.mk.inj (Option.some.inj h)
      exact Or.inl ⟨Or.inl early, rfl, _, rfl⟩
    next late =>
      obtain ⟨rfl, rfl⟩ := Prod.mk.inj (Option.some.inj h)
      exact Or.inr ⟨row, fresh, rfl, rfl, rfl, rfl, Or.inl ⟨late, _, rfl⟩⟩

/-- Setting the active event leaves the events alone, and an event that exists can be set. -/
theorem perform_activate {id activeEventID : UUID}
    {r : Reply (.query (.setActiveEvent id activeEventID))} (event : w.db.hasEvent activeEventID = true)
    (h : perform o w (.query (.setActiveEvent id activeEventID)) = some (r, w')) :
    w'.db.events = w.db.events ∧
      (o.fault = .none ∧ r = .ok () ∨ o.fault ≠ .none ∧ r = .error .failure) := by
  simp only [perform, Database.exec, w.db.setActiveEvent_accepted id event] at h
  split at h
  next quiet =>
    obtain ⟨rfl, rfl⟩ := Prod.mk.inj (Option.some.inj h)
    exact ⟨rfl, Or.inl ⟨quiet, rfl⟩⟩
  next early =>
    obtain ⟨rfl, rfl⟩ := Prod.mk.inj (Option.some.inj h)
    exact ⟨rfl, Or.inr ⟨by rw [early]; decide, rfl⟩⟩
  next late =>
    obtain ⟨rfl, rfl⟩ := Prod.mk.inj (Option.some.inj h)
    exact ⟨rfl, Or.inr ⟨by rw [late]; decide, rfl⟩⟩

/-- An event more is not the events as they were. -/
theorem not_unstarted {row : Event} (h : w'.db.events = w.db.events ++ [row]) : ¬Unstarted w w' := by
  rintro ⟨same, -⟩
  have length := congrArg List.length (h.symm.trans same)
  rw [List.length_append] at length
  exact absurd length (by simp)

/-- Of one request, only its own body is let through. -/
theorem LetThrough.body_eq {body body' : Events.CreateEventRequest}
    (h : LetThrough app w req choices body) (h' : LetThrough app w req choices body') :
    body' = body := by
  have routes := h'.route.symm.trans h.route
  injection routes with routes
  injection routes with routes
  exact Option.some.inj routes

section Start

/-- The request has come to its insert. -/
def AtInsert (app : Application) (w : World) (req : Request) (choices : Nat → Choice)
    (body : Events.CreateEventRequest) (user : User) (past : Past Reply) : Prop :=
  ∀ w', Prog.Answered perform choices w past w' → past.length = insertCall w ∧ w'.db = w.db ∧
    w.db.hasUser user.id = true ∧ LetThrough app w req choices body

variable {past : Past Reply} {user : User} {body : Events.CreateEventRequest}

def insertEvent (user : User) (body : Events.CreateEventRequest) : Query :=
  .createEvent ⟨Events.defaultEventName, body.startsAt, body.endsAt, user.id⟩

/-- What the insert has done. -/
theorem AtInsert.inserted (at_insert : AtInsert app w req choices body user past)
    {r : Except DbError Event}
    (h : Prog.Answered perform choices w (⟨.query (insertEvent user body), r⟩ :: past) w') :
    LetThrough app w req choices body ∧
    (((choices (insertCall w)).fault = .before ∨ w.db.hasEvent (choices (insertCall w)).id = true) ∧
        w'.db = w.db ∧ (∃ err, r = .error err) ∨
      ∃ row : Event, w.db.hasEvent (choices (insertCall w)).id = false ∧
        w'.db = { w.db with events := w.db.events ++ [row] } ∧
        row.startsAt = timestamptz body.startsAt ∧ row.endsAt = timestamptz body.endsAt ∧
        ((choices (insertCall w)).fault = .after ∧ (∃ err, r = .error err) ∨
          (choices (insertCall w)).fault = .none ∧ r = .ok row)) := by
  obtain ⟨w₁, before, insert⟩ := h
  obtain ⟨length, same, known, through⟩ := at_insert w₁ before
  rw [length] at insert
  refine ⟨through, ?_⟩
  rcases perform_insert (by rw [same]; exact known) insert with
    ⟨stopped, rfl, err⟩ | ⟨row, fresh, rfl, -, starts, ends, how⟩
  · rw [same] at stopped
    exact Or.inl ⟨stopped, same, err⟩
  · rw [same] at fresh
    exact Or.inr ⟨row, fresh, by rw [same], starts, ends, how⟩

theorem AtInsert.failed (at_insert : AtInsert app w req choices body user past) (err : DbError) :
    Settles app w req choices (⟨.query (insertEvent user body), .error err⟩ :: past)
      (writeErrorFromString 500 "failed to create event") := by
  intro w' answered
  obtain ⟨through, ⟨stopped, same, -⟩ | ⟨row, fresh, added, -, -, how⟩⟩ := at_insert.inserted answered
  · refine iff_of_true (fun _ => ?_) ?_
    · unfold Unstarted
      rw [same]
      exact ⟨rfl, rfl⟩
    · rintro ⟨body', interrupted⟩
      obtain ⟨carried, fresh⟩ := interrupted.inserted
      rcases stopped with early | taken
      · exact carried early
      · exact Bool.noConfusion (taken.symm.trans fresh)
  · rcases how with ⟨late, -⟩ | ⟨-, lost⟩
    · refine iff_of_false (fun kept => ?_) fun none => none ⟨body, through, ⟨?_, fresh⟩, Or.inl late⟩
      · exact not_unstarted (congrArg Database.events added) (kept (by decide))
      · rw [late]
        decide
    · cases lost

/-- What the two writes have done when both were made. -/
theorem AtInsert.activated (at_insert : AtInsert app w req choices body user past) {created : Event}
    {r : Except DbError Unit} (h : Prog.Answered perform choices w
      (⟨.query (.setActiveEvent user.id created.id), r⟩ ::
        ⟨.query (insertEvent user body), .ok created⟩ :: past) w') :
    LetThrough app w req choices body ∧ (choices (insertCall w)).fault = .none ∧
      w.db.hasEvent (choices (insertCall w)).id = false ∧ w'.db.events = w.db.events ++ [created] ∧
      created.startsAt = timestamptz body.startsAt ∧ created.endsAt = timestamptz body.endsAt ∧
      ((choices (insertCall w + 1)).fault = .none ∧ r = .ok () ∨
        (choices (insertCall w + 1)).fault ≠ .none ∧ r = .error .failure) := by
  obtain ⟨w₁, before, activate⟩ := h
  obtain ⟨through, ⟨-, -, err, lost⟩ | ⟨row, fresh, added, starts, ends, how⟩⟩ :=
    at_insert.inserted before
  · cases lost
  rcases how with ⟨-, err, lost⟩ | ⟨quiet, same⟩
  · cases lost
  obtain rfl := Except.ok.inj same
  obtain ⟨_, first, -⟩ := before
  rw [List.length_cons, (at_insert _ first).1] at activate
  have event : w₁.db.hasEvent created.id = true := by
    rw [added]
    simp [Database.hasEvent]
  obtain ⟨kept, answer⟩ := perform_activate event activate
  exact ⟨through, quiet, fresh, by rw [kept, added], starts, ends, answer⟩

theorem AtInsert.unset (at_insert : AtInsert app w req choices body user past) (created : Event)
    (err : DbError) : Settles app w req choices
      (⟨.query (.setActiveEvent user.id created.id), .error err⟩ ::
        ⟨.query (insertEvent user body), .ok created⟩ :: past)
      (writeErrorFromString 500 "failed to set active event") := by
  intro w' answered
  obtain ⟨through, quiet, fresh, added, -, -, ⟨-, lost⟩ | ⟨faulty, -⟩⟩ := at_insert.activated answered
  · cases lost
  · refine iff_of_false (fun kept => not_unstarted added (kept (by decide))) fun none => none
      ⟨body, through, ⟨?_, fresh⟩, Or.inr (Or.inl faulty)⟩
    rw [quiet]
    decide

theorem AtInsert.created (at_insert : AtInsert app w req choices body user past) (created : Event)
    (t : Instant) (response : Body) : Settles app w req choices
      (⟨.now, t⟩ :: ⟨.query (.setActiveEvent user.id created.id), .ok ()⟩ ::
        ⟨.query (insertEvent user body), .ok created⟩ :: past)
      (writeJSON 201 [created.startsAt, created.endsAt] response) := by
  intro w' answered
  obtain ⟨w₁, before, clock⟩ := answered
  obtain ⟨through, quiet, fresh, added, starts, ends, ⟨set, -⟩ | ⟨-, lost⟩⟩ :=
    at_insert.activated before
  · have added' : w'.db.events = w.db.events ++ [created] := by
      rw [(perform_now clock).2.2, ← added]
    by_cases encodable : jsonTime (timestamptz body.startsAt) = true ∧
        jsonTime (timestamptz body.endsAt) = true
    · have status : (writeJSON 201 [created.startsAt, created.endsAt] response).status = 201 := by
        simp [writeJSON, starts, ends, encodable]
      refine iff_of_true (fun other => absurd status other) ?_
      rintro ⟨body', interrupted⟩
      obtain rfl := through.body_eq interrupted.toLetThrough
      rcases interrupted.broken with late | faulty | unencodable
      · exact absurd (quiet.symm.trans late) (by decide)
      · exact faulty set
      · exact unencodable encodable
    · have status : (writeJSON 201 [created.startsAt, created.endsAt] response).status ≠ 201 := by
        have some_not : [created.startsAt, created.endsAt].all jsonTime ≠ true := by
          simpa [starts, ends] using encodable
        rw [writeJSON, if_neg some_not]
        decide
      refine iff_of_false (fun kept => not_unstarted added' (kept status)) fun none => none
        ⟨body, through, ⟨?_, fresh⟩, Or.inr (Or.inr encodable)⟩
      rw [quiet]
      decide
  · cases lost

theorem AtInsert.settles (at_insert : AtInsert app w req choices body user past) :
    (Events.startEvent user body).run.Ensures (fun _ _ => True)
      (fun past result => Settles app w req choices past (written result)) past := by
  simp only [Events.startEvent, ensures_run_bind, ensures_request, ensures_orThrow, ensures_run_pure,
    true_and]
  intro r
  refine ⟨?_, ?_⟩
  · rintro err rfl
    exact at_insert.failed err
  · rintro created rfl r
    refine ⟨?_, ?_⟩
    · rintro err rfl
      exact at_insert.unset created err
    · rintro _ rfl t
      exact at_insert.created created t _

end Start

/-- The user's own token is what lets the request through. -/
theorem LetThrough.signed {body : Events.CreateEventRequest} (h : LetThrough app w req choices body)
    {token : String} (bearer : bearerToken req.authorization = some token) :
    ∃ subject id, verify app token (w.clock + (choices 0).tick) = .ok subject ∧
      app.parseUUID subject = .ok id ∧ w.db.findUserById id ≠ none := by
  obtain ⟨token', subject, id, signed, known⟩ := h.user
  obtain rfl := Option.some.inj (bearer.symm.trans signed.bearer)
  exact ⟨subject, id, signed.verified, signed.parsed, known⟩

theorem found_answered {id : UUID} {user : User} {t : Instant}
    (h : Prog.Answered perform choices w [⟨.query (.findUserById id), .ok user⟩, ⟨.now, t⟩] w') :
    t = w.clock + (choices 0).tick ∧ w' = { w with clock := t } ∧ (choices 1).fault = .none ∧
      w.db.findUserById id = some user := by
  obtain ⟨time, world, ⟨quiet, found⟩ | ⟨-, lost⟩⟩ := user_answered h
  · exact ⟨time, world, quiet, oneRow_ok found⟩
  · cases lost

theorem event_answered {id : UUID} {user : User} {t : Instant} {r : Except DbError Event}
    (h : Prog.Answered perform choices w [⟨.query .getCurrentEvent, r⟩,
      ⟨.query (.findUserById id), .ok user⟩, ⟨.now, t⟩] w') :
    t = w.clock + (choices 0).tick ∧ w' = { w with clock := t } ∧ (choices 1).fault = .none ∧
      w.db.findUserById id = some user ∧
      ((choices 2).fault = .none ∧ r = oneRow w.db.getCurrentEvent ∨
        (choices 2).fault ≠ .none ∧ r = .error .failure) := by
  obtain ⟨w₁, before, current⟩ := h
  obtain ⟨time, rfl, quiet, found⟩ := found_answered before
  obtain ⟨rfl, answer⟩ := perform_reads rfl current
  exact ⟨time, rfl, quiet, found, answer⟩

/-- A request that its user is found for ends as its body and the current event say. -/
theorem create_handled {body : Option Events.CreateEventRequest}
    (route : req.route = .authorized (.createEvent body)) {token subject : String} {t : Instant}
    {id : UUID} (signed : Signed app req.authorization token t subject id) (user : User) :
    (Events.create (some user) body).run.Ensures (fun _ _ => True)
      (fun past result => Settles app w req choices past (written result))
      [⟨.query (.findUserById id), .ok user⟩, ⟨.now, t⟩] := by
  simp only [Events.create, ensures_run_bind, ensures_someOrThrow, ensures_throwIf,
    Events.ensures_refuseWhileRunning, reduceCtorEq, false_implies, true_and, Option.some.injEq,
    forall_eq']
  have known : ∀ {user : User}, w.db.findUserById id = some user → w.db.hasUser user.id = true := by
    intro user found
    exact List.any_eq_true.mpr ⟨user, List.mem_of_find?_eq_some found, by simp⟩
  refine ⟨?_, fun request given => ⟨?_, fun ordered => ⟨?_, ?_, fun event t' => ⟨?_, ?_⟩⟩⟩⟩
  · rintro rfl
    refine settles_refused fun w' answered => ?_
    obtain ⟨-, rfl, -, -⟩ := found_answered answered
    refine ⟨rfl, fun body' through => ?_⟩
    cases route.symm.trans through.route
  · refine fun unordered => settles_refused fun w' answered => ?_
    obtain ⟨-, rfl, -, -⟩ := found_answered answered
    refine ⟨rfl, fun body' through => ?_⟩
    subst given
    cases route.symm.trans through.route
    exact unordered through.ordered
  · refine AtInsert.settles fun w' answered => ?_
    obtain ⟨rfl, rfl, quiet, found, ⟨quiet', none⟩ | ⟨-, lost⟩⟩ := event_answered answered
    · have empty := (oneRow_error none).2
      refine ⟨(if_pos empty).symm, rfl, known found, ?_⟩
      exact ⟨by rw [route, given], ⟨token, subject, id, signed, by rw [found]; simp⟩,
        not_not.mp ordered, ⟨quiet, quiet'⟩, by simp [empty]⟩
    · cases lost
  · refine fun err other => settles_refused fun w' answered => ?_
    obtain ⟨-, rfl, -, -, ⟨-, none⟩ | ⟨faulty, -⟩⟩ := event_answered answered
    · exact absurd (oneRow_error none).1 other
    · exact ⟨rfl, fun body' through => faulty through.answered.2⟩
  · refine fun running => settles_refused fun w' answered => ?_
    obtain ⟨w₁, before, clock⟩ := answered
    obtain ⟨rfl, rfl, -, -, ⟨-, current⟩ | ⟨-, lost⟩⟩ := event_answered before
    · obtain ⟨rfl, rfl⟩ := Prod.mk.inj (Option.some.inj clock)
      exact ⟨rfl, fun body' through => running (through.free event (oneRow_ok current))⟩
    · cases lost
  · refine fun ended => AtInsert.settles fun w' answered => ?_
    obtain ⟨w₁, before, clock⟩ := answered
    obtain ⟨rfl, rfl, quiet, found, ⟨quiet', current⟩ | ⟨-, lost⟩⟩ := event_answered before
    · obtain ⟨rfl, rfl⟩ := Prod.mk.inj (Option.some.inj clock)
      have present := oneRow_ok current
      refine ⟨(if_neg (by rw [present]; simp)).symm, rfl, known found, ?_⟩
      refine ⟨by rw [route, given], ⟨token, subject, id, signed, by rw [found]; simp⟩,
        not_not.mp ordered, ⟨quiet, quiet'⟩, ?_⟩
      rw [present]
      rintro _ ⟨⟩
      exact ended
    · cases lost

theorem create_settles {body : Option Events.CreateEventRequest}
    (route : req.route = .authorized (.createEvent body)) :
    (serve app req).Ensures (fun _ _ => True) (Settles app w req choices) [] := by
  refine ensures_authorized route
    { noToken := ?_
      rejected := ?_
      badSubject := ?_
      notFound := ?_
      handled := ?_ }
  · refine fun none => settles_refused fun w' answered => ?_
    refine ⟨congrArg World.db answered, fun body' through => ?_⟩
    obtain ⟨token, _, _, signed, -⟩ := through.user
    cases none.symm.trans signed.bearer
  · refine fun token t err bearer rejected => settles_refused fun w' answered => ?_
    obtain ⟨rfl, rfl⟩ := clock_answered answered
    refine ⟨rfl, fun body' through => ?_⟩
    obtain ⟨subject, id, verified, -⟩ := through.signed bearer
    cases rejected.symm.trans verified
  · refine fun token t subject err bearer verified bad => settles_refused fun w' answered => ?_
    obtain ⟨rfl, rfl⟩ := clock_answered answered
    refine ⟨rfl, fun body' through => ?_⟩
    obtain ⟨subject', id, verified', parsed, -⟩ := through.signed bearer
    obtain rfl := Except.ok.inj (verified.symm.trans verified')
    cases bad.symm.trans parsed
  · refine fun {token t subject id} signed err => settles_refused fun w' answered => ?_
    obtain ⟨rfl, rfl, ⟨quiet, missing⟩ | ⟨faulty, -⟩⟩ := user_answered answered
    · refine ⟨rfl, fun body' through => ?_⟩
      obtain ⟨subject', id', verified, parsed, known⟩ := through.signed signed.bearer
      obtain rfl := Except.ok.inj (signed.verified.symm.trans verified)
      obtain rfl := Except.ok.inj (signed.parsed.symm.trans parsed)
      exact known (oneRow_error missing).2
    · exact ⟨rfl, fun body' through => faulty through.answered.1⟩
  · exact fun {token t subject id} signed user => create_handled route signed user

/-- A Create that is not answered with its event has changed nothing exactly if it was not interrupted
after its insert. -/
theorem create_all_or_nothing_iff {body : Option Events.CreateEventRequest} {response : Response}
    (route : req.route = .authorized (.createEvent body))
    (h : visit app w req choices = some (response, w')) :
    (response.status ≠ 201 → Unstarted w w') ↔ ¬∃ body, Interrupted app w req choices body := by
  obtain ⟨past, leads, answered⟩ := Prog.run_answered h
  exact (create_settles route).at_done leads w' answered

/-- The `n`-th call fails before it does anything. -/
private def sampleBreak (n : Nat) : Nat → Choice := fun k =>
  { sampleChoice 1 7 1 with fault := if k = n then .before else .none }

theorem create_all_or_nothing_sample : ∃ response w',
    visit sampleApp sampleWorld (sampleCreate 0 10) (sampleBreak 3) = some (response, w') ∧
    ((response.status ≠ 201 → Unstarted sampleWorld w') ↔
      ¬∃ body, Interrupted sampleApp sampleWorld (sampleCreate 0 10) (sampleBreak 3) body) := by
  have h : visit sampleApp sampleWorld (sampleCreate 0 10) (sampleBreak 3) =
      some (writeErrorFromString 500 "failed to create event",
        { sampleWorld with clock := 1000000000 }) := by
    decide +kernel
  exact ⟨_, _, h, create_all_or_nothing_iff rfl h⟩

/-- The user is told that the event did not start, and then that it has not ended. -/
theorem create_interrupted : ∃ w' w'',
    visit sampleApp sampleWorld (sampleCreate 0 10) (sampleBreak 4) =
      some (writeErrorFromString 500 "failed to set active event", w') ∧
    ¬Unstarted sampleWorld w' ∧
    visit sampleApp w' (sampleCreate 0 10) (sampleBreak 9) =
      some (writeErrorFromString 409 "the current event has not ended yet", w'') := by
  let w' : World := { sampleWorld with
    db := { sampleWorld.db with events := [⟨7, "Italy Trip", 0, 10000000000, 1, some 1⟩] }
    clock := 1000000000 }
  have started : ¬Unstarted sampleWorld w' := not_unstarted rfl
  exact ⟨w', { w' with clock := 3000000000 }, by decide +kernel, started, by decide +kernel⟩

end ItalyTrip
