import ItalyTrip.EventGuards

namespace ItalyTrip

open Calls

variable {app : Application} {past : Past Reply}

theorem unlocked_exposes {f : Event → Handler Response} (clean : NoCreate past)
    (writes : ∀ event past, WritesOnly [] (f event).run past) :
    (Photos.requireUnlocked >>= f).run.Ensures (fun _ _ => True)
      (fun past result => ExposureAllowed past (written result)) past := by
  simp only [ensures_run_bind, Photos.ensures_requireUnlocked, true_and]
  refine ⟨fun err => ?_, fun event t => ⟨fun _ => ?_, fun ended => ?_⟩⟩
  · cases err <;> simp [ExposureAllowed, written, Photos.loadError]
  · simp [ExposureAllowed, written, Photos.lockedResponse]
  · have clean' : NoCreate (Photos.readEvent event t past) :=
      (clean.cons (by simp [Query.writes])).cons (by simp)
    exact (unlocked_keeps (writes event _) clean' (sawOver_readEvent ended)).mono
      (fun _ _ h => h) fun _ _ h _ => h

theorem exposes_code {status : Nat} {message : String} {code : Option String} :
    Response.exposes ⟨status, .error message code, none⟩ = false := rfl

@[simp] theorem exposes_upload {status : Nat} {response : UploadResponse} :
    Response.exposes ⟨status, .upload response, none⟩ = false := rfl

@[simp] theorem exposes_event {status : Nat} {response : EventResponse} :
    Response.exposes ⟨status, .event response, none⟩ = false := rfl

@[simp] theorem exposes_user {status : Nat} {response : UserResponse} :
    Response.exposes ⟨status, .user response, none⟩ = false := rfl

@[simp] theorem exposes_auth {status : Nat} {token : String} {user : UserResponse} :
    Response.exposes ⟨status, .auth token user, none⟩ = false := rfl

@[simp] theorem exposes_withCookie {response : Response} {cookie : Option SetCookie} :
    Response.exposes { response with cookie } = response.exposes := rfl

theorem refusal_exposes {response : Response} (h : Photos.Refusal response) :
    response.exposes = false := by
  obtain ⟨status, message, rfl, _⟩ := h
  rfl

/-- Results that expose nothing. -/
abbrev Silent (p : Handler Response) (past : Past Reply) : Prop :=
  p.run.Ensures (fun _ _ => True) (fun _ result => (written result).exposes = false) past

theorem savePhoto_silent {event : Event} {user : User} {form : Photos.UploadForm}
    {original : Bytes} {thumb : Images.Thumb} :
    Silent (Photos.savePhoto event user form original thumb) past := by
  simp [Photos.savePhoto, forall_except, Photos.saveFailed]

theorem upload_silent {context : Option User} {req : UploadRequest} :
    Silent (Photos.upload app context req) past :=
  Photos.ensures_upload.mpr
    { notLoaded := fun err => by cases err <;> simp [Photos.loadError]
      ended := fun _ _ _ => by simp [Photos.overResponse]
      anonymous := fun _ _ _ _ => by simp
      badForm := fun _ _ _ _ _ response h =>
        refusal_exposes (Photos.readForm_refuses app req response h)
      stored := fun _ _ => by simp
      notLooked := fun _ _ _ => by simp [Photos.existsFailed]
      badImage := fun _ response h => refusal_exposes (Photos.readImage_refuses app _ response h)
      save := fun _ _ _ => savePhoto_silent }

theorem session_silent {user : User} : Silent (Users.session app user) past := by
  simp [Users.session, Users.issueRefreshToken, issue, Users.tokenFailed, Users.refreshFailed]

theorem login_silent {body : Except String LoginRequest} : Silent (Users.login app body) past := by
  simp only [Users.login, Silent, ensures_run_bind, ensures_orThrow, ensures_request,
    ensures_throwIf, true_and]
  refine ⟨fun _ _ => by simp, fun req _ found => ⟨fun err _ => ?_, fun user _ => ?_⟩⟩
  · cases err <;> simp
  · exact ⟨fun _ => by simp, fun _ => session_silent⟩

theorem refresh_silent {cookie : Option String} : Silent (Users.refresh app cookie) past :=
  Users.ensures_refresh
    { noCookie := fun _ => by simp
      notFound := fun err => by cases err <;> rfl
      reused := fun _ _ _ => rfl
      expired := fun _ _ _ _ => rfl
      notRevoked := fun _ _ _ => rfl
      notOwned := fun _ _ _ => rfl
      session := fun _ _ _ _ => session_silent }

/-- Photo bytes and URLs leave the server only after the guard has seen the current event over. -/
theorem authorized_exposes {user : User} {route : AuthorizedRoute} (clean : NoCreate past) :
    (route.handle app user).run.Ensures (fun _ _ => True)
      (fun past result => ExposureAllowed past (written result)) past := by
  have silent : ∀ {p : Handler Response}, Silent p past → p.run.Ensures (fun _ _ => True)
      (fun past result => ExposureAllowed past (written result)) past := by
    intro p h
    exact h.mono (fun _ _ h => h) fun _ _ h hexp => absurd hexp (by simp [h])
  cases route with
  | me => exact silent (by simp [Silent, AuthorizedRoute.handle, Users.me])
  | currentEvent =>
    refine silent ?_
    simp [Silent, AuthorizedRoute.handle, Events.current, forall_except]
    exact fun e => by cases e <;> rfl
  | createEvent body =>
    refine silent ?_
    simp [Silent, AuthorizedRoute.handle, Events.create, Events.startEvent]
  | uploadPhoto req => exact silent upload_silent
  | listPhotos =>
    refine unlocked_exposes clean fun event past => ?_
    simp [Query.writes]
    exact fun _ _ _ => signPhotos_writes _
  | downloadAll =>
    refine unlocked_exposes clean fun event past => ?_
    simp [Query.writes]
    exact fun _ _ _ => archive_writes _ _
  | originalPhoto id =>
    refine unlocked_exposes clean fun event past => ?_
    simp [Query.writes]

theorem serve_exposes (req : Request) :
    (serve app req).Ensures (fun _ _ => True) ExposureAllowed [] := by
  obtain ⟨header, cookie, route⟩ := req
  cases route with
  | login body =>
    rw [ensures_serve]
    exact login_silent.mono (fun _ _ h => h) fun _ _ h hexp => absurd hexp (by simp [h])
  | refresh =>
    rw [ensures_serve]
    exact refresh_silent.mono (fun _ _ h => h) fun _ _ h hexp => absurd hexp (by simp [h])
  | authorized route =>
    exact ensures_authorized rfl
      { noToken := fun _ => by simp [ExposureAllowed]
        rejected := fun _ _ err _ _ hexp => absurd hexp (by
          cases err <;> simp [authError, writeErrorWithCode, exposes_code])
        badSubject := fun _ _ _ _ _ _ _ => by simp [ExposureAllowed]
        notFound := fun _ _ => by simp [ExposureAllowed, userNotFound]
        handled := fun _ _ =>
          authorized_exposes ((noCreate_nil.cons (by simp)).cons (by simp [Query.writes])) }

/-- Every event but the newest one is over. -/
def OlderOver (w : World) : Prop := ∀ event ∈ w.db.events.dropLast, event.IsOver w.clock

def CreatedInOrder (db : Database) : Prop := db.events.Pairwise (·.createdAt < ·.createdAt)

/-- With creation times in order, the current event is the last row. -/
theorem getCurrentEvent_last {db : Database} (ordered : CreatedInOrder db) :
    db.getCurrentEvent = db.events.getLast? := by
  unfold CreatedInOrder at ordered
  unfold Database.getCurrentEvent
  rcases List.eq_nil_or_concat' db.events with h | ⟨events, event, h⟩
  · rw [h]
    rfl
  · rw [h] at ordered ⊢
    rw [List.argmax_concat, List.getLast?_concat]
    cases hmax : events.argmax Event.createdAt with
    | none => rfl
    | some older =>
      have hlt : older.createdAt < event.createdAt :=
        (List.pairwise_append.mp ordered).2.2 older (List.argmax_mem hmax) event (by simp)
      simp [hlt]

theorem allOver_of_last {w : World} {event : Event} (older : OlderOver w)
    (last : w.db.events.getLast? = some event) (ended : event.IsOver w.clock) :
    ∀ e ∈ w.db.events, e.IsOver w.clock := by
  rcases List.eq_nil_or_concat' w.db.events with h | ⟨events, newest, h⟩
  · simp [h]
  · unfold OlderOver at older
    rw [h, List.dropLast_concat] at older
    rw [h, List.getLast?_concat, Option.some.injEq] at last
    intro e he
    rw [h] at he
    rcases List.mem_append.mp he with he | he
    · exact older e he
    · rw [List.mem_singleton.mp he, last]
      exact ended

/-- What holds while one request is handled alone. -/
structure Alone (past : Past Reply) (w : World) : Prop where
  older : OlderOver w
  current : NoCreate past → ∀ event : Event, ⟨.query .getCurrentEvent, .ok event⟩ ∈ past →
    w.db.events.getLast? = some event
  empty : NoCreate past → SawNoEvent past → w.db.events = []
  time : ∀ t : Instant, ⟨.now, t⟩ ∈ past → t ≤ w.clock

theorem Alone.allOver {w : World} (alone : Alone past w) (clean : NoCreate past)
    (saw : SawOver past) : ∀ e ∈ w.db.events, e.IsOver w.clock := by
  obtain ⟨event, t, hevent, ht, ended⟩ := saw
  exact allOver_of_last alone.older (alone.current clean event hevent) (ended.mono (alone.time t ht))

/-- A call that adds no event. -/
theorem Alone.step {o : Choice} {w w' : World} {c : Call} {r : Reply c} (alone : Alone past w)
    (ordered : CreatedInOrder w.db) (h : perform o w c = some (r, w'))
    (same : w'.db.events = w.db.events) : Alone (⟨c, r⟩ :: past) w' := by
  have clock := perform_clock h
  have clean_tail : NoCreate (⟨c, r⟩ :: past) → NoCreate past :=
    fun clean arg r' hm => clean arg r' (List.mem_cons_of_mem _ hm)
  refine ⟨?_, ?_, ?_, ?_⟩
  · intro e he
    rw [same] at he
    exact (alone.older e he).mono clock
  · intro clean event hm
    rw [same]
    rcases List.mem_cons.mp hm with hm | hm
    · cases hm
      rcases (perform_query h).2 with ⟨hr, _⟩ | ⟨hr, _⟩
      · rw [← getCurrentEvent_last ordered]
        cases hcur : w.db.getCurrentEvent with
        | none => simp [Database.exec, hcur, oneRow] at hr
        | some e =>
          simp only [Database.exec, hcur, oneRow, Except.ok.injEq] at hr
          rw [hr]
      · cases hr
    · exact alone.current (clean_tail clean) event hm
  · intro clean hm
    rw [same]
    rcases List.mem_cons.mp hm with hm | hm
    · cases hm
      rcases (perform_query h).2 with ⟨hr, _⟩ | ⟨hr, _⟩
      · cases hcur : w.db.getCurrentEvent with
        | none => exact List.argmax_eq_none.mp hcur
        | some e => simp [Database.exec, hcur, oneRow] at hr
      · cases hr
    · exact alone.empty (clean_tail clean) hm
  · intro t hm
    rcases List.mem_cons.mp hm with hm | hm
    · cases hm
      exact Int.le_of_eq (perform_now h).1
    · exact Int.le_trans (alone.time t hm) clock

/-- The guard of `Create` keeps every older event over. -/
theorem Alone.create {o : Choice} {w w' : World} {c : Call} {r : Reply c} {row : Event}
    {arg : CreateEventParams} (alone : Alone past w) (hc : c = .query (.createEvent arg))
    (allowed : CreateAllowed past c) (h : perform o w c = some (r, w'))
    (added : w'.db.events = w.db.events ++ [row]) : Alone (⟨c, r⟩ :: past) w' := by
  have clock := perform_clock h
  obtain ⟨clean, saw, _⟩ := allowed arg hc
  have ended : ∀ e ∈ w.db.events, e.IsOver w.clock := by
    rcases saw with saw | saw
    · exact alone.allOver clean saw
    · simp [alone.empty clean saw]
  have dirty : ¬ NoCreate (⟨c, r⟩ :: past) := by
    subst hc
    exact fun clean => clean arg r List.mem_cons_self
  refine ⟨?_, fun clean => absurd clean dirty, fun clean => absurd clean dirty, ?_⟩
  · intro e he
    rw [added, List.dropLast_concat] at he
    exact (ended e he).mono clock
  · intro t hm
    rcases List.mem_cons.mp hm with hm | hm
    · cases hm
      exact Int.le_of_eq (perform_now h).1
    · exact Int.le_trans (alone.time t hm) clock

theorem CreatedInOrder.of_append {db : Database} {events : List Event} {row : Event}
    (h : db.events = events ++ [row]) (ordered : CreatedInOrder db) :
    events.Pairwise (·.createdAt < ·.createdAt) := by
  unfold CreatedInOrder at ordered
  rw [h] at ordered
  exact (List.pairwise_append.mp ordered).1

theorem visit_alone {w w' : World} {req : Request} {choices : Nat → Choice} {response : Response}
    (older : CreatedInOrder w.db → OlderOver w)
    (h : visit app w req choices = some (response, w')) :
    ∃ past, (serve app req).Leads past (.done response) ∧ (CreatedInOrder w'.db → Alone past w') := by
  refine Prog.run_invariant (I := fun past w => CreatedInOrder w.db → Alone past w) ?_ ?_ h
  · intro n past w c next r w' leads alone hp ordered
    rcases perform_events hp with same | ⟨arg, row, hc, hdb, _⟩
    · have ordered' : CreatedInOrder w.db := by
        unfold CreatedInOrder at ordered ⊢
        rwa [← same]
      exact (alone ordered').step ordered' hp same
    · have added : w'.db.events = w.db.events ++ [row] := by rw [hdb]
      exact (alone (ordered.of_append added)).create hc ((serve_create req).at_call leads) hp added
  · exact fun ordered => ⟨older ordered, fun _ _ hm => absurd hm List.not_mem_nil,
      fun _ hm => absurd hm List.not_mem_nil, fun _ hm => absurd hm List.not_mem_nil⟩

theorem visit_older {w w' : World} {req : Request} {choices : Nat → Choice} {response : Response}
    (older : CreatedInOrder w.db → OlderOver w)
    (h : visit app w req choices = some (response, w')) : CreatedInOrder w'.db → OlderOver w' := by
  obtain ⟨_, _, alone⟩ := visit_alone older h
  exact fun ordered => (alone ordered).older

/-- Starting with at most one event, photo bytes, keys and URLs leave the server only while every
photo's own event is over. -/
theorem lock_secrecy {w w₁ w₂ : World} {requests : List (Request × (Nat → Choice))} {req : Request}
    {choices : Nat → Choice} {response : Response} (valid : w.db.Valid)
    (single : w.db.events.length ≤ 1) (before : visits app w requests = some w₁)
    (answered : visit app w₁ req choices = some (response, w₂)) (ordered : CreatedInOrder w₂.db)
    (exposes : response.exposes = true) :
    ∀ photo ∈ w₂.db.photos, ∃ event ∈ w₂.db.events,
      event.id = photo.eventID ∧ event.endsAt ≤ w₂.clock := by
  have keepValid : ∀ o w (c : Call) (r : Reply c) w', w.db.Valid → perform o w c = some (r, w') →
      w'.db.Valid := fun _ _ _ _ _ hv hp => perform_valid hv hp
  have valid₁ : w₁.db.Valid :=
    visits_keeps (I := fun w => w.db.Valid) (fun _ _ _ _ _ hv h => visit_keeps keepValid hv h)
      valid before
  have valid₂ : w₂.db.Valid := visit_keeps keepValid valid₁ answered
  have older : CreatedInOrder w.db → OlderOver w := by
    intro _ event he
    have hnil : w.db.events.dropLast = [] := by
      rw [List.dropLast_eq_take]
      exact List.take_eq_nil_iff.mpr (Or.inl (by omega))
    rw [hnil] at he
    exact absurd he List.not_mem_nil
  have older₁ : CreatedInOrder w₁.db → OlderOver w₁ :=
    visits_keeps (I := fun w => CreatedInOrder w.db → OlderOver w)
      (fun _ _ _ _ _ hw h => visit_older hw h) older before
  obtain ⟨past, leads, alone⟩ := visit_alone older₁ answered
  obtain ⟨clean, saw⟩ := (serve_exposes req).at_done leads exposes
  intro photo hphoto
  obtain ⟨event, hevent, hid⟩ := Database.hasEvent_iff.mp (valid₂.photos_event photo hphoto)
  have ended := (alone ordered).allOver clean saw event hevent
  exact ⟨event, hevent, hid, Event.isOver_iff.mp ended⟩

/-- After the first event a second one is created, and a photo is uploaded to it. -/
private def sampleTrips : List (Request × (Nat → Choice)) :=
  sampleTrip ++ [(sampleCreate 14 30, fun _ => sampleChoice 5 12 2),
    (sampleUpload (uuidString 10), fun _ => sampleChoice 2 13 0)]

private def sampleTripsWorld : World := (visits sampleApp sampleWorld sampleTrips).getD sampleWorld

private def sampleAlbum : Option (Response × World) :=
  visit sampleApp sampleTripsWorld (sampleRequest .listPhotos) fun _ => sampleChoice 10 0 0

/-- The album opens after the end of the second event, with the photos of both in the table. -/
theorem lock_secrecy_album : ∃ response w₂, sampleAlbum = some (response, w₂) ∧
    response.exposes = true ∧ w₂.db.photos.map Photo.eventID = [7, 12] ∧
    ∀ photo ∈ w₂.db.photos, ∃ event ∈ w₂.db.events,
      event.id = photo.eventID ∧ event.endsAt ≤ w₂.clock := by
  have before : visits sampleApp sampleWorld sampleTrips = some sampleTripsWorld := by decide +kernel
  obtain ⟨⟨response, w₂⟩, answered⟩ := Option.isSome_iff_exists.mp
    (visit_isSome sampleApp sampleTripsWorld (sampleRequest .listPhotos) fun _ => sampleChoice 10 0 0)
  have facts : sampleAlbum.all (fun answer => answer.1.exposes &&
      decide (answer.2.db.photos.map Photo.eventID = [7, 12]) &&
      decide (answer.2.db.events.Pairwise (·.createdAt < ·.createdAt))) = true := by decide +kernel
  have album : sampleAlbum = some (response, w₂) := answered
  simp only [album, Option.all_some, Bool.and_eq_true, decide_eq_true_eq] at facts
  exact ⟨response, w₂, album, facts.1.1, facts.1.2,
    lock_secrecy sampleWorld_valid (by decide) before answered facts.2 facts.1.1⟩

end ItalyTrip
