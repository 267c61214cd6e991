import ItalyTrip.Frames

namespace ItalyTrip

open Calls

/-- The response carries photo bytes or presigned URLs. -/
def Response.exposes (response : Response) : Bool :=
  match response.body with
  | .album _ | .attachment _ _ _ _ | .zip _ _ => true
  | _ => false

/-- The request has not tried to create an event yet. -/
def NoCreate (past : Past Reply) : Prop := ∀ arg r, ⟨.query (.createEvent arg), r⟩ ∉ past

/-- The request has seen the current event and a time at which it was over. -/
def SawOver (past : Past Reply) : Prop :=
  ∃ (event : Event) (t : Instant), ⟨.query .getCurrentEvent, .ok event⟩ ∈ past ∧
    ⟨.now, t⟩ ∈ past ∧ event.IsOver t

/-- The current events a request has read. -/
def seenEvents : Past Reply → List Event
  | [] => []
  | ⟨.query .getCurrentEvent, .ok event⟩ :: past => event :: seenEvents past
  | _ :: past => seenEvents past

/-- Every event the request has read was over at a time it read. -/
def SeenOver (past : Past Reply) : Prop :=
  ∀ event ∈ seenEvents past, ∃ t : Instant, ⟨.now, t⟩ ∈ past ∧ event.IsOver t

def SawNoEvent (past : Past Reply) : Prop := ⟨.query .getCurrentEvent, .error .noRows⟩ ∈ past

def CreateAllowed (past : Past Reply) (c : Call) : Prop :=
  ∀ arg, c = .query (.createEvent arg) →
    NoCreate past ∧ (SawOver past ∨ SawNoEvent past) ∧ SeenOver past

def ExposureAllowed (past : Past Reply) (response : Response) : Prop :=
  response.exposes = true → NoCreate past ∧ SawOver past

theorem noCreate_nil : NoCreate [] := fun _ _ => List.not_mem_nil

theorem NoCreate.cons {past : Past Reply} {c : Call} {r : Reply c} (h : NoCreate past)
    (hc : Within [] c) : NoCreate (⟨c, r⟩ :: past) := by
  intro arg r' hm
  rcases List.mem_cons.mp hm with hm | hm
  · obtain rfl : Call.query (.createEvent arg) = c := congrArg Sigma.fst hm
    simp [Query.writes] at hc
  · exact h arg r' hm

theorem SawOver.cons {past : Past Reply} {x : Sigma Reply} (h : SawOver past) :
    SawOver (x :: past) := by
  obtain ⟨event, t, hevent, ht, hover⟩ := h
  exact ⟨event, t, List.mem_cons_of_mem _ hevent, List.mem_cons_of_mem _ ht, hover⟩

theorem sawOver_readEvent {past : Past Reply} {event : Event} {t : Instant} (h : event.IsOver t) :
    SawOver (Photos.readEvent event t past) :=
  ⟨event, t, List.mem_cons_of_mem _ List.mem_cons_self, List.mem_cons_self, h⟩

@[simp] theorem writeError_exposes {status : Nat} {message : String} :
    (writeErrorFromString status message).exposes = false := rfl

@[simp] theorem writeJSON_exposes {status : Nat} {times : List Instant} {body : Body} :
    (writeJSON status times body).exposes =
      (times.all jsonTime && Response.exposes ⟨status, body, none⟩) := by
  unfold writeJSON
  split
  next h => simp [h, Response.exposes]
  next h => simp [h, Response.exposes]

variable {app : Application} {past : Past Reply}

/-- An event is created only by a request that found no event or one that was over. -/
theorem create_allowed {context : Option User} {body : Option Events.CreateEventRequest}
    (clean : NoCreate past) (unseen : seenEvents past = []) :
    (Events.create context body).run.Ensures CreateAllowed (fun _ _ => True) past := by
  have start : ∀ {past : Past Reply} {user req},
      NoCreate past ∧ (SawOver past ∨ SawNoEvent past) ∧ SeenOver past →
      (Events.startEvent user req).run.Ensures CreateAllowed (fun _ _ => True) past := by
    intro past user req h
    simp only [Events.startEvent, ensures_run_bind, ensures_request, ensures_orThrow,
      ensures_run_pure, implies_true, and_true, true_and]
    refine ⟨fun _ _ => h, ?_⟩
    simp [CreateAllowed]
  simp only [Events.create, ensures_run_bind, ensures_someOrThrow, ensures_throwIf,
    Events.ensures_refuseWhileRunning, implies_true, true_and]
  intro user _ req _ _
  refine ⟨by simp [CreateAllowed], ?_, fun event => ⟨by simp [CreateAllowed], fun t ended => ?_⟩⟩
  · refine start ⟨clean.cons (by simp [Query.writes]), Or.inr List.mem_cons_self, ?_⟩
    simp [SeenOver, seenEvents, unseen]
  · refine start ⟨(clean.cons (by simp [Query.writes])).cons (by simp),
      Or.inl (sawOver_readEvent ended), ?_⟩
    intro e he
    simp only [seenEvents, unseen, List.mem_singleton] at he
    exact ⟨t, List.mem_cons_self, he ▸ ended⟩

theorem serve_create (req : Request) :
    (serve app req).Ensures CreateAllowed (fun _ _ => True) [] := by
  by_cases hw : Table.events ∈ req.route.writes
  · obtain ⟨header, cookie, route⟩ := req
    cases route with
    | login body => simp [Route.writes] at hw
    | refresh => simp [Route.writes] at hw
    | authorized route =>
      cases route with
      | createEvent body =>
        exact ensures_authorized rfl
          { clock := by simp [CreateAllowed]
            lookup := fun _ => by simp [CreateAllowed]
            handled := fun _ _ => create_allowed
              ((noCreate_nil.cons (by simp)).cons (by simp [Query.writes])) rfl }
      | _ => simp [Route.writes] at hw
  · refine (serve_writes req).mono (fun past c hc arg heq => ?_) fun _ _ h => h
    subst heq
    simp only [within_query, Query.writes, List.cons_subset] at hc
    exact absurd hc.1 hw

/-- What an unlocked handler does after its guard keeps what the guard saw. -/
theorem unlocked_keeps {α : Type} {p : Handler α} (writes : WritesOnly [] p.run past)
    (clean : NoCreate past) (ended : SawOver past) :
    p.run.Ensures (fun _ _ => True) (fun past _ => NoCreate past ∧ SawOver past) past := by
  refine (writes.keeps (K := fun past => NoCreate past ∧ SawOver past) ?_ ⟨clean, ended⟩).mono
    (fun _ _ _ => trivial) fun _ _ h => h
  exact fun past c r hc h => ⟨h.1.cons hc, h.2.cons⟩

end ItalyTrip
