import ItalyTrip.Handler

namespace ItalyTrip

namespace Events

open Calls

def defaultEventName : String := "Italy Trip"

structure CreateEventRequest where
  startsAt : Instant
  endsAt : Instant

def eventResponse (event : Event) (time : Instant) (photoCount : Nat) : EventResponse :=
  ⟨uuidString event.id, event.name, event.startsAt, event.endsAt, decide (event.IsOver time), photoCount⟩

def current : Handler Response := do
  let row ← call (.query .getCurrentEvent)
  let event ← orThrow row fun
    | .noRows => writeErrorFromString 404 "no event has been started yet"
    | _ => writeErrorFromString 500 "failed to load event"
  let counted ← call (.query (.countPhotos event.id))
  let count ← orThrow counted fun _ => writeErrorFromString 500 "failed to count photos"
  let time ← call .now
  return writeJSON 200 [event.startsAt, event.endsAt] (.event (eventResponse event time count))

/-- `Create` refuses while the current event runs; that there is no event yet is fine. -/
def refuseWhileRunning : Handler Unit := do
  let row ← call (.query .getCurrentEvent)
  match row with
  | .ok current =>
    let time ← call .now
    throwIf (¬ current.IsOver time) (writeErrorFromString 409 "the current event has not ended yet")
  | .error .noRows => return ()
  | .error _ => throw (writeErrorFromString 500 "failed to load current event")

variable {atCall : Past Reply → Call → Prop} {past : Past Reply}

@[simp] theorem ensures_refuseWhileRunning {atDone : Past Reply → Except Response Unit → Prop} :
    refuseWhileRunning.run.Ensures atCall atDone past ↔ atCall past (.query .getCurrentEvent) ∧
      atDone (⟨.query .getCurrentEvent, .error .noRows⟩ :: past) (.ok ()) ∧
      (∀ err, err ≠ .noRows → atDone (⟨.query .getCurrentEvent, .error err⟩ :: past)
        (.error (writeErrorFromString 500 "failed to load current event"))) ∧
      ∀ event : Event, atCall (⟨.query .getCurrentEvent, .ok event⟩ :: past) .now ∧ ∀ t : Instant,
        (¬ event.IsOver t → atDone (⟨.now, t⟩ :: ⟨.query .getCurrentEvent, .ok event⟩ :: past)
          (.error (writeErrorFromString 409 "the current event has not ended yet"))) ∧
        (event.IsOver t → atDone (⟨.now, t⟩ :: ⟨.query .getCurrentEvent, .ok event⟩ :: past)
          (.ok ())) := by
  simp only [refuseWhileRunning, ensures_run_bind, ensures_request, forall_except, ensures_throwIf,
    not_not]
  refine and_congr_right fun _ => ⟨?_, ?_⟩
  · rintro ⟨herr, hok⟩
    refine ⟨herr .noRows, fun err hne => ?_, hok⟩
    have h := herr err
    cases err with
    | noRows => exact absurd rfl hne
    | uniqueViolation => exact h
    | failure => exact h
  · rintro ⟨hnone, herr, hok⟩
    refine ⟨fun err => ?_, hok⟩
    cases err with
    | noRows => exact hnone
    | uniqueViolation => exact herr .uniqueViolation (by simp)
    | failure => exact herr .failure (by simp)

/-- Starting an event makes it the creator's active one. -/
def startEvent (user : User) (req : CreateEventRequest) : Handler Response := do
  let inserted ← call (.query (.createEvent ⟨defaultEventName, req.startsAt, req.endsAt, user.id⟩))
  let created ← orThrow inserted fun _ => writeErrorFromString 500 "failed to create event"
  let activated ← call (.query (.setActiveEvent user.id created.id))
  orThrow activated fun _ => writeErrorFromString 500 "failed to set active event"
  let time ← call .now
  return writeJSON 201 [created.startsAt, created.endsAt] (.event (eventResponse created time 0))

/-- `body` is what binding the JSON body gives. -/
def create (context : Option User) (body : Option CreateEventRequest) : Handler Response := do
  let user ← someOrThrow context (writeErrorFromString 401 "not authenticated")
  let req ← someOrThrow body (writeErrorFromString 400 "invalid request body")
  throwIf (¬ req.startsAt < req.endsAt) (writeErrorFromString 400 "ends_at must be after starts_at")
  refuseWhileRunning
  startEvent user req

end Events

end ItalyTrip
