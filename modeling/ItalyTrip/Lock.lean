import ItalyTrip.Handler

namespace ItalyTrip

namespace Photos

open Calls

def loadError : DbError → Response
  | .noRows => writeErrorFromString 404 "no event has been started yet"
  | _ => writeErrorFromString 500 "failed to load event"

def lockedResponse : Response := writeErrorFromString 423 "the event is not over yet"

def overResponse : Response :=
  writeErrorFromString 423 "the event is over; no more photos can be added"

def loadEvent : Handler Event := do
  let row ← call (.query .getCurrentEvent)
  orThrow row loadError

/-- The album guard. -/
def requireUnlocked : Handler Event := do
  let row ← loadEvent
  let time ← call .now
  throwIf (¬ row.IsOver time) lockedResponse
  return row

/-- The upload guard. -/
def requireRunning : Handler Event := do
  let row ← loadEvent
  let time ← call .now
  throwIf (row.IsOver time) overResponse
  return row

/-- The exchanges of a guard that found an event and read the clock. -/
abbrev readEvent (event : Event) (t : Instant) (past : Past Reply) : Past Reply :=
  ⟨.now, t⟩ :: ⟨.query .getCurrentEvent, .ok event⟩ :: past

variable {atCall : Past Reply → Call → Prop} {past : Past Reply}
  {atDone : Past Reply → Except Response Event → Prop}

@[simp] theorem ensures_loadEvent :
    loadEvent.run.Ensures atCall atDone past ↔ atCall past (.query .getCurrentEvent) ∧
      (∀ err, atDone (⟨.query .getCurrentEvent, .error err⟩ :: past) (.error (loadError err))) ∧
      ∀ event, atDone (⟨.query .getCurrentEvent, .ok event⟩ :: past) (.ok event) := by
  simp only [loadEvent, ensures_run_bind, ensures_request, ensures_orThrow, forall_except,
    Except.error.injEq, Except.ok.injEq, forall_eq', reduceCtorEq, false_implies, implies_true,
    and_true, true_and]

@[simp] theorem ensures_requireUnlocked :
    requireUnlocked.run.Ensures atCall atDone past ↔ atCall past (.query .getCurrentEvent) ∧
      (∀ err, atDone (⟨.query .getCurrentEvent, .error err⟩ :: past) (.error (loadError err))) ∧
      ∀ event : Event, atCall (⟨.query .getCurrentEvent, .ok event⟩ :: past) .now ∧ ∀ t : Instant,
        (¬ event.IsOver t → atDone (readEvent event t past) (.error lockedResponse)) ∧
        (event.IsOver t → atDone (readEvent event t past) (.ok event)) := by
  simp only [requireUnlocked, ensures_run_bind, ensures_loadEvent, ensures_request, ensures_throwIf,
    ensures_run_pure, not_not]

@[simp] theorem ensures_requireRunning :
    requireRunning.run.Ensures atCall atDone past ↔ atCall past (.query .getCurrentEvent) ∧
      (∀ err, atDone (⟨.query .getCurrentEvent, .error err⟩ :: past) (.error (loadError err))) ∧
      ∀ event : Event, atCall (⟨.query .getCurrentEvent, .ok event⟩ :: past) .now ∧ ∀ t : Instant,
        (event.IsOver t → atDone (readEvent event t past) (.error overResponse)) ∧
        (¬ event.IsOver t → atDone (readEvent event t past) (.ok event)) := by
  simp only [requireRunning, ensures_run_bind, ensures_loadEvent, ensures_request, ensures_throwIf,
    ensures_run_pure]

end Photos

end ItalyTrip
