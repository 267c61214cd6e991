import ItalyTrip.EventGuards

namespace ItalyTrip

open Calls

/-- The events with `ends_at > now`. -/
def unfinished (w : World) : List Event := w.db.events.filter fun e => decide (w.clock < e.endsAt)

theorem mem_unfinished {w : World} {event : Event} :
    event ∈ unfinished w ↔ event ∈ w.db.events ∧ ¬ event.IsOver w.clock := by
  simp [unfinished, Event.IsOver]

/-- At most one event is unfinished, and no event was created after it. -/
def NewestUnfinished (w : World) : Prop :=
  (unfinished w).length ≤ 1 ∧
    ∀ event ∈ unfinished w, ∀ other ∈ w.db.events, other.createdAt ≤ event.createdAt

/-- The database's clock does not run backwards: a new row is stamped no earlier than the others. -/
def StampedInOrder : Pool.Condition Reply World Request := fun w x =>
  ∀ row ∈ x.after.db.events, row ∉ w.db.events → ∀ other ∈ w.db.events, other.createdAt ≤ row.createdAt

/-- When a row is inserted, every other row created since the one its request has checked is over. -/
def CheckStillHolds : Pool.Condition Reply World Request := fun w x =>
  x.after.db.events ≠ w.db.events → ∀ event ∈ w.db.events,
    (∀ seen ∈ seenEvents x.past, seen.createdAt ≤ event.createdAt ∧ seen ≠ event) →
      event.IsOver w.clock

/-- No row is inserted while another event is running. -/
def InsertsWhenOver : Pool.Condition Reply World Request := fun w x =>
  x.after.db.events ≠ w.db.events → ∀ event ∈ w.db.events, event.IsOver w.clock

instance (w : World) (x : Pool.Event Reply World Request) : Decidable (StampedInOrder w x) :=
  inferInstanceAs (Decidable (∀ row ∈ x.after.db.events, _ → _))

instance (w : World) (x : Pool.Event Reply World Request) : Decidable (CheckStillHolds w x) :=
  inferInstanceAs (Decidable (_ → _))

/-- What a request has read of the events table and the clock. -/
structure HasRead (past : Past Reply) (w : World) : Prop where
  events : ∀ event ∈ seenEvents past, event ∈ w.db.events
  times : ∀ t : Instant, ⟨.now, t⟩ ∈ past → t ≤ w.clock

def EventsGrow (w w' : World) : Prop := w.db.events ⊆ w'.db.events ∧ w.clock ≤ w'.clock

theorem HasRead.grow {past : Past Reply} {w w' : World} (h : HasRead past w)
    (grow : EventsGrow w w') : HasRead past w' :=
  ⟨fun event he => grow.1 (h.events event he),
    fun t ht => Int.le_trans (h.times t ht) grow.2⟩

theorem perform_grow {o : Choice} {w w' : World} {c : Call} {r : Reply c}
    (h : perform o w c = some (r, w')) : EventsGrow w w' := by
  refine ⟨?_, perform_clock h⟩
  rcases perform_events h with same | ⟨_, row, _, hdb, _⟩
  · rw [same]
    exact List.Subset.refl _
  · rw [hdb]
    exact List.subset_append_left _ _

theorem HasRead.step {past : Past Reply} {o : Choice} {w w' : World} {c : Call} {r : Reply c}
    (h : HasRead past w) (hp : perform o w c = some (r, w')) : HasRead (⟨c, r⟩ :: past) w' := by
  have old := h.grow (perform_grow hp)
  refine ⟨?_, ?_⟩
  · intro event he
    unfold seenEvents at he
    split at he
    next => simp at he
    next e past' heq =>
      cases heq
      rcases List.mem_cons.mp he with rfl | he
      · rcases (perform_query hp).2 with ⟨hr, _⟩ | ⟨hr, _⟩
        · refine (perform_grow hp).1 ?_
          cases hcur : w.db.getCurrentEvent with
          | none => simp [Database.exec, hcur, oneRow] at hr
          | some e =>
            simp only [Database.exec, hcur, oneRow, Except.ok.injEq] at hr
            rw [hr]
            exact List.argmax_mem hcur
        · cases hr
      · exact old.events event he
    next x past' _ heq =>
      cases heq
      exact old.events event he
  · intro t hm
    rcases List.mem_cons.mp hm with hm | hm
    · cases hm
      exact Int.le_of_eq (perform_now hp).1
    · exact old.times t hm

theorem unfinished_sublist {w w' : World} (same : w'.db.events = w.db.events)
    (le : w.clock ≤ w'.clock) : (unfinished w').Sublist (unfinished w) := by
  unfold unfinished
  rw [same]
  refine List.monotone_filter_right _ fun e he => ?_
  simp only [decide_eq_true_eq] at he ⊢
  exact Int.lt_of_le_of_lt le he

theorem NewestUnfinished.later {w w' : World} (h : NewestUnfinished w)
    (same : w'.db.events = w.db.events) (le : w.clock ≤ w'.clock) : NewestUnfinished w' := by
  have sub := unfinished_sublist same le
  refine ⟨Nat.le_trans sub.length_le h.1, fun event he other ho => ?_⟩
  exact h.2 event (sub.subset he) other (same ▸ ho)

/-- The insert of a request whose check still holds finds every event over. -/
theorem over_at_insert {past : Past Reply} {w w' : World} {arg : CreateEventParams}
    {req : Request} {r : Reply (.query (.createEvent arg))} (newest : NewestUnfinished w)
    (read : HasRead past w) (seen : SeenOver past)
    (holds : CheckStillHolds w ⟨req, past, .query (.createEvent arg), r, w'⟩)
    (inserted : w'.db.events ≠ w.db.events) : ∀ event ∈ w.db.events, event.IsOver w.clock := by
  intro event he
  by_contra running
  have running' : event ∈ unfinished w := mem_unfinished.mpr ⟨he, running⟩
  refine running (holds inserted event he fun s hs => ⟨?_, ?_⟩)
  · exact newest.2 event running' s (read.events s hs)
  · rintro rfl
    obtain ⟨t, ht, ended⟩ := seen s hs
    exact running (ended.mono (read.times t ht))

theorem NewestUnfinished.insert {w w' : World} {row : Event}
    (ended : ∀ event ∈ w.db.events, event.IsOver w.clock)
    (added : w'.db.events = w.db.events ++ [row]) (le : w.clock ≤ w'.clock)
    (stamped : row ∉ w.db.events → ∀ other ∈ w.db.events, other.createdAt ≤ row.createdAt) :
    NewestUnfinished w' := by
  have ended' : ∀ event ∈ w.db.events, event.IsOver w'.clock := fun e he => (ended e he).mono le
  have none : w.db.events.filter (fun e => decide (w'.clock < e.endsAt)) = [] := by
    refine List.filter_eq_nil_iff.mpr fun e he => ?_
    simpa [Event.IsOver] using ended' e he
  refine ⟨?_, ?_⟩
  · unfold unfinished
    rw [added, List.filter_append, none, List.nil_append]
    exact List.length_filter_le _ _
  · intro event he other ho
    obtain ⟨hmem, running⟩ := mem_unfinished.mp he
    rw [added] at hmem ho
    rcases List.mem_append.mp hmem with hmem | hmem
    · exact absurd (ended' event hmem) running
    · obtain rfl := List.mem_singleton.mp hmem
      rcases List.mem_append.mp ho with ho | ho
      · by_cases hold : event ∈ w.db.events
        · exact absurd (ended' event hold) running
        · exact stamped hold other ho
      · rw [List.mem_singleton.mp ho]

variable {app : Application}

/-- What every exchange keeps while requests check and insert in any order. -/
theorem create_rules (app : Application) :
    Pool.Local (server app) (fun w x => StampedInOrder w x ∧ CheckStillHolds w x) NewestUnfinished
      EventsGrow (fun _ => HasRead) where
  arrive _ _ _ := ⟨fun _ h => absurd h List.not_mem_nil, fun _ h => absurd h List.not_mem_nil⟩
  act := by
    intro req past c next o r w w' leads newest read hp may
    change perform o w c = some (r, w') at hp
    refine ⟨?_, perform_grow hp, read.step hp⟩
    rcases perform_events hp with same | ⟨arg, row, rfl, hdb, _⟩
    · exact newest.later same (perform_clock hp)
    · have added : w'.db.events = w.db.events ++ [row] := by rw [hdb]
      have inserted : w'.db.events ≠ w.db.events := by simp [added]
      obtain ⟨_, _, seen⟩ := (serve_create req).at_call leads arg rfl
      refine NewestUnfinished.insert (over_at_insert newest read seen may.2 inserted) added
        (perform_clock hp) fun hrow => may.1 row ?_ hrow
      rw [added]
      exact List.mem_append_right _ (List.mem_singleton_self _)
  env := by
    intro ticks w newest
    have le : w.clock ≤ w.clock + (ticks : Int) := Int.le_add_of_nonneg_right (Int.natCast_nonneg _)
    exact ⟨newest.later rfl le, List.Subset.refl _, le⟩
  stable _ _ _ _ grow read := read.grow grow

/-- In every run whose inserts find their check still holding, at most one event is ever unfinished
and no row is inserted while another event is running. -/
theorem one_unfinished {w : World} {actions : List (ServerAction)}
    (start : NewestUnfinished w) (stamped : Pool.RunMeets (server app) StampedInOrder ⟨w, []⟩ actions)
    (checked : Pool.RunMeets (server app) CheckStillHolds ⟨w, []⟩ actions) :
    (unfinished (Pool.exec (server app) ⟨w, []⟩ actions).world).length ≤ 1 ∧
      Pool.RunMeets (server app) InsertsWhenOver ⟨w, []⟩ actions := by
  have meets := Pool.runMeets_and stamped checked
  have good := Pool.good_init (m := server app) (L := fun _ => HasRead) start
  refine ⟨((create_rules app).exec good meets).world.1, ?_⟩
  refine (create_rules app).runMeets ?_ good meets
  intro req past c next o r w w' leads newest read hp may inserted
  rcases perform_events hp with same | ⟨arg, row, rfl, _, _⟩
  · exact absurd same inserted
  · obtain ⟨_, _, seen⟩ := (serve_create req).at_call leads arg rfl
    exact over_at_insert newest read seen may.2 inserted

private def sampleStart : ServerPool := ⟨sampleWorld, []⟩

/-- Both requests look for a running event before either inserts its own. -/
private def sampleOverlap : List (ServerAction) :=
  let now := sampleChoice 1 0 0
  [.arrive (sampleCreate 0 60), .arrive (sampleCreate 0 90), .act 0 now, .act 0 now, .act 0 now,
    .act 1 now, .act 1 now, .act 1 now, .act 0 (sampleChoice 1 7 1), .act 1 (sampleChoice 1 8 2)]

theorem creates_overlap : NewestUnfinished sampleWorld ∧
    Pool.RunMeets (server sampleApp) StampedInOrder sampleStart sampleOverlap ∧
    (unfinished (sampleStart.exec (server sampleApp) sampleOverlap).world).length = 2 := by
  refine ⟨⟨by decide, fun e he => by simp [unfinished, sampleWorld] at he⟩, ?_, ?_⟩
  · decide +kernel
  · decide +kernel

/-- The second request checks after the first event is over. -/
private def sampleSequence : List (ServerAction) :=
  let now := sampleChoice 1 0 0
  [.arrive (sampleCreate 0 60), .act 0 now, .act 0 now, .act 0 now, .act 0 (sampleChoice 1 7 1),
    .env 70000000000, .arrive (sampleCreate 70 90), .act 1 now, .act 1 now, .act 1 now, .act 1 now,
    .act 1 (sampleChoice 1 8 2)]

theorem one_unfinished_sequence :
    (unfinished (sampleStart.exec (server sampleApp) sampleSequence).world).length = 1 ∧
    (unfinished (sampleStart.exec (server sampleApp) sampleSequence).world).length ≤ 1 ∧
    Pool.RunMeets (server sampleApp) InsertsWhenOver sampleStart sampleSequence := by
  refine ⟨by decide +kernel, one_unfinished ⟨by decide, ?_⟩ ?_ ?_⟩
  · exact fun e he => by simp [unfinished, sampleWorld] at he
  · decide +kernel
  · decide +kernel

end ItalyTrip
