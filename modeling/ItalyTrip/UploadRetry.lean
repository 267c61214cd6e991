import ItalyTrip.Frames

namespace ItalyTrip

open Calls

/-- The answer of a reading query. -/
def Database.read (db : Database) (q : Query) : Except DbError q.Row := (db.exec ⟨0, 0⟩ 0 q).1

/-- Every reading query so far was answered from these tables. -/
def AnsweredFrom (db : Database) (past : Past Reply) : Prop :=
  ∀ q r, ⟨.query q, r⟩ ∈ past → q.writes = [] → r = db.read q

def Reading (c : Call) : Prop := c = .now ∨ ∃ q, c = .query q ∧ q.writes = []

/-- The clock as last read. -/
def lastTime : Past Reply → Option Instant
  | [] => none
  | ⟨.now, t⟩ :: _ => some t
  | _ :: past => lastTime past

theorem AnsweredFrom.tail {db : Database} {past : Past Reply} {x : Sigma Reply}
    (h : AnsweredFrom db (x :: past)) : AnsweredFrom db past :=
  fun q r hm => h q r (List.mem_cons_of_mem _ hm)

theorem AnsweredFrom.head {db : Database} {past : Past Reply} {q : Query} {r : Except DbError q.Row}
    (h : AnsweredFrom db (⟨.query q, r⟩ :: past)) (hq : q.writes = []) : r = db.read q :=
  h q r List.mem_cons_self hq

/-- The world of a request that has only read so far. -/
structure Untouched (w₀ : World) (past : Past Reply) (w : World) : Prop where
  db : w.db = w₀.db
  bucket : w.bucket = w₀.bucket
  answered : AnsweredFrom w₀.db past
  times : ∀ t : Instant, ⟨.now, t⟩ ∈ past → w₀.clock ≤ t ∧ t ≤ w.clock
  last : ∀ t, lastTime past = some t → t = w.clock
  later : w₀.clock ≤ w.clock

theorem Untouched.step {w₀ w w' : World} {past : Past Reply} {c : Call} {r : Reply c} {o : Choice}
    (h : Untouched w₀ past w) (reading : Reading c) (quiet : o.fault = .none)
    (hp : perform o w c = some (r, w')) : Untouched w₀ (⟨c, r⟩ :: past) w' := by
  rcases reading with rfl | ⟨q, rfl, hq⟩
  · obtain ⟨ht, hle, hw⟩ := perform_now hp
    refine ⟨by rw [hw]; exact h.db, by rw [hw]; exact h.bucket, ?_, ?_, ?_, Int.le_trans h.later hle⟩
    · intro q r' hm hq
      rcases List.mem_cons.mp hm with hm | hm
      · cases hm
      · exact h.answered q r' hm hq
    · intro t hm
      rcases List.mem_cons.mp hm with hm | hm
      · cases hm
        exact ⟨Int.le_trans h.later (ht ▸ hle), Int.le_of_eq ht⟩
      · exact ⟨(h.times t hm).1, Int.le_trans (h.times t hm).2 hle⟩
    · intro t hlast
      rw [← Option.some.inj hlast]
      exact ht
  · simp only [perform, quiet, Option.some.injEq, Prod.mk.injEq] at hp
    rw [Database.exec_read hq ⟨0, 0⟩ 0] at hp
    obtain ⟨rfl, rfl⟩ := hp
    refine ⟨h.db, h.bucket, ?_, ?_, h.last, h.later⟩
    · intro q' r' hm hq'
      rcases List.mem_cons.mp hm with hm | hm
      · cases hm
        rw [← h.db]
        rfl
      · exact h.answered q' r' hm hq'
    · intro t hm
      rcases List.mem_cons.mp hm with hm | hm
      · cases hm
      · exact h.times t hm

variable {app : Application}

end ItalyTrip
