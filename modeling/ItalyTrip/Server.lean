import ItalyTrip.Pool
import ItalyTrip.Constraints

namespace ItalyTrip

open Calls

structure Object where
  body : Bytes
  contentType : String
  deriving DecidableEq, Repr

/-- The process's view of the outside: one Postgres database, one bucket, one clock. -/
structure World where
  db : Database
  bucket : List (String × Object)
  clock : Instant
  deriving DecidableEq, Repr

inductive StorageError where
  | failure
  deriving DecidableEq, Repr

/-- A presigned GET URL names its key. -/
structure SignedURL where
  key : String
  ttl : Int
  signature : String
  deriving DecidableEq, Repr

/-- An opened object: `body` is what reading it gives before the end or, if not `complete`, an error.
`contentLength` is -1 when it is not known. -/
structure Download where
  body : Bytes
  complete : Bool
  contentType : String
  contentLength : Int
  deriving DecidableEq, Repr

/-- The calls a handler makes. -/
inductive Call where
  | query (q : Query)
  | put (key : String) (body : Bytes) (contentType : String)
  | presignGet (key : String) (ttl : Int)
  | openObject (key : String)
  | now
  | newUUID
  | generateRefreshToken

@[reducible] def Reply : Call → Type
  | .query q => Except DbError q.Row
  | .put _ _ _ => Except StorageError Unit
  | .presignGet _ _ => Except StorageError SignedURL
  | .openObject _ => Except StorageError Download
  | .now => Instant
  | .newUUID => UUID
  | .generateRefreshToken => Except Unit String

/-- `before` fails a call that did nothing, `after` one that did its work and lost the answer. -/
inductive Fault where
  | none
  | before
  | after
  deriving DecidableEq, Repr

/-- What the environment decides when it answers a call. -/
structure Choice where
  fault : Fault
  tick : Nat
  id : UUID
  createdAt : Instant
  text : String
  readable : Option Nat
  knownLength : Bool
  deriving Repr

def Choice.defaults (o : Choice) : Defaults := ⟨o.id, o.createdAt⟩

def World.download (w : World) (o : Choice) (key : String) : Except StorageError Download :=
  match w.bucket.lookup key with
  | none => .error .failure
  | some object =>
    .ok ⟨object.body.take (o.readable.getD object.body.length), o.readable.isNone,
      object.contentType, if o.knownLength then object.body.length else -1⟩

def perform (o : Choice) (w : World) : (c : Call) → Option (Reply c × World)
  | .query q =>
    let (reply, db) := w.db.exec o.defaults w.clock q
    match o.fault with
    | .none => some (reply, { w with db })
    | .before => some (.error .failure, w)
    | .after => some (.error .failure, { w with db })
  | .put key body contentType =>
    let stored : World := { w with bucket := (key, ⟨body, contentType⟩) :: w.bucket }
    match o.fault with
    | .none => some (.ok (), stored)
    | .before => some (.error .failure, w)
    | .after => some (.error .failure, stored)
  | .presignGet key ttl =>
    if o.fault = .none then some (.ok ⟨key, ttl, o.text⟩, w) else some (.error .failure, w)
  | .openObject key =>
    if o.fault = .none then some (w.download o key, w) else some (.error .failure, w)
  | .now =>
    let now : Instant := w.clock + o.tick
    some (now, { w with clock := now })
  | .newUUID => some (o.id, w)
  -- `crypto/rand` has not failed since Go 1.24, yet its error is one the handlers answer
  | .generateRefreshToken => if o.fault = .none then some (.ok o.text, w) else some (.error (), w)

variable {o : Choice} {w w' : World}

/-- A query answers and acts as the database does, or fails before or after acting. -/
theorem perform_query {q : Query} {r : Reply (.query q)} (h : perform o w (.query q) = some (r, w')) :
    w' = { w with db := w'.db } ∧
      ((r = (w.db.exec o.defaults w.clock q).1 ∧ w'.db = (w.db.exec o.defaults w.clock q).2) ∨
        r = .error .failure ∧ (w'.db = w.db ∨ w'.db = (w.db.exec o.defaults w.clock q).2)) := by
  simp only [perform] at h
  split at h
  all_goals
    obtain ⟨rfl, rfl⟩ := Prod.mk.inj (Option.some.inj h)
    refine ⟨rfl, ?_⟩
  · exact Or.inl ⟨rfl, rfl⟩
  · exact Or.inr ⟨rfl, Or.inl rfl⟩
  · exact Or.inr ⟨rfl, Or.inr rfl⟩

theorem perform_ok {q : Query} {row : q.Row} (h : perform o w (.query q) = some (.ok row, w')) :
    w.db.exec o.defaults w.clock q = (.ok row, w'.db) := by
  rcases (perform_query h).2 with ⟨hr, hdb⟩ | ⟨hr, _⟩
  · rw [hr, hdb]
  · cases hr

/-- Without a fault a query answers and acts as the database does. -/
theorem perform_faultless {q : Query} {r : Reply (.query q)} (quiet : o.fault = .none)
    (h : perform o w (.query q) = some (r, w')) :
    w.db.exec o.defaults w.clock q = (r, w'.db) := by
  simp only [perform, quiet] at h
  cases h
  rfl

theorem oneRow_ok {α : Type} {found : Option α} {row : α} (h : .ok row = oneRow found) :
    found = some row := by
  cases found with
  | none => cases h
  | some _ =>
    cases h
    rfl

theorem oneRow_error {α : Type} {found : Option α} {err : DbError} (h : .error err = oneRow found) :
    err = .noRows ∧ found = none := by
  cases found with
  | none =>
    cases h
    exact ⟨rfl, rfl⟩
  | some _ => cases h

theorem perform_now {t : Reply .now} (h : perform o w .now = some (t, w')) :
    t = w'.clock ∧ w.clock ≤ w'.clock ∧ w' = { w with clock := w'.clock } := by
  obtain ⟨rfl, rfl⟩ := Prod.mk.inj (Option.some.inj h)
  exact ⟨rfl, Int.le_add_of_nonneg_right (Int.natCast_nonneg _), rfl⟩

/-- Calls other than queries and the clock leave database and time alone. -/
theorem perform_other {c : Call} {r : Reply c} (hq : ∀ q, c ≠ .query q) (hn : c ≠ .now)
    (h : perform o w c = some (r, w')) : w'.db = w.db ∧ w'.clock = w.clock := by
  cases c with
  | query q => exact absurd rfl (hq q)
  | now => exact absurd rfl hn
  | newUUID => cases h; exact ⟨rfl, rfl⟩
  | put key body contentType =>
    simp only [perform] at h
    split at h <;> cases h <;> exact ⟨rfl, rfl⟩
  | presignGet key ttl =>
    simp only [perform] at h
    split at h <;> cases h <;> exact ⟨rfl, rfl⟩
  | openObject key =>
    simp only [perform] at h
    split at h <;> cases h <;> exact ⟨rfl, rfl⟩
  | generateRefreshToken =>
    simp only [perform] at h
    split at h <;> cases h <;> exact ⟨rfl, rfl⟩

theorem perform_db {c : Call} {r : Reply c} (hq : ∀ q, c ≠ .query q)
    (h : perform o w c = some (r, w')) : w'.db = w.db := by
  by_cases hn : c = .now
  · subst hn
    rw [(perform_now h).2.2]
  · exact (perform_other hq hn h).1

theorem perform_clock {c : Call} {r : Reply c} (h : perform o w c = some (r, w')) :
    w.clock ≤ w'.clock := by
  by_cases hq : ∃ q, c = .query q
  · obtain ⟨q, rfl⟩ := hq
    rw [(perform_query h).1]
  · by_cases hn : c = .now
    · subst hn
      exact (perform_now h).2.1
    · exact Int.le_of_eq (perform_other (fun q hc => hq ⟨q, hc⟩) hn h).2.symm

theorem perform_isSome (c : Call) : (perform o w c).isSome := by
  cases c with
  | query q => simp only [perform]; split <;> rfl
  | put key body contentType => simp only [perform]; split <;> rfl
  | presignGet key ttl => simp only [perform]; split <;> rfl
  | openObject key => simp only [perform]; split <;> rfl
  | now => rfl
  | newUUID => rfl
  | generateRefreshToken => simp only [perform]; split <;> rfl

/-- A call either leaves the database alone or is a query that does its work. -/
theorem perform_effect {c : Call} {r : Reply c} (h : perform o w c = some (r, w')) :
    w'.db = w.db ∨ ∃ q, c = .query q ∧ w'.db = (w.db.exec o.defaults w.clock q).2 := by
  by_cases hq : ∃ q, c = .query q
  · obtain ⟨q, rfl⟩ := hq
    rcases (perform_query h).2 with ⟨_, hdb⟩ | ⟨_, hdb | hdb⟩
    · exact Or.inr ⟨q, rfl, hdb⟩
    · exact Or.inl hdb
    · exact Or.inr ⟨q, rfl, hdb⟩
  · exact Or.inl (perform_db (fun q hc => hq ⟨q, hc⟩) h)

/-- Objects are only ever put, and nothing deletes them. -/
theorem perform_bucket {c : Call} {r : Reply c} (h : perform o w c = some (r, w')) :
    w'.bucket = w.bucket ∨ ∃ key body contentType, c = .put key body contentType ∧
      w'.bucket = (key, ⟨body, contentType⟩) :: w.bucket := by
  cases c with
  | put key body contentType =>
    simp only [perform] at h
    split at h <;> cases h
    · exact Or.inr ⟨key, body, contentType, rfl, rfl⟩
    · exact Or.inl rfl
    · exact Or.inr ⟨key, body, contentType, rfl, rfl⟩
  | query q => exact Or.inl (by rw [(perform_query h).1])
  | presignGet key ttl =>
    simp only [perform] at h
    split at h <;> cases h <;> exact Or.inl rfl
  | openObject key =>
    simp only [perform] at h
    split at h <;> cases h <;> exact Or.inl rfl
  | generateRefreshToken =>
    simp only [perform] at h
    split at h <;> cases h <;> exact Or.inl rfl
  | _ =>
    cases h
    exact Or.inl rfl

theorem perform_stored {key : String} {body : Bytes} {contentType : String}
    (h : perform o w (.put key body contentType) = some (.ok (), w')) :
    w'.bucket = (key, ⟨body, contentType⟩) :: w.bucket := by
  simp only [perform] at h
  split at h <;> cases h
  rfl

/-- Every call keeps the database's constraints. -/
theorem perform_valid {c : Call} {r : Reply c} (valid : w.db.Valid)
    (h : perform o w c = some (r, w')) : w'.db.Valid := by
  rcases perform_effect h with hdb | ⟨q, _, hdb⟩
  · rwa [hdb]
  · rw [hdb]
    exact Database.exec_valid valid q

/-- Events are only ever added, and only by `createEvent`. -/
theorem perform_events {c : Call} {r : Reply c} (h : perform o w c = some (r, w')) :
    w'.db.events = w.db.events ∨ ∃ arg row, c = .query (.createEvent arg) ∧
      w'.db = { w.db with events := w.db.events ++ [row] } ∧ row.endsAt = timestamptz arg.endsAt := by
  rcases perform_effect h with hdb | ⟨q, rfl, hdb⟩
  · exact Or.inl (by rw [hdb])
  · by_cases hw : Table.events ∈ q.writes
    · cases q with
      | createEvent arg =>
        rcases Database.createEvent_cases w.db o.defaults arg with
          ⟨hx, _⟩ | ⟨row, hx, _, _, hends, _⟩
        · exact Or.inl (by rw [hdb]; exact congrArg _ hx)
        · exact Or.inr ⟨arg, row, rfl, by rw [hdb]; exact congrArg Prod.snd hx, hends⟩
      | _ => simp [Query.writes] at hw
    · exact Or.inl (by rw [hdb]; exact (Database.exec_frame q).2.1 hw)

/-- Photos are only ever added, and only by `createPhoto`. -/
theorem perform_photos {c : Call} {r : Reply c} (h : perform o w c = some (r, w')) :
    w'.db.photos = w.db.photos ∨ ∃ arg, c = .query (.createPhoto arg) ∧
      w'.db.photos = w.db.photos ++ [arg.row] := by
  rcases perform_effect h with hdb | ⟨q, rfl, hdb⟩
  · exact Or.inl (by rw [hdb])
  · by_cases hw : Table.photos ∈ q.writes
    · cases q with
      | createPhoto arg =>
        rcases Database.createPhoto_cases w.db arg with ⟨hx, _⟩ | ⟨hx, _⟩ | ⟨hx, _⟩
        · exact Or.inl (by rw [hdb]; exact congrArg (·.2.photos) hx)
        · exact Or.inl (by rw [hdb]; exact congrArg (·.2.photos) hx)
        · exact Or.inr ⟨arg, rfl, by rw [hdb]; exact congrArg (·.2.photos) hx⟩
      | _ => simp [Query.writes] at hw
    · exact Or.inl (by rw [hdb]; exact (Database.exec_frame q).2.2.1 hw)

end ItalyTrip
