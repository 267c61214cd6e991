import Mathlib.Data.List.Basic

namespace ItalyTrip

/-- Nanoseconds since the Unix epoch: the instant of a `time.Time`. -/
abbrev Instant := Int

abbrev Bytes := List UInt8

abbrev UUID := BitVec 128

/-- A `timestamptz` column keeps whole microseconds. -/
def timestamptz (t : Instant) : Instant := t / 1000 * 1000

structure User where
  id : UUID
  email : String
  passwordHash : String
  activeEventID : Option UUID
  deriving DecidableEq, Repr

structure Event where
  id : UUID
  name : String
  startsAt : Instant
  endsAt : Instant
  createdAt : Instant
  userID : Option UUID
  deriving DecidableEq, Repr

structure Photo where
  id : UUID
  eventID : UUID
  uploadedBy : UUID
  clientID : String
  storageKey : String
  thumbKey : String
  contentType : String
  width : Int
  height : Int
  sizeBytes : Nat
  takenAt : Instant
  deriving DecidableEq, Repr

structure RefreshToken where
  id : UUID
  userID : UUID
  tokenHash : String
  expiresAt : Instant
  revokedAt : Option Instant
  deriving DecidableEq, Repr

/-- The single source of truth for the lock: at exactly `endsAt` the event is over. -/
def Event.IsOver (e : Event) (now : Instant) : Prop := ¬ now < e.endsAt

instance (e : Event) (now : Instant) : Decidable (e.IsOver now) :=
  inferInstanceAs (Decidable (¬ now < e.endsAt))

theorem Event.isOver_iff {e : Event} {now : Instant} : e.IsOver now ↔ e.endsAt ≤ now := Int.not_lt

theorem Event.IsOver.mono {e : Event} {t now : Instant} (h : e.IsOver t) (le : t ≤ now) :
    e.IsOver now :=
  Event.isOver_iff.mpr (Int.le_trans (Event.isOver_iff.mp h) le)

end ItalyTrip
