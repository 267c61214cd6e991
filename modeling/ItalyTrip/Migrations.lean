import ItalyTrip.Constraints

namespace ItalyTrip

/-- What the migrations have created of the tables, columns and constraints that enforce something. -/
structure Schema where
  users : Bool
  events : Bool
  photos : Bool
  refreshTokens : Bool
  eventsSingletonIdx : Bool
  eventsUserID : Bool
  usersActiveEventID : Bool
  eventsUserIDNotNull : Bool
  deriving DecidableEq, Repr

/-- A database between migrations: a table that is not there yet has no rows, a column that is not
there yet no values. `version` is the last migration applied. -/
structure Store where
  version : Nat
  schema : Schema
  db : Database
  deriving DecidableEq, Repr

inductive BootError where
  | database (context : String) (cause : DbError)
  | password (context : String)
  deriving DecidableEq, Repr

abbrev Migration := Store → Except BootError Store

/-- A statement of an SQL migration, which fails where it meets an object it does not expect. -/
def orFail (condition : Prop) [Decidable condition] (cause : DbError) : Except BootError Unit :=
  if condition then .ok () else .error (.database "" cause)

namespace Migrations

def createUsers : Migration := fun s =>
  return { s with schema := { s.schema with users := true } }

/-- The singleton index can only be built over at most one row. -/
def createEventAndPhotos : Migration := fun s => do
  orFail (s.schema.eventsSingletonIdx = true ∨ s.db.events.length ≤ 1) .uniqueViolation
  orFail (s.schema.users = true) .failure
  return { s with schema := { s.schema with events := true, eventsSingletonIdx := true, photos := true } }

def dropEventsSingleton : Migration := fun s =>
  return { s with schema := { s.schema with eventsSingletonIdx := false } }

def createRefreshTokens : Migration := fun s => do
  orFail (s.schema.users = true) .failure
  return { s with schema := { s.schema with refreshTokens := true } }

def linkEventsToUsers : Migration := fun s => do
  orFail (s.schema.events = true ∧ s.schema.users = true) .failure
  orFail (s.schema.eventsUserID = false ∧ s.schema.usersActiveEventID = false) .failure
  return { s with schema := { s.schema with eventsUserID := true, usersActiveEventID := true } }

/-- An error of the database with the context that the code puts before it. -/
def wrapped {α : Type} (context : String) (x : Except DbError α) : Except BootError α :=
  x.mapError (.database context)

def ownEvents (db : Database) (id : UUID) : Database :=
  { db with events := db.events.map fun e => if e.userID = none then { e with userID := some id } else e }

/-- `UPDATE events SET user_id = $1 WHERE user_id IS NULL`. -/
def setEventsUser (db : Database) (id : UUID) : Except DbError Database :=
  if db.hasUser id || db.events.all (·.userID.isSome) then .ok (ownEvents db id) else .error .failure

/-- `UPDATE users SET active_event_id = (…) WHERE active_event_id IS NULL`, with the newest event. -/
def setUsersActiveEvent (db : Database) : Database :=
  { db with users := db.users.map fun u =>
      if u.activeEventID = none then { u with activeEventID := db.getCurrentEvent.map Event.id } else u }

variable (quote : String → String)

def upBackfillEventUserLinks (seedEmail : String) : Migration := fun s => do
  let seedUser ← wrapped ("look up seed user " ++ quote seedEmail) (oneRow (s.db.findUserByEmail seedEmail))
  let db ← wrapped "backfill events.user_id" (setEventsUser s.db seedUser.id)
  let _ ← wrapped "enforce events.user_id NOT NULL"
    (if db.events.all (·.userID.isSome) then .ok () else .error .failure)
  return { s with
    schema := { s.schema with eventsUserIDNotNull := true }
    db := setUsersActiveEvent db }

def all (seedEmail : String) : List (Nat × Migration) :=
  [(1, createUsers), (2, createEventAndPhotos), (3, dropEventsSingleton), (4, createRefreshTokens),
    (5, linkEventsToUsers), (6, upBackfillEventUserLinks quote seedEmail)]

/-- Pending migrations in order, each in a transaction with its version, up to the first error. -/
def up : List (Nat × Migration) → Store → Except BootError Unit × Store
  | [], s => (.ok (), s)
  | (version, migration) :: rest, s =>
    if version ≤ s.version then up rest s
    else
      match migration s with
      | .ok s' => up rest { s' with version := version }
      | .error e => (.error e, s)

end Migrations

def runMigrations (quote : String → String) (seedEmail : String) (s : Store) :
    Except BootError Unit × Store :=
  Migrations.up (Migrations.all quote seedEmail) s

structure SeedUser where
  email : String
  password : String

/-- What the environment decides in one boot: the id of a new row and the salted hash. -/
structure BootChoice where
  defaults : Defaults
  hashPassword : String → Option String

def seedSharedUser (seedUser : SeedUser) (o : BootChoice) (db : Database) :
    Except BootError Unit × Database :=
  match oneRow (db.findUserByEmail seedUser.email) with
  | .ok _ => (.ok (), db)
  | .error .noRows =>
    match o.hashPassword seedUser.password with
    | none => (.error (.password "hash shared user password"), db)
    | some hash =>
      match db.createUser o.defaults ⟨seedUser.email, hash⟩ with
      | (.ok _, db') => (.ok (), db')
      | (.error cause, db') => (.error (.database "create shared user" cause), db')
  | .error cause => (.error (.database "look up shared user" cause), db)

/-- The database phases of `run`, in its order. -/
def boot (quote : String → String) (seedUser : SeedUser) (o : BootChoice) (s : Store) :
    Except BootError Unit × Store :=
  match runMigrations quote seedUser.email s with
  | (.error e, s') => (.error e, s')
  | (.ok (), s') =>
    let (result, db) := seedSharedUser seedUser o s'.db
    (result, { s' with db })

end ItalyTrip
