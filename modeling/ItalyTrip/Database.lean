import ItalyTrip.Records
import Mathlib.Data.List.MinMax
import Mathlib.Data.List.Sort

namespace ItalyTrip

structure Database where
  users : List User
  events : List Event
  photos : List Photo
  refreshTokens : List RefreshToken
  deriving DecidableEq, Repr

/-- `uniqueViolation` is SQLSTATE 23505, `failure` any other error of the driver or the server. -/
inductive DbError where
  | noRows
  | uniqueViolation
  | failure
  deriving DecidableEq, Repr

structure CreateEventParams where
  name : String
  startsAt : Instant
  endsAt : Instant
  userID : UUID

structure CreatePhotoParams where
  id : UUID
  eventID : UUID
  uploadedBy : UUID
  clientID : String
  storageKey : String
  thumbKey : String
  contentType : String
  width : Int
  height : Int
  sizeBytes : Nat
  takenAt : Instant

/-- The row that is stored for these parameters. -/
def CreatePhotoParams.row (arg : CreatePhotoParams) : Photo :=
  ⟨arg.id, arg.eventID, arg.uploadedBy, arg.clientID, arg.storageKey, arg.thumbKey,
    arg.contentType, arg.width, arg.height, arg.sizeBytes, timestamptz arg.takenAt⟩

structure CreateRefreshTokenParams where
  userID : UUID
  tokenHash : String
  expiresAt : Instant

structure CreateUserParams where
  email : String
  passwordHash : String

/-- The methods of `repo.Querier`. -/
inductive Query where
  | countPhotos (eventID : UUID)
  | createEvent (arg : CreateEventParams)
  | createPhoto (arg : CreatePhotoParams)
  | createRefreshToken (arg : CreateRefreshTokenParams)
  | createUser (arg : CreateUserParams)
  | findPhotoByClientId (eventID : UUID) (clientID : String)
  | findPhotoById (id : UUID)
  | findRefreshTokenByHash (tokenHash : String)
  | findUserByEmail (email : String)
  | findUserById (id : UUID)
  | getCurrentEvent
  | listPhotosByEvent (eventID : UUID)
  | revokeRefreshToken (id : UUID)
  | revokeRefreshTokensForUser (userID : UUID)
  | setActiveEvent (id : UUID) (activeEventID : UUID)

@[reducible] def Query.Row : Query → Type
  | .countPhotos _ => Nat
  | .createEvent _ => Event
  | .createPhoto _ => Photo
  | .createRefreshToken _ => RefreshToken
  | .createUser _ => User
  | .findPhotoByClientId _ _ => Photo
  | .findPhotoById _ => Photo
  | .findRefreshTokenByHash _ => RefreshToken
  | .findUserByEmail _ => User
  | .findUserById _ => User
  | .getCurrentEvent => Event
  | .listPhotosByEvent _ => List Photo
  | .revokeRefreshToken _ => Unit
  | .revokeRefreshTokensForUser _ => Unit
  | .setActiveEvent _ _ => Unit

/-- The tables a query may write. -/
inductive Table where
  | users
  | events
  | photos
  | refreshTokens
  deriving DecidableEq

def Query.writes : Query → List Table
  | .createEvent _ => [.events]
  | .createPhoto _ => [.photos]
  | .createRefreshToken _ => [.refreshTokens]
  | .createUser _ => [.users]
  | .revokeRefreshToken _ => [.refreshTokens]
  | .revokeRefreshTokensForUser _ => [.refreshTokens]
  | .setActiveEvent _ _ => [.users]
  | _ => []

/-- What a row gets by default: `gen_random_uuid()` and the `created_at` of its transaction. -/
structure Defaults where
  id : UUID
  createdAt : Instant

def oneRow {α : Type} : Option α → Except DbError α
  | some row => .ok row
  | none => .error .noRows

/-- `ORDER BY taken_at ASC, id ASC`. -/
def photoBefore (p q : Photo) : Prop :=
  p.takenAt < q.takenAt ∨ p.takenAt = q.takenAt ∧ p.id.toNat ≤ q.id.toNat

instance (p q : Photo) : Decidable (photoBefore p q) :=
  inferInstanceAs (Decidable (_ ∨ _))

namespace Database

variable (db : Database)

def hasUser (id : UUID) : Bool := db.users.any (·.id == id)

def hasEvent (id : UUID) : Bool := db.events.any (·.id == id)

def countPhotos (eventID : UUID) : Nat := (db.photos.filter (·.eventID == eventID)).length

/-- `ORDER BY created_at DESC LIMIT 1`. -/
def getCurrentEvent : Option Event :=
  @List.argmax Event Instant Int.instLinearOrder.toPreorder _ Event.createdAt db.events

def createEvent (defaults : Defaults) (arg : CreateEventParams) : Except DbError Event × Database :=
  if db.hasEvent defaults.id then (.error .uniqueViolation, db)
  else if !db.hasUser arg.userID then (.error .failure, db)
  else
    let row : Event := ⟨defaults.id, arg.name, timestamptz arg.startsAt, timestamptz arg.endsAt,
      defaults.createdAt, some arg.userID⟩
    (.ok row, { db with events := db.events ++ [row] })

def createPhoto (arg : CreatePhotoParams) : Except DbError Photo × Database :=
  if db.photos.any (fun p => p.id == arg.id) ||
      db.photos.any (fun p => p.eventID == arg.eventID && p.clientID == arg.clientID) then
    (.error .uniqueViolation, db)
  else if !db.hasEvent arg.eventID || !db.hasUser arg.uploadedBy then (.error .failure, db)
  else
    let row : Photo := ⟨arg.id, arg.eventID, arg.uploadedBy, arg.clientID, arg.storageKey,
      arg.thumbKey, arg.contentType, arg.width, arg.height, arg.sizeBytes, timestamptz arg.takenAt⟩
    (.ok row, { db with photos := db.photos ++ [row] })

def createRefreshToken (defaults : Defaults) (arg : CreateRefreshTokenParams) :
    Except DbError RefreshToken × Database :=
  if db.refreshTokens.any (·.id == defaults.id) ||
      db.refreshTokens.any (·.tokenHash == arg.tokenHash) then (.error .uniqueViolation, db)
  else if !db.hasUser arg.userID then (.error .failure, db)
  else
    let row : RefreshToken := ⟨defaults.id, arg.userID, arg.tokenHash, timestamptz arg.expiresAt, none⟩
    (.ok row, { db with refreshTokens := db.refreshTokens ++ [row] })

def createUser (defaults : Defaults) (arg : CreateUserParams) : Except DbError User × Database :=
  if db.users.any (·.id == defaults.id) || db.users.any (·.email == arg.email) then
    (.error .uniqueViolation, db)
  else
    let row : User := ⟨defaults.id, arg.email, arg.passwordHash, none⟩
    (.ok row, { db with users := db.users ++ [row] })

def findPhotoByClientId (eventID : UUID) (clientID : String) : Option Photo :=
  db.photos.find? fun p => p.eventID == eventID && p.clientID == clientID

def findPhotoById (id : UUID) : Option Photo := db.photos.find? (·.id == id)

def findRefreshTokenByHash (tokenHash : String) : Option RefreshToken :=
  db.refreshTokens.find? (·.tokenHash == tokenHash)

def findUserByEmail (email : String) : Option User := db.users.find? (·.email == email)

def findUserById (id : UUID) : Option User := db.users.find? (·.id == id)

def listPhotosByEvent (eventID : UUID) : List Photo :=
  (db.photos.filter (·.eventID == eventID)).insertionSort photoBefore

def revokeRefreshToken (now : Instant) (id : UUID) : Database :=
  { db with refreshTokens := db.refreshTokens.map fun t =>
      if t.id = id then { t with revokedAt := some now } else t }

def revokeRefreshTokensForUser (now : Instant) (userID : UUID) : Database :=
  { db with refreshTokens := db.refreshTokens.map fun t =>
      if t.userID = userID ∧ t.revokedAt = none then { t with revokedAt := some now } else t }

def setActiveEvent (id activeEventID : UUID) : Except DbError Unit × Database :=
  if db.hasUser id && !db.hasEvent activeEventID then (.error .failure, db)
  else (.ok (), { db with users := db.users.map fun u =>
      if u.id = id then { u with activeEventID := some activeEventID } else u })

/-- One atomic database call. -/
def exec (defaults : Defaults) (now : Instant) : (q : Query) → Except DbError q.Row × Database
  | .countPhotos eventID => (.ok (db.countPhotos eventID), db)
  | .createEvent arg => db.createEvent defaults arg
  | .createPhoto arg => db.createPhoto arg
  | .createRefreshToken arg => db.createRefreshToken defaults arg
  | .createUser arg => db.createUser defaults arg
  | .findPhotoByClientId eventID clientID => (oneRow (db.findPhotoByClientId eventID clientID), db)
  | .findPhotoById id => (oneRow (db.findPhotoById id), db)
  | .findRefreshTokenByHash tokenHash => (oneRow (db.findRefreshTokenByHash tokenHash), db)
  | .findUserByEmail email => (oneRow (db.findUserByEmail email), db)
  | .findUserById id => (oneRow (db.findUserById id), db)
  | .getCurrentEvent => (oneRow db.getCurrentEvent, db)
  | .listPhotosByEvent eventID => (.ok (db.listPhotosByEvent eventID), db)
  | .revokeRefreshToken id => (.ok (), db.revokeRefreshToken now id)
  | .revokeRefreshTokensForUser userID => (.ok (), db.revokeRefreshTokensForUser now userID)
  | .setActiveEvent id activeEventID => db.setActiveEvent id activeEventID

end Database

end ItalyTrip
