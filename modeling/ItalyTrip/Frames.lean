import ItalyTrip.Router

namespace ItalyTrip

open Calls

def Route.writes : Route → List Table
  | .login _ => [.refreshTokens]
  | .refresh => [.refreshTokens]
  | .authorized (.createEvent _) => [.events, .users]
  | .authorized (.uploadPhoto _) => [.photos]
  | .authorized _ => []

/-- The call writes none but these tables. -/
def Within (tables : List Table) (c : Call) : Prop := ∀ q, c = .query q → q.writes ⊆ tables

@[simp] theorem within_query {tables : List Table} {q : Query} :
    Within tables (.query q) ↔ q.writes ⊆ tables := by
  simp [Within]

@[simp] theorem within_now {tables : List Table} : Within tables .now := by simp [Within]

@[simp] theorem within_newUUID {tables : List Table} : Within tables .newUUID := by simp [Within]

@[simp] theorem within_put {tables : List Table} {key : String} {body : Bytes}
    {contentType : String} : Within tables (.put key body contentType) := by simp [Within]

@[simp] theorem within_presignGet {tables : List Table} {key : String} {ttl : Int} :
    Within tables (.presignGet key ttl) := by simp [Within]

@[simp] theorem within_openObject {tables : List Table} {key : String} :
    Within tables (.openObject key) := by simp [Within]

@[simp] theorem within_generate {tables : List Table} : Within tables .generateRefreshToken := by
  simp [Within]

/-- All calls of a program write none but these tables. -/
abbrev WritesOnly {α : Type} (tables : List Table) (p : Prog Call Reply α) (past : Past Reply) : Prop :=
  p.Ensures (fun _ c => Within tables c) (fun _ _ => True) past

variable {app : Application} {past : Past Reply}

theorem signPhotos_writes (rows : List Photo) : WritesOnly [] (Photos.signPhotos rows).run past := by
  induction rows generalizing past with
  | nil => simp [Photos.signPhotos]
  | cons row rows ih => simp [Photos.signPhotos, ih]

theorem archive_writes (rows : List Photo) (names : Photos.Names) :
    WritesOnly [] (Photos.archive names rows).run past := by
  induction rows generalizing past names with
  | nil => simp [Photos.archive]
  | cons row rows ih => simp [Photos.archive, forall_except, ih]

theorem session_writes {user : User} :
    WritesOnly [.refreshTokens] (Users.session app user).run past := by
  simp [Users.session, Users.issueRefreshToken, issue, Query.writes]

theorem savePhoto_writes {event : Event} {user : User} {form : Photos.UploadForm}
    {original : Bytes} {thumb : Images.Thumb} :
    WritesOnly [.photos] (Photos.savePhoto event user form original thumb).run past := by
  simp [Photos.savePhoto, forall_except, Query.writes]

theorem upload_writes {context : Option User} {req : UploadRequest} :
    WritesOnly [.photos] (Photos.upload app context req).run past :=
  Photos.ensures_upload.mpr
    { current := by simp [Query.writes]
      clock := fun _ => within_now
      lookup := fun _ => by simp [Query.writes]
      save := fun _ _ _ => savePhoto_writes }

theorem authorized_writes {user : User} {route : AuthorizedRoute} :
    WritesOnly (Route.authorized route).writes (route.handle app user).run past := by
  cases route with
  | me => simp [AuthorizedRoute.handle, Users.me]
  | currentEvent => simp [AuthorizedRoute.handle, Events.current, Query.writes]
  | createEvent body =>
    simp [AuthorizedRoute.handle, Events.create, Events.startEvent, Query.writes, Route.writes]
  | uploadPhoto req => exact upload_writes
  | listPhotos =>
    simp only [AuthorizedRoute.handle, Photos.list, Route.writes]
    simp [Query.writes]
    exact fun _ _ _ _ _ _ => signPhotos_writes _
  | downloadAll =>
    simp [AuthorizedRoute.handle, Photos.downloadAll, Query.writes]
    exact fun _ _ _ _ _ _ => archive_writes _ _
  | originalPhoto id => simp [AuthorizedRoute.handle, Photos.original, Query.writes]

/-- Calls that store an object or a photo. -/
def Call.stores : Call → Bool
  | .put _ _ _ => true
  | .query q => decide (.photos ∈ q.writes)
  | _ => false

@[simp] theorem stores_query {q : Query} :
    (Call.query q).stores = decide (.photos ∈ q.writes) := rfl

@[simp] theorem stores_now : Call.now.stores = false := rfl

@[simp] theorem stores_presignGet {key : String} {ttl : Int} :
    (Call.presignGet key ttl).stores = false := rfl

@[simp] theorem stores_openObject {key : String} : (Call.openObject key).stores = false := rfl

@[simp] theorem stores_generate : Call.generateRefreshToken.stores = false := rfl

/-- Requests other than uploads store nothing. -/
theorem serve_stores {req : Request} (h : Table.photos ∉ req.route.writes) :
    (serve app req).Ensures (fun _ c => c.stores = false) (fun _ _ => True) [] := by
  have sign : ∀ rows past, (Photos.signPhotos rows).run.Ensures (fun _ c => c.stores = false)
      (fun _ _ => True) past := by
    intro rows
    induction rows with
    | nil => simp [Photos.signPhotos]
    | cons row rows ih => simp [Photos.signPhotos, ih]
  have archive : ∀ rows names past, (Photos.archive names rows).run.Ensures
      (fun _ c => c.stores = false) (fun _ _ => True) past := by
    intro rows
    induction rows with
    | nil => simp [Photos.archive]
    | cons row rows ih => simp [Photos.archive, forall_except, ih]
  have session : ∀ user past, (Users.session app user).run.Ensures (fun _ c => c.stores = false)
      (fun _ _ => True) past := by
    simp [Users.session, Users.issueRefreshToken, issue, Query.writes]
  obtain ⟨header, cookie, route⟩ := req
  cases route with
  | login body => simp [handle, Users.login, session, Query.writes]
  | refresh => simp [handle, Users.refresh, session, Query.writes]
  | authorized route =>
    refine ensures_authorized rfl { handled := fun _ user => ?_ }
    cases route with
    | me => simp [AuthorizedRoute.handle, Users.me]
    | currentEvent => simp [AuthorizedRoute.handle, Events.current, Query.writes]
    | createEvent body =>
      simp [AuthorizedRoute.handle, Events.create, Events.startEvent, Query.writes]
    | uploadPhoto req => simp [Route.writes] at h
    | listPhotos => simp [AuthorizedRoute.handle, Photos.list, sign, Query.writes]
    | downloadAll => simp [AuthorizedRoute.handle, Photos.downloadAll, archive, Query.writes]
    | originalPhoto id => simp [AuthorizedRoute.handle, Photos.original, Query.writes]

/-- A request writes only the tables of its route. -/
theorem serve_writes (req : Request) : WritesOnly req.route.writes (serve app req) [] := by
  obtain ⟨header, cookie, route⟩ := req
  rw [WritesOnly, ensures_serve]
  cases route with
  | login body => simp [handle, Users.login, session_writes, Route.writes, Query.writes]
  | refresh => simp [handle, Users.refresh, session_writes, Route.writes, Query.writes]
  | authorized route => simp [handle, authorized_writes, Query.writes]

/-- A step of the server adds at most one photo, by an insert of one of its requests. -/
theorem step_photos (app : Application) (s : ServerPool) (a : ServerAction) :
    (s.step (server app) a).world.db.photos = s.world.db.photos ∨
      ∃ i choice t past arg next r,
        Pool.Exchange (server app) s (s.step (server app) a) i t past (.query (.createPhoto arg)) next
          choice r ∧
        (s.step (server app) a).world.db.photos = s.world.db.photos ++ [arg.row] := by
  rcases Pool.step_world (m := server app) s a with
    same | ⟨i, choice, t, past, c, next, r, x, _⟩ | ⟨_, he⟩
  · exact Or.inl (by rw [same])
  · rcases perform_photos x.performed with same | ⟨arg, rfl, added⟩
    · exact Or.inl same
    · exact Or.inr ⟨i, choice, t, past, arg, next, r, x, added⟩
  · exact Or.inl (by rw [he]; rfl)

/-- A step of the server adds at most one object, by a put of one of its requests. -/
theorem step_bucket (app : Application) (s : ServerPool) (a : ServerAction) :
    (s.step (server app) a).world.bucket = s.world.bucket ∨
      ∃ i choice t past key body contentType next r,
        Pool.Exchange (server app) s (s.step (server app) a) i t past (.put key body contentType) next
          choice r ∧
        (s.step (server app) a).world.bucket = (key, ⟨body, contentType⟩) :: s.world.bucket := by
  rcases Pool.step_world (m := server app) s a with
    same | ⟨i, choice, t, past, c, next, r, x, _⟩ | ⟨_, he⟩
  · exact Or.inl (by rw [same])
  · rcases perform_bucket x.performed with same | ⟨key, body, contentType, rfl, added⟩
    · exact Or.inl same
    · exact Or.inr ⟨i, choice, t, past, key, body, contentType, next, r, x, added⟩
  · exact Or.inl (by rw [he]; rfl)

end ItalyTrip
