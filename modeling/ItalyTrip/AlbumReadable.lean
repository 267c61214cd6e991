import ItalyTrip.AlbumList
import ItalyTrip.GoTime
import ItalyTrip.RowsBacked

namespace ItalyTrip

open Calls

/-- The photo of the row was uploaded with a `taken_at` that names this instant. -/
def UploadedAt (app : Application) (s : ServerPool) (row : Photo) (t : Instant) : Prop :=
  ∃ u ∈ s.threads, ∃ upload, u.task.route = .authorized (.uploadPhoto upload) ∧ Inserted u.past row ∧
    Photos.parseTakenAt app upload.takenAt = .ok t

/-- The entry names the photo of the row and, to the microsecond, the instant it was uploaded with. -/
def Denotes (app : Application) (s : ServerPool) (entry : PhotoResponse) (row : Photo) : Prop :=
  entry.id = uuidString row.id ∧ ∃ t, UploadedAt app s row t ∧ entry.takenAt = timestamptz t

def ReadableAlbum (app : Application) (s : ServerPool) (rows : List Photo) (response : Response) : Prop :=
  response.status = 200 ∧ ∃ out, response.body = .album out ∧ List.Forall₂ (Denotes app s) out rows

/-- What the request has read of the photos of an event. -/
def listedRows (eventID : UUID) (past : Past Reply) : List (List Photo) :=
  past.filterMap fun x => match x with
    | ⟨.query (.listPhotosByEvent id), .ok rows⟩ => if id = eventID then some rows else none
    | _ => none

theorem mem_listedRows {eventID : UUID} {past : Past Reply} {rows : List Photo} :
    rows ∈ listedRows eventID past ↔ ⟨.query (.listPhotosByEvent eventID), .ok rows⟩ ∈ past := by
  simp only [listedRows, List.mem_filterMap]
  constructor
  · rintro ⟨x, hx, h⟩
    split at h
    next id rows' =>
      split at h
      next same =>
        cases h
        exact same ▸ hx
      next => cases h
    next => cases h
  · exact fun h => ⟨_, h, by simp⟩

instance (past : Past Reply) : Decidable (SigningFailed past) :=
  decidable_of_iff ((past.any fun x => match x with
    | ⟨.presignGet _ _, .error _⟩ => true
    | _ => false) = true) (by
    rw [List.any_eq_true]
    constructor
    · rintro ⟨x, hx, h⟩
      split at h
      next key ttl err => exact ⟨key, ttl, err, hx⟩
      next => cases h
    · rintro ⟨key, ttl, err, h⟩
      exact ⟨_, h, rfl⟩)

/-- Rows that a request has read are there. -/
def RowsRead (s : ServerPool) : Prop := ∀ u ∈ s.threads, ∀ eventID rows,
  ⟨.query (.listPhotosByEvent eventID), .ok rows⟩ ∈ u.past → rows ⊆ s.world.db.photos

variable {app : Application}

theorem RowsRead.step {s : ServerPool} (h : RowsRead s) (a : ServerAction) :
    RowsRead (s.step (server app) a) := by
  have grow : s.world.db.photos ⊆ (s.step (server app) a).world.db.photos := by
    rcases step_photos app s a with same | ⟨_, _, _, _, _, _, _, _, added⟩
    · rw [same]
      exact List.Subset.refl _
    · rw [added]
      exact List.subset_append_left _ _
  intro v hv eventID rows hm
  obtain ⟨i, hi⟩ := List.mem_iff_getElem?.mp hv
  rcases Pool.step_origin s a hi with ⟨t, rfl⟩ | ⟨u, hu, same⟩ | ⟨_, t, past, c, next, r, _, x, rfl⟩
  · exact absurd hm List.not_mem_nil
  · have old := List.mem_of_getElem? hu
    rcases same with rfl | rfl
    · exact List.Subset.trans (h _ old eventID rows hm) grow
    · exact List.Subset.trans (h u old eventID rows hm) grow
  · rcases List.mem_cons.mp hm with here | before
    · cases here
      have listed := congrArg Prod.fst (perform_ok x.performed)
      refine List.Subset.trans (fun row hrow => ?_) grow
      rw [← Except.ok.inj listed, Database.listPhotosByEvent, List.mem_insertionSort] at hrow
      exact (List.mem_filter.mp hrow).1
    · exact List.Subset.trans (h _ x.mem eventID rows before) grow

/-- The row keeps the instant to the microsecond. -/
theorem UploadedAt.takenAt {s : ServerPool} (follows : s.Follows (server app)) {row : Photo}
    {t : Instant} (h : UploadedAt app s row t) : row.takenAt = timestamptz t := by
  obtain ⟨u, hu, upload, route, inserted, parsed⟩ := h
  obtain ⟨arg, upload', form, original, thumb, rfl, accepts, stores⟩ := inserted.stores follows hu
  cases route.symm.trans accepts.route
  obtain ⟨_, _, htime⟩ := Photos.readForm_ok accepts.wellFormed
  cases parsed.symm.trans htime
  rw [CreatePhotoParams.row, stores.takenAt]

theorem Inserted.uploadedAt {s : ServerPool} (follows : s.Follows (server app))
    {u : Calls.Thread Call Reply Request Response} (hu : u ∈ s.threads) {row : Photo}
    (inserted : Inserted u.past row) : ∃ t, UploadedAt app s row t := by
  obtain ⟨_, upload, form, _, _, _, accepts, _⟩ := inserted.stores follows hu
  obtain ⟨_, _, htime⟩ := Photos.readForm_ok accepts.wellFormed
  exact ⟨form.takenAt, u, hu, upload, accepts.route, inserted, htime⟩

theorem denotes_of_entries {s : ServerPool} (follows : s.Follows (server app))
    {out : List PhotoResponse} {rows : List Photo} (entries : List.Forall₂ EntryOf out rows)
    (uploaded : ∀ row ∈ rows, ∃ t, UploadedAt app s row t) : List.Forall₂ (Denotes app s) out rows := by
  induction entries with
  | nil => exact .nil
  | cons entry _ ih =>
    obtain ⟨t, ht⟩ := uploaded _ List.mem_cons_self
    refine .cons ⟨entry.id, t, ht, entry.takenAt.trans (ht.takenAt follows)⟩ (ih fun row hrow => ?_)
    exact uploaded row (List.mem_cons_of_mem _ hrow)

theorem writeJSON_status {status : Nat} {times : List Instant} {body : Body} :
    (writeJSON status times body).status = if times.all jsonTime then status else 500 := by
  unfold writeJSON
  split <;> rfl

/-- The cut to microseconds stays in these years, which begin with a whole one. -/
theorem jsonTime_timestamptz {t : Int} (starts : -62167219200000000000 ≤ t) (ends : t < 253402300800000000000) :
    jsonTime (timestamptz t) = true := by
  have cut : -62167219200000000000 ≤ t / 1000 * 1000 ∧ t / 1000 * 1000 < 253402300800000000000 := by omega
  exact Bool.and_eq_true_iff.mpr ⟨decide_eq_true cut.1, decide_eq_true cut.2⟩

section Listed

variable {w : World} {actions : List ServerAction} {s : ServerPool}
  {u : Calls.Thread Call Reply Request Response} {eventID : UUID} {rows : List Photo} {response : Response}

/-- Every row that is listed was uploaded. -/
theorem listed_uploaded (reached : Pool.exec (server app) ⟨w, []⟩ actions = s) (empty : w.db.photos = [])
    (hu : u ∈ s.threads) (listed : rows ∈ listedRows eventID u.past) :
    ∀ row ∈ rows, ∃ t, UploadedAt app s row t := by
  subst reached
  have read : RowsRead (Pool.exec (server app) ⟨w, []⟩ actions) :=
    Pool.exec_induction (P := RowsRead) (fun _ a h _ => h.step a)
      (fun _ hu => absurd hu List.not_mem_nil) (Pool.runMeets_true _ _)
  intro row hrow
  rcases exec_owned app w actions row (read u hu eventID rows (mem_listedRows.mp listed) hrow) with
    old | ⟨v, hv, inserted⟩
  · rw [empty] at old
    exact absurd old List.not_mem_nil
  · exact inserted.uploadedAt (Pool.exec_follows actions) hv

/-- A list whose calls succeed writes an entry for each row. -/
theorem list_written (follows : s.Follows (server app)) (hu : u ∈ s.threads)
    (route : u.task.route = .authorized .listPhotos) (listed : rows ∈ listedRows eventID u.past)
    (signed : ¬ SigningFailed u.past) (answered : u.result = some response) :
    ∃ out, List.Forall₂ EntryOf out rows ∧
      response = writeJSON 200 (rows.map Photo.takenAt) (.album out) := by
  obtain ⟨_, leads, rest⟩ := follows u hu
  obtain rfl := rest _ (Thread.rest_of_result answered)
  obtain ⟨rows', out, same, entries, answer⟩ | ⟨_, ⟨_, herr⟩ | failed⟩ :=
    (serve_list route).at_done leads eventID (.ok rows) (mem_listedRows.mp listed)
  · cases same
    exact ⟨out, entries, answer⟩
  · cases herr
  · exact absurd failed signed

/-- The album is whole where all instants are in the years that `encoding/json` writes. -/
theorem readable_of_years (reached : Pool.exec (server app) ⟨w, []⟩ actions = s) (empty : w.db.photos = [])
    (hu : u ∈ s.threads) (route : u.task.route = .authorized .listPhotos)
    (listed : rows ∈ listedRows eventID u.past) (signed : ¬ SigningFailed u.past)
    (answered : u.result = some response)
    (inYears : ∀ row ∈ rows, ∀ t, UploadedAt app s row t → jsonTime (timestamptz t) = true) :
    ReadableAlbum app s rows response := by
  have follows : s.Follows (server app) := reached ▸ Pool.exec_follows actions
  have uploaded := listed_uploaded reached empty hu listed
  obtain ⟨out, entries, answer⟩ := list_written follows hu route listed signed answered
  have all : (rows.map Photo.takenAt).all jsonTime = true := by
    rw [List.all_eq_true]
    intro time htime
    obtain ⟨row, hrow, rfl⟩ := List.mem_map.mp htime
    obtain ⟨t, ht⟩ := uploaded row hrow
    rw [ht.takenAt follows]
    exact inYears row hrow t ht
  have written : writeJSON 200 (rows.map Photo.takenAt) (.album out) = ⟨200, .album out, none⟩ := by
    unfold writeJSON
    rw [if_pos all]
  rw [answer, written]
  exact ⟨rfl, out, rfl, denotes_of_entries follows entries uploaded⟩

/-- Whatever has been uploaded, a list whose calls succeed answers with the whole album exactly if all
its instants are, in UTC, in the years that `encoding/json` writes. -/
theorem album_readable (reached : Pool.exec (server app) ⟨w, []⟩ actions = s) (empty : w.db.photos = [])
    (hu : u ∈ s.threads) (route : u.task.route = .authorized .listPhotos)
    (listed : rows ∈ listedRows eventID u.past) (signed : ¬ SigningFailed u.past)
    (answered : u.result = some response) :
    ReadableAlbum app s rows response ↔
      ∀ row ∈ rows, ∀ t, UploadedAt app s row t → jsonTime (timestamptz t) = true := by
  refine ⟨?_, readable_of_years reached empty hu route listed signed answered⟩
  have follows : s.Follows (server app) := reached ▸ Pool.exec_follows actions
  obtain ⟨out, -, rfl⟩ := list_written follows hu route listed signed answered
  rintro ⟨status, -⟩ row hrow t ht
  rw [writeJSON_status] at status
  split at status
  next all =>
    have := List.all_eq_true.mp all _ (List.mem_map_of_mem hrow)
    rwa [ht.takenAt follows] at this
  next => cases status

/-- The photo of the row was uploaded with a local year from 1 to 9998. -/
def UploadedWithin (s : ServerPool) (row : Photo) : Prop :=
  ∀ v ∈ s.threads, ∀ upload, v.task.route = .authorized (.uploadPhoto upload) → Inserted v.past row →
    ∃ year rest, GoTime.yearOf upload.takenAt.toList = .ok (year, rest) ∧ 1 ≤ year ∧ year ≤ 9998

/-- Such times keep the album readable, whatever their offsets. -/
theorem album_readable_within (parser : app.parseRFC3339 = GoTime.parseRFC3339)
    (reached : Pool.exec (server app) ⟨w, []⟩ actions = s) (empty : w.db.photos = []) (hu : u ∈ s.threads)
    (route : u.task.route = .authorized .listPhotos) (listed : rows ∈ listedRows eventID u.past)
    (signed : ¬ SigningFailed u.past) (answered : u.result = some response)
    (within : ∀ row ∈ rows, UploadedWithin s row) : ReadableAlbum app s rows response := by
  refine readable_of_years reached empty hu route listed signed answered fun row hrow t ht => ?_
  obtain ⟨v, hv, upload, uploads, inserted, parsed⟩ := ht
  obtain ⟨year, rest, hyear, low, high⟩ := within row hrow v hv upload uploads inserted
  have parsed : GoTime.parseRFC3339 upload.takenAt = .ok t := by
    unfold Photos.parseTakenAt at parsed
    rw [parser] at parsed
    split at parsed
    · cases parsed
    · exact mapError_ok parsed
  obtain ⟨starts, ends⟩ := GoTime.parse_inner parsed hyear low high
  exact jsonTime_timestamptz starts ends

end Listed

/-- The sample server with the parser of Go's `time`. -/
private def sampleGo : Application := { sampleApp with parseRFC3339 := GoTime.parseRFC3339 }

private def sampleTakenAt (clientID takenAt : String) : Request :=
  sampleRequest (.uploadPhoto ⟨100, .ok (.ok [0xff, 0xd8, 0xff]), clientID, takenAt⟩)

/-- Two photos with these times are uploaded to an event from 0 to 10 seconds, which ends and is listed. -/
private def sampleListed (takenAt takenAt' : String) : ServerPool :=
  Pool.exec (server sampleGo) ⟨sampleWorld, []⟩
    (.arrive (sampleCreate 0 10) :: List.replicate 6 (.act 0 (sampleChoice 1 7 1)) ++
      .arrive (sampleTakenAt (uuidString 9) takenAt) :: List.replicate 9 (.act 1 (sampleChoice 0 8 0)) ++
      .arrive (sampleTakenAt (uuidString 10) takenAt') :: List.replicate 9 (.act 2 (sampleChoice 0 11 0)) ++
      .env 10000000000 ::
      .arrive (sampleRequest .listPhotos) :: List.replicate 9 (.act 3 (sampleChoice 0 0 0)))

/-- An hour west of UTC the year 9999 ends in the year 10000, which cannot be written. -/
theorem album_unreadable :
    (sampleListed "2026-07-01T10:00:00+02:00" "9999-12-31T23:59:59-01:00").threads.map
      (fun u => u.result.map Response.status) = [some 201, some 201, some 201, some 500] ∧
    (sampleListed "2026-07-01T10:00:00+02:00" "9999-12-31T23:59:59-01:00").threads.getLast?.map
      (fun u => u.result.map Response.body) = some (some .empty) := by
  decide +kernel

private def listsPhotos : Request → Bool
  | ⟨_, _, .authorized .listPhotos⟩ => true
  | _ => false

private theorem listsPhotos_route {req : Request} (h : listsPhotos req = true) :
    req.route = .authorized .listPhotos := by
  unfold listsPhotos at h
  split at h
  · rfl
  · cases h

/-- An album that spans all the years that can be written. -/
private def sampleYears : ServerPool :=
  sampleListed "9999-12-31T23:59:59.999999999Z" "0000-01-01T01:00:00+01:00"

theorem album_readable_sample : ∃ u ∈ sampleYears.threads, ∃ rows response,
    rows.map Photo.takenAt = [-62167219200000000000, 253402300799999999000] ∧
    u.result = some response ∧ ReadableAlbum sampleGo sampleYears rows response := by
  have facts : sampleYears.threads.getLast?.map (fun u => (listsPhotos u.task,
      (listedRows 7 u.past).map (List.map Photo.takenAt), decide (SigningFailed u.past),
      u.result.map Response.status)) =
      some (true, [[-62167219200000000000, 253402300799999999000]], false, some 200) := by
    decide +kernel
  obtain ⟨u, hu, facts⟩ := Option.map_eq_some_iff.mp facts
  simp only [Prod.mk.injEq, decide_eq_false_iff_not] at facts
  obtain ⟨route, listed, signed, status⟩ := facts
  obtain ⟨rows, hlisted, times⟩ := List.map_eq_singleton_iff.mp listed
  obtain ⟨response, answered, _⟩ := Option.map_eq_some_iff.mp status
  have mem := List.mem_of_getLast? hu
  have reached : Pool.exec (server sampleGo) ⟨sampleWorld, []⟩ _ = sampleYears := rfl
  have follows : sampleYears.Follows (server sampleGo) := Pool.exec_follows _
  refine ⟨u, mem, rows, response, times, answered, ?_⟩
  refine (album_readable reached rfl mem (listsPhotos_route route) (hlisted ▸ List.mem_cons_self) signed
    answered).mpr fun row hrow t ht => ?_
  rw [← ht.takenAt follows]
  have time : row.takenAt ∈ rows.map Photo.takenAt := List.mem_map_of_mem hrow
  rw [times, List.mem_cons, List.mem_singleton] at time
  rcases time with time | time <;> rw [time] <;> decide

end ItalyTrip
