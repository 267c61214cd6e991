import ItalyTrip.Frames

namespace ItalyTrip

open Calls

/-- The request is an upload whose form and file are accepted. -/
structure Accepts (app : Application) (req : Request) (upload : UploadRequest)
    (form : Photos.UploadForm) (original : Bytes) (thumb : Images.Thumb) : Prop where
  route : req.route = .authorized (.uploadPhoto upload)
  wellFormed : Photos.readForm app upload = .ok form
  image : Photos.readImage app form.file = .ok (original, thumb)

/-- The request has stored both objects of the photo it inserts, and inserts what its form says. -/
structure Stores (past : Past Reply) (arg : CreatePhotoParams) (form : Photos.UploadForm)
    (original : Bytes) (thumb : Images.Thumb) : Prop where
  drawn : ⟨.newUUID, arg.id⟩ ∈ past
  storageKey : arg.storageKey = Photos.photoKey (uuidString arg.id)
  thumbKey : arg.thumbKey = Photos.thumbKey (uuidString arg.id)
  putOriginal : ⟨.put arg.storageKey original "image/jpeg", .ok ()⟩ ∈ past
  putThumb : ⟨.put arg.thumbKey thumb.jpeg "image/jpeg", .ok ()⟩ ∈ past
  size : arg.sizeBytes = original.length
  width : arg.width = thumb.width
  height : arg.height = thumb.height
  clientID : arg.clientID = form.clientID
  takenAt : arg.takenAt = form.takenAt

def KeyOf (id : UUID) (key : String) : Prop :=
  key = Photos.photoKey (uuidString id) ∨ key = Photos.thumbKey (uuidString id)

/-- A request puts each of its two objects once, and inserts its row after both. -/
def ObjectCall (app : Application) (req : Request) (past : Past Reply) : Call → Prop
  | .put key _ _ => (∃ id, ⟨.newUUID, id⟩ ∈ past ∧ KeyOf id key) ∧
      ∀ body contentType r, ⟨.put key body contentType, r⟩ ∉ past
  | .query (.createPhoto arg) => ∃ upload form original thumb,
      Accepts app req upload form original thumb ∧ Stores past arg form original thumb
  | _ => True

variable {app : Application} {past : Past Reply}

theorem savePhoto_objects {req : Request} {upload : UploadRequest} {event : Event} {user : User}
    {form : Photos.UploadForm} {original : Bytes} {thumb : Images.Thumb}
    (accepts : Accepts app req upload form original thumb)
    (clean : ∀ key body contentType r, ⟨.put key body contentType, r⟩ ∉ past) :
    (Photos.savePhoto event user form original thumb).run.Ensures (ObjectCall app req)
      (fun _ _ => True) past := by
  simp only [Photos.savePhoto, ensures_run_bind, ensures_request, ensures_orThrow, implies_true,
    true_and]
  refine ⟨trivial, fun id => ⟨⟨⟨id, List.mem_cons_self, Or.inl rfl⟩, ?_⟩, fun stored => ?_⟩⟩
  · intro body contentType r hm
    rcases List.mem_cons.mp hm with hm | hm
    · cases hm
    · exact clean _ _ _ _ hm
  intro _ hstored
  refine ⟨⟨⟨id, by simp, Or.inr rfl⟩, ?_⟩, fun thumbStored _ hthumb => ⟨?_, fun created => ?_⟩⟩
  · intro body contentType r hm
    simp only [List.mem_cons, Sigma.mk.injEq, Call.put.injEq] at hm
    rcases hm with ⟨⟨hkey, _⟩, _⟩ | hm | hm
    · exact Photos.photoKey_ne_thumbKey _ _ hkey.symm
    · cases hm.1
    · exact clean _ _ _ _ hm
  · subst hstored hthumb
    refine ⟨upload, form, original, thumb, accepts, ?_⟩
    constructor <;> simp
  · cases created with
    | ok row => trivial
    | error err =>
      simp only [ensures_run_bind, Photos.ensures_resolveRace, ensures_run_pure, implies_true,
        and_true, true_and]
      exact fun _ => trivial

theorem serve_objects (req : Request) :
    (serve app req).Ensures (ObjectCall app req) (fun _ _ => True) [] := by
  by_cases hw : Table.photos ∈ req.route.writes
  · obtain ⟨header, cookie, route⟩ := req
    cases route with
    | authorized route =>
      cases route with
      | uploadPhoto upload =>
        refine ensures_authorized rfl { handled := fun _ user => ?_ }
        refine Photos.ensures_upload.mpr { save := fun passes image accepted => ?_ }
        refine savePhoto_objects ⟨rfl, passes.wellFormed, accepted⟩ ?_
        simp
      | _ => simp [Route.writes] at hw
    | _ => simp [Route.writes] at hw
  · refine (serve_stores hw).mono (fun past c hc => ?_) fun _ _ h => h
    unfold ObjectCall
    split
    next => cases hc
    next => simp [Query.writes] at hc
    next => trivial

/-- The UUIDs a request has drawn. -/
def drawnBy (past : Past Reply) : List UUID :=
  past.filterMap fun x => match x with
    | ⟨.newUUID, id⟩ => some id
    | _ => none

def drawn (s : ServerPool) : List UUID := s.threads.flatMap fun u => drawnBy u.past

/-- No two requests have drawn the same UUID. -/
def DrawnOnce (s : ServerPool) : Prop := ∀ (i j : Nat) u v id, s.threads[i]? = some u →
  s.threads[j]? = some v → ⟨.newUUID, id⟩ ∈ u.past → ⟨.newUUID, id⟩ ∈ v.past → i = j

theorem mem_drawnBy {id : UUID} : id ∈ drawnBy past ↔ ⟨.newUUID, id⟩ ∈ past := by
  simp only [drawnBy, List.mem_filterMap]
  constructor
  · rintro ⟨⟨c, r⟩, hx, h⟩
    cases c <;> cases h
    exact hx
  · exact fun h => ⟨_, h, rfl⟩

theorem drawnOnce_of_nodup {s : ServerPool} (h : (drawn s).Nodup) : DrawnOnce s := by
  have apart := List.pairwise_iff_getElem.mp (List.nodup_flatMap.mp h).2
  have lt : ∀ {i j : Nat} {u v : Calls.Thread Call Reply Request Response} {id : UUID},
      s.threads[i]? = some u → s.threads[j]? = some v → ⟨.newUUID, id⟩ ∈ u.past →
      ⟨.newUUID, id⟩ ∈ v.past → ¬ i < j := by
    intro i j u v id hu hv hi hj less
    obtain ⟨hi', rfl⟩ := List.getElem?_eq_some_iff.mp hu
    obtain ⟨hj', rfl⟩ := List.getElem?_eq_some_iff.mp hv
    exact apart i j hi' hj' less (mem_drawnBy.mpr hi) (mem_drawnBy.mpr hj)
  intro i j u v id hu hv hi hj
  exact Nat.le_antisymm (Nat.not_lt.mp (lt hv hu hj hi)) (Nat.not_lt.mp (lt hu hv hi hj))

theorem DrawnOnce.before {s : ServerPool} {a : ServerAction}
    (h : DrawnOnce (s.step (server app) a)) : DrawnOnce s := by
  intro i j u v id hu hv hi hj
  obtain ⟨u', hu', _, past⟩ := Pool.step_past (m := server app) s a hu
  obtain ⟨v', hv', _, past'⟩ := Pool.step_past (m := server app) s a hv
  exact h i j u' v' id hu' hv' (past.subset hi) (past'.subset hj)

/-- The thread has inserted this row. -/
def Inserted (past : Past Reply) (row : Photo) : Prop :=
  ∃ arg r, ⟨.query (.createPhoto arg), r⟩ ∈ past ∧ row = arg.row

/-- Every row was there before or has been inserted by a thread. -/
def Owned (known : List Photo) (s : ServerPool) : Prop :=
  ∀ row ∈ s.world.db.photos, row ∈ known ∨ ∃ u ∈ s.threads, Inserted u.past row

theorem Owned.step {known : List Photo} {s : ServerPool} (owned : Owned known s) (a : ServerAction) :
    Owned known (s.step (server app) a) := by
  have again : ∀ {row}, row ∈ s.world.db.photos →
      row ∈ known ∨ ∃ v ∈ (s.step (server app) a).threads, Inserted v.past row := by
    intro row hrow
    rcases owned row hrow with old | ⟨u, hu, arg, r, hm, rfl⟩
    · exact Or.inl old
    · obtain ⟨i, hi⟩ := List.mem_iff_getElem?.mp hu
      obtain ⟨v, hv, _, past⟩ := Pool.step_past (m := server app) s a hi
      exact Or.inr ⟨v, List.mem_of_getElem? hv, arg, r, past.subset hm, rfl⟩
  intro row hrow
  rcases step_photos app s a with same | ⟨i, _, t, past, arg, next, r, x, added⟩
  · exact again (same ▸ hrow)
  · rw [added] at hrow
    rcases List.mem_append.mp hrow with before | new
    · exact again before
    · obtain rfl := List.mem_singleton.mp new
      refine Or.inr ⟨⟨t, ⟨_, r⟩ :: past, some (next r)⟩, ?_, arg, r, List.mem_cons_self, rfl⟩
      rw [x.threads]
      exact List.mem_set (List.getElem?_eq_some_iff.mp x.thread).1 _

theorem owned_init (w : World) : Owned w.db.photos ⟨w, []⟩ := fun _ hrow => Or.inl hrow

theorem exec_owned (app : Application) (w : World) (actions : List ServerAction) :
    Owned w.db.photos (Pool.exec (server app) ⟨w, []⟩ actions) :=
  Pool.exec_induction (fun _ a h _ => h.step a) (owned_init w) (Pool.runMeets_true _ actions)

/-- What has been put is there. -/
def ObjectsStay (s : ServerPool) : Prop := ∀ (i : Nat) u key body contentType,
  s.threads[i]? = some u → ⟨.put key body contentType, .ok ()⟩ ∈ u.past →
    s.world.bucket.lookup key = some ⟨body, contentType⟩

theorem KeyOf.inj {a b : UUID} {key : String} (ha : KeyOf a key) (hb : KeyOf b key) : a = b := by
  rcases ha with rfl | rfl <;> rcases hb with h | h
  · exact uuidString_inj (Photos.photoKey_inj h)
  · exact absurd h (Photos.photoKey_ne_thumbKey _ _)
  · exact absurd h.symm (Photos.photoKey_ne_thumbKey _ _)
  · exact uuidString_inj (Photos.thumbKey_inj h)

/-- What a thread of the server has stored, it has stored under its own keys. -/
theorem objectCall_past {s : ServerPool} (follows : s.Follows (server app))
    {u : Calls.Thread Call Reply Request Response} (hu : u ∈ s.threads) {c : Call} {r : Reply c}
    (hm : ⟨c, r⟩ ∈ u.past) :
    ∃ before, ⟨c, r⟩ :: before <:+ u.past ∧ ObjectCall app u.task before c := by
  obtain ⟨q, leads, _⟩ := follows u hu
  exact (serve_objects u.task).at_past leads hm

theorem ObjectsStay.step {s : ServerPool} (stay : ObjectsStay s) (follows : s.Follows (server app))
    {a : ServerAction} (once : DrawnOnce s) : ObjectsStay (s.step (server app) a) := by
  have old : ∀ {i : Nat} {u key body contentType}, s.threads[i]? = some u →
      ⟨.put key body contentType, .ok ()⟩ ∈ u.past →
      (s.step (server app) a).world.bucket.lookup key = some ⟨body, contentType⟩ := by
    intro i u key body contentType hu hm
    have here := stay i u key body contentType hu hm
    rcases step_bucket app s a with
      same | ⟨j, _, t, past, key', body', contentType', _, _, x, added⟩
    · rwa [same]
    · rw [added, List.lookup_cons]
      split
      next hkey =>
        -- A put with the key of an object that is there would be a second one of its own thread.
        obtain rfl := beq_iff_eq.mp hkey
        obtain ⟨_, leads, rest⟩ := follows _ x.mem
        obtain rfl := rest _ rfl
        obtain ⟨⟨id, drew, own⟩, first⟩ := (serve_objects t).at_call leads
        obtain ⟨before, suffix, ⟨id', drew', own'⟩, _⟩ :=
          objectCall_past follows (List.mem_of_getElem? hu) hm
        obtain rfl := own.inj own'
        have drew' := suffix.subset (List.mem_cons_of_mem _ drew')
        obtain rfl := once i j u _ id hu x.thread drew' drew
        obtain rfl := Option.some.inj (hu.symm.trans x.thread)
        exact absurd hm (first _ _ _)
      next => exact here
  intro i v key body contentType hv hm
  rcases Pool.step_origin s a hv with ⟨t, rfl⟩ | ⟨u, hu, same⟩ | ⟨_, t, past, c, next, r, _, x, rfl⟩
  · exact absurd hm List.not_mem_nil
  · rcases same with rfl | rfl <;> exact old hu hm
  · rcases List.mem_cons.mp hm with new | before
    · cases new
      rw [perform_stored x.performed, List.lookup_cons_self]
    · exact old x.thread before

theorem Stores.later {before past : Past Reply} {arg : CreatePhotoParams} {form : Photos.UploadForm}
    {original : Bytes} {thumb : Images.Thumb} (h : Stores before arg form original thumb)
    (sub : before ⊆ past) : Stores past arg form original thumb :=
  { h with drawn := sub h.drawn, putOriginal := sub h.putOriginal, putThumb := sub h.putThumb }

/-- A thread that has inserted a row is an accepted upload that has stored the row's objects. -/
theorem Inserted.stores {s : ServerPool} (follows : s.Follows (server app))
    {u : Calls.Thread Call Reply Request Response} (hu : u ∈ s.threads) {row : Photo}
    (h : Inserted u.past row) : ∃ arg upload form original thumb, row = arg.row ∧
      Accepts app u.task upload form original thumb ∧ Stores u.past arg form original thumb := by
  obtain ⟨arg, r, hm, rfl⟩ := h
  obtain ⟨before, suffix, upload, form, original, thumb, accepts, stores⟩ :=
    objectCall_past follows hu hm
  have sub : before ⊆ u.past := fun x hx => suffix.subset (List.mem_cons_of_mem _ hx)
  exact ⟨arg, upload, form, original, thumb, rfl, accepts, stores.later sub⟩

theorem Inserted.drew {s : ServerPool} (follows : s.Follows (server app))
    {u : Calls.Thread Call Reply Request Response} (hu : u ∈ s.threads) {row : Photo}
    (h : Inserted u.past row) : ⟨.newUUID, row.id⟩ ∈ u.past := by
  obtain ⟨arg, _, _, _, _, rfl, _, stores⟩ := h.stores follows hu
  exact stores.drawn

/-- The row and its two objects are what this upload made. -/
structure BackedBy (app : Application) (w : World) (row : Photo) (upload : UploadRequest)
    (original : Bytes) (bitmap : Bitmap) (thumb : Images.Thumb) : Prop where
  file : upload.file = .ok (.ok original)
  storageKey : row.storageKey = Photos.photoKey (uuidString row.id)
  stored : w.bucket.lookup row.storageKey = some ⟨original, "image/jpeg"⟩
  size : row.sizeBytes = original.length
  decoded : app.decode original = .ok bitmap
  width : row.width = bitmap.width
  height : row.height = bitmap.height
  thumbnail : Images.make app.toPackages original = .ok thumb
  thumbKey : row.thumbKey = Photos.thumbKey (uuidString row.id)
  thumbStored : w.bucket.lookup row.thumbKey = some ⟨thumb.jpeg, "image/jpeg"⟩

/-- Thread `i` is the one request that has created the row, and the row is backed by its upload. -/
def CreatedBy (app : Application) (s : ServerPool) (row : Photo) (i : Nat) : Prop :=
  (∃ u upload original bitmap thumb, s.threads[i]? = some u ∧ Inserted u.past row ∧
    u.task.route = .authorized (.uploadPhoto upload) ∧
    BackedBy app s.world row upload original bitmap thumb) ∧
  ∀ (j : Nat) v, s.threads[j]? = some v → Inserted v.past row → j = i

def Photo.keys (row : Photo) : List String := [row.storageKey, row.thumbKey]

/-- A row that a thread has inserted is backed by what that thread has stored. -/
theorem Inserted.createdBy {s : ServerPool} (stay : ObjectsStay s) (follows : s.Follows (server app))
    (once : DrawnOnce s) {u : Calls.Thread Call Reply Request Response} (hu : u ∈ s.threads)
    {row : Photo} (inserted : Inserted u.past row) : ∃ i, CreatedBy app s row i := by
  obtain ⟨i, hi⟩ := List.mem_iff_getElem?.mp hu
  obtain ⟨arg, upload, form, original, thumb, rfl, accepts, stores⟩ := inserted.stores follows hu
  obtain ⟨form_file, _, _⟩ := Photos.readForm_ok accepts.wellFormed
  obtain ⟨read, made⟩ := Photos.readImage_ok accepts.image
  obtain ⟨bitmap, decoded, width, height⟩ := Images.make_ok made
  refine ⟨i, ⟨u, upload, original, bitmap, thumb, hi, inserted, accepts.route, ?_⟩, ?_⟩
  · exact
      { file := read ▸ Photos.formFile_ok form_file
        storageKey := stores.storageKey
        stored := stay i u _ _ _ hi stores.putOriginal
        size := stores.size
        decoded := decoded
        width := stores.width.trans width
        height := stores.height.trans height
        thumbnail := made
        thumbKey := stores.thumbKey
        thumbStored := stay i u _ _ _ hi stores.putThumb }
  · intro j v hj other
    exact once j i v u _ hj hi (other.drew follows (List.mem_of_getElem? hj)) stores.drawn

/-- Rows with their own keys share none. -/
theorem keys_nodup {rows : List Photo} (ids : (rows.map Photo.id).Nodup)
    (own : ∀ row ∈ rows, row.storageKey = Photos.photoKey (uuidString row.id) ∧
      row.thumbKey = Photos.thumbKey (uuidString row.id)) : (rows.flatMap Photo.keys).Nodup := by
  have keyOf : ∀ row ∈ rows, ∀ key ∈ row.keys, KeyOf row.id key := by
    intro row hrow key hkey
    simp only [Photo.keys, List.mem_cons, List.not_mem_nil, or_false, own row hrow] at hkey
    exact hkey
  refine List.nodup_flatMap.mpr ⟨fun row hrow => ?_, ?_⟩
  · simp [Photo.keys, own row hrow, Photos.photoKey_ne_thumbKey]
  · refine (List.pairwise_map.mp ids).imp_of_mem fun {a b} ha hb apart key hka hkb => ?_
    exact apart ((keyOf a ha key hka).inj (keyOf b hb key hkb))

/-- In every state the server reaches from an empty album, whatever fails or is interrupted, each row
is backed by the objects of the one request that created it, and no two rows share a key. -/
theorem rows_backed {w : World} (valid : w.db.Valid) (empty : w.db.photos = [])
    {actions : List ServerAction} (fresh : (drawn (Pool.exec (server app) ⟨w, []⟩ actions)).Nodup) :
    let s := Pool.exec (server app) ⟨w, []⟩ actions
    (∀ row ∈ s.world.db.photos, ∃ i, CreatedBy app s row i) ∧
      (s.world.db.photos.flatMap Photo.keys).Nodup := by
  intro s
  have once : DrawnOnce s := drawnOnce_of_nodup fresh
  have owned := exec_owned app w actions
  obtain ⟨follows, stay⟩ := Pool.exec_induction_until
    (P := fun s : ServerPool => s.Follows (server app) ∧ ObjectsStay s) (fun _ _ => DrawnOnce.before)
    (fun s a _ h once => ⟨h.1.step a, h.2.step h.1 once.before⟩)
    ⟨Pool.follows_init, fun i u _ _ _ hu => by simp at hu⟩ once
  have created : ∀ row ∈ s.world.db.photos, ∃ i, CreatedBy app s row i := by
    intro row hrow
    rcases owned row hrow with old | ⟨u, hu, inserted⟩
    · simp only [empty, List.not_mem_nil] at old
    · exact inserted.createdBy stay follows once hu
  refine ⟨created, keys_nodup (exec_valid valid actions).photos_id fun row hrow => ?_⟩
  obtain ⟨_, ⟨_, _, _, _, _, _, _, _, by_⟩, _⟩ := created row hrow
  exact ⟨by_.storageKey, by_.thumbKey⟩

/-- Two uploads of one capture both find it missing, and the second is the first to insert. -/
private def sampleRace : List ServerAction :=
  .arrive (sampleCreate 0 10) :: List.replicate 6 (.act 0 (sampleChoice 1 7 1)) ++
    .arrive (sampleUpload (uuidString 9)) :: List.replicate 8 (.act 1 (sampleChoice 0 8 0)) ++
    .arrive (sampleUpload (uuidString 9)) :: List.replicate 9 (.act 2 (sampleChoice 0 11 0)) ++
    List.replicate 2 (.act 1 (sampleChoice 0 0 0))

theorem rows_backed_race :
    let s := Pool.exec (server sampleApp) ⟨sampleWorld, []⟩ sampleRace
    s.world.db.photos.map Photo.id = [11] ∧
      (∀ row ∈ s.world.db.photos, ∃ i, CreatedBy sampleApp s row i) ∧
      (s.world.db.photos.flatMap Photo.keys).Nodup :=
  ⟨by decide +kernel, rows_backed sampleWorld_valid rfl (by decide +kernel)⟩

end ItalyTrip
