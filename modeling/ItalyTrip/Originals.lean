import ItalyTrip.AlbumReadable

namespace ItalyTrip

open Calls

/-- The request has read this row of the photos. -/
inductive RowKnown (past : Past Reply) (row : Photo) : Prop
  | listed {eventID rows} (listed : ⟨.query (.listPhotosByEvent eventID), .ok rows⟩ ∈ past)
      (mem : row ∈ rows)
  | found {id} (found : ⟨.query (.findPhotoById id), .ok row⟩ ∈ past)

/-- A request opens only the originals of rows it has read. -/
def OpensKnown (past : Past Reply) (c : Call) : Prop :=
  ∀ key, c = .openObject key → ∃ row, RowKnown past row ∧ key = row.storageKey

theorem RowKnown.later {past past' : Past Reply} {row : Photo} (h : RowKnown past row)
    (sub : past ⊆ past') : RowKnown past' row := by
  cases h with
  | listed listed mem => exact .listed (sub listed) mem
  | found found => exact .found (sub found)

@[simp] theorem opensKnown_query {past : Past Reply} {q : Query} : OpensKnown past (.query q) := by
  simp [OpensKnown]

@[simp] theorem opensKnown_now {past : Past Reply} : OpensKnown past .now := by simp [OpensKnown]

@[simp] theorem opensKnown_newUUID {past : Past Reply} : OpensKnown past .newUUID := by
  simp [OpensKnown]

@[simp] theorem opensKnown_put {past : Past Reply} {key : String} {body : Bytes}
    {contentType : String} : OpensKnown past (.put key body contentType) := by simp [OpensKnown]

@[simp] theorem opensKnown_presignGet {past : Past Reply} {key : String} {ttl : Int} :
    OpensKnown past (.presignGet key ttl) := by simp [OpensKnown]

@[simp] theorem opensKnown_generate {past : Past Reply} :
    OpensKnown past .generateRefreshToken := by simp [OpensKnown]

theorem opensKnown_openObject {past : Past Reply} {row : Photo} (h : RowKnown past row) :
    OpensKnown past (.openObject row.storageKey) := by
  intro key same
  cases same
  exact ⟨row, h, rfl⟩

variable {app : Application} {past : Past Reply}

theorem archive_opens (rows : List Photo) (names : Photos.Names)
    (known : ∀ row ∈ rows, RowKnown past row) :
    (Photos.archive names rows).run.Ensures OpensKnown (fun _ _ => True) past := by
  induction rows generalizing past names with
  | nil => simp [Photos.archive]
  | cons row rows ih =>
    have later : ∀ x : Sigma Reply, ∀ row ∈ rows, RowKnown (x :: past) row := fun x row hrow =>
      (known row (List.mem_cons_of_mem _ hrow)).later (List.subset_cons_self _ _)
    simp only [Photos.archive, ensures_run_bind, ensures_request, forall_except]
    refine ⟨opensKnown_openObject (known row List.mem_cons_self), fun err => ?_, fun object => ?_⟩
    · simp
    · split
      · simp [ih _ (later _)]
      · simp

theorem signPhotos_opens (rows : List Photo) :
    (Photos.signPhotos rows).run.Ensures OpensKnown (fun _ _ => True) past := by
  induction rows generalizing past with
  | nil => simp [Photos.signPhotos]
  | cons row rows ih => simp [Photos.signPhotos, ih]

/-- The answer to `GET /photos/:id/original` carries the object of the row with that id. -/
def AnswersOriginal (app : Application) (param : String) (past : Past Reply) (response : Response) : Prop :=
  ∀ disposition contentType length body,
    response.body = .attachment disposition contentType length body → ∃ id, ∃ row : Photo, ∃ object,
      app.parseUUID param = .ok id ∧ ⟨.query (.findPhotoById id), .ok row⟩ ∈ past ∧
      ⟨.openObject row.storageKey, .ok object⟩ ∈ past ∧
      disposition = contentDisposition app.toPackages (Photos.downloadFilename row.takenAt) ∧
      contentType = (if object.contentType = "" then "image/jpeg" else object.contentType) ∧
      length = object.contentLength ∧ body = object.body

theorem answersOriginal_error {param : String} {status : Nat} {message : String} :
    AnswersOriginal app param past (writeErrorFromString status message) := by
  intro _ _ _ _ h
  cases h

/-- The entry links to the two objects of the row, for as long as the URLs last. -/
structure LinksTo (past : Past Reply) (entry : PhotoResponse) (row : Photo) : Prop where
  id : entry.id = uuidString row.id
  takenAt : entry.takenAt = row.takenAt
  width : entry.width = row.width
  height : entry.height = row.height
  url : ⟨.presignGet row.storageKey Photos.presignTTL, .ok entry.url⟩ ∈ past
  thumbURL : ⟨.presignGet row.thumbKey Photos.presignTTL, .ok entry.thumbURL⟩ ∈ past

def AnswersAlbum (past : Past Reply) (response : Response) : Prop :=
  ∀ out, response.body = .album out → ∃ eventID rows,
    ⟨.query (.listPhotosByEvent eventID), .ok rows⟩ ∈ past ∧ List.Forall₂ (LinksTo past) out rows

/-- Each entry of the archive is what was read of a photo, and only the last may be cut off. -/
structure Archives (past : Past Reply) (rows : List Photo) (entries : List (String × Bytes))
    (objects : List Download) : Prop where
  opened : List.Forall₂ (fun object row => ⟨.openObject row.storageKey, .ok object⟩ ∈ past) objects
    (rows.take objects.length)
  bodies : entries.map Prod.snd = objects.map Download.body
  whole : ∀ object ∈ objects.dropLast, object.complete = true

def AnswersArchive (past : Past Reply) (response : Response) : Prop :=
  ∀ disposition entries, response.body = .zip disposition entries → ∃ eventID rows objects,
    ⟨.query (.listPhotosByEvent eventID), .ok rows⟩ ∈ past ∧ Archives past rows entries objects

theorem ensures_links (rows : List Photo) :
    (Photos.signPhotos rows).run.Ensures (fun _ _ => True) (fun past' result => past ⊆ past' ∧
      match result with
      | .ok out => List.Forall₂ (LinksTo past') out rows
      | .error response => NoAlbum response) past := by
  induction rows generalizing past with
  | nil => exact ⟨List.Subset.refl _, List.Forall₂.nil⟩
  | cons row rows ih =>
    simp only [Photos.signPhotos, ensures_run_bind, ensures_request, ensures_orThrow, ensures_run_pure]
    refine ⟨trivial, fun signed => ⟨fun err _ => ⟨List.subset_cons_self _ _, noAlbum_error⟩, ?_⟩⟩
    intro url hurl
    subst hurl
    refine ⟨trivial, fun signed => ⟨fun err _ => ⟨?_, noAlbum_error⟩, fun thumbURL hthumb => ?_⟩⟩
    · exact fun x hx => by simp [hx]
    subst hthumb
    refine ih.mono (fun _ _ h => h) fun past' result h => ?_
    obtain ⟨sub, h⟩ := h
    have sub' : past ⊆ past' := fun x hx => sub (by simp [hx])
    cases result with
    | error response => exact ⟨sub', h⟩
    | ok out =>
      exact ⟨sub', .cons ⟨rfl, rfl, rfl, rfl, sub (List.mem_cons_of_mem _ List.mem_cons_self),
        sub List.mem_cons_self⟩ h⟩

theorem archives_nil {rows : List Photo} : Archives past rows [] [] :=
  ⟨by simp, rfl, by simp⟩

theorem Archives.cons {row : Photo} {rows : List Photo} {entries : List (String × Bytes)}
    {objects : List Download} {object : Download} {name : String}
    (opened : ⟨.openObject row.storageKey, .ok object⟩ ∈ past) (complete : object.complete = true)
    (h : Archives past rows entries objects) :
    Archives past (row :: rows) ((name, object.body) :: entries) (object :: objects) := by
  refine ⟨?_, ?_, fun x hx => ?_⟩
  · rw [List.length_cons, List.take_succ_cons]
    exact .cons opened h.opened
  · rw [List.map_cons, List.map_cons, h.bodies]
  · cases objects with
    | nil => simp at hx
    | cons y objects =>
      rw [List.dropLast_cons_of_ne_nil (List.cons_ne_nil _ _)] at hx
      rcases List.mem_cons.mp hx with rfl | hx
      · exact complete
      · exact h.whole x hx

theorem ensures_archives (rows : List Photo) (names : Photos.Names) :
    (Photos.archive names rows).run.Ensures (fun _ _ => True) (fun past' result => past ⊆ past' ∧
      ∃ entries objects, result = .ok entries ∧ Archives past' rows entries objects) past := by
  induction rows generalizing past names with
  | nil => exact ⟨List.Subset.refl _, [], [], rfl, archives_nil⟩
  | cons row rows ih =>
    simp only [Photos.archive, ensures_run_bind, ensures_request, forall_except]
    refine ⟨trivial, fun err => ⟨List.subset_cons_self _ _, [], [], rfl, archives_nil⟩, fun object => ?_⟩
    split
    next complete =>
      rw [ensures_run_bind]
      refine (ih _).mono (fun _ _ h => h) fun past' result h => ?_
      obtain ⟨sub, entries, objects, rfl, archives⟩ := h
      refine ⟨fun x hx => sub (List.mem_cons_of_mem _ hx), _, object :: objects, rfl, ?_⟩
      exact archives.cons (sub List.mem_cons_self) complete
    next =>
      exact ⟨List.subset_cons_self _ _, _, [object], rfl, by simp, rfl, by simp⟩

theorem session_opens {user : User} :
    (Users.session app user).run.Ensures OpensKnown (fun _ _ => True) past := by
  simp [Users.session, Users.issueRefreshToken, issue]

theorem savePhoto_opens {event : Event} {user : User} {form : Photos.UploadForm}
    {original : Bytes} {thumb : Images.Thumb} :
    (Photos.savePhoto event user form original thumb).run.Ensures OpensKnown (fun _ _ => True)
      past := by
  simp [Photos.savePhoto, forall_except]

theorem handle_opens {user : User} {route : AuthorizedRoute} :
    (route.handle app user).run.Ensures OpensKnown (fun _ _ => True) past := by
  cases route with
  | me => simp [AuthorizedRoute.handle, Users.me]
  | currentEvent => simp [AuthorizedRoute.handle, Events.current]
  | createEvent body => simp [AuthorizedRoute.handle, Events.create, Events.startEvent]
  | uploadPhoto req =>
    exact Photos.ensures_upload.mpr
      { current := opensKnown_query
        clock := fun _ => opensKnown_now
        lookup := fun _ => opensKnown_query
        save := fun _ _ _ => savePhoto_opens }
  | listPhotos => simp [AuthorizedRoute.handle, Photos.list, signPhotos_opens]
  | downloadAll =>
    simp only [AuthorizedRoute.handle, Photos.downloadAll, ensures_run_bind,
      Photos.ensures_requireUnlocked, ensures_request, ensures_orThrow, ensures_run_pure,
      opensKnown_query, opensKnown_now, implies_true, true_and]
    intro event t _ listed rows hrows
    refine (archive_opens rows [] fun row hrow => ?_).mono (fun _ _ h => h) fun _ result _ => ?_
    · exact .listed (List.mem_cons.mpr (Or.inl (by rw [hrows]))) hrow
    · cases result <;> trivial
  | originalPhoto id =>
    simp only [AuthorizedRoute.handle, Photos.original, ensures_run_bind,
      Photos.ensures_requireUnlocked, ensures_request, ensures_orThrow, ensures_run_pure,
      opensKnown_query, opensKnown_now, implies_true, and_true, true_and]
    intro event t _ id _ found row hrow
    exact opensKnown_openObject (.found (List.mem_cons.mpr (Or.inl (by rw [hrow]))))

/-- Whatever it is asked, the server opens only originals of photos that it has looked up. -/
theorem serve_opens (req : Request) : (serve app req).Ensures OpensKnown (fun _ _ => True) [] := by
  obtain ⟨header, cookie, route⟩ := req
  rw [ensures_serve]
  cases route with
  | login body => simp [handle, Users.login, session_opens]
  | refresh => simp [handle, Users.refresh, session_opens]
  | authorized route => simp [handle, handle_opens]

theorem serve_original {req : Request} {param : String}
    (route : req.route = .authorized (.originalPhoto param)) :
    (serve app req).Ensures (fun _ _ => True) (AnswersOriginal app param) [] := by
  have refused : ∀ {past status message},
      AnswersOriginal app param past (writeErrorFromString status message) := answersOriginal_error
  refine ensures_authorized route
    { noToken := fun _ => refused
      rejected := fun _ _ err _ _ => by cases err <;> exact fun _ _ _ _ h => by cases h
      badSubject := fun _ _ _ _ _ _ _ => refused
      notFound := fun _ _ => refused
      handled := fun _ user => ?_ }
  simp only [AuthorizedRoute.handle, Photos.original, ensures_run_bind,
    Photos.ensures_requireUnlocked, ensures_request, ensures_orThrow, ensures_run_pure, written_ok,
    written_error, true_and]
  refine ⟨fun err => by cases err <;> exact refused, fun event t => ⟨fun _ => refused, fun _ => ?_⟩⟩
  refine ⟨fun _ _ => refused, fun id parsed => fun found => ⟨fun err _ => ?_, fun row hrow => ?_⟩⟩
  · cases err <;> exact refused
  subst hrow
  refine fun opened => ⟨fun _ _ => refused, fun object hobject => ?_⟩
  subst hobject
  intro disposition contentType length body attached
  cases attached
  exact ⟨id, row, object, parsed, by simp, by simp, rfl, rfl, rfl, rfl⟩

theorem serve_album {req : Request} (route : req.route = .authorized .listPhotos) :
    (serve app req).Ensures (fun _ _ => True) AnswersAlbum [] := by
  have refused : ∀ {past status message},
      AnswersAlbum past (writeErrorFromString status message) := fun out h => by cases h
  refine ensures_authorized route
    { noToken := fun _ => refused
      rejected := fun _ _ err _ _ => by cases err <;> exact fun _ h => by cases h
      badSubject := fun _ _ _ _ _ _ _ => refused
      notFound := fun _ _ => refused
      handled := fun _ user => ?_ }
  simp only [AuthorizedRoute.handle, Photos.list, ensures_run_bind, Photos.ensures_requireUnlocked,
    ensures_request, ensures_orThrow, ensures_run_pure, written_ok, written_error, true_and]
  refine ⟨fun err => by cases err <;> exact refused, fun event t => ⟨fun _ => refused, fun _ => ?_⟩⟩
  refine fun listed => ⟨fun _ _ => refused, fun rows hrows => ?_⟩
  subst hrows
  refine (ensures_links rows).mono (fun _ _ h => h) fun past' result h => ?_
  obtain ⟨sub, h⟩ := h
  cases result with
  | error response => exact fun out body => absurd body (h out)
  | ok out =>
    intro out' body
    rw [writeJSON] at body
    split at body <;> cases body
    exact ⟨event.id, rows, sub List.mem_cons_self, h⟩

theorem serve_archive {req : Request} (route : req.route = .authorized .downloadAll) :
    (serve app req).Ensures (fun _ _ => True) AnswersArchive [] := by
  have refused : ∀ {past status message},
      AnswersArchive past (writeErrorFromString status message) := fun _ _ h => by cases h
  refine ensures_authorized route
    { noToken := fun _ => refused
      rejected := fun _ _ err _ _ => by cases err <;> exact fun _ _ h => by cases h
      badSubject := fun _ _ _ _ _ _ _ => refused
      notFound := fun _ _ => refused
      handled := fun _ user => ?_ }
  simp only [AuthorizedRoute.handle, Photos.downloadAll, ensures_run_bind,
    Photos.ensures_requireUnlocked, ensures_request, ensures_orThrow, ensures_run_pure, written_ok,
    written_error, true_and]
  refine ⟨fun err => by cases err <;> exact refused, fun event t => ⟨fun _ => refused, fun _ => ?_⟩⟩
  refine fun listed => ⟨fun _ _ => refused, fun rows hrows => ?_⟩
  subst hrows
  refine (ensures_archives rows []).mono (fun _ _ h => h) fun past' result h => ?_
  obtain ⟨sub, entries, objects, rfl, archives⟩ := h
  intro disposition entries' body
  cases body
  exact ⟨event.id, rows, objects, sub List.mem_cons_self, archives⟩

/-- The download is the beginning of the stored object, or all of it. -/
structure CopyOf (object : Download) (stored : Object) : Prop where
  contentType : object.contentType = stored.contentType
  body : object.body <+: stored.body
  whole : object.complete = true → object.body = stored.body
  contentLength : object.contentLength = -1 ∨ object.contentLength = stored.body.length

theorem perform_copy {o : Choice} {w w' : World} {key : String} {object : Download}
    (h : perform o w (.openObject key) = some (.ok object, w')) :
    w' = w ∧ ∃ stored, w.bucket.lookup key = some stored ∧ CopyOf object stored := by
  simp only [perform] at h
  split at h
  next =>
    unfold World.download at h
    split at h <;> cases h
    next stored hstored =>
      refine ⟨rfl, stored, hstored, rfl, List.take_prefix _ _, fun complete => ?_, ?_⟩
      · rw [Option.isNone_iff_eq_none.mp complete]
        exact List.take_length
      · dsimp only
        split
        · exact Or.inr rfl
        · exact Or.inl rfl
  next => cases h

/-- The reply is about a photo that is there: its row, or what is stored as its original. -/
def AboutPhoto (s : ServerPool) : Sigma Reply → Prop
  | ⟨.query (.listPhotosByEvent _), .ok rows⟩ => rows ⊆ s.world.db.photos
  | ⟨.query (.findPhotoById id), .ok row⟩ => row ∈ s.world.db.photos ∧ row.id = id
  | ⟨.openObject key, .ok object⟩ => ∃ row ∈ s.world.db.photos, key = row.storageKey ∧
      ∃ stored, s.world.bucket.lookup key = some stored ∧ CopyOf object stored
  | ⟨.presignGet key ttl, .ok url⟩ => url.key = key ∧ url.ttl = ttl
  | _ => True

/-- All rows have been inserted by requests that stored their objects, and all replies are about them. -/
structure Genuine (app : Application) (s : ServerPool) : Prop where
  follows : s.Follows (server app)
  owned : Owned [] s
  stay : ObjectsStay s
  about : ∀ u ∈ s.threads, ∀ x ∈ u.past, AboutPhoto s x

theorem photos_grow (app : Application) (s : ServerPool) (a : ServerAction) :
    s.world.db.photos ⊆ (s.step (server app) a).world.db.photos := by
  rcases step_photos app s a with same | ⟨_, _, _, _, _, _, _, _, added⟩
  · rw [same]
    exact List.Subset.refl _
  · rw [added]
    exact List.subset_append_left _ _

/-- The original of a row stays what it is. -/
theorem Genuine.lookup {s : ServerPool} (genuine : Genuine app s) {a : ServerAction}
    (stay : ObjectsStay (s.step (server app) a)) {row : Photo} (hrow : row ∈ s.world.db.photos) :
    (s.step (server app) a).world.bucket.lookup row.storageKey =
      s.world.bucket.lookup row.storageKey := by
  rcases genuine.owned row hrow with old | ⟨u, hu, inserted⟩
  · exact absurd old List.not_mem_nil
  · obtain ⟨arg, _, _, original, _, rfl, _, stores⟩ := inserted.stores genuine.follows hu
    obtain ⟨i, hi⟩ := List.mem_iff_getElem?.mp hu
    obtain ⟨v, hv, _, past⟩ := Pool.step_past (m := server app) s a hi
    have before := genuine.stay i u _ _ _ hi stores.putOriginal
    have after := stay i v _ _ _ hv (past.subset stores.putOriginal)
    exact after.trans before.symm

theorem AboutPhoto.step {s : ServerPool} (genuine : Genuine app s) {a : ServerAction}
    (stay : ObjectsStay (s.step (server app) a)) {x : Sigma Reply} (h : AboutPhoto s x) :
    AboutPhoto (s.step (server app) a) x := by
  have grow := photos_grow app s a
  unfold AboutPhoto at h ⊢
  split
  next => exact List.Subset.trans h grow
  next => exact ⟨grow h.1, h.2⟩
  next =>
    obtain ⟨row, hrow, rfl, stored, hstored, copy⟩ := h
    exact ⟨row, grow hrow, rfl, stored, (genuine.lookup stay hrow).trans hstored, copy⟩
  next => exact h
  next => trivial

theorem RowKnown.mem {s : ServerPool} {row : Photo} (known : RowKnown past row)
    (about : ∀ x ∈ past, AboutPhoto s x) : row ∈ s.world.db.photos := by
  cases known with
  | listed listed mem => exact about _ listed mem
  | found found => exact (about _ found).1

/-- A reply that the server has just been given is about a photo. -/
theorem Genuine.reply {s : ServerPool} (genuine : Genuine app s) {a : ServerAction} {i : Nat}
    {t : Request} {past : Past Reply} {c : Call} {next : Reply c → Prog Call Reply Response}
    {choice : Choice} {r : Reply c}
    (x : Pool.Exchange (server app) s (s.step (server app) a) i t past c next choice r) :
    AboutPhoto (s.step (server app) a) ⟨c, r⟩ := by
  have grow := photos_grow app s a
  have performed := x.performed
  unfold AboutPhoto
  split
  next rows same =>
    cases same
    have listed := congrArg Prod.fst (perform_ok performed)
    refine List.Subset.trans (fun row hrow => ?_) grow
    rw [← Except.ok.inj listed, Database.listPhotosByEvent, List.mem_insertionSort] at hrow
    exact (List.mem_filter.mp hrow).1
  next id row same =>
    cases same
    have found := oneRow_ok (congrArg Prod.fst (perform_ok performed)).symm
    exact ⟨grow (List.mem_of_find?_eq_some found), by simpa using List.find?_some found⟩
  next key object same =>
    cases same
    obtain ⟨_, leads, rest⟩ := genuine.follows _ x.mem
    obtain rfl := rest _ rfl
    obtain ⟨row, known, rfl⟩ := (serve_opens t).at_call leads key rfl
    have hrow := known.mem (genuine.about _ x.mem)
    obtain ⟨same, stored, hstored, copy⟩ := perform_copy performed
    exact ⟨row, grow hrow, rfl, stored, same ▸ hstored, copy⟩
  next key ttl url same =>
    cases same
    change perform choice s.world (.presignGet key ttl) = _ at performed
    simp only [perform] at performed
    split at performed
    next =>
      cases Except.ok.inj (Prod.mk.inj (Option.some.inj performed)).1
      exact ⟨rfl, rfl⟩
    next => cases (Prod.mk.inj (Option.some.inj performed)).1
  next => trivial

theorem Genuine.step {s : ServerPool} (genuine : Genuine app s) {a : ServerAction}
    (once : DrawnOnce (s.step (server app) a)) : Genuine app (s.step (server app) a) := by
  have stay := genuine.stay.step genuine.follows (a := a) once.before
  refine ⟨genuine.follows.step a, genuine.owned.step a, stay, ?_⟩
  exact Pool.replies_step genuine.about (fun _ h => h.step genuine stay) genuine.reply

/-- In every state the server reaches from an empty album, whatever fails or is interrupted. -/
theorem exec_genuine {w : World} (empty : w.db.photos = []) {actions : List ServerAction}
    (fresh : (drawn (Pool.exec (server app) ⟨w, []⟩ actions)).Nodup) :
    Genuine app (Pool.exec (server app) ⟨w, []⟩ actions) := by
  refine Pool.exec_induction_until (P := Genuine app) (fun _ _ => DrawnOnce.before)
    (fun _ _ _ h once => h.step once) ⟨Pool.follows_init, ?_, ?_, ?_⟩ (drawnOnce_of_nodup fresh)
  · intro row hrow
    rw [empty] at hrow
    exact Or.inl hrow
  · exact fun i u _ _ _ hu => by simp at hu
  · exact fun u hu => absurd hu List.not_mem_nil

/-- This upload has created the row, and its file is the original of the photo. -/
def CreatedFrom (app : Application) (s : ServerPool) (row : Photo) (original : Bytes) : Prop :=
  ∃ (i : Nat) (u : Calls.Thread Call Reply Request Response) (upload : UploadRequest)
    (bitmap : Bitmap) (thumb : Images.Thumb), s.threads[i]? = some u ∧ Inserted u.past row ∧
    u.task.route = .authorized (.uploadPhoto upload) ∧
    BackedBy app s.world row upload original bitmap thumb ∧
    ∀ (j : Nat) v, s.threads[j]? = some v → Inserted v.past row → j = i

theorem Genuine.createdFrom {s : ServerPool} (genuine : Genuine app s) (once : DrawnOnce s)
    {row : Photo} (hrow : row ∈ s.world.db.photos) : ∃ original, CreatedFrom app s row original := by
  rcases genuine.owned row hrow with old | ⟨u, hu, inserted⟩
  · exact absurd old List.not_mem_nil
  · obtain ⟨i, ⟨v, upload, original, bitmap, thumb, hv, inserted, route, backed⟩, only⟩ :=
      inserted.createdBy genuine.stay genuine.follows once hu
    exact ⟨original, i, v, upload, bitmap, thumb, hv, inserted, route, backed, only⟩

/-- What was opened as the original of a row is what the upload that created the row has sent. -/
theorem CreatedFrom.copy {s : ServerPool} {row : Photo} {original : Bytes}
    (created : CreatedFrom app s row original) {object : Download} {stored : Object}
    (hstored : s.world.bucket.lookup row.storageKey = some stored) (copy : CopyOf object stored) :
    CopyOf object ⟨original, "image/jpeg"⟩ := by
  obtain ⟨_, _, _, _, _, _, _, _, backed, _⟩ := created
  obtain rfl := Option.some.inj (hstored.symm.trans backed.stored)
  exact copy

theorem Genuine.opened {s : ServerPool} (genuine : Genuine app s) (once : DrawnOnce s)
    {u : Calls.Thread Call Reply Request Response} (hu : u ∈ s.threads) {row : Photo}
    {object : Download} (hrow : row ∈ s.world.db.photos)
    (hopened : ⟨.openObject row.storageKey, .ok object⟩ ∈ u.past) :
    ∃ original, CreatedFrom app s row original ∧ CopyOf object ⟨original, "image/jpeg"⟩ := by
  obtain ⟨_, _, _, stored, hstored, copy⟩ := genuine.about u hu _ hopened
  obtain ⟨original, created⟩ := genuine.createdFrom once hrow
  exact ⟨original, created, created.copy hstored copy⟩

/-- What a request has answered, it answers from what it has exchanged. -/
theorem Genuine.answer {s : ServerPool} (genuine : Genuine app s)
    {u : Calls.Thread Call Reply Request Response} (hu : u ∈ s.threads) {response : Response}
    (answered : u.result = some response) {atDone : Past Reply → Response → Prop}
    (serves : (serve app u.task).Ensures (fun _ _ => True) atDone []) : atDone u.past response := by
  obtain ⟨_, leads, rest⟩ := genuine.follows u hu
  obtain rfl := rest _ (Thread.rest_of_result answered)
  exact serves.at_done leads

variable {w : World} {actions : List ServerAction} {s : ServerPool}
  {u : Calls.Thread Call Reply Request Response} {response : Response}

/-- Whatever else goes on, what the server answers as an original is, from its first byte on, the file
of the one upload that created the photo with that id. -/
theorem original_genuine (reached : Pool.exec (server app) ⟨w, []⟩ actions = s)
    (empty : w.db.photos = []) (fresh : (drawn s).Nodup) (hu : u ∈ s.threads) {param : String}
    (route : u.task.route = .authorized (.originalPhoto param)) (answered : u.result = some response)
    {disposition contentType : String} {length : Int} {body : Bytes}
    (attached : response.body = .attachment disposition contentType length body) :
    ∃ row ∈ s.world.db.photos, ∃ original object, app.parseUUID param = .ok row.id ∧
      CreatedFrom app s row original ∧ ⟨.openObject row.storageKey, .ok object⟩ ∈ u.past ∧
      disposition = contentDisposition app.toPackages (Photos.downloadFilename row.takenAt) ∧
      contentType = "image/jpeg" ∧ (length = -1 ∨ length = original.length) ∧ body <+: original ∧
      (object.complete = true → body = original) := by
  subst reached
  have genuine : Genuine app _ := exec_genuine empty fresh
  obtain ⟨id, row, object, parsed, found, hopened, rfl, rfl, rfl, rfl⟩ :=
    genuine.answer hu answered (serve_original route) disposition contentType length body attached
  obtain ⟨hrow, rfl⟩ := genuine.about u hu _ found
  obtain ⟨original, created, copy⟩ := genuine.opened (drawnOnce_of_nodup fresh) hu hrow hopened
  refine ⟨row, hrow, original, object, parsed, created, hopened, rfl, ?_, copy.contentLength, copy.body,
    copy.whole⟩
  rw [copy.contentType]
  rfl

/-- The originals of rows that have been opened one by one. -/
theorem archived_originals {rows : List Photo} {objects : List Download}
    (genuine : ∀ row object, row ∈ rows → ⟨.openObject row.storageKey, .ok object⟩ ∈ past →
      ∃ original, CreatedFrom app s row original ∧ CopyOf object ⟨original, "image/jpeg"⟩)
    {opened : List Photo} (sub : opened ⊆ rows)
    (h : List.Forall₂ (fun object row => ⟨.openObject row.storageKey, .ok object⟩ ∈ past) objects
      opened) : ∃ originals, List.Forall₂ (CreatedFrom app s) opened originals ∧
      List.Forall₂ (fun object original => CopyOf object ⟨original, "image/jpeg"⟩) objects originals := by
  induction h with
  | nil => exact ⟨[], .nil, .nil⟩
  | cons here _ ih =>
    obtain ⟨original, created, copy⟩ := genuine _ _ (sub List.mem_cons_self) here
    obtain ⟨originals, rest, copies⟩ := ih fun row hrow => sub (List.mem_cons_of_mem _ hrow)
    exact ⟨original :: originals, .cons created rest, .cons copy copies⟩

theorem copied_whole {objects : List Download} {originals : List Bytes}
    (copies : List.Forall₂ (fun object original => CopyOf object ⟨original, "image/jpeg"⟩) objects
      originals) (whole : ∀ object ∈ objects.dropLast, object.complete = true) :
    (objects.map Download.body).dropLast = originals.dropLast := by
  induction copies with
  | nil => rfl
  | @cons object original objects originals copy rest ih =>
    cases rest with
    | nil => rfl
    | cons copy' rest =>
      have first := copy.whole (whole object List.mem_cons_self)
      have others := ih fun x hx => whole x (List.mem_cons_of_mem _ hx)
      rw [List.map_cons, List.map_cons, List.dropLast_cons_of_ne_nil (List.cons_ne_nil _ _), first]
      exact congrArg (original :: ·) others

/-- Every entry of the archive is, from its first byte on, the file of the one upload that created its
photo, and only the last can break off. -/
theorem archive_genuine (reached : Pool.exec (server app) ⟨w, []⟩ actions = s)
    (empty : w.db.photos = []) (fresh : (drawn s).Nodup) (hu : u ∈ s.threads)
    (route : u.task.route = .authorized .downloadAll) (answered : u.result = some response)
    {disposition : String} {entries : List (String × Bytes)}
    (zipped : response.body = .zip disposition entries) :
    ∃ eventID rows originals, rows ∈ listedRows eventID u.past ∧ entries.length ≤ rows.length ∧
      List.Forall₂ (CreatedFrom app s) (rows.take entries.length) originals ∧
      List.Forall₂ (fun entry original => entry.2 <+: original) entries originals ∧
      entries.dropLast.map Prod.snd = originals.dropLast := by
  subst reached
  have genuine : Genuine app _ := exec_genuine empty fresh
  have once := drawnOnce_of_nodup fresh
  obtain ⟨eventID, rows, objects, listed, archives⟩ :=
    genuine.answer hu answered (serve_archive route) disposition entries zipped
  have there : rows ⊆ _ := genuine.about u hu _ listed
  obtain ⟨originals, created, copies⟩ := archived_originals (fun row object hrow hopened =>
    genuine.opened once hu (there hrow) hopened) (List.take_subset _ _) archives.opened
  have count : entries.length = objects.length := by
    simpa using congrArg List.length archives.bodies
  refine ⟨eventID, rows, originals, mem_listedRows.mpr listed, ?_, count ▸ created, ?_, ?_⟩
  · have le := archives.opened.length_eq
    rw [List.length_take] at le
    omega
  · have parts : List.Forall₂ (· <+: ·) (objects.map Download.body) originals :=
      List.forall₂_map_left_iff.mpr (copies.imp fun _ _ copy => copy.body)
    rw [← archives.bodies] at parts
    exact List.forall₂_map_left_iff.mp parts
  · rw [← copied_whole copies archives.whole, List.map_dropLast, archives.bodies]

/-- The entry shows the photo of the row, and its URLs name the keys of the photo's two objects. -/
structure Shows (app : Application) (s : ServerPool) (entry : PhotoResponse) (row : Photo) : Prop where
  mem : row ∈ s.world.db.photos
  created : ∃ original, CreatedFrom app s row original
  id : entry.id = uuidString row.id
  takenAt : entry.takenAt = row.takenAt
  size : entry.width = row.width ∧ entry.height = row.height
  url : entry.url.key = row.storageKey ∧ entry.url.ttl = Photos.presignTTL
  thumbURL : entry.thumbURL.key = row.thumbKey ∧ entry.thumbURL.ttl = Photos.presignTTL

theorem LinksTo.shows (genuine : Genuine app s) (once : DrawnOnce s) (hu : u ∈ s.threads)
    {out : List PhotoResponse} {rows : List Photo} (links : List.Forall₂ (LinksTo u.past) out rows)
    (there : rows ⊆ s.world.db.photos) : List.Forall₂ (Shows app s) out rows := by
  induction links with
  | nil => exact .nil
  | cons link _ ih =>
    have hrow := there List.mem_cons_self
    refine .cons ?_ (ih fun row h => there (List.mem_cons_of_mem _ h))
    exact
      { mem := hrow
        created := genuine.createdFrom once hrow
        id := link.id
        takenAt := link.takenAt
        size := ⟨link.width, link.height⟩
        url := genuine.about u hu _ link.url
        thumbURL := genuine.about u hu _ link.thumbURL }

/-- Every entry of an album shows the photo with its id, and its two URLs lead, also later, to the file
of the one upload that created the photo and to the thumbnail made of it. -/
theorem album_genuine (reached : Pool.exec (server app) ⟨w, []⟩ actions = s)
    (empty : w.db.photos = []) (fresh : (drawn s).Nodup) (hu : u ∈ s.threads)
    (route : u.task.route = .authorized .listPhotos) (answered : u.result = some response)
    {out : List PhotoResponse} (listed : response.body = .album out) :
    ∃ eventID rows, rows ∈ listedRows eventID u.past ∧
      List.Forall₂ (Shows app s) out rows := by
  subst reached
  have genuine : Genuine app _ := exec_genuine empty fresh
  obtain ⟨eventID, rows, hlisted, links⟩ := genuine.answer hu answered (serve_album route) out listed
  have there : rows ⊆ _ := genuine.about u hu _ hlisted
  exact ⟨eventID, rows, mem_listedRows.mpr hlisted,
    LinksTo.shows genuine (drawnOnce_of_nodup fresh) hu links there⟩

private def sampleLarger : Request :=
  sampleRequest (.uploadPhoto
    ⟨100, .ok (.ok [0xff, 0xd8, 0xff, 0xe0]), uuidString 10, "1970-01-01T00:00:02Z"⟩)

private def sampleOpens (t n : Nat) (readable : Option Nat) : List ServerAction :=
  List.replicate n (.act t { sampleChoice 0 0 0 with readable })

/-- Two photos are uploaded. After the end the original of the first is read until the connection breaks, the
album is listed, and the archive is downloaded, the second photo of which breaks off. -/
private def sampleViewed : ServerPool :=
  Pool.exec (server sampleApp) ⟨sampleWorld, []⟩
    (.arrive (sampleCreate 0 10) :: List.replicate 6 (.act 0 (sampleChoice 1 7 1)) ++
      .arrive (sampleUpload (uuidString 9)) :: List.replicate 9 (.act 1 (sampleChoice 0 8 0)) ++
      .arrive sampleLarger :: List.replicate 9 (.act 2 (sampleChoice 0 11 0)) ++
      .env 10000000000 ::
      .arrive (sampleRequest (.originalPhoto (uuidString 8))) :: sampleOpens 3 6 (some 2) ++
      .arrive (sampleRequest .listPhotos) :: sampleOpens 4 9 none ++
      .arrive (sampleRequest .downloadAll) :: (sampleOpens 5 6 none ++ sampleOpens 5 1 (some 3)))

private theorem sampleViewed_fresh : (drawn sampleViewed).Nodup := by decide +kernel

private inductive Asked where
  | original (param : String)
  | album
  | archive
  deriving DecidableEq

private def Asked.route : Asked → AuthorizedRoute
  | .original param => .originalPhoto param
  | .album => .listPhotos
  | .archive => .downloadAll

private def asked : Request → Option Asked
  | ⟨_, _, .authorized (.originalPhoto param)⟩ => some (.original param)
  | ⟨_, _, .authorized .listPhotos⟩ => some .album
  | ⟨_, _, .authorized .downloadAll⟩ => some .archive
  | _ => none

private theorem asked_route {req : Request} {a : Asked} (h : asked req = some a) :
    req.route = .authorized a.route := by
  unfold asked at h
  split at h <;> cases h <;> rfl

private theorem sampleViewed_answers :
    (sampleViewed.threads.drop 3).map (fun u => (asked u.task, u.result.map Response.body)) =
      [(some (.original (uuidString 8)), some (.attachment
        "attachment; filename=\"italy-19700101-000002.jpg\"" "image/jpeg" 3 [0xff, 0xd8])),
      (some .album, some (.album [⟨uuidString 8, 2000000000, 1, 1,
        ⟨Photos.photoKey (uuidString 8), 3600000000000, "text"⟩,
        ⟨Photos.thumbKey (uuidString 8), 3600000000000, "text"⟩⟩, ⟨uuidString 11, 2000000000, 1, 1,
        ⟨Photos.photoKey (uuidString 11), 3600000000000, "text"⟩,
        ⟨Photos.thumbKey (uuidString 11), 3600000000000, "text"⟩⟩])),
      (some .archive, some (.zip "attachment; filename=\"italy-trip-photos.zip\""
        [("italy-19700101-000002.jpg", [0xff, 0xd8, 0xff]),
          ("italy-19700101-000002-2.jpg", [0xff, 0xd8, 0xff])]))] := by
  decide +kernel

/-- The threads that gave these answers. -/
private theorem sampleViewed_thread {i : Nat} {a : Asked} {body : Body}
    (h : ((sampleViewed.threads.drop 3).map fun u =>
      (asked u.task, u.result.map Response.body))[i]? = some (some a, some body)) :
    ∃ u ∈ sampleViewed.threads, ∃ response, u.task.route = .authorized a.route ∧
      u.result = some response ∧ response.body = body := by
  rw [List.getElem?_map] at h
  obtain ⟨u, hu, facts⟩ := Option.map_eq_some_iff.mp h
  obtain ⟨route, result⟩ := Prod.mk.inj facts
  obtain ⟨response, answered, hbody⟩ := Option.map_eq_some_iff.mp result
  exact ⟨u, List.mem_of_mem_drop (List.mem_of_getElem? hu), response, asked_route route, answered, hbody⟩

theorem original_genuine_sample : ∃ row ∈ sampleViewed.world.db.photos, ∃ original,
    CreatedFrom sampleApp sampleViewed row original ∧ [0xff, 0xd8] <+: original := by
  obtain ⟨u, hu, response, route, answered, body⟩ :=
    sampleViewed_thread (i := 0) (by rw [sampleViewed_answers]; rfl)
  obtain ⟨row, hrow, original, _, _, created, _, _, _, _, part, _⟩ :=
    original_genuine (s := sampleViewed) rfl rfl sampleViewed_fresh hu route answered body
  exact ⟨row, hrow, original, created, part⟩

/-- The first entry is all of its original, the second is the first three bytes of its own. -/
theorem archive_genuine_sample : ∃ (rows : List Photo) (first second : Bytes),
    List.Forall₂ (CreatedFrom sampleApp sampleViewed) (rows.take 2) [first, second] ∧
      first = [0xff, 0xd8, 0xff] ∧ [0xff, 0xd8, 0xff] <+: second := by
  obtain ⟨u, hu, response, route, answered, body⟩ :=
    sampleViewed_thread (i := 2) (by rw [sampleViewed_answers]; rfl)
  obtain ⟨_, rows, originals, _, _, created, parts, whole⟩ :=
    archive_genuine (s := sampleViewed) rfl rfl sampleViewed_fresh hu route answered body
  obtain ⟨first, originals, -, rest, rfl⟩ := List.forall₂_cons_left_iff.mp parts
  obtain ⟨second, originals, part, others, rfl⟩ := List.forall₂_cons_left_iff.mp rest
  obtain rfl := List.forall₂_nil_left_iff.mp others
  exact ⟨rows, first, second, created, (List.cons.inj whole).1.symm, part⟩

theorem album_genuine_sample : ∃ rows first second, first.id = uuidString 8 ∧ second.id = uuidString 11 ∧
    List.Forall₂ (Shows sampleApp sampleViewed) [first, second] rows := by
  obtain ⟨u, hu, response, route, answered, body⟩ :=
    sampleViewed_thread (i := 1) (by rw [sampleViewed_answers]; rfl)
  obtain ⟨_, rows, _, shown⟩ :=
    album_genuine (s := sampleViewed) rfl rfl sampleViewed_fresh hu route answered body
  exact ⟨rows, _, _, rfl, rfl, shown⟩

end ItalyTrip
