import ItalyTrip.CaptureKept
import ItalyTrip.RowsBacked
import ItalyTrip.Archive

namespace ItalyTrip

open Calls

/-- A photos row refers to the key. -/
def Belongs (db : Database) (key : String) : Prop :=
  ∃ row ∈ db.photos, key = row.storageKey ∨ key = row.thumbKey

instance (db : Database) (key : String) : Decidable (Belongs db key) :=
  inferInstanceAs (Decidable (∃ row ∈ db.photos, _))

/-- The upload was accepted, found no row of its capture, and draws the one id that its keys name. -/
def Attempt (app : Application) (req : Request) (past : Past Reply) (key : String) : Prop :=
  ∃ upload form original thumb eventID id, Accepts app req upload form original thumb ∧
    ⟨.query (.findPhotoByClientId eventID form.clientID), .error .noRows⟩ ∈ past ∧
    drawnBy past = [id] ∧ KeyOf id key

/-- The row of the id that was drawn has been inserted. -/
def CreatedRow (past : Past Reply) : Prop :=
  ∃ id arg row, drawnBy past = [id] ∧ ⟨.query (.createPhoto arg), .ok row⟩ ∈ past ∧
    arg.storageKey = Photos.photoKey (uuidString id) ∧
    arg.thumbKey = Photos.thumbKey (uuidString id)

def Request.isUpload (req : Request) : Prop := ∃ upload, req.route = .authorized (.uploadPhoto upload)

def PutsAllowed (app : Application) (req : Request) (past : Past Reply) : Call → Prop
  | .put key _ _ => Attempt app req past key
  | .newUUID => req.isUpload → drawnBy past = []
  | _ => True

variable {app : Application} {past : Past Reply}

theorem savePhoto_attempt {req : Request} {upload : UploadRequest} {event : Event} {user : User}
    {form : Photos.UploadForm} {original : Bytes} {thumb : Images.Thumb}
    (accepts : Accepts app req upload form original thumb)
    (missing : ⟨.query (.findPhotoByClientId event.id form.clientID), .error .noRows⟩ ∈ past)
    (clean : drawnBy past = []) :
    (Photos.savePhoto event user form original thumb).run.Ensures (PutsAllowed app req)
      (fun past result => (written result).status = 201 → CreatedRow past) past := by
  simp only [Photos.savePhoto, ensures_run_bind, ensures_request, ensures_orThrow]
  refine ⟨fun _ => clean, fun id => ⟨?_, fun stored => ⟨fun _ _ h => (by cases h), ?_⟩⟩⟩
  · exact ⟨upload, form, original, thumb, event.id, id, accepts, List.mem_cons_of_mem _ missing,
      congrArg (id :: ·) clean, Or.inl rfl⟩
  rintro _ rfl
  refine ⟨?_, fun stored => ⟨fun _ _ h => (by cases h), ?_⟩⟩
  · exact ⟨upload, form, original, thumb, event.id, id, accepts,
      List.mem_cons_of_mem _ (List.mem_cons_of_mem _ missing), congrArg (id :: ·) clean, Or.inr rfl⟩
  rintro _ rfl
  refine ⟨trivial, fun created => ?_⟩
  cases created with
  | ok row =>
    intro _
    exact ⟨id, _, row, congrArg (id :: ·) clean, List.mem_cons_self, rfl, rfl⟩
  | error err =>
    simp only [ensures_run_bind, Photos.ensures_resolveRace, ensures_run_pure]
    exact ⟨fun _ h => (by cases h), fun _ => ⟨trivial, fun _ h => (by cases h),
      fun _ h => (by cases h)⟩⟩

theorem refusal_not_created {response : Response} (h : Photos.Refusal response) :
    response.status ≠ 201 := by
  obtain ⟨status, message, rfl, low, _⟩ := h
  exact Nat.ne_of_gt (Nat.lt_of_lt_of_le (by decide) low)

/-- An upload puts objects only under its own id, and is answered 201 only where its row is
inserted. -/
theorem serve_attempt (req : Request) :
    (serve app req).Ensures (PutsAllowed app req)
      (fun past response => req.isUpload → response.status = 201 → CreatedRow past) [] := by
  by_cases hw : req.isUpload
  · obtain ⟨upload, route⟩ := hw
    have saved : ∀ user past, drawnBy past = [] →
        (Photos.upload app (some user) upload).run.Ensures (PutsAllowed app req)
          (fun past result => (written result).status = 201 → CreatedRow past) past :=
      fun user past clean => Photos.ensures_upload.mpr
        { notLoaded := fun err h => (by cases err <;> cases h)
          ended := fun _ _ _ h => (by cases h)
          anonymous := fun _ _ _ _ h => (by cases h)
          badForm := fun _ _ _ _ _ response h ok =>
            absurd ok (refusal_not_created (Photos.readForm_refuses app upload response h))
          stored := fun _ _ h => (by cases h)
          notLooked := fun _ _ _ h => (by cases h)
          badImage := fun _ response h ok =>
            absurd ok (refusal_not_created (Photos.readImage_refuses app _ response h))
          save := fun passes image accepted =>
            savePhoto_attempt ⟨route, passes.wellFormed, accepted⟩ List.mem_cons_self clean }
    have served : (serve app req).Ensures (PutsAllowed app req)
        (fun past response => response.status = 201 → CreatedRow past) [] :=
      ensures_authorized route
        { noToken := fun _ h => (by cases h)
          rejected := fun _ _ err _ _ h => (by cases err <;> cases h)
          badSubject := fun _ _ _ _ _ _ _ h => (by cases h)
          notFound := fun _ _ h => (by cases h)
          handled := fun _ user => saved user _ rfl }
    exact served.mono (fun _ _ h => h) fun _ _ h _ => h
  · have reads : Table.photos ∉ req.route.writes := by
      intro h
      cases hr : req.route with
      | authorized route =>
        cases route with
        | uploadPhoto upload => exact hw ⟨upload, hr⟩
        | _ => simp [hr, Route.writes] at h
      | _ => simp [hr, Route.writes] at h
    refine (serve_stores reads).mono (fun past c hc => ?_) fun _ _ _ h => absurd h hw
    unfold PutsAllowed
    split
    next => cases hc
    next => exact fun h => absurd h hw
    next => trivial

/-- The rows and objects that a request has stored are there. -/
structure StaysStored (past : Past Reply) (w : World) : Prop where
  rows : ∀ arg row, ⟨.query (.createPhoto arg), .ok row⟩ ∈ past → arg.row ∈ w.db.photos
  objects : ∀ key body contentType, ⟨.put key body contentType, .ok ()⟩ ∈ past →
    (key, ⟨body, contentType⟩) ∈ w.bucket

def StoresGrow (w w' : World) : Prop := w.db.photos ⊆ w'.db.photos ∧ w.bucket ⊆ w'.bucket

theorem perform_storesGrow {o : Choice} {w w' : World} {c : Call} {r : Reply c}
    (h : perform o w c = some (r, w')) : StoresGrow w w' := by
  refine ⟨perform_photosGrow h, ?_⟩
  obtain same | ⟨_, _, _, _, added⟩ := perform_bucket h
  · rw [same]
    exact List.Subset.refl _
  · rw [added]
    exact List.subset_cons_self _ _

theorem StaysStored.grow {w w' : World} (h : StaysStored past w) (grow : StoresGrow w w') :
    StaysStored past w' where
  rows arg row hm := grow.1 (h.rows arg row hm)
  objects key body contentType hm := grow.2 (h.objects key body contentType hm)

theorem StaysStored.step {o : Choice} {w w' : World} {c : Call} {r : Reply c}
    (h : StaysStored past w) (hp : perform o w c = some (r, w')) :
    StaysStored (⟨c, r⟩ :: past) w' := by
  have old := h.grow (perform_storesGrow hp)
  refine ⟨fun arg row hm => ?_, fun key body contentType hm => ?_⟩
  · obtain here | before := List.mem_cons.mp hm
    · cases here
      have hx : w.db.createPhoto arg = (.ok row, w'.db) := perform_ok hp
      obtain ⟨rfl, hdb⟩ := Database.createPhoto_ok _ hx
      rw [hdb]
      exact List.mem_append_right _ (List.mem_singleton_self _)
    · exact old.rows arg row before
  · obtain here | before := List.mem_cons.mp hm
    · cases here
      rw [perform_stored hp]
      exact List.mem_cons_self
    · exact old.objects key body contentType before

theorem stored_rules (app : Application) :
    Pool.Local (server app) (fun _ _ => True) (fun _ => True) StoresGrow
      (fun _ => StaysStored) where
  arrive _ _ _ :=
    ⟨fun _ _ h => absurd h List.not_mem_nil, fun _ _ _ h => absurd h List.not_mem_nil⟩
  act _ _ _ _ _ _ _ _ _ _ stays hp _ := ⟨trivial, perform_storesGrow hp, stays.step hp⟩
  env _ _ _ := ⟨trivial, List.Subset.refl _, List.Subset.refl _⟩
  stable _ _ _ _ grow stays := stays.grow grow

/-- Every object was there before or has been put by a thread. -/
def PutBy (known : Bucket) (s : ServerPool) : Prop :=
  ∀ entry ∈ s.world.bucket, entry ∈ known ∨ ∃ u ∈ s.threads, ∃ body contentType r,
    ⟨.put entry.1 body contentType, r⟩ ∈ u.past

theorem PutBy.step {known : Bucket} {s : ServerPool} (put : PutBy known s) (a : ServerAction) :
    PutBy known (s.step (server app) a) := by
  have again : ∀ {entry}, entry ∈ s.world.bucket → entry ∈ known ∨
      ∃ v ∈ (s.step (server app) a).threads, ∃ body contentType r,
        ⟨.put entry.1 body contentType, r⟩ ∈ v.past := by
    intro entry hentry
    obtain old | ⟨u, hu, body, contentType, r, hm⟩ := put entry hentry
    · exact Or.inl old
    · obtain ⟨i, hi⟩ := List.mem_iff_getElem?.mp hu
      obtain ⟨v, hv, _, past⟩ := Pool.step_past (m := server app) s a hi
      exact Or.inr ⟨v, List.mem_of_getElem? hv, body, contentType, r, past.subset hm⟩
  intro entry hentry
  obtain same | ⟨i, _, t, past, key, body, contentType, next, r, x, added⟩ := step_bucket app s a
  · exact again (same ▸ hentry)
  · rw [added] at hentry
    obtain rfl | before := List.mem_cons.mp hentry
    · exact Or.inr ⟨_, x.mem_after, body, contentType, r, List.mem_cons_self⟩
    · exact again before

theorem Attempt.later {req : Request} {before : Past Reply} {key : String}
    (h : Attempt app req before key) (suffix : before <:+ past) (once : (drawnBy past).length ≤ 1) :
    Attempt app req past key := by
  obtain ⟨upload, form, original, thumb, eventID, id, accepts, missing, drew, own⟩ := h
  have drawn : drawnBy before <:+ drawnBy past := suffix.filterMap _
  refine ⟨upload, form, original, thumb, eventID, id, accepts, suffix.subset missing, ?_, own⟩
  rw [drew] at drawn
  exact (drawn.eq_of_length_le once).symm

/-- A put of a thread of the server is an attempt of its upload. -/
theorem put_attempt {s : ServerPool} (follows : s.Follows (server app))
    {u : Calls.Thread Call Reply Request Response} (hu : u ∈ s.threads) {key contentType : String}
    {body : Bytes} {r : Except StorageError Unit}
    (hm : ⟨.put key body contentType, r⟩ ∈ u.past) : Attempt app u.task u.past key := by
  obtain ⟨q, leads, _⟩ := follows u hu
  obtain ⟨before, suffix, attempt⟩ := (serve_attempt u.task).at_past leads hm
  have upload : u.task.isUpload := by
    obtain ⟨upload, _, _, _, _, _, accepts, _⟩ := attempt
    exact ⟨upload, accepts.route⟩
  refine Attempt.later attempt ((List.suffix_cons _ _).trans suffix) ?_
  refine (serve_attempt u.task).along (K := fun past => (drawnBy past).length ≤ 1) leads
    (fun past c r allowed few => ?_) (Nat.zero_le _)
  cases c with
  | newUUID =>
    have first : drawnBy past = [] := allowed upload
    change (r :: drawnBy past).length ≤ 1
    rw [first]
    exact Nat.le_refl _
  | _ => exact few

theorem storesGrow_refl (w : World) : StoresGrow w w := ⟨List.Subset.refl _, List.Subset.refl _⟩

theorem storesGrow_trans (a b c : World) (h : StoresGrow a b) (h' : StoresGrow b c) :
    StoresGrow a c :=
  ⟨List.Subset.trans h.1 h'.1, List.Subset.trans h.2 h'.2⟩

theorem Belongs.grow {db db' : Database} {key : String} (h : Belongs db key)
    (grow : db.photos ⊆ db'.photos) : Belongs db' key := by
  obtain ⟨row, hrow, own⟩ := h
  exact ⟨row, grow hrow, own⟩

/-- What an upload that is answered 201 has put belongs to its row. -/
theorem Attempt.belongs {req : Request} {key : String} {response : Response} {w : World}
    (h : Attempt app req past key) (leads : (serve app req).Leads past (.done response))
    (created : response.status = 201) (stays : StaysStored past w) : Belongs w.db key := by
  obtain ⟨upload, _, _, _, _, id, accepts, _, drew, own⟩ := h
  obtain ⟨id', arg, row, drew', inserted, storageKey, thumbKey⟩ :=
    (serve_attempt req).at_done leads ⟨upload, accepts.route⟩ created
  obtain rfl := List.singleton_inj.mp (drew.symm.trans drew')
  refine ⟨arg.row, stays.rows arg row inserted, ?_⟩
  obtain rfl | rfl := own
  · exact Or.inl storageKey.symm
  · exact Or.inr thumbKey.symm

/-- Nothing deletes an object. What an upload that is not answered 201 leaves in the bucket is what it
has put under the id it drew, and nothing else in the bucket is without its row. -/
theorem uploads_leave {w : World} (backed : ∀ entry ∈ w.bucket, Belongs w.db entry.1)
    (actions : List ServerAction) :
    let s := Pool.exec (server app) ⟨w, []⟩ actions
    (∀ entry ∈ s.world.bucket, Belongs s.world.db entry.1 ∨
      ∃ u ∈ s.threads, (∃ body contentType r, ⟨.put entry.1 body contentType, r⟩ ∈ u.past) ∧
        ∀ response, u.result = some response → response.status ≠ 201) ∧
    ∀ u ∈ s.threads, ∀ key body contentType r, ⟨.put key body contentType, r⟩ ∈ u.past →
      Attempt app u.task u.past key ∧
        (r = .ok () → (key, ⟨body, contentType⟩) ∈ s.world.bucket) := by
  intro s
  have every := Pool.runMeets_true (m := server app) ⟨w, []⟩ actions
  have init : Pool.Good (server app) (fun _ => True) (fun _ => StaysStored) ⟨w, []⟩ :=
    Pool.good_init trivial
  have good : Pool.Good (server app) (fun _ => True) (fun _ => StaysStored) s :=
    (stored_rules app).exec init every
  have grow : StoresGrow w s.world :=
    (stored_rules app).exec_rely storesGrow_refl storesGrow_trans init every
  have put : PutBy w.bucket s :=
    Pool.exec_keeps (fun _ a _ h => h.step a) fun entry hentry => Or.inl hentry
  have follows : s.Follows (server app) := Pool.exec_follows actions
  refine ⟨fun entry hentry => ?_,
    fun u hu key body contentType r hm => ⟨put_attempt follows hu hm, ?_⟩⟩
  · obtain old | ⟨u, hu, body, contentType, r, hm⟩ := put entry hentry
    · exact Or.inl ((backed entry old).grow grow.1)
    by_cases created : ∃ response, u.result = some response ∧ response.status = 201
    · obtain ⟨response, done, status⟩ := created
      have leads := good.leads u hu _ (Thread.rest_of_result done)
      exact Or.inl ((put_attempt follows hu hm).belongs leads status (good.thread u hu))
    · exact Or.inr ⟨u, hu, ⟨body, contentType, r, hm⟩, fun response done status =>
        created ⟨response, done, status⟩⟩
  · rintro rfl
    exact (good.thread u hu).objects key body contentType hm

/-- The first of two uploads of one capture is the second to insert. -/
private def sampleLost : List ServerAction :=
  .arrive (sampleCreate 0 10) :: List.replicate 6 (.act 0 (sampleChoice 1 7 1)) ++
    .arrive (sampleUpload (uuidString 9)) :: List.replicate 8 (.act 1 (sampleChoice 0 8 0)) ++
    .arrive (sampleUpload (uuidString 9)) :: List.replicate 9 (.act 2 (sampleChoice 0 11 0)) ++
    List.replicate 2 (.act 1 (sampleChoice 0 0 0))

theorem loser_leaves_objects :
    let s := Pool.exec (server sampleApp) ⟨sampleWorld, []⟩ sampleLost
    (s.threads.map fun u => u.result.map Response.status) = [some 201, some 200, some 201] ∧
      s.world.db.photos.length = 1 ∧
      (s.world.bucket.filter fun entry => ¬ Belongs s.world.db entry.1).map Prod.fst =
        [Photos.thumbKey (uuidString 8), Photos.photoKey (uuidString 8)] := by
  decide +kernel

theorem uploads_leave_race :
    let s := Pool.exec (server sampleApp) ⟨sampleWorld, []⟩ sampleLost
    s.world.bucket.length = 4 ∧
    (∀ entry ∈ s.world.bucket, Belongs s.world.db entry.1 ∨
      ∃ u ∈ s.threads, (∃ body contentType r, ⟨.put entry.1 body contentType, r⟩ ∈ u.past) ∧
        ∀ response, u.result = some response → response.status ≠ 201) ∧
    ∀ u ∈ s.threads, ∀ key body contentType r, ⟨.put key body contentType, r⟩ ∈ u.past →
      Attempt sampleApp u.task u.past key ∧
        (r = .ok () → (key, ⟨body, contentType⟩) ∈ s.world.bucket) :=
  ⟨by decide +kernel, uploads_leave (fun _ h => absurd h List.not_mem_nil) sampleLost⟩

end ItalyTrip
