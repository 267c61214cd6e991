import ItalyTrip.ArchiveNames
import ItalyTrip.UploadRetry

namespace ItalyTrip

open Calls

abbrev Bucket := List (String × Object)

/-- The object of the photo is opened. -/
def opens (bucket : Bucket) (o : Choice) (row : Photo) : Bool :=
  decide (o.fault = .none) && (bucket.lookup row.storageKey).isSome

/-- The object of the photo is opened and read to its end. -/
def readsWhole (bucket : Bucket) (o : Choice) (row : Photo) : Bool :=
  opens bucket o row && o.readable.isNone

/-- The photos before the first that cannot be opened or read to its end. -/
def beforeFailure (bucket : Bucket) : (Nat → Choice) → List Photo → List Photo
  | _, [] => []
  | choices, row :: rows =>
    if readsWhole bucket (choices 0) row then
      row :: beforeFailure bucket (fun n => choices (n + 1)) rows
    else []

/-- The first photo that fails is opened, and fails while its body is read. -/
def failsMidBody (bucket : Bucket) : (Nat → Choice) → List Photo → Bool
  | _, [] => false
  | choices, row :: rows =>
    if readsWhole bucket (choices 0) row then failsMidBody bucket (fun n => choices (n + 1)) rows
    else opens bucket (choices 0) row

/-- The entry holds the bytes stored for the photo. -/
def Holds (bucket : Bucket) (row : Photo) (entry : String × Bytes) : Prop :=
  ∃ object, bucket.lookup row.storageKey = some object ∧ entry.2 = object.body

namespace Photos

variable {bucket : Bucket} {choices : Nat → Choice} {w w' : World} {names : Names}
  {rows : List Photo}

theorem archive_cons (names : Names) (row : Photo) (rows : List Photo) :
    (archive names (row :: rows)).run = .call (.openObject row.storageKey) fun opened =>
      (match opened with
      | .error _ => return []
      | .ok object =>
        if object.complete then do
          let entries ← archive (uniqueName names (downloadFilename row.takenAt)).2 rows
          return ((uniqueName names (downloadFilename row.takenAt)).1, object.body) :: entries
        else return [((uniqueName names (downloadFilename row.takenAt)).1, object.body)] :
          Handler (List (String × Bytes))).run := rfl

theorem ensures_archive (names : Names) (rows : List Photo) {past : Past Reply} :
    (archive names rows).run.Ensures (fun _ _ => True) (fun _ r => ∃ entries, r = .ok entries)
      past := by
  induction rows generalizing names past with
  | nil => exact ⟨[], rfl⟩
  | cons row rows ih =>
    rw [archive_cons]
    refine ⟨trivial, fun opened => ?_⟩
    cases opened with
    | error err => exact ⟨[], rfl⟩
    | ok object =>
      dsimp only
      split
      · refine ensures_run_bind.mpr ((ih _).mono (fun _ _ h => h) fun past r h => ?_)
        obtain ⟨entries, rfl⟩ := h
        exact ⟨_, rfl⟩
      · exact ⟨_, rfl⟩

/-- How a photo's object is opened and read. -/
theorem perform_open {o : Choice} {row : Photo} {r : Reply (.openObject row.storageKey)}
    (h : perform o w (.openObject row.storageKey) = some (r, w')) : w' = w ∧
      ((opens w.bucket o row = false ∧ ∃ err, r = .error err) ∨
        ∃ object download, w.bucket.lookup row.storageKey = some object ∧ r = .ok download ∧
          opens w.bucket o row = true ∧ download.complete = o.readable.isNone ∧
          (download.complete = true → download.body = object.body)) := by
  simp only [perform] at h
  split at h
  next quiet =>
    obtain ⟨rfl, rfl⟩ := Prod.mk.inj (Option.some.inj h)
    refine ⟨rfl, ?_⟩
    unfold World.download opens
    cases hl : w.bucket.lookup row.storageKey with
    | none => exact Or.inl ⟨by simp, _, rfl⟩
    | some object =>
      refine Or.inr ⟨object, _, rfl, rfl, by simp [quiet], rfl, fun whole => ?_⟩
      rw [Option.isNone_iff_eq_none.mp whole]
      exact List.take_length
  next faulty =>
    obtain ⟨rfl, rfl⟩ := Prod.mk.inj (Option.some.inj h)
    exact ⟨rfl, Or.inl ⟨by simp [opens, faulty], _, rfl⟩⟩

/-- The entries of an archive hold the photos before the first failing one, and one more if that
failed while its body was read. -/
theorem archive_run {entries : List (String × Bytes)}
    (h : (archive names rows).run.run perform choices w = some (.ok entries, w')) :
    if failsMidBody w.bucket choices rows then
      entries.length = (beforeFailure w.bucket choices rows).length + 1
    else
      List.Forall₂ (Holds w.bucket) (beforeFailure w.bucket choices rows) entries ∧
        entries.map Prod.fst = entryNames names
          ((beforeFailure w.bucket choices rows).map fun row => downloadFilename row.takenAt) := by
  induction rows generalizing names choices w entries with
  | nil =>
    cases h
    exact ⟨.nil, rfl⟩
  | cons row rows ih =>
    rw [archive_cons] at h
    simp only [Prog.run] at h
    split at h
    next => cases h
    next r w₁ hp =>
      obtain ⟨rfl, closed | ⟨object, download, stored, rfl, opened, complete, whole⟩⟩ :=
        perform_open hp
      · obtain ⟨closed, err, rfl⟩ := closed
        cases h
        simp [failsMidBody, beforeFailure, readsWhole, closed, entryNames]
      · dsimp only at h
        split at h
        next hcomplete =>
          have reads : readsWhole w₁.bucket (choices 0) row = true := by
            rw [readsWhole, opened, ← complete, hcomplete]
            rfl
          rw [← map_eq_pure_bind, ExceptT.run_map] at h
          obtain ⟨result, rest, mapped⟩ := Prog.run_map h
          cases result with
          | error response => cases mapped
          | ok entries =>
            cases mapped
            have tail := ih rest
            simp only [failsMidBody, beforeFailure, reads, ↓reduceIte]
            split at tail
            next cut =>
              rw [if_pos cut, List.length_cons, List.length_cons, tail]
            next uncut =>
              rw [if_neg uncut]
              refine ⟨.cons ⟨object, stored, whole hcomplete⟩ tail.1, ?_⟩
              simp [entryNames, tail.2]
        next broken =>
          have reads : readsWhole w₁.bucket (choices 0) row = false := by
            rw [readsWhole, opened, ← complete]
            simpa using broken
          cases h
          simp [failsMidBody, beforeFailure, reads, opened]

end Photos

/-- A query that writes nothing leaves the world as it is, faults included. -/
theorem perform_read {o : Choice} {w w' : World} {q : Query} {r : Reply (.query q)}
    (hq : q.writes = []) (h : perform o w (.query q) = some (r, w')) : w' = w := by
  obtain ⟨same, ⟨_, hdb⟩ | ⟨_, hdb | hdb⟩⟩ := perform_query h
  all_goals
    rw [same, hdb]
    try rw [Database.exec_read hq ⟨0, 0⟩ 0]

/-- Whether a query that writes nothing is answered is up to the connection alone. -/
theorem perform_reads {o : Choice} {w w' : World} {q : Query} {r : Reply (.query q)} (hq : q.writes = [])
    (h : perform o w (.query q) = some (r, w')) :
    w' = w ∧ (o.fault = .none ∧ r = (w.db.exec o.defaults w.clock q).1 ∨
      o.fault ≠ .none ∧ r = .error .failure) := by
  refine ⟨perform_read hq h, ?_⟩
  simp only [perform] at h
  split at h
  next quiet =>
    left
    exact ⟨quiet, (Prod.mk.inj (Option.some.inj h)).1.symm⟩
  next early =>
    right
    exact ⟨by rw [early]; decide, (Prod.mk.inj (Option.some.inj h)).1.symm⟩
  next late =>
    right
    exact ⟨by rw [late]; decide, (Prod.mk.inj (Option.some.inj h)).1.symm⟩

/-- What a request for the archive does before it writes: the event and its photos. -/
def albumRows (app : Application) (header : String) : Handler (Event × List Photo) := do
  let _ ← requireAuth app header
  let event ← Photos.requireUnlocked
  let listed ← call (.query (.listPhotosByEvent event.id))
  let rows ← orThrow listed fun _ => Photos.listFailed
  return (event, rows)

def archived (app : Application) (event : Event) (entries : List (String × Bytes)) : Response :=
  ⟨200, .zip (contentDisposition app.toPackages (Photos.zipFilename event.name)) entries, none⟩

def writeArchive (app : Application) :
    Except Response (Event × List Photo) → Prog Call Reply Response
  | .ok (event, rows) => (fun result => written (result.map (archived app event))) <$>
      (Photos.archive [] rows).run
  | .error response => pure response

variable {app : Application} {req : Request}

theorem serve_downloadAll (hroute : req.route = .authorized .downloadAll) :
    serve app req = (albumRows app req.authorization).run >>= writeArchive app := by
  have handled : handle app req = albumRows app req.authorization >>= fun album =>
      archived app album.1 <$> Photos.archive [] album.2 := by
    simp only [handle, hroute, AuthorizedRoute.handle, Photos.downloadAll, albumRows, bind_assoc,
      pure_bind, map_eq_pure_bind]
    rfl
  rw [serve, handled, ExceptT.run_bind, bind_assoc]
  congr
  funext album
  cases album with
  | error response => rfl
  | ok album =>
    dsimp only [writeArchive]
    rw [ExceptT.run_map, bind_map_left, map_eq_pure_bind]

theorem authError_status (err : AuthError) : (authError err).status ≠ 200 := by
  cases err <;> decide

theorem loadError_status (err : DbError) : (Photos.loadError err).status ≠ 200 := by
  cases err <;> decide

/-- The exchanges of a request that goes on to write the photos of an event. -/
theorem ensures_albumRows {header : String} :
    (albumRows app header).run.Ensures (fun _ _ => True) (fun past result => match result with
      | .error response => response.status ≠ 200
      | .ok (event, rows) => ∃ (t t' : Instant) (id : UUID) (found : Except DbError User),
        past = ⟨.query (.listPhotosByEvent event.id), .ok rows⟩ :: Photos.readEvent event t
          [⟨.query (.findUserById id), found⟩, ⟨.now, t'⟩]) [] := by
  simp only [albumRows, ensures_run_bind, ensures_requireAuth, Photos.ensures_requireUnlocked,
    ensures_request, ensures_orThrow, ensures_run_pure, true_and, forall_except]
  refine ⟨fun _ => by decide, fun token _ t => ⟨fun err _ => authError_status err, ?_⟩⟩
  refine fun subject _ => ⟨fun _ _ => by decide, fun id _ => ⟨fun _ => by decide, fun user => ?_⟩⟩
  refine ⟨loadError_status, fun event t' => ⟨fun _ => by decide, fun _ => ?_⟩⟩
  simp only [Except.error.injEq, Except.ok.injEq, forall_eq', reduceCtorEq, false_implies,
    implies_true, true_and, and_true]
  exact ⟨fun _ => by decide, fun rows => ⟨t', t, id, _, rfl⟩⟩

/-- A request for the archive that is answered 200 writes the photos of the current event. -/
theorem visit_archive {choices : Nat → Choice} {w w' : World} {response : Response}
    (hroute : req.route = .authorized .downloadAll) (ok : response.status = 200)
    (h : visit app w req choices = some (response, w')) : ∃ event entries w₁,
      w.db.getCurrentEvent = some event ∧ w₁.bucket = w.bucket ∧
      response = archived app event entries ∧
      (Photos.archive [] (w.db.listPhotosByEvent event.id)).run.run perform
        (fun n => choices (n + 5)) w₁ = some (.ok entries, w') := by
  rw [visit, serve_downloadAll hroute] at h
  obtain ⟨past, result, w₁, leads, answered, rest⟩ := Prog.run_bind h
  have shape := ensures_albumRows.at_done leads
  cases result with
  | error failure =>
    obtain ⟨rfl, -⟩ := Prod.mk.inj (Option.some.inj rest)
    exact absurd ok shape
  | ok album =>
    obtain ⟨event, rows⟩ := album
    obtain ⟨t, t', id, found, rfl⟩ := shape
    obtain ⟨result, written, rfl⟩ := Prog.run_map rest
    obtain ⟨_, done, _⟩ := Prog.run_answered written
    obtain ⟨entries, rfl⟩ := (Photos.ensures_archive [] rows).at_done done
    obtain ⟨w₂, ⟨w₃, ⟨w₄, ⟨w₅, ⟨_, rfl, clock⟩, user⟩, current⟩, clock'⟩, listed⟩ := answered
    obtain rfl := perform_read rfl user
    obtain rfl := perform_read rfl current
    obtain rfl := perform_read rfl listed
    have hclock := (perform_now clock).2.2
    have hclock' := (perform_now clock').2.2
    have seen := oneRow_ok (congrArg Prod.fst (perform_ok current)).symm
    have rows_eq := Except.ok.inj (congrArg Prod.fst (perform_ok listed))
    rw [hclock', hclock] at rows_eq
    refine ⟨event, entries, w₁, ?_, ?_, rfl, ?_⟩
    · rw [← seen, hclock]
    · rw [hclock', hclock]
    · rw [← rows_eq] at written
      exact written

/-- An archive holds exactly the photos before the first failing one, each of them whole, unless that
one fails while its body is read: what was read of it is then one more entry. -/
theorem archive_undamaged_iff {choices : Nat → Choice} {w w' : World} {response : Response}
    (hroute : req.route = .authorized .downloadAll) (ok : response.status = 200)
    (h : visit app w req choices = some (response, w')) : ∃ event entries,
      w.db.getCurrentEvent = some event ∧ response = archived app event entries ∧
      (List.Forall₂ (Holds w.bucket) (beforeFailure w.bucket (fun n => choices (n + 5))
        (w.db.listPhotosByEvent event.id)) entries ↔
      failsMidBody w.bucket (fun n => choices (n + 5)) (w.db.listPhotosByEvent event.id) = false) := by
  obtain ⟨event, entries, w₁, current, same, answer, run⟩ := visit_archive hroute ok h
  have written := Photos.archive_run run
  rw [same] at written
  refine ⟨event, entries, current, answer, fun sound => ?_, fun uncut => ?_⟩
  · rw [← Bool.not_eq_true]
    intro cut
    rw [if_pos cut, ← sound.length_eq] at written
    omega
  · rw [if_neg (by simp [uncut])] at written
    exact written.1

private def samplePair : Option World :=
  (visit sampleApp sampleTripWorld (sampleUpload (uuidString 10)) fun _ => sampleChoice 1 11 0).map (·.2)

/-- The event has two photos. -/
private def samplePairWorld : World := samplePair.getD sampleTripWorld

/-- The clock has passed the end of the event when the guard reads it. -/
private def sampleSettled : Nat → Choice := fun _ => sampleChoice 10 0 0

/-- The object of the second photo cannot be opened. -/
private def sampleMissing (n : Nat) : Choice :=
  if n = 6 then { sampleSettled n with fault := .before } else sampleSettled n

private theorem sampleMissing_visit : (visit sampleApp samplePairWorld (sampleRequest .downloadAll)
    sampleMissing).map (·.1.status) = some 200 := by
  decide +kernel

theorem archive_undamaged_sample : ∃ response w' entries,
    visit sampleApp samplePairWorld (sampleRequest .downloadAll) sampleMissing =
      some (response, w') ∧
    response = archived sampleApp sampleEvent entries ∧
    (samplePairWorld.db.listPhotosByEvent sampleEvent.id).length = 2 ∧
    List.Forall₂ (Holds samplePairWorld.bucket) [samplePhoto] entries := by
  obtain ⟨⟨response, w'⟩, h, ok⟩ := Option.map_eq_some_iff.mp sampleMissing_visit
  obtain ⟨event, entries, current, answer, sound⟩ := archive_undamaged_iff rfl ok h
  have sample : samplePairWorld.db.getCurrentEvent = some sampleEvent := by decide +kernel
  obtain rfl := Option.some.inj (sample.symm.trans current)
  have before : beforeFailure samplePairWorld.bucket (fun n => sampleMissing (n + 5))
      (samplePairWorld.db.listPhotosByEvent sampleEvent.id) = [samplePhoto] := by
    decide +kernel
  rw [before] at sound
  exact ⟨response, w', entries, h, answer, by decide +kernel, sound.mpr (by decide +kernel)⟩

/-- Reading the body fails after one byte. -/
private def sampleCut : Nat → Choice := fun _ => { sampleChoice 10 0 0 with readable := some 1 }

theorem archive_damaged : ∃ w' entry,
    visit sampleApp sampleTripWorld (sampleRequest .downloadAll) sampleCut =
      some (archived sampleApp sampleEvent [entry], w') ∧
    (sampleTripWorld.bucket.lookup samplePhoto.storageKey).map Object.body =
      some [0xff, 0xd8, 0xff] ∧
    entry.2 = [0xff] ∧
    ¬ List.Forall₂ (Holds sampleTripWorld.bucket) (beforeFailure sampleTripWorld.bucket
      (fun n => sampleCut (n + 5)) (sampleTripWorld.db.listPhotosByEvent sampleEvent.id)) [entry] := by
  refine ⟨{ sampleTripWorld with clock := 24000000000 }, ("italy-19700101-000002.jpg", [0xff]),
    by decide +kernel, by decide +kernel, rfl, fun sound => ?_⟩
  have none : (beforeFailure sampleTripWorld.bucket (fun n => sampleCut (n + 5))
      (sampleTripWorld.db.listPhotosByEvent sampleEvent.id)).length = 0 := by
    decide +kernel
  rw [sound.length_eq] at none
  cases none

theorem beforeFailure_all {bucket : Bucket} {choices : Nat → Choice} {rows : List Photo}
    (whole : ∀ i row, rows[i]? = some row → readsWhole bucket (choices i) row = true) :
    beforeFailure bucket choices rows = rows ∧ failsMidBody bucket choices rows = false := by
  induction rows generalizing choices with
  | nil => exact ⟨rfl, rfl⟩
  | cons row rows ih =>
    have first := whole 0 row rfl
    have rest := ih fun i row' h => whole (i + 1) row' h
    simp only [beforeFailure, failsMidBody, first, ↓reduceIte, rest, and_self]

/-- Where no photo fails, the archive is the album, photo by photo, and no two entries share a name. -/
theorem archive_is_album {choices : Nat → Choice} {w w' : World} {response : Response}
    {event : Event} (hroute : req.route = .authorized .downloadAll) (ok : response.status = 200)
    (h : visit app w req choices = some (response, w'))
    (current : w.db.getCurrentEvent = some event)
    (whole : ∀ i row, (w.db.listPhotosByEvent event.id)[i]? = some row →
      readsWhole w.bucket (choices (i + 5)) row = true) : ∃ entries,
      response = archived app event entries ∧
      List.Forall₂ (Holds w.bucket) (w.db.listPhotosByEvent event.id) entries ∧
      (entries.map Prod.fst).Nodup := by
  obtain ⟨event', entries, w₁, current', same, answer, run⟩ := visit_archive hroute ok h
  obtain rfl := Option.some.inj (current.symm.trans current')
  have written := Photos.archive_run run
  rw [same] at written
  obtain ⟨all, uncut⟩ := beforeFailure_all whole
  rw [if_neg (by simp [uncut]), all] at written
  have names := Photos.entryNames_nodup [] ((w.db.listPhotosByEvent event.id).map Photo.takenAt)
  rw [List.map_map] at names
  refine ⟨entries, answer, written.1, ?_⟩
  rw [written.2]
  exact names

/-- Another photo of the same second. -/
private def sampleBurst : World :=
  { sampleTripWorld with db := { sampleTripWorld.db with
      photos := [samplePhoto, { samplePhoto with id := 10, clientID := uuidString 11 }] } }

private theorem sampleBurst_visit : (visit sampleApp sampleBurst (sampleRequest .downloadAll)
    sampleSettled).map (·.1.status) = some 200 := by
  decide +kernel

theorem archive_is_album_burst : ∃ response w' entries,
    visit sampleApp sampleBurst (sampleRequest .downloadAll) sampleSettled = some (response, w') ∧
    response = archived sampleApp sampleEvent entries ∧ entries.length = 2 ∧
    (entries.map Prod.fst).Nodup := by
  obtain ⟨⟨response, w'⟩, h, ok⟩ := Option.map_eq_some_iff.mp sampleBurst_visit
  have current : sampleBurst.db.getCurrentEvent = some sampleEvent := by decide +kernel
  have listed : (sampleBurst.db.listPhotosByEvent sampleEvent.id).length = 2 := by decide +kernel
  have whole : ∀ row ∈ sampleBurst.db.listPhotosByEvent sampleEvent.id,
      readsWhole sampleBurst.bucket (sampleChoice 10 0 0) row = true := by decide +kernel
  obtain ⟨entries, answer, matched, distinct⟩ := archive_is_album rfl ok h current
    fun i row hi => whole row (List.mem_of_getElem? hi)
  exact ⟨response, w', entries, h, answer, matched.length_eq.symm.trans listed, distinct⟩

end ItalyTrip
