import ItalyTrip.UploadRetry

namespace ItalyTrip

open Calls

variable {app : Application}

/-- A status the client will try again, or one that says the photo is stored. -/
def Response.Transient (response : Response) : Prop :=
  response.status = 200 ∨ response.status = 201 ∨ 500 ≤ response.status

/-- What a request with a good token meets during an event: faults at any call, but the token stays
valid, the user exists and the event is running. -/
structure DuringEvent (app : Application) (token subject : String) (past : Past Reply) : Prop where
  signed : ∀ t : Instant, ⟨.now, t⟩ ∈ past → verify app token t = .ok subject
  exists_event : ⟨.query .getCurrentEvent, .error .noRows⟩ ∉ past
  running : ∀ (event : Event) (t : Instant), ⟨.query .getCurrentEvent, .ok event⟩ ∈ past →
    ⟨.now, t⟩ ∈ past → ¬ event.IsOver t

def UserLookupFailed (past : Past Reply) : Prop :=
  ∃ id err, ⟨.query (.findUserById id), .error err⟩ ∈ past

theorem UserLookupFailed.cons {past : Past Reply} {x : Sigma Reply} (h : UserLookupFailed past) :
    UserLookupFailed (x :: past) := by
  obtain ⟨id, err, hm⟩ := h
  exact ⟨id, err, List.mem_cons_of_mem _ hm⟩

theorem not_userLookupFailed_cons {past : Past Reply} {c : Call} {r : Reply c}
    (hc : ∀ id, c ≠ .query (.findUserById id)) (h : ¬ UserLookupFailed past) :
    ¬ UserLookupFailed (⟨c, r⟩ :: past) := by
  rintro ⟨id, err, hm⟩
  rcases List.mem_cons.mp hm with hm | hm
  · exact hc id (congrArg Sigma.fst hm).symm
  · exact h ⟨id, err, hm⟩

/-- Past the middleware, every fault is answered with a 5xx. -/
theorem savePhoto_transient {event : Event} {user : User} {form : Photos.UploadForm}
    {original : Bytes} {thumb : Images.Thumb} {past : Past Reply} :
    (Photos.savePhoto event user form original thumb).run.Ensures (fun _ _ => True)
      (fun _ result => (written result).Transient) past := by
  simp [Photos.savePhoto, forall_except, Photos.saveFailed, Response.Transient,
    writeErrorFromString, writeJSON]

theorem upload_transient {user : User} {upload : UploadRequest} {form : Photos.UploadForm}
    {image : Bytes × Images.Thumb} {token subject : String} {past : Past Reply}
    (wellFormed : Photos.readForm app upload = .ok form)
    (acceptable : Photos.readImage app form.file = .ok image) :
    (Photos.upload app (some user) upload).run.Ensures (fun _ _ => True)
      (fun past result => DuringEvent app token subject past → (written result).Transient) past := by
  refine Photos.ensures_upload.mpr
    { notLoaded := ?_
      ended := fun event t ended during => absurd ended (during.running event t
        (List.mem_cons_of_mem _ List.mem_cons_self) List.mem_cons_self)
      anonymous := fun _ _ _ h => by cases h
      badForm := fun _ _ _ _ _ response h => by rw [wellFormed] at h; cases h
      stored := fun _ _ _ => by simp [Response.Transient, writeJSON]
      notLooked := fun _ _ _ _ => by
        simp [Photos.existsFailed, Response.Transient, writeErrorFromString]
      badImage := ?_
      save := fun _ _ _ => savePhoto_transient.mono (fun _ _ h => h) fun _ _ h _ => h }
  · intro err during
    cases err with
    | noRows => exact absurd List.mem_cons_self during.exists_event
    | uniqueViolation => simp [Photos.loadError, Response.Transient, writeErrorFromString]
    | failure => simp [Photos.loadError, Response.Transient, writeErrorFromString]
  · intro event t user' form' passes response h
    obtain rfl : form = form' := Except.ok.inj (wellFormed.symm.trans passes.wellFormed)
    rw [acceptable] at h
    cases h

def NoUserLookup (c : Call) : Prop := ∀ id, c ≠ .query (.findUserById id)

/-- Only the middleware looks the user up. -/
theorem upload_noUserLookup {user : User} {upload : UploadRequest} {past : Past Reply} :
    (Photos.upload app (some user) upload).run.Ensures (fun _ c => NoUserLookup c)
      (fun _ _ => True) past := by
  have save : ∀ {event user form original thumb past},
      (Photos.savePhoto event user form original thumb).run.Ensures (fun _ c => NoUserLookup c)
        (fun _ _ => True) past := by
    intro event user form original thumb past
    simp [Photos.savePhoto, forall_except, NoUserLookup]
  exact Photos.ensures_upload.mpr
    { current := by simp [NoUserLookup]
      clock := fun _ => by simp [NoUserLookup]
      lookup := fun _ => by simp [NoUserLookup]
      save := fun _ _ _ => save }

/-- An acceptable upload with a good token during an event is answered with success or a 5xx exactly
if looking its user up does not fail. -/
theorem upload_faults {req : Request} {upload : UploadRequest} {token subject : String} {id : UUID}
    {form : Photos.UploadForm} {image : Bytes × Images.Thumb} {past : Past Reply}
    {response : Response} (route : req.route = .authorized (.uploadPhoto upload))
    (bearer : bearerToken req.authorization = some token) (user : app.parseUUID subject = .ok id)
    (wellFormed : Photos.readForm app upload = .ok form)
    (acceptable : Photos.readImage app form.file = .ok image)
    (leads : (serve app req).Leads past (.done response))
    (during : DuringEvent app token subject past) :
    response.Transient ↔ ¬ UserLookupFailed past := by
  have h : (serve app req).Ensures (fun _ _ => True) (fun past response =>
      (∀ t : Instant, ⟨.now, t⟩ ∈ past → verify app token t = .ok subject) →
      DuringEvent app token subject past → (response.Transient ↔ ¬ UserLookupFailed past)) [] := by
    refine ensures_signed route bearer user trivial (fun _ _ => trivial) (fun t err _ => ?_)
      fun t id u => ?_
    · have refused : ¬ userNotFound.Transient := by
        simp [userNotFound, Response.Transient, writeErrorFromString]
      exact iff_of_false refused fun h => h ⟨id, err, List.mem_cons_self⟩
    · have clean : ¬ UserLookupFailed
          [⟨.query (.findUserById id), .ok u⟩, ⟨Call.now, t⟩] := by
        rintro ⟨id, err, hm⟩
        simp at hm
      have kept : (Photos.upload app (some u) upload).run.Ensures
          (fun past _ => ¬ UserLookupFailed past) (fun past _ => ¬ UserLookupFailed past)
          [⟨.query (.findUserById id), .ok u⟩, ⟨Call.now, t⟩] :=
        Prog.Ensures.keeps upload_noUserLookup
          (fun _ _ _ hc h => not_userLookupFailed_cons hc h) clean
      exact ((upload_transient wellFormed acceptable).and kept).mono (fun _ _ _ => trivial)
        fun _ _ h _ during => iff_of_true (h.1 during) h.2
  exact h.at_done leads during.signed during

/-- One fault of the database, in the middleware: the second call of the request. -/
def sampleHiccup (n : Nat) : Choice :=
  if n = 1 then { sampleChoice 1 5 0 with fault := .before } else sampleChoice 1 5 0

/-- The event runs, the user exists and the photo is acceptable; the answer is a plain 401. -/
theorem upload_refused_by_fault :
    (visit sampleApp sampleTripWorld (sampleUpload (uuidString 5)) sampleHiccup).map (·.1) =
      some userNotFound ∧ userNotFound.status = 401 ∧ ¬ userNotFound.Transient ∧
    (visit sampleApp sampleTripWorld (sampleUpload (uuidString 5)) fun _ => sampleChoice 1 5 0).map
      (·.1.status) = some 201 := by
  refine ⟨by decide +kernel, rfl, ?_, by decide +kernel⟩
  simp [userNotFound, Response.Transient, writeErrorFromString]

private def sampleForm : Photos.UploadForm := ⟨.ok [0xff, 0xd8, 0xff], uuidString 5, 2000000000⟩

private def sampleThumbFailed : Past Reply :=
  [⟨.put (Photos.thumbKey (uuidString 8)) [0xff, 0xd8, 0xff, 0xd9] "image/jpeg", .error .failure⟩,
    ⟨.put (Photos.photoKey (uuidString 8)) [0xff, 0xd8, 0xff] "image/jpeg", .ok ()⟩, ⟨.newUUID, (8 : UUID)⟩,
    ⟨.query (.findPhotoByClientId 7 (uuidString 5)), .error .noRows⟩, ⟨.now, (2000000000 : Instant)⟩,
    ⟨.query .getCurrentEvent, .ok sampleEvent⟩, ⟨.query (.findUserById 1), .ok sampleUser⟩,
    ⟨.now, (1000000000 : Instant)⟩]

/-- One upload whose user is not found by a fault, and one whose thumbnail cannot be stored. -/
theorem upload_faults_sample :
    (∃ past, UserLookupFailed past ∧
      (serve sampleApp (sampleUpload (uuidString 5))).Leads past (.done userNotFound) ∧
      (userNotFound.Transient ↔ ¬ UserLookupFailed past)) ∧
    ∃ response, response.status = 502 ∧ ¬ UserLookupFailed sampleThumbFailed ∧
      (serve sampleApp (sampleUpload (uuidString 5))).Leads sampleThumbFailed (.done response) ∧
      (response.Transient ↔ ¬ UserLookupFailed sampleThumbFailed) := by
  have bearer : bearerToken "Bearer user" = some "user" := by decide +kernel
  have user : sampleApp.parseUUID (uuidString 1) = .ok 1 := by decide +kernel
  have wellFormed : Photos.readForm sampleApp
      ⟨100, .ok (.ok [0xff, 0xd8, 0xff]), uuidString 5, "1970-01-01T00:00:02Z"⟩ = .ok sampleForm := by rfl
  have acceptable : Photos.readImage sampleApp sampleForm.file =
      .ok ([0xff, 0xd8, 0xff], ⟨1, 1, [0xff, 0xd8, 0xff, 0xd9], 1, 1⟩) := by rfl
  have start := Prog.Leads.here (p := serve sampleApp (sampleUpload (uuidString 5)))
  have verified := start.next (1000000000 : Instant)
  refine ⟨?_, ?_⟩
  · have leads : (serve sampleApp (sampleUpload (uuidString 5))).Leads
        [⟨.query (.findUserById 1), .error .failure⟩, ⟨.now, (1000000000 : Instant)⟩]
        (.done userNotFound) := verified.next (.error .failure)
    refine ⟨_, ⟨1, .failure, List.mem_cons_self⟩, leads,
      upload_faults rfl bearer user wellFormed acceptable leads ⟨?_, ?_, ?_⟩⟩
    · intro t _
      simp [verify, sampleApp]
    · simp
    · intro event t hm
      simp at hm
  · have looked := verified.next (.ok sampleUser)
    have running := (looked.next (.ok sampleEvent)).next (2000000000 : Instant)
    have missing := running.next (.error .noRows)
    have stored := (missing.next (8 : UUID)).next (.ok ())
    have leads : (serve sampleApp (sampleUpload (uuidString 5))).Leads sampleThumbFailed
        (.done (writeErrorFromString 502 "failed to store thumbnail")) := stored.next (.error .failure)
    refine ⟨_, rfl, ?_, leads, upload_faults rfl bearer user wellFormed acceptable leads ⟨?_, ?_, ?_⟩⟩
    · rintro ⟨id, err, hm⟩
      simp [sampleThumbFailed] at hm
    · intro t _
      simp [verify, sampleApp]
    · simp [sampleThumbFailed]
    · intro event t found read
      obtain rfl : event = sampleEvent := by simpa [sampleThumbFailed] using found
      obtain rfl | rfl : t = 2000000000 ∨ t = 1000000000 := by simpa [sampleThumbFailed] using read
      all_goals decide

end ItalyTrip
