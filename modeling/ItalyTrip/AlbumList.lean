import ItalyTrip.Router

namespace ItalyTrip

open Calls

/-- The entry of a photo in the album. -/
structure EntryOf (entry : PhotoResponse) (row : Photo) : Prop where
  id : entry.id = uuidString row.id
  takenAt : entry.takenAt = row.takenAt

def SigningFailed (past : Past Reply) : Prop := ∃ key ttl err, ⟨.presignGet key ttl, .error err⟩ ∈ past

def NoAlbum (response : Response) : Prop := ∀ out, response.body ≠ .album out

theorem noAlbum_error {status : Nat} {message : String} :
    NoAlbum (writeErrorFromString status message) := fun _ h => by cases h

variable {past : Past Reply}

/-- One entry for each row, in their order, or some URL could not be signed. -/
theorem ensures_signPhotos (rows : List Photo) :
    (Photos.signPhotos rows).run.Ensures (fun _ c => ∀ q, c ≠ .query q) (fun past result =>
      match result with
      | .ok out => List.Forall₂ EntryOf out rows
      | .error response => NoAlbum response ∧ SigningFailed past) past := by
  induction rows generalizing past with
  | nil => exact List.Forall₂.nil
  | cons row rows ih =>
    simp only [Photos.signPhotos, ensures_run_bind, ensures_request, ensures_orThrow, ensures_run_pure]
    refine ⟨by simp, fun signed => ⟨fun err herr => ?_, fun url _ => ?_⟩⟩
    · subst herr
      exact ⟨noAlbum_error, _, _, err, List.mem_cons_self⟩
    refine ⟨by simp, fun signed => ⟨fun err herr => ?_, fun thumbURL _ => ?_⟩⟩
    · subst herr
      exact ⟨noAlbum_error, _, _, err, List.mem_cons_self⟩
    refine ih.mono (fun _ _ h => h) fun past result h => ?_
    cases result with
    | ok out => exact List.Forall₂.cons ⟨rfl, rfl⟩ h
    | error response => exact h

/-- The answer of a list: the album of the rows it has read, or none if a call has failed. -/
inductive ListAnswer (past : Past Reply) (r : Except DbError (List Photo)) (response : Response) : Prop
  | album (rows out) (read : r = .ok rows) (entries : List.Forall₂ EntryOf out rows)
      (answer : response = writeJSON 200 (rows.map Photo.takenAt) (.album out))
  | failed (none : NoAlbum response) (why : (∃ err, r = .error err) ∨ SigningFailed past)

/-- The answer follows from whatever the request has read of the photos of an event. -/
def AnswersList (past : Past Reply) (response : Response) : Prop :=
  ∀ eventID r, ⟨.query (.listPhotosByEvent eventID), r⟩ ∈ past → ListAnswer past r response

theorem answersList_unread {response : Response}
    (h : ∀ eventID r, ⟨.query (.listPhotosByEvent eventID), r⟩ ∉ past) : AnswersList past response :=
  fun eventID r hm => absurd hm (h eventID r)

theorem signed_answersList {rows : List Photo}
    (read : ∀ eventID r, ⟨.query (.listPhotosByEvent eventID), r⟩ ∈ past → r = .ok rows) :
    (Photos.signPhotos rows).run.Ensures (fun _ _ => True) (fun past result => match result with
      | .ok out => AnswersList past (writeJSON 200 (rows.map Photo.takenAt) (.album out))
      | .error response => AnswersList past response) past := by
  have signs : (Photos.signPhotos rows).run.Ensures _ _ past := ensures_signPhotos rows
  have keeps := (signs.mono (fun _ _ h => h) fun _ _ _ => trivial).keeps
    (K := fun past => ∀ eventID r, ⟨.query (.listPhotosByEvent eventID), r⟩ ∈ past → r = .ok rows)
    (fun past c r hc h eventID r' hm => by
      rcases List.mem_cons.mp hm with here | before
      · exact absurd (congrArg Sigma.fst here).symm (hc _)
      · exact h eventID r' before) read
  refine (signs.and keeps).mono (fun _ _ _ => trivial) fun past result h => ?_
  obtain ⟨signed, read⟩ := h
  cases result with
  | ok out => exact fun eventID r hm => .album rows out (read eventID r hm) signed rfl
  | error response => exact fun eventID r hm => .failed signed.1 (Or.inr signed.2)

theorem serve_list {app : Application} {req : Request} (route : req.route = .authorized .listPhotos) :
    (serve app req).Ensures (fun _ _ => True) AnswersList [] := by
  refine ensures_authorized route
    { noToken := fun _ => answersList_unread (by simp)
      rejected := fun _ _ _ _ _ => answersList_unread (by simp)
      badSubject := fun _ _ _ _ _ _ _ => answersList_unread (by simp)
      notFound := fun _ _ => answersList_unread (by simp)
      handled := fun _ user => ?_ }
  simp only [AuthorizedRoute.handle, Photos.list, ensures_run_bind, Photos.ensures_requireUnlocked,
    ensures_request, ensures_orThrow, ensures_run_pure, written_ok, written_error, true_and]
  refine ⟨fun err => answersList_unread (by simp), fun event t => ⟨fun _ => answersList_unread (by simp),
    fun _ r => ⟨fun err herr eventID r' hm => ?_, fun rows hrows => ?_⟩⟩⟩
  · refine .failed noAlbum_error (Or.inl ⟨err, ?_⟩)
    simp only [List.mem_cons, Sigma.mk.injEq, Call.query.injEq, Query.listPhotosByEvent.injEq,
      reduceCtorEq, false_and, or_false, List.not_mem_nil] at hm
    obtain ⟨rfl, h⟩ := hm
    exact (eq_of_heq h).trans herr
  · subst hrows
    refine (signed_answersList ?_).mono (fun _ _ h => h) fun past result h => ?_
    · intro eventID r hm
      simp only [List.mem_cons, Sigma.mk.injEq, Call.query.injEq, Query.listPhotosByEvent.injEq,
        reduceCtorEq, false_and, or_false, List.not_mem_nil] at hm
      obtain ⟨rfl, h⟩ := hm
      exact eq_of_heq h
    · cases result <;> exact h

end ItalyTrip
