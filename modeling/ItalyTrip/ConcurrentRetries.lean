import ItalyTrip.RowsBacked
import Mathlib.Data.List.Infix

namespace ItalyTrip

open Calls

/-- The environment answers without a fault. -/
def Faultless : ServerAction → Prop
  | .act _ choice => choice.fault = .none
  | _ => True

instance : (a : ServerAction) → Decidable (Faultless a)
  | .act _ choice => inferInstanceAs (Decidable (choice.fault = .none))
  | .arrive _ => isTrue trivial
  | .kill _ => isTrue trivial
  | .env _ => isTrue trivial

/-- What an answer without faults says about the world from then on. -/
def Tells (w : World) : (c : Call) → Reply c → Prop
  | .query (.findUserById _), .ok user => w.db.hasUser user.id = true
  | .query .getCurrentEvent, .ok event => w.db.hasEvent event.id = true
  | .query (.findPhotoByClientId eventID clientID), .ok row =>
    row ∈ w.db.photos ∧ row.eventID = eventID ∧ row.clientID = clientID
  | .query (.findPhotoByClientId _ _), .error err => err = .noRows
  | .query (.createPhoto arg), .ok row => row = arg.row ∧ row ∈ w.db.photos
  | .query (.createPhoto arg), .error err => err = .uniqueViolation ∧
    ∃ row ∈ w.db.photos, row.eventID = arg.eventID ∧ row.clientID = arg.clientID ∧ row.id ≠ arg.id
  | .put _ _ _, r => r = .ok ()
  | _, _ => True

structure RowsGrow (w w' : World) : Prop where
  photos : w.db.photos ⊆ w'.db.photos
  events : ∀ id, w.db.hasEvent id = true → w'.db.hasEvent id = true
  users : ∀ id, w.db.hasUser id = true → w'.db.hasUser id = true

theorem Tells.grow {w w' : World} {c : Call} {r : Reply c} (h : Tells w c r) (grow : RowsGrow w w') :
    Tells w' c r := by
  unfold Tells at h ⊢
  split at h
  · exact grow.users _ h
  · exact grow.events _ h
  · exact ⟨grow.photos h.1, h.2⟩
  · exact h
  · exact ⟨h.1, grow.photos h.2⟩
  · obtain ⟨herr, row, hrow, same⟩ := h
    exact ⟨herr, row, grow.photos hrow, same⟩
  · exact h
  · trivial

theorem perform_rows {o : Choice} {w w' : World} {c : Call} {r : Reply c}
    (h : perform o w c = some (r, w')) : RowsGrow w w' := by
  refine ⟨?_, ?_, ?_⟩
  · rcases perform_photos h with same | ⟨_, _, added⟩
    · rw [same]
      exact List.Subset.refl _
    · rw [added]
      exact List.subset_append_left _ _
  · intro id has
    rcases perform_events h with same | ⟨_, row, _, hdb, _⟩
    · rwa [Database.hasEvent, same]
    · rw [hdb, Database.hasEvent, List.any_append, Bool.or_eq_true]
      exact Or.inl has
  · intro id has
    rcases perform_effect h with hdb | ⟨q, _, hdb⟩
    · rwa [hdb]
    · rw [hdb]
      exact Database.exec_hasUser has q

/-- An insert names an event and a user that are there, and an id that is not. -/
structure Insertable (w : World) (arg : CreatePhotoParams) : Prop where
  event : w.db.hasEvent arg.eventID = true
  user : w.db.hasUser arg.uploadedBy = true
  fresh : ∀ row ∈ w.db.photos, row.id ≠ arg.id

theorem find_read {db : Database} {defaults : Defaults} {now : Instant} {q : Query}
    {rows : Option q.Row} {r : Except DbError q.Row} {db' : Database}
    (read : db.exec defaults now q = (oneRow rows, db)) (h : db.exec defaults now q = (r, db')) :
    r = oneRow rows ∧ db' = db := by
  rw [read] at h
  cases h
  exact ⟨rfl, rfl⟩

theorem perform_tells {o : Choice} {w w' : World} {c : Call} {r : Reply c} (quiet : o.fault = .none)
    (insertable : ∀ arg, c = .query (.createPhoto arg) → Insertable w arg)
    (h : perform o w c = some (r, w')) : Tells w' c r := by
  unfold Tells
  split
  next id user =>
    obtain ⟨found, hdb⟩ := find_read rfl (perform_faultless quiet h)
    rw [hdb]
    exact Database.hasUser_iff.mpr ⟨user, List.mem_of_find?_eq_some (oneRow_ok found), rfl⟩
  next event =>
    obtain ⟨found, hdb⟩ := find_read rfl (perform_faultless quiet h)
    rw [hdb]
    exact Database.hasEvent_iff.mpr ⟨event, List.argmax_mem (oneRow_ok found), rfl⟩
  next eventID clientID row =>
    obtain ⟨found, hdb⟩ := find_read rfl (perform_faultless quiet h)
    have found := oneRow_ok found
    rw [hdb]
    exact ⟨List.mem_of_find?_eq_some found, by simpa using List.find?_some found⟩
  next eventID clientID err =>
    obtain ⟨found, _⟩ := find_read rfl (perform_faultless quiet h)
    exact (oneRow_error found).1
  next arg row =>
    obtain ⟨rfl, hdb⟩ := Database.createPhoto_ok _ (perform_faultless quiet h)
    rw [hdb]
    exact ⟨rfl, List.mem_append_right _ (List.mem_singleton_self _)⟩
  next arg err =>
    have exec := perform_faultless quiet h
    obtain ⟨event, user, fresh⟩ := insertable arg rfl
    rcases Database.createPhoto_cases w.db arg with ⟨hx, taken⟩ | ⟨_, missing⟩ | ⟨hx, _⟩
    · have hx := hx.symm.trans exec
      simp only [Prod.mk.injEq, Except.error.injEq] at hx
      rw [← hx.2]
      refine ⟨hx.1.symm, ?_⟩
      rcases taken with taken | taken
      · obtain ⟨row, hrow, same⟩ := List.any_eq_true.mp taken
        exact absurd (beq_iff_eq.mp same) (fresh row hrow)
      · obtain ⟨row, hrow, same⟩ := List.any_eq_true.mp taken
        simp only [Bool.and_eq_true, beq_iff_eq] at same
        exact ⟨row, hrow, same.1, same.2, fresh row hrow⟩
    · simp [event, user] at missing
    · exact absurd (hx.symm.trans exec) (by simp)
  next key body contentType =>
    simp only [perform, quiet] at h
    cases h
    rfl
  next => trivial

variable {app : Application} {past : Past Reply}

theorem step_rows (app : Application) (s : ServerPool) (a : ServerAction) :
    RowsGrow s.world (s.step (server app) a).world := by
  rcases Pool.step_world (m := server app) s a with same | ⟨_, _, _, _, _, _, _, x, _⟩ | ⟨_, he⟩
  · rw [same]
    exact ⟨List.Subset.refl _, fun _ h => h, fun _ h => h⟩
  · exact perform_rows x.performed
  · rw [he]
    exact ⟨List.Subset.refl _, fun _ h => h, fun _ h => h⟩

/-- A photo that another request has inserted is found from then on. -/
def FindsRaced (past : Past Reply) : Prop := ∀ eventID clientID err rest,
  ⟨.query (.findPhotoByClientId eventID clientID), .error err⟩ :: rest <:+ past →
    ∀ arg e, arg.eventID = eventID → arg.clientID = clientID → ⟨.query (.createPhoto arg), .error e⟩ ∉ rest

/-- What a request knows where nothing fails. -/
structure Truthful (past : Past Reply) (w : World) : Prop where
  tells : ∀ x ∈ past, Tells w x.1 x.2
  raced : FindsRaced past

theorem Truthful.grow {past : Past Reply} {w w' : World} (h : Truthful past w) (grow : RowsGrow w w') :
    Truthful past w' :=
  ⟨fun x hx => (h.tells x hx).grow grow, h.raced⟩

theorem Truthful.step {past : Past Reply} {o : Choice} {w w' : World} {c : Call} {r : Reply c}
    (h : Truthful past w) (quiet : o.fault = .none)
    (insertable : ∀ arg, c = .query (.createPhoto arg) → Insertable w arg)
    (hp : perform o w c = some (r, w')) : Truthful (⟨c, r⟩ :: past) w' := by
  refine ⟨fun x hx => ?_, ?_⟩
  · rcases List.mem_cons.mp hx with rfl | old
    · exact perform_tells quiet insertable hp
    · exact (h.tells x old).grow (perform_rows hp)
  · intro eventID clientID err rest suffix arg e hevent hclient hm
    rcases List.suffix_cons_iff.mp suffix with here | before
    · obtain ⟨hx, rfl⟩ := List.cons.inj here
      cases hx
      obtain ⟨_, row, hrow, sameEvent, sameClient, _⟩ := h.tells _ hm
      obtain ⟨found, _⟩ := find_read rfl (perform_faultless quiet hp)
      have none := List.find?_eq_none.mp (oneRow_error found).2 row hrow
      simp [sameEvent, sameClient, hevent, hclient] at none
    · exact h.raced eventID clientID err rest before arg e hevent hclient hm

/-- The request has read this event and found it running. -/
def PassedGuard (past : Past Reply) (eventID : UUID) : Prop :=
  ∃ (event : Event) (t : Instant) (rest : Past Reply), Photos.readEvent event t rest <:+ past ∧
    ¬ event.IsOver t ∧ event.id = eventID

theorem passedGuard_other {c : Call} {r : Reply c} {eventID : UUID} (hc : c ≠ .now) :
    PassedGuard (⟨c, r⟩ :: past) eventID ↔ PassedGuard past eventID := by
  constructor
  · rintro ⟨event, t, rest, suffix, running, same⟩
    rcases List.suffix_cons_iff.mp suffix with here | before
    · exact absurd (congrArg Sigma.fst (List.cons.inj here).1).symm hc
    · exact ⟨event, t, rest, before, running, same⟩
  · rintro ⟨event, t, rest, suffix, running, same⟩
    exact ⟨event, t, rest, suffix.trans (List.suffix_cons _ _), running, same⟩

theorem passedGuard_readEvent {event : Event} {t : Instant} {eventID : UUID} :
    PassedGuard (Photos.readEvent event t past) eventID ↔
      (¬ event.IsOver t ∧ event.id = eventID) ∨ PassedGuard past eventID := by
  constructor
  · rintro ⟨e, t', rest, suffix, running, same⟩
    rcases List.suffix_cons_iff.mp suffix with here | before
    · cases here
      exact Or.inl ⟨running, same⟩
    · exact Or.inr ((passedGuard_other (by simp)).mp ⟨e, t', rest, before, running, same⟩)
  · rintro (⟨running, same⟩ | ⟨e, t', rest, suffix, running, same⟩)
    · exact ⟨event, t, past, List.suffix_refl _, running, same⟩
    · exact ⟨e, t', rest, suffix.trans (List.suffix_append [_, _] _), running, same⟩

/-- Nothing before the guard passes it. -/
theorem not_passedGuard {t : Instant} {eventID : UUID} : ¬ PassedGuard [⟨.now, t⟩] eventID := by
  rintro ⟨event, t', rest, suffix, _⟩
  have := suffix.length_le
  simp at this

/-- The last two exchanges are those of a guard that let the request pass. -/
def guardsAt (eventID : UUID) : Past Reply → Bool
  | ⟨.now, t⟩ :: ⟨.query .getCurrentEvent, .ok event⟩ :: _ =>
    !decide (Event.IsOver event t) && event.id == eventID
  | _ => false

instance (past : Past Reply) (eventID : UUID) : Decidable (PassedGuard past eventID) :=
  decidable_of_iff (past.tails.any (guardsAt eventID) = true) (by
    rw [List.any_eq_true]
    constructor
    · rintro ⟨tail, htail, guards⟩
      unfold guardsAt at guards
      split at guards
      next t event rest =>
        simp only [Bool.and_eq_true, Bool.not_eq_true', decide_eq_false_iff_not, beq_iff_eq] at guards
        exact ⟨event, t, rest, (List.mem_tails _ _).mp htail, guards⟩
      next => cases guards
    · rintro ⟨event, t, rest, suffix, running, same⟩
      exact ⟨Photos.readEvent event t rest, (List.mem_tails _ _).mpr suffix,
        by simp [guardsAt, running, same]⟩)

/-- A request inserts once, in an event and for a user it has read. -/
def InsertCall (past : Past Reply) (c : Call) : Prop := ∀ arg, c = .query (.createPhoto arg) →
  PassedGuard past arg.eventID ∧
    (∃ id user, ⟨.query (.findUserById id), .ok user⟩ ∈ past ∧ arg.uploadedBy = user.id) ∧
    ∀ other r, ⟨.query (.createPhoto other), r⟩ ∉ past

def stored (row : Photo) : Response := writeJSON 201 [] (.upload (Photos.uploadResponse row false))

def alreadyStored (row : Photo) : Response :=
  writeJSON 200 [] (.upload (Photos.uploadResponse row true))

/-- The request has stored the capture and says so, or it answers with the row it has found. -/
inductive Outcome (past : Past Reply) (eventID : UUID) (clientID : String) (response : Response) : Prop
  | created (arg row) (event : arg.eventID = eventID) (client : arg.clientID = clientID)
      (done : ⟨.query (.createPhoto arg), .ok row⟩ ∈ past) (answer : response = stored row)
  | found (row) (done : ⟨.query (.findPhotoByClientId eventID clientID), .ok row⟩ ∈ past)
      (without : ∀ arg row, ⟨.query (.createPhoto arg), .ok row⟩ ∉ past)
      (answer : response = alreadyStored row)

theorem savePhoto_outcome {event : Event} {user : User} {form : Photos.UploadForm} {original : Bytes}
    {thumb : Images.Thumb} (w : World) (clean : ∀ arg r, ⟨.query (.createPhoto arg), r⟩ ∉ past) :
    (Photos.savePhoto event user form original thumb).run.Ensures (fun _ _ => True)
      (fun past result => Truthful past w → Outcome past event.id form.clientID (written result))
      past := by
  simp only [Photos.savePhoto, ensures_run_bind, ensures_request, ensures_orThrow, true_and]
  refine fun id => fun put => ⟨fun err hput truth => ?_, fun _ hput => fun thumbPut =>
    ⟨fun err hthumb truth => ?_, fun _ hthumb => fun created => ?_⟩⟩
  · subst hput
    cases truth.tells _ List.mem_cons_self
  · subst hthumb
    cases truth.tells _ List.mem_cons_self
  · cases created with
    | ok row => exact fun _ => .created _ row rfl rfl List.mem_cons_self rfl
    | error err =>
      simp only [ensures_run_bind, Photos.ensures_resolveRace, ensures_run_pure, true_and]
      refine ⟨fun hne truth => ?_, fun herr => ⟨fun e truth => ?_, fun row truth => ?_⟩⟩
      · exact absurd (truth.tells _ List.mem_cons_self).1 hne
      · refine absurd List.mem_cons_self (truth.raced event.id form.clientID e _ (List.suffix_refl _)
          _ err ?_ ?_) <;> rfl
      · refine .found row List.mem_cons_self ?_ rfl
        intro arg row hm
        simp only [List.mem_cons, clean, or_false] at hm
        rcases hm with hm | hm | hm | hm | hm <;> cases hm

theorem savePhoto_answers {event : Event} {user : User} {form : Photos.UploadForm} {original : Bytes}
    {thumb : Images.Thumb} {w : World} (clean : ∀ arg r, ⟨.query (.createPhoto arg), r⟩ ∉ past)
    (own : ∀ eventID, PassedGuard past eventID → event.id = eventID) :
    (Photos.savePhoto event user form original thumb).run.Ensures (fun _ _ => True)
      (fun past result => Truthful past w → ∀ eventID, PassedGuard past eventID →
        Outcome past eventID form.clientID (written result)) past := by
  have unguarded : (Photos.savePhoto event user form original thumb).run.Ensures
      (fun _ c => c ≠ .now) (fun _ _ => True) past := by
    simp [Photos.savePhoto, forall_except]
  have keeps := unguarded.keeps (K := fun past => ∀ eventID, PassedGuard past eventID →
    event.id = eventID) (fun past c r hc h eventID passed => h eventID
      ((passedGuard_other hc).mp passed)) own
  refine ((savePhoto_outcome w clean).and keeps).mono (fun _ _ _ => trivial) ?_
  rintro past result ⟨outcome, same⟩ truth eventID passed
  obtain rfl := same eventID passed
  exact outcome truth

/-- An upload of this capture that would be accepted. -/
def AcceptableUpload (app : Application) (clientID : String) (req : Request) : Prop :=
  ∃ upload form original thumb, Accepts app req upload form original thumb ∧ form.clientID = clientID

instance (clientID : String) (req : Request) : Decidable (AcceptableUpload app clientID req) :=
  match route : req.route with
  | .authorized (.uploadPhoto upload) =>
    match wellFormed : Photos.readForm app upload with
    | .ok form =>
      match image : Photos.readImage app form.file with
      | .ok (original, thumb) =>
        if same : form.clientID = clientID then
          isTrue ⟨upload, form, original, thumb, ⟨route, wellFormed, image⟩, same⟩
        else isFalse fun ⟨_, _, _, _, accepts, same'⟩ => same (by
          cases route.symm.trans accepts.route
          rwa [← Except.ok.inj (wellFormed.symm.trans accepts.wellFormed)] at same')
      | .error _ => isFalse fun ⟨_, _, _, _, accepts, _⟩ => by
          cases route.symm.trans accepts.route
          obtain rfl := Except.ok.inj (wellFormed.symm.trans accepts.wellFormed)
          cases image.symm.trans accepts.image
    | .error _ => isFalse fun ⟨_, _, _, _, accepts, _⟩ => by
        cases route.symm.trans accepts.route
        cases wellFormed.symm.trans accepts.wellFormed
  | .authorized .me | .authorized .currentEvent | .authorized (.createEvent _)
  | .authorized .listPhotos | .authorized .downloadAll | .authorized (.originalPhoto _)
  | .login _ | .refresh => isFalse fun ⟨_, _, _, _, accepts, _⟩ => by
      cases route.symm.trans accepts.route

theorem serve_outcome {req : Request} {clientID : String} {w : World}
    (acceptable : AcceptableUpload app clientID req) :
    (serve app req).Ensures (fun _ _ => True) (fun past response => Truthful past w →
      ∀ eventID, PassedGuard past eventID → Outcome past eventID clientID response) [] := by
  obtain ⟨upload, form, original, thumb, accepts, rfl⟩ := acceptable
  have anonymous : ∀ {t : Instant} {id found eventID},
      ¬ PassedGuard [⟨.query (.findUserById id), found⟩, ⟨.now, t⟩] eventID := by
    intro t id found eventID passed
    exact not_passedGuard ((passedGuard_other (by simp)).mp passed)
  refine ensures_authorized accepts.route
    { noToken := ?_, rejected := ?_, badSubject := ?_, notFound := ?_, handled := fun _ user => ?_ }
  · rintro _ _ eventID ⟨_, _, _, suffix, _⟩
    simp at suffix
  · exact fun _ _ _ _ _ _ _ passed => absurd passed not_passedGuard
  · exact fun _ _ _ _ _ _ _ _ _ passed => absurd passed not_passedGuard
  · exact fun _ _ _ _ passed => absurd passed anonymous
  have own : ∀ {event : Event} {t t' : Instant} {id found eventID form'} {result : Except DbError Photo},
      PassedGuard (Photos.lookedUp event t form' result
        [⟨.query (.findUserById id), found⟩, ⟨.now, t'⟩]) eventID → event.id = eventID := by
    intro event t t' id found eventID form' result passed
    rcases passedGuard_readEvent.mp ((passedGuard_other (by simp)).mp passed) with ⟨_, same⟩ | before
    · exact same
    · exact absurd before anonymous
  refine Photos.ensures_upload.mpr
    { notLoaded := ?_, ended := ?_, anonymous := ?_, badForm := ?_, stored := ?_, notLooked := ?_
      badImage := ?_, save := ?_ }
  · exact fun err _ eventID passed => absurd ((passedGuard_other (by simp)).mp passed) anonymous
  · intro event t ended _ eventID passed
    rcases passedGuard_readEvent.mp passed with ⟨running, _⟩ | before
    · exact absurd ended running
    · exact absurd before anonymous
  · intro _ _ _ none
    cases none
  · intro _ _ _ _ _ _ bad
    rw [accepts.wellFormed] at bad
    cases bad
  · intro event t user form' passes row _ eventID passed
    obtain rfl := Except.ok.inj (accepts.wellFormed.symm.trans passes.wellFormed)
    obtain rfl := own passed
    exact .found row List.mem_cons_self (by simp) rfl
  · intro event t user form' passes err hne truth
    exact absurd (truth.tells _ List.mem_cons_self) hne
  · intro event t user form' passes response bad
    obtain rfl := Except.ok.inj (accepts.wellFormed.symm.trans passes.wellFormed)
    rw [accepts.image] at bad
    cases bad
  · intro event t user form' passes image made
    obtain rfl := Except.ok.inj (accepts.wellFormed.symm.trans passes.wellFormed)
    exact savePhoto_answers (by simp) fun eventID => own

theorem savePhoto_insert {event : Event} {user : User} {form : Photos.UploadForm} {original : Bytes}
    {thumb : Images.Thumb} {id : UUID} (clean : ∀ arg r, ⟨.query (.createPhoto arg), r⟩ ∉ past)
    (guarded : PassedGuard past event.id) (known : ⟨.query (.findUserById id), .ok user⟩ ∈ past) :
    (Photos.savePhoto event user form original thumb).run.Ensures InsertCall (fun _ _ => True)
      past := by
  simp only [Photos.savePhoto, ensures_run_bind, ensures_request, ensures_orThrow, implies_true,
    true_and]
  refine ⟨by simp [InsertCall], fun photoID => ⟨by simp [InsertCall], fun put _ _ => ?_⟩⟩
  refine ⟨by simp [InsertCall], fun thumbPut _ _ => ⟨?_, fun created => ?_⟩⟩
  · intro arg heq
    cases heq
    refine ⟨?_, ⟨id, user, by simp [known], rfl⟩, by simp [clean]⟩
    simp only [passedGuard_other, ne_eq, reduceCtorEq, not_false_eq_true, guarded]
  · cases created with
    | ok row => trivial
    | error err => simp [InsertCall]

theorem serve_insert (req : Request) :
    (serve app req).Ensures InsertCall (fun _ _ => True) [] := by
  by_cases hw : Table.photos ∈ req.route.writes
  · obtain ⟨header, cookie, route⟩ := req
    cases route with
    | authorized route =>
      cases route with
      | uploadPhoto upload =>
        refine ensures_authorized rfl
          { clock := by simp [InsertCall]
            lookup := fun _ => by simp [InsertCall]
            handled := fun _ user => ?_ }
        refine Photos.ensures_upload.mpr
          { current := by simp [InsertCall]
            clock := fun _ => by simp [InsertCall]
            lookup := fun _ => by simp [InsertCall]
            save := fun passes image _ => ?_ }
        obtain rfl := Option.some.inj passes.authenticated
        refine savePhoto_insert (by simp) ?_
          (List.mem_cons_of_mem _ (List.mem_cons_of_mem _ (List.mem_cons_of_mem _ List.mem_cons_self)))
        exact (passedGuard_other (by simp)).mpr
          (passedGuard_readEvent.mpr (Or.inl ⟨passes.running, rfl⟩))
      | _ => simp [Route.writes] at hw
    | _ => simp [Route.writes] at hw
  · refine (serve_stores hw).mono (fun past c hc arg heq => ?_) fun _ _ h => h
    subst heq
    simp [Query.writes] at hc

/-- The UUIDs that have been drawn are new. -/
structure Fresh (known : List Photo) (s : ServerPool) : Prop where
  once : DrawnOnce s
  new : ∀ u ∈ s.threads, ∀ id, ⟨.newUUID, id⟩ ∈ u.past → ∀ row ∈ known, row.id ≠ id

theorem Fresh.before {known : List Photo} {s : ServerPool} {a : ServerAction}
    (h : Fresh known (s.step (server app) a)) : Fresh known s := by
  refine ⟨h.once.before, fun u hu id hm => ?_⟩
  obtain ⟨i, hi⟩ := List.mem_iff_getElem?.mp hu
  obtain ⟨v, hv, _, past⟩ := Pool.step_past (m := server app) s a hi
  exact h.new v (List.mem_of_getElem? hv) id (past.subset hm)

/-- What holds of the pool while nothing fails. -/
structure Undisturbed (app : Application) (known : List Photo) (s : ServerPool) : Prop where
  follows : s.Follows (server app)
  owned : Owned known s
  truthful : ∀ u ∈ s.threads, Truthful u.past s.world

theorem Undisturbed.insertable {known : List Photo} {s s' : ServerPool} {i : Nat} {t : Request}
    {arg : CreatePhotoParams} {next} {o : Choice} {r} (h : Undisturbed app known s)
    (fresh : Fresh known s)
    (x : Pool.Exchange (server app) s s' i t past (.query (.createPhoto arg)) next o r) :
    Insertable s.world arg := by
  obtain ⟨_, leads, rest⟩ := h.follows _ x.mem
  obtain rfl := rest _ rfl
  obtain ⟨⟨event, time, before, suffix, _, hevent⟩, ⟨id, user, known', huser⟩, first⟩ :=
    (serve_insert t).at_call leads arg rfl
  obtain ⟨_, _, _, _, _, stores⟩ := (serve_objects t).at_call leads
  have truth := h.truthful _ x.mem
  refine ⟨?_, ?_, fun row hrow same => ?_⟩
  · rw [← hevent]
    exact truth.tells _ (suffix.subset (List.mem_cons_of_mem _ List.mem_cons_self))
  · rw [huser]
    exact truth.tells _ known'
  · rcases h.owned row hrow with old | ⟨v, hv, inserted⟩
    · exact fresh.new _ x.mem _ stores.drawn row old same
    · obtain ⟨j, hj⟩ := List.mem_iff_getElem?.mp hv
      obtain rfl := fresh.once j i v _ row.id hj x.thread (inserted.drew h.follows hv)
        (same ▸ stores.drawn)
      obtain rfl := Option.some.inj (hj.symm.trans x.thread)
      obtain ⟨other, r', hm, _⟩ := inserted
      exact first other r' hm

theorem Undisturbed.step {known : List Photo} {s : ServerPool} {a : ServerAction}
    (h : Undisturbed app known s) (fresh : Fresh known s) (quiet : Faultless a) :
    Undisturbed app known (s.step (server app) a) := by
  refine ⟨h.follows.step a, h.owned.step a, fun v hv => ?_⟩
  obtain ⟨i, hi⟩ := List.mem_iff_getElem?.mp hv
  have grow := step_rows app s a
  rcases Pool.step_origin s a hi with ⟨t, rfl⟩ | ⟨u, hu, same⟩ | ⟨o, t, past, c, next, r, rfl, x, rfl⟩
  · exact ⟨fun _ hx => absurd hx List.not_mem_nil, fun _ _ _ _ suffix => by simp at suffix⟩
  · have old := (h.truthful u (List.mem_of_getElem? hu)).grow grow
    rcases same with rfl | rfl <;> exact old
  · refine (h.truthful _ x.mem).step quiet (fun arg heq => ?_) x.performed
    subst heq
    exact h.insertable fresh x

/-- The thread is an acceptable upload of this capture that has passed the guard of this event. -/
def Retries (app : Application) (eventID : UUID) (clientID : String)
    (u : Calls.Thread Call Reply Request Response) : Prop :=
  AcceptableUpload app clientID u.task ∧ PassedGuard u.past eventID

def Photo.isOf (eventID : UUID) (clientID : String) (row : Photo) : Bool :=
  row.eventID == eventID && row.clientID == clientID

theorem isOf_iff {eventID : UUID} {clientID : String} {row : Photo} :
    row.isOf eventID clientID = true ↔ row.eventID = eventID ∧ row.clientID = clientID := by
  simp [Photo.isOf]

theorem Outcome.row {eventID : UUID} {clientID : String} {response : Response} {w : World}
    (h : Outcome past eventID clientID response) (truth : Truthful past w) :
    ∃ row ∈ w.db.photos, row.isOf eventID clientID = true ∧
      (response = alreadyStored row ∧ (∀ arg row, ⟨.query (.createPhoto arg), .ok row⟩ ∉ past) ∨
        response = stored row ∧ Inserted past row) := by
  cases h with
  | created arg row event client done answer =>
    obtain ⟨same, hrow⟩ := truth.tells _ done
    refine ⟨row, hrow, isOf_iff.mpr ?_, Or.inr ⟨answer, arg, _, done, same⟩⟩
    rw [same]
    exact ⟨event, client⟩
  | found row done without answer =>
    obtain ⟨hrow, event, client⟩ := truth.tells _ done
    exact ⟨row, hrow, isOf_iff.mpr ⟨event, client⟩, Or.inl ⟨answer, without⟩⟩

theorem Undisturbed.outcome {known : List Photo} {s : ServerPool} (h : Undisturbed app known s)
    {u : Calls.Thread Call Reply Request Response} (hu : u ∈ s.threads) {eventID : UUID}
    {clientID : String} (retries : Retries app eventID clientID u) {response : Response}
    (answered : u.result = some response) : Outcome u.past eventID clientID response := by
  obtain ⟨_, leads, rest⟩ := h.follows u hu
  obtain rfl := rest _ (Thread.rest_of_result answered)
  exact (serve_outcome retries.1).at_done leads (h.truthful u hu) eventID retries.2

/-- The thread that has inserted a row is one of the retries of its capture. -/
theorem Undisturbed.retries {known : List Photo} {s : ServerPool} (h : Undisturbed app known s)
    {u : Calls.Thread Call Reply Request Response} (hu : u ∈ s.threads) {row : Photo}
    (inserted : Inserted u.past row) : Retries app row.eventID row.clientID u := by
  obtain ⟨arg, r, hm, rfl⟩ := inserted
  obtain ⟨_, leads, _⟩ := h.follows u hu
  obtain ⟨before, suffix, upload, form, original, thumb, accepts, stores⟩ :=
    (serve_objects u.task).at_past leads hm
  obtain ⟨before', suffix', insert⟩ := (serve_insert u.task).at_past leads hm
  obtain ⟨⟨event, t, rest, guard, running, same⟩, _⟩ := insert arg rfl
  refine ⟨⟨upload, form, original, thumb, accepts, stores.clientID.symm⟩, event, t, rest, ?_⟩
  exact ⟨(guard.trans (List.suffix_cons _ _)).trans suffix', running, same⟩

instance (eventID : UUID) (clientID : String) (u : Calls.Thread Call Reply Request Response) :
    Decidable (Retries app eventID clientID u) :=
  inferInstanceAs (Decidable (_ ∧ _))

end ItalyTrip
