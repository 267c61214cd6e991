import ItalyTrip.Frames
import ItalyTrip.System

namespace ItalyTrip

open Calls

def Success (status : Nat) : Prop := 200 ≤ status ∧ status < 300

/-- A query has given the request a row with this `client_id`. -/
def GotRow (past : Past Reply) (clientID : String) : Prop :=
  (∃ arg row, ⟨.query (.createPhoto arg), .ok row⟩ ∈ past ∧ arg.clientID = clientID) ∨
    ∃ event row, ⟨.query (.findPhotoByClientId event clientID), .ok row⟩ ∈ past

/-- The rows that queries have given are stored. -/
structure KnowsRows (past : Past Reply) (w : World) : Prop where
  created : ∀ arg row, ⟨.query (.createPhoto arg), .ok row⟩ ∈ past →
    row ∈ w.db.photos ∧ row.clientID = arg.clientID
  found : ∀ event clientID row, ⟨.query (.findPhotoByClientId event clientID), .ok row⟩ ∈ past →
    row ∈ w.db.photos ∧ row.clientID = clientID

def PhotosGrow (w w' : World) : Prop := w.db.photos ⊆ w'.db.photos

theorem perform_photosGrow {o : Choice} {w w' : World} {c : Call} {r : Reply c}
    (h : perform o w c = some (r, w')) : PhotosGrow w w' := by
  rcases perform_photos h with same | ⟨_, _, added⟩
  · rw [PhotosGrow, same]
    exact List.Subset.refl _
  · rw [PhotosGrow, added]
    exact List.subset_append_left _ _

theorem KnowsRows.grow {past : Past Reply} {w w' : World} (h : KnowsRows past w)
    (grow : PhotosGrow w w') : KnowsRows past w' where
  created arg row hm := ⟨grow (h.created arg row hm).1, (h.created arg row hm).2⟩
  found event clientID row hm :=
    ⟨grow (h.found event clientID row hm).1, (h.found event clientID row hm).2⟩

theorem KnowsRows.step {past : Past Reply} {o : Choice} {w w' : World} {c : Call} {r : Reply c}
    (h : KnowsRows past w) (hp : perform o w c = some (r, w')) : KnowsRows (⟨c, r⟩ :: past) w' := by
  have old := h.grow (perform_photosGrow hp)
  refine ⟨?_, ?_⟩
  · intro arg row hm
    rcases List.mem_cons.mp hm with here | before
    · cases here
      have hx : w.db.createPhoto arg = (.ok row, w'.db) := perform_ok hp
      obtain ⟨rfl, hdb⟩ := Database.createPhoto_ok _ hx
      refine ⟨?_, rfl⟩
      rw [hdb]
      exact List.mem_append_right _ (List.mem_singleton_self _)
    · exact old.created arg row before
  · intro event clientID row hm
    rcases List.mem_cons.mp hm with here | before
    · cases here
      have hx := perform_ok hp
      cases hfind : w.db.findPhotoByClientId event clientID with
      | none => simp [Database.exec, hfind, oneRow] at hx
      | some stored =>
        simp only [Database.exec, hfind, oneRow, Prod.mk.injEq, Except.ok.injEq] at hx
        obtain ⟨rfl, hdb⟩ := hx
        have hkey := List.find?_some hfind
        simp only [Bool.and_eq_true, beq_iff_eq] at hkey
        exact ⟨hdb ▸ List.mem_of_find?_eq_some hfind, hkey.2⟩
    · exact old.found event clientID row before

theorem GotRow.stored {past : Past Reply} {w : World} {clientID : String}
    (h : GotRow past clientID) (knows : KnowsRows past w) :
    ∃ row ∈ w.db.photos, row.clientID = clientID := by
  rcases h with ⟨arg, row, hm, rfl⟩ | ⟨event, row, hm⟩
  · exact ⟨row, knows.created arg row hm⟩
  · exact ⟨row, knows.found event clientID row hm⟩

variable {app : Application} {past : Past Reply}

/-- What a request knows of the photos table. -/
theorem row_rules (app : Application) :
    Pool.Local (server app) (fun _ _ => True) (fun _ => True) PhotosGrow (fun _ => KnowsRows) where
  arrive _ _ _ :=
    ⟨fun _ _ h => absurd h List.not_mem_nil, fun _ _ _ h => absurd h List.not_mem_nil⟩
  act _ _ _ _ _ _ _ _ _ _ knows hp _ := ⟨trivial, perform_photosGrow hp, knows.step hp⟩
  env _ _ _ := ⟨trivial, List.Subset.refl _⟩
  stable _ _ _ _ grow knows := knows.grow grow

theorem refusal_not_success {response : Response} (h : Photos.Refusal response) :
    ¬ Success response.status := by
  obtain ⟨status, message, rfl, low, _⟩ := h
  exact fun ok => absurd ok.2 (Nat.not_lt.mpr (Nat.le_trans (by decide) low))

theorem loadError_not_success (err : DbError) : ¬ Success (Photos.loadError err).status := by
  cases err <;> simp [Photos.loadError, writeErrorFromString, Success]

theorem gotRow_created {arg : CreatePhotoParams} {row : Photo} {clientID : String}
    (h : arg.clientID = clientID) : GotRow (⟨.query (.createPhoto arg), .ok row⟩ :: past) clientID :=
  Or.inl ⟨arg, row, List.mem_cons_self, h⟩

theorem gotRow_found {event : UUID} {row : Photo} {clientID : String} :
    GotRow (⟨.query (.findPhotoByClientId event clientID), .ok row⟩ :: past) clientID :=
  Or.inr ⟨event, row, List.mem_cons_self⟩

theorem savePhoto_gotRow {event : Event} {user : User} {form : Photos.UploadForm} {original : Bytes}
    {thumb : Images.Thumb} :
    (Photos.savePhoto event user form original thumb).run.Ensures (fun _ _ => True)
      (fun past result => Success (written result).status → GotRow past form.clientID) past := by
  simp [Photos.savePhoto, forall_except, Photos.saveFailed, writeErrorFromString, Success]
  exact fun id stored => ⟨fun row _ _ => gotRow_found, fun row _ _ => gotRow_created rfl⟩

/-- An upload answers with a success only where a query has given it a row of its capture. -/
theorem upload_gotRow {context : Option User} {req : UploadRequest} :
    (Photos.upload app context req).run.Ensures (fun _ _ => True)
      (fun past result => Success (written result).status →
        ∃ clientID, Photos.parseClientID app req.clientID = .ok clientID ∧ GotRow past clientID)
      past := by
  exact Photos.ensures_upload.mpr
    { notLoaded := fun err ok => absurd ok (loadError_not_success err)
      ended := fun _ _ _ ok => absurd ok.2 (by decide)
      anonymous := fun _ _ _ _ ok => absurd ok.2 (by decide)
      badForm := fun _ _ _ _ _ response h ok =>
        absurd ok (refusal_not_success (Photos.readForm_refuses app req response h))
      stored := fun passes row _ => ⟨_, (Photos.readForm_ok passes.wellFormed).2.1, gotRow_found⟩
      notLooked := fun _ _ _ ok => absurd ok.2 (by decide)
      badImage := fun _ response h ok =>
        absurd ok (refusal_not_success (Photos.readImage_refuses app _ response h))
      save := fun passes _ _ => savePhoto_gotRow.mono (fun _ _ h => h) fun _ _ h ok =>
        ⟨_, (Photos.readForm_ok passes.wellFormed).2.1, h ok⟩ }

/-- The request is an upload of this capture. -/
def Request.Uploads (req : Request) (clientId : String) : Prop :=
  ∃ upload, req.route = .authorized (.uploadPhoto upload) ∧ upload.clientID = clientId

theorem serve_gotRow {req : Request} {clientId : String} (uploads : req.Uploads clientId) :
    (serve app req).Ensures (fun _ _ => True)
      (fun past response => Success response.status →
        ∃ clientID, Photos.parseClientID app clientId = .ok clientID ∧ GotRow past clientID) [] := by
  obtain ⟨upload, route, rfl⟩ := uploads
  exact ensures_authorized route
    { noToken := fun _ ok => absurd ok.2 (by decide)
      rejected := fun _ _ err _ _ ok => absurd ok.2 (by cases err <;> decide)
      badSubject := fun _ _ _ _ _ _ _ ok => absurd ok.2 (by decide)
      notFound := fun _ _ ok => absurd ok.2 (by decide)
      handled := fun _ _ => upload_gotRow }

/-- The server holds a row of this capture, under the canonical form of its client id. -/
def HasRow (app : Application) (s : ServerPool) (clientId : String) : Prop :=
  ∃ row ∈ s.world.db.photos, Photos.parseClientID app clientId = .ok row.clientID

/-- The server has answered 423 to an upload of this capture. -/
def AnsweredLocked (s : ServerPool) (clientId : String) : Prop :=
  ∃ u ∈ s.threads, u.task.Uploads clientId ∧ ∃ response, u.result = some response ∧ response.status = 423

def Settled (app : Application) (s : ServerPool) (clientId : String) : Prop :=
  HasRow app s clientId ∨ AnsweredLocked s clientId

/-- A capture is in the store, or with the server, or was turned away because the event was over. -/
def NotLost (app : Application) (w : SystemWorld) (clientId : String) : Prop :=
  (∃ item ∈ w.browser.store, item.clientId = clientId) ∨ Settled app w.server clientId

abbrev KnowsItsRows (app : Application) (s : ServerPool) : Prop :=
  Pool.Good (server app) (fun _ => True) (fun _ => KnowsRows) s

theorem answered_settled {s : ServerPool} (good : KnowsItsRows app s)
    {u : Calls.Thread Call Reply Request Response} (hu : u ∈ s.threads) {response : Response}
    (done : u.result = some response) {clientId : String} (uploads : u.task.Uploads clientId)
    (final : Success response.status ∨ response.status = 423) : Settled app s clientId := by
  rcases final with success | locked
  · have leads := good.leads u hu _ (Thread.rest_of_result done)
    obtain ⟨clientID, parsed, got⟩ := (serve_gotRow uploads).at_done leads success
    obtain ⟨row, hrow, rfl⟩ := got.stored (good.thread u hu)
    exact Or.inl ⟨row, hrow, parsed⟩
  · exact Or.inr ⟨u, hu, uploads, response, done, locked⟩

/-- What the server has settled stays settled. -/
theorem Settled.step {s : ServerPool} {clientId : String} (h : Settled app s clientId)
    (a : ServerAction) : Settled app (s.step (server app) a) clientId := by
  rcases h with ⟨row, hrow, parsed⟩ | ⟨u, hu, uploads, response, done, locked⟩
  · refine Or.inl ⟨row, ?_, parsed⟩
    rcases Pool.step_world (m := server app) s a with same | ⟨_, _, _, _, _, _, _, x, _⟩ | ⟨_, he⟩
    · rwa [same]
    · exact perform_photosGrow x.performed hrow
    · rw [he]
      exact hrow
  · exact Or.inr ⟨u, Pool.step_done hu done a, uploads, response, done, locked⟩

/-- An item is removed only after a success or a 423. -/
def RemovalAllowed (past : Past ClientReply) (c : ClientCall) : Prop :=
  ∀ clientId, c = .idbDelete clientId →
    ∃ res, Answered past clientId res ∧ (res.ok = true ∨ res.status = 423)

theorem removalAllowed_tolerant : Tolerant RemovalAllowed where
  quiet past c h clientId hc := by
    subst hc
    cases h
  pending past item _ clientId hc := by cases hc

theorem chain_removals (tab p : Nat) :
    Uploader.Calls RemovalAllowed (ApiClient.refreshChain tab p) [] := by
  have tolerant := removalAllowed_tolerant
  refine (Uploader.calls_quiet tolerant rfl).bind fun _ past => ?_
  refine (Uploader.exchangeToken_calls tolerant).attempt.bind fun result past => ?_
  exact ⟨fun clientId hc => (by cases hc), fun _ => trivial⟩

theorem Answered.cons {past : Past ClientReply} {clientId : String} {res : HttpResponse}
    {x : Sigma ClientReply} (h : Answered past clientId res) : Answered (x :: past) clientId res := by
  obtain ⟨token, input, hc, hm⟩ := h
  exact ⟨token, input, hc, List.mem_cons_of_mem _ hm⟩

theorem fetch_answered {tab : Nat} {input : UploadInput} {past : Past ClientReply} :
    (ApiClient.fetchWithRefresh tab fun token => .upload token input).run.Ensures RemovalAllowed
      (fun past r => match r with
        | .ok res => Answered past input.clientId res
        | .error e => ∀ api, e ≠ .api api) past := by
  have quiet := removalAllowed_tolerant.quiet
  have here : ∀ {token : Option String} {res : HttpResponse} {past : Past ClientReply},
      Answered (⟨.fetch (.upload token input), .ok res⟩ :: past) input.clientId res :=
    ⟨_, input, rfl, List.mem_cons_self⟩
  exact ApiClient.ensures_fetchWithRefresh
    { token := quiet _ _ rfl
      fetch := fun _ => quiet _ _ rfl
      failed := fun _ _ _ h => by cases h
      answered := fun _ _ _ => here
      read := fun _ _ _ => quiet _ _ rfl
      refused := fun _ _ _ _ _ => here.cons
      promise := fun _ _ => quiet _ _ rfl
      wait := fun _ _ _ => quiet _ _ rfl
      clear := fun _ _ _ _ => quiet _ _ rfl
      notRefreshed := fun _ _ _ _ => here.cons.cons.cons.cons
      retry := fun _ _ _ _ => ApiClient.ensures_fetchAuthed.mpr ⟨quiet _ _ rfl, fun _ =>
        ⟨quiet _ _ rfl, fun _ _ h => (by cases h), fun _ => here⟩⟩ }

theorem send_removals (tab : Nat) (item : PendingPhoto) (past : Past ClientReply)
    (pending : item.failed = false) : Uploader.Calls RemovalAllowed (Uploader.send tab item) past := by
  refine Uploader.send_calls removalAllowed_tolerant pending ?_
  simp only [ApiClient.upload, ApiClient.request, ensures_run_bind]
  refine fetch_answered.mono (fun _ _ h => h) fun past r hr => ?_
  cases r with
  | error e => exact fun api h => absurd h (hr api)
  | ok res =>
    refine ApiClient.ensures_parse.mpr ⟨fun _ => ⟨fun _ hc => (by cases hc), fun payload => ?_⟩,
      fun ok => ⟨fun _ => ?_, fun _ => ⟨fun _ hc => (by cases hc), fun _ _ h => (by cases h), fun _ => ?_⟩⟩⟩
    · rintro e ⟨⟩
      refine ⟨fun locked clientId hc => ?_, fun _ _ _ _ _ hc => by cases hc⟩
      cases hc
      exact ⟨res, hr.cons, Or.inr (by simpa [ApiError.isLocked, ApiClient.apiError] using locked)⟩
    · rintro clientId ⟨⟩
      exact ⟨res, hr, Or.inl ok⟩
    · rintro clientId ⟨⟩
      exact ⟨res, hr.cons, Or.inl ok⟩

theorem task_removals (localeLE : String → String → Bool) (task : ClientTask) :
    Uploader.Calls RemovalAllowed (task.script localeLE) [] :=
  Uploader.task_calls removalAllowed_tolerant send_removals chain_removals task

/-- A call takes no item out of the store but by `idbDelete`. -/
theorem perform_store {o : ClientChoice} {b b' : Browser} {c : ClientCall} {r : ClientReply c}
    (h : b.perform o c = some (r, b')) {item : PendingPhoto} (hitem : item ∈ b.store) :
    (∃ item' ∈ b'.store, item'.clientId = item.clientId) ∨ c = .idbDelete item.clientId := by
  have other : ∀ clientId, item.clientId ≠ clientId →
      item ∈ b.store.filter (·.clientId != clientId) := by
    intro clientId hne
    rw [List.mem_filter]
    exact ⟨hitem, by simpa using hne⟩
  cases c with
  | idbPut new =>
    have put : ∃ item' ∈ (b.put new).store, item'.clientId = item.clientId := by
      by_cases hc : item.clientId = new.clientId
      · exact ⟨new, List.mem_cons_self, hc.symm⟩
      · exact ⟨item, List.mem_cons_of_mem _ (other _ hc), rfl⟩
    rcases Browser.faulty_cases h with ⟨_, rfl⟩ | ⟨_, rfl | rfl⟩
    · exact Or.inl put
    · exact Or.inl ⟨item, hitem, rfl⟩
    · exact Or.inl put
  | idbDelete clientId =>
    by_cases hc : item.clientId = clientId
    · exact Or.inr (congrArg _ hc.symm)
    · refine Or.inl ⟨item, ?_, rfl⟩
      rcases Browser.faulty_cases h with ⟨_, rfl⟩ | ⟨_, rfl | rfl⟩
      · exact other clientId hc
      · exact hitem
      · exact other clientId hc
  | _ => exact Or.inl ⟨item, (Browser.perform_frame h).1 (by simp) (by simp) ▸ hitem, rfl⟩

theorem perform_put {o : ClientChoice} {b b' : Browser} {item : PendingPhoto}
    (h : b.perform o (.idbPut item) = some (.ok (), b')) : item ∈ b'.store := by
  rcases Browser.faulty_cases h with ⟨_, rfl⟩ | ⟨⟨m, hm⟩, _⟩
  · exact List.mem_cons_self
  · cases hm

/-- What a tab may conclude from its exchanges. -/
structure KnowsCaptures (app : Application) (past : Past ClientReply) (w : SystemWorld) : Prop where
  written : ∀ item, ⟨.idbPut item, .ok ()⟩ ∈ past → NotLost app w item.clientId
  answered : ∀ clientId res, Answered past clientId res → res.ok = true ∨ res.status = 423 →
    Settled app w.server clientId

/-- Nothing is lost by what others do. -/
structure NothingLost (app : Application) (w w' : SystemWorld) : Prop where
  captures : ∀ clientId, NotLost app w clientId → NotLost app w' clientId
  settled : ∀ clientId, Settled app w.server clientId → Settled app w'.server clientId

theorem NothingLost.refl (w : SystemWorld) : NothingLost app w w := ⟨fun _ h => h, fun _ h => h⟩

theorem NothingLost.trans {w₁ w₂ w₃ : SystemWorld} (h : NothingLost app w₁ w₂)
    (h' : NothingLost app w₂ w₃) : NothingLost app w₁ w₃ :=
  ⟨fun k hk => h'.captures k (h.captures k hk), fun k hk => h'.settled k (h.settled k hk)⟩

theorem perform_nothingLost {w w' : SystemWorld} {o : SystemChoice} {c : ClientCall}
    {r : ClientReply c} (hp : w.perform o c = some (r, w'))
    (removal : ∀ clientId, c = .idbDelete clientId → Settled app w.server clientId) :
    NothingLost app w w' := by
  obtain ⟨choice, hb, same⟩ := perform_browser hp
  refine ⟨?_, fun clientId h => by rwa [same]⟩
  rintro clientId (⟨item, hitem, rfl⟩ | settled)
  · rcases perform_store hb hitem with kept | hc
    · exact Or.inl kept
    · exact Or.inr (by rw [same]; exact removal _ hc)
  · exact Or.inr (by rwa [same])

theorem reaches_uploads {token : Option String} {input : UploadInput} {req : Request}
    (h : (HttpRequest.upload token input).reaches req = true) : req.Uploads input.clientId := by
  obtain ⟨header, cookie, route⟩ := req
  cases route with
  | authorized route =>
    cases route with
    | uploadPhoto upload =>
      simp only [HttpRequest.reaches, UploadRequest.carries, Bool.and_eq_true, beq_iff_eq] at h
      exact ⟨upload, rfl, h.2.1.1⟩
    | _ => cases h
  | _ => cases h

theorem KnowsCaptures.step {past : Past ClientReply} {w w' : SystemWorld} {o : SystemChoice}
    {c : ClientCall} {r : ClientReply c} (good : KnowsItsRows app w.server)
    (knows : KnowsCaptures app past w) (hp : w.perform o c = some (r, w'))
    (nothing : NothingLost app w w') : KnowsCaptures app (⟨c, r⟩ :: past) w' := by
  obtain ⟨choice, hb, same⟩ := perform_browser hp
  refine ⟨?_, ?_⟩
  · intro item hm
    rcases List.mem_cons.mp hm with here | before
    · cases here
      exact Or.inl ⟨item, perform_put hb, rfl⟩
    · exact nothing.captures _ (knows.written item before)
  · rintro clientId res ⟨token, input, rfl, hm⟩ final
    rcases List.mem_cons.mp hm with here | before
    · cases here
      rw [same]
      rcases perform_fetch hp with fault | ⟨u, hu, response, done, status, reached⟩
      · rcases final with ok | locked
        · simp only [HttpResponse.ok, Bool.and_eq_true, decide_eq_true_eq] at ok
          omega
        · omega
      · refine answered_settled good hu done (reaches_uploads reached) ?_
        rw [← status]
        exact final.imp (fun ok => by simpa [HttpResponse.ok, Success] using ok) id
    · exact nothing.settled _ (knows.answered _ res ⟨token, input, rfl, before⟩ final)

variable (app) (localeLE : String → String → Bool)

theorem capture_rules : Pool.Local (system app localeLE) (fun _ _ => True)
    (fun w => KnowsItsRows app w.server) (NothingLost app) (fun _ => KnowsCaptures app) where
  arrive _ _ _ :=
    ⟨fun _ h => absurd h List.not_mem_nil, fun _ _ ⟨_, _, _, h⟩ => absurd h List.not_mem_nil⟩
  act := by
    intro task past c next o r w w' leads good knows hp _
    have nothing : NothingLost app w w' := perform_nothingLost hp fun clientId hc => by
      obtain ⟨res, answered, final⟩ := (task_removals localeLE task).at_call leads clientId hc
      exact knows.answered clientId res answered final
    refine ⟨?_, nothing, knows.step good hp nothing⟩
    obtain ⟨_, _, same⟩ := perform_browser hp
    rwa [same]
  env := by
    intro e w good
    cases e with
    | browser e => cases e <;> exact ⟨good, fun _ h => h, fun _ h => h⟩
    | server a =>
      refine ⟨(row_rules app).step good (Pool.meets_true _ _), ?_, fun _ h => h.step a⟩
      exact fun clientId h => h.imp id fun settled => settled.step a
  stable _ _ _ _ nothing knows :=
    ⟨fun item hm => nothing.captures _ (knows.written item hm),
      fun k res answered final => nothing.settled k (knows.answered k res answered final)⟩

/-- A capture that a tab has written to the store is never lost: whatever happens after, it is in the
store, or the server holds a row of it, or the server has answered 423 to an upload of it. -/
theorem capture_kept {w : SystemWorld} (start : w.server.threads = [])
    {before after : List SystemAction}
    {u : Calls.Thread ClientCall ClientReply ClientTask (Except JsError Unit)}
    (hu : u ∈ (Pool.exec (system app localeLE) ⟨w, []⟩ before).threads) {item : PendingPhoto}
    (written : ⟨.idbPut item, .ok ()⟩ ∈ u.past) :
    NotLost app (Pool.exec (system app localeLE) ⟨w, []⟩ (before ++ after)).world item.clientId := by
  have rules := capture_rules app localeLE
  have init : KnowsItsRows app w.server :=
    ⟨trivial, fun u hu => by simp [start] at hu, fun u hu => by simp [start] at hu⟩
  have good := rules.exec (Pool.good_init init) (Pool.runMeets_true _ before)
  have nothing := rules.exec_rely (fun w => NothingLost.refl w) (fun _ _ _ h h' => h.trans h') good
    (Pool.runMeets_true _ after)
  rw [Pool.exec_append]
  exact nothing.captures _ ((good.thread u hu).written item written)

private def writtenItem : Sigma ClientReply → Option PendingPhoto
  | ⟨.idbPut item, .ok ()⟩ => some item
  | _ => none

private theorem mem_of_writtenItem {past : Past ClientReply} {item : PendingPhoto}
    (h : item ∈ past.filterMap writtenItem) : ⟨.idbPut item, .ok ()⟩ ∈ past := by
  obtain ⟨x, hx, hitem⟩ := List.mem_filterMap.mp h
  unfold writtenItem at hitem
  split at hitem
  next =>
    cases hitem
    exact hx
  next => cases hitem

theorem capture_kept_sent :
    let s := Pool.exec (system sampleApp fun _ _ => true) sampleSystem
      (sampleStarted ++ sampleTaken ++ sampleSent)
    s.world.browser.store = [] ∧ NotLost sampleApp s.world sampleCapture.clientId := by
  have taken : ∃ u ∈ (Pool.exec (system sampleApp fun _ _ => true) sampleSystem
      (sampleStarted ++ sampleTaken)).threads,
      ∃ item ∈ u.past.filterMap writtenItem, item.clientId = sampleCapture.clientId := by
    decide +kernel
  obtain ⟨u, hu, item, hitem, hid⟩ := taken
  rw [← hid]
  exact ⟨by decide +kernel, capture_kept sampleApp _ rfl hu (mem_of_writtenItem hitem)⟩

end ItalyTrip
