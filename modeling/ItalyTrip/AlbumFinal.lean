import ItalyTrip.AlbumList
import ItalyTrip.ConcurrentCreate
import ItalyTrip.ConcurrentRetries

namespace ItalyTrip

open Calls

/-- An acceptable upload has passed the guard of the event and its insert is still to come, of a capture
that the event does not have yet. -/
structure Late (app : Application) (eventID : UUID) (db : Database)
    (u : Calls.Thread Call Reply Request Response) : Prop where
  passed : PassedGuard u.past eventID
  capture : ∃ clientID, AcceptableUpload app clientID u.task ∧
    ∀ row ∈ db.photos, row.isOf eventID clientID = false
  waiting : u.pending.isSome = true
  first : ∀ arg r, ⟨.query (.createPhoto arg), r⟩ ∉ u.past

/-- The photos of an event, in the order of the table. -/
def photosOf (eventID : UUID) (db : Database) : List Photo :=
  db.photos.filter fun row => row.eventID == eventID

theorem list_photosOf {eventID : UUID} {db db' : Database}
    (h : photosOf eventID db = photosOf eventID db') :
    db.listPhotosByEvent eventID = db'.listPhotosByEvent eventID := by
  unfold Database.listPhotosByEvent
  exact congrArg _ h

theorem mem_seenEvents {event : Event} {past : Past Reply}
    (h : ⟨.query .getCurrentEvent, .ok event⟩ ∈ past) : event ∈ seenEvents past := by
  induction past with
  | nil => exact absurd h List.not_mem_nil
  | cons x past ih =>
    rcases List.mem_cons.mp h with rfl | before
    · exact List.mem_cons_self
    · unfold seenEvents
      split
      next => cases ‹x :: past = []›
      next heq =>
        cases heq
        exact List.mem_cons_of_mem _ (ih before)
      next heq =>
        cases heq
        exact ih before

def AllRead (s : ServerPool) : Prop := ∀ u ∈ s.threads, HasRead u.past s.world

/-- The event is over and no upload is late for it. -/
structure Closed (app : Application) (event : Event) (s : ServerPool) : Prop where
  valid : s.world.db.Valid
  known : event ∈ s.world.db.events
  ended : event.IsOver s.world.clock
  follows : s.Follows (server app)
  read : AllRead s
  noLate : ∀ u ∈ s.threads, ¬ Late app event.id s.world.db u

variable {app : Application}

theorem step_grow (app : Application) (s : ServerPool) (a : ServerAction) :
    EventsGrow s.world (s.step (server app) a).world := by
  rcases Pool.step_world (m := server app) s a with same | ⟨_, _, _, _, _, _, _, x, _⟩ | ⟨e, he⟩
  · rw [same]
    exact ⟨List.Subset.refl _, Int.le_refl _⟩
  · exact perform_grow x.performed
  · rw [he]
    exact ⟨List.Subset.refl _, Int.le_add_of_nonneg_right (Int.natCast_nonneg _)⟩

theorem AllRead.step {s : ServerPool} (read : AllRead s) (a : ServerAction) :
    AllRead (s.step (server app) a) := by
  intro v hv
  obtain ⟨i, hi⟩ := List.mem_iff_getElem?.mp hv
  rcases Pool.step_origin s a hi with ⟨t, rfl⟩ | ⟨u, hu, same⟩ | ⟨_, t, past, c, next, r, _, x, rfl⟩
  · exact ⟨fun _ h => absurd h List.not_mem_nil, fun _ h => absurd h List.not_mem_nil⟩
  · have old := (read u (List.mem_of_getElem? hu)).grow (step_grow app s a)
    rcases same with rfl | rfl <;> exact old
  · exact (read _ x.mem).step x.performed

/-- Nobody passes the guard of an event that is over. -/
theorem Closed.passed {event : Event} {s s' : ServerPool} {i : Nat} {t : Request}
    {past : Past Reply} {c : Call} {next} {o : Choice} {r} (closed : Closed app event s)
    (x : Pool.Exchange (server app) s s' i t past c next o r)
    (passed : PassedGuard (⟨c, r⟩ :: past) event.id) : PassedGuard past event.id := by
  obtain ⟨other, time, rest, suffix, running, same⟩ := passed
  rcases List.suffix_cons_iff.mp suffix with here | before
  · cases here
    have seen := (closed.read _ x.mem).events other (mem_seenEvents List.mem_cons_self)
    obtain rfl := List.inj_on_of_nodup_map closed.valid.events_id seen closed.known same
    obtain ⟨rfl, le, _⟩ := perform_now x.performed
    exact absurd (closed.ended.mono le) running
  · exact ⟨other, time, rest, before, running, same⟩

theorem Closed.step {event : Event} {s : ServerPool} (closed : Closed app event s)
    (a : ServerAction) : Closed app event (s.step (server app) a) := by
  have grow := step_grow app s a
  have rows := step_rows app s a
  refine ⟨exec_valid closed.valid [a], grow.1 closed.known, closed.ended.mono grow.2,
    closed.follows.step a, closed.read.step a, fun v hv late => ?_⟩
  obtain ⟨i, hi⟩ := List.mem_iff_getElem?.mp hv
  have missing : ∃ clientID, AcceptableUpload app clientID v.task ∧
      ∀ row ∈ s.world.db.photos, row.isOf event.id clientID = false := by
    obtain ⟨clientID, acceptable, missing⟩ := late.capture
    exact ⟨clientID, acceptable, fun row hrow => missing row (rows.photos hrow)⟩
  rcases Pool.step_origin s a hi with ⟨t, rfl⟩ | ⟨u, hu, same⟩ | ⟨_, t, past, c, next, r, _, x, rfl⟩
  · obtain ⟨_, _, _, suffix, _⟩ := late.passed
    simp at suffix
  · rcases same with rfl | rfl
    · exact closed.noLate _ (List.mem_of_getElem? hu) ⟨late.passed, missing, late.waiting, late.first⟩
    · cases late.waiting
  · exact closed.noLate _ x.mem ⟨closed.passed x late.passed, missing, rfl,
      fun arg r' hm => late.first arg r' (List.mem_cons_of_mem _ hm)⟩

/-- No photo is added to an event that is over while no upload is late. -/
theorem Closed.photosOf_step {event : Event} {s : ServerPool} (closed : Closed app event s)
    (a : ServerAction) :
    photosOf event.id (s.step (server app) a).world.db = photosOf event.id s.world.db := by
  rcases step_photos app s a with same | ⟨i, _, t, past, arg, next, r, x, added⟩
  · rw [photosOf, same, photosOf]
  · have other : arg.row.eventID ≠ event.id := by
      intro own
      obtain ⟨_, leads, rest⟩ := closed.follows _ x.mem
      obtain rfl := rest _ rfl
      obtain ⟨passed, _, first⟩ := (serve_insert t).at_call leads arg rfl
      obtain ⟨upload, form, original, thumb, accepts, stores⟩ := (serve_objects t).at_call leads
      refine closed.noLate _ x.mem ⟨own ▸ passed, ⟨arg.clientID, ?_, fun row hrow => ?_⟩, rfl, first⟩
      · exact ⟨upload, form, original, thumb, accepts, stores.clientID.symm⟩
      · -- The row that is added is the only one of its capture.
        have unique := (closed.step a).valid.photos_client
        rw [added, List.map_append, List.nodup_append] at unique
        refine Bool.eq_false_iff.mpr fun same => ?_
        obtain ⟨hevent, hclient⟩ := isOf_iff.mp same
        refine unique.2.2 _ (List.mem_map_of_mem hrow) _ List.mem_cons_self ?_
        exact Prod.ext (hevent.trans own.symm) hclient
    rw [photosOf, added, List.filter_append, List.filter_cons_of_neg (by simpa using other),
      List.filter_nil, List.append_nil, photosOf]

/-- Thread `i` has not read the photos of the event yet. -/
def NotListed (eventID : UUID) (s : ServerPool) (i : Nat) : Prop :=
  ∀ u, s.threads[i]? = some u → ∀ r, ⟨.query (.listPhotosByEvent eventID), r⟩ ∉ u.past

/-- Threads that had not read the photos of the event at `s₀` have read these, if any. -/
def ListsSame (eventID : UUID) (s₀ s : ServerPool) : Prop := ∀ (i : Nat) u rows,
  NotListed eventID s₀ i → s.threads[i]? = some u →
    ⟨.query (.listPhotosByEvent eventID), .ok rows⟩ ∈ u.past →
    rows = s₀.world.db.listPhotosByEvent eventID

theorem ListsSame.step {eventID : UUID} {s₀ s : ServerPool} {a : ServerAction}
    (h : ListsSame eventID s₀ s) (same : photosOf eventID s.world.db = photosOf eventID s₀.world.db) :
    ListsSame eventID s₀ (s.step (server app) a) := by
  intro i v rows fresh hv hm
  rcases Pool.step_origin s a hv with ⟨t, rfl⟩ | ⟨u, hu, sameThread⟩ | ⟨_, t, past, c, next, r, _, x, rfl⟩
  · exact absurd hm List.not_mem_nil
  · rcases sameThread with rfl | rfl <;> exact h i _ rows fresh hu hm
  · rcases List.mem_cons.mp hm with here | before
    · cases here
      have listed := congrArg Prod.fst (perform_ok x.performed)
      rw [← Except.ok.inj listed]
      exact list_photosOf same
    · exact h i _ rows fresh x.thread before

/-- The request is a list that was answered with this album of the event. -/
structure Lists (eventID : UUID) (u : Calls.Thread Call Reply Request Response)
    (out : List PhotoResponse) : Prop where
  route : u.task.route = .authorized .listPhotos
  answer : ∃ response, u.result = some response ∧ response.body = .album out
  listed : ∃ r, ⟨.query (.listPhotosByEvent eventID), r⟩ ∈ u.past

theorem entries_ids {out : List PhotoResponse} {rows : List Photo}
    (h : List.Forall₂ EntryOf out rows) :
    out.map PhotoResponse.id = rows.map fun row => uuidString row.id := by
  induction h with
  | nil => rfl
  | cons entry _ ih => rw [List.map_cons, List.map_cons, entry.id, ih]

/-- An album names the rows that its request has read. -/
theorem Lists.names {eventID : UUID} {s : ServerPool} (follows : s.Follows (server app))
    {u : Calls.Thread Call Reply Request Response} (hu : u ∈ s.threads) {out : List PhotoResponse}
    (h : Lists eventID u out) : ∃ rows, ⟨.query (.listPhotosByEvent eventID), .ok rows⟩ ∈ u.past ∧
      out.map PhotoResponse.id = rows.map fun row => uuidString row.id := by
  obtain ⟨response, answer, body⟩ := h.answer
  obtain ⟨r, hm⟩ := h.listed
  obtain ⟨_, leads, rest⟩ := follows u hu
  obtain rfl := rest _ (Thread.rest_of_result answer)
  rcases (serve_list h.route).at_done leads eventID r hm with ⟨rows, out', rfl, entries, rfl⟩ | ⟨none, _⟩
  · unfold writeJSON at body
    split at body <;> cases body
    exact ⟨rows, hm, entries_ids entries⟩
  · exact absurd body (none out)

/-- From a moment at which the event is over and no upload is late for it, no photo is added to it, and
all lists that read its photos later are the same. -/
theorem album_final {w : World} {before after : List ServerAction} {s : ServerPool}
    (reached : Pool.exec (server app) ⟨w, []⟩ before = s) (valid : w.db.Valid) {event : Event}
    (known : event ∈ s.world.db.events) (ended : event.IsOver s.world.clock)
    (onTime : ∀ u ∈ s.threads, ¬ Late app event.id s.world.db u) :
    let s' := s.exec (server app) after
    photosOf event.id s'.world.db = photosOf event.id s.world.db ∧ ListsSame event.id s s' ∧
      ∀ (i j : Nat) u v out out', NotListed event.id s i → NotListed event.id s j →
        s'.threads[i]? = some u → s'.threads[j]? = some v → Lists event.id u out →
        Lists event.id v out' → out.map PhotoResponse.id = out'.map PhotoResponse.id := by
  intro s'
  have closed : Closed app event s := by
    subst reached
    refine ⟨exec_valid valid before, known, ended, Pool.exec_follows before, ?_, onTime⟩
    exact Pool.exec_induction (P := AllRead) (fun _ a h _ => h.step a)
      (fun _ hu => absurd hu List.not_mem_nil) (Pool.runMeets_true _ _)
  obtain ⟨closed', same, lists⟩ : Closed app event s' ∧
      photosOf event.id s'.world.db = photosOf event.id s.world.db ∧ ListsSame event.id s s' := by
    refine Pool.exec_induction (P := fun x => Closed app event x ∧
      photosOf event.id x.world.db = photosOf event.id s.world.db ∧ ListsSame event.id s x) ?_
      ⟨closed, rfl, ?_⟩ (Pool.runMeets_true _ _)
    · rintro x a ⟨closed, same, lists⟩ _
      exact ⟨closed.step a, (closed.photosOf_step a).trans same, lists.step same⟩
    · exact fun i u rows fresh hu hm => absurd hm (fresh u hu _)
  have names : ∀ (i : Nat) u out, NotListed event.id s i → s'.threads[i]? = some u →
      Lists event.id u out → out.map PhotoResponse.id =
        (s.world.db.listPhotosByEvent event.id).map fun row => uuidString row.id := by
    intro i u out fresh hu listed
    obtain ⟨rows, hm, hids⟩ := listed.names closed'.follows (List.mem_of_getElem? hu)
    rw [hids, lists i u rows fresh hu hm]
  refine ⟨same, lists, fun i j u v out out' fi fj hu hv lu lv => ?_⟩
  rw [names i u out fi hu lu, names j v out' fj hv lv]

/-- An event from 0 to 10 seconds is created, and an upload passes the guard and stores its objects. -/
private def sampleUploading : List ServerAction :=
  .arrive (sampleCreate 0 10) :: List.replicate 6 (.act 0 (sampleChoice 1 7 1)) ++
    .arrive (sampleUpload (uuidString 9)) :: List.replicate 8 (.act 1 (sampleChoice 0 8 0))

private def sampleList (i : Nat) : List ServerAction :=
  .arrive (sampleRequest .listPhotos) :: List.replicate 8 (.act i (sampleChoice 0 0 0))

/-- The upload inserts its row after the event has ended and the album has been listed. -/
theorem photo_after_end :
    let s := Pool.exec (server sampleApp) ⟨sampleWorld, []⟩ (sampleUploading ++ [.env 10000000000])
    let s' := s.exec (server sampleApp) (sampleList 2 ++ .act 1 (sampleChoice 0 0 0) :: sampleList 3)
    sampleEvent ∈ s.world.db.events ∧ sampleEvent.IsOver s.world.clock ∧
      photosOf 7 s.world.db = [] ∧ photosOf 7 s'.world.db = [samplePhoto] ∧
      (s'.threads.drop 2).map (fun u => u.result.map fun response => match response.body with
        | .album out => some (out.map PhotoResponse.id)
        | _ => none) = [some (some []), some (some [uuidString 8])] := by
  decide +kernel

private def sampleOnTime : List ServerAction :=
  sampleUploading ++ [.act 1 (sampleChoice 0 0 0), .env 10000000000]

private def sampleOver : ServerPool := Pool.exec (server sampleApp) ⟨sampleWorld, []⟩ sampleOnTime

private def sampleTooLate : List ServerAction :=
  sampleList 2 ++ .arrive (sampleUpload (uuidString 10)) :: List.replicate 9 (.act 3 (sampleChoice 0 11 0))

private theorem sampleOver_idle : ∀ u ∈ sampleOver.threads, u.pending.isSome = false := by
  decide +kernel

/-- Here the upload has inserted its row before the end, and a second one comes too late. -/
theorem album_final_sample :
    (sampleOver.exec (server sampleApp) sampleTooLate).threads.map
      (fun u => u.result.map Response.status) = [some 201, some 201, some 200, some 423] ∧
    photosOf sampleEvent.id (sampleOver.exec (server sampleApp) sampleTooLate).world.db =
      photosOf sampleEvent.id sampleOver.world.db := by
  have known : sampleEvent ∈ sampleOver.world.db.events := by decide +kernel
  have ended : sampleEvent.IsOver sampleOver.world.clock := by decide +kernel
  have reached : Pool.exec (server sampleApp) ⟨sampleWorld, []⟩ sampleOnTime = sampleOver := rfl
  have onTime : ∀ u ∈ sampleOver.threads, ¬ Late sampleApp sampleEvent.id sampleOver.world.db u := by
    intro u hu late
    have waiting := late.waiting
    rw [sampleOver_idle u hu] at waiting
    cases waiting
  have final := @album_final sampleApp sampleWorld sampleOnTime sampleTooLate sampleOver reached
    sampleWorld_valid sampleEvent known ended onTime
  refine ⟨by decide +kernel, ?_⟩
  exact final.1

end ItalyTrip
