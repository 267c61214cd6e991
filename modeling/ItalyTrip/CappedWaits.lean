import ItalyTrip.ClockedCalls
import ItalyTrip.QueueStore

namespace ItalyTrip

open Calls Uploader

variable {localeLE : String → String → Bool} {tab : Nat} {past : Past UploadReply}

/-- The readings of the clock with which a task has put the item again, to be tried later. -/
def stamps (item : PendingPhoto) : Past UploadReply → List Int
  | ⟨.idbPut new, _⟩ :: ⟨.now, now⟩ :: past =>
    if new = item then now :: stamps item past else stamps item past
  | _ :: past => stamps item past
  | [] => []

/-- When an upload of the item has failed, which has become what it is by that. -/
def failedAt (s : UploadPool) (item : PendingPhoto) : List Int :=
  s.threads.flatMap fun u => stamps item u.past

/-- One uploader, whose page is loaded again when none of its scripts runs. -/
def OneUploader (tab : Nat) (s : UploadPool) : UploadAction → Prop
  | .arrive t => t.tab = tab
  | .env (.reload n) => n = tab → ∀ u ∈ s.threads, u.pending = none
  | _ => True

instance (tab : Nat) (s : UploadPool) : (a : UploadAction) → Decidable (OneUploader tab s a)
  | .arrive _ => inferInstanceAs (Decidable (_ = _))
  | .act _ _ | .kill _ | .env (.tick _) | .env (.login _) => isTrue trivial
  | .env (.reload _) => inferInstanceAs (Decidable (_ → _))

/-- The clock at `now` is not further behind a failure, of an item that still waits, than what its backoff
leaves of the longest one. -/
def clockHolds (s : UploadPool) (now : Int) : Bool :=
  decide (-(MAX_BACKOFF_MS : Int) ≤ now) && s.world.browser.store.all fun item =>
    item.failed || (failedAt s item).all fun failed =>
      decide (failed - now ≤ MAX_BACKOFF_MS - backoffMs item.attempts)

/-- Only `scheduleNextRetry` reads the clock right after the queue. It does so where the clock holds. -/
def wakesInTime (localeLE : String → String → Bool) (s : UploadPool) (a : UploadAction) : Bool :=
  match s.exchanged (uploaders localeLE) a with
  | some ⟨_, ⟨.idbGetAll, _⟩ :: _, .now, now, _⟩ => clockHolds s now
  | _ => true

/-- What one uploader keeps: an item that waits is stamped with a reading of the clock and its backoff. What a
drain has read to set its timer was due within the longest backoff. -/
structure Capped (localeLE : String → String → Bool) (tab : Nat) (s : UploadPool) : Prop where
  exclusive : Exclusive localeLE tab s
  own : ∀ u ∈ s.threads, u.task.tab = tab
  stamped : ∀ item ∈ s.world.browser.store, item.failed = false → item.nextAttemptAt = 0 ∨
    ∃ now ∈ failedAt s item, item.nextAttemptAt = now + backoffMs item.attempts
  read : ∀ u ∈ s.threads, u.midSegment (uploaders localeLE) = true → ∀ items before,
    u.past = ⟨.idbGetAll, .ok items⟩ :: before → ∀ item ∈ items, item ∈ s.world.browser.store
  woke : ∀ u ∈ s.threads, ∀ (now : Int) items before,
    u.past = ⟨.now, now⟩ :: ⟨.idbGetAll, .ok items⟩ :: before → ∀ item ∈ items, item.failed = false →
      item.nextAttemptAt ≤ now + MAX_BACKOFF_MS

/-- Where the clock holds, what waits is due within the longest backoff. -/
theorem Capped.due {s : UploadPool} {now : Int} (h : Capped localeLE tab s) (holds : clockHolds s now = true)
    {item : PendingPhoto} (mem : item ∈ s.world.browser.store) (unfailed : item.failed = false) :
    item.nextAttemptAt ≤ now + MAX_BACKOFF_MS := by
  obtain ⟨epoch, waits⟩ := Bool.and_eq_true_iff.mp holds
  have epoch := of_decide_eq_true epoch
  rcases h.stamped item mem unfailed with untried | ⟨failed, hfailed, stamp⟩
  · omega
  · have within := List.all_eq_true.mp waits item mem
    rw [unfailed, Bool.false_or] at within
    have within := of_decide_eq_true (List.all_eq_true.mp within failed hfailed)
    omega

theorem stamps_cons {item : PendingPhoto} {x : Sigma UploadReply} {now : Int}
    (stamped : now ∈ stamps item past) : now ∈ stamps item (x :: past) := by
  unfold stamps
  split
  next new result then_ past' same =>
    obtain ⟨rfl, rfl⟩ := List.cons.inj same
    have older : now ∈ stamps item past' := stamped
    split
    · exact List.mem_cons_of_mem _ older
    · exact older
  next x' past' _ same =>
    obtain ⟨rfl, rfl⟩ := List.cons.inj same
    exact stamped
  next same => cases same

theorem stamps_suffix {item : PendingPhoto} {later : Past UploadReply} (suffix : past <:+ later) {now : Int}
    (stamped : now ∈ stamps item past) : now ∈ stamps item later := by
  obtain ⟨recent, rfl⟩ := suffix
  induction recent with
  | nil => exact stamped
  | cons x recent ih => exact stamps_cons ih

theorem stamps_put {item : PendingPhoto} {result : Except String Unit} {now : Int} :
    now ∈ stamps item (⟨.idbPut item, result⟩ :: ⟨.now, now⟩ :: past) := by
  simp [stamps]

/-- Failures are not forgotten. -/
theorem failedAt_step {s : UploadPool} (a : UploadAction) {item : PendingPhoto} {now : Int}
    (failed : now ∈ failedAt s item) : now ∈ failedAt (s.step (uploaders localeLE) a) item := by
  obtain ⟨u, hu, stamped⟩ := List.mem_flatMap.mp failed
  obtain ⟨i, hi⟩ := List.mem_iff_getElem?.mp hu
  obtain ⟨v, hv, _, suffix⟩ := Pool.step_past (m := uploaders localeLE) s a hi
  exact List.mem_flatMap.mpr ⟨v, List.mem_of_getElem? hv, stamps_suffix suffix stamped⟩

section Exchange

variable {s s' : UploadPool} {i : Nat} {t : UploadTask} {c : UploadCall} {o : UploadChoice}
  {r : UploadReply c} {next : UploadReply c → Prog UploadCall UploadReply (Except JsError Unit)}

/-- A thread that is about to make a call rests it on the clock. -/
theorem Capped.clocked (h : Capped localeLE tab s)
    (hu : (⟨t, past, some (.call c next)⟩ : UploadThread) ∈ s.threads) : Clocked localeLE past c := by
  obtain ⟨q, leads, same⟩ := h.exclusive.follows _ hu
  obtain rfl := same _ rfl
  exact (script_clocked localeLE t).at_call leads

theorem Capped.exchange (h : Capped localeLE tab s)
    (x : Pool.Exchange (uploaders localeLE) s (s.step (uploaders localeLE) (.act i o)) i t past c next o r)
    (inTime : wakesInTime localeLE s (.act i o) = true) :
    Capped localeLE tab (s.step (uploaders localeLE) (.act i o)) := by
  have own : t.tab = tab := h.own _ x.mem
  have hp : s.world.perform o c = some (r, (s.step (uploaders localeLE) (.act i o)).world) := x.performed
  refine ⟨h.exclusive.step nofun, fun u hu => ?_, fun item mem unfailed => ?_,
    fun u hu mid items before same item mem => ?_, fun u hu now items before same item mem unfailed => ?_⟩
  · rcases x.mem_threads hu with rfl | old
    · exact own
    · exact h.own u old
  · rcases uploads_store hp mem with old | rfl
    · refine (h.stamped item old unfailed).imp_right ?_
      rintro ⟨now, failed, stamp⟩
      exact ⟨now, failedAt_step _ failed, stamp⟩
    · rcases h.clocked x.mem with untried | failed | ⟨_, now, before, rfl, stamp⟩
      · exact Or.inl untried
      · cases unfailed.symm.trans failed
      · exact Or.inr ⟨now, List.mem_flatMap.mpr ⟨_, x.mem_after, stamps_put⟩, stamp⟩
  · obtain ⟨j, hj⟩ := List.mem_iff_getElem?.mp hu
    rcases x.at hj with ⟨_, rfl⟩ | ⟨ne, old⟩
    · obtain ⟨same, rfl⟩ := List.cons.inj same
      cases same
      rw [(uploads_frame hp).store nofun nofun]
      exact (uploads_getAll hp).mem_iff.mp mem
    · have between := x.between old ne ((h.own u (List.mem_of_getElem? old)).trans own.symm)
      cases between.symm.trans mid
  · rcases x.mem_threads hu with rfl | old
    · obtain ⟨reads, rfl⟩ := List.cons.inj same
      cases reads
      unfold wakesInTime at inTime
      simp only [x.exchanged] at inTime
      exact h.due inTime (h.read _ x.mem rfl items before rfl item mem) unfailed
    · exact h.woke u old now items before same item mem unfailed

end Exchange

theorem Capped.step {s : UploadPool} (h : Capped localeLE tab s) {a : UploadAction}
    (one : OneUploader tab s a) (inTime : wakesInTime localeLE s a = true) :
    Capped localeLE tab (s.step (uploaders localeLE) a) := by
  have exclusive : Exclusive localeLE tab (s.step (uploaders localeLE) a) := by
    refine h.exclusive.step ?_
    rintro rfl u hu _
    exact one rfl u hu
  by_cases acts : ∃ i o, a = .act i o
  · obtain ⟨i, o, rfl⟩ := acts
    rcases Pool.step_act (m := uploaders localeLE) s i o with same | ⟨t, past, c, next, r, x⟩
    · rwa [same]
    · exact h.exchange x inTime
  · have still : ∀ i o, a ≠ .act i o := fun i o same => acts ⟨i, o, same⟩
    obtain ⟨store, -, -⟩ := @still_world localeLE s a still
    refine ⟨exclusive, own_step h.own ?_, ?_, ?_, ?_⟩
    · rintro t rfl
      exact one
    · intro item mem unfailed
      rw [store] at mem
      refine (h.stamped item mem unfailed).imp_right ?_
      rintro ⟨now, failed, stamp⟩
      exact ⟨now, failedAt_step a failed, stamp⟩
    · intro v hv mid items before same item mem
      rw [store]
      rcases still_origin still hv with new | ⟨u, hu, _, rfl | killed⟩
      · cases new.symm.trans same
      · exact h.read v hu mid items before same item mem
      · simp [Thread.midSegment, killed] at mid
    · intro v hv now items before same item mem unfailed
      rcases still_origin still hv with new | ⟨u, hu, past, _⟩
      · cases new.symm.trans same
      · exact h.woke u hu now items before (past.symm.trans same) item mem unfailed

section Sample

end Sample

end ItalyTrip
