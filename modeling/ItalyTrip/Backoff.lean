import ItalyTrip.DrainPromise

namespace ItalyTrip

open Calls Uploader

variable {localeLE : String → String → Bool} {tab : Nat} {first : List String}

abbrev Answer := Except JsError (Option Payload)

def UploadEvent.clientId : UploadEvent → String
  | .began _ clientId _ | .settled _ clientId _ _ => clientId

/-- When and how the uploads of a capture have ended, the latest first. -/
def ended (clientId : String) : List UploadEvent → List (Int × Answer)
  | [] => []
  | .began _ _ _ :: history => ended clientId history
  | .settled _ other time answer :: history =>
    if other = clientId then (time, answer) :: ended clientId history else ended clientId history

/-- The capture is neither taken nor, with a 423, refused because the trip is over. -/
def Answer.failed : Answer → Bool
  | .ok _ => false
  | .error (.api e) => !e.isLocked
  | .error (.other _) => true

/-- The upload has failed, and not for good. -/
def Answer.retried : Answer → Bool
  | .ok _ => false
  | .error (.api e) => !e.isLocked && !e.isPermanent
  | .error (.other _) => true

/-- Each of these uploads was to be tried again, and by then its backoff is over. -/
def Waited (due : Int) : List (Int × Answer) → Prop
  | [] => True
  | (time, answer) :: earlier => answer.retried = true ∧
    time + backoffMs (earlier.length + 1) ≤ due ∧ Waited due earlier

/-- No upload begins before the backoff of those before it is over. -/
def Spaced : List UploadEvent → Prop
  | [] => True
  | .began _ clientId time :: history => Waited time (ended clientId history) ∧ Spaced history
  | .settled _ _ _ _ :: history => Spaced history

/-- The item is what its uploads have made of it. -/
structure Standing (history : List UploadEvent) (item : PendingPhoto) : Prop where
  counted : item.attempts = (ended item.clientId history).length
  failing : ∀ e ∈ ended item.clientId history, e.2.failed = true
  waits : item.failed = false → Waited item.nextAttemptAt (ended item.clientId history)
  marked : item.failed = true → ∃ e ∈ ended item.clientId history, e.2.retried = false

/-- The last thing that has happened is the end of an upload of the item, not yet recorded in it. -/
structure Unrecorded (clock : Int) (history : List UploadEvent) (item : PendingPhoto) (answer : Answer)
    (now : Option Int) : Prop where
  last : ∃ tab time earlier, history = .settled tab item.clientId time answer :: earlier ∧
    Standing earlier item ∧ time ≤ clock ∧ ∀ reading, now = some reading → time ≤ reading
  due : ∀ reading, now = some reading → item.nextAttemptAt ≤ reading

theorem Waited.mono {due later : Int} (le : due ≤ later) {ends : List (Int × Answer)}
    (h : Waited due ends) : Waited later ends := by
  induction ends with
  | nil => trivial
  | cons e ends ih =>
    obtain ⟨retried, waited, rest⟩ := h
    exact ⟨retried, waited.trans le, ih rest⟩

theorem ended_eq_nil {clientId : String} {history : List UploadEvent}
    (unused : ∀ e ∈ history, e.clientId ≠ clientId) : ended clientId history = [] := by
  induction history with
  | nil => rfl
  | cons e history ih =>
    have rest := ih fun e he => unused e (List.mem_cons_of_mem _ he)
    cases e with
    | began n other time => exact rest
    | settled n other time answer =>
      have apart : other ≠ clientId := unused _ List.mem_cons_self
      rw [ended, if_neg apart, rest]

section Standing

variable {history : List UploadEvent} {item new : PendingPhoto} {n : Nat} {clientId : String}
  {time clock : Int} {answer : Answer} {now : Option Int}

theorem Standing.began (h : Standing history item) :
    Standing (.began n clientId time :: history) item :=
  ⟨h.counted, h.failing, h.waits, h.marked⟩

theorem Standing.apart (h : Standing history item) (ne : clientId ≠ item.clientId) :
    Standing (.settled n clientId time answer :: history) item := by
  have same : ended item.clientId (.settled n clientId time answer :: history) =
    ended item.clientId history := if_neg ne
  constructor <;> rw [same]
  · exact h.counted
  · exact h.failing
  · exact h.waits
  · exact h.marked

/-- A capture that was never in the queue stands as it is first put. -/
theorem standing_first (unused : ended new.clientId history = []) (attempts : new.attempts = 0)
    (failed : new.failed = false) : Standing history new := by
  constructor <;> rw [unused]
  · exact attempts
  · simp
  · exact fun _ => trivial
  · intro marked
    rw [failed] at marked
    cases marked

theorem Recorded.fails {error : JsError} (h : Recorded item error now new) :
    Answer.failed (.error error) = true := by
  cases error with
  | api e =>
    have unlocked : e.isLocked = false := by
      cases now with
      | none => exact h.1
      | some reading => exact h.1
    simp [Answer.failed, unlocked]
  | other m => rfl

/-- What is put back stands again. -/
theorem Unrecorded.recorded {error : JsError} (h : Unrecorded clock history item (.error error) now)
    (unfailed : item.failed = false) (recorded : Recorded item error now new) :
    Standing history new := by
  obtain ⟨⟨n, time, earlier, rfl, standing, _, read⟩, due⟩ := h
  obtain ⟨clientId, attempts⟩ := recorded.counts
  have ends : ended new.clientId (.settled n item.clientId time (.error error) :: earlier) =
      (time, .error error) :: ended item.clientId earlier := by
    rw [clientId]
    exact if_pos rfl
  -- what is to be tried again waits for this upload, and with it for those before
  have waits : ∀ reading, now = some reading → new.nextAttemptAt = reading + backoffMs new.attempts →
      Answer.retried (.error error) = true →
      Waited new.nextAttemptAt ((time, .error error) :: ended item.clientId earlier) := by
    intro reading here stamp retried
    have before := standing.waits unfailed
    have past := due reading here
    have after := read reading here
    rw [attempts, standing.counted] at stamp
    refine ⟨retried, ?_, before.mono ?_⟩ <;> omega
  constructor <;> rw [ends]
  · rw [attempts, standing.counted, List.length_cons]
  · intro e he
    rcases List.mem_cons.mp he with rfl | old
    · exact recorded.fails
    · exact standing.failing e old
  · intro live
    cases error with
    | api e =>
      cases now with
      | none =>
        obtain ⟨_, _, rfl⟩ := recorded
        cases live
      | some reading =>
        obtain ⟨unlocked, temporary, rfl⟩ := recorded
        exact waits reading rfl rfl (by simp [Answer.retried, unlocked, temporary])
    | other m =>
      cases now with
      | none => cases recorded
      | some reading =>
        obtain rfl := recorded
        exact waits reading rfl rfl rfl
  · intro marked
    cases error with
    | api e =>
      cases now with
      | none =>
        obtain ⟨_, permanent, rfl⟩ := recorded
        exact ⟨_, List.mem_cons_self, by simp [Answer.retried, permanent]⟩
      | some reading =>
        obtain ⟨_, _, rfl⟩ := recorded
        cases unfailed.symm.trans marked
    | other m =>
      cases now with
      | none => cases recorded
      | some reading =>
        obtain rfl := recorded
        cases unfailed.symm.trans marked

end Standing

/-- An upload has ended whose outcome is to be recorded. -/
def Stage.recording : Stage → Bool
  | .answered _ _ => true
  | _ => false

theorem Stage.of_recording {stage : Stage} (recording : stage.recording = true) :
    ∃ answer now, stage = .answered answer now := by
  cases stage with
  | answered answer now => exact ⟨answer, now, rfl⟩
  | _ => cases recording

theorem Stage.busy_of_recording {stage : Stage} (recording : stage.recording = true) :
    stage.busy = true := by
  obtain ⟨answer, now, rfl⟩ := Stage.of_recording recording
  rfl

/-- The page is not left between the end of an upload and the record of its outcome. -/
def LeftQuietly (localeLE : String → String → Bool) (s : UploadPool) : UploadAction → Prop
  | .kill i => (s.threads[i]?.all fun u => !(look localeLE u.past).stage.recording) = true
  | _ => True

instance (s : UploadPool) : (a : UploadAction) → Decidable (LeftQuietly localeLE s a)
  | .kill _ => inferInstanceAs (Decidable (_ = _))
  | .arrive _ | .act _ _ | .env _ => isTrue trivial

/-- The thread has the item in hand, to record the outcome of its upload. -/
def InHand (localeLE : String → String → Bool) (tab : Nat) (u : UploadThread) (item : PendingPhoto) :
    Prop :=
  (∃ p, Drains localeLE tab u p) ∧ (look localeLE u.past).stage.recording = true ∧
    (look localeLE u.past).items.head? = some item

/-- What an uploader keeps of its queue and of the uploads so far: each item stands, or its last upload
is yet to be recorded. -/
structure Backoff (localeLE : String → String → Bool) (tab : Nat) (first : List String)
    (s : UploadPool) : Prop where
  own : OwnQueue localeLE tab first s
  logged : ∀ e ∈ s.world.history, Used localeLE first s.threads e.clientId
  spaced : Spaced s.world.history
  unrecorded : ∀ u ∈ s.threads, ∀ p, Drains localeLE tab u p → ∀ answer now,
    (look localeLE u.past).stage = .answered answer now → ∃ item rest,
      (look localeLE u.past).items = item :: rest ∧
        Unrecorded s.world.browser.clock s.world.history item answer now
  standing : ∀ item ∈ s.world.browser.store,
    Standing s.world.history item ∨ ∃ u ∈ s.threads, InHand localeLE tab u item

section Exchange

variable {s s' : UploadPool} {i : Nat} {t : UploadTask} {past : Past UploadReply} {c : UploadCall}
  {o : UploadChoice} {r : UploadReply c}
  {next : UploadReply c → Prog UploadCall UploadReply (Except JsError Unit)}

/-- An outcome is to be recorded since the upload has ended; the clock may have been read since. -/
theorem recording_since {answer : Answer} {now : Option Int}
    (allowed : Allowed t (look localeLE past) c) (works : queueWorks ⟨c, r⟩ = true)
    (stage : (look localeLE (⟨c, r⟩ :: past)).stage = .answered answer now) :
    (∃ n input, (⟨c, r⟩ : Sigma UploadReply) = ⟨.awaitUpload n input, answer⟩ ∧ now = none) ∨
      (look localeLE (⟨c, r⟩ :: past)).items = (look localeLE past).items ∧
        ((look localeLE past).stage = .answered answer now ∨
          ∃ reading before, now = some reading ∧ (⟨c, r⟩ : Sigma UploadReply) = ⟨.now, reading⟩ ∧
            (look localeLE past).stage = .answered answer before) := by
  cases c with
  | awaitUpload n input =>
    cases stage
    exact Or.inl ⟨n, input, rfl, rfl⟩
  | now =>
    refine Or.inr ?_
    change ((look localeLE past).afterNow r).stage = _ at stage
    change ((look localeLE past).afterNow r).items = _ ∧ _
    unfold View.afterNow at stage ⊢
    split at stage
    next => cases stage
    next before here =>
      cases stage
      exact ⟨rfl, Or.inr ⟨r, before, rfl, rfl, here⟩⟩
    next => exact ⟨rfl, Or.inl stage⟩
  | idbGetAll =>
    refine Or.inr ?_
    change ((look localeLE past).afterGetAll localeLE r).stage = _ at stage
    change ((look localeLE past).afterGetAll localeLE r).items = _ ∧ _
    unfold View.afterGetAll at stage ⊢
    split at stage
    next => cases stage
    next => cases stage
    next => exact ⟨rfl, Or.inl stage⟩
  | idbPut new =>
    refine Or.inr ?_
    change ((look localeLE past).afterPut r).stage = _ at stage
    change ((look localeLE past).afterPut r).items = _ ∧ _
    unfold View.afterPut at stage ⊢
    split at stage
    next => cases stage
    next => cases stage
    next => exact ⟨rfl, Or.inl stage⟩
  | idbDelete clientId =>
    obtain ⟨_, _, _, _, _, here, _⟩ := allowed
    cases r with
    | ok _ =>
      have dealt : (look localeLE (⟨.idbDelete clientId, .ok ()⟩ :: past)).stage = .ready :=
        congrArg View.stage (View.afterDelete_ok here)
      cases dealt.symm.trans stage
    | error m => cases works
  | again n => cases r <;> cases stage
  | beginUpload n input => cases stage
  | beginDrain n => cases stage
  | endDrain n => cases stage
  | _ => exact Or.inr ⟨rfl, Or.inl stage⟩

/-- Until its outcome is recorded, the item stays in hand. -/
theorem recording_stays (allowed : Allowed t (look localeLE past) c)
    (running : (look localeLE past).promise ≠ none)
    (recording : (look localeLE past).stage.recording = true) (put : ∀ new, c ≠ .idbPut new)
    (delete : ∀ clientId, c ≠ .idbDelete clientId) :
    (look localeLE (⟨c, r⟩ :: past)).stage.recording = true ∧
      (look localeLE (⟨c, r⟩ :: past)).items = (look localeLE past).items := by
  obtain ⟨answer, now, stage⟩ := Stage.of_recording recording
  cases c with
  | idbPut new => exact absurd rfl (put new)
  | idbDelete clientId => exact absurd rfl (delete clientId)
  | now =>
    change ((look localeLE past).afterNow r).stage.recording = true ∧
      ((look localeLE past).afterNow r).items = _
    unfold View.afterNow
    rw [stage]
    exact ⟨rfl, rfl⟩
  | idbGetAll =>
    have apart : ∀ now, (look localeLE past).stage ≠ .opening now := by
      intro now opening
      cases stage.symm.trans opening
    have same := @View.afterGetAll_apart localeLE _ apart r
    change ((look localeLE past).afterGetAll localeLE r).stage.recording = true ∧
      ((look localeLE past).afterGetAll localeLE r).items = _
    rw [same]
    exact ⟨recording, rfl⟩
  | beginUpload n input => cases stage.symm.trans allowed.2.2.1
  | awaitUpload n input => cases stage.symm.trans allowed.2.2.1
  | again n => cases stage.symm.trans allowed.2.2.1
  | beginDrain n => exact absurd allowed.2.1 running
  | endDrain n => cases stage.symm.trans allowed.2.2
  | _ => exact ⟨recording, rfl⟩

/-- The history records where an upload begins and where it ends. -/
theorem uploads_history {w w' : UploadWorld} (h : w.perform o c = some (r, w')) :
    w'.history = w.history ∨
      (∃ n input, c = .beginUpload n input ∧
        w'.history = .began n input.clientId w.browser.clock :: w.history) ∨
      ∃ n input answer, (⟨c, r⟩ : Sigma UploadReply) = ⟨.awaitUpload n input, answer⟩ ∧
        w'.history = .settled n input.clientId w.browser.clock answer :: w.history := by
  cases c with
  | beginUpload n input =>
    cases h
    exact Or.inr (Or.inl ⟨n, input, rfl, rfl⟩)
  | awaitUpload n input =>
    cases h
    exact Or.inr (Or.inr ⟨n, input, o.answer, rfl, rfl⟩)
  | _ => exact Or.inl ((uploads_frame h).history (by simp) (by simp))

theorem uploads_await {w w' : UploadWorld} {n : Nat} {input : UploadInput} {answer : Answer}
    (h : w.perform o (.awaitUpload n input) = some (answer, w')) :
    w'.history = .settled n input.clientId w.browser.clock answer :: w.history := by
  cases h
  rfl

/-- While one thread runs a drain, no other has an item in hand. -/
theorem Backoff.hand_of_drain (h : Backoff localeLE tab first s) {u : UploadThread}
    {item : PendingPhoto} (hmem : (⟨t, past, some (.call c next)⟩ : UploadThread) ∈ s.threads)
    (running : (look localeLE past).promise ≠ none) (hu : u ∈ s.threads)
    (hand : InHand localeLE tab u item) : u = ⟨t, past, some (.call c next)⟩ := by
  obtain ⟨⟨p, runs⟩, _, _⟩ := hand
  obtain ⟨q, promise⟩ := Option.ne_none_iff_exists'.mp running
  obtain ⟨i, hi⟩ := List.mem_iff_getElem?.mp hmem
  obtain ⟨j, hj⟩ := List.mem_iff_getElem?.mp hu
  obtain rfl := h.own.exclusive.one j i _ _ p q hj hi runs ⟨h.own.own _ hmem, rfl, promise⟩
  exact Option.some.inj (hj.symm.trans hi)

/-- Outside the record of an outcome, what a drain has left of its snapshot stands. -/
theorem Backoff.stands (h : Backoff localeLE tab first s)
    (hmem : (⟨t, past, some (.call c next)⟩ : UploadThread) ∈ s.threads)
    (running : (look localeLE past).promise ≠ none)
    (stage : (look localeLE past).stage.recording = false) {item : PendingPhoto}
    (hitem : item ∈ s.world.browser.store) : Standing s.world.history item := by
  rcases h.standing item hitem with stands | ⟨u, hu, hand⟩
  · exact stands
  · obtain rfl := h.hand_of_drain hmem running hu hand
    exact absurd (hand.2.1.symm.trans stage) (by simp)

/-- Nothing is recorded of an upload while a drain is in another stage than that of sending. -/
theorem Backoff.history_stays (h : Backoff localeLE tab first s)
    (x : Pool.Exchange (uploaders localeLE) s s' i t past c next o r) {j : Nat} {u : UploadThread}
    {p : Nat} (hu : s.threads[j]? = some u) (runs : Drains localeLE tab u p)
    (recording : (look localeLE u.past).stage.recording = true) :
    s'.world.history = s.world.history := by
  have allowed := (h.own.allowed x.mem).1
  have sends : ∀ {stage : Stage}, (look localeLE past).promise ≠ none →
      (look localeLE past).stage = stage → stage.recording = false → False := by
    intro stage running here quiet
    obtain ⟨q, promise⟩ := Option.ne_none_iff_exists'.mp running
    obtain rfl := h.own.exclusive.one j i _ _ p q hu x.thread runs ⟨h.own.own _ x.mem, rfl, promise⟩
    obtain rfl := Option.some.inj (hu.symm.trans x.thread)
    rw [here, quiet] at recording
    cases recording
  rcases uploads_history x.performed with same | ⟨n, input, rfl, _⟩ | ⟨n, input, answer, hx, _⟩
  · exact same
  · exact (sends allowed.2.1 allowed.2.2.1 rfl).elim
  · cases hx
    exact (sends allowed.2.1 allowed.2.2.1 rfl).elim

theorem Backoff.exchange_spaced (h : Backoff localeLE tab first s)
    (x : Pool.Exchange (uploaders localeLE) s s' i t past c next o r) : Spaced s'.world.history := by
  have allowed := (h.own.allowed x.mem).1
  rcases uploads_history x.performed with same | ⟨n, input, rfl, same⟩ | ⟨n, input, answer, _, same⟩
  · rw [same]
    exact h.spaced
  · rw [same]
    obtain ⟨_, running, stage, item, rest, items, rfl⟩ := allowed
    obtain ⟨p, promise⟩ := Option.ne_none_iff_exists'.mp running
    have left := (h.own.items _ x.mem p ⟨h.own.own _ x.mem, rfl, promise⟩ (by rw [stage]; rfl)).2 item
      (items ▸ List.mem_cons_self)
    obtain ⟨here, unfailed, due⟩ := left
    have standing := h.stands x.mem running (by rw [stage]; rfl) here
    exact ⟨(standing.waits unfailed).mono due, h.spaced⟩
  · rw [same]
    exact h.spaced

/-- An outcome that is to be recorded is the last thing that has happened. -/
theorem Backoff.exchange_unrecorded (h : Backoff localeLE tab first s)
    (x : Pool.Exchange (uploaders localeLE) s s' i t past c next o r)
    (works : Works s.world ⟨t, past, c, r, s'.world⟩) {u : UploadThread} {p : Nat} (hu : u ∈ s'.threads)
    (runs : Drains localeLE tab u p) {answer : Answer} {now : Option Int}
    (stage : (look localeLE u.past).stage = .answered answer now) : ∃ item rest,
      (look localeLE u.past).items = item :: rest ∧
        Unrecorded s'.world.browser.clock s'.world.history item answer now := by
  have allowed := (h.own.allowed x.mem).1
  rcases h.own.exclusive.drains_since x (h.own.own _ x.mem) hu runs with
    ⟨rfl, hx⟩ | ⟨rfl, before, _⟩ | ⟨⟨j, _, before⟩, _⟩
  · cases hx
    cases stage
  · have running : (look localeLE past).promise ≠ none := by
      rw [before.promise]
      exact Option.some_ne_none p
    rcases recording_since allowed works.1 stage with ⟨n, input, hx, rfl⟩ | ⟨same, here⟩
    · cases hx
      obtain ⟨_, _, uploading, item, rest, items, rfl⟩ := allowed
      have here := (h.own.items _ x.mem p before (by rw [uploading]; rfl)).2 item
        (items ▸ List.mem_cons_self)
      have standing := h.stands x.mem running (by rw [uploading]; rfl) here.1
      have history := uploads_await x.performed
      exact ⟨item, rest, items, ⟨n, _, _, history, standing, works.2, fun _ none => by cases none⟩,
        fun _ none => by cases none⟩
    · rw [same]
      have recording : (look localeLE past).stage.recording = true := by
        rcases here with here | ⟨_, _, _, _, here⟩ <;> rw [here] <;> rfl
      rw [h.history_stays x x.thread before recording]
      rcases here with here | ⟨reading, earlier, rfl, hx, here⟩
      · obtain ⟨item, rest, items, ⟨m, time, older, last, standing, past, read⟩, due⟩ :=
          h.unrecorded _ x.mem p before answer now here
        exact ⟨item, rest, items, ⟨m, time, older, last, standing, past.trans works.2, read⟩, due⟩
      · obtain ⟨item, rest, items, ⟨m, time, older, last, standing, past, _⟩, _⟩ :=
          h.unrecorded _ x.mem p before answer earlier here
        cases hx
        have reads := uploads_now x.performed
        have due := ((h.own.items _ x.mem p before (by rw [here]; rfl)).2 item
          (items ▸ List.mem_cons_self)).2.2
        refine ⟨item, rest, items, ⟨m, time, older, last, standing, past.trans works.2, ?_⟩, ?_⟩
        · rintro _ ⟨⟩
          rw [reads]
          exact past.trans works.2
        · rintro _ ⟨⟩
          rw [reads]
          exact due.trans works.2
  · have history := h.history_stays x before runs (by rw [stage]; rfl)
    obtain ⟨item, rest, items, ⟨n, time, earlier, last, standing, past, read⟩, due⟩ :=
      h.unrecorded u (List.mem_of_getElem? before) p runs answer now stage
    rw [history]
    exact ⟨item, rest, items, ⟨n, time, earlier, last, standing, past.trans works.2, read⟩, due⟩

theorem Backoff.used_of_event (h : Backoff localeLE tab first s)
    (x : Pool.Exchange (uploaders localeLE) s s' i t past c next o r) {e : UploadEvent}
    (he : e ∈ s'.world.history) : Used localeLE first s.threads e.clientId := by
  have allowed := (h.own.allowed x.mem).1
  rcases uploads_history x.performed with same | ⟨n, input, rfl, same⟩ | ⟨n, input, answer, hx, same⟩
  · rw [same] at he
    exact h.logged e he
  · rw [same] at he
    obtain ⟨_, _, _, item, rest, items, rfl⟩ := allowed
    rcases List.mem_cons.mp he with rfl | old
    · exact h.own.enrolled.items _ x.mem item (items ▸ List.mem_cons_self)
    · exact h.logged e old
  · cases hx
    rw [same] at he
    obtain ⟨_, _, _, item, rest, items, rfl⟩ := allowed
    rcases List.mem_cons.mp he with rfl | old
    · exact h.own.enrolled.items _ x.mem item (items ▸ List.mem_cons_self)
    · exact h.logged e old

/-- An item that is put stands: it is new, or the outcome of its upload is recorded in it. -/
theorem Backoff.standing_put (h : Backoff localeLE tab first s) {new : PendingPhoto}
    {r : Except String Unit}
    {next : UploadReply (.idbPut new) → Prog UploadCall UploadReply (Except JsError Unit)}
    (x : Pool.Exchange (uploaders localeLE) s s' i t past (.idbPut new) next o r) :
    Standing s'.world.history new := by
  have performed : s.world.perform o (.idbPut new) = some (r, s'.world) := x.performed
  have history := (uploads_frame performed).history (by simp) (by simp)
  rw [history]
  rcases (h.own.allowed x.mem).1 with
    ⟨_, _, stored, put⟩ | ⟨running, item, rest, error, now, items, stage, recorded⟩
  · have unused := h.own.enrolled.first_put x.thread stored put
    obtain ⟨_, _, _, _, _, attempts, unfailed⟩ := put
    refine standing_first (ended_eq_nil fun e he same => unused ?_) attempts unfailed
    exact same ▸ h.logged e he
  · obtain ⟨p, promise⟩ := Option.ne_none_iff_exists'.mp running
    have runs : Drains localeLE tab ⟨t, past, some (.call (.idbPut new) next)⟩ p :=
      ⟨h.own.own _ x.mem, rfl, promise⟩
    obtain ⟨head, rest', items', unrecorded⟩ := h.unrecorded _ x.mem p runs _ now stage
    obtain ⟨rfl, rfl⟩ := List.cons.inj (items'.symm.trans items)
    have left := (h.own.items _ x.mem p runs (by rw [stage]; rfl)).2 head (items ▸ List.mem_cons_self)
    exact unrecorded.recorded left.2.1 recorded

/-- An item in hand stays there unless its outcome is recorded, and then it is not what it was. -/
theorem Backoff.hand_stays (h : Backoff localeLE tab first s)
    (x : Pool.Exchange (uploaders localeLE) s s' i t past c next o r) (works : queueWorks ⟨c, r⟩ = true)
    (exclusive : Exclusive localeLE tab s') {item : PendingPhoto} (here : item ∈ s'.world.browser.store)
    {u : UploadThread} (hu : u ∈ s.threads) (hand : InHand localeLE tab u item) :
    ∃ u ∈ s'.threads, InHand localeLE tab u item := by
  obtain ⟨j, hj⟩ := List.mem_iff_getElem?.mp hu
  by_cases mover : j = i
  · subst mover
    obtain rfl := Option.some.inj (hj.symm.trans x.thread)
    obtain ⟨⟨p, runs⟩, recording, head⟩ := hand
    have allowed := (h.own.allowed x.mem).1
    have running : (look localeLE past).promise ≠ none := by
      rw [runs.promise]
      exact Option.some_ne_none p
    have put : ∀ new, c ≠ .idbPut new := by
      rintro new rfl
      rcases allowed with ⟨none, _⟩ | ⟨_, front, rest, error, now, items, _, recorded⟩
      · exact running none
      · obtain rfl : front = item := by simpa [items] using head
        obtain ⟨clientId, attempts⟩ := recorded.counts
        rcases uploads_put x.performed with ⟨_, same⟩ | ⟨⟨_, rfl⟩, _⟩
        · rw [same] at here
          rcases mem_put.mp here with rfl | ⟨_, ne⟩
          · omega
          · exact ne clientId.symm
        · cases works
    have delete : ∀ clientId, c ≠ .idbDelete clientId := by
      rintro clientId rfl
      obtain ⟨_, front, rest, answer, items, _, _, rfl⟩ := allowed
      obtain rfl : front = item := by simpa [items] using head
      rcases uploads_delete x.performed with ⟨_, same⟩ | ⟨⟨_, rfl⟩, _⟩
      · rw [same] at here
        exact (mem_delete.mp here).2 rfl
      · cases works
    obtain ⟨recording', items⟩ := recording_stays (r := r) allowed running recording put delete
    have begins : ∀ n, c ≠ .beginDrain n := by
      rintro n rfl
      exact running allowed.2.1
    have ends : ∀ n, c ≠ .endDrain n := by
      rintro n rfl
      rw [allowed.2.2] at recording
      cases recording
    have promise := (look_promise begins ends (r := r)).trans runs.promise
    exact ⟨_, x.mem_after, ⟨p, exclusive.runs x.mem_after runs.own (by simp) promise⟩, recording',
      by rw [items, head]⟩
  · refine ⟨u, ?_, hand⟩
    rw [x.threads]
    exact List.mem_iff_getElem?.mpr ⟨j, by rwa [List.getElem?_set_ne (Ne.symm mover)]⟩

theorem Backoff.exchange_standing (h : Backoff localeLE tab first s)
    (x : Pool.Exchange (uploaders localeLE) s s' i t past c next o r) (works : queueWorks ⟨c, r⟩ = true)
    (exclusive : Exclusive localeLE tab s') {item : PendingPhoto}
    (here : item ∈ s'.world.browser.store) :
    Standing s'.world.history item ∨ ∃ u ∈ s'.threads, InHand localeLE tab u item := by
  rcases uploads_store x.performed here with old | rfl
  · rcases h.standing item old with stands | ⟨u, hu, hand⟩
    · rcases uploads_history x.performed with same | ⟨n, input, _, same⟩ | ⟨n, input, answer, hx, same⟩
      · rw [same]
        exact Or.inl stands
      · rw [same]
        exact Or.inl stands.began
      · cases hx
        rw [same]
        obtain ⟨_, running, uploading, front, rest, items, rfl⟩ := (h.own.allowed x.mem).1
        obtain ⟨p, promise⟩ := Option.ne_none_iff_exists'.mp running
        have own := h.own.own _ x.mem
        by_cases mine : front.clientId = item.clientId
        · have left := (h.own.items _ x.mem p ⟨own, rfl, promise⟩ (by rw [uploading]; rfl)).2 front
            (items ▸ List.mem_cons_self)
          obtain rfl := h.own.keyed.eq left.1 old mine
          exact Or.inr ⟨_, x.mem_after, ⟨p, exclusive.runs x.mem_after own (by simp) promise⟩, rfl,
            congrArg List.head? items⟩
        · exact Or.inl (stands.apart mine)
    · exact Or.inr (h.hand_stays x works exclusive here hu hand)
  · exact Or.inl (h.standing_put x)

end Exchange

/-- An item that a thread has in hand stays there where no call is made. -/
theorem InHand.kept {s : UploadPool} {a : UploadAction} (still : ∀ i o, a ≠ .act i o)
    (quiet : LeftQuietly localeLE s a) {u : UploadThread} {item : PendingPhoto} (hu : u ∈ s.threads)
    (hand : InHand localeLE tab u item) : u ∈ (s.step (uploaders localeLE) a).threads := by
  cases a with
  | act i o => exact absurd rfl (still i o)
  | arrive t =>
    rcases Pool.step_arrive (m := uploaders localeLE) s t with same | same <;> rw [same]
    · exact hu
    · exact List.mem_append_left _ hu
  | kill i =>
    rcases Pool.step_kill (m := uploaders localeLE) s i with same | ⟨t, past, c, next, hi, same⟩
    · rwa [same]
    · rw [same]
      obtain ⟨j, hj⟩ := List.mem_iff_getElem?.mp hu
      by_cases killed : j = i
      · subst killed
        obtain rfl := Option.some.inj (hj.symm.trans hi)
        simp only [LeftQuietly, hi, Option.all_some, hand.2.1] at quiet
        cases quiet
      · exact List.mem_iff_getElem?.mpr ⟨j, by rwa [List.getElem?_set_ne (Ne.symm killed)]⟩
  | env e => exact hu

theorem Backoff.step {s : UploadPool} (h : Backoff localeLE tab first s) {a : UploadAction}
    (steady : Steady localeLE tab first s a) (quiet : LeftQuietly localeLE s a) :
    Backoff localeLE tab first (s.step (uploaders localeLE) a) := by
  have own := h.own.step steady
  by_cases acts : ∃ i o, a = .act i o
  · obtain ⟨i, o, rfl⟩ := acts
    rcases Pool.step_act (m := uploaders localeLE) s i o with same | ⟨t, past, c, next, r, x⟩
    · rwa [same]
    · have works := Pool.Meets.at steady x
      exact ⟨own, fun e he => (h.used_of_event x he).step _, h.exchange_spaced x,
        fun u hu p runs answer now stage => h.exchange_unrecorded x works hu runs stage,
        fun item here => h.exchange_standing x works.1 own.exclusive here⟩
  · have still : ∀ i o, a ≠ .act i o := fun i o same => acts ⟨i, o, same⟩
    obtain ⟨store, clock, history⟩ := @still_world localeLE s a still
    refine ⟨own, ?_, ?_, fun u hu p runs answer now stage => ?_, fun item here => ?_⟩ <;> rw [history]
    · exact fun e he => (h.logged e he).step a
    · exact h.spaced
    · obtain ⟨item, rest, items, ⟨n, time, earlier, last, standing, past, read⟩, due⟩ :=
        h.unrecorded u (drains_before still hu runs) p runs answer now stage
      exact ⟨item, rest, items, ⟨n, time, earlier, last, standing, past.trans clock, read⟩, due⟩
    · rw [store] at here
      refine (h.standing item here).imp_right ?_
      rintro ⟨u, hu, hand⟩
      exact ⟨u, hand.kept still quiet hu, hand⟩

theorem backoff_init {b : Browser} (keyed : Keyed b.store)
    (untried : ∀ item ∈ b.store, item.attempts = 0 ∧ item.failed = false) :
    Backoff localeLE tab (b.store.map PendingPhoto.clientId) ⟨.start b, []⟩ := by
  refine ⟨ownQueue_init keyed, fun _ he => absurd he List.not_mem_nil, trivial,
    fun _ hu => absurd hu List.not_mem_nil, fun item here => Or.inl ?_⟩
  exact standing_first rfl (untried item here).1 (untried item here).2

theorem ended_append (clientId : String) (later earlier : List UploadEvent) :
    ended clientId (later ++ earlier) = ended clientId later ++ ended clientId earlier := by
  induction later with
  | nil => rfl
  | cons e later ih =>
    cases e with
    | began n other time => exact ih
    | settled n other time answer =>
      rw [List.cons_append, ended, ended, ih]
      split <;> rfl

theorem ended_settled {n : Nat} {clientId : String} {time : Int} {answer : Answer}
    {earlier : List UploadEvent} : ended clientId (.settled n clientId time answer :: earlier) =
      (time, answer) :: ended clientId earlier := if_pos rfl

theorem Waited.of_append {due : Int} {later earlier : List (Int × Answer)}
    (h : Waited due (later ++ earlier)) : Waited due earlier := by
  induction later with
  | nil => exact h
  | cons e later ih => exact ih h.2.2

theorem Spaced.of_append {later earlier : List UploadEvent} (h : Spaced (later ++ earlier)) :
    Spaced earlier := by
  induction later with
  | nil => exact h
  | cons e later ih =>
    cases e with
    | began n other time => exact ih h.2
    | settled n other time answer => exact ih h

/-- What begins after the end of an upload of the same capture has waited for it. -/
theorem Spaced.begins {later earlier : List UploadEvent} {n n' : Nat} {clientId : String}
    {time time' : Int} {answer : Answer}
    (h : Spaced (later ++ .settled n clientId time answer :: earlier))
    (began : .began n' clientId time' ∈ later) :
    answer.retried = true ∧ time + backoffMs ((ended clientId earlier).length + 1) ≤ time' := by
  obtain ⟨recent, between, rfl⟩ := List.append_of_mem began
  rw [List.append_assoc] at h
  obtain ⟨waited, _⟩ := h.of_append
  change Waited time' (ended clientId (between ++ .settled n clientId time answer :: earlier)) at waited
  rw [ended_append, ended_settled] at waited
  obtain ⟨retried, due, _⟩ := waited.of_append
  exact ⟨retried, due⟩

theorem history_grows (s : UploadPool) (a : UploadAction) :
    s.world.history <:+ (s.step (uploaders localeLE) a).world.history := by
  rcases Pool.step_world (m := uploaders localeLE) s a with
    same | ⟨i, o, _, _, _, _, _, x, _⟩ | ⟨e, same⟩
  · exact ⟨[], congrArg UploadWorld.history same.symm⟩
  · rcases uploads_history x.performed with same | ⟨_, _, _, same⟩ | ⟨_, _, _, _, same⟩
    · exact ⟨[], same.symm⟩
    · exact ⟨[_], same.symm⟩
    · exact ⟨[_], same.symm⟩
  · exact ⟨[], (congrArg UploadWorld.history same).symm⟩

theorem exec_history (s : UploadPool) (actions : List UploadAction) :
    s.world.history <:+ (s.exec (uploaders localeLE) actions).world.history :=
  Pool.exec_keeps (P := fun s' => s.world.history <:+ s'.world.history)
    (fun s' a _ grown => grown.trans (history_grows s' a)) (List.suffix_refl _)

theorem mem_ended {clientId : String} {e : Int × Answer} {history : List UploadEvent}
    (h : e ∈ ended clientId history) : ∃ n, .settled n clientId e.1 e.2 ∈ history := by
  induction history with
  | nil => cases h
  | cons event history ih =>
    cases event with
    | began n other time =>
      obtain ⟨n, old⟩ := ih h
      exact ⟨n, List.mem_cons_of_mem _ old⟩
    | settled n other time answer =>
      unfold ended at h
      split at h
      next same =>
        subst same
        rcases List.mem_cons.mp h with rfl | old
        · exact ⟨n, List.mem_cons_self⟩
        · obtain ⟨n, old⟩ := ih old
          exact ⟨n, List.mem_cons_of_mem _ old⟩
      next =>
        obtain ⟨n, old⟩ := ih h
        exact ⟨n, List.mem_cons_of_mem _ old⟩

/-- What a user sees of the backoff of an uploader, whatever its triggers. -/
structure HonoursBackoff (localeLE : String → String → Bool) (tab : Nat) (s : UploadPool) : Prop where
  attempts : ∀ item ∈ s.world.browser.store, (∀ u ∈ s.threads, ¬ InHand localeLE tab u item) →
    item.attempts = (ended item.clientId s.world.history).countP fun e => e.2.failed
  -- the outcome of the last upload is yet to be recorded
  unrecorded : ∀ item ∈ s.world.browser.store, ∀ u ∈ s.threads, InHand localeLE tab u item →
    item.attempts = (ended item.clientId s.world.history).tail.countP fun e => e.2.failed
  spacing : ∀ n clientId (time : Int) (answer : Answer) later earlier,
    s.world.history = later ++ .settled n clientId time answer :: earlier → answer.retried = true →
    ∀ n' (time' : Int), .began n' clientId time' ∈ later →
      time + (min (2000 * Nat.pow 2 (ended clientId earlier).length) 300000 : Nat) ≤ time'
  finished : ∀ n clientId time (answer : Answer) later earlier,
    s.world.history = later ++ .settled n clientId time answer :: earlier → answer.retried = false →
    ∀ n' time', .began n' clientId time' ∉ later
  removed : ∀ n clientId time (answer : Answer), .settled n clientId time answer ∈ s.world.history →
    answer.failed = false → ∀ item ∈ s.world.browser.store, item.clientId = clientId →
      ∃ u ∈ s.threads, InHand localeLE tab u item

theorem Standing.counts {history : List UploadEvent} {item : PendingPhoto} (h : Standing history item) :
    item.attempts = (ended item.clientId history).countP fun e => e.2.failed := by
  rw [h.counted, List.countP_eq_length.mpr h.failing]

/-- An item in hand is the one whose upload has ended last. -/
theorem Backoff.last {s : UploadPool} (h : Backoff localeLE tab first s) {u : UploadThread}
    {item : PendingPhoto} (hu : u ∈ s.threads) (hand : InHand localeLE tab u item) :
    ∃ n time answer earlier, s.world.history = .settled n item.clientId time answer :: earlier ∧
      Standing earlier item := by
  obtain ⟨⟨p, runs⟩, recording, head⟩ := hand
  obtain ⟨answer, now, stage⟩ := Stage.of_recording recording
  obtain ⟨front, rest, items, ⟨n, time, earlier, last, standing, _⟩, _⟩ :=
    h.unrecorded u hu p runs answer now stage
  obtain rfl : front = item := by simpa [items] using head
  exact ⟨n, time, answer, earlier, last, standing⟩

/-- An item that is marked is in nobody's hand. -/
theorem Backoff.standing_of_marked {s : UploadPool} (h : Backoff localeLE tab first s)
    {item : PendingPhoto} (here : item ∈ s.world.browser.store) (marked : item.failed = true) :
    Standing s.world.history item := by
  rcases h.standing item here with stands | ⟨u, hu, ⟨p, runs⟩, recording, head⟩
  · exact stands
  · have busy := Stage.busy_of_recording recording
    have unfailed := ((h.own.items u hu p runs busy).2 item (List.mem_of_mem_head? head)).2.1
    cases unfailed.symm.trans marked

theorem Backoff.honours {s : UploadPool} (h : Backoff localeLE tab first s) :
    HonoursBackoff localeLE tab s := by
  refine ⟨fun item here free => ?_, fun item _ u hu hand => ?_,
    fun n clientId time answer later earlier history retried n' time' began => ?_,
    fun n clientId time answer later earlier history final n' time' began => ?_,
    fun n clientId time answer settled taken item here same => ?_⟩
  · rcases h.standing item here with stands | ⟨u, hu, hand⟩
    · exact stands.counts
    · exact absurd hand (free u hu)
  · obtain ⟨n, time, answer, earlier, last, standing⟩ := h.last hu hand
    rw [last, ended_settled, List.tail_cons]
    exact standing.counts
  · exact ((history ▸ h.spaced : Spaced _).begins began).2
  · have again := ((history ▸ h.spaced : Spaced _).begins began).1
    cases final.symm.trans again
  · rcases h.standing item here with stands | hand
    · obtain ⟨later, earlier, history⟩ := List.append_of_mem settled
      have ends : (time, answer) ∈ ended item.clientId s.world.history := by
        rw [history, ended_append, same, ended_settled]
        exact List.mem_append_right _ List.mem_cons_self
      have fails := stands.failing _ ends
      cases taken.symm.trans fails
    · exact hand

/-- In every run of an uploader over its store, whatever starts its drains, an item counts its failed
uploads, waits for its backoff after each, and is not uploaded again once it is marked, taken or too
late. -/
theorem backoff_is_honoured {b : Browser} (keyed : Keyed b.store)
    (untried : ∀ item ∈ b.store, item.attempts = 0 ∧ item.failed = false)
    {actions more : List UploadAction}
    (run : Pool.Throughout (uploaders localeLE) (fun s a =>
      Steady localeLE tab (b.store.map PendingPhoto.clientId) s a ∧ LeftQuietly localeLE s a)
      ⟨.start b, []⟩ (actions ++ more)) :
    let s : UploadPool := Pool.exec (uploaders localeLE) ⟨.start b, []⟩ actions
    let s' := s.exec (uploaders localeLE) more
    HonoursBackoff localeLE tab s ∧ ∀ item ∈ s.world.browser.store, item.failed = true →
      ∃ since, s'.world.history = since ++ s.world.history ∧
        ∀ n time, .began n item.clientId time ∉ since := by
  intro s s'
  obtain ⟨before, after⟩ := Pool.throughout_append.mp run
  have h := before.induction (fun _ _ h may => h.step may.1 may.2) (backoff_init keyed untried)
  have h' := after.induction (fun _ _ h may => h.step may.1 may.2) h
  refine ⟨h.honours, fun item here marked => ?_⟩
  obtain ⟨since, grown⟩ := exec_history s more
  refine ⟨since, grown.symm, fun n time began => ?_⟩
  obtain ⟨e, he, final⟩ := (h.standing_of_marked here marked).marked marked
  obtain ⟨n', settled⟩ := mem_ended he
  obtain ⟨later, earlier, history⟩ := List.append_of_mem settled
  have spaced := h'.spaced
  rw [← grown, history, ← List.append_assoc] at spaced
  cases final.symm.trans (spaced.begins (List.mem_append_left later began)).1

section Sample

/-- An upload fails, and when its backoff is over the server refuses the second one for good. -/
private def sampleRefused : List UploadAction :=
  .arrive (.drain 0 2) :: sampleActs 0 24 (.error (.other "Failed to fetch")) ++
    .env (.tick 2000) :: .arrive (.drain 0 2) ::
      sampleActs 1 24 (.error (.api ⟨400, "bad request", none⟩))

private def sampleUntried : Browser := { sampleBrowser "user" with store := [sampleItem "a" "08:00"] }

private def sampleFurther : List UploadAction := .arrive (.drain 0 2) :: sampleActs 2 24 (.ok none)

theorem backoff_is_honoured_sample :
    let s : UploadPool :=
      Pool.exec (uploaders fun x y => decide (x ≤ y)) ⟨.start sampleUntried, []⟩ sampleRefused
    let s' := s.exec (uploaders fun x y => decide (x ≤ y)) sampleFurther
    HonoursBackoff (fun x y => decide (x ≤ y)) 0 s ∧
      ∃ item ∈ s.world.browser.store, item.attempts = 2 ∧ ∃ since,
        s'.world.history = since ++ s.world.history ∧ ∀ n time, .began n item.clientId time ∉ since := by
  have twice : ∃ item ∈ (Pool.exec (uploaders fun x y => decide (x ≤ y)) ⟨.start sampleUntried, []⟩
      sampleRefused).world.browser.store, item.attempts = 2 ∧ item.failed = true := by
    decide +kernel
  obtain ⟨item, here, attempts, marked⟩ := twice
  obtain ⟨honours, marks⟩ := @backoff_is_honoured (fun x y => decide (x ≤ y)) 0 sampleUntried (by decide)
    (by decide) sampleRefused sampleFurther (by decide +kernel)
  exact ⟨honours, item, here, attempts, marks item here marked⟩

end Sample

end ItalyTrip
