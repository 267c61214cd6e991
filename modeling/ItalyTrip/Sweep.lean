import ItalyTrip.Alone
import ItalyTrip.Backoff

namespace ItalyTrip

open Calls Uploader

theorem Answer.failed_of_retried {answer : Answer} (h : answer.retried = true) :
    answer.failed = true := by
  cases answer with
  | ok payload => cases h
  | error error =>
    cases error with
    | api e => exact (Bool.and_eq_true_iff.mp h).1
    | other message => rfl

/-- An item was sent and answered; `now` is the clock that is read where it is to be tried again. -/
structure Trial where
  item : PendingPhoto
  answer : Answer
  now : Int

namespace Trial

variable (a : Trial)

def attempts : Nat := a.item.attempts + 1

/-- What the trial makes of the item, if it stays in the queue. -/
def left : Option PendingPhoto :=
  match a.answer with
  | .ok _ => none
  | .error error =>
    if a.answer.retried then
      some { a.item with
        attempts := a.attempts, nextAttemptAt := a.now + backoffMs a.attempts
        lastError := some error.message }
    else if a.answer.failed then
      some { a.item with attempts := a.attempts, failed := true, lastError := some error.message }
    else none

def settle (store : List PendingPhoto) : List PendingPhoto :=
  let others := store.filter (·.clientId != a.item.clientId)
  match a.left with
  | some item => item :: others
  | none => others

/-- The capture is lost: the server said that the trip is over. -/
def lost : Bool :=
  match a.answer with
  | .ok _ => false
  | .error _ => !a.answer.failed

/-- The clock is read again only where the item is to be tried later. -/
def clockAfter (clock : Int) : Int := if a.answer.retried then a.now else clock

/-- What the trial makes of the page of a tab and the queue. -/
def carry (tab : Nat) (w : UploadWorld) : UploadWorld :=
  let t := w.browser.tabs tab
  let fields := { t.fields with status := { t.fields.status with message := some lostMessage } }
  let browser := { w.browser with
    store := a.settle w.browser.store, clock := a.clockAfter w.browser.clock }
  { w with
    browser := if a.lost then browser.setTab tab { t with fields } else browser
    history := .settled tab a.item.clientId w.browser.clock a.answer ::
      .began tab a.item.clientId w.browser.clock :: w.history }

variable {a}

theorem carry_clock (tab : Nat) (w : UploadWorld) :
    (a.carry tab w).browser.clock = a.clockAfter w.browser.clock := by
  unfold carry
  split <;> rfl

theorem carry_store (tab : Nat) (w : UploadWorld) :
    (a.carry tab w).browser.store = a.settle w.browser.store := by
  unfold carry
  split <;> rfl

theorem carry_fields (tab : Nat) (w : UploadWorld) :
    ((a.carry tab w).browser.tabs tab).fields = { (w.browser.tabs tab).fields with
      status := { (w.browser.tabs tab).fields.status with
        message := if a.lost then some lostMessage else (w.browser.tabs tab).fields.status.message } } := by
  unfold carry
  split
  next => simp [Browser.setTab]
  next => simp

theorem settle_some {item : PendingPhoto} (h : a.left = some item) (store : List PendingPhoto) :
    a.settle store = item :: store.filter (·.clientId != a.item.clientId) := by
  simp only [settle, h]

theorem settle_none (h : a.left = none) (store : List PendingPhoto) :
    a.settle store = store.filter (·.clientId != a.item.clientId) := by
  simp only [settle, h]

end Trial

/-- The trials of a round read the clock one after the other. -/
def InTime : Int → List Trial → Prop
  | _, [] => True
  | clock, a :: round => clock ≤ a.now ∧ InTime (a.clockAfter clock) round

/-- What a round adds to the record of the uploads. -/
def logged (tab : Nat) : Int → List Trial → List UploadEvent → List UploadEvent
  | _, [], history => history
  | clock, a :: round, history => logged tab (a.clockAfter clock) round
    (.settled tab a.item.clientId clock a.answer :: .began tab a.item.clientId clock :: history)

/-- IndexedDB does what it is asked to, and the clock is not set back. -/
def Quiet (o : UploadChoice) : Prop := o.client.fault = .none ∧ 0 ≤ o.client.tick

/-- When a timer that is set here is to fire. -/
def firesAt (w : UploadWorld) : UploadCall → List Int
  | .setTimer delay => [w.browser.clock + delay]
  | _ => []

/-- The uploaders' world, with the times at which the timers that were set are to fire. -/
def timed : UploadChoice → UploadWorld × List Int → (c : UploadCall) →
    Option (UploadReply c × (UploadWorld × List Int)) :=
  Prog.noting firesAt fun o w c => w.perform o c

namespace UploaderClass

variable {localeLE : String → String → Bool} {tab : Nat} {α β : Type} {w w' : UploadWorld} {fires : List Int}

/-- Run alone, with quiet choices and whatever answers of the server, the script ends like this. -/
abbrev Alone (x : UploadScript α) (post : Except JsError α → UploadWorld × List Int → Prop)
    (v : UploadWorld × List Int) : Prop :=
  x.run.Achieves timed Quiet post v

theorem alone_call {c : UploadCall} {f : UploadReply c → UploadScript β}
    {post : Except JsError β → UploadWorld × List Int → Prop}
    (answers : ∀ o, Quiet o → ∃ r w', w.perform o c = some (r, w') ∧
      Alone (f r) post (w', firesAt w c ++ fires)) : Alone (await c >>= f) post (w, fires) := by
  refine achieves_run_bind.mpr (achieves_request.mpr fun o quiet => ?_)
  obtain ⟨r, w', hp, h⟩ := answers o quiet
  refine ⟨r, (w', firesAt w c ++ fires), ?_, h⟩
  simp only [timed, Prog.noting, hp]

theorem alone_last {c : UploadCall} {post : Except JsError (UploadReply c) → UploadWorld × List Int → Prop}
    (answers : ∀ o, Quiet o → ∃ r w', w.perform o c = some (r, w') ∧
      post (.ok r) (w', firesAt w c ++ fires)) : Alone (await c) post (w, fires) := by
  refine achieves_request.mpr fun o quiet => ?_
  obtain ⟨r, w', hp, h⟩ := answers o quiet
  refine ⟨r, (w', firesAt w c ++ fires), ?_, h⟩
  simp only [timed, Prog.noting, hp]

theorem put_alone {item : PendingPhoto} {post : Except JsError Unit → UploadWorld × List Int → Prop}
    (h : post (.ok ()) ({ w with browser := w.browser.put item }, fires)) :
    Alone (put item) post (w, fires) := by
  refine alone_call fun o quiet => ⟨.ok (), { w with browser := w.browser.put item }, ?_, h⟩
  simp only [UploadWorld.perform, UploadWorld.onBrowser, Browser.perform, Browser.faulty, quiet.1]

theorem remove_alone {clientId : String} {post : Except JsError Unit → UploadWorld × List Int → Prop}
    (h : post (.ok ()) ({ w with browser := w.browser.delete clientId }, fires)) :
    Alone (remove clientId) post (w, fires) := by
  refine alone_call fun o quiet => ⟨.ok (), { w with browser := w.browser.delete clientId }, ?_, h⟩
  simp only [UploadWorld.perform, UploadWorld.onBrowser, Browser.perform, Browser.faulty, quiet.1]

/-- The queue, in the order of its keys. -/
def listed (w : UploadWorld) : List PendingPhoto :=
  w.browser.store.insertionSort fun x y => x.clientId ≤ y.clientId

theorem all_alone {post : Except JsError (List PendingPhoto) → UploadWorld × List Int → Prop}
    (h : post (.ok (listed w)) (w, fires)) : Alone all post (w, fires) := by
  refine alone_call fun o quiet => ⟨.ok (listed w), w, ?_, h⟩
  simp only [UploadWorld.perform, UploadWorld.onBrowser, Browser.perform, Browser.faulty, quiet.1, listed]

def withFields (tab : Nat) (w : UploadWorld) (fields : Fields) : UploadWorld :=
  { w with browser := w.browser.setTab tab { w.browser.tabs tab with fields } }

@[simp] theorem withFields_fields {fields : Fields} :
    ((withFields tab w fields).browser.tabs tab).fields = fields :=
  congrArg Tab.fields (if_pos rfl)

theorem setFields_alone {f : Fields → Fields} {post : Except JsError Unit → UploadWorld × List Int → Prop}
    (h : post (.ok ()) (withFields tab w (f (w.browser.tabs tab).fields), fires)) :
    Alone (setFields tab f) post (w, fires) := by
  refine alone_call fun o _ => ⟨_, w, rfl, ?_⟩
  exact alone_last fun o _ => ⟨(), _, rfl, h⟩

theorem now_alone {f : Int → UploadScript β} {post : Except JsError β → UploadWorld × List Int → Prop}
    (h : ∀ now, w.browser.clock ≤ now →
      Alone (f now) post ({ w with browser := { w.browser with clock := now } }, fires)) :
    Alone (await .now >>= f) post (w, fires) := by
  refine alone_call fun o quiet => ⟨_, _, rfl, h _ ?_⟩
  have := quiet.2
  omega

/-- The page and the queue once the answer to the upload of the item is there. -/
def answered (tab : Nat) (w : UploadWorld) (clientId : String) (answer : Answer) : UploadWorld :=
  { w with history := .settled tab clientId w.browser.clock answer ::
      .began tab clientId w.browser.clock :: w.history }

theorem handleFailure_alone {item : PendingPhoto} {error : JsError}
    {post : Except JsError Unit → UploadWorld × List Int → Prop}
    (h : ∀ now, w.browser.clock ≤ now →
      post (.ok ()) (Trial.carry ⟨item, .error error, now⟩ tab w, fires)) :
    Alone (handleFailure tab item error) post (answered tab w item.clientId (.error error), fires) := by
  have later : Answer.retried (.error error) = true → Alone (do
      let now ← await .now
      put { item with
        attempts := item.attempts + 1, nextAttemptAt := now + backoffMs (item.attempts + 1)
        lastError := some error.message }) post
      (answered tab w item.clientId (.error error), fires) := by
    intro retried
    refine now_alone fun now le => put_alone ?_
    have carried := h now le
    have kept : Trial.lost ⟨item, .error error, now⟩ = false := by
      simp only [Trial.lost, Answer.failed_of_retried retried, Bool.not_true]
    simp only [Trial.carry, Trial.clockAfter, kept, retried, if_true, Trial.settle,
      Trial.left] at carried
    exact carried
  cases error with
  | other message => exact later rfl
  | api e =>
    simp only [handleFailure]
    split
    next locked =>
      refine achieves_run_bind.mpr (remove_alone (setFields_alone ?_))
      have carried := h w.browser.clock le_rfl
      simp only [Trial.carry, Trial.clockAfter, Trial.lost, Answer.failed, Answer.retried, locked, Bool.not_true,
        Bool.not_false, Bool.false_and, if_true, if_false, Bool.false_eq_true, Trial.settle,
        Trial.left] at carried
      exact carried
    next unlocked =>
      split
      next permanent =>
        refine put_alone ?_
        have carried := h w.browser.clock le_rfl
        simp only [Trial.carry, Trial.clockAfter, Trial.lost, Answer.failed, Answer.retried, unlocked, permanent,
          Bool.not_true, Bool.not_false, Bool.and_false, if_true, if_false, Bool.false_eq_true,
          Trial.settle, Trial.left] at carried
        exact carried
      next retryable => exact later (by simp [Answer.retried, unlocked, retryable])

theorem send_alone {item : PendingPhoto} {post : Except JsError Unit → UploadWorld × List Int → Prop}
    (h : ∀ a : Trial, a.item = item → w.browser.clock ≤ a.now →
      post (.ok ()) (a.carry tab w, fires)) : Alone (send tab item) post (w, fires) := by
  unfold send upload
  refine achieves_run_bind.mpr (achieves_attempt.mpr ?_)
  rw [bind_assoc]
  refine alone_call fun o _ => ⟨(), _, rfl, ?_⟩
  rw [bind_assoc]
  refine alone_call fun o _ => ⟨o.answer, answered tab w item.clientId o.answer, rfl, ?_⟩
  cases o.answer with
  | ok payload =>
    refine remove_alone ?_
    exact h ⟨item, .ok payload, w.browser.clock⟩ rfl le_rfl
  | error error =>
    change Alone (handleFailure tab item error) post _
    exact handleFailure_alone fun now le => h ⟨item, .error error, now⟩ rfl le

/-- What a round of trials makes of the page of a tab and the queue. -/
structure Carried (tab : Nat) (w w' : UploadWorld) (round : List Trial) : Prop where
  store : w'.browser.store = round.foldl (fun store a => a.settle store) w.browser.store
  history : w'.history = logged tab w.browser.clock round w.history
  clock : w.browser.clock ≤ w'.browser.clock
  fields : (w'.browser.tabs tab).fields = { (w.browser.tabs tab).fields with
    status := { (w.browser.tabs tab).fields.status with
      message := if round.any Trial.lost then some lostMessage
        else (w.browser.tabs tab).fields.status.message } }

theorem sendAll_alone {items : List PendingPhoto} {post : Except JsError Unit → UploadWorld × List Int → Prop}
    (h : ∀ round w', round.map (·.item) = items → InTime w.browser.clock round →
      Carried tab w w' round → post (.ok ()) (w', fires)) :
    Alone (sendAll tab items) post (w, fires) := by
  induction items generalizing w with
  | nil => exact h [] w rfl trivial ⟨rfl, rfl, le_rfl, rfl⟩
  | cons item items ih =>
    refine achieves_run_bind.mpr (send_alone fun a same le => ?_)
    refine ih fun round w' sent inTime carried => ?_
    have first := a.carry_clock tab w
    refine h (a :: round) w' (by rw [List.map_cons, same, sent]) ⟨le, first ▸ inTime⟩ ⟨?_, ?_, ?_, ?_⟩
    · rw [carried.store, a.carry_store]
      rfl
    · rw [carried.history, first]
      rfl
    · have later := carried.clock
      have on : w.browser.clock ≤ a.clockAfter w.browser.clock := by
        unfold Trial.clockAfter
        split <;> omega
      omega
    · rw [carried.fields, a.carry_fields]
      by_cases lost : round.any Trial.lost = true
      · simp [lost]
      · simp [lost]

theorem refreshCounts_alone {post : Except JsError Unit → UploadWorld × List Int → Prop}
    (h : post (.ok ()) (withFields tab w { (w.browser.tabs tab).fields with
      status := { (w.browser.tabs tab).fields.status with
        pending := ((listed w).filter fun item => !item.failed).length
        failed := ((listed w).filter (·.failed)).length } }, fires)) :
    Alone (refreshCounts tab) post (w, fires) := by
  refine achieves_run_bind.mpr ?_
  unfold counts
  refine achieves_run_bind.mpr (all_alone ?_)
  exact setFields_alone h

/-- The page goes on with other fields, and perhaps later; the queue and the uploads are as they were. -/
structure Paused (tab : Nat) (w w' : UploadWorld) (fields : Fields) : Prop where
  store : w'.browser.store = w.browser.store
  history : w'.history = w.history
  clock : w.browser.clock ≤ w'.browser.clock
  fields : (w'.browser.tabs tab).fields = fields

theorem paused_withFields {fields : Fields} : Paused tab w (withFields tab w fields) fields :=
  ⟨rfl, rfl, le_rfl, withFields_fields⟩

theorem Paused.trans {w'' : UploadWorld} {fields fields' : Fields} (h : Paused tab w w' fields)
    (h' : Paused tab w' w'' fields') : Paused tab w w'' fields' :=
  ⟨h'.store.trans h.store, h'.history.trans h.history, le_trans h.clock h'.clock, h'.fields⟩

theorem Paused.listed {fields : Fields} (h : Paused tab w w' fields) : listed w' = listed w := by
  rw [UploaderClass.listed, h.store, UploaderClass.listed]

theorem cancelRetry_alone {post : Except JsError Unit → UploadWorld × List Int → Prop}
    (h : ∀ w', Paused tab w w' { (w.browser.tabs tab).fields with retryTimer := none } →
      post (.ok ()) (w', fires)) : Alone (cancelRetry tab) post (w, fires) := by
  refine alone_call fun o _ => ⟨_, w, rfl, ?_⟩
  split
  next unarmed =>
    refine h w ⟨rfl, rfl, le_rfl, ?_⟩
    rw [← unarmed]
  next timer armed =>
    refine alone_call fun o _ => ⟨(), w, rfl, ?_⟩
    exact alone_last fun o _ => ⟨(), _, rfl, h _ paused_withFields⟩

/-- When the page wakes up for the first of these items, at the earliest now. -/
def wakeTime (items : List PendingPhoto) (clock : Int) : Option Int :=
  ((items.map (·.nextAttemptAt)).min?).map (max clock)

theorem wakeForFirst_alone {waiting : List PendingPhoto}
    {post : Except JsError Unit → UploadWorld × List Int → Prop}
    (unarmed : (w.browser.tabs tab).fields.retryTimer = none)
    (h : ∀ w' timer, Paused tab w w' { (w.browser.tabs tab).fields with retryTimer := timer } →
      timer.isSome = (wakeTime waiting w'.browser.clock).isSome →
      post (.ok ()) (w', (wakeTime waiting w'.browser.clock).toList ++ fires)) :
    Alone (wakeForFirst tab waiting) post (w, fires) := by
  unfold wakeForFirst
  split
  next empty =>
    have asleep : ∀ clock, wakeTime waiting clock = none := by
      intro clock
      rw [wakeTime, empty, Option.map_none]
    have same : { (w.browser.tabs tab).fields with retryTimer := none } = (w.browser.tabs tab).fields := by
      rw [← unarmed]
    have ends := h w none ⟨rfl, rfl, le_rfl, same.symm⟩ (by rw [asleep]; rfl)
    rwa [asleep] at ends
  next soonest found =>
    refine now_alone fun now le => ?_
    refine alone_call fun o _ => ⟨_, _, rfl, setFields_alone ?_⟩
    have wakes : wakeTime waiting now = some (max now soonest) := by rw [wakeTime, found, Option.map_some]
    have fire : now + max 0 (soonest - now) = max now soonest := by omega
    let later : UploadWorld :=
      { w with browser := { w.browser with clock := now, timers := w.browser.timers + 1 } }
    let fields := { (w.browser.tabs tab).fields with retryTimer := some w.browser.timers }
    have paused : Paused tab w (withFields tab later fields) fields := ⟨rfl, rfl, le, withFields_fields⟩
    have same : (withFields tab later fields).browser.clock = now := rfl
    have ends := h _ _ paused (by rw [same, wakes]; rfl)
    rw [same, wakes, ← fire] at ends
    exact ends

/-- When the retry timer of the page is to fire. -/
def nextWake (w : UploadWorld) (started : Bool) (clock : Int) : Option Int :=
  if started then wakeTime ((listed w).filter fun item => !item.failed) clock else none

theorem scheduleNextRetry_alone {post : Except JsError Unit → UploadWorld × List Int → Prop}
    (h : ∀ w' timer, Paused tab w w' { (w.browser.tabs tab).fields with retryTimer := timer } →
      timer.isSome = (nextWake w (w.browser.tabs tab).fields.started w'.browser.clock).isSome →
      post (.ok ())
        (w', (nextWake w (w.browser.tabs tab).fields.started w'.browser.clock).toList ++ fires)) :
    Alone (scheduleNextRetry tab) post (w, fires) := by
  refine achieves_run_bind.mpr (cancelRetry_alone fun w₁ cancelled => ?_)
  refine alone_call fun o _ => ⟨_, w₁, rfl, ?_⟩
  have started : (w₁.browser.tabs tab).fields.started = (w.browser.tabs tab).fields.started := by
    rw [cancelled.fields]
  split
  next stopped =>
    have asleep : (w.browser.tabs tab).fields.started = false := by simpa [started] using stopped
    have := h w₁ none cancelled (by rw [nextWake, asleep]; rfl)
    rw [nextWake, asleep] at this
    exact this
  next running =>
    have awake : (w.browser.tabs tab).fields.started = true := by simpa [started] using running
    refine achieves_run_bind.mpr (all_alone (wakeForFirst_alone (by rw [cancelled.fields]) ?_))
    intro w' timer paused armed
    rw [cancelled.fields] at paused
    have := h w' timer (cancelled.trans paused)
    rw [nextWake, awake, if_pos rfl, ← cancelled.listed] at this
    exact this armed

/-- What a drain makes of the page of a tab and the queue: `round` are its trials, `wake` is when the page
wakes up for what is left. -/
structure Swept (localeLE : String → String → Bool) (tab : Nat) (w w' : UploadWorld) (round : List Trial)
    (wake : Option Int) : Prop where
  due : ∃ now, w.browser.clock ≤ now ∧ InTime now round ∧
    round.map (·.item) = dueOf localeLE now (listed w) ∧ w'.history = logged tab now round w.history
  store : w'.browser.store = round.foldl (fun store a => a.settle store) w.browser.store
  wakes : wake = nextWake w' (w.browser.tabs tab).fields.started w'.browser.clock
  clock : w.browser.clock ≤ w'.browser.clock
  fields : ∃ timer : Option Nat, timer.isSome = wake.isSome ∧
    (w'.browser.tabs tab).fields = { (w.browser.tabs tab).fields with
      again := false
      retryTimer := timer
      status :=
        { pending := (w'.browser.store.filter fun item => !item.failed).length
          failed := (w'.browser.store.filter (·.failed)).length
          message := if round.any Trial.lost then some lostMessage
            else (w.browser.tabs tab).fields.status.message } }

theorem drainLoop_alone {rounds : Nat} {post : Except JsError Unit → UploadWorld × List Int → Prop}
    (h : ∀ w₁ w₂ round, Paused tab w w₁ { (w.browser.tabs tab).fields with again := false } →
      InTime w₁.browser.clock round → round.map (·.item) = dueOf localeLE w₁.browser.clock (listed w) →
      Carried tab w₁ w₂ round → post (.ok ()) (w₂, fires)) :
    Alone (drainLoop localeLE tab (rounds + 1)) post (w, fires) := by
  refine achieves_run_bind.mpr (setFields_alone (now_alone fun now le => ?_))
  let fields := { (w.browser.tabs tab).fields with again := false }
  let w₁ : UploadWorld := { withFields tab w fields with
    browser := { (withFields tab w fields).browser with clock := now } }
  have opened : Paused tab w w₁ fields := ⟨rfl, rfl, le, withFields_fields⟩
  refine achieves_run_bind.mpr (achieves_run_bind.mpr (all_alone ?_))
  refine achieves_run_bind.mpr (sendAll_alone fun round w₂ sent inTime carried => ?_)
  refine alone_call fun o _ => ⟨_, w₂, rfl, ?_⟩
  have again : (w₂.browser.tabs tab).fields.again = false := by
    have carried := carried.fields
    rw [show (_ : Fields) = fields from opened.fields] at carried
    rw [carried]
  rw [again]
  refine h w₁ w₂ round opened inTime ?_ carried
  rw [← opened.listed]
  exact sent

/-- How many items are counted does not depend on their order. -/
theorem count_listed (p : PendingPhoto → Bool) :
    ((listed w).filter p).length = (w.browser.store.filter p).length :=
  ((List.perm_insertionSort _ _).filter p).length_eq

theorem runDrain_alone {rounds : Nat} {post : Except JsError Unit → UploadWorld × List Int → Prop}
    (h : ∀ w' round wake, Swept localeLE tab w w' round wake → post (.ok ()) (w', wake.toList ++ fires)) :
    Alone (runDrain localeLE tab (rounds + 1)) post (w, fires) := by
  refine achieves_run_bind.mpr (achieves_attempt.mpr (drainLoop_alone fun w₁ w₂ round opened inTime sent
    carried => ?_))
  refine achieves_run_bind.mpr (refreshCounts_alone ?_)
  refine achieves_run_bind.mpr (scheduleNextRetry_alone fun w' timer paused armed => ?_)
  have fields := carried.fields
  rw [show (w₁.browser.tabs tab).fields = _ from opened.fields] at fields
  have started : (w₂.browser.tabs tab).fields.started = (w.browser.tabs tab).fields.started := by
    rw [fields]
  have store : w'.browser.store = w₂.browser.store := paused.store
  have clock : w₂.browser.clock ≤ w'.browser.clock := paused.clock
  have wakes : nextWake w₂ (w₂.browser.tabs tab).fields.started w'.browser.clock =
      nextWake w' (w.browser.tabs tab).fields.started w'.browser.clock := by
    rw [started, nextWake, nextWake, show listed w' = listed w₂ from paused.listed]
  refine h w' round _ ⟨⟨w₁.browser.clock, opened.clock, inTime, sent, ?_⟩, ?_, ?_, ?_, timer, armed, ?_⟩
  · rw [paused.history, ← opened.history]
    exact carried.history
  · rw [store, carried.store, opened.store]
  · rw [withFields_fields]
    exact wakes
  · have first := opened.clock
    have then_ := carried.clock
    omega
  · rw [paused.fields, withFields_fields, count_listed, count_listed, store, fields]

theorem drain_alone {rounds : Nat} {post : Except JsError Unit → UploadWorld × List Int → Prop}
    (free : (w.browser.tabs tab).fields.draining = false)
    (h : ∀ w' round wake, Swept localeLE tab w w' round wake → post (.ok ()) (w', wake.toList ++ fires)) :
    Alone (drain localeLE tab (rounds + 1)) post (w, fires) := by
  refine alone_call fun o _ => ⟨_, w, rfl, ?_⟩
  rw [if_neg (by rw [free]; exact Bool.false_ne_true)]
  let begun : UploadWorld := { w.setDraining tab true with
    drains := w.drains ++ [none]
    draining := fun n => if n = tab then w.drains.length else w.draining n }
  have begun_fields : (begun.browser.tabs tab).fields = { (w.browser.tabs tab).fields with draining := true } :=
    congrArg Tab.fields (if_pos rfl)
  refine alone_call fun o _ => ⟨w.drains.length, begun, rfl, ?_⟩
  refine achieves_run_bind.mpr (achieves_attempt.mpr (runDrain_alone fun w₁ round wake swept => ?_))
  let settled : UploadWorld := { w₁ with drains := w₁.drains.set w.drains.length (some (.ok ())) }
  refine alone_call fun o _ => ⟨(), settled, rfl, ?_⟩
  refine alone_call fun o _ => ⟨(), settled, rfl, ?_⟩
  refine alone_call fun o _ => ⟨(), settled.setDraining tab false, rfl, ?_⟩
  have ended : ((settled.setDraining tab false).browser.tabs tab).fields =
      { (w₁.browser.tabs tab).fields with draining := false } := congrArg Tab.fields (if_pos rfl)
  obtain ⟨timer, armed, fields⟩ := swept.fields
  have wakes := swept.wakes
  rw [begun_fields] at wakes fields
  refine h _ round wake ⟨swept.due, swept.store, wakes, swept.clock, timer, armed, ?_⟩
  rw [ended, fields]
  dsimp only
  rw [free]
  rfl

/-- A drain that is left to itself sends what is due, one after the other, makes of each item what its answer
says and wakes up for the first of those that stay; no other item is touched. Noting its timers changes
nothing. -/
theorem drain_sweeps (free : (w.browser.tabs tab).fields.draining = false) (rounds : Nat)
    {choices : Nat → UploadChoice} (quiet : ∀ n, Quiet (choices n)) :
    ∃ w' round wake, Swept localeLE tab w w' round wake ∧
      (drain localeLE tab (rounds + 1)).run.run timed choices (w, []) =
        some (.ok (), w', wake.toList) ∧
      (drain localeLE tab (rounds + 1)).run.run (fun o w c => w.perform o c) choices w =
        some (.ok (), w') := by
  have alone : Alone (drain localeLE tab (rounds + 1)) (fun r v => r = .ok () ∧
      ∃ round wake, Swept localeLE tab w v.1 round wake ∧ v.2 = wake.toList) (w, []) :=
    drain_alone free fun w' round wake swept => ⟨rfl, round, wake, swept, List.append_nil _⟩
  obtain ⟨r, ⟨w', fires⟩, done, rfl, round, wake, swept, rfl⟩ := alone.run quiet
  exact ⟨w', round, wake, swept, done, Prog.run_noting done⟩

section Sample

private def sampleQueue : UploadWorld :=
  .start { sampleBrowser "user" with store := [sampleItem "a" "08:00", sampleItem "b" "09:00"] }

theorem drain_sweeps_sample : ∃ w' round wake,
    Swept (fun x y => decide (x ≤ y)) 0 sampleQueue w' round wake ∧ round.length = 2 := by
  obtain ⟨w', round, wake, swept, _⟩ := @drain_sweeps (fun x y => decide (x ≤ y)) 0 sampleQueue rfl 0
    (fun _ => ⟨sampleNet (.error "Failed to fetch"), .ok none⟩) fun _ => ⟨rfl, le_rfl⟩
  refine ⟨w', round, wake, swept, ?_⟩
  obtain ⟨now, le, _, sent, _⟩ := swept.due
  have both : (dueOf (fun x y => decide (x ≤ y)) now (listed sampleQueue)).length = 2 := by
    have le : (0 : Int) ≤ now := le
    rw [dueOf, List.length_insertionSort, count_listed]
    simp [sampleQueue, sampleItem, UploadWorld.start, le]
  rw [← both, ← sent, List.length_map]

end Sample

end UploaderClass

end ItalyTrip
