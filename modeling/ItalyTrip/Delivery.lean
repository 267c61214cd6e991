import ItalyTrip.Sweep
import Mathlib.Algebra.Order.BigOperators.Group.List
import Mathlib.Algebra.Order.Ring.Nat

namespace ItalyTrip

open Calls

variable {localeLE : String → String → Bool} {tab : Nat} {w w' : UploadWorld} {round : List Trial}

namespace Trial

variable {a : Trial}

theorem left_clientId {item : PendingPhoto} (h : a.left = some item) :
    item.clientId = a.item.clientId := by
  unfold left at h
  split at h
  next => cases h
  next =>
    split at h
    next =>
      cases h
      rfl
    next =>
      split at h
      next =>
        cases h
        rfl
      next => cases h

/-- An item that stays and has not failed is to be tried again. -/
theorem left_unfailed (unfailed : a.item.failed = false) :
    a.answer.retried = true ↔ ∃ item, a.left = some item ∧ item.failed = false := by
  unfold left
  cases a.answer with
  | ok payload => simp [Answer.retried]
  | error error =>
    by_cases retried : Answer.retried (.error error) = true
    · simp [retried, unfailed]
    · by_cases failed : Answer.failed (.error error) = true
      · simp [retried, failed]
      · simp [retried, failed]

theorem mem_settle {item : PendingPhoto} {store : List PendingPhoto} :
    item ∈ a.settle store ↔
      item ∈ store ∧ item.clientId ≠ a.item.clientId ∨ a.left = some item := by
  cases left : a.left with
  | none => simp [settle_none left]
  | some kept =>
    rw [settle_some left, List.mem_cons, List.mem_filter, bne_iff_ne, Option.some.injEq, or_comm,
      eq_comm (a := item)]

theorem keyed_settle {store : List PendingPhoto} (keyed : Keyed store) : Keyed (a.settle store) := by
  have others : Keyed (store.filter (·.clientId != a.item.clientId)) :=
    keyed.sublist (List.filter_sublist.map _)
  cases left : a.left with
  | none => rwa [settle_none left]
  | some kept =>
    rw [settle_some left]
    refine List.nodup_cons.mpr ⟨fun there => ?_, others⟩
    obtain ⟨other, mem, same⟩ := List.mem_map.mp there
    have apart := (List.mem_filter.mp mem).2
    rw [same, left_clientId left] at apart
    simp at apart

end Trial

/-- The keys of a round. -/
def keysOf (round : List Trial) : List String := round.map (·.item.clientId)

theorem mem_settled {store : List PendingPhoto} (once : (keysOf round).Nodup) {item : PendingPhoto} :
    item ∈ round.foldl (fun store a => a.settle store) store ↔
      item ∈ store ∧ item.clientId ∉ keysOf round ∨ ∃ a ∈ round, a.left = some item := by
  induction round generalizing store with
  | nil => simp [keysOf]
  | cons a round ih =>
    obtain ⟨apart, once⟩ := List.nodup_cons.mp once
    rw [List.foldl_cons, ih once, Trial.mem_settle]
    constructor
    · rintro (⟨⟨here, ne⟩ | left, out⟩ | ⟨b, mem, left⟩)
      · refine Or.inl ⟨here, ?_⟩
        simp only [keysOf, List.map_cons, List.mem_cons, not_or]
        exact ⟨ne, out⟩
      · exact Or.inr ⟨a, List.mem_cons_self, left⟩
      · exact Or.inr ⟨b, List.mem_cons_of_mem _ mem, left⟩
    · rintro (⟨here, out⟩ | ⟨b, mem, left⟩)
      · simp only [keysOf, List.map_cons, List.mem_cons, not_or] at out
        exact Or.inl ⟨Or.inl ⟨here, out.1⟩, out.2⟩
      · rcases List.mem_cons.mp mem with rfl | mem
        · refine Or.inl ⟨Or.inr left, ?_⟩
          rw [Trial.left_clientId left]
          exact apart
        · exact Or.inr ⟨b, mem, left⟩

theorem keyed_settled {store : List PendingPhoto} (keyed : Keyed store) :
    Keyed (round.foldl (fun store a => a.settle store) store) := by
  induction round generalizing store with
  | nil => exact keyed
  | cons a round ih => exact ih (Trial.keyed_settle keyed)

/-- A round records one end for each of its items, and none for others. -/
theorem ended_logged {clock : Int} {history : List UploadEvent} (once : (keysOf round).Nodup)
    (clientId : String) :
    (clientId ∉ keysOf round ∧ ended clientId (logged tab clock round history) = ended clientId history) ∨
      ∃ a ∈ round, a.item.clientId = clientId ∧ ∃ time,
        ended clientId (logged tab clock round history) = (time, a.answer) :: ended clientId history := by
  induction round generalizing clock history with
  | nil => exact Or.inl ⟨List.not_mem_nil, rfl⟩
  | cons a round ih =>
    obtain ⟨apart, once⟩ := List.nodup_cons.mp once
    have below := @ih (a.clockAfter clock)
      (.settled tab a.item.clientId clock a.answer :: .began tab a.item.clientId clock :: history) once
    by_cases same : a.item.clientId = clientId
    · refine Or.inr ⟨a, List.mem_cons_self, same, clock, ?_⟩
      rcases below with ⟨_, rest⟩ | ⟨b, mem, same', _⟩
      · rw [logged, rest]
        simp [ended, same]
      · have there : a.item.clientId ∈ keysOf round :=
          (same'.trans same.symm) ▸ List.mem_map_of_mem mem
        exact absurd there apart
    · rcases below with ⟨out, rest⟩ | ⟨b, mem, same', time, rest⟩
      · refine Or.inl ⟨?_, ?_⟩
        · simp only [keysOf, List.map_cons, List.mem_cons, not_or]
          exact ⟨Ne.symm same, out⟩
        · rw [logged, rest]
          simp [ended, same]
      · refine Or.inr ⟨b, List.mem_cons_of_mem _ mem, same', time, ?_⟩
        rw [logged, rest]
        simp [ended, same]

namespace UploaderClass

/-- The page of a tab is left to itself from `w₀` on: it drains once, and again whenever a timer that its
drain has set fires. `n` counts how often it woke up. -/
inductive LeftAlone (localeLE : String → String → Bool) (tab : Nat) (w₀ : UploadWorld) :
    Nat → UploadWorld → List Int → Prop
  | first {rounds : Nat} {choices : Nat → UploadChoice} {r : Except JsError Unit} {w : UploadWorld}
      {fires : List Int} (quiet : ∀ n, Quiet (choices n))
      (ran : (drain localeLE tab (rounds + 1)).run.run timed choices (w₀, []) = some (r, w, fires)) :
      LeftAlone localeLE tab w₀ 0 w fires
  | woken {n : Nat} {w : UploadWorld} {fires : List Int} {t : Int} {ms rounds : Nat}
      {choices : Nat → UploadChoice} {r : Except JsError Unit} {w' : UploadWorld} {fires' : List Int}
      (before : LeftAlone localeLE tab w₀ n w fires) (timer : t ∈ fires) (passed : t ≤ w.browser.clock + ms)
      (quiet : ∀ n, Quiet (choices n))
      (ran : (onRetryTimer localeLE tab (rounds + 1)).run.run timed choices
        ({ w with browser := w.browser.env (.tick ms) }, []) = some (r, w', fires')) :
      LeftAlone localeLE tab w₀ (n + 1) w' fires'

/-- What is kept of the captures `ids` that were waiting: each of them waits and was only ever told to try
again, or has its final answer, and had one such answer. -/
structure Waiting (tab : Nat) (ids : List String) (w : UploadWorld) : Prop where
  keyed : Keyed w.browser.store
  free : (w.browser.tabs tab).fields.draining = false
  started : (w.browser.tabs tab).fields.started = true
  waits : ∀ item ∈ w.browser.store, item.failed = false →
    item.clientId ∈ ids ∧ ∀ e ∈ ended item.clientId w.history, e.2.retried = true
  final : ∀ id ∈ ids, (∃ item ∈ w.browser.store, item.clientId = id ∧ item.failed = false) ∨
    ∃ e ∈ ended id w.history, e.2.retried = false
  once : ∀ id, ((ended id w.history).filter fun e => !e.2.retried).length ≤ 1

/-- How many uploads of these captures have ended. -/
def trials (ids : List String) (w : UploadWorld) : Nat :=
  (ids.map fun id => (ended id w.history).length).sum

theorem Swept.sent_due {wake : Option Int} (h : Swept localeLE tab w w' round wake) {a : Trial}
    (mem : a ∈ round) : a.item ∈ w.browser.store ∧ a.item.failed = false := by
  obtain ⟨now, _, _, sent, _⟩ := h.due
  have listed : a.item ∈ dueOf localeLE now (listed w) := sent ▸ List.mem_map_of_mem mem
  obtain ⟨here, unfailed, _⟩ := mem_dueOf.mp listed
  exact ⟨(List.mem_insertionSort _).mp here, unfailed⟩

theorem Swept.once {wake : Option Int} (h : Swept localeLE tab w w' round wake)
    (keyed : Keyed w.browser.store) : (keysOf round).Nodup := by
  obtain ⟨now, _, _, sent, _⟩ := h.due
  have same : Keyed (listed w) :=
    ((List.perm_insertionSort _ _).map PendingPhoto.clientId).nodup_iff.mpr keyed
  have once : Keyed (round.map (·.item)) := sent ▸ dueOf_keyed same
  rwa [Keyed, List.map_map] at once

theorem Swept.ends {wake : Option Int} (h : Swept localeLE tab w w' round wake)
    (keyed : Keyed w.browser.store) (id : String) :
    (id ∉ keysOf round ∧ ended id w'.history = ended id w.history) ∨
      ∃ a ∈ round, a.item.clientId = id ∧ ∃ time,
        ended id w'.history = (time, a.answer) :: ended id w.history := by
  obtain ⟨now, _, _, _, history⟩ := h.due
  rw [history]
  exact ended_logged (h.once keyed) id

theorem Swept.kept {wake : Option Int} (h : Swept localeLE tab w w' round wake)
    (keyed : Keyed w.browser.store) {item : PendingPhoto} : item ∈ w'.browser.store ↔
      item ∈ w.browser.store ∧ item.clientId ∉ keysOf round ∨ ∃ a ∈ round, a.left = some item := by
  rw [h.store]
  exact mem_settled (h.once keyed)

/-- A round has one trial for each key. -/
theorem Swept.same {wake : Option Int} (h : Swept localeLE tab w w' round wake)
    (keyed : Keyed w.browser.store) {a b : Trial} (ha : a ∈ round) (hb : b ∈ round)
    (same : a.item.clientId = b.item.clientId) : a = b :=
  List.inj_on_of_nodup_map (h.once keyed) ha hb same

/-- What waits after a drain was not sent, or is to be tried again. -/
theorem Waiting.still {ids : List String} {wake : Option Int} (h : Waiting tab ids w)
    (swept : Swept localeLE tab w w' round wake) {item : PendingPhoto} (mem : item ∈ w'.browser.store)
    (unfailed : item.failed = false) :
    item.clientId ∈ ids ∧ ∀ e ∈ ended item.clientId w'.history, e.2.retried = true := by
  rcases (swept.kept h.keyed).mp mem with ⟨here, out⟩ | ⟨a, ha, left⟩
  · obtain ⟨known, retried⟩ := h.waits item here unfailed
    rcases swept.ends h.keyed item.clientId with ⟨_, same⟩ | ⟨a, ha, same, _⟩
    · exact ⟨known, same ▸ retried⟩
    · exact absurd (same ▸ List.mem_map_of_mem ha) out
  · obtain ⟨here, waiting⟩ := swept.sent_due ha
    have again : a.answer.retried = true := (Trial.left_unfailed waiting).mpr ⟨item, left, unfailed⟩
    have key := Trial.left_clientId left
    obtain ⟨known, retried⟩ := h.waits a.item here waiting
    rw [← key] at known retried
    refine ⟨known, ?_⟩
    rcases swept.ends h.keyed item.clientId with ⟨out, _⟩ | ⟨b, hb, same, time, ends⟩
    · exact absurd (key ▸ List.mem_map_of_mem ha) out
    · obtain rfl := swept.same h.keyed hb ha (same.trans key)
      rw [ends]
      intro e he
      rcases List.mem_cons.mp he with rfl | he
      · exact again
      · exact retried e he

/-- A capture waits on unless its upload had the final answer. -/
theorem Waiting.answered {ids : List String} {wake : Option Int} (h : Waiting tab ids w)
    (swept : Swept localeLE tab w w' round wake) {id : String} (mem : id ∈ ids) :
    (∃ item ∈ w'.browser.store, item.clientId = id ∧ item.failed = false) ∨
      ∃ e ∈ ended id w'.history, e.2.retried = false := by
  rcases swept.ends h.keyed id with ⟨out, same⟩ | ⟨a, ha, same, time, ends⟩
  · rw [same]
    rcases h.final id mem with ⟨item, here, key, unfailed⟩ | final
    · exact Or.inl ⟨item, (swept.kept h.keyed).mpr (Or.inl ⟨here, key ▸ out⟩), key, unfailed⟩
    · exact Or.inr final
  · obtain ⟨_, waiting⟩ := swept.sent_due ha
    by_cases again : a.answer.retried = true
    · obtain ⟨item, left, unfailed⟩ := (Trial.left_unfailed waiting).mp again
      have kept := (swept.kept h.keyed).mpr (Or.inr ⟨a, ha, left⟩)
      exact Or.inl ⟨item, kept, (Trial.left_clientId left).trans same, unfailed⟩
    · refine Or.inr ⟨(time, a.answer), ?_, Bool.eq_false_of_not_eq_true again⟩
      rw [ends]
      exact List.mem_cons_self

/-- Only what has had no final answer is sent. -/
theorem Waiting.one {ids : List String} {wake : Option Int} (h : Waiting tab ids w)
    (swept : Swept localeLE tab w w' round wake) (id : String) :
    ((ended id w'.history).filter fun e => !e.2.retried).length ≤ 1 := by
  rcases swept.ends h.keyed id with ⟨_, same⟩ | ⟨a, ha, same, time, ends⟩
  · rw [same]
    exact h.once id
  · obtain ⟨here, waiting⟩ := swept.sent_due ha
    have retried := (h.waits a.item here waiting).2
    rw [same] at retried
    have none : (ended id w.history).filter (fun e => !e.2.retried) = [] := by
      rw [List.filter_eq_nil_iff]
      intro e he
      simp [retried e he]
    rw [ends, List.filter_cons, none]
    split <;> simp

/-- The one step: a drain keeps what is known of the captures. -/
theorem Waiting.sweep {ids : List String} {wake : Option Int} (h : Waiting tab ids w)
    (swept : Swept localeLE tab w w' round wake) : Waiting tab ids w' := by
  obtain ⟨timer, _, fields⟩ := swept.fields
  refine ⟨?_, ?_, ?_, fun _ mem unfailed => h.still swept mem unfailed, fun _ mem => h.answered swept mem,
    h.one swept⟩
  · rw [swept.store]
    exact keyed_settled h.keyed
  · rw [fields]
    exact h.free
  · rw [fields]
    exact h.started

/-- Every trial of a round is one more end of an upload of these captures. -/
theorem Waiting.more {ids : List String} {wake : Option Int} (h : Waiting tab ids w)
    (swept : Swept localeLE tab w w' round wake) :
    trials ids w ≤ trials ids w' ∧ (round ≠ [] → trials ids w < trials ids w') := by
  have grows : ∀ id ∈ ids, (ended id w.history).length ≤ (ended id w'.history).length := by
    intro id _
    rcases swept.ends h.keyed id with ⟨_, same⟩ | ⟨_, _, _, time, ends⟩
    · rw [same]
    · rw [ends, List.length_cons]
      omega
  refine ⟨List.sum_le_sum grows, fun sent => ?_⟩
  obtain ⟨a, ha⟩ := List.exists_mem_of_ne_nil round sent
  obtain ⟨here, waiting⟩ := swept.sent_due ha
  have known := (h.waits a.item here waiting).1
  refine List.sum_lt_sum _ _ grows ⟨a.item.clientId, known, ?_⟩
  rcases swept.ends h.keyed a.item.clientId with ⟨out, _⟩ | ⟨_, _, _, time, ends⟩
  · exact absurd (List.mem_map_of_mem ha) out
  · rw [ends, List.length_cons]
    omega

/-- The world in which the timer finds the page. -/
theorem onRetryTimer_alone {rounds : Nat} {fires : List Int}
    {post : Except JsError Unit → UploadWorld × List Int → Prop}
    (free : (w.browser.tabs tab).fields.draining = false)
    (h : ∀ w₁ w' round wake, Paused tab w w₁ { (w.browser.tabs tab).fields with retryTimer := none } →
      Swept localeLE tab w₁ w' round wake → post (.ok ()) (w', wake.toList ++ fires)) :
    Alone (onRetryTimer localeLE tab (rounds + 1)) post (w, fires) := by
  refine achieves_run_bind.mpr (setFields_alone (drain_alone ?_ fun w' round wake swept => ?_))
  · rw [withFields_fields]
    exact free
  · exact h _ w' round wake paused_withFields swept

theorem Waiting.paused {ids : List String} {fields : Fields} (h : Waiting tab ids w)
    (paused : Paused tab w w' fields) (free : fields.draining = false) (started : fields.started = true) :
    Waiting tab ids w' := by
  obtain ⟨keyed, _, _, waits, final, once⟩ := h
  rw [← paused.store] at keyed waits final
  rw [← paused.history] at waits final once
  exact ⟨keyed, paused.fields ▸ free, paused.fields ▸ started, waits, final, once⟩

theorem Waiting.later {ids : List String} (h : Waiting tab ids w) (ms : Nat) :
    Waiting tab ids { w with browser := w.browser.env (.tick ms) } :=
  ⟨h.keyed, h.free, h.started, h.waits, h.final, h.once⟩

/-- What holds whenever the page has gone to sleep. -/
structure Asleep (tab : Nat) (ids : List String) (n : Nat) (w : UploadWorld) (fires : List Int) : Prop where
  waiting : Waiting tab ids w
  counted : n ≤ trials ids w
  fires : fires = (nextWake w true w.browser.clock).toList

/-- A page that wakes up for an item finds that it is due. -/
theorem sent_of_woken {t : Int} {w₁ : UploadWorld} {wake : Option Int}
    (swept : Swept localeLE tab w₁ w' round wake)
    (listed : listed w₁ = listed w) (timer : t ∈ (nextWake w true w.browser.clock).toList)
    (passed : t ≤ w₁.browser.clock) : round ≠ [] := by
  rw [Option.mem_toList, nextWake, if_pos rfl, wakeTime] at timer
  obtain ⟨soonest, found, same⟩ := Option.map_eq_some_iff.mp timer
  have mem := List.min?_mem found
  obtain ⟨item, mem, next⟩ := List.mem_map.mp mem
  obtain ⟨here, unfailed⟩ := List.mem_filter.mp mem
  obtain ⟨now, le, _, sent, _⟩ := swept.due
  rintro rfl
  have due : item ∈ dueOf localeLE now (UploaderClass.listed w₁) := by
    rw [mem_dueOf, listed]
    refine ⟨here, by simpa using unfailed, ?_⟩
    omega
  rw [← sent] at due
  cases due

theorem LeftAlone.asleep {ids : List String} {w₀ : UploadWorld} {n : Nat} {fires : List Int}
    (init : Waiting tab ids w₀) (life : LeftAlone localeLE tab w₀ n w fires) :
    Asleep tab ids n w fires := by
  induction life with
  | @first rounds choices r w fires quiet ran =>
    have alone : Alone (drain localeLE tab (rounds + 1)) (fun _ v => Asleep tab ids 0 v.1 v.2) (w₀, []) := by
      refine drain_alone init.free fun w' round wake swept => ⟨init.sweep swept, Nat.zero_le _, ?_⟩
      rw [List.append_nil, swept.wakes, init.started]
    obtain ⟨_, _, done, asleep⟩ := alone.run quiet
    cases ran.symm.trans done
    exact asleep
  | @woken n w fires t ms rounds choices r w' fires' before timer passed quiet ran ih =>
    have waiting := ih.waiting.later ms
    have alone : Alone (onRetryTimer localeLE tab (rounds + 1)) (fun _ v => Asleep tab ids (n + 1) v.1 v.2)
        ({ w with browser := w.browser.env (.tick ms) }, []) := by
      refine onRetryTimer_alone waiting.free fun w₁ w' round wake paused swept => ?_
      have waiting₁ := waiting.paused paused waiting.free waiting.started
      have sent := sent_of_woken (w := w) swept paused.listed (ih.fires ▸ timer)
        (le_trans passed paused.clock)
      have more : trials ids w₁ < trials ids w' := (waiting₁.more swept).2 sent
      have same : trials ids w₁ = trials ids w := by rw [trials, paused.history, trials]
      have counted : n + 1 ≤ trials ids w' := by
        have := ih.counted
        omega
      refine ⟨waiting₁.sweep swept, counted, ?_⟩
      rw [List.append_nil, swept.wakes, waiting₁.started]
    obtain ⟨_, _, done, asleep⟩ := alone.run quiet
    cases ran.symm.trans done
    exact asleep

/-- Of the ends of the uploads of a capture at most one is not a failure to be tried again. -/
theorem Waiting.bounded {ids : List String} (h : Waiting tab ids w) {patience : Nat}
    (patient : ∀ id ∈ ids, ((ended id w.history).filter (·.2.retried)).length ≤ patience) :
    trials ids w ≤ (patience + 1) * ids.length := by
  have each : ∀ count ∈ ids.map fun id => (ended id w.history).length, count ≤ patience + 1 := by
    intro count listed
    obtain ⟨id, mem, rfl⟩ := List.mem_map.mp listed
    have parts := List.length_eq_length_filter_add (l := ended id w.history) (·.2.retried)
    have few := patient id mem
    have last := h.once id
    omega
  have bound := List.sum_le_card_nsmul _ _ each
  rw [List.length_map] at bound
  change _ ≤ ids.length * (patience + 1) at bound
  rwa [Nat.mul_comm] at bound

/-- A page that has gone to sleep wakes up again as long as a capture waits. -/
theorem Asleep.wakes {ids : List String} {n : Nat} {fires : List Int} (asleep : Asleep tab ids n w fires)
    {item : PendingPhoto} (mem : item ∈ w.browser.store) (unfailed : item.failed = false) :
    ∃ t, fires = [t] := by
  have waits : item ∈ (listed w).filter fun item => !item.failed :=
    List.mem_filter.mpr ⟨(List.mem_insertionSort _).mpr mem, by rw [unfailed]; rfl⟩
  obtain ⟨soonest, found⟩ := Option.isSome_iff_exists.mp
    (List.isSome_min?_of_mem (List.mem_map_of_mem (f := PendingPhoto.nextAttemptAt) waits))
  refine ⟨max w.browser.clock soonest, ?_⟩
  rw [asleep.fires, nextWake, if_pos rfl, wakeTime, found]
  rfl

/-- The captures that wait in the store. -/
def waitingIds (b : Browser) : List String :=
  (b.store.filter fun item => !item.failed).map PendingPhoto.clientId

theorem mem_waitingIds {b : Browser} {item : PendingPhoto} (mem : item ∈ b.store)
    (unfailed : item.failed = false) : item.clientId ∈ waitingIds b :=
  List.mem_map_of_mem (List.mem_filter.mpr ⟨mem, by rw [unfailed]; rfl⟩)

theorem waiting_start {b : Browser} (keyed : Keyed b.store) (free : (b.tabs tab).fields.draining = false)
    (started : (b.tabs tab).fields.started = true) : Waiting tab (waitingIds b) (.start b) := by
  refine ⟨keyed, free, started, ?_, ?_, fun _ => Nat.zero_le _⟩
  · intro item mem unfailed
    exact ⟨mem_waitingIds mem unfailed, nofun⟩
  · intro id known
    obtain ⟨item, mem, rfl⟩ := List.mem_map.mp known
    obtain ⟨here, unfailed⟩ := List.mem_filter.mp mem
    exact Or.inl ⟨item, here, rfl, by simpa using unfailed⟩

/-- An uploader that is left to itself, and whose server asks for patience only so often, wakes up only so
often; as long as a capture waits it wakes up again, and each that no longer waits has its final answer. -/
theorem captures_delivered {b : Browser} (keyed : Keyed b.store)
    (free : (b.tabs tab).fields.draining = false) (started : (b.tabs tab).fields.started = true)
    {n : Nat} {fires : List Int} (life : LeftAlone localeLE tab (.start b) n w fires) :
    (∀ patience, (∀ item ∈ b.store, ((ended item.clientId w.history).filter (·.2.retried)).length ≤ patience) →
      n ≤ (patience + 1) * (b.store.filter fun item => !item.failed).length) ∧
    (∀ item ∈ b.store, item.failed = false →
      (∃ kept ∈ w.browser.store, kept.clientId = item.clientId ∧ kept.failed = false) ∨
        ∃ e ∈ ended item.clientId w.history, e.2.retried = false) ∧
    ((∃ item ∈ w.browser.store, item.failed = false) → ∃ t, fires = [t] ∧ ∀ (ms rounds : Nat) choices,
      t ≤ w.browser.clock + ms → (∀ i, Quiet (choices i)) → ∃ w' fires',
        (onRetryTimer localeLE tab (rounds + 1)).run.run timed choices
            ({ w with browser := w.browser.env (.tick ms) }, []) = some (.ok (), w', fires') ∧
          LeftAlone localeLE tab (.start b) (n + 1) w' fires') := by
  have asleep := life.asleep (waiting_start keyed free started)
  refine ⟨fun patience patient => ?_, fun item mem unfailed => ?_, ?_⟩
  · have bound := @Waiting.bounded _ _ _ asleep.waiting patience fun id known => by
      obtain ⟨item, mem, rfl⟩ := List.mem_map.mp known
      exact patient item (List.mem_filter.mp mem).1
    rw [waitingIds, List.length_map] at bound
    exact le_trans asleep.counted bound
  · exact asleep.waiting.final item.clientId (mem_waitingIds mem unfailed)
  · rintro ⟨item, mem, unfailed⟩
    obtain ⟨t, rfl⟩ := asleep.wakes mem unfailed
    refine ⟨t, rfl, fun ms rounds choices passed quiet => ?_⟩
    have alone : Alone (onRetryTimer localeLE tab (rounds + 1)) (fun r _ => r = .ok ())
        ({ w with browser := w.browser.env (.tick ms) }, []) :=
      onRetryTimer_alone asleep.waiting.free fun _ _ _ _ _ _ => rfl
    obtain ⟨_, ⟨w', fires'⟩, done, rfl⟩ := alone.run quiet
    exact ⟨w', fires', done, life.woken (List.mem_singleton_self _) passed quiet done⟩

section Sample

private def sampleStarted : Browser :=
  { sampleBrowser "user" with
    store := [sampleItem "a" "08:00"]
    tabs := fun _ => ⟨{ Fields.initial with started := true }, none⟩ }

/-- The first upload finds no network. -/
private def sampleFirst : Option (Except JsError Unit × UploadWorld × List Int) :=
  (drain (fun x y => decide (x ≤ y)) 0 1).run.run timed
    (fun _ => ⟨sampleNet (.error "Failed to fetch"), .error (.other "Failed to fetch")⟩)
    (.start sampleStarted, [])

theorem captures_delivered_sample :
    ∃ w w' fires', LeftAlone (fun x y => decide (x ≤ y)) 0 (.start sampleStarted) 0 w [2000] ∧
      (∃ kept ∈ w.browser.store, kept.clientId = "a" ∧ kept.failed = false) ∧
      LeftAlone (fun x y => decide (x ≤ y)) 0 (.start sampleStarted) 1 w' fires' := by
  obtain ⟨⟨r, w, fires⟩, ran⟩ := Option.isSome_iff_exists.mp
    (show sampleFirst.isSome = true by decide +kernel)
  have store : (sampleFirst.map fun v => v.2.1.browser.store.map fun item => (item.clientId, item.failed)) =
      some [("a", false)] := by decide +kernel
  have timers : (sampleFirst.map fun v => (v.2.1.browser.clock, v.2.2)) = some (0, [2000]) := by decide +kernel
  rw [ran] at store timers
  obtain ⟨clock, rfl⟩ := Prod.mk.inj (Option.some.inj timers)
  have life : LeftAlone (fun x y => decide (x ≤ y)) 0 (.start sampleStarted) 0 w [2000] :=
    .first (fun _ => ⟨rfl, le_rfl⟩) ran
  obtain ⟨_, _, wakes⟩ := captures_delivered (b := sampleStarted) (by decide) rfl rfl life
  obtain ⟨item, mem, same⟩ := List.mem_map.mp (Option.some.inj store ▸ List.mem_singleton_self _)
  obtain ⟨key, unfailed⟩ := Prod.mk.inj same
  obtain ⟨t, one, next⟩ := wakes ⟨item, mem, unfailed⟩
  obtain rfl := List.singleton_inj.mp one
  obtain ⟨w', fires', _, woken⟩ := next 2000 0
    (fun _ => ⟨sampleNet (.error "Failed to fetch"), .ok none⟩) (by have : w.browser.clock = 0 := clock; omega)
    fun _ => ⟨rfl, le_rfl⟩
  exact ⟨w, w', fires', life, ⟨item, mem, key, unfailed⟩, woken⟩

end Sample

end UploaderClass

end ItalyTrip
