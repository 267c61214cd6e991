import ItalyTrip.Component
import Mathlib.Data.List.Perm.Basic

namespace ItalyTrip

namespace WakeLock

/-- The effect that keeps the screen awake depends on `playing`, and each run has its own `cancelled`. -/
def wake : Components.Effect Bool Bool Nat := ⟨id, fun round _ => some round⟩

/-- The page with the slideshow. Its state is `playing`, and `requests` has the run of each request under way.
The browser has granted as many locks as `granted`, those `active` are not released. `lost` has the active
locks that another lock has taken the place of in the sentinel. -/
structure Page where
  site : Components.Site Bool Nat
  requests : List Nat
  sentinel : Option Nat
  hidden : Bool
  granted : Nat
  active : List Nat
  lost : List Nat

def Page.start : Page := ⟨.empty, [], none, false, 0, [], []⟩

inductive Event where
  | mount
  | unmount
  | toggle
  | hide
  | visible
  | settled (i : Nat) (granted : Bool)

namespace Page

def releaseWakeLock (p : Page) (sentinel : Option Nat) : Page :=
  { p with active := p.active.filter fun lock => sentinel ≠ some lock }

def requestWakeLock (p : Page) : Page := { p with requests := p.requests ++ [p.site.rounds] }

/-- What a new run of the effect does, after the cleanup of the last one. -/
def acquire (p : Page) : Page :=
  match p.site.screen with
  | some true => p.requestWakeLock
  | some false => { p.releaseWakeLock p.sentinel with sentinel := none }
  | none => p

def commit (p : Page) (screen : Option Bool) : Page :=
  let site := wake.commit p.site screen
  if site.rounds = p.site.rounds then { p with site := site }
  else acquire { p.releaseWakeLock p.sentinel with site := site, sentinel := none }

/-- What comes of a request. A hidden page is granted none. -/
def grant (p : Page) (granted : Bool) : Option Nat × Page :=
  if granted ∧ ¬ p.hidden then
    (some p.granted, { p with granted := p.granted + 1, active := p.granted :: p.active })
  else (none, p)

/-- The rest of `acquire` for a request of this run. -/
def acquired (p : Page) (round : Nat) (granted : Bool) : Page :=
  let (lock, p) := p.grant granted
  if p.site.taken = some round then
    { p with
      sentinel := lock
      lost := (p.sentinel.toList.filter fun held => held ∈ p.active) ++ p.lost }
  else p.releaseWakeLock lock

def step (p : Page) (event : Event) : Page :=
  match event, p.site.screen with
  | .mount, none => p.commit (some true)
  | .unmount, some _ => p.commit none
  | .toggle, some playing => p.commit (some !playing)
  | .hide, _ => { p with hidden := true, active := [] }
  | .visible, screen =>
    if p.hidden then
      let p := { p with hidden := false }
      if screen = some true then p.requestWakeLock else p
    else p
  | .settled i granted, _ =>
    match p.requests[i]? with
    | some round => { p with requests := p.requests.eraseIdx i }.acquired round granted
    | none => p
  | _, _ => p

def run (events : List Event) : Page := events.foldl step start

/-- The run of the effect is on, that is, not cancelled. -/
def Current (p : Page) (round : Nat) : Prop := p.site.taken = some round

instance (p : Page) : DecidablePred p.Current := fun round => inferInstanceAs (Decidable (p.site.taken = some round))

structure Good (p : Page) : Prop where
  holds : wake.Holds p.site
  old : ∀ round ∈ p.requests, round ≤ p.site.rounds
  playing : ∀ round ∈ p.requests, p.Current round → p.site.screen = some true
  sentinel : p.sentinel ≠ none → p.site.screen = some true
  active : ∀ lock ∈ p.active, p.sentinel = some lock ∨ lock ∈ p.lost
  hidden : p.hidden = true → p.active = []

variable {p : Page}

theorem Good.taken (good : p.Good) : p.site.taken = p.site.screen.map fun _ => p.site.rounds := by
  have holds := good.holds
  unfold Components.Effect.Holds Components.Effect.setup at holds
  rw [holds]
  cases p.site.screen <;> rfl

/-- The requests of earlier runs are cancelled. -/
theorem Good.current (good : p.Good) {round : Nat} (h : p.Current round) : round = p.site.rounds := by
  unfold Page.Current at h
  rw [good.taken, Option.map_eq_some_iff] at h
  obtain ⟨_, -, rfl⟩ := h
  rfl

theorem mem_released {sentinel : Option Nat} {lock : Nat} :
    lock ∈ (p.releaseWakeLock sentinel).active ↔ lock ∈ p.active ∧ sentinel ≠ some lock := by
  simp [Page.releaseWakeLock]

/-- The sentinel is released and emptied. -/
theorem Good.release (good : p.Good) : Good { p.releaseWakeLock p.sentinel with sentinel := none } where
  holds := good.holds
  old := good.old
  playing := good.playing
  sentinel := fun h => absurd rfl h
  active lock hlock := by
    obtain ⟨held, other⟩ := mem_released.mp hlock
    exact Or.inr ((good.active lock held).resolve_left other)
  hidden h := by
    change p.active.filter _ = []
    rw [good.hidden h]
    rfl

/-- A new run of the effect finds no request of its own. -/
theorem Good.anew (good : p.Good) {screen : Option Bool}
    (changed : screen.map wake.deps ≠ p.site.screen.map wake.deps) {round : Nat} (hround : round ∈ p.requests) :
    (wake.commit p.site screen).taken ≠ some round := by
  intro current
  have holds : wake.Holds (wake.commit p.site screen) := good.holds.commit
  unfold Components.Effect.Holds Components.Effect.setup at holds
  rw [current, Components.Effect.commit_changed changed] at holds
  obtain ⟨_, -, later⟩ := Option.bind_eq_some_iff.mp holds.symm
  have later : p.site.rounds + 1 = round := Option.some.inj later
  have := good.old round hround
  omega

/-- The page after the cleanup of a run and before the next one. -/
theorem Good.cleanup (good : p.Good) {screen : Option Bool}
    (changed : screen.map wake.deps ≠ p.site.screen.map wake.deps) :
    Good { p.releaseWakeLock p.sentinel with site := wake.commit p.site screen, sentinel := none } where
  holds := good.holds.commit
  old round hround := by
    rw [Components.Effect.commit_changed changed]
    exact Nat.le_succ_of_le (good.old round hround)
  playing round hround current := absurd current (good.anew changed hround)
  sentinel := fun h => absurd rfl h
  active := good.release.active
  hidden := good.release.hidden

theorem Good.request (good : p.Good) (playing : p.site.screen = some true) : p.requestWakeLock.Good where
  holds := good.holds
  old round hround := by
    obtain before | rfl := List.mem_append.mp hround |>.imp_right List.mem_singleton.mp
    · exact good.old round before
    · exact Nat.le_refl _
  playing _ _ _ := playing
  sentinel := good.sentinel
  active := good.active
  hidden := good.hidden

theorem Good.acquire (good : p.Good) : p.acquire.Good := by
  unfold Page.acquire
  split
  next playing => exact good.request playing
  next => exact good.release
  next => exact good

theorem Good.commit (good : p.Good) (screen : Option Bool) : (p.commit screen).Good := by
  unfold Page.commit
  by_cases same : screen.map wake.deps = p.site.screen.map wake.deps
  · have unchanged : screen = p.site.screen := by simpa [wake] using same
    rw [Components.Effect.commit_same same, if_pos rfl, unchanged]
    exact good
  · have cleaned := good.cleanup same
    rw [Components.Effect.commit_changed same] at cleaned ⊢
    rw [if_neg (Nat.succ_ne_self _)]
    exact cleaned.acquire

theorem Good.take (good : p.Good) {i : Nat} : Good { p with requests := p.requests.eraseIdx i } :=
  { good with
    old := fun round hround => good.old round ((List.eraseIdx_sublist _ _).subset hround)
    playing := fun round hround => good.playing round ((List.eraseIdx_sublist _ _).subset hround) }

/-- What a request is granted is active, and nothing is granted to a hidden page. -/
theorem grant_cases (granted : Bool) : p.grant granted = (none, p) ∨ p.hidden = false ∧
    p.grant granted =
      (some p.granted, { p with granted := p.granted + 1, active := p.granted :: p.active }) := by
  unfold Page.grant
  split
  next shown => exact Or.inr ⟨Bool.eq_false_iff.mpr shown.2, rfl⟩
  next => exact Or.inl rfl

theorem Good.acquired (good : p.Good) {round : Nat} (playing : p.Current round → p.site.screen = some true)
    (granted : Bool) : (p.acquired round granted).Good := by
  unfold Page.acquired
  obtain result | ⟨shown, result⟩ := p.grant_cases granted
  · rw [result]
    dsimp only
    split
    next current =>
      refine ⟨good.holds, good.old, good.playing, fun _ => playing current, fun lock hlock => ?_, good.hidden⟩
      obtain held | lost := good.active lock hlock
      · exact Or.inr (List.mem_append_left _ (by simp [held, hlock]))
      · exact Or.inr (List.mem_append_right _ lost)
    next =>
      refine ⟨good.holds, good.old, good.playing, good.sentinel, fun lock hlock => ?_, fun h => ?_⟩
      · exact good.active lock (mem_released.mp hlock).1
      · rw [Page.releaseWakeLock, good.hidden h]
        rfl
  · rw [result]
    dsimp only
    split
    next current =>
      refine ⟨good.holds, good.old, good.playing, fun _ => playing current, fun lock hlock => ?_,
        fun h => absurd (shown.symm.trans h) nofun⟩
      obtain rfl | before := List.mem_cons.mp hlock
      · exact Or.inl rfl
      · obtain held | lost := good.active lock before
        · exact Or.inr (List.mem_append_left _ (by simp [held, before]))
        · exact Or.inr (List.mem_append_right _ lost)
    next =>
      refine ⟨good.holds, good.old, good.playing, good.sentinel, fun lock hlock => ?_,
        fun h => absurd (shown.symm.trans h) nofun⟩
      obtain ⟨held, other⟩ := mem_released.mp hlock
      obtain rfl | before := List.mem_cons.mp held
      · exact absurd rfl other
      · exact good.active lock before

theorem Good.step (good : p.Good) (event : Event) : (p.step event).Good := by
  unfold Page.step
  split
  next => exact good.commit _
  next => exact good.commit _
  next => exact good.commit _
  next => exact ⟨good.holds, good.old, good.playing, good.sentinel, nofun, fun _ => rfl⟩
  next screen =>
    split
    next hidden =>
      have shown : Good { p with hidden := false } :=
        ⟨good.holds, good.old, good.playing, good.sentinel, good.active, nofun⟩
      dsimp only
      split
      next playing => exact shown.request playing
      next => exact shown
    next => exact good
  next screen i granted =>
    split
    next round hi => exact good.take.acquired (good.playing round (List.mem_of_getElem? hi)) granted
    next => exact good
  next => exact good

/-- Only a show that plays holds the lock of the sentinel, and what else is active has been lost. -/
theorem run_good (events : List Event) : (run events).Good :=
  List.foldlRecOn events step
    ⟨rfl, nofun, nofun, fun h => absurd rfl h, nofun, fun _ => rfl⟩ fun _ good event _ => good.step event

/-- The page is not shown again while a request of the run that is on is under way. -/
def Prompt (p : Page) : Event → Prop
  | .visible => ∀ round ∈ p.requests, ¬ p.Current round
  | _ => True

def PromptRun : Page → List Event → Prop
  | _, [] => True
  | p, event :: events => p.Prompt event ∧ PromptRun (p.step event) events

/-- The requests under way of the run that is on. -/
def underWay (p : Page) : Nat := p.requests.countP fun round => p.site.taken = some round

theorem underWay_eq_zero (cancelled : ∀ round ∈ p.requests, ¬ p.Current round) : p.underWay = 0 :=
  List.countP_eq_zero.mpr fun round hround => by simpa [Page.Current] using cancelled round hround

/-- At most one request is under way, and then no lock is held. -/
structure Single (p : Page) : Prop where
  lost : p.lost = []
  one : p.underWay ≤ 1
  free : 0 < p.underWay → ∀ lock, p.sentinel = some lock → lock ∉ p.active
  fresh : ∀ lock, p.sentinel = some lock → lock < p.granted

theorem Single.request (single : p.Single) (cancelled : ∀ round ∈ p.requests, ¬ p.Current round)
    (free : ∀ lock, p.sentinel = some lock → lock ∉ p.active) : p.requestWakeLock.Single where
  lost := single.lost
  one := by
    change (p.requests ++ [p.site.rounds]).countP (fun round => p.site.taken = some round) ≤ 1
    rw [List.countP_append, show p.requests.countP _ = 0 from underWay_eq_zero cancelled, Nat.zero_add]
    exact List.countP_le_length
  free _ := free
  fresh := single.fresh

theorem Single.commit (single : p.Single) (good : p.Good) (screen : Option Bool) :
    (p.commit screen).Single := by
  unfold Page.commit
  by_cases same : screen.map wake.deps = p.site.screen.map wake.deps
  · have unchanged : screen = p.site.screen := by simpa [wake] using same
    rw [Components.Effect.commit_same same, if_pos rfl, unchanged]
    exact single
  · have changed : (wake.commit p.site screen).rounds ≠ p.site.rounds := by
      rw [Components.Effect.commit_changed same]
      exact Nat.succ_ne_self _
    have cancelled : ∀ round ∈ p.requests, (wake.commit p.site screen).taken ≠ some round :=
      fun round hround => good.anew same hround
    dsimp only
    rw [if_neg changed]
    -- The sentinel is empty, so it holds nothing that a request could take the place of.
    have emptied : ∀ q : Page, q.sentinel = none → q.lost = p.lost → q.requests = p.requests →
        q.site = wake.commit p.site screen → q.Single := by
      intro q sentinel lost requests site
      have none : q.underWay = 0 := underWay_eq_zero fun round hround => by
        rw [Page.Current, site]
        exact cancelled round (requests ▸ hround)
      refine ⟨lost.trans single.lost, by omega, fun h => by omega, fun lock h => ?_⟩
      rw [sentinel] at h
      cases h
    have cleaned : Single { p.releaseWakeLock p.sentinel with
        site := wake.commit p.site screen, sentinel := none } := emptied _ rfl rfl rfl rfl
    unfold Page.acquire
    split
    next => exact cleaned.request cancelled fun lock h => by cases h
    next => exact emptied _ rfl rfl rfl rfl
    next => exact cleaned

theorem take_underWay {i : Nat} {round : Nat} (hi : p.requests[i]? = some round) :
    (if p.site.taken = some round then 1 else 0) + underWay { p with requests := p.requests.eraseIdx i } =
      p.underWay := by
  obtain ⟨bound, rfl⟩ := List.getElem?_eq_some_iff.mp hi
  unfold Page.underWay
  rw [← (List.getElem_cons_eraseIdx_perm bound).countP_eq, List.countP_cons, Nat.add_comm]
  simp only [decide_eq_true_eq]

theorem Single.take (single : p.Single) {i : Nat} : Single { p with requests := p.requests.eraseIdx i } := by
  have fewer : underWay { p with requests := p.requests.eraseIdx i } ≤ p.underWay :=
    (List.eraseIdx_sublist _ _).countP_le
  exact ⟨single.lost, Nat.le_trans fewer single.one, fun h => single.free (by omega), single.fresh⟩

/-- A request of the run that is on was its only one, and a lock that a cancelled one brings is released. -/
theorem Single.acquired (single : p.Single) {round : Nat} (alone : p.Current round →
      p.underWay = 0 ∧ ∀ lock, p.sentinel = some lock → lock ∉ p.active) (granted : Bool) :
    (p.acquired round granted).Single := by
  unfold Page.acquired
  obtain result | ⟨-, result⟩ := p.grant_cases granted
  · rw [result]
    dsimp only
    split
    next current =>
      obtain ⟨none, free⟩ := alone current
      refine ⟨?_, Nat.le_trans (Nat.le_of_eq none) (Nat.zero_le 1), fun h => absurd none (Nat.ne_of_gt h),
        nofun⟩
      rw [single.lost, List.append_nil, List.filter_eq_nil_iff]
      intro held hheld
      simpa using free held (Option.mem_toList.mp hheld)
    next cancelled =>
      refine ⟨single.lost, single.one, fun h lock held hlock => ?_, single.fresh⟩
      exact single.free h lock held (mem_released.mp hlock).1
  · rw [result]
    dsimp only
    split
    next current =>
      obtain ⟨none, free⟩ := alone current
      refine ⟨?_, Nat.le_trans (Nat.le_of_eq none) (Nat.zero_le 1), fun h => absurd none (Nat.ne_of_gt h),
        fun lock held => ?_⟩
      · rw [single.lost, List.append_nil, List.filter_eq_nil_iff]
        intro held hheld
        have sentinel := Option.mem_toList.mp hheld
        have old := single.fresh held sentinel
        have released := free held sentinel
        simp only [List.mem_cons, released, or_false, decide_eq_true_eq]
        omega
      · obtain rfl := Option.some.inj held
        exact Nat.lt_succ_self _
    next cancelled =>
      refine ⟨single.lost, single.one, fun h lock held hlock => ?_, fun lock held => ?_⟩
      · obtain ⟨new, other⟩ := mem_released.mp hlock
        obtain rfl | before := List.mem_cons.mp new
        · exact other rfl
        · exact single.free h lock held before
      · exact Nat.lt_succ_of_lt (single.fresh lock held)

theorem Single.settled (single : p.Single) {i : Nat} {round : Nat} (hi : p.requests[i]? = some round)
    (granted : Bool) : (Page.acquired { p with requests := p.requests.eraseIdx i } round granted).Single := by
  refine single.take.acquired (fun current => ?_) granted
  have counts := take_underWay hi
  have one := single.one
  rw [if_pos (show p.site.taken = some round from current)] at counts
  exact ⟨by omega, single.free (by omega)⟩

theorem Single.step (single : p.Single) (good : p.Good) {event : Event} (prompt : p.Prompt event) :
    (p.step event).Single := by
  unfold Page.step
  split
  next => exact single.commit good _
  next => exact single.commit good _
  next => exact single.commit good _
  next => exact ⟨single.lost, single.one, fun _ _ _ => List.not_mem_nil, single.fresh⟩
  next screen =>
    split
    next hidden =>
      have shown : Single { p with hidden := false } := ⟨single.lost, single.one, single.free, single.fresh⟩
      dsimp only
      split
      next playing =>
        refine shown.request prompt fun lock _ => ?_
        rw [good.hidden hidden]
        exact List.not_mem_nil
      next => exact shown
    next => exact single
  next screen i granted =>
    split
    next round hi => exact single.settled hi granted
    next => exact single
  next => exact single

theorem run_single {events : List Event} (prompt : start.PromptRun events) : (run events).Single := by
  have keeps : ∀ {p : Page} {events : List Event}, p.Good → p.Single → p.PromptRun events →
      (events.foldl step p).Single := by
    intro p events good single prompt
    induction events generalizing p with
    | nil => exact single
    | cons event events ih => exact ih (good.step event) (single.step good prompt.1) prompt.2
  exact keeps (run_good []) ⟨rfl, Nat.zero_le 1, nofun, nofun⟩ prompt

/-- An active lock is the one a playing show holds, or another has taken its place while it was active. That
never happens as long as the page is only shown again when no request of the run that is on is under way:
then a show that is paused or left holds no lock, whatever is still under way. -/
theorem locks_released (events : List Event) :
    (∀ lock ∈ (run events).active,
      ((run events).sentinel = some lock ∧ (run events).site.screen = some true) ∨ lock ∈ (run events).lost) ∧
    (start.PromptRun events → (run events).lost = [] ∧
      ((run events).site.screen ≠ some true → (run events).active = [])) := by
  have good := run_good events
  have accounted : ∀ lock ∈ (run events).active,
      ((run events).sentinel = some lock ∧ (run events).site.screen = some true) ∨
        lock ∈ (run events).lost :=
    fun lock hlock => (good.active lock hlock).imp_left fun held => ⟨held, good.sentinel (by simp [held])⟩
  refine ⟨accounted, fun prompt => ?_⟩
  have lost := (run_single prompt).lost
  refine ⟨lost, fun idle => List.eq_nil_iff_forall_not_mem.mpr fun lock hlock => ?_⟩
  obtain ⟨-, playing⟩ | gone := accounted lock hlock
  · exact idle playing
  · simp [lost] at gone

theorem locks_released_sample :
    (run [.mount, .hide, .settled 0 true, .visible, .settled 0 true, .toggle]).active = [] := by
  refine ((locks_released _).2 ?_).2 (by decide)
  refine ⟨trivial, trivial, trivial, ?_, trivial, trivial, trivial⟩
  intro _ h
  cases h

-- Where the first request outlasts the time that the page is hidden, its lock stays when the show is left.
example : (run [.mount, .hide, .visible, .settled 0 true, .settled 0 true, .unmount]).active = [0] := by decide

end Page

end WakeLock

end ItalyTrip
