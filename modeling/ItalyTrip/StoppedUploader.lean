import ItalyTrip.PageTimers

namespace ItalyTrip

open Calls

/-- The uploaders of all tabs, and the timers of one page that are armed. -/
structure TimedPool where
  pool : UploadPool
  sweeps : List Nat
  retries : List Nat

/-- What happens in the browser, or an armed timer fires. -/
inductive TimedAction where
  | pool (a : UploadAction)
  | fires (timer rounds : Nat)

namespace TimedPool

/-- No timer is armed where a page is loaded. -/
def load (b : Browser) : TimedPool := ⟨⟨.start b, []⟩, [], []⟩

variable (localeLE : String → String → Bool) (tab : Nat) (s : TimedPool)

def page : Page := ⟨(s.pool.world.browser.tabs tab).fields, s.sweeps, s.retries⟩

/-- The page after an action, but for what the environment does to its fields. -/
def armed (a : UploadAction) : Page :=
  match s.pool.exchanged (uploaders localeLE) a with
  | some e =>
    if e.task.tab = tab then Page.after localeLE e.past e.call e.reply (s.page tab) else s.page tab
  | none => s.page tab

/-- A timer fires between two segments of its page. A timeout has then fired, an interval stays armed. -/
def step : TimedAction → TimedPool
  | .pool a =>
    ⟨s.pool.step (uploaders localeLE) a, (s.armed localeLE tab a).sweeps, (s.armed localeLE tab a).retries⟩
  | .fires timer rounds =>
    if Pool.free (uploaders localeLE) s.pool.threads (.drain tab rounds) then
      if timer ∈ s.retries then
        ⟨s.pool.step (uploaders localeLE) (.arrive (.retryTimer tab rounds)), s.sweeps,
          s.retries.filter (· != timer)⟩
      else if timer ∈ s.sweeps then
        { s with pool := s.pool.step (uploaders localeLE) (.arrive (.drain tab rounds)) }
      else s
    else s

def exec (actions : List TimedAction) : TimedPool := actions.foldl (step localeLE tab) s

/-- Every step of the run meets the condition. -/
def Throughout (may : TimedPool → TimedAction → Bool) : TimedPool → List TimedAction → Prop
  | _, [] => True
  | s, a :: as => may s a = true ∧ Throughout may (s.step localeLE tab a) as

instance decidableThroughout (may : TimedPool → TimedAction → Bool) :
    (s : TimedPool) → (actions : List TimedAction) → Decidable (Throughout localeLE tab may s actions)
  | _, [] => isTrue trivial
  | s, a :: as =>
    have : Decidable (Throughout localeLE tab may (s.step localeLE tab a) as) := decidableThroughout may _ as
    inferInstanceAs (Decidable (_ ∧ _))

/-- The page stays loaded, and its retry timers fire only as they are armed. -/
def onePage (s : TimedPool) : TimedAction → Bool
  | .pool (.arrive (.retryTimer n _)) => n != tab
  | .pool (.env (.reload n)) => n != tab
  | .pool (.kill i) => s.pool.threads[i]?.all (·.task.tab != tab)
  | _ => true

/-- `scheduleNextRetry` finds an item to wait for only while the uploader is started. -/
def waitsStarted (s : TimedPool) : TimedAction → Bool
  | .pool a =>
    match s.pool.exchanged (uploaders localeLE) a with
    | some ⟨task, past, .idbGetAll, .ok items, _⟩ =>
      task.tab != tab || !testedLast past || items.all (·.failed) || (s.page tab).fields.started
    | _ => true
  | .fires _ _ => true

/-- No script of the page is in a segment. -/
def AtRest : Prop :=
  ∀ u ∈ s.pool.threads, u.task.tab = tab → u.midSegment (uploaders localeLE) = false

instance : Decidable (s.AtRest localeLE tab) :=
  inferInstanceAs (Decidable (∀ u ∈ s.pool.threads, u.task.tab = tab → _))

variable {localeLE tab s}

/-- What holds first and after each step that meets the condition holds of the run. -/
theorem throughout_induction {may : TimedPool → TimedAction → Bool} {P : TimedPool → Prop}
    (step : ∀ s a, P s → may s a = true → P (s.step localeLE tab a)) {actions : List TimedAction}
    (init : P s) (run : Throughout localeLE tab may s actions) : P (s.exec localeLE tab actions) := by
  induction actions generalizing s with
  | nil => exact init
  | cons a as ih => exact ih (step s a init run.1) run.2

/-- The page's threads keep the discipline, and where one reads the queue for a timer it runs the drain and no
retry timer is named. -/
structure Timed (localeLE : String → String → Bool) (tab : Nat) (s : TimedPool) : Prop where
  exclusive : Exclusive localeLE tab s.pool
  segmented : Segmented (pageTimers localeLE) (uploaders localeLE) tab s.pool.threads (s.page tab)
  arming : ∀ u ∈ s.pool.threads, u.task.tab = tab → u.pending = some .idbGetAll →
    testedLast u.past = true →
    (look localeLE u.past).promise ≠ none ∧ (s.page tab).fields.retryTimer = none

theorem timed_init {b : Browser} (fresh : (b.tabs tab).fields = .initial) :
    Timed localeLE tab (load b) := by
  refine ⟨exclusive_init, segmented_init ⟨nofun, nofun, fun _ => ?_⟩, nofun⟩
  change ((b.tabs tab).fields.sweepTimer = none ∧ (b.tabs tab).fields.retryTimer = none)
  rw [fresh]
  exact ⟨rfl, rfl⟩

end TimedPool

/-- What a task of the page makes of its fields. -/
theorem uploads_page {localeLE : String → String → Bool} {w w' : UploadWorld} {o : UploadChoice}
    {c : UploadCall} {r : UploadReply c} {tab : Nat} {t : UploadTask} {v : View}
    (h : w.perform o c = some (r, w')) (allowed : Allowed t v c) (own : t.tab = tab)
    (past : Past UploadReply) (sweeps retries : List Nat) :
    (w'.browser.tabs tab).fields =
      (Page.after localeLE past c r ⟨(w.browser.tabs tab).fields, sweeps, retries⟩).fields := by
  have frame := uploads_frame h
  have same : (∀ n values, c ≠ .setFields n values) → (∀ n, c ≠ .beginDrain n) → (∀ n, c ≠ .endDrain n) →
      (w'.browser.tabs tab).fields = (w.browser.tabs tab).fields := by
    intro set begins ends
    rw [frame.tabs set begins ends]
  cases c with
  | setFields n values =>
    obtain rfl : n = tab := allowed.1.trans own
    cases h
    exact congrArg Tab.fields (if_pos rfl)
  | beginDrain n =>
    obtain rfl : n = tab := allowed.1.trans own
    exact (uploads_begin h).2.2.2
  | endDrain n =>
    obtain rfl : n = tab := allowed.1.trans own
    cases h
    exact congrArg Tab.fields (if_pos rfl)
  | setTimer delay =>
    rw [Page.after_setTimer]
    exact same nofun nofun nofun
  | _ => exact same nofun nofun nofun

namespace TimedPool

variable {localeLE : String → String → Bool} {tab : Nat} {s : TimedPool}

theorem step_page (a : UploadAction) : (s.step localeLE tab (.pool a)).page tab =
    { s.armed localeLE tab a with
      fields := ((s.pool.step (uploaders localeLE) a).world.browser.tabs tab).fields } :=
  rfl

/-- An exchange of one of the page's tasks changes the page by its rules. -/
theorem page_exchange {i : Nat} {t : UploadTask} {past : Past UploadReply} {c : UploadCall}
    {next : UploadReply c → Prog UploadCall UploadReply (Except JsError Unit)} {o : UploadChoice}
    {r : UploadReply c} (h : Exclusive localeLE tab s.pool)
    (x : Pool.Exchange (uploaders localeLE) s.pool (s.pool.step (uploaders localeLE) (.act i o)) i t past c
      next o r) :
    (s.step localeLE tab (.pool (.act i o))).page tab =
      if t.tab = tab then Page.after localeLE past c r (s.page tab) else s.page tab := by
  have armed : s.armed localeLE tab (.act i o) =
      if t.tab = tab then Page.after localeLE past c r (s.page tab) else s.page tab := by
    unfold armed
    rw [x.exchanged]
  have performed : s.pool.world.perform o c =
      some (r, (s.pool.step (uploaders localeLE) (.act i o)).world) := x.performed
  rw [step_page, armed]
  by_cases own : t.tab = tab
  · rw [if_pos own, uploads_page performed (h.allowed x.mem) own past s.sweeps s.retries]
    rfl
  · rw [if_neg own, (uploads_apart performed (h.allowed x.mem) own).1]
    rfl

/-- An action without an exchange arms nothing. -/
theorem page_quiet {a : UploadAction} (none : s.pool.exchanged (uploaders localeLE) a = none)
    (fields : ((s.pool.step (uploaders localeLE) a).world.browser.tabs tab).fields =
      (s.pool.world.browser.tabs tab).fields) :
    (s.step localeLE tab (.pool a)).page tab = s.page tab := by
  have armed : s.armed localeLE tab a = s.page tab := by
    unfold armed
    rw [none]
  rw [step_page, armed, fields]
  rfl

/-- What is known where a reply to one of the page's tasks arrives. -/
theorem Timed.finds {i : Nat} {t : UploadTask} {past : Past UploadReply} {c : UploadCall}
    {next : UploadReply c → Prog UploadCall UploadReply (Except JsError Unit)} {o : UploadChoice}
    {r : UploadReply c} (h : Timed localeLE tab s)
    (x : Pool.Exchange (uploaders localeLE) s.pool (s.pool.step (uploaders localeLE) (.act i o)) i t past c
      next o r) (own : t.tab = tab) (waits : waitsStarted localeLE tab s (.pool (.act i o)) = true) :
    Page.Finds past c r (s.page tab) := by
  cases c with
  | idbGetAll =>
    cases r with
    | error m => trivial
    | ok items =>
      intro tested
      refine ⟨(h.arming _ x.mem own rfl tested).2, fun ⟨item, mem, unfailed⟩ => ?_⟩
      unfold waitsStarted at waits
      simp only [x.exchanged] at waits
      have found : items.all (·.failed) = false := by
        simpa using ⟨item, mem, unfailed⟩
      simpa [own, tested, found] using waits
  | _ => trivial

/-- A task of the page names no retry timer while another one of its tasks runs the drain. -/
theorem Timed.unnamed {i : Nat} {t : UploadTask} {past : Past UploadReply} {c : UploadCall}
    {next : UploadReply c → Prog UploadCall UploadReply (Except JsError Unit)} {o : UploadChoice}
    {r : UploadReply c} (h : Timed localeLE tab s)
    (x : Pool.Exchange (uploaders localeLE) s.pool (s.pool.step (uploaders localeLE) (.act i o)) i t past c
      next o r) (own : t.tab = tab) {j : Nat} {u : UploadThread} (other : j ≠ i)
    (hu : s.pool.threads[j]? = some u) (hown : u.task.tab = tab) (live : u.pending.isSome = true)
    (running : (look localeLE u.past).promise ≠ none) (clear : (s.page tab).fields.retryTimer = none) :
    (Page.after localeLE past c r (s.page tab)).fields.retryTimer = none := by
  cases c with
  | setFields n values =>
    have may := (h.segmented.moving _ x.mem own rfl _ rfl).1
    rcases may with none | same | runs
    · exact none
    · exact same.trans clear
    · obtain ⟨p, promise⟩ := Option.ne_none_iff_exists'.mp running
      obtain ⟨q, promise'⟩ := Option.ne_none_iff_exists'.mp runs
      exact absurd (h.exclusive.one j i u _ p q hu x.thread ⟨hown, live, promise⟩ ⟨own, rfl, promise'⟩) other
  | setTimer delay =>
    rw [Page.after_setTimer]
    exact clear
  | _ => exact clear

theorem Timed.exchange {i : Nat} {t : UploadTask} {past : Past UploadReply} {c : UploadCall}
    {next : UploadReply c → Prog UploadCall UploadReply (Except JsError Unit)} {o : UploadChoice}
    {r : UploadReply c} (h : Timed localeLE tab s)
    (x : Pool.Exchange (uploaders localeLE) s.pool (s.pool.step (uploaders localeLE) (.act i o)) i t past c
      next o r) (waits : waitsStarted localeLE tab s (.pool (.act i o)) = true) :
    Timed localeLE tab (s.step localeLE tab (.pool (.act i o))) := by
  have exclusive : Exclusive localeLE tab (s.pool.step (uploaders localeLE) (.act i o)) :=
    h.exclusive.step nofun
  have page := page_exchange h.exclusive x
  by_cases own : t.tab = tab
  · rw [if_pos own] at page
    have answers : c.sync = true → Page.Answers c r (s.page tab) := by
      intro _
      cases c with
      | fields n =>
        obtain rfl : n = tab := (h.exclusive.allowed x.mem).trans own
        have performed : s.pool.world.onBrowser o (.fields n) =
          some (r, (s.pool.step (uploaders localeLE) (.act i o)).world) := x.performed
        have read := (uploads_onBrowser performed).1
        exact (congrArg Prod.fst (Option.some.inj read)).symm
      | _ => trivial
    obtain ⟨segmented, keeps⟩ := h.segmented.exchange rfl x own answers fun _ => h.finds x own waits
    refine ⟨exclusive, page ▸ segmented, fun u hu hown pending tested => ?_⟩
    obtain ⟨j, hj⟩ := List.mem_iff_getElem?.mp hu
    rw [page]
    rcases x.at hj with ⟨_, rfl⟩ | ⟨ne, before⟩
    · exact arming_of_keeps keeps pending tested
    · obtain ⟨running, clear⟩ := h.arming u (List.mem_of_getElem? before) hown pending tested
      refine ⟨running, h.unnamed x own ne before hown ?_ running clear⟩
      rw [pending]
      rfl
  · rw [if_neg own] at page
    refine ⟨exclusive, page ▸ h.segmented.apart x own, fun u hu hown pending tested => ?_⟩
    rw [page]
    rcases x.mem_threads hu with rfl | before
    · exact absurd hown own
    · exact h.arming u before hown pending tested

/-- Where a task of the page may arrive, none of its scripts is in a segment. -/
theorem Timed.quiet {t : UploadTask} (h : Timed localeLE tab s) (own : t.tab = tab)
    (free : Pool.free (uploaders localeLE) s.pool.threads t = true) : (s.page tab).Quiet := by
  refine h.segmented.resting fun u hu hown => ?_
  have waits := List.all_eq_true.mp free u hu
  have hown : u.task.tab = tab := hown
  simpa [uploaders, own, hown] using waits

/-- A task arrives. Of the page's own, a retry timer does so only where no other is armed. -/
theorem Timed.arrive {t : UploadTask} {retries : List Nat} (h : Timed localeLE tab s)
    (free : Pool.free (uploaders localeLE) s.pool.threads t = true)
    (subset : ∀ timer ∈ retries, timer ∈ s.retries) (kept : t.tab ≠ tab → retries = s.retries)
    (fired : ∀ rounds, t = .retryTimer tab rounds → retries = []) :
    Timed localeLE tab ⟨s.pool.step (uploaders localeLE) (.arrive t), s.sweeps, retries⟩ := by
  have exclusive : Exclusive localeLE tab (s.pool.step (uploaders localeLE) (.arrive t)) :=
    h.exclusive.step nofun
  have arrived : s.pool.step (uploaders localeLE) (.arrive t) =
      ⟨s.pool.world, s.pool.threads ++ [⟨t, [], some ((uploaders localeLE).start t)⟩]⟩ := if_pos free
  rw [arrived] at exclusive ⊢
  refine ⟨exclusive, ?_, fun u hu hown pending tested => ?_⟩
  · by_cases own : t.tab = tab
    · have between := h.quiet own free
      have quiet : Page.Quiet ⟨(s.page tab).fields, s.sweeps, retries⟩ :=
        ⟨between.sweeps, fun timer armed => between.retries timer (subset timer armed), between.stopped⟩
      refine h.segmented.arrive rfl free own (script_runs t quiet fun n rounds same => ?_)
      subst same
      obtain rfl : n = tab := own
      exact fired rounds rfl
    · rw [kept own]
      exact h.segmented.arrive_apart own
  · rcases List.mem_append.mp hu with old | new
    · exact h.arming u old hown pending tested
    · obtain rfl := List.mem_singleton.mp new
      cases tested

theorem step_idle {a : UploadAction} (same : s.pool.step (uploaders localeLE) a = s.pool)
    (none : s.pool.exchanged (uploaders localeLE) a = none) : s.step localeLE tab (.pool a) = s := by
  have armed : s.armed localeLE tab a = s.page tab := by
    unfold armed
    rw [none]
  simp only [TimedPool.step, same, armed]
  rfl

theorem Timed.step {a : TimedAction} (h : Timed localeLE tab s) (page : onePage tab s a = true)
    (waits : waitsStarted localeLE tab s a = true) : Timed localeLE tab (s.step localeLE tab a) := by
  cases a with
  | fires timer rounds =>
    by_cases free : Pool.free (uploaders localeLE) s.pool.threads (.drain tab rounds) = true
    · simp only [TimedPool.step, if_pos free]
      by_cases retry : timer ∈ s.retries
      · rw [if_pos retry]
        refine h.arrive free (fun _ armed => (List.mem_filter.mp armed).1) (fun apart => absurd rfl apart) ?_
        intro _ _
        have between := h.quiet rfl free
        refine List.filter_eq_nil_iff.mpr fun other armed => ?_
        have named := (between.retries other armed).symm.trans (between.retries timer retry)
        simp [Option.some.inj named]
      · rw [if_neg retry]
        by_cases sweep : timer ∈ s.sweeps
        · rw [if_pos sweep]
          exact h.arrive free (fun _ armed => armed) (fun _ => rfl) nofun
        · rwa [if_neg sweep]
    · simp only [TimedPool.step, if_neg free]
      exact h
  | pool a =>
    cases a with
    | act i o =>
      rcases Pool.step_act (m := uploaders localeLE) s.pool i o with same | ⟨t, past, c, next, r, x⟩
      · cases made : s.pool.exchanged (uploaders localeLE) (.act i o) with
        | none => rwa [step_idle same made]
        | some e =>
          obtain ⟨j, choice, next, moves, x, _⟩ := Pool.exchanged_spec made
          cases moves
          exact h.exchange x waits
      · exact h.exchange x waits
    | arrive t =>
      by_cases free : Pool.free (uploaders localeLE) s.pool.threads t = true
      · refine h.arrive free (fun _ armed => armed) (fun _ => rfl) fun rounds same => ?_
        subst same
        simp [onePage] at page
      · have same : s.pool.step (uploaders localeLE) (.arrive t) = s.pool := if_neg free
        rwa [step_idle same rfl]
    | kill i =>
      rcases Pool.step_kill (m := uploaders localeLE) s.pool i with same | ⟨t, past, c, next, hi, same⟩
      · rwa [step_idle same rfl]
      · have apart : t.tab ≠ tab := by
          simpa [onePage, hi] using page
        have exclusive : Exclusive localeLE tab (s.pool.step (uploaders localeLE) (.kill i)) :=
          h.exclusive.step nofun
        have page' : (s.step localeLE tab (.pool (.kill i))).page tab = s.page tab :=
          page_quiet rfl (by rw [same])
        refine ⟨exclusive, ?_, fun u hu hown pending tested => ?_⟩
        · rw [page', show (s.step localeLE tab (.pool (.kill i))).pool = _ from same]
          exact h.segmented.set hi apart apart
        · rw [show (s.step localeLE tab (.pool (.kill i))).pool = _ from same] at hu
          rw [page']
          rcases List.mem_or_eq_of_mem_set hu with old | rfl
          · exact h.arming u old hown pending tested
          · exact absurd hown apart
    | env e =>
      have loaded : e ≠ .reload tab := by
        rintro rfl
        simp [onePage] at page
      have exclusive : Exclusive localeLE tab (s.pool.step (uploaders localeLE) (.env e)) :=
        h.exclusive.step fun same => absurd (Action.env.inj same) loaded
      have kept : (s.pool.world.browser.env e).tabs tab = s.pool.world.browser.tabs tab := by
        cases e with
        | reload n => exact if_neg fun same : tab = n => loaded (by rw [same])
        | tick ms => rfl
        | login token => rfl
      have page' : (s.step localeLE tab (.pool (.env e))).page tab = s.page tab :=
        page_quiet rfl (congrArg Tab.fields kept)
      refine ⟨exclusive, ?_, fun u hu hown pending tested => ?_⟩
      · rw [page']
        exact h.segmented
      · rw [page']
        exact h.arming u hu hown pending tested

theorem timed_run {b : Browser} {actions : List TimedAction} (fresh : (b.tabs tab).fields = .initial)
    (run : Throughout localeLE tab (fun s a => onePage tab s a && waitsStarted localeLE tab s a) (load b)
      actions) : Timed localeLE tab ((load b).exec localeLE tab actions) := by
  refine throughout_induction (fun s a timed may => ?_) (timed_init fresh) run
  obtain ⟨page, waits⟩ := Bool.and_eq_true_iff.mp may
  exact timed.step page waits

/-- In a page whose `scheduleNextRetry` finds something to wait for only while the uploader is started, no
timer is armed once it is stopped, and so none begins a drain. -/
theorem stopped_is_silent {b : Browser} {actions : List TimedAction}
    (fresh : (b.tabs tab).fields = .initial)
    (run : Throughout localeLE tab (fun s a => onePage tab s a && waitsStarted localeLE tab s a) (load b)
      actions)
    (stopped : (((load b).exec localeLE tab actions).page tab).fields.started = false)
    (rest : ((load b).exec localeLE tab actions).AtRest localeLE tab) :
    ((load b).exec localeLE tab actions).sweeps = [] ∧
      ((load b).exec localeLE tab actions).retries = [] ∧ ∀ timer rounds,
        ((load b).exec localeLE tab actions).step localeLE tab (.fires timer rounds) =
          (load b).exec localeLE tab actions := by
  have quiet := (timed_run fresh run).segmented.resting rest
  generalize (load b).exec localeLE tab actions = s at stopped quiet ⊢
  obtain ⟨noSweep, noRetry⟩ := quiet.stopped stopped
  have sweeps : s.sweeps = [] := by
    refine List.eq_nil_iff_forall_not_mem.mpr fun timer armed => ?_
    cases noSweep.symm.trans (quiet.sweeps timer armed)
  have retries : s.retries = [] := by
    refine List.eq_nil_iff_forall_not_mem.mpr fun timer armed => ?_
    cases noRetry.symm.trans (quiet.retries timer armed)
  refine ⟨sweeps, retries, fun timer rounds => ?_⟩
  simp [TimedPool.step, sweeps, retries]

section Sample

private def sampleBound : Browser := { sampleBrowser "user" with store := [sampleItem "a" "08:00"] }

/-- The uploader is started and its upload fails. It is then about to look for what to wait for. -/
private def sampleStumbles : List UploadAction :=
  .arrive (.start 0 2) :: sampleActs 0 19 (.error (.other "Failed to fetch"))

private def sampleFinish : List UploadAction := sampleActs 0 8 (.ok none)

/-- It is stopped when the drain is over. -/
private def sampleQuits : List TimedAction :=
  (sampleStumbles ++ sampleFinish ++ .arrive (.stop 0) :: sampleActs 1 4 (.ok none)).map .pool

/-- It is stopped while `scheduleNextRetry` waits for the queue. -/
private def sampleStops : List TimedAction :=
  (sampleStumbles ++ .arrive (.stop 0) :: sampleActs 1 3 (.ok none) ++ sampleFinish).map .pool

theorem stopped_is_silent_sample :
    ((load sampleBound).exec (fun x y => decide (x ≤ y)) 0 sampleQuits).sweeps = [] ∧
      ((load sampleBound).exec (fun x y => decide (x ≤ y)) 0 sampleQuits).retries = [] ∧ ∀ timer rounds,
        ((load sampleBound).exec (fun x y => decide (x ≤ y)) 0 sampleQuits).step
          (fun x y => decide (x ≤ y)) 0 (.fires timer rounds) =
            (load sampleBound).exec (fun x y => decide (x ≤ y)) 0 sampleQuits :=
  stopped_is_silent rfl (by decide +kernel) (by decide +kernel) (by decide +kernel)

/-- The timer of an uploader that is stopped while its drain looks for something to wait for is armed all the
same, and wakes it. -/
theorem stopped_may_wake :
    Throughout (fun x y => decide (x ≤ y)) 0 (onePage 0) (load sampleBound) sampleStops ∧
      ((load sampleBound).exec (fun x y => decide (x ≤ y)) 0 sampleStops).AtRest
        (fun x y => decide (x ≤ y)) 0 ∧
      (((load sampleBound).exec (fun x y => decide (x ≤ y)) 0 sampleStops).page 0).fields.started = false ∧
      ((load sampleBound).exec (fun x y => decide (x ≤ y)) 0 sampleStops).retries = [1] ∧
      (((load sampleBound).exec (fun x y => decide (x ≤ y)) 0 sampleStops).step
        (fun x y => decide (x ≤ y)) 0 (.fires 1 2)).pool.threads.length = 3 := by
  decide +kernel

end Sample

end TimedPool

end ItalyTrip
