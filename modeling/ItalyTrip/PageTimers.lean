import ItalyTrip.DrainExclusive
import ItalyTrip.Segments

namespace ItalyTrip

open Calls

/-- The fields of a tab's uploader, and its timers that are armed: intervals and timeouts. -/
structure Page where
  fields : Fields
  sweeps : List Nat
  retries : List Nat

/-- The latest call has read the fields. At `queue.all()` this is so only in `scheduleNextRetry`. -/
def testedLast : Past UploadReply → Bool
  | ⟨.fields _, _⟩ :: _ => true
  | _ => false

namespace Page

/-- What an exchange of one of its tasks makes of a page: `start` sets its interval before its drain begins,
and only the end of a drain sets a timeout. -/
def after (localeLE : String → String → Bool) (past : Past UploadReply) :
    (c : UploadCall) → UploadReply c → Page → Page
  | .setFields _ values, _, g => { g with fields := values }
  | .beginDrain _, _, g => { g with fields := { g.fields with draining := true } }
  | .endDrain _, _, g => { g with fields := { g.fields with draining := false } }
  | .setTimer _, timer, g =>
    if (look localeLE past).promise = none then { g with sweeps := timer :: g.sweeps }
    else { g with retries := timer :: g.retries }
  | .clearTimer timer, _, g =>
    { g with sweeps := g.sweeps.filter (· != timer), retries := g.retries.filter (· != timer) }
  | _, _, g => g

theorem after_setTimer {localeLE : String → String → Bool} {past : Past UploadReply} {delay : Int}
    {timer : Nat} {g : Page} :
    (after localeLE past (.setTimer delay) timer g).fields = g.fields := by
  change (if (look localeLE past).promise = none then { g with sweeps := timer :: g.sweeps }
    else { g with retries := timer :: g.retries }).fields = g.fields
  split <;> rfl

def Answers : (c : UploadCall) → UploadReply c → Page → Prop
  | .fields _, values, g => values = g.fields
  | _, _, _ => True

/-- Only a drain arms the retry timer, and while its `scheduleNextRetry` waits for the queue there is none. -/
def May (localeLE : String → String → Bool) (past : Past UploadReply) : UploadCall → Page → Prop
  | .setFields _ values, g => values.retryTimer = none ∨ values.retryTimer = g.fields.retryTimer ∨
      (look localeLE past).promise ≠ none
  | .idbGetAll, g => testedLast past = true →
      (look localeLE past).promise ≠ none ∧ g.fields.retryTimer = none
  | _, _ => True

/-- Where no segment runs, the fields name all timers that are armed, and there are none once stopped. -/
structure Quiet (g : Page) : Prop where
  sweeps : ∀ timer ∈ g.sweeps, g.fields.sweepTimer = some timer
  retries : ∀ timer ∈ g.retries, g.fields.retryTimer = some timer
  stopped : g.fields.started = false → g.fields.sweepTimer = none ∧ g.fields.retryTimer = none

/-- `scheduleNextRetry` finds something to wait for only while the uploader is started. -/
def Finds (past : Past UploadReply) : (c : UploadCall) → UploadReply c → Page → Prop
  | .idbGetAll, .ok items, g => testedLast past = true → g.fields.retryTimer = none ∧
      ((∃ item ∈ items, item.failed = false) → g.fields.started = true)
  | _, _, _ => True

end Page

def pageTimers (localeLE : String → String → Bool) : Discipline UploadCall UploadReply Page where
  sync := UploadCall.sync
  answers := Page.Answers
  change := Page.after localeLE
  allowed := Page.May localeLE
  rest := Page.Quiet
  rely := Page.Finds

namespace UploaderClass

variable {localeLE : String → String → Bool} {tab : Nat} {past : Past UploadReply} {α β : Type} {g : Page}

abbrev Runs (localeLE : String → String → Bool) (x : UploadScript α) (past : Past UploadReply) (g : Page)
    (post : Past UploadReply → Except JsError α → Page → Prop) : Prop :=
  x.run.Keeps (pageTimers localeLE) post past g

theorem Runs.bind {x : UploadScript α} {f : α → UploadScript β}
    {mid : Past UploadReply → Except JsError α → Page → Prop}
    {post : Past UploadReply → Except JsError β → Page → Prop} (h : Runs localeLE x past g mid)
    (next : ∀ a past g, mid past (.ok a) g → Runs localeLE (f a) past g post)
    (failed : ∀ e past g, mid past (.error e) g → post past (.error e) g) :
    Runs localeLE (x >>= f) past g post := by
  refine keeps_run_bind (h.mono fun past r g hr => ?_)
  cases r with
  | ok a => exact next a past g hr
  | error e => exact failed e past g hr

/-- A call that touches neither the fields nor a timer. -/
def Plain (past : Past UploadReply) : UploadCall → Prop
  | .setFields _ _ | .beginDrain _ | .endDrain _ | .setTimer _ | .clearTimer _ => False
  | .idbGetAll => testedLast past = false
  | _ => True

theorem plain_call {c : UploadCall} {f : UploadReply c → UploadScript β}
    {post : Past UploadReply → Except JsError β → Page → Prop} (plain : Plain past c) (quiet : g.Quiet)
    (next : ∀ r g, g.Quiet → Runs localeLE (f r) (⟨c, r⟩ :: past) g post) :
    Runs localeLE (await c >>= f) past g post := by
  have may : Page.May localeLE past c g := by
    cases c <;> simp_all [Page.May, Plain]
  have same : ∀ r g, Page.after localeLE past c r g = g := by
    intro r g
    cases c <;> first | rfl | exact absurd plain id
  refine keeps_run_bind (keeps_request may ?_ ?_)
  · intro _ r _
    change (f r).run.Keeps _ _ _ (Page.after localeLE past c r g)
    rw [same]
    exact next r g quiet
  · intro _
    refine ⟨quiet, fun g' r quiet' _ => ?_⟩
    change (f r).run.Keeps _ _ _ (Page.after localeLE past c r g')
    rw [same]
    exact next r g' quiet'

/-- The segment goes on. -/
theorem within_call {c : UploadCall} {f : UploadReply c → UploadScript β}
    {post : Past UploadReply → Except JsError β → Page → Prop} (sync : c.sync = true)
    (may : Page.May localeLE past c g)
    (next : ∀ r, Page.Answers c r g →
      Runs localeLE (f r) (⟨c, r⟩ :: past) (Page.after localeLE past c r g) post) :
    Runs localeLE (await c >>= f) past g post := by
  refine keeps_run_bind (keeps_request may (fun _ r answers => next r answers) fun waits => ?_)
  rw [show (pageTimers localeLE).sync c = true from sync] at waits
  cases waits

/-- Nothing is armed or disarmed, and the queue was not read for a timer last. -/
structure Calm (localeLE : String → String → Bool) (past past' : Past UploadReply) (g : Page) : Prop where
  quiet : g.Quiet
  promise : (look localeLE past').promise = (look localeLE past).promise
  untested : testedLast past' = false

theorem Calm.trans {past past' past'' : Past UploadReply} {g g' : Page}
    (h : Calm localeLE past past' g) (h' : Calm localeLE past' past'' g') :
    Calm localeLE past past'' g' :=
  ⟨h'.quiet, h'.promise.trans h.promise, h'.untested⟩

/-- A part of a script that is calm, however it ends. -/
def Calms (localeLE : String → String → Bool) (x : UploadScript α) (past : Past UploadReply) : Prop :=
  testedLast past = false → ∀ g : Page, g.Quiet →
    Runs localeLE x past g fun past' _ g' => Calm localeLE past past' g'

theorem Calms.bind {x : UploadScript α} {f : α → UploadScript β} (h : Calms localeLE x past)
    (next : ∀ a past', Calms localeLE (f a) past') : Calms localeLE (x >>= f) past := by
  intro untested g quiet
  refine (h untested g quiet).bind (fun a past' g' calm => ?_) fun e past' g' calm => calm
  refine (next a past' calm.untested g' calm.quiet).mono fun past'' r g'' calm' => ?_
  exact calm.trans calm'

theorem calms_done (r : Except JsError α) (x : UploadScript α) (done : x.run = pure r) :
    Calms localeLE x past := by
  intro untested g quiet
  unfold Runs
  rw [done]
  exact ⟨quiet, rfl, untested⟩

theorem calms_attempt {x : UploadScript α} (h : Calms localeLE x past) :
    Calms localeLE (attempt x) past := by
  intro untested g quiet
  exact keeps_attempt ((h untested g quiet).mono fun _ _ _ calm => calm)

theorem calms_orThrow {γ : Type} (x : Except γ α) (f : γ → JsError) :
    Calms localeLE (orThrow x f) past := by
  cases x with
  | ok a => exact calms_done (.ok a) _ rfl
  | error e => exact calms_done (.error (f e)) _ rfl

theorem calms_call {c : UploadCall} {f : UploadReply c → UploadScript β}
    (plain : testedLast past = false → Plain past c) (unread : ∀ n, c ≠ .fields n)
    (next : ∀ r, Calms localeLE (f r) (⟨c, r⟩ :: past)) : Calms localeLE (await c >>= f) past := by
  intro untested g quiet
  refine plain_call (plain untested) quiet fun r g' quiet' => ?_
  have untested' : testedLast (⟨c, r⟩ :: past) = false := by
    cases c with
    | fields n => exact absurd rfl (unread n)
    | _ => rfl
  have promise : (look localeLE (⟨c, r⟩ :: past)).promise = (look localeLE past).promise := by
    refine look_promise (fun n same => ?_) fun n same => ?_
    · subst same
      exact (plain untested).elim
    · subst same
      exact (plain untested).elim
  refine (next r untested' g' quiet').mono fun past'' _ g'' calm => ?_
  exact ⟨calm.quiet, calm.promise.trans promise, calm.untested⟩

/-- The fields are written over those that were read, and name the same timers. -/
theorem setFields_runs {f : Fields → Fields} (started : ∀ s, (f s).started = s.started)
    (sweep : ∀ s, (f s).sweepTimer = s.sweepTimer) (retry : ∀ s, (f s).retryTimer = s.retryTimer)
    (quiet : g.Quiet) :
    Runs localeLE (setFields tab f) past g fun past' _ g' => Calm localeLE past past' g' := by
  refine within_call rfl trivial fun values answers => ?_
  obtain rfl : values = g.fields := answers
  refine keeps_request (Or.inr (Or.inl (retry _))) (fun _ _ _ => ⟨⟨?_, ?_, ?_⟩, rfl, rfl⟩) nofun
  · intro timer armed
    exact (sweep g.fields).trans (quiet.sweeps timer armed)
  · intro timer armed
    exact (retry g.fields).trans (quiet.retries timer armed)
  · intro stopped
    have none := quiet.stopped ((started g.fields).symm.trans stopped)
    exact ⟨(sweep g.fields).trans none.1, (retry g.fields).trans none.2⟩

theorem setFields_calms {f : Fields → Fields} (started : ∀ s, (f s).started = s.started)
    (sweep : ∀ s, (f s).sweepTimer = s.sweepTimer) (retry : ∀ s, (f s).retryTimer = s.retryTimer) :
    Calms localeLE (setFields tab f) past :=
  fun _ _ quiet => setFields_runs started sweep retry quiet

theorem put_calms (item : PendingPhoto) : Calms localeLE (put item) past :=
  calms_call (fun _ => trivial) nofun fun r => calms_orThrow r _

theorem remove_calms (clientId : String) : Calms localeLE (remove clientId) past :=
  calms_call (fun _ => trivial) nofun fun r => calms_orThrow r _

theorem all_calms : Calms localeLE all past :=
  calms_call (fun untested => untested) nofun fun r => calms_orThrow r _

theorem refreshCounts_calms : Calms localeLE (refreshCounts tab) past := by
  refine (all_calms.bind fun items _ => ?_ : Calms localeLE counts past).bind fun counted _ => ?_
  · exact calms_done (.ok _) _ rfl
  · exact setFields_calms (fun _ => rfl) (fun _ => rfl) fun _ => rfl

theorem handleFailure_calms (item : PendingPhoto) (error : JsError) :
    Calms localeLE (handleFailure tab item error) past := by
  have retryLater : ∀ new : Int → PendingPhoto,
      Calms localeLE (do let now ← await .now; put (new now)) past := by
    intro new
    exact calms_call (fun _ => trivial) nofun fun now => put_calms _
  cases error with
  | other message => exact retryLater _
  | api e =>
    unfold handleFailure
    dsimp only
    split
    · refine (remove_calms _).bind fun _ _ => ?_
      exact setFields_calms (fun _ => rfl) (fun _ => rfl) fun _ => rfl
    · split
      · exact put_calms _
      · exact retryLater _

theorem send_calms (item : PendingPhoto) : Calms localeLE (send tab item) past := by
  have uploads : Calms localeLE (do let _ ← upload tab (inputOf item); remove item.clientId) past := by
    refine Calms.bind ?_ fun _ _ => remove_calms _
    refine calms_call (fun _ => trivial) nofun fun _ => ?_
    exact calms_call (fun _ => trivial) nofun fun answer => calms_orThrow answer _
  refine (calms_attempt uploads).bind fun sent _ => ?_
  cases sent with
  | ok _ => exact calms_done (.ok ()) _ rfl
  | error error => exact handleFailure_calms item error

theorem sendAll_calms (items : List PendingPhoto) : Calms localeLE (sendAll tab items) past := by
  induction items generalizing past with
  | nil => exact calms_done (.ok ()) _ rfl
  | cons item items ih => exact (send_calms item).bind fun _ _ => ih

theorem drainLoop_calms (rounds : Nat) : Calms localeLE (drainLoop localeLE tab rounds) past := by
  induction rounds generalizing past with
  | zero => exact calms_call (fun _ => trivial) nofun fun never => never.elim
  | succ rounds ih =>
    have reset : Calms localeLE (setFields tab fun s => { s with again := false }) past :=
      setFields_calms (fun _ => rfl) (fun _ => rfl) fun _ => rfl
    refine reset.bind fun _ _ => calms_call (fun _ => trivial) nofun fun now => ?_
    refine (all_calms.bind fun items _ => calms_done (.ok _) _ rfl).bind fun items _ => ?_
    refine (sendAll_calms items).bind fun _ _ => calms_call (fun _ => trivial) nofun fun again => ?_
    cases again with
    | false => exact calms_done (.ok ()) _ rfl
    | true => exact ih

/-- The first thing `scheduleNextRetry` does is to clear the timer that was set last. -/
theorem cancelRetry_runs (quiet : g.Quiet) (running : (look localeLE past).promise ≠ none) :
    Runs localeLE (cancelRetry tab) past g fun past' r g' =>
      g'.Quiet ∧ (look localeLE past').promise ≠ none ∧ g'.fields.retryTimer = none ∧ r = .ok () := by
  refine within_call rfl trivial fun values answers => ?_
  obtain rfl : values = g.fields := answers
  cases armed : g.fields.retryTimer with
  | none => exact ⟨quiet, running, armed, rfl⟩
  | some timer =>
    refine within_call rfl trivial fun _ _ => ?_
    refine keeps_request (Or.inl rfl) (fun _ _ _ => ⟨⟨?_, ?_, ?_⟩, running, rfl, rfl⟩) nofun
    · intro sweep kept
      exact quiet.sweeps sweep (List.mem_filter.mp kept).1
    · intro retry kept
      obtain ⟨mem, ne⟩ := List.mem_filter.mp kept
      obtain rfl : timer = retry := Option.some.inj (armed.symm.trans (quiet.retries retry mem))
      simp at ne
    · exact fun stopped => ⟨(quiet.stopped stopped).1, rfl⟩

theorem wakeForFirst_runs {waiting : List PendingPhoto} (quiet : g.Quiet)
    (running : (look localeLE past).promise ≠ none) (clear : g.fields.retryTimer = none)
    (started : waiting ≠ [] → g.fields.started = true) :
    Runs localeLE (wakeForFirst tab waiting) past g fun past' _ g' =>
      g'.Quiet ∧ (look localeLE past').promise ≠ none := by
  unfold wakeForFirst
  cases first : (waiting.map (·.nextAttemptAt)).min? with
  | none => exact ⟨quiet, running⟩
  | some soonest =>
    have on : g.fields.started = true := by
      refine started ?_
      rintro rfl
      cases first
    have none : g.retries = [] := by
      refine List.eq_nil_iff_forall_not_mem.mpr fun timer armed => ?_
      have named := quiet.retries timer armed
      rw [clear] at named
      cases named
    refine within_call rfl trivial fun now _ => within_call rfl trivial fun timer _ => ?_
    have promise : (look localeLE (⟨.now, now⟩ :: past)).promise ≠ Option.none := by
      rwa [show (look localeLE (⟨.now, now⟩ :: past)).promise = (look localeLE past).promise from
        View.afterNow_promise _ _]
    have waits : Page.after localeLE (⟨.now, now⟩ :: past) (.setTimer (max 0 (soonest - now))) timer g =
        { g with retries := [timer] } := by
      rw [← none]
      exact if_neg promise
    change Runs localeLE _ _ (Page.after localeLE (⟨.now, now⟩ :: past) (.setTimer _) timer g) _
    rw [waits]
    refine within_call rfl trivial fun values answers => ?_
    obtain rfl : values = g.fields := answers
    refine keeps_request (Or.inr (Or.inr promise)) (fun _ _ _ => ⟨⟨quiet.sweeps, ?_, ?_⟩, promise⟩) nofun
    · intro retry armed
      exact congrArg some (List.mem_singleton.mp armed).symm
    · intro stopped
      cases on.symm.trans stopped

/-- Where it reads the queue for a timer there is none, and one is armed only if there is something to wait
for while the uploader is started. -/
theorem scheduleNextRetry_runs (quiet : g.Quiet) (running : (look localeLE past).promise ≠ none) :
    Runs localeLE (scheduleNextRetry tab) past g fun past' _ g' =>
      g'.Quiet ∧ (look localeLE past').promise ≠ none := by
  refine (cancelRetry_runs quiet running).bind (fun _ past₁ g₁ cleared => ?_) ?_
  · obtain ⟨quiet₁, running₁, none, _⟩ := cleared
    refine within_call rfl trivial fun values answers => ?_
    obtain rfl : values = g₁.fields := answers
    cases started : g₁.fields.started with
    | false => exact ⟨quiet₁, running₁⟩
    | true =>
      have rely : (pageTimers localeLE).sync .idbGetAll = false := rfl
      refine keeps_run_bind (keeps_run_bind (keeps_request (fun _ => ⟨running₁, none⟩) ?_ fun _ => ?_))
      · intro sync
        cases rely.symm.trans sync
      refine ⟨quiet₁, fun g₂ result quiet₂ finds => ?_⟩
      have running₂ : (look localeLE (⟨.idbGetAll, result⟩ :: ⟨.fields tab, g₁.fields⟩ :: past₁)).promise ≠
          Option.none := by
        rwa [show (look localeLE (⟨.idbGetAll, result⟩ :: ⟨.fields tab, g₁.fields⟩ :: past₁)).promise =
          (look localeLE past₁).promise from View.afterGetAll_promise _ _ _]
      cases result with
      | error m => exact ⟨quiet₂, running₂⟩
      | ok items =>
        obtain ⟨clear, on⟩ := finds rfl
        refine wakeForFirst_runs quiet₂ running₂ clear fun some => on ?_
        obtain ⟨item, mem⟩ := List.exists_mem_of_ne_nil _ some
        obtain ⟨mem, unfailed⟩ := List.mem_filter.mp mem
        exact ⟨item, mem, by simpa using unfailed⟩
  · rintro e past₁ g₁ ⟨_, _, _, failed⟩
    cases failed

theorem runDrain_runs {rounds : Nat} (quiet : g.Quiet) (running : (look localeLE past).promise ≠ none)
    (untested : testedLast past = false) :
    Runs localeLE (runDrain localeLE tab rounds) past g fun _ _ g' => g'.Quiet := by
  refine (calms_attempt (drainLoop_calms rounds) untested g quiet).bind (fun drained past₁ g₁ loops => ?_)
    fun e past₁ g₁ loops => loops.quiet
  refine (refreshCounts_calms loops.untested g₁ loops.quiet).bind (fun _ past₂ g₂ counts => ?_)
    fun e past₂ g₂ counts => counts.quiet
  have running₂ : (look localeLE past₂).promise ≠ none := by
    rwa [counts.promise, loops.promise]
  refine (scheduleNextRetry_runs counts.quiet running₂).bind (fun _ past₃ g₃ waits => ?_)
    fun e past₃ g₃ waits => waits.1
  exact keeps_orThrow waits.1

theorem drain_runs {rounds : Nat} (quiet : g.Quiet) :
    Runs localeLE (drain localeLE tab rounds) past g fun _ _ g' => g'.Quiet := by
  refine within_call rfl trivial fun values answers => ?_
  obtain rfl : values = g.fields := answers
  cases draining : g.fields.draining with
  | true =>
    have asks : Runs localeLE (setFields tab fun s => { s with again := true })
        (⟨.fields tab, g.fields⟩ :: past) g fun past' _ g' => Calm localeLE _ past' g' :=
      setFields_runs (fun _ => rfl) (fun _ => rfl) (fun _ => rfl) quiet
    refine asks.bind (fun _ past₁ g₁ calm => ?_) fun e past₁ g₁ calm => calm.quiet
    exact plain_call trivial calm.quiet fun p g₂ quiet₂ => quiet₂
  | false =>
    refine within_call rfl trivial fun p _ => ?_
    have begun : Page.Quiet { g with fields := { g.fields with draining := true } } :=
      ⟨quiet.sweeps, quiet.retries, quiet.stopped⟩
    have runs := @runDrain_runs localeLE tab (⟨.beginDrain tab, p⟩ :: ⟨.fields tab, g.fields⟩ :: past) _ rounds
      begun (Option.some_ne_none p) rfl
    have tried : Runs localeLE (attempt (runDrain localeLE tab rounds)) _ _ fun _ _ g' => g'.Quiet :=
      keeps_attempt runs
    refine tried.bind (fun drained past₁ g₁ quiet₁ => ?_) fun e past₁ g₁ quiet₁ => quiet₁
    refine within_call rfl trivial fun _ _ => plain_call trivial quiet₁ fun _ g₂ quiet₂ => ?_
    exact within_call rfl trivial fun _ _ =>
      keeps_orThrow ⟨quiet₂.sweeps, quiet₂.retries, quiet₂.stopped⟩

/-- `start` sets its interval where there is none. -/
theorem start_runs {rounds : Nat} (quiet : g.Quiet) :
    Runs localeLE (start localeLE tab rounds) [] g fun _ _ g' => g'.Quiet := by
  refine within_call rfl trivial fun values answers => ?_
  obtain rfl : values = g.fields := answers
  cases started : g.fields.started with
  | true => exact quiet
  | false =>
    obtain ⟨noSweep, noRetry⟩ := quiet.stopped started
    refine within_call rfl trivial fun timer _ => within_call rfl (Or.inr (Or.inl rfl)) fun _ _ => ?_
    refine drain_runs ⟨fun sweep armed => ?_, fun retry armed => quiet.retries retry armed, fun stopped => ?_⟩
    · rcases List.mem_cons.mp armed with rfl | old
      · rfl
      · cases noSweep.symm.trans (quiet.sweeps sweep old)
    · cases stopped

theorem clearTimer_runs (timer : Option Nat) :
    Runs localeLE (clearTimer timer) past g fun _ r g' => r = .ok () ∧ g'.fields = g.fields ∧
      g'.sweeps = g.sweeps.filter (some · != timer) ∧ g'.retries = g.retries.filter (some · != timer) := by
  cases timer with
  | none =>
    have all : ∀ xs : List Nat, xs = xs.filter (some · != none) := by
      intro xs
      exact (List.filter_eq_self.mpr fun _ _ => rfl).symm
    exact ⟨rfl, rfl, all g.sweeps, all g.retries⟩
  | some timer =>
    refine keeps_request trivial (fun _ _ _ => ⟨rfl, rfl, ?_, ?_⟩) nofun
    · exact List.filter_congr fun x _ => by simp [bne]
    · exact List.filter_congr fun x _ => by simp [bne]

/-- `stop` clears all timers that are armed. -/
theorem stop_runs (quiet : g.Quiet) : Runs localeLE (stop tab) [] g fun _ _ g' => g'.Quiet := by
  refine within_call rfl trivial fun values answers => ?_
  obtain rfl : values = g.fields := answers
  cases started : g.fields.started with
  | false => exact quiet
  | true =>
    refine (clearTimer_runs g.fields.sweepTimer).bind (fun _ past₁ g₁ swept => ?_) ?_
    · obtain ⟨_, fields₁, sweeps₁, retries₁⟩ := swept
      refine (clearTimer_runs g.fields.retryTimer).bind (fun _ past₂ g₂ cleared => ?_) ?_
      · obtain ⟨_, fields₂, sweeps₂, retries₂⟩ := cleared
        refine keeps_request (Or.inl rfl) (fun _ _ _ => ⟨fun timer armed => ?_, fun timer armed => ?_, ?_⟩) nofun
        · have armed : timer ∈ g₂.sweeps := armed
          rw [sweeps₂, sweeps₁, List.mem_filter, List.mem_filter] at armed
          simp [quiet.sweeps timer armed.1.1] at armed
        · have armed : timer ∈ g₂.retries := armed
          rw [retries₂, List.mem_filter, retries₁, List.mem_filter] at armed
          simp [quiet.retries timer armed.1.1] at armed
        · exact fun _ => ⟨rfl, rfl⟩
      · rintro e past₂ g₂ ⟨failed, _⟩
        cases failed
    · rintro e past₁ g₁ ⟨failed, _⟩
      cases failed

end UploaderClass

/-- Every script keeps the timers of its page; a retry timer fires when no other is armed. -/
theorem script_runs (task : UploadTask) (quiet : g.Quiet)
    (fired : ∀ n rounds, task = .retryTimer n rounds → g.retries = []) :
    UploaderClass.Runs localeLE (task.script localeLE) [] g fun _ _ g' => g'.Quiet := by
  cases task with
  | enqueue n rounds item =>
    have stores : UploaderClass.Calms localeLE (UploaderClass.queueEnqueue item) [] := by
      refine UploaderClass.calms_call (fun _ => trivial) nofun fun read => ?_
      refine (UploaderClass.calms_orThrow read _).bind fun bytes _ => ?_
      refine UploaderClass.calms_call (fun _ => trivial) nofun fun put => ?_
      refine (UploaderClass.calms_orThrow put _).bind fun _ _ => ?_
      exact UploaderClass.calms_done (.ok _) _ rfl
    refine (stores rfl g quiet).bind (fun _ past₁ g₁ stored => ?_) fun e past₁ g₁ stored => stored.quiet
    refine (UploaderClass.refreshCounts_calms stored.untested g₁ stored.quiet).bind
      (fun _ past₂ g₂ counts => ?_) fun e past₂ g₂ counts => counts.quiet
    exact UploaderClass.drain_runs counts.quiet
  | start n rounds => exact UploaderClass.start_runs quiet
  | stop n => exact UploaderClass.stop_runs quiet
  | drain n rounds => exact UploaderClass.drain_runs quiet
  | retryTimer n rounds =>
    refine UploaderClass.within_call rfl trivial fun values answers => ?_
    obtain rfl : values = g.fields := answers
    refine UploaderClass.within_call rfl (Or.inl rfl) fun _ _ => UploaderClass.drain_runs ⟨quiet.sweeps, ?_, ?_⟩
    · intro timer armed
      have armed : timer ∈ g.retries := armed
      rw [fired n rounds rfl] at armed
      cases armed
    · exact fun stopped => ⟨(quiet.stopped stopped).1, rfl⟩

/-- A thread that keeps the timers of its page may read the queue for one only in its drain. -/
theorem arming_of_keeps {p : Prog UploadCall UploadReply α} {post : Past UploadReply → α → Page → Prop}
    {t : UploadTask} (keeps : p.Keeps (pageTimers localeLE) post past g)
    (pending : (⟨t, past, some p⟩ : Thread UploadCall UploadReply UploadTask α).pending = some .idbGetAll)
    (tested : testedLast past = true) :
    (look localeLE past).promise ≠ none ∧ g.fields.retryTimer = none := by
  cases p with
  | done a => cases pending
  | call c next =>
    obtain rfl : c = .idbGetAll := Option.some.inj pending
    exact keeps.1 tested

end ItalyTrip
