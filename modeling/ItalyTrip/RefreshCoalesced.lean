import ItalyTrip.RequestSends

namespace ItalyTrip

open Calls

variable {b b' : Browser} {o : ClientChoice} {c : ClientCall} {r : ClientReply c}

/-- What leaves the refreshes of all tabs alone. -/
theorem perform_refreshes (h : b.perform o c = some (r, b')) (begins : ∀ tab p, c ≠ .beginRefresh tab p)
    (asks : ∀ tab, c ≠ .refreshPromise tab) (settles : ∀ tab p result, c ≠ .settleRefresh tab p result) :
    b'.refreshes = b.refreshes ∧ ∀ n, (b'.tabs n).refreshPromise = (b.tabs n).refreshPromise := by
  refine ⟨(Browser.perform_frame h).2.1 begins asks settles, ?_⟩
  have same : b'.tabs = b.tabs →
      ∀ n, (b'.tabs n).refreshPromise = (b.tabs n).refreshPromise := fun tabs n => by rw [tabs]
  cases c with
  | arrayBuffer blob => exact same (Browser.faulty_keeps h rfl)
  | idbPut item => exact same (Browser.faulty_keeps h rfl)
  | idbDelete clientId => exact same (Browser.faulty_keeps h rfl)
  | idbGetAll => exact same (Browser.faulty_keeps h rfl)
  | setToken token => exact same (Browser.faulty_keeps h rfl)
  | never => cases h
  | fetch req =>
    simp only [Browser.perform] at h
    split at h <;> cases h <;> exact same rfl
  | beginRefresh tab p => exact absurd rfl (begins tab p)
  | refreshPromise tab => exact absurd rfl (asks tab)
  | settleRefresh tab p result => exact absurd rfl (settles tab p result)
  | awaitRefresh p =>
    simp only [Browser.perform] at h
    split at h
    next =>
      cases h
      exact same rfl
    next => cases h
  | setFields tab values =>
    cases h
    intro n
    by_cases own : n = tab
    · subst own
      simp [Browser.setTab]
    · simp [Browser.setTab, own]
  | _ =>
    cases h
    exact same rfl

/-- A tab is given the promise it has, or a new one. -/
theorem perform_refreshPromise {tab p : Nat} (h : b.perform o (.refreshPromise tab) = some (p, b')) :
    (b.tabs tab).refreshPromise = some p ∧ b' = b ∨
      (b.tabs tab).refreshPromise = none ∧ p = b.refreshes.length ∧ b'.refreshes = b.refreshes ++ [.made] ∧
        ∀ n, (b'.tabs n).refreshPromise = if n = tab then some p else (b.tabs n).refreshPromise := by
  simp only [Browser.perform] at h
  split at h
  next q held =>
    cases h
    exact Or.inl ⟨held, rfl⟩
  next none =>
    cases h
    refine Or.inr ⟨none, rfl, rfl, fun n => ?_⟩
    by_cases own : n = tab
    · simp [Browser.setTab, own]
    · simp [Browser.setTab, own]

theorem perform_beginRefresh {tab p : Nat} {r : Unit} (h : b.perform o (.beginRefresh tab p) = some (r, b')) :
    (b.tabs tab).refreshPromise = some p ∧ b.refreshes[p]? = some .made ∧
      b'.refreshes = b.refreshes.set p .running ∧ b'.tabs = b.tabs := by
  simp only [Browser.perform] at h
  split at h
  next q promise made =>
    split at h
    next same =>
      cases h
      exact ⟨same ▸ promise, made, rfl, rfl⟩
    next => cases h
  next => cases h

abbrev ClientThread := Thread ClientCall ClientReply ClientTask (Except JsError Unit)

/-- The thread works on a refresh: it has begun it and has yet to settle it. -/
structure Refreshing (u : ClientThread) (tab p : Nat) : Prop where
  task : u.task = .refresh tab p
  live : u.pending.isSome = true
  begun : ⟨.beginRefresh tab p, ()⟩ ∈ u.past
  unsettled : ∀ result, ⟨.settleRefresh tab p result, ()⟩ ∉ u.past

/-- The thread has called the endpoint for a refresh and settled it with what came of that call. -/
def SettledWith (u : ClientThread) (p : Nat) (result : Except JsError String) : Prop :=
  ∃ tab res past, u.task = .refresh tab p ∧ ApiClient.Exchanging tab p res past ∧
    ApiClient.SettlesWith res result ∧ ⟨.settleRefresh tab p result, ()⟩ :: past <:+ u.past

/-- What the tabs keep of their refreshes: the promise a tab holds is not settled, no two tabs hold one, only
one thread works on it, and a refresh is settled once. -/
structure Coalesced (localeLE : String → String → Bool) (s : ClientPool) : Prop where
  follows : s.Follows (client localeLE)
  outstanding : ∀ tab p, (s.world.tabs tab).refreshPromise = some p →
    s.world.refreshes[p]? = some .made ∨ s.world.refreshes[p]? = some .running
  apart : ∀ tab tab' p, (s.world.tabs tab).refreshPromise = some p →
    (s.world.tabs tab').refreshPromise = some p → tab = tab'
  running : ∀ u ∈ s.threads, ∀ tab p, Refreshing u tab p →
    (s.world.tabs tab).refreshPromise = some p ∧ s.world.refreshes[p]? = some .running
  one : ∀ (i j : Nat) (u v : ClientThread) (tab p q : Nat), s.threads[i]? = some u →
    s.threads[j]? = some v → Refreshing u tab p → Refreshing v tab q → i = j
  settled : ∀ p result, s.world.refreshes[p]? = some (.settled result) →
    ∃ u ∈ s.threads, SettledWith u p result
  settles : ∀ u ∈ s.threads, ∀ tab p result, ⟨.settleRefresh tab p result, ()⟩ ∈ u.past →
    s.world.refreshes[p]? = some (.settled result)

variable {localeLE : String → String → Bool}

theorem coalesced_init (unused : b.refreshes = []) (free : ∀ tab, (b.tabs tab).refreshPromise = none) :
    Coalesced localeLE ⟨b, []⟩ where
  follows := Pool.follows_init
  outstanding tab p promise := by cases (free tab).symm.trans promise
  apart tab tab' p promise := by cases (free tab).symm.trans promise
  running u hu := absurd hu List.not_mem_nil
  one i j u v tab p q hu := by simp at hu
  settled p result settled := by simp [unused] at settled
  settles u hu := absurd hu List.not_mem_nil

/-- What has settled a refresh is there after any step. -/
theorem SettledWith.step {s : ClientPool} {p : Nat} {result : Except JsError String}
    (h : ∃ u ∈ s.threads, SettledWith u p result) (a : Calls.Action ClientChoice BrowserEvent ClientTask) :
    ∃ u ∈ (s.step (client localeLE) a).threads, SettledWith u p result := by
  obtain ⟨u, hu, tab, res, past, task, exchanging, settles, suffix⟩ := h
  obtain ⟨i, hi⟩ := List.mem_iff_getElem?.mp hu
  obtain ⟨v, hv, same, later⟩ := Pool.step_past (m := client localeLE) s a hi
  exact ⟨v, List.mem_of_getElem? hv, tab, res, past, same.trans task, exchanging, settles,
    suffix.trans later⟩

section Still

variable {s : ClientPool} {a : Calls.Action ClientChoice BrowserEvent ClientTask}

/-- A step that begins and settles nothing: a tab may only lose a promise that nobody works on. -/
theorem Coalesced.still (h : Coalesced localeLE s)
    (refreshing : ∀ (j : Nat) (v : ClientThread) (tab p : Nat),
      (s.step (client localeLE) a).threads[j]? = some v → Refreshing v tab p →
      ∃ u, s.threads[j]? = some u ∧ Refreshing u tab p)
    (settles : ∀ v ∈ (s.step (client localeLE) a).threads, ∀ tab p result,
      ⟨.settleRefresh tab p result, ()⟩ ∈ v.past →
      ∃ u ∈ s.threads, ⟨.settleRefresh tab p result, ()⟩ ∈ u.past)
    (refreshes : (s.step (client localeLE) a).world.refreshes = s.world.refreshes)
    (promises : ∀ tab, ((s.step (client localeLE) a).world.tabs tab).refreshPromise =
        (s.world.tabs tab).refreshPromise ∨
      ((s.step (client localeLE) a).world.tabs tab).refreshPromise = none ∧
        ∀ u ∈ s.threads, ∀ p, ¬ Refreshing u tab p) :
    Coalesced localeLE (s.step (client localeLE) a) := by
  have held : ∀ tab p, ((s.step (client localeLE) a).world.tabs tab).refreshPromise = some p →
      (s.world.tabs tab).refreshPromise = some p := by
    intro tab p promise
    rcases promises tab with same | ⟨none, _⟩
    · exact same.symm.trans promise
    · cases none.symm.trans promise
  refine ⟨h.follows.step a, fun tab p promise => ?_, fun tab tab' p promise promise' => ?_,
    fun v hv tab p works => ?_, fun i j v v' tab p q hv hv' works works' => ?_, fun p result settled => ?_,
    fun v hv tab p result settled => ?_⟩
  · rw [refreshes]
    exact h.outstanding tab p (held tab p promise)
  · exact h.apart tab tab' p (held tab p promise) (held tab' p promise')
  · obtain ⟨j, hj⟩ := List.mem_iff_getElem?.mp hv
    obtain ⟨u, hu, before⟩ := refreshing j v tab p hj works
    have mem := List.mem_of_getElem? hu
    obtain ⟨promise, running⟩ := h.running u mem tab p before
    rcases promises tab with same | ⟨_, idle⟩
    · exact ⟨same.trans promise, refreshes ▸ running⟩
    · exact absurd before (idle u mem p)
  · obtain ⟨u, hu, before⟩ := refreshing i v tab p hv works
    obtain ⟨u', hu', before'⟩ := refreshing j v' tab q hv' works'
    exact h.one i j u u' tab p q hu hu' before before'
  · rw [refreshes] at settled
    exact SettledWith.step (h.settled p result settled) a
  · obtain ⟨u, hu, before⟩ := settles v hv tab p result settled
    rw [refreshes]
    exact h.settles u hu tab p result before

/-- Any step without an exchange. -/
theorem Coalesced.quiet (h : Coalesced localeLE s) (acts : ∀ i o, a ≠ .act i o)
    (refreshes : (s.step (client localeLE) a).world.refreshes = s.world.refreshes)
    (promises : ∀ tab, ((s.step (client localeLE) a).world.tabs tab).refreshPromise =
        (s.world.tabs tab).refreshPromise ∨
      ((s.step (client localeLE) a).world.tabs tab).refreshPromise = none ∧
        ∀ u ∈ s.threads, ∀ p, ¬ Refreshing u tab p) :
    Coalesced localeLE (s.step (client localeLE) a) := by
  refine h.still (fun j v tab p hv works => ?_) (fun v hv tab p result settled => ?_) refreshes promises
  · rcases Pool.step_origin s a hv with ⟨t, rfl⟩ | ⟨u, hu, rfl | rfl⟩ | ⟨o, _, _, _, _, _, same, _⟩
    · exact absurd works.begun List.not_mem_nil
    · exact ⟨v, hu, works⟩
    · cases works.live
    · exact absurd same (acts j o)
  · obtain ⟨j, hj⟩ := List.mem_iff_getElem?.mp hv
    rcases Pool.step_origin s a hj with ⟨t, rfl⟩ | ⟨u, hu, rfl | rfl⟩ | ⟨o, _, _, _, _, _, same, _⟩
    · exact absurd settled List.not_mem_nil
    · exact ⟨v, List.mem_of_getElem? hu, settled⟩
    · exact ⟨u, List.mem_of_getElem? hu, settled⟩
    · exact absurd same (acts j o)

end Still

section Exchange

variable {s : ClientPool} {i : Nat} {t : ClientTask} {past : Past ClientReply}
  {next : ClientReply c → Prog ClientCall ClientReply (Except JsError Unit)}

/-- What a thread may do about refreshes where it is. -/
theorem Coalesced.rules (h : Coalesced localeLE s)
    (hu : (⟨t, past, some (.call c next)⟩ : ClientThread) ∈ s.threads) : RefreshRules t past c := by
  obtain ⟨q, leads, same⟩ := h.follows _ hu
  obtain rfl := same _ rfl
  exact (script_refreshes t).at_call leads

/-- Where nothing is begun, a thread that works on a refresh did so before. -/
theorem refreshing_before {s' : ClientPool} (x : Pool.Exchange (client localeLE) s s' i t past c next o r)
    (begins : ∀ n q, c ≠ .beginRefresh n q) {j : Nat} {v : ClientThread} {tab p : Nat}
    (hv : s'.threads[j]? = some v) (works : Refreshing v tab p) :
    ∃ u, s.threads[j]? = some u ∧ Refreshing u tab p := by
  rcases x.at hv with ⟨rfl, rfl⟩ | ⟨_, before⟩
  · refine ⟨_, x.thread, works.task, rfl, ?_, fun result settled => ?_⟩
    · rcases List.mem_cons.mp works.begun with same | earlier
      · cases same
        exact absurd rfl (begins tab p)
      · exact earlier
    · exact works.unsettled result (List.mem_cons_of_mem _ settled)
  · exact ⟨v, before, works⟩

/-- Where nothing is settled, what a thread has settled it had settled before. -/
theorem settles_before {s' : ClientPool} (x : Pool.Exchange (client localeLE) s s' i t past c next o r)
    (settles : ∀ n q result, c ≠ .settleRefresh n q result) {v : ClientThread} (hv : v ∈ s'.threads)
    {tab p : Nat} {result : Except JsError String} (settled : ⟨.settleRefresh tab p result, ()⟩ ∈ v.past) :
    ∃ u ∈ s.threads, ⟨.settleRefresh tab p result, ()⟩ ∈ u.past := by
  rcases x.mem_threads hv with rfl | old
  · rcases List.mem_cons.mp settled with same | earlier
    · cases same
      exact absurd rfl (settles tab p result)
    · exact ⟨_, x.mem, earlier⟩
  · exact ⟨v, old, settled⟩

theorem Coalesced.asks (h : Coalesced localeLE s) {tab p : Nat}
    {next : Nat → Prog ClientCall ClientReply (Except JsError Unit)}
    (x : Pool.Exchange (client localeLE) s (s.step (client localeLE) (.act i o)) i t past
      (.refreshPromise tab) next o p) :
    Coalesced localeLE (s.step (client localeLE) (.act i o)) := by
  have performed : s.world.perform o (.refreshPromise tab) =
    some (p, (s.step (client localeLE) (.act i o)).world) := x.performed
  have refreshing : ∀ (j : Nat) (v : ClientThread) (n q : Nat),
      (s.step (client localeLE) (.act i o)).threads[j]? = some v → Refreshing v n q →
      ∃ u, s.threads[j]? = some u ∧ Refreshing u n q :=
    fun _ _ _ _ hv works => refreshing_before x (by nofun) hv works
  have settles : ∀ v ∈ (s.step (client localeLE) (.act i o)).threads, ∀ n q result,
      ⟨.settleRefresh n q result, ()⟩ ∈ v.past →
      ∃ u ∈ s.threads, ⟨.settleRefresh n q result, ()⟩ ∈ u.past :=
    fun _ hv _ _ _ settled => settles_before x (by nofun) hv settled
  rcases perform_refreshPromise performed with ⟨_, same⟩ | ⟨free, rfl, refreshes, promises⟩
  · exact h.still refreshing settles (congrArg Browser.refreshes same) fun n =>
      Or.inl (congrArg (fun w => (Browser.tabs w n).refreshPromise) same)
  · -- The new promise comes after all others.
    have kept : ∀ {q : Nat} {state : RefreshState}, s.world.refreshes[q]? = some state →
        (s.step (client localeLE) (.act i o)).world.refreshes[q]? = some state := by
      intro q state old
      rw [refreshes, List.getElem?_append_left (List.getElem?_eq_some_iff.mp old).1]
      exact old
    have made : (s.step (client localeLE) (.act i o)).world.refreshes[s.world.refreshes.length]? =
        some .made := by
      rw [refreshes, List.getElem?_concat_length]
    have held : ∀ {n q : Nat},
        ((s.step (client localeLE) (.act i o)).world.tabs n).refreshPromise = some q →
        n = tab ∧ q = s.world.refreshes.length ∨ (s.world.tabs n).refreshPromise = some q := by
      intro n q promise
      rw [promises] at promise
      split at promise
      next own => exact Or.inl ⟨own, (Option.some.inj promise).symm⟩
      next => exact Or.inr promise
    have apart : ∀ {n : Nat}, (s.world.tabs n).refreshPromise ≠ some s.world.refreshes.length := by
      intro n promise
      rcases h.outstanding n _ promise with old | old <;> simp at old
    refine ⟨h.follows.step _, fun n q promise => ?_, fun n n' q promise promise' => ?_,
      fun v hv n q works => ?_, fun j k v v' n q q' hv hv' works works' => ?_, fun q result settled => ?_,
      fun v hv n q result settled => ?_⟩
    · rcases held promise with ⟨_, rfl⟩ | before
      · exact Or.inl made
      · exact (h.outstanding n q before).imp kept kept
    · rcases held promise with ⟨rfl, rfl⟩ | before
      · rcases held promise' with ⟨rfl, _⟩ | before'
        · rfl
        · exact absurd before' apart
      · rcases held promise' with ⟨rfl, rfl⟩ | before'
        · exact absurd before apart
        · exact h.apart n n' q before before'
    · obtain ⟨j, hj⟩ := List.mem_iff_getElem?.mp hv
      obtain ⟨u, hu, before⟩ := refreshing j v n q hj works
      obtain ⟨promise, running⟩ := h.running u (List.mem_of_getElem? hu) n q before
      refine ⟨?_, kept running⟩
      rw [promises, if_neg, promise]
      rintro rfl
      cases free.symm.trans promise
    · obtain ⟨u, hu, before⟩ := refreshing j v n q hv works
      obtain ⟨u', hu', before'⟩ := refreshing k v' n q' hv' works'
      exact h.one j k u u' n q q' hu hu' before before'
    · rw [refreshes] at settled
      rcases getElem?_concat_cases settled with same | old
      · cases same
      · exact SettledWith.step (h.settled q result old) _
    · obtain ⟨u, hu, before⟩ := settles v hv n q result settled
      exact kept (h.settles u hu n q result before)

theorem Coalesced.begins (h : Coalesced localeLE s) {tab p : Nat} {r : Unit}
    {next : Unit → Prog ClientCall ClientReply (Except JsError Unit)}
    (x : Pool.Exchange (client localeLE) s (s.step (client localeLE) (.act i o)) i t past
      (.beginRefresh tab p) next o r) :
    Coalesced localeLE (s.step (client localeLE) (.act i o)) := by
  have performed : s.world.perform o (.beginRefresh tab p) =
    some (r, (s.step (client localeLE) (.act i o)).world) := x.performed
  obtain ⟨promised, made, refreshes, tabs⟩ := perform_beginRefresh performed
  obtain ⟨lt, _⟩ := List.getElem?_eq_some_iff.mp made
  obtain ⟨rfl, rfl⟩ : t = .refresh tab p ∧ past = [] := by
    rcases h.rules x.mem with ⟨_, _, rfl, rfl, rfl, first⟩ | apart
    · exact ⟨rfl, first⟩
    · cases apart
  have begun : (s.step (client localeLE) (.act i o)).world.refreshes[p]? = some .running := by
    rw [refreshes, List.getElem?_set_self lt]
  have others : ∀ {q : Nat}, q ≠ p →
      (s.step (client localeLE) (.act i o)).world.refreshes[q]? = s.world.refreshes[q]? := by
    intro q ne
    rw [refreshes, List.getElem?_set_ne (Ne.symm ne)]
  -- Nobody has worked on this promise so far.
  have unworked : ∀ {j : Nat} {u : ClientThread} {n q : Nat}, s.threads[j]? = some u →
      Refreshing u n q → q ≠ p := by
    rintro j u n q hu works rfl
    cases made.symm.trans (h.running u (List.mem_of_getElem? hu) n q works).2
  have unsettled : ∀ {q : Nat} {result : Except JsError String},
      s.world.refreshes[q]? = some (.settled result) → q ≠ p := by
    rintro q result settled rfl
    cases made.symm.trans settled
  refine ⟨h.follows.step _, fun n q promise => ?_, fun n n' q promise promise' => ?_,
    fun v hv n q works => ?_, fun j k v v' n q q' hv hv' works works' => ?_, fun q result settled => ?_,
    fun v hv n q result settled => ?_⟩
  · rw [tabs] at promise
    by_cases same : q = p
    · subst same
      exact Or.inr begun
    · rw [others same]
      exact h.outstanding n q promise
  · rw [tabs] at promise promise'
    exact h.apart n n' q promise promise'
  · obtain ⟨j, hj⟩ := List.mem_iff_getElem?.mp hv
    rw [tabs]
    rcases x.at hj with ⟨_, rfl⟩ | ⟨_, before⟩
    · obtain ⟨rfl, rfl⟩ := ClientTask.refresh.inj works.task
      exact ⟨promised, begun⟩
    · obtain ⟨promise, running⟩ := h.running v (List.mem_of_getElem? before) n q works
      exact ⟨promise, (others (unworked before works)).trans running⟩
  · -- A thread of this tab that works already would hold the same promise.
    have alone : ∀ {j : Nat} {u : ClientThread} {q : Nat}, s.threads[j]? = some u →
        ¬ Refreshing u tab q := by
      intro j u q hu works
      obtain ⟨promise, _⟩ := h.running u (List.mem_of_getElem? hu) tab q works
      exact unworked hu works (Option.some.inj (promise.symm.trans promised))
    rcases x.at hv with ⟨rfl, rfl⟩ | ⟨_, before⟩
    · obtain ⟨rfl, rfl⟩ := ClientTask.refresh.inj works.task
      rcases x.at hv' with ⟨rfl, _⟩ | ⟨_, before'⟩
      · rfl
      · exact absurd works' (alone before')
    · rcases x.at hv' with ⟨rfl, rfl⟩ | ⟨_, before'⟩
      · obtain ⟨rfl, rfl⟩ := ClientTask.refresh.inj works'.task
        exact absurd works (alone before)
      · exact h.one j k v v' n q q' before before' works works'
  · by_cases same : q = p
    · subst same
      cases begun.symm.trans settled
    · rw [others same] at settled
      exact SettledWith.step (h.settled q result settled) _
  · obtain ⟨u, hu, before⟩ := settles_before x (by nofun) hv settled
    have old := h.settles u hu n q result before
    exact (others (unsettled old)).trans old

theorem Coalesced.ends (h : Coalesced localeLE s) {tab p : Nat} {result : Except JsError String} {r : Unit}
    {next : Unit → Prog ClientCall ClientReply (Except JsError Unit)}
    (x : Pool.Exchange (client localeLE) s (s.step (client localeLE) (.act i o)) i t past
      (.settleRefresh tab p result) next o r) :
    Coalesced localeLE (s.step (client localeLE) (.act i o)) := by
  obtain ⟨rfl, res, exchanging, settlesWith⟩ : t = .refresh tab p ∧
      ∃ res, ApiClient.Exchanging tab p res past ∧ ApiClient.SettlesWith res result := by
    rcases h.rules x.mem with ⟨_, _, rfl, rfl, rfl, settles⟩ | apart
    · exact ⟨rfl, settles⟩
    · cases apart
  have silent : ∀ n q result', ⟨.settleRefresh n q result', ()⟩ ∉ past := by
    intro n q result' settled
    obtain ⟨later, rfl, apart⟩ := exchanging
    rcases List.mem_append.mp settled with mem | mem
    · cases apart _ mem
    · simp at mem
  have mover : Refreshing ⟨.refresh tab p, past, some (.call (.settleRefresh tab p result) next)⟩ tab p := by
    refine ⟨rfl, rfl, ?_, fun result' => silent tab p result'⟩
    obtain ⟨later, rfl, _⟩ := exchanging
    simp
  obtain ⟨promised, running⟩ := h.running _ x.mem tab p mover
  obtain ⟨lt, _⟩ := List.getElem?_eq_some_iff.mp running
  have refreshes : (s.step (client localeLE) (.act i o)).world.refreshes =
      s.world.refreshes.set p (.settled result) :=
    (congrArg Browser.refreshes (Prod.mk.inj (Option.some.inj x.performed)).2).symm
  have tabs : (s.step (client localeLE) (.act i o)).world.tabs =
      fun n => if n = tab then { s.world.tabs tab with refreshPromise := none } else s.world.tabs n :=
    (congrArg Browser.tabs (Prod.mk.inj (Option.some.inj x.performed)).2).symm
  have held : ∀ {n q : Nat},
      ((s.step (client localeLE) (.act i o)).world.tabs n).refreshPromise = some q →
      n ≠ tab ∧ (s.world.tabs n).refreshPromise = some q := by
    intro n q promise
    rw [tabs] at promise
    dsimp only at promise
    split at promise
    next => cases promise
    next other => exact ⟨other, promise⟩
  have ended : (s.step (client localeLE) (.act i o)).world.refreshes[p]? = some (.settled result) := by
    rw [refreshes, List.getElem?_set_self lt]
  have others : ∀ {q : Nat}, q ≠ p →
      (s.step (client localeLE) (.act i o)).world.refreshes[q]? = s.world.refreshes[q]? := by
    intro q ne
    rw [refreshes, List.getElem?_set_ne (Ne.symm ne)]
  -- What another thread works on is a refresh of another tab.
  have others_work : ∀ {j : Nat} {v : ClientThread} {n q : Nat},
      (s.step (client localeLE) (.act i o)).threads[j]? = some v → Refreshing v n q →
      s.threads[j]? = some v ∧ n ≠ tab ∧ q ≠ p := by
    intro j v n q hv works
    rcases x.at hv with ⟨_, rfl⟩ | ⟨ne, before⟩
    · obtain ⟨rfl, rfl⟩ := ClientTask.refresh.inj works.task
      exact absurd List.mem_cons_self (works.unsettled result)
    · have other : n ≠ tab := by
        rintro rfl
        exact ne (h.one j i v _ n q p before x.thread works mover)
      refine ⟨before, other, ?_⟩
      rintro rfl
      exact other (h.apart n tab q (h.running v (List.mem_of_getElem? before) n q works).1 promised)
  refine ⟨h.follows.step _, fun n q promise => ?_, fun n n' q promise promise' => ?_,
    fun v hv n q works => ?_, fun j k v v' n q q' hv hv' works works' => ?_, fun q result' settled => ?_,
    fun v hv n q result' settled => ?_⟩
  · obtain ⟨other, before⟩ := held promise
    rw [others]
    · exact h.outstanding n q before
    · rintro rfl
      exact other (h.apart n tab q before promised)
  · exact h.apart n n' q (held promise).2 (held promise').2
  · obtain ⟨j, hj⟩ := List.mem_iff_getElem?.mp hv
    obtain ⟨before, otherTab, other⟩ := others_work hj works
    obtain ⟨promise, running'⟩ := h.running v (List.mem_of_getElem? before) n q works
    refine ⟨?_, (others other).trans running'⟩
    rw [tabs]
    dsimp only
    rw [if_neg otherTab]
    exact promise
  · obtain ⟨before, _⟩ := others_work hv works
    obtain ⟨before', _⟩ := others_work hv' works'
    exact h.one j k v v' n q q' before before' works works'
  · by_cases same : q = p
    · subst same
      cases ended.symm.trans settled
      exact ⟨_, x.mem_after, tab, res, past, rfl, exchanging, settlesWith, List.suffix_refl _⟩
    · rw [others same] at settled
      exact SettledWith.step (h.settled q result' settled) _
  · rcases x.mem_threads hv with rfl | old
    · rcases List.mem_cons.mp settled with same | earlier
      · cases same
        exact ended
      · exact absurd earlier (silent n q result')
    · have before := h.settles v old n q result' settled
      rw [others]
      · exact before
      · rintro rfl
        cases running.symm.trans before

theorem Coalesced.exchange (h : Coalesced localeLE s)
    (x : Pool.Exchange (client localeLE) s (s.step (client localeLE) (.act i o)) i t past c next o r) :
    Coalesced localeLE (s.step (client localeLE) (.act i o)) := by
  have frame : (∀ n q, c ≠ .beginRefresh n q) → (∀ n, c ≠ .refreshPromise n) →
      (∀ n q result, c ≠ .settleRefresh n q result) →
      Coalesced localeLE (s.step (client localeLE) (.act i o)) := by
    intro begins asks settles
    obtain ⟨refreshes, promises⟩ := perform_refreshes x.performed begins asks settles
    exact h.still (fun _ _ _ _ hv works => refreshing_before x begins hv works)
      (fun _ hv _ _ _ settled => settles_before x settles hv settled) refreshes fun n => Or.inl (promises n)
  cases c with
  | beginRefresh tab p => exact h.begins x
  | refreshPromise tab => exact h.asks x
  | settleRefresh tab p result => exact h.ends x
  | _ => exact frame (by nofun) (by nofun) (by nofun)

end Exchange

/-- A tab is loaded again only when none of its scripts runs. -/
def ReloadsIdleTab (s : ClientPool) (a : Calls.Action ClientChoice BrowserEvent ClientTask) : Prop :=
  ∀ tab, a = .env (.reload tab) → ∀ u ∈ s.threads, u.task.tab = tab → u.pending = none

theorem Coalesced.step {s : ClientPool} {a : Calls.Action ClientChoice BrowserEvent ClientTask}
    (h : Coalesced localeLE s) (idle : ReloadsIdleTab s a) :
    Coalesced localeLE (s.step (client localeLE) a) := by
  cases a with
  | act i o =>
    rcases Pool.step_act (m := client localeLE) s i o with same | ⟨t, past, c, next, r, x⟩
    · rwa [same]
    · exact h.exchange x
  | arrive t =>
    rcases Pool.step_arrive (m := client localeLE) s t with same | same
    · rwa [same]
    · exact h.quiet (by nofun) (by rw [same]) fun tab => Or.inl (by rw [same])
  | kill i =>
    rcases Pool.step_kill (m := client localeLE) s i with same | ⟨_, _, _, _, _, same⟩
    · rwa [same]
    · exact h.quiet (by nofun) (by rw [same]) fun tab => Or.inl (by rw [same])
  | env e =>
    cases e with
    | tick ms => exact h.quiet (by nofun) rfl fun tab => Or.inl rfl
    | login token => exact h.quiet (by nofun) rfl fun tab => Or.inl rfl
    | reload n =>
      refine h.quiet (by nofun) rfl fun tab => ?_
      by_cases own : tab = n
      · subst own
        refine Or.inr ⟨congrArg Tab.refreshPromise (if_pos rfl), fun u hu p works => ?_⟩
        have live := works.live
        rw [idle tab rfl u hu (congrArg ClientTask.tab works.task)] at live
        cases live
      · exact Or.inl (congrArg Tab.refreshPromise (if_neg own))

/-- The thread has called `/auth/refresh` for this tab and waits for the answer. -/
def inFlight (tab : Nat) (u : ClientThread) : Bool :=
  match u.pending with
  | some (.fetch .refresh) => u.task.tab == tab
  | _ => false

theorem Coalesced.in_flight {s : ClientPool} (h : Coalesced localeLE s) {u : ClientThread} (hu : u ∈ s.threads)
    {tab : Nat} (flies : inFlight tab u = true) : ∃ p, Refreshing u tab p := by
  unfold inFlight at flies
  split at flies
  next pending =>
    obtain ⟨t, past, rest⟩ := u
    match rest with
    | none => cases pending
    | some (.done _) => cases pending
    | some (.call c next) =>
      obtain rfl := Option.some.inj pending
      rcases h.rules hu with ⟨n, p, rfl, _, rfl⟩ | apart
      · obtain rfl : n = tab := beq_iff_eq.mp flies
        exact ⟨p, rfl, rfl, List.mem_singleton_self _, fun _ => by simp⟩
      · cases apart
  next => cases flies

variable (localeLE) in
/-- What the tabs make of an expired token where they are in a run. In one segment a request reads that its
token has expired and asks for the promise of a refresh. -/
structure CoalescesRefreshes (s : ClientPool) : Prop where
  one : ∀ tab, s.threads.countP (inFlight tab) ≤ 1
  joins : ∀ a t past tab p w, s.exchanged (client localeLE) a = some ⟨t, past, .refreshPromise tab, p, w⟩ →
    (∀ u ∈ s.threads, inFlight tab u = true → u.task = .refresh tab p) ∧
      ∀ u ∈ s.threads, ∀ n result, ⟨.settleRefresh n p result, ()⟩ ∉ u.past
  shares : ∀ a t past p result w, s.exchanged (client localeLE) a = some ⟨t, past, .awaitRefresh p, result, w⟩ →
    (∃ u ∈ s.threads, SettledWith u p result) ∧
      ∀ u ∈ s.threads, ∀ n other, ⟨.settleRefresh n p other, ()⟩ ∈ u.past → other = result
  sends : ∀ a t past req res w, s.exchanged (client localeLE) a = some ⟨t, past, .fetch req, res, w⟩ →
    req ≠ .refresh → ∃ build new, Requesting localeLE t build new past ∧
      (FirstSend build req new ∨ SecondSend t.tab build req new)

theorem Coalesced.coalesces {s : ClientPool} (h : Coalesced localeLE s) : CoalescesRefreshes localeLE s where
  one tab := by
    refine countP_le_one fun i j u v hu hv flies flies' => ?_
    obtain ⟨p, works⟩ := h.in_flight (List.mem_of_getElem? hu) flies
    obtain ⟨q, works'⟩ := h.in_flight (List.mem_of_getElem? hv) flies'
    exact h.one i j u v tab p q hu hv works works'
  joins a t past tab p w made := by
    obtain ⟨i, o, next, rfl, x, _⟩ := Pool.exchanged_spec made
    have performed : s.world.perform o (.refreshPromise tab) =
      some (p, (s.step (client localeLE) (.act i o)).world) := x.performed
    rcases perform_refreshPromise performed with ⟨promised, _⟩ | ⟨free, rfl, _⟩
    · refine ⟨fun u hu flies => ?_, fun u hu n result settled => ?_⟩
      · obtain ⟨q, works⟩ := h.in_flight hu flies
        obtain rfl := Option.some.inj ((h.running u hu tab q works).1.symm.trans promised)
        exact works.task
      · have ended := h.settles u hu n p result settled
        rcases h.outstanding tab p promised with open' | open' <;> cases open'.symm.trans ended
    · refine ⟨fun u hu flies => ?_, fun u hu n result settled => ?_⟩
      · obtain ⟨q, works⟩ := h.in_flight hu flies
        cases free.symm.trans (h.running u hu tab q works).1
      · have ended := h.settles u hu n _ result settled
        simp at ended
  shares a t past p result w made := by
    obtain ⟨i, o, next, rfl, x, _⟩ := Pool.exchanged_spec made
    have settled : s.world.refreshes[p]? = some (.settled result) := by
      have performed : s.world.perform o (.awaitRefresh p) =
        some (result, (s.step (client localeLE) (.act i o)).world) := x.performed
      simp only [Browser.perform] at performed
      split at performed
      next settled =>
        obtain ⟨rfl, _⟩ := Prod.mk.inj (Option.some.inj performed)
        exact settled
      next => cases performed
    refine ⟨h.settled p result settled, fun u hu n other before => ?_⟩
    cases settled.symm.trans (h.settles u hu n p other before)
    rfl
  sends a t past req res w made named := by
    obtain ⟨i, o, next, rfl, x, _⟩ := Pool.exchanged_spec made
    obtain ⟨q, leads, same⟩ := h.follows _ x.mem
    obtain rfl := same _ rfl
    exact script_sends leads named

/-- In every run of the tabs of a browser, with any number of requests at once and any answers in any order,
refreshes are coalesced and no request is sent more than twice. -/
theorem refreshes_coalesced (unused : b.refreshes = []) (free : ∀ tab, (b.tabs tab).refreshPromise = none)
    {actions : List (Calls.Action ClientChoice BrowserEvent ClientTask)}
    (idle : Pool.Throughout (client localeLE) ReloadsIdleTab ⟨b, []⟩ actions) :
    CoalescesRefreshes localeLE (Pool.exec (client localeLE) ⟨b, []⟩ actions) := by
  have coalesced : Coalesced localeLE (Pool.exec (client localeLE) ⟨b, []⟩ actions) :=
    idle.induction (fun _ _ h idle => h.step idle) (coalesced_init unused free)
  exact coalesced.coalesces

section Sample

/-- Two requests of one tab are told that their tokens have expired, and its refresh begins. -/
private def sampleCoalescing : List (Calls.Action ClientChoice BrowserEvent ClientTask) :=
  let stale : ClientChoice :=
    sampleNet (.ok ⟨401, "Unauthorized", some ⟨some "token expired", some "token_expired", none⟩⟩)
  [.arrive (.get 0 "/photos"), .act 0 stale, .act 0 stale, .arrive (.get 0 "/users/me"), .act 1 stale,
    .act 1 stale, .act 1 stale, .act 1 stale, .act 0 stale, .act 0 stale, .arrive (.refresh 0 0), .act 2 stale]

theorem refreshes_coalesced_sample :
    (Pool.exec (client fun x y => decide (x ≤ y)) ⟨sampleBrowser "old", []⟩ sampleCoalescing).threads.countP
        (inFlight 0) = 1 ∧
      CoalescesRefreshes (fun x y => decide (x ≤ y))
        (Pool.exec (client fun x y => decide (x ≤ y)) ⟨sampleBrowser "old", []⟩ sampleCoalescing) := by
  refine ⟨by decide +kernel, refreshes_coalesced rfl (fun _ => rfl) ?_⟩
  simp only [sampleCoalescing, Pool.Throughout, ReloadsIdleTab, reduceCtorEq, false_implies, implies_true,
    and_true]

end Sample

end ItalyTrip
