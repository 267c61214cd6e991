import ItalyTrip.DrainCalls

namespace ItalyTrip

open Calls

variable {localeLE : String → String → Bool} {w w' : UploadWorld} {o : UploadChoice} {c : UploadCall}
  {r : UploadReply c}

theorem uploads_onBrowser {c : ClientCall} {r : ClientReply c} (h : w.onBrowser o c = some (r, w')) :
    w.browser.perform o.client c = some (r, w'.browser) ∧
      w'.drains = w.drains ∧ w'.draining = w.draining ∧ w'.history = w.history := by
  unfold UploadWorld.onBrowser at h
  split at h
  next hp =>
    cases h
    exact ⟨hp, rfl, rfl, rfl⟩
  next => cases h

/-- A drain is joined only while the field holds its promise. -/
theorem uploads_join {tab p : Nat} (h : w.perform o (.joinDrain tab) = some (p, w')) :
    (w.browser.tabs tab).fields.draining = true ∧ p = w.draining tab ∧ w' = w := by
  obtain ⟨flag, h⟩ := Option.ite_none_right_eq_some.mp h
  cases h
  exact ⟨flag, rfl, rfl⟩

/-- What a call of an uploader leaves alone. -/
structure UploadFrame (w w' : UploadWorld) (c : UploadCall) : Prop where
  store : (∀ item, c ≠ .idbPut item) → (∀ clientId, c ≠ .idbDelete clientId) →
    w'.browser.store = w.browser.store
  tabs : (∀ tab values, c ≠ .setFields tab values) → (∀ tab, c ≠ .beginDrain tab) →
    (∀ tab, c ≠ .endDrain tab) → w'.browser.tabs = w.browser.tabs
  draining : (∀ tab, c ≠ .beginDrain tab) → w'.draining = w.draining
  drains : (∀ tab, c ≠ .beginDrain tab) → (∀ p result, c ≠ .settleDrain p result) → w'.drains = w.drains
  clock : c ≠ .now → w'.browser.clock = w.browser.clock
  history : (∀ tab input, c ≠ .beginUpload tab input) → (∀ tab input, c ≠ .awaitUpload tab input) →
    w'.history = w.history

theorem uploads_frame (h : w.perform o c = some (r, w')) : UploadFrame w w' c := by
  have faulty : ∀ {c : ClientCall} {r : ClientReply c} {c' : UploadCall} {α : Type} {answer : α}
      {done : Browser} {result : Except String α}, w.onBrowser o c = some (r, w') →
      w.browser.faulty o.client.fault answer done = some (result, w'.browser) →
      done.tabs = w.browser.tabs → done.clock = w.browser.clock →
      ((∀ item, c' ≠ .idbPut item) → (∀ k, c' ≠ .idbDelete k) → done.store = w.browser.store) →
      UploadFrame w w' c' := by
    intro c r c' α answer done result h hp tabs clock store
    obtain ⟨_, drains, draining, history⟩ := uploads_onBrowser h
    exact ⟨fun put delete => Browser.faulty_keeps hp (store put delete),
      fun _ _ _ => Browser.faulty_keeps hp tabs, fun _ => draining, fun _ _ => drains,
      fun _ => Browser.faulty_keeps hp clock, fun _ _ => history⟩
  cases c with
  | never => cases h
  | arrayBuffer blob => exact faulty h (uploads_onBrowser h).1 rfl rfl fun _ _ => rfl
  | idbPut item => exact faulty h (uploads_onBrowser h).1 rfl rfl fun put _ => absurd rfl (put item)
  | idbDelete k => exact faulty h (uploads_onBrowser h).1 rfl rfl fun _ delete => absurd rfl (delete k)
  | idbGetAll => exact faulty h (uploads_onBrowser h).1 rfl rfl fun _ _ => rfl
  | setFields tab values =>
    cases h
    exact ⟨fun _ _ => rfl, fun h => absurd rfl (h tab values), fun _ => rfl, fun _ _ => rfl, fun _ => rfl,
      fun _ _ => rfl⟩
  | beginDrain tab =>
    cases h
    exact ⟨fun _ _ => rfl, fun _ h => absurd rfl (h tab), fun h => absurd rfl (h tab),
      fun h => absurd rfl (h tab), fun _ => rfl, fun _ _ => rfl⟩
  | endDrain tab =>
    cases h
    exact ⟨fun _ _ => rfl, fun _ _ h => absurd rfl (h tab), fun _ => rfl, fun _ _ => rfl, fun _ => rfl,
      fun _ _ => rfl⟩
  | settleDrain p result =>
    cases h
    exact ⟨fun _ _ => rfl, fun _ _ _ => rfl, fun _ => rfl, fun _ h => absurd rfl (h p result),
      fun _ => rfl, fun _ _ => rfl⟩
  | now =>
    cases h
    exact ⟨fun _ _ => rfl, fun _ _ _ => rfl, fun _ => rfl, fun _ _ => rfl, fun h => absurd rfl h,
      fun _ _ => rfl⟩
  | joinDrain tab =>
    obtain ⟨_, _, rfl⟩ := uploads_join h
    exact ⟨fun _ _ => rfl, fun _ _ _ => rfl, fun _ => rfl, fun _ _ => rfl, fun _ => rfl, fun _ _ => rfl⟩
  | beginUpload tab input =>
    cases h
    exact ⟨fun _ _ => rfl, fun _ _ _ => rfl, fun _ => rfl, fun _ _ => rfl, fun _ => rfl,
      fun h => absurd rfl (h tab input)⟩
  | awaitUpload tab input =>
    cases h
    exact ⟨fun _ _ => rfl, fun _ _ _ => rfl, fun _ => rfl, fun _ _ => rfl, fun _ => rfl,
      fun _ h => absurd rfl (h tab input)⟩
  | _ =>
    cases h
    exact ⟨fun _ _ => rfl, fun _ _ _ => rfl, fun _ => rfl, fun _ _ => rfl, fun _ => rfl, fun _ _ => rfl⟩

abbrev UploadThread := Thread UploadCall UploadReply UploadTask (Except JsError Unit)

/-- The thread has begun a drain and has yet to end it. -/
structure Drains (localeLE : String → String → Bool) (tab : Nat) (u : UploadThread) (p : Nat) : Prop where
  own : u.task.tab = tab
  live : u.pending.isSome = true
  promise : (look localeLE u.past).promise = some p

/-- What the tab's uploader keeps: a segment that has read the fields knows them, `draining` is set while
a drain runs, and only one runs at a time. -/
structure Exclusive (localeLE : String → String → Bool) (tab : Nat) (s : UploadPool) : Prop where
  follows : s.Follows (uploaders localeLE)
  segment : ∀ u ∈ s.threads, u.task.tab = tab → u.midSegment (uploaders localeLE) = true →
    ∀ old, (look localeLE u.past).read = some old → (s.world.browser.tabs tab).fields = old
  draining : ∀ u ∈ s.threads, ∀ p, Drains localeLE tab u p →
    (s.world.browser.tabs tab).fields.draining = true ∧ s.world.draining tab = p
  one : ∀ (i j : Nat) (u v : UploadThread) (p q : Nat), s.threads[i]? = some u → s.threads[j]? = some v →
    Drains localeLE tab u p → Drains localeLE tab v q → i = j

/-- The tab is loaded again only when none of its scripts runs. -/
def ReloadsQuietly (tab : Nat) (s : UploadPool) (a : UploadAction) : Prop :=
  a = .env (.reload tab) → ∀ u ∈ s.threads, u.task.tab = tab → u.pending = none

/-- A thread that is about to make a call may make it. -/
theorem Exclusive.allowed {tab : Nat} {s : UploadPool} (h : Exclusive localeLE tab s) {t : UploadTask}
    {past : Past UploadReply} {next : UploadReply c → Prog UploadCall UploadReply (Except JsError Unit)}
    (hu : (⟨t, past, some (.call c next)⟩ : UploadThread) ∈ s.threads) :
    Allowed t (look localeLE past) c := by
  obtain ⟨q, leads, same⟩ := h.follows _ hu
  obtain rfl := same _ rfl
  exact (script_allowed localeLE t).at_call leads

theorem exclusive_init {tab : Nat} : Exclusive localeLE tab ⟨w, []⟩ :=
  ⟨Pool.follows_init, fun _ hu => absurd hu List.not_mem_nil, fun _ hu => absurd hu List.not_mem_nil,
    fun _ _ _ _ _ _ hi => by simp at hi⟩

theorem uploads_begin {tab : Nat} {p : Nat} (h : w.perform o (.beginDrain tab) = some (p, w')) :
    p = w.drains.length ∧ w'.drains = w.drains ++ [none] ∧ w'.draining tab = p ∧
      (w'.browser.tabs tab).fields = { (w.browser.tabs tab).fields with draining := true } := by
  cases h
  exact ⟨rfl, rfl, if_pos rfl, congrArg Tab.fields (if_pos rfl)⟩

/-- A task leaves the uploaders of other tabs alone. -/
theorem uploads_apart {tab : Nat} {t : UploadTask} {v : View} (h : w.perform o c = some (r, w'))
    (allowed : Allowed t v c) (apart : t.tab ≠ tab) :
    (w'.browser.tabs tab).fields = (w.browser.tabs tab).fields ∧
      w'.draining tab = w.draining tab := by
  have other : ∀ {n : Nat}, n = t.tab → tab ≠ n := fun same h => apart (h.trans same).symm
  have frame := uploads_frame h
  cases c with
  | setFields n values =>
    cases h
    exact ⟨congrArg Tab.fields (if_neg (other allowed.1)), rfl⟩
  | beginDrain n =>
    cases h
    exact ⟨congrArg Tab.fields (if_neg (other allowed.1)), if_neg (other allowed.1)⟩
  | endDrain n =>
    cases h
    exact ⟨congrArg Tab.fields (if_neg (other allowed.1)), rfl⟩
  | _ =>
    rw [frame.tabs (by simp) (by simp) (by simp), frame.draining (by simp)]
    exact ⟨rfl, rfl⟩

/-- The flag of the tab changes only where a drain begins or ends. -/
theorem uploads_flag {tab : Nat} {t : UploadTask} {v : View} (h : w.perform o c = some (r, w'))
    (allowed : Allowed t v c) (own : t.tab = tab)
    (segment : c.sync = true → ∀ old, v.read = some old → (w.browser.tabs tab).fields = old)
    (begins : ∀ n, c ≠ .beginDrain n) (ends : ∀ n, c ≠ .endDrain n) :
    (w'.browser.tabs tab).fields.draining = (w.browser.tabs tab).fields.draining ∧
      w'.draining tab = w.draining tab := by
  have frame := uploads_frame h
  cases c with
  | setFields n values =>
    obtain ⟨hn, writes⟩ := allowed
    obtain ⟨old, read⟩ := Option.ne_none_iff_exists'.mp writes.known
    cases h
    obtain rfl : tab = n := own.symm.trans hn.symm
    have fields := congrArg Tab.fields (if_pos (rfl : tab = tab) :
      (if tab = tab then { w.browser.tabs tab with fields := values } else w.browser.tabs tab) = _)
    refine ⟨?_, rfl⟩
    rw [segment rfl old read, ← writes.draining old read]
    exact congrArg Fields.draining fields
  | beginDrain n => exact absurd rfl (begins n)
  | endDrain n => exact absurd rfl (ends n)
  | _ =>
    rw [frame.tabs (by simp) (by simp) (by simp), frame.draining (by simp)]
    exact ⟨rfl, rfl⟩

/-- What the mover knows of the fields it has read is so, also after its exchange. -/
theorem uploads_segment {tab : Nat} {t : UploadTask} {past : Past UploadReply}
    (h : w.perform o c = some (r, w')) (allowed : Allowed t (look localeLE past) c) (own : t.tab = tab)
    (segment : c.sync = true → ∀ old, (look localeLE past).read = some old →
      (w.browser.tabs tab).fields = old) :
    ∀ old, (look localeLE (⟨c, r⟩ :: past)).read = some old → (w'.browser.tabs tab).fields = old := by
  have frame := uploads_frame h
  have forgets : (look localeLE (⟨c, r⟩ :: past)).read = none →
      ∀ old, (look localeLE (⟨c, r⟩ :: past)).read = some old → (w'.browser.tabs tab).fields = old := by
    intro none old read
    rw [none] at read
    cases read
  have stays : c.sync = true → w'.browser.tabs = w.browser.tabs →
      (look localeLE (⟨c, r⟩ :: past)).read = (look localeLE past).read →
      ∀ old, (look localeLE (⟨c, r⟩ :: past)).read = some old → (w'.browser.tabs tab).fields = old := by
    intro sync tabs same old read
    rw [tabs]
    exact segment sync old (same ▸ read)
  cases c with
  | arrayBuffer blob => exact forgets rfl
  | idbPut item => exact forgets (View.afterPut_read _ _)
  | idbDelete k => exact forgets (View.afterDelete_read _ _)
  | idbGetAll => exact forgets (View.afterGetAll_read _ _ _)
  | awaitUpload n input => exact forgets rfl
  | turn => exact forgets rfl
  | never => cases h
  | beginDrain n => exact forgets rfl
  | endDrain n => exact forgets rfl
  | fields n =>
    obtain rfl : n = tab := allowed.trans own
    cases h
    intro old read
    exact Option.some.inj read
  | setFields n values =>
    obtain rfl : n = tab := allowed.1.trans own
    cases h
    intro old read
    obtain rfl := Option.some.inj read
    exact congrArg Tab.fields (if_pos rfl)
  | now => exact stays rfl (frame.tabs (by simp) (by simp) (by simp)) (View.afterNow_read _ _)
  | _ => exact stays rfl (frame.tabs (by simp) (by simp) (by simp)) rfl

theorem Exclusive.exchange {tab : Nat} {s s' : UploadPool} {i : Nat} {t : UploadTask}
    {past : Past UploadReply} {next : UploadReply c → Prog UploadCall UploadReply (Except JsError Unit)}
    (h : Exclusive localeLE tab s) (x : Pool.Exchange (uploaders localeLE) s s' i t past c next o r)
    (follows : s'.Follows (uploaders localeLE)) : Exclusive localeLE tab s' := by
  have allowed := h.allowed x.mem
  have hp : s.world.perform o c = some (r, s'.world) := x.performed
  by_cases own : t.tab = tab
  · have segment : c.sync = true → ∀ old, (look localeLE past).read = some old →
        (s.world.browser.tabs tab).fields = old :=
      fun sync => h.segment _ x.mem own sync
    have mover : ∀ p, (look localeLE past).promise = some p →
        Drains localeLE tab ⟨t, past, some (.call c next)⟩ p := fun p promise => ⟨own, rfl, promise⟩
    -- No other drain runs where one begins or ends.
    have alone : ((∃ n, c = .beginDrain n) ∨ ∃ n, c = .endDrain n) → ∀ {j : Nat} {u : UploadThread},
        j ≠ i → s.threads[j]? = some u → ∀ p, ¬ Drains localeLE tab u p := by
      rintro (⟨n, rfl⟩ | ⟨n, rfl⟩) j u ne before p runs
      · obtain ⟨_, _, _, old, read, free⟩ := allowed
        have flag := (h.draining u (List.mem_of_getElem? before) p runs).1
        rw [segment rfl old read, free] at flag
        cases flag
      · obtain ⟨q, promise⟩ := Option.ne_none_iff_exists'.mp allowed.2.1
        exact ne (h.one j i _ _ p q before x.thread runs (mover q promise))
    have known : ∀ u ∈ s'.threads, u.task.tab = tab → u.midSegment (uploaders localeLE) = true →
        ∀ old, (look localeLE u.past).read = some old → (s'.world.browser.tabs tab).fields = old := by
      intro u hu hown mid
      obtain ⟨j, hj⟩ := List.mem_iff_getElem?.mp hu
      rcases x.at hj with ⟨_, rfl⟩ | ⟨ne, before⟩
      · exact uploads_segment hp allowed own segment
      · have between := x.between before ne (hown.trans own.symm)
        rw [between] at mid
        cases mid
    by_cases begins : ∃ n, c = .beginDrain n
    · -- The only drain is the one that begins.
      have only : ∀ {j : Nat} {u : UploadThread} {p : Nat}, s'.threads[j]? = some u →
          Drains localeLE tab u p → j = i ∧ u = ⟨t, ⟨c, r⟩ :: past, some (next r)⟩ := by
        intro j u p hu runs
        rcases x.at hu with here | ⟨ne, before⟩
        · exact here
        · exact absurd runs (alone (Or.inl begins) ne before p)
      refine ⟨follows, known, fun u hu p runs => ?_, fun j k u v p q hu hv runs runs' => ?_⟩
      · obtain ⟨j, hj⟩ := List.mem_iff_getElem?.mp hu
        obtain ⟨_, rfl⟩ := only hj runs
        obtain ⟨n, rfl⟩ := begins
        obtain rfl : n = tab := allowed.1.trans own
        obtain rfl : r = p := Option.some.inj runs.promise
        obtain ⟨_, _, draining, fields⟩ := uploads_begin hp
        rw [fields]
        exact ⟨rfl, draining⟩
      · rw [(only hu runs).1, (only hv runs').1]
    · by_cases ends : ∃ n, c = .endDrain n
      · have none : ∀ {j : Nat} {u : UploadThread} {p : Nat}, s'.threads[j]? = some u →
            ¬ Drains localeLE tab u p := by
          intro j u p hu runs
          rcases x.at hu with ⟨_, rfl⟩ | ⟨ne, before⟩
          · obtain ⟨n, rfl⟩ := ends
            cases runs.promise
          · exact alone (Or.inr ends) ne before p runs
        refine ⟨follows, known, fun u hu p runs => ?_, fun j k u v p q hu hv runs runs' => ?_⟩
        · obtain ⟨j, hj⟩ := List.mem_iff_getElem?.mp hu
          exact absurd runs (none hj)
        · exact absurd runs (none hu)
      · have begins' : ∀ n, c ≠ .beginDrain n := fun n same => begins ⟨n, same⟩
        have ends' : ∀ n, c ≠ .endDrain n := fun n same => ends ⟨n, same⟩
        have flag := uploads_flag hp allowed own segment begins' ends'
        have same : ∀ {j : Nat} {u : UploadThread} {p : Nat}, s'.threads[j]? = some u →
            Drains localeLE tab u p → ∃ v, s.threads[j]? = some v ∧ Drains localeLE tab v p := by
          intro j u p hu runs
          rcases x.at hu with ⟨rfl, rfl⟩ | ⟨_, before⟩
          · exact ⟨_, x.thread, mover p ((look_promise begins' ends').symm.trans runs.promise)⟩
          · exact ⟨u, before, runs⟩
        refine ⟨follows, known, fun u hu p runs => ?_, fun j k u v p q hu hv runs runs' => ?_⟩
        · obtain ⟨j, hj⟩ := List.mem_iff_getElem?.mp hu
          obtain ⟨v, hv, before⟩ := same hj runs
          rw [flag.1, flag.2]
          exact h.draining v (List.mem_of_getElem? hv) p before
        · obtain ⟨u', hu', before⟩ := same hu runs
          obtain ⟨v', hv', before'⟩ := same hv runs'
          exact h.one j k u' v' p q hu' hv' before before'
  · have same := uploads_apart hp allowed own
    have old : ∀ {j : Nat} {u : UploadThread}, s'.threads[j]? = some u → u.task.tab = tab →
        s.threads[j]? = some u := by
      intro j u hu hown
      rcases x.at hu with ⟨_, rfl⟩ | ⟨_, before⟩
      · exact absurd hown own
      · exact before
    refine ⟨follows, ?_, ?_, ?_⟩
    · intro u hu hown mid read hread
      obtain ⟨j, hj⟩ := List.mem_iff_getElem?.mp hu
      rw [same.1]
      exact h.segment u (List.mem_of_getElem? (old hj hown)) hown mid read hread
    · intro u hu p runs
      obtain ⟨j, hj⟩ := List.mem_iff_getElem?.mp hu
      rw [same.1, same.2]
      exact h.draining u (List.mem_of_getElem? (old hj runs.own)) p runs
    · intro j k u v p q hu hv runs runs'
      exact h.one j k u v p q (old hu runs.own) (old hv runs'.own) runs runs'

/-- Where no call is made, a thread has just arrived or was there before, and may have been killed. -/
theorem still_origin {s : UploadPool} {a : UploadAction} (still : ∀ i o, a ≠ .act i o) {v : UploadThread}
    (hv : v ∈ (s.step (uploaders localeLE) a).threads) :
    v.past = [] ∨ ∃ u ∈ s.threads, v.past = u.past ∧ (v = u ∨ v.pending = none) := by
  obtain ⟨i, hi⟩ := List.mem_iff_getElem?.mp hv
  rcases Pool.step_origin s a hi with ⟨t, rfl⟩ | ⟨u, hu, rfl | rfl⟩ | ⟨o, _, _, _, _, _, same, _⟩
  · exact Or.inl rfl
  · exact Or.inr ⟨v, List.mem_of_getElem? hu, rfl, Or.inl rfl⟩
  · exact Or.inr ⟨u, List.mem_of_getElem? hu, rfl, Or.inr rfl⟩
  · exact absurd same (still i o)

/-- A thread that runs a drain then ran it before. -/
theorem drains_before {tab : Nat} {s : UploadPool} {a : UploadAction} (still : ∀ i o, a ≠ .act i o)
    {v : UploadThread} {p : Nat} (hv : v ∈ (s.step (uploaders localeLE) a).threads)
    (runs : Drains localeLE tab v p) : v ∈ s.threads := by
  rcases still_origin still hv with new | ⟨u, hu, _, rfl | killed⟩
  · have promise := runs.promise
    rw [new] at promise
    cases promise
  · exact hu
  · have live := runs.live
    rw [killed] at live
    cases live

/-- All threads are those of one tab if all that arrive are. -/
theorem own_step {tab : Nat} {s : UploadPool} {a : UploadAction} (own : ∀ u ∈ s.threads, u.task.tab = tab)
    (arrives : ∀ t, a = .arrive t → t.tab = tab) :
    ∀ v ∈ (s.step (uploaders localeLE) a).threads, v.task.tab = tab := by
  intro v hv
  obtain ⟨i, hi⟩ := List.mem_iff_getElem?.mp hv
  rcases Pool.step_task (m := uploaders localeLE) s a hi with ⟨u, hu, same⟩ | ⟨arrived, _⟩
  · rw [← same]
    exact own u (List.mem_of_getElem? hu)
  · exact arrives _ arrived

theorem Exclusive.step {tab : Nat} {s : UploadPool} (h : Exclusive localeLE tab s) {a : UploadAction}
    (quiet : ReloadsQuietly tab s a) : Exclusive localeLE tab (s.step (uploaders localeLE) a) := by
  have follows := h.follows.step a
  cases a with
  | act i o =>
    rcases Pool.step_act (m := uploaders localeLE) s i o with same | ⟨t, past, c, next, r, x⟩
    · rwa [same]
    · exact h.exchange x follows
  | arrive t =>
    rcases Pool.step_arrive (m := uploaders localeLE) s t with same | same
    · rwa [same]
    · have old : ∀ {j : Nat} {u : UploadThread} {p : Nat},
          (s.threads ++ [⟨t, [], some ((uploaders localeLE).start t)⟩])[j]? = some u →
          Drains localeLE tab u p → s.threads[j]? = some u := by
        intro j u p hu runs
        rcases getElem?_concat_cases hu with rfl | before
        · cases runs.promise
        · exact before
      rw [same] at follows ⊢
      refine ⟨follows, fun u hu own mid read hread => ?_, fun u hu p runs => ?_, ?_⟩
      · rcases List.mem_append.mp hu with hu | hu
        · exact h.segment u hu own mid read hread
        · rw [List.mem_singleton.mp hu] at hread
          cases hread
      · obtain ⟨j, hj⟩ := List.mem_iff_getElem?.mp hu
        exact h.draining u (List.mem_of_getElem? (old hj runs)) p runs
      · intro j k u v p q hu hv runs runs'
        exact h.one j k u v p q (old hu runs) (old hv runs') runs runs'
  | kill i =>
    rcases Pool.step_kill (m := uploaders localeLE) s i with same | ⟨t, past, c, next, hi, same⟩
    · rwa [same]
    · have old : ∀ {j : Nat} {u : UploadThread}, (s.threads.set i ⟨t, past, none⟩)[j]? = some u →
          u.pending.isSome = true → s.threads[j]? = some u := by
        intro j u hu live
        rcases getElem?_set_cases hu with ⟨_, rfl⟩ | before
        · cases live
        · exact before
      rw [same] at follows ⊢
      refine ⟨follows, fun u hu own mid read hread => ?_, fun u hu p runs => ?_, ?_⟩
      · obtain ⟨j, hj⟩ := List.mem_iff_getElem?.mp hu
        exact h.segment u (List.mem_of_getElem? (old hj (Option.isSome_of_any mid))) own mid read hread
      · obtain ⟨j, hj⟩ := List.mem_iff_getElem?.mp hu
        exact h.draining u (List.mem_of_getElem? (old hj runs.live)) p runs
      · intro j k u v p q hu hv runs runs'
        exact h.one j k u v p q (old hu runs.live) (old hv runs'.live) runs runs'
  | env e =>
    have same : (∀ u ∈ s.threads, u.task.tab = tab → u.pending = none) ∨
        (s.world.browser.env e).tabs tab = s.world.browser.tabs tab := by
      cases e with
      | reload n =>
        by_cases own : n = tab
        · subst own
          exact Or.inl (quiet rfl)
        · exact Or.inr (if_neg (Ne.symm own))
      | tick ms => exact Or.inr rfl
      | login token => exact Or.inr rfl
    rcases same with idle | same
    · have none : ∀ u ∈ s.threads, u.task.tab = tab → u.pending.isSome = true → False := by
        intro u hu own live
        rw [idle u hu own] at live
        cases live
      refine ⟨follows, fun u hu own mid => ?_, fun u hu p runs => ?_, ?_⟩
      · exact (none u hu own (Option.isSome_of_any mid)).elim
      · exact (none u hu runs.own runs.live).elim
      · intro j k u v p q hu _ runs
        exact (none u (List.mem_of_getElem? hu) runs.own runs.live).elim
    · refine ⟨follows, fun u hu own mid old read => ?_, fun u hu p runs => ?_, h.one⟩
      · exact (congrArg Tab.fields same).trans (h.segment u hu own mid old read)
      · have flag : ((s.world.browser.env e).tabs tab).fields.draining = true := by
          rw [same]
          exact (h.draining u hu p runs).1
        exact ⟨flag, (h.draining u hu p runs).2⟩

end ItalyTrip
