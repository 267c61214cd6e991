import ItalyTrip.DrainItems

namespace ItalyTrip

open Calls

variable {localeLE : String → String → Bool} {tab : Nat} {first : List String} {s s' : UploadPool}
  {i : Nat} {t : UploadTask} {past : Past UploadReply} {c : UploadCall} {o : UploadChoice}
  {r : UploadReply c} {next : UploadReply c → Prog UploadCall UploadReply (Except JsError Unit)}

/-- The scripts of the tab run on. -/
def Unbroken : UploadAction → Prop
  | .kill _ => False
  | _ => True

instance : (a : UploadAction) → Decidable (Unbroken a)
  | .kill _ => isFalse id
  | .arrive _ | .act _ _ | .env _ => isTrue trivial

/-- Every drain that runs has a promise that is not settled before its loop is left, and while `draining`
is set one runs. -/
structure Promised (localeLE : String → String → Bool) (tab : Nat) (s : UploadPool) : Prop where
  made : ∀ u ∈ s.threads, ∀ p, Drains localeLE tab u p → p < s.world.drains.length
  pending : ∀ u ∈ s.threads, ∀ p, Drains localeLE tab u p → (look localeLE u.past).stage ≠ .ended →
    s.world.drains[p]? = some none
  running : (s.world.browser.tabs tab).fields.draining = true →
    ∃ u ∈ s.threads, Drains localeLE tab u (s.world.draining tab)

/-- A drain that has left its loop does not go back into it. -/
theorem ended_stays (allowed : Allowed t (look localeLE past) c)
    (ended : (look localeLE past).stage = .ended) (running : (look localeLE past).promise ≠ none)
    (ends : ∀ n, c ≠ .endDrain n) : (look localeLE (⟨c, r⟩ :: past)).stage = .ended := by
  cases c with
  | endDrain n => exact absurd rfl (ends n)
  | beginDrain n => exact absurd allowed.2.1 running
  | beginUpload n input => exact absurd (ended.symm.trans allowed.2.2.1) (by simp)
  | awaitUpload n input => exact absurd (ended.symm.trans allowed.2.2.1) (by simp)
  | again n => exact absurd (ended.symm.trans allowed.2.2.1) (by simp)
  | idbPut new =>
    rcases allowed with ⟨none, _⟩ | ⟨_, _, _, _, _, _, stage, _⟩
    · exact absurd none running
    · exact absurd (ended.symm.trans stage) (by simp)
  | idbDelete clientId =>
    obtain ⟨_, _, _, _, _, stage, _⟩ := allowed
    exact absurd (ended.symm.trans stage) (by simp)
  | idbGetAll => exact (View.afterGetAll_rests (Or.inr ended) r).stage.trans ended
  | now => exact (congrArg View.stage (View.afterNow_rests (Or.inr ended) r)).trans ended
  | _ => exact ended

/-- A drain does not begin while another one runs, nor end one that another thread runs. -/
theorem Exclusive.alone {j : Nat} {u : UploadThread} {p : Nat} (h : Exclusive localeLE tab s)
    (x : Pool.Exchange (uploaders localeLE) s s' i t past c next o r) (own : t.tab = tab)
    (turns : (∃ n, c = .beginDrain n) ∨ ∃ n, c = .endDrain n) (ne : j ≠ i)
    (before : s.threads[j]? = some u) : ¬ Drains localeLE tab u p := by
  intro runs
  have allowed := h.allowed x.mem
  rcases turns with ⟨n, rfl⟩ | ⟨n, rfl⟩
  · obtain ⟨_, _, _, old, read, free⟩ := allowed
    have flag := (h.draining u (List.mem_of_getElem? before) p runs).1
    rw [h.segment _ x.mem own rfl old read, free] at flag
    cases flag
  · obtain ⟨q, promise⟩ := Option.ne_none_iff_exists'.mp allowed.2.1
    exact ne (h.one j i _ _ p q before x.thread runs ⟨own, rfl, promise⟩)

/-- A thread that runs a drain after an exchange ran it before, or has just begun it. -/
theorem Exclusive.drains_since {u : UploadThread} {p : Nat} (h : Exclusive localeLE tab s)
    (x : Pool.Exchange (uploaders localeLE) s s' i t past c next o r) (own : t.tab = tab)
    (hu : u ∈ s'.threads) (runs : Drains localeLE tab u p) :
    (u = ⟨t, ⟨c, r⟩ :: past, some (next r)⟩ ∧ (⟨c, r⟩ : Sigma UploadReply) = ⟨.beginDrain tab, p⟩) ∨
    (u = ⟨t, ⟨c, r⟩ :: past, some (next r)⟩ ∧ Drains localeLE tab ⟨t, past, some (.call c next)⟩ p ∧
      (∀ n, c ≠ .beginDrain n) ∧ ∀ n, c ≠ .endDrain n) ∨
    ((∃ j, j ≠ i ∧ s.threads[j]? = some u) ∧ (∀ n, c ≠ .beginDrain n) ∧ ∀ n, c ≠ .endDrain n) := by
  obtain ⟨j, hj⟩ := List.mem_iff_getElem?.mp hu
  rcases x.at hj with ⟨_, rfl⟩ | ⟨ne, before⟩
  · by_cases begins : ∃ n, c = .beginDrain n
    · obtain ⟨n, rfl⟩ := begins
      obtain rfl : n = tab := (h.allowed x.mem).1.trans own
      obtain rfl : r = p := Option.some.inj runs.promise
      exact Or.inl ⟨rfl, rfl⟩
    · by_cases ends : ∃ n, c = .endDrain n
      · obtain ⟨n, rfl⟩ := ends
        cases runs.promise
      · have begins' : ∀ n, c ≠ .beginDrain n := fun n same => begins ⟨n, same⟩
        have ends' : ∀ n, c ≠ .endDrain n := fun n same => ends ⟨n, same⟩
        refine Or.inr (Or.inl ⟨rfl, ⟨own, rfl, ?_⟩, begins', ends'⟩)
        exact (look_promise begins' ends').symm.trans runs.promise
  · refine Or.inr (Or.inr ⟨⟨j, ne, before⟩, fun n same => ?_, fun n same => ?_⟩)
    · exact h.alone x own (Or.inl ⟨n, same⟩) ne before runs
    · exact h.alone x own (Or.inr ⟨n, same⟩) ne before runs

/-- A script is not over before its drain is. -/
theorem Exclusive.runs (h : Exclusive localeLE tab s) {u : UploadThread} {p : Nat} (hu : u ∈ s.threads)
    (own : u.task.tab = tab) (killed : u.rest ≠ none) (promise : (look localeLE u.past).promise = some p) :
    Drains localeLE tab u p := by
  obtain ⟨t, past, rest⟩ := u
  refine ⟨own, ?_, promise⟩
  obtain ⟨q, leads, same⟩ := h.follows _ hu
  cases rest with
  | none => exact absurd rfl killed
  | some q' =>
    obtain rfl := same _ rfl
    cases q' with
    | call c next => rfl
    | done a =>
      have finished := (script_allowed localeLE t).at_done leads
      exact absurd (promise.symm.trans finished) (by simp)

theorem uploads_end {w w' : UploadWorld} (h : w.perform o (.endDrain tab) = some ((), w')) :
    (w'.browser.tabs tab).fields.draining = false := by
  cases h
  exact congrArg (fun t : Tab => t.fields.draining) (if_pos rfl)

theorem uploads_settle {w w' : UploadWorld} {p : Nat} {result : Except JsError Unit}
    (h : w.perform o (.settleDrain p result) = some ((), w')) : w'.drains = w.drains.set p (some result) := by
  cases h
  rfl

theorem uploads_drains {w w' : UploadWorld} (h : w.perform o c = some (r, w')) :
    w.drains.length ≤ w'.drains.length := by
  cases c with
  | beginDrain n =>
    cases h
    simp
  | settleDrain p result =>
    rw [uploads_settle h, List.length_set]
  | _ => rw [(uploads_frame h).drains (by simp) (by simp)]

theorem Promised.exchange (h : Promised localeLE tab s) (exclusive : Exclusive localeLE tab s)
    (exclusive' : Exclusive localeLE tab s') (own : t.tab = tab)
    (x : Pool.Exchange (uploaders localeLE) s s' i t past c next o r) : Promised localeLE tab s' := by
  have hp : s.world.perform o c = some (r, s'.world) := x.performed
  have allowed := exclusive.allowed x.mem
  refine ⟨fun u hu p runs => ?_, fun u hu p runs loops => ?_, fun flag => ?_⟩
  · rcases exclusive.drains_since x own hu runs with ⟨_, hx⟩ | ⟨_, before, _⟩ | ⟨⟨j, _, before⟩, _⟩
    · cases hx
      obtain ⟨rfl, drains, _⟩ := uploads_begin hp
      rw [drains, List.length_append]
      exact Nat.lt_succ_self _
    · exact (h.made _ x.mem p before).trans_le (uploads_drains hp)
    · exact (h.made u (List.mem_of_getElem? before) p runs).trans_le (uploads_drains hp)
  · rcases exclusive.drains_since x own hu runs with
      ⟨_, hx⟩ | ⟨rfl, before, begins, ends⟩ | ⟨⟨j, ne, before⟩, begins, _⟩
    · cases hx
      obtain ⟨rfl, drains, _⟩ := uploads_begin hp
      rw [drains, List.getElem?_concat_length]
    · have running : (look localeLE past).promise ≠ none := by
        rw [before.promise]
        exact Option.some_ne_none p
      have loops' : (look localeLE past).stage ≠ .ended :=
        fun ended => loops (ended_stays allowed ended running ends)
      rw [(uploads_frame hp).drains begins]
      · exact h.pending _ x.mem p before loops'
      · rintro q result rfl
        exact loops' allowed.2
    · have same := h.pending u (List.mem_of_getElem? before) p runs loops
      rw [(uploads_frame hp).drains begins]
      · exact same
      · rintro q result rfl
        exact ne (exclusive.one j i _ _ p q before x.thread runs ⟨own, rfl, allowed.1⟩)
  · by_cases begins : ∃ n, c = .beginDrain n
    · obtain ⟨n, rfl⟩ := begins
      obtain rfl : n = tab := allowed.1.trans own
      obtain ⟨_, _, draining, _⟩ := uploads_begin hp
      rw [draining]
      exact ⟨_, x.mem_after, exclusive'.runs x.mem_after own (by simp) rfl⟩
    · by_cases ends : ∃ n, c = .endDrain n
      · obtain ⟨n, rfl⟩ := ends
        obtain rfl : n = tab := allowed.1.trans own
        rw [uploads_end hp] at flag
        cases flag
      · have begins' : ∀ n, c ≠ .beginDrain n := fun n same => begins ⟨n, same⟩
        have ends' : ∀ n, c ≠ .endDrain n := fun n same => ends ⟨n, same⟩
        obtain ⟨same, draining⟩ := uploads_flag hp allowed own
          (fun sync => exclusive.segment _ x.mem own sync) begins' ends'
        rw [same] at flag
        rw [draining]
        obtain ⟨u, hu, runs⟩ := h.running flag
        obtain ⟨j, hj⟩ := List.mem_iff_getElem?.mp hu
        by_cases mover : j = i
        · subst mover
          obtain rfl := Option.some.inj (hj.symm.trans x.thread)
          have promise := (look_promise begins' ends' (r := r)).trans runs.promise
          exact ⟨_, x.mem_after, exclusive'.runs x.mem_after own (by simp) promise⟩
        · refine ⟨u, ?_, runs⟩
          rw [x.threads]
          exact List.mem_iff_getElem?.mpr ⟨j, by rwa [List.getElem?_set_ne (Ne.symm mover)]⟩

theorem Promised.step (h : Promised localeLE tab s) (own : OwnQueue localeLE tab first s) {a : UploadAction}
    (steady : Steady localeLE tab first s a) (whole : Unbroken a) :
    Promised localeLE tab (s.step (uploaders localeLE) a) := by
  have exclusive := (own.step steady).exclusive
  cases a with
  | act i o =>
    rcases Pool.step_act (m := uploaders localeLE) s i o with same | ⟨t, past, c, next, r, x⟩
    · rwa [same]
    · exact h.exchange own.exclusive exclusive (own.own _ x.mem) x
  | arrive t =>
    rcases Pool.step_arrive (m := uploaders localeLE) s t with same | same
    · rwa [same]
    · rw [same]
      have old : ∀ {u : UploadThread} {p : Nat},
          u ∈ s.threads ++ [⟨t, [], some ((uploaders localeLE).start t)⟩] → Drains localeLE tab u p →
          u ∈ s.threads := by
        intro u p hu runs
        rcases List.mem_append.mp hu with hu | hu
        · exact hu
        · rw [List.mem_singleton.mp hu] at runs
          cases runs.promise
      refine ⟨fun u hu p runs => h.made u (old hu runs) p runs,
        fun u hu p runs => h.pending u (old hu runs) p runs, fun flag => ?_⟩
      obtain ⟨u, hu, runs⟩ := h.running flag
      exact ⟨u, List.mem_append_left _ hu, runs⟩
  | kill i => exact whole.elim
  | env e =>
    refine ⟨h.made, h.pending, fun flag => ?_⟩
    have same : (s.world.browser.env e).tabs tab = s.world.browser.tabs tab ∨
        ((s.world.browser.env e).tabs tab).fields.draining = false := by
      cases e with
      | reload n =>
        by_cases here : tab = n
        · exact Or.inr (congrArg (fun t : Tab => t.fields.draining) (if_pos here))
        · exact Or.inl (if_neg here)
      | tick ms => exact Or.inl rfl
      | login token => exact Or.inl rfl
    rcases same with same | off
    · exact h.running (by rw [← same]; exact flag)
    · exact absurd (flag.symm.trans off) (by simp)

/-- The drain will come to the item: it goes round again, has yet to take its snapshot at a time when the
item is due, or has the item left. -/
inductive Waits (again : Bool) (since : Int) (item : PendingPhoto) (v : View) : Prop
  | again : again = true → v.stage ≠ .ended → Waits again since item v
  | opening : v.stage = .opening none → Waits again since item v
  | opened (now : Int) : v.stage = .opening (some now) → since ≤ now → Waits again since item v
  | left : v.stage.busy = true → item ∈ v.items → Waits again since item v

theorem Waits.like {again : Bool} {since : Int} {item : PendingPhoto} {v v' : View}
    (h : Waits again since item v) (stage : v'.stage = v.stage) (items : v'.items = v.items) :
    Waits again since item v' := by
  cases h with
  | again flag loops => exact .again flag (stage ▸ loops)
  | opening opens => exact .opening (stage.trans opens)
  | opened now opens le => exact .opened now (stage.trans opens) le
  | left busy hitem => exact .left (stage ▸ busy) (items ▸ hitem)

theorem Waits.not_ended {again : Bool} {since : Int} {item : PendingPhoto} {v : View}
    (h : Waits again since item v) : v.stage ≠ .ended := by
  intro ended
  cases h with
  | again _ loops => exact loops ended
  | opening opens => exact absurd (ended.symm.trans opens) (by simp)
  | opened now opens _ => exact absurd (ended.symm.trans opens) (by simp)
  | left busy _ =>
    rw [ended] at busy
    cases busy

/-- While a snapshot is being sent, the drain has the item left or goes round again. -/
theorem Waits.busy {again : Bool} {since : Int} {item : PendingPhoto} {v v' : View}
    (h : Waits again since item v) (busy : v.stage.busy = true) (busy' : v'.stage.busy = true)
    (left : item ∈ v.items → item ∈ v'.items) : Waits again since item v' := by
  cases h with
  | again flag _ =>
    refine .again flag fun ended => ?_
    rw [ended] at busy'
    cases busy'
  | opening opens =>
    rw [opens] at busy
    cases busy
  | opened now opens _ =>
    rw [opens] at busy
    cases busy
  | left _ hitem => exact .left busy' (left hitem)

/-- `again` is reset only where a round begins. -/
theorem uploads_again {w w' : UploadWorld} (h : w.perform o c = some (r, w'))
    (allowed : Allowed t (look localeLE past) c) (own : t.tab = tab)
    (segment : c.sync = true → ∀ old, (look localeLE past).read = some old →
      (w.browser.tabs tab).fields = old) (flag : (w.browser.tabs tab).fields.again = true) :
    (w'.browser.tabs tab).fields.again = true ∨ (look localeLE past).stage = .opening none := by
  have frame := uploads_frame h
  cases c with
  | setFields n values =>
    obtain ⟨rfl, writes⟩ := allowed
    obtain rfl : tab = t.tab := own.symm
    obtain ⟨old, read⟩ := Option.ne_none_iff_exists'.mp writes.known
    rw [segment rfl old read] at flag
    cases h
    rcases writes.again old read flag with kept | opens
    · exact Or.inl ((congrArg (fun t : Tab => t.fields.again) (if_pos rfl)).trans kept)
    · exact Or.inr opens
  | beginDrain n =>
    obtain rfl : n = tab := allowed.1.trans own
    cases h
    exact Or.inl ((congrArg (fun t : Tab => t.fields.again) (if_pos rfl)).trans flag)
  | endDrain n =>
    obtain rfl : n = tab := allowed.1.trans own
    cases h
    exact Or.inl ((congrArg (fun t : Tab => t.fields.again) (if_pos rfl)).trans flag)
  | _ =>
    rw [frame.tabs (by simp) (by simp) (by simp)]
    exact Or.inl flag

theorem uploads_asks {w w' : UploadWorld} {again : Bool} (h : w.perform o (.again tab) = some (again, w')) :
    again = (w.browser.tabs tab).fields.again := by
  cases h
  rfl

/-- The drain that waits for an item goes on to, unless it deals with it. -/
theorem Waits.exchange {since : Int} {item : PendingPhoto} (own : OwnQueue localeLE tab first s)
    (x : Pool.Exchange (uploaders localeLE) s s' i t past c next o r)
    (works : Works s.world ⟨t, past, c, r, s'.world⟩) (running : (look localeLE past).promise ≠ none)
    (begins : ∀ n, c ≠ .beginDrain n) (ends : ∀ n, c ≠ .endDrain n)
    (hitem : item ∈ s.world.browser.store) (due : item.failed = false ∧ item.nextAttemptAt ≤ since)
    (clock : since ≤ s.world.browser.clock) (deals : ¬ DealsWith localeLE past c r item)
    (h : Waits (s.world.browser.tabs tab).fields.again since item (look localeLE past)) :
    Waits (s'.world.browser.tabs tab).fields.again since item (look localeLE (⟨c, r⟩ :: past)) := by
  have hp : s.world.perform o c = some (r, s'.world) := x.performed
  have allowed := (own.allowed x.mem).1
  have frame := uploads_frame hp
  have tabs : (∀ n values, c ≠ .setFields n values) → s'.world.browser.tabs = s.world.browser.tabs :=
    fun sets => frame.tabs sets begins ends
  cases c with
  | never => cases hp
  | beginDrain n => exact absurd rfl (begins n)
  | endDrain n => exact absurd rfl (ends n)
  | setFields n values =>
    cases h with
    | again flag loops =>
      have kept := uploads_again hp allowed (own.own _ x.mem)
        (fun sync => own.exclusive.segment _ x.mem (own.own _ x.mem) sync) flag
      rcases kept with kept | opens
      · exact .again kept loops
      · exact .opening opens
    | opening opens => exact .opening opens
    | opened now opens le => exact .opened now opens le
    | left busy hitem => exact .left busy hitem
  | again n =>
    obtain ⟨rfl, _, ready, empty⟩ := allowed
    rw [tabs (by simp)]
    cases h with
    | again flag _ =>
      refine .opening ?_
      change (if r then Stage.opening none else .ended) = _
      rw [uploads_asks hp, own.own _ x.mem, flag]
      rfl
    | opening opens => exact absurd (ready.symm.trans opens) (by simp)
    | opened now opens _ => exact absurd (ready.symm.trans opens) (by simp)
    | left _ hitem =>
      rw [empty] at hitem
      cases hitem
  | now =>
    rw [tabs (by simp)]
    have same : look localeLE (⟨.now, r⟩ :: past) = (look localeLE past).afterNow r := rfl
    rw [same]
    unfold View.afterNow
    split
    next => exact .opened r rfl (clock.trans (works.2.trans (uploads_now hp).ge))
    next stage => exact h.busy (by rw [stage]; rfl) rfl id
    next => exact h
  | idbGetAll =>
    rw [tabs (by simp)]
    cases r with
    | error m => cases works.1
    | ok items =>
      have same : look localeLE (⟨.idbGetAll, .ok items⟩ :: past) =
        (look localeLE past).afterGetAll localeLE (.ok items) := rfl
      rw [same]
      by_cases opens : ∃ now, (look localeLE past).stage = .opening (some now)
      · obtain ⟨now, opens⟩ := opens
        rw [View.afterGetAll_opening opens]
        cases h with
        | again flag _ => exact .again flag (by simp)
        | opening stage => exact absurd (opens.symm.trans stage) (by simp)
        | opened now' stage le =>
          cases opens.symm.trans stage
          exact .left rfl (mem_dueOf.mpr ⟨(uploads_getAll hp).symm.subset hitem, due.1, due.2.trans le⟩)
        | left busy _ =>
          rw [opens] at busy
          cases busy
      · rw [View.afterGetAll_apart]
        · exact h.like rfl rfl
        · rintro (_ | now) stage
          · exact allowed stage
          · exact opens ⟨now, stage⟩
  | beginUpload n input =>
    rw [tabs (by simp)]
    exact h.busy (by rw [allowed.2.2.1]; rfl) rfl id
  | awaitUpload n input =>
    rw [tabs (by simp)]
    exact h.busy (by rw [allowed.2.2.1]; rfl) rfl id
  | idbPut new =>
    rw [tabs (by simp)]
    rcases allowed with ⟨none, _⟩ | ⟨_, front, rest, error, now, items, stage, recorded⟩
    · exact absurd none running
    · cases r with
      | error m => cases works.1
      | ok _ =>
        have after : look localeLE (⟨.idbPut new, .ok ()⟩ :: past) = (look localeLE past).next :=
          View.afterPut_ok stage
        rw [after]
        refine h.busy (by rw [stage]; rfl) rfl fun hitem => ?_
        rw [items] at hitem
        rcases List.mem_cons.mp hitem with rfl | later
        · exact absurd ⟨Or.inr ⟨new, rfl, recorded.counts.1⟩, running, ⟨rest, items⟩, ⟨_, now, stage⟩, after⟩ deals
        · rw [View.next, items]
          exact later
  | idbDelete clientId =>
    rw [tabs (by simp)]
    obtain ⟨_, front, rest, answer, items, stage, _, rfl⟩ := allowed
    cases r with
    | error m => cases works.1
    | ok _ =>
      have after : look localeLE (⟨.idbDelete front.clientId, .ok ()⟩ :: past) = (look localeLE past).next :=
        View.afterDelete_ok stage
      rw [after]
      refine h.busy (by rw [stage]; rfl) rfl fun hitem => ?_
      rw [items] at hitem
      rcases List.mem_cons.mp hitem with rfl | later
      · exact absurd ⟨Or.inl rfl, running, ⟨rest, items⟩, ⟨answer, none, stage⟩, after⟩ deals
      · rw [View.next, items]
        exact later
  | _ =>
    rw [tabs (by simp)]
    exact h.like rfl rfl

/-- The item has advanced, or the promise is pending and the drain that is to settle it waits for the item. -/
structure Awaited (localeLE : String → String → Bool) (tab : Nat) (first : List String) (p : Nat)
    (since : Int) (item : PendingPhoto) (s : UploadPool) : Prop where
  used : Used localeLE first s.threads item.clientId
  made : p < s.world.drains.length
  clock : since ≤ s.world.browser.clock
  outcome : Advanced item s.world.browser.store ∨ s.world.drains[p]? = some none ∧
    item ∈ s.world.browser.store ∧ ∀ u ∈ s.threads, Drains localeLE tab u p →
      Waits (s.world.browser.tabs tab).fields.again since item (look localeLE u.past)

theorem Awaited.exchange {p : Nat} {since : Int} {item : PendingPhoto}
    (h : Awaited localeLE tab first p since item s) (own : OwnQueue localeLE tab first s)
    (due : item.failed = false ∧ item.nextAttemptAt ≤ since)
    (x : Pool.Exchange (uploaders localeLE) s s' i t past c next o r)
    (works : Works s.world ⟨t, past, c, r, s'.world⟩)
    (used : Used localeLE first s'.threads item.clientId) :
    Awaited localeLE tab first p since item s' := by
  have hp : s.world.perform o c = some (r, s'.world) := x.performed
  obtain ⟨allowed, idle⟩ := own.allowed x.mem
  have ours : t.tab = tab := own.own _ x.mem
  refine ⟨used, h.made.trans_le (uploads_drains hp), h.clock.trans works.2, ?_⟩
  rcases h.outcome with advanced | ⟨pending, hitem, waits⟩
  · exact Or.inl (own.advanced x h.used advanced)
  · rcases own.advances x works.1 hitem with ⟨stays, deals⟩ | ⟨_, advanced⟩
    · refine Or.inr ⟨?_, stays, fun u hu runs => ?_⟩
      · by_cases begins : ∃ n, c = .beginDrain n
        · obtain ⟨n, rfl⟩ := begins
          obtain ⟨_, drains, _⟩ := uploads_begin hp
          rw [drains, List.getElem?_append_left h.made, pending]
        · by_cases settles : ∃ q result, c = .settleDrain q result
          · obtain ⟨q, result, rfl⟩ := settles
            have ne : q ≠ p := by
              rintro rfl
              exact (waits _ x.mem ⟨ours, rfl, allowed.1⟩).not_ended allowed.2
            rw [uploads_settle hp, List.getElem?_set_ne ne, pending]
          · rw [(uploads_frame hp).drains]
            · exact pending
            · exact fun n same => begins ⟨n, same⟩
            · exact fun q result same => settles ⟨q, result, same⟩
      · rcases own.exclusive.drains_since x ours hu runs with
          ⟨_, hx⟩ | ⟨rfl, before, begins, ends⟩ | ⟨⟨j, ne, before⟩, begins, ends⟩
        · cases hx
          obtain ⟨rfl, _⟩ := uploads_begin hp
          exact absurd h.made (lt_irrefl _)
        · have running : (look localeLE past).promise ≠ none := by
            rw [before.promise]
            exact Option.some_ne_none p
          exact (waits _ x.mem before).exchange own x works running begins ends hitem due h.clock deals
        · have held := waits u (List.mem_of_getElem? before) runs
          -- Where `again` is reset another drain than this one would be running.
          cases held with
          | again flag loops =>
            have kept := uploads_again hp allowed ours
              (fun sync => own.exclusive.segment _ x.mem ours sync) flag
            rcases kept with kept | opens
            · exact .again kept loops
            · have running : (look localeLE past).promise ≠ none := by
                intro none
                exact absurd ((idle.mp none).symm.trans opens) (by simp)
              obtain ⟨q, promise⟩ := Option.ne_none_iff_exists'.mp running
              exact absurd (own.exclusive.one j i _ _ p q before x.thread runs ⟨ours, rfl, promise⟩) ne
          | opening opens => exact .opening opens
          | opened now opens le => exact .opened now opens le
          | left busy hitem => exact .left busy hitem
    · exact Or.inl advanced

theorem Awaited.step {p : Nat} {since : Int} {item : PendingPhoto}
    (h : Awaited localeLE tab first p since item s) (own : OwnQueue localeLE tab first s)
    (due : item.failed = false ∧ item.nextAttemptAt ≤ since) {a : UploadAction}
    (steady : Steady localeLE tab first s a) :
    Awaited localeLE tab first p since item (s.step (uploaders localeLE) a) := by
  have used := h.used.step a
  cases a with
  | act i o =>
    rcases Pool.step_act (m := uploaders localeLE) s i o with same | ⟨t, past, c, next, r, x⟩
    · rwa [same]
    · exact h.exchange own due x (Pool.Meets.at steady x) used
  | arrive t =>
    rcases Pool.step_arrive (m := uploaders localeLE) s t with same | same
    · rwa [same]
    · rw [same] at used ⊢
      refine ⟨used, h.made, h.clock, h.outcome.imp_right ?_⟩
      rintro ⟨pending, hitem, waits⟩
      refine ⟨pending, hitem, fun u hu runs => ?_⟩
      rcases List.mem_append.mp hu with hu | hu
      · exact waits u hu runs
      · rw [List.mem_singleton.mp hu] at runs
        cases runs.promise
  | kill i =>
    rcases Pool.step_kill (m := uploaders localeLE) s i with same | ⟨t, past, c, next, hi, same⟩
    · rwa [same]
    · rw [same] at used ⊢
      refine ⟨used, h.made, h.clock, h.outcome.imp_right ?_⟩
      rintro ⟨pending, hitem, waits⟩
      refine ⟨pending, hitem, fun u hu runs => ?_⟩
      rcases List.mem_or_eq_of_mem_set hu with hu | rfl
      · exact waits u hu runs
      · cases runs.live
  | env e =>
    have store := env_store s.world.browser e
    refine ⟨used, h.made, h.clock.trans (env_clock _ e), ?_⟩
    change Advanced item (s.world.browser.env e).store ∨ s.world.drains[p]? = some none ∧
      item ∈ (s.world.browser.env e).store ∧ ∀ u ∈ s.threads, Drains localeLE tab u p →
        Waits ((s.world.browser.env e).tabs tab).fields.again since item (look localeLE u.past)
    rw [store]
    refine h.outcome.imp_right ?_
    rintro ⟨pending, hitem, waits⟩
    refine ⟨pending, hitem, fun u hu runs => ?_⟩
    have same : (s.world.browser.env e).tabs tab = s.world.browser.tabs tab := by
      cases e with
      | reload n =>
        refine if_neg fun here => ?_
        have idle := steady here.symm u hu
        have live := runs.live
        rw [idle] at live
        cases live
      | tick ms => rfl
      | login token => rfl
    rw [same]
    exact waits u hu runs

/-- The drain of the promise has left its loop, and these items are as they were; or it is over. -/
structure Over (localeLE : String → String → Bool) (tab p : Nat) (items : List PendingPhoto) (s : UploadPool) :
    Prop where
  made : p < s.world.drains.length
  outcome : (∃ u ∈ s.threads, Drains localeLE tab u p ∧ (look localeLE u.past).stage = .ended ∧
      ∀ item ∈ items, item ∈ s.world.browser.store) ∨
    ∀ u ∈ s.threads, ¬ Drains localeLE tab u p

theorem Over.exchange {p : Nat} {items : List PendingPhoto} (h : Over localeLE tab p items s)
    (own : OwnQueue localeLE tab first s) (exclusive' : Exclusive localeLE tab s')
    (x : Pool.Exchange (uploaders localeLE) s s' i t past c next o r)
    (works : queueWorks ⟨c, r⟩ = true) : Over localeLE tab p items s' := by
  have hp : s.world.perform o c = some (r, s'.world) := x.performed
  have allowed := (own.allowed x.mem).1
  have ours : t.tab = tab := own.own _ x.mem
  refine ⟨h.made.trans_le (uploads_drains hp), ?_⟩
  have since : ∀ {u : UploadThread}, u ∈ s'.threads → Drains localeLE tab u p →
      (∃ v ∈ s.threads, Drains localeLE tab v p) ∧ ∀ n, c ≠ .endDrain n := by
    intro u hu runs
    rcases own.exclusive.drains_since x ours hu runs with
      ⟨_, hx⟩ | ⟨_, before, _, ends⟩ | ⟨⟨j, _, before⟩, _, ends⟩
    · cases hx
      obtain ⟨rfl, _⟩ := uploads_begin hp
      exact absurd h.made (lt_irrefl _)
    · exact ⟨⟨_, x.mem, before⟩, ends⟩
    · exact ⟨⟨u, List.mem_of_getElem? before, runs⟩, ends⟩
  rcases h.outcome with ⟨u, hu, runs, ended, kept⟩ | none
  · obtain ⟨j, hj⟩ := List.mem_iff_getElem?.mp hu
    by_cases mover : j = i
    · subst mover
      obtain rfl := Option.some.inj (hj.symm.trans x.thread)
      have running : (look localeLE past).promise ≠ Option.none := by
        rw [runs.promise]
        exact Option.some_ne_none p
      by_cases ends : ∃ n, c = .endDrain n
      · obtain ⟨n, rfl⟩ := ends
        exact Or.inr fun v hv runs' => (since hv runs').2 n rfl
      · have begins' : ∀ n, c ≠ .beginDrain n := by
          rintro n rfl
          exact running allowed.2.1
        have ends' : ∀ n, c ≠ .endDrain n := fun n same => ends ⟨n, same⟩
        have promise := (look_promise begins' ends' (r := r)).trans runs.promise
        refine Or.inl ⟨_, x.mem_after, exclusive'.runs x.mem_after ours (by simp) promise,
          ended_stays allowed ended running ends', fun item hitem => ?_⟩
        rcases own.advances x works (kept item hitem) with ⟨stays, _⟩ | ⟨deals, _⟩
        · exact stays
        · obtain ⟨_, _, stage⟩ := deals.stage
          exact absurd (ended.symm.trans stage) (by simp)
    · refine Or.inl ⟨u, ?_, runs, ended, fun item hitem => ?_⟩
      · rw [x.threads]
        exact List.mem_iff_getElem?.mpr ⟨j, by rwa [List.getElem?_set_ne (Ne.symm mover)]⟩
      · rcases own.advances x works (kept item hitem) with ⟨stays, _⟩ | ⟨deals, _⟩
        · exact stays
        · obtain ⟨q, promise⟩ := Option.ne_none_iff_exists'.mp deals.promise
          exact absurd (own.exclusive.one j i _ _ p q hj x.thread runs ⟨ours, rfl, promise⟩) mover
  · refine Or.inr fun u hu runs => ?_
    obtain ⟨⟨v, hv, before⟩, _⟩ := since hu runs
    exact none v hv before

theorem Over.step {p : Nat} {items : List PendingPhoto} (h : Over localeLE tab p items s)
    (own : OwnQueue localeLE tab first s) {a : UploadAction} (steady : Steady localeLE tab first s a)
    (whole : Unbroken a) : Over localeLE tab p items (s.step (uploaders localeLE) a) := by
  have exclusive := (own.step steady).exclusive
  cases a with
  | act i o =>
    rcases Pool.step_act (m := uploaders localeLE) s i o with same | ⟨t, past, c, next, r, x⟩
    · rwa [same]
    · exact h.exchange own exclusive x (Pool.Meets.at steady x).1
  | arrive t =>
    rcases Pool.step_arrive (m := uploaders localeLE) s t with same | same
    · rwa [same]
    · rw [same]
      refine ⟨h.made, ?_⟩
      rcases h.outcome with ⟨u, hu, runs⟩ | none
      · exact Or.inl ⟨u, List.mem_append_left _ hu, runs⟩
      · refine Or.inr fun u hu runs => ?_
        rcases List.mem_append.mp hu with hu | hu
        · exact none u hu runs
        · rw [List.mem_singleton.mp hu] at runs
          cases runs.promise
  | kill i => exact whole.elim
  | env e =>
    refine ⟨h.made, ?_⟩
    change (∃ u ∈ s.threads, _ ∧ _ ∧ ∀ item ∈ items, item ∈ (s.world.browser.env e).store) ∨ _
    rw [env_store]
    exact h.outcome

/-- A promise is settled by the drain that began it. -/
theorem settles_since {p : Nat} {result : Except JsError Unit} {a : UploadAction}
    (own : OwnQueue localeLE tab first s) (pending : s.world.drains[p]? = some none)
    (settled : (s.step (uploaders localeLE) a).world.drains[p]? = some (some result)) :
    (∃ u ∈ s.threads, Drains localeLE tab u p) ∧
      (s.step (uploaders localeLE) a).world.browser.store = s.world.browser.store := by
  rcases Pool.step_world (m := uploaders localeLE) s a with
    same | ⟨i, o, t, past, c, next, r, x, _⟩ | ⟨e, same⟩
  · rw [same, pending] at settled
    cases settled
  · have hp : s.world.perform o c = some (r, (s.step (uploaders localeLE) a).world) := x.performed
    by_cases settles : ∃ q result, c = .settleDrain q result
    · obtain ⟨q, result', rfl⟩ := settles
      refine ⟨?_, (uploads_frame hp).store (by simp) (by simp)⟩
      have here : q = p := by
        by_contra ne
        rw [uploads_settle hp, List.getElem?_set_ne ne, pending] at settled
        cases settled
      subst here
      exact ⟨_, x.mem, own.own _ x.mem, rfl, (own.allowed x.mem).1.1⟩
    · by_cases begins : ∃ n, c = .beginDrain n
      · obtain ⟨n, rfl⟩ := begins
        obtain ⟨lt, _⟩ := List.getElem?_eq_some_iff.mp pending
        obtain ⟨_, drains, _⟩ := uploads_begin hp
        rw [drains, List.getElem?_append_left lt, pending] at settled
        cases settled
      · rw [(uploads_frame hp).drains (fun n same => begins ⟨n, same⟩)
          fun q result same => settles ⟨q, result, same⟩, pending] at settled
        cases settled
  · rw [same] at settled
    exact absurd (pending.symm.trans settled) (by simp)

/-- At this action a `drain()` call of the tab returns the promise `p`, which is new or joined. -/
def Returns (localeLE : String → String → Bool) (tab p : Nat) (s : UploadPool) (a : UploadAction) : Prop :=
  ∃ x, s.exchanged (uploaders localeLE) a = some x ∧
    ((⟨x.call, x.reply⟩ : Sigma UploadReply) = ⟨.beginDrain tab, p⟩ ∨
      (⟨x.call, x.reply⟩ : Sigma UploadReply) = ⟨.joinDrain tab, p⟩)

/-- The drain of the tab, if one runs, has yet to leave its loop. -/
def Looping (localeLE : String → String → Bool) (tab : Nat) (s : UploadPool) : Prop :=
  ∀ u ∈ s.threads, ∀ p, Drains localeLE tab u p → (look localeLE u.past).stage ≠ .ended

/-- The item is in the queue, and is to be tried. -/
structure DueNow (s : UploadPool) (item : PendingPhoto) : Prop where
  mem : item ∈ s.world.browser.store
  failed : item.failed = false
  time : item.nextAttemptAt ≤ s.world.browser.clock

theorem Awaited.call {p : Nat} {item : PendingPhoto} {a : UploadAction}
    (own : OwnQueue localeLE tab first s) (promised : Promised localeLE tab s)
    (returns : Returns localeLE tab p s a) (loops : Looping localeLE tab s) (due : DueNow s item) :
    Awaited localeLE tab first p s.world.browser.clock item (s.step (uploaders localeLE) a) := by
  have used := (own.enrolled.store item due.mem).step a
  obtain ⟨⟨t, past, c, r, w⟩, hx, call⟩ := returns
  obtain ⟨i, o, next, rfl, x, _⟩ := Pool.exchanged_spec hx
  have ours : t.tab = tab := own.own _ x.mem
  have allowed := (own.allowed x.mem).1
  have hp : s.world.perform o c = some (r, (s.step (uploaders localeLE) (.act i o)).world) := x.performed
  rcases call with call | call
  · cases call
    obtain ⟨rfl, drains, _⟩ := uploads_begin hp
    have frame := uploads_frame hp
    refine ⟨used, ?_, (frame.clock (by simp)).ge, Or.inr ⟨?_, ?_, fun u hu runs => ?_⟩⟩
    · rw [drains, List.length_append]
      exact Nat.lt_succ_self _
    · rw [drains, List.getElem?_concat_length]
    · rw [frame.store (by simp) (by simp)]
      exact due.mem
    · rcases own.exclusive.drains_since x ours hu runs with ⟨rfl, _⟩ | ⟨_, _, begins, _⟩ | ⟨_, begins, _⟩
      · exact .opening rfl
      · exact absurd rfl (begins tab)
      · exact absurd rfl (begins tab)
  · cases call
    obtain ⟨flag, rfl, same⟩ := uploads_join hp
    obtain ⟨_, free, old, read, again⟩ := allowed
    obtain ⟨v, hv, holds⟩ := promised.running flag
    refine ⟨used, same ▸ promised.made v hv _ holds, (congrArg (·.browser.clock) same).ge,
      Or.inr ⟨?_, same ▸ due.mem, fun u hu runs => ?_⟩⟩
    · rw [same]
      exact promised.pending v hv _ holds (loops v hv _ holds)
    · rcases own.exclusive.drains_since x ours hu runs with ⟨_, hx⟩ | ⟨rfl, before, _⟩ | ⟨⟨j, _, before⟩, _⟩
      · cases hx
      · exact absurd (before.promise.symm.trans free) (by simp)
      · refine .again ?_ (loops u (List.mem_of_getElem? before) _ runs)
        rw [same, own.exclusive.segment _ x.mem ours rfl old read]
        exact again

/-- Where the drain that is joined has left its loop, the items stay as they are. -/
theorem Over.call {p : Nat} {a : UploadAction} (own : OwnQueue localeLE tab first s)
    (promised : Promised localeLE tab s) (returns : Returns localeLE tab p s a)
    (late : ¬ Looping localeLE tab s) :
    Over localeLE tab p s.world.browser.store (s.step (uploaders localeLE) a) := by
  simp only [Looping, not_forall, not_not] at late
  obtain ⟨v, hv, q, runs, ended⟩ := late
  obtain ⟨⟨t, past, c, r, w⟩, hx, call⟩ := returns
  obtain ⟨i, o, next, rfl, x, _⟩ := Pool.exchanged_spec hx
  have ours : t.tab = tab := own.own _ x.mem
  have allowed := (own.allowed x.mem).1
  have hp : s.world.perform o c = some (r, (s.step (uploaders localeLE) (.act i o)).world) := x.performed
  obtain ⟨j, hj⟩ := List.mem_iff_getElem?.mp hv
  have ne : j ≠ i := by
    rintro rfl
    obtain rfl := Option.some.inj (hj.symm.trans x.thread)
    rcases call with call | call <;> cases call <;> exact absurd (runs.promise.symm.trans allowed.2.1) (by simp)
  rcases call with call | call
  · cases call
    exact absurd runs (own.exclusive.alone x ours (Or.inl ⟨tab, rfl⟩) ne hj)
  · cases call
    obtain ⟨flag, rfl, same⟩ := uploads_join hp
    obtain rfl := (own.exclusive.draining v hv q runs).2
    refine ⟨same ▸ promised.made v hv _ runs, Or.inl ⟨v, ?_, runs, ended, fun item hitem => same ▸ hitem⟩⟩
    rw [x.threads]
    exact List.mem_iff_getElem?.mpr ⟨j, by rwa [List.getElem?_set_ne (Ne.symm ne)]⟩

/-- When the promise that a `drain()` call returned is resolved, what was due at the call has been tried or
is gone, exactly where no drain had left its loop at the call, or nothing was due. -/
theorem drain_resolved {p : Nat} {b : Browser} {before between : List UploadAction} {a last : UploadAction}
    (keyed : Keyed b.store) (idle : (b.tabs tab).fields.draining = false)
    (runs : Pool.Throughout (uploaders localeLE) (fun s a =>
      Steady localeLE tab (b.store.map PendingPhoto.clientId) s a ∧ Unbroken a)
      ⟨.start b, []⟩ (before ++ a :: (between ++ [last]))) :
    let called : UploadPool := Pool.exec (uploaders localeLE) ⟨.start b, []⟩ before
    let waiting := (called.step (uploaders localeLE) a).exec (uploaders localeLE) between
    let resolved := waiting.step (uploaders localeLE) last
    Returns localeLE tab p called a → waiting.world.drains[p]? = some none →
      resolved.world.drains[p]? = some (some (.ok ())) →
      ((∀ item, DueNow called item → ∀ kept ∈ resolved.world.browser.store,
          kept.clientId = item.clientId → kept.attempts ≠ item.attempts) ↔
        Looping localeLE tab called ∨ ∀ item, ¬ DueNow called item) := by
  intro called waiting resolved returns pending settled
  obtain ⟨start, here, rest⟩ := Pool.throughout_append.mp runs
  obtain ⟨later, final, _⟩ := Pool.throughout_append.mp rest
  have step : ∀ (s : UploadPool) (a : UploadAction),
      OwnQueue localeLE tab (b.store.map PendingPhoto.clientId) s ∧ Promised localeLE tab s →
      Steady localeLE tab (b.store.map PendingPhoto.clientId) s a ∧ Unbroken a →
      OwnQueue localeLE tab (b.store.map PendingPhoto.clientId) (s.step (uploaders localeLE) a) ∧
        Promised localeLE tab (s.step (uploaders localeLE) a) :=
    fun s a h allowed => ⟨h.1.step allowed.1, h.2.step h.1 allowed.1 allowed.2⟩
  have init : Promised localeLE tab ⟨.start b, []⟩ := by
    refine ⟨fun _ hu => absurd hu List.not_mem_nil, fun _ hu => absurd hu List.not_mem_nil, fun flag => ?_⟩
    exact absurd (flag.symm.trans idle) (by simp)
  have own := start.induction step ⟨ownQueue_init keyed, init⟩
  have own' := step called a own here
  constructor
  · intro tried
    by_contra late
    simp only [not_or, not_forall, not_not] at late
    obtain ⟨left, item, due⟩ := late
    have after := (later.induction (P := fun s =>
      (OwnQueue localeLE tab (b.store.map PendingPhoto.clientId) s ∧ Promised localeLE tab s) ∧
        Over localeLE tab p called.world.browser.store s)
      (fun s a h allowed => ⟨step s a h.1 allowed, h.2.step h.1.1 allowed.1 allowed.2⟩)
      ⟨own', Over.call own.1 own.2 returns left⟩)
    obtain ⟨⟨u, hu, holds⟩, same⟩ := settles_since after.1.1 pending settled
    rcases after.2.outcome with ⟨_, _, _, _, kept⟩ | none
    · exact tried item due item (same ▸ kept item due.mem) rfl rfl
    · exact none u hu holds
  · rintro (loops | none) item due kept hkept same
    · have awaited := later.induction (P := fun s =>
        (OwnQueue localeLE tab (b.store.map PendingPhoto.clientId) s ∧ Promised localeLE tab s) ∧
          Awaited localeLE tab (b.store.map PendingPhoto.clientId) p called.world.browser.clock item s)
        (fun s a h allowed =>
          ⟨step s a h.1 allowed, h.2.step h.1.1 ⟨due.failed, due.time⟩ allowed.1⟩)
        ⟨own', Awaited.call own.1 own.2 returns loops due⟩
      have tried := awaited.2.step awaited.1.1 ⟨due.failed, due.time⟩ final.1
      rcases tried.outcome with advanced | ⟨still, _⟩
      · exact (advanced kept hkept same).ne'
      · exact absurd (still.symm.trans settled) (by simp)
    · exact absurd due (none item)

private def sampleUploaders := uploaders fun x y => decide (x ≤ y)

private def sampleStep (i : Nat) : UploadAction := .act i ⟨sampleNet (.error "Failed to fetch"), .ok none⟩

/-- A capture is taken while the drain of an empty queue counts what is in it. -/
private def sampleLate : UploadPool :=
  (sampleUploads []).exec sampleUploaders (.arrive (.drain 0 2) :: sampleActs 0 7 (.ok none) ++
    .arrive (.enqueue 0 2 sampleCapture) :: sampleActs 1 8 (.ok none))

private def sampleLateResolved : UploadPool :=
  ((sampleLate.step sampleUploaders (sampleStep 1)).exec sampleUploaders (sampleActs 0 5 (.ok none))).step
    sampleUploaders (sampleStep 0)

/-- The promise that this drain then gives the caller is resolved, and the capture has not been tried. -/
theorem drain_resolved_early :
    Returns (fun x y => decide (x ≤ y)) 0 0 sampleLate (sampleStep 1) ∧
    sampleLateResolved.world.drains[0]? = some (some (.ok ())) ∧
    ¬ ∀ item, DueNow sampleLate item → ∀ kept ∈ sampleLateResolved.world.browser.store,
      kept.clientId = item.clientId → kept.attempts ≠ item.attempts := by
  refine ⟨⟨_, rfl, Or.inr rfl⟩, rfl, fun tried => ?_⟩
  have due : DueNow sampleLate _ := ⟨List.mem_cons_self, rfl, by decide +kernel⟩
  exact tried _ due _ List.mem_cons_self rfl rfl

/-- The capture is taken while an earlier one is in flight. -/
private def sampleFolding : List UploadAction :=
  .arrive (.drain 0 2) :: sampleActs 0 7 (.ok none) ++ .arrive (.enqueue 0 2 sampleCapture) ::
    sampleActs 1 8 (.ok none)

private def sampleFolded : UploadPool := (sampleUploads [sampleItem "a" "08:00"]).exec sampleUploaders sampleFolding

private def sampleFoldedResolved : UploadPool :=
  ((sampleFolded.step sampleUploaders (sampleStep 1)).exec sampleUploaders (sampleActs 0 16 (.ok none))).step
    sampleUploaders (sampleStep 0)

theorem drain_resolved_sample :
    sampleFoldedResolved.world.drains[0]? = some (some (.ok ())) ∧
    ∀ item, DueNow sampleFolded item → ∀ kept ∈ sampleFoldedResolved.world.browser.store,
      kept.clientId = item.clientId → kept.attempts ≠ item.attempts := by
  have loops : Looping (fun x y => decide (x ≤ y)) 0 sampleFolded := by
    have running : ∀ u ∈ sampleFolded.threads, (look (fun x y => decide (x ≤ y)) u.past).promise = none ∨
        (look (fun x y => decide (x ≤ y)) u.past).stage.busy = true := by decide +kernel
    rintro u hu p runs ended
    rcases running u hu with none | busy
    · exact absurd (none.symm.trans runs.promise) (by simp)
    · rw [ended] at busy
      cases busy
  have iff := @drain_resolved (fun x y => decide (x ≤ y)) 0 0
    { sampleBrowser "user" with store := [sampleItem "a" "08:00"] } sampleFolding (sampleActs 0 16 (.ok none))
    (sampleStep 1) (sampleStep 0) (by decide) rfl (by decide +kernel) ⟨_, rfl, Or.inr rfl⟩ rfl rfl
  exact ⟨rfl, iff.mpr (Or.inl loops)⟩

end ItalyTrip
