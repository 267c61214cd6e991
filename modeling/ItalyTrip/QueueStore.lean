import ItalyTrip.DrainExclusive

namespace ItalyTrip

open Calls

/-- IndexedDB keeps one capture under each key. -/
def Keyed (store : List PendingPhoto) : Prop := (store.map PendingPhoto.clientId).Nodup

instance (store : List PendingPhoto) : Decidable (Keyed store) :=
  inferInstanceAs (Decidable (List.Nodup _))

variable {localeLE : String → String → Bool} {w w' : UploadWorld} {o : UploadChoice}

theorem mem_put {b : Browser} {item kept : PendingPhoto} :
    kept ∈ (b.put item).store ↔ kept = item ∨ kept ∈ b.store ∧ kept.clientId ≠ item.clientId := by
  simp [Browser.put]

theorem mem_delete {b : Browser} {clientId : String} {kept : PendingPhoto} :
    kept ∈ (b.delete clientId).store ↔ kept ∈ b.store ∧ kept.clientId ≠ clientId := by
  simp [Browser.delete]

theorem keyed_delete {b : Browser} (keyed : Keyed b.store) (clientId : String) :
    Keyed (b.delete clientId).store :=
  keyed.sublist (List.filter_sublist.map _)

theorem keyed_put {b : Browser} (keyed : Keyed b.store) (item : PendingPhoto) :
    Keyed (b.put item).store := by
  refine List.nodup_cons.mpr ⟨fun h => ?_, keyed.sublist (List.filter_sublist.map _)⟩
  obtain ⟨other, hother, same⟩ := List.mem_map.mp h
  obtain ⟨_, ne⟩ := List.mem_filter.mp hother
  simp [same] at ne

/-- Of captures with the same key there is one. -/
theorem Keyed.eq {store : List PendingPhoto} (keyed : Keyed store) {x y : PendingPhoto} (hx : x ∈ store)
    (hy : y ∈ store) (same : x.clientId = y.clientId) : x = y :=
  List.inj_on_of_nodup_map keyed hx hy same

@[simp] theorem mem_dueOf {now : Int} {items : List PendingPhoto} {item : PendingPhoto} :
    item ∈ UploaderClass.dueOf localeLE now items ↔
      item ∈ items ∧ item.failed = false ∧ item.nextAttemptAt ≤ now := by
  simp [UploaderClass.dueOf, List.mem_insertionSort, and_comm]

theorem dueOf_keyed {now : Int} {items : List PendingPhoto} (keyed : Keyed items) :
    Keyed (UploaderClass.dueOf localeLE now items) := by
  have perm := (List.perm_insertionSort (fun a b : PendingPhoto => localeLE a.takenAt b.takenAt)
    (items.filter fun item => !item.failed && item.nextAttemptAt ≤ now)).map PendingPhoto.clientId
  exact perm.nodup_iff.mpr (keyed.sublist (List.filter_sublist.map _))

/-- A put that succeeds has put; one that fails may have. -/
theorem uploads_put {item : PendingPhoto} {r : Except String Unit}
    (h : w.perform o (.idbPut item) = some (r, w')) :
    r = .ok () ∧ w'.browser = w.browser.put item ∨
      (∃ m, r = .error m) ∧ (w'.browser = w.browser ∨ w'.browser = w.browser.put item) :=
  Browser.faulty_cases (uploads_onBrowser h).1

theorem uploads_delete {clientId : String} {r : Except String Unit}
    (h : w.perform o (.idbDelete clientId) = some (r, w')) :
    r = .ok () ∧ w'.browser = w.browser.delete clientId ∨
      (∃ m, r = .error m) ∧ (w'.browser = w.browser ∨ w'.browser = w.browser.delete clientId) :=
  Browser.faulty_cases (uploads_onBrowser h).1

theorem uploads_getAll {items : List PendingPhoto} (h : w.perform o .idbGetAll = some (.ok items, w')) :
    items.Perm w.browser.store := by
  rcases Browser.faulty_cases (uploads_onBrowser h).1 with ⟨hr, _⟩ | ⟨⟨m, hr⟩, _⟩
  · rw [Except.ok.inj hr]
    exact List.perm_insertionSort _ _
  · cases hr

theorem perform_keyed {c : UploadCall} {r : UploadReply c} (keyed : Keyed w.browser.store)
    (h : w.perform o c = some (r, w')) : Keyed w'.browser.store := by
  cases c with
  | idbPut item =>
    rcases uploads_put h with ⟨_, same⟩ | ⟨_, same | same⟩ <;> rw [same]
    · exact keyed_put keyed item
    · exact keyed
    · exact keyed_put keyed item
  | idbDelete clientId =>
    rcases uploads_delete h with ⟨_, same⟩ | ⟨_, same | same⟩ <;> rw [same]
    · exact keyed_delete keyed clientId
    · exact keyed
    · exact keyed_delete keyed clientId
  | _ =>
    rw [(uploads_frame h).store (by simp) (by simp)]
    exact keyed

/-- What is in the queue was there before or has just been put. -/
theorem uploads_store {c : UploadCall} {r : UploadReply c} (h : w.perform o c = some (r, w'))
    {item : PendingPhoto} (hitem : item ∈ w'.browser.store) : item ∈ w.browser.store ∨ c = .idbPut item := by
  cases c with
  | idbPut new =>
    have old : w'.browser = w.browser ∨ w'.browser = w.browser.put new :=
      (uploads_put h).elim (fun h => Or.inr h.2) And.right
    rcases old with same | same <;> rw [same] at hitem
    · exact Or.inl hitem
    · rcases mem_put.mp hitem with rfl | ⟨kept, _⟩
      · exact Or.inr rfl
      · exact Or.inl kept
  | idbDelete clientId =>
    have old : w'.browser = w.browser ∨ w'.browser = w.browser.delete clientId :=
      (uploads_delete h).elim (fun h => Or.inr h.2) And.right
    rcases old with same | same <;> rw [same] at hitem
    · exact Or.inl hitem
    · exact Or.inl (mem_delete.mp hitem).1
  | _ =>
    rw [(uploads_frame h).store (by simp) (by simp)] at hitem
    exact Or.inl hitem

theorem env_store (b : Browser) (e : BrowserEvent) : (b.env e).store = b.store := by
  cases e <;> rfl

theorem env_clock (b : Browser) (e : BrowserEvent) : b.clock ≤ (b.env e).clock := by
  cases e with
  | tick ms => exact Int.le_add_of_nonneg_right (Int.natCast_nonneg ms)
  | reload n => exact le_rfl
  | login token => exact le_rfl

/-- Where no call is made, the clock goes on and no more happens. -/
theorem still_world {s : UploadPool} {a : UploadAction} (still : ∀ i o, a ≠ .act i o) :
    (s.step (uploaders localeLE) a).world.browser.store = s.world.browser.store ∧
      s.world.browser.clock ≤ (s.step (uploaders localeLE) a).world.browser.clock ∧
      (s.step (uploaders localeLE) a).world.history = s.world.history := by
  rcases Pool.step_world (m := uploaders localeLE) s a with
    same | ⟨i, o, _, _, _, _, _, _, same⟩ | ⟨e, same⟩
  · rw [same]
    exact ⟨rfl, le_rfl, rfl⟩
  · exact absurd same (still i o)
  · rw [same]
    exact ⟨env_store _ e, env_clock _ e, rfl⟩

end ItalyTrip
