import ItalyTrip.Filenames

namespace ItalyTrip

theorem toList_toString (n : Nat) : (toString n).toList = Nat.toDigits 10 n := Nat.toList_repr

theorem pad_digits {width n : Nat} {c : Char} (h : c ∈ (pad width n).toList) :
    c.isDigit = true := by
  unfold pad at h
  rw [String.toList_append, String.toList_ofList, List.mem_append, toList_toString] at h
  obtain zero | digit := h
  · obtain ⟨_, rfl⟩ := List.mem_replicate.mp zero
    decide
  · exact Nat.isDigit_of_mem_toDigits (by decide) (by decide) digit

theorem pad_ne_nil (width n : Nat) : (pad width n).toList ≠ [] := by
  unfold pad
  rw [String.toList_append, toList_toString]
  exact List.append_ne_nil_of_right_ne_nil _ Nat.toDigits_ne_nil

/-- A date and a time of day are digits, and only the year may have a sign. -/
theorem formatTime_shape (t : Instant) : ∃ sign date second : List Char,
    (formatTime t).toList = sign ++ (date ++ '-' :: second) ∧ (sign = [] ∨ sign = ['-']) ∧
      date ≠ [] ∧ (∀ c ∈ date, c.isDigit = true) ∧ ∀ c ∈ second, c.isDigit = true := by
  unfold formatTime padYear
  dsimp only
  generalize civilDate (t / 1000000000 / 86400) = date
  generalize (t / 1000000000 % 86400).toNat = second
  refine ⟨if date.year < 0 then ['-'] else [],
    (pad 4 date.year.natAbs ++ pad 2 date.month ++ pad 2 date.day).toList,
    (pad 2 (second / 3600) ++ pad 2 (second / 60 % 60) ++ pad 2 (second % 60)).toList,
    ?_, ?_, ?_, fun c hc => ?_, fun c hc => ?_⟩
  · split <;> simp
  · split <;> simp
  · rw [String.toList_append]
    exact List.append_ne_nil_of_right_ne_nil _ (pad_ne_nil _ _)
  · simp only [String.toList_append, List.mem_append, or_assoc] at hc
    obtain h | h | h := hc <;> exact pad_digits h
  · simp only [String.toList_append, List.mem_append, or_assoc] at hc
    obtain h | h | h := hc <;> exact pad_digits h

theorem cut_first {x x' y y' : List Char} (hx : '-' ∉ x) (hx' : '-' ∉ x')
    (h : x ++ '-' :: y = x' ++ '-' :: y') : x = x' ∧ y = y' := by
  induction x generalizing x' with
  | nil =>
    cases x' with
    | nil => exact ⟨rfl, (List.cons.inj h).2⟩
    | cons c x' =>
      obtain ⟨rfl, -⟩ := List.cons.inj h
      exact absurd List.mem_cons_self hx'
  | cons c x ih =>
    cases x' with
    | nil =>
      obtain ⟨rfl, -⟩ := List.cons.inj h
      exact absurd List.mem_cons_self hx
    | cons c' x' =>
      obtain ⟨rfl, tails⟩ := List.cons.inj h
      have rest := ih (fun h => hx (List.mem_cons_of_mem _ h))
        (fun h => hx' (List.mem_cons_of_mem _ h)) tails
      exact ⟨congrArg _ rest.1, rest.2⟩

theorem cut_last {x x' y y' : List Char} (hy : '-' ∉ y) (hy' : '-' ∉ y')
    (h : x ++ '-' :: y = x' ++ '-' :: y') : x = x' ∧ y = y' := by
  have reversed : y.reverse ++ '-' :: x.reverse = y'.reverse ++ '-' :: x'.reverse := by
    simpa using congrArg List.reverse h
  have cut := cut_first (by simpa using hy) (by simpa using hy') reversed
  exact ⟨List.reverse_injective cut.2, List.reverse_injective cut.1⟩

theorem dash_notin {digits : List Char} (h : ∀ c ∈ digits, c.isDigit = true) : '-' ∉ digits :=
  fun hm => absurd (h _ hm) (by decide)

/-- No time has the text of a time that a number follows. -/
theorem formatTime_not_numbered (t t' : Instant) {digits : List Char}
    (h : (formatTime t).toList = (formatTime t').toList ++ '-' :: digits) : False := by
  obtain ⟨sign, date, second, text, hsign, some, hdate, hsecond⟩ := formatTime_shape t
  obtain ⟨sign', date', second', text', hsign', some', hdate', hsecond'⟩ := formatTime_shape t'
  rw [text, text', List.append_assoc, List.append_assoc, List.cons_append] at h
  -- the first digit tells whether there is a sign
  have same : sign = sign' := by
    obtain ⟨c, date, rfl⟩ := List.exists_cons_of_ne_nil some
    obtain ⟨c', date', rfl⟩ := List.exists_cons_of_ne_nil some'
    have hc := hdate c List.mem_cons_self
    have hc' := hdate' c' List.mem_cons_self
    obtain rfl | rfl := hsign <;> obtain rfl | rfl := hsign'
    · rfl
    · obtain ⟨rfl, -⟩ := List.cons.inj h
      cases hc
    · obtain ⟨rfl, -⟩ := List.cons.inj h
      cases hc'
    · rfl
  subst same
  have cut := cut_first (dash_notin hdate) (dash_notin hdate') (List.append_cancel_left h)
  exact dash_notin hsecond (by rw [cut.2]; simp)

namespace Photos

theorem downloadFilename_toList (t : Instant) :
    (downloadFilename t).toList = ("italy-".toList ++ (formatTime t).toList) ++ ".jpg".toList := by
  simp [downloadFilename]

theorem splitExtension_jpg (base : List Char) :
    splitExtension (base ++ ".jpg".toList) = (base, ".jpg".toList) := by
  have tail : base ++ ".jpg".toList = base ++ ['.'] ++ ['j'] ++ ['p'] ++ ['g'] := by simp
  have dot : '.' ∈ base ++ ['.'] ++ ['j'] ++ ['p'] ++ ['g'] := by simp
  rw [splitExtension, tail, if_pos dot]
  simp [List.rdropWhile, List.rtakeWhile]

/-- The name that the `k`-th photo of a name gets. -/
def suffixed (name : String) (k : Nat) : String :=
  if k = 1 then name
  else
    let (base, ext) := splitExtension name.toList
    String.ofList base ++ "-" ++ toString k ++ String.ofList ext

theorem suffixed_toList (t : Instant) (k : Nat) :
    (suffixed (downloadFilename t) k).toList = "italy-".toList ++
      ((formatTime t).toList ++ if k = 1 then [] else '-' :: Nat.toDigits 10 k) ++
        ".jpg".toList := by
  unfold suffixed
  split
  next => simp [downloadFilename_toList]
  next =>
    rw [downloadFilename_toList, splitExtension_jpg]
    simp

/-- A suffixed name tells the name and the number. -/
theorem suffixed_inj {t t' : Instant} {k k' : Nat}
    (h : suffixed (downloadFilename t) k = suffixed (downloadFilename t') k') :
    downloadFilename t = downloadFilename t' ∧ k = k' := by
  have h := congrArg String.toList h
  rw [suffixed_toList, suffixed_toList] at h
  have h := List.append_cancel_left (List.append_cancel_right h)
  split at h
  next one =>
    split at h
    next one' =>
      rw [List.append_nil, List.append_nil] at h
      exact ⟨congrArg (fun text => "italy-" ++ text ++ ".jpg") (String.toList_injective h),
        one.trans one'.symm⟩
    next =>
      rw [List.append_nil] at h
      exact (formatTime_not_numbered t t' h).elim
  next =>
    split at h
    next =>
      rw [List.append_nil] at h
      exact (formatTime_not_numbered t' t h.symm).elim
    next =>
      have digits : ∀ n : Nat, '-' ∉ Nat.toDigits 10 n := fun n => dash_notin fun c hc =>
        Nat.isDigit_of_mem_toDigits (by decide) (by decide) hc
      have cut := cut_last (digits k) (digits k') h
      have same := congrArg (fun text => Nat.ofDigitChars 10 text 0) cut.2
      rw [Nat.ofDigitChars_ten_toDigits, Nat.ofDigitChars_ten_toDigits] at same
      exact ⟨congrArg (fun text => "italy-" ++ text ++ ".jpg") (String.toList_injective cut.1), same⟩

theorem uniqueName_eq (seen : Names) (name : String) :
    uniqueName seen name =
      (suffixed name (seen.count name + 1), (name, seen.count name + 1) :: seen) := by
  unfold uniqueName suffixed
  dsimp only
  split <;> rfl

theorem count_cons (seen : Names) (name other : String) (n : Nat) :
    Names.count ((name, n) :: seen) other = if other = name then n else seen.count other := by
  unfold Names.count
  rw [List.lookup_cons]
  by_cases h : other = name
  · simp [h]
  · simp [h, beq_false_of_ne h]

/-- The names along the loop. -/
def entryNames : Names → List String → List String
  | _, [] => []
  | seen, name :: names =>
    (uniqueName seen name).1 :: entryNames (uniqueName seen name).2 names

/-- The loop gives a name only numbers that it has not given to that name before. -/
theorem mem_entryNames {seen : Names} {names : List String} {entry : String}
    (h : entry ∈ entryNames seen names) :
    ∃ name ∈ names, ∃ k, seen.count name < k ∧ entry = suffixed name k := by
  induction names generalizing seen with
  | nil => cases h
  | cons name names ih =>
    simp only [entryNames, uniqueName_eq] at h
    obtain rfl | later := List.mem_cons.mp h
    · exact ⟨name, List.mem_cons_self, _, Nat.lt_succ_self _, rfl⟩
    · obtain ⟨other, hother, k, fresh, rfl⟩ := ih later
      refine ⟨other, List.mem_cons_of_mem _ hother, k, ?_, rfl⟩
      rw [count_cons] at fresh
      split at fresh
      next same =>
        subst same
        omega
      next => exact fresh

theorem entryNames_nodup (seen : Names) (times : List Instant) :
    (entryNames seen (times.map downloadFilename)).Nodup := by
  induction times generalizing seen with
  | nil => exact List.nodup_nil
  | cons t times ih =>
    simp only [List.map_cons, entryNames, uniqueName_eq]
    refine List.nodup_cons.mpr ⟨fun again => ?_, ih _⟩
    obtain ⟨other, hother, k, fresh, same⟩ := mem_entryNames again
    obtain ⟨t', _, rfl⟩ := List.mem_map.mp hother
    obtain ⟨names, rfl⟩ := suffixed_inj same
    rw [count_cons, if_pos names.symm] at fresh
    exact Nat.lt_irrefl _ fresh

end Photos

end ItalyTrip
