import ItalyTrip.CaptureTime

namespace ItalyTrip

namespace Countdown

structure Remaining where
  days : Nat
  hours : Nat
  minutes : Nat
  seconds : Nat
  totalMs : Nat

/-- Both times are in milliseconds. -/
def remainingUntil (endsAt now : Int) : Remaining :=
  let totalMs := (max 0 (endsAt - now)).toNat
  let totalSeconds := totalMs / 1000
  { days := totalSeconds / 86400
    hours := totalSeconds % 86400 / 3600
    minutes := totalSeconds % 3600 / 60
    seconds := totalSeconds % 60
    totalMs }

def formatRemaining (remaining : Remaining) : String :=
  if remaining.totalMs ≤ 0 then "any moment now"
  else if 0 < remaining.days then
    toString remaining.days ++ "d " ++ Capture.pad remaining.hours ++ "h " ++
      Capture.pad remaining.minutes ++ "m"
  else if 0 < remaining.hours then
    toString remaining.hours ++ "h " ++ Capture.pad remaining.minutes ++ "m " ++
      Capture.pad remaining.seconds ++ "s"
  else toString remaining.minutes ++ "m " ++ Capture.pad remaining.seconds ++ "s"

example : formatRemaining (remainingUntil 150500 500) = "2m 30s" := by decide +kernel

/-- The seconds that a unit stands for. -/
def unitOf (c : Char) : Option Nat := [('d', 86400), ('h', 3600), ('m', 60), ('s', 1)].lookup c

/-- A duration as one reads it, letter by letter: the seconds so far, and the number before the next unit. -/
def readChar (state : Option (Nat × Nat)) (c : Char) : Option (Nat × Nat) :=
  state.bind fun (total, number) =>
    if c.isDigit then some (total, 10 * number + (c.toNat - '0'.toNat))
    else if c = ' ' then some (total, number)
    else (unitOf c).map fun unit => (total + number * unit, 0)

def readDuration (text : String) : Option Nat := (text.toList.foldl readChar (some (0, 0))).map Prod.fst

theorem readChar_digits {digits : List Char} (all : ∀ c ∈ digits, c.isDigit = true) (total number : Nat) :
    digits.foldl readChar (some (total, number)) = some (total, Nat.ofDigitChars 10 digits number) := by
  induction digits generalizing number with
  | nil => simp
  | cons c digits ih =>
    obtain ⟨digit, rest⟩ := List.forall_mem_cons.mp all
    rw [Nat.ofDigitChars_cons, ← ih rest]
    simp [readChar, digit]

theorem read_number (total n : Nat) :
    (toString n).toList.foldl readChar (some (total, 0)) = some (total, n) := by
  have digits : (toString n).toList = Nat.toDigits 10 n := Nat.toList_repr
  have all : ∀ c ∈ Nat.toDigits 10 n, c.isDigit = true :=
    fun _ hc => Nat.isDigit_of_mem_toDigits (by decide) (by decide) hc
  rw [digits, readChar_digits all, Nat.ofDigitChars_ten_toDigits]

theorem read_pad {n : Nat} (h : n < 100) (total : Nat) :
    (Capture.pad n).toList.foldl readChar (some (total, 0)) = some (total, n) := by
  have all : ∀ c ∈ Capture.twoDigits n, c.isDigit = true := by
    intro c hc
    rcases List.mem_cons.mp hc with rfl | hc
    · exact (Capture.digit_read (by omega)).1
    · rw [List.mem_singleton.mp hc]
      exact (Capture.digit_read (by omega)).1
  have value : Nat.ofDigitChars 10 (Capture.twoDigits n) 0 = n := by
    rw [Capture.twoDigits, Nat.ofDigitChars_cons_digitChar_of_lt_ten (by omega),
      Nat.ofDigitChars_cons_digitChar_of_lt_ten (by omega), Nat.ofDigitChars_nil]
    omega
  rw [Capture.pad_toList h, readChar_digits all, value]

/-- A unit ends the number before it. -/
theorem read_unit {text : String} {unit : Nat}
    (h : (text, unit) ∈ [("d ", 86400), ("h ", 3600), ("m ", 60), ("m", 60), ("s", 1)]) (total number : Nat) :
    text.toList.foldl readChar (some (total, number)) = some (total + number * unit, 0) := by
  simp only [List.mem_cons, Prod.mk.injEq, List.not_mem_nil, or_false] at h
  rcases h with ⟨rfl, rfl⟩ | ⟨rfl, rfl⟩ | ⟨rfl, rfl⟩ | ⟨rfl, rfl⟩ | ⟨rfl, rfl⟩
  all_goals rfl

theorem readDuration_days (days : Nat) {hours minutes : Nat} (hh : hours < 100) (hm : minutes < 100) :
    readDuration (toString days ++ "d " ++ Capture.pad hours ++ "h " ++ Capture.pad minutes ++ "m") =
      some (days * 86400 + hours * 3600 + minutes * 60) := by
  have day := @read_unit "d " 86400 (by decide)
  have hour := @read_unit "h " 3600 (by decide)
  have minute := @read_unit "m" 60 (by decide)
  simp only [readDuration, String.toList_append, List.foldl_append, read_number, read_pad hh, read_pad hm,
    day, hour, minute, Option.map_some, Nat.zero_add]

theorem readDuration_hours (hours : Nat) {minutes seconds : Nat} (hm : minutes < 100) (hs : seconds < 100) :
    readDuration (toString hours ++ "h " ++ Capture.pad minutes ++ "m " ++ Capture.pad seconds ++ "s") =
      some (hours * 3600 + minutes * 60 + seconds) := by
  have hour := @read_unit "h " 3600 (by decide)
  have minute := @read_unit "m " 60 (by decide)
  have second := @read_unit "s" 1 (by decide)
  simp only [readDuration, String.toList_append, List.foldl_append, read_number, read_pad hm, read_pad hs,
    hour, minute, second, Option.map_some, Nat.zero_add, Nat.mul_one]

theorem readDuration_minutes (minutes : Nat) {seconds : Nat} (hs : seconds < 100) :
    readDuration (toString minutes ++ "m " ++ Capture.pad seconds ++ "s") =
      some (minutes * 60 + seconds) := by
  have minute := @read_unit "m " 60 (by decide)
  have second := @read_unit "s" 1 (by decide)
  simp only [readDuration, String.toList_append, List.foldl_append, read_number, read_pad hs, minute, second,
    Option.map_some, Nat.zero_add, Nat.mul_one]

theorem formatRemaining_passed {endsAt now : Int} (passed : endsAt ≤ now) :
    formatRemaining (remainingUntil endsAt now) = "any moment now" := by
  have zero : max 0 (endsAt - now) = 0 := by omega
  simp [formatRemaining, remainingUntil, zero]

/-- Before the moment the countdown reads as the seconds that are left, or as the whole minutes of them once
that is a day or more. -/
theorem read_left {endsAt now : Int} (left : now < endsAt) :
    readDuration (formatRemaining (remainingUntil endsAt now)) =
      let seconds := ((endsAt - now) / 1000).toNat
      some (if 86400 ≤ seconds then seconds / 60 * 60 else seconds) := by
  obtain ⟨ms, hms⟩ := Int.eq_ofNat_of_zero_le (show 0 ≤ endsAt - now by omega)
  have total : (max 0 (endsAt - now)).toNat = ms := by omega
  have seconds : ((endsAt - now) / 1000).toNat = ms / 1000 := by omega
  have positive : ¬ ms ≤ 0 := by omega
  simp only [seconds, formatRemaining, remainingUntil, total, if_neg positive]
  generalize ms / 1000 = left
  have hours : left % 86400 / 3600 < 100 := by omega
  have minutes : left % 3600 / 60 < 100 := by omega
  have rest : left % 60 < 100 := by omega
  split
  next whole =>
    have long : 86400 ≤ left := by omega
    rw [readDuration_days _ hours minutes, if_pos long]
    congr 1
    omega
  next part =>
    have short : ¬ 86400 ≤ left := by omega
    rw [if_neg short]
    split
    next =>
      rw [readDuration_hours _ minutes rest]
      congr 1
      omega
    next =>
      rw [readDuration_minutes _ rest]
      congr 1
      omega

/-- The countdown can be read back: it says how many seconds are left, or how many of the whole minutes once
that is a day or more, and says so until the moment has passed. From then on it is "any moment now". -/
theorem countdown_reads (endsAt now : Int) :
    readDuration (formatRemaining (remainingUntil endsAt now)) =
      (if endsAt ≤ now then none
      else
        let seconds := ((endsAt - now) / 1000).toNat
        some (if 86400 ≤ seconds then seconds / 60 * 60 else seconds)) ∧
    (formatRemaining (remainingUntil endsAt now) = "any moment now" ↔ endsAt ≤ now) := by
  have unread : readDuration "any moment now" = none := by decide +kernel
  by_cases passed : endsAt ≤ now
  · rw [if_pos passed, formatRemaining_passed passed]
    exact ⟨unread, iff_of_true rfl passed⟩
  · have read := read_left (Int.not_le.mp passed)
    rw [if_neg passed]
    refine ⟨read, fun text => ?_, fun h => absurd h passed⟩
    rw [text, unread] at read
    cases read

end Countdown

end ItalyTrip
