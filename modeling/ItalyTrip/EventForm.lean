import ItalyTrip.Alone
import ItalyTrip.CaptureTime
import ItalyTrip.NameOrder
import Mathlib.Data.List.Lex

namespace ItalyTrip

/-- The UTF-16 code units of a text, which is what the browser compares strings by. -/
def codeUnits (s : List Char) : List Nat := s.flatMap fun c =>
  if c.toNat < 0x10000 then [c.toNat]
  else [0xd800 + (c.toNat - 0x10000) / 0x400, 0xdc00 + (c.toNat - 0x10000) % 0x400]

namespace CreateEventModal

/-- Years outside 0 to 9999 get a sign and six digits. -/
def isoYear (year : Int) : String :=
  if 0 ≤ year ∧ year ≤ 9999 then pad 4 year.natAbs
  else (if year < 0 then "-" else "+") ++ pad 6 year.natAbs

/-- `Date.prototype.toISOString` of a time in milliseconds. -/
def toISOString (time : Int) : String :=
  let date := civilDate (time / 86400000)
  let ms := (time % 86400000).toNat
  isoYear date.year ++ "-" ++ pad 2 date.month ++ "-" ++ pad 2 date.day ++ "T" ++
    pad 2 (ms / 3600000) ++ ":" ++ pad 2 (ms / 60000 % 60) ++ ":" ++ pad 2 (ms / 1000 % 60) ++ "." ++
    pad 3 (ms % 1000) ++ "Z"

example : toISOString 1782892800500 = "2026-07-01T08:00:00.500Z" := by decide +kernel

example : toISOString 253402300800000 = "+010000-01-01T00:00:00.000Z" := by decide +kernel

/-- `parseLocal` is what `new Date` makes of a local time, `none` for an invalid one. -/
def toIso (parseLocal : String → Option Int) (datetimeLocal : String) : Option String :=
  if datetimeLocal = "" then none else (parseLocal datetimeLocal).map toISOString

inductive Submission where
  | validationError (message : String)
  | mutate (startsAt endsAt : String)
  deriving DecidableEq

def handleSubmit (parseLocal : String → Option Int) (startsAt endsAt : String) : Submission :=
  match toIso parseLocal startsAt, toIso parseLocal endsAt with
  | some startsIso, some endsIso =>
    if codeUnits endsIso.toList ≤ codeUnits startsIso.toList then
      .validationError "End must be after start."
    else .mutate startsIso endsIso
  | _, _ => .validationError "Pick a start and end date and time."

/-- The year of a time in UTC, in milliseconds. -/
def isoYearOf (time : Int) : Int := (civilDate (time / 86400000)).year

/-- The fields of a time as the text of an ISO date shows them. -/
structure Fields where
  year : Nat
  month : Nat
  day : Nat
  ms : Nat
  deriving DecidableEq

structure Fields.Valid (f : Fields) : Prop where
  year : f.year ≤ 9999
  date : GoTime.IsDate f.year f.month f.day
  ms : f.ms < 86400000

/-- The time with these fields. -/
def Fields.time (f : Fields) : Int :=
  ((GoTime.dayCount f.year f.month f.day : Nat) - 719529 : Int) * 86400000 + (f.ms : Nat)

open Capture (twoDigits)

def Fields.text (f : Fields) : List Char :=
  twoDigits (f.year / 100) ++ twoDigits (f.year % 100) ++ '-' :: (twoDigits f.month ++ '-' ::
    (twoDigits f.day ++ 'T' :: (twoDigits (f.ms / 3600000) ++ ':' :: (twoDigits (f.ms / 60000 % 60) ++
      ':' :: (twoDigits (f.ms / 1000 % 60) ++ '.' :: ((f.ms % 1000 / 100).digitChar ::
        (twoDigits (f.ms % 100) ++ ['Z'])))))))

theorem pad_two {n : Nat} (h : n < 100) : (pad 2 n).toList = twoDigits n := by
  rw [pad_succ (by decide), pad_one (by omega)]
  rfl

theorem pad_three {n : Nat} (h : n < 1000) :
    (pad 3 n).toList = (n / 100).digitChar :: twoDigits (n % 100) := by
  have tens : n / 10 % 10 = n % 100 / 10 := by omega
  have units : n % 10 = n % 100 % 10 := by omega
  have hundreds : n / 10 / 10 = n / 100 := by omega
  rw [pad_succ (by decide), pad_succ (by decide), pad_one (by omega), tens, units, hundreds]
  rfl

theorem pad_four {n : Nat} (h : n < 10000) :
    (pad 4 n).toList = twoDigits (n / 100) ++ twoDigits (n % 100) := by
  have tens : n / 10 % 10 = n % 100 / 10 := by omega
  have units : n % 10 = n % 100 % 10 := by omega
  have rest : n / 10 / 10 = n / 100 := by omega
  rw [pad_succ (by decide), pad_succ (by decide), tens, units, rest, pad_two (by omega)]
  simp [twoDigits]

/-- A time in the years 0 to 9999 has the fields that its text shows. -/
theorem fields_of_year {time : Int} (h : 0 ≤ isoYearOf time ∧ isoYearOf time ≤ 9999) :
    ∃ f : Fields, f.Valid ∧ f.time = time ∧ (toISOString time).toList = f.text := by
  obtain ⟨year, hyear⟩ := Int.eq_ofNat_of_zero_le h.1
  unfold isoYearOf at hyear h
  obtain ⟨month, day, hdate⟩ : ∃ month day, civilDate (time / 86400000) = ⟨year, month, day⟩ :=
    ⟨_, _, by rw [← hyear]⟩
  obtain ⟨hmonth, hmonth', hday, hday', counted⟩ := civilDate_counts hdate
  have days := GoTime.daysIn_le month year
  rw [hyear] at h
  have high : year ≤ 9999 := Int.ofNat_le.mp h.2
  have inDay : (time % 86400000).toNat < 86400000 := by omega
  refine ⟨⟨year, month, day, (time % 86400000).toNat⟩, ⟨high, ⟨hmonth, hmonth', hday, hday'⟩, inDay⟩,
    ?_, ?_⟩
  · unfold Fields.time
    dsimp only
    rw [GoTime.dayCount, counted]
    omega
  · have plain : 0 ≤ (year : Int) ∧ (year : Int) ≤ 9999 := h
    have hundreds : (time % 86400000).toNat % 1000 % 100 = (time % 86400000).toNat % 100 := by omega
    simp only [toISOString, hdate, isoYear, if_pos plain, Int.natAbs_natCast, String.toList_append,
      Fields.text]
    rw [pad_four (by omega), pad_two (by omega), pad_two (by omega), pad_two (by omega),
      pad_two (by omega), pad_two (by omega), pad_three (by omega), hundreds]
    simp

theorem units_cons {c : Char} (h : c.toNat < 0x10000) (s : List Char) :
    codeUnits (c :: s) = c.toNat :: codeUnits s := by
  simp [codeUnits, h]

theorem units_digit {d : Nat} (h : d < 10) (s : List Char) :
    codeUnits (d.digitChar :: s) = (48 + d) :: codeUnits s := by
  have all : ∀ d < 10, (Nat.digitChar d).toNat = 48 + d := by decide
  have unit := all d h
  rw [units_cons (by omega), unit]

theorem unit_lt {d e : Nat} (hd : d < 10) (he : e < 10) (s t : List Char) :
    codeUnits (d.digitChar :: s) < codeUnits (e.digitChar :: t) ↔
      d < e ∨ d = e ∧ codeUnits s < codeUnits t := by
  rw [units_digit hd, units_digit he, List.cons_lt_cons_iff, Nat.add_lt_add_iff_left,
    Nat.add_right_inj]

/-- A separator in both texts decides nothing. -/
theorem separator_lt {c : Char} (h : c.toNat < 0x10000) (s t : List Char) :
    codeUnits (c :: s) < codeUnits (c :: t) ↔ codeUnits s < codeUnits t := by
  simp [units_cons h]

theorem twoDigits_lt {n m : Nat} (hn : n < 100) (hm : m < 100) (s t : List Char) :
    codeUnits (twoDigits n ++ s) < codeUnits (twoDigits m ++ t) ↔
      n < m ∨ n = m ∧ codeUnits s < codeUnits t := by
  change codeUnits ((n / 10).digitChar :: (n % 10).digitChar :: s) <
    codeUnits ((m / 10).digitChar :: (m % 10).digitChar :: t) ↔ _
  rw [unit_lt (by omega) (by omega), unit_lt (by omega) (by omega)]
  exact place_lt

/-- Numbers are compared by their quotients, and then by their remainders. -/
theorem quotient_lt {k n m : Nat} {p : Prop} :
    n / k < m / k ∨ n / k = m / k ∧ (n % k < m % k ∨ n % k = m % k ∧ p) ↔ n < m ∨ n = m ∧ p := by
  have hn := Nat.div_add_mod n k
  have hm := Nat.div_add_mod m k
  constructor
  · rintro (less | ⟨same, less | ⟨same', last⟩⟩)
    · exact Or.inl (Nat.lt_of_div_lt_div less)
    · left
      rw [same] at hn
      omega
    · rw [same, same', hm] at hn
      exact Or.inr ⟨hn.symm, last⟩
  · rintro (less | ⟨rfl, last⟩)
    · obtain before | same := Nat.lt_or_eq_of_le (Nat.div_le_div_right (c := k) (Nat.le_of_lt less))
      · exact Or.inl before
      · refine Or.inr ⟨same, Or.inl ?_⟩
        rw [same] at hn
        omega
    · exact Or.inr ⟨rfl, Or.inr ⟨rfl, last⟩⟩

/-- Milliseconds of a day are compared by their hours, minutes, seconds, tenths and the rest. -/
theorem clock_ms_lt {n m : Nat} :
    n / 3600000 < m / 3600000 ∨ n / 3600000 = m / 3600000 ∧
      (n / 60000 % 60 < m / 60000 % 60 ∨ n / 60000 % 60 = m / 60000 % 60 ∧
        (n / 1000 % 60 < m / 1000 % 60 ∨ n / 1000 % 60 = m / 1000 % 60 ∧
          (n % 1000 / 100 < m % 1000 / 100 ∨ n % 1000 / 100 = m % 1000 / 100 ∧
            n % 100 < m % 100))) ↔ n < m := by
  have hours : ∀ n, n / 3600000 = n / 60000 / 60 := fun n => by omega
  have minutes : ∀ n, n / 60000 = n / 1000 / 60 := fun n => by omega
  have seconds : ∀ n, n / 1000 = n / 100 / 10 := fun n => by omega
  have tenths : ∀ n, n % 1000 / 100 = n / 100 % 10 := fun n => by omega
  rw [hours, hours m, quotient_lt, minutes, minutes m, quotient_lt, seconds,
    seconds m, tenths, tenths m, quotient_lt]
  have last := @quotient_lt 100 n m False
  simpa using last

/-- Texts of such times are in the order of the times. -/
theorem text_lt {f f' : Fields} (h : f.Valid) (h' : f'.Valid) :
    codeUnits f.text < codeUnits f'.text ↔ f.time < f'.time := by
  obtain ⟨hyear, hdate, hms⟩ := h
  obtain ⟨hyear', hdate', hms'⟩ := h'
  have dates := GoTime.dayCount_lt_iff hdate hdate'
  have days := GoTime.daysIn_le f.month f.year
  have days' := GoTime.daysIn_le f'.month f'.year
  obtain ⟨-, hmonth, -, hday⟩ := id hdate
  obtain ⟨-, hmonth', -, hday'⟩ := id hdate'
  have digits : codeUnits (twoDigits (f.ms % 100) ++ ['Z']) < codeUnits (twoDigits (f'.ms % 100) ++ ['Z']) ↔
      f.ms % 100 < f'.ms % 100 := by
    rw [twoDigits_lt (by omega) (by omega)]
    simp
  unfold Fields.text
  simp only [List.append_assoc]
  rw [twoDigits_lt (by omega) (by omega), twoDigits_lt (by omega) (by omega), separator_lt (by decide),
    twoDigits_lt (by omega) (by omega), separator_lt (by decide), twoDigits_lt (by omega) (by omega),
    separator_lt (by decide), twoDigits_lt (by omega) (by omega), separator_lt (by decide),
    twoDigits_lt (by omega) (by omega), separator_lt (by decide), twoDigits_lt (by omega) (by omega),
    separator_lt (by decide), unit_lt (by omega) (by omega), digits, clock_ms_lt, quotient_lt]
  have same : GoTime.dayCount f.year f.month f.day = GoTime.dayCount f'.year f'.month f'.day ↔
      f.year = f'.year ∧ f.month = f'.month ∧ f.day = f'.day := by
    refine ⟨GoTime.dayCount_inj hdate hdate', ?_⟩
    rintro ⟨year, month, day⟩
    rw [year, month, day]
  have counts : f.time < f'.time ↔ GoTime.dayCount f.year f.month f.day <
      GoTime.dayCount f'.year f'.month f'.day ∨ GoTime.dayCount f.year f.month f.day =
        GoTime.dayCount f'.year f'.month f'.day ∧ f.ms < f'.ms := by
    unfold Fields.time
    omega
  rw [counts, dates, same]
  simp only [and_or_left, or_assoc, and_assoc]

theorem fraction_ms {ms : Nat} (h : ms < 1000) :
    GoTime.fraction ('.' :: (ms / 100).digitChar :: (twoDigits (ms % 100) ++ ['Z'])) =
      (ms * 1000000, ['Z']) := by
  obtain ⟨hundreds, hundredsValue⟩ := @Capture.digit_read (ms / 100) (by omega)
  obtain ⟨tens, tensValue⟩ := @Capture.digit_read (ms % 100 / 10) (by omega)
  obtain ⟨units, unitsValue⟩ := @Capture.digit_read (ms % 100 % 10) (by omega)
  have final : Char.isDigit 'Z' = false := by decide
  unfold twoDigits
  generalize (ms / 100).digitChar = a, (ms % 100 / 10).digitChar = b,
    (ms % 100 % 10).digitChar = c at *
  simp [GoTime.fraction, GoTime.number, hundreds, tens, units, final, hundredsValue, tensValue, unitsValue]
  omega

theorem date_fields {f : Fields} :
    GoTime.date f.year f.month f.day (f.ms / 3600000) (f.ms / 60000 % 60) (f.ms / 1000 % 60)
      (f.ms % 1000 * 1000000) = f.time * 1000000 := by
  unfold GoTime.date Fields.time GoTime.dayCount
  dsimp only
  omega

/-- The server reads the text of such a time as that time. -/
theorem parseValue_fields {f : Fields} (h : f.Valid) :
    GoTime.parseValue f.text = .ok (f.time * 1000000) := by
  obtain ⟨hyear, hdate, hms⟩ := h
  obtain ⟨hmonth, hmonth', hday, hday'⟩ := id hdate
  have days := GoTime.daysIn_le f.month f.year
  have inMonth : ¬ (f.day < 1 ∨ GoTime.daysIn f.month f.year < f.day) := by omega
  have month := @Capture.element_twoDigits f.month 1 12 (by omega) (by omega)
  have date := @Capture.element_twoDigits f.day 0 99 (by omega) (by omega)
  have hour := @Capture.element_twoDigits (f.ms / 3600000) 0 23 (by omega) (by omega)
  have minute := @Capture.element_twoDigits (f.ms / 60000 % 60) 0 59 (by omega) (by omega)
  have second := @Capture.element_twoDigits (f.ms / 1000 % 60) 0 59 (by omega) (by omega)
  have rest : f.ms % 100 = f.ms % 1000 % 100 := by omega
  have zulu : GoTime.zone ['Z'] = .ok (0, []) := rfl
  simp only [GoTime.parseValue, Fields.text, Capture.yearOf_digits hyear, GoTime.skip, month, date,
    hour, minute, second, rest, fraction_ms (Nat.mod_lt f.ms (show 0 < 1000 by decide)), zulu, inMonth,
    date_fields, ↓reduceIte, bind, Except.bind, pure, Except.pure, ne_eq, not_true_eq_false, zero_mul, sub_zero]

/-- The server reads no year with a sign. -/
theorem parseValue_extended {time : Int} (h : ¬ (0 ≤ isoYearOf time ∧ isoYearOf time ≤ 9999)) :
    ∃ err, GoTime.parseValue (toISOString time).toList = .error err := by
  obtain ⟨sign, rest, text, notDigit⟩ : ∃ sign rest, (toISOString time).toList = sign :: rest ∧
      sign.isDigit = false := by
    unfold isoYearOf at h
    simp only [toISOString, isoYear, if_neg h, String.toList_append]
    split
    next => exact ⟨'-', _, rfl, by decide⟩
    next => exact ⟨'+', _, rfl, by decide⟩
  have year : GoTime.yearOf (sign :: rest) = .error ⟨"2006", sign :: rest, ""⟩ := by
    simp [GoTime.yearOf, notDigit]
  rw [text]
  refine ⟨⟨"2006", sign :: rest, ""⟩, ?_⟩
  simp [GoTime.parseValue, year, bind, Except.bind]

end CreateEventModal

namespace Events

/-- What binding the JSON body makes of the times of the form. -/
def bindJSON (app : Application) (startsAt endsAt : String) : Option CreateEventRequest :=
  match app.parseRFC3339 startsAt, app.parseRFC3339 endsAt with
  | .ok starts, .ok ends => some ⟨starts, ends⟩
  | _, _ => none

end Events

open Calls CreateEventModal

section

variable {app : Application}

theorem parse_plain (hparse : app.parseRFC3339 = GoTime.parseRFC3339) {time : Int}
    (h : 0 ≤ isoYearOf time ∧ isoYearOf time ≤ 9999) :
    app.parseRFC3339 (toISOString time) = .ok (time * 1000000) := by
  obtain ⟨f, valid, rfl, text⟩ := fields_of_year h
  rw [hparse, GoTime.parseRFC3339, text, parseValue_fields valid]
  rfl

theorem parse_extended (hparse : app.parseRFC3339 = GoTime.parseRFC3339) {time : Int}
    (h : ¬ (0 ≤ isoYearOf time ∧ isoYearOf time ≤ 9999)) :
    ∃ message, app.parseRFC3339 (toISOString time) = .error message := by
  obtain ⟨err, parsed⟩ := parseValue_extended h
  rw [hparse, GoTime.parseRFC3339, parsed]
  exact ⟨_, rfl⟩

theorem iso_le_iff {a b : Int} (ha : 0 ≤ isoYearOf a ∧ isoYearOf a ≤ 9999)
    (hb : 0 ≤ isoYearOf b ∧ isoYearOf b ≤ 9999) :
    codeUnits (toISOString b).toList ≤ codeUnits (toISOString a).toList ↔ b ≤ a := by
  obtain ⟨f, hf, rfl, ftext⟩ := fields_of_year ha
  obtain ⟨g, hg, rfl, gtext⟩ := fields_of_year hb
  rw [ftext, gtext, ← not_lt, ← not_lt, not_iff_not]
  exact text_lt hf hg

/-- No event runs, and the user is there. -/
structure Idle (user : User) (w : World) : Prop where
  isOver : ∀ event, w.db.getCurrentEvent = some event → event.IsOver w.clock
  user : w.db.hasUser user.id = true

/-- The call does not fail, and the id that is drawn is new. -/
def Smooth (w : World) (o : Choice) : Prop := o.fault = .none ∧ w.db.hasEvent o.id = false

/-- The event is there, with these times and for the user, whose active one it is. -/
def Inserts (user : User) (starts ends : Instant) (w : World) (result : Except Response Response)
    (w' : World) : Prop :=
  (written result).status = 201 ∧ ∃ row : Event, w'.db.events = w.db.events ++ [row] ∧
    row.startsAt = starts ∧ row.endsAt = ends ∧ row.userID = some user.id ∧
    ∀ u ∈ w'.db.users, u.id = user.id → u.activeEventID = some row.id

/-- `handleSubmit` goes on with what the server reads as these instants, and not with a bad request; where
no event runs and nothing fails, the server inserts the event. -/
def Started (app : Application) (parseLocal : String → Option Int) (startsAt endsAt : String)
    (user : User) (starts ends : Instant) : Prop :=
  ∃ startsIso endsIso, handleSubmit parseLocal startsAt endsAt = .mutate startsIso endsIso ∧
    (∀ past, (Events.create (some user) (Events.bindJSON app startsIso endsIso)).run.Ensures
      (fun _ c => ∀ arg, c = .query (.createEvent arg) →
        arg.startsAt = starts ∧ arg.endsAt = ends ∧ arg.userID = user.id)
      (fun _ result => (written result).status ≠ 400) past) ∧
    ∀ w, Idle user w → (Events.create (some user) (Events.bindJSON app startsIso endsIso)).run.Achieves
      perform (Smooth w) (Inserts user starts ends w) w

variable {parseLocal : String → Option Int} {startsAt endsAt : String} {a b : Int} {user : User}

theorem submit_iff (hstarts : toIso parseLocal startsAt = some (toISOString a))
    (hends : toIso parseLocal endsAt = some (toISOString b)) {startsIso endsIso : String} :
    handleSubmit parseLocal startsAt endsAt = .mutate startsIso endsIso ↔
      ¬ codeUnits (toISOString b).toList ≤ codeUnits (toISOString a).toList ∧
        toISOString a = startsIso ∧ toISOString b = endsIso := by
  unfold handleSubmit
  rw [hstarts, hends]
  dsimp only
  split
  next refused => simp [refused]
  next ordered => simp [ordered]

/-- A request whose times the server reads in this order is never a bad one. -/
theorem create_ordered {past : Past Reply} {req : Events.CreateEventRequest}
    (ordered : req.startsAt < req.endsAt) :
    (Events.create (some user) (some req)).run.Ensures
      (fun _ c => ∀ arg, c = .query (.createEvent arg) →
        arg.startsAt = req.startsAt ∧ arg.endsAt = req.endsAt ∧ arg.userID = user.id)
      (fun _ result => (written result).status ≠ 400) past := by
  have ok : ∀ {times body}, (writeJSON 201 times body).status ≠ 400 := by
    intro times body
    unfold writeJSON
    split <;> simp
  have start : ∀ {past : Past Reply}, (Events.startEvent user req).run.Ensures
      (fun _ c => ∀ arg, c = .query (.createEvent arg) →
        arg.startsAt = req.startsAt ∧ arg.endsAt = req.endsAt ∧ arg.userID = user.id)
      (fun _ result => (written result).status ≠ 400) past := by
    intro past
    simp only [Events.startEvent, ensures_run_bind, ensures_request, ensures_orThrow, ensures_run_pure,
      written_ok, written_error]
    simp [ok, writeErrorFromString]
  simp only [Events.create, ensures_run_bind, ensures_someOrThrow, ensures_throwIf,
    Events.ensures_refuseWhileRunning, written_error, reduceCtorEq, false_implies, true_and,
    Option.some.injEq, forall_eq']
  refine ⟨fun unordered => absurd ordered unordered, fun _ => ⟨by simp, start, ?_, ?_⟩⟩
  · exact fun _ _ => by simp [writeErrorFromString]
  · exact fun event => ⟨by simp, fun t => ⟨fun _ => by simp [writeErrorFromString], fun _ => start⟩⟩

theorem answer_quiet {o : Choice} {w : World} {q : Query} (quiet : o.fault = .none) :
    perform o w (.query q) = some ((w.db.exec o.defaults w.clock q).1,
      { w with db := (w.db.exec o.defaults w.clock q).2 }) := by
  simp only [perform, quiet]

/-- The guard lets a request through where no event runs. -/
theorem refuseWhileRunning_idle {w w₀ : World} (idle : Idle user w)
    {post : Except Response Unit → World → Prop} (h : ∀ w', w'.db = w.db → post (.ok ()) w') :
    Events.refuseWhileRunning.run.Achieves perform (Smooth w₀) post w := by
  refine achieves_run_bind.mpr (achieves_request.mpr fun o smooth => ⟨_, _, answer_quiet smooth.1, ?_⟩)
  cases current : w.db.getCurrentEvent with
  | none =>
    have read : (w.db.exec o.defaults w.clock .getCurrentEvent).1 = .error .noRows := by
      simp [Database.exec, current, oneRow]
    rw [read]
    exact h _ rfl
  | some event =>
    have read : (w.db.exec o.defaults w.clock .getCurrentEvent).1 = .ok event := by
      simp [Database.exec, current, oneRow]
    rw [read]
    refine achieves_run_bind.mpr (achieves_request.mpr fun o smooth => ⟨_, _, rfl, ?_⟩)
    have isOver := (idle.isOver event current).mono (Int.le_add_of_nonneg_right (Int.natCast_nonneg o.tick))
    exact (achieves_throwIf (not_not.mpr isOver)).mpr (h _ rfl)

theorem startEvent_inserts {w w₀ : World} (db : w.db = w₀.db) (known : w₀.db.hasUser user.id = true)
    {req : Events.CreateEventRequest} (starts : jsonTime (timestamptz req.startsAt) = true)
    (ends : jsonTime (timestamptz req.endsAt) = true) :
    (Events.startEvent user req).run.Achieves perform (Smooth w₀)
      (Inserts user (timestamptz req.startsAt) (timestamptz req.endsAt) w₀) w := by
  refine achieves_run_bind.mpr (achieves_request.mpr fun o smooth => ⟨_, _, answer_quiet smooth.1, ?_⟩)
  let row : Event := ⟨o.id, Events.defaultEventName, timestamptz req.startsAt, timestamptz req.endsAt,
    o.createdAt, some user.id⟩
  have inserted : w.db.exec o.defaults w.clock
      (.createEvent ⟨Events.defaultEventName, req.startsAt, req.endsAt, user.id⟩) =
      (.ok row, { w.db with events := w.db.events ++ [row] }) := by
    rw [db]
    exact w₀.db.createEvent_accepted _ smooth.2 known
  rw [inserted]
  refine achieves_run_bind.mpr (achieves_orThrow.mpr ?_)
  refine achieves_run_bind.mpr (achieves_request.mpr fun o' smooth' => ⟨_, _, answer_quiet smooth'.1, ?_⟩)
  let users := w.db.users.map fun u =>
    if u.id = user.id then { u with activeEventID := some row.id } else u
  have activated : Database.exec { w.db with events := w.db.events ++ [row] } o'.defaults w.clock
      (.setActiveEvent user.id row.id) =
      (.ok (), { w.db with events := w.db.events ++ [row], users := users }) :=
    Database.setActiveEvent_accepted _ user.id (by simp [Database.hasEvent])
  rw [activated]
  refine achieves_run_bind.mpr (achieves_orThrow.mpr ?_)
  refine achieves_run_bind.mpr (achieves_request.mpr fun o'' _ => ⟨_, _, rfl, ?_⟩)
  refine ⟨?_, row, congrArg (· ++ [row]) (congrArg Database.events db), rfl, rfl, rfl, fun u hu same => ?_⟩
  · have years : [row.startsAt, row.endsAt].all jsonTime = true := by simp [row, starts, ends]
    simp only [written, writeJSON, years, if_true]
  · obtain ⟨u', _, rfl⟩ := List.mem_map.mp hu
    by_cases own : u'.id = user.id
    · simp [own]
    · simp only [own, if_false] at same

theorem create_inserts {w : World} (idle : Idle user w) {req : Events.CreateEventRequest}
    (ordered : req.startsAt < req.endsAt) (starts : jsonTime (timestamptz req.startsAt) = true)
    (ends : jsonTime (timestamptz req.endsAt) = true) :
    (Events.create (some user) (some req)).run.Achieves perform (Smooth w)
      (Inserts user (timestamptz req.startsAt) (timestamptz req.endsAt) w) w := by
  change (throwIf (¬ req.startsAt < req.endsAt) (writeErrorFromString 400 "ends_at must be after starts_at")
    >>= fun _ => Events.refuseWhileRunning >>= fun _ => Events.startEvent user req).run.Achieves
      perform (Smooth w) _ w
  refine achieves_run_bind.mpr ((achieves_throwIf (not_not.mpr ordered)).mpr (achieves_run_bind.mpr ?_))
  exact refuseWhileRunning_idle idle fun w' db => startEvent_inserts db idle.user starts ends

/-- Such a time is kept to the nanosecond, and can be written again. -/
theorem written_back {time : Int} (h : 0 ≤ isoYearOf time ∧ isoYearOf time ≤ 9999) :
    timestamptz (time * 1000000) = time * 1000000 ∧ jsonTime (time * 1000000) = true := by
  obtain ⟨f, ⟨hyear, ⟨low, high, hday, hday'⟩, hms⟩, rfl, -⟩ := fields_of_year h
  have whole : f.time * 1000000 / 1000 * 1000 = f.time * 1000000 := by omega
  refine ⟨whole, ?_⟩
  have range := @GoTime.date_range f.year f.month f.day (f.ms / 3600000) (f.ms / 60000 % 60)
    (f.ms / 1000 % 60) (f.ms % 1000 * 1000000) hyear low high hday hday' (by omega) (by omega) (by omega)
    (by omega)
  rw [date_fields] at range
  simpa [jsonTime] using range

theorem create_unread {past : Past Reply}
    (h : (Events.create (some user) none).run.Ensures (fun _ _ => True)
      (fun _ result => (written result).status ≠ 400) past) : False := by
  simp [Events.create, writeErrorFromString] at h

/-- The event form and the server agree: a submission starts the event with the picked times, and is no
bad request, exactly if both years have four digits in UTC and the end is after the start. -/
theorem event_form_agrees (hparse : app.parseRFC3339 = GoTime.parseRFC3339)
    (hstarts : startsAt ≠ "" ∧ parseLocal startsAt = some a)
    (hends : endsAt ≠ "" ∧ parseLocal endsAt = some b) :
    Started app parseLocal startsAt endsAt user (a * 1000000) (b * 1000000) ↔
      (0 ≤ isoYearOf a ∧ isoYearOf a ≤ 9999) ∧ (0 ≤ isoYearOf b ∧ isoYearOf b ≤ 9999) ∧ a < b := by
  have starts : toIso parseLocal startsAt = some (toISOString a) := by simp [toIso, hstarts]
  have ends : toIso parseLocal endsAt = some (toISOString b) := by simp [toIso, hends]
  constructor
  · rintro ⟨_, _, submitted, answered, _⟩
    obtain ⟨ordered, rfl, rfl⟩ := (submit_iff starts ends).mp submitted
    have never := fun unread : Events.bindJSON app (toISOString a) (toISOString b) = none =>
      create_unread ((unread ▸ answered []).mono (fun _ _ _ => trivial) fun _ _ h => h)
    have ha : 0 ≤ isoYearOf a ∧ isoYearOf a ≤ 9999 := by
      by_contra signed
      obtain ⟨message, unread⟩ := parse_extended hparse signed
      exact never (by simp [Events.bindJSON, unread])
    have hb : 0 ≤ isoYearOf b ∧ isoYearOf b ≤ 9999 := by
      by_contra signed
      obtain ⟨message, unread⟩ := parse_extended hparse signed
      exact never (by simp [Events.bindJSON, parse_plain hparse ha, unread])
    rw [iso_le_iff ha hb] at ordered
    exact ⟨ha, hb, Int.not_le.mp ordered⟩
  · rintro ⟨ha, hb, before⟩
    have read : Events.bindJSON app (toISOString a) (toISOString b) = some ⟨a * 1000000, b * 1000000⟩ := by
      rw [Events.bindJSON, parse_plain hparse ha, parse_plain hparse hb]
    have ordered : a * 1000000 < b * 1000000 := Int.mul_lt_mul_of_pos_right before (by decide)
    refine ⟨_, _, (submit_iff starts ends).mpr ⟨?_, rfl, rfl⟩, fun past => ?_, fun w idle => ?_⟩
    · rw [iso_le_iff ha hb]
      exact Int.not_le.mpr before
    · rw [read]
      exact create_ordered ordered
    · obtain ⟨keptA, writtenA⟩ := written_back ha
      obtain ⟨keptB, writtenB⟩ := written_back hb
      have inserts := @create_inserts user w idle ⟨a * 1000000, b * 1000000⟩ ordered
        (by rw [keptA]; exact writtenA) (by rw [keptB]; exact writtenB)
      rw [keptA, keptB] at inserts
      rw [read]
      exact inserts

/-- The picked times of a browser two hours ahead of UTC. -/
private def parseSummer : String → Option Int
  | "2026-07-01T10:00" => some 1782892800000
  | "2026-07-08T20:30" => some 1783535400000
  | _ => none

theorem event_form_agrees_summer : Started { sampleApp with parseRFC3339 := GoTime.parseRFC3339 } parseSummer
    "2026-07-01T10:00" "2026-07-08T20:30" sampleUser 1782892800000000000
      1783535400000000000 :=
  (event_form_agrees (a := 1782892800000) (b := 1783535400000) rfl (by decide) (by decide)).mpr
    (by decide +kernel)

end

end ItalyTrip
