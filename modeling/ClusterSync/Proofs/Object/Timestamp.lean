import ClusterSync.Object.Timestamp
import ClusterSync.Proofs.Object.Calendar
import Mathlib.Algebra.Group.Nat.Defs
import Mathlib.Data.Option.Basic

/-!
# Timestamps in text

**Theorem (`Timestamp.ofString?_toString`).** A timestamp is read back from its text.

**Theorem (`Timestamp.isProper_of_ofString?`).** This goes for every timestamp that has been read,
however it was written: its date is one of the calendar in UTC, and a leap second comes after the
last second of a minute, since offsets are in whole minutes.
-/

namespace ClusterSync.Timestamp

open Text (isBlank)

/-! ## Digits -/

theorem isBlank_of_isDigit {c : Char} (h : c.isDigit = true) : isBlank c = false := by
  have hrange : 48 ≤ c.toNat ∧ c.toNat ≤ 57 := by
    simpa [Char.isDigit, UInt32.le_iff_toNat_le] using h
  have hall : ∀ n < 58, 48 ≤ n → Text.inRanges Text.blankRanges n = false := by decide
  exact hall _ (Nat.lt_succ_of_le hrange.2) hrange.1

theorem skipBlanks_cons {c : Char} (h : isBlank c = false) (cs : List Char) :
    skipBlanks (c :: cs) = c :: cs := List.dropWhile_cons_of_neg (by rw [h]; nofun)

/-- Digits end where there may be no more, or where there is something else. -/
theorem digits?_append {atMost : Nat} {ds rest : List Char} (hne : ds ≠ [])
    (hds : ∀ c ∈ ds, c.isDigit = true) (hlength : ds.length ≤ atMost)
    (hend : ds.length = atMost ∨ ∀ c ∈ rest.head?, c.isDigit = false) :
    digits? atMost (ds ++ rest) = some (Decimal.ofDigits ds, rest) := by
  have hrest : (rest.take (atMost - ds.length)).takeWhile Char.isDigit = [] := by
    rcases hend with heq | hhead
    · rw [heq, Nat.sub_self]
      rfl
    · cases rest with
      | nil => rw [List.take_nil]; rfl
      | cons c rest =>
        cases atMost - ds.length with
        | zero => rfl
        | succ n =>
          rw [List.take_succ_cons, List.takeWhile_cons_of_neg (by rw [hhead c rfl]; nofun)]
  have htake : ((ds ++ rest).take atMost).takeWhile Char.isDigit = ds := by
    rw [List.take_append, List.take_of_length_le hlength, List.takeWhile_append_of_pos hds, hrest,
      List.append_nil]
  rw [digits?, htake]
  simp only [if_neg hne, List.drop_left]

/-- The digits of a number with leading zeros up to a width. -/
def paddedChars (width n : Nat) : List Char :=
  List.replicate (width - (Nat.toDigits 10 n).length) '0' ++ Nat.toDigits 10 n

variable {width n : Nat}

theorem toList_padded : (padded width n).toList = paddedChars width n := String.toList_ofList

theorem isDigit_of_mem_paddedChars {c : Char} (h : c ∈ paddedChars width n) :
    c.isDigit = true := by
  rcases List.mem_append.1 h with h | h
  · rw [(List.mem_replicate.1 h).2]
    rfl
  · exact Nat.isDigit_of_mem_toDigits (by decide) (by decide) h

theorem paddedChars_ne_nil : paddedChars width n ≠ [] :=
  List.append_ne_nil_of_right_ne_nil _ Nat.toDigits_ne_nil

theorem length_paddedChars (hwidth : 0 < width) (h : n < 10 ^ width) :
    (paddedChars width n).length = width := by
  have hle := (Nat.length_toDigits_le_iff (by decide) hwidth).2 h
  rw [paddedChars, List.length_append, List.length_replicate, Nat.sub_add_cancel hle]

theorem ofDigits_paddedChars : Decimal.ofDigits (paddedChars width n) = n := by
  have hfold (cs : List Char) : Decimal.ofDigits cs = Nat.ofDigitChars 10 cs 0 := by
    simp only [Decimal.ofDigits, Nat.ofDigitChars_eq_foldl, Nat.mul_comm]
  rw [hfold, paddedChars, Nat.ofDigitChars_append, Nat.ofDigitChars_replicate_zero, Nat.mul_zero,
    Nat.ofDigitChars_ten_toDigits]

/-- A padded number begins with a digit. -/
theorem exists_paddedChars_append (width n : Nat) (rest : List Char) :
    ∃ c cs, paddedChars width n ++ rest = c :: cs ∧ c.isDigit = true := by
  cases hchars : paddedChars width n with
  | nil => exact absurd hchars paddedChars_ne_nil
  | cons c cs =>
    exact ⟨c, cs ++ rest, rfl, isDigit_of_mem_paddedChars (hchars ▸ List.mem_cons_self)⟩

theorem skipBlanks_padded (rest : List Char) :
    skipBlanks (paddedChars width n ++ rest) = paddedChars width n ++ rest := by
  obtain ⟨c, cs, heq, hc⟩ := exists_paddedChars_append width n rest
  rw [heq, skipBlanks_cons (isBlank_of_isDigit hc)]

/-! ## Parts of a date and of a time -/

theorem number?_padded (h : n < 100) (rest : List Char) :
    number? (paddedChars 2 n ++ rest) = some (n, rest) := by
  have hlength : (paddedChars 2 n).length = 2 := length_paddedChars (by decide) h
  rw [number?, skipBlanks_padded, digits?_append paddedChars_ne_nil
    (fun _ => isDigit_of_mem_paddedChars) hlength.le (.inl hlength), ofDigits_paddedChars]

theorem mark?_cons {mark : Char} (h : isBlank mark = false) (rest : List Char) :
    mark? mark (mark :: rest) = some rest := by
  rw [mark?, skipBlanks_cons h]
  exact if_pos rfl

/-- A year without a sign has four digits at most. -/
theorem year?_padded (h : n < 10000) (rest : List Char) :
    year? (paddedChars 4 n ++ rest) = some ((n : Int), rest) := by
  have hlength : (paddedChars 4 n).length = 4 := length_paddedChars (by decide) h
  obtain ⟨c, cs, heq, hc⟩ := exists_paddedChars_append 4 n rest
  rw [year?, skipBlanks_padded]
  split
  · rename_i hplus
    cases heq.symm.trans hplus
    exact absurd hc (by decide)
  · rename_i hminus
    cases heq.symm.trans hminus
    exact absurd hc (by decide)
  · rw [digits?_append paddedChars_ne_nil (fun _ => isDigit_of_mem_paddedChars) hlength.le
      (.inl hlength), ofDigits_paddedChars, Option.map_some]

/-- The digits after a sign go on until there is something else. -/
theorem digits?_signed (n : Nat) (rest : List Char) :
    digits? (paddedChars 4 n ++ '-' :: rest).length (paddedChars 4 n ++ '-' :: rest) =
      some (n, '-' :: rest) := by
  have hends : ∀ c ∈ ('-' :: rest).head?, c.isDigit = false := by
    rintro c ⟨⟩
    rfl
  rw [digits?_append paddedChars_ne_nil (fun _ => isDigit_of_mem_paddedChars) (by simp)
    (.inr hends), ofDigits_paddedChars]

theorem year?_yearText (year : Int) (rest : List Char) :
    year? ((yearText year).toList ++ '-' :: rest) = some (year, '-' :: rest) := by
  have hsign (sign : Char) (n : Nat) :
      (String.singleton sign ++ padded 4 n).toList ++ '-' :: rest =
        sign :: (paddedChars 4 n ++ '-' :: rest) := by
    rw [String.toList_append, toList_padded, String.toList_singleton]
    rfl
  unfold yearText
  split
  · rw [show "-" = String.singleton '-' from rfl, hsign, year?, skipBlanks_cons (by decide)]
    simp only [digits?_signed, Option.map_some, Option.some.injEq, Prod.mk.injEq, and_true]
    omega
  · split
    · have hlt : year.toNat < 10000 := by omega
      rw [toList_padded, year?_padded hlt, Int.toNat_of_nonneg (by omega)]
    · rw [show "+" = String.singleton '+' from rfl, hsign, year?, skipBlanks_cons (by decide)]
      simp only [digits?_signed, Option.map_some, Option.some.injEq, Prod.mk.injEq, and_true]
      omega

theorem lt_of_daysOfDate? {year days : Int} {month day : Nat}
    (h : Calendar.daysOfDate? year month day = some days) : month < 100 ∧ day < 100 := by
  unfold Calendar.daysOfDate? at h
  split at h
  · rename_i hdate
    obtain ⟨-, -, hmonth, -, hday⟩ := hdate
    have hlength : Calendar.daysInMonth year month ≤ 31 := by
      unfold Calendar.daysInMonth
      repeat' split
      all_goals omega
    omega
  · cases h

theorem date?_dateText {days : Int} (h : Calendar.isYear (Calendar.dateOfDays days).1 = true)
    (rest : List Char) :
    date? ((yearText (Calendar.dateOfDays days).1).toList ++
      '-' :: (paddedChars 2 (Calendar.dateOfDays days).2.1 ++
        '-' :: (paddedChars 2 (Calendar.dateOfDays days).2.2 ++ rest))) = some (days, rest) := by
  have hdays := Calendar.daysOfDate?_dateOfDays h
  obtain ⟨hmonth, hday⟩ := lt_of_daysOfDate? hdays
  rw [date?, year?_yearText]
  simp only [Option.bind_eq_bind, Option.bind_some, mark?_cons (show isBlank '-' = false by decide),
    number?_padded hmonth, number?_padded hday, hdays]
  rfl

theorem time?_timeText {time second : Nat} (htime : time < 86400) (hsecond : second ≤ 60)
    (rest : List Char) :
    time? (paddedChars 2 (time / 3600) ++ ':' :: (paddedChars 2 (time / 60 % 60) ++
      ':' :: (paddedChars 2 second ++ rest))) =
      some ((time / 3600, time / 60 % 60, second), rest) := by
  have hguard : time / 3600 < 24 ∧ time / 60 % 60 < 60 ∧ second ≤ 60 := by omega
  have hminute : time / 60 % 60 < 100 := by omega
  have hsecond : second < 100 := by omega
  rw [time?, number?_padded (by omega)]
  simp only [Option.bind_eq_bind, Option.bind_some, mark?_cons (show isBlank ':' = false by decide),
    number?_padded hminute, number?_padded hsecond, guard, if_pos hguard]
  rfl

/-! ## Timestamps -/

/-- The date of a timestamp is one of the calendar, and a leap second comes after the last second
of a minute. -/
structure IsProper (t : Timestamp) : Prop where
  isYear : Calendar.isYear (Calendar.dateOfDays t.day).1 = true
  leap : t.isLeapSecond = true → t.seconds % 60 = 59

/-- The seconds of the day before a timestamp. -/
def timeOfDay (t : Timestamp) : Nat := (t.seconds - t.day * 86400).toNat

theorem seconds_eq (t : Timestamp) :
    t.seconds = t.day * 86400 + t.timeOfDay ∧ t.timeOfDay < 86400 := by
  rw [timeOfDay, day, Int.fdiv_eq_ediv_of_nonneg _ (by decide)]
  omega

theorem toList_toString (t : Timestamp) : t.toString.toList =
    (yearText (Calendar.dateOfDays t.day).1).toList ++
      '-' :: (paddedChars 2 (Calendar.dateOfDays t.day).2.1 ++
        '-' :: (paddedChars 2 (Calendar.dateOfDays t.day).2.2 ++
          'T' :: (paddedChars 2 (t.timeOfDay / 3600) ++
            ':' :: (paddedChars 2 (t.timeOfDay / 60 % 60) ++
              ':' :: (paddedChars 2 (t.timeOfDay % 60 + if t.isLeapSecond then 1 else 0) ++
                ['Z']))))) := by
  unfold toString
  simp only [String.toList_append, toList_padded, List.append_assoc]
  rfl

theorem ofString?_toString {t : Timestamp} (h : t.IsProper) : ofString? t.toString = some t := by
  obtain ⟨hseconds, htime⟩ := t.seconds_eq
  have hsecond : t.timeOfDay % 60 + (if t.isLeapSecond then 1 else 0) ≤ 60 := by
    split <;> omega
  have hleap : decide (t.timeOfDay % 60 + (if t.isLeapSecond then 1 else 0) = 60) =
      t.isLeapSecond := by
    cases hmark : t.isLeapSecond with
    | false => exact decide_eq_false (by simp only [Bool.false_eq_true, if_false]; omega)
    | true =>
      have hlast := h.leap hmark
      exact decide_eq_true (by simp only [if_true]; omega)
  have htotal : t.day * 86400 + (((t.timeOfDay / 3600 * 60 + t.timeOfDay / 60 % 60) * 60 +
      min (t.timeOfDay % 60 + if t.isLeapSecond then 1 else 0) 59 : Nat) : Int) - 0 =
      t.seconds := by
    split
    · have hlast := h.leap ‹_›
      omega
    · omega
  rw [ofString?, toList_toString, date?_dateText h.isYear]
  simp only [Option.bind_eq_bind, Option.bind_some, separator?, time?_timeText htime hsecond]
  have hfraction : skipFraction? ['Z'] = some ['Z'] := rfl
  have hoffset : offset? (skipBlanks ['Z']) = some (0, []) := by decide
  have hrest : skipBlanks [] = [] := rfl
  simp only [hfraction, Option.bind_some, hoffset, hrest, htotal, hleap, guard, if_pos, h.isYear]
  rfl

/-- Offsets are in whole minutes. -/
theorem offset?_mod {cs rest : List Char} {offset : Int} (h : offset? cs = some (offset, rest)) :
    offset % 60 = 0 := by
  unfold offset? at h
  split at h
  · cases h
    rfl
  · split at h
    · cases h
      rfl
    · simp only [Option.bind_eq_bind, Option.bind_eq_some_iff] at h
      obtain ⟨⟨direction, _⟩, -, ⟨hours, _⟩, -, ⟨minutes, _⟩, -, -, -, heq⟩ := h
      cases heq
      have hminutes : (60 : Int) ∣ ((hours * 60 + minutes) * 60 : Nat) :=
        ⟨(hours * 60 + minutes : Nat), by omega⟩
      exact Int.emod_eq_zero_of_dvd (Int.dvd_mul_of_dvd_right hminutes)

theorem isProper_of_ofString? {text : String} {t : Timestamp} (h : ofString? text = some t) :
    t.IsProper := by
  unfold ofString? at h
  simp only [Option.bind_eq_bind, Option.bind_eq_some_iff] at h
  obtain ⟨⟨days, _⟩, -, _, -, ⟨⟨hour, minute, second⟩, _⟩, -, _, -, ⟨offset, _⟩, hoffset, _, -,
    _, hyear, heq⟩ := h
  have hmod := offset?_mod hoffset
  -- a leap second is kept as the second before it
  cases heq
  refine ⟨(Option.guard_eq_some' _).1 hyear, fun hleap => ?_⟩
  have hsecond : second = 60 := of_decide_eq_true hleap
  subst hsecond
  dsimp only
  omega

end ClusterSync.Timestamp
