import Mathlib.Data.List.Induction
import Mathlib.Data.List.TakeWhile
import Mathlib.Tactic.IntervalCases
import ResourceTree.Proofs.TreeRoutes
import ResourceTree.Resource.Timestamp

/-! # Times that are read again

A time is written in UTC. The date in the text is the one with as many days before it (`dateFromDays_spec`), and the
fields of the text are read as the numbers that they were written for (`field_padded`, `year_yearText`,
`decimals_fraction`). What is read as a time has the fields of one (`reads_of_parse`), and a text with such fields is
read (`Reads.parse`). So a time within the years that are counted is read as the same time (`parse_text`), and a time
that was read is within them (`isReadable_of_parse`). -/

namespace ResourceTree.Timestamp

/-! ## The calendar -/

/-- A day of an era by century, by four years, by year and by day, where years begin in March: the last day of a year
is that of a leap day, which only the fourth year of four has, and not the last one of a century but the fourth. -/
structure DayOfEra (e c a b d : Int) : Prop where
  sum : e = 36524 * c + 1461 * a + 365 * b + d
  century : 0 ≤ c ∧ c ≤ 3
  four : 0 ≤ a ∧ a ≤ 24
  year : 0 ≤ b ∧ b ≤ 3
  day : 0 ≤ d
  last : d ≤ 364 ∨ d = 365 ∧ b = 3 ∧ (a < 24 ∨ c = 3)

theorem exists_dayOfEra {e : Int} (h : 0 ≤ e) (h' : e < 146097) : ∃ c a b d, DayOfEra e c a b d := by
  obtain ⟨c, hc⟩ : ∃ c, c = min (e / 36524) 3 := ⟨_, rfl⟩
  obtain ⟨a, ha⟩ : ∃ a, a = (e - 36524 * c) / 1461 := ⟨_, rfl⟩
  obtain ⟨b, hb⟩ : ∃ b, b = min ((e - 36524 * c - 1461 * a) / 365) 3 := ⟨_, rfl⟩
  have hcentury : 0 ≤ c ∧ c ≤ 3 := by omega
  have hrest : 0 ≤ e - 36524 * c ∧ (e - 36524 * c < 36524 ∨ e = 146096 ∧ c = 3) := by omega
  clear hc
  have hfour : 0 ≤ a ∧ a ≤ 24 := by omega
  have hyears : 0 ≤ e - 36524 * c - 1461 * a ∧ e - 36524 * c - 1461 * a < 1461 := by omega
  have hyear : 0 ≤ b ∧ b ≤ 3 := by omega
  exact ⟨c, a, b, e - 36524 * c - 1461 * a - 365 * b, by omega, hcentury, hfour, hyear, by omega, by omega⟩

/-- The year of an era as it is computed from the day. -/
theorem DayOfEra.year_eq {e c a b d : Int} (h : DayOfEra e c a b d) :
    (e - e / 1460 + e / 36524 - e / 146096) / 365 = 100 * c + 4 * a + b := by
  obtain ⟨he, hc, ha, hb, hd, hlast⟩ := h
  have hend : 1461 * a + 365 * b + d < 36524 ∨ e = 146096 ∧ c = 3 ∧ a = 24 ∧ b = 3 ∧ d = 365 := by omega
  obtain hend | ⟨rfl, rfl, rfl, rfl, rfl⟩ := hend
  · have hcentury : e / 36524 = c := by omega
    have hera : e / 146096 = 0 := by omega
    have hfour : e / 1460 = 25 * c + a + (24 * c + a + 365 * b + d) / 1460 := by omega
    rw [hcentury, hera]
    omega
  · decide

/-- So many days of an era have gone by before a year of it. -/
theorem DayOfEra.before {e c a b d : Int} (h : DayOfEra e c a b d) :
    365 * (100 * c + 4 * a + b) + (100 * c + 4 * a + b) / 4 - (100 * c + 4 * a + b) / 100 = e - d := by
  obtain ⟨he, hc, ha, hb, hd, hlast⟩ := h
  have hfour : (100 * c + 4 * a + b) / 4 = 25 * c + a := by omega
  have hcentury : (100 * c + 4 * a + b) / 100 = c := by omega
  rw [hfour, hcentury, he]
  omega

/-- The year that ends with the last day of a long year is a leap year. -/
theorem DayOfEra.isLeapYear {e c a b d : Int} (h : DayOfEra e c a b d) (hd : d = 365) (era : Int) :
    isLeapYear (100 * c + 4 * a + b + era * 400 + 1) = true := by
  obtain ⟨-, hc, ha, hb, -, hlast⟩ := h
  have hfour : (100 * c + 4 * a + b + era * 400 + 1) % 4 = 0 := by omega
  have hcentury : (100 * c + 4 * a + b + era * 400 + 1) % 100 ≠ 0
      ∨ (100 * c + 4 * a + b + era * 400 + 1) % 400 = 0 := by omega
  simpa [Timestamp.isLeapYear, hfour] using hcentury

/-- The month with a number from March on, and a day in it. -/
def monthAndDay (s d : Int) : Nat × Nat :=
  ((if s < 10 then s + 3 else s - 9).toNat, (d - (153 * s + 2) / 5 + 1).toNat)

/-- A day of a year that begins in March is in one of its months. -/
theorem monthAndDay_valid {d s year : Int} (hd : 0 ≤ d ∧ d ≤ 365) (hs : s = (5 * d + 2) / 153)
    (hleap : d = 365 → isLeapYear year = true) :
    1 ≤ (monthAndDay s d).2 ∧ (monthAndDay s d).2 ≤ daysInMonth year (monthAndDay s d).1 := by
  have hmonths : 0 ≤ s ∧ s ≤ 11 := by omega
  by_cases hlast : s = 11
  · -- the year ends with February, whose last day is the one that may be missing
    subst hlast
    have hfebruary : (monthAndDay 11 d).2 = (d - 336).toNat := by simp [monthAndDay]; omega
    have hdays : daysInMonth year (monthAndDay 11 d).1 = if isLeapYear year = true then 29 else 28 := rfl
    rw [hfebruary, hdays]
    split
    · omega
    · next hno =>
        have hshort : d ≠ 365 := fun h => hno (hleap h)
        omega
  · obtain ⟨hfirst, hend⟩ := hmonths
    interval_cases s <;> simp [monthAndDay, daysInMonth] at hlast ⊢ <;> omega

/-- What the month of a day is, counted from January. -/
theorem monthAndDay_month {s : Int} (hs : 0 ≤ s ∧ s ≤ 11) (d : Int) :
    1 ≤ (monthAndDay s d).1 ∧ (monthAndDay s d).1 ≤ 12 ∧ ((monthAndDay s d).1 ≤ 2 ↔ 10 ≤ s)
      ∧ (if 2 < (monthAndDay s d).1 then ((monthAndDay s d).1 : Int) - 3 else (monthAndDay s d).1 + 9) = s := by
  rw [monthAndDay]
  by_cases h : s < 10
  · simp only [if_pos h]
    omega
  · simp only [if_neg h]
    omega

/-- **The date of a day** is a date of the calendar, and it is the date of that day only. -/
theorem dateFromDays_spec {days year : Int} {month day : Nat} (h : dateFromDays days = (year, month, day)) :
    1 ≤ month ∧ month ≤ 12 ∧ 1 ≤ day ∧ day ≤ daysInMonth year month ∧ daysFromDate year month day = days := by
  obtain ⟨era, hera⟩ : ∃ era, era = (days + 719468) / 146097 := ⟨_, rfl⟩
  obtain ⟨e, he⟩ : ∃ e, e = days + 719468 - era * 146097 := ⟨_, rfl⟩
  obtain ⟨c, a, b, d, hsplit⟩ : ∃ c a b d, DayOfEra e c a b d := exists_dayOfEra (by omega) (by omega)
  have hleap := fun hd => hsplit.isLeapYear hd era
  have hyear := hsplit.year_eq
  have hbefore := hsplit.before
  have hbounds : 0 ≤ 100 * c + 4 * a + b ∧ 100 * c + 4 * a + b < 400 ∧ 0 ≤ d ∧ d ≤ 365 := by
    obtain ⟨-, hc, ha, hb, hd, hlast⟩ := hsplit
    omega
  generalize 100 * c + 4 * a + b = y at hleap hyear hbefore hbounds
  clear hsplit
  obtain ⟨s, hs⟩ : ∃ s, s = (5 * d + 2) / 153 := ⟨_, rfl⟩
  have hmonths : 0 ≤ s ∧ s ≤ 11 := by omega
  have hday : e - (365 * y + y / 4 - y / 100) = d := by omega
  have hdate : dateFromDays days
      = (if 10 ≤ s then y + era * 400 + 1 else y + era * 400, monthAndDay s d) := by
    have hnew : (if s < 10 then s + 3 else s - 9) ≤ 2 ↔ 10 ≤ s := by split <;> omega
    simp only [dateFromDays, ← hera, ← he, hyear, hday, ← hs, hnew, monthAndDay]
  obtain ⟨hone, htwelve, hnew, hshift⟩ := monthAndDay_month hmonths d
  rw [hdate] at h
  obtain ⟨hy, hmd⟩ := Prod.mk.inj h
  have hend : d = 365 → isLeapYear year = true := by
    intro hd
    rw [← hy, if_pos (by omega)]
    exact hleap hd
  have hvalid := monthAndDay_valid hbounds.2.2 hs hend
  have hcount : (monthAndDay s d).2 = d - (153 * s + 2) / 5 + 1 := Int.toNat_of_nonneg (by omega)
  rw [hmd] at hone htwelve hnew hshift hvalid hcount
  refine ⟨hone, htwelve, hvalid.1, hvalid.2, ?_⟩
  have hmarch : (if month ≤ 2 then year - 1 else year) = y + era * 400 := by
    simp only [hnew]
    split at hy <;> split <;> omega
  have hnumber : (y + era * 400) / 400 = era := by omega
  have hofEra : y + era * 400 - era * 400 = y := by omega
  simp only [daysFromDate, hmarch, hnumber, hofEra, hshift, hcount]
  omega

theorem daysInMonth_le (year : Int) (month : Nat) : daysInMonth year month ≤ 31 := by
  rw [daysInMonth]
  split_ifs <;> decide

/-- The days that are counted are those of the years that are. -/
theorem year_bounds {year : Int} {month day : Nat} (hmonth : 1 ≤ month ∧ month ≤ 12) (hday : 1 ≤ day ∧ day ≤ 31)
    (hfirst : firstDay ≤ daysFromDate year month day) (hlast : daysFromDate year month day ≤ lastDay) :
    -262143 ≤ year ∧ year ≤ 262142 := by
  have hbounds : firstDay = -96465292 ∧ lastDay = 95026236 := by decide
  rw [hbounds.1] at hfirst
  rw [hbounds.2] at hlast
  simp only [daysFromDate] at hfirst hlast
  constructor
  · clear hlast
    by_contra hyear
    split at hfirst <;> split at hfirst <;> omega
  · clear hfirst
    by_contra hyear
    split at hlast <;> split at hlast <;> omega

/-! ## Fields -/

variable {n most width : Nat} {ds rest : List Char} {c : Char}

/-- Digits are read as their number if no more may be read, or if no more follow. -/
theorem number_of_digits (hds : ∀ c ∈ ds, c.isDigit = true) (hne : ds ≠ [])
    (hstop : ds.length = most ∨ ds.length ≤ most ∧ ∃ c cs, rest = c :: cs ∧ c.isDigit = false) :
    number most (ds ++ rest) = .ok (Nat.ofDigitChars 10 ds 0, rest) := by
  have hread : ((ds ++ rest).take most).takeWhile Char.isDigit = ds := by
    obtain rfl | ⟨hmost, c, cs, rfl, hc⟩ := hstop
    · rw [List.take_left, List.takeWhile_eq_self_iff.mpr hds]
    · rw [List.take_append, List.take_of_length_le hmost, List.takeWhile_append_of_pos hds]
      cases most - ds.length with
      | zero => rw [List.take_zero, List.takeWhile_nil, List.append_nil]
      | succ left => rw [List.take_succ_cons, List.takeWhile_cons_of_neg (by simp [hc]), List.append_nil]
  obtain ⟨d, ds', rfl⟩ := List.exists_cons_of_ne_nil hne
  have hdrop : (d :: (ds' ++ rest)).drop (d :: ds').length = rest := List.drop_left
  rw [List.cons_append] at hread ⊢
  unfold number
  simp only [hread, hdrop]
  rfl

theorem padded_eq (width n : Nat) :
    padded width n = List.replicate (width - (Nat.toDigits 10 n).length) '0' ++ Nat.toDigits 10 n := by
  rw [padded, Nat.repr_eq_ofList_toDigits, String.toList_ofList]

theorem isDigit_of_mem_padded (h : c ∈ padded width n) : c.isDigit = true := by
  rw [padded_eq] at h
  rcases List.mem_append.mp h with h | h
  · rw [List.eq_of_mem_replicate h]
    rfl
  · exact Nat.isDigit_of_mem_toDigits (by decide) (by decide) h

theorem padded_ne_nil (width n : Nat) : padded width n ≠ [] := by
  rw [padded_eq]
  exact List.append_ne_nil_of_right_ne_nil _ Nat.toDigits_ne_nil

/-- The number that padded digits write. -/
theorem ofDigitChars_padded (width n : Nat) : Nat.ofDigitChars 10 (padded width n) 0 = n := by
  rw [padded_eq, Nat.ofDigitChars_append, Nat.ofDigitChars_replicate_zero, Nat.mul_zero, Nat.ofDigitChars_ten_toDigits]

/-- A number that fits is written with as many digits. -/
theorem length_padded (hwidth : 0 < width) (h : n < 10 ^ width) : (padded width n).length = width := by
  have hdigits := (Nat.length_toDigits_le_iff (by decide) hwidth).mpr h
  rw [padded_eq, List.length_append, List.length_replicate]
  omega

/-- A number with digits to spare is read back if it has as many as are read. -/
theorem number_padded (hwidth : 0 < width) (h : n < 10 ^ width) (rest : List Char) :
    number width (padded width n ++ rest) = .ok (n, rest) := by
  rw [number_of_digits (fun c hc => isDigit_of_mem_padded hc) (padded_ne_nil width n)
    (Or.inl (length_padded hwidth h)), ofDigitChars_padded]

/-- Digits do not count as blanks. -/
theorem not_isBlank_of_isDigit (h : c.isDigit = true) : Text.isBlank c = false := by
  have hbounds : 48 ≤ c.toNat ∧ c.toNat ≤ 57 := by
    simpa [Char.isDigit, UInt32.le_iff_toNat_le] using h
  simp only [Text.isBlank, Bool.or_eq_false_iff, Bool.and_eq_false_iff, decide_eq_false_iff_not, beq_eq_false_iff_ne]
  omega

theorem ne_of_isDigit {d : Char} (h : c.isDigit = true) (hd : d.isDigit = false) : c ≠ d := by
  rintro rfl
  rw [hd] at h
  cases h

theorem skipBlanks_padded (width n : Nat) (rest : List Char) :
    skipBlanks (padded width n ++ rest) = padded width n ++ rest := by
  obtain ⟨d, ds, hds⟩ := List.exists_cons_of_ne_nil (padded_ne_nil width n)
  have hd : d.isDigit = true := isDigit_of_mem_padded (hds ▸ List.mem_cons_self)
  rw [hds, List.cons_append, skipBlanks, List.dropWhile_cons_of_neg (by simp [not_isBlank_of_isDigit hd])]

/-- A field of two digits is read back. -/
theorem field_padded (h : n < 100) (rest : List Char) : field 2 (padded 2 n ++ rest) = .ok (n, rest) := by
  rw [field, skipBlanks_padded, number_padded (by decide) h]

/-- A year is read back up to the dash behind it. -/
theorem year_yearText (y : Int) (rest : List Char) : year (yearText y ++ '-' :: rest) = .ok (y, '-' :: rest) := by
  have hsigned (n : Nat) : number (padded 4 n ++ '-' :: rest).length (padded 4 n ++ '-' :: rest)
      = .ok (n, '-' :: rest) := by
    have hlength : (padded 4 n).length ≤ (padded 4 n ++ '-' :: rest).length := by
      rw [List.length_append]
      exact Nat.le_add_right _ _
    rw [number_of_digits (fun c hc => isDigit_of_mem_padded hc) (padded_ne_nil 4 n)
      (Or.inr ⟨hlength, '-', rest, rfl, rfl⟩), ofDigitChars_padded]
  rw [yearText]
  split_ifs with hfour hnegative
  · have hread := number_padded (n := y.toNat) (by decide : 0 < 4) (by omega) ('-' :: rest)
    obtain ⟨d, ds, hds⟩ := List.exists_cons_of_ne_nil (padded_ne_nil 4 y.toNat)
    have hd : d.isDigit = true := isDigit_of_mem_padded (hds ▸ List.mem_cons_self)
    have hminus : d ≠ '-' := ne_of_isDigit hd rfl
    have hplus : d ≠ '+' := ne_of_isDigit hd rfl
    have hy : ((y.toNat : Nat) : Int) = y := Int.toNat_of_nonneg hfour.1
    unfold year
    rw [skipBlanks_padded]
    rw [hds, List.cons_append] at hread ⊢
    split
    · next h => exact absurd (List.cons.inj h).1 hminus
    · next h => exact absurd (List.cons.inj h).1 hplus
    · rw [hread, ← hy]
      rfl
  · have hy : -((y.natAbs : Nat) : Int) = y := by omega
    have hblank : skipBlanks ('-' :: padded 4 y.natAbs ++ '-' :: rest)
        = '-' :: (padded 4 y.natAbs ++ '-' :: rest) := rfl
    unfold year
    rw [hblank]
    simp only [hsigned]
    exact congrArg (fun y : Int => Except.ok (y, '-' :: rest)) hy
  · have hy : ((y.natAbs : Nat) : Int) = y := by omega
    have hblank : skipBlanks ('+' :: padded 4 y.natAbs ++ '-' :: rest)
        = '+' :: (padded 4 y.natAbs ++ '-' :: rest) := rfl
    unfold year
    rw [hblank]
    simp only [hsigned]
    exact congrArg (fun y : Int => Except.ok (y, '-' :: rest)) hy

/-- Decimals are read back up to the letter behind them. -/
theorem decimals_fraction (h : n < 1000000000) (rest : List Char) :
    decimals (fraction n ++ 'Z' :: rest) = .ok (n, 'Z' :: rest) := by
  have hread {width value : Nat} (hwidth : 0 < width) (hmost : width ≤ 9) (hvalue : value < 10 ^ width) :
      decimals ('.' :: padded width value ++ 'Z' :: rest) = .ok (value * Nat.pow 10 (9 - width), 'Z' :: rest) := by
    have hlength := length_padded hwidth hvalue
    have hnumber : number 9 (padded width value ++ 'Z' :: rest) = .ok (value, 'Z' :: rest) := by
      rw [number_of_digits (fun c hc => isDigit_of_mem_padded hc) (padded_ne_nil width value)
        (Or.inr ⟨by omega, 'Z', rest, rfl, rfl⟩), ofDigitChars_padded]
    rw [List.cons_append, decimals, hnumber]
    simp only [bind, Except.bind, List.length_append, hlength, Nat.add_sub_cancel]
    rfl
  rw [fraction]
  split_ifs with hzero hmilli hmicro
  · rw [hzero]
    rfl
  · have hvalue : n / 1000000 * Nat.pow 10 (9 - 3) = n := Nat.div_mul_cancel (Nat.dvd_of_mod_eq_zero hmilli)
    rw [hread (by decide) (by decide) (by omega), hvalue]
  · have hvalue : n / 1000 * Nat.pow 10 (9 - 6) = n := Nat.div_mul_cancel (Nat.dvd_of_mod_eq_zero hmicro)
    rw [hread (by decide) (by decide) (by omega), hvalue]
  · have hvalue : n * Nat.pow 10 (9 - 9) = n := Nat.mul_one n
    rw [hread (by decide) (by decide) (by omega), hvalue]

/-! ## The fields of a time -/

/-- The fields of a time as they are written. -/
structure Reading where
  year : Int
  month : Nat
  day : Nat
  hour : Nat
  minute : Nat
  second : Nat
  nanos : Nat
  /-- The offset from UTC in seconds. -/
  offset : Int

namespace Reading

/-- The seconds from the beginning of 1970 in UTC; a leap second is part of the second before it. -/
def seconds (f : Reading) : Int :=
  daysFromDate f.year f.month f.day * 86400 + ((f.hour * 3600 + f.minute * 60 + min f.second 59 : Nat) : Int) - f.offset

/-- The time that is written. -/
def time (f : Reading) : Timestamp := ⟨f.seconds, if f.second = 60 then f.nanos + 1000000000 else f.nanos⟩

/-- The fields are within their ranges, and the month has the day. -/
structure OnCalendar (f : Reading) : Prop where
  month : 1 ≤ f.month ∧ f.month ≤ 12
  day : 1 ≤ f.day ∧ f.day ≤ daysInMonth f.year f.month
  hour : f.hour ≤ 23
  minute : f.minute ≤ 59
  second : f.second ≤ 60

/-- The year is one that is counted, the offset is less than a day, and so the day in UTC is counted too. -/
structure Counted (f : Reading) : Prop where
  year : -262143 ≤ f.year ∧ f.year ≤ 262142
  offset : f.offset.natAbs < 86400
  day : firstDay ≤ f.seconds / 86400 ∧ f.seconds / 86400 ≤ lastDay

end Reading

/-! ## Reading a time -/

/-- A check that was passed. -/
theorem of_check {α : Type} {p : Prop} [Decidable p] {fault : Fault} {f : PUnit → Except Fault α} {a : α}
    (h : (if p then throw fault >>= f else f ⟨⟩) = .ok a) : ¬p ∧ f ⟨⟩ = .ok a := by
  split at h
  · cases h
  · next hp => exact ⟨hp, h⟩

/-- A value that was accepted. -/
theorem of_accept {α β : Type} {p : Prop} [Decidable p] {fault : Fault} {f : β → Except Fault α} {b : β} {a : α}
    (h : (if p then pure b >>= f else throw fault >>= f) = .ok a) : f b = .ok a := by
  split at h
  · exact h
  · cases h

/-- **The fields of a time are read from a text**, one behind another. -/
inductive Reads : List Char → Reading → Prop
  | intro {cs₀ cs₁ cs₂ cs₃ cs₄ cs₅ cs₆ cs₇ cs₈ cs₉ cs₁₀ cs₁₁ rest : List Char} {letter : Char} {f : Reading}
      (hyear : year cs₀ = .ok (f.year, cs₁)) (hdash : separator '-' cs₁ = .ok cs₂)
      (hmonth : field 2 cs₂ = .ok (f.month, cs₃)) (hdash' : separator '-' cs₃ = .ok cs₄)
      (hday : field 2 cs₄ = .ok (f.day, letter :: cs₅)) (hletter : letter = 'T' ∨ letter = 't' ∨ letter = ' ')
      (hhour : field 2 cs₅ = .ok (f.hour, cs₆)) (hcolon : separator ':' cs₆ = .ok cs₇)
      (hminute : field 2 cs₇ = .ok (f.minute, cs₈)) (hcolon' : separator ':' cs₈ = .ok cs₉)
      (hsecond : field 2 cs₉ = .ok (f.second, cs₁₀)) (hdecimals : decimals cs₁₀ = .ok (f.nanos, cs₁₁))
      (hoffset : offset (skipBlanks cs₁₁) = .ok (f.offset, rest)) (hrest : skipBlanks rest = []) : Reads cs₀ f

/-- **What is read as a time** has the fields of one that is on the calendar and counted. -/
theorem reads_of_parse {s : String} {t : Timestamp} (h : parse s = .ok t) :
    ∃ f, Reads s.toList f ∧ f.OnCalendar ∧ f.Counted ∧ f.time = t := by
  rw [parse] at h
  obtain ⟨⟨y, cs₁⟩, hyear, h⟩ := except_bind_eq_ok h
  obtain ⟨cs₂, hdash, h⟩ := except_bind_eq_ok h
  obtain ⟨⟨month, cs₃⟩, hmonth, h⟩ := except_bind_eq_ok h
  obtain ⟨hmonthOk, h⟩ := of_check h
  obtain ⟨cs₄, hdash', h⟩ := except_bind_eq_ok h
  obtain ⟨⟨day, after⟩, hday, h⟩ := except_bind_eq_ok h
  obtain ⟨hdayOk, h⟩ := of_check h
  cases after with
  | nil => cases h
  | cons letter cs₅ =>
      have hletter : letter = 'T' ∨ letter = 't' ∨ letter = ' ' := by
        by_contra hno
        dsimp only at h
        rw [if_neg hno] at h
        cases h
      replace h := of_accept h
      obtain ⟨⟨hour, cs₆⟩, hhour, h⟩ := except_bind_eq_ok h
      obtain ⟨hhourOk, h⟩ := of_check h
      obtain ⟨cs₇, hcolon, h⟩ := except_bind_eq_ok h
      obtain ⟨⟨minute, cs₈⟩, hminute, h⟩ := except_bind_eq_ok h
      obtain ⟨hminuteOk, h⟩ := of_check h
      obtain ⟨cs₉, hcolon', h⟩ := except_bind_eq_ok h
      obtain ⟨⟨second, cs₁₀⟩, hsecond, h⟩ := except_bind_eq_ok h
      obtain ⟨hsecondOk, h⟩ := of_check h
      obtain ⟨⟨nanos, cs₁₁⟩, hdecimals, h⟩ := except_bind_eq_ok h
      obtain ⟨⟨off, rest⟩, hoffset, h⟩ := except_bind_eq_ok h
      obtain ⟨hrest, h⟩ := of_check h
      obtain ⟨hoffsetOk, h⟩ := of_check h
      obtain ⟨hdateOk, h⟩ := of_check h
      -- the fields, and the checks that they have passed
      obtain ⟨f, hf⟩ : ∃ f : Reading, f = ⟨y, month, day, hour, minute, second, nanos, off⟩ := ⟨_, rfl⟩
      have hreads : Reads s.toList f := by
        subst hf
        exact .intro hyear hdash hmonth hdash' hday hletter hhour hcolon hminute hcolon' hsecond hdecimals hoffset
          (not_not.mp hrest)
      have hyearIn : -262143 ≤ y ∧ y ≤ 262142 := by omega
      have hmonthIn : 1 ≤ month ∧ month ≤ 12 := by omega
      have hdayIn : 1 ≤ day ∧ day ≤ daysInMonth y month := by omega
      have hoffsetIn : off.natAbs < 86400 := by omega
      have hcalendar : f.OnCalendar := by
        subst hf
        exact ⟨hmonthIn, hdayIn, Nat.le_of_not_lt hhourOk, Nat.le_of_not_lt hminuteOk, Nat.le_of_not_lt hsecondOk⟩
      have hcounted (hinstant : ¬(f.seconds / 86400 < firstDay ∨ lastDay < f.seconds / 86400)) : f.Counted := by
        rw [not_or, Int.not_lt, Int.not_lt] at hinstant
        subst hf
        exact ⟨hyearIn, hoffsetIn, hinstant⟩
      refine ⟨f, hreads, hcalendar, ?_⟩
      by_cases hleap : second = 60
      · rw [if_pos hleap] at h
        obtain ⟨hinstant, h⟩ := of_check h
        cases h
        subst hleap hf
        exact ⟨hcounted hinstant, rfl⟩
      · rw [if_neg hleap] at h
        obtain ⟨hinstant, h⟩ := of_check h
        cases h
        have hseconds : f.seconds
            = daysFromDate y month day * 86400 + ((hour * 3600 + minute * 60 + second : Nat) : Int) - off := by
          have hmin : min second 59 = second := by omega
          rw [hf, Reading.seconds, hmin]
        refine ⟨hcounted (hseconds ▸ hinstant), ?_⟩
        rw [Reading.time, hseconds, hf, if_neg hleap]

/-- **A text with the fields of a time** on the calendar that is counted is read as this time. -/
theorem Reads.parse {s : String} {f : Reading} (h : Reads s.toList f) (hcalendar : f.OnCalendar)
    (hcounted : f.Counted) : parse s = .ok f.time := by
  generalize hs : s.toList = cs at h
  obtain ⟨hyear, hdash, hmonth, hdash', hday, hletter, hhour, hcolon, hminute, hcolon', hsecond, hdecimals, hoffset,
    hrest⟩ := h
  obtain ⟨hmonthOk, hdayOk, hhourOk, hminuteOk, hsecondOk⟩ := hcalendar
  obtain ⟨hyearOk, hoffsetOk, hcountedOk⟩ := hcounted
  rw [Reading.seconds] at hcountedOk
  -- none of the checks fails
  have hshort := daysInMonth_le f.year f.month
  have hmonthNo : ¬(f.month < 1 ∨ 12 < f.month) := by omega
  have hdayNo : ¬(f.day < 1 ∨ 31 < f.day) := by omega
  have hhourNo : ¬(23 < f.hour) := by omega
  have hminuteNo : ¬(59 < f.minute) := by omega
  have hsecondNo : ¬(60 < f.second) := by omega
  have hoffsetNo : ¬(86400 ≤ f.offset.natAbs) := by omega
  have hdateNo : ¬(f.year < -262143 ∨ 262142 < f.year ∨ daysInMonth f.year f.month < f.day) := by omega
  have hcountedNo := not_or.mpr ⟨Int.not_lt.mpr hcountedOk.1, Int.not_lt.mpr hcountedOk.2⟩
  have hleap : (if f.second = 60 then (59, f.nanos + 1000000000) else (f.second, f.nanos))
      = (min f.second 59, f.time.nanos) := by
    rw [Reading.time]
    split_ifs with h
    · rw [h]
      rfl
    · rw [Nat.min_eq_left (by omega)]
  rw [Timestamp.parse, hs]
  simp only [bind, Except.bind, pure, Except.pure, hyear, hdash, hmonth, hdash', hday, hletter, if_true, hhour, hcolon,
    hminute, hcolon', hsecond, hdecimals, hoffset, if_neg hmonthNo, if_neg hdayNo, if_neg hhourNo, if_neg hminuteNo,
    if_neg hsecondNo, if_neg (not_not.mpr hrest), if_neg hoffsetNo, if_neg hdateNo, hleap, if_neg hcountedNo]
  rfl

/-! ## Times -/

/-- A time that can be read: its day is counted, and only the last second of a minute may be a leap second. -/
structure IsReadable (t : Timestamp) : Prop where
  first : firstDay ≤ t.seconds / 86400
  last : t.seconds / 86400 ≤ lastDay
  nanos : t.nanos < 2000000000
  leap : 1000000000 ≤ t.nanos → t.seconds % 60 = 59

/-- A leap second is written as the sixtieth second, and read as part of the second before it. -/
theorem exists_second {second nanos : Nat} (hsecond : second < 60) (hnanos : nanos < 2000000000)
    (hleap : 1000000000 ≤ nanos → second = 59) :
    ∃ leap rest, (if nanos < 1000000000 then (0, nanos) else (1, nanos - 1000000000)) = (leap, rest)
      ∧ rest < 1000000000 ∧ second + leap ≤ 60 ∧ min (second + leap) 59 = second
      ∧ (if second + leap = 60 then rest + 1000000000 else rest) = nanos := by
  by_cases hno : nanos < 1000000000
  · exact ⟨0, nanos, if_pos hno, hno, by omega, by omega, if_neg (by omega)⟩
  · have hlate := Nat.le_of_not_lt hno
    obtain rfl := hleap hlate
    exact ⟨1, nanos - 1000000000, if_neg hno, by omega, by omega, rfl, by rw [if_pos rfl, Nat.sub_add_cancel hlate]⟩

/-- **A time that can be read is read from its text.** -/
theorem parse_text {t : Timestamp} (h : t.IsReadable) : parse t.text = .ok t := by
  obtain ⟨hfirst, hlast, hnanos, hleap⟩ := h
  obtain ⟨y, month, day, hdate⟩ : ∃ y month day, dateFromDays (t.seconds / 86400) = (y, month, day) := ⟨_, _, _, rfl⟩
  obtain ⟨hmonth, hmonth', hday, hday', hdays⟩ := dateFromDays_spec hdate
  have hthirty : day ≤ 31 := hday'.trans (daysInMonth_le y month)
  have hyear := year_bounds ⟨hmonth, hmonth'⟩ ⟨hday, hthirty⟩ (hdays ▸ hfirst) (hdays ▸ hlast)
  obtain ⟨ofDay, hofDay⟩ : ∃ ofDay, ofDay = (t.seconds % 86400).toNat := ⟨_, rfl⟩
  have hlate : 1000000000 ≤ t.nanos → ofDay % 60 = 59 := fun h => by
    have hend := hleap h
    omega
  obtain ⟨leap, nanos, hsplit, hfraction, hsecond, hmin, hread⟩ := exists_second (by omega) hnanos hlate
  have htext : t.text = String.ofList (yearText y ++ '-' :: (padded 2 month ++ '-' :: (padded 2 day
      ++ 'T' :: (padded 2 (ofDay / 3600) ++ ':' :: (padded 2 (ofDay / 60 % 60)
      ++ ':' :: (padded 2 (ofDay % 60 + leap) ++ (fraction nanos ++ ['Z']))))))) := by
    rw [text, hdate]
    simp only [← hofDay, hsplit, List.append_assoc, List.cons_append]
  obtain ⟨f, hf⟩ : ∃ f : Reading,
      f = ⟨y, month, day, ofDay / 3600, ofDay / 60 % 60, ofDay % 60 + leap, nanos, 0⟩ := ⟨_, rfl⟩
  have hreads : Reads t.text.toList f := by
    subst hf
    rw [htext, String.toList_ofList]
    exact .intro (year_yearText y _) rfl (field_padded (by omega) _) rfl (field_padded (by omega) _) (.inl rfl)
      (field_padded (by omega) _) rfl (field_padded (by omega) _) rfl (field_padded (by omega) _)
      (decimals_fraction hfraction []) rfl rfl
  have hcalendar : f.OnCalendar := by
    subst hf
    refine ⟨⟨hmonth, hmonth'⟩, ⟨hday, hday'⟩, ?_, ?_, hsecond⟩ <;> dsimp only <;> omega
  have hseconds : f.seconds = t.seconds := by
    rw [hf, Reading.seconds]
    dsimp only
    rw [hmin, hdays]
    omega
  have hcounted : f.Counted := by
    have hoffset : (0 : Int).natAbs < 86400 := by decide
    refine ⟨?_, ?_, hseconds ▸ ⟨hfirst, hlast⟩⟩ <;> subst hf
    · exact hyear
    · exact hoffset
  have htime : f.time = t := by
    rw [Reading.time, hseconds, hf, hread]
  rw [hreads.parse hcalendar hcounted, htime]

/-! ## Times that have been read -/

/-- Digits, and the number that they write. -/
structure IsNumeral (ds : List Char) (n : Nat) : Prop where
  digits : ∀ c ∈ ds, c.isDigit = true
  ne_nil : ds ≠ []
  value : Nat.ofDigitChars 10 ds 0 = n

/-- What is read as a number is a numeral; if more digits may be read there are none left. -/
theorem numeral_of_number {cs : List Char} (h : number most cs = .ok (n, rest)) :
    ∃ ds, cs = ds ++ rest ∧ IsNumeral ds n ∧ ds.length ≤ most ∧
      (ds.length < most → ∀ c ∈ rest.head?, c.isDigit = false) := by
  obtain ⟨ds, hds⟩ : ∃ ds, ds = (cs.take most).takeWhile Char.isDigit := ⟨_, rfl⟩
  obtain ⟨left, hleft⟩ : ∃ left, left = (cs.take most).dropWhile Char.isDigit := ⟨_, rfl⟩
  have htake : cs.take most = ds ++ left := by rw [hds, hleft, List.takeWhile_append_dropWhile]
  have hsplit : cs = ds ++ (left ++ cs.drop most) := by
    rw [← List.append_assoc, ← htake, List.take_append_drop]
  have hdigits : ∀ c ∈ ds, c.isDigit = true := fun c hc => by
    rw [hds] at hc
    exact List.mem_takeWhile_imp hc
  have hmost : ds.length ≤ most := by
    have hlength := congrArg List.length htake
    rw [List.length_append] at hlength
    have hle := List.length_take_le most cs
    omega
  have hstops : ds.length < most → ∀ c ∈ (left ++ cs.drop most).head?, c.isDigit = false := by
    intro hlt c hc
    cases hleft' : left with
    | nil =>
        -- then the whole text has fewer characters than may be read
        have hshort : cs.length < most := by
          have hlength := congrArg List.length htake
          rw [hleft', List.append_nil, List.length_take] at hlength
          omega
        rw [hleft', List.drop_eq_nil_of_le (by omega)] at hc
        cases hc
    | cons d left' =>
        rw [hleft'] at hc
        cases hc
        have hhead := List.head?_dropWhile_not Char.isDigit (cs.take most)
        rw [← hleft, hleft'] at hhead
        simpa using hhead
  unfold number at h
  simp only [← hds] at h
  split at h
  · cases h
  · cases h
  · next hne =>
      cases h
      have hrest : cs.drop ds.length = left ++ cs.drop most := by
        conv_lhs => rw [hsplit]
        exact List.drop_left
      rw [hrest]
      exact ⟨ds, hsplit, ⟨hdigits, hne, rfl⟩, hmost, hstops⟩

/-- A number with so many digits is less than the power of ten. -/
theorem ofDigitChars_lt (hds : ∀ c ∈ ds, c.isDigit = true) : Nat.ofDigitChars 10 ds 0 < 10 ^ ds.length := by
  induction ds using List.reverseRecOn with
  | nil => decide
  | append_singleton ds d ih =>
      have hd : d.toNat ≤ 57 := by
        have hd := hds d (List.mem_append_right ds List.mem_cons_self)
        simp only [Char.isDigit, Bool.and_eq_true, decide_eq_true_eq] at hd
        exact hd.2
      have hbefore := ih fun c hc => hds c (List.mem_append_left _ hc)
      rw [Nat.ofDigitChars_append, Nat.ofDigitChars_cons, Nat.ofDigitChars_nil, List.length_append,
        List.length_singleton, Nat.pow_succ]
      have hzero : '0'.toNat = 48 := rfl
      omega

/-- The decimals of a second are less than a second. -/
theorem decimals_lt {cs : List Char} (h : decimals cs = .ok (n, rest)) : n < 1000000000 := by
  rw [decimals.eq_def] at h
  split at h
  · next cs =>
      obtain ⟨⟨value, left⟩, hnumber, h⟩ := except_bind_eq_ok h
      cases h
      obtain ⟨ds, rfl, ⟨hds, -, rfl⟩, hmost, -⟩ := numeral_of_number hnumber
      have hlt := ofDigitChars_lt hds
      have hused : (ds ++ left).length - left.length = ds.length := by
        rw [List.length_append, Nat.add_sub_cancel]
      rw [hused]
      have hpow : 10 ^ ds.length * Nat.pow 10 (9 - ds.length) = 1000000000 := by
        rw [Nat.pow_eq, ← Nat.pow_add, Nat.add_sub_cancel' hmost]
      rw [← hpow]
      exact Nat.mul_lt_mul_of_pos_right hlt (Nat.pow_pos (by decide))
  · cases h
    decide

/-- Offsets are whole minutes. -/
theorem offset_whole {cs : List Char} {o : Int} (h : offset cs = .ok (o, rest)) : o % 60 = 0 := by
  -- behind the sign, hours and minutes are read
  have hfields {sign : Int} {rest' : List Char}
      (h : (twoDigits rest' >>= fun hours =>
        twoDigits (hours.2.dropWhile fun d => d == ':' || Text.isBlank d) >>= fun minutes =>
          if 60 ≤ minutes.1 then throw Fault.outOfRange >>= fun _ : PUnit => pure (0, rest)
          else pure (sign * ((hours.1 * 3600 + minutes.1 * 60 : Nat) : Int), minutes.2))
        = Except.ok (o, rest)) : o % 60 = 0 := by
    obtain ⟨⟨hours, cs⟩, -, h⟩ := except_bind_eq_ok h
    obtain ⟨⟨minutes, cs'⟩, -, h⟩ := except_bind_eq_ok h
    dsimp only at h
    split at h
    · cases h
    · cases h
      have hminutes : (60 : Int) ∣ (hours * 3600 + minutes * 60 : Nat) := by omega
      exact Int.emod_eq_zero_of_dvd (hminutes.mul_left sign)
  unfold offset at h
  split at h
  · cases h
  · split at h
    · cases h
      rfl
    · split at h
      · cases h
        rfl
      · dsimp only at h
        split at h
        · exact hfields h
        · split at h
          · exact hfields h
          · cases h

/-- **A time that was read can be read.** -/
theorem isReadable_of_parse {s : String} {t : Timestamp} (h : parse s = .ok t) : t.IsReadable := by
  obtain ⟨f, ⟨-, -, -, -, -, -, -, -, -, -, -, hdecimals, hoffset, -⟩, hcalendar, hcounted, rfl⟩ := reads_of_parse h
  have hnanos := decimals_lt hdecimals
  have hminutes := offset_whole hoffset
  have hsecond := hcalendar.second
  refine ⟨hcounted.day.1, hcounted.day.2, ?_, fun hlate => ?_⟩
  · rw [Reading.time]
    dsimp only
    split <;> omega
  · -- only the sixtieth second has so many nanoseconds
    have hleap : f.second = 60 := by
      by_contra hno
      rw [Reading.time, if_neg hno] at hlate
      dsimp only at hlate
      omega
    rw [Reading.time, Reading.seconds, hleap]
    dsimp only
    omega

/-- **A time that was read is written and read as the same time.** -/
theorem parse_text_of_parse {s : String} {t : Timestamp} (h : parse s = .ok t) : parse t.text = .ok t :=
  parse_text (isReadable_of_parse h)

example : (parse "2016-12-31T23:59:60.5+01:00").map text = .ok "2016-12-31T22:59:60.500Z" := by decide +kernel

end ResourceTree.Timestamp
