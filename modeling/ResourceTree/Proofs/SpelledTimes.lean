import ResourceTree.Proofs.WrittenTimes

/-! # What is read as a time

A time is read from a text in which its fields stand one behind another, in a form that is more relaxed than RFC 3339:
numbers may have fewer digits, blanks may stand between the parts, and a blank may stand for the letter in the middle.
`Timestamp.Spells` is the grammar of these texts. Fields that are read are spelled (`Timestamp.Reads.spells`) and the
other way round (`Timestamp.Spells.reads`), so it is known what texts are read as (`Timestamp.parse_eq_ok_iff`). Every
date-time of RFC 3339 is read (`Timestamp.IsInternetTime.isTime`). -/

namespace ResourceTree.Timestamp

/-! ## Numbers -/

variable {cs ds rest : List Char} {n most : Nat} {c : Char} {y o : Int}

/-- What comes next is no digit. -/
def Stops (cs : List Char) : Prop := ∃ c rest, cs = c :: rest ∧ c.isDigit = false

/-- A numeral is read up to where it stops. -/
theorem IsNumeral.number (h : IsNumeral ds n) (hlength : ds.length ≤ most) (hstop : Stops rest) :
    number most (ds ++ rest) = .ok (n, rest) := by
  rw [number_of_digits h.digits h.ne_nil (Or.inr ⟨hlength, hstop⟩), h.value]

/-! ## Parts of a time

Each kind of part is a relation of a text that begins with it, what it means, and the rest of the text. -/

/-- Blanks, perhaps none. -/
def AreBlanks (cs : List Char) : Prop := ∀ c ∈ cs, Text.isBlank c = true

/-- A number of one or two digits behind blanks. -/
inductive FieldAt : List Char → Nat → List Char → Prop
  | intro {blanks ds rest : List Char} {n : Nat} (hblanks : AreBlanks blanks) (hds : IsNumeral ds n)
      (hlength : ds.length ≤ 2) : FieldAt (blanks ++ (ds ++ rest)) n rest

/-- A separator behind blanks. -/
inductive SeparatorAt (c : Char) : List Char → List Char → Prop
  | intro {blanks rest : List Char} (hblanks : AreBlanks blanks) : SeparatorAt c (blanks ++ c :: rest) rest

/-- A year behind blanks: up to four digits, or any number of digits behind a sign. -/
inductive YearAt : List Char → Int → List Char → Prop
  | plain {blanks ds rest : List Char} {n : Nat} (hblanks : AreBlanks blanks) (hds : IsNumeral ds n)
      (hlength : ds.length ≤ 4) : YearAt (blanks ++ (ds ++ rest)) n rest
  | minus {blanks ds rest : List Char} {n : Nat} (hblanks : AreBlanks blanks) (hds : IsNumeral ds n) :
      YearAt (blanks ++ '-' :: (ds ++ rest)) (-(n : Int)) rest
  | plus {blanks ds rest : List Char} {n : Nat} (hblanks : AreBlanks blanks) (hds : IsNumeral ds n) :
      YearAt (blanks ++ '+' :: (ds ++ rest)) n rest

/-- The nanoseconds that decimals write; those behind the ninth do not count. -/
def nanosOf (ds : List Char) : Nat := Nat.ofDigitChars 10 (ds.take 9) 0 * Nat.pow 10 (9 - (ds.take 9).length)

/-- The decimals of a second, if there are any. -/
inductive DecimalsAt : List Char → Nat → List Char → Prop
  | absent (rest : List Char) : DecimalsAt rest 0 rest
  | present {ds rest : List Char} (hdigits : ∀ c ∈ ds, c.isDigit = true) (hne : ds ≠ []) :
      DecimalsAt ('.' :: (ds ++ rest)) (nanosOf ds) rest

/-- The sign of an offset; the minus sign of Unicode counts too. -/
inductive IsSign : Char → Int → Prop
  | plus : IsSign '+' 1
  | hyphen : IsSign '-' (-1)
  | minus : IsSign (Char.ofNat 0x2212) (-1)

/-- An offset from UTC: the letter Z, the letters UTC, or hours and minutes of two digits each behind a sign, with
colons and blanks between them. -/
inductive OffsetAt : List Char → Int → List Char → Prop
  | zulu {c : Char} (rest : List Char) (hc : c = 'Z' ∨ c = 'z') : OffsetAt (c :: rest) 0 rest
  | utc {a b c : Char} (rest : List Char) (ha : a = 'U' ∨ a = 'u') (hb : b = 'T' ∨ b = 't') (hc : c = 'C' ∨ c = 'c') :
      OffsetAt (a :: b :: c :: rest) 0 rest
  | hours {c : Char} {sign : Int} {hh mm between : List Char} {hours minutes : Nat} (rest : List Char)
      (hsign : IsSign c sign) (hhh : IsNumeral hh hours) (hhours : hh.length = 2)
      (hbetween : ∀ d ∈ between, d = ':' ∨ Text.isBlank d = true)
      (hmm : IsNumeral mm minutes) (hminutes : mm.length = 2) (hlt : minutes < 60) :
      OffsetAt (c :: (hh ++ (between ++ (mm ++ rest)))) (sign * ((hours * 3600 + minutes * 60 : Nat) : Int)) rest

/-- **A text spells the fields of a time.** -/
inductive Spells : List Char → Reading → Prop
  | intro {cs₀ cs₁ cs₂ cs₃ cs₄ cs₅ cs₆ cs₇ cs₈ cs₉ cs₁₀ cs₁₁ blanks rest : List Char} {letter : Char} {f : Reading}
      (year : YearAt cs₀ f.year cs₁) (dash : SeparatorAt '-' cs₁ cs₂) (month : FieldAt cs₂ f.month cs₃)
      (dash' : SeparatorAt '-' cs₃ cs₄) (day : FieldAt cs₄ f.day (letter :: cs₅))
      (hletter : letter = 'T' ∨ letter = 't' ∨ letter = ' ')
      (hour : FieldAt cs₅ f.hour cs₆) (colon : SeparatorAt ':' cs₆ cs₇) (minute : FieldAt cs₇ f.minute cs₈)
      (colon' : SeparatorAt ':' cs₈ cs₉) (second : FieldAt cs₉ f.second cs₁₀)
      (decimals : DecimalsAt cs₁₀ f.nanos (blanks ++ cs₁₁)) (hblanks : AreBlanks blanks)
      (offset : OffsetAt cs₁₁ f.offset rest) (hrest : AreBlanks rest) : Spells cs₀ f

/-! ## Parts that are spelled are read -/

theorem skipBlanks_append {blanks : List Char} (h : AreBlanks blanks) (cs : List Char) :
    skipBlanks (blanks ++ cs) = skipBlanks cs := by
  rw [skipBlanks, List.dropWhile_append_of_pos h, skipBlanks]

theorem skipBlanks_cons (h : Text.isBlank c = false) (cs : List Char) : skipBlanks (c :: cs) = c :: cs := by
  rw [skipBlanks, List.dropWhile_cons_of_neg (by simp [h])]

theorem IsNumeral.exists_cons (h : IsNumeral ds n) : ∃ d ds', ds = d :: ds' ∧ d.isDigit = true := by
  obtain ⟨d, ds', rfl⟩ := List.exists_cons_of_ne_nil h.ne_nil
  exact ⟨d, ds', rfl, h.digits d List.mem_cons_self⟩

theorem IsNumeral.skipBlanks (h : IsNumeral ds n) {blanks : List Char} (hblanks : AreBlanks blanks)
    (rest : List Char) : skipBlanks (blanks ++ (ds ++ rest)) = ds ++ rest := by
  obtain ⟨d, ds', rfl, hd⟩ := h.exists_cons
  rw [skipBlanks_append hblanks, List.cons_append, skipBlanks_cons (not_isBlank_of_isDigit hd)]

theorem FieldAt.read (h : FieldAt cs n rest) (hstop : Stops rest) : field 2 cs = .ok (n, rest) := by
  obtain ⟨hblanks, hds, hlength⟩ := h
  rw [field, hds.skipBlanks hblanks, hds.number hlength hstop]

theorem SeparatorAt.read (h : SeparatorAt c cs rest) (hc : Text.isBlank c = false) : separator c cs = .ok rest := by
  obtain ⟨hblanks⟩ := h
  unfold separator
  rw [skipBlanks_append hblanks, skipBlanks_cons hc]
  exact if_pos rfl

theorem YearAt.read (h : YearAt cs y rest) (hstop : Stops rest) : year cs = .ok (y, rest) := by
  unfold year
  cases h with
  | @plain blanks ds _ n hblanks hds hlength =>
      have hread := hds.number hlength hstop
      obtain ⟨d, ds', rfl, hd⟩ := hds.exists_cons
      rw [hds.skipBlanks hblanks]
      rw [List.cons_append] at hread ⊢
      split
      · next h => exact absurd (List.cons.inj h).1 (ne_of_isDigit hd rfl)
      · next h => exact absurd (List.cons.inj h).1 (ne_of_isDigit hd rfl)
      · rw [hread]
        rfl
  | @minus blanks ds _ n hblanks hds =>
      have hlength : ds.length ≤ (ds ++ rest).length := by rw [List.length_append]; omega
      rw [skipBlanks_append hblanks, skipBlanks_cons (by decide)]
      simp only [hds.number hlength hstop]
      rfl
  | @plus blanks ds _ n hblanks hds =>
      have hlength : ds.length ≤ (ds ++ rest).length := by rw [List.length_append]; omega
      rw [skipBlanks_append hblanks, skipBlanks_cons (by decide)]
      simp only [hds.number hlength hstop]
      rfl

/-- Decimals are read up to what is neither a digit nor a point. -/
theorem DecimalsAt.read (h : DecimalsAt cs n rest) (hstop : Stops rest) (hpoint : ∀ cs, rest ≠ '.' :: cs) :
    decimals cs = .ok (n, rest) := by
  cases h with
  | absent =>
      rw [decimals.eq_def]
      split
      · next cs => exact absurd rfl (hpoint cs)
      · rfl
  | @present ds _ hdigits hne =>
      obtain ⟨d, tail, rfl, hd⟩ := hstop
      have hsplit : ds ++ d :: tail = ds.take 9 ++ (ds.drop 9 ++ d :: tail) := by
        rw [← List.append_assoc, List.take_append_drop]
      have htake : ∀ c ∈ ds.take 9, c.isDigit = true := fun c hc => hdigits c (List.mem_of_mem_take hc)
      have hdrop : ∀ c ∈ ds.drop 9, c.isDigit = true := fun c hc => hdigits c (List.mem_of_mem_drop hc)
      have hnumber : number 9 (ds ++ d :: tail)
          = .ok (Nat.ofDigitChars 10 (ds.take 9) 0, ds.drop 9 ++ d :: tail) := by
        rw [hsplit]
        refine number_of_digits htake (by simpa using hne) ?_
        rw [List.length_take]
        by_cases hlength : 9 ≤ ds.length
        · exact .inl (Nat.min_eq_left hlength)
        · refine .inr ⟨Nat.min_le_left 9 _, d, tail, ?_, hd⟩
          rw [List.drop_eq_nil_of_le (by omega), List.nil_append]
      have hused : (ds ++ d :: tail).length - (ds.drop 9 ++ d :: tail).length = (ds.take 9).length := by
        rw [hsplit, List.length_append, Nat.add_sub_cancel]
      have hleft : (ds.drop 9 ++ d :: tail).dropWhile Char.isDigit = d :: tail := by
        rw [List.dropWhile_append_of_pos hdrop, List.dropWhile_cons_of_neg (by simp [hd])]
      rw [decimals, hnumber]
      simp only [bind, Except.bind, hused, hleft]
      rfl

theorem twoDigits_of (h : IsNumeral ds n) (hlength : ds.length = 2) (rest : List Char) :
    twoDigits (ds ++ rest) = .ok (n, rest) := by
  obtain ⟨hdigits, -, rfl⟩ := h
  match ds, hlength with
  | [a, b], _ =>
      have ha : a.isDigit = true := hdigits a List.mem_cons_self
      have hb : b.isDigit = true := hdigits b (List.mem_cons_of_mem a List.mem_cons_self)
      have hvalue : Nat.ofDigitChars 10 [a, b] 0 = 10 * (a.toNat - '0'.toNat) + (b.toNat - '0'.toNat) := by
        rw [Nat.ofDigitChars_cons, Nat.ofDigitChars_cons, Nat.ofDigitChars_nil]
        omega
      rw [List.cons_append, List.cons_append, List.nil_append, twoDigits, if_pos ⟨ha, hb⟩, hvalue]

theorem OffsetAt.read (h : OffsetAt cs o rest) : offset cs = .ok (o, rest) := by
  cases h with
  | zulu _ hc =>
      rw [offset, if_pos hc]
      rfl
  | @utc a b c _ ha hb hc =>
      obtain rfl | rfl := ha <;> obtain rfl | rfl := hb <;> obtain rfl | rfl := hc <;> rfl
  | @hours c sign hh mm between hours minutes _ hsign hhh hhours hbetween hmm hminutes hlt =>
      have hfirst := twoDigits_of hhh hhours (between ++ (mm ++ rest))
      have hlast := twoDigits_of hmm hminutes rest
      obtain ⟨d, mm', hcons, hd⟩ := hmm.exists_cons
      have hno : d ≠ ':' := ne_of_isDigit hd rfl
      have hskip : (between ++ (mm ++ rest)).dropWhile (fun d => d == ':' || Text.isBlank d) = mm ++ rest := by
        rw [List.dropWhile_append_of_pos (fun d hd => by simpa using hbetween d hd), hcons, List.cons_append,
          List.dropWhile_cons_of_neg (by simp [not_isBlank_of_isDigit hd, hno])]
      have hminutesOk : ¬60 ≤ minutes := by omega
      cases hsign <;>
        simp [offset, hfirst, hskip, hlast, hminutesOk, bind, Except.bind, pure, Except.pure]

/-! ## Parts that are read are spelled -/

theorem exists_blanks (cs : List Char) : ∃ blanks, AreBlanks blanks ∧ cs = blanks ++ skipBlanks cs :=
  ⟨cs.takeWhile Text.isBlank, fun _ hc => List.mem_takeWhile_imp hc, List.takeWhile_append_dropWhile.symm⟩

theorem fieldAt_of_field (h : field 2 cs = .ok (n, rest)) : FieldAt cs n rest := by
  obtain ⟨blanks, hblanks, hcs⟩ := exists_blanks cs
  obtain ⟨ds, hds, hnumeral, hlength, -⟩ := numeral_of_number h
  rw [hcs, hds]
  exact .intro hblanks hnumeral hlength

theorem separatorAt_of_separator (h : separator c cs = .ok rest) : SeparatorAt c cs rest := by
  obtain ⟨blanks, hblanks, hcs⟩ := exists_blanks cs
  unfold separator at h
  split at h
  · cases h
  · next d left hleft =>
      split at h
      · next hd =>
          cases h
          rw [hcs, hleft, hd]
          exact .intro hblanks
      · cases h

theorem yearAt_of_year (h : year cs = .ok (y, rest)) : YearAt cs y rest := by
  obtain ⟨blanks, hblanks, hcs⟩ := exists_blanks cs
  unfold year at h
  split at h
  · next left hleft =>
      obtain ⟨⟨n, rest'⟩, hnumber, h⟩ := except_bind_eq_ok h
      cases h
      obtain ⟨ds, rfl, hnumeral, -⟩ := numeral_of_number hnumber
      rw [hcs, hleft]
      exact .minus hblanks hnumeral
  · next left hleft =>
      obtain ⟨⟨n, rest'⟩, hnumber, h⟩ := except_bind_eq_ok h
      cases h
      obtain ⟨ds, rfl, hnumeral, -⟩ := numeral_of_number hnumber
      rw [hcs, hleft]
      exact .plus hblanks hnumeral
  · obtain ⟨⟨n, rest'⟩, hnumber, h⟩ := except_bind_eq_ok h
    cases h
    obtain ⟨ds, hds, hnumeral, hlength, -⟩ := numeral_of_number hnumber
    rw [hcs, hds]
    exact .plain hblanks hnumeral hlength

theorem decimalsAt_of_decimals (h : decimals cs = .ok (n, rest)) : DecimalsAt cs n rest := by
  rw [decimals.eq_def] at h
  split at h
  · next cs =>
      obtain ⟨⟨value, left⟩, hnumber, h⟩ := except_bind_eq_ok h
      cases h
      obtain ⟨ds, rfl, hnumeral, hmost, hstop⟩ := numeral_of_number hnumber
      -- the digits that are read, and those behind the ninth
      obtain ⟨more, hmore⟩ : ∃ more, more = left.takeWhile Char.isDigit := ⟨_, rfl⟩
      have hleft : left = more ++ left.dropWhile Char.isDigit := by rw [hmore, List.takeWhile_append_dropWhile]
      have htake : (ds ++ more).take 9 = ds := by
        by_cases hlength : ds.length = 9
        · rw [← hlength, List.take_left]
        · have hnone : more = [] := by
            rw [hmore]
            cases hhead : left with
            | nil => rfl
            | cons c left' =>
                have hc : c.isDigit = false := hstop (by omega) c (by rw [hhead]; rfl)
                rw [List.takeWhile_cons_of_neg (by simp [hc])]
          rw [hnone, List.append_nil, List.take_of_length_le hmost]
      have hused : (ds ++ left).length - left.length = ds.length := by rw [List.length_append, Nat.add_sub_cancel]
      have hnanos : value * Nat.pow 10 (9 - ((ds ++ left).length - left.length)) = nanosOf (ds ++ more) := by
        rw [nanosOf, htake, hused, hnumeral.value]
      have hdigits : ∀ c ∈ ds ++ more, c.isDigit = true := fun c hc => by
        rcases List.mem_append.mp hc with hc | hc
        · exact hnumeral.digits c hc
        · rw [hmore] at hc
          exact List.mem_takeWhile_imp hc
      have hne : ds ++ more ≠ [] := List.append_ne_nil_of_left_ne_nil hnumeral.ne_nil more
      have hall : ds ++ left = ds ++ more ++ left.dropWhile Char.isDigit := by rw [List.append_assoc, ← hleft]
      rw [hnanos, hall]
      exact .present hdigits hne
  · cases h
    exact .absent _

theorem numeral_of_twoDigits (h : twoDigits cs = .ok (n, rest)) :
    ∃ ds, cs = ds ++ rest ∧ IsNumeral ds n ∧ ds.length = 2 := by
  unfold twoDigits at h
  split at h
  · next a b left =>
      split at h
      · next hdigits =>
          cases h
          refine ⟨[a, b], rfl, ⟨?_, List.cons_ne_nil a [b], ?_⟩, rfl⟩
          · intro c hc
            rcases List.mem_cons.mp hc with rfl | hc
            · exact hdigits.1
            · rw [List.mem_singleton.mp hc]
              exact hdigits.2
          · rw [Nat.ofDigitChars_cons, Nat.ofDigitChars_cons, Nat.ofDigitChars_nil]
            omega
      · cases h
  · cases h

/-- A letter is the upper or the lower case of what it is in upper case. -/
theorem eq_or_eq_toLower (c : Char) : c = c.toUpper ∨ c = c.toUpper.toLower := by
  have hascii : ∀ n < 128, Char.ofNat n = (Char.ofNat n).toUpper ∨ Char.ofNat n = (Char.ofNat n).toUpper.toLower := by
    decide
  by_cases h : c.toNat < 128
  · have hc := hascii c.toNat h
    rwa [Char.ofNat_toNat] at hc
  · -- no other character has another case
    refine Or.inl (Eq.symm (dif_neg fun hlower => ?_))
    have hle : c.toNat ≤ 122 := by
      simpa [UInt32.le_iff_toNat_le] using hlower.2
    omega

theorem eq_of_toUpper {d : Char} (h : c.toUpper = d) : c = d ∨ c = d.toLower :=
  h ▸ eq_or_eq_toLower c

theorem offsetAt_of_offset (h : offset cs = .ok (o, rest)) : OffsetAt cs o rest := by
  -- behind the sign, hours and minutes are read
  have hfields {c : Char} {sign : Int} {left : List Char} (hsign : IsSign c sign)
      (h : (twoDigits left >>= fun hours =>
        twoDigits (hours.2.dropWhile fun d => d == ':' || Text.isBlank d) >>= fun minutes =>
          if 60 ≤ minutes.1 then throw Fault.outOfRange >>= fun _ : PUnit => pure (0, rest)
          else pure (sign * ((hours.1 * 3600 + minutes.1 * 60 : Nat) : Int), minutes.2))
        = Except.ok (o, rest)) : OffsetAt (c :: left) o rest := by
    obtain ⟨⟨hours, after⟩, hhours, hmore⟩ := except_bind_eq_ok h
    obtain ⟨⟨minutes, after'⟩, hminutes, hsum⟩ := except_bind_eq_ok hmore
    obtain ⟨hh, hleft, hhh, hhlength⟩ := numeral_of_twoDigits hhours
    obtain ⟨mm, hmm, hmm', hmlength⟩ := numeral_of_twoDigits hminutes
    dsimp only at hmm hsum
    split at hsum
    · cases hsum
    · next hlt =>
        cases hsum
        have hafter : after = after.takeWhile (fun d => d == ':' || Text.isBlank d) ++ (mm ++ rest) := by
          rw [← hmm, List.takeWhile_append_dropWhile]
        rw [hleft, hafter]
        refine .hours rest hsign hhh hhlength (fun d hd => ?_) hmm' hmlength (by omega)
        simpa using List.mem_takeWhile_imp hd
  unfold offset at h
  split at h
  · cases h
  · next c left =>
      split at h
      · next hc =>
          cases h
          exact .zulu rest hc
      · split at h
        · next hutc =>
            cases h
            match left with
            | [] | [b] => simp at hutc
            | a :: b :: left =>
                obtain ⟨hc, ha, hb⟩ : c.toUpper = 'U' ∧ a.toUpper = 'T' ∧ b.toUpper = 'C' := by simpa using hutc
                exact .utc left (eq_of_toUpper hc) (eq_of_toUpper ha) (eq_of_toUpper hb)
        · dsimp only at h
          split at h
          · next hc =>
              subst hc
              exact hfields .plus h
          · split at h
            · next hc =>
                rcases hc with rfl | rfl
                · exact hfields .hyphen h
                · exact hfields .minus h
            · cases h

/-! ## Times that are read -/

variable {s : String} {t : Timestamp} {f : Reading}

theorem stops_blanks {blanks : List Char} (h : AreBlanks blanks) (hstop : Stops cs) : Stops (blanks ++ cs) := by
  cases blanks with
  | nil => exact hstop
  | cons c blanks =>
      refine ⟨c, blanks ++ cs, rfl, ?_⟩
      have hblank := h c List.mem_cons_self
      cases hdigit : c.isDigit with
      | false => rfl
      | true =>
          rw [not_isBlank_of_isDigit hdigit] at hblank
          cases hblank

theorem SeparatorAt.stops (h : SeparatorAt c cs rest) (hc : c.isDigit = false) : Stops cs := by
  obtain ⟨hblanks⟩ := h
  exact stops_blanks hblanks ⟨c, rest, rfl, hc⟩

theorem DecimalsAt.stops (h : DecimalsAt cs n rest) (hstop : Stops rest) : Stops cs := by
  cases h with
  | absent => exact hstop
  | present => exact ⟨'.', _, rfl, by decide⟩

/-- An offset begins with a letter or a sign. -/
theorem OffsetAt.first (h : OffsetAt cs o rest) :
    ∃ c left, cs = c :: left ∧ c.isDigit = false ∧ c ≠ '.' ∧ Text.isBlank c = false := by
  cases h with
  | zulu _ hc => obtain rfl | rfl := hc <;> exact ⟨_, _, rfl, by decide, by decide, by decide⟩
  | utc _ ha _ _ => obtain rfl | rfl := ha <;> exact ⟨_, _, rfl, by decide, by decide, by decide⟩
  | hours _ hsign _ _ _ _ _ _ => cases hsign <;> exact ⟨_, _, rfl, by decide, by decide, by decide⟩

/-- **Fields that are read are spelled.** -/
theorem Reads.spells (h : Reads cs f) : Spells cs f := by
  cases h with
  | @intro _ _ _ _ _ _ _ _ _ _ cs₁₁ rest _ _ hyear hdash hmonth hdash' hday hletter hhour hcolon hminute hcolon'
      hsecond hdecimals hoffset hrest =>
      obtain ⟨blanks, hblanks, hcs⟩ := exists_blanks cs₁₁
      obtain ⟨left, hleft, hend⟩ := exists_blanks rest
      rw [hrest, List.append_nil] at hend
      rw [hcs] at hdecimals
      exact .intro (yearAt_of_year hyear) (separatorAt_of_separator hdash) (fieldAt_of_field hmonth)
        (separatorAt_of_separator hdash') (fieldAt_of_field hday) hletter (fieldAt_of_field hhour)
        (separatorAt_of_separator hcolon) (fieldAt_of_field hminute) (separatorAt_of_separator hcolon')
        (fieldAt_of_field hsecond) (decimalsAt_of_decimals hdecimals) hblanks (offsetAt_of_offset hoffset)
        (hend ▸ hleft)

/-- **Fields that are spelled are read.** -/
theorem Spells.reads (h : Spells cs f) : Reads cs f := by
  cases h with
  | @intro cs₁ cs₂ cs₃ cs₄ cs₅ cs₆ cs₇ cs₈ cs₉ cs₁₀ cs₁₁ blanks rest letter _ hyear hdash hmonth hdash' hday hletter
      hhour hcolon hminute hcolon' hsecond hdecimals hblanks hoffset hrest =>
      -- no number is followed by a digit, and no decimals by a point
      obtain ⟨c, left, hfirst, hdigit, hpoint, hblank⟩ := hoffset.first
      have hstops : Stops (blanks ++ cs₁₁) := stops_blanks hblanks ⟨c, left, hfirst, hdigit⟩
      have hnopoint : ∀ tail, blanks ++ cs₁₁ ≠ '.' :: tail := by
        intro tail h
        cases blanks with
        | nil => exact hpoint (List.cons.inj (hfirst.symm.trans h)).1
        | cons b blanks =>
            have hb := hblanks b List.mem_cons_self
            rw [(List.cons.inj h).1] at hb
            cases hb
      have hmiddle : Stops (letter :: cs₅) := by
        refine ⟨letter, cs₅, rfl, ?_⟩
        obtain rfl | rfl | rfl := hletter <;> decide
      have hskip : skipBlanks (blanks ++ cs₁₁) = cs₁₁ := by
        rw [skipBlanks_append hblanks, hfirst, skipBlanks_cons hblank]
      have hend : skipBlanks rest = [] := by
        rw [← List.append_nil rest, skipBlanks_append hrest]
        rfl
      exact .intro (hyear.read (hdash.stops (by decide))) (hdash.read (by decide))
        (hmonth.read (hdash'.stops (by decide))) (hdash'.read (by decide)) (hday.read hmiddle) hletter
        (hhour.read (hcolon.stops (by decide))) (hcolon.read (by decide)) (hminute.read (hcolon'.stops (by decide)))
        (hcolon'.read (by decide)) (hsecond.read (hdecimals.stops hstops)) (hdecimals.read hstops hnopoint)
        (hskip.symm ▸ hoffset.read) hend

/-- **A text is read as a time** just if it spells the fields of this time, which is on the calendar and counted. -/
theorem parse_eq_ok_iff : parse s = .ok t ↔ ∃ f, Spells s.toList f ∧ f.OnCalendar ∧ f.Counted ∧ f.time = t := by
  constructor
  · intro h
    obtain ⟨f, hreads, hvalid⟩ := reads_of_parse h
    exact ⟨f, hreads.spells, hvalid⟩
  · rintro ⟨f, hspells, hcalendar, hcounted, rfl⟩
    exact hspells.reads.parse hcalendar hcounted

/-- The text of a time: it spells the fields of one that is on the calendar and counted. -/
def IsTime (s : String) : Prop := ∃ f, Spells s.toList f ∧ f.OnCalendar ∧ f.Counted

theorem exists_parse_iff : (∃ t, parse s = .ok t) ↔ IsTime s := by
  simp only [parse_eq_ok_iff]
  constructor
  · rintro ⟨t, f, hspells, hcalendar, hcounted, -⟩
    exact ⟨f, hspells, hcalendar, hcounted⟩
  · rintro ⟨f, hspells, hcalendar, hcounted⟩
    exact ⟨f.time, f, hspells, hcalendar, hcounted, rfl⟩

/-! ## Date-times of RFC 3339 -/

/-- Digits of a number, so many of them. -/
structure IsPadded (width : Nat) (ds : List Char) (n : Nat) : Prop extends IsNumeral ds n where
  length : ds.length = width

/-- The decimals of a second, if there are any, at the end of a local time. -/
inductive IsFraction : List Char → Nat → Prop
  | absent : IsFraction [] 0
  | present {ds : List Char} (hdigits : ∀ c ∈ ds, c.isDigit = true) (hne : ds ≠ []) :
      IsFraction ('.' :: ds) (nanosOf ds)

/-- The offset at the end of a date-time: the letter Z, or a sign, two digits, a colon and two digits. -/
inductive IsZone : List Char → Int → Prop
  | zulu {c : Char} (hc : c = 'Z' ∨ c = 'z') : IsZone [c] 0
  | ahead {hh mm : List Char} {hours minutes : Nat} (hhh : IsPadded 2 hh hours) (hhours : hours ≤ 23)
      (hmm : IsPadded 2 mm minutes) (hminutes : minutes ≤ 59) :
      IsZone ('+' :: (hh ++ ':' :: mm)) ((hours * 3600 + minutes * 60 : Nat) : Int)
  | behind {hh mm : List Char} {hours minutes : Nat} (hhh : IsPadded 2 hh hours) (hhours : hours ≤ 23)
      (hmm : IsPadded 2 mm minutes) (hminutes : minutes ≤ 59) :
      IsZone ('-' :: (hh ++ ':' :: mm)) (-((hours * 3600 + minutes * 60 : Nat) : Int))

/-- **A date-time as RFC 3339 has it**, with four digits for the year and two for every other field. -/
inductive IsDateTime : List Char → Reading → Prop
  | intro {yyyy mm dd hh mi ss decimals zone : List Char} {letter : Char}
      {year month day hour minute second nanos : Nat} {offset : Int} (hyear : IsPadded 4 yyyy year)
      (hmonth : IsPadded 2 mm month) (hday : IsPadded 2 dd day) (hletter : letter = 'T' ∨ letter = 't')
      (hhour : IsPadded 2 hh hour) (hminute : IsPadded 2 mi minute) (hsecond : IsPadded 2 ss second)
      (hfraction : IsFraction decimals nanos) (hzone : IsZone zone offset) :
      IsDateTime
        (yyyy ++ '-' :: (mm ++ '-' :: (dd ++ letter :: (hh ++ ':' :: (mi ++ ':' :: (ss ++ (decimals ++ zone)))))))
        ⟨year, month, day, hour, minute, second, nanos, offset⟩

/-- The text of a date-time of RFC 3339 that is on the calendar. -/
def IsInternetTime (s : String) : Prop := ∃ f, IsDateTime s.toList f ∧ f.OnCalendar

theorem areBlanks_nil : AreBlanks [] := fun c hc => by cases hc

theorem IsPadded.fieldAt (h : IsPadded 2 ds n) (rest : List Char) : FieldAt (ds ++ rest) n rest :=
  .intro areBlanks_nil h.toIsNumeral h.length.le

theorem separatorAt_cons (c : Char) (rest : List Char) : SeparatorAt c (c :: rest) rest :=
  .intro areBlanks_nil

theorem IsFraction.decimalsAt (h : IsFraction cs n) (rest : List Char) : DecimalsAt (cs ++ rest) n rest := by
  cases h with
  | absent => exact .absent rest
  | present hdigits hne => exact .present hdigits hne

theorem IsZone.offsetAt (h : IsZone cs o) : OffsetAt cs o [] := by
  have hhours {c : Char} {sign : Int} {hh mm : List Char} {hours minutes : Nat} (hsign : IsSign c sign)
      (hhh : IsPadded 2 hh hours) (hmm : IsPadded 2 mm minutes) (hminutes : minutes ≤ 59) :
      OffsetAt (c :: (hh ++ ':' :: mm)) (sign * ((hours * 3600 + minutes * 60 : Nat) : Int)) [] := by
    have hcolon : ∀ d ∈ [':'], d = ':' ∨ Text.isBlank d = true := fun d hd => .inl (List.mem_singleton.mp hd)
    -- the grammar takes any colons and blanks in between, here it is one colon
    have hat := OffsetAt.hours [] hsign hhh.toIsNumeral hhh.length hcolon hmm.toIsNumeral hmm.length (by omega)
    rwa [List.append_nil] at hat
  cases h with
  | zulu hc => exact .zulu [] hc
  | ahead hhh _ hmm hminutes =>
      have hat := hhours .plus hhh hmm hminutes
      rwa [Int.one_mul] at hat
  | behind hhh _ hmm hminutes =>
      have hat := hhours .hyphen hhh hmm hminutes
      rwa [Int.neg_one_mul] at hat

/-- A date-time of RFC 3339 spells its fields. -/
theorem IsDateTime.spells (h : IsDateTime cs f) : Spells cs f := by
  obtain ⟨hyear, hmonth, hday, hletter, hhour, hminute, hsecond, hfraction, hzone⟩ := h
  exact .intro (.plain areBlanks_nil hyear.toIsNumeral hyear.length.le) (separatorAt_cons '-' _) (hmonth.fieldAt _)
    (separatorAt_cons '-' _) (hday.fieldAt _) (hletter.imp_right .inl) (hhour.fieldAt _) (separatorAt_cons ':' _)
    (hminute.fieldAt _) (separatorAt_cons ':' _) (hsecond.fieldAt _) (hfraction.decimalsAt _) areBlanks_nil
    hzone.offsetAt areBlanks_nil

/-- The days of the years that have four digits are counted. -/
theorem daysFromDate_bounds {year : Int} {month day : Nat} (hyear : 0 ≤ year ∧ year ≤ 9999)
    (hmonth : 1 ≤ month ∧ month ≤ 12) (hday : 1 ≤ day ∧ day ≤ 31) :
    -800000 ≤ daysFromDate year month day ∧ daysFromDate year month day ≤ 3000000 := by
  simp only [daysFromDate]
  constructor <;> split <;> split <;> omega

theorem IsZone.natAbs_lt (h : IsZone cs o) : o.natAbs < 86400 := by
  cases h <;> omega

theorem IsDateTime.year_bounds (h : IsDateTime cs f) : 0 ≤ f.year ∧ f.year ≤ 9999 := by
  obtain ⟨hyear, -⟩ := h
  have hlt := ofDigitChars_lt hyear.digits
  rw [hyear.value, hyear.length] at hlt
  exact ⟨Int.natCast_nonneg _, by dsimp only; omega⟩

theorem IsDateTime.offset_lt (h : IsDateTime cs f) : f.offset.natAbs < 86400 := by
  obtain ⟨-, -, -, -, -, -, -, -, hzone⟩ := h
  exact hzone.natAbs_lt

/-- A date-time of RFC 3339 that is on the calendar is counted. -/
theorem IsDateTime.counted (h : IsDateTime cs f) (hcalendar : f.OnCalendar) : f.Counted := by
  obtain ⟨hmonth, hday, hhour, hminute, -⟩ := hcalendar
  have hyear := h.year_bounds
  have hoffset := h.offset_lt
  have hdays := daysFromDate_bounds hyear hmonth ⟨hday.1, hday.2.trans (daysInMonth_le _ _)⟩
  have hbounds : firstDay = -96465292 ∧ lastDay = 95026236 := by decide
  refine ⟨by omega, hoffset, ?_⟩
  rw [Reading.seconds, hbounds.1, hbounds.2]
  omega

/-- **Every date-time of RFC 3339 is read as a time.** -/
theorem IsInternetTime.isTime (h : IsInternetTime s) : IsTime s := by
  obtain ⟨f, hwritten, hcalendar⟩ := h
  exact ⟨f, hwritten.spells, hcalendar, hwritten.counted hcalendar⟩

/-- A date-time of RFC 3339 has twenty characters or more. -/
theorem IsDateTime.length_le (h : IsDateTime cs f) : 20 ≤ cs.length := by
  obtain ⟨hyear, hmonth, hday, -, hhour, hminute, hsecond, -, hzone⟩ := h
  have hone : ∀ {zone : List Char} {offset : Int}, IsZone zone offset → 1 ≤ zone.length := fun h => by
    cases h <;> simp
  have hlast := hone hzone
  simp only [List.length_append, List.length_cons, hyear.length, hmonth.length, hday.length, hhour.length,
    hminute.length, hsecond.length]
  omega

end ResourceTree.Timestamp
