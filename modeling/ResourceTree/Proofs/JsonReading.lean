import ResourceTree.Json.Printer
import ResourceTree.Json.Reader
import Mathlib.Data.List.Basic

/-! # Reading what was printed

The reader of JSON texts goes through the compact text of a value and finds the value in it as it is written:
`written?_text`. Strings come back unchanged, whatever characters they have (`run_quoted`). A number comes back as
whatever its own text is read as, so nothing is assumed of the texts of numbers but their characters. -/

namespace ResourceTree.Json

/-! ## Numbers -/

namespace Reader

/-- The digits of a natural number can stand in a word. -/
theorem isBare_digitsOf {n : Nat} {c : Char} (h : c ∈ Binary64.digitsOf n) : isBare c = true := by
  have hdigit : c.isDigit = true := by
    rw [Binary64.digitsOf, Nat.repr_eq_ofList_toDigits, String.toList_ofList] at h
    exact Nat.isDigit_of_mem_toDigits (by decide) (by decide) h
  simp [isBare, Char.isAlphanum, hdigit]

theorem digitsOf_ne_nil (n : Nat) : Binary64.digitsOf n ≠ [] := by
  rw [Binary64.digitsOf, Nat.repr_eq_ofList_toDigits, String.toList_ofList]
  exact Nat.toDigits_ne_nil

theorem isBare_exponentText {e : Int} {c : Char} (h : c ∈ Binary64.exponentText e) : isBare c = true := by
  rw [Binary64.exponentText] at h
  split at h
  · rcases List.mem_cons.mp h with rfl | h
    · rfl
    · exact isBare_digitsOf h
  · exact isBare_digitsOf h

/-- The text of a magnitude is a word. -/
theorem isBare_magnitudeText {x : Binary64.Decimal} {c : Char} (h : c ∈ Binary64.magnitudeText x) :
    isBare c = true := by
  have hzero : isBare '0' = true := rfl
  have hpoint : isBare '.' = true := rfl
  have hexponent : isBare 'e' = true := rfl
  have hdigit {c : Char} (h : c ∈ Binary64.digitsOf x.digits) : isBare c = true := isBare_digitsOf h
  simp only [Binary64.magnitudeText] at h
  split at h
  · simp only [List.mem_append, List.mem_replicate, List.mem_cons, List.not_mem_nil, or_false] at h
    rcases h with (h | ⟨-, rfl⟩) | rfl | rfl
    · exact hdigit h
    all_goals assumption
  · split at h
    · simp only [List.mem_append, List.mem_cons] at h
      rcases h with h | rfl | h
      · exact hdigit (List.mem_of_mem_take h)
      · exact hpoint
      · exact hdigit (List.mem_of_mem_drop h)
    · split at h
      · simp only [List.mem_cons, List.mem_append, List.mem_replicate] at h
        rcases h with (rfl | rfl | ⟨-, rfl⟩) | h
        · exact hzero
        · exact hpoint
        · exact hzero
        · exact hdigit h
      · split at h
        · cases h
        · next heq =>
            simp only [List.mem_cons] at h
            rcases h with rfl | rfl | h
            · exact hdigit (by rw [heq]; exact List.mem_singleton.mpr rfl)
            · exact hexponent
            · exact isBare_exponentText h
        · next heq =>
            simp only [List.cons_append, List.mem_cons, List.mem_append] at h
            rcases h with rfl | rfl | h | rfl | h
            · exact hdigit (by rw [heq]; exact List.mem_cons_self)
            · exact hpoint
            · exact hdigit (by rw [heq]; exact List.mem_cons_of_mem _ h)
            · exact hexponent
            · exact isBare_exponentText h

theorem magnitudeText_ne_nil (x : Binary64.Decimal) : Binary64.magnitudeText x ≠ [] := by
  have hdigits := digitsOf_ne_nil x.digits
  simp only [Binary64.magnitudeText]
  split
  · simp
  · split
    · simp
    · split
      · simp
      · split
        · next heq => exact absurd heq hdigits
        · simp
        · simp

/-- **The text of a number is a word.** -/
theorem isBare_text {n : Number} {c : Char} (h : c ∈ n.text) : isBare c = true := by
  have hsign : isBare '-' = true := rfl
  cases n with
  | whole n =>
      rw [Number.text] at h
      split at h
      · rcases List.mem_cons.mp h with rfl | h
        · exact hsign
        · exact isBare_digitsOf h
      · exact isBare_digitsOf h
  | double d =>
      have hmagnitude (h : c ∈ if d.isZero then ['0', '.', '0'] else Binary64.magnitudeText d.shortest) :
          isBare c = true := by
        split at h
        · simp only [List.mem_cons, List.not_mem_nil, or_false] at h
          rcases h with rfl | rfl | rfl <;> rfl
        · exact isBare_magnitudeText h
      rw [Number.text, Binary64.text] at h
      split at h
      · rcases List.mem_cons.mp h with rfl | h
        · exact hsign
        · exact hmagnitude h
      · exact hmagnitude h

theorem text_ne_nil (n : Number) : n.text ≠ [] := by
  cases n with
  | whole n =>
      rw [Number.text]
      split
      · simp
      · exact digitsOf_ne_nil _
  | double d =>
      rw [Number.text, Binary64.text]
      split
      · simp
      · split
        · simp
        · exact magnitudeText_ne_nil _

/-! ## Words -/

variable {fs : List Frame} {orEnd : Bool} {rest : List Char}

theorem run_cons (r : Reader) (c : Char) (cs : List Char) : r.run (c :: cs) = r.step c >>= fun r => r.run cs := by
  rw [run]
  cases r.step c <;> rfl

/-- A word is read to its end. -/
theorem run_bare {word : List Char} (h : ∀ c ∈ word, isBare c = true) (read : List Char) :
    run ⟨fs, .bare read⟩ (word ++ rest) = run ⟨fs, .bare (word.reverse ++ read)⟩ rest := by
  induction word generalizing read with
  | nil => rfl
  | cons c word ih =>
      have hstep : step ⟨fs, .bare read⟩ c = some ⟨fs, .bare (c :: read)⟩ := by
        simp [step, h c List.mem_cons_self]
      rw [List.cons_append, run_cons, hstep, Option.bind_eq_bind, Option.bind_some,
        ih fun c hc => h c (List.mem_cons_of_mem _ hc), List.reverse_cons, List.append_assoc]
      rfl

/-- A word is read from its beginning. -/
theorem run_word {word : List Char} (h : ∀ c ∈ word, isBare c = true) (hne : word ≠ []) :
    run ⟨fs, .value orEnd⟩ (word ++ rest) = run ⟨fs, .bare word.reverse⟩ rest := by
  cases word with
  | nil => exact absurd rfl hne
  | cons c word =>
      have hc := h c List.mem_cons_self
      have hne {d : Char} (hd : isBare d = false) : c ≠ d := by
        rintro rfl
        rw [hc] at hd
        cases hd
      have hspace : isSpace c = false := by
        simp only [isSpace, beq_eq_false_iff_ne.mpr (hne (d := ' ') rfl), beq_eq_false_iff_ne.mpr (hne (d := '\t') rfl),
          beq_eq_false_iff_ne.mpr (hne (d := '\n') rfl), beq_eq_false_iff_ne.mpr (hne (d := '\r') rfl), Bool.or_self]
      have hstep : step ⟨fs, .value orEnd⟩ c = some ⟨fs, .bare [c]⟩ := by
        simp [step, beginValue, hspace, hne (d := '"') rfl, hne (d := '[') rfl, hne (d := '{') rfl,
          hne (d := ']') rfl, hc]
      rw [List.cons_append, run_cons, hstep, Option.bind_eq_bind, Option.bind_some,
        run_bare fun c hc => h c (List.mem_cons_of_mem _ hc), List.reverse_cons]

/-- A reader that has just completed a value. -/
theorem step_of_complete {w : Written} {r : Reader} (h : complete fs w = some r) (c : Char) :
    r.step c = r.afterValue c := by
  cases fs with
  | nil =>
      cases h
      rfl
  | cons f fs =>
      cases f with
      | arr items => cases h; rfl
      | obj members => cases h
      | member members key => cases h; rfl

/-- The end of a word completes a value. -/
theorem run_bare_end {d : Char} (hd : isBare d = false) (word : List Char) :
    run ⟨fs, .bare word.reverse⟩ (d :: rest) = (do
      let w ← bareValue? word
      let r ← complete fs w
      r.run (d :: rest)) := by
  have hstep : step ⟨fs, .bare word.reverse⟩ d
      = bareValue? word >>= fun w => complete fs w >>= fun r => r.afterValue d := by
    simp [step, hd]
  rw [run_cons, hstep]
  cases bareValue? word with
  | none => rfl
  | some w =>
      cases hr : complete fs w with
      | none => simp [hr]
      | some r => simp [hr, run_cons, step_of_complete hr]

/-! ## Strings -/

/-- The hexadecimal digits are read as what they were written for. -/
theorem hexValue?_hexDigit : ∀ n < 16, Number.hexValue? (hexDigit n) = some n := by decide

variable {isKey : Bool} {read : List Char}

/-- A literal in which every character so far stands for itself. -/
def plain (fs : List Frame) (isKey : Bool) (read : List Char) : Reader :=
  ⟨fs, .literal ⟨read, none, true, .none⟩ isKey⟩

/-- The short escape of a character is read as the character. -/
theorem run_short {c e : Char} (he : shortEscape? e = some c) (hu : e ≠ 'u') :
    run (plain fs isKey read) ('\\' :: e :: rest) = run (plain fs isKey (c :: read)) rest := by
  have hstart : step (plain fs isKey read) '\\' = some ⟨fs, .literal ⟨read, none, true, .started⟩ isKey⟩ := rfl
  have hshort : step ⟨fs, .literal ⟨read, none, true, .started⟩ isKey⟩ e = some (plain fs isKey (c :: read)) := by
    simp [step, continueLiteral, hu, he, Literal.push, plain]
  rw [run_cons, hstart, Option.bind_eq_bind, Option.bind_some, run_cons, hshort]
  rfl

/-- The long escape of a control character is read as the character. -/
theorem run_control {c : Char} (hc : c.toNat < 32) :
    run (plain fs isKey read)
      ('\\' :: 'u' :: '0' :: '0' :: hexDigit (c.toNat / 16) :: hexDigit (c.toNat % 16) :: rest)
      = run (plain fs isKey (c :: read)) rest := by
  have hhigh := hexValue?_hexDigit (c.toNat / 16) (by omega)
  have hlow := hexValue?_hexDigit (c.toNat % 16) (by omega)
  have hvalue : 16 * (c.toNat / 16) + c.toNat % 16 = c.toNat := Nat.div_add_mod _ _
  have hunit : Literal.pushUnit ⟨read, none, true, .hex (c.toNat / 16) 1⟩ c.toNat
      = ⟨c :: read, none, true, .none⟩ := by
    have hleading : ¬(0xD800 ≤ c.toNat) := by omega
    have htrailing : ¬(0xDC00 ≤ c.toNat) := by omega
    simp [Literal.pushUnit, hleading, htrailing, Char.ofNat_toNat]
  have hstep {d : Char} {n missing : Nat} (h : Number.hexValue? d = some n) (hm : 1 < missing) (value : Nat) :
      step ⟨fs, .literal ⟨read, none, true, .hex value missing⟩ isKey⟩ d
        = some ⟨fs, .literal ⟨read, none, true, .hex (16 * value + n) (missing - 1)⟩ isKey⟩ := by
    have hmore : ¬missing ≤ 1 := by omega
    simp [step, continueLiteral, h, hmore]
  have hlast : step ⟨fs, .literal ⟨read, none, true, .hex (c.toNat / 16) 1⟩ isKey⟩ (hexDigit (c.toNat % 16))
      = some (plain fs isKey (c :: read)) := by
    simp [step, continueLiteral, hlow, hvalue, hunit, plain]
  have hstart : step (plain fs isKey read) '\\' = some ⟨fs, .literal ⟨read, none, true, .started⟩ isKey⟩ := rfl
  have hlong : step ⟨fs, .literal ⟨read, none, true, .started⟩ isKey⟩ 'u'
      = some ⟨fs, .literal ⟨read, none, true, .hex 0 4⟩ isKey⟩ := rfl
  have hzero : Number.hexValue? '0' = some 0 := rfl
  simp only [run_cons, hstart, hlong, hstep hzero, hstep hhigh, hlast, Option.bind_eq_bind, Option.bind_some,
    Nat.mul_zero, Nat.zero_add, Nat.reduceSub, Nat.reduceLT]

/-- The escape of a character is read as the character. -/
theorem run_escape (c : Char) :
    run (plain fs isKey read) (escape c ++ rest) = run (plain fs isKey (c :: read)) rest := by
  have hnat {n : Nat} (h : c.toNat = n) : c = Char.ofNat n := by rw [← h, Char.ofNat_toNat]
  rw [escape]
  split
  · next h => exact run_short (by rw [h]; rfl) (by decide)
  · split
    · next h => exact run_short (by rw [h]; rfl) (by decide)
    · split
      · next h => exact run_short (by rw [hnat h]; rfl) (by decide)
      · split
        · next h => exact run_short (by rw [hnat h]; rfl) (by decide)
        · split
          · next h => exact run_short (by rw [h]; rfl) (by decide)
          · split
            · next h => exact run_short (by rw [h]; rfl) (by decide)
            · split
              · next h => exact run_short (by rw [h]; rfl) (by decide)
              · split
                · next h => exact run_control h
                · next hquote hslash _ _ _ _ _ hcontrol =>
                    have hstep : step (plain fs isKey read) c = some (plain fs isKey (c :: read)) := by
                      simp [step, plain, continueLiteral, hquote, hslash, hcontrol, Literal.push]
                    rw [List.singleton_append, run_cons, hstep]
                    rfl

theorem run_escapes (cs : List Char) :
    run (plain fs isKey read) (cs.flatMap escape ++ rest) = run (plain fs isKey (cs.reverse ++ read)) rest := by
  induction cs generalizing read with
  | nil => rfl
  | cons c cs ih => rw [List.flatMap_cons, List.append_assoc, run_escape, ih]; simp

/-- The quotes around a string and its escapes are taken off again. -/
theorem run_literal (s : String) :
    run (plain fs isKey []) (s.toList.flatMap escape ++ '"' :: rest)
      = (if isKey then some ⟨fs, .colon (some s)⟩ else complete fs (.str (some s))) >>= fun r => r.run rest := by
  have hfinish : Literal.finish ⟨s.toList.reverse, none, true, .none⟩ = some s := by
    simp [Literal.finish]
  rw [run_escapes, run_cons, List.append_nil]
  simp [plain, step, continueLiteral, hfinish]

end Reader

/-! ## Values -/

open Reader

mutual

/-- A value as it is written in its own text, if its numbers are. -/
def reread : Json → Option Written
  | .null => some .null
  | .bool b => some (.bool b)
  | .num n => bareValue? n.text
  | .str s => some (.str (some s))
  | .arr items => (rereadItems items).map .arr
  | .obj members => (rereadMembers members).map .obj

/-- The items of an array as they are written. -/
def rereadItems : List Json → Option (List Written)
  | [] => some []
  | item :: items => do
    let w ← reread item
    let ws ← rereadItems items
    return w :: ws

/-- The members of an object as they are written. -/
def rereadMembers : List (String × Json) → Option (List (Option String × Written))
  | [] => some []
  | (key, value) :: members => do
    let w ← reread value
    let ws ← rereadMembers members
    return (some key, w) :: ws

end

/-- Whether the text of a value is a word or a number, which only the next character ends. -/
def isWord : Json → Bool
  | .null | .bool _ | .num _ => true
  | .str _ | .arr _ | .obj _ => false

/-- The text of a word or number. -/
theorem chars_of_isWord {v : Json} (h : v.isWord = true) :
    (∀ c ∈ v.chars, isBare c = true) ∧ v.chars ≠ [] ∧ bareValue? v.chars = v.reread := by
  cases v with
  | null => exact ⟨List.all_eq_true.mp (by decide), by decide, rfl⟩
  | bool b => cases b <;> exact ⟨List.all_eq_true.mp (by decide), by decide, rfl⟩
  | num n => exact ⟨fun c hc => isBare_text hc, text_ne_nil n, rfl⟩
  | str _ | arr _ | obj _ => cases h

/-- A text goes on with a character that ends a word. -/
def EndsWord (rest : List Char) : Prop := ∃ d cs, rest = d :: cs ∧ isBare d = false

theorem endsWord_itemChars (items : List Json) (rest : List Char) : EndsWord (itemChars items ++ rest) := by
  cases items with
  | nil => exact ⟨_, _, rfl, rfl⟩
  | cons item items => exact ⟨_, _, rfl, rfl⟩

theorem endsWord_memberChars (members : List (String × Json)) (rest : List Char) :
    EndsWord (memberChars members ++ rest) := by
  cases members with
  | nil => exact ⟨_, _, rfl, rfl⟩
  | cons member members => exact ⟨_, _, rfl, rfl⟩

theorem complete_arr (items : List Written) (fs : List Frame) (w : Written) :
    complete (.arr items :: fs) w = some ⟨.arr (w :: items) :: fs, .comma⟩ := rfl

theorem complete_member (members : List (Option String × Written)) (key : Option String) (fs : List Frame)
    (w : Written) :
    complete (.member members key :: fs) w = some ⟨.obj ((key, w) :: members) :: fs, .comma⟩ := rfl

/-- Where a key may begin, a key and its colon are read. -/
theorem run_key (key : String) (members : List (Option String × Written)) (fs : List Frame) (orEnd : Bool)
    (rest : List Char) :
    run ⟨.obj members :: fs, .key orEnd⟩ (quoted key ++ ':' :: rest)
      = run ⟨.member members (some key) :: fs, .value false⟩ rest := by
  have hopen : step ⟨.obj members :: fs, .key orEnd⟩ '"' = some (plain (.obj members :: fs) true []) := rfl
  have hcolon : step ⟨.obj members :: fs, .colon (some key)⟩ ':'
      = some ⟨.member members (some key) :: fs, .value false⟩ := rfl
  simp [quoted, run_cons, hopen, run_literal, hcolon]

mutual

/-- Where a value may begin, its text is read as the value. -/
theorem run_value (v : Json) (fs : List Frame) (orEnd : Bool) {rest : List Char}
    (h : v.isWord = true → EndsWord rest) :
    run ⟨fs, .value orEnd⟩ (v.chars ++ rest)
      = v.reread >>= fun w => complete fs w >>= fun r => r.run rest := by
  cases hword : v.isWord with
  | true =>
      obtain ⟨hbare, hne, hvalue⟩ := chars_of_isWord hword
      obtain ⟨d, cs, rfl, hd⟩ := h hword
      rw [run_word hbare hne, run_bare_end hd, hvalue]
  | false =>
      match v with
      | .str s =>
          have hopen : step ⟨fs, .value orEnd⟩ '"' = some (plain fs false []) := rfl
          simp [chars, quoted, run_cons, hopen, run_literal, reread]
      | .arr [] =>
          have hopen : step ⟨fs, .value orEnd⟩ '[' = some ⟨.arr [] :: fs, .value true⟩ := rfl
          have hclose : step ⟨.arr [] :: fs, .value true⟩ ']' = complete fs (.arr []) := rfl
          simp [chars, run_cons, hopen, hclose, reread, rereadItems]
      | .arr (item :: items) =>
          have hopen : step ⟨fs, .value orEnd⟩ '[' = some ⟨.arr [] :: fs, .value true⟩ := rfl
          rw [chars, List.cons_append, List.cons_append, run_cons, hopen, Option.bind_eq_bind, Option.bind_some,
            List.append_assoc, run_value item _ _ fun _ => endsWord_itemChars items rest]
          simp only [complete_arr, Option.bind_eq_bind, Option.bind_some, run_items items, reread, rereadItems]
          cases item.reread <;> cases rereadItems items <;> rfl
      | .obj [] =>
          have hopen : step ⟨fs, .value orEnd⟩ '{' = some ⟨.obj [] :: fs, .key true⟩ := rfl
          have hclose : step ⟨.obj [] :: fs, .key true⟩ '}' = complete fs (.obj []) := rfl
          simp [chars, run_cons, hopen, hclose, reread, rereadMembers]
      | .obj ((key, value) :: members) =>
          have hopen : step ⟨fs, .value orEnd⟩ '{' = some ⟨.obj [] :: fs, .key true⟩ := rfl
          simp only [chars, List.cons_append, List.append_assoc]
          rw [run_cons, hopen, Option.bind_eq_bind, Option.bind_some, run_key,
            run_value value _ _ fun _ => endsWord_memberChars members rest]
          simp only [complete_member, Option.bind_eq_bind, Option.bind_some, run_members members, reread,
            rereadMembers]
          cases value.reread <;> cases rereadMembers members <;> rfl

/-- After an item of an array, the others are read. -/
theorem run_items (items : List Json) (fs : List Frame) (read : List Written) (rest : List Char) :
    run ⟨.arr read :: fs, .comma⟩ (itemChars items ++ rest)
      = rereadItems items >>= fun ws => complete fs (.arr (read.reverse ++ ws)) >>= fun r => r.run rest := by
  match items with
  | [] =>
      have hclose : step ⟨.arr read :: fs, .comma⟩ ']' = complete fs (.arr read.reverse) := rfl
      simp [itemChars, rereadItems, run_cons, hclose]
  | item :: items =>
      have hcomma : step ⟨.arr read :: fs, .comma⟩ ',' = some ⟨.arr read :: fs, .value false⟩ := rfl
      rw [itemChars, List.cons_append, List.cons_append, run_cons, hcomma, Option.bind_eq_bind, Option.bind_some,
        List.append_assoc, run_value item _ _ fun _ => endsWord_itemChars items rest]
      simp only [complete_arr, Option.bind_eq_bind, Option.bind_some, run_items items, rereadItems]
      cases item.reread with
      | none => rfl
      | some w => cases rereadItems items <;> simp

/-- After a member of an object, the others are read. -/
theorem run_members (members : List (String × Json)) (fs : List Frame) (read : List (Option String × Written))
    (rest : List Char) :
    run ⟨.obj read :: fs, .comma⟩ (memberChars members ++ rest)
      = rereadMembers members >>= fun ws => complete fs (.obj (read.reverse ++ ws)) >>= fun r => r.run rest := by
  match members with
  | [] =>
      have hclose : step ⟨.obj read :: fs, .comma⟩ '}' = complete fs (.obj read.reverse) := rfl
      simp [memberChars, rereadMembers, run_cons, hclose]
  | (key, value) :: members =>
      have hcomma : step ⟨.obj read :: fs, .comma⟩ ',' = some ⟨.obj read :: fs, .key false⟩ := rfl
      simp only [memberChars, List.cons_append, List.append_assoc]
      rw [run_cons, hcomma, Option.bind_eq_bind, Option.bind_some, run_key,
        run_value value _ _ fun _ => endsWord_memberChars members rest]
      simp only [complete_member, Option.bind_eq_bind, Option.bind_some, run_members members, rereadMembers]
      cases value.reread with
      | none => rfl
      | some w => cases rereadMembers members <;> simp

end

/-- **A printed value is read as it is written.** -/
theorem written?_text (v : Json) : written? v.text = v.reread := by
  rw [written?, text, String.toList_ofList, Reader.start]
  cases hword : v.isWord with
  | true =>
      obtain ⟨hbare, hne, hvalue⟩ := chars_of_isWord hword
      have hrun : run ⟨[], .value false⟩ (v.chars ++ []) = run ⟨[], .bare v.chars.reverse⟩ [] :=
        run_word hbare hne
      rw [List.append_nil] at hrun
      rw [hrun]
      simp [run, finish, hvalue]
  | false =>
      have hrun : run ⟨[], .value false⟩ (v.chars ++ [])
          = v.reread >>= fun w => complete [] w >>= fun r => r.run [] :=
        run_value v [] false (by simp [hword])
      rw [List.append_nil] at hrun
      rw [hrun]
      cases v.reread <;> rfl

end ResourceTree.Json
