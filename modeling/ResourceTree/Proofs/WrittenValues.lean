import Mathlib.Data.List.TakeWhile
import ResourceTree.Proofs.JsonDocuments

/-! # Values that are written again

A whole number that fits into 64 bits is read back from its digits (`Number.ofChars?_text`), and all whole numbers that
are read fit: this is an invariant of the reader (`Json.Reader.step_fits`, `Json.fits_of_written?`). So a value that was
read from a text, and that holds no doubles, is read back from its own text: `Json.exists_readsBack`. -/

namespace ResourceTree

/-! ## Whole numbers -/

namespace Number

/-- A whole number fits into 64 bits, with a sign or without. -/
def Fits : Number → Prop
  | .whole n => -(Nat.pow 2 63 : Nat) ≤ n ∧ n ≤ maxWord
  | .double _ => True

variable {n : Nat}

theorem digitsOf_eq (n : Nat) : Binary64.digitsOf n = Nat.toDigits 10 n := by
  rw [Binary64.digitsOf, Nat.repr_eq_ofList_toDigits, String.toList_ofList]

/-- A digit of a positive number below ten is not zero. -/
theorem digitChar_ne_zero : ∀ d < 10, d ≠ 0 → Nat.digitChar d ≠ '0' := by decide

/-- Positive numbers have no leading zeros, by induction on the number. -/
theorem head?_toDigits (h : n ≠ 0) : (Nat.toDigits 10 n).head? ≠ some '0' := by
  induction n using Nat.strongRecOn with
  | ind n ih =>
      by_cases hdigit : n < 10
      · rw [Nat.toDigits_of_lt_base hdigit, List.head?_cons, ne_eq, Option.some.injEq]
        exact digitChar_ne_zero n hdigit h
      · have hsplit : Nat.toDigits 10 n = Nat.toDigits 10 (n / 10) ++ Nat.toDigits 10 (n % 10) := by
          rw [Nat.toDigits_append_toDigits (by decide) (by omega) (by omega), Nat.div_add_mod]
        have hhead := ih (n / 10) (by omega) (by omega)
        rw [hsplit, List.head?_append]
        cases hdigits : (Nat.toDigits 10 (n / 10)).head? with
        | none => exact absurd (List.head?_eq_none_iff.mp hdigits) Nat.toDigits_ne_nil
        | some d => rwa [hdigits] at hhead

/-- The digits of a number, perhaps behind a sign, are a literal. -/
theorem literal_digitsOf (negative : Bool) (n : Nat) :
    Literal.ofChars? ((if negative then ['-'] else []) ++ Binary64.digitsOf n)
      = some ⟨negative, Binary64.digitsOf n, [], none⟩ := by
  rw [digitsOf_eq]
  have hdigits : ∀ c ∈ Nat.toDigits 10 n, c.isDigit = true := fun c hc =>
    Nat.isDigit_of_mem_toDigits (by decide) (by decide) hc
  have hne : Nat.toDigits 10 n ≠ [] := Nat.toDigits_ne_nil
  have htake : (Nat.toDigits 10 n).takeWhile Char.isDigit = Nat.toDigits 10 n :=
    List.takeWhile_eq_self_iff.mpr hdigits
  have hdrop : (Nat.toDigits 10 n).dropWhile Char.isDigit = [] := List.dropWhile_eq_nil_iff.mpr hdigits
  have hleading : (Nat.toDigits 10 n).length = 1 ∨ (Nat.toDigits 10 n).head? ≠ some '0' := by
    by_cases h : n = 0
    · exact Or.inl (by rw [h]; rfl)
    · exact Or.inr (head?_toDigits h)
  cases negative with
  | true =>
      rw [if_pos rfl, List.singleton_append, Literal.ofChars?]
      simp only [htake, hdrop, guard, if_pos (And.intro hne hleading)]
      rfl
  | false =>
      rw [if_neg (by decide), List.nil_append]
      obtain ⟨d, ds, hds⟩ := List.exists_cons_of_ne_nil hne
      have hd : d ≠ '-' := by
        rintro rfl
        have hdigit := hdigits '-' (hds ▸ List.mem_cons_self)
        cases hdigit
      unfold Literal.ofChars?
      split
      next negative cs hsign =>
        obtain ⟨rfl, rfl⟩ : negative = false ∧ cs = Nat.toDigits 10 n := by
          rw [hds] at hsign ⊢
          split at hsign
          · next h => exact absurd (List.cons.inj h).1 hd
          · cases hsign
            exact ⟨rfl, rfl⟩
        simp only [htake, hdrop, guard, if_pos (And.intro hne hleading)]
        rfl

theorem digitsValue_digitsOf (n : Nat) : digitsValue (Binary64.digitsOf n) = n := by
  rw [digitsOf_eq]
  exact Nat.ofDigitChars_ten_toDigits

/-- **A whole number is read back** from its digits. -/
theorem ofChars?_text {n : Int} (h : Fits (.whole n)) : ofChars? (text (.whole n)) = some (some (.whole n)) := by
  obtain ⟨hlow, hhigh⟩ := h
  have hliteral := literal_digitsOf (decide (n < 0)) n.natAbs
  rw [text, ofChars?]
  by_cases hsign : n < 0
  · rw [decide_eq_true hsign, if_pos rfl, List.singleton_append] at hliteral
    rw [if_pos hsign, hliteral]
    have hvalue : -(n.natAbs : Int) = n := by omega
    have hfits : n.natAbs ≠ 0 ∧ n.natAbs ≤ Nat.pow 2 63 := by omega
    simp only [digitsValue_digitsOf, and_self, if_true, if_pos hfits, hvalue]
  · rw [decide_eq_false hsign, if_neg (by decide), List.nil_append] at hliteral
    rw [if_neg hsign, hliteral]
    have hvalue : (n.natAbs : Int) = n := by omega
    have hfits : n.natAbs ≤ maxWord := by omega
    simp only [digitsValue_digitsOf, and_self, if_true, if_neg Bool.false_ne_true, if_pos hfits, hvalue]

/-- What is read as a whole number fits. -/
theorem fits_of_ofChars? {cs : List Char} {n : Number} (h : ofChars? cs = some (some n)) : n.Fits := by
  have hdouble {x : Option Binary64} (h : some (x.map Number.double) = some (some n)) : n.Fits := by
    obtain ⟨d, -, rfl⟩ := Option.map_eq_some_iff.mp (Option.some.inj h)
    trivial
  unfold ofChars? at h
  split at h
  · cases h
  · next l _ =>
      dsimp only at h
      split_ifs at h with hwhole hnegative hfits hfits
      · cases h
        exact ⟨by omega, by omega⟩
      · exact hdouble h
      · cases h
        exact ⟨by omega, by omega⟩
      · exact hdouble h
      · exact hdouble h

end Number

/-! ## Numbers that were read -/

namespace Json

/-- All whole numbers that are written in a text fit. -/
inductive Written.Fits : Written → Prop
  | null : Fits .null
  | bool (b : Bool) : Fits (.bool b)
  | num {n : Option Number} (h : ∀ number ∈ n, number.Fits) : Fits (.num n)
  | str (s : Option String) : Fits (.str s)
  | arr {items : List Written} (h : ∀ item ∈ items, Fits item) : Fits (.arr items)
  | obj {members : List (Option String × Written)} (h : ∀ member ∈ members, Fits member.2) : Fits (.obj members)

namespace Reader

/-- So do those of what an open container holds. -/
def FrameFits : Frame → Prop
  | .arr items => ∀ item ∈ items, item.Fits
  | .obj members | .member members _ => ∀ member ∈ members, member.2.Fits

/-- **What a reader holds fits**: what the open containers hold, and the value if it is at the end of it. -/
structure Fits (r : Reader) : Prop where
  frames : ∀ f ∈ r.frames, FrameFits f
  finished : ∀ w, r.mode = .finished w → w.Fits

variable {frames : List Frame} {w : Written} {r r' : Reader} {orEnd isKey : Bool} {c : Char} {l : Literal}

/-- Whether a reader has not come to the end of a value. -/
def isOpen : Mode → Bool
  | .finished _ => false
  | _ => true

theorem fits_of_open {mode : Mode} (h : ∀ f ∈ frames, FrameFits f) (hopen : isOpen mode = true) :
    Fits ⟨frames, mode⟩ := by
  refine ⟨h, fun w hw => ?_⟩
  obtain rfl : mode = .finished w := hw
  cases hopen

theorem bareValue?_fits {cs : List Char} (h : bareValue? cs = some w) : w.Fits := by
  rw [bareValue?.eq_def] at h
  split at h
  · cases h
    exact .null
  · cases h
    exact .bool true
  · cases h
    exact .bool false
  · obtain ⟨n, hn, rfl⟩ := Option.map_eq_some_iff.mp h
    refine .num fun number hnumber => ?_
    rw [Option.mem_def] at hnumber
    subst hnumber
    exact Number.fits_of_ofChars? hn

/-- A complete value is put where it belongs. -/
theorem complete_fits (h : ∀ f ∈ frames, FrameFits f) (hw : w.Fits) (hcomplete : complete frames w = some r) :
    r.Fits := by
  cases frames with
  | nil =>
      cases hcomplete
      refine ⟨h, fun w' hw' => ?_⟩
      cases hw'
      exact hw
  | cons f frames =>
      obtain ⟨hf, hrest⟩ := List.forall_mem_cons.mp h
      cases f with
      | arr items =>
          cases hcomplete
          exact fits_of_open (List.forall_mem_cons.mpr ⟨List.forall_mem_cons.mpr ⟨hw, hf⟩, hrest⟩) rfl
      | member members key =>
          cases hcomplete
          exact fits_of_open (List.forall_mem_cons.mpr ⟨List.forall_mem_cons.mpr ⟨hw, hf⟩, hrest⟩) rfl
      | obj members => cases hcomplete

/-- A container that ends is a complete value. -/
theorem close_arr_fits {items : List Written} (h : ∀ f ∈ Frame.arr items :: frames, FrameFits f)
    (hclose : complete frames (.arr items.reverse) = some r) : r.Fits := by
  obtain ⟨hitems, hrest⟩ := List.forall_mem_cons.mp h
  exact complete_fits hrest (.arr fun item hitem => hitems item (List.mem_reverse.mp hitem)) hclose

theorem close_obj_fits {members : List (Option String × Written)}
    (h : ∀ f ∈ Frame.obj members :: frames, FrameFits f)
    (hclose : complete frames (.obj members.reverse) = some r) : r.Fits := by
  obtain ⟨hmembers, hrest⟩ := List.forall_mem_cons.mp h
  exact complete_fits hrest (.obj fun member hmember => hmembers member (List.mem_reverse.mp hmember)) hclose

theorem beginValue_fits (h : ∀ f ∈ frames, FrameFits f) (hstep : beginValue frames orEnd c = some r) : r.Fits := by
  unfold beginValue at hstep
  split_ifs at hstep
  · cases hstep
    exact fits_of_open h rfl
  · cases hstep
    exact fits_of_open h rfl
  · cases hstep
    exact fits_of_open (List.forall_mem_cons.mpr ⟨(fun item hitem => by cases hitem), h⟩) rfl
  · cases hstep
    exact fits_of_open (List.forall_mem_cons.mpr ⟨(fun item hitem => by cases hitem), h⟩) rfl
  · split at hstep
    · exact close_arr_fits h hstep
    · cases hstep
  · cases hstep
    exact fits_of_open h rfl

theorem beginKey_fits (h : ∀ f ∈ frames, FrameFits f) (hstep : beginKey frames orEnd c = some r) : r.Fits := by
  unfold beginKey at hstep
  split_ifs at hstep
  · cases hstep
    exact fits_of_open h rfl
  · cases hstep
    exact fits_of_open h rfl
  · split at hstep
    · exact close_obj_fits h hstep
    · cases hstep

theorem continueContainer_fits (h : ∀ f ∈ frames, FrameFits f) (hstep : continueContainer frames c = some r) :
    r.Fits := by
  unfold continueContainer at hstep
  split at hstep
  · cases hstep
    exact fits_of_open h rfl
  · cases frames with
    | nil => cases hstep
    | cons f frames =>
        cases f with
        | arr items =>
            dsimp only at hstep
            split_ifs at hstep
            · cases hstep
              exact fits_of_open h rfl
            · exact close_arr_fits h hstep
        | obj members =>
            dsimp only at hstep
            split_ifs at hstep
            · cases hstep
              exact fits_of_open h rfl
            · exact close_obj_fits h hstep
        | member members key => cases hstep

theorem continueLiteral_fits (h : ∀ f ∈ frames, FrameFits f) (hstep : continueLiteral frames l isKey c = some r) :
    r.Fits := by
  unfold continueLiteral at hstep
  split at hstep
  · split_ifs at hstep
    · cases hstep
      exact fits_of_open h rfl
    · exact complete_fits h (.str _) hstep
    · cases hstep
      exact fits_of_open h rfl
    · cases hstep
      exact fits_of_open h rfl
  · split_ifs at hstep
    · cases hstep
      exact fits_of_open h rfl
    · obtain ⟨d, -, rfl⟩ := Option.map_eq_some_iff.mp hstep
      exact fits_of_open h rfl
  · obtain ⟨d, -, rfl⟩ := Option.map_eq_some_iff.mp hstep
    dsimp only
    split
    · exact fits_of_open h rfl
    · exact fits_of_open h rfl

theorem afterValue_fits (h : r.Fits) (hstep : r.afterValue c = some r') : r'.Fits := by
  unfold afterValue at hstep
  split at hstep
  · exact continueContainer_fits h.frames hstep
  · next w hmode =>
      split_ifs at hstep
      cases hstep
      refine ⟨h.frames, fun w' hw' => ?_⟩
      cases hw'
      exact h.finished w hmode
  · cases hstep

/-- **A step of the reader** keeps it so. -/
theorem step_fits (h : r.Fits) (hstep : r.step c = some r') : r'.Fits := by
  unfold step at hstep
  split at hstep
  · exact beginValue_fits h.frames hstep
  · exact beginKey_fits h.frames hstep
  · next key hmode =>
      split_ifs at hstep
      · cases hstep
        exact h
      · split at hstep
        · next members rest hframes =>
            cases hstep
            have hmembers := h.frames
            rw [hframes] at hmembers
            obtain ⟨hmember, hrest⟩ := List.forall_mem_cons.mp hmembers
            exact fits_of_open (List.forall_mem_cons.mpr ⟨hmember, hrest⟩) rfl
        · cases hstep
  · split_ifs at hstep
    · cases hstep
      exact fits_of_open h.frames rfl
    · obtain ⟨w, hw, hstep⟩ := Option.bind_eq_some_iff.mp hstep
      obtain ⟨r₁, hcomplete, hstep⟩ := Option.bind_eq_some_iff.mp hstep
      exact afterValue_fits (complete_fits h.frames (bareValue?_fits hw) hcomplete) hstep
  · exact continueLiteral_fits h.frames hstep
  · exact afterValue_fits h hstep
  · exact afterValue_fits h hstep

/-- So does reading a text, by induction on it. -/
theorem run_fits {cs : List Char} (h : r.Fits) (hrun : r.run cs = some r') : r'.Fits := by
  induction cs generalizing r with
  | nil =>
      cases hrun
      exact h
  | cons c cs ih =>
      rw [run_cons] at hrun
      obtain ⟨r₁, hstep, hrun⟩ := Option.bind_eq_some_iff.mp hrun
      exact ih (step_fits h hstep) hrun

theorem finish_fits (h : r.Fits) (hfinish : r.finish = some w) : w.Fits := by
  unfold finish at hfinish
  split at hfinish
  · next w' hmode =>
      cases hfinish
      exact h.finished w hmode
  · exact bareValue?_fits hfinish
  · cases hfinish

end Reader

/-- **Whatever is written in a text fits.** -/
theorem fits_of_written? {text : String} {w : Written} (h : written? text = some w) : w.Fits := by
  obtain ⟨r, hrun, hfinish⟩ := Option.bind_eq_some_iff.mp h
  have hstart : Reader.start.Fits := Reader.fits_of_open (fun f hf => by cases hf) rfl
  exact Reader.finish_fits (Reader.run_fits hstart hrun) hfinish

/-! ## Values that are written again -/

/-- All numbers in a value are whole. -/
inductive Exact : Json → Prop
  | null : Exact .null
  | bool (b : Bool) : Exact (.bool b)
  | whole (n : Int) : Exact (.num (.whole n))
  | str (s : String) : Exact (.str s)
  | arr {items : List Json} (h : ∀ item ∈ items, Exact item) : Exact (.arr items)
  | obj {members : List (String × Json)} (h : ∀ member ∈ members, Exact member.2) : Exact (.obj members)

/-- A whole number is read back as a value, since its text is no other word. -/
theorem bareValue?_text {n : Int} (h : Number.Fits (.whole n)) :
    Reader.bareValue? (Number.text (.whole n)) = some (.num (some (.whole n))) := by
  have hread := Number.ofChars?_text h
  rw [Reader.bareValue?.eq_def]
  split
  · next hword =>
      rw [hword] at hread
      cases hread
  · next hword =>
      rw [hword] at hread
      cases hread
  · next hword =>
      rw [hword] at hread
      cases hread
  · rw [hread]
    rfl

variable {depth : Nat}

/-- Items that are read back one by one are read back as a list. -/
theorem exists_rereadItems {items : List Json} (h : ∀ item ∈ items, ∃ w, ReadsBack depth item w) :
    ∃ ws, rereadItems items = some ws ∧ Written.items? depth ws = some items := by
  induction items with
  | nil => exact ⟨[], rfl, rfl⟩
  | cons item items ih =>
      obtain ⟨w, hw, hvalue⟩ := h item List.mem_cons_self
      obtain ⟨ws, hws, hvalues⟩ := ih fun v hv => h v (List.mem_cons_of_mem item hv)
      exact ⟨w :: ws, by rw [rereadItems, hw, hws]; rfl, by rw [Written.items?, hvalue, hvalues]; rfl⟩

/-- So are members. -/
theorem exists_rereadMembers {members : List (String × Json)}
    (h : ∀ member ∈ members, ∃ w, ReadsBack depth member.2 w) :
    ∃ ws, rereadMembers members = some ws ∧ Written.members? depth ws = some members := by
  induction members with
  | nil => exact ⟨[], rfl, rfl⟩
  | cons member members ih =>
      obtain ⟨w, hw, hvalue⟩ := h member List.mem_cons_self
      obtain ⟨ws, hws, hvalues⟩ := ih fun m hm => h m (List.mem_cons_of_mem member hm)
      exact ⟨(some member.1, w) :: ws, by rw [rereadMembers, hw, hws]; rfl,
        by rw [Written.members?, hvalue, hvalues]; rfl⟩

mutual

/-- **What was read is read back** from its own text, by induction on how it was written at first. -/
theorem exists_readsBack {w : Written} {depth : Nat} {v : Json} (hfits : w.Fits) (h : w.value? depth = some v)
    (hexact : v.Exact) : ∃ w', ReadsBack depth v w' := by
  match w, depth with
  | .null, _ =>
      cases h
      exact ⟨.null, rfl, rfl⟩
  | .bool b, _ =>
      cases h
      exact ⟨.bool b, rfl, rfl⟩
  | .num n, _ =>
      obtain ⟨n', rfl, rfl⟩ := Option.map_eq_some_iff.mp h
      cases hfits with
      | num hn =>
          cases hexact with
          | whole n => exact ⟨.num (some (.whole n)), bareValue?_text (hn _ rfl), rfl⟩
  | .str s, _ =>
      obtain ⟨s', -, rfl⟩ := Option.map_eq_some_iff.mp h
      exact ⟨.str (some s'), rfl, rfl⟩
  | .arr ws, 0 => cases h
  | .arr ws, depth + 1 =>
      obtain ⟨items, hitems, rfl⟩ := Option.map_eq_some_iff.mp h
      cases hfits with
      | arr hws =>
          cases hexact with
          | arr hexact =>
              obtain ⟨ws', hws', hvalues⟩ := exists_rereadItems (exists_readsBack_items hws hitems hexact)
              exact ⟨.arr ws', by rw [reread, hws']; rfl, by rw [Written.value?, hvalues]; rfl⟩
  | .obj ws, 0 => cases h
  | .obj ws, depth + 1 =>
      obtain ⟨pairs, hpairs, rfl⟩ := Option.map_eq_some_iff.mp h
      cases hfits with
      | obj hws =>
          cases hexact with
          | obj hexact =>
              -- sorting drops members but adds none
              have hback := exists_readsBack_members hws hpairs
              obtain ⟨ws', hws', hvalues⟩ := exists_rereadMembers fun member hmember =>
                hback member (Fields.mem_ofList hmember) (hexact member hmember)
              refine ⟨.obj ws', by rw [reread, hws']; rfl, ?_⟩
              rw [Written.value?, hvalues, Option.map_some,
                Fields.ofList_eq_self (Fields.isSorted_ofList pairs)]

theorem exists_readsBack_items {ws : List Written} {depth : Nat} {items : List Json}
    (hfits : ∀ w ∈ ws, w.Fits) (h : Written.items? depth ws = some items) (hexact : ∀ item ∈ items, item.Exact) :
    ∀ item ∈ items, ∃ w', ReadsBack depth item w' := by
  match ws with
  | [] =>
      cases h
      exact fun item hitem => by cases hitem
  | w :: ws =>
      rw [Written.items?] at h
      obtain ⟨value, hvalue, h⟩ := Option.bind_eq_some_iff.mp h
      obtain ⟨values, hvalues, h⟩ := Option.bind_eq_some_iff.mp h
      cases h
      obtain ⟨hw, hws⟩ := List.forall_mem_cons.mp hfits
      obtain ⟨hfirst, hrest⟩ := List.forall_mem_cons.mp hexact
      exact List.forall_mem_cons.mpr
        ⟨exists_readsBack hw hvalue hfirst, exists_readsBack_items hws hvalues hrest⟩

theorem exists_readsBack_members {ws : List (Option String × Written)} {depth : Nat}
    {pairs : List (String × Json)} (hfits : ∀ w ∈ ws, w.2.Fits) (h : Written.members? depth ws = some pairs) :
    ∀ pair ∈ pairs, pair.2.Exact → ∃ w', ReadsBack depth pair.2 w' := by
  match ws with
  | [] =>
      cases h
      exact fun pair hpair => by cases hpair
  | (key, w) :: ws =>
      rw [Written.members?] at h
      obtain ⟨key', -, h⟩ := Option.bind_eq_some_iff.mp h
      obtain ⟨value, hvalue, h⟩ := Option.bind_eq_some_iff.mp h
      obtain ⟨values, hvalues, h⟩ := Option.bind_eq_some_iff.mp h
      cases h
      obtain ⟨hw, hws⟩ := List.forall_mem_cons.mp hfits
      exact List.forall_mem_cons.mpr
        ⟨fun hexact => exists_readsBack hw hvalue hexact, exists_readsBack_members hws hvalues⟩

end

end Json

end ResourceTree
