import ResourceTree.Route.Mounting
import Mathlib.Data.List.Pairwise

/-! # Patterns side by side

Two patterns fork at the first pieces that differ, with the names of parameters forgotten (`Route.Fork`). Patterns stand
in each other's way if they do not differ at all, or if they fork at rivals: a parameter against a catch-all behind the
same text (`Route.clash_iff`). Which patterns the matcher takes together does not depend on the order in which it is
given them: `Route.SideBySide`. -/

namespace ResourceTree.Route

variable {p p' q : Piece} {pieces pieces' : List Piece}

/-! ## Forks -/

namespace Piece

/-- A piece with the name of its parameter forgotten. -/
def nameless : Piece → Piece
  | .literal text => .literal text
  | .param lead _ => .param lead ""
  | .rest lead _ => .rest lead ""

/-- Static text. -/
def IsStatic (p : Piece) : Prop := ∃ text, p = .literal text

/-- A parameter, which takes the rest of one segment. -/
def IsParam (p : Piece) : Prop := ∃ lead name, p = .param lead name

/-- **Two pieces are rivals**: behind the same text one is a parameter and the other is a catch-all. -/
inductive Rivals : Piece → Piece → Prop where
  | param_rest (lead : List Char) (name name' : String) : Rivals (.param lead name) (.rest lead name')
  | rest_param (lead : List Char) (name name' : String) : Rivals (.rest lead name) (.param lead name')

theorem Rivals.symm (h : Rivals p p') : Rivals p' p := by
  cases h with
  | param_rest lead name name' => exact .rest_param lead name' name
  | rest_param lead name name' => exact .param_rest lead name' name

end Piece

/-- **Two patterns fork at these pieces**: they are the first that differ, with the names of parameters forgotten. -/
inductive Fork : List Piece → List Piece → Piece → Piece → Prop where
  | here {p p' : Piece} (pieces pieces' : List Piece) (h : p.nameless ≠ p'.nameless) :
      Fork (p :: pieces) (p' :: pieces') p p'
  | there {q q' p p' : Piece} {pieces pieces' : List Piece} (hsame : q.nameless = q'.nameless)
      (h : Fork pieces pieces' p p') : Fork (q :: pieces) (q' :: pieces') p p'

namespace Fork

theorem symm (h : Fork pieces pieces' p p') : Fork pieces' pieces p' p := by
  induction h with
  | here pieces pieces' h => exact .here pieces' pieces h.symm
  | there hsame h ih => exact .there hsame.symm ih

/-- The pieces of a fork belong to the patterns. -/
theorem mem (h : Fork pieces pieces' p p') : p ∈ pieces ∧ p' ∈ pieces' ∧ p.nameless ≠ p'.nameless := by
  induction h with
  | here pieces pieces' h => exact ⟨List.mem_cons_self, List.mem_cons_self, h⟩
  | there hsame h ih => exact ⟨List.mem_cons_of_mem _ ih.1, List.mem_cons_of_mem _ ih.2.1, ih.2.2⟩

/-- A fork is at the first piece or behind it. -/
theorem of_cons (h : Fork (q :: pieces) pieces' p p') : ∃ q' rest, pieces' = q' :: rest
    ∧ (p = q ∧ p' = q' ∧ q.nameless ≠ q'.nameless ∨ q.nameless = q'.nameless ∧ Fork pieces rest p p') := by
  cases h with
  | here _ _ h => exact ⟨_, _, rfl, Or.inl ⟨rfl, rfl, h⟩⟩
  | there hsame h => exact ⟨_, _, rfl, Or.inr ⟨hsame, h⟩⟩

end Fork

/-! ## Patterns in each other's way -/

/-- Behind pieces that are the same but for names it is the rest of the patterns that counts. -/
theorem clash_cons_same (h : p.nameless = p'.nameless) :
    clash (p :: pieces) (p' :: pieces') = clash pieces pieces' := by
  cases p <;> cases p' <;> simp_all [Piece.nameless, clash]

/-- Pieces that differ are in each other's way if they are rivals. -/
theorem clash_cons_differ (h : p.nameless ≠ p'.nameless) :
    clash (p :: pieces) (p' :: pieces') = true ↔ Piece.Rivals p p' := by
  constructor
  · intro hclash
    -- pieces of one form that differ have different text, and text is in nobody's way
    cases p with
    | literal text =>
        cases p' with
        | literal text' => simp_all [Piece.nameless, clash]
        | param lead' name' => cases hclash
        | rest lead' name' => cases hclash
    | param lead name =>
        cases p' with
        | literal text' => cases hclash
        | param lead' name' => simp_all [Piece.nameless, clash]
        | rest lead' name' =>
            obtain rfl := eq_of_beq hclash
            exact .param_rest lead name name'
    | rest lead name =>
        cases p' with
        | literal text' => cases hclash
        | param lead' name' =>
            obtain rfl := eq_of_beq hclash
            exact .rest_param lead name name'
        | rest lead' name' => simp_all [Piece.nameless, clash]
  · intro hrivals
    cases hrivals with
    | param_rest lead name name' => exact beq_self_eq_true lead
    | rest_param lead name name' => exact beq_self_eq_true lead

/-- **Two patterns are in each other's way** if they are the same but for the names of parameters, or fork at rivals, by
induction on the pieces of the first one. -/
theorem clash_iff : clash pieces pieces' = true ↔ pieces.map Piece.nameless = pieces'.map Piece.nameless
    ∨ ∃ p p', Fork pieces pieces' p p' ∧ Piece.Rivals p p' := by
  induction pieces generalizing pieces' with
  | nil =>
      cases pieces' with
      | nil => exact iff_of_true rfl (Or.inl rfl)
      | cons q' pieces' =>
          refine iff_of_false Bool.false_ne_true ?_
          rintro (hsame | ⟨p, p', hfork, -⟩)
          · cases hsame
          · cases hfork
  | cons q pieces ih =>
      cases pieces' with
      | nil =>
          refine iff_of_false (by cases q <;> exact Bool.false_ne_true) ?_
          rintro (hsame | ⟨p, p', hfork, -⟩)
          · cases hsame
          · cases hfork
      | cons q' pieces' =>
          -- a fork is behind the first pieces if they are the same, and at them if not
          by_cases hsame : q.nameless = q'.nameless
          · rw [clash_cons_same hsame, ih, List.map_cons, List.map_cons, hsame, List.cons.injEq]
            refine or_congr (by simp) ⟨?_, ?_⟩
            · rintro ⟨p, p', hfork, hrivals⟩
              exact ⟨p, p', .there hsame hfork, hrivals⟩
            · rintro ⟨p, p', hfork, hrivals⟩
              cases hfork with
              | here _ _ hne => exact absurd hsame hne
              | there _ hfork => exact ⟨p, p', hfork, hrivals⟩
          · rw [clash_cons_differ hsame]
            constructor
            · intro hrivals
              exact Or.inr ⟨q, q', .here pieces pieces' hsame, hrivals⟩
            · rintro (heq | ⟨p, p', hfork, hrivals⟩)
              · exact absurd (List.cons.inj heq).1 hsame
              · cases hfork with
                | here _ _ _ => exact hrivals
                | there heq _ => exact absurd heq hsame

/-- Being in the way is mutual. -/
theorem clash_comm : clash pieces pieces' = clash pieces' pieces := by
  have hmutual {pieces pieces' : List Piece} (h : clash pieces pieces' = true) : clash pieces' pieces = true := by
    rcases clash_iff.mp h with hsame | ⟨p, p', hfork, hrivals⟩
    · exact clash_iff.mpr (Or.inl hsame.symm)
    · exact clash_iff.mpr (Or.inr ⟨p', p, hfork.symm, hrivals.symm⟩)
  exact Bool.eq_iff_iff.mpr ⟨hmutual, hmutual⟩

/-! ## Patterns that are taken together -/

/-- **Patterns that the matcher takes side by side**: each of them on its own, and no two in each other's way. -/
structure SideBySide (patterns : List String) : Prop where
  mountable : ∀ p ∈ patterns, isMountable p = true
  apart : patterns.Pairwise fun p q => clash (piecesOfPattern p) (piecesOfPattern q) = false

namespace SideBySide

variable {ps qs : List String}

theorem nil : SideBySide [] := ⟨fun _ h => (List.not_mem_nil h).elim, .nil⟩

/-- Patterns of two routers are taken together if those of each are, and none is in the way of one of the others. -/
theorem append_iff : SideBySide (ps ++ qs) ↔ SideBySide ps ∧ SideBySide qs ∧ anyClash ps qs = false := by
  have hapart : anyClash ps qs = false
      ↔ ∀ p ∈ ps, ∀ q ∈ qs, clash (piecesOfPattern p) (piecesOfPattern q) = false := by
    simp [anyClash]
  rw [hapart]
  constructor
  · rintro ⟨hmountable, hpairs⟩
    obtain ⟨hps, hqs, hcross⟩ := List.pairwise_append.mp hpairs
    obtain ⟨hmountable, hmountable'⟩ := List.forall_mem_append.mp hmountable
    exact ⟨⟨hmountable, hps⟩, ⟨hmountable', hqs⟩, hcross⟩
  · rintro ⟨⟨hmountable, hps⟩, ⟨hmountable', hqs⟩, hcross⟩
    exact ⟨List.forall_mem_append.mpr ⟨hmountable, hmountable'⟩, List.pairwise_append.mpr ⟨hps, hqs, hcross⟩⟩

theorem left (h : SideBySide (ps ++ qs)) : SideBySide ps := (append_iff.mp h).1

theorem right (h : SideBySide (ps ++ qs)) : SideBySide qs := (append_iff.mp h).2.1

theorem singleton_iff {pattern : String} : SideBySide [pattern] ↔ isMountable pattern = true := by
  constructor
  · intro h
    exact h.mountable pattern List.mem_cons_self
  · intro h
    exact ⟨List.forall_mem_singleton.mpr h, List.pairwise_singleton _ _⟩

/-- The order of the patterns does not count. -/
theorem perm_iff (h : ps.Perm qs) : SideBySide ps ↔ SideBySide qs := by
  have hpairs := h.pairwise_iff (R := fun p q => clash (piecesOfPattern p) (piecesOfPattern q) = false)
    fun hclash => by rwa [clash_comm]
  constructor
  · rintro ⟨hmountable, hps⟩
    exact ⟨fun p hp => hmountable p (h.mem_iff.mpr hp), hpairs.mp hps⟩
  · rintro ⟨hmountable, hqs⟩
    exact ⟨fun p hp => hmountable p (h.mem_iff.mp hp), hpairs.mpr hqs⟩

/-- No two of the patterns are in each other's way. -/
theorem clash_eq_false (h : SideBySide ps) {p q : String} (hp : p ∈ ps) (hq : q ∈ ps) (hne : p ≠ q) :
    clash (piecesOfPattern p) (piecesOfPattern q) = false := by
  have hsymm : Std.Symm fun p q => clash (piecesOfPattern p) (piecesOfPattern q) = false :=
    ⟨fun p q hclash => by rwa [clash_comm]⟩
  exact h.apart.forall hp hq hne

end SideBySide

end ResourceTree.Route
