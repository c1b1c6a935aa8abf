import ResourceTree.Proofs.BuildChecks
import ResourceTree.Proofs.RenderedPaths

/-! # Routes that match the same path

Where two patterns that match the same path first differ, with the names of parameters forgotten, they fork
(`Route.Fork`), and a path is never given to a route from which another one forks with static text
(`Route.search_prefers`). The routes of a well-formed tree have different shapes. So if every segment is static text, a
parameter or a catch-all as a whole, two routes that match the same path fork at static text, or else at a parameter
against a catch-all, and then there is no router: `Node.overlaps_fork`. The shape of a segment that mixes text and a
parameter holds the parameter's name, so routes that differ in such a name only are claimed, and it is the matcher that
gives up on them: `Node.overlaps_unreported`. -/

namespace ResourceTree

namespace Route

variable {α : Type} {candidates : List (Candidate α)} {segment : List Char} {segments : List (List Char)}
  {found : Candidate α} {p p' q : Piece} {pieces pieces' : List Piece} {taken taken' : List (String × List Char)}

/-! ## Patterns that match the same path -/

/-- Only the text itself is that static text. -/
theorem Piece.eq_literal {text : List Char} (h : (Piece.literal text).nameless = p.nameless) : p = .literal text := by
  cases p with
  | literal text' => exact h.symm
  | param lead name => cases h
  | rest lead name => cases h

/-- Only a parameter behind the same text is that parameter, whatever its name is. -/
theorem Piece.eq_param {lead : List Char} {name : String} (h : (Piece.param lead name).nameless = p.nameless) :
    ∃ name', p = .param lead name' := by
  cases p with
  | literal text => cases h
  | param lead' name' =>
      cases h
      exact ⟨name', rfl⟩
  | rest lead' name' => cases h

/-- Only a catch-all behind the same text is that catch-all, whatever its name is. -/
theorem Piece.eq_rest {lead : List Char} {name : String} (h : (Piece.rest lead name).nameless = p.nameless) :
    ∃ name', p = .rest lead name' := by
  cases p with
  | literal text => cases h
  | param lead' name' => cases h
  | rest lead' name' =>
      cases h
      exact ⟨name', rfl⟩

/-- What static text matches. -/
theorem Matches.of_literal {text : List Char} (h : Matches (.literal text :: pieces) (segment :: segments) taken) :
    text = segment ∧ Matches pieces segments taken := by
  cases h with
  | literal _ h => exact ⟨rfl, h⟩

/-- What a parameter matches. -/
theorem Matches.of_param {lead : List Char} {name : String}
    (h : Matches (.param lead name :: pieces) (segment :: segments) taken) :
    ∃ value taken', segment = lead ++ value ∧ value ≠ [] ∧ taken = (name, value) :: taken'
      ∧ Matches pieces segments taken' := by
  generalize hs : segment :: segments = all at h
  cases h with
  | @param _ _ taken' _ _ value hv h =>
      cases hs
      exact ⟨value, taken', rfl, hv, rfl, h⟩

/-- Nothing comes behind a catch-all. -/
theorem Matches.of_rest {lead : List Char} {name : String} (h : Matches (.rest lead name :: pieces) segments taken) :
    pieces = [] := by
  cases h with
  | rest => rfl

/-- **Two different patterns that match the same path fork**, by induction on the pieces of the first one. -/
theorem Matches.fork (h : Matches pieces segments taken) (h' : Matches pieces' segments taken')
    (hne : pieces.map Piece.nameless ≠ pieces'.map Piece.nameless) : ∃ p p', Fork pieces pieces' p p' := by
  induction pieces generalizing pieces' segments taken taken' with
  | nil =>
      cases h
      cases h'
      exact absurd rfl hne
  | cons q pieces ih =>
      cases segments with
      | nil => cases h
      | cons segment segments =>
          cases pieces' with
          | nil => cases h'
          | cons q' pieces' =>
              by_cases hsame : q.nameless = q'.nameless
              · have hne' : pieces.map Piece.nameless ≠ pieces'.map Piece.nameless := fun heq =>
                  hne (by rw [List.map_cons, List.map_cons, hsame, heq])
                have hfork : ∃ p p', Fork pieces pieces' p p' := by
                  cases q with
                  | literal text =>
                      obtain rfl := Piece.eq_literal hsame
                      exact ih h.of_literal.2 h'.of_literal.2 hne'
                  | param lead name =>
                      obtain ⟨name', rfl⟩ := Piece.eq_param hsame
                      obtain ⟨_, _, -, -, -, hrest⟩ := h.of_param
                      obtain ⟨_, _, -, -, -, hrest'⟩ := h'.of_param
                      exact ih hrest hrest' hne'
                  | rest lead name =>
                      -- a catch-all is the last piece of both
                      obtain ⟨name', rfl⟩ := Piece.eq_rest hsame
                      rw [h.of_rest, h'.of_rest] at hne'
                      exact absurd rfl hne'
                obtain ⟨p, p', hfork⟩ := hfork
                exact ⟨p, p', .there hsame hfork⟩
              · exact ⟨q, q', .here pieces pieces' hsame⟩

/-- **At a fork both patterns go on at the same segment**, by induction on the pieces before it. -/
theorem Matches.at_fork (hfork : Fork pieces pieces' p p') (h : Matches pieces segments taken)
    (h' : Matches pieces' segments taken') :
    ∃ rest rest' segment behind t t', Matches (p :: rest) (segment :: behind) t
      ∧ Matches (p' :: rest') (segment :: behind) t' ∧ t ⊆ taken ∧ t' ⊆ taken' := by
  induction hfork generalizing segments taken taken' with
  | here rest rest' hne =>
      cases segments with
      | nil => cases h
      | cons segment behind => exact ⟨_, _, segment, behind, taken, taken', h, h', fun _ => id, fun _ => id⟩
  | @there q q' p p' pieces pieces' hsame hfork ih =>
      cases segments with
      | nil => cases h
      | cons segment segments =>
          -- behind a common piece both have matched the same segments
          cases q with
          | literal text =>
              obtain rfl := Piece.eq_literal hsame
              exact ih h.of_literal.2 h'.of_literal.2
          | param lead name =>
              obtain ⟨name', rfl⟩ := Piece.eq_param hsame
              obtain ⟨_, _, -, -, rfl, hbehind⟩ := h.of_param
              obtain ⟨_, _, -, -, rfl, hbehind'⟩ := h'.of_param
              obtain ⟨rest, rest', segment, behind, t, t', hp, hp', ht, ht'⟩ := ih hbehind hbehind'
              exact ⟨rest, rest', segment, behind, t, t', hp, hp', fun _ hmem => List.mem_cons_of_mem _ (ht hmem),
                fun _ hmem => List.mem_cons_of_mem _ (ht' hmem)⟩
          | rest lead name =>
              obtain rfl := h.of_rest
              cases hfork

/-! ## Static text comes first -/

/-- No candidate that matches these segments begins with static text. -/
def NoStatic (candidates : List (Candidate α)) (segments : List (List Char)) : Prop :=
  ∀ c ∈ candidates, ∀ p pieces taken, c.pieces = p :: pieces → Matches c.pieces segments taken → ¬p.IsStatic

theorem noStatic_of_none (h : (if (candidates.filterMap (Candidate.literal? segment)).isEmpty then none
    else search (candidates.filterMap (Candidate.literal? segment)) segments) = none) :
    NoStatic candidates (segment :: segments) := by
  -- such a candidate would be found behind the segment, where nothing was found
  rintro c hc p pieces taken hpieces hmatch ⟨text, rfl⟩
  rw [hpieces] at hmatch
  obtain ⟨rfl, hrest⟩ := hmatch.of_literal
  have hmem : { c with pieces := pieces } ∈ candidates.filterMap (Candidate.literal? text) :=
    List.mem_filterMap.mpr ⟨c, hc, Candidate.literal?_eq_some.mpr ⟨hpieces, rfl, rfl⟩⟩
  have hfound := isSome_search_of_mem hmem (search_complete hmem hrest)
  rw [h] at hfound
  cases hfound

/-- A candidate is preferred among others for the segments of a path: none of them that matches too forks from it with
static text. -/
structure Preferred (candidates : List (Candidate α)) (segments : List (List Char)) (c : Candidate α) : Prop where
  mem : c ∈ candidates
  first : ∀ other ∈ candidates, ∀ taken, Matches other.pieces segments taken →
    ∀ p p', Fork c.pieces other.pieces p p' → ¬p'.IsStatic

namespace Preferred

variable {c next : Candidate α}

/-- What is preferred behind a literal segment is preferred. -/
theorem of_literal (hc : c ∈ candidates) (hstep : c.literal? segment = some next)
    (h : Preferred (candidates.filterMap (Candidate.literal? segment)) segments next) :
    Preferred candidates (segment :: segments) c where
  mem := hc
  first other hother taken hmatch p p' hfork := by
    rw [(Candidate.literal?_eq_some.mp hstep).1] at hfork
    obtain ⟨q', rest, hrest, ⟨rfl, rfl, hne⟩ | ⟨hhead, hfork⟩⟩ := hfork.of_cons
    · -- both match the segment, so static text cannot differ here
      rintro ⟨text, rfl⟩
      rw [hrest] at hmatch
      exact hne (congrArg Piece.literal hmatch.of_literal.1.symm)
    · obtain rfl := Piece.eq_literal hhead
      rw [hrest] at hmatch
      have hmem : { other with pieces := rest } ∈ candidates.filterMap (Candidate.literal? segment) :=
        List.mem_filterMap.mpr ⟨other, hother, Candidate.literal?_eq_some.mpr ⟨hrest, rfl, rfl⟩⟩
      exact h.first _ hmem taken hmatch.of_literal.2 p p' hfork

/-- What is preferred behind a parameter is preferred, unless static text leads on. -/
theorem of_param {lead value : List Char} (hnone : NoStatic candidates ((lead ++ value) :: segments))
    (hc : c ∈ candidates) (hstep : c.param? lead value = some next)
    (h : Preferred (candidates.filterMap (Candidate.param? lead value)) segments next) :
    Preferred candidates ((lead ++ value) :: segments) c where
  mem := hc
  first other hother taken hmatch p p' hfork := by
    obtain ⟨hv, name, hpieces, -⟩ := Candidate.param?_eq_some.mp hstep
    rw [hpieces] at hfork
    obtain ⟨q', rest, hrest, ⟨rfl, rfl, -⟩ | ⟨hhead, hfork⟩⟩ := hfork.of_cons
    · exact hnone other hother _ _ _ hrest hmatch
    · obtain ⟨name', rfl⟩ := Piece.eq_param hhead
      rw [hrest] at hmatch
      obtain ⟨value', taken', hsegment, -, -, hmatch⟩ := hmatch.of_param
      obtain rfl := List.append_cancel_left hsegment
      have hmem : (⟨rest, other.params ++ [(name', value)], other.value⟩ : Candidate α)
          ∈ candidates.filterMap (Candidate.param? lead value) :=
        List.mem_filterMap.mpr ⟨other, hother, Candidate.param?_eq_some.mpr ⟨hv, name', hrest, rfl, rfl⟩⟩
      exact h.first _ hmem taken' hmatch p p' hfork

/-- A candidate that ends in a catch-all is preferred, unless static text leads on. -/
theorem of_rest {lead value : List Char} (hnone : NoStatic candidates (segment :: segments)) (hc : c ∈ candidates)
    (hstep : c.rest? lead value = some next) : Preferred candidates (segment :: segments) c where
  mem := hc
  first other hother taken hmatch p p' hfork := by
    obtain ⟨-, -, name, hpieces, -⟩ := Candidate.rest?_eq_some.mp hstep
    rw [hpieces] at hfork
    obtain ⟨q', rest, hrest, ⟨rfl, rfl, -⟩ | ⟨-, hfork⟩⟩ := hfork.of_cons
    · exact hnone other hother _ _ _ hrest hmatch
    · cases hfork

end Preferred

/-- **Static text comes first**: what is found comes from a preferred candidate, by induction on the segments. -/
theorem search_prefers (h : search candidates segments = some found) :
    ∃ c, Preferred candidates segments c ∧ found.value = c.value := by
  induction segments generalizing candidates with
  | nil =>
      have hempty := List.find?_some h
      have hend : found.pieces = [] := List.isEmpty_iff.mp hempty
      refine ⟨found, ⟨List.mem_of_find?_eq_some h, fun other _ _ _ p p' hfork => ?_⟩, rfl⟩
      rw [hend] at hfork
      cases hfork
  | cons segment segments ih =>
      simp only [search, Option.orElse_eq_or, Option.or_eq_some_iff] at h
      rcases h with hliteral | ⟨hnone, h⟩
      · split at hliteral
        · cases hliteral
        · obtain ⟨next, hpreferred, hvalue⟩ := ih hliteral
          obtain ⟨c, hc, hstep⟩ := List.mem_filterMap.mp hpreferred.mem
          exact ⟨c, hpreferred.of_literal hc hstep, hvalue.trans (Candidate.literal?_eq_some.mp hstep).2.2⟩
      · -- no literal segment leads on, so it is a parameter or a catch-all behind some text
        have hnostatic := noStatic_of_none hnone
        obtain ⟨n, -, h⟩ := List.exists_of_findSome?_eq_some h
        rw [← List.take_append_drop n segment] at hnostatic ⊢
        rw [Option.or_eq_some_iff] at h
        rcases h with hparam | ⟨-, hrest⟩
        · split at hparam
          · cases hparam
          · obtain ⟨next, hpreferred, hvalue⟩ := ih hparam
            obtain ⟨c, hc, hstep⟩ := List.mem_filterMap.mp hpreferred.mem
            obtain ⟨-, _, -, -, hsame⟩ := Candidate.param?_eq_some.mp hstep
            exact ⟨c, hpreferred.of_param hnostatic hc hstep, hvalue.trans hsame⟩
        · obtain ⟨c, hc, hstep⟩ := List.mem_filterMap.mp (List.mem_of_mem_head? hrest)
          obtain ⟨-, -, _, -, -, hsame⟩ := Candidate.rest?_eq_some.mp hstep
          exact ⟨c, .of_rest hnostatic hc hstep, hsame⟩

/-- **A path goes to a route from which no other one that it matches forks with static text.** -/
theorem lookup_prefers {patterns : List (String × α)} {path : String} {value : α} {texts : List (String × String)}
    (h : lookup patterns path = some (value, texts)) :
    ∃ pattern, (pattern, value) ∈ patterns ∧ ∀ other ∈ patterns, ∀ taken,
      Matches (piecesOfPattern other.1) (Text.splitOn '/' path.toList) taken →
        ∀ p p', Fork (piecesOfPattern pattern) (piecesOfPattern other.1) p p' → ¬p'.IsStatic := by
  obtain ⟨found, hfound, heq⟩ := Option.map_eq_some_iff.mp h
  obtain ⟨c, hpreferred, hvalue⟩ := search_prefers hfound
  obtain ⟨⟨pattern, value'⟩, hmem, rfl⟩ := List.mem_map.mp hpreferred.mem
  cases heq
  refine ⟨pattern, ?_, fun other hother taken hmatch p p' hfork => ?_⟩
  · rw [hvalue]
    exact hmem
  · exact hpreferred.first _ (List.mem_map.mpr ⟨other, hother, rfl⟩) taken hmatch p p' hfork

/-! ## Whole segments -/

/-- Text as it is written in a pattern, where a brace is doubled. -/
def escape (text : List Char) : List Char := text.flatMap fun c => if c = '{' ∨ c = '}' then [c, c] else [c]

/-- The name of a parameter, as it may stand in a pattern. -/
def IsName (name : List Char) : Prop := name ≠ [] ∧ ∀ c ∈ name, c ≠ '{' ∧ c ≠ '}' ∧ c ≠ '*'

instance (name : List Char) : Decidable (IsName name) :=
  decidable_of_iff ((!name.isEmpty && name.all fun c => c != '{' && c != '}' && c != '*') = true)
    (by simp [IsName, and_assoc])

/-- **A segment of a pattern that is one thing as a whole**: static text, a parameter or a catch-all. -/
inductive Whole : List Char → Prop where
  | static (text : List Char) : Whole (escape text)
  | param {name : List Char} (hname : IsName name) : Whole ('{' :: name ++ ['}'])
  | rest {name : List Char} (hname : IsName name) : Whole ('{' :: ('*' :: name) ++ ['}'])

/-- A pattern of whole segments. -/
def IsWhole (pattern : String) : Prop := ∀ s ∈ Text.splitOn '/' pattern.toList, Whole s

/-- Written text is read as the text. -/
theorem Piece.read_escape (lead text : List Char) :
    Piece.read lead (escape text) = .literal (lead.reverse ++ text) := by
  induction text generalizing lead with
  | nil => simp [escape, Piece.read]
  | cons c text ih =>
      rw [escape, List.flatMap_cons, ← escape]
      by_cases hc : c = '{' ∨ c = '}'
      · -- a doubled brace is read as one
        have hescape : (c = '{' ∧ c = '{') ∨ (c = '}' ∧ c = '}') := hc.imp (fun h => ⟨h, h⟩) fun h => ⟨h, h⟩
        rw [if_pos hc, List.cons_append, List.cons_append, List.nil_append, Piece.read, if_pos hescape, ih]
        simp
      · rw [if_neg hc, List.singleton_append]
        rw [not_or] at hc
        -- no pair of braces begins at another character, whatever comes next
        have hnext := ih (c :: lead)
        cases hrest : escape text with
        | nil =>
            rw [hrest] at hnext
            simpa [Piece.read] using hnext
        | cons d cs =>
            rw [hrest] at hnext
            have hescape : ¬((c = '{' ∧ d = '{') ∨ (c = '}' ∧ d = '}')) := by
              rintro (⟨h, -⟩ | ⟨h, -⟩)
              · exact hc.1 h
              · exact hc.2 h
            rw [Piece.read, if_neg hescape, if_neg hc.1, hnext]
            simp

namespace Whole

variable {s s' : List Char}

/-- A whole segment is read as static text, as a parameter or as a catch-all, and it has that shape, unless it is
static text. -/
theorem cases_read (h : Whole s) :
    (∃ text, s = escape text ∧ Piece.read [] s = .literal text)
      ∨ (Shape.ofSegment (String.ofList s) = .param ∧ ∃ name, Piece.read [] s = .param [] name)
      ∨ (Shape.ofSegment (String.ofList s) = .rest ∧ ∃ name, Piece.read [] s = .rest [] name) := by
  cases h with
  | static text => exact Or.inl ⟨text, rfl, Piece.read_escape [] text⟩
  | @param name hname =>
      obtain ⟨d, cs, rfl⟩ := List.exists_cons_of_ne_nil hname.1
      obtain ⟨hbrace, -, hstar⟩ := hname.2 d List.mem_cons_self
      refine Or.inr (Or.inl ⟨?_, _, (Piece.read_braces hbrace).trans (if_neg hstar)⟩)
      rw [Shape.ofSegment, String.toList_ofList]
      split
      · next heq => exact absurd (List.cons.inj (List.cons.inj heq).2).1 hstar
      · rfl
      · next _ hnot => exact absurd rfl (hnot _)
  | @rest name hname =>
      have hbrace : ('*' : Char) ≠ '{' := by decide
      refine Or.inr (Or.inr ⟨?_, _, (Piece.read_braces hbrace).trans (if_pos rfl)⟩)
      rw [Shape.ofSegment, String.toList_ofList]
      rfl

/-- Whole segments that are read alike, but for the names of parameters, have the same shape. -/
theorem shape_eq (h : Whole s) (h' : Whole s')
    (hsame : (Piece.read [] s).nameless = (Piece.read [] s').nameless) :
    Shape.ofSegment (String.ofList s) = Shape.ofSegment (String.ofList s') := by
  rcases h.cases_read with ⟨text, rfl, hread⟩ | ⟨hshape, name, hread⟩ | ⟨hshape, name, hread⟩ <;>
    rcases h'.cases_read with ⟨text', rfl, hread'⟩ | ⟨hshape', name', hread'⟩ | ⟨hshape', name', hread'⟩ <;>
      rw [hread, hread'] at hsame
  · cases hsame
    rfl
  · cases hsame
  · cases hsame
  · cases hsame
  · rw [hshape, hshape']
  · cases hsame
  · cases hsame
  · cases hsame
  · rw [hshape, hshape']

end Whole

/-- Patterns of whole segments that are read alike, but for the names of parameters, have the same shape. -/
theorem IsWhole.routeShape_eq {pattern pattern' : String} (h : IsWhole pattern) (h' : IsWhole pattern')
    (hsame : (piecesOfPattern pattern).map Piece.nameless = (piecesOfPattern pattern').map Piece.nameless) :
    routeShape pattern = routeShape pattern' := by
  rw [piecesOfPattern, piecesOfPattern, List.map_map, List.map_map] at hsame
  rw [routeShape, routeShape, Text.pieces, Text.pieces, List.map_map, List.map_map]
  rw [IsWhole] at h h'
  generalize Text.splitOn '/' pattern.toList = segments at h hsame
  generalize Text.splitOn '/' pattern'.toList = segments' at h' hsame
  induction segments generalizing segments' with
  | nil =>
      rw [List.map_nil, eq_comm, List.map_eq_nil_iff] at hsame
      rw [hsame]
  | cons s segments ih =>
      cases segments' with
      | nil => cases hsame
      | cons s' segments' =>
          obtain ⟨hhead, htail⟩ := List.cons.inj hsame
          have hrest := ih (fun t ht => h t (List.mem_cons_of_mem s ht)) segments'
            (fun t ht => h' t (List.mem_cons_of_mem s' ht)) htail
          rw [List.map_cons, List.map_cons, hrest]
          exact congrArg (· :: _) ((h s List.mem_cons_self).shape_eq (h' s' List.mem_cons_self) hhead)

/-- A pattern of whole segments is read as static texts, parameters and catch-alls, without text before them. -/
theorem IsWhole.cases_of_mem {pattern : String} (h : IsWhole pattern) (hp : p ∈ piecesOfPattern pattern) :
    p.IsStatic ∨ (∃ name, p = .param [] name) ∨ ∃ name, p = .rest [] name := by
  obtain ⟨s, hs, rfl⟩ := List.mem_map.mp hp
  rcases (h s hs).cases_read with ⟨text, -, hread⟩ | ⟨-, name, hread⟩ | ⟨-, name, hread⟩
  · exact Or.inl ⟨text, hread⟩
  · exact Or.inr (Or.inl ⟨name, hread⟩)
  · exact Or.inr (Or.inr ⟨name, hread⟩)

/-- Patterns of whole segments that fork at a parameter against a catch-all are in each other's way. -/
theorem Fork.clash_of_whole {pattern pattern' : String} (h : IsWhole pattern) (h' : IsWhole pattern')
    (hfork : Fork (piecesOfPattern pattern) (piecesOfPattern pattern') p p')
    (hkinds : (p.IsParam ∧ p'.IsRest) ∨ (p.IsRest ∧ p'.IsParam)) :
    clash (piecesOfPattern pattern) (piecesOfPattern pattern') = true := by
  refine clash_iff.mpr (Or.inr ⟨p, p', hfork, ?_⟩)
  obtain ⟨hp, hp', -⟩ := hfork.mem
  -- there is no text before either of them
  rcases h.cases_of_mem hp with ⟨text, rfl⟩ | ⟨name, rfl⟩ | ⟨name, rfl⟩ <;>
    rcases h'.cases_of_mem hp' with ⟨text', rfl⟩ | ⟨name', rfl⟩ | ⟨name', rfl⟩ <;>
      simp only [Piece.IsParam, Piece.IsRest, reduceCtorEq, exists_const, and_false, false_and, or_false] at hkinds
  · exact .param_rest [] name name'
  · exact .rest_param [] name name'

/-- Patterns of whole segments fork at static text, or at a parameter against a catch-all. -/
theorem Fork.cases_of_whole {pattern pattern' : String} (h : IsWhole pattern) (h' : IsWhole pattern')
    (hfork : Fork (piecesOfPattern pattern) (piecesOfPattern pattern') p p') :
    (p.IsStatic ∨ p'.IsStatic) ∨ (p.IsParam ∧ p'.IsRest) ∨ (p.IsRest ∧ p'.IsParam) := by
  obtain ⟨hp, hp', hne⟩ := hfork.mem
  rcases h.cases_of_mem hp with hstatic | ⟨name, rfl⟩ | ⟨name, rfl⟩
  · exact Or.inl (Or.inl hstatic)
  · rcases h'.cases_of_mem hp' with hstatic | ⟨name', rfl⟩ | ⟨name', rfl⟩
    · exact Or.inl (Or.inr hstatic)
    · exact absurd rfl hne
    · exact Or.inr (Or.inl ⟨⟨[], name, rfl⟩, [], name', rfl⟩)
  · rcases h'.cases_of_mem hp' with hstatic | ⟨name', rfl⟩ | ⟨name', rfl⟩
    · exact Or.inl (Or.inr hstatic)
    · exact Or.inr (Or.inr ⟨⟨[], name, rfl⟩, [], name', rfl⟩)
    · exact absurd rfl hne

end Route

/-! ## The patterns of APIs -/

namespace Route

/-- Text without braces is written as it is. -/
theorem escape_eq_self {text : List Char} (hopen : '{' ∉ text) (hclose : '}' ∉ text) : escape text = text := by
  induction text with
  | nil => rfl
  | cons c text ih =>
      rw [List.mem_cons, not_or] at hopen hclose
      rw [escape, List.flatMap_cons, ← escape, if_neg (not_or.mpr ⟨Ne.symm hopen.1, Ne.symm hclose.1⟩),
        ih hopen.2 hclose.2, List.singleton_append]

theorem Whole.of_braceless {text : List Char} (hopen : '{' ∉ text) (hclose : '}' ∉ text) : Whole text := by
  rw [← escape_eq_self hopen hclose]
  exact .static text

theorem Whole.placeholder (s : Segment) : Whole (RoutePath.placeholder s).toList := by
  have hname : IsName s.idParam.toList := by
    refine ⟨by simp [Segment.idParam, idParam], fun c hc => ?_⟩
    have hchar := mem_idParam hc
    refine ⟨?_, ?_, ?_⟩ <;> rintro rfl <;> exact absurd hchar (by decide)
  rw [toList_placeholder]
  exact .param hname

end Route

namespace RoutePath

variable {path : RoutePath}

/-- A part of a base of a path. -/
def IsBasePart (path : RoutePath) (part : String) : Prop := ∃ s ∈ path.segments, part ∈ basePieces s.base

/-- The segments of a pattern of an API are parts of bases and placeholders, but for the empty one before the first
slash. -/
theorem cases_of_mem_pattern {leaf : Option Segment} {text : List Char}
    (h : text ∈ Text.splitOn '/' (path.pattern leaf).toList) :
    text = [] ∨ ∃ part, text = part.toList ∧ (path.IsBasePart part ∨ ∃ s, part = placeholder s) := by
  have hids : ∀ id ∈ path.idAncestors.map placeholder, ∃ s, id = placeholder s := by
    intro id hid
    obtain ⟨s, -, rfl⟩ := List.mem_map.mp hid
    exact ⟨s, rfl⟩
  have hleaf : ∀ id ∈ leaf.map placeholder, ∃ s, id = placeholder s := by
    intro id hid
    obtain ⟨s, -, rfl⟩ := Option.map_eq_some_iff.mp hid
    exact ⟨s, rfl⟩
  have hpart {id : String} (hid : ∃ s, id = placeholder s) : IsPart id := by
    obtain ⟨s, rfl⟩ := hid
    have hcut := Cuttable.placeholder s
    exact ⟨hcut.noSlash _ List.mem_cons_self, hcut.last _ rfl⟩
  have hcut : Cuttable (piecesOf path.segments (path.idAncestors.map placeholder) (leaf.map placeholder)) :=
    cuttable_piecesOf (fun id hid => hpart (hids id hid)) fun id hid => hpart (hleaf id hid)
  have hparts : ∀ part ∈ piecesOf path.segments (path.idAncestors.map placeholder) (leaf.map placeholder),
      path.IsBasePart part ∨ ∃ s, part = placeholder s :=
    forall_piecesOf (fun s hs part hpart => Or.inl ⟨s, hs, hpart⟩) (fun id hid => Or.inr (hids id hid))
      fun id hid => Or.inr (hleaf id hid)
  rw [pattern_eq, absolutePath_eq, Text.splitOn_cons_sep, splitOn_parts hcut] at h
  rcases List.mem_cons.mp h with rfl | h
  · exact Or.inl rfl
  · split at h
    · exact Or.inl (List.mem_singleton.mp h)
    · obtain ⟨part, hpart, rfl⟩ := List.mem_map.mp h
      exact Or.inr ⟨part, rfl, hparts part hpart⟩

/-- **The patterns of an API consist of whole segments** if its bases have no braces. -/
theorem isWhole_pattern (hbases : ∀ s ∈ path.segments, IsBraceless s.base) (leaf : Option Segment) :
    Route.IsWhole (path.pattern leaf) := by
  intro text htext
  rcases cases_of_mem_pattern htext with rfl | ⟨part, rfl, ⟨s, hs, hpart⟩ | ⟨s, rfl⟩⟩
  · exact .of_braceless List.not_mem_nil List.not_mem_nil
  · obtain ⟨hopen, hclose⟩ := hbases s hs part hpart
    exact .of_braceless hopen hclose
  · exact .placeholder s

end RoutePath

/-! ## The routes of a tree -/

variable {R : Type}

/-- What a route matches, with the names of parameters forgotten. -/
def Route.shape (route : Route R) : List Shape := routeShape route.pattern

/-- The routes of a tree, whether or not the matcher takes them. -/
def Node.routes (n : Node R) : List (Route R) := n.sites.map (Site.route .root)

/-- A path matches the pattern of a route. -/
def Route.MatchedBy (r : Route R) (path : String) : Prop :=
  ∃ taken, Route.Matches (Route.piecesOfPattern r.pattern) (Text.splitOn '/' path.toList) taken

/-- **Two routes overlap**: their patterns are different, and both match this path. -/
structure Route.Overlap (routes : List (Route R)) (path : String) (r r' : Route R) : Prop where
  left : r ∈ routes
  right : r' ∈ routes
  ne : r.pattern ≠ r'.pattern
  matchedLeft : r.MatchedBy path
  matchedRight : r'.MatchedBy path

/-- Of two routes each one overlaps with the other. -/
theorem Route.Overlap.pair {r r' : Route R} {path : String} (hne : r.pattern ≠ r'.pattern) (h : r.MatchedBy path)
    (h' : r'.MatchedBy path) : Route.Overlap [r, r'] path r r' :=
  ⟨List.mem_cons_self, List.mem_cons_of_mem r List.mem_cons_self, hne, h, h'⟩

/-- The routes of a tree with a router are not in each other's way. -/
theorem Node.clash_eq_false {n : Node R} (h : n.router.isOk = true) {r r' : Route R} (hr : r ∈ n.routes)
    (hr' : r' ∈ n.routes) (hne : r.pattern ≠ r'.pattern) :
    Route.clash (Route.piecesOfPattern r.pattern) (Route.piecesOfPattern r'.pattern) = false := by
  have hmem {r : Route R} (hr : r ∈ n.routes) : r.pattern ∈ n.patterns := by
    obtain ⟨site, hsite, rfl⟩ := List.mem_map.mp hr
    exact (patterns_sites .root n).mem_iff.mp (List.mem_map_of_mem hsite)
  exact (wellFormed_of_isOk h).2.clash_eq_false (hmem hr) (hmem hr') hne

/-- **Where the routes of a tree overlap.** Two routes of whole segments that match the same path differ even with the
names of parameters forgotten, if every pattern of the tree can be claimed. They fork at static text, and then the path
does not go to the other one, or they fork at a parameter against a catch-all, and then the tree has no router. -/
theorem Node.overlaps_fork {n : Node R} (hwell : n.WellFormed) {path : String} {r r' : Route R}
    (h : Route.Overlap n.routes path r r') (hwhole : Route.IsWhole r.pattern) (hwhole' : Route.IsWhole r'.pattern) :
    r.shape ≠ r'.shape
      ∧ ∃ p p', Route.Fork (Route.piecesOfPattern r.pattern) (Route.piecesOfPattern r'.pattern) p p'
        ∧ ((p.IsStatic ∨ p'.IsStatic) ∨ (p.IsParam ∧ p'.IsRest) ∨ (p.IsRest ∧ p'.IsParam))
        ∧ (n.router.isOk = true → p.IsStatic ∨ p'.IsStatic)
        ∧ ∀ served texts, Route.lookup (n.routes.map fun route => (route.pattern, route)) path = some (served, texts) →
          (p.IsStatic → served ≠ r') ∧ (p'.IsStatic → served ≠ r) := by
  obtain ⟨taken, hmatch⟩ := h.matchedLeft
  obtain ⟨taken', hmatch'⟩ := h.matchedRight
  have hnodup : (n.routes.map Route.shape).Nodup := by
    have hshapes := hwell.nodup_shapes
    rw [Site.patterns, List.map_map] at hshapes
    rwa [routes, List.map_map]
  -- no two routes of a tree have the same shape, and whole segments of different shapes are read differently
  have hshape : r.shape ≠ r'.shape := fun heq =>
    h.ne (congrArg Route.pattern (List.inj_on_of_nodup_map hnodup h.left h.right heq))
  have hdiffer : (Route.piecesOfPattern r.pattern).map Route.Piece.nameless
      ≠ (Route.piecesOfPattern r'.pattern).map Route.Piece.nameless := fun heq =>
    hshape (hwhole.routeShape_eq hwhole' heq)
  obtain ⟨p, p', hfork⟩ := hmatch.fork hmatch' hdiffer
  refine ⟨hshape, p, p', hfork, hfork.cases_of_whole hwhole hwhole', fun hok => ?_, fun served texts hlookup => ?_⟩
  · rcases hfork.cases_of_whole hwhole hwhole' with hstatic | hkinds
    · exact hstatic
    · have hclash := clash_eq_false hok h.left h.right h.ne
      rw [hfork.clash_of_whole hwhole hwhole' hkinds] at hclash
      cases hclash
  · obtain ⟨pattern, hmem, hfirst⟩ := Route.lookup_prefers hlookup
    obtain ⟨route, -, heq⟩ := List.mem_map.mp hmem
    cases heq
    constructor
    · rintro hstatic rfl
      exact hfirst _ (List.mem_map.mpr ⟨r, h.left, rfl⟩) taken hmatch p' p hfork.symm hstatic
    · rintro hstatic rfl
      exact hfirst _ (List.mem_map.mpr ⟨r', h.right, rfl⟩) taken' hmatch' p p' hfork hstatic

/-! ## Pages -/

namespace Pages

/-- The route of a page. -/
def route (pattern : String) : Route Unit := ⟨pattern, [], [(.get, .custom ["pages"] shown)]⟩

theorem isWhole_index : Route.IsWhole "/files/index" := by
  have hsegments : Text.splitOn '/' "/files/index".toList
      = [Route.escape [], Route.escape "files".toList, Route.escape "index".toList] := by decide
  rw [Route.IsWhole, hsegments]
  simp only [List.forall_mem_cons, Route.Whole.static, List.not_mem_nil, false_implies, implies_true, and_self]

theorem isWhole_name : Route.IsWhole "/files/{name}" := by
  have hsegments : Text.splitOn '/' "/files/{name}".toList
      = [Route.escape [], Route.escape "files".toList, '{' :: "name".toList ++ ['}']] := by decide
  have hname : Route.Whole ('{' :: "name".toList ++ ['}']) := .param (by decide)
  rw [Route.IsWhole, hsegments]
  simp only [List.forall_mem_cons, Route.Whole.static, hname, List.not_mem_nil, false_implies, implies_true, and_self]

/-- Both pages among files have this path. -/
theorem overlap_files :
    Route.Overlap (tree ["files/index", "files/{name}"]).routes "/files/index" (route "/files/index")
      (route "/files/{name}") :=
  .pair (by decide) ⟨_, .literal [] (.literal _ (.literal _ .nil))⟩
    ⟨_, .literal [] (.literal _ (.param [] "name" (by decide) .nil))⟩

end Pages

open Pages in
/-- The page `index` among files that are found by their name. -/
theorem Node.overlaps_fork_files :
    (tree ["files/index", "files/{name}"]).WellFormed
      ∧ ∃ p p', Route.Fork (Route.piecesOfPattern "/files/index") (Route.piecesOfPattern "/files/{name}") p p'
        ∧ (p.IsStatic ∨ p'.IsStatic)
        ∧ ∀ served texts,
          Route.lookup [("/files/index", route "/files/index"), ("/files/{name}", route "/files/{name}")] "/files/index"
            = some (served, texts) → p.IsStatic → served ≠ route "/files/{name}" := by
  have hwell : (tree ["files/index", "files/{name}"]).WellFormed := wellFormed_of_runAll rfl
  obtain ⟨-, p, p', hfork, -, hstatic, hserved⟩ :=
    Node.overlaps_fork hwell overlap_files isWhole_index isWhole_name
  exact ⟨hwell, p, p', hfork, hstatic rfl, fun served texts hlookup => (hserved served texts hlookup).1⟩

open Pages in
/-- **Overlaps that are not reported.** Pages of users whose patterns differ only in the name of the parameter, and
files of which the one takes a name and the other a path: all patterns are claimed, and the matcher gives up. Where one
parameter stands behind more text than the other one there is a router, although both match a path. -/
theorem Node.overlaps_unreported :
    ((tree ["user_{name}", "user_{nick}"]).WellFormed
      ∧ (tree ["user_{name}", "user_{nick}"]).router = .error .panicked
      ∧ Route.Overlap (tree ["user_{name}", "user_{nick}"]).routes "/user_bob" (route "/user_{name}")
        (route "/user_{nick}")
      ∧ (Route.piecesOfPattern "/user_{name}").map Route.Piece.nameless
        = (Route.piecesOfPattern "/user_{nick}").map Route.Piece.nameless)
      ∧ ((tree ["files/{name}", "files/{*path}"]).WellFormed
        ∧ (tree ["files/{name}", "files/{*path}"]).router = .error .panicked
        ∧ Route.Overlap (tree ["files/{name}", "files/{*path}"]).routes "/files/a" (route "/files/{name}")
          (route "/files/{*path}")
        ∧ Route.Fork (Route.piecesOfPattern "/files/{name}") (Route.piecesOfPattern "/files/{*path}")
          (.param [] "name") (.rest [] "path"))
      ∧ ((tree ["user_{name}", "user_b{nick}"]).router.isOk = true
        ∧ Route.Overlap (tree ["user_{name}", "user_b{nick}"]).routes "/user_bob" (route "/user_{name}")
          (route "/user_b{nick}")
        ∧ Route.Fork (Route.piecesOfPattern "/user_{name}") (Route.piecesOfPattern "/user_b{nick}")
          (.param "user_".toList "name") (.param "user_b".toList "nick")) := by
  have huser : (route "/user_{name}").MatchedBy "/user_bob" :=
    ⟨_, .literal [] (.param "user_".toList "name" (by decide : "bob".toList ≠ []) .nil)⟩
  refine ⟨⟨wellFormed_of_runAll rfl, rfl, .pair (by decide) huser ?_, by decide⟩,
    ⟨wellFormed_of_runAll rfl, rfl, .pair (by decide) ?_ ?_, .there rfl (.there rfl (.here [] [] (by decide)))⟩,
    rfl, .pair (by decide) huser ?_, .there rfl (.here [] [] (by decide))⟩
  · exact ⟨_, .literal [] (.param "user_".toList "nick" (by decide : "bob".toList ≠ []) .nil)⟩
  · exact ⟨_, .literal [] (.literal _ (.param [] "name" (by decide : "a".toList ≠ []) .nil))⟩
  · exact ⟨_, .literal [] (.literal _ (.rest [] "path" "a".toList [] (by decide)))⟩
  · exact ⟨_, .literal [] (.param "user_b".toList "nick" (by decide : "ob".toList ≠ []) .nil)⟩

end ResourceTree
