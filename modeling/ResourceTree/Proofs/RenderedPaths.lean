import ResourceTree.Proofs.AncestorIds
import ResourceTree.Proofs.PercentCodes

/-! # Rendered paths and the routes that they match

The path that a client renders and the pattern of the route are made from the same segments. So the path matches the
pattern, and each parameter takes the encoded ID that was rendered at its place (`RoutePath.matches_render`). A route
that a path matches is found (`Route.search_complete`), and if no other one matches it too, it is the one found
(`Route.lookup_of_only`). The two patterns of the same resources do not compete: no path matches both of them
(`RoutePath.not_matches_both`). -/

namespace ResourceTree

namespace Route

variable {α : Type} {candidates : List (Candidate α)} {c : Candidate α} {pieces : List Piece}
  {segments : List (List Char)} {taken taken' : List (String × List Char)}

/-! ## Searching is complete -/

theorem isSome_search_of_mem {cs : List (Candidate α)} (hc : c ∈ cs)
    (h : (search cs segments).isSome = true) :
    (if cs.isEmpty then none else search cs segments).isSome = true := by
  rw [if_neg (by rw [List.isEmpty_iff]; exact List.ne_nil_of_mem hc)]
  exact h

/-- **Whatever matches is found**, or something else that matches: by induction on the segments. -/
theorem search_complete (hc : c ∈ candidates) (h : Matches c.pieces segments taken) :
    (search candidates segments).isSome = true := by
  induction segments generalizing candidates c taken with
  | nil =>
      have hpieces : c.pieces.isEmpty = true := by
        cases hp : c.pieces with
        | nil => rfl
        | cons piece pieces =>
            rw [hp] at h
            cases h
      exact List.find?_isSome.mpr ⟨c, hc, hpieces⟩
  | cons segment segments ih =>
      have hsplits (lead last : List Char) :
          lead.length ∈ (List.range ((lead ++ last).length + 1)).reverse := by
        rw [List.mem_reverse, List.mem_range, List.length_append]
        omega
      obtain ⟨pieces, params, value⟩ := c
      rw [search]
      simp only [Option.orElse_eq_or, Option.isSome_or, Bool.or_eq_true]
      generalize hs : segment :: segments = all at h
      cases h with
      | nil => cases hs
      | @literal pieces _ taken text h =>
          cases hs
          have hmem : (⟨pieces, params, value⟩ : Candidate α)
              ∈ candidates.filterMap (Candidate.literal? segment) :=
            List.mem_filterMap.mpr ⟨_, hc, Candidate.literal?_eq_some.mpr ⟨rfl, rfl, rfl⟩⟩
          exact Or.inl (isSome_search_of_mem hmem (ih hmem h))
      | @param pieces _ taken lead name text hv h =>
          cases hs
          refine Or.inr (List.findSome?_isSome_iff.mpr ⟨lead.length, hsplits lead text, ?_⟩)
          have hmem : (⟨pieces, params ++ [(name, text)], value⟩ : Candidate α)
              ∈ candidates.filterMap (Candidate.param? lead text) :=
            List.mem_filterMap.mpr ⟨_, hc, Candidate.param?_eq_some.mpr ⟨hv, name, rfl, rfl, rfl⟩⟩
          simp only [List.take_left, List.drop_left, Option.isSome_or, Bool.or_eq_true]
          exact Or.inl (isSome_search_of_mem hmem (ih hmem h))
      | rest lead name last _ hv =>
          cases hs
          refine Or.inr (List.findSome?_isSome_iff.mpr ⟨lead.length, hsplits lead last, ?_⟩)
          have hmem : (⟨[], params ++ [(name, Text.joinWith '/' (last :: segments))], value⟩ : Candidate α)
              ∈ candidates.filterMap (Candidate.rest? lead (Text.joinWith '/' (last :: segments))) :=
            List.mem_filterMap.mpr ⟨_, hc, Candidate.rest?_eq_some.mpr ⟨hv, rfl, name, rfl, rfl, rfl⟩⟩
          simp only [List.take_left, List.drop_left, Option.isSome_or, Bool.or_eq_true]
          exact Or.inr (List.isSome_head?.mpr (List.ne_nil_of_mem hmem))

/-- What the parameters take is determined. -/
theorem Matches.unique (h : Matches pieces segments taken) (h' : Matches pieces segments taken') :
    taken = taken' := by
  induction h generalizing taken' with
  | nil =>
      cases h'
      rfl
  | literal text h ih =>
      cases h' with
      | literal _ h' => exact ih h'
  | @param pieces segments taken lead name value hv h ih =>
      generalize hs : (lead ++ value) :: segments = all at h'
      cases h' with
      | param _ _ hv' h' =>
          obtain ⟨hsegment, rfl⟩ := List.cons.inj hs
          rw [List.append_cancel_left hsegment, ih h']
  | rest lead name segment segments hv =>
      generalize hs : (lead ++ segment) :: segments = all at h'
      cases h' with
      | rest _ _ segment' segments' hv' =>
          obtain ⟨hsegment, rfl⟩ := List.cons.inj hs
          rw [List.append_cancel_left hsegment]

/-- A catch-all, which may take more than one segment. -/
def Piece.IsRest (piece : Piece) : Prop := ∃ lead name, piece = .rest lead name

/-- Without catch-alls pieces match as many segments as they are: no further piece matches the same segments. -/
theorem Matches.nothing_more {more : List Piece} (h : Matches pieces segments taken)
    (hrest : ∀ piece ∈ pieces, ¬piece.IsRest) (h' : Matches (pieces ++ more) segments taken') : more = [] := by
  induction h generalizing taken' with
  | nil =>
      generalize hs : ([] : List (List Char)) = segments at h'
      cases h' with
      | nil => rfl
      | _ => cases hs
  | literal text h ih =>
      cases h' with
      | literal _ h' => exact ih (fun piece hpiece => hrest piece (List.mem_cons_of_mem _ hpiece)) h'
  | @param pieces segments taken lead name value hv h ih =>
      generalize hs : (lead ++ value) :: segments = all at h'
      cases h' with
      | param _ _ hv' h' =>
          obtain ⟨-, rfl⟩ := List.cons.inj hs
          exact ih (fun piece hpiece => hrest piece (List.mem_cons_of_mem _ hpiece)) h'
  | rest lead name => exact absurd ⟨lead, name, rfl⟩ (hrest _ List.mem_cons_self)

/-- **A route that no other one competes with is found**: the path matches its pattern, and of all patterns only this
one. -/
theorem lookup_of_only {patterns : List (String × α)} {path pattern : String} {value : α}
    (hmem : (pattern, value) ∈ patterns)
    (hmatch : Matches (piecesOfPattern pattern) (Text.splitOn '/' path.toList) taken)
    (honly : ∀ entry ∈ patterns, ∀ texts,
      Matches (piecesOfPattern entry.1) (Text.splitOn '/' path.toList) texts → entry = (pattern, value)) :
    lookup patterns path = some (value, taken.map fun param => (param.1, String.ofList param.2)) := by
  have hfound : (lookup patterns path).isSome = true := by
    have hcandidate : (⟨piecesOfPattern pattern, [], value⟩ : Candidate α)
        ∈ patterns.map fun entry => ⟨piecesOfPattern entry.1, [], entry.2⟩ :=
      List.mem_map.mpr ⟨(pattern, value), hmem, rfl⟩
    rw [lookup, Option.isSome_map]
    exact search_complete hcandidate hmatch
  obtain ⟨⟨value', taken'⟩, hlookup⟩ := Option.isSome_iff_exists.mp hfound
  obtain ⟨pattern', hmem', texts, hmatch', rfl⟩ := lookup_sound hlookup
  cases honly _ hmem' texts hmatch'
  rw [hlookup, hmatch.unique hmatch']

/-! ## Literal segments -/

/-- A text without braces is read as it is. -/
theorem Piece.read_of_braceless (lead : List Char) {cs : List Char} (hopen : '{' ∉ cs) (hclose : '}' ∉ cs) :
    Piece.read lead cs = .literal (lead.reverse ++ cs) := by
  induction cs generalizing lead with
  | nil => rw [Piece.read, List.append_nil]
  | cons c cs ih =>
      rw [List.mem_cons, not_or] at hopen hclose
      cases cs with
      | nil => rw [Piece.read, List.reverse_cons]
      | cons d cs =>
          have hescape : ¬((c = '{' ∧ d = '{') ∨ (c = '}' ∧ d = '}')) := by
            rintro (⟨hc, -⟩ | ⟨hc, -⟩)
            · exact hopen.1 hc.symm
            · exact hclose.1 hc.symm
          rw [Piece.read, if_neg hescape, if_neg (Ne.symm hopen.1), ih (c :: lead) hopen.2 hclose.2,
            List.reverse_cons, List.append_assoc, List.singleton_append]

/-- Parts without braces match themselves. -/
theorem matches_literals {parts : List String} (hparts : ∀ part ∈ parts, '{' ∉ part.toList ∧ '}' ∉ part.toList)
    (h : Matches pieces segments taken) :
    Matches (parts.map (fun part => Piece.read [] part.toList) ++ pieces) (parts.map String.toList ++ segments)
      taken := by
  induction parts with
  | nil => exact h
  | cons part parts ih =>
      obtain ⟨hopen, hclose⟩ := hparts part List.mem_cons_self
      rw [List.map_cons, Piece.read_of_braceless [] hopen hclose]
      exact .literal part.toList (ih fun p hp => hparts p (List.mem_cons_of_mem part hp))

/-- A path and a pattern match if their parts do. -/
theorem matches_absolutePath {pattern parts : List String} (hpattern : Cuttable pattern) (hparts : Cuttable parts)
    (h : Matches (pattern.map fun part => Piece.read [] part.toList) (parts.map String.toList) taken) :
    Matches (piecesOfPattern (absolutePath pattern)) (Text.splitOn '/' (absolutePath parts).toList) taken := by
  by_cases hp : parts = []
  · -- both are the path of the server itself
    subst hp
    generalize hs : List.map (fun part => Piece.read [] part.toList) pattern = pieces at h
    cases h
    obtain rfl := List.map_eq_nil_iff.mp hs
    exact .literal [] (.literal [] .nil)
  · have hne : pattern ≠ [] := by
      rintro rfl
      generalize hs : List.map String.toList parts = segments at h
      cases h
      exact hp (List.map_eq_nil_iff.mp hs)
    rw [piecesOfPattern, splitOn_absolutePath hne hpattern, splitOn_absolutePath hp hparts, List.map_cons,
      List.map_map]
    exact .literal [] h

end Route

/-! ## Rendered segments -/

/-- A base of unreserved characters without dot segments. -/
def IsPlainBase (base : String) : Prop :=
  ∀ part ∈ basePieces base, part ≠ "." ∧ part ≠ ".." ∧ ∀ c ∈ part.toList, Percent.isUnreservedChar c = true

instance (base : String) : Decidable (IsPlainBase base) :=
  decidable_of_iff ((basePieces base).all fun part =>
      part != "." && part != ".." && part.toList.all Percent.isUnreservedChar)
    (by simp [IsPlainBase, and_assoc])

/-- A base whose parts have no braces, which would be read as parameters. -/
def IsBraceless (base : String) : Prop := ∀ part ∈ basePieces base, '{' ∉ part.toList ∧ '}' ∉ part.toList

/-- A plain base has no braces. -/
theorem IsPlainBase.braceless {base : String} (h : IsPlainBase base) : IsBraceless base := by
  intro part hpart
  have hchars := (h part hpart).2.2
  exact ⟨fun hmem => absurd (hchars _ hmem) (by decide), fun hmem => absurd (hchars _ hmem) (by decide)⟩

/-- The parts of a base without braces are no catch-alls. -/
theorem IsBraceless.not_isRest {base : String} (h : IsBraceless base) :
    ∀ part ∈ basePieces base, ¬(Route.Piece.read [] part.toList).IsRest := by
  rintro part hpart ⟨lead, name, heq⟩
  obtain ⟨hopen, hclose⟩ := h part hpart
  rw [Route.Piece.read_of_braceless [] hopen hclose] at heq
  cases heq

namespace RoutePath

variable {above : List Segment} {last : Segment} {ids : List String} {leaf : Option String}

/-- No part of a pattern of bases without braces is a catch-all. -/
theorem not_isRest {segments : List Segment} (hbases : ∀ s ∈ segments, IsBraceless s.base) {part : String}
    (hpart : part ∈ segments.flatMap Segment.parts) : ¬(Route.Piece.read [] part.toList).IsRest := by
  obtain ⟨s, hs, hpart⟩ := List.mem_flatMap.mp hpart
  rcases List.mem_append.mp hpart with hpart | hpart
  · exact (hbases s hs).not_isRest part hpart
  · split at hpart
    · rintro ⟨lead, name, heq⟩
      rw [List.mem_singleton.mp hpart, read_placeholder] at heq
      cases heq
    · cases hpart

/-- **The pattern of a collection and that of one resource** have no path in common. -/
theorem not_matches_both {path : RoutePath} (hpath : path.segments = above ++ [last])
    (hbases : ∀ s ∈ path.segments, IsBraceless s.base) {segments : List (List Char)}
    {taken taken' : List (String × List Char)}
    (h : Route.Matches (Route.piecesOfPattern path.collectionPattern) segments taken)
    (h' : Route.Matches (Route.piecesOfPattern path.itemPattern) segments taken') : False := by
  have hlast := hbases last (hpath ▸ List.mem_append_right above List.mem_cons_self)
  have hparts : Cuttable (above.flatMap Segment.parts ++ basePieces last.base) :=
    (Cuttable.flatMap fun s _ => Cuttable.segment s).append (Cuttable.basePieces last.base)
  rw [collectionPattern_eq hpath] at h
  rw [itemPattern_eq hpath, ← List.append_assoc, Route.piecesOfPattern,
    splitOn_absolutePath (by simp) (hparts.append (Cuttable.placeholder last))] at h'
  by_cases hne : above.flatMap Segment.parts ++ basePieces last.base = []
  · -- the pattern of the server itself, whose second segment is empty
    rw [hne] at h h'
    rw [List.nil_append, List.map_singleton, List.map_cons, List.map_singleton, read_placeholder] at h'
    have hroot : Route.piecesOfPattern (absolutePath []) = [.literal [], .literal []] := by decide
    rw [hroot] at h
    cases h with
    | literal _ h =>
        cases h with
        | literal _ h =>
            cases h
            cases h' with
            | literal _ h' =>
                generalize hs : [[]] = segments at h'
                cases h' with
                | param _ _ hv h' => exact hv (List.append_eq_nil_iff.mp (List.cons.inj hs).1.symm).2
  · rw [Route.piecesOfPattern, splitOn_absolutePath hne hparts] at h
    rw [List.map_append, ← List.cons_append, List.map_append] at h'
    have hmore := h.nothing_more (fun piece hpiece => ?_) h'
    · cases hmore
    · rw [List.map_cons, List.map_map] at hpiece
      rcases List.mem_cons.mp hpiece with rfl | hpiece
      · rintro ⟨lead, name, heq⟩
        cases heq
      · obtain ⟨part, hpart, rfl⟩ := List.mem_map.mp hpiece
        rcases List.mem_append.mp hpart with hpart | hpart
        · exact not_isRest (fun s hs => hbases s (hpath ▸ List.mem_append_left _ hs)) hpart
        · exact hlast.not_isRest part hpart

/-- **Rendered segments match those of the pattern**, by induction on the segments above the last one. -/
theorem matches_piecesOf (hbases : ∀ s ∈ above ++ [last], IsBraceless s.base)
    (hlength : ids.length = (above.filter Segment.takesId).length) (hids : ∀ id ∈ ids, id ≠ "")
    {end' : List String} {taken : List (String × List Char)}
    (hend : Route.Matches (end'.map fun part => Route.Piece.read [] part.toList) (leaf.toList.map String.toList)
      taken) :
    Route.Matches
      ((above.flatMap Segment.parts ++ (basePieces last.base ++ end')).map fun part =>
        Route.Piece.read [] part.toList)
      ((piecesOf (above ++ [last]) ids leaf).map String.toList)
      (((above.filter Segment.takesId).map Segment.idParam).zip (ids.map String.toList) ++ taken) := by
  induction above generalizing ids with
  | nil =>
      obtain rfl := List.length_eq_zero_iff.mp hlength
      have hbase := hbases last List.mem_cons_self
      simpa [piecesOf] using Route.matches_literals hbase hend
  | cons s above ih =>
      have hbase := hbases s List.mem_cons_self
      have hbelow := fun s' hs' => hbases s' (List.mem_cons_of_mem s hs')
      obtain ⟨next, rest, hrest⟩ := List.exists_cons_of_ne_nil (List.append_ne_nil_of_right_ne_nil above
        (List.cons_ne_nil last []))
      cases hid : s.takesId with
      | true =>
          rw [List.filter_cons_of_pos hid] at hlength ⊢
          obtain ⟨id, ids, rfl⟩ := List.exists_cons_of_length_eq_add_one hlength
          have hinner := ih hbelow (Nat.succ.inj hlength) fun id' hid' => hids id' (List.mem_cons_of_mem id hid')
          have hpieces : piecesOf ((s :: above) ++ [last]) (id :: ids) leaf
              = basePieces s.base ++ id :: piecesOf (above ++ [last]) ids leaf := by
            rw [List.cons_append, hrest, piecesOf]
            simp [hid]
          have hne : id.toList ≠ [] := fun hnil => hids id List.mem_cons_self (String.toList_eq_nil_iff.mp hnil)
          rw [hpieces, List.flatMap_cons, Segment.parts, if_pos hid]
          simp only [List.map_append, List.map_cons, List.map_nil, List.append_assoc, read_placeholder,
            List.zip_cons_cons, List.cons_append] at hinner ⊢
          exact Route.matches_literals hbase (.param [] s.idParam hne hinner)
      | false =>
          rw [List.filter_cons_of_neg (by simp [hid])] at hlength ⊢
          have hinner := ih hbelow hlength hids
          have hpieces : piecesOf ((s :: above) ++ [last]) ids leaf
              = basePieces s.base ++ piecesOf (above ++ [last]) ids leaf := by
            rw [List.cons_append, hrest, piecesOf]
            simp [hid]
          rw [hpieces, List.flatMap_cons, Segment.parts, if_neg (by simp [hid])]
          simp only [List.map_append, List.append_assoc, List.append_nil] at hinner ⊢
          exact Route.matches_literals hbase hinner

/-- An ID as it may stand in a path: it is not empty and has no slash. -/
def IsPart (id : String) : Prop := '/' ∉ id.toList ∧ id ≠ ""

theorem cuttable_part {id : String} (h : IsPart id) : Cuttable [id] where
  noSlash part hpart := by
    rw [List.mem_singleton.mp hpart]
    exact h.1
  last part hpart := by
    rw [List.getLast?_singleton] at hpart
    rw [← Option.some.inj hpart]
    exact h.2

/-- Rendered segments survive being joined and cut again, by induction on the segments. -/
theorem cuttable_piecesOf {segments : List Segment} (hids : ∀ id ∈ ids, IsPart id)
    (hleaf : ∀ id ∈ leaf, IsPart id) : Cuttable (piecesOf segments ids leaf) := by
  induction segments generalizing ids with
  | nil => exact .nil
  | cons s segments ih =>
      have hbase := Cuttable.basePieces s.base
      cases segments with
      | nil =>
          rw [piecesOf]
          cases leaf with
          | none => exact hbase.append .nil
          | some id => exact hbase.append (cuttable_part (hleaf id rfl))
      | cons next rest =>
          unfold piecesOf
          split
          · next id ids _ =>
              refine hbase.append ?_
              rw [← List.singleton_append]
              exact (cuttable_part (hids id List.mem_cons_self)).append
                (ih fun id' hid' => hids id' (List.mem_cons_of_mem id hid'))
          · exact hbase.append (ih hids)

/-- Whatever holds of the parts of all bases and of the given parts holds of all parts, by induction on the
segments. -/
theorem forall_piecesOf {P : String → Prop} {segments : List Segment}
    (hbases : ∀ s ∈ segments, ∀ part ∈ basePieces s.base, P part) (hids : ∀ id ∈ ids, P id)
    (hleaf : ∀ id ∈ leaf, P id) : ∀ part ∈ piecesOf segments ids leaf, P part := by
  induction segments generalizing ids with
  | nil => exact fun part hpart => by cases hpart
  | cons s segments ih =>
      have hs := hbases s List.mem_cons_self
      have hrest := fun s' hs' => hbases s' (List.mem_cons_of_mem s hs')
      intro part hpart
      cases segments with
      | nil =>
          rw [piecesOf] at hpart
          rcases List.mem_append.mp hpart with hpart | hpart
          · exact hs part hpart
          · exact hleaf part (Option.mem_toList.mp hpart)
      | cons next rest =>
          unfold piecesOf at hpart
          split at hpart
          · next id ids _ =>
              rcases List.mem_append.mp hpart with hpart | hpart
              · exact hs part hpart
              · rcases List.mem_cons.mp hpart with rfl | hpart
                · exact hids _ List.mem_cons_self
                · exact ih hrest (fun id' hid' => hids id' (List.mem_cons_of_mem id hid')) part hpart
          · rcases List.mem_append.mp hpart with hpart | hpart
            · exact hs part hpart
            · exact ih hrest hids part hpart

/-- The segments whose IDs stand in the path of a collection, or in that of a resource of it. -/
def addressed (path : RoutePath) (leaf : Option Segment) : List Segment := path.idAncestors ++ leaf.toList

/-- The parts of the path with the given IDs. -/
def renderedParts (path : RoutePath) (parents : List String) (id : Option String) : List String :=
  piecesOf path.segments (parents.map Percent.encode) (id.map Percent.encode)

/-- The right number of IDs is rendered. -/
theorem render_eq {path : RoutePath} {parents : List String} (h : parents.length = path.idAncestors.length)
    (id : Option String) : path.render parents id = .ok (absolutePath (path.renderedParts parents id)) := by
  rw [render, pieces, List.length_map, if_pos h]
  rfl

/-- Whatever holds of the parts of all bases and of all encoded IDs holds of all parts of a path. -/
theorem forall_renderedParts {P : String → Prop} {path : RoutePath} {parents : List String} {id : Option String}
    (hbases : ∀ s ∈ path.segments, ∀ part ∈ basePieces s.base, P part)
    (hids : ∀ i ∈ parents ++ id.toList, P (Percent.encode i)) :
    ∀ part ∈ path.renderedParts parents id, P part := by
  refine forall_piecesOf hbases (fun part hmem => ?_) fun part hmem => ?_
  · obtain ⟨i, hi, rfl⟩ := List.mem_map.mp hmem
    exact hids i (List.mem_append_left _ hi)
  · obtain ⟨i, hi, rfl⟩ := Option.map_eq_some_iff.mp hmem
    exact hids i (List.mem_append_right _ (Option.mem_toList.mpr hi))

/-- Encoded IDs may stand in a path. -/
theorem isPart_encode {id : String} (h : id ≠ "") : IsPart (Percent.encode id) :=
  ⟨fun hslash => absurd (Percent.mem_encode hslash) (by decide), Percent.encode_ne_empty h⟩

/-- The parts of a rendered path survive being joined and cut again. -/
theorem cuttable_renderedParts (path : RoutePath) {parents : List String} {id : Option String}
    (hids : ∀ i ∈ parents ++ id.toList, i ≠ "") : Cuttable (path.renderedParts parents id) := by
  refine cuttable_piecesOf (fun part hmem => ?_) fun part hmem => ?_
  · obtain ⟨i, hi, rfl⟩ := List.mem_map.mp hmem
    exact isPart_encode (hids i (List.mem_append_left _ hi))
  · obtain ⟨i, hi, rfl⟩ := Option.map_eq_some_iff.mp hmem
    exact isPart_encode (hids i (List.mem_append_right _ (Option.mem_toList.mpr hi)))

/-- **The rendered path matches the pattern**, and the parameter of every segment takes the encoded ID that was given
for it. -/
theorem matches_render {path : RoutePath} (hpath : path.segments = above ++ [last])
    (hbases : ∀ s ∈ path.segments, IsBraceless s.base) {parents : List String} {id : Option String}
    (hlength : parents.length = path.idAncestors.length) (hids : ∀ i ∈ parents ++ id.toList, i ≠ "") :
    Route.Matches (Route.piecesOfPattern (path.pattern (id.map fun _ => last)))
      (Text.splitOn '/' (absolutePath (path.renderedParts parents id)).toList)
      (((path.addressed (id.map fun _ => last)).map Segment.idParam).zip
        ((parents ++ id.toList).map fun i => (Percent.encode i).toList)) := by
  have hencoded {i : String} (hi : i ∈ parents ++ id.toList) : Percent.encode i ≠ "" :=
    Percent.encode_ne_empty (hids i hi)
  have hparents : ∀ part ∈ parents.map Percent.encode, part ≠ "" := fun part hpart => by
    obtain ⟨i, hi, rfl⟩ := List.mem_map.mp hpart
    exact hencoded (List.mem_append_left _ hi)
  have hancestors : path.idAncestors = above.filter Segment.takesId := by
    rw [idAncestors, hpath, List.dropLast_concat]
  have hend : Route.Matches
      (((id.map fun _ => last).map placeholder).toList.map fun part => Route.Piece.read [] part.toList)
      ((id.map Percent.encode).toList.map String.toList)
      (((id.map fun _ => last).toList.map Segment.idParam).zip
        (id.toList.map fun i => (Percent.encode i).toList)) := by
    cases id with
    | none => exact .nil
    | some i =>
        have hne : (Percent.encode i).toList ≠ [] := fun hnil =>
          hencoded (List.mem_append_right parents List.mem_cons_self) (String.toList_eq_nil_iff.mp hnil)
        simp only [Option.map_some, Option.toList_some, List.map_cons, List.map_nil, read_placeholder]
        exact .param [] last.idParam hne .nil
  rw [hancestors] at hlength
  have hnames : ((above.filter Segment.takesId).map Segment.idParam).length
      = (parents.map fun i => (Percent.encode i).toList).length := by
    rw [List.length_map, List.length_map, hlength]
  rw [pattern_eq, renderedParts, hpath, addressed, hancestors, piecesOf_placeholders, List.map_append, List.map_append,
    List.zip_append hnames]
  refine Route.matches_absolutePath ?_ (hpath ▸ cuttable_renderedParts path hids) ?_
  · refine (Cuttable.flatMap fun s _ => Cuttable.segment s).append ((Cuttable.basePieces last.base).append ?_)
    cases id with
    | none => exact .nil
    | some i => exact Cuttable.placeholder last
  · have hmatch := matches_piecesOf (hpath ▸ hbases) (by rw [List.length_map, hlength]) hparents hend
    rwa [List.map_map] at hmatch

/-- The segments whose IDs stand in a path have different parameters if all segments have. -/
theorem nodup_addressed {path : RoutePath} (hpath : path.segments = above ++ [last])
    (hnodup : (path.segments.map Segment.idParam).Nodup) (id : Option String) :
    ((path.addressed (id.map fun _ => last)).map Segment.idParam).Nodup := by
  refine hnodup.sublist (List.Sublist.map _ ?_)
  rw [addressed, idAncestors, hpath, List.dropLast_concat]
  refine List.filter_sublist.append ?_
  cases id with
  | none => exact List.nil_sublist _
  | some i => exact List.Sublist.refl _

end RoutePath

/-! ## The IDs that arrive -/

/-- Encoded IDs are decoded to the IDs, each under the name of its parameter. -/
theorem Router.decodeParams_encoded (names ids : List String) :
    decodeParams ((names.zip (ids.map fun i => (Percent.encode i).toList)).map fun param =>
      (param.1, String.ofList param.2)) = names.zip ids := by
  have htaken : ((names.zip (ids.map fun i => (Percent.encode i).toList)).map fun param =>
      (param.1, String.ofList param.2)) = names.zip (ids.map Percent.encode) := by
    rw [show (fun param : String × List Char => (param.1, String.ofList param.2)) = Prod.map id String.ofList from rfl,
      ← List.zip_map_right, List.map_map]
    simp only [Function.comp_def, String.ofList_toList]
  have hdecodes : ∀ param ∈ names.zip (ids.map Percent.encode), (Percent.decode? param.2).isSome := by
    intro param hparam
    obtain ⟨i, -, hi⟩ := List.mem_map.mp (List.of_mem_zip hparam).2
    rw [← hi, Percent.decode?_encode]
    rfl
  rw [htaken, decodeParams_of_decodable hdecodes,
    show (fun param : String × String => (param.1, (Percent.decode? param.2).getD ""))
      = Prod.map id fun value => (Percent.decode? value).getD "" from rfl, ← List.zip_map_right, List.map_map]
  simp only [Function.comp_def, Percent.decode?_encode, Option.getD_some, List.map_id']

/-- **Values under different names are looked up one by one**, by induction on the names. -/
theorem Form.map_lookup_zip {names values : List String} (hlength : names.length = values.length)
    (hnodup : names.Nodup) (before : List (String × String)) :
    names.map (lookup (before ++ names.zip values)) = values.map some := by
  induction names generalizing values before with
  | nil =>
      obtain rfl := List.length_eq_zero_iff.mp hlength.symm
      rfl
  | cons name names ih =>
      obtain ⟨value, values, rfl⟩ := List.exists_cons_of_length_eq_add_one hlength.symm
      obtain ⟨hnew, hnodup⟩ := List.nodup_cons.mp hnodup
      have hlength := Nat.succ.inj hlength
      rw [List.zip_cons_cons, List.map_cons, List.map_cons]
      have hfirst : lookup (before ++ (name, value) :: names.zip values) name = some value := by
        refine lookup_append_cons value ?_
        rw [List.map_fst_zip (Nat.le_of_eq hlength)]
        exact hnew
      have hrest := ih hlength hnodup (before ++ [(name, value)])
      rw [List.append_assoc, List.singleton_append] at hrest
      rw [hfirst, hrest]

end ResourceTree
