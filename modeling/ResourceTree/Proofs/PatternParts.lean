import ResourceTree.Proofs.TreeRoutes

/-! # The parts of a pattern

The pattern of a route is written as one text and then cut at its slashes again. What comes out are the parts
that it was made of: the bases of the nodes from the top down, each followed by the placeholder for the ID of
the node if the path goes on below it, and then what belongs to the spot of the route. `Site.pieces_pattern`
says so, and so the place of an ID in a path can be read off the tree. -/

namespace ResourceTree

/-! ## Cutting and joining -/

namespace Text

variable {sep : Char}

/-- No piece holds the character that was cut at. -/
theorem not_mem_of_mem_splitOn {cs piece : List Char} (h : piece ∈ splitOn sep cs) : sep ∉ piece := by
  induction cs generalizing piece with
  | nil =>
      rw [splitOn_nil, List.mem_singleton] at h
      simp [h]
  | cons c cs ih =>
      by_cases hc : c = sep
      · rw [splitOn, if_pos hc] at h
        rcases List.mem_cons.mp h with rfl | h
        · simp
        · exact ih h
      · obtain ⟨first, rest, hsplit⟩ := List.exists_cons_of_ne_nil (splitOn_ne_nil sep cs)
        rw [splitOn, if_neg hc, hsplit] at h
        rw [hsplit] at ih
        rcases List.mem_cons.mp h with rfl | h
        · intro hmem
          rcases List.mem_cons.mp hmem with heq | hmem
          · exact hc heq.symm
          · exact ih List.mem_cons_self hmem
        · exact ih (List.mem_cons_of_mem _ h)

/-- What stands in a piece of a text stands in the text. -/
theorem mem_of_mem_piece {c : Char} {piece cs : List Char} (hpiece : piece ∈ splitOn sep cs) (hc : c ∈ piece) :
    c ∈ cs := by
  induction cs generalizing piece with
  | nil =>
      rw [splitOn_nil, List.mem_singleton] at hpiece
      exact hpiece ▸ hc
  | cons d cs ih =>
      obtain ⟨first, rest, hsplit⟩ := List.exists_cons_of_ne_nil (splitOn_ne_nil sep cs)
      have hrest {other : List Char} (hother : other ∈ first :: rest) (hc : c ∈ other) : c ∈ d :: cs :=
        List.mem_cons_of_mem d (ih (hsplit ▸ hother) hc)
      by_cases hd : d = sep
      · rw [splitOn, if_pos hd, hsplit] at hpiece
        rcases List.mem_cons.mp hpiece with rfl | hpiece
        · cases hc
        · exact hrest hpiece hc
      · rw [splitOn, if_neg hd, hsplit] at hpiece
        rcases List.mem_cons.mp hpiece with rfl | hpiece
        · rcases List.mem_cons.mp hc with rfl | hc
          · exact List.mem_cons_self
          · exact hrest List.mem_cons_self hc
        · exact hrest (List.mem_cons_of_mem first hpiece) hc

/-- A text without the separator is one piece. -/
theorem splitOn_of_not_mem {cs : List Char} (h : sep ∉ cs) : splitOn sep cs = [cs] := by
  induction cs with
  | nil => rfl
  | cons c cs ih =>
      rw [List.mem_cons, not_or] at h
      rw [splitOn, if_neg (Ne.symm h.1), ih h.2]

/-- Cutting around a separator is cutting both sides. -/
theorem splitOn_append_cons (xs ys : List Char) :
    splitOn sep (xs ++ sep :: ys) = splitOn sep xs ++ splitOn sep ys := by
  induction xs with
  | nil => rw [List.nil_append, splitOn_cons_sep, splitOn_nil, List.singleton_append]
  | cons c xs ih =>
      by_cases hc : c = sep
      · rw [List.cons_append, splitOn, if_pos hc, splitOn, if_pos hc, ih, List.cons_append]
      · obtain ⟨first, rest, hsplit⟩ := List.exists_cons_of_ne_nil (splitOn_ne_nil sep xs)
        rw [List.cons_append, splitOn, if_neg hc, splitOn, if_neg hc, ih, hsplit]
        rfl

/-- **Cutting undoes joining** pieces without the separator. -/
theorem splitOn_joinWith {pieces : List (List Char)} (hne : pieces ≠ [])
    (h : ∀ piece ∈ pieces, sep ∉ piece) : splitOn sep (joinWith sep pieces) = pieces := by
  induction pieces with
  | nil => exact absurd rfl hne
  | cons piece pieces ih =>
      have hpiece := splitOn_of_not_mem (h piece List.mem_cons_self)
      cases pieces with
      | nil => exact hpiece
      | cons next pieces =>
          rw [joinWith, splitOn_append_cons, hpiece, List.singleton_append,
            ih (List.cons_ne_nil _ _) fun p hp => h p (List.mem_cons_of_mem _ hp)]

/-- Only a text that ends in the separator has an empty last piece. -/
theorem getLast?_splitOn {cs : List Char} (hne : cs ≠ []) (h : (splitOn sep cs).getLast? = some []) :
    cs.getLast? = some sep := by
  induction cs with
  | nil => exact absurd rfl hne
  | cons c cs ih =>
      obtain ⟨first, rest, hsplit⟩ := List.exists_cons_of_ne_nil (splitOn_ne_nil sep cs)
      by_cases hc : c = sep
      · rw [splitOn, if_pos hc, hsplit, List.getLast?_cons_cons, ← hsplit] at h
        cases cs with
        | nil => rw [hc, List.getLast?_singleton]
        | cons d cs => rw [List.getLast?_cons_cons, ih (List.cons_ne_nil _ _) h]
      · rw [splitOn, if_neg hc, hsplit] at h
        cases rest with
        | nil => simp at h
        | cons next rest =>
            rw [List.getLast?_cons_cons] at h
            cases cs with
            | nil => simp at hsplit
            | cons d cs =>
                rw [List.getLast?_cons_cons]
                refine ih (List.cons_ne_nil _ _) ?_
                rw [hsplit, List.getLast?_cons_cons, h]

/-- What is left of a trimmed text does not end in a trimmed character. -/
theorem getLast?_trimEnd {p : Char → Bool} {cs : List Char} {c : Char}
    (h : (trimEnd p cs).getLast? = some c) : p c = false := by
  have hhead := List.head?_dropWhile_not p cs.reverse
  rw [trimEnd, List.getLast?_reverse] at h
  rw [h] at hhead
  simpa using hhead

/-- A text that does not end in a trimmed character stays. -/
theorem trimEnd_eq_self {p : Char → Bool} {cs : List Char} (h : ∀ c, cs.getLast? = some c → p c = false) :
    trimEnd p cs = cs := by
  rw [trimEnd]
  cases hrev : cs.reverse with
  | nil => rw [List.reverse_eq_nil_iff.mp hrev]; rfl
  | cons c rest =>
      have hp : p c = false := h c (by rw [List.getLast?_eq_head?_reverse, hrev, List.head?_cons])
      rw [List.dropWhile_cons_of_neg (by simp [hp]), ← hrev, List.reverse_reverse]

end Text

/-! ## Parts of a pattern -/

/-- Parts that survive being joined and cut again: none holds a slash, and the last one is not empty. -/
structure Cuttable (parts : List String) : Prop where
  noSlash : ∀ part ∈ parts, '/' ∉ part.toList
  last : ∀ part, parts.getLast? = some part → part ≠ ""

namespace Cuttable

theorem nil : Cuttable [] where
  noSlash _ h := by cases h
  last _ h := by cases h

/-- Behind more parts parts stay cuttable. -/
theorem append {xs ys : List String} (hx : Cuttable xs) (hy : Cuttable ys) : Cuttable (xs ++ ys) where
  noSlash part h := by
    rcases List.mem_append.mp h with h | h
    · exact hx.noSlash part h
    · exact hy.noSlash part h
  last part h := by
    rw [List.getLast?_append] at h
    cases hlast : ys.getLast? with
    | some y =>
        rw [hlast] at h
        cases h
        exact hy.last part hlast
    | none =>
        rw [hlast] at h
        exact hx.last part h

theorem flatMap {α : Type} {f : α → List String} {xs : List α} (h : ∀ x ∈ xs, Cuttable (f x)) :
    Cuttable (xs.flatMap f) := by
  induction xs with
  | nil => exact nil
  | cons x xs ih =>
      rw [List.flatMap_cons]
      exact (h x List.mem_cons_self).append (ih fun y hy => h y (List.mem_cons_of_mem x hy))

/-- The parts of a base are cuttable. -/
theorem basePieces (base : String) : Cuttable (basePieces base) := by
  rw [ResourceTree.basePieces]
  cases hcs : Text.trim (· == '/') base.toList with
  | nil => exact nil
  | cons c cs =>
      simp only [Text.pieces, String.toList_ofList]
      refine ⟨fun part h => ?_, fun part h => ?_⟩
      · obtain ⟨piece, hpiece, rfl⟩ := List.mem_map.mp h
        rw [String.toList_ofList]
        exact Text.not_mem_of_mem_splitOn hpiece
      · rw [List.getLast?_map] at h
        obtain ⟨piece, hpiece, rfl⟩ := Option.map_eq_some_iff.mp h
        intro hempty
        have hnil : piece = [] := by
          rw [← String.toList_ofList (l := piece), hempty]
          rfl
        rw [hnil] at hpiece
        -- then the base would end in a slash even after it was trimmed
        have hlast := Text.getLast?_splitOn (List.cons_ne_nil c cs) hpiece
        rw [← hcs, Text.trim] at hlast
        simpa using Text.getLast?_trimEnd hlast

end Cuttable

/-- A path consists of slashes and its parts. -/
theorem absolutePath_eq (parts : List String) :
    (absolutePath parts).toList = '/' :: Text.joinWith '/' (parts.map String.toList) := by
  cases parts with
  | nil => rfl
  | cons part parts => simp [absolutePath, Text.join]

/-- Joined parts are cut into the parts again, and no parts into one empty piece. -/
theorem splitOn_parts {parts : List String} (h : Cuttable parts) :
    Text.splitOn '/' (Text.joinWith '/' (parts.map String.toList))
      = if parts = [] then [[]] else parts.map String.toList := by
  split
  · next hnil =>
      subst hnil
      rfl
  · next hne =>
      rw [Text.splitOn_joinWith (by simpa using hne)]
      intro piece hpiece
      obtain ⟨part, hpart, rfl⟩ := List.mem_map.mp hpiece
      exact h.noSlash part hpart

/-- Cutting a path at its slashes gives the parts that it was made of, behind an empty one. -/
theorem splitOn_absolutePath {parts : List String} (hne : parts ≠ []) (h : Cuttable parts) :
    Text.splitOn '/' (absolutePath parts).toList = [] :: parts.map String.toList := by
  rw [absolutePath_eq, Text.splitOn_cons_sep, splitOn_parts h, if_neg hne]

/-- A path made of cuttable parts does not end in a slash, unless it has none. -/
theorem trimEnd_absolutePath {parts : List String} (hne : parts ≠ []) (h : Cuttable parts) :
    Text.trimEnd (· == '/') (absolutePath parts).toList = (absolutePath parts).toList := by
  refine Text.trimEnd_eq_self fun c hc => ?_
  by_cases hslash : c = '/'
  · -- then the last of the parts would be empty
    obtain ⟨init, hinit⟩ := List.getLast?_eq_some_iff.mp hc
    have hcut := splitOn_absolutePath hne h
    rw [hinit, hslash, Text.splitOn_append_cons, Text.splitOn_nil] at hcut
    have hlast := congrArg List.getLast? hcut
    obtain ⟨part, hpart⟩ := List.getLast?_isSome.mpr hne |> Option.isSome_iff_exists.mp
    obtain ⟨first, rest, hparts⟩ := List.exists_cons_of_ne_nil hne
    rw [List.getLast?_concat, hparts, List.map_cons, List.getLast?_cons_cons, ← List.map_cons, ← hparts,
      List.getLast?_map, hpart] at hlast
    refine absurd ?_ (h.last part hpart)
    rw [← String.ofList_toList (s := part), ← Option.some.inj hlast]
  · simp [hslash]

/-- **A route below a pattern** is made of the parts of both. -/
theorem splitOn_joinPaths {parts : List String} {path : String} (h : Cuttable parts)
    (hne : parts ++ basePieces path ≠ []) :
    Text.splitOn '/' (joinPaths (absolutePath parts) path).toList
      = [] :: (parts ++ basePieces path).map String.toList := by
  rw [basePieces] at hne ⊢
  rw [joinPaths]
  cases hpath : Text.trim (· == '/') path.toList with
  | nil =>
      simp only [hpath, List.append_nil] at hne ⊢
      have hcut := splitOn_absolutePath hne h
      obtain ⟨c, cs, hcs⟩ : ∃ c cs, (absolutePath parts).toList = c :: cs := by
        refine List.exists_cons_of_ne_nil fun hnil => ?_
        rw [hnil, Text.splitOn_nil] at hcut
        simp_all
      rw [trimEnd_absolutePath hne h, hcs]
      simp only [String.toList_ofList]
      rw [← hcs, hcut]
  | cons c cs =>
      simp only [String.toList_ofList, Text.splitOn_append_cons, Text.pieces]
      by_cases hparts : parts = []
      · have hstem : Text.trimEnd (· == '/') (absolutePath []).toList = [] := by decide
        rw [hparts, hstem, Text.splitOn_nil]
        simp [Function.comp_def]
      · rw [trimEnd_absolutePath hparts h, splitOn_absolutePath hparts h]
        simp [Function.comp_def]

/-! ## Placeholders -/

/-- A path parameter consists of letters, digits and underscores. -/
theorem mem_idParam {name : String} {c : Char} (h : c ∈ (idParam name).toList) :
    c.isAlphanum = true ∨ c = '_' := by
  have hsuffix : "_id".toList = ['_', 'i', 'd'] := by decide
  rw [idParam, String.toList_append, String.toList_ofList, hsuffix] at h
  rcases List.mem_append.mp h with h | h
  · obtain ⟨d, -, rfl⟩ := List.mem_map.mp h
    split
    · next hd => exact Or.inl hd
    · exact Or.inr rfl
  · simp only [List.mem_cons, List.not_mem_nil, or_false] at h
    rcases h with rfl | rfl | rfl
    · exact Or.inr rfl
    · exact Or.inl (by decide)
    · exact Or.inl (by decide)

theorem toList_placeholder (s : Segment) :
    (RoutePath.placeholder s).toList = '{' :: s.idParam.toList ++ ['}'] := by
  rw [RoutePath.placeholder, String.toList_ofList]

/-- A segment in braces is read as a parameter that fills it, or as a catch-all if it begins with a star. -/
theorem Route.Piece.read_braces {d : Char} {cs : List Char} (hbrace : d ≠ '{') :
    Route.Piece.read [] ('{' :: (d :: cs) ++ ['}'])
      = if d = '*' then .rest [] (String.ofList cs) else .param [] (String.ofList (d :: cs)) := by
  have hlast : (d :: (cs ++ ['}'])).getLast? = some '}' := by
    rw [← List.cons_append, List.getLast?_concat]
  have hdrop : (d :: (cs ++ ['}'])).dropLast = d :: cs := by
    rw [← List.cons_append, List.dropLast_concat]
  have hclose : ¬('{' = '{' ∧ d = '{' ∨ '{' = '}' ∧ d = '}') := by
    rintro (⟨-, h⟩ | ⟨h, -⟩)
    · exact hbrace h
    · exact absurd h (by decide)
  rw [List.cons_append, List.cons_append, Route.Piece.read, if_neg hclose, if_pos rfl, hlast]
  simp only [hdrop, List.dropLast_concat, List.reverse_nil]

/-- **A placeholder is read as a parameter** that fills its segment. -/
theorem read_placeholder (s : Segment) :
    Route.Piece.read [] (RoutePath.placeholder s).toList = .param [] s.idParam := by
  have hne : s.idParam.toList ≠ [] := by
    rw [Segment.idParam, idParam, String.toList_append]
    simp
  obtain ⟨d, cs, hcs⟩ := List.exists_cons_of_ne_nil hne
  have hmem : d ∈ (idParam s.name).toList := by
    rw [← Segment.idParam, hcs]
    exact List.mem_cons_self
  have hd : d.isAlphanum = true ∨ d = '_' := mem_idParam hmem
  -- its first character is neither a brace, which would be an escape, nor a star, which would be a catch-all
  have hbrace : d ≠ '{' := by
    rintro rfl
    exact absurd hd (by decide)
  have hstar : d ≠ '*' := by
    rintro rfl
    exact absurd hd (by decide)
  rw [toList_placeholder, hcs, Route.Piece.read_braces hbrace, if_neg hstar, ← hcs, String.ofList_toList]

/-- A placeholder is a part on its own. -/
theorem Cuttable.placeholder (s : Segment) : Cuttable [RoutePath.placeholder s] where
  noSlash part h := by
    rw [List.mem_singleton.mp h, toList_placeholder]
    intro hslash
    simp only [List.cons_append, List.mem_cons, List.mem_append, List.not_mem_nil, or_false] at hslash
    rcases hslash with hslash | hslash | hslash
    · exact absurd hslash (by decide)
    · exact absurd (mem_idParam hslash) (by decide)
    · exact absurd hslash (by decide)
  last part h := by
    rintro rfl
    have hlist := toList_placeholder s
    rw [List.getLast?_singleton] at h
    rw [Option.some.inj h] at hlist
    simp at hlist

/-! ## The parts of a site's pattern -/

/-- What a segment puts into the patterns of everything below it. -/
def Segment.parts (s : Segment) : List String :=
  basePieces s.base ++ if s.takesId then [RoutePath.placeholder s] else []

theorem Cuttable.segment (s : Segment) : Cuttable s.parts := by
  rw [Segment.parts]
  split
  · exact (Cuttable.basePieces s.base).append (Cuttable.placeholder s)
  · exact (Cuttable.basePieces s.base).append Cuttable.nil

namespace RoutePath

/-- The parts of a pattern, by induction on the segments above the last one. -/
theorem piecesOf_placeholders (above : List Segment) (last : Segment) (leaf : Option String) :
    piecesOf (above ++ [last]) ((above.filter Segment.takesId).map placeholder) leaf
      = above.flatMap Segment.parts ++ (basePieces last.base ++ leaf.toList) := by
  induction above with
  | nil => rfl
  | cons s above ih =>
      obtain ⟨next, rest, hrest⟩ := List.exists_cons_of_ne_nil (List.append_ne_nil_of_right_ne_nil above
        (List.cons_ne_nil last []))
      rw [List.cons_append, List.flatMap_cons, List.append_assoc, ← ih, hrest, Segment.parts]
      cases hid : s.takesId with
      | true => simp [piecesOf, hid]
      | false => simp [piecesOf, hid]

variable {path : RoutePath} {above : List Segment} {last : Segment}

/-- The parts of the pattern of a collection. -/
theorem collectionPattern_eq (h : path.segments = above ++ [last]) :
    path.collectionPattern = absolutePath (above.flatMap Segment.parts ++ basePieces last.base) := by
  rw [collectionPattern, pattern_eq, idAncestors, h, List.dropLast_concat, Option.map_none,
    piecesOf_placeholders, Option.toList_none, List.append_nil]

/-- The parts of the pattern of one resource. -/
theorem itemPattern_eq (h : path.segments = above ++ [last]) :
    path.itemPattern
      = absolutePath (above.flatMap Segment.parts ++ (basePieces last.base ++ [placeholder last])) := by
  have hleaf : path.leaf? = some last := by rw [leaf?, h, List.getLast?_concat]
  rw [itemPattern, pattern_eq, idAncestors, h, List.dropLast_concat, hleaf, Option.map_some,
    piecesOf_placeholders, Option.toList_some]

/-- The place of the ID among the segments of a path: it is the last segment of the pattern of one
resource. -/
def idPlace (path : RoutePath) : Nat := (Text.pieces '/' path.itemPattern).length - 1

theorem idPlace_eq (h : path.segments = above ++ [last]) :
    path.idPlace = (above.flatMap Segment.parts ++ basePieces last.base).length + 1 := by
  have hcut : Cuttable (above.flatMap Segment.parts ++ (basePieces last.base ++ [placeholder last])) :=
    (Cuttable.flatMap fun s _ => Cuttable.segment s).append
      ((Cuttable.basePieces last.base).append (Cuttable.placeholder last))
  rw [idPlace, itemPattern_eq h, Text.pieces, splitOn_absolutePath (by simp) hcut]
  simp only [List.length_map, List.length_cons, List.length_append, List.length_nil]
  omega

end RoutePath

namespace Spot

variable {R : Type}

/-- What a spot adds to the parts of its owner's pattern. -/
def parts (owner : Node R) : Spot R → List String
  | .collection => []
  | .item => [RoutePath.placeholder owner.segment]
  | .custom r | .root r => basePieces r.path
  | .onId r => RoutePath.placeholder owner.segment :: basePieces r.path

/-- A route at an absolute path. -/
def IsRoot (spot : Spot R) : Prop := ∃ r, spot = .root r

end Spot

namespace Site

variable {R : Type}

/-- The parts of the pattern of a site's route. -/
def parts (site : Site R) : List String :=
  site.above.flatMap (fun n => n.segment.parts) ++ (basePieces site.owner.base ++ site.spot.parts site.owner)

/-- **The pattern of a route is cut into the parts that its site gives.** -/
theorem splitOn_pattern {site : Site R} (hroot : ¬site.spot.IsRoot) (hne : site.parts ≠ []) :
    Text.splitOn '/' (site.spot.pattern (site.path .root)).toList = [] :: site.parts.map String.toList := by
  have hpath : (site.path .root).segments = site.above.map Node.segment ++ [site.owner.segment] := by
    rw [path, RoutePath.below, chain, List.map_append]
    rfl
  have habove : Cuttable ((site.above.map Node.segment).flatMap Segment.parts) :=
    Cuttable.flatMap fun s _ => Cuttable.segment s
  have hbase : Cuttable (basePieces site.owner.segment.base) := Cuttable.basePieces _
  have hitem : Cuttable ((site.above.map Node.segment).flatMap Segment.parts
      ++ (basePieces site.owner.segment.base ++ [RoutePath.placeholder site.owner.segment])) :=
    habove.append (hbase.append (Cuttable.placeholder site.owner.segment))
  have hflat : (site.above.map Node.segment).flatMap Segment.parts
      = site.above.flatMap fun n => n.segment.parts := List.flatMap_map ..
  rw [parts] at hne ⊢
  rw [← hflat] at hne ⊢
  cases hspot : site.spot with
  | collection =>
      rw [hspot, Spot.parts, List.append_nil] at hne
      rw [Spot.pattern, RoutePath.collectionPattern_eq hpath, Spot.parts, List.append_nil]
      exact splitOn_absolutePath hne (habove.append hbase)
  | item =>
      rw [Spot.pattern, RoutePath.itemPattern_eq hpath, Spot.parts]
      exact splitOn_absolutePath (by simp) hitem
  | custom r =>
      rw [hspot, Spot.parts, ← List.append_assoc] at hne
      rw [Spot.pattern, RoutePath.collectionPattern_eq hpath, Spot.parts, ← List.append_assoc]
      exact splitOn_joinPaths (habove.append hbase) hne
  | onId r =>
      rw [Spot.pattern, RoutePath.itemPattern_eq hpath, splitOn_joinPaths hitem (by simp), Spot.parts]
      simp only [List.append_assoc, List.singleton_append]
      rfl
  | root r => exact absurd ⟨r, hspot⟩ hroot

/-- The pieces of a site's pattern, which begins with a slash. -/
theorem pieces_pattern {site : Site R} (hroot : ¬site.spot.IsRoot) (hne : site.parts ≠ []) :
    Route.piecesOfPattern (site.spot.pattern (site.path .root))
      = .literal [] :: site.parts.map fun part => Route.Piece.read [] part.toList := by
  rw [Route.piecesOfPattern, splitOn_pattern hroot hne, List.map_cons, List.map_map]
  rfl

end Site

end ResourceTree
