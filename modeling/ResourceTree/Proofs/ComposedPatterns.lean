import ResourceTree.Proofs.TreeWalks

/-! # Two ways of composing patterns

The pattern of an API is composed of its chain of segments at once, the pattern of a custom route by joining its path to
the pattern above. Both come down to the parts of the bases: joining adds those of one base to a finished pattern
(`joinPaths_absolutePath`), so a child and a custom route with the same relative path have the same pattern. What is
composed is an absolute path without a slash at its end, and slashes at the ends of bases do not count:
`patterns_agree`. -/

namespace ResourceTree

variable {R : Type}

/-! ## Absolute paths -/

/-- **A text is an absolute path**: it begins with a slash and ends in none, unless it is just a slash. -/
structure IsAbsolute (path : String) : Prop where
  first : path.toList.head? = some '/'
  last : path.toList.getLast? = some '/' → path = "/"

theorem Cuttable.isAbsolute {parts : List String} (h : Cuttable parts) : IsAbsolute (absolutePath parts) where
  first := by rw [absolutePath_eq, List.head?_cons]
  last hslash := by
    by_cases hne : parts = []
    · rw [hne]
      rfl
    · rw [← trimEnd_absolutePath hne h] at hslash
      exact absurd (Text.getLast?_trimEnd hslash) (by decide)

/-- A base without parts is made of slashes. -/
theorem trim_eq_nil_of_basePieces {base : String} (h : basePieces base = []) :
    Text.trim (· == '/') base.toList = [] := by
  rw [basePieces] at h
  split at h
  · next hnil => exact hnil
  · next hne =>
      rw [Text.pieces] at h
      exact absurd (List.map_eq_nil_iff.mp h) (Text.splitOn_ne_nil _ _)

/-- **Joining adds the parts of a base** to a path. -/
theorem joinPaths_absolutePath {parts : List String} (h : Cuttable parts) (base : String) :
    joinPaths (absolutePath parts) base = absolutePath (parts ++ basePieces base) := by
  by_cases hne : parts ++ basePieces base = []
  · obtain ⟨rfl, hbase⟩ := List.append_eq_nil_iff.mp hne
    have hstem : Text.trimEnd (· == '/') (absolutePath []).toList = [] := by decide
    rw [joinPaths, trim_eq_nil_of_basePieces hbase, hstem, hbase]
    rfl
  · -- both are cut into the same parts
    have hcut := splitOn_joinPaths h hne
    rw [← splitOn_absolutePath hne (h.append (Cuttable.basePieces base))] at hcut
    rw [← String.toList_inj, ← Text.joinWith_splitOn '/' (joinPaths _ _).toList, hcut, Text.joinWith_splitOn]

/-! ## Stems -/

namespace RoutePath

/-- The path below which the children of the last API are: that of one resource if it takes an ID, or else that of the
collection. -/
def stem (path : RoutePath) : String :=
  if path.leaf?.any Segment.takesId then path.itemPattern else path.collectionPattern

theorem cuttable_parts (segments : List Segment) : Cuttable (segments.flatMap Segment.parts) :=
  Cuttable.flatMap fun s _ => Cuttable.segment s

/-- The stem has the parts of all segments. -/
theorem stem_eq (path : RoutePath) : path.stem = absolutePath (path.segments.flatMap Segment.parts) := by
  rcases List.eq_nil_or_concat path.segments with hnil | ⟨above, last, hsegments⟩
  · have hroot : path = root := by
      rw [root, ← hnil]
    subst hroot
    rfl
  · rw [List.concat_eq_append] at hsegments
    have hleaf : path.leaf? = some last := by rw [leaf?, hsegments, List.getLast?_concat]
    rw [stem, hleaf, Option.any_some, hsegments, List.flatMap_append, List.flatMap_singleton, Segment.parts]
    cases last.takesId with
    | true => rw [if_pos rfl, if_pos rfl, itemPattern_eq hsegments]
    | false =>
        rw [if_neg Bool.false_ne_true, if_neg Bool.false_ne_true, List.append_nil, collectionPattern_eq hsegments]

/-- **A child's pattern is its base joined to the stem.** -/
theorem collectionPattern_child (path : RoutePath) (name base : String) (takesId : Bool) :
    (path.child name base takesId).collectionPattern = joinPaths path.stem base := by
  have hchild : (path.child name base takesId).segments = path.segments ++ [⟨name, base, takesId⟩] := rfl
  rw [stem_eq, joinPaths_absolutePath (cuttable_parts path.segments), collectionPattern_eq hchild]

/-! ## Composed paths are absolute -/

theorem isPart_placeholder (s : Segment) : IsPart (placeholder s) :=
  ⟨(Cuttable.placeholder s).noSlash _ List.mem_cons_self, (Cuttable.placeholder s).last _ rfl⟩

/-- The parts of a pattern survive being joined and cut again. -/
theorem cuttable_pattern (path : RoutePath) (leaf : Option Segment) :
    Cuttable (piecesOf path.segments (path.idAncestors.map placeholder) (leaf.map placeholder)) := by
  refine cuttable_piecesOf (fun part hpart => ?_) fun part hpart => ?_
  · obtain ⟨s, -, rfl⟩ := List.mem_map.mp hpart
    exact isPart_placeholder s
  · obtain ⟨s, -, rfl⟩ := Option.map_eq_some_iff.mp hpart
    exact isPart_placeholder s

theorem isAbsolute_pattern (path : RoutePath) (leaf : Option Segment) : IsAbsolute (path.pattern leaf) := by
  rw [pattern_eq]
  exact (cuttable_pattern path leaf).isAbsolute

/-- A path joined to a pattern is an absolute one again. -/
theorem isAbsolute_joinPaths (path : RoutePath) (leaf : Option Segment) (base : String) :
    IsAbsolute (joinPaths (path.pattern leaf) base) := by
  rw [pattern_eq, joinPaths_absolutePath (cuttable_pattern path leaf)]
  exact ((cuttable_pattern path leaf).append (Cuttable.basePieces base)).isAbsolute

/-- What is rendered of IDs that are not empty is an absolute path. -/
theorem isAbsolute_render {path : RoutePath} {parents : List String} {id : Option String} {rendered : String}
    (hids : ∀ i ∈ parents ++ id.toList, i ≠ "") (h : path.render parents id = .ok rendered) :
    IsAbsolute rendered := by
  by_cases hlength : parents.length = path.idAncestors.length
  · rw [render_eq hlength] at h
    cases h
    exact (cuttable_renderedParts path hids).isAbsolute
  · rw [render_eq_error_iff.mpr ⟨hlength, rfl⟩] at h
    cases h

end RoutePath

theorem Spot.isAbsolute_pattern (spot : Spot R) (path : RoutePath) : IsAbsolute (spot.pattern path) := by
  cases spot with
  | collection => exact path.isAbsolute_pattern none
  | item => exact path.isAbsolute_pattern path.leaf?
  | custom r => exact path.isAbsolute_joinPaths none r.path
  | onId r => exact path.isAbsolute_joinPaths path.leaf? r.path
  | root r =>
      have hroot : joinPaths "/" r.path = absolutePath (basePieces r.path) := joinPaths_absolutePath .nil r.path
      rw [Spot.pattern, hroot]
      exact (Cuttable.basePieces r.path).isAbsolute

/-- All patterns that a tree claims are absolute paths. -/
theorem Node.isAbsolute_of_mem_patterns (n : Node R) {p : String} (h : p ∈ n.patterns) : IsAbsolute p := by
  obtain ⟨site, -, rfl⟩ := List.mem_map.mp ((patterns_sites .root n).mem_iff.mpr h)
  exact site.spot.isAbsolute_pattern (site.path .root)

/-! ## Slashes at the ends of bases -/

/-- **Bases with the same core**: they differ only in how many slashes stand at their ends. -/
def SameCore (base base' : String) : Prop :=
  ∃ (core : List Char) (i j k l : Nat), base.toList = List.replicate i '/' ++ core ++ List.replicate j '/' ∧
    base'.toList = List.replicate k '/' ++ core ++ List.replicate l '/'

/-- Slashes at the ends are trimmed. -/
theorem Text.trim_slashes (i j : Nat) (core : List Char) :
    trim (· == '/') (List.replicate i '/' ++ core ++ List.replicate j '/') = trim (· == '/') core := by
  have hslashes (n : Nat) : ∀ c ∈ List.replicate n '/', (c == '/') = true := by
    intro c hc
    rw [List.eq_of_mem_replicate hc]
    rfl
  rw [trim, List.append_assoc, List.dropWhile_append_of_pos (hslashes i), List.dropWhile_append]
  split
  · next hnil =>
      have hcore : core.dropWhile (· == '/') = [] := List.isEmpty_iff.mp hnil
      rw [trim, hcore, List.dropWhile_eq_nil_iff.mpr (hslashes j)]
  · rw [trimEnd, List.reverse_append, List.reverse_replicate, List.dropWhile_append_of_pos (hslashes j)]
    rfl

theorem SameCore.basePieces_eq {base base' : String} (h : SameCore base base') :
    basePieces base = basePieces base' := by
  obtain ⟨core, i, j, k, l, hbase, hbase'⟩ := h
  refine Client.basePieces_of_trim ?_
  rw [hbase, hbase', Text.trim_slashes, Text.trim_slashes]

/-- A route below a pattern is the same with any slashes around its path. -/
theorem SameCore.joinPaths_eq {base base' : String} (h : SameCore base base') (stem : String) :
    joinPaths stem base = joinPaths stem base' := by
  obtain ⟨core, i, j, k, l, hbase, hbase'⟩ := h
  rw [joinPaths, joinPaths, hbase, hbase', Text.trim_slashes, Text.trim_slashes]

namespace RoutePath

/-- **Paths with the same cores**: segment by segment the names are the same, both take an ID or neither does, and the
bases have the same core. -/
def SameCores (path path' : RoutePath) : Prop :=
  List.Forall₂ (fun s s' => s.name = s'.name ∧ s.takesId = s'.takesId ∧ SameCore s.base s'.base)
    path.segments path'.segments

/-- A segment without its base. -/
def bare (s : Segment) : Segment := { s with base := "" }

namespace SameCores

variable {path path' : RoutePath}

theorem sameParts (h : path.SameCores path') : SameParts path.segments path'.segments := by
  obtain ⟨ss⟩ := path
  obtain ⟨ts⟩ := path'
  rw [SameCores] at h
  dsimp only at h ⊢
  induction h with
  | nil => exact .nil
  | cons hs _ ih => exact .cons hs.2.2.basePieces_eq hs.2.1 ih

/-- The segments without their bases are the same. -/
theorem map_bare (h : path.SameCores path') : path.segments.map bare = path'.segments.map bare := by
  obtain ⟨ss⟩ := path
  obtain ⟨ts⟩ := path'
  rw [SameCores] at h
  dsimp only at h ⊢
  induction h with
  | nil => rfl
  | cons hs _ ih => rw [List.map_cons, List.map_cons, ih, bare, bare, hs.1, hs.2.1]

theorem placeholders_eq (h : path.SameCores path') :
    path.idAncestors.map placeholder = path'.idAncestors.map placeholder := by
  have hbare (p : RoutePath) : p.idAncestors.map placeholder
      = ((p.segments.map bare).dropLast.filter Segment.takesId).map placeholder := by
    rw [← List.map_dropLast, List.filter_map, List.map_map]
    rfl
  rw [hbare, hbare, h.map_bare]

theorem leaf_eq {β : Type} (h : path.SameCores path') (f : Segment → β) (hf : ∀ s, f (bare s) = f s) :
    path.leaf?.map f = path'.leaf?.map f := by
  have hbare (p : RoutePath) : p.leaf?.map f = (p.segments.map bare).getLast?.map f := by
    rw [List.getLast?_map, Option.map_map, Function.comp_def]
    simp only [hf]
    rfl
  rw [hbare, hbare, h.map_bare]

/-- The patterns are the same. -/
theorem patterns_eq (h : path.SameCores path') :
    path.collectionPattern = path'.collectionPattern ∧ path.itemPattern = path'.itemPattern := by
  have hleaf : path.leaf?.map placeholder = path'.leaf?.map placeholder := h.leaf_eq placeholder fun s => rfl
  constructor
  · rw [collectionPattern, collectionPattern, pattern_eq, pattern_eq, h.placeholders_eq, h.sameParts.piecesOf_eq,
      Option.map_none]
  · rw [itemPattern, itemPattern, pattern_eq, pattern_eq, h.placeholders_eq, h.sameParts.piecesOf_eq, hleaf]

/-- So is what is rendered of any IDs, or the error if their number is wrong. -/
theorem render_eq (h : path.SameCores path') (parents : List String) (id : Option String) :
    path.render parents id = path'.render parents id := by
  have hlength : path.idAncestors.length = path'.idAncestors.length := h.sameParts.length_ancestors
  have hname : path.leaf?.map Segment.name = path'.leaf?.map Segment.name := h.leaf_eq Segment.name fun s => rfl
  rw [render, render, pieces, pieces, hlength, hname, h.sameParts.piecesOf_eq]

end SameCores

end RoutePath

/-! ## Children and custom routes -/

/-- The spot where a custom route stands beside the children of a node: below the ID if it takes one, or else below the
base. -/
def Node.besideChildren (owner : Node R) (r : CustomRoute R) : Spot R :=
  if owner.takesId then .onId r else .custom r

namespace Site

variable {above : List (Node R)} {owner child : Node R}

theorem path_of_child (parent : RoutePath) (spot spot' : Spot R) :
    (⟨above ++ [owner], child, spot⟩ : Site R).path parent
      = child.pathBelow ((⟨above, owner, spot'⟩ : Site R).path parent) := by
  rw [path, path, RoutePath.below, RoutePath.below, chain, chain, List.map_append, ← List.append_assoc]
  rfl

/-- The stem of a node is where its children and the routes beside them are. -/
theorem pattern_besideChildren (parent : RoutePath) (spot : Spot R) (r : CustomRoute R) :
    (owner.besideChildren r).pattern ((⟨above, owner, spot⟩ : Site R).path parent)
      = joinPaths ((⟨above, owner, spot⟩ : Site R).path parent).stem r.path := by
  have hleaf : ((⟨above, owner, spot⟩ : Site R).path parent).leaf? = some owner.segment := by
    rw [path, RoutePath.below, chain, RoutePath.leaf?, List.map_append, ← List.append_assoc, List.map_singleton,
      List.getLast?_concat]
  rw [RoutePath.stem, hleaf, Option.any_some, Node.besideChildren]
  cases htakes : owner.takesId with
  | true => simp [Node.segment, htakes, Spot.pattern]
  | false => simp [Node.segment, htakes, Spot.pattern]

end Site

/-- Two routes of a tree with one pattern are a conflict. -/
theorem Node.not_wellFormed_of_same_pattern {n : Node R} {site site' : Site R} (h : site ∈ n.sites)
    (h' : site' ∈ n.sites) (hne : site ≠ site')
    (hpattern : (site.route .root).pattern = (site'.route .root).pattern) : ¬n.WellFormed := by
  intro hwell
  have hnodup : (Site.patterns .root n.sites).Nodup := hwell.nodup_shapes.of_map
  exact hne (List.inj_on_of_nodup_map hnodup h h' hpattern)

/-- **Two ways of composing patterns agree.** The pattern of a child is its base joined to the pattern of one resource
above, or to that of the collection if no ID is taken there. So an API has the same pattern as a custom route beside it
with the same relative path, and a tree with both is not well-formed and has no router. All patterns, and all paths that
are rendered of IDs that are not empty, are absolute; and slashes at the ends of bases do not change them. -/
theorem patterns_agree :
    (∀ (path : RoutePath) (name base : String) (takesId : Bool),
      (path.child name base takesId).collectionPattern = joinPaths path.stem base) ∧
    (∀ (n : Node R) (above : List (Node R)) (owner child : Node R) (r : CustomRoute R), SameCore r.path child.base →
      ((⟨above ++ [owner], child, .collection⟩ : Site R).route .root).pattern
          = ((⟨above, owner, owner.besideChildren r⟩ : Site R).route .root).pattern ∧
        (⟨above ++ [owner], child, .collection⟩ ∈ n.sites → ⟨above, owner, owner.besideChildren r⟩ ∈ n.sites →
          ¬n.WellFormed ∧ n.router.isOk = false)) ∧
    ((∀ (n : Node R), ∀ p ∈ n.patterns, IsAbsolute p) ∧
      (∀ path : RoutePath, IsAbsolute path.collectionPattern ∧ IsAbsolute path.itemPattern) ∧
      ∀ (path : RoutePath) (parents : List String) (id : Option String) (rendered : String),
        (∀ i ∈ parents ++ id.toList, i ≠ "") → path.render parents id = .ok rendered → IsAbsolute rendered) ∧
    (∀ path path' : RoutePath, path.SameCores path' → path.collectionPattern = path'.collectionPattern ∧
      path.itemPattern = path'.itemPattern ∧ ∀ parents id, path.render parents id = path'.render parents id) ∧
    ∀ stem base base' : String, SameCore base base' → joinPaths stem base = joinPaths stem base' := by
  refine ⟨RoutePath.collectionPattern_child, ?_, ⟨?_, ?_, ?_⟩, ?_, ?_⟩
  · intro n above owner child r hcore
    have hpattern : ((⟨above ++ [owner], child, .collection⟩ : Site R).route .root).pattern
        = ((⟨above, owner, owner.besideChildren r⟩ : Site R).route .root).pattern := by
      rw [Site.route, Site.route, Site.pattern_besideChildren, Spot.pattern,
        Site.path_of_child .root .collection (owner.besideChildren r), hcore.joinPaths_eq]
      exact RoutePath.collectionPattern_child _ _ _ _
    -- the two routes differ in how many nodes are above them
    refine ⟨hpattern, fun hchild hroute => ?_⟩
    have hwell : ¬n.WellFormed := by
      refine Node.not_wellFormed_of_same_pattern hchild hroute (fun heq => ?_) hpattern
      have habove := congrArg (List.length ∘ Site.above) heq
      simp at habove
    exact ⟨hwell, Bool.eq_false_iff.mpr fun hok => hwell (Node.wellFormed_of_isOk hok).1⟩
  · exact fun n p hp => n.isAbsolute_of_mem_patterns hp
  · exact fun path => ⟨path.isAbsolute_pattern none, path.isAbsolute_pattern path.leaf?⟩
  · exact fun path parents id rendered hids hrender => RoutePath.isAbsolute_render hids hrender
  · exact fun path path' h => ⟨h.patterns_eq.1, h.patterns_eq.2, h.render_eq⟩
  · exact fun stem base base' h => h.joinPaths_eq stem

namespace Library

/-- A list of an artist's albums, beside the albums themselves. -/
def albumList : CustomRoute Record := { tags with path := "albums/" }

/-- Artists with albums and such a list below. -/
def crowded : Node Record :=
  .mk { name := "artists", base := "//artists" } (some { artistService with idRoutes := [albumList] }) [albums]

end Library

open Library in
/-- The list of albums stands where the albums are, so such a tree has no router. A path that is rendered is absolute
and the same as without further slashes. -/
theorem patterns_agree_library : (¬crowded.WellFormed ∧ crowded.router.isOk = false) ∧
    IsAbsolute "/artists/a%201/albums" ∧
    RoutePath.collectionPattern ⟨[⟨"artists", "//artists", true⟩]⟩
      = RoutePath.collectionPattern ⟨[⟨"artists", "artists/", true⟩]⟩ ∧
    joinPaths "/artists" "albums/" = joinPaths "/artists" "/albums" := by
  obtain ⟨-, hbeside, ⟨-, -, hrendered⟩, hcores, hjoin⟩ := patterns_agree (R := Record)
  have halbums : SameCore "albums/" "/albums" := ⟨"albums".toList, 0, 1, 1, 0, by decide, by decide⟩
  have hartists : SameCore "//artists" "artists/" := ⟨"artists".toList, 2, 0, 0, 1, by decide, by decide⟩
  refine ⟨?_, ?_, ?_, hjoin _ _ _ halbums⟩
  · refine (hbeside crowded [] crowded albums albumList halbums).2 ?_ ?_
    · simp [crowded, albums, Node.api, Node.sites, Node.sitesOf, Site.under]
    · simp [crowded, Node.sites, Node.besideChildren, Node.takesId, Node.service]
  · have hpath : (⟨[⟨"artists", "/artists", true⟩, ⟨"albums", "/albums", true⟩]⟩ : RoutePath).render ["a 1"] none
        = .ok "/artists/a%201/albums" := by decide +kernel
    exact hrendered _ ["a 1"] none _ (by decide) hpath
  · have hpaths : RoutePath.SameCores ⟨[⟨"artists", "//artists", true⟩]⟩ ⟨[⟨"artists", "artists/", true⟩]⟩ :=
      .cons ⟨rfl, rfl, hartists⟩ .nil
    exact (hcores _ _ hpaths).1

end ResourceTree
