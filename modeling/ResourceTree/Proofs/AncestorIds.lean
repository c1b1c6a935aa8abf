import ResourceTree.Proofs.Ancestry

/-! # The IDs of the ancestors

The ID that a route's parameter takes for an ancestor is the percent-decoded segment at the ancestor's place in
the path: `Router.lookup_ancestor`. For that the parameter must occur only once, which the assembly checks of
the names of nodes, but not of the bases and custom paths that are given by hand (`Site.KeepsIdParams`). And all
parameters must be UTF-8: one that is not takes the others with it (`Router.decodeParams_of_undecodable`). -/

namespace ResourceTree

variable {R : Type}

/-! ## Decoding -/

/-- The values of a list of pairs are looked up one by one. -/
theorem Form.lookup_map (pairs : List (String × String)) (f : String → String) (name : String) :
    lookup (pairs.map fun pair => (pair.1, f pair.2)) name = (lookup pairs name).map f := by
  rw [lookup, lookup, ← List.map_reverse, List.find?_map, Option.map_map, Option.map_map]
  rfl

/-- What is looked up is the value of one of the pairs. -/
theorem Form.mem_of_lookup {pairs : List (String × String)} {name value : String}
    (h : lookup pairs name = some value) : (name, value) ∈ pairs := by
  obtain ⟨pair, hfind, rfl⟩ := Option.map_eq_some_iff.mp h
  have hname : pair.1 = name := by simpa using List.find?_some hfind
  rw [← hname]
  exact List.mem_reverse.mp (List.mem_of_find?_eq_some hfind)

namespace Router

/-- The parameters are decoded each on its own if all of them can be. -/
theorem decodeParams_of_decodable {taken : List (String × String)}
    (h : ∀ param ∈ taken, (Percent.decode? param.2).isSome) :
    decodeParams taken = taken.map fun param => (param.1, (Percent.decode? param.2).getD "") := by
  have hall : taken.mapM (fun param => (Percent.decode? param.2).map fun value => (param.1, value))
      = some (taken.map fun param => (param.1, (Percent.decode? param.2).getD "")) := by
    induction taken with
    | nil => rfl
    | cons param taken ih =>
        obtain ⟨value, hvalue⟩ := Option.isSome_iff_exists.mp (h param List.mem_cons_self)
        rw [List.mapM_cons, ih fun p hp => h p (List.mem_cons_of_mem param hp), List.map_cons, hvalue]
        rfl
  rw [decodeParams, hall]
  rfl

/-- **One parameter that is not UTF-8 takes the others with it.** -/
theorem decodeParams_of_undecodable {taken : List (String × String)}
    (h : ∃ param ∈ taken, Percent.decode? param.2 = none) : decodeParams taken = [] := by
  have hnone : taken.mapM (fun param => (Percent.decode? param.2).map fun value => (param.1, value)) = none := by
    induction taken with
    | nil =>
        obtain ⟨param, hmem, -⟩ := h
        cases hmem
    | cons param taken ih =>
        rw [List.mapM_cons]
        cases hvalue : Percent.decode? param.2 with
        | none => rfl
        | some value =>
            obtain ⟨param', hmem, hnone⟩ := h
            rcases List.mem_cons.mp hmem with rfl | hmem
            · cases hvalue.symm.trans hnone
            · rw [ih ⟨param', hmem, hnone⟩]
              rfl
  rw [decodeParams, hnone]
  rfl

end Router

/-! ## Places -/

/-- What is given by hand of the pattern of a spot. -/
def Spot.given : Spot R → List String
  | .collection | .item => []
  | .custom r | .onId r | .root r => basePieces r.path

namespace Site

/-- The parts of a site's pattern that are given by hand: those of the bases and of a custom path. -/
def givenParts (site : Site R) : List String :=
  site.chain.flatMap (fun n => basePieces n.base) ++ site.spot.given

/-- No base and no custom path uses the parameter of an ID again. -/
def KeepsIdParams (site : Site R) : Prop :=
  ∀ part ∈ site.givenParts, ∀ n ∈ site.chain, n.takesId = true →
    (Route.Piece.read [] part.toList).name? ≠ some (idParam n.name)

variable {site : Site R} {a : Ancestor R}

/-- Where a node stands in the pattern of a site: its placeholder is behind these parts, and behind it there are
only parts given by hand and the placeholders of nodes below. -/
structure Stands (site : Site R) (a : Ancestor R) (before : List (Node R)) (n : Node R)
    (after : List (Node R)) (rest : List String) : Prop where
  chain_eq : site.chain = before ++ n :: after
  collection : n.collectionAt (RoutePath.root.below (before ++ [n])) = some a.c
  place : a.place = (RoutePath.root.below (before ++ [n])).idPlace
  parts_eq : site.parts = (before.flatMap fun m => m.segment.parts) ++ basePieces n.base
    ++ RoutePath.placeholder n.segment :: rest
  rest_eq : ∀ part ∈ rest, part ∈ site.givenParts ∨ ∃ m ∈ after, part = RoutePath.placeholder m.segment

/-- A part of a node's segment is one of its base, or its placeholder. -/
theorem mem_parts_segment {n : Node R} {part : String} (h : part ∈ n.segment.parts) :
    part ∈ basePieces n.base ∨ part = RoutePath.placeholder n.segment := by
  rw [Segment.parts, List.mem_append] at h
  rcases h with h | h
  · exact Or.inl h
  · split at h
    · exact Or.inr (List.mem_singleton.mp h)
    · cases h

/-- The bases of the nodes of a site are given by hand. -/
theorem mem_givenParts {n : Node R} (hn : n ∈ site.chain) {part : String} (h : part ∈ basePieces n.base) :
    part ∈ site.givenParts :=
  List.mem_append_left _ (List.mem_flatMap.mpr ⟨n, hn, h⟩)

/-- A part that a spot adds is given by hand, or it is the placeholder of the owner. -/
theorem mem_parts_spot {part : String} (h : part ∈ site.spot.parts site.owner) :
    part ∈ site.givenParts ∨ part = RoutePath.placeholder site.owner.segment := by
  have hgiven (h : part ∈ site.spot.given) : part ∈ site.givenParts := List.mem_append_right _ h
  cases hspot : site.spot with
  | collection => rw [hspot] at h; cases h
  | item =>
      rw [hspot] at h
      exact Or.inr (List.mem_singleton.mp h)
  | custom r | root r =>
      rw [hspot] at h hgiven
      exact Or.inl (hgiven h)
  | onId r =>
      rw [hspot] at h hgiven
      rcases List.mem_cons.mp h with h | h
      · exact Or.inr h
      · exact Or.inl (hgiven h)

variable {before after : List (Node R)} {n : Node R}

/-- An ancestor among the nodes above stands in the pattern. -/
theorem stands_of_above (heq : site.above = before ++ n :: after)
    (hc : n.collectionAt (RoutePath.root.below (before ++ [n])) = some a.c)
    (hplace : a.place = (RoutePath.root.below (before ++ [n])).idPlace) :
    ∃ after rest, site.Stands a before n after rest := by
  have hid : n.segment.takesId = true := (Node.name_collectionAt hc).2
  have hchain : site.chain = before ++ n :: (after ++ [site.owner]) := by
    rw [chain, heq, List.append_assoc, List.cons_append]
  refine ⟨after ++ [site.owner], (after.flatMap fun m => m.segment.parts)
    ++ (basePieces site.owner.base ++ site.spot.parts site.owner), hchain, hc, hplace, ?_, ?_⟩
  · rw [parts, heq, List.flatMap_append, List.flatMap_cons, Segment.parts, if_pos hid]
    simp only [List.append_assoc, List.cons_append, List.nil_append]
    rfl
  · intro part hpart
    rcases List.mem_append.mp hpart with hpart | hpart
    · obtain ⟨m, hm, hpart⟩ := List.mem_flatMap.mp hpart
      rcases mem_parts_segment hpart with hpart | hpart
      · exact Or.inl (mem_givenParts (by simp [hchain, hm]) hpart)
      · exact Or.inr ⟨m, List.mem_append_left _ hm, hpart⟩
    · rcases List.mem_append.mp hpart with hpart | hpart
      · exact Or.inl (mem_givenParts (by simp [hchain]) hpart)
      · rcases mem_parts_spot hpart with hpart | hpart
        · exact Or.inl hpart
        · exact Or.inr ⟨site.owner, by simp, hpart⟩

/-- The owner stands in the pattern of a spot whose layers load its resource. -/
theorem stands_of_owner (hloads : site.spot.loadsOwner site.owner = true)
    (hc : site.owner.collectionAt (RoutePath.root.below (site.above ++ [site.owner])) = some a.c)
    (hplace : a.place = (RoutePath.root.below (site.above ++ [site.owner])).idPlace) :
    ∃ rest, site.Stands a site.above site.owner [] rest := by
  obtain ⟨rest, hrest, hgiven⟩ : ∃ rest, site.spot.parts site.owner
      = RoutePath.placeholder site.owner.segment :: rest ∧ ∀ part ∈ rest, part ∈ site.spot.given := by
    cases hspot : site.spot with
    | collection | custom r | root r => rw [hspot] at hloads; cases hloads
    | item => exact ⟨[], rfl, fun part h => (List.not_mem_nil h).elim⟩
    | onId r => exact ⟨_, rfl, fun _ h => h⟩
  refine ⟨rest, rfl, hc, hplace, by rw [parts, hrest, List.append_assoc], fun part hpart => ?_⟩
  exact Or.inl (List.mem_append_right _ (hgiven part hpart))

/-- **Every ancestor stands in the pattern.** -/
theorem stands_of_mem (ha : a ∈ site.ancestry) :
    ∃ before n after rest, site.Stands a before n after rest := by
  rw [ancestry] at ha
  split at ha
  · next hloads =>
      obtain ⟨before, n, after, heq, hc, hplace⟩ := Node.mem_ancestors ha
      rw [chain] at heq
      -- the owner is the last of the chain; an ancestor before it is one of the nodes above
      rcases List.eq_nil_or_concat after with rfl | ⟨after, last, rfl⟩
      · obtain ⟨rfl, hn⟩ := List.append_inj' heq rfl
        cases hn
        exact ⟨_, _, _, stands_of_owner hloads hc hplace⟩
      · rw [List.concat_eq_append, ← List.cons_append, ← List.append_assoc] at heq
        exact ⟨_, _, stands_of_above (List.append_inj' heq rfl).1 hc hplace⟩
  · obtain ⟨before, n, after, heq, hc, hplace⟩ := Node.mem_ancestors ha
    exact ⟨_, _, stands_of_above heq hc hplace⟩

/-- **The parameter of an ancestor takes the segment at its place.** -/
theorem taken_ancestor (hnodup : (site.idParams .root).Nodup) (hkeeps : site.KeepsIdParams)
    (hroot : ¬site.spot.IsRoot) (ha : a ∈ site.ancestry) {segments : List (List Char)}
    {texts : List (String × List Char)}
    (hmatch : Route.Matches (Route.piecesOfPattern (site.route .root).pattern) segments texts) :
    ∃ segment, segments[a.place]? = some segment
      ∧ Form.lookup (texts.map fun param => (param.1, String.ofList param.2)) (idParam a.c.name)
        = some (String.ofList segment) := by
  obtain ⟨before, n, after, rest, hchain, hc, hplace, hparts, hrest⟩ := stands_of_mem ha
  obtain ⟨hname, hid⟩ := Node.name_collectionAt hc
  have hne : site.parts ≠ [] := by rw [hparts]; simp
  have hpieces := pieces_pattern hroot hne
  rw [hparts, List.map_append, List.map_cons, read_placeholder, ← List.cons_append] at hpieces
  have hmatch : Route.Matches (Route.piecesOfPattern (site.spot.pattern (site.path .root))) segments texts :=
    hmatch
  rw [hpieces] at hmatch
  obtain ⟨segment, takenBefore, takenAfter, hsegment, htexts, hnames⟩ := hmatch.at_param
  -- no node below has the same parameter, and nothing given by hand has it either
  have hnew : idParam n.name ∉ after.map fun m => idParam m.name := by
    rw [idParams_root, hchain, List.map_append, List.map_cons] at hnodup
    exact (List.nodup_cons.mp (List.nodup_append.mp hnodup).2.1).1
  -- so the parameter does not occur again behind its place
  have hlast : idParam n.name ∉ takenAfter.map Prod.fst := by
    rw [hnames]
    intro hmem
    obtain ⟨piece, hpiece, hsame⟩ := List.mem_filterMap.mp hmem
    obtain ⟨part, hpart, rfl⟩ := List.mem_map.mp hpiece
    rcases hrest part hpart with hgiven | ⟨m, hm, rfl⟩
    · exact hkeeps part hgiven n (by simp [hchain]) hid hsame
    · rw [read_placeholder] at hsame
      exact hnew (List.mem_map.mpr ⟨m, hm, Option.some.inj hsame⟩)
  refine ⟨segment, ?_, ?_⟩
  · have hsegments : (RoutePath.root.below (before ++ [n])).segments
        = before.map Node.segment ++ [n.segment] := by
      rw [RoutePath.below, List.map_append]
      rfl
    rw [← hsegment, hplace, RoutePath.idPlace_eq hsegments, List.length_cons, List.length_map,
      List.flatMap_map]
    rfl
  · rw [htexts, List.map_append, List.map_cons, hname]
    refine Form.lookup_append_cons _ ?_
    rw [List.map_map]
    exact hlast

end Site

/-- No base and no custom path of a tree uses the parameter of an ID again. -/
def Node.KeepsIdParams (n : Node R) : Prop := ∀ site ∈ n.sites, site.KeepsIdParams

/-- A root route has no ancestors, since only the top of a tree has root routes. -/
theorem Site.ancestry_of_isRoot {site : Site R} (hroot : site.spot.IsRoot) (habove : site.above = []) :
    site.ancestry = [] := by
  obtain ⟨r, hr⟩ := hroot
  rw [ancestry, hr, habove]
  rfl

/-- **The IDs of the ancestors.** In a tree that keeps the parameters of IDs apart, a request whose parameters
are all UTF-8 has for every ancestor of its route the percent-decoded segment at the ancestor's place. -/
theorem Router.lookup_ancestor {n : Node R} {routes : List (Route R)} (hn : n.router = .ok routes)
    (hkeeps : n.KeepsIdParams) {site : Site R} (hsite : site ∈ n.sites) {path : String}
    {texts : List (String × List Char)}
    (hmatch : Route.Matches (Route.piecesOfPattern (site.route .root).pattern)
      (Text.splitOn '/' path.toList) texts)
    {taken : List (String × String)}
    (htaken : taken = texts.map fun param => (param.1, String.ofList param.2))
    (hutf8 : ∀ param ∈ taken, (Percent.decode? param.2).isSome) {a : Ancestor R} (ha : a ∈ site.ancestry) :
    ∃ id, a.id? path = some id ∧ Form.lookup (decodeParams taken) (idParam a.c.name) = some id := by
  have hassembled := Node.router_ok hn
  -- a root route has no ancestors at all
  have hroot : ¬site.spot.IsRoot := by
    intro hroot
    obtain ⟨r, hr⟩ := id hroot
    rw [Site.ancestry_of_isRoot hroot (hassembled.atTop site hsite r hr).2] at ha
    cases ha
  obtain ⟨segment, hsegment, hlookup⟩ := Site.taken_ancestor (hassembled.nodup .nil site hsite)
    (hkeeps site hsite) hroot ha hmatch
  rw [← htaken] at hlookup
  obtain ⟨id, hid⟩ := Option.isSome_iff_exists.mp (hutf8 _ (Form.mem_of_lookup hlookup))
  refine ⟨id, ?_, ?_⟩
  · rw [Ancestor.id?, hsegment, Option.bind_some, hid]
  · rw [decodeParams_of_decodable hutf8, Form.lookup_map _ fun value => (Percent.decode? value).getD "",
      hlookup, Option.map_some, hid, Option.getD_some]

end ResourceTree
