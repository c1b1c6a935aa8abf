import ResourceTree.Proofs.BuildChecks
import ResourceTree.Proofs.ClientServerAgreement
import ResourceTree.Proofs.RenderedIds

/-! # The walks of a tree

Four walks go down a tree on their own: assembly claims the patterns of each node, a `ClientMap` collects a client for
each API, names are followed to one of them, and a client is extended base by base. `Node.walks_agree` says that they
see the same tree. A map exists just if all APIs have different names (`Node.apiNames`), and its clients have the paths
to which names lead, the patterns that are claimed, and the URLs of clients that are extended, if the groups in between
add nothing to them. A client that is extended knows nothing of groups: `Node.walks_part`. -/

namespace ResourceTree

variable {A R : Type}

/-! ## Names -/

namespace Node

/-- **Siblings have different names** everywhere in a tree. -/
inductive SiblingsDiffer : Node R → Prop where
  | mk {frame : Frame R} {service : Option (Service R)} {children : List (Node R)}
      (names : (children.map Node.name).Nodup) (below : ∀ child ∈ children, SiblingsDiffer child) :
      SiblingsDiffer (.mk frame service children)

theorem siblingsDiffer_childless (frame : Frame R) (service : Option (Service R)) :
    SiblingsDiffer (.mk frame service []) :=
  .mk .nil fun _ h => by cases h

/-- Trees that are nested one into the other keep it so. -/
theorem SiblingsDiffer.nest {parent child n : Node R} (hparent : parent.SiblingsDiffer)
    (hchild : child.SiblingsDiffer) (h : parent.nest child = .ok n) : n.SiblingsDiffer := by
  cases hparent with
  | @mk frame service children names below =>
      rw [Node.nest] at h
      split at h
      · cases h
      · next hnew =>
          cases h
          refine .mk ?_ fun c hc => ?_
          · rw [List.map_append, List.map_singleton]
            refine List.nodup_append.mpr ⟨names, List.nodup_singleton _, fun name hname other hother => ?_⟩
            rintro rfl
            obtain ⟨sibling, hsibling, hsame⟩ := List.mem_map.mp hname
            rw [List.mem_singleton] at hother
            exact hnew (List.any_eq_true.mpr ⟨sibling, hsibling, by simp [hsame, hother]⟩)
          · rcases List.mem_append.mp hc with hc | hc
            · exact below c hc
            · rw [List.mem_singleton.mp hc]
              exact hchild

theorem SiblingsDiffer.children {n : Node R} (h : n.SiblingsDiffer) :
    (n.children.map Node.name).Nodup ∧ ∀ child ∈ n.children, child.SiblingsDiffer := by
  cases h with
  | mk names below => exact ⟨names, below⟩

mutual

/-- The names of the APIs of a tree, each before those below it. -/
def apiNames : Node R → List String
  | .mk frame service children => (service.map fun _ => frame.name).toList ++ apiNamesOf children

/-- The names of the APIs of sibling trees, in order. -/
def apiNamesOf : List (Node R) → List String
  | [] => []
  | n :: ns => n.apiNames ++ apiNamesOf ns

end

mutual

/-- The clients of a tree have the names of its APIs, by induction on the tree. -/
theorem names_clients (address : String) (parent : RoutePath) (n : Node R) :
    (n.sites.filterMap (Site.client? address parent)).map Prod.fst = n.apiNames := by
  match n with
  | .mk frame service children =>
      rw [ClientMap.filterMap_sites, apiNames, List.map_append]
      refine congrArg₂ _ ?_ (names_clientsOf address _ children)
      cases service <;> rfl

/-- So have those of sibling trees. -/
theorem names_clientsOf (address : String) (parent : RoutePath) (ns : List (Node R)) :
    ((sitesOf ns).filterMap (Site.client? address parent)).map Prod.fst = apiNamesOf ns := by
  match ns with
  | [] => rfl
  | n :: ns =>
      rw [sitesOf, apiNamesOf, List.filterMap_append, List.map_append, names_clients address parent n,
        names_clientsOf address parent ns]

end

end Node

/-! ## Collecting clients -/

/-- A list of names has no name twice, or there is a first one that was met before. -/
theorem exists_repeated {names : List String} (h : ¬names.Nodup) :
    ∃ before name after, names = before ++ name :: after ∧ before.Nodup ∧ name ∈ before := by
  induction names using List.reverseRecOn with
  | nil => exact absurd .nil h
  | append_singleton names last ih =>
      by_cases hnames : names.Nodup
      · refine ⟨names, last, [], rfl, hnames, ?_⟩
        by_contra hlast
        refine h (List.nodup_append.mpr ⟨hnames, List.nodup_singleton last, fun name hname other hother => ?_⟩)
        rintro rfl
        exact hlast (List.mem_singleton.mp hother ▸ hname)
      · obtain ⟨before, name, after, rfl, hbefore, hmem⟩ := ih hnames
        exact ⟨before, name, after ++ [last], by simp, hbefore, hmem⟩

namespace ClientMap

variable {address : String} {parent : RoutePath} {m : ClientMap}

/-- The clients with more, one after the other. -/
def addAll (m : ClientMap) (entries : List (String × Client Record)) : Except ClientError ClientMap :=
  entries.foldlM (fun m entry => m.add entry.1 entry.2) m

theorem addAll_cons (m : ClientMap) (entry : String × Client Record) (entries : List (String × Client Record)) :
    m.addAll (entry :: entries) = m.add entry.1 entry.2 >>= fun m => m.addAll entries := List.foldlM_cons

theorem addAll_append (m : ClientMap) (entries more : List (String × Client Record)) :
    m.addAll (entries ++ more) = m.addAll entries >>= fun m => m.addAll more := List.foldlM_append

mutual

/-- **Collecting clients** adds the client of each site of a tree, by induction on the tree. -/
theorem collect_eq (address : String) (parent : RoutePath) (m : ClientMap) (n : Node R) :
    collect address parent m n = m.addAll (n.sites.filterMap (Site.client? address parent)) := by
  match n with
  | .mk frame none children =>
      rw [collect, filterMap_sites]
      exact collectAll_eq address _ m children
  | .mk frame (some s) children =>
      rw [collect, filterMap_sites]
      show (m.add frame.name _ >>= _) = m.addAll ((frame.name, _) :: _)
      rw [addAll_cons]
      exact bind_congr fun m₁ => collectAll_eq address _ m₁ children

/-- Collecting those of siblings adds those of their sites. -/
theorem collectAll_eq (address : String) (parent : RoutePath) (m : ClientMap) (ns : List (Node R)) :
    collectAll address parent m ns = m.addAll ((Node.sitesOf ns).filterMap (Site.client? address parent)) := by
  match ns with
  | [] => rfl
  | n :: ns =>
      rw [collectAll, Node.sitesOf, List.filterMap_append, addAll_append, collect_eq address parent m n]
      exact bind_congr fun m₁ => collectAll_eq address parent m₁ ns

end

/-- A name that is there already is not added. -/
theorem add_of_mem {name : String} (h : name ∈ m.clients.map Prod.fst) (c : Client Record) :
    m.add name c = .error (.duplicateName name) := by
  rw [add]
  cases hget : m.get? name with
  | some _ => rfl
  | none =>
      obtain ⟨entry, hentry, rfl⟩ := List.mem_map.mp h
      have hne := List.lookup_eq_none_iff.mp hget entry hentry
      simp at hne

/-- A name that is new is added. -/
theorem add_of_not_mem {name : String} (h : name ∉ m.clients.map Prod.fst) (c : Client Record) :
    m.add name c = .ok ⟨m.clients ++ [(name, c)]⟩ := by
  have hget : m.get? name = none := by
    refine List.lookup_eq_none_iff.mpr fun entry hentry => ?_
    have hne : name ≠ entry.1 := fun heq => h (heq ▸ List.mem_map_of_mem hentry)
    simpa using hne
  rw [add, hget]

/-- Clients of different names are all added. -/
theorem addAll_of_nodup {entries : List (String × Client Record)}
    (h : (m.clients.map Prod.fst ++ entries.map Prod.fst).Nodup) :
    m.addAll entries = .ok ⟨m.clients ++ entries⟩ := by
  induction entries generalizing m with
  | nil => rw [List.append_nil]; rfl
  | cons entry entries ih =>
      have hnew : entry.1 ∉ m.clients.map Prod.fst := fun hmem =>
        (List.nodup_append.mp h).2.2 _ hmem _ (List.mem_cons_self) rfl
      rw [addAll_cons, add_of_not_mem hnew]
      refine (ih ?_).trans (by rw [List.append_assoc, List.singleton_append])
      rw [List.map_append, List.append_assoc]
      exact h

/-- The first client whose name is met again is not added. -/
theorem addAll_of_repeated {entries : List (String × Client Record)} {before after : List String} {name : String}
    (h : entries.map Prod.fst = before ++ name :: after) (hbefore : before.Nodup) (hname : name ∈ before) :
    (⟨[]⟩ : ClientMap).addAll entries = .error (.duplicateName name) := by
  obtain ⟨first, rest, rfl, rfl, hrest⟩ := List.map_eq_append_iff.mp h
  obtain ⟨entry, more, rfl, rfl, -⟩ := List.map_eq_cons_iff.mp hrest
  rw [addAll_append, addAll_of_nodup (by simpa using hbefore), List.nil_append]
  show (⟨first⟩ : ClientMap).addAll (entry :: more) = _
  rw [addAll_cons, add_of_mem hname]
  rfl

/-- **A map of clients** has a client for every API, in order, if no name is met twice. -/
theorem ofNode_of_nodup {n : Node R} (h : n.apiNames.Nodup) :
    ofNode address n = .ok ⟨n.sites.filterMap (Site.client? address .root)⟩ := by
  rw [ofNode, collect_eq, addAll_of_nodup (by rwa [List.map_nil, List.nil_append, Node.names_clients])]
  rfl

/-- Otherwise there is none, for the first name that is met again. -/
theorem ofNode_of_repeated {n : Node R} {before after : List String} {name : String}
    (h : n.apiNames = before ++ name :: after) (hbefore : before.Nodup) (hname : name ∈ before) :
    ofNode address n = .error (.duplicateName name) := by
  rw [ofNode, collect_eq, addAll_of_repeated ((Node.names_clients address .root n).trans h) hbefore hname]

/-- A map exists just if no name is met twice. -/
theorem ofNode_isOk_iff (n : Node R) : (ofNode address n).isOk = true ↔ n.apiNames.Nodup := by
  by_cases h : n.apiNames.Nodup
  · rw [ofNode_of_nodup h]
    exact iff_of_true rfl h
  · obtain ⟨before, name, after, hnames, hbefore, hmem⟩ := exists_repeated h
    rw [ofNode_of_repeated hnames hbefore hmem]
    exact iff_of_false Bool.false_ne_true h

/-- The error of a tree without a map names the first API that is met again. -/
theorem repeated_of_ofNode {n : Node R} {e : ClientError} (h : ofNode address n = .error e) :
    ∃ before name after, n.apiNames = before ++ name :: after ∧ before.Nodup ∧ name ∈ before
      ∧ e = .duplicateName name := by
  have hnames : ¬n.apiNames.Nodup := by
    intro hnodup
    rw [ofNode_of_nodup hnodup] at h
    cases h
  obtain ⟨before, name, after, hsplit, hbefore, hmem⟩ := exists_repeated hnames
  rw [ofNode_of_repeated hsplit hbefore hmem] at h
  cases h
  exact ⟨before, name, after, hsplit, hbefore, hmem, rfl⟩

end ClientMap

/-! ## Following names -/

namespace Site

/-- The names that lead from the top of a tree to the owner of a site. -/
def trail (site : Site R) : List String := site.chain.tail.map Node.name

theorem path_of_cons (parent : RoutePath) (top : Node R) (above : List (Node R)) (owner : Node R) (spot : Spot R) :
    (⟨top :: above, owner, spot⟩ : Site R).path parent
      = (⟨above, owner, spot⟩ : Site R).path (top.pathBelow parent) :=
  path_under parent top ⟨above, owner, spot⟩

/-- The sites of a tree are all below its top. -/
theorem exists_chain {n : Node R} {site : Site R} (h : site ∈ n.sites) : ∃ rest, site.chain = n :: rest := by
  rcases Node.mem_sites h with ⟨spot, rfl, -⟩ | ⟨inner, -, rfl⟩
  · exact ⟨[], rfl⟩
  · exact ⟨inner.chain, rfl⟩

end Site

namespace Node

/-- Of siblings with different names each is the only one of its name. -/
theorem find?_name {children : List (Node R)} (hnames : (children.map Node.name).Nodup) {child : Node R}
    (hchild : child ∈ children) : children.find? (fun c => c.name == child.name) = some child := by
  obtain ⟨found, hfound⟩ : ∃ found, children.find? (fun c => c.name == child.name) = some found :=
    Option.isSome_iff_exists.mp (List.find?_isSome.mpr ⟨child, hchild, beq_self_eq_true _⟩)
  have hname : found.name = child.name := by simpa using List.find?_some hfound
  rw [hfound, List.inj_on_of_nodup_map hnames (List.mem_of_find?_eq_some hfound) hchild hname]

/-- **Names lead to every node** of a tree in which siblings have different names, by induction on the nodes above. -/
theorem follow_trail {n : Node R} (hn : n.SiblingsDiffer) {site : Site R} (h : site ∈ n.sites) (parent : RoutePath) :
    n.follow (n.pathBelow parent) site.trail = .ok (site.owner, site.path parent) := by
  obtain ⟨above, owner, spot⟩ := site
  induction above generalizing n parent with
  | nil =>
      cases owner_of_mem_sites h
      rfl
  | cons top above ih =>
      obtain ⟨rfl, child, hchild, hmem⟩ := exists_child_of_mem_sites h
      obtain ⟨rest, hrest⟩ := Site.exists_chain hmem
      have htrail : (⟨top :: above, owner, spot⟩ : Site R).trail
          = child.name :: (⟨above, owner, spot⟩ : Site R).trail := by
        show (Site.chain ⟨above, owner, spot⟩).map Node.name = _
        rw [Site.trail, hrest]
        rfl
      obtain ⟨hnames, hbelow⟩ := hn.children
      rw [htrail, follow, find?_name hnames hchild, Site.path_of_cons]
      exact ih (hbelow child hchild) _ hmem

/-- So the client for the kind of an API is found under its names. -/
theorem nestedClient_trail {n : Node R} (hn : n.SiblingsDiffer) {site : Site R} (h : site ∈ n.sites) {s : Service R}
    (hs : site.owner.service = some s) (address : String) :
    n.nestedClient address s.kind.name site.trail = .ok (.forPath address (site.path .root) s.kind s.codes) := by
  rw [nestedClient, follow_trail hn h]
  simp only [hs, if_true]

/-! ## Claiming patterns -/

/-- The checks of a node stand among those of its siblings. -/
theorem checks_within {child : Node R} {ns : List (Node R)} (h : child ∈ ns) (parent : RoutePath) :
    child.checks parent <:+: checksOf parent ns := by
  induction ns with
  | nil => cases h
  | cons n ns ih =>
      rw [checksOf]
      rcases List.mem_cons.mp h with rfl | h
      · exact (List.prefix_append _ _).isInfix
      · exact (ih h).trans (List.suffix_append _ _).isInfix

/-- **Every API claims two patterns** right behind the check of its name, by induction on the nodes above. -/
theorem claims_within {n : Node R} {site : Site R} (h : site ∈ n.sites) {s : Service R}
    (hs : site.owner.service = some s) (parent : RoutePath) :
    [.name (parent.below site.above).segments site.owner.name, .pattern (site.path parent).collectionPattern,
      .pattern (site.path parent).itemPattern] <:+: n.checks parent := by
  obtain ⟨above, owner, spot⟩ := site
  induction above generalizing n parent with
  | nil =>
      cases owner_of_mem_sites h
      obtain ⟨frame, service, children⟩ := owner
      cases hs
      rw [checks, ownChecks, RoutePath.below_nil]
      exact (List.prefix_append _ _).isInfix
  | cons top above ih =>
      obtain ⟨rfl, child, hchild, hmem⟩ := exists_child_of_mem_sites h
      have hbelow := ih (top.pathBelow parent) hmem hs
      rw [RoutePath.below_cons, Site.path_of_cons]
      refine (hbelow.trans (checks_within hchild _)).trans ?_
      obtain ⟨frame, service, children⟩ := top
      rw [checks, ← List.append_assoc, ← List.cons_append]
      exact ⟨_ :: ownChecks frame _ service, _, rfl⟩

end Node

/-! ## Extending clients -/

namespace RoutePath

/-- **Chains with the same parts**: their bases differ in nothing but the slashes at their ends, and they take IDs in
the same places. Names do not count, nor do groups of the first chain that add no part. -/
inductive SameParts : List Segment → List Segment → Prop where
  | nil : SameParts [] []
  | cons {s t : Segment} {ss ts : List Segment} (base : basePieces s.base = basePieces t.base)
      (takesId : s.takesId = t.takesId) (rest : SameParts ss ts) : SameParts (s :: ss) (t :: ts)
  | group {s : Segment} {ss ts : List Segment} (base : basePieces s.base = []) (takesId : s.takesId = false)
      (hne : ts ≠ []) (rest : SameParts ss ts) : SameParts (s :: ss) ts

variable {ss ts : List Segment}

/-- Only an empty chain has the same parts as an empty one. -/
theorem SameParts.eq_nil_iff (h : SameParts ss ts) : ss = [] ↔ ts = [] := by
  cases h with
  | nil => exact Iff.rfl
  | cons base takesId rest => exact iff_of_false (List.cons_ne_nil _ _) (List.cons_ne_nil _ _)
  | group base takesId hne rest => exact iff_of_false (List.cons_ne_nil _ _) hne

theorem SameParts.prepend (above : List Segment) (h : SameParts ss ts) : SameParts (above ++ ss) (above ++ ts) := by
  induction above with
  | nil => exact h
  | cons s above ih => exact .cons rfl rfl ih

/-- The parts of a chain are those of its first segment, and then those of the rest. -/
theorem piecesOf_cons (s : Segment) {rest : List Segment} (hrest : rest ≠ []) (ids : List String)
    (leaf : Option String) :
    piecesOf (s :: rest) ids leaf
      = basePieces s.base ++ ((if s.takesId then ids.head? else none).toList
        ++ piecesOf rest (if s.takesId then ids.tail else ids) leaf) := by
  obtain ⟨next, rest, rfl⟩ := List.exists_cons_of_ne_nil hrest
  cases htakes : s.takesId <;> cases ids <;> simp [piecesOf, htakes]

/-- They make the same path of the same IDs, by induction on both chains. -/
theorem SameParts.piecesOf_eq (h : SameParts ss ts) (ids : List String) (leaf : Option String) :
    piecesOf ss ids leaf = piecesOf ts ids leaf := by
  induction h generalizing ids with
  | nil => rfl
  | @cons s t ss ts base takesId rest ih =>
      by_cases hss : ss = []
      · rw [hss, rest.eq_nil_iff.mp hss, piecesOf, piecesOf, base]
      · rw [piecesOf_cons s hss, piecesOf_cons t (mt rest.eq_nil_iff.mpr hss), base, takesId, ih]
  | @group s ss ts base takesId hne rest ih =>
      rw [piecesOf_cons s (mt rest.eq_nil_iff.mp hne), base, takesId, ← ih]
      rfl

/-- They take the same number of IDs above their ends. -/
theorem SameParts.length_ancestors (h : SameParts ss ts) :
    (ss.dropLast.filter Segment.takesId).length = (ts.dropLast.filter Segment.takesId).length := by
  induction h with
  | nil => rfl
  | @cons s t ss ts base takesId rest ih =>
      by_cases hss : ss = []
      · rw [hss, rest.eq_nil_iff.mp hss]
        rfl
      · rw [List.dropLast_cons_of_ne_nil hss, List.dropLast_cons_of_ne_nil (mt rest.eq_nil_iff.mpr hss),
          List.filter_cons, List.filter_cons, takesId]
        split
        · rw [List.length_cons, List.length_cons, ih]
        · exact ih
  | @group s ss ts base takesId hne rest ih =>
      rw [List.dropLast_cons_of_ne_nil (mt rest.eq_nil_iff.mp hne), List.filter_cons, takesId]
      exact ih

end RoutePath

namespace Client

variable {B : Type} {client : Client A} {parents : List String} {id : Option String} {u : String}

/-- A client extended base by base, each time with the kind of the resources there. -/
def extend (start : Client A) (steps : List (Kind A × String)) : Client A :=
  steps.foldl (fun client step => client.sub step.1 step.2) start

/-- The segment that a base adds to the path of a client. -/
def stepSegment (base : String) : Segment := ⟨String.ofList (Text.trim (· == '/') base.toList), base, true⟩

theorem extend_eq (start : Client A) (steps : List (Kind A × String)) :
    (start.extend steps).address = start.address
      ∧ (start.extend steps).path.segments = start.path.segments ++ steps.map fun step => stepSegment step.2 := by
  induction steps generalizing start with
  | nil => exact ⟨rfl, (List.append_nil _).symm⟩
  | cons step steps ih =>
      obtain ⟨haddress, hpath⟩ := ih (start.sub step.1 step.2)
      refine ⟨haddress, hpath.trans ?_⟩
      rw [List.map_cons]
      exact List.append_assoc _ [stepSegment step.2] _

/-- A URL is rendered of the right number of IDs. -/
theorem url_eq_ok_iff : client.url parents id = .ok u ↔ parents.length = client.path.idAncestors.length
    ∧ u = client.address ++ absolutePath (client.path.renderedParts parents id) := by
  rw [url]
  by_cases hlength : parents.length = client.path.idAncestors.length
  · simp [RoutePath.render_eq hlength, hlength, eq_comm]
  · simp [RoutePath.render_eq_error_iff.mpr ⟨hlength, rfl⟩, hlength]

/-- Clients whose paths have the same parts render the same URLs. -/
theorem url_of_sameParts {client' : Client B} (haddress : client.address = client'.address)
    (hparts : RoutePath.SameParts client.path.segments client'.path.segments) :
    client.url parents id = .ok u ↔ client'.url parents id = .ok u := by
  rw [url_eq_ok_iff, url_eq_ok_iff, haddress, RoutePath.renderedParts, RoutePath.renderedParts,
    hparts.piecesOf_eq, RoutePath.idAncestors, RoutePath.idAncestors, hparts.length_ancestors]

/-- **Steps spell the way down some nodes**: they have the bases of the APIs among them, up to the slashes at the
ends. -/
def Spells (steps : List (Kind A × String)) (nodes : List (Node R)) : Prop :=
  (steps.map fun step => Text.trim (· == '/') step.2.toList)
    = (nodes.filter Node.takesId).map fun n => Text.trim (· == '/') n.base.toList

/-- Bases that are the same without the slashes at their ends have the same parts. -/
theorem basePieces_of_trim {base base' : String}
    (h : Text.trim (· == '/') base.toList = Text.trim (· == '/') base'.toList) :
    basePieces base = basePieces base' := by
  rw [basePieces, basePieces, h]

/-- Steps to an API make the same parts as the nodes on the way, if the groups among these add none. -/
theorem Spells.sameParts {steps : List (Kind A × String)} {nodes : List (Node R)} (h : Spells steps nodes)
    (hgroups : ∀ n ∈ nodes, n.takesId = false → basePieces n.base = [])
    (hlast : ∀ owner, nodes.getLast? = some owner → owner.takesId = true) :
    RoutePath.SameParts (nodes.map Node.segment) (steps.map fun step => stepSegment step.2) := by
  rw [Spells] at h
  induction nodes generalizing steps with
  | nil =>
      rw [List.map_eq_nil_iff.mp h]
      exact .nil
  | cons n nodes ih =>
      have hlast' : ∀ owner, nodes.getLast? = some owner → owner.takesId = true := by
        intro owner howner
        refine hlast owner ?_
        rw [List.getLast?_cons, howner]
        rfl
      have hgroups' : ∀ m ∈ nodes, m.takesId = false → basePieces m.base = [] :=
        fun m hm => hgroups m (List.mem_cons_of_mem n hm)
      cases htakes : n.takesId with
      | true =>
          rw [List.filter_cons_of_pos htakes, List.map_cons] at h
          obtain ⟨step, rest, rfl, hstep, hrest⟩ := List.map_eq_cons_iff.mp h
          exact .cons (basePieces_of_trim hstep.symm) htakes (ih hrest hgroups' hlast')
      | false =>
          rw [List.filter_cons_of_neg (by rw [htakes]; exact Bool.false_ne_true)] at h
          have hrest := ih h hgroups' hlast'
          refine .group (hgroups n List.mem_cons_self htakes) htakes (fun hnil => ?_) hrest
          -- a group is not the last node
          have hnodes := List.map_eq_nil_iff.mp (hrest.eq_nil_iff.mpr hnil)
          have hn := hlast n (by rw [hnodes]; rfl)
          rw [htakes] at hn
          cases hn

end Client

/-! ## All walks -/

namespace Site

/-- **A client that is extended along the chain of an API** renders the same URLs as the client at its end, if the
groups on the way add nothing to them. -/
theorem url_extend_iff {B : Type} {site : Site R} (howner : site.owner.takesId = true) {above below : List (Node R)}
    (hchain : site.chain = above ++ below) {client : Client B} (hclient : client.path = site.path .root)
    {start : Client A} (haddress : start.address = client.address) (hpath : start.path = RoutePath.root.below above)
    {steps : List (Kind A × String)} (hsteps : Client.Spells steps below)
    (hgroups : ∀ n ∈ below, n.takesId = false → basePieces n.base = []) (parents : List String)
    (id : Option String) (u : String) :
    (start.extend steps).url parents id = .ok u ↔ client.url parents id = .ok u := by
  obtain ⟨hextended, hsegments⟩ := start.extend_eq steps
  refine (Client.url_of_sameParts (haddress.symm.trans hextended.symm) ?_).symm
  have hlast : ∀ owner, below.getLast? = some owner → owner.takesId = true := by
    intro owner hlast
    have hend : site.chain.getLast? = some site.owner := List.getLast?_concat
    rw [hchain, List.getLast?_append, hlast] at hend
    cases hend
    exact howner
  have hsite : client.path.segments = above.map Node.segment ++ below.map Node.segment := by
    rw [hclient, path, hchain, RoutePath.below, List.map_append]
    rfl
  rw [hsite, hsegments, hpath]
  exact (hsteps.sameParts hgroups hlast).prepend (above.map Node.segment)

end Site

namespace Node

/-- **All walks meet in the client of an API** at a site. -/
structure MeetsAt (n : Node R) (address : String) (site : Site R) (s : Service R) (c : Client Record) : Prop where
  /-- The names of the chain lead to a client for the kind of the API with the same address, path and codes. -/
  named : ∃ typed, n.nestedClient address s.kind.name site.trail = .ok typed
    ∧ c.address = typed.address ∧ c.path = typed.path ∧ c.codes = typed.codes
  /-- Its two patterns are claimed for the API when the tree is assembled, right behind the check of the name. -/
  claimed : [.name (RoutePath.root.below site.above).segments site.owner.name, .pattern c.path.collectionPattern,
    .pattern c.path.itemPattern] <:+: n.checks .root
  /-- Any client at a node above renders the same URLs once it is extended by the bases of the APIs in between, if the
  groups in between have no parts in theirs. -/
  extended : ∀ (A : Type) (start : Client A) (above below : List (Node R)) (steps : List (Kind A × String)),
    site.chain = above ++ below → start.address = c.address → start.path = RoutePath.root.below above →
    Client.Spells steps below → (∀ m ∈ below, m.takesId = false → basePieces m.base = []) →
    ∀ parents id u, (start.extend steps).url parents id = .ok u ↔ c.url parents id = .ok u

/-- The walks meet in every client that is collected. -/
theorem meetsAt_client {n : Node R} (hn : n.SiblingsDiffer) (address : String) {site : Site R} (hsite : site ∈ n.sites)
    {s : Service R} (hs : site.owner.service = some s) :
    n.MeetsAt address site s (.forPath address (site.path .root) Record.schemaless s.codes) where
  named := ⟨_, nestedClient_trail hn hsite hs address, rfl, rfl, rfl⟩
  claimed := claims_within hsite hs .root
  extended A start above below steps hchain haddress hpath hsteps hgroups := by
    have howner : site.owner.takesId = true := by
      rw [takesId, hs]
      rfl
    exact Site.url_extend_iff howner hchain rfl haddress hpath hsteps hgroups

/-- **All walks see the same tree.** A map of clients exists if and only if no two APIs have the same name, and
otherwise the error gives the first name that is met again. Assembly follows the checks of the tree in their order. The
map has one client for every API, in order, and none for groups, and all walks meet in the client of an API. -/
theorem walks_agree (n : Node R) (address : String) (hn : n.SiblingsDiffer) :
    ((ClientMap.ofNode address n).isOk = true ↔ n.apiNames.Nodup)
      ∧ (∀ e, ClientMap.ofNode address n = .error e → ∃ before name after,
        n.apiNames = before ++ name :: after ∧ before.Nodup ∧ name ∈ before ∧ e = .duplicateName name)
      ∧ Follows (Site.patterns .root n.sites) (Check.runAll .empty (n.checks .root)) (assemble .root .empty n)
      ∧ ∀ m, ClientMap.ofNode address n = .ok m → m.clients.map Prod.fst = n.apiNames
        ∧ ∀ site ∈ n.sites, site.spot = .collection → ∀ s, site.owner.service = some s →
          ∃ c, m.get? site.owner.name = some c ∧ n.MeetsAt address site s c := by
  refine ⟨ClientMap.ofNode_isOk_iff n, fun e => ClientMap.repeated_of_ofNode, n.assemble_follows .root .empty, ?_⟩
  intro m hm
  have hnodup := (ClientMap.ofNode_isOk_iff n).mp (by rw [hm]; rfl)
  have hclients : m.clients = n.sites.filterMap (Site.client? address .root) := by
    rw [ClientMap.ofNode_of_nodup hnodup] at hm
    cases hm
    rfl
  refine ⟨by rw [hclients, names_clients], fun site hsite hspot s hs => ?_⟩
  refine ⟨_, (ClientMap.get?_eq_some_iff hm).mpr ⟨site, hsite, ?_⟩, meetsAt_client hn address hsite hs⟩
  rw [Site.client?, hspot, hs]

end Node

namespace Library

theorem siblingsDiffer_tree : tree.SiblingsDiffer := by
  have hartists : (Node.api { name := "artists", base := "/artists" } artistService).SiblingsDiffer :=
    Node.siblingsDiffer_childless _ _
  have halbums : albums.SiblingsDiffer := Node.siblingsDiffer_childless _ _
  exact hartists.nest halbums rfl

/-- A client of the library itself, which is no API. -/
def front : Client Record := .forPath "http://library" .root Record.schemaless .standard

/-- Other spellings of the bases of artists and albums. -/
def steps : List (Kind Record × String) := [(Record.schemaless, "artists//"), (Record.schemaless, "/albums")]

theorem spells_steps : Client.Spells steps [tree, albums] := by
  rw [Client.Spells]
  decide +kernel

end Library

open Library in
/-- A client of albums that is made base by base renders the URL that the client of the map renders. -/
theorem Node.walks_agree_library : tree.apiNames.Nodup
    ∧ clients.get? "albums" = some albumClient
    ∧ (front.extend steps).url ["a 1"] (some "x") = .ok "http://library/artists/a%201/albums/x" := by
  obtain ⟨hnodup, -, -, hmap⟩ := Node.walks_agree tree "http://library/" siblingsDiffer_tree
  obtain ⟨-, hclients⟩ := hmap clients clients_tree
  obtain ⟨c, hget, hmeets⟩ := hclients albumsSite albumsSite_mem rfl _ rfl
  obtain rfl : albumClient = c := Option.some.inj hget
  have hgroups : ∀ m ∈ [tree, albums], m.takesId = false → basePieces m.base = [] := by
    intro m hm htakes
    simp only [List.mem_cons, List.not_mem_nil, or_false] at hm
    rcases hm with rfl | rfl <;> cases htakes
  refine ⟨hnodup.mp (by rw [clients_tree]; rfl), hget, ?_⟩
  refine (hmeets.extended Record front [] [tree, albums] steps rfl (by decide +kernel) rfl spells_steps hgroups _ _
    _).mpr ?_
  decide +kernel

namespace Library

/-- A group of what there is besides, with albums below. -/
def extras : Node Record := .mk { name := "extras", base := "/extras" } none [albums]

/-- Artists with such a group below. -/
def grouped : Node Record := .mk { name := "artists", base := "/artists" } (some artistService) [extras]

/-- The client for artists. -/
def artistClient : Client Record :=
  .forPath "http://library/" ⟨[⟨"artists", "/artists", true⟩]⟩ Record.schemaless .standard

/-- The client for albums in the group. -/
def extraClient : Client Record :=
  .forPath "http://library/"
    ⟨[⟨"artists", "/artists", true⟩, ⟨"extras", "/extras", false⟩, ⟨"albums", "/albums", true⟩]⟩ Record.schemaless
    .standard

end Library

open Library in
/-- **Two walks part at a group with a base.** Albums are in a group below artists. The base of the group is in the URL
that the client of the map renders, and not in that of the client for artists extended by the base of albums. -/
theorem Node.walks_part : grouped.SiblingsDiffer
    ∧ ClientMap.ofNode "http://library/" grouped = .ok ⟨[("artists", artistClient), ("albums", extraClient)]⟩
    ∧ Client.Spells [(Record.schemaless, "/albums")] [extras, albums]
    ∧ extraClient.url ["a"] (some "x") = .ok "http://library/artists/a/extras/albums/x"
    ∧ (artistClient.extend [(Record.schemaless, "/albums")]).url ["a"] (some "x")
      = .ok "http://library/artists/a/albums/x" := by
  have hartists : (Node.api { name := "artists", base := "/artists" } artistService).SiblingsDiffer :=
    siblingsDiffer_childless _ _
  have hextras : (Node.group { name := "extras", base := "/extras" } : Node Record).SiblingsDiffer :=
    siblingsDiffer_childless _ _
  have halbums : albums.SiblingsDiffer := siblingsDiffer_childless _ _
  refine ⟨hartists.nest (hextras.nest halbums rfl) rfl, rfl, ?_, by decide +kernel, by decide +kernel⟩
  rw [Client.Spells]
  decide +kernel

end ResourceTree
