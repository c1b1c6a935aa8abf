import ResourceTree.Proofs.SideBySide
import ResourceTree.Proofs.TreeRoutes
import Mathlib.Data.List.Induction
import Mathlib.Data.List.Nodup

/-! # The checks of a tree

Assembling a tree makes a list of checks in a fixed order (`Node.checks`): for every node its name, then the patterns of
its own routes, then the checks of its children, and last its root routes. In between the matcher is given the patterns
of the routes, and it may give up on them. `Node.assemble_follows` says that apart from this an assembly does what its
checks do, by one induction over the tree. So a tree has a router if and only if it is well-formed (`Node.WellFormed`)
and the matcher takes its patterns side by side. If the matcher takes them, the error of a tree without a router is that
of the first check that is violated: `Node.router_decides`. -/

namespace ResourceTree

variable {R : Type}

/-! ## Lists of checks -/

/-- A check that is made while a tree is assembled. -/
inductive Check where
  /-- The path parameter for a name is not that of a segment above. -/
  | name (above : List Segment) (name : String)
  /-- The shape of a pattern was not claimed before. -/
  | pattern (pattern : String)
  /-- A node with root routes has nothing above. -/
  | rootRoutes (above : List Segment) (name : String)

namespace Check

/-- The pattern that is claimed by a check. -/
def pattern? : Check → Option String
  | .pattern p => some p
  | _ => none

/-- The patterns that are claimed by a list of checks. -/
def patterns (checks : List Check) : List String := checks.filterMap pattern?

/-- **A check is violated** behind others, which gives an error: a name clashes with a segment above, of which the
outermost is named, a pattern has the shape of an earlier one, or a node with root routes is not at the top. -/
inductive Violated (before : List Check) : Check → ConfigError → Prop where
  | name {outer inner : List Segment} {clash : Segment} {name : String}
      (houter : ∀ s ∈ outer, s.idParam ≠ idParam name) (hclash : clash.idParam = idParam name) :
      Violated before (.name (outer ++ clash :: inner) name) (.duplicateName clash.name name)
  | pattern {p earlier : String} (hearlier : earlier ∈ patterns before) (hshape : routeShape earlier = routeShape p) :
      Violated before (.pattern p) (.routeConflict p earlier)
  | rootRoutes {above : List Segment} {name : String} (habove : above ≠ []) :
      Violated before (.rootRoutes above name) (.rootRouteOnChild name)

/-- Checks of which none is violated. -/
structure Accepted (checks : List Check) : Prop where
  names : ∀ above name, .name above name ∈ checks → ∀ s ∈ above, s.idParam ≠ idParam name
  roots : ∀ above name, .rootRoutes above name ∈ checks → above = []
  shapes : ((patterns checks).map routeShape).Nodup

/-- **An error is that of the first violated check.** -/
def FirstViolated (checks : List Check) (e : ConfigError) : Prop :=
  ∃ before check after, checks = before ++ check :: after ∧ Accepted before ∧ Violated before check e

variable {before : List Check} {check : Check}

theorem patterns_append (checks more : List Check) : patterns (checks ++ more) = patterns checks ++ patterns more :=
  List.filterMap_append

theorem patterns_singleton (check : Check) : patterns [check] = check.pattern?.toList := by
  cases check <;> rfl

theorem Accepted.nil : Accepted [] where
  names _ _ h := by cases h
  roots _ _ h := by cases h
  shapes := .nil

/-- The checks before others are accepted with them. -/
theorem Accepted.of_append {after : List Check} (h : Accepted (before ++ after)) : Accepted before where
  names above name hmem := h.names above name (List.mem_append_left after hmem)
  roots above name hmem := h.roots above name (List.mem_append_left after hmem)
  shapes := by
    have hshapes := h.shapes
    rw [patterns_append, List.map_append] at hshapes
    exact hshapes.of_append_left

/-- A name clashes with a segment above just when its check is violated. -/
theorem exists_violated_name {above : List Segment} {name : String} :
    (∃ e, Violated before (.name above name) e) ↔ ∃ s ∈ above, s.idParam = idParam name := by
  constructor
  · rintro ⟨_, h⟩
    cases h with
    | @name outer inner clash _ houter hclash =>
        exact ⟨clash, List.mem_append_right outer List.mem_cons_self, hclash⟩
  · rintro ⟨s, hs, hparam⟩
    -- of all segments that clash the first one is named
    obtain ⟨clash, hfind⟩ : ∃ clash, above.find? (fun s => s.idParam == idParam name) = some clash := by
      refine Option.isSome_iff_exists.mp (List.find?_isSome.mpr ⟨s, hs, ?_⟩)
      simpa using hparam
    obtain ⟨hclash, outer, inner, rfl, houter⟩ := List.find?_eq_some_iff_append.mp hfind
    exact ⟨_, .name (fun s hs => by simpa using houter s hs) (by simpa using hclash)⟩

/-- **One more check is accepted** just when it is not violated behind the others. -/
theorem accepted_concat : Accepted (before ++ [check]) ↔ Accepted before ∧ ∀ e, ¬Violated before check e := by
  constructor
  · intro h
    refine ⟨h.of_append, fun e hviolated => ?_⟩
    have hmem : check ∈ before ++ [check] := List.mem_append_right before List.mem_cons_self
    cases hviolated with
    | @name outer inner clash name houter hclash =>
        exact h.names _ name hmem clash (List.mem_append_right outer List.mem_cons_self) hclash
    | @pattern p earlier hearlier hshape =>
        have hshapes := h.shapes
        rw [patterns_append, List.map_append, List.nodup_append] at hshapes
        have hlast : routeShape p ∈ (patterns [.pattern p]).map routeShape := List.mem_cons_self
        exact hshapes.2.2 _ (List.mem_map_of_mem hearlier) _ hlast hshape
    | rootRoutes habove => exact habove (h.roots _ _ hmem)
  · -- in each of the three kinds of checks only the last one can be at fault
    rintro ⟨h, hnot⟩
    constructor
    · intro above name hmem s hs hparam
      rcases List.mem_append.mp hmem with hmem | hmem
      · exact h.names above name hmem s hs hparam
      · rw [← List.mem_singleton.mp hmem] at hnot
        obtain ⟨e, he⟩ := exists_violated_name.mpr ⟨s, hs, hparam⟩
        exact hnot e he
    · intro above name hmem
      rcases List.mem_append.mp hmem with hmem | hmem
      · exact h.roots above name hmem
      · rw [← List.mem_singleton.mp hmem] at hnot
        by_contra habove
        exact hnot _ (.rootRoutes habove)
    · rw [patterns_append, patterns_singleton, List.map_append, List.nodup_append]
      refine ⟨h.shapes, ?_, ?_⟩
      · cases check.pattern? <;> simp
      · intro shape hshape shape' hshape' heq
        obtain ⟨earlier, hearlier, rfl⟩ := List.mem_map.mp hshape
        obtain ⟨p, hp, rfl⟩ := List.mem_map.mp hshape'
        cases check with
        | pattern p' =>
            cases List.mem_singleton.mp hp
            exact hnot _ (.pattern hearlier heq)
        | name above n => cases hp
        | rootRoutes above n => cases hp

/-- What making a check does with the table of claimed routes. -/
def run (table : RouteTable) : Check → Except ConfigError RouteTable
  | .name above n => (Node.checkChain n ⟨above⟩).map fun _ => table
  | .pattern p => table.claim p
  | .rootRoutes above n => if above.isEmpty then .ok table else .error (.rootRouteOnChild n)

/-- A table in which the patterns of some checks are claimed, and no other ones. -/
def Tracks (table : RouteTable) (checks : List Check) : Prop :=
  table.claimed = (patterns checks).map fun p => (routeShape p, p)

/-- A shape is found in a table just when an earlier pattern has it. -/
theorem Tracks.find? {table : RouteTable} (h : Tracks table before) (shape : List Shape) :
    table.find? shape = (patterns before).find? fun earlier => routeShape earlier == shape := by
  rw [RouteTable.find?, h, List.find?_map, Option.map_map]
  exact Option.map_id'

/-- A check that fails is violated, and the error says how. -/
theorem violated_of_run {table : RouteTable} {e : ConfigError} (h : Tracks table before)
    (hrun : check.run table = .error e) : Violated before check e := by
  cases check with
  | name above n =>
      cases hfind : above.find? fun s => s.idParam == idParam n with
      | none => simp [run, Node.checkChain, hfind, Except.map] at hrun
      | some clash =>
          obtain ⟨hclash, outer, inner, rfl, houter⟩ := List.find?_eq_some_iff_append.mp hfind
          simp only [run, Node.checkChain, hfind, Except.map, Except.error.injEq] at hrun
          subst hrun
          exact .name (fun s hs => by simpa using houter s hs) (by simpa using hclash)
  | pattern p =>
      cases hfind : (patterns before).find? fun earlier => routeShape earlier == routeShape p with
      | none => simp [run, RouteTable.claim, h.find?, hfind] at hrun
      | some earlier =>
          simp only [run, RouteTable.claim, h.find?, hfind, Except.error.injEq] at hrun
          subst hrun
          exact .pattern (List.mem_of_find?_eq_some hfind) (by simpa using List.find?_some hfind)
  | rootRoutes above n =>
      cases above with
      | nil => cases hrun
      | cons s above =>
          cases hrun
          exact .rootRoutes (List.cons_ne_nil s above)

/-- A check that succeeds is not violated, and the table tracks it too. -/
theorem Tracks.run {table table' : RouteTable} (h : Tracks table before) (hrun : check.run table = .ok table') :
    Tracks table' (before ++ [check]) ∧ ∀ e, ¬Violated before check e := by
  -- a check that claims nothing leaves the table as it is
  have hsame (hnone : check.pattern? = none) : Tracks table (before ++ [check]) := by
    rw [Tracks, patterns_append, patterns_singleton, hnone, Option.toList_none, List.append_nil]
    exact h
  cases check with
  | name above n =>
      cases hfind : above.find? fun s => s.idParam == idParam n with
      | some clash => simp [Check.run, Node.checkChain, hfind, Except.map] at hrun
      | none =>
          simp only [Check.run, Node.checkChain, hfind, Except.map, Except.ok.injEq] at hrun
          subst hrun
          refine ⟨hsame rfl, fun e he => ?_⟩
          obtain ⟨s, hs, hparam⟩ := exists_violated_name.mp ⟨e, he⟩
          exact absurd hparam (by simpa using List.find?_eq_none.mp hfind s hs)
  | pattern p =>
      cases hfind : (patterns before).find? fun earlier => routeShape earlier == routeShape p with
      | some earlier => simp [Check.run, RouteTable.claim, h.find?, hfind] at hrun
      | none =>
          simp only [Check.run, RouteTable.claim, h.find?, hfind, Except.ok.injEq] at hrun
          subst hrun
          refine ⟨?_, fun e he => ?_⟩
          · rw [Tracks, patterns_append, List.map_append, ← h]
            rfl
          · cases he with
            | pattern hearlier hshape =>
                exact absurd hshape (by simpa using List.find?_eq_none.mp hfind _ hearlier)
  | rootRoutes above n =>
      cases above with
      | cons s above => cases hrun
      | nil =>
          cases hrun
          refine ⟨hsame rfl, fun e he => ?_⟩
          cases he with
          | rootRoutes habove => exact habove rfl

/-- Makes checks one after another. -/
def runAll (table : RouteTable) (checks : List Check) : Except ConfigError RouteTable := checks.foldlM run table

theorem runAll_cons (table : RouteTable) (check : Check) (checks : List Check) :
    runAll table (check :: checks) = check.run table >>= (runAll · checks) := List.foldlM_cons

theorem runAll_append (table : RouteTable) (checks more : List Check) :
    runAll table (checks ++ more) = runAll table checks >>= (runAll · more) := List.foldlM_append

/-- **Making checks** succeeds if all are accepted, and otherwise gives the error of the first violated one, by
induction on the checks from the last one. -/
theorem runAll_spec (checks : List Check) :
    (∀ table, runAll .empty checks = .ok table → Tracks table checks ∧ Accepted checks)
      ∧ ∀ e, runAll .empty checks = .error e → FirstViolated checks e := by
  induction checks using List.reverseRecOn with
  | nil =>
      constructor
      · intro table h
        cases h
        exact ⟨rfl, .nil⟩
      · intro e h
        cases h
  | append_singleton before check ih =>
      have hone (table : RouteTable) : runAll table [check] = check.run table := bind_pure _
      rw [runAll_append]
      cases hbefore : runAll .empty before with
      | error e =>
          -- an earlier check failed, and the last one is not made
          constructor
          · intro table h
            cases h
          · intro e' h
            cases h
            obtain ⟨earlier, first, after, rfl, haccepted, hviolated⟩ := ih.2 e hbefore
            exact ⟨earlier, first, after ++ [check], by simp, haccepted, hviolated⟩
      | ok table =>
          obtain ⟨htracks, haccepted⟩ := ih.1 table hbefore
          refine ⟨fun table' h => ?_, fun e h => ?_⟩
          · obtain ⟨htracks', hnot⟩ := htracks.run ((hone table).symm.trans h)
            exact ⟨htracks', accepted_concat.mpr ⟨haccepted, hnot⟩⟩
          · exact ⟨before, check, [], rfl, haccepted, violated_of_run htracks ((hone table).symm.trans h)⟩

end Check

/-! ## The checks of a tree -/

/-- The claims of the custom routes below a pattern. -/
def CustomRoute.checks (stem : String) (customs : List (CustomRoute R)) : List Check :=
  customs.map fun r => .pattern (joinPaths stem r.path)

namespace Node

/-- The claims of a node's own routes, root routes apart: those of its resources, if it has any, then of the custom
routes below its base, and then of those below an ID. -/
def ownChecks (frame : Frame R) (path : RoutePath) : Option (Service R) → List Check
  | none => CustomRoute.checks path.collectionPattern frame.routes
  | some s =>
    .pattern path.collectionPattern :: .pattern path.itemPattern
      :: (CustomRoute.checks path.collectionPattern frame.routes ++ CustomRoute.checks path.itemPattern s.idRoutes)

/-- The check that a node with root routes is at the top, and the claims of these routes. -/
def rootChecks (frame : Frame R) (parent : RoutePath) : List Check :=
  if frame.rootRoutes.isEmpty then []
  else .rootRoutes parent.segments frame.name :: CustomRoute.checks "/" frame.rootRoutes

mutual

/-- The checks of a tree below a path, in the order in which they are made. -/
def checks (parent : RoutePath) : Node R → List Check
  | .mk frame service children =>
    .name parent.segments frame.name
      :: (ownChecks frame (parent.child frame.name frame.base service.isSome) service
        ++ (checksOf (parent.child frame.name frame.base service.isSome) children ++ rootChecks frame parent))

/-- The checks of siblings, in order. -/
def checksOf (parent : RoutePath) : List (Node R) → List Check
  | [] => []
  | n :: ns => n.checks parent ++ checksOf parent ns

end

/-- The patterns of a tree, in the order in which they are claimed. -/
def patterns (n : Node R) : List String := Check.patterns (n.checks .root)

end Node

/-! ## Well-formed trees -/

/-- A node of a tree with the nodes above it, the outermost first. -/
structure Place (R : Type) where
  above : List (Node R)
  node : Node R

namespace Place

/-- A place with one more node above. -/
def under (n : Node R) (place : Place R) : Place R := { place with above := n :: place.above }

/-- The checks that a tree below a path makes for the node at a place. -/
def checks (parent : RoutePath) (place : Place R) : List Check :=
  .name (parent.below place.above).segments place.node.name
    :: (Node.ownChecks place.node.frame (place.node.pathBelow (parent.below place.above)) place.node.service
      ++ Node.rootChecks place.node.frame (parent.below place.above))

theorem checks_under (parent : RoutePath) (n : Node R) (place : Place R) :
    (place.under n).checks parent = place.checks (n.pathBelow parent) := by
  rw [checks, checks, under, RoutePath.below_cons]

end Place

/-- Custom routes are only claimed. -/
theorem CustomRoute.mem_checks {stem : String} {customs : List (CustomRoute R)} {check : Check}
    (h : check ∈ CustomRoute.checks stem customs) : ∃ p, check = .pattern p := by
  obtain ⟨r, -, rfl⟩ := List.mem_map.mp h
  exact ⟨_, rfl⟩

namespace Node

/-- A node's own routes are only claimed. -/
theorem mem_ownChecks {frame : Frame R} {path : RoutePath} {service : Option (Service R)} {check : Check}
    (h : check ∈ ownChecks frame path service) : ∃ p, check = .pattern p := by
  cases service with
  | none => exact CustomRoute.mem_checks h
  | some s =>
      rw [ownChecks, List.mem_cons, List.mem_cons, List.mem_append] at h
      rcases h with rfl | rfl | h | h
      · exact ⟨_, rfl⟩
      · exact ⟨_, rfl⟩
      · exact CustomRoute.mem_checks h
      · exact CustomRoute.mem_checks h

mutual

/-- The nodes of a tree, each before those below it. -/
def places : Node R → List (Place R)
  | .mk frame service children =>
    ⟨[], .mk frame service children⟩ :: (placesOf children).map (Place.under (.mk frame service children))

/-- The nodes of sibling trees. -/
def placesOf : List (Node R) → List (Place R)
  | [] => []
  | n :: ns => n.places ++ placesOf ns

end

mutual

/-- **The checks of a tree** are those of its nodes, by induction on the tree. -/
theorem mem_checks (parent : RoutePath) {check : Check} (n : Node R) :
    check ∈ n.checks parent ↔ ∃ place ∈ n.places, check ∈ place.checks parent := by
  match n with
  | .mk frame service children =>
      have hnode : (⟨[], .mk frame service children⟩ : Place R).checks parent
          = .name parent.segments frame.name
            :: (ownChecks frame (parent.child frame.name frame.base service.isSome) service
              ++ rootChecks frame parent) := by
        rw [Place.checks, RoutePath.below_nil]
        rfl
      have hbelow : check ∈ checksOf (parent.child frame.name frame.base service.isSome) children
          ↔ ∃ place ∈ placesOf children, check ∈ (place.under (.mk frame service children)).checks parent := by
        rw [mem_checksOf _ children]
        simp only [Place.checks_under]
        rfl
      -- the node's own checks stand around those below, its root routes behind them
      rw [checks, places, List.exists_mem_cons_iff, hnode]
      simp only [List.mem_cons, List.mem_append, List.mem_map, exists_exists_and_eq_and, hbelow]
      rw [or_assoc, or_assoc]
      exact or_congr_right (or_congr_right or_comm)

/-- The checks of siblings. -/
theorem mem_checksOf (parent : RoutePath) {check : Check} (ns : List (Node R)) :
    check ∈ checksOf parent ns ↔ ∃ place ∈ placesOf ns, check ∈ place.checks parent := by
  match ns with
  | [] => simp [checksOf, placesOf]
  | n :: ns =>
      rw [checksOf, placesOf, List.mem_append, mem_checks parent n, mem_checksOf parent ns]
      simp only [List.mem_append, or_and_right, exists_or]

end

end Node

namespace Place

variable {place : Place R} {parent : RoutePath}

/-- The name at a place is checked against those of the nodes above. -/
theorem name_mem_checks : .name (parent.below place.above).segments place.node.name ∈ place.checks parent :=
  List.mem_cons_self

/-- Root routes are checked where a node has some. -/
theorem rootRoutes_mem_checks (h : place.node.frame.rootRoutes ≠ []) :
    .rootRoutes (parent.below place.above).segments place.node.name ∈ place.checks parent := by
  have hroots : .rootRoutes (parent.below place.above).segments place.node.name
      ∈ Node.rootChecks place.node.frame (parent.below place.above) := by
    rw [Node.rootChecks, if_neg (by rwa [List.isEmpty_iff])]
    exact List.mem_cons_self
  exact List.mem_cons_of_mem _ (List.mem_append_right _ hroots)

/-- Besides these two checks there are only claims. -/
theorem cases_of_mem_checks {check : Check} (h : check ∈ place.checks parent) :
    check = .name (parent.below place.above).segments place.node.name
      ∨ (place.node.frame.rootRoutes ≠ []
        ∧ check = .rootRoutes (parent.below place.above).segments place.node.name)
      ∨ ∃ p, check = .pattern p := by
  rw [checks, List.mem_cons, List.mem_append] at h
  rcases h with rfl | h | h
  · exact Or.inl rfl
  · exact Or.inr (Or.inr (Node.mem_ownChecks h))
  · rw [Node.rootChecks] at h
    split at h
    · cases h
    · next hroots =>
        rw [List.isEmpty_iff] at hroots
        rcases List.mem_cons.mp h with rfl | h
        · exact Or.inr (Or.inl ⟨hroots, rfl⟩)
        · exact Or.inr (Or.inr (CustomRoute.mem_checks h))

end Place

namespace Node

/-- **A tree that can be assembled**: no node has the path parameter of one above it, only the top has root routes,
and no two patterns have the same shape. -/
structure WellFormed (n : Node R) : Prop where
  params : ∀ place ∈ n.places, ∀ m ∈ place.above, idParam m.name ≠ idParam place.node.name
  roots : ∀ place ∈ n.places, place.node.frame.rootRoutes ≠ [] → place.above = []
  shapes : (n.patterns.map routeShape).Nodup

/-- The checks of a tree are accepted just when it is well-formed. -/
theorem accepted_checks_iff (n : Node R) : Check.Accepted (n.checks .root) ↔ n.WellFormed := by
  have habove (place : Place R) : (RoutePath.root.below place.above).segments = place.above.map segment :=
    List.nil_append _
  constructor
  · intro h
    constructor
    · intro place hplace m hm
      refine h.names _ _ ((mem_checks .root n).mpr ⟨place, hplace, Place.name_mem_checks⟩) m.segment ?_
      rw [habove]
      exact List.mem_map_of_mem hm
    · intro place hplace hroots
      have hnil := h.roots _ _ ((mem_checks .root n).mpr ⟨place, hplace, Place.rootRoutes_mem_checks hroots⟩)
      rw [habove] at hnil
      exact List.map_eq_nil_iff.mp hnil
    · exact h.shapes
  · intro h
    constructor
    · intro above name hmem s hs
      obtain ⟨place, hplace, hcheck⟩ := (mem_checks .root n).mp hmem
      rcases Place.cases_of_mem_checks hcheck with hname | ⟨-, hroot⟩ | ⟨p, hp⟩
      · cases hname
        rw [habove] at hs
        obtain ⟨m, hm, rfl⟩ := List.mem_map.mp hs
        exact h.params place hplace m hm
      · cases hroot
      · cases hp
    · intro above name hmem
      obtain ⟨place, hplace, hcheck⟩ := (mem_checks .root n).mp hmem
      rcases Place.cases_of_mem_checks hcheck with hname | ⟨hroots, hroot⟩ | ⟨p, hp⟩
      · cases hname
      · cases hroot
        rw [habove, h.roots place hplace hroots]
        rfl
      · cases hp
    · exact h.shapes

end Node

/-! ## The patterns that are registered -/

/-- The patterns of custom routes below another pattern. -/
def CustomRoute.patterns (stem : String) (customs : List (CustomRoute R)) : List String :=
  customs.map fun r => joinPaths stem r.path

theorem CustomRoute.patterns_checks (stem : String) (customs : List (CustomRoute R)) :
    Check.patterns (CustomRoute.checks stem customs) = CustomRoute.patterns stem customs := by
  induction customs with
  | nil => rfl
  | cons r customs ih => exact congrArg _ ih

/-- The patterns of the routes at some sites below a path. -/
def Site.patterns (parent : RoutePath) (sites : List (Site R)) : List String :=
  sites.map fun site => (site.route parent).pattern

namespace Node

theorem patterns_ownChecks (frame : Frame R) (path : RoutePath) (service : Service R) :
    Check.patterns (ownChecks frame path (some service))
      = path.collectionPattern :: path.itemPattern
        :: (CustomRoute.patterns path.collectionPattern frame.routes
          ++ CustomRoute.patterns path.itemPattern service.idRoutes) := by
  rw [← CustomRoute.patterns_checks, ← CustomRoute.patterns_checks, ← Check.patterns_append]
  rfl

theorem patterns_rootChecks (frame : Frame R) (parent : RoutePath) :
    Check.patterns (rootChecks frame parent) = CustomRoute.patterns "/" frame.rootRoutes := by
  rw [rootChecks]
  by_cases hroots : frame.rootRoutes = []
  · rw [hroots]
    rfl
  · rw [if_neg (by rwa [List.isEmpty_iff])]
    exact CustomRoute.patterns_checks "/" frame.rootRoutes

/-- The patterns that a tree claims are those of the node's own routes, then those of the trees below, and then those of
the root routes. -/
theorem patterns_checks (frame : Frame R) (service : Option (Service R)) (children : List (Node R))
    (parent : RoutePath) :
    Check.patterns (checks parent (.mk frame service children))
      = Check.patterns (ownChecks frame (parent.child frame.name frame.base service.isSome) service)
        ++ (Check.patterns (checksOf (parent.child frame.name frame.base service.isSome) children)
          ++ CustomRoute.patterns "/" frame.rootRoutes) := by
  rw [checks, ← patterns_rootChecks frame parent, ← Check.patterns_append, ← Check.patterns_append]
  rfl

/-- The patterns of sites below a node are those of the sites below the node's path. -/
theorem patterns_under (n : Node R) (parent : RoutePath) (sites : List (Site R)) :
    Site.patterns parent (sites.map (Site.under n)) = Site.patterns (n.pathBelow parent) sites := by
  rw [Site.patterns, List.map_map]
  refine List.map_congr_left fun site _ => ?_
  show ((site.under n).route parent).pattern = _
  rw [Site.route_under]
  rfl

/-- The patterns of a group, in the order in which its routes are put together. -/
theorem patterns_group (frame : Frame R) (children : List (Node R)) (parent : RoutePath) :
    Site.patterns parent (sites (.mk frame none children))
      = CustomRoute.patterns (parent.child frame.name frame.base false).collectionPattern frame.routes
        ++ Site.patterns (parent.child frame.name frame.base false) (sitesOf children)
        ++ CustomRoute.patterns "/" frame.rootRoutes := by
  have hunder := patterns_under (.mk frame none children) parent (sitesOf children)
  rw [Site.patterns] at hunder
  rw [sites, Site.patterns, List.map_append, List.map_append, hunder, List.map_map, List.map_map]
  rfl

/-- The patterns of an API, in the order in which its routes are put together. -/
theorem patterns_api (frame : Frame R) (service : Service R) (children : List (Node R)) (parent : RoutePath) :
    Site.patterns parent (sites (.mk frame (some service) children))
      = [(parent.child frame.name frame.base true).collectionPattern]
        ++ CustomRoute.patterns (parent.child frame.name frame.base true).collectionPattern frame.routes
        ++ ([(parent.child frame.name frame.base true).itemPattern]
          ++ (CustomRoute.patterns (parent.child frame.name frame.base true).itemPattern service.idRoutes
            ++ Site.patterns (parent.child frame.name frame.base true) (sitesOf children)))
        ++ CustomRoute.patterns "/" frame.rootRoutes := by
  have hunder := patterns_under (.mk frame (some service) children) parent (sitesOf children)
  rw [Site.patterns] at hunder
  rw [sites, Site.patterns, List.map_append, List.map_append, List.map_append, hunder, List.map_cons, List.map_cons,
    List.map_map, List.map_map, List.map_map]
  simp only [List.append_assoc, List.cons_append, List.nil_append]
  rfl

mutual

/-- **The routes of a tree have the patterns that are claimed**, by induction on the tree. -/
theorem patterns_sites (parent : RoutePath) (n : Node R) :
    (Site.patterns parent n.sites).Perm (Check.patterns (n.checks parent)) := by
  match n with
  | .mk frame none children =>
      have hbelow := patterns_sitesOf (parent.child frame.name frame.base false) children
      rw [patterns_group, patterns_checks, ownChecks, CustomRoute.patterns_checks, List.append_assoc]
      exact (hbelow.append_right _).append_left _
  | .mk frame (some service) children =>
      have hbelow := patterns_sitesOf (parent.child frame.name frame.base true) children
      rw [patterns_api, patterns_checks, Option.isSome_some, patterns_ownChecks]
      simp only [List.append_assoc, List.cons_append, List.nil_append]
      -- the item's route stands behind the custom routes, but its pattern is claimed before theirs
      refine .cons _ (List.perm_middle.trans (.cons _ ?_))
      exact ((hbelow.append_right _).append_left _).append_left _

/-- The routes of sibling trees have the patterns that are claimed. -/
theorem patterns_sitesOf (parent : RoutePath) (ns : List (Node R)) :
    (Site.patterns parent (sitesOf ns)).Perm (Check.patterns (checksOf parent ns)) := by
  match ns with
  | [] => exact .nil
  | n :: ns =>
      rw [sitesOf, checksOf, Site.patterns, List.map_append, Check.patterns_append]
      exact (patterns_sites parent n).append (patterns_sitesOf parent ns)

end

end Node

/-! ## Assembly follows the checks -/

open Route (SideBySide)

/-- **An assembly follows checks** of this outcome: it has the table that they give, or is refused with their error, and
its routes have these patterns. The matcher takes them side by side, unless it gives up. -/
inductive Follows (patterns : List String) : Except ConfigError RouteTable → Except BuildError (Assembly R) → Prop where
  | done (table : RouteTable) {routes : List (Route R)} (hroutes : routes.map Route.pattern = patterns)
      (htaken : SideBySide patterns) : Follows patterns (.ok table) (.ok (routes, table))
  | refused (e : ConfigError) : Follows patterns (.error e) (.error (.refused e))
  | panicked (outcome : Except ConfigError RouteTable) (hnot : ¬SideBySide patterns) :
      Follows patterns outcome (.error .panicked)

namespace Follows

variable {α : Type} {patterns ps qs : List String} {outcome : Except ConfigError RouteTable}

/-- A check is made before anything else. -/
theorem check_bind {x : Except ConfigError α} {next : α → Except ConfigError RouteTable}
    {f : α → Except BuildError (Assembly R)} (h : ∀ a, Follows patterns (next a) (f a)) :
    Follows patterns (x >>= next) (x.mapError .refused >>= f) := by
  cases x with
  | error e => exact .refused e
  | ok a => exact h a

/-- Part of the tree is assembled before the rest. -/
theorem bind {x : Except BuildError (Assembly R)} {next : RouteTable → Except ConfigError RouteTable}
    {f : Assembly R → Except BuildError (Assembly R)} (hx : Follows ps outcome x)
    (hneeded : SideBySide patterns → SideBySide ps)
    (h : ∀ routes table, routes.map Route.pattern = ps → SideBySide ps →
      Follows patterns (next table) (f (routes, table))) :
    Follows patterns (outcome >>= next) (x >>= f) := by
  cases hx with
  | done table hroutes htaken => exact h _ table hroutes htaken
  | refused e => exact .refused e
  | panicked outcome hnot => exact .panicked _ fun hall => hnot (hneeded hall)

/-- A route is mounted before the rest. -/
theorem mount_bind {r : Route R} {f : List (Route R) → Except BuildError (Assembly R)}
    (hneeded : SideBySide patterns → SideBySide [r.pattern])
    (h : SideBySide [r.pattern] → Follows patterns outcome (f [r])) :
    Follows patterns outcome (Router.mount r >>= f) := by
  rw [Router.mount]
  by_cases hmountable : Route.isMountable r.pattern = true
  · rw [if_pos hmountable]
    exact h (SideBySide.singleton_iff.mpr hmountable)
  · rw [if_neg hmountable]
    exact .panicked outcome fun hall => hmountable (SideBySide.singleton_iff.mp (hneeded hall))

/-- Two routers are merged before the rest. -/
theorem merge_bind {routes more : List (Route R)} {f : List (Route R) → Except BuildError (Assembly R)}
    (hroutes : routes.map Route.pattern = ps) (hmore : more.map Route.pattern = qs) (hps : SideBySide ps)
    (hqs : SideBySide qs) (hneeded : SideBySide patterns → SideBySide (ps ++ qs))
    (h : ∀ merged, merged.map Route.pattern = ps ++ qs → SideBySide (ps ++ qs) → Follows patterns outcome (f merged)) :
    Follows patterns outcome (Router.merge routes more >>= f) := by
  rw [Router.merge, hroutes, hmore]
  cases hclash : Route.anyClash ps qs with
  | true =>
      refine .panicked outcome fun hall => ?_
      rw [(SideBySide.append_iff.mp (hneeded hall)).2.2] at hclash
      cases hclash
  | false => exact h _ (by rw [List.map_append, hroutes, hmore]) (SideBySide.append_iff.mpr ⟨hps, hqs, hclash⟩)

end Follows

/-- Custom routes are claimed and added to those before, by induction on the list. -/
theorem CustomRoute.assemble_follows (stem : String) (node : NodeKey) (customs : List (CustomRoute R))
    (done : Assembly R) (hdone : SideBySide (done.1.map Route.pattern)) :
    Follows (done.1.map Route.pattern ++ CustomRoute.patterns stem customs)
      (Check.runAll done.2 (CustomRoute.checks stem customs)) (CustomRoute.assemble stem node done customs) := by
  induction customs generalizing done with
  | nil =>
      rw [patterns, List.map_nil, List.append_nil]
      exact .done done.2 rfl hdone
  | cons r customs ih =>
      have hpatterns : done.1.map Route.pattern ++ patterns stem (r :: customs)
          = done.1.map Route.pattern ++ [joinPaths stem r.path] ++ patterns stem customs := by
        rw [List.append_assoc]
        rfl
      rw [hpatterns, checks, List.map_cons, Check.runAll_cons, assemble]
      refine .check_bind fun table => ?_
      refine .mount_bind (fun hall => hall.left.right) fun hr => ?_
      refine .merge_bind rfl rfl hdone hr SideBySide.left fun merged hmerged htaken => ?_
      have hrest := ih (merged, table) (hmerged ▸ htaken)
      rwa [hmerged] at hrest

/-- Layers do not change what a router matches. -/
theorem Route.patterns_behind (layers : List (Layer R)) {routes : List (Route R)} {ps : List String}
    (h : routes.map Route.pattern = ps) : (routes.map (Route.behind layers)).map Route.pattern = ps := by
  rw [List.map_map, ← h]
  rfl

namespace Node

/-- Enclosing routes adds the root routes. -/
theorem enclose_follows (frame : Frame R) (parent : RoutePath) (node : NodeKey) (routes : List (Route R))
    (table : RouteTable) (hroutes : SideBySide (routes.map Route.pattern)) :
    Follows (routes.map Route.pattern ++ CustomRoute.patterns "/" frame.rootRoutes)
      (Check.runAll table (rootChecks frame parent)) (enclose frame parent node routes table) := by
  rw [enclose, rootChecks]
  cases hroots : frame.rootRoutes with
  | nil =>
      rw [CustomRoute.patterns, List.map_nil, List.append_nil]
      exact .done table (Route.patterns_behind _ rfl) hroutes
  | cons r rest =>
      cases hparent : parent.segments with
      -- below the top the check fails, and no root route is mounted
      | cons s segments => exact .refused _
      | nil =>
          have hrooted := CustomRoute.assemble_follows "/" node (r :: rest) ([], table) .nil
          rw [← bind_pure (Check.runAll table _)]
          refine Follows.bind hrooted SideBySide.right fun rooted table' hpatterns htaken => ?_
          refine .merge_bind (Route.patterns_behind _ rfl) hpatterns hroutes htaken id fun merged hmerged htaken => ?_
          exact .done table' hmerged htaken

/-- The check of a name comes first. -/
theorem runAll_name (parent : RoutePath) (name : String) (checks : List Check) (table : RouteTable) :
    Check.runAll table (.name parent.segments name :: checks)
      = checkChain name parent >>= fun _ => Check.runAll table checks := by
  rw [Check.runAll_cons]
  show (checkChain name parent).map (fun _ => table) >>= _ = _
  cases checkChain name parent <;> rfl

mutual

/-- **Assembling a tree follows its checks**, by induction on the tree. -/
theorem assemble_follows (parent : RoutePath) (table : RouteTable) (n : Node R) :
    Follows (Site.patterns parent n.sites) (Check.runAll table (n.checks parent)) (assemble parent table n) := by
  match n with
  | .mk frame none children =>
      rw [patterns_group, assemble, checks, runAll_name]
      refine .check_bind fun _ => ?_
      rw [ownChecks, Check.runAll_append]
      -- every router on the way is made of routes of the whole
      refine .bind (CustomRoute.assemble_follows _ _ frame.routes ([], table) .nil)
        (fun hall => hall.left.left) fun custom table₁ hcustom hcustoms => ?_
      rw [Check.runAll_append]
      refine .bind (assembleAll_follows _ ([], table₁) children .nil)
        (fun hall => hall.left.right) fun below table₂ hbelow hbelows => ?_
      refine .merge_bind hcustom hbelow hcustoms hbelows SideBySide.left fun merged hmerged htaken => ?_
      have henclosed := enclose_follows frame parent (parent.child frame.name frame.base false).names merged table₂
        (hmerged ▸ htaken)
      rwa [hmerged] at henclosed
  | .mk frame (some service) children =>
      rw [assemble, checks, runAll_name]
      refine .check_bind fun _ => ?_
      rw [Option.isSome_some, ownChecks, List.cons_append, List.cons_append, List.append_assoc, Check.runAll_cons]
      refine .check_bind fun table₁ => ?_
      rw [Check.runAll_cons, patterns_api]
      refine .check_bind fun table₂ => ?_
      refine .mount_bind (fun hall => hall.left.left.left) fun hbare => ?_
      rw [Check.runAll_append]
      refine .bind (CustomRoute.assemble_follows _ _ frame.routes ([], table₂) .nil)
        (fun hall => hall.left.left.right) fun custom table₃ hcustom hcustoms => ?_
      refine .merge_bind rfl hcustom hbare hcustoms (fun hall => hall.left.left)
        fun collection hcollection hcollections => ?_
      rw [Check.runAll_append]
      refine .bind (CustomRoute.assemble_follows _ _ service.idRoutes ([], table₃) .nil)
        (fun hall => hall.left.right.right.left) fun onId table₄ honId honIds => ?_
      rw [Check.runAll_append]
      refine .bind (assembleAll_follows _ ([], table₄) children .nil)
        (fun hall => hall.left.right.right.right) fun below table₅ hbelow hbelows => ?_
      refine .merge_bind honId hbelow honIds hbelows (fun hall => hall.left.right.right)
        fun belowId hbelowId hbelowIds => ?_
      refine .mount_bind (fun hall => hall.left.right.left) fun hitem => ?_
      refine .merge_bind rfl (Route.patterns_behind _ hbelowId) hitem hbelowIds (fun hall => hall.left.right)
        fun withId hwithId hwithIds => ?_
      refine .merge_bind hcollection (Route.patterns_behind _ hwithId) hcollections hwithIds SideBySide.left
        fun merged hmerged htaken => ?_
      have henclosed := enclose_follows frame parent (parent.child frame.name frame.base true).names merged table₅
        (hmerged ▸ htaken)
      rwa [hmerged] at henclosed

/-- Assembling siblings follows their checks. -/
theorem assembleAll_follows (parent : RoutePath) (done : Assembly R) (ns : List (Node R))
    (hdone : SideBySide (done.1.map Route.pattern)) :
    Follows (done.1.map Route.pattern ++ Site.patterns parent (sitesOf ns))
      (Check.runAll done.2 (checksOf parent ns)) (assembleAll parent done ns) := by
  match ns with
  | [] =>
      rw [sitesOf, Site.patterns, List.map_nil, List.append_nil, assembleAll]
      exact .done done.2 rfl hdone
  | n :: ns =>
      have hpatterns : Site.patterns parent (sitesOf (n :: ns))
          = Site.patterns parent n.sites ++ Site.patterns parent (sitesOf ns) := by
        rw [sitesOf, Site.patterns, List.map_append]
        rfl
      rw [hpatterns, ← List.append_assoc, assembleAll, checksOf, Check.runAll_append]
      refine .bind (assemble_follows parent done.2 n) (fun hall => hall.left.right)
        fun first table hfirst htaken => ?_
      refine .merge_bind rfl hfirst hdone htaken SideBySide.left fun merged hmerged hboth => ?_
      have hrest := assembleAll_follows parent (merged, table) ns (hmerged ▸ hboth)
      rwa [hmerged] at hrest

end

/-- **What comes of a tree**: a router, if it is well-formed and the matcher takes its patterns; the error of the first
violated check; or that the matcher gives up, which does not take the patterns. -/
theorem router_cases (n : Node R) :
    (n.router.isOk = true ∧ n.WellFormed ∧ SideBySide n.patterns)
      ∨ (∃ e, n.router = .error (.refused e) ∧ Check.FirstViolated (n.checks .root) e)
      ∨ (n.router = .error .panicked ∧ ¬SideBySide n.patterns) := by
  have hfollows := assemble_follows .root .empty n
  obtain ⟨haccepted, hviolated⟩ := Check.runAll_spec (n.checks .root)
  rw [router]
  -- both are made variables, for the cases of `Follows` to apply
  generalize houtcome : Check.runAll .empty (n.checks .root) = outcome at hfollows
  generalize assemble .root .empty n = x at hfollows ⊢
  cases hfollows with
  | done table hroutes htaken =>
      refine Or.inl ⟨rfl, (accepted_checks_iff n).mp (haccepted table houtcome).2, ?_⟩
      exact (SideBySide.perm_iff (patterns_sites .root n)).mp htaken
  | refused e => exact Or.inr (Or.inl ⟨e, rfl, hviolated e houtcome⟩)
  | panicked outcome hnot =>
      exact Or.inr (Or.inr ⟨rfl, fun h => hnot ((SideBySide.perm_iff (patterns_sites .root n)).mpr h)⟩)

/-- A tree with a router is well-formed, and the matcher takes its patterns. -/
theorem wellFormed_of_isOk {n : Node R} (h : n.router.isOk = true) : n.WellFormed ∧ SideBySide n.patterns := by
  rcases n.router_cases with ⟨-, hwell, htaken⟩ | ⟨e, hrefused, -⟩ | ⟨hpanicked, -⟩
  · exact ⟨hwell, htaken⟩
  · rw [hrefused] at h
    cases h
  · rw [hpanicked] at h
    cases h

/-- **The patterns of a tree have different shapes** if it is well-formed. -/
theorem WellFormed.nodup_shapes {n : Node R} (h : n.WellFormed) :
    ((Site.patterns .root n.sites).map routeShape).Nodup :=
  ((patterns_sites .root n).map routeShape).nodup_iff.mpr h.shapes

/-- A pattern of a tree with a router belongs to one site. -/
theorem site_of_pattern {n : Node R} {routes : List (Route R)} (h : n.router = .ok routes) {site site' : Site R}
    (hsite : site ∈ n.sites) (hsite' : site' ∈ n.sites)
    (heq : (site.route .root).pattern = (site'.route .root).pattern) : site = site' := by
  have hok : n.router.isOk = true := by
    rw [h]
    rfl
  have hnodup := (wellFormed_of_isOk hok).1.nodup_shapes
  rw [Site.patterns, List.map_map] at hnodup
  exact List.inj_on_of_nodup_map hnodup hsite hsite' (congrArg routeShape heq)

/-- A tree whose checks succeed is well-formed. -/
theorem wellFormed_of_runAll {n : Node R} {table : RouteTable} (h : Check.runAll .empty (n.checks .root) = .ok table) :
    n.WellFormed :=
  (accepted_checks_iff n).mp ((Check.runAll_spec _).1 table h).2

end Node

/-! ## Pages -/

namespace Pages

/-- Shows a page. -/
def shown : Handler Unit := ⟨"page", fun _ _ => pure (.plain 200 "ok")⟩

/-- A group with pages at these paths. -/
def tree (paths : List String) : Node Unit :=
  .group { name := "pages", base := "/", routes := paths.map fun path => ⟨path, [.get], shown⟩ }

end Pages

end ResourceTree
