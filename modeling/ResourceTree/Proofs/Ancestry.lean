import ResourceTree.Proofs.AncestorLoading
import ResourceTree.Proofs.PatternParts
import Mathlib.Data.List.Nodup

/-! # The ancestors of a route

`Site.ancestry` lists the collections that a request to a site loads on its way in, the outermost first, each
with the place of its ID in the path. The list is read off the tree alone: the nodes above that have resources,
and the owner itself where a route lies below its ID or behind a guard. `Site.toLoad_layers` says that the
layers of the route load just these, and `Site.nested_layers` that they go down the tree. -/

namespace ResourceTree

variable {R : Type}

/-- A collection whose ID stands in a path, with the place of the ID among the segments. -/
structure Ancestor (R : Type) where
  c : Collection R
  place : Nat

namespace Ancestor

/-- The segment at the place of the ID, percent-decoded, if there is one and it is UTF-8. -/
def id? (path : String) (a : Ancestor R) : Option String :=
  (Text.splitOn '/' path.toList)[a.place]?.bind fun segment => Percent.decode? (String.ofList segment)

/-- The call that loads the resource that a path names. -/
def call (path : String) (a : Ancestor R) : Event := .store a.c.node (.get ((a.id? path).getD ""))

/-- What this call gives as the storage call with number `p` from here. -/
def loaded (env : Env) (w : World R) (path : String) (p : Nat) (a : Ancestor R) : Except StorageError R :=
  Action.found env { w with storeCalls := w.storeCalls + p } a.c.node ((a.id? path).getD "")

end Ancestor

namespace Node

/-- The ancestors along a chain of nodes below a path. Groups are none. -/
def ancestors (parent : RoutePath) : List (Node R) → List (Ancestor R)
  | [] => []
  | n :: ns =>
    ((n.collectionAt (n.pathBelow parent)).map fun c => ⟨c, (n.pathBelow parent).idPlace⟩).toList
      ++ ancestors (n.pathBelow parent) ns

end Node

/-- Whether a guard is among the middlewares on a resource's ID. -/
def Service.isGuarded (s : Service R) : Bool :=
  s.idMiddlewares.any fun
    | .plain _ => false
    | .guard _ => true

/-- Whether the layers at a spot load a resource of the owner itself. -/
def Spot.loadsOwner (owner : Node R) : Spot R → Bool
  | .onId _ => true
  | .item => owner.service.any Service.isGuarded
  | _ => false

/-- The collections that a request to a site loads on its way in, the outermost first. -/
def Site.ancestry (site : Site R) : List (Ancestor R) :=
  Node.ancestors .root (if site.spot.loadsOwner site.owner then site.chain else site.above)

/-! ## Chains of nodes -/

namespace RoutePath

/-- A path begins with every path above. -/
theorem names_pathBelow (parent : RoutePath) (n : Node R) : parent.names <+: (n.pathBelow parent).names :=
  ⟨[n.name], by simp [names, Node.pathBelow, child]⟩

end RoutePath

namespace Node

variable {n : Node R} {ns : List (Node R)} {parent path : RoutePath} {l : Layer R} {c : Collection R}

/-- A layer of a node is named after its path, and loads nothing but the node's own resources. -/
theorem mem_layersAbove (h : l ∈ n.layersAbove path) :
    l.node = path.names ∧ ∀ c, l.loader? = some c → n.collectionAt path = some c := by
  rw [layersAbove, List.mem_append, List.mem_append] at h
  have hservice {s : Service R} (hs : n.service = some s) :
      n.collectionAt path = some (s.collection n.name path.names) := by rw [collectionAt, hs]; rfl
  rcases h with h | h | h
  · obtain ⟨m, -, rfl⟩ := List.mem_map.mp h
    exact ⟨rfl, fun c hc => by cases hc⟩
  · rw [idLayers] at h
    cases hs : n.service with
    | none => simp [hs] at h
    | some s =>
        rw [hs] at h
        obtain ⟨m, -, rfl⟩ := List.mem_map.mp h
        cases m with
        | plain m => exact ⟨rfl, fun c hc => by cases hc⟩
        | guard g => exact ⟨rfl, fun c hc => by rw [hservice hs, ← hc]; rfl⟩
  · rw [resolveLayer] at h
    cases hs : n.service with
    | none => simp [hs] at h
    | some s =>
        rw [hs] at h
        rw [List.mem_singleton.mp h]
        exact ⟨rfl, fun c hc => by rw [hservice hs, ← hc]; rfl⟩

/-- The layers above the end of a chain, and those of its last node. -/
theorem chainLayers_append (parent : RoutePath) (ns : List (Node R)) (n : Node R) :
    chainLayers parent (ns ++ [n])
      = chainLayers parent ns ++ n.layersAbove (parent.below (ns ++ [n])) := by
  induction ns generalizing parent with
  | nil => exact List.append_nil _
  | cons m ns ih =>
      rw [List.cons_append, chainLayers, chainLayers, ih, RoutePath.below_cons, List.append_assoc]

theorem ancestors_append (parent : RoutePath) (ns : List (Node R)) (n : Node R) :
    ancestors parent (ns ++ [n]) = ancestors parent ns
      ++ ((n.collectionAt (parent.below (ns ++ [n]))).map fun c =>
          ⟨c, (parent.below (ns ++ [n])).idPlace⟩).toList := by
  induction ns generalizing parent with
  | nil => exact List.append_nil _
  | cons m ns ih =>
      rw [List.cons_append, ancestors, ancestors, ih, RoutePath.below_cons, List.append_assoc]

/-- **The layers of a chain go down the tree**: each belongs to the node of the one before, or to one below. -/
theorem nested_chainLayers (parent : RoutePath) (ns : List (Node R)) :
    (chainLayers parent ns).Pairwise (fun l l' => l.node <+: l'.node)
      ∧ ∀ l ∈ chainLayers parent ns, parent.names <+: l.node := by
  induction ns generalizing parent with
  | nil => exact ⟨.nil, fun l hl => (List.not_mem_nil hl).elim⟩
  | cons n ns ih =>
      obtain ⟨hpairs, hbelow⟩ := ih (n.pathBelow parent)
      have hown {l : Layer R} (hl : l ∈ n.layersAbove (n.pathBelow parent)) :
          l.node = (n.pathBelow parent).names := (mem_layersAbove hl).1
      rw [chainLayers]
      -- among the node's own layers, between them and those below, and from the parent down
      refine ⟨List.pairwise_append.mpr ⟨?_, hpairs, fun l hl l' hl' => ?_⟩, fun l hl => ?_⟩
      · refine List.pairwise_of_forall_mem_list fun l hl l' hl' => ?_
        have hsame : l.node = l'.node := (hown hl).trans (hown hl').symm
        exact hsame ▸ List.prefix_rfl
      · rw [hown hl]
        exact hbelow l' hl'
      · rcases List.mem_append.mp hl with hl | hl
        · rw [hown hl]
          exact RoutePath.names_pathBelow parent n
        · exact (RoutePath.names_pathBelow parent n).trans (hbelow l hl)

/-- What the layers of a chain load are ancestors along the chain. -/
theorem loader_chainLayers (h : l ∈ chainLayers parent ns) (hc : l.loader? = some c) :
    ∃ a ∈ ancestors parent ns, a.c = c := by
  induction ns generalizing parent with
  | nil => cases h
  | cons n ns ih =>
      rw [chainLayers, List.mem_append] at h
      rcases h with h | h
      · refine ⟨⟨c, (n.pathBelow parent).idPlace⟩, ?_, rfl⟩
        rw [ancestors, (mem_layersAbove h).2 c hc]
        exact List.mem_append_left _ (List.mem_singleton.mpr rfl)
      · obtain ⟨a, ha, rfl⟩ := ih h
        exact ⟨a, List.mem_append_right _ ha, rfl⟩

/-- An ancestor along a chain is a node of it that has resources. -/
theorem mem_ancestors {a : Ancestor R} (h : a ∈ ancestors parent ns) :
    ∃ before n after, ns = before ++ n :: after
      ∧ n.collectionAt (parent.below (before ++ [n])) = some a.c
      ∧ a.place = (parent.below (before ++ [n])).idPlace := by
  induction ns generalizing parent with
  | nil => cases h
  | cons n ns ih =>
      rw [ancestors, List.mem_append] at h
      rcases h with h | h
      · obtain ⟨c, hc, rfl⟩ := Option.map_eq_some_iff.mp (Option.mem_toList.mp h)
        exact ⟨[], n, ns, rfl, hc, rfl⟩
      · obtain ⟨before, m, after, rfl, hc, hplace⟩ := ih h
        refine ⟨n :: before, m, after, rfl, ?_, ?_⟩
        · rw [List.cons_append, RoutePath.below_cons]
          exact hc
        · rw [List.cons_append, RoutePath.below_cons]
          exact hplace

/-- The resources of a node are named after it. -/
theorem name_collectionAt (h : n.collectionAt path = some c) : c.name = n.name ∧ n.takesId = true := by
  obtain ⟨s, hs, rfl⟩ := Option.map_eq_some_iff.mp h
  exact ⟨rfl, by rw [takesId, hs]; rfl⟩

theorem node_collectionAt (h : n.collectionAt path = some c) : c.node = path.names := by
  obtain ⟨s, -, rfl⟩ := Option.map_eq_some_iff.mp h
  rfl

/-- Ancestors have the names of nodes along the chain, in order. -/
theorem names_ancestors (parent : RoutePath) (ns : List (Node R)) :
    ((ancestors parent ns).map fun a => a.c.name).Sublist (ns.map Node.name) := by
  induction ns generalizing parent with
  | nil => exact List.nil_sublist _
  | cons n ns ih =>
      rw [ancestors, List.map_append, List.map_cons]
      cases hc : n.collectionAt (n.pathBelow parent) with
      | none => exact (ih _).cons _
      | some c =>
          have hname := (name_collectionAt hc).1
          simp only [Option.map_some, Option.toList_some, List.map_cons, List.map_nil,
            List.singleton_append, hname]
          exact (ih _).cons_cons _

end Node

/-! ## What the layers load -/

namespace Layer

variable {block rest : List (Layer R)} {seen : List String} {c : Collection R}

/-- Layers that ask for resolved resources only load nothing. -/
theorem toLoad_append_of_seen (h : ∀ l ∈ block, ∀ c, l.loader? = some c → c.name ∈ seen) :
    toLoad seen (block ++ rest) = toLoad seen rest := by
  induction block with
  | nil => rfl
  | cons l block ih =>
      have hrest := ih fun l' hl' => h l' (List.mem_cons_of_mem l hl')
      rw [List.cons_append, toLoad]
      cases hl : l.loader? with
      | none => exact hrest
      | some c => exact (if_pos (h l List.mem_cons_self c hl)).trans hrest

/-- **Layers that ask for one collection load it once**, however many they are. -/
theorem toLoad_append_of_one (h : ∀ l ∈ block, ∀ c', l.loader? = some c' → c' = c)
    (hasks : ∃ l ∈ block, l.loader? = some c) (hnew : c.name ∉ seen) :
    toLoad seen (block ++ rest) = c :: toLoad (c.name :: seen) rest := by
  induction block with
  | nil =>
      obtain ⟨l, hl, -⟩ := hasks
      cases hl
  | cons l block ih =>
      have htail (l') (hl' : l' ∈ block) := h l' (List.mem_cons_of_mem l hl')
      rw [List.cons_append, toLoad]
      cases hl : l.loader? with
      | none =>
          -- a middleware asks for nothing, so a later layer does
          refine ih htail ?_
          obtain ⟨l', hl', hc⟩ := hasks
          rcases List.mem_cons.mp hl' with rfl | hl'
          · cases hl.symm.trans hc
          · exact ⟨l', hl', hc⟩
      | some c' =>
          -- this layer loads the resource, and the later ones find it resolved
          obtain rfl := h l List.mem_cons_self c' hl
          refine (if_neg hnew).trans (congrArg _ (toLoad_append_of_seen fun l' hl' c hc => ?_))
          rw [htail l' hl' c hc]
          exact List.mem_cons_self

end Layer

namespace Node

variable {n : Node R} {ns : List (Node R)} {parent path : RoutePath} {seen : List String}
  {rest : List (Layer R)}

/-- The layers above a node's children load its resource, if it has any. -/
theorem toLoad_layersAbove (path : RoutePath) (rest : List (Layer R)) (hnew : n.name ∉ seen) :
    Layer.toLoad seen (n.layersAbove path ++ rest) = (n.collectionAt path).toList
      ++ Layer.toLoad (((n.collectionAt path).map Collection.name).toList ++ seen) rest := by
  cases hc : n.collectionAt path with
  | none =>
      refine Layer.toLoad_append_of_seen fun l hl c hload => ?_
      cases hc.symm.trans ((mem_layersAbove hl).2 c hload)
  | some c =>
      refine Layer.toLoad_append_of_one (fun l hl c' hload => ?_) ⟨.resolve c, ?_, rfl⟩ ?_
      · exact Option.some.inj (((mem_layersAbove hl).2 c' hload).symm.trans hc)
      · obtain ⟨s, hs, rfl⟩ := Option.map_eq_some_iff.mp hc
        simp [layersAbove, resolveLayer, hs]
      · rw [(name_collectionAt hc).1]
        exact hnew

/-- **The layers of a chain load its ancestors**, in order, if the nodes have different names. -/
theorem toLoad_chainLayers (parent : RoutePath) (seen : List String) (rest : List (Layer R))
    (hnew : ∀ n ∈ ns, n.name ∉ seen) (hnodup : (ns.map Node.name).Nodup) :
    ∃ seen', Layer.toLoad seen (chainLayers parent ns ++ rest)
        = (ancestors parent ns).map Ancestor.c ++ Layer.toLoad seen' rest
      ∧ ∀ name ∈ seen', name ∈ seen ∨ name ∈ ns.map Node.name := by
  induction ns generalizing parent seen with
  | nil => exact ⟨seen, rfl, fun name h => Or.inl h⟩
  | cons n ns ih =>
      rw [List.map_cons, List.nodup_cons] at hnodup
      -- what is resolved at the first node bears its name, which no other node has
      have hseen (name) (h : name ∈ ((n.collectionAt (n.pathBelow parent)).map Collection.name).toList
          ++ seen) : name = n.name ∨ name ∈ seen := by
        rcases List.mem_append.mp h with h | h
        · obtain ⟨c, hc, rfl⟩ := Option.map_eq_some_iff.mp (Option.mem_toList.mp h)
          exact Or.inl (name_collectionAt hc).1
        · exact Or.inr h
      obtain ⟨seen', hload, hsub⟩ := ih (n.pathBelow parent)
        (((n.collectionAt (n.pathBelow parent)).map Collection.name).toList ++ seen)
        (fun m hm h => by
          rcases hseen _ h with h | h
          · exact hnodup.1 (h ▸ List.mem_map_of_mem hm)
          · exact hnew m (List.mem_cons_of_mem n hm) h) hnodup.2
      refine ⟨seen', ?_, fun name h => ?_⟩
      · rw [chainLayers, List.append_assoc, toLoad_layersAbove _ _ (hnew n List.mem_cons_self), hload, ancestors,
          List.map_append, List.append_assoc]
        cases n.collectionAt (n.pathBelow parent) <;> rfl
      · rw [List.map_cons, List.mem_cons]
        rcases hsub name h with h | h
        · rcases hseen name h with h | h
          · exact Or.inr (Or.inl h)
          · exact Or.inl h
        · exact Or.inr (Or.inr h)

end Node

namespace Spot

variable {owner : Node R} {path : RoutePath} {seen : List String}

/-- The layers on a resource's ID load the resource if there is a guard among them. -/
theorem toLoad_item (hnew : owner.name ∉ seen) : Layer.toLoad seen (layers owner path .item)
    = if loadsOwner owner .item then (owner.collectionAt path).toList else [] := by
  have hloader {l : Layer R} (hl : l ∈ layers owner path .item) :
      ∀ c, l.loader? = some c → owner.collectionAt path = some c := by
    have habove : l ∈ owner.layersAbove path := by
      rw [Node.layersAbove, ← List.append_assoc]
      exact List.mem_append_left _ hl
    exact (Node.mem_layersAbove habove).2
  have hplain {l : Layer R} (hl : l ∈ owner.plainLayers path) : l.loader? = none := by
    obtain ⟨m, -, rfl⟩ := List.mem_map.mp hl
    rfl
  rw [← List.append_nil (layers owner path .item)]
  cases hs : owner.service with
  | none =>
      refine (Layer.toLoad_append_of_seen fun l hl c hc => ?_).trans ?_
      · have hnone : owner.collectionAt path = none := by rw [Node.collectionAt, hs]; rfl
        cases hnone.symm.trans (hloader hl c hc)
      · rw [loadsOwner, hs]
        rfl
  | some s =>
      have hcollection : owner.collectionAt path = some (s.collection owner.name path.names) := by
        rw [Node.collectionAt, hs]
        rfl
      have hguarded : loadsOwner owner .item = s.isGuarded := by rw [loadsOwner, hs]; rfl
      rw [hguarded]
      split
      · next hguard =>
          rw [hcollection]
          refine Layer.toLoad_append_of_one (fun l hl c' hc => ?_) ?_ hnew
          · exact Option.some.inj ((hloader hl c' hc).symm.trans hcollection)
          · obtain ⟨m, hm, hg⟩ := List.any_eq_true.mp hguard
            cases m with
            | plain m => cases hg
            | guard g =>
                refine ⟨.guard (s.collection owner.name path.names) g, List.mem_append_right _ ?_, rfl⟩
                rw [Node.idLayers, hs]
                exact List.mem_map.mpr ⟨.guard g, hm, rfl⟩
      · next hguard =>
          refine Layer.toLoad_append_of_seen fun l hl c hc => ?_
          rcases List.mem_append.mp hl with hl | hl
          · cases (hplain hl).symm.trans hc
          · rw [Node.idLayers, hs] at hl
            obtain ⟨m, hm, rfl⟩ := List.mem_map.mp hl
            cases m with
            | plain m => cases hc
            | guard g => exact absurd (List.any_eq_true.mpr ⟨.guard g, hm, rfl⟩) hguard

/-- **The layers that the owner puts around a spot** load its own resource or nothing. -/
theorem toLoad_layers (spot : Spot R) (hnew : owner.name ∉ seen) :
    Layer.toLoad seen (spot.layers owner path)
      = if spot.loadsOwner owner then (owner.collectionAt path).toList else [] := by
  have hplain : Layer.toLoad seen (owner.plainLayers path) = [] := by
    rw [← List.append_nil (owner.plainLayers path)]
    refine Layer.toLoad_append_of_seen fun l hl c hc => ?_
    obtain ⟨m, -, rfl⟩ := List.mem_map.mp hl
    cases hc
  cases spot with
  | collection => exact hplain
  | custom r => exact hplain
  | item => exact toLoad_item hnew
  | onId r =>
      have hload := Node.toLoad_layersAbove path [] hnew
      rw [List.append_nil] at hload
      exact hload.trans (List.append_nil _)
  | root r => rfl

end Spot

namespace Site

variable {site : Site R}

/-- The path parameters of a site are those of its nodes. -/
theorem idParams_root (site : Site R) :
    site.idParams .root = site.chain.map fun n => ResourceTree.idParam n.name := by
  rw [idParams, path, RoutePath.below, RoutePath.root, List.nil_append, List.map_map]
  rfl

/-- The nodes of a site have different names if they have different path parameters. -/
theorem nodup_names (h : (site.idParams .root).Nodup) : (site.chain.map Node.name).Nodup := by
  have hparams : site.idParams .root = (site.chain.map Node.name).map ResourceTree.idParam := by
    rw [idParams_root, List.map_map]
    rfl
  rw [hparams] at h
  exact List.Nodup.of_map _ h

/-- The layers of a route are the first ones of those that its chain puts around what is below. -/
theorem layers_prefix (site : Site R) :
    (site.route .root).layers <+: Node.chainLayers .root site.chain := by
  rw [chain, Node.chainLayers_append]
  refine List.prefix_append_right_inj _ |>.mpr ?_
  cases site.spot with
  | collection | custom r => exact List.prefix_append _ _
  | item => exact ⟨_, List.append_assoc ..⟩
  | onId r => exact List.prefix_rfl
  | root r => exact List.nil_prefix

/-- **The layers of a route go down the tree.** -/
theorem nested_layers (site : Site R) :
    (site.route .root).layers.Pairwise fun l l' => l.node <+: l'.node :=
  (Node.nested_chainLayers .root site.chain).1.sublist site.layers_prefix.sublist

/-- The layers of a route agree on their collections. -/
theorem agree_layers (h : (site.idParams .root).Nodup) : Layer.Agree (site.route .root).layers := by
  intro l hl l' hl' c c' hc hc' hname
  -- both are ancestors along the chain, whose names are different
  obtain ⟨a, ha, rfl⟩ := Node.loader_chainLayers (site.layers_prefix.subset hl) hc
  obtain ⟨a', ha', rfl⟩ := Node.loader_chainLayers (site.layers_prefix.subset hl') hc'
  have hnodup := (Node.names_ancestors .root site.chain).nodup (nodup_names h)
  rw [List.inj_on_of_nodup_map hnodup ha ha' hname]

/-- A request that comes to a site is ready for its layers, with nothing resolved yet. -/
theorem ready (h : (site.idParams .root).Nodup) (request : Request) (taken : List (String × String)) :
    Layer.Ready [] (site.route .root).layers (Router.dispatched request taken) where
  seen_iff name := by simp [Router.dispatched]
  fits l hl c hc entry hentry := by cases hentry
  agree := agree_layers h

/-- **The layers of a route load its ancestors**, each of them once and the outermost first. -/
theorem toLoad_layers (h : (site.idParams .root).Nodup) :
    Layer.toLoad [] (site.route .root).layers = site.ancestry.map Ancestor.c := by
  have hnodup := nodup_names h
  rw [chain, List.map_append, List.nodup_append] at hnodup
  obtain ⟨habove, -, hother⟩ := hnodup
  obtain ⟨seen, hload, hseen⟩ := Node.toLoad_chainLayers .root []
    (site.spot.layers site.owner (site.path .root)) (fun _ _ => List.not_mem_nil) habove
  -- only nodes above have been resolved, and the owner has another name
  have hnew : site.owner.name ∉ seen := by
    intro hmem
    rcases hseen _ hmem with hmem | hmem
    · cases hmem
    · exact hother _ hmem _ (List.mem_singleton.mpr rfl) rfl
  rw [route, hload, Spot.toLoad_layers site.spot hnew, ancestry]
  split
  · rw [chain, Node.ancestors_append, List.map_append, path, chain]
    cases site.owner.collectionAt (RoutePath.root.below (site.above ++ [site.owner])) <;> rfl
  · rw [List.append_nil]

end Site

end ResourceTree
