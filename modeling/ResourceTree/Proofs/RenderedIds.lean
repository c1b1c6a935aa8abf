import ResourceTree.Proofs.RenderedPaths

/-! # The IDs of a rendered path

A path that is rendered from IDs and the pattern of the route are inverse to each other: matching the path against the
pattern gives the IDs back (`Route.Yields`), each under the parameter of the segment that it was given for. So
different IDs have different paths, and `RoutePath.render_invertible` says this of every chain of segments whose
parameters differ and whose bases have no braces. -/

namespace ResourceTree

/-! ## Bases without braces -/

namespace Text

/-- What is left of a trimmed text stands in the text. -/
theorem mem_of_mem_trim {p : Char → Bool} {c : Char} {cs : List Char} (hc : c ∈ trim p cs) : c ∈ cs := by
  have hend : c ∈ (cs.dropWhile p).reverse := (List.dropWhile_sublist p).subset (List.mem_reverse.mp hc)
  exact (List.dropWhile_sublist p).subset (List.mem_reverse.mp hend)

end Text

/-- What stands in a part of a base stands in the base. -/
theorem mem_of_mem_basePieces {base part : String} {c : Char} (hpart : part ∈ basePieces base)
    (hc : c ∈ part.toList) : c ∈ base.toList := by
  rw [basePieces] at hpart
  split at hpart
  · cases hpart
  · obtain ⟨piece, hpiece, rfl⟩ := List.mem_map.mp hpart
    rw [String.toList_ofList] at hpiece hc
    exact Text.mem_of_mem_trim (Text.mem_of_mem_piece hpiece hc)

theorem isBraceless_of_not_mem {base : String} (h : '{' ∉ base.toList ∧ '}' ∉ base.toList) : IsBraceless base :=
  fun _ hpart => ⟨fun hc => h.1 (mem_of_mem_basePieces hpart hc), fun hc => h.2 (mem_of_mem_basePieces hpart hc)⟩

/-! ## What a path yields -/

namespace Route

/-- Matching a path against a pattern captures these values: the parameters of the pattern are these names, and what
they take are the values, percent-encoded. -/
def Captures (pattern path : String) (names values : List String) : Prop :=
  ∃ taken, Matches (piecesOfPattern pattern) (Text.splitOn '/' path.toList) taken
    ∧ taken.map Prod.fst = names
    ∧ taken.map (fun param => Percent.decode? (String.ofList param.2)) = values.map some

/-- A path captures only one list of values. -/
theorem Captures.unique {pattern path : String} {names names' values values' : List String}
    (h : Captures pattern path names values) (h' : Captures pattern path names' values') : values = values' := by
  obtain ⟨taken, hmatch, -, hvalues⟩ := h
  obtain ⟨taken', hmatch', -, hvalues'⟩ := h'
  have hsome : values.map some = values'.map some := by
    rw [← hvalues, ← hvalues', hmatch.unique hmatch']
  exact List.map_injective_iff.mpr (fun _ _ => Option.some.inj) hsome

/-- **Matching a path against a pattern yields these values**: it captures them, each under a name of its own. -/
structure Yields (pattern path : String) (names values : List String) : Prop where
  distinct : names.Nodup
  captures : Captures pattern path names values

end Route

namespace RoutePath

variable {path : RoutePath} {parents parents' : List String} {id id' : Option String}

/-- The last segment, if the path is to be that of one resource. -/
def leafFor (path : RoutePath) (id : Option String) : Option Segment := id.bind fun _ => path.leaf?

theorem leafFor_eq {above : List Segment} {last : Segment} (hpath : path.segments = above ++ [last]) :
    path.leafFor id = id.map fun _ => last := by
  rw [leafFor, leaf?, hpath, List.getLast?_concat]
  cases id <;> rfl

/-- The parameters of the IDs that stand in a path, outermost first. -/
def paramsFor (path : RoutePath) (id : Option String) : List String :=
  (path.addressed (path.leafFor id)).map Segment.idParam

/-- **A rendered path captures the IDs** that it was rendered from. -/
theorem captures_render (id : Option String) (hne : path.segments ≠ [])
    (hbases : ∀ s ∈ path.segments, IsBraceless s.base) (hlength : parents.length = path.idAncestors.length)
    (hids : ∀ i ∈ parents ++ id.toList, i ≠ "") :
    Route.Captures (path.pattern (path.leafFor id)) (absolutePath (path.renderedParts parents id)) (path.paramsFor id)
      (parents ++ id.toList) := by
  have hpath : path.segments = path.segments.dropLast ++ [path.segments.getLast hne] :=
    (List.dropLast_append_getLast hne).symm
  -- every parameter has its ID, so pairing them loses neither
  have hpaired : (path.paramsFor id).length
      = ((parents ++ id.toList).map fun i => (Percent.encode i).toList).length := by
    rw [paramsFor, addressed, leafFor_eq hpath, List.length_map, List.length_map, List.length_append,
      List.length_append, hlength]
    cases id <;> rfl
  have hmatch := matches_render hpath hbases hlength hids
  rw [← leafFor_eq hpath] at hmatch
  refine ⟨_, hmatch, ?_, ?_⟩
  · exact List.map_fst_zip (Nat.le_of_eq hpaired)
  · have hsnd := List.map_snd_zip (Nat.le_of_eq hpaired.symm)
    rw [show (fun param : String × List Char => Percent.decode? (String.ofList param.2))
        = (fun text => Percent.decode? (String.ofList text)) ∘ Prod.snd from rfl, ← List.map_map]
    rw [paramsFor] at hsnd
    rw [hsnd, List.map_map]
    refine List.map_congr_left fun i _ => ?_
    show Percent.decode? (String.ofList (Percent.encode i).toList) = some i
    rw [String.ofList_toList, Percent.decode?_encode]

/-- If the parameters of the segments differ, each ID is captured under a name of its own. -/
theorem yields_render (id : Option String) (hne : path.segments ≠ [])
    (hdistinct : (path.segments.map Segment.idParam).Nodup) (hbases : ∀ s ∈ path.segments, IsBraceless s.base)
    (hlength : parents.length = path.idAncestors.length) (hids : ∀ i ∈ parents ++ id.toList, i ≠ "") :
    Route.Yields (path.pattern (path.leafFor id)) (absolutePath (path.renderedParts parents id)) (path.paramsFor id)
      (parents ++ id.toList) where
  distinct := by
    have hpath := (List.dropLast_append_getLast hne).symm
    rw [paramsFor, leafFor_eq hpath]
    exact nodup_addressed hpath hdistinct id
  captures := captures_render id hne hbases hlength hids

/-! ## Failures -/

/-- Rendering fails only on a wrong number of parents' IDs. -/
theorem render_eq_error_iff {e : PathError} :
    path.render parents id = .error e ↔ parents.length ≠ path.idAncestors.length
      ∧ e = ⟨(path.leaf?.map Segment.name).getD "", path.idAncestors.length, parents.length⟩ := by
  by_cases h : parents.length = path.idAncestors.length
  · rw [render_eq h]
    simp [h]
  · rw [render, pieces, List.length_map, if_neg h]
    simp [Except.map, h, eq_comm]

theorem length_of_render {text : String} (h : path.render parents id = .ok text) :
    parents.length = path.idAncestors.length := by
  by_contra hlength
  rw [render_eq_error_iff.mpr ⟨hlength, rfl⟩] at h
  cases h

/-! ## Different IDs -/

/-- **Different IDs have different paths.** -/
theorem render_injective (hne : path.segments ≠ []) (hbases : ∀ s ∈ path.segments, IsBraceless s.base)
    (hids : ∀ i ∈ parents ++ id.toList, i ≠ "") (hids' : ∀ i ∈ parents' ++ id'.toList, i ≠ "") {text : String}
    (h : path.render parents id = .ok text) (h' : path.render parents' id' = .ok text) :
    parents = parents' ∧ id = id' := by
  have hlength := length_of_render h
  have hlength' := length_of_render h'
  have hcaptures := captures_render id hne hbases hlength hids
  have hcaptures' := captures_render id' hne hbases hlength' hids'
  rw [render_eq hlength] at h
  rw [render_eq hlength'] at h'
  rw [Except.ok.inj h] at hcaptures
  rw [Except.ok.inj h'] at hcaptures'
  -- the path of a collection and that of one resource match patterns that no path matches both
  have hapart {i : String} {ids ids' : List String} {names names' : List String}
      (h : Route.Captures path.collectionPattern text names ids)
      (h' : Route.Captures (path.pattern (path.leafFor (some i))) text names' ids') : False := by
    obtain ⟨_, hmatch, -⟩ := h
    obtain ⟨_, hmatch', -⟩ := h'
    exact not_matches_both (List.dropLast_append_getLast hne).symm hbases hmatch hmatch'
  cases id with
  | none =>
      cases id' with
      | none =>
          have hsame := hcaptures.unique hcaptures'
          rw [Option.toList_none, List.append_nil, List.append_nil] at hsame
          exact ⟨hsame, rfl⟩
      | some i' => exact (hapart hcaptures hcaptures').elim
  | some i =>
      cases id' with
      | none => exact (hapart hcaptures' hcaptures).elim
      | some i' =>
          have hsame := hcaptures.unique hcaptures'
          rw [Option.toList_some, Option.toList_some] at hsame
          -- the own ID is the last value
          obtain ⟨hparents, hid⟩ := List.append_inj' hsame rfl
          exact ⟨hparents, congrArg some (List.singleton_inj.mp hid)⟩

/-- **Rendered paths and patterns are inverse.** Of every chain of segments whose parameters differ and whose bases
have no braces: the path of one resource matches the pattern of one resource and the path of a collection matches the
pattern of the collection, and both yield the IDs that they were rendered from, each under the parameter of its own
segment. So rendering is injective. It fails just when the number of the parents' IDs is wrong, and composing a pattern
never fails. -/
theorem render_invertible (path : RoutePath) (hne : path.segments ≠ [])
    (hdistinct : (path.segments.map Segment.idParam).Nodup)
    (hbraces : ∀ s ∈ path.segments, '{' ∉ s.base.toList ∧ '}' ∉ s.base.toList) :
    (∀ parents id, parents.length = path.idAncestors.length → (∀ i ∈ parents ++ [id], i ≠ "") →
      ∃ text, path.render parents (some id) = .ok text
        ∧ Route.Yields path.itemPattern text ((path.idAncestors ++ path.leaf?.toList).map Segment.idParam)
            (parents ++ [id]))
      ∧ (∀ parents, parents.length = path.idAncestors.length → (∀ i ∈ parents, i ≠ "") →
        ∃ text, path.render parents none = .ok text
          ∧ Route.Yields path.collectionPattern text (path.idAncestors.map Segment.idParam) parents)
      ∧ (∀ parents parents' id id' text, (∀ i ∈ parents ++ id.toList, i ≠ "") →
        (∀ i ∈ parents' ++ id'.toList, i ≠ "") → path.render parents id = .ok text →
          path.render parents' id' = .ok text → parents = parents' ∧ id = id')
      ∧ (∀ parents id e, path.render parents id = .error e ↔ parents.length ≠ path.idAncestors.length
        ∧ e = ⟨(path.leaf?.map Segment.name).getD "", path.idAncestors.length, parents.length⟩)
      ∧ (path.pieces (path.idAncestors.map placeholder) none).map absolutePath = .ok path.collectionPattern
      ∧ (path.pieces (path.idAncestors.map placeholder) (path.leaf?.map placeholder)).map absolutePath
          = .ok path.itemPattern := by
  have hbases : ∀ s ∈ path.segments, IsBraceless s.base := fun s hs => isBraceless_of_not_mem (hbraces s hs)
  refine ⟨?_, ?_, ?_, ?_, ?_, ?_⟩
  · intro parents id hlength hids
    exact ⟨_, render_eq hlength (some id), yields_render (some id) hne hdistinct hbases hlength hids⟩
  · intro parents hlength hids
    have hids' : ∀ i ∈ parents ++ (none : Option String).toList, i ≠ "" := by
      rwa [Option.toList_none, List.append_nil]
    have hyields := yields_render none hne hdistinct hbases hlength hids'
    rw [paramsFor, leafFor, Option.bind_none, addressed, Option.toList_none, Option.toList_none, List.append_nil,
      List.append_nil] at hyields
    exact ⟨_, render_eq hlength none, hyields⟩
  · intro parents parents' id id' text hids hids' h h'
    exact render_injective hne hbases hids hids' h h'
  · intro parents id e
    exact render_eq_error_iff
  · have hpieces := path.pieces_placeholders none
    rw [Option.map_none] at hpieces
    rw [collectionPattern, pattern_eq, hpieces]
    rfl
  · rw [itemPattern, pattern_eq, pieces_placeholders]
    rfl

/-- The albums of artists. -/
def albumsOfArtists : RoutePath := ⟨[⟨"artists", "/artists", true⟩, ⟨"albums", "albums/", true⟩]⟩

/-- An artist whose ID looks like a path, and an album whose ID looks like a placeholder. -/
theorem render_invertible_albums :
    ∃ text, albumsOfArtists.render ["a/b%"] (some "{x}?") = .ok text
      ∧ Route.Yields "/artists/{artists_id}/albums/{albums_id}" text ["artists_id", "albums_id"] ["a/b%", "{x}?"] :=
  (render_invertible albumsOfArtists (by decide) (by decide +kernel) (by decide)).1 ["a/b%"] "{x}?" rfl
    (by decide)

end RoutePath

end ResourceTree
