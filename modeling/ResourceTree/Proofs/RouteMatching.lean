import ResourceTree.Route.Pattern
import ResourceTree.Url.Form

/-! # What a matched route takes from the path

`Route.search` tries many patterns at once. Whatever it finds, the pattern found matches the segments of the
path one by one (`Route.Matches`), and each parameter takes what stands at its place: `lookup_sound` and
`Matches.at_param`. Among the parameters of one name the last one counts (`Form.lookup_append_cons`). -/

namespace ResourceTree

namespace Route

/-! ## Matching -/

/-- The pieces of a pattern match the segments of a path, and the parameters take these texts. -/
inductive Matches : List Piece → List (List Char) → List (String × List Char) → Prop where
  | nil : Matches [] [] []
  | literal {pieces : List Piece} {segments : List (List Char)} {taken : List (String × List Char)}
      (text : List Char) (h : Matches pieces segments taken) :
      Matches (.literal text :: pieces) (text :: segments) taken
  | param {pieces : List Piece} {segments : List (List Char)} {taken : List (String × List Char)}
      (lead : List Char) (name : String) {value : List Char} (hv : value ≠ [])
      (h : Matches pieces segments taken) :
      Matches (.param lead name :: pieces) ((lead ++ value) :: segments) ((name, value) :: taken)
  | rest (lead : List Char) (name : String) (segment : List Char) (segments : List (List Char))
      (hv : Text.joinWith '/' (segment :: segments) ≠ []) :
      Matches [.rest lead name] ((lead ++ segment) :: segments)
        [(name, Text.joinWith '/' (segment :: segments))]

/-- A found candidate comes from one whose pieces match what was searched, with what they take behind the
parameters that it had. -/
def FoundIn {α : Type} (candidates : List (Candidate α)) (segments : List (List Char))
    (found : Candidate α) : Prop :=
  ∃ c ∈ candidates, ∃ taken, Matches c.pieces segments taken ∧ found.value = c.value
    ∧ found.params = c.params ++ taken

variable {α : Type} {candidates : List (Candidate α)} {segment : List Char} {segments : List (List Char)}
  {found : Candidate α}

/-- A candidate goes on behind a literal segment if this is its next piece. -/
theorem Candidate.literal?_eq_some {c next : Candidate α} :
    c.literal? segment = some next
      ↔ c.pieces = .literal segment :: next.pieces ∧ next.params = c.params ∧ next.value = c.value := by
  obtain ⟨pieces, params, value⟩ := c
  constructor
  · intro h
    cases pieces with
    | nil => cases h
    | cons piece pieces =>
        cases piece with
        | literal text =>
            simp only [literal?] at h
            split at h
            · next heq =>
                cases h
                exact ⟨congrArg (fun text => Piece.literal text :: pieces) heq, rfl, rfl⟩
            · cases h
        | param lead name => cases h
        | rest lead name => cases h
  · rintro ⟨hpieces, hparams, hvalue⟩
    obtain ⟨pieces', params', value'⟩ := next
    cases hpieces
    cases hparams
    cases hvalue
    exact if_pos rfl

/-- A candidate goes on behind a parameter if this is its next piece and takes something. -/
theorem Candidate.param?_eq_some {c next : Candidate α} {lead value : List Char} :
    c.param? lead value = some next ↔ value ≠ [] ∧ ∃ name, c.pieces = .param lead name :: next.pieces
      ∧ next.params = c.params ++ [(name, value)] ∧ next.value = c.value := by
  obtain ⟨pieces, params, payload⟩ := c
  constructor
  · intro h
    cases pieces with
    | nil => cases h
    | cons piece pieces =>
        cases piece with
        | param lead' name =>
            simp only [param?] at h
            split at h
            · next hcond =>
                obtain ⟨rfl, hne⟩ := hcond
                cases h
                exact ⟨hne, name, rfl, rfl, rfl⟩
            · cases h
        | literal text => cases h
        | rest lead' name => cases h
  · rintro ⟨hne, name, hpieces, hparams, hvalue⟩
    obtain ⟨pieces', params', value'⟩ := next
    cases hpieces
    obtain rfl : params' = params ++ [(name, value)] := hparams
    cases hvalue
    exact if_pos ⟨rfl, hne⟩

/-- A candidate ends in a catch-all if this is its only piece and takes something. -/
theorem Candidate.rest?_eq_some {c next : Candidate α} {lead value : List Char} :
    c.rest? lead value = some next ↔ value ≠ [] ∧ next.pieces = [] ∧ ∃ name, c.pieces = [.rest lead name]
      ∧ next.params = c.params ++ [(name, value)] ∧ next.value = c.value := by
  obtain ⟨pieces, params, payload⟩ := c
  constructor
  · intro h
    match pieces with
    | [] | .literal _ :: _ | .param _ _ :: _ | .rest _ _ :: _ :: _ => cases h
    | [.rest lead' name] =>
        simp only [rest?] at h
        split at h
        · next hcond =>
            obtain ⟨rfl, hne⟩ := hcond
            cases h
            exact ⟨hne, rfl, name, rfl, rfl, rfl⟩
        · cases h
  · rintro ⟨hne, hend, name, hpieces, hparams, hvalue⟩
    obtain ⟨pieces', params', value'⟩ := next
    cases hend
    cases hpieces
    obtain rfl : params' = params ++ [(name, value)] := hparams
    cases hvalue
    exact if_pos ⟨rfl, hne⟩

/-- What is found behind a literal segment is found. -/
theorem foundIn_of_literal
    (h : FoundIn (candidates.filterMap (Candidate.literal? segment)) segments found) :
    FoundIn candidates (segment :: segments) found := by
  obtain ⟨next, hnext, taken, hmatch, hvalue, hparams⟩ := h
  obtain ⟨c, hc, hstep⟩ := List.mem_filterMap.mp hnext
  obtain ⟨hpieces, hbefore, hsame⟩ := Candidate.literal?_eq_some.mp hstep
  exact ⟨c, hc, taken, hpieces ▸ .literal segment hmatch, hvalue.trans hsame, hbefore ▸ hparams⟩

/-- What is found behind a parameter is found. -/
theorem foundIn_of_param {lead value : List Char}
    (h : FoundIn (candidates.filterMap (Candidate.param? lead value)) segments found) :
    FoundIn candidates ((lead ++ value) :: segments) found := by
  obtain ⟨next, hnext, taken, hmatch, hvalue, hparams⟩ := h
  obtain ⟨c, hc, hstep⟩ := List.mem_filterMap.mp hnext
  obtain ⟨hne, name, hpieces, hbefore, hsame⟩ := Candidate.param?_eq_some.mp hstep
  refine ⟨c, hc, (name, value) :: taken, hpieces ▸ .param lead name hne hmatch, hvalue.trans hsame, ?_⟩
  rw [hparams, hbefore, List.append_assoc, List.singleton_append]

/-- What a catch-all finds is found. -/
theorem foundIn_of_rest {lead last : List Char}
    (h : found ∈ candidates.filterMap (Candidate.rest? lead (Text.joinWith '/' (last :: segments)))) :
    FoundIn candidates ((lead ++ last) :: segments) found := by
  obtain ⟨c, hc, hstep⟩ := List.mem_filterMap.mp h
  obtain ⟨hne, -, name, hpieces, hparams, hsame⟩ := Candidate.rest?_eq_some.mp hstep
  exact ⟨c, hc, _, hpieces ▸ .rest lead name last segments hne, hsame, hparams⟩

/-- **Searching is sound**: whatever is found matches the segments, by induction on them. -/
theorem search_sound (h : search candidates segments = some found) :
    FoundIn candidates segments found := by
  induction segments generalizing candidates with
  | nil =>
      have hempty := List.find?_some h
      have hpieces : found.pieces = [] := List.isEmpty_iff.mp hempty
      exact ⟨found, List.mem_of_find?_eq_some h, [], hpieces ▸ .nil, rfl, (List.append_nil _).symm⟩
  | cons segment segments ih =>
      simp only [search, Option.orElse_eq_or, Option.or_eq_some_iff] at h
      -- a literal segment comes first, then a parameter, and then a catch-all
      rcases h with hliteral | ⟨-, h⟩
      · split at hliteral
        · cases hliteral
        · exact foundIn_of_literal (ih hliteral)
      · obtain ⟨n, -, h⟩ := List.exists_of_findSome?_eq_some h
        rw [← List.take_append_drop n segment]
        rw [Option.or_eq_some_iff] at h
        rcases h with hparam | ⟨-, hrest⟩
        · split at hparam
          · cases hparam
          · exact foundIn_of_param (ih hparam)
        · exact foundIn_of_rest (List.mem_of_mem_head? hrest)

/-- **A route that a path matches** is one of the routes, its pattern matches the segments of the path, and its
parameters take what they match. -/
theorem lookup_sound {patterns : List (String × α)} {path : String} {value : α}
    {taken : List (String × String)} (h : lookup patterns path = some (value, taken)) :
    ∃ pattern, (pattern, value) ∈ patterns ∧ ∃ texts,
      Matches (piecesOfPattern pattern) (Text.splitOn '/' path.toList) texts
        ∧ taken = texts.map fun param => (param.1, String.ofList param.2) := by
  obtain ⟨found, hfound, heq⟩ := Option.map_eq_some_iff.mp h
  obtain ⟨c, hc, texts, hmatch, hvalue, hparams⟩ := search_sound hfound
  obtain ⟨⟨pattern, value'⟩, hmem, rfl⟩ := List.mem_map.mp hc
  cases heq
  refine ⟨pattern, ?_, texts, hmatch, ?_⟩
  · rw [hvalue]
    exact hmem
  · rw [hparams, List.nil_append]

/-! ## What a parameter takes -/

/-- The parameter of a piece. -/
def Piece.name? : Piece → Option String
  | .literal _ => none
  | .param _ name | .rest _ name => some name

/-- The parameters of a pattern take their texts in order. -/
theorem Matches.names {pieces : List Piece} {segments : List (List Char)}
    {taken : List (String × List Char)} (h : Matches pieces segments taken) :
    taken.map Prod.fst = pieces.filterMap Piece.name? := by
  induction h with
  | nil => rfl
  | literal text h ih => exact ih
  | param lead name hv h ih => exact congrArg _ ih
  | rest lead name segment segments hv => rfl

/-- **A parameter that fills its segment takes what stands at its place**, by induction on the pieces before
it: each of them matches one segment. -/
theorem Matches.at_param {before after : List Piece} {name : String} {segments : List (List Char)}
    {taken : List (String × List Char)} (h : Matches (before ++ .param [] name :: after) segments taken) :
    ∃ segment takenBefore takenAfter, segments[before.length]? = some segment
      ∧ taken = takenBefore ++ (name, segment) :: takenAfter
      ∧ takenAfter.map Prod.fst = after.filterMap Piece.name? := by
  induction before generalizing segments taken with
  | nil =>
      cases h with
      | param lead name hv h => exact ⟨_, [], _, rfl, rfl, h.names⟩
  | cons piece before ih =>
      rw [List.cons_append] at h
      generalize htail : before ++ .param [] name :: after = tail at h
      cases h with
      | literal text h =>
          obtain ⟨segment, takenBefore, takenAfter, hsegment, rfl, hnames⟩ := ih (htail ▸ h)
          exact ⟨segment, takenBefore, takenAfter, hsegment, rfl, hnames⟩
      | param lead name' hv h =>
          obtain ⟨segment, takenBefore, takenAfter, hsegment, rfl, hnames⟩ := ih (htail ▸ h)
          exact ⟨segment, (name', _) :: takenBefore, takenAfter, hsegment, rfl, hnames⟩
      -- a catch-all is the last piece
      | rest lead name' segment segments hv => simp at htail

end Route

/-! ## Parameters by name -/

namespace Form

/-- Of the values of one name the last one counts. -/
theorem lookup_append_cons {name : String} {before after : List (String × String)} (value : String)
    (h : name ∉ after.map Prod.fst) : lookup (before ++ (name, value) :: after) name = some value := by
  have hnone : after.reverse.find? (fun pair => pair.1 == name) = none := by
    refine List.find?_eq_none.mpr fun pair hpair hname => h ?_
    exact List.mem_map.mpr ⟨pair, List.mem_reverse.mp hpair, by simpa using hname⟩
  rw [lookup, List.reverse_append, List.reverse_cons, List.append_assoc, List.find?_append, hnone]
  simp

end Form

end ResourceTree
