import ResourceTree.Proofs.ClientServerAgreement
import ResourceTree.Proofs.RenderedIds
import ResourceTree.Proofs.RouteOverlaps

/-! # Where requests arrive

A client writes the path that it renders behind the address of its server, and the text is read as a URL before anything
is sent. The request arrives with the rendered path just when no ID is a dot segment: those are not encoded, and readers
of URLs resolve them. Apart from dot segments, different IDs never arrive at the same path, and a request arrives at a
path of another API only if an ID is spelled like a part of that API's base: `Client.arrives_where_rendered`. A parent
whose ID is `..` leads elsewhere: `Client.arrives_elsewhere`. -/

namespace ResourceTree

/-! ## The parts of a rendered path -/

namespace Percent

theorem isUnreserved_of_char :
    ∀ n < 128, isUnreservedChar (Char.ofNat n) = true → isUnreserved (UInt8.ofNat n) = true := by decide

/-- An ID of unreserved characters is its own code. -/
theorem encode_eq_self {id : String} (h : ∀ c ∈ id.toList, isUnreservedChar c = true) : encode id = id := by
  have hkeep : ∀ c ∈ id.toList, c.toNat < 128 ∧ isUnreserved (UInt8.ofNat c.toNat) = true := by
    intro c hc
    have hascii : c.toNat < 128 := Url.ascii_of_isRendered (by rw [Url.isRendered, h c hc, Bool.or_true])
    refine ⟨hascii, isUnreserved_of_char c.toNat hascii ?_⟩
    rw [Char.ofNat_toNat]
    exact h c hc
  have hpart := Url.encodePart_eq_self hkeep
  rwa [Url.encodePart, String.ofList_toList] at hpart

end Percent

namespace RoutePath

variable {path : RoutePath} {above : List Segment} {last : Segment} {parents : List String} {id : Option String}

/-- Every given part stands in the path, by induction on the segments above the last one. -/
theorem mem_piecesOf {ids : List String} {leaf : Option String}
    (hlength : ids.length = (above.filter Segment.takesId).length) {part : String} (h : part ∈ ids ++ leaf.toList) :
    part ∈ piecesOf (above ++ [last]) ids leaf := by
  induction above generalizing ids with
  | nil =>
      obtain rfl := List.length_eq_zero_iff.mp hlength
      exact List.mem_append_right _ h
  | cons s above ih =>
      obtain ⟨next, rest, hrest⟩ := List.exists_cons_of_ne_nil (List.append_ne_nil_of_right_ne_nil above
        (List.cons_ne_nil last []))
      rw [List.cons_append, hrest]
      rw [hrest] at ih
      -- a segment above the last one is followed by its ID if it takes one
      cases hid : s.takesId with
      | true =>
          rw [List.filter_cons_of_pos hid] at hlength
          obtain ⟨first, ids, rfl⟩ := List.exists_cons_of_length_eq_add_one hlength
          have hpieces : piecesOf (s :: next :: rest) (first :: ids) leaf
              = basePieces s.base ++ first :: piecesOf (next :: rest) ids leaf := by
            simp [piecesOf, hid]
          rw [hpieces]
          rcases List.mem_cons.mp h with rfl | h
          · exact List.mem_append_right _ List.mem_cons_self
          · exact List.mem_append_right _ (List.mem_cons_of_mem first (ih (Nat.succ.inj hlength) h))
      | false =>
          rw [List.filter_cons_of_neg (by simp [hid])] at hlength
          have hpieces : piecesOf (s :: next :: rest) ids leaf
              = basePieces s.base ++ piecesOf (next :: rest) ids leaf := by
            simp [piecesOf, hid]
          rw [hpieces]
          exact List.mem_append_right _ (ih hlength h)

/-- Every ID stands in the rendered path, encoded. -/
theorem encode_mem_renderedParts (hne : path.segments ≠ []) (hlength : parents.length = path.idAncestors.length)
    {i : String} (hi : i ∈ parents ++ id.toList) : Percent.encode i ∈ path.renderedParts parents id := by
  have hpath := List.dropLast_append_getLast hne
  rw [renderedParts, ← hpath]
  refine mem_piecesOf ?_ ?_
  · rw [List.length_map, hlength, idAncestors]
  · have hmap : parents.map Percent.encode ++ (id.map Percent.encode).toList
        = (parents ++ id.toList).map Percent.encode := by
      rw [List.map_append]
      cases id <;> rfl
    rw [hmap]
    exact List.mem_map_of_mem hi

/-- The characters of a rendered path are those of plain bases and of encoded IDs. -/
theorem isRendered_of_mem (hbases : ∀ s ∈ path.segments, IsPlainBase s.base) (parents : List String)
    (id : Option String) : ∀ part ∈ path.renderedParts parents id, ∀ c ∈ part.toList, Url.isRendered c = true := by
  refine forall_renderedParts (fun s hs part hpart c hc => ?_) fun i _ c hc => ?_
  · rw [Url.isRendered, (hbases s hs part hpart).2.2 c hc, Bool.or_true]
  · rw [Url.isRendered, Bool.or_eq_true, beq_iff_eq]
    exact Percent.mem_encode hc

/-- **A rendered path has a dot segment just when an ID is one.** -/
theorem noDots_iff (hne : path.segments ≠ []) (hbases : ∀ s ∈ path.segments, IsPlainBase s.base)
    (hlength : parents.length = path.idAncestors.length) (hids : ∀ i ∈ parents ++ id.toList, i ≠ "") :
    (∀ part ∈ path.renderedParts parents id, Url.isSingleDot part.toList = false ∧ Url.isDoubleDot part.toList = false)
      ↔ ∀ i ∈ parents ++ id.toList, i ≠ "." ∧ i ≠ ".." := by
  constructor
  · -- dots are not encoded, so an ID that is a dot segment stands in the path as it is
    intro h i hi
    obtain ⟨hsingle, hdouble⟩ := h _ (encode_mem_renderedParts hne hlength hi)
    constructor
    · rintro rfl
      exact absurd hsingle (by decide +kernel)
    · rintro rfl
      exact absurd hdouble (by decide +kernel)
  · intro h part hpart
    have hproper : ∀ i ∈ parents ++ id.toList, IsProperId i := fun i hi => ⟨hids i hi, h i hi⟩
    have hsteady := steady_renderedParts hbases hproper part hpart
    exact ⟨hsteady.noSingleDot, hsteady.noDoubleDot⟩

/-- The patterns of an API are read as static texts and parameters that fill their segments. -/
theorem cases_of_mem_pieces (hbases : ∀ s ∈ path.segments, IsBraceless s.base) {leaf : Option Segment}
    {p : Route.Piece} (h : p ∈ Route.piecesOfPattern (path.pattern leaf)) :
    (∃ part : String, p = .literal part.toList ∧ (part = "" ∨ path.IsBasePart part)) ∨ ∃ name, p = .param [] name := by
  obtain ⟨text, htext, rfl⟩ := List.mem_map.mp h
  rcases cases_of_mem_pattern htext with rfl | ⟨part, rfl, ⟨s, hs, hpart⟩ | ⟨s, rfl⟩⟩
  · exact Or.inl ⟨"", rfl, Or.inl rfl⟩
  · obtain ⟨hopen, hclose⟩ := hbases s hs part hpart
    exact Or.inl ⟨part, Route.Piece.read_of_braceless [] hopen hclose, Or.inr ⟨s, hs, hpart⟩⟩
  · exact Or.inr ⟨s.idParam, read_placeholder s⟩

end RoutePath

/-! ## Where the requests of a client arrive -/

variable {A R : Type}

/-- **The requests of a client for these IDs arrive with this path**, whatever their method, query and body are. -/
def Client.Arrives (client : Client R) (parents : List String) (id : Option String) (path : String) : Prop :=
  ∃ address, client.url parents id = .ok address ∧ ∀ call : Call, call.address = address →
    ∃ u, call.url? = some u ∧ u.isWeb = true ∧ (call.request u).path = path

/-- A client of an API on a server: its address names a server and nothing on it, and the bases of its path are
plain. -/
structure Client.IsPlain (client : Client R) : Prop where
  address : ∃ a : ServerAddress, client.address = a.text
  nonempty : client.path.segments ≠ []
  bases : ∀ s ∈ client.path.segments, IsPlainBase s.base

namespace Client

variable {client : Client R} {other : Client A} {parents parents' : List String} {id id' : Option String}
  {p p' : String}

theorem Arrives.unique (h : client.Arrives parents id p) (h' : client.Arrives parents id p') : p = p' := by
  obtain ⟨address, hurl, hcalls⟩ := h
  obtain ⟨address', hurl', hcalls'⟩ := h'
  cases hurl.symm.trans hurl'
  obtain ⟨u, hu, -, rfl⟩ := hcalls { method := .get, address := address } rfl
  obtain ⟨u', hu', -, rfl⟩ := hcalls' { method := .get, address := address } rfl
  cases hu.symm.trans hu'
  rfl

/-- Only as many IDs as the path takes are sent. -/
theorem Arrives.length (h : client.Arrives parents id p) : parents.length = client.path.idAncestors.length := by
  obtain ⟨address, hurl, -⟩ := h
  rw [url] at hurl
  cases hrender : client.path.render parents id with
  | error e =>
      rw [hrender] at hurl
      cases hurl
  | ok text => exact RoutePath.length_of_render hrender

namespace IsPlain

/-- **A request arrives with the rendered path, whose dot segments are resolved.** -/
theorem arrives (h : client.IsPlain) (hlength : parents.length = client.path.idAncestors.length) :
    client.Arrives parents id (Url.pathOf (absolutePath (client.path.renderedParts parents id)).toList) := by
  obtain ⟨a, haddress⟩ := h.address
  refine ⟨a.text ++ absolutePath (client.path.renderedParts parents id), ?_, fun call hcall => ?_⟩
  · rw [url, RoutePath.render_eq hlength, haddress]
  · have hparse : Url.parse? call.address
        = some (a.url (Url.pathOf (absolutePath (client.path.renderedParts parents id)).toList)) := by
      rw [hcall]
      exact ServerAddress.parse?_rendered (RoutePath.isRendered_of_mem h.bases parents id)
    obtain ⟨u, hu, hscheme, hpath⟩ := Call.url?_of_parse? hparse
    refine ⟨u, hu, ?_, hpath⟩
    rw [Url.isWeb, hscheme]
    exact a.url_isWeb (Url.pathOf (absolutePath (client.path.renderedParts parents id)).toList)

/-- **It is the rendered path just when no ID is a dot segment.** -/
theorem arrives_rendered_iff (h : client.IsPlain) (hlength : parents.length = client.path.idAncestors.length)
    (hids : ∀ i ∈ parents ++ id.toList, i ≠ "") :
    client.Arrives parents id (absolutePath (client.path.renderedParts parents id))
      ↔ ∀ i ∈ parents ++ id.toList, i ≠ "." ∧ i ≠ ".." := by
  rw [← RoutePath.noDots_iff h.nonempty h.bases hlength hids,
    ← Url.pathOf_eq_self_iff (RoutePath.cuttable_renderedParts client.path hids)
      (RoutePath.isRendered_of_mem h.bases parents id)]
  constructor
  · intro harrives
    exact (h.arrives hlength).unique harrives
  · intro hsame
    rw [← hsame]
    exact h.arrives hlength

/-- Without dot segments a request that arrives has the rendered path. -/
theorem rendered_of_arrives (h : client.IsPlain) (hids : ∀ i ∈ parents ++ id.toList, IsProperId i)
    (harrives : client.Arrives parents id p) : p = absolutePath (client.path.renderedParts parents id) := by
  refine harrives.unique ((h.arrives_rendered_iff harrives.length fun i hi => (hids i hi).1).mpr ?_)
  exact fun i hi => (hids i hi).2

/-- **Different IDs arrive at different paths**, dot segments apart. -/
theorem arrives_injective (h : client.IsPlain) (hids : ∀ i ∈ parents ++ id.toList, IsProperId i)
    (hids' : ∀ i ∈ parents' ++ id'.toList, IsProperId i) (harrives : client.Arrives parents id p)
    (harrives' : client.Arrives parents' id' p) : parents = parents' ∧ id = id' := by
  have hrender := RoutePath.render_eq harrives.length id
  have hrender' := RoutePath.render_eq harrives'.length id'
  rw [← h.rendered_of_arrives hids harrives] at hrender
  rw [← h.rendered_of_arrives hids' harrives'] at hrender'
  exact RoutePath.render_injective h.nonempty (fun s hs => (h.bases s hs).braceless) (fun i hi => (hids i hi).1)
    (fun i hi => (hids' i hi).1) hrender hrender'

/-- A request matches the pattern of its API, and the parameters take its IDs, encoded. -/
theorem matches_of_arrives (h : client.IsPlain) (hids : ∀ i ∈ parents ++ id.toList, IsProperId i)
    (harrives : client.Arrives parents id p) :
    ∃ taken, Route.Matches (Route.piecesOfPattern (client.path.pattern (client.path.leafFor id)))
        (Text.splitOn '/' p.toList) taken
      ∧ ∀ param ∈ taken, ∃ i ∈ parents ++ id.toList, param.2 = (Percent.encode i).toList := by
  have hpath := (List.dropLast_append_getLast h.nonempty).symm
  have hmatch := RoutePath.matches_render hpath (fun s hs => (h.bases s hs).braceless) harrives.length
    fun i hi => (hids i hi).1
  rw [← RoutePath.leafFor_eq hpath, ← h.rendered_of_arrives hids harrives] at hmatch
  refine ⟨_, hmatch, fun param hparam => ?_⟩
  obtain ⟨i, hi, heq⟩ := List.mem_map.mp (List.of_mem_zip hparam).2
  exact ⟨i, hi, heq.symm⟩

/-- Where static text of one pattern stands against a parameter of the other, an ID is spelled like that text. -/
theorem exists_basePart_of_fork (h : client.IsPlain) {segments : List (List Char)} {pieces' : List Route.Piece}
    {taken taken' : List (String × List Char)} {ids : List String} {text : List Char} {name : String}
    (hfork : Route.Fork (Route.piecesOfPattern (client.path.pattern (client.path.leafFor id))) pieces'
      (.literal text) (.param [] name))
    (hmatch : Route.Matches (Route.piecesOfPattern (client.path.pattern (client.path.leafFor id))) segments taken)
    (hmatch' : Route.Matches pieces' segments taken')
    (htaken : ∀ param ∈ taken', ∃ i ∈ ids, param.2 = (Percent.encode i).toList) :
    ∃ i ∈ ids, client.path.IsBasePart i := by
  obtain ⟨rest, rest', segment, behind, t, t', hstatic, hparam, -, ht'⟩ := hmatch.at_fork hfork hmatch'
  obtain ⟨rfl, -⟩ := hstatic.of_literal
  obtain ⟨value, _, htext, hvalue, rfl, -⟩ := hparam.of_param
  obtain ⟨i, hi, hencoded⟩ := htaken (name, value) (ht' List.mem_cons_self)
  have hbases := fun s hs => (h.bases s hs).braceless
  rcases RoutePath.cases_of_mem_pieces hbases hfork.mem.1 with ⟨part, hpart, hplace⟩ | ⟨_, heq⟩
  · rw [List.nil_append] at htext
    have hcode : Percent.encode i = part := by
      rw [← String.toList_inj, ← hencoded, ← htext]
      exact Route.Piece.literal.inj hpart
    rcases hplace with rfl | hbase
    · -- the parameter takes something
      rw [hcode] at hencoded
      exact absurd hencoded hvalue
    · -- a part of a plain base is its own code, and codes are not ambiguous
      obtain ⟨s, hs, hpart⟩ := hbase
      have hid : i = part := Percent.encode_injective
        (hcode.trans (Percent.encode_eq_self (h.bases s hs part hpart).2.2).symm)
      exact ⟨i, hi, s, hs, hid ▸ hpart⟩
  · cases heq

/-- **Where two APIs could be mixed up.** If requests to APIs whose patterns have different shapes arrive at the same
path, an ID of one of them is spelled like a part of the other's bases. -/
theorem exists_basePart_of_arrives (h : client.IsPlain) (h' : other.IsPlain)
    (hids : ∀ i ∈ parents ++ id.toList, IsProperId i) (hids' : ∀ i ∈ parents' ++ id'.toList, IsProperId i)
    (hshape : routeShape (client.path.pattern (client.path.leafFor id))
      ≠ routeShape (other.path.pattern (other.path.leafFor id')))
    (harrives : client.Arrives parents id p) (harrives' : other.Arrives parents' id' p) :
    (∃ i ∈ parents ++ id.toList, other.path.IsBasePart i)
      ∨ ∃ i ∈ parents' ++ id'.toList, client.path.IsBasePart i := by
  have hbases := fun s hs => (h.bases s hs).braceless
  have hbases' := fun s hs => (h'.bases s hs).braceless
  obtain ⟨taken, hmatch, htaken⟩ := h.matches_of_arrives hids harrives
  obtain ⟨taken', hmatch', htaken'⟩ := h'.matches_of_arrives hids' harrives'
  have hwhole := RoutePath.isWhole_pattern hbases (client.path.leafFor id)
  have hwhole' := RoutePath.isWhole_pattern hbases' (other.path.leafFor id')
  obtain ⟨q, q', hfork⟩ := hmatch.fork hmatch' fun hsame => hshape (hwhole.routeShape_eq hwhole' hsame)
  obtain ⟨hq, hq', hne⟩ := hfork.mem
  rcases RoutePath.cases_of_mem_pieces hbases hq with ⟨part, rfl, -⟩ | ⟨name, rfl⟩
  · rcases RoutePath.cases_of_mem_pieces hbases' hq' with ⟨part', rfl, -⟩ | ⟨name', rfl⟩
    · -- two texts that match the same segment are the same
      obtain ⟨_, _, _, _, _, _, hstatic, hstatic', -, -⟩ := hmatch.at_fork hfork hmatch'
      rw [hstatic.of_literal.1, hstatic'.of_literal.1] at hne
      exact absurd rfl hne
    · exact Or.inr (h.exists_basePart_of_fork hfork hmatch hmatch' htaken')
  · rcases RoutePath.cases_of_mem_pieces hbases' hq' with ⟨part', rfl, -⟩ | ⟨name', rfl⟩
    · exact Or.inl (h'.exists_basePart_of_fork hfork.symm hmatch' hmatch htaken)
    · exact absurd rfl hne

end IsPlain

/-- **Where the requests of a client arrive.** With any IDs that are not empty, a request arrives; it does so with the
path that was rendered just when no ID is a dot segment. Apart from those, different IDs arrive at different paths, and
a request arrives at a path of another API only if an ID of one of them is spelled like a part of the other's bases. -/
theorem arrives_where_rendered {client : Client R} (h : client.IsPlain) :
    (∀ parents id, parents.length = client.path.idAncestors.length → (∀ i ∈ parents ++ id.toList, i ≠ "") →
      ∃ rendered arriving, client.path.render parents id = .ok rendered ∧ client.Arrives parents id arriving
        ∧ (arriving = rendered ↔ ∀ i ∈ parents ++ id.toList, i ≠ "." ∧ i ≠ ".."))
      ∧ (∀ parents parents' id id' p, (∀ i ∈ parents ++ id.toList, IsProperId i) →
        (∀ i ∈ parents' ++ id'.toList, IsProperId i) → client.Arrives parents id p →
          client.Arrives parents' id' p → parents = parents' ∧ id = id')
      ∧ ∀ other : Client A, other.IsPlain → ∀ parents parents' id id' p,
        (∀ i ∈ parents ++ id.toList, IsProperId i) → (∀ i ∈ parents' ++ id'.toList, IsProperId i) →
          routeShape (client.path.pattern (client.path.leafFor id))
              ≠ routeShape (other.path.pattern (other.path.leafFor id')) →
            client.Arrives parents id p → other.Arrives parents' id' p →
              (∃ i ∈ parents ++ id.toList, other.path.IsBasePart i)
                ∨ ∃ i ∈ parents' ++ id'.toList, client.path.IsBasePart i := by
  refine ⟨?_, ?_, ?_⟩
  · intro parents id hlength hids
    have hrendered := h.arrives_rendered_iff hlength hids
    refine ⟨_, _, RoutePath.render_eq hlength id, h.arrives hlength, ?_⟩
    rw [← hrendered]
    constructor
    · intro hsame
      rw [← hsame]
      exact h.arrives hlength
    · exact (h.arrives hlength).unique
  · intro parents parents' id id' p hids hids' harrives harrives'
    exact h.arrives_injective hids hids' harrives harrives'
  · intro other hother parents parents' id id' p hids hids' hshape harrives harrives'
    exact h.exists_basePart_of_arrives hother hids hids' hshape harrives harrives'

end Client

namespace Library

theorem isPlain_albumClient : albumClient.IsPlain where
  address := ⟨address, by decide +kernel⟩
  nonempty := by decide
  bases := by decide +kernel

/-- The client for all albums. -/
def allAlbums : Client Record :=
  .forPath "http://library/" ⟨[⟨"albums", "/albums", true⟩]⟩ Record.schemaless .standard

end Library

open Library in
/-- A request for the album `x` of the artist `a 1` arrives with the rendered path. -/
theorem Client.arrives_where_rendered_album :
    albumClient.Arrives ["a 1"] (some "x") "/artists/a%201/albums/x" := by
  obtain ⟨rendered, arriving, hrender, harrives, hsame⟩ :=
    (Client.arrives_where_rendered (A := Record) isPlain_albumClient).1 ["a 1"] (some "x") rfl (by decide)
  have hrendered : albumClient.path.render ["a 1"] (some "x") = .ok "/artists/a%201/albums/x" := by decide +kernel
  cases hrender.symm.trans hrendered
  rw [← hsame.mpr (by decide)]
  exact harrives

open Library in
/-- **A parent that is a dot segment leads elsewhere**: the request for the album `x` of an artist whose ID is `..`
arrives with the path of the album `x` of all albums. -/
theorem Client.arrives_elsewhere :
    albumClient.path.render [".."] (some "x") = .ok "/artists/../albums/x"
      ∧ albumClient.Arrives [".."] (some "x") "/albums/x"
      ∧ allAlbums.path.render [] (some "x") = .ok "/albums/x" := by
  have hpath : Url.pathOf (absolutePath (albumClient.path.renderedParts [".."] (some "x"))).toList = "/albums/x" := by
    decide +kernel
  refine ⟨by decide +kernel, ?_, by decide +kernel⟩
  rw [← hpath]
  exact isPlain_albumClient.arrives rfl

end ResourceTree
