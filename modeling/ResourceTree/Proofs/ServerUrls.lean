import ResourceTree.Client.Basic
import ResourceTree.Proofs.RenderedPaths

/-! # The URLs of a server

A client writes the path of a resource behind the address of a server and reads the text as a URL. If the address
names a server and nothing on it (`ServerAddress`), the path of that URL is the one that was written:
`ServerAddress.parse?_path`. For that the path must be made of parts that no reader of URLs changes (`Url.IsSteady`),
as plain bases and encoded IDs are. -/

namespace ResourceTree

namespace Text

/-- A text that has none of the characters to be trimmed stays. -/
theorem trim_eq_self {p : Char → Bool} {cs : List Char} (h : ∀ c ∈ cs, p c = false) : trim p cs = cs := by
  have hdrop : cs.dropWhile p = cs := by
    cases cs with
    | nil => rfl
    | cons c cs => exact List.dropWhile_cons_of_neg (by simp [h c List.mem_cons_self])
  rw [trim, hdrop, trimEnd_eq_self fun c hc => h c (List.mem_of_getLast? hc)]

/-- A text without the separator is not cut. -/
theorem cutAt_of_not_mem {sep : Char} {cs : List Char} (h : sep ∉ cs) : cutAt sep cs = (cs, none) := by
  induction cs with
  | nil => rfl
  | cons c cs ih =>
      rw [List.mem_cons, not_or] at h
      rw [cutAt, if_neg (Ne.symm h.1), ih h.2]

/-- What stands in a joined text stands in one of its pieces, or is the separator. -/
theorem mem_joinWith {sep c : Char} {pieces : List (List Char)} (h : c ∈ joinWith sep pieces) :
    c = sep ∨ ∃ piece ∈ pieces, c ∈ piece := by
  fun_induction joinWith sep pieces with
  | case1 => cases h
  | case2 piece => exact Or.inr ⟨piece, List.mem_cons_self, h⟩
  | case3 piece next pieces ih =>
      rcases List.mem_append.mp h with h | h
      · exact Or.inr ⟨piece, List.mem_cons_self, h⟩
      · rcases List.mem_cons.mp h with rfl | h
        · exact Or.inl rfl
        · obtain hsep | ⟨other, hother, hc⟩ := ih h
          · exact Or.inl hsep
          · exact Or.inr ⟨other, List.mem_cons_of_mem piece hother, hc⟩

end Text

namespace Url

/-! ## Parts that stay as they are -/

/-- A character of a rendered part. -/
def isRendered (c : Char) : Bool := c == '%' || Percent.isUnreservedChar c

/-- A part of a path that no reader of URLs changes. -/
structure IsSteady (part : String) : Prop where
  chars : ∀ c ∈ part.toList, isRendered c = true
  noSingleDot : isSingleDot part.toList = false
  noDoubleDot : isDoubleDot part.toList = false

/-- A text without codes has no hidden dots. -/
theorem plainDots_cons {c : Char} (h : c ≠ '%') (cs : List Char) : plainDots (c :: cs) = c :: plainDots cs := by
  rw [plainDots]
  rintro _ _ rfl
  exact absurd rfl h

theorem plainDots_of_not_mem {cs : List Char} (h : '%' ∉ cs) : plainDots cs = cs := by
  induction cs with
  | nil => rfl
  | cons c cs ih =>
      rw [List.mem_cons, not_or] at h
      rw [plainDots_cons (Ne.symm h.1), ih h.2]

/-- What the digits of codes tell. -/
theorem hexDigit_facts : ∀ n < 16, Percent.hexDigit n ≠ '%' ∧ Percent.hexDigit n ≠ 'e'
    ∧ (Percent.hexDigit n = '2' → n = 2) ∧ (Percent.hexDigit n = 'E' → n = 14) := by decide

/-- The code of a byte that is no dot hides none. -/
theorem plainDots_code {b : UInt8} (hb : b ≠ 0x2E) (rest : List Char) :
    plainDots (Percent.code b ++ rest) = Percent.code b ++ plainDots rest := by
  have hlt : b.toNat < 256 := b.toNat_lt_size
  obtain ⟨hhigh, -, htwo, -⟩ := hexDigit_facts (b.toNat / 16) (by omega)
  obtain ⟨hlow, he, -, hE⟩ := hexDigit_facts (b.toNat % 16) (by omega)
  -- only the two digits together are those of a dot
  have hdot : Percent.hexDigit (b.toNat / 16) = '2' → Percent.hexDigit (b.toNat % 16) ≠ 'E' := by
    intro h h'
    have hnat : b.toNat = 0x2E := by
      have := htwo h
      have := hE h'
      omega
    exact hb (UInt8.toNat_inj.mp hnat)
  rw [Percent.code]
  simp only [List.cons_append, List.nil_append]
  by_cases h : Percent.hexDigit (b.toNat / 16) = '2'
  · rw [h, plainDots, if_neg (not_or.mpr ⟨he, hdot h⟩), plainDots_cons hlow]
  · rw [plainDots, plainDots_cons hhigh, plainDots_cons hlow]
    rintro _ _ - heq
    exact h (List.cons.inj heq).1

/-- An encoded ID hides no dots, by induction on its bytes. -/
theorem plainDots_encode (id : String) : plainDots (Percent.encode id).toList = (Percent.encode id).toList := by
  rw [Percent.encode, String.toList_ofList]
  induction id.toUTF8.toList with
  | nil => rfl
  | cons b bytes ih =>
      rw [Percent.encodeBytes_cons]
      split
      · next hb =>
          have hne : Char.ofNat b.toNat ≠ '%' := by
            intro h
            have hnat := Text.toNat_ofNat (Percent.sound_isUnreserved.ascii b hb)
            rw [h] at hnat
            obtain rfl : (0x25 : UInt8) = b := UInt8.toNat_inj.mp hnat
            cases hb
          rw [List.singleton_append, plainDots_cons hne, ih]
      · next hb =>
          have hne : b ≠ 0x2E := by
            rintro rfl
            exact hb rfl
          rw [plainDots_code hne, ih]

/-- The parts of a plain base are steady. -/
theorem IsSteady.of_plain {part : String} (hdot : part ≠ ".") (hdots : part ≠ "..")
    (hchars : ∀ c ∈ part.toList, Percent.isUnreservedChar c = true) : IsSteady part := by
  have hplain : plainDots part.toList = part.toList :=
    plainDots_of_not_mem fun h => absurd (hchars _ h) (by decide)
  refine ⟨fun c hc => ?_, ?_, ?_⟩
  · rw [isRendered, hchars c hc, Bool.or_true]
  · rw [isSingleDot, hplain, beq_eq_false_iff_ne]
    exact fun h => hdot (String.toList_inj.mp h)
  · rw [isDoubleDot, hplain, beq_eq_false_iff_ne]
    exact fun h => hdots (String.toList_inj.mp h)

/-- Encoded IDs are steady, dots apart. -/
theorem IsSteady.encode {id : String} (hdot : id ≠ ".") (hdots : id ≠ "..") : IsSteady (Percent.encode id) := by
  have hencoded : Percent.encode "." = "." ∧ Percent.encode ".." = ".." := by decide +kernel
  refine ⟨fun c hc => ?_, ?_, ?_⟩
  · rw [isRendered, Bool.or_eq_true, beq_iff_eq]
    exact Percent.mem_encode hc
  · rw [isSingleDot, plainDots_encode, beq_eq_false_iff_ne]
    exact fun h => hdot (Percent.encode_injective ((String.toList_inj.mp h).trans hencoded.1.symm))
  · rw [isDoubleDot, plainDots_encode, beq_eq_false_iff_ne]
    exact fun h => hdots (Percent.encode_injective ((String.toList_inj.mp h).trans hencoded.2.symm))

/-! ## Paths that stay as they are -/

/-- What a reader of URLs wants to know of the characters of a rendered path. -/
theorem rendered_facts : ∀ n < 128, Char.ofNat n = '/' ∨ isRendered (Char.ofNat n) = true →
    32 < n ∧ inPath (UInt8.ofNat n) = true ∧ Char.ofNat n ∉ ['\\', '?', '#'] := by
  decide

/-- A character of a rendered path. -/
structure InRendered (c : Char) : Prop where
  ascii : c.toNat < 128
  visible : 32 < c.toNat
  kept : inPath (UInt8.ofNat c.toNat) = true
  noMark : c ∉ ['\\', '?', '#']

theorem ascii_of_isAlphanum {c : Char} (h : c.isAlphanum = true) : c.toNat < 128 := by
  have hlt {n : UInt32} (hn : n.toNat < 128) (h : c.val ≤ n) : c.toNat < 128 := Nat.lt_of_le_of_lt h hn
  obtain h | hdigit := Bool.or_eq_true_iff.mp h
  · obtain hupper | hlower := Bool.or_eq_true_iff.mp h
    · exact hlt (by decide) (of_decide_eq_true hupper).2
    · exact hlt (by decide) (of_decide_eq_true (Bool.and_eq_true_iff.mp hlower).2)
  · exact hlt (by decide) (of_decide_eq_true (Bool.and_eq_true_iff.mp hdigit).2)

theorem ascii_of_isRendered {c : Char} (h : isRendered c = true) : c.toNat < 128 := by
  simp only [isRendered, Percent.isUnreservedChar, Bool.or_eq_true, beq_iff_eq] at h
  obtain rfl | (((h | rfl) | rfl) | rfl) | rfl := h
  · decide
  · exact ascii_of_isAlphanum h
  all_goals decide

/-- The characters of a path of rendered parts. -/
theorem inRendered_of_mem {parts : List String} (h : ∀ part ∈ parts, ∀ c ∈ part.toList, isRendered c = true) :
    ∀ c ∈ (absolutePath parts).toList, InRendered c := by
  have hfacts {c : Char} (hascii : c.toNat < 128) (hc : c = '/' ∨ isRendered c = true) : InRendered c := by
    have hfacts := rendered_facts c.toNat hascii
    rw [Char.ofNat_toNat] at hfacts
    obtain ⟨hvisible, hkept, hmark⟩ := hfacts hc
    exact ⟨hascii, hvisible, hkept, hmark⟩
  intro c hc
  rw [absolutePath_eq] at hc
  have hslash : InRendered '/' := hfacts (by decide) (Or.inl rfl)
  rcases List.mem_cons.mp hc with rfl | hc
  · exact hslash
  · obtain rfl | ⟨piece, hpiece, hc⟩ := Text.mem_joinWith hc
    · exact hslash
    · obtain ⟨part, hpart, rfl⟩ := List.mem_map.mp hpiece
      have hrendered := h part hpart c hc
      exact hfacts (ascii_of_isRendered hrendered) (Or.inr hrendered)

/-- Characters that may stand in a part of a URL are written as they are. -/
theorem encodePart_eq_self {keep : UInt8 → Bool} {cs : List Char}
    (h : ∀ c ∈ cs, c.toNat < 128 ∧ keep (UInt8.ofNat c.toNat) = true) : encodePart keep cs = String.ofList cs := by
  rw [encodePart, Text.bytes_ascii fun c hc => (h c hc).1]
  refine congrArg String.ofList ?_
  induction cs with
  | nil => rfl
  | cons c cs ih =>
      obtain ⟨hascii, hkeep⟩ := h c List.mem_cons_self
      have hchar : Char.ofNat (UInt8.ofNat c.toNat).toNat = c := by
        rw [UInt8.toNat_ofNat', Nat.mod_eq_of_lt (by omega), Char.ofNat_toNat]
      rw [List.map_cons, Percent.encodeBytes_cons, if_pos hkeep, hchar, List.singleton_append,
        ih fun d hd => h d (List.mem_cons_of_mem c hd)]

/-- What is left of resolved segments: no dot segments, which may leave an empty one in their place. -/
theorem mem_resolve {before segments : List (List Char)} {s : List Char} (h : s ∈ resolve before segments) :
    s ∈ before ∨ s = [] ∨ (s ∈ segments ∧ isSingleDot s = false ∧ isDoubleDot s = false) := by
  fun_induction resolve before segments with
  | case1 before => exact Or.inl (List.mem_reverse.mp h)
  | case2 before last hd =>
      rcases List.mem_cons.mp (List.mem_reverse.mp h) with rfl | h
      · exact Or.inr (Or.inl rfl)
      · exact Or.inl (List.mem_of_mem_tail h)
  | case3 before last hd hs =>
      rcases List.mem_cons.mp (List.mem_reverse.mp h) with rfl | h
      · exact Or.inr (Or.inl rfl)
      · exact Or.inl h
  | case4 before last hd hs =>
      rcases List.mem_cons.mp (List.mem_reverse.mp h) with rfl | h
      · exact Or.inr (Or.inr ⟨List.mem_cons_self, by simpa using hs, by simpa using hd⟩)
      · exact Or.inl h
  | case5 before segment segments hne hd ih =>
      rcases ih h with h | h | ⟨h, hdots⟩
      · exact Or.inl (List.mem_of_mem_tail h)
      · exact Or.inr (Or.inl h)
      · exact Or.inr (Or.inr ⟨List.mem_cons_of_mem segment h, hdots⟩)
  | case6 before segment segments hne hd hs ih =>
      rcases ih h with h | h | ⟨h, hdots⟩
      · exact Or.inl h
      · exact Or.inr (Or.inl h)
      · exact Or.inr (Or.inr ⟨List.mem_cons_of_mem segment h, hdots⟩)
  | case7 before segment segments hne hd hs ih =>
      rcases ih h with h | h | ⟨h, hdots⟩
      · rcases List.mem_cons.mp h with rfl | h
        · exact Or.inr (Or.inr ⟨List.mem_cons_self, by simpa using hs, by simpa using hd⟩)
        · exact Or.inl h
      · exact Or.inr (Or.inl h)
      · exact Or.inr (Or.inr ⟨List.mem_cons_of_mem segment h, hdots⟩)

theorem resolve_ne_nil {before segments : List (List Char)} (h : segments ≠ []) : resolve before segments ≠ [] := by
  fun_induction resolve before segments with
  | case1 => exact absurd rfl h
  | case2 | case3 | case4 => simp
  | case5 _ _ _ hne _ ih => exact ih hne
  | case6 _ _ _ hne _ _ ih => exact ih hne
  | case7 _ _ _ hne _ _ ih => exact ih hne

/-- The path of a URL that is written with rendered parts: only its dot segments are resolved. -/
theorem pathOf_rendered {parts : List String}
    (h : ∀ part ∈ parts, ∀ c ∈ part.toList, isRendered c = true) :
    (pathOf (absolutePath parts).toList).toList = '/' :: Text.joinWith '/' (resolve []
      (Text.splitOn '/' (Text.joinWith '/' (parts.map String.toList)))) := by
  have hchars := inRendered_of_mem h
  rw [absolutePath_eq] at hchars
  rw [pathOf, absolutePath_eq, List.head?_cons, if_pos rfl, List.tail_cons, encodePart_eq_self, String.toList_ofList]
  intro c hc
  -- resolving adds no characters
  have hmem : c ∈ '/' :: Text.joinWith '/' (parts.map String.toList) := by
    rcases List.mem_cons.mp hc with rfl | hc
    · exact List.mem_cons_self
    · obtain rfl | ⟨piece, hpiece, hc⟩ := Text.mem_joinWith hc
      · exact List.mem_cons_self
      · rcases mem_resolve hpiece with hbefore | rfl | ⟨hpiece, -⟩
        · cases hbefore
        · cases hc
        · exact List.mem_cons_of_mem '/' (Text.mem_of_mem_piece hpiece hc)
  exact ⟨(hchars c hmem).ascii, (hchars c hmem).kept⟩

/-- **A path of rendered parts stays just when there are no dot segments among them.** -/
theorem pathOf_eq_self_iff {parts : List String} (hcut : Cuttable parts)
    (h : ∀ part ∈ parts, ∀ c ∈ part.toList, isRendered c = true) :
    pathOf (absolutePath parts).toList = absolutePath parts
      ↔ ∀ part ∈ parts, isSingleDot part.toList = false ∧ isDoubleDot part.toList = false := by
  rw [← String.toList_inj, pathOf_rendered h, absolutePath_eq, splitOn_parts hcut]
  constructor
  · intro heq part hpart
    have hne : parts ≠ [] := List.ne_nil_of_mem hpart
    have hmap : parts.map String.toList ≠ [] := fun hnil => hne (List.map_eq_nil_iff.mp hnil)
    rw [if_neg hne] at heq
    have hslash : ∀ s ∈ resolve [] (parts.map String.toList), '/' ∉ s := by
      intro s hs
      rcases mem_resolve hs with hbefore | rfl | ⟨hs, -⟩
      · cases hbefore
      · exact List.not_mem_nil
      · obtain ⟨part, hpart, rfl⟩ := List.mem_map.mp hs
        exact hcut.noSlash part hpart
    -- cut at the slashes again, the resolved segments are the parts
    have hcuts := congrArg (Text.splitOn '/') (List.cons.inj heq).2
    rw [Text.splitOn_joinWith (resolve_ne_nil hmap) hslash, splitOn_parts hcut, if_neg hne] at hcuts
    have hmem : part.toList ∈ resolve [] (parts.map String.toList) := by
      rw [hcuts]
      exact List.mem_map_of_mem hpart
    rcases mem_resolve hmem with hbefore | hnil | ⟨-, hdots⟩
    · cases hbefore
    · rw [hnil]
      exact ⟨rfl, rfl⟩
    · exact hdots
  · intro hdots
    rw [resolve_eq_self, List.reverse_nil, List.nil_append, ← splitOn_parts hcut, Text.joinWith_splitOn]
    intro s hs
    split at hs
    · obtain rfl := List.mem_singleton.mp hs
      exact ⟨rfl, rfl⟩
    · obtain ⟨part, hpart, rfl⟩ := List.mem_map.mp hs
      exact hdots part hpart

/-- **A path of steady parts stays.** -/
theorem pathOf_absolutePath {parts : List String} (hcut : Cuttable parts) (h : ∀ part ∈ parts, IsSteady part) :
    pathOf (absolutePath parts).toList = absolutePath parts :=
  (pathOf_eq_self_iff hcut fun part hpart => (h part hpart).chars).mpr fun part hpart =>
    ⟨(h part hpart).noSingleDot, (h part hpart).noDoubleDot⟩

end Url

/-! ## Addresses of servers -/

/-- An address that names a server and nothing on it: a scheme of the web, and a host with perhaps a port. -/
structure ServerAddress where
  scheme : String
  /-- The host and port as they are written. -/
  authority : List Char
  host : String
  port : Option Nat
  isWeb : scheme = "http" ∨ scheme = "https"
  chars : ∀ c ∈ authority, 32 < c.toNat ∧ c ∉ ['/', '\\', '?', '#', '@']
  located : Url.hostAndPort? scheme authority = some (host, port)

namespace ServerAddress

/-- The address as a text. -/
def text (a : ServerAddress) : String := a.scheme ++ "://" ++ String.ofList a.authority

/-- The URL of a path on the server. -/
def url (a : ServerAddress) (path : String) : Url := ⟨a.scheme, a.host, a.port, path, none, none⟩

variable (a : ServerAddress)

theorem url_isWeb (path : String) : (a.url path).isWeb = true := by
  rcases a.isWeb with h | h <;> simp [url, Url.isWeb, h]

theorem authority_ne_nil : a.authority ≠ [] := by
  intro hnil
  have hlocated := a.located
  rw [hnil] at hlocated
  have hhost : Url.host? [] = none := by decide +kernel
  simp [Url.hostAndPort?, hhost] at hlocated

/-- A text behind the scheme and its colon is read as the rest of a URL. -/
theorem scheme?_append (cs : List Char) : Url.scheme? (a.scheme.toList ++ ':' :: cs) = some (a.scheme.toList, cs) := by
  rcases a.isWeb with h | h
  · rw [h]
    rfl
  · rw [h]
    rfl

theorem special : (Url.hostSchemes.lookup a.scheme).isSome = true := by
  rcases a.isWeb with h | h <;> rw [h] <;> decide

variable {a : ServerAddress} {parts : List String}

/-- What stands behind the slashes of the scheme. -/
theorem mem_rest (h : ∀ part ∈ parts, ∀ c ∈ part.toList, Url.isRendered c = true) {c : Char}
    (hc : c ∈ a.authority ++ (absolutePath parts).toList) : 32 < c.toNat ∧ c ∉ ['\\', '?', '#'] := by
  rcases List.mem_append.mp hc with hc | hc
  · obtain ⟨hvisible, hmark⟩ := a.chars c hc
    exact ⟨hvisible, fun hmem => hmark ((by decide : ['\\', '?', '#'].Sublist _).subset hmem)⟩
  · have hrendered := Url.inRendered_of_mem h c hc
    exact ⟨hrendered.visible, hrendered.noMark⟩

/-- Behind the scheme, host, port and path are read. -/
theorem afterScheme?_path (h : ∀ part ∈ parts, ∀ c ∈ part.toList, Url.isRendered c = true) :
    Url.afterScheme? a.scheme ('/' :: '/' :: (a.authority ++ (absolutePath parts).toList))
      = some (a.url (Url.pathOf (absolutePath parts).toList)) := by
  have hmark {c : Char} (hmem : c ∈ ['\\', '?', '#']) : c ∉ a.authority ++ (absolutePath parts).toList :=
    fun hc => (mem_rest h hc).2 hmem
  have hauthority {c : Char} (hc : c ∈ a.authority) : (c != '/') = true := by
    have hne := (a.chars c hc).2
    simp_all
  obtain ⟨first, others, hfirst⟩ := List.exists_cons_of_ne_nil a.authority_ne_nil
  have hdrop : ('/' :: '/' :: (a.authority ++ (absolutePath parts).toList)).dropWhile (fun c => c == '/' || c == '\\')
      = a.authority ++ (absolutePath parts).toList := by
    have hne := (a.chars first (hfirst ▸ List.mem_cons_self)).2
    rw [hfirst]
    simp_all [List.dropWhile]
  have hmap : (a.authority ++ (absolutePath parts).toList).map (fun c => if c = '\\' then '/' else c)
      = a.authority ++ (absolutePath parts).toList := by
    have hid : ∀ c ∈ a.authority ++ (absolutePath parts).toList, (if c = '\\' then '/' else c) = id c :=
      fun c hc => if_neg (by rintro rfl; exact hmark (by decide) hc)
    rw [List.map_congr_left hid, List.map_id]
  have htake : (a.authority ++ (absolutePath parts).toList).takeWhile (· != '/') = a.authority := by
    rw [List.takeWhile_append_of_pos fun c hc => hauthority hc, absolutePath_eq]
    simp
  have hpath : (a.authority ++ (absolutePath parts).toList).dropWhile (· != '/') = (absolutePath parts).toList := by
    rw [List.dropWhile_append_of_pos fun c hc => hauthority hc, absolutePath_eq]
    simp
  have hat : '@' ∉ a.authority := fun hc => (a.chars _ hc).2 (by decide)
  rw [Url.afterScheme?]
  simp only [a.special, if_true, Option.bind_eq_bind, Option.bind_some, hdrop,
    Text.cutAt_of_not_mem (hmark (by decide : '#' ∈ _)), Text.cutAt_of_not_mem (hmark (by decide : '?' ∈ _)), hmap,
    htake, hpath, Text.splitOn_of_not_mem hat, List.getLast?_singleton, Option.getD_some, a.located]
  rfl

/-- **The path that is written behind the address of a server** is read as a path. -/
theorem parse?_rendered (h : ∀ part ∈ parts, ∀ c ∈ part.toList, Url.isRendered c = true) :
    Url.parse? (a.text ++ absolutePath parts) = some (a.url (Url.pathOf (absolutePath parts).toList)) := by
  have htext : (a.text ++ absolutePath parts).toList
      = a.scheme.toList ++ ':' :: '/' :: '/' :: (a.authority ++ (absolutePath parts).toList) := by
    simp [text]
  have hvisible : ∀ c ∈ (a.text ++ absolutePath parts).toList, 32 < c.toNat := by
    have hscheme : ∀ c ∈ a.scheme.toList ++ [':', '/', '/'], 32 < c.toNat := by
      rcases a.isWeb with hs | hs <;> rw [hs] <;> simp
    intro c hc
    rw [htext, show ∀ cs : List Char, ':' :: '/' :: '/' :: cs = [':', '/', '/'] ++ cs from fun _ => rfl,
      ← List.append_assoc] at hc
    rcases List.mem_append.mp hc with hc | hc
    · exact hscheme c hc
    · exact (mem_rest h hc).1
  have hcounts : ∀ c ∈ (a.text ++ absolutePath parts).toList, (!Url.isIgnored c) = true := by
    intro c hc
    have hne {d : Char} (hd : d.toNat ≤ 32) : c ≠ d := by
      rintro rfl
      exact absurd (hvisible c hc) (Nat.not_lt.mpr hd)
    simp [Url.isIgnored, hne (by decide : '\t'.toNat ≤ 32), hne (by decide : '\n'.toNat ≤ 32),
      hne (by decide : '\r'.toNat ≤ 32)]
  rw [Url.parse?, Text.trim_eq_self fun c hc => decide_eq_false (Nat.not_le.mpr (hvisible c hc)),
    List.filter_eq_self.mpr hcounts, htext, a.scheme?_append]
  simp only [Option.bind_eq_bind, Option.bind_some, String.ofList_toList, afterScheme?_path h]

/-- **A path of steady parts that is written behind the address of a server** is the path of the URL. -/
theorem parse?_path (hcut : Cuttable parts) (h : ∀ part ∈ parts, Url.IsSteady part) :
    Url.parse? (a.text ++ absolutePath parts) = some (a.url (absolutePath parts)) := by
  rw [parse?_rendered fun part hpart => (h part hpart).chars, Url.pathOf_absolutePath hcut h]

end ServerAddress

end ResourceTree
