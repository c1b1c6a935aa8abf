import ResourceTree.Proofs.DecodedTexts
import ResourceTree.Proofs.PatternParts
import ResourceTree.Url.Basic

/-! # Queries that are read again

A list of pairs is written as a query and read as the same pairs, whatever characters the names and values are made
of: `Form.decode_encode`. The signs that separate pairs and end names are written as codes inside of them, so cutting
undoes joining. Pairs that are added to the query of a URL come behind those that it has (`Url.decode_withPairs`), and
of equal names the last pair counts (`Form.lookup_append`). -/

namespace ResourceTree

namespace Text

/-- A text is cut at its first separator. -/
theorem cutAt_append_cons {sep : Char} {before : List Char} (h : sep ∉ before) (after : List Char) :
    cutAt sep (before ++ sep :: after) = (before, some after) := by
  induction before with
  | nil => rw [List.nil_append, cutAt, if_pos rfl]
  | cons c before ih =>
      rw [List.mem_cons, not_or] at h
      rw [List.cons_append, cutAt, if_neg (Ne.symm h.1), ih h.2]

end Text

namespace Form

/-! ## Names and values -/

/-- A byte of a name or value as it is written. -/
def encodeByte (b : UInt8) : List Char :=
  if b = 0x20 then ['+'] else if isPlain b then [Char.ofNat b.toNat] else Percent.code b

theorem encodeText_eq (s : String) : encodeText s = s.toUTF8.toList.flatMap encodeByte := rfl

/-- The byte of a written character, before codes are decoded. -/
def decodeChar (c : Char) : UInt8 := if UInt8.ofNat c.toNat = 0x2B then 0x20 else UInt8.ofNat c.toNat

/-- A character that may stand in a written name or value. -/
structure IsWritten (c : Char) : Prop where
  ascii : c.toNat < 128
  noEnd : c ≠ '&'
  noEquals : c ≠ '='

/-- What plain bytes are: characters that separate nothing, begin no code and stand for no space. -/
theorem plain_facts : ∀ n < 256, isPlain (UInt8.ofNat n) = true →
    n < 128 ∧ Char.ofNat n ≠ '&' ∧ Char.ofNat n ≠ '=' ∧ n ≠ 0x25 ∧ n ≠ 0x2B := by
  decide +kernel

/-- The digits of codes separate nothing and stand for no space. -/
theorem hexDigit_facts : ∀ n < 16, (Percent.hexDigit n).toNat < 128 ∧ Percent.hexDigit n ≠ '&'
    ∧ Percent.hexDigit n ≠ '=' ∧ decodeChar (Percent.hexDigit n) = UInt8.ofNat (Percent.hexDigit n).toNat := by
  decide

theorem plain_of_isPlain {b : UInt8} (h : isPlain b = true) :
    b.toNat < 128 ∧ Char.ofNat b.toNat ≠ '&' ∧ Char.ofNat b.toNat ≠ '=' ∧ b.toNat ≠ 0x25 ∧ b.toNat ≠ 0x2B :=
  plain_facts b.toNat b.toNat_lt_size (by rwa [UInt8.ofNat_toNat])

theorem isWritten_of_mem_encodeByte {b : UInt8} {c : Char} (h : c ∈ encodeByte b) : IsWritten c := by
  rw [encodeByte] at h
  split_ifs at h with hspace hplain
  · rw [List.mem_singleton.mp h]
    exact ⟨by decide, by decide, by decide⟩
  · obtain ⟨hascii, hend, hequals, -⟩ := plain_of_isPlain hplain
    rw [List.mem_singleton.mp h]
    exact ⟨by rwa [Text.toNat_ofNat hascii], hend, hequals⟩
  · have hb : b.toNat < 256 := b.toNat_lt_size
    have hdigit {n : Nat} (hn : n < 16) : IsWritten (Percent.hexDigit n) :=
      have ⟨hascii, hend, hequals, _⟩ := hexDigit_facts n hn
      ⟨hascii, hend, hequals⟩
    simp only [Percent.code, List.mem_cons, List.not_mem_nil, or_false] at h
    rcases h with rfl | rfl | rfl
    · exact ⟨by decide, by decide, by decide⟩
    · exact hdigit (by omega)
    · exact hdigit (by omega)

/-- The characters of a written name or value. -/
theorem isWritten_of_mem {s : String} {c : Char} (h : c ∈ encodeText s) : IsWritten c := by
  obtain ⟨b, -, hc⟩ := List.mem_flatMap.mp (encodeText_eq s ▸ h)
  exact isWritten_of_mem_encodeByte hc

/-- A written byte is decoded to the byte. -/
theorem decodeBytes_encodeByte (b : UInt8) (rest : List UInt8) :
    Percent.decodeBytes ((encodeByte b).map decodeChar ++ rest) = b :: Percent.decodeBytes rest := by
  rw [encodeByte]
  split_ifs with hspace hplain
  · rw [hspace]
    exact Percent.decodeBytes_of_ne (by decide)
  · obtain ⟨hascii, -, -, hcode, hplus⟩ := plain_of_isPlain hplain
    have hbyte : decodeChar (Char.ofNat b.toNat) = b := by
      rw [decodeChar, Text.toNat_ofNat hascii, UInt8.ofNat_toNat, if_neg]
      rintro rfl
      exact hplus rfl
    rw [List.map_singleton, hbyte, List.singleton_append, Percent.decodeBytes_of_ne]
    rintro rfl
    exact hcode rfl
  · have hb : b.toNat < 256 := b.toNat_lt_size
    have hcode : (Percent.code b).map decodeChar = (Percent.code b).map fun c => UInt8.ofNat c.toNat := by
      have hhigh := (hexDigit_facts (b.toNat / 16) (by omega)).2.2.2
      have hlow := (hexDigit_facts (b.toNat % 16) (by omega)).2.2.2
      have hsign : decodeChar '%' = UInt8.ofNat '%'.toNat := by decide
      simp only [Percent.code, List.map_cons, List.map_nil, hhigh, hlow, hsign]
    rw [hcode, Percent.decodeBytes_code]

/-- Written bytes are decoded to the bytes, by induction on them. -/
theorem decodeBytes_encodeBytes (bytes : List UInt8) :
    Percent.decodeBytes ((bytes.flatMap encodeByte).map decodeChar) = bytes := by
  induction bytes with
  | nil => rfl
  | cons b bytes ih => rw [List.flatMap_cons, List.map_append, decodeBytes_encodeByte, ih]

/-- **A name or value is read as it was**, whatever characters it is made of. -/
theorem decodeText_encodeText (s : String) : decodeText (encodeText s) = s := by
  have hascii : ∀ c ∈ encodeText s, c.toNat < 128 := fun c hc => (isWritten_of_mem hc).ascii
  have hchars : (encodeText s).map (fun c => if UInt8.ofNat c.toNat = 0x2B then 0x20 else UInt8.ofNat c.toNat)
      = (s.toUTF8.toList.flatMap encodeByte).map decodeChar := rfl
  simp only [decodeText, Text.bytes_ascii hascii, List.map_map, Function.comp_def]
  rw [hchars, decodeBytes_encodeBytes, Text.decodeUtf8_toUTF8]

/-! ## Pairs -/

/-- A pair is read as it was. -/
theorem decodePair_encodePair (pair : String × String) : decodePair (encodePair pair) = pair := by
  have hname : '=' ∉ encodeText pair.1 := fun h => (isWritten_of_mem h).noEquals rfl
  rw [decodePair, encodePair, Text.cutAt_append_cons hname]
  simp only [Option.getD_some, decodeText_encodeText]

theorem encodePair_ne_nil (pair : String × String) : encodePair pair ≠ [] :=
  List.append_ne_nil_of_right_ne_nil _ (List.cons_ne_nil _ _)

theorem end_not_mem_encodePair (pair : String × String) : '&' ∉ encodePair pair := by
  rw [encodePair, List.mem_append, List.mem_cons]
  rintro (h | h | h)
  · exact (isWritten_of_mem h).noEnd rfl
  · cases h
  · exact (isWritten_of_mem h).noEnd rfl

/-- **Pairs are read as they were**, whatever characters they are made of. -/
theorem decode_encode (pairs : List (String × String)) : decode (encode pairs) = pairs := by
  cases pairs with
  | nil => rfl
  | cons first rest =>
      have hcuts : Text.splitOn '&' (Text.joinWith '&' ((first :: rest).map encodePair))
          = (first :: rest).map encodePair := by
        refine Text.splitOn_joinWith (by simp) fun piece hpiece => ?_
        obtain ⟨pair, -, rfl⟩ := List.mem_map.mp hpiece
        exact end_not_mem_encodePair pair
      have hpieces : ∀ piece ∈ (first :: rest).map encodePair, (!piece.isEmpty) = true := by
        intro piece hpiece
        obtain ⟨pair, -, rfl⟩ := List.mem_map.mp hpiece
        simp [encodePair_ne_nil]
      rw [decode, encode, String.toList_ofList, hcuts, List.filter_eq_self.mpr hpieces, List.map_map]
      simp only [Function.comp_def, decodePair_encodePair, List.map_id']

/-- Only no pairs at all are written as an empty query. -/
theorem encode_eq_empty_iff {pairs : List (String × String)} : encode pairs = "" ↔ pairs = [] := by
  constructor
  · intro h
    rw [← decode_encode pairs, h]
    rfl
  · rintro rfl
    rfl

/-- Two queries that are joined have the pairs of both. -/
theorem decode_append (query more : String) : decode (query ++ "&" ++ more) = decode query ++ decode more := by
  have hlist : (query ++ "&" ++ more).toList = query.toList ++ '&' :: more.toList := by simp
  rw [decode, hlist, Text.splitOn_append_cons, List.filter_append, List.map_append]
  rfl

/-! ## Looking up -/

/-- **Later pairs go first** when a name is looked up. -/
theorem lookup_append (pairs more : List (String × String)) (name : String) :
    lookup (pairs ++ more) name = (lookup more name).or (lookup pairs name) := by
  rw [lookup, List.reverse_append, List.find?_append, Option.map_or]
  rfl

theorem lookup_eq_none_iff {pairs : List (String × String)} {name : String} :
    lookup pairs name = none ↔ ∀ pair ∈ pairs, pair.1 ≠ name := by
  simp [lookup]

end Form

/-- **Pairs that are added to the query of a URL** come behind those that it has. -/
theorem Url.decode_withPairs (u : Url) (pairs : List (String × String)) :
    Form.decode ((u.withPairs pairs).query.getD "") = Form.decode (u.query.getD "") ++ pairs := by
  have hquery {query : String} : (if query = "" then none else some query).getD "" = query := by
    by_cases h : query = ""
    · rw [if_pos h, h]
      rfl
    · rw [if_neg h]
      rfl
  rw [withPairs]
  simp only [hquery]
  split
  · next hempty =>
      rw [hempty, Form.decode_encode]
      rfl
  · next query hnone _ =>
      rw [Form.encode_eq_empty_iff.mp hnone, List.append_nil]
  · rw [Form.decode_append, Form.decode_encode]

end ResourceTree
