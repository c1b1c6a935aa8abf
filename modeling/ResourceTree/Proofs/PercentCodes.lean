import ResourceTree.Url.Percent
import Mathlib.Data.List.Basic

/-! # Percent-encoded IDs

An ID is encoded as one segment of a path and decoded again: `Percent.decode?_encode`. So different IDs are different
segments, and the encoded text consists of unreserved characters and codes only (`Percent.mem_encode`). -/

namespace ResourceTree

/-! ## The bytes of a text -/

namespace Text

theorem toList_loop (bytes : ByteArray) (i : Nat) (read : List UInt8) :
    ByteArray.toList.loop bytes i read = read.reverse ++ bytes.data.toList.drop i := by
  induction i, read using ByteArray.toList.loop.induct bytes with
  | case1 i read h ih =>
      have hlength : i < bytes.data.toList.length := by simpa using h
      have hget : bytes.get! i = bytes.data.toList[i] := getElem!_pos bytes.data i h
      rw [ByteArray.toList.loop, if_pos h, ih, List.drop_eq_getElem_cons hlength, hget, List.reverse_cons,
        List.append_assoc, List.singleton_append]
  | case2 i read h =>
      have hnil : bytes.data.toList.drop i = [] := List.drop_of_length_le (by simpa using h)
      rw [ByteArray.toList.loop, if_neg h, hnil, List.append_nil]

/-- The bytes of an array as a list. -/
theorem toList_bytes (bytes : ByteArray) : bytes.toList = bytes.data.toList := by
  rw [ByteArray.toList, toList_loop]
  rfl

/-- A list of bytes is that of its array. -/
theorem toList_toByteArray (bytes : List UInt8) : bytes.toByteArray.toList = bytes := by
  rw [toList_bytes, List.data_toByteArray]

/-- An array is that of the list of its bytes. -/
theorem toByteArray_toList (bytes : ByteArray) : bytes.toList.toByteArray = bytes := by
  refine ByteArray.ext ?_
  rw [List.data_toByteArray, toList_bytes, Array.toArray_toList]

theorem toNat_ofNat {n : Nat} (h : n < 128) : (Char.ofNat n).toNat = n := by
  have hvalid : n.isValidChar := Or.inl (by omega)
  rw [Char.ofNat, dif_pos hvalid]
  rfl

/-- A text of ASCII characters has one byte for each. -/
theorem bytes_ascii {cs : List Char} (h : ∀ c ∈ cs, c.toNat < 128) :
    (String.ofList cs).toUTF8.toList = cs.map fun c => UInt8.ofNat c.toNat := by
  have hchar {c : Char} (hc : c ∈ cs) : String.utf8EncodeChar c = [UInt8.ofNat c.toNat] :=
    if_pos (Nat.le_of_lt_succ (h c hc))
  rw [String.toUTF8, String.toByteArray_ofList, List.utf8Encode, toList_toByteArray, List.map_eq_flatMap]
  exact List.flatMap_congr fun c hc => hchar hc

end Text

namespace Percent

/-! ## Codes -/

/-- The digits of a code are read as what they were written for. -/
theorem hexValue?_hexDigit : ∀ n < 16, hexValue? (UInt8.ofNat (hexDigit n).toNat) = some (UInt8.ofNat n) := by
  decide

theorem hexDigit_lt : ∀ n < 16, (hexDigit n).toNat < 128 := by decide

variable {keep : UInt8 → Bool} {b : UInt8} {bytes rest : List UInt8}

/-- A byte that begins no code stands for itself. -/
theorem decodeBytes_of_ne (h : b ≠ 0x25) : decodeBytes (b :: rest) = b :: decodeBytes rest := by
  match rest with
  | [] => rfl
  | [_] => rfl
  | _ :: _ :: _ => rw [decodeBytes, if_neg h]

/-- A code is decoded to its byte. -/
theorem decodeBytes_code (b : UInt8) (rest : List UInt8) :
    decodeBytes ((code b).map (fun c => UInt8.ofNat c.toNat) ++ rest) = b :: decodeBytes rest := by
  have hb : b.toNat < 256 := b.toNat_lt_size
  have hhigh := hexValue?_hexDigit (b.toNat / 16) (by omega)
  have hlow := hexValue?_hexDigit (b.toNat % 16) (by omega)
  have hbyte : 16 * UInt8.ofNat (b.toNat / 16) + UInt8.ofNat (b.toNat % 16) = b := by
    refine UInt8.toNat_inj.mp ?_
    simp only [UInt8.toNat_add, UInt8.toNat_mul, UInt8.toNat_ofNat', UInt8.toNat_ofNat]
    omega
  have hpercent : UInt8.ofNat '%'.toNat = 0x25 := rfl
  simp only [code, List.map_cons, List.map_nil, List.cons_append, List.nil_append, hpercent]
  rw [decodeBytes, if_pos rfl, hhigh, hlow]
  simp only [hbyte]

/-- The characters that stand for themselves are ASCII and begin no code. -/
structure Sound (keep : UInt8 → Bool) : Prop where
  ascii : ∀ b, keep b = true → b.toNat < 128
  noCode : keep 0x25 = false

theorem sound_isUnreserved : Sound isUnreserved where
  ascii b h := by
    simp only [isUnreserved, Bool.or_eq_true, Bool.and_eq_true, decide_eq_true_eq, beq_iff_eq,
      UInt8.le_iff_toNat_le, ← UInt8.toNat_inj, UInt8.toNat_ofNat] at h
    omega
  noCode := rfl

theorem encodeBytes_cons (b : UInt8) (bytes : List UInt8) :
    encodeBytes keep (b :: bytes)
      = (if keep b then [Char.ofNat b.toNat] else code b) ++ encodeBytes keep bytes := List.flatMap_cons ..

/-- **Decoding undoes encoding**, by induction on the bytes. -/
theorem decodeBytes_encodeBytes (hkeep : Sound keep) (bytes : List UInt8) :
    decodeBytes ((encodeBytes keep bytes).map fun c => UInt8.ofNat c.toNat) = bytes := by
  induction bytes with
  | nil => rfl
  | cons b bytes ih =>
      rw [encodeBytes_cons, List.map_append]
      by_cases hb : keep b = true
      · have hne : b ≠ 0x25 := by
          rintro rfl
          rw [hkeep.noCode] at hb
          cases hb
        have hbyte : UInt8.ofNat (Char.ofNat b.toNat).toNat = b := by
          rw [Text.toNat_ofNat (hkeep.ascii b hb), UInt8.ofNat_toNat]
        rw [if_pos hb, List.map_singleton, hbyte, List.singleton_append, decodeBytes_of_ne hne, ih]
      · rw [if_neg hb, decodeBytes_code, ih]

/-- What is encoded is ASCII. -/
theorem encodeBytes_ascii (hkeep : Sound keep) (bytes : List UInt8) :
    ∀ c ∈ encodeBytes keep bytes, c.toNat < 128 := by
  intro c hc
  obtain ⟨b, -, hc⟩ := List.mem_flatMap.mp hc
  split at hc
  · next hb =>
      rw [List.mem_singleton.mp hc, Text.toNat_ofNat (hkeep.ascii b hb)]
      exact hkeep.ascii b hb
  · have hb : b.toNat < 256 := b.toNat_lt_size
    simp only [code, List.mem_cons, List.not_mem_nil, or_false] at hc
    rcases hc with rfl | rfl | rfl
    · decide
    · exact hexDigit_lt _ (by omega)
    · exact hexDigit_lt _ (by omega)

/-- **An encoded ID is decoded to the ID.** -/
theorem decode?_encode (id : String) : decode? (encode id) = some id := by
  rw [decode?, encode, Text.bytes_ascii (encodeBytes_ascii sound_isUnreserved _),
    decodeBytes_encodeBytes sound_isUnreserved, Text.toByteArray_toList, String.fromUTF8?]
  exact dif_pos id.isValidUTF8

/-- An unreserved character of URLs. -/
def isUnreservedChar (c : Char) : Bool := c.isAlphanum || c == '-' || c == '.' || c == '_' || c == '~'

theorem isUnreservedChar_of_byte :
    ∀ n < 128, isUnreserved (UInt8.ofNat n) = true → isUnreservedChar (Char.ofNat n) = true := by decide

theorem isUnreservedChar_hexDigit : ∀ n < 16, isUnreservedChar (hexDigit n) = true := by decide

/-- An encoded ID consists of unreserved characters and the signs that begin codes. -/
theorem mem_encode {id : String} {c : Char} (h : c ∈ (encode id).toList) : c = '%' ∨ isUnreservedChar c = true := by
  rw [encode, String.toList_ofList] at h
  obtain ⟨b, -, hc⟩ := List.mem_flatMap.mp h
  split at hc
  · next hb =>
      rw [List.mem_singleton.mp hc]
      exact Or.inr (isUnreservedChar_of_byte _ (sound_isUnreserved.ascii b hb) (by rwa [UInt8.ofNat_toNat]))
  · have hb : b.toNat < 256 := b.toNat_lt_size
    simp only [code, List.mem_cons, List.not_mem_nil, or_false] at hc
    rcases hc with rfl | rfl | rfl
    · exact Or.inl rfl
    · exact Or.inr (isUnreservedChar_hexDigit _ (by omega))
    · exact Or.inr (isUnreservedChar_hexDigit _ (by omega))

/-- Different IDs are encoded differently. -/
theorem encode_injective : Function.Injective encode := fun id id' h => by
  have hdecode := congrArg decode? h
  rw [decode?_encode, decode?_encode] at hdecode
  exact Option.some.inj hdecode

/-- Only the empty ID is encoded as nothing. -/
theorem encode_ne_empty {id : String} (h : id ≠ "") : encode id ≠ "" :=
  fun hempty => h (encode_injective (hempty.trans (by decide +kernel : "" = encode "")))

end Percent

end ResourceTree
