import ResourceTree.Proofs.PercentCodes

/-! # Texts that are decoded again

The decoder of bytes replaces what forms no character. The bytes of a text form its characters, so nothing is
replaced: `Text.decodeUtf8_toUTF8`. The decoder takes the bytes of a character one by one, and each of them lies in the
bounds that the byte before it has set (`Text.decodeFrom_encodeChar`). -/

namespace ResourceTree.Text

variable {chars : List Char} {bytes : List UInt8}

/-- The bytes of a text are those of its characters. -/
theorem bytes_eq (s : String) : s.toUTF8.toList = s.toList.flatMap String.utf8EncodeChar := by
  rw [← s.ofList_toList, String.toUTF8, String.toByteArray_ofList, List.utf8Encode, toList_toByteArray,
    String.ofList_toList]

/-! ## What bytes begin -/

/-- The first of two bytes. -/
theorem lead_of_two : ∀ n < 32, 2 ≤ n → lead (n + 192) = .part ⟨n, 1, 0x80, 0xBF⟩ := by decide

/-- The first of three bytes. The second one keeps shorter characters and surrogates out. -/
theorem lead_of_three :
    ∀ n < 16, lead (n + 224) = .part ⟨n, 2, if n = 0 then 0xA0 else 0x80, if n = 13 then 0x9F else 0xBF⟩ := by
  decide

/-- The first of four bytes. The second one keeps shorter characters and values beyond Unicode out. -/
theorem lead_of_four :
    ∀ n < 5, lead (n + 240) = .part ⟨n, 3, if n = 0 then 0x90 else 0x80, if n = 4 then 0x8F else 0xBF⟩ := by
  decide

/-! ## Steps of the decoder -/

/-- A byte that is a character. -/
theorem decodeFrom_char {n : Nat} (h : n < 128) :
    decodeFrom chars none (UInt8.ofNat n :: bytes) = decodeFrom (Char.ofNat n :: chars) none bytes := by
  have hbyte : (UInt8.ofNat n).toNat = n := by rw [UInt8.toNat_ofNat', Nat.mod_eq_of_lt (by omega)]
  have hlead : lead n = .char (Char.ofNat n) := if_pos h
  simp only [decodeFrom, afterLead, hbyte, hlead]

/-- A byte that begins a longer character. -/
theorem decodeFrom_lead {n : Nat} {s : Sequence} (hn : n < 256) (h : lead n = .part s) :
    decodeFrom chars none (UInt8.ofNat n :: bytes) = decodeFrom chars (some s) bytes := by
  have hbyte : (UInt8.ofNat n).toNat = n := by rw [UInt8.toNat_ofNat', Nat.mod_eq_of_lt hn]
  simp only [decodeFrom, afterLead, hbyte, h]

/-- A byte that continues a character: it adds six bits to the value. -/
theorem decodeFrom_next {n value missing low high : Nat} (hn : n < 64) (hlow : low ≤ n + 128) (hhigh : n + 128 ≤ high) :
    decodeFrom chars (some ⟨value, missing, low, high⟩) (UInt8.ofNat (n + 128) :: bytes)
      = if missing = 1 then decodeFrom (Char.ofNat (64 * value + n) :: chars) none bytes
        else decodeFrom chars (some ⟨64 * value + n, missing - 1, 0x80, 0xBF⟩) bytes := by
  have hbyte : (UInt8.ofNat (n + 128)).toNat = n + 128 := by rw [UInt8.toNat_ofNat', Nat.mod_eq_of_lt (by omega)]
  simp only [decodeFrom, hbyte, if_pos (And.intro hlow hhigh), Nat.add_sub_cancel_right]

/-- A byte in the middle of a character that has no bounds of its own. -/
theorem decodeFrom_middle {n value missing : Nat} (hn : n < 64) :
    decodeFrom chars (some ⟨value, missing + 2, 0x80, 0xBF⟩) (UInt8.ofNat (n + 128) :: bytes)
      = decodeFrom chars (some ⟨64 * value + n, missing + 1, 0x80, 0xBF⟩) bytes := by
  rw [decodeFrom_next hn (by omega) (by omega), if_neg (by omega)]
  rfl

/-- The last byte of a character. -/
theorem decodeFrom_last {n value : Nat} (hn : n < 64) :
    decodeFrom chars (some ⟨value, 1, 0x80, 0xBF⟩) (UInt8.ofNat (n + 128) :: bytes)
      = decodeFrom (Char.ofNat (64 * value + n) :: chars) none bytes := by
  rw [decodeFrom_next hn (by omega) (by omega), if_pos rfl]

/-! ## Characters -/

/-- **The bytes of a character are decoded to the character**, by the number of its bytes. -/
theorem decodeFrom_encodeChar (c : Char) :
    decodeFrom chars none (String.utf8EncodeChar c ++ bytes) = decodeFrom (c :: chars) none bytes := by
  have hchar {n : Nat} (h : n = c.toNat) : Char.ofNat n = c := by rw [h, Char.ofNat_toNat]
  have hvalid : c.toNat < 0xD800 ∨ 0xDFFF < c.toNat ∧ c.toNat < 0x110000 := c.valid
  have hbytes : String.utf8EncodeChar c
      = if c.toNat ≤ 127 then [UInt8.ofNat c.toNat]
        else if c.toNat ≤ 2047 then [UInt8.ofNat (c.toNat / 64 % 32 + 192), UInt8.ofNat (c.toNat % 64 + 128)]
        else if c.toNat ≤ 65535 then [UInt8.ofNat (c.toNat / 4096 % 16 + 224),
          UInt8.ofNat (c.toNat / 64 % 64 + 128), UInt8.ofNat (c.toNat % 64 + 128)]
        else [UInt8.ofNat (c.toNat / 262144 % 8 + 240), UInt8.ofNat (c.toNat / 4096 % 64 + 128),
          UInt8.ofNat (c.toNat / 64 % 64 + 128), UInt8.ofNat (c.toNat % 64 + 128)] := rfl
  rw [hbytes]
  clear hbytes
  split_ifs with hone htwo hthree
  · rw [List.singleton_append, decodeFrom_char (by omega), hchar rfl]
  · simp only [List.cons_append, List.nil_append]
    rw [decodeFrom_lead (by omega) (lead_of_two _ (by omega) (by omega)), decodeFrom_last (by omega), hchar (by omega)]
  · simp only [List.cons_append, List.nil_append]
    rw [decodeFrom_lead (by omega) (lead_of_three _ (by omega)),
      decodeFrom_next (by omega) (by split <;> omega) (by split <;> omega), if_neg (by omega),
      decodeFrom_last (by omega), hchar (by omega)]
  · simp only [List.cons_append, List.nil_append]
    rw [decodeFrom_lead (by omega) (lead_of_four _ (by omega)),
      decodeFrom_next (by omega) (by split <;> omega) (by split <;> omega), if_neg (by omega),
      decodeFrom_middle (by omega), decodeFrom_last (by omega), hchar (by omega)]

/-- So are those of several characters. -/
theorem decodeFrom_encodeChars (cs : List Char) :
    decodeFrom chars none (cs.flatMap String.utf8EncodeChar) = chars.reverse ++ cs := by
  induction cs generalizing chars with
  | nil => rw [List.flatMap_nil, decodeFrom, List.append_nil]
  | cons c cs ih => rw [List.flatMap_cons, decodeFrom_encodeChar, ih, List.reverse_cons, List.append_assoc,
      List.singleton_append]

/-- **A text is decoded from its bytes.** -/
theorem decodeUtf8_toUTF8 (s : String) : decodeUtf8 s.toUTF8.toList = s := by
  rw [decodeUtf8, bytes_eq, decodeFrom_encodeChars, List.reverse_nil, List.nil_append, String.ofList_toList]

end ResourceTree.Text
