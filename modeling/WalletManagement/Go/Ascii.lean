import WalletManagement.Go.Stdlib

/-!
# ASCII text

Go reads a string as bytes. The bytes of a text are the codes of its characters exactly if the text
is ASCII, and bytes below 128 come from ASCII text only.
-/

namespace Go

/-- The bytes of a text, character by character. -/
theorem utf8_eq_flatMap (s : String) :
    s.toUTF8.data.toList = s.toList.flatMap String.utf8EncodeChar := by
  rw [String.toUTF8, ← String.utf8Encode_toList, List.utf8Encode, List.data_toByteArray]

/-- The byte of an ASCII character is its code. -/
theorem utf8EncodeChar_ascii {c : Char} (ascii : c.toNat < 128) :
    String.utf8EncodeChar c = [c.toUInt8] := by
  have code : c.val.toNat ≤ 127 := Nat.le_of_lt_succ ascii
  simp only [String.utf8EncodeChar, if_pos code]
  rfl

/-- A character that is not ASCII has a byte from 128 on. -/
theorem exists_high_byte {c : Char} (high : 128 ≤ c.toNat) :
    ∃ b ∈ String.utf8EncodeChar c, 128 ≤ b.toNat := by
  have code : ¬ c.val.toNat ≤ 127 := not_le.mpr high
  -- every longer encoding ends in a continuation byte
  refine ⟨UInt8.ofNat (c.val.toNat % 64 + 128), ?_, ?_⟩
  · simp only [String.utf8EncodeChar, if_neg code]
    split
    · simp
    · split <;> simp
  · rw [UInt8.toNat_ofNat']
    omega

/-- ASCII characters with one byte are one character. -/
theorem toUInt8_inj_of_ascii {c d : Char} (ascii : c.toNat < 128) (ascii' : d.toNat < 128)
    (same : c.toUInt8 = d.toUInt8) : c = d := by
  have code (c : Char) : c.toUInt8.toNat = c.toNat % 256 := rfl
  have codes := congrArg UInt8.toNat same
  rw [code, code] at codes
  apply Char.toNat_inj.mp
  omega

/-- The bytes of ASCII text are the codes of its characters. -/
theorem utf8_of_ascii {s : String} (ascii : ∀ c ∈ s.toList, c.toNat < 128) :
    s.toUTF8.data.toList = s.toList.map Char.toUInt8 := by
  rw [utf8_eq_flatMap, List.map_eq_flatMap]
  apply List.flatMap_congr
  intro c member
  exact utf8EncodeChar_ascii (ascii c member)

/-- Text with bytes below 128 is ASCII. -/
theorem ascii_of_utf8 {s : String} (low : ∀ b ∈ s.toUTF8.data.toList, b.toNat < 128) :
    ∀ c ∈ s.toList, c.toNat < 128 := by
  intro c member
  by_contra high
  obtain ⟨b, encoded, above⟩ := exists_high_byte (not_lt.mp high)
  have below := low b (by
    rw [utf8_eq_flatMap]
    exact List.mem_flatMap.mpr ⟨c, member, encoded⟩)
  omega

/-- Text without spaces is not trimmed. -/
theorem trimSpace_eq_self {s : String} (solid : ∀ c ∈ s.toList, isSpace c = false) :
    trimSpace s = s := by
  have kept (l : List Char) (solid : ∀ c ∈ l, isSpace c = false) : l.dropWhile isSpace = l := by
    cases l with
    | nil => rfl
    | cons c rest => rw [List.dropWhile_cons, if_neg (by simp [solid c List.mem_cons_self])]
  rw [trimSpace, kept s.toList solid, kept s.toList.reverse, List.reverse_reverse,
    String.ofList_toList]
  intro c member
  exact solid c (List.mem_reverse.mp member)

end Go
