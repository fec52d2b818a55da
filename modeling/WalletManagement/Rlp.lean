import Mathlib.Data.Nat.Digits.Lemmas

/-!
# Recursive length prefix encoding

An item is a byte string or a list of items. Its encoding starts with a header that gives the kind
and the length of what follows; a single byte below `0x80` is its own encoding. The decoder is
strict: it refuses a length written with a leading zero, a length of at most 55 written in the long
form, and a header in front of a single byte below `0x80`. Two laws say that nothing else matters:
an encoding is read back, whatever follows it, and only encodings are read.
-/

namespace Rlp

abbrev Bytes := List UInt8

/-! ## Big-endian numbers -/

/-- The bytes of a number, the most significant first and without leading zeros. -/
def bigEndian (n : Nat) : Bytes := (Nat.digits 256 n).reverse.map UInt8.ofNat

/-- The number that bytes write. -/
def value (bytes : Bytes) : Nat := bytes.foldl (fun n byte => n * 256 + byte.toNat) 0

theorem value_concat (bytes : Bytes) (byte : UInt8) :
    value (bytes ++ [byte]) = value bytes * 256 + byte.toNat := by
  simp [value]

/-- The number is the one of the digits in the other order. -/
theorem value_eq_ofDigits (bytes : Bytes) :
    value bytes = Nat.ofDigits 256 (bytes.reverse.map UInt8.toNat) := by
  induction bytes using List.reverseRecOn with
  | nil => rfl
  | append_singleton bytes byte ih =>
    rw [value_concat, ih, List.reverse_append, List.reverse_singleton, List.singleton_append,
      List.map_cons, Nat.ofDigits_cons]
    omega

/-- Digits are bytes. -/
theorem toNat_bigEndian (n : Nat) : (bigEndian n).map UInt8.toNat = (Nat.digits 256 n).reverse := by
  rw [bigEndian, List.map_map]
  refine (List.map_congr_left fun digit member => ?_).trans (List.map_id _)
  exact UInt8.toNat_ofNat_of_lt' (Nat.digits_lt_base (by decide) (List.mem_reverse.mp member))

/-- The bytes of a number write it. -/
@[simp] theorem value_bigEndian (n : Nat) : value (bigEndian n) = n := by
  rw [value_eq_ofDigits, List.map_reverse, toNat_bigEndian, List.reverse_reverse,
    Nat.ofDigits_digits]

/-- Bytes without a leading zero are the bytes of the number they write. -/
theorem bigEndian_value {bytes : Bytes} (canonical : bytes.head? ≠ some 0) :
    bigEndian (value bytes) = bytes := by
  have digits : Nat.digits 256 (value bytes) = bytes.reverse.map UInt8.toNat := by
    rw [value_eq_ofDigits]
    refine Nat.digits_ofDigits 256 (by decide) _ (fun digit member => ?_) fun nonempty => ?_
    · obtain ⟨byte, -, rfl⟩ := List.mem_map.mp member
      exact byte.toNat_lt
    · rw [List.getLast_map, List.getLast_reverse]
      intro zero
      apply canonical
      have first : bytes.head (by simpa using nonempty) = 0 := UInt8.toNat_inj.mp zero
      rw [← first, List.head?_eq_some_head]
  rw [bigEndian, digits, ← List.map_reverse, List.reverse_reverse, List.map_map]
  exact (List.map_congr_left fun _ _ => UInt8.ofNat_toNat).trans (List.map_id _)

/-- Leading zeros do not change the number. -/
theorem value_dropWhile (bytes : Bytes) : value (bytes.dropWhile (· = 0)) = value bytes := by
  induction bytes with
  | nil => rfl
  | cons byte bytes ih =>
    by_cases zero : byte = 0
    · rw [List.dropWhile_cons_of_pos (by simpa using zero), ih, zero]
      simp [value]
    · rw [List.dropWhile_cons_of_neg (by simpa using zero)]

/-- The bytes of the number that bytes write are these bytes without their leading zeros. -/
theorem bigEndian_value_eq_dropWhile (bytes : Bytes) :
    bigEndian (value bytes) = bytes.dropWhile (· = 0) := by
  rw [← value_dropWhile]
  refine bigEndian_value fun leading => ?_
  have kept := List.head?_dropWhile_not (· = 0) bytes
  rw [leading] at kept
  simp at kept

/-- The bytes of a number have no leading zero. -/
theorem head?_bigEndian (n : Nat) : (bigEndian n).head? ≠ some 0 := by
  intro leading
  have kept := List.head?_dropWhile_not (· = 0) (bigEndian n)
  rw [← bigEndian_value_eq_dropWhile, value_bigEndian, leading] at kept
  simp at kept

/-- The numbers with at most some bytes are those below that power of 256. -/
theorem length_bigEndian_le_iff {n k : Nat} : (bigEndian n).length ≤ k ↔ n < 256 ^ k := by
  rw [bigEndian, List.length_map, List.length_reverse]
  exact Nat.digits_length_le_iff (by decide) n

/-- A number below a power of 256 has at most that many bytes. -/
theorem length_bigEndian_le {n k : Nat} (small : n < 256 ^ k) : (bigEndian n).length ≤ k :=
  length_bigEndian_le_iff.mpr small

/-- A number with at most one byte is below 256, so a longer one has at least a byte. -/
theorem length_bigEndian_pos {n : Nat} (positive : 0 < n) : 0 < (bigEndian n).length := by
  rw [bigEndian, List.length_map, List.length_reverse, List.length_pos_iff]
  exact Nat.digits_ne_nil_iff_ne_zero.mpr (Nat.pos_iff_ne_zero.mp positive)

/-! ## Items -/

/-- A byte string, or a list of items. -/
inductive Item where
  | string (bytes : Bytes)
  | list (items : List Item)

/-- The two kinds of items. -/
inductive Kind where
  | string
  | list
  deriving DecidableEq

/-- The first header byte of a kind. -/
def Kind.base : Kind → Nat
  | .string => 0x80
  | .list => 0xc0

/-- The header of an item: its kind, and the length of its payload. -/
def lengthPrefix (kind : Kind) (n : Nat) : Bytes :=
  if n ≤ 55 then [UInt8.ofNat (kind.base + n)]
  else UInt8.ofNat (kind.base + 55 + (bigEndian n).length) :: bigEndian n

/-- The payload is a single byte that encodes itself. -/
def isBare : Bytes → Bool
  | [byte] => byte < 0x80
  | _ => false

/-- The encoding of a byte string. -/
def encodeString (bytes : Bytes) : Bytes :=
  if isBare bytes then bytes else lengthPrefix .string bytes.length ++ bytes

mutual

/-- The encoding of an item. -/
def encode : Item → Bytes
  | .string bytes => encodeString bytes
  | .list items =>
    let payload := encodeAll items
    lengthPrefix .list payload.length ++ payload

/-- The encodings of items, one after the other. -/
def encodeAll : List Item → Bytes
  | [] => []
  | item :: items => encode item ++ encodeAll items

end

/-- The encodings of byte strings, one after the other. -/
theorem encodeAll_strings (elems : List Bytes) :
    encodeAll (elems.map .string) = elems.flatMap encodeString := by
  induction elems with
  | nil => rfl
  | cons elem elems ih =>
    rw [List.map_cons, encodeAll, encode, ih, List.flatMap_cons]

/-! ## The strict decoder -/

/-- What the front of an encoding announces. -/
inductive Header where
  /-- A byte string of one byte, which is its own encoding. -/
  | bare (byte : UInt8)
  /-- A payload of some kind and length. -/
  | payload (kind : Kind) (length : Nat)

/-- Split off the first bytes. -/
def splitFront (n : Nat) (bytes : Bytes) : Option (Bytes × Bytes) :=
  if n ≤ bytes.length then some (bytes.take n, bytes.drop n) else none

/-- Read a length of the long form: it has no leading zero and exceeds 55. -/
def readLength (k : Nat) (bytes : Bytes) : Option (Nat × Bytes) :=
  match splitFront k bytes with
  | none => none
  | some (digits, rest) =>
    if digits.head? = some 0 ∨ value digits ≤ 55 then none else some (value digits, rest)

/-- Read a header. -/
def readHeader : Bytes → Option (Header × Bytes)
  | [] => none
  | byte :: rest =>
    if byte < 0x80 then some (.bare byte, rest)
    else
      let kind : Kind := if byte < 0xc0 then .string else .list
      let k := byte.toNat - kind.base
      if k ≤ 55 then some (.payload kind k, rest)
      else
        match readLength (k - 55) rest with
        | none => none
        | some (n, rest) => some (.payload kind n, rest)

mutual

/-- Read one item from the front, returning the bytes after it. Each call uses up fuel. -/
def decodeItem : Nat → Bytes → Option (Item × Bytes)
  | 0, _ => none
  | fuel + 1, bytes =>
    match readHeader bytes with
    | none => none
    | some (.bare byte, rest) => some (.string [byte], rest)
    | some (.payload kind n, rest) =>
      match splitFront n rest with
      | none => none
      | some (payload, rest) =>
        match kind with
        | .string => if isBare payload then none else some (.string payload, rest)
        | .list =>
          match decodeAll fuel payload with
          | none => none
          | some items => some (.list items, rest)

/-- Read items up to the end. -/
def decodeAll : Nat → Bytes → Option (List Item)
  | 0, _ => none
  | fuel + 1, bytes =>
    if bytes = [] then some []
    else
      match decodeItem fuel bytes with
      | none => none
      | some (item, rest) =>
        match decodeAll fuel rest with
        | none => none
        | some items => some (item :: items)

end

/-- Read one item from the front, returning the bytes after it. An item takes at least one byte, so
the fuel is never what stops the decoder. -/
def decode (bytes : Bytes) : Option (Item × Bytes) := decodeItem (2 * bytes.length) bytes

/-! ## Headers -/

theorem splitFront_append (front rest : Bytes) :
    splitFront front.length (front ++ rest) = some (front, rest) := by
  rw [splitFront, if_pos (by simp), List.take_left, List.drop_left]

theorem eq_of_splitFront {n : Nat} {bytes front rest : Bytes}
    (split : splitFront n bytes = some (front, rest)) :
    bytes = front ++ rest ∧ front.length = n := by
  unfold splitFront at split
  split at split
  · rename_i inside
    cases split
    exact ⟨(List.take_append_drop n bytes).symm, List.length_take_of_le inside⟩
  · cases split

/-- The bytes of a long length are read back. -/
theorem readLength_bigEndian {n : Nat} (long : 55 < n) (rest : Bytes) :
    readLength (bigEndian n).length (bigEndian n ++ rest) = some (n, rest) := by
  rw [readLength, splitFront_append]
  refine (if_neg ?_).trans ?_
  · rw [value_bigEndian]
    rintro (leading | short)
    · exact head?_bigEndian n leading
    · omega
  · rw [value_bigEndian]

/-- Only the bytes of a long length are read. -/
theorem eq_of_readLength {k n : Nat} {bytes rest : Bytes}
    (read : readLength k bytes = some (n, rest)) :
    bytes = bigEndian n ++ rest ∧ (bigEndian n).length = k ∧ 55 < n := by
  unfold readLength at read
  split at read
  · cases read
  · rename_i digits after split
    split at read
    · cases read
    · rename_i canonical
      cases read
      obtain ⟨whole, length⟩ := eq_of_splitFront split
      rw [not_or] at canonical
      rw [bigEndian_value canonical.1]
      exact ⟨whole, length, by omega⟩

/-- The first byte of a header announces its kind. -/
theorem readHeader_cons {kind : Kind} {k : Nat} (small : k < 64) (rest : Bytes) :
    readHeader (UInt8.ofNat (kind.base + k) :: rest) =
      if k ≤ 55 then some (.payload kind k, rest)
      else
        match readLength (k - 55) rest with
        | none => none
        | some (n, rest) => some (.payload kind n, rest) := by
  have byte : (UInt8.ofNat (kind.base + k)).toNat = kind.base + k :=
    UInt8.toNat_ofNat_of_lt' (by
      rw [UInt8.size]
      cases kind <;> simp only [Kind.base] <;> omega)
  have marked : ¬ UInt8.ofNat (kind.base + k) < 0x80 := by
    rw [UInt8.lt_iff_toNat_lt, byte]
    cases kind <;> simp only [Kind.base, UInt8.reduceToNat] <;> omega
  have kinds : (if UInt8.ofNat (kind.base + k) < 0xc0 then Kind.string else Kind.list) = kind := by
    simp only [UInt8.lt_iff_toNat_lt, byte]
    cases kind with
    | string => exact if_pos (by simp only [Kind.base, UInt8.reduceToNat]; omega)
    | list => exact if_neg (by simp only [Kind.base, UInt8.reduceToNat]; omega)
  simp only [readHeader, if_neg marked, kinds, byte, Nat.add_sub_cancel_left]

/-- A header is read back. -/
theorem readHeader_lengthPrefix (kind : Kind) {n : Nat} (fits : n < 256 ^ 8) (rest : Bytes) :
    readHeader (lengthPrefix kind n ++ rest) = some (.payload kind n, rest) := by
  unfold lengthPrefix
  split
  · rename_i short
    rw [List.singleton_append, readHeader_cons (by omega), if_pos short]
  · rename_i long
    have positive := length_bigEndian_pos (n := n) (by omega)
    have bounded := length_bigEndian_le fits
    rw [List.cons_append, Nat.add_assoc, readHeader_cons (by omega), if_neg (by omega),
      Nat.add_sub_cancel_left, readLength_bigEndian (by omega)]

/-- Only headers are read. -/
theorem eq_of_readHeader {bytes rest : Bytes} {kind : Kind} {n : Nat}
    (read : readHeader bytes = some (.payload kind n, rest)) :
    bytes = lengthPrefix kind n ++ rest := by
  cases bytes with
  | nil => cases read
  | cons byte tail =>
    by_cases bare : byte < 0x80
    · rw [readHeader, if_pos bare] at read
      cases read
    · obtain ⟨kind', k, small, rfl⟩ :
          ∃ (kind' : Kind) (k : Nat), k < 64 ∧ byte = UInt8.ofNat (kind'.base + k) := by
        rw [UInt8.lt_iff_toNat_lt] at bare
        have bound := byte.toNat_lt
        by_cases low : byte.toNat < 0xc0
        · refine ⟨.string, byte.toNat - 0x80, by omega, ?_⟩
          rw [Kind.base, Nat.add_sub_cancel' (by simpa using bare), UInt8.ofNat_toNat]
        · refine ⟨.list, byte.toNat - 0xc0, by omega, ?_⟩
          rw [Kind.base, Nat.add_sub_cancel' (by omega), UInt8.ofNat_toNat]
      rw [readHeader_cons small] at read
      split at read
      · rename_i short
        cases read
        rw [lengthPrefix, if_pos short]
        rfl
      · rename_i long
        split at read
        · cases read
        · rename_i m after found
          cases read
          obtain ⟨whole, length, exceeds⟩ := eq_of_readLength found
          rw [lengthPrefix, if_neg (by omega), whole, length, Nat.add_assoc,
            Nat.add_sub_cancel' (by omega), List.cons_append]

/-- A bare byte is read as it is. -/
theorem eq_of_readHeader_bare {bytes rest : Bytes} {byte : UInt8}
    (read : readHeader bytes = some (.bare byte, rest)) :
    bytes = byte :: rest ∧ byte < 0x80 := by
  cases bytes with
  | nil => cases read
  | cons first tail =>
    by_cases bare : first < 0x80
    · rw [readHeader, if_pos bare] at read
      cases read
      exact ⟨rfl, bare⟩
    · simp only [readHeader, if_neg bare] at read
      generalize (if first < 0xc0 then Kind.string else Kind.list) = kind at read
      split at read
      · cases read
      · split at read <;> cases read

/-! ## The two laws -/

theorem lengthPrefix_ne_nil (kind : Kind) (n : Nat) : lengthPrefix kind n ≠ [] := by
  unfold lengthPrefix
  split <;> simp

theorem encode_ne_nil (item : Item) : encode item ≠ [] := by
  cases item with
  | string bytes =>
    rw [encode, encodeString]
    split
    · rintro rfl
      contradiction
    · simp [lengthPrefix_ne_nil]
  | list items => simp [encode, lengthPrefix_ne_nil]

theorem length_payload_lt (kind : Kind) (payload : Bytes) :
    payload.length < (lengthPrefix kind payload.length ++ payload).length := by
  have := List.length_pos_iff.mpr (lengthPrefix_ne_nil kind payload.length)
  rw [List.length_append]
  omega

/-- A byte string is read back. -/
theorem decodeItem_encodeString {bytes : Bytes} (fits : (encodeString bytes).length < 256 ^ 8)
    (fuel : Nat) (rest : Bytes) :
    decodeItem (fuel + 1) (encodeString bytes ++ rest) = some (.string bytes, rest) := by
  unfold encodeString at fits ⊢
  split
  · rename_i bare
    match bytes, bare with
    | [byte], bare =>
      have low : byte < 0x80 := of_decide_eq_true bare
      simp [decodeItem, readHeader, low]
  · rename_i marked
    rw [if_neg marked] at fits
    have bounded := (length_payload_lt .string bytes).trans fits
    simp [decodeItem, readHeader_lengthPrefix .string bounded, splitFront_append, marked]

/-- A list is read back when its payload is. -/
theorem decodeItem_encode_list {items : List Item} (fits : (encode (.list items)).length < 256 ^ 8)
    {fuel : Nat} (inner : decodeAll fuel (encodeAll items) = some items) (rest : Bytes) :
    decodeItem (fuel + 1) (encode (.list items) ++ rest) = some (.list items, rest) := by
  rw [encode] at fits ⊢
  have bounded := (length_payload_lt .list (encodeAll items)).trans fits
  simp [decodeItem, readHeader_lengthPrefix .list bounded, splitFront_append, inner]

/-- Encodings are read back with enough fuel. -/
theorem decode_encode_of_fuel (fuel : Nat) :
    (∀ item rest, 2 * (encode item).length ≤ fuel → (encode item).length < 256 ^ 8 →
      decodeItem fuel (encode item ++ rest) = some (item, rest)) ∧
    (∀ items, 2 * (encodeAll items).length < fuel → (encodeAll items).length < 256 ^ 8 →
      decodeAll fuel (encodeAll items) = some items) := by
  induction fuel with
  | zero =>
    refine ⟨fun item rest enough _ => ?_, fun items enough _ => absurd enough (Nat.not_lt_zero _)⟩
    have := List.length_pos_iff.mpr (encode_ne_nil item)
    omega
  | succ fuel ih =>
    constructor
    · intro item rest enough fits
      cases item with
      | string bytes =>
        rw [encode] at fits ⊢
        exact decodeItem_encodeString fits fuel rest
      | list items =>
        -- the payload is shorter than the item by the header
        have shorter : (encodeAll items).length < (encode (.list items)).length := by
          rw [encode]
          exact length_payload_lt .list (encodeAll items)
        exact decodeItem_encode_list fits (ih.2 items (by omega) (by omega)) rest
    · intro items enough fits
      cases items with
      | nil => rfl
      | cons item items =>
        have nonempty : encode item ++ encodeAll items ≠ [] := by simp [encode_ne_nil]
        have consumed := List.length_pos_iff.mpr (encode_ne_nil item)
        rw [encodeAll, List.length_append] at enough fits
        rw [encodeAll, decodeAll, if_neg nonempty, ih.1 item _ (by omega) (by omega)]
        dsimp only
        rw [ih.2 items (by omega) (by omega)]

/-- An encoding is read back, whatever follows it. -/
theorem decode_encode {item : Item} (fits : (encode item).length < 256 ^ 8) (rest : Bytes) :
    decode (encode item ++ rest) = some (item, rest) := by
  refine (decode_encode_of_fuel _).1 item rest ?_ fits
  rw [List.length_append]
  omega

/-- Only encodings are read, with any fuel. -/
theorem eq_encode_of_fuel (fuel : Nat) :
    (∀ bytes item rest, decodeItem fuel bytes = some (item, rest) → bytes = encode item ++ rest) ∧
    (∀ bytes items, decodeAll fuel bytes = some items → bytes = encodeAll items) := by
  induction fuel with
  | zero => exact ⟨fun _ _ _ read => (by cases read), fun _ _ read => (by cases read)⟩
  | succ fuel ih =>
    constructor
    · intro bytes item rest read
      rw [decodeItem] at read
      split at read
      · cases read
      · rename_i byte after header
        cases read
        obtain ⟨rfl, low⟩ := eq_of_readHeader_bare header
        simp [encode, encodeString, isBare, low]
      · rename_i kind n after header
        split at read
        · cases read
        · rename_i payload behind split
          obtain ⟨rfl, rfl⟩ := eq_of_splitFront split
          rw [eq_of_readHeader header, ← List.append_assoc]
          cases kind with
          | string =>
            dsimp only at read
            split at read
            · cases read
            · rename_i marked
              cases read
              rw [encode, encodeString, if_neg marked]
          | list =>
            dsimp only at read
            split at read
            · cases read
            · rename_i items found
              cases read
              rw [encode, ih.2 _ _ found]
    · intro bytes items read
      rw [decodeAll] at read
      split at read
      · rename_i empty
        cases read
        exact empty
      · split at read
        · cases read
        · rename_i item rest found
          split at read
          · cases read
          · rename_i others remaining
            cases read
            rw [encodeAll, ih.1 _ _ _ found, ih.2 _ _ remaining]

/-- Only encodings are read. -/
theorem eq_encode_of_decode {bytes rest : Bytes} {item : Item}
    (read : decode bytes = some (item, rest)) : bytes = encode item ++ rest :=
  (eq_encode_of_fuel _).1 bytes item rest read

/-- An encoding that starts another one is the same encoding of the same item. -/
theorem eq_of_encode_starts {item item' : Item} (fits : (encode item).length < 256 ^ 8)
    (fits' : (encode item').length < 256 ^ 8) (starts : encode item <+: encode item') :
    item = item' := by
  obtain ⟨rest, whole⟩ := starts
  have read := decode_encode fits rest
  have read' := decode_encode fits' []
  rw [List.append_nil, ← whole, read] at read'
  cases read'
  rfl

end Rlp
