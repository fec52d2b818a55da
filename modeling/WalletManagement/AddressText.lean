import WalletManagement.Go.Ascii
import WalletManagement.Derivation

/-!
# The text of EVM addresses

The deriver writes an address with `eip55Checksum`, which chooses the case of each letter by a hash;
the builder reads it with `parseEVMAddress`, which takes either case. Neither looks at the other's
code: what they share is that case is all the checksum changes, and that it is all the parser does
not see.
-/

namespace WalletManagement

open Go

/-! ## Digits -/

/-- The digits of hexadecimal text. -/
def hexDigits : List Char :=
  ['0', '1', '2', '3', '4', '5', '6', '7', '8', '9', 'a', 'b', 'c', 'd', 'e', 'f',
    'A', 'B', 'C', 'D', 'E', 'F']

/-- What holds of each digit is decided along the list, not over all characters. -/
theorem forall_hexDigit {P : Char → Prop} [DecidablePred P]
    (all : hexDigits.all (fun c => decide (P c)) = true) : ∀ c ∈ hexDigits, P c := by
  intro c member
  exact of_decide_eq_true (List.all_eq_true.mp all c member)

theorem hexDigit_ascii : ∀ c ∈ hexDigits, c.toNat < 128 := forall_hexDigit (by decide)

theorem hexDigit_solid : ∀ c ∈ hexDigits, isSpace c = false := forall_hexDigit (by decide)

theorem hexDigit_ne_x : ∀ c ∈ hexDigits, c ≠ 'x' := forall_hexDigit (by decide)

theorem hexDigit_nibble : ∀ c ∈ hexDigits, (hexNibble c.toUInt8).isSome :=
  forall_hexDigit (by decide)

/-- Two digits have the same value exactly if they agree up to case. -/
theorem hexNibble_eq_iff : ∀ c ∈ hexDigits, ∀ d ∈ hexDigits,
    hexNibble c.toUInt8 = hexNibble d.toUInt8 ↔ c.toLower = d.toLower := by
  have all : ∀ c ∈ hexDigits, hexDigits.all (fun d =>
      decide (hexNibble c.toUInt8 = hexNibble d.toUInt8 ↔ c.toLower = d.toLower)) = true :=
    forall_hexDigit (by decide)
  intro c member
  exact forall_hexDigit (all c member)

/-- An ASCII character with a value is a digit. -/
theorem hexDigit_of_nibble {c : Char} (ascii : c.toNat < 128)
    (valued : (hexNibble c.toUInt8).isSome) : c ∈ hexDigits := by
  have all : ∀ n < 128, (hexNibble (Char.ofNat n).toUInt8).isSome → Char.ofNat n ∈ hexDigits := by
    decide
  have here := all c.toNat ascii
  rw [Char.ofNat_toNat] at here
  exact here valued

/-- A byte with a value is ASCII, and its value is below 16. -/
theorem hexNibble_bounds {b n : UInt8} (valued : hexNibble b = some n) :
    b.toNat < 128 ∧ n.toNat < 16 := by
  have all : ∀ b < 256, (hexNibble (UInt8.ofNat b)).all
      (fun n => decide (b < 128 ∧ n.toNat < 16)) = true := by decide +kernel
  have here := all b.toNat b.toNat_lt
  rw [UInt8.ofNat_toNat, valued] at here
  exact of_decide_eq_true here

/-- The byte of two digits. -/
theorem toNat_pack {hi lo : UInt8} (high : hi.toNat < 16) (low : lo.toNat < 16) :
    (hi <<< 4 ||| lo).toNat = hi.toNat * 16 + lo.toNat := by
  have all : ∀ hi < 16, ∀ lo < 16,
      (UInt8.ofNat hi <<< 4 ||| UInt8.ofNat lo).toNat = hi * 16 + lo := by decide
  have here := all hi.toNat high lo.toNat low
  rwa [UInt8.ofNat_toNat, UInt8.ofNat_toNat] at here

/-! ## Pairs of digits -/

/-- What the reading of two digits in front of others gives. -/
theorem hexBytes_cons_cons {hi lo : UInt8} {rest bytes : Bytes} :
    hexBytes (hi :: lo :: rest) = some bytes ↔ ∃ h l tail, hexNibble hi = some h ∧
      hexNibble lo = some l ∧ hexBytes rest = some tail ∧ bytes = (h <<< 4 ||| l) :: tail := by
  rw [hexBytes]
  cases hexNibble hi with
  | none => simp
  | some h =>
    cases hexNibble lo with
    | none => simp
    | some l => simp [eq_comm]

/-- An even number of bytes is read exactly if each of them is a digit. -/
theorem hexBytes_isSome_iff : ∀ bs : Bytes, bs.length % 2 = 0 →
    ((hexBytes bs).isSome ↔ ∀ b ∈ bs, (hexNibble b).isSome)
  | [], _ => by simp [hexBytes]
  | [_], odd => by simp at odd
  | hi :: lo :: rest, even => by
    have fewer : rest.length % 2 = 0 := by
      simp only [List.length_cons] at even
      omega
    rw [List.forall_mem_cons, List.forall_mem_cons, ← hexBytes_isSome_iff rest fewer]
    simp only [Option.isSome_iff_exists, hexBytes_cons_cons]
    constructor
    · rintro ⟨bytes, h, l, tail, high, low, read, -⟩
      exact ⟨⟨h, high⟩, ⟨l, low⟩, tail, read⟩
    · rintro ⟨⟨h, high⟩, ⟨l, low⟩, tail, read⟩
      exact ⟨_, h, l, tail, high, low, read, rfl⟩

/-- Two texts of one even length are read as the same bytes exactly if their digits have the same
values. -/
theorem hexBytes_eq_iff : ∀ {bs bs' bytes bytes' : Bytes}, bs.length = bs'.length →
    bs.length % 2 = 0 → hexBytes bs = some bytes → hexBytes bs' = some bytes' →
    (bytes = bytes' ↔ bs.map hexNibble = bs'.map hexNibble)
  | [], [], bytes, bytes', _, _, read, read' => by
    cases read
    cases read'
    simp
  | [_], _, _, _, _, odd, _, _ => by simp at odd
  | hi :: lo :: rest, hi' :: lo' :: rest', bytes, bytes', same, even, read, read' => by
    obtain ⟨h, l, tail, high, low, later, rfl⟩ := hexBytes_cons_cons.mp read
    obtain ⟨h', l', tail', high', low', later', rfl⟩ := hexBytes_cons_cons.mp read'
    simp only [List.length_cons] at same even
    have ih := hexBytes_eq_iff (by omega) (by omega) later later'
    have pack : (h <<< 4 ||| l) = (h' <<< 4 ||| l') ↔ h = h' ∧ l = l' := by
      have hb := (hexNibble_bounds high).2
      have lb := (hexNibble_bounds low).2
      have hb' := (hexNibble_bounds high').2
      have lb' := (hexNibble_bounds low').2
      rw [← UInt8.toNat_inj, ← UInt8.toNat_inj, ← UInt8.toNat_inj, toNat_pack hb lb,
        toNat_pack hb' lb']
      omega
    simp only [List.map_cons, List.cons.injEq, high, low, high', low', Option.some.injEq, pack, ih,
      and_assoc]

/-- The bytes of digits that agree up to case. -/
theorem map_hexNibble_eq_iff : ∀ {ds ds' : List Char}, ds.length = ds'.length →
    (∀ c ∈ ds, c ∈ hexDigits) → (∀ c ∈ ds', c ∈ hexDigits) →
    ((ds.map Char.toUInt8).map hexNibble = (ds'.map Char.toUInt8).map hexNibble ↔
      ds.map Char.toLower = ds'.map Char.toLower)
  | [], [], _, _, _ => by simp
  | c :: ds, c' :: ds', same, hex, hex' => by
    have fewer : ds.length = ds'.length := by simpa using same
    have ih := map_hexNibble_eq_iff fewer
      (fun d member => hex d (List.mem_cons_of_mem _ member))
      (fun d member => hex' d (List.mem_cons_of_mem _ member))
    simp only [List.map_cons, List.cons.injEq, ih,
      hexNibble_eq_iff c (hex c List.mem_cons_self) c' (hex' c' List.mem_cons_self)]

/-- What `hex.EncodeToString` writes is read back. -/
theorem hexBytes_hexEncode (bytes : Bytes) :
    hexBytes ((hexEncode bytes).map Char.toUInt8) = some bytes := by
  induction bytes with
  | nil => rfl
  | cons b rest ih =>
    have digit : ∀ n < 16, hexNibble (Nat.digitChar n).toUInt8 = some (UInt8.ofNat n) := by
      decide
    have high : b.toNat / 16 < 16 := by
      have := b.toNat_lt
      omega
    have low : b.toNat % 16 < 16 := Nat.mod_lt _ (by decide)
    have front : (hexEncode (b :: rest)).map Char.toUInt8 =
        (Nat.digitChar (b.toNat / 16)).toUInt8 :: (Nat.digitChar (b.toNat % 16)).toUInt8 ::
          (hexEncode rest).map Char.toUInt8 := rfl
    rw [front, hexBytes_cons_cons]
    refine ⟨_, _, _, digit _ high, digit _ low, ih, ?_⟩
    congr 1
    apply UInt8.toNat_inj.mp
    rw [toNat_pack]
    · simp only [UInt8.toNat_ofNat']
      omega
    · simp only [UInt8.toNat_ofNat']
      omega
    · simp only [UInt8.toNat_ofNat']
      omega

/-! ## The checksum -/

/-- Forty hexadecimal digits. -/
structure AddressDigits (ds : List Char) : Prop where
  length : ds.length = 40
  hex : ∀ c ∈ ds, c ∈ hexDigits

/-- The digits of twenty bytes. -/
theorem addressDigits_hexEncode (a : Vector UInt8 20) : AddressDigits (hexEncode a.toList) := by
  have digit : ∀ n < 16, Nat.digitChar n ∈ hexDigits := by decide
  constructor
  · have twice : (hexEncode a.toList).length = a.toList.length * 2 := by
      simp [hexEncode, List.length_flatMap]
    rw [twice, Vector.length_toList]
  · intro c member
    obtain ⟨b, -, inside⟩ := List.mem_flatMap.mp member
    have bound := b.toNat_lt
    simp only [List.mem_cons, List.not_mem_nil, or_false] at inside
    rcases inside with rfl | rfl
    · exact digit _ (by omega)
    · exact digit _ (by omega)

/-- A text is forty digits, with or without `0x` in front. -/
def Spells (s ds : List Char) : Prop := AddressDigits ds ∧ (s = ds ∨ s = '0' :: 'x' :: ds)

/-- The digits are what `strings.TrimPrefix` leaves of the text. -/
theorem trimHexPrefix_of_spells {s ds : List Char} (spells : Spells s ds) :
    trimHexPrefix s = ds := by
  obtain ⟨digits, rfl | rfl⟩ := spells
  · unfold trimHexPrefix
    split
    · rename_i rest
      exact absurd rfl (hexDigit_ne_x 'x' (digits.hex 'x' (by simp)))
    · rfl
  · rfl

/-- A lower-case digit, capitalised or not, is the same digit up to case. -/
theorem capitalised_digit {c : Char} (hex : c ∈ hexDigits) (capital : Prop) [Decidable capital] :
    (if '0' ≤ c.toLower ∧ c.toLower ≤ '9' then c.toLower
      else if capital then Char.ofNat (c.toLower.toNat - 32) else c.toLower) ∈ hexDigits ∧
    (if '0' ≤ c.toLower ∧ c.toLower ≤ '9' then c.toLower
      else if capital then Char.ofNat (c.toLower.toNat - 32) else c.toLower).toLower =
        c.toLower := by
  have lower : ∀ c ∈ hexDigits, c.toLower ∈ hexDigits ∧ c.toLower.toLower = c.toLower :=
    forall_hexDigit (by decide)
  have upper : ∀ c ∈ hexDigits, ¬('0' ≤ c.toLower ∧ c.toLower ≤ '9') →
      Char.ofNat (c.toLower.toNat - 32) ∈ hexDigits ∧
        (Char.ofNat (c.toLower.toNat - 32)).toLower = c.toLower :=
    forall_hexDigit (by decide)
  split
  · exact lower c hex
  · rename_i letter
    split
    · exact upper c hex letter
    · exact lower c hex

section Checksum

variable (libs : DerivationLibraries)

/-- The checksum depends on the lower-case digits only. -/
theorem eip55Checksum_congr {s s' : List Char}
    (same : (trimHexPrefix s).map Char.toLower = (trimHexPrefix s').map Char.toLower) :
    eip55Checksum libs s = eip55Checksum libs s' := by
  simp only [eip55Checksum, same]

/-- The checksum changes the case of the digits, and nothing else. -/
theorem eip55Checksum_digits {s ds : List Char} (spells : Spells s ds) :
    ∃ out, (eip55Checksum libs s).toList = '0' :: 'x' :: out ∧ AddressDigits out ∧
      out.map Char.toLower = ds.map Char.toLower := by
  have digits := spells.1
  have front : "0x".toList = ['0', 'x'] := rfl
  simp only [eip55Checksum, trimHexPrefix_of_spells spells, String.toList_append,
    String.toList_ofList, front, List.cons_append, List.nil_append]
  refine ⟨_, rfl, ⟨?_, ?_⟩, ?_⟩
  · simp [digits.length]
  · intro c member
    obtain ⟨i, inside, rfl⟩ := List.mem_mapIdx.mp member
    simp only [List.length_map] at inside
    rw [List.getElem_map]
    exact (capitalised_digit (digits.hex _ (List.getElem_mem inside)) _).1
  · apply List.ext_getElem (by simp)
    intro i inside inside'
    simp only [List.length_map] at inside'
    rw [List.getElem_map, List.getElem_mapIdx, List.getElem_map]
    exact (capitalised_digit (digits.hex _ (List.getElem_mem inside')) _).2

/-- A checksummed address has the same checksum. -/
theorem eip55Checksum_idempotent {s ds : List Char} (spells : Spells s ds) :
    eip55Checksum libs (eip55Checksum libs s).toList = eip55Checksum libs s := by
  obtain ⟨out, text, digits, same⟩ := eip55Checksum_digits libs spells
  apply eip55Checksum_congr
  rw [trimHexPrefix_of_spells ⟨digits, .inr text⟩, trimHexPrefix_of_spells spells, same]

end Checksum

/-! ## The parser -/

section Parser

variable (libs : Libraries)

/-- Text that is `0x` and forty digits after trimming is read as the bytes of its digits. -/
theorem parseEVMAddress_of_digits {s : String} {ds : List Char} (digits : AddressDigits ds)
    (text : (trimSpace s).toList = '0' :: 'x' :: ds) :
    ∃ bytes, hexBytes (ds.map Char.toUInt8) = some bytes ∧
      parseEVMAddress libs s = .ok bytes := by
  have ascii : ∀ c ∈ (trimSpace s).toList, c.toNat < 128 := by
    rw [text, List.forall_mem_cons, List.forall_mem_cons]
    exact ⟨by decide, by decide, fun c member => hexDigit_ascii c (digits.hex c member)⟩
  have bytes : (trimSpace s).toUTF8.data.toList = 0x30 :: 0x78 :: ds.map Char.toUInt8 := by
    rw [utf8_of_ascii ascii, text]
    rfl
  have length : (ds.map Char.toUInt8).length = 40 := by rw [List.length_map, digits.length]
  have read : (hexBytes (ds.map Char.toUInt8)).isSome := by
    rw [hexBytes_isSome_iff _ (by rw [length])]
    intro b member
    obtain ⟨c, inside, rfl⟩ := List.mem_map.mp member
    exact hexDigit_nibble c (digits.hex c inside)
  obtain ⟨out, found⟩ := Option.isSome_iff_exists.mp read
  refine ⟨out, found, ?_⟩
  simp only [parseEVMAddress, bytes, length, found]
  rfl

/-- Texts of forty digits are read as the same bytes exactly if they agree up to case. -/
theorem hexBytes_digits_iff {ds ds' : List Char} {bytes bytes' : Bytes} (digits : AddressDigits ds)
    (digits' : AddressDigits ds') (read : hexBytes (ds.map Char.toUInt8) = some bytes)
    (read' : hexBytes (ds'.map Char.toUInt8) = some bytes') :
    bytes = bytes' ↔ ds.map Char.toLower = ds'.map Char.toLower := by
  have lengths : ds.length = ds'.length := digits.length.trans digits'.length.symm
  have even : (ds.map Char.toUInt8).length % 2 = 0 := by rw [List.length_map, digits.length]
  rw [hexBytes_eq_iff (by simpa using lengths) even read read',
    map_hexNibble_eq_iff lengths digits.hex digits'.hex]

/-- A checksummed address is read as the bytes it was written from. -/
theorem parseEVMAddress_eip55Checksum (derivation : DerivationLibraries) (a : Vector UInt8 20) :
    parseEVMAddress libs (eip55Checksum derivation (hexEncode a.toList)) = .ok a.toList := by
  have written := addressDigits_hexEncode a
  obtain ⟨out, text, digits, same⟩ := eip55Checksum_digits derivation ⟨written, .inl rfl⟩
  have solid : ∀ c ∈ (eip55Checksum derivation (hexEncode a.toList)).toList,
      isSpace c = false := by
    rw [text, List.forall_mem_cons, List.forall_mem_cons]
    exact ⟨by decide, by decide, fun c member => hexDigit_solid c (digits.hex c member)⟩
  rw [← trimSpace_eq_self solid] at text
  obtain ⟨bytes, read, parsed⟩ := parseEVMAddress_of_digits libs digits text
  rw [parsed, (hexBytes_digits_iff digits written read (hexBytes_hexEncode a.toList)).mpr same]

/-- Text that is read is `0x` and forty digits after trimming. -/
theorem digits_of_parseEVMAddress {s : String} {bytes : Bytes}
    (parsed : parseEVMAddress libs s = .ok bytes) :
    ∃ ds, AddressDigits ds ∧ (trimSpace s).toList = '0' :: 'x' :: ds := by
  simp only [parseEVMAddress] at parsed
  split at parsed
  · rename_i digits read
    split at parsed
    · cases parsed
    · rename_i length
      have forty : digits.length = 40 := not_not.mp length
      cases found : hexBytes digits with
      | none =>
        rw [found] at parsed
        cases parsed
      | some out =>
        have valued := (hexBytes_isSome_iff digits (by rw [forty])).mp (by rw [found]; rfl)
        have low : ∀ b ∈ (trimSpace s).toUTF8.data.toList, b.toNat < 128 := by
          rw [read, List.forall_mem_cons, List.forall_mem_cons]
          refine ⟨by decide, by decide, fun b member => ?_⟩
          obtain ⟨n, value⟩ := Option.isSome_iff_exists.mp (valued b member)
          exact (hexNibble_bounds value).1
        have ascii := ascii_of_utf8 low
        rw [utf8_of_ascii ascii] at read
        obtain ⟨zero, tail, text, first, read⟩ := List.map_eq_cons_iff.mp read
        obtain ⟨x, ds, rfl, second, rfl⟩ := List.map_eq_cons_iff.mp read
        rw [text, List.forall_mem_cons, List.forall_mem_cons] at ascii
        obtain ⟨zeroAscii, xAscii, ascii⟩ := ascii
        have isZero : zero = '0' := toUInt8_inj_of_ascii zeroAscii (by decide) first
        have isX : x = 'x' := toUInt8_inj_of_ascii xAscii (by decide) second
        refine ⟨ds, ⟨by simpa using forty, fun c member => ?_⟩, by rw [text, isZero, isX]⟩
        exact hexDigit_of_nibble (ascii c member) (valued _ (List.mem_map_of_mem member))
  · cases parsed

end Parser

/-- For every hash function in the place of Keccak-256: a checksummed address is read as the bytes
it was written from; the checksum of forty digits depends on them up to case only, with or without
`0x` in front, and a checksummed address has the same checksum. The parser accepts the texts that
are `0x` and forty digits after trimming, and reads two of them as the same bytes exactly if their
digits agree up to case. -/
theorem evm_addresses_parse_back (libs : Libraries) (derivation : DerivationLibraries)
    (hash : Bytes → Vector UInt8 32) :
    let checksum := eip55Checksum { derivation with keccak256 := fun bytes => (hash bytes).toList }
    (∀ a : Vector UInt8 20, parseEVMAddress libs (checksum (hexEncode a.toList)) = .ok a.toList) ∧
    (∀ s s' ds ds', Spells s ds → Spells s' ds' → ds.map Char.toLower = ds'.map Char.toLower →
      checksum s = checksum s') ∧
    (∀ s ds, Spells s ds → checksum (checksum s).toList = checksum s) ∧
    (∀ s, (∃ bytes, parseEVMAddress libs s = .ok bytes) ↔
      ∃ ds, AddressDigits ds ∧ (trimSpace s).toList = '0' :: 'x' :: ds) ∧
    (∀ s s' ds ds', AddressDigits ds → (trimSpace s).toList = '0' :: 'x' :: ds →
      AddressDigits ds' → (trimSpace s').toList = '0' :: 'x' :: ds' →
      (parseEVMAddress libs s = parseEVMAddress libs s' ↔
        ds.map Char.toLower = ds'.map Char.toLower)) := by
  refine ⟨?_, ?_, ?_, ?_, ?_⟩
  · intro a
    exact parseEVMAddress_eip55Checksum libs _ a
  · intro s s' ds ds' spells spells' same
    apply eip55Checksum_congr
    rw [trimHexPrefix_of_spells spells, trimHexPrefix_of_spells spells', same]
  · intro s ds spells
    exact eip55Checksum_idempotent _ spells
  · intro s
    constructor
    · rintro ⟨bytes, parsed⟩
      exact digits_of_parseEVMAddress libs parsed
    · rintro ⟨ds, digits, text⟩
      obtain ⟨bytes, -, parsed⟩ := parseEVMAddress_of_digits libs digits text
      exact ⟨bytes, parsed⟩
  · intro s s' ds ds' digits text digits' text'
    obtain ⟨bytes, read, parsed⟩ := parseEVMAddress_of_digits libs digits text
    obtain ⟨bytes', read', parsed'⟩ := parseEVMAddress_of_digits libs digits' text'
    rw [parsed, parsed', Except.ok.injEq, hexBytes_digits_iff digits digits' read read']

end WalletManagement
