import WalletManagement.ExactlyOnce
import WalletManagement.Withdrawal

/-!
# Money in `NUMERIC(38,18)` columns

The production store keeps amounts in `NUMERIC(38,18)` columns. Such a column accepts decimal
literals only, and it returns them as text with eighteen fractional digits. The balance service
writes a row with an empty locked amount for every first event, which the column refuses, and the
integer parsers of the withdrawal service and of the coin selection refuse the text it returns.
What a column does is a parameter; the in-memory store returns every text as it is.
-/

namespace WalletManagement

open Interaction Data Go

/-! ## What a column accepts -/

/-- Nothing, or an exponent. -/
def exponentLiteral : List Char → Bool
  | [] => true
  | c :: rest =>
    let digits := (splitSign rest).2
    (c = 'e' || c = 'E') && digits ≠ [] && digits.all Char.isDigit

/-- A decimal literal: a sign, digits with a point among them, and an exponent. -/
def decimalLiteral (s : String) : Bool :=
  let (whole, rest) := (splitSign s.toList).2.span Char.isDigit
  match rest with
  | '.' :: more =>
    let (fraction, exponent) := more.span Char.isDigit
    (whole ≠ [] || fraction ≠ []) && exponentLiteral exponent
  | exponent => whole ≠ [] && exponentLiteral exponent

/-- The columns accept the amounts of a row. -/
def Balance.storable (row : Balance) : Bool :=
  decimalLiteral row.confirmed && decimalLiteral row.pending && decimalLiteral row.locked

/-- No column accepts the locked amount of a fresh row. -/
theorem not_storable_of_unlocked {row : Balance} (unlocked : row.locked = "") :
    row.storable = false := by
  have empty : decimalLiteral "" = false := by decide +kernel
  rw [Balance.storable, unlocked, empty, Bool.and_false]

/-! ## The rows the balance service writes -/

/-- Before the first event the tables are empty and no row was written; after it a row with an
empty locked amount was. -/
def UnlockedFirst (deliveries : List Delivery) (s : Store) (rows : List Balance) : Prop :=
  (confirmations deliveries = [] ∧ rows = [] ∧ s.balances = .empty ∧ s.balanceEvents = ∅) ∨
    confirmations deliveries ≠ [] ∧ ∃ row ∈ rows, row.locked = ""

section

variable {svc : BalanceService} {start w : World LedgerCall} {deliveries : List Delivery}

/-- The events delivered by one more operation. -/
theorem confirmations_concat (deliveries : List Delivery) (last : Delivery) :
    confirmations (deliveries ++ [last]) = confirmations deliveries ++ confirmations [last] :=
  List.filterMap_append

theorem UnlockedFirst.step {s s' : Store} {rows new : List Balance} {call : LedgerCall}
    {result : Except Err Unit} (here : UnlockedFirst deliveries s rows)
    (booked : Booked svc (fun _ => False) s call result new s') :
    UnlockedFirst (deliveries ++ [(call, result)]) s' (new ++ rows) := by
  rw [UnlockedFirst, confirmations_concat]
  rcases here with ⟨none, rfl, empty, unrecorded⟩ | ⟨some, row, member, locked⟩
  · have missing (key : String) : s.balances.get key = Option.none := by
      rw [empty, Table.get_empty]
    rw [none]
    cases booked with
    | duplicate known => simp [unrecorded] at known
    | unrecorded err may => exact may.elim
    | aborted unknown err rows may => exact may.elim fun _ h => h.1.elim
    | credited unknown =>
      refine .inr ⟨nofun, _, List.mem_append_left _ (List.mem_singleton_self _), ?_⟩
      show (s.currentBalance _ _).locked = ""
      rw [Store.currentBalance, missing]
      rfl
    | unmoved _ _ _ balances events =>
      exact .inl ⟨rfl, rfl, balances.trans empty, events.trans unrecorded⟩
    | demoted found => simp [missing] at found
    | unlocked err locks =>
      obtain ⟨walletID, asset, amount, rfl | rfl⟩ := locks <;>
        exact .inl ⟨rfl, rfl, empty, unrecorded⟩
    | relocked locked locks found => simp [missing] at found
    | failed other err rows may => exact may.elim fun _ h => h.1.elim
  · exact .inr ⟨by simp [some], row, List.mem_append_right _ member, locked⟩

/-- From empty tables, every row that the operations pass to `UpsertBalance` is one that the
columns accept exactly if no confirmation event was applied. -/
theorem upserts_storable_iff (trace : Trace step svc.body start deliveries w)
    (idle : start.depth = 0) (balances : start.store.balances = .empty)
    (recorded : start.store.balanceEvents = ∅) (unwritten : start.upserts = []) :
    (∀ row ∈ w.upserts, row.storable = true) ↔ confirmations deliveries = [] := by
  have run := ledger_run (faulty_of_step (fun _ => False) trace) idle UnlockedFirst
    (.inl ⟨rfl, rfl, balances, recorded⟩) fun _ _ _ _ _ _ _ here booked => here.step booked
  obtain ⟨-, rows, passed, here⟩ := run
  rw [passed, unwritten, List.append_nil]
  rcases here with ⟨none, rfl, -⟩ | ⟨some, row, member, unlocked⟩
  · exact iff_of_true (fun _ member => absurd member List.not_mem_nil) none
  · refine iff_of_false (fun all => ?_) some
    have stored := all row member
    rw [not_storable_of_unlocked unlocked] at stored
    cases stored

end

/-- A locked amount and a reorganisation before any event. -/
def uneventfulDeliveries : List Delivery × World LedgerCall :=
  sampleLedger.playAll [.addLocked (sampleDeposit 0).walletID "BTC" "5",
    .reorg ⟨(sampleDeposit 0).walletID, "BTC", 7, "reorg", []⟩] emptyLedger

theorem upserts_storable_uneventful :
    uneventfulDeliveries.1.length = 2 ∧
      ∀ row ∈ uneventfulDeliveries.2.upserts, row.storable = true := by
  have trace : Trace step sampleLedger.body emptyLedger uneventfulDeliveries.1
      uneventfulDeliveries.2 := sampleLedger.playAll_trace _ emptyLedger
  have uneventful : confirmations uneventfulDeliveries.1 = [] := by decide +kernel
  exact ⟨by decide +kernel, (upserts_storable_iff trace rfl rfl rfl rfl).mpr uneventful⟩

/-- The first event of a wallet and asset. -/
def firstDelivery : List Delivery × World LedgerCall :=
  sampleLedger.playAll [.confirmation (sampleDeposit 6)] emptyLedger

theorem first_upsert_not_storable :
    Trace step sampleLedger.body emptyLedger firstDelivery.1 firstDelivery.2 ∧
      (∀ ev ∈ confirmations firstDelivery.1, decimalLiteral ev.amount = true) ∧
      ∃ row ∈ firstDelivery.2.upserts, row.confirmed = "100" ∧ row.locked = "" ∧
        row.storable = false :=
  ⟨sampleLedger.playAll_trace _ emptyLedger, by decide +kernel, by decide +kernel⟩

/-! ## What a column returns -/

/-- A `NUMERIC(38,18)` column: the text that it returns for a text that it stored, or none when it
refuses to store it. -/
structure NumericColumn where
  readBack : String → Option String

/-- The text of a natural number with eighteen fractional digits. -/
def scaledText (v : Nat) : String := v.repr ++ "." ++ "000000000000000000"

/-- The column returns integers with eighteen fractional digits. -/
def NumericColumn.Scaled (column : NumericColumn) : Prop :=
  ∀ s (v : Nat), bigSetString s = some (v : Int) → v < 10 ^ 20 →
    column.readBack s = some (scaledText v)

/-- Every reader of the amount of a withdrawal gets the integer that was stored: the builders of
Bitcoin, EVM and Solana transactions, and the coin selection of `ConstructAndSign`. -/
def AmountSurvives (column : NumericColumn) (s : String) (v : Nat) : Prop :=
  ∃ amount, column.readBack s = some amount ∧ parseInt amount = ((v : Int), none) ∧
    bigSetString amount = some (v : Int) ∧ parseUint amount.toList 64 = (v, none) ∧
    (parseInt amount).1 = v

/-- The coin selection gets the value of an output that was stored. -/
def ValueSurvives (column : NumericColumn) (s : String) (v : Nat) : Prop :=
  ∃ value, column.readBack s = some value ∧ parseVal value = v

/-- The characters of a number with fractional digits. -/
theorem toList_scaledText (v : Nat) :
    (scaledText v).toList = v.repr.toList ++ '.' :: List.replicate 18 '0' := by
  rw [scaledText, String.toList_append, String.toList_append, List.append_assoc]
  rfl

/-- A number with fractional digits is not empty and has no sign. -/
theorem splitSign_scaledText (v : Nat) : (scaledText v).toList ≠ [] ∧
    splitSign (scaledText v).toList = (false, (scaledText v).toList) := by
  obtain ⟨c, rest, chars⟩ : ∃ c rest, v.repr.toList = c :: rest :=
    List.exists_cons_of_ne_nil (by rw [Nat.toList_repr]; exact Nat.toDigits_ne_nil)
  rw [toList_scaledText, chars]
  refine ⟨nofun, splitSign_of_digit (digits_repr v c ?_)⟩
  rw [chars]
  exact List.mem_cons_self

/-- `big.Int.SetString` refuses a number with fractional digits. -/
theorem bigSetString_scaledText (v : Nat) : bigSetString (scaledText v) = none := by
  obtain ⟨nonempty, sign⟩ := splitSign_scaledText v
  rw [bigSetString, sign]
  simp only [if_neg nonempty]
  rw [toList_scaledText, parseBigDigits_append (digits_repr v) (by decide)]
  rfl

/-- `strconv.ParseUint` refuses a number with fractional digits. -/
theorem parseUint_scaledText (v : Nat) : parseUint (scaledText v).toList 64 =
    if v < 2 ^ 64 then (0, some .format) else (2 ^ 64 - 1, some .range) := by
  rw [parseUint, if_neg (splitSign_scaledText v).1, toList_scaledText,
    parseDigits_append (digits_repr v) (by decide) _ _ _ (by decide), Nat.toList_repr,
    Nat.ofDigitChars_ten_toDigits]
  by_cases fits : v < 2 ^ 64
  · rw [if_pos fits, if_pos (by omega)]
  · rw [if_neg fits, if_neg (by omega)]

/-- `strconv.ParseInt` refuses a number with fractional digits. Its value is zero, or the largest
one. -/
theorem parseInt_scaledText (v : Nat) : parseInt (scaledText v) =
    if v < 2 ^ 64 then (0, some .format) else (2 ^ 63 - 1, some .range) := by
  obtain ⟨nonempty, sign⟩ := splitSign_scaledText v
  rw [parseInt, if_neg nonempty, sign]
  simp only [parseUint_scaledText v]
  by_cases fits : v < 2 ^ 64
  · simp only [if_pos fits, if_true]
  · simp only [if_neg fits]
    decide

/-- The parsers with an error always have one. -/
theorem errors_scaledText (v : Nat) :
    (∃ n err, parseUint (scaledText v).toList 64 = (n, some err)) ∧
      ∃ n err, parseInt (scaledText v) = (n, some err) := by
  rw [parseUint_scaledText, parseInt_scaledText]
  split
  · exact ⟨⟨_, _, rfl⟩, _, _, rfl⟩
  · exact ⟨⟨_, _, rfl⟩, _, _, rfl⟩

/-- No builder accepts an amount with fractional digits. -/
theorem buildUnsignedTx_scaledText (libs : Libraries) (w : Wallet) {wr : WithdrawalRequest}
    {v : Nat} (amount : wr.amount = scaledText v) (nonce : Int) (outpoints : List String) :
    ∃ err, buildUnsignedTx libs w wr nonce outpoints = .error err := by
  obtain ⟨⟨lamports, solana, refused⟩, satoshis, btc, refused'⟩ := errors_scaledText v
  unfold buildUnsignedTx
  split
  · rw [buildEVMUnsignedTx, amount, bigSetString_scaledText]
    cases parseEVMAddress libs wr.toAddress with
    | error err => exact ⟨_, rfl⟩
    | ok toAddress => exact ⟨_, rfl⟩
  · split
    · rw [buildBTCUnsignedTx, btcMsgTx, amount, refused']
      by_cases none : outpoints = []
      · exact ⟨_, by rw [if_pos none]⟩
      · exact ⟨_, by rw [if_neg none]⟩
    · split
      · rw [buildSolanaUnsignedTx, amount, refused]
        cases decodeSolanaPubkey libs wr.toAddress with
        | error err => exact ⟨_, rfl⟩
        | ok target => exact ⟨_, rfl⟩
      · exact ⟨_, rfl⟩

/-- A stored integer survives as an amount and as the value of an output exactly if it is zero,
which no amount is: what a column returns for an amount, no builder accepts, and the coin
selection takes it for another number. -/
theorem survives_iff (column : NumericColumn) (scaled : column.Scaled) {s : String} {v : Nat}
    (integer : bigSetString s = some (v : Int)) (small : v < 10 ^ 20) :
    ((0 < v → AmountSurvives column s v) ∧ ValueSurvives column s v ↔ v = 0) ∧
      (ValueSurvives column s v ↔ v = 0) ∧ ¬AmountSurvives column s v ∧
      ∀ amount, column.readBack s = some amount → ((parseInt amount).1 = v ↔ v = 0) ∧
        ∀ (libs : Libraries) (w : Wallet) (wr : WithdrawalRequest) (nonce : Int)
          (outpoints : List String), wr.amount = amount →
          ∃ err, buildUnsignedTx libs w wr nonce outpoints = .error err := by
  have read := scaled s v integer small
  have returned {text : String} (stored : column.readBack s = some text) : text = scaledText v := by
    rw [read] at stored
    exact (Option.some.inj stored).symm
  have lost : ¬AmountSurvives column s v := by
    rintro ⟨amount, stored, -, evm, -⟩
    rw [returned stored, bigSetString_scaledText] at evm
    cases evm
  have parsed : parseVal (scaledText v) = 0 := by
    obtain ⟨-, n, err, refused⟩ := errors_scaledText v
    rw [parseVal, refused]
  have value : ValueSurvives column s v ↔ v = 0 := by
    constructor
    · rintro ⟨text, stored, same⟩
      rw [returned stored, parsed] at same
      omega
    · rintro rfl
      exact ⟨_, read, parsed⟩
  refine ⟨⟨fun both => value.mp both.2, fun zero => ⟨?_, value.mpr zero⟩⟩, value, lost, ?_⟩
  · intro positive
    omega
  · intro amount stored
    rw [returned stored]
    refine ⟨?_, fun libs w wr nonce outpoints same =>
      buildUnsignedTx_scaledText libs w same nonce outpoints⟩
    rw [parseInt_scaledText]
    split
    · show (0 : Int) = v ↔ v = 0
      omega
    · show (2 ^ 63 - 1 : Int) = v ↔ v = 0
      omega

/-- A column that stores the integers it can hold. -/
def sampleColumn : NumericColumn where
  readBack s :=
    match bigSetString s with
    | some v => if 0 ≤ v ∧ v < 10 ^ 20 then some (scaledText v.toNat) else none
    | none => none

theorem sampleColumn_scaled : sampleColumn.Scaled := by
  intro s v integer small
  have inside : (0 : Int) ≤ v ∧ (v : Int) < 10 ^ 20 := by omega
  simp only [sampleColumn, integer, if_pos inside, Int.toNat_natCast]

theorem survives_zero : bigSetString "0" = some 0 ∧ ValueSurvives sampleColumn "0" 0 := by
  have integer : bigSetString "0" = some ((0 : Nat) : Int) := by decide +kernel
  have survives := survives_iff sampleColumn sampleColumn_scaled integer (by decide)
  exact ⟨integer, survives.2.1.mpr rfl⟩

theorem five_does_not_survive :
    sampleColumn.Scaled ∧ bigSetString "5" = some 5 ∧ ¬AmountSurvives sampleColumn "5" 5 ∧
      ¬ValueSurvives sampleColumn "5" 5 := by
  have read : sampleColumn.readBack "5" = some "5.000000000000000000" := by decide +kernel
  refine ⟨sampleColumn_scaled, by decide +kernel, ?_, ?_⟩
  · rintro ⟨amount, stored, -, evm, -⟩
    rw [← Option.some.inj (read.symm.trans stored)] at evm
    exact absurd evm (by decide +kernel)
  · rintro ⟨value, stored, same⟩
    rw [← Option.some.inj (read.symm.trans stored)] at same
    exact absurd same (by decide +kernel)

end WalletManagement
