import WalletManagement.SagaOutcome
import WalletManagement.Scripted
import Mathlib.Algebra.Order.BigOperators.Group.List

/-!
# What a Bitcoin withdrawal pays

`SelectForAmount` reserves unspent outputs that reach the amount of a withdrawal, and the
transaction builder spends them all for one output of exactly that amount. The two never
exchange the selected total, and no output pays the difference back: it is the fee. While the
values do not overflow, the fee is less than the least selected value; when they do, it has no
bound.
-/

namespace WalletManagement

open Interaction Data Go

/-! ## Values -/

/-- The integer that a stored value stands for. -/
def UTXO.amount (u : UTXO) : Int := (bigSetString u.value).getD 0

/-- The value of an unspent output is a non-negative integer. -/
def UTXO.Valued (u : UTXO) : Prop := ∃ v, bigSetString u.value = some v ∧ 0 ≤ v

/-- The value that a store holds at some outpoints. -/
def Store.inputValue (s : Store) (ops : List String) : Int :=
  (ops.map fun op => ((s.utxos.get op).map UTXO.amount).getD 0).sum

/-- The value a transaction pays out. -/
def MsgTx.outputValue (tx : MsgTx) : Int := (tx.txOut.map TxOut.value).sum

/-- What the inputs of a transaction are worth beyond its outputs. -/
def Store.fee (s : Store) (ops : List String) (tx : MsgTx) : Int :=
  s.inputValue ops - tx.outputValue

/-- A value in the range of `int64` is read as it is. -/
theorem UTXO.Valued.parseVal {u : UTXO} (valued : u.Valued) (fits : u.amount < 2 ^ 63) :
    parseVal u.value = u.amount ∧ 0 ≤ u.amount := by
  obtain ⟨v, integer, low⟩ := valued
  have amount : u.amount = v := by rw [UTXO.amount, integer]; rfl
  rw [amount] at fits ⊢
  have read := parseInt_of_bigSetString integer ⟨by omega, fits⟩
  exact ⟨by rw [WalletManagement.parseVal, read], low⟩

/-- The candidates of a selection are the free rows of the wallet. -/
theorem Store.mem_listFreeUTXOs {s : Store} {walletID : UUID} {u : UTXO} :
    u ∈ s.listFreeUTXOs walletID ↔
      u ∈ s.utxos.rows ∧ u.walletID = walletID ∧ u.lockState = .free := by
  simp [Store.listFreeUTXOs, Table.select, List.mem_insertionSort]

/-- The value at the outpoints of rows is the sum of the values of the rows. -/
theorem Store.inputValue_rows {s : Store} {rows : List UTXO}
    (stored : ∀ u ∈ rows, u ∈ s.utxos.rows) :
    s.inputValue (rows.map UTXO.outpoint) = (rows.map UTXO.amount).sum := by
  unfold Store.inputValue
  rw [List.map_map]
  congr 1
  refine List.map_congr_left fun u member => ?_
  have found : s.utxos.get u.outpoint = some u := Table.get_of_mem (stored u member)
  simp [found]

/-! ## Selection -/

/-- Without overflow the loop takes a part of the candidates from the front, counts its exact
total, and stops as soon as the amount is reached, and only then. -/
theorem selectLoop_exact {amount total : Int} {candidates : List UTXO} {ops : List String}
    (selected : List String) (start : Int)
    (looped : selectLoop amount candidates selected start = (ops, total)) (low : 0 ≤ start)
    (natural : ∀ u ∈ candidates, 0 ≤ parseVal u.value)
    (fits : start + (candidates.map fun u => parseVal u.value).sum < 2 ^ 63) :
    ∃ taken rest, candidates = taken ++ rest ∧ ops = selected ++ taken.map UTXO.outpoint ∧
      total = start + (taken.map fun u => parseVal u.value).sum ∧
      (∀ before last, taken = before ++ [last] →
        start + (before.map fun u => parseVal u.value).sum < amount) ∧
      (amount ≤ total ∨ rest = []) := by
  induction candidates generalizing selected start with
  | nil =>
    cases looped
    exact ⟨[], [], rfl, by simp, by simp, by simp, .inr rfl⟩
  | cons u rest ih =>
    unfold selectLoop at looped
    by_cases reached : amount ≤ start
    · rw [if_pos reached] at looped
      cases looped
      exact ⟨[], u :: rest, rfl, by simp, by simp, by simp, .inl reached⟩
    · rw [if_neg reached] at looped
      have natural' : ∀ v ∈ rest, 0 ≤ parseVal v.value :=
        fun v member => natural v (List.mem_cons_of_mem u member)
      have value : 0 ≤ parseVal u.value := natural u List.mem_cons_self
      have later : 0 ≤ (rest.map fun u => parseVal u.value).sum :=
        List.sum_nonneg (by simpa using natural')
      rw [List.map_cons, List.sum_cons] at fits
      rw [wrapInt64_of_inInt64 ⟨by omega, by omega⟩] at looped
      obtain ⟨taken, rest', split, named, counted, least, stopped⟩ :=
        ih (selected ++ [u.outpoint]) (start + parseVal u.value) looped (by omega) natural'
          (by omega)
      refine ⟨u :: taken, rest', by rw [split, List.cons_append], ?_, ?_,
        fun before last split => ?_, stopped⟩
      · rw [named, List.append_assoc]
        rfl
      · rw [counted, List.map_cons, List.sum_cons, Int.add_assoc]
      · cases before with
        | nil => simpa using lt_of_not_ge reached
        | cons first before =>
          rw [List.cons_append, List.cons.injEq] at split
          have bound := least before last split.2
          rw [← split.1, List.map_cons, List.sum_cons]
          omega

/-- The loop takes outpoints of the candidates only. -/
theorem mem_selectLoop {amount total : Int} {candidates : List UTXO} {ops : List String}
    (selected : List String) (start : Int)
    (looped : selectLoop amount candidates selected start = (ops, total)) (op : String)
    (member : op ∈ ops) : op ∈ selected ∨ op ∈ candidates.map UTXO.outpoint := by
  induction candidates generalizing selected start with
  | nil =>
    cases looped
    exact .inl member
  | cons u rest ih =>
    unfold selectLoop at looped
    split at looped
    · cases looped
      exact .inl member
    · rcases ih _ _ looped with early | late
      · rcases List.mem_append.mp early with before | here
        · exact .inl before
        · rw [List.mem_singleton.mp here]
          exact .inr List.mem_cons_self
      · exact .inr (List.mem_cons_of_mem _ late)

/-- A selection that reaches the amount can be locked. -/
theorem Selected.of_loop {order : SortSlice largerValue} {s : Store} {walletID : UUID}
    {amount total : Int} {ops : List String}
    (looped : selectLoop amount (order.sort (s.listFreeUTXOs walletID)) [] 0 = (ops, total))
    (enough : amount ≤ total) : Selected order s walletID amount ops total := by
  refine ⟨looped, enough, fun now => (Store.lockUTXOs_free fun op member => ?_).1⟩
  rcases mem_selectLoop [] 0 looped op member with none | taken
  · cases none
  · obtain ⟨u, candidate, rfl⟩ := List.mem_map.mp taken
    have free := Store.mem_listFreeUTXOs.mp ((order.perm _).mem_iff.mp candidate)
    exact ⟨u, Table.get_of_mem free.1, free.2.2⟩

section Exact

variable {order : SortSlice largerValue} {s : Store} {walletID : UUID} {amount total : Int}
  {ops : List String}

/-- Amounts that are not negative, with a total in the range of `int64`, are read as they are. -/
theorem Store.parseVal_free (valued : ∀ u ∈ s.listFreeUTXOs walletID, u.Valued)
    (fits : ((s.listFreeUTXOs walletID).map UTXO.amount).sum < 2 ^ 63) (u : UTXO)
    (free : u ∈ s.listFreeUTXOs walletID) : parseVal u.value = u.amount ∧ 0 ≤ u.amount := by
  have low : ∀ a ∈ (s.listFreeUTXOs walletID).map UTXO.amount, 0 ≤ a := by
    intro a here
    obtain ⟨u, inside, rfl⟩ := List.mem_map.mp here
    obtain ⟨v, integer, low⟩ := valued u inside
    simpa [UTXO.amount, integer] using low
  have single := List.single_le_sum low u.amount (List.mem_map_of_mem free)
  exact (valued u free).parseVal (by omega)

/-- What the loop takes from the free rows of a wallet, by their amounts. -/
theorem selectLoop_free (valued : ∀ u ∈ s.listFreeUTXOs walletID, u.Valued)
    (fits : ((s.listFreeUTXOs walletID).map UTXO.amount).sum < 2 ^ 63)
    (looped : selectLoop amount (order.sort (s.listFreeUTXOs walletID)) [] 0 = (ops, total)) :
    ∃ taken rest, order.sort (s.listFreeUTXOs walletID) = taken ++ rest ∧
      ops = taken.map UTXO.outpoint ∧ total = (taken.map UTXO.amount).sum ∧
      (∀ before last, taken = before ++ [last] → (before.map UTXO.amount).sum < amount) ∧
      (amount ≤ total ∨ rest = []) := by
  have perm := order.perm (s.listFreeUTXOs walletID)
  have read (u : UTXO) (here : u ∈ order.sort (s.listFreeUTXOs walletID)) :=
    Store.parseVal_free valued fits u (perm.mem_iff.mp here)
  have amounts (l : List UTXO) (inside : ∀ u ∈ l, u ∈ order.sort (s.listFreeUTXOs walletID)) :
      (l.map fun u => parseVal u.value).sum = (l.map UTXO.amount).sum := by
    rw [List.map_congr_left fun u here => (read u (inside u here)).1]
  have sum := (perm.map UTXO.amount).sum_eq
  obtain ⟨taken, rest, split, named, counted, least, stopped⟩ := selectLoop_exact [] 0 looped le_rfl
    (fun u here => by rw [(read u here).1]; exact (read u here).2)
    (by rw [amounts _ fun _ here => here]; omega)
  have inside (u : UTXO) (here : u ∈ taken) : u ∈ order.sort (s.listFreeUTXOs walletID) := by
    rw [split]
    exact List.mem_append_left rest here
  refine ⟨taken, rest, split, by simpa using named, ?_, fun before last final => ?_, stopped⟩
  · rw [counted, amounts taken inside, Int.zero_add]
  · have short := least before last final
    rw [final] at inside
    rwa [amounts before fun u here => inside u (List.mem_append_left _ here), Int.zero_add]
      at short

/-- A row that comes earlier among the candidates is worth at least as much. -/
theorem amount_le_of_earlier (valued : ∀ u ∈ s.listFreeUTXOs walletID, u.Valued)
    (fits : ((s.listFreeUTXOs walletID).map UTXO.amount).sum < 2 ^ 63) {front back : List UTXO}
    (split : order.sort (s.listFreeUTXOs walletID) = front ++ back) {u v : UTXO}
    (early : u ∈ front) (late : v ∈ back) : v.amount ≤ u.amount := by
  have read (w : UTXO) (here : w ∈ front ++ back) : parseVal w.value = w.amount := by
    rw [← split] at here
    exact (Store.parseVal_free valued fits w ((order.perm _).mem_iff.mp here)).1
  have ordered := order.sorted (s.listFreeUTXOs walletID)
  rw [split, List.pairwise_append] at ordered
  have pair := ordered.2.2 u early v late
  simp only [largerValue, decide_eq_false_iff_not, not_lt] at pair
  rwa [read u (List.mem_append_left _ early), read v (List.mem_append_right _ late)] at pair

/-- Without overflow a selection reaches the amount, and what it has beyond the amount is less
than each selected value. -/
theorem Selected.excess (selected : Selected order s walletID amount ops total)
    (some : ops ≠ []) (valued : ∀ u ∈ s.listFreeUTXOs walletID, u.Valued)
    (fits : ((s.listFreeUTXOs walletID).map UTXO.amount).sum < 2 ^ 63) :
    amount ≤ s.inputValue ops ∧
      ∀ op ∈ ops, s.inputValue ops - amount < s.inputValue [op] := by
  obtain ⟨taken, rest, split, named, counted, least, -⟩ :=
    selectLoop_free valued fits selected.taken
  have stored (u : UTXO) (here : u ∈ taken) : u ∈ s.utxos.rows := by
    have candidate : u ∈ order.sort (s.listFreeUTXOs walletID) := by
      rw [split]
      exact List.mem_append_left rest here
    exact (Store.mem_listFreeUTXOs.mp ((order.perm _).mem_iff.mp candidate)).1
  have value : s.inputValue ops = (taken.map UTXO.amount).sum := by
    rw [named]
    exact Store.inputValue_rows stored
  have reached := selected.enough
  refine ⟨by omega, fun op here => ?_⟩
  -- the selection without its last and least value did not reach the amount
  have nonempty : taken ≠ [] := by
    rintro rfl
    exact some named
  obtain ⟨before, last, rfl⟩ : ∃ before last, taken = before ++ [last] :=
    ⟨taken.dropLast, taken.getLast nonempty, (List.dropLast_append_getLast nonempty).symm⟩
  have short := least before last rfl
  rw [named] at here
  obtain ⟨u, chosen, rfl⟩ := List.mem_map.mp here
  have single : s.inputValue [u.outpoint] = u.amount := by
    have here : ∀ v ∈ [u], v ∈ s.utxos.rows := by simpa using stored u chosen
    simpa using Store.inputValue_rows here
  have smallest : last.amount ≤ u.amount := by
    rcases List.mem_append.mp chosen with early | final
    · rw [List.append_assoc] at split
      exact amount_le_of_earlier valued fits split early (by simp)
    · rw [List.mem_singleton.mp final]
  rw [single, value, List.map_append, List.sum_append, List.map_singleton, List.sum_singleton]
  omega

end Exact

/-! ## The transaction -/

/-- A Bitcoin transaction spends at least one outpoint and has one output, worth the amount, which
was read without an error. -/
theorem btcMsgTx_ok {libs : Libraries} {wr : WithdrawalRequest} {ops : List String} {tx : MsgTx}
    (built : btcMsgTx libs wr ops = .ok tx) :
    ops ≠ [] ∧ tx.txOut.map TxOut.value = [(parseInt wr.amount).1] ∧
      (parseInt wr.amount).2 = none := by
  unfold btcMsgTx at built
  by_cases empty : ops = []
  · rw [if_pos empty] at built
    cases built
  · rw [if_neg empty] at built
    refine ⟨empty, ?_⟩
    rcases parsed : parseInt wr.amount with ⟨amount, err⟩
    cases err with
    | some err => simp [parsed] at built
    | none =>
      cases script : btcAddrScript libs wr.toAddress with
      | error err => simp [parsed, script] at built
      | ok script' =>
        cases inputs : btcInputs libs ops with
        | error err => simp [parsed, script, inputs] at built
        | ok txIn =>
          simp only [parsed, script, inputs, Except.ok.injEq] at built
          rw [← built]
          exact ⟨rfl, rfl⟩

/-- What the Bitcoin builder assembles is the transaction with its witnesses. -/
theorem buildBTCUnsignedTx_ok {libs : Libraries} {wr : WithdrawalRequest} {ops : List String}
    {unsigned : UnsignedTx} (built : buildBTCUnsignedTx libs wr ops = .ok unsigned) :
    ∃ tx, btcMsgTx libs wr ops = .ok tx ∧ ∀ signature bytes,
      unsigned.assemble signature = .ok bytes →
        libs.serialize (tx.witnessed signature) = .ok bytes := by
  unfold buildBTCUnsignedTx at built
  cases message : btcMsgTx libs wr ops with
  | error err => simp [message] at built
  | ok tx =>
    simp only [message] at built
    split at built
    · cases built
    · cases built
      refine ⟨tx, rfl, fun signature bytes assembled => ?_⟩
      dsimp only at assembled
      split at assembled
      · cases assembled
      · cases serialized : libs.serialize (tx.witnessed signature) with
        | error err => simp [serialized] at assembled
        | ok bytes' => simpa [serialized] using assembled

/-- The store records a signed withdrawal that reserves some outpoints and whose bytes are a
transaction built over them. -/
structure Builds (libs : Libraries) (s : Store) (wr : WithdrawalRequest) (ops : List String)
    (tx : MsgTx) : Prop where
  /-- The builder made the transaction. -/
  built : btcMsgTx libs wr ops = .ok tx
  /-- Its bytes, with the witnesses of some signature, are stored. -/
  stored : ∃ row signature, s.withdrawals.get wr.id = some row ∧ row.state = .signed ∧
    row.reservedOutpoints = ops ∧ libs.serialize (tx.witnessed signature) = .ok row.signedTxBytes

/-- A successful `ConstructAndSign` of a Bitcoin withdrawal has selected outpoints for the amount
and built a transaction over them. -/
theorem constructAndSign_builds {svc : Service} {w w' : World SagaCall} {id : UUID}
    {wr : WithdrawalRequest} {wallet : Wallet} (finds : w.store.Finds id wr wallet)
    (bitcoin : wallet.chain = .bitcoin)
    (success : (svc.constructAndSign id).Exec (step (.constructAndSign id)) w (.ok ()) w') :
    ∃ ops total tx, Selected svc.order w.store wr.walletID (parseInt wr.amount).1 ops total ∧
      Builds svc.libs w'.store wr ops tx := by
  obtain ⟨n, ops, wr', reserved, unsigned, signature, bytes, reservation, built, assembled,
    stored⟩ := constructAndSign_signed finds success
  have key : wr.id = id := Table.key_of_get finds.withdrawal
  cases reservation with
  | nonce evm =>
    rw [bitcoin, Chain.not_isEVM_bitcoin] at evm
    cases evm
  | nothing other notBitcoin => exact absurd bitcoin notBitcoin
  | @outpoints _ total now _ selected =>
    have branch : buildUnsignedTx svc.libs wallet wr (-1) ops =
        buildBTCUnsignedTx svc.libs wr ops := by
      simp only [buildUnsignedTx, bitcoin, Chain.not_isEVM_bitcoin]
      rfl
    rw [branch] at built
    obtain ⟨tx, message, serialized⟩ := buildBTCUnsignedTx_ok built
    rw [← key] at stored
    exact ⟨ops, total, tx, selected, message, _, signature, stored, rfl, rfl,
      serialized signature bytes assembled⟩

/-- A successful `ConstructAndSign` of a Bitcoin withdrawal builds a transaction with a single
output, worth the amount of the withdrawal, so all that the selected outputs are worth beyond
that amount is the fee. If the free values of the wallet are non-negative integers whose sum is
below `2 ^ 63`, the fee is not negative and less than each selected value. -/
theorem btc_fee_is_excess (svc : Service) (w w' : World SagaCall) (id : UUID)
    (wr : WithdrawalRequest) (wallet : Wallet) (finds : w.store.Finds id wr wallet)
    (bitcoin : wallet.chain = .bitcoin)
    (success : (svc.constructAndSign id).Exec (step (.constructAndSign id)) w (.ok ()) w') :
    ∃ ops tx, Builds svc.libs w'.store wr ops tx ∧
      tx.txOut.map TxOut.value = [(parseInt wr.amount).1] ∧
      w.store.fee ops tx = w.store.inputValue ops - (parseInt wr.amount).1 ∧
      ((∀ u ∈ w.store.listFreeUTXOs wr.walletID, u.Valued) →
        ((w.store.listFreeUTXOs wr.walletID).map UTXO.amount).sum < 2 ^ 63 →
        0 ≤ w.store.fee ops tx ∧ ∀ op ∈ ops, w.store.fee ops tx < w.store.inputValue [op]) := by
  obtain ⟨ops, total, tx, selected, builds⟩ := constructAndSign_builds finds bitcoin success
  obtain ⟨some, output, -⟩ := btcMsgTx_ok builds.built
  have fee : w.store.fee ops tx = w.store.inputValue ops - (parseInt wr.amount).1 := by
    rw [Store.fee, MsgTx.outputValue, output, List.sum_singleton]
  refine ⟨ops, tx, builds, output, fee, fun valued fits => ?_⟩
  obtain ⟨enough, less⟩ := selected.excess some valued fits
  rw [fee]
  exact ⟨by omega, less⟩

/-- A withdrawal of 1000 from an output of 5000 pays 4000 as fee. -/
theorem btc_fee_is_excess_of_5000 : ∃ (w w' : World SagaCall) (wr : WithdrawalRequest)
    (ops : List String) (tx : MsgTx), Builds sampleLibraries w'.store wr ops tx ∧
      tx.txOut.map TxOut.value = [1000] ∧ w.store.fee ops tx = 4000 := by
  let w := sampleService.play [(.trackUTXO (sampleUTXO "5000" '0'), acceptingBTC 0),
    (.create (sampleBTCRequest "1000"), acceptingBTC 10)] sampleStart
  let call := SagaCall.constructAndSign (sampleID 10)
  let w' := sampleService.play [(call, acceptingBTC 0)] w
  have run := Program.exec_run (fun op w => (acceptingBTC 0).handle_follows call op w)
    (sampleService.constructAndSign (sampleID 10)) w
  have result : ((sampleService.constructAndSign (sampleID 10)).run
      ((acceptingBTC 0).handle call) w).1.isOk = true := by decide +kernel
  have success : ((sampleService.constructAndSign (sampleID 10)).run
      ((acceptingBTC 0).handle call) w).1 = .ok () := by
    revert result
    generalize ((sampleService.constructAndSign (sampleID 10)).run _ w).1 = answer
    cases answer <;> simp [Except.isOk, Except.toBool]
  rw [success] at run
  have created : (w.store.withdrawals.get (sampleID 10)).map
        (fun wr => (wr.id, wr.walletID, wr.amount)) =
          some (sampleID 10, sampleBTCWallet.id, "1000") ∧
      w.store.wallets.get sampleBTCWallet.id = some sampleBTCWallet ∧
      w.store.inputValue [(sampleUTXO "5000" '0').outpoint] = 5000 := by decide +kernel
  obtain ⟨row, wallet, value⟩ := created
  obtain ⟨wr, found, same⟩ := Option.map_eq_some_iff.mp row
  simp only [Prod.mk.injEq] at same
  obtain ⟨id, owner, amount⟩ := same
  have finds : w.store.Finds (sampleID 10) wr sampleBTCWallet := ⟨found, by rw [owner, wallet]⟩
  obtain ⟨ops, tx, builds, output, fee, -⟩ := btc_fee_is_excess sampleService w w' (sampleID 10) wr
    sampleBTCWallet finds rfl run
  obtain ⟨signed, signature, stored, -, reserved, -⟩ := builds.stored
  have outpoints : (w'.store.withdrawals.get (sampleID 10)).map
      WithdrawalRequest.reservedOutpoints =
      some [(sampleUTXO "5000" '0').outpoint] := by decide +kernel
  have thousand : (parseInt "1000").1 = 1000 := by decide +kernel
  rw [id] at stored
  rw [stored, Option.map_some, reserved, Option.some.injEq] at outpoints
  rw [amount, thousand] at output fee
  rw [outpoints, value] at fee
  refine ⟨w, w', wr, ops, tx, builds, output, ?_⟩
  rw [outpoints, fee]
  rfl

/-! ## Success -/

section Success

variable {L : Type} {script : Script} {caller : L} {w : World L}

/-- A scripted run of a call of the store. -/
theorem Script.run_store {α : Type} (script : Script) (caller : L) (w : World L) (op : StoreOp)
    (next : Except Err op.Result → Prog α) : ∃ w₁, w₁.store = (op.exec script.now w.store).2 ∧
      (perform (.store op) >>= next).run (script.handle caller) w =
        (next (op.exec script.now w.store).1).run (script.handle caller) w₁ := ⟨_, rfl, rfl⟩

/-- A selection that can be made is made. -/
theorem Selected.run {order : SortSlice largerValue} {walletID : UUID} {amount total : Int}
    {ops : List String} (selected : Selected order w.store walletID amount ops total)
    (script : Script) (caller : L) : ∃ w₁, w₁.store = (w.store.lockUTXOs script.now ops).2 ∧
      (selectForAmount order walletID amount).run (script.handle caller) w =
        (.ok (ops, total), w₁) := by
  unfold selectForAmount
  obtain ⟨w₁, listed, run⟩ := script.run_store caller w (.listFreeUTXOs walletID) _
  rw [run]
  simp only [StoreOp.exec] at listed ⊢
  rcases looped : selectLoop amount (order.sort (w.store.listFreeUTXOs walletID)) [] 0 with
    ⟨ops', total'⟩
  obtain ⟨rfl, rfl⟩ := Prod.mk.inj (looped.symm.trans selected.taken)
  rw [if_neg (not_lt.mpr selected.enough)]
  obtain ⟨w₂, locked, run⟩ := script.run_store caller w₁ (.lockUTXOs ops') _
  rw [run]
  simp only [StoreOp.exec, listed, selected.locked] at locked ⊢
  exact ⟨w₂, locked, rfl⟩

/-- A withdrawal that is found is signed, if a transaction can be built and assembled. -/
theorem Service.run_signReserved (svc : Service) {wr wr' : WithdrawalRequest} {wallet : Wallet}
    {n : Int} {ops : List String} {unsigned : UnsignedTx} {resp : SignResponse} {bytes : Bytes}
    (keyID : String) (found : w.store.withdrawals.get wr.id = some wr')
    (built : buildUnsignedTx svc.libs wallet wr n ops = .ok unsigned)
    (signer : script.signer = .ok resp) (assembled : unsigned.assemble resp.signature = .ok bytes) :
    ((svc.signReserved wr wallet keyID n ops).run (script.handle caller) w).1 = .ok () := by
  unfold Service.signReserved
  simp only [built]
  rw [Program.run_bind]
  have answer (request : SignRequest) :
      (perform (.sign request)).run (script.handle caller) w =
        (.ok resp, w.record caller (.sign request) (.ok resp)) := by
    rw [← signer]
    rfl
  rw [answer]
  simp only [assembled]
  have persisted := Store.updateWithdrawal_found found fun w => { w with signedTxBytes := bytes }
  have marked := w.store.updateWithdrawalState_signed found bytes
  obtain ⟨w₁, stored, run⟩ := script.run_store caller
    (w.record caller (.sign ⟨keyID, unsigned.payload, wr.walletID⟩) (.ok resp))
    (.updateWithdrawalSignedTx wr.id bytes) _
  rw [run]
  simp only [StoreOp.exec, World.record, Store.updateWithdrawalSignedTx, persisted] at stored ⊢
  obtain ⟨w₂, -, run⟩ :=
    script.run_store caller w₁ (.updateWithdrawalState wr.id .signed "" "" "") _
  rw [run]
  simp only [StoreOp.exec, stored, marked]
  rw [Program.run_bind]
  rfl

/-- `ConstructAndSign` of a whitelisted Bitcoin withdrawal succeeds, if outpoints can be
selected, a transaction can be built over them, and the signature fits it. -/
theorem Service.run_constructAndSign (svc : Service) {id : UUID} {wr : WithdrawalRequest}
    {wallet : Wallet} {ops : List String} {total : Int} {unsigned : UnsignedTx}
    {resp : SignResponse}
    {keyID : String} {bytes : Bytes} (finds : w.store.Finds id wr wallet)
    (whitelisted : wr.state = .whitelisted) (bitcoin : wallet.chain = .bitcoin)
    (selected : Selected svc.order w.store wr.walletID (parseInt wr.amount).1 ops total)
    (built : buildBTCUnsignedTx svc.libs wr ops = .ok unsigned)
    (key : script.key = .ok keyID) (signer : script.signer = .ok resp)
    (assembled : unsigned.assemble resp.signature = .ok bytes) :
    ((svc.constructAndSign id).run (script.handle caller) w).1 = .ok () := by
  have found : w.store.withdrawals.get wr.id = some wr := by
    rw [Table.key_of_get finds.withdrawal, finds.withdrawal]
  unfold Service.constructAndSign
  obtain ⟨w₁, read, run⟩ := script.run_store caller w (.getWithdrawal id) _
  rw [run]
  simp only [StoreOp.exec, Store.getWithdrawal, finds.withdrawal, Store.found, whitelisted, ne_eq,
    not_true_eq_false, if_false] at read ⊢
  obtain ⟨w₂, read', run⟩ := script.run_store caller w₁ (.getWallet wr.walletID) _
  rw [run]
  simp only [StoreOp.exec, read, Store.getWallet, finds.wallet, Store.found] at read' ⊢
  have resolved : ∃ keyID w₃, w₃.store = w.store ∧
      (svc.resolveKey wr.walletID).run (script.handle caller) w₂ = (.ok keyID, w₃) := by
    unfold Service.resolveKey
    split
    · rw [Program.run_bind]
      have answer : (perform (.resolveActiveKeyID wr.walletID)).run (script.handle caller) w₂ =
          (.ok keyID, w₂.record caller (.resolveActiveKeyID wr.walletID) (.ok keyID)) := by
        rw [← key]
        rfl
      rw [answer]
      refine ⟨keyID, _, ?_, rfl⟩
      exact read'
    · exact ⟨"", w₂, read', rfl⟩
  obtain ⟨keyID, w₃, read', resolved⟩ := resolved
  rw [Program.run_bind, resolved]
  dsimp only
  have reserved : ∃ w₄, w₄.store.withdrawals.get wr.id = some { wr with reservedOutpoints := ops } ∧
      (svc.reserve wr wallet).run (script.handle caller) w₃ = (.ok (-1, ops), w₄) := by
    unfold Service.reserve
    rw [if_neg (by rw [bitcoin, Chain.not_isEVM_bitcoin]; decide), if_pos bitcoin, Program.run_bind]
    rw [← read'] at selected
    obtain ⟨w₄, locked, run⟩ := selected.run script caller
    rw [run]
    dsimp only
    obtain ⟨w₅, stored, run⟩ := script.run_store caller w₄ (.updateWithdrawalOutpoints wr.id ops) _
    have there : w₄.store.withdrawals.get wr.id = some wr := by
      rw [locked, read', (w.store.lockUTXOs_frame _ ops).2.2, found]
    rw [run]
    simp only [StoreOp.exec, Store.updateWithdrawalOutpoints, Store.updateWithdrawal_found there]
      at stored ⊢
    refine ⟨w₅, ?_, rfl⟩
    rw [stored]
    exact Table.get_put_self _ _
  obtain ⟨w₄, there, reserved⟩ := reserved
  rw [Program.run_bind, reserved]
  have branch : buildUnsignedTx svc.libs wallet wr (-1) ops = .ok unsigned := by
    simpa [buildUnsignedTx, bitcoin, Chain.not_isEVM_bitcoin] using built
  exact svc.run_signReserved keyID there branch signer assembled

end Success

/-! ## An unbounded fee -/

section Unbounded

/-- An outpoint with the index zero written with a given number of zeros after the first. -/
def paddedOutpoint (zeros : Nat) : String :=
  String.ofList (List.replicate 64 'a' ++ ':' :: List.replicate (zeros + 1) '0')

/-- An unspent output of `2 ^ 62`. -/
def heavyUTXO (zeros : Nat) : UTXO :=
  { outpoint := paddedOutpoint zeros, walletID := sampleBTCWallet.id,
    value := "4611686018427387904",
    lockState := .free }

/-- An unspent output of `2 ^ 62 - 1`. -/
def lightUTXO (zeros : Nat) : UTXO :=
  { outpoint := paddedOutpoint zeros, walletID := sampleBTCWallet.id,
    value := "4611686018427387903",
    lockState := .free }

/-- Outputs whose values add up to `2 ^ 63 - 1` after wrapping around `turns` times. -/
def overflowingRows (turns : Nat) : List UTXO :=
  (List.range (4 * turns + 1)).map heavyUTXO ++ [lightUTXO (4 * turns + 1)]

theorem paddedOutpoint_injective : Function.Injective paddedOutpoint := by
  intro i j same
  have lists := String.ofList_injective same
  simpa using congrArg List.length lists

theorem overflowingRows_distinct (turns : Nat) :
    ((overflowingRows turns).map UTXO.outpoint).Nodup := by
  have named : (overflowingRows turns).map UTXO.outpoint =
      (List.range (4 * turns + 2)).map paddedOutpoint := by
    rw [show 4 * turns + 2 = (4 * turns + 1) + 1 from rfl, List.range_succ]
    simp [overflowingRows, heavyUTXO, lightUTXO, Function.comp_def]
  rw [named]
  exact List.nodup_range.map paddedOutpoint_injective

/-- A withdrawal of `2 ^ 63 - 1`. -/
def overflowingWithdrawal : WithdrawalRequest :=
  { id := sampleID 10, walletID := sampleBTCWallet.id, toAddress := sampleBTCAddress,
    asset := "BTC", amount := "9223372036854775807", state := .whitelisted }

/-- A whitelisted withdrawal and the outputs that overflow. -/
def overflowing (turns : Nat) : World SagaCall :=
  { store := {
      wallets := Table.empty.put sampleBTCWallet
      utxos := ⟨overflowingRows turns, overflowingRows_distinct turns⟩
      withdrawals := Table.empty.put overflowingWithdrawal } }

/-- After any number of outputs of `2 ^ 62` the wrapped total is short of `2 ^ 63 - 1`; one more
than a multiple of four of them and the smaller output reach it. -/
theorem selectLoop_overflow (heavy : List UTXO) (light : UTXO)
    (each : ∀ u ∈ heavy, parseVal u.value = 2 ^ 62) (last : parseVal light.value = 2 ^ 62 - 1)
    (k : Nat) (selected : List String) (count : (k + heavy.length) % 4 = 1) :
    selectLoop (2 ^ 63 - 1) (heavy ++ [light]) selected (wrapInt64 (k * 2 ^ 62)) =
      (selected ++ (heavy ++ [light]).map UTXO.outpoint, 2 ^ 63 - 1) := by
  induction heavy generalizing k selected with
  | nil =>
    rw [List.length_nil] at count
    have start : wrapInt64 (k * 2 ^ 62) = 2 ^ 62 := by
      rw [wrapInt64_eq]
      omega
    have total : wrapInt64 (2 ^ 62 + (2 ^ 62 - 1)) = 2 ^ 63 - 1 := by decide
    rw [List.nil_append, selectLoop, start, if_neg (by decide), last, total]
    rfl
  | cons u rest ih =>
    have short : ¬(2 ^ 63 - 1 ≤ wrapInt64 (k * 2 ^ 62)) := by
      rw [wrapInt64_eq]
      omega
    have next : (k : Int) * 2 ^ 62 + 2 ^ 62 = (k + 1 : Nat) * 2 ^ 62 := by omega
    have count' : (k + 1 + rest.length) % 4 = 1 := by
      rw [List.length_cons] at count
      omega
    rw [List.cons_append, selectLoop, if_neg short, each u List.mem_cons_self, wrapInt64_add, next,
      ih (fun v member => each v (List.mem_cons_of_mem _ member)) (k + 1) _ count']
    simp

/-- The candidates in the order of the service: the outputs of `2 ^ 62`, then the smaller one. -/
theorem overflowing_order (turns : Nat) : ∃ heavy light,
    stableOrder.sort ((overflowing turns).store.listFreeUTXOs sampleBTCWallet.id) =
      heavy ++ [light] ∧
      (heavy ++ [light]).Perm (overflowingRows turns) ∧
      (∀ u ∈ heavy, parseVal u.value = 2 ^ 62) ∧ parseVal light.value = 2 ^ 62 - 1 := by
  have free : (overflowingRows turns).filter
      (fun u => u.walletID = sampleBTCWallet.id && u.lockState = .free) =
        overflowingRows turns := by
    rw [List.filter_eq_self]
    intro u member
    simp only [overflowingRows, List.mem_append, List.mem_map, List.mem_singleton] at member
    rcases member with ⟨i, -, rfl⟩ | rfl <;> simp [heavyUTXO, lightUTXO]
  have listed : ((overflowing turns).store.listFreeUTXOs sampleBTCWallet.id).Perm
      (overflowingRows turns) := by
    rw [← free]
    exact List.perm_insertionSort _ _
  let sorted := stableOrder.sort ((overflowing turns).store.listFreeUTXOs sampleBTCWallet.id)
  have perm : sorted.Perm (overflowingRows turns) := (stableOrder.perm _).trans listed
  have ordered := stableOrder.sorted ((overflowing turns).store.listFreeUTXOs sampleBTCWallet.id)
  obtain ⟨before, after, split⟩ := List.append_of_mem (perm.mem_iff.mpr
    (List.mem_append_right _ List.mem_cons_self) : lightUTXO (4 * turns + 1) ∈ sorted)
  have others : (before ++ after).Perm ((List.range (4 * turns + 1)).map heavyUTXO) := by
    rw [split] at perm
    have cons := List.perm_middle.symm.trans perm
    exact (cons.trans (List.perm_append_singleton _ _)).cons_inv
  have heavy (u : UTXO) (member : u ∈ before ++ after) : parseVal u.value = 2 ^ 62 := by
    obtain ⟨i, -, rfl⟩ := List.mem_map.mp (others.mem_iff.mp member)
    exact (by decide +kernel : parseVal "4611686018427387904" = 2 ^ 62)
  have light : parseVal (lightUTXO (4 * turns + 1)).value = 2 ^ 62 - 1 :=
    (by decide +kernel : parseVal "4611686018427387903" = 2 ^ 62 - 1)
  -- nothing comes after the smaller one, since all others are larger
  have last : after = [] := by
    refine List.eq_nil_iff_forall_not_mem.mpr fun u member => ?_
    have pairs : (before ++ lightUTXO (4 * turns + 1) :: after).Pairwise
        fun earlier later => largerValue later earlier = false := split ▸ ordered
    have pair := (List.pairwise_cons.mp (List.pairwise_append.mp pairs).2.1).1 u member
    rw [largerValue, heavy u (List.mem_append_right _ member), light] at pair
    exact absurd pair (by decide)
  subst last
  rw [List.append_nil] at others heavy
  exact ⟨before, lightUTXO (4 * turns + 1), split, split ▸ perm, heavy, light⟩

/-- The text before the first colon and the text after it. -/
theorem splitColon_append {txid : List Char} (plain : ':' ∉ txid) (rest : List Char) :
    splitColon (txid ++ ':' :: rest) = some (txid, rest) := by
  induction txid with
  | nil => rfl
  | cons c txid ih =>
    have other : c ≠ ':' := fun same => plain (same ▸ List.mem_cons_self)
    have tail : ':' ∉ txid := fun member => plain (List.mem_cons_of_mem _ member)
    simp [splitColon, other, ih tail]

/-- Any number of zeros is zero. -/
theorem parseDigits_zeros (maxVal n : Nat) :
    parseDigits maxVal (List.replicate n '0') 0 = (0, none) := by
  induction n with
  | zero => rfl
  | succ n ih =>
    have zero : digit '0' = some 0 := by decide
    simpa [List.replicate_succ, parseDigits, zero] using ih

/-- Every padded outpoint can be parsed. -/
theorem parseOutpoint_padded (zeros : Nat) :
    parseOutpoint sampleLibraries (paddedOutpoint zeros) = .ok ⟨List.replicate 32 0xaa, 0⟩ := by
  have parts : splitColon (paddedOutpoint zeros).toList =
      some (List.replicate 64 'a', List.replicate (zeros + 1) '0') := by
    rw [paddedOutpoint, String.toList_ofList]
    exact splitColon_append (by decide) _
  have hash : sampleLibraries.newHashFromStr (String.ofList (List.replicate 64 'a')) =
      .ok (List.replicate 32 0xaa) := by decide +kernel
  have index : parseUint (List.replicate (zeros + 1) '0') 32 = (0, none) := by
    rw [parseUint, if_neg (by simp)]
    exact parseDigits_zeros _ _
  simp only [parseOutpoint, parts, hash, index]

/-- Inputs of outpoints that can be parsed. -/
theorem btcInputs_ok {libs : Libraries} {ops : List String}
    (parsed : ∀ op ∈ ops, ∃ outpoint, parseOutpoint libs op = .ok outpoint) :
    ∃ inputs, btcInputs libs ops = .ok inputs ∧ inputs.length = ops.length := by
  induction ops with
  | nil => exact ⟨[], rfl, rfl⟩
  | cons op rest ih =>
    obtain ⟨outpoint, here⟩ := parsed op List.mem_cons_self
    obtain ⟨inputs, later, length⟩ := ih fun op member => parsed op (List.mem_cons_of_mem _ member)
    refine ⟨{ previousOutPoint := outpoint, sequence := 0xfffffffd } :: inputs, ?_, ?_⟩
    · simp only [btcInputs, here, later]
    · rw [List.length_cons, List.length_cons, length]

/-- Signature hashes of inputs that each have one. -/
theorem btcSigHashes_ok {libs : Libraries} {prevOuts : List (OutPoint × TxOut)} {tx : MsgTx}
    {amount : Int} {indices : List Nat} (hashed : ∀ i ∈ indices, ∃ hash,
      libs.calcWitnessSigHash (List.replicate 20 0) prevOuts tx i amount = .ok hash) :
    ∃ hashes, btcSigHashes libs prevOuts tx amount indices = .ok hashes := by
  induction indices with
  | nil => exact ⟨[], rfl⟩
  | cons i rest ih =>
    obtain ⟨hash, here⟩ := hashed i List.mem_cons_self
    obtain ⟨hashes, later⟩ := ih fun i member => hashed i (List.mem_cons_of_mem _ member)
    exact ⟨hash ++ hashes, by simp only [btcSigHashes, here, later]⟩

/-- A transaction over outpoints that can be parsed is built, and assembled with a signature
that is long enough. -/
theorem sample_builds {wr : WithdrawalRequest} {ops : List String} {amount : Int}
    (some : ops ≠ []) (parsed : ∀ op ∈ ops, ∃ outpoint,
      parseOutpoint sampleLibraries op = .ok outpoint)
    (integer : parseInt wr.amount = (amount, none)) (target : wr.toAddress = sampleBTCAddress)
    {signature : Bytes} (long : 64 * ops.length ≤ signature.length) :
    ∃ unsigned bytes, buildBTCUnsignedTx sampleLibraries wr ops = .ok unsigned ∧
      unsigned.assemble signature = .ok bytes := by
  obtain ⟨inputs, read, length⟩ := btcInputs_ok parsed
  have script : ∃ script, btcAddrScript sampleLibraries sampleBTCAddress = .ok script := by
    refine ⟨[0x00, 0x14] ++ samplePubKeyHash, ?_⟩
    decide +kernel
  obtain ⟨script, decoded⟩ := script
  let tx : MsgTx := { version := 2, txIn := inputs, txOut := [⟨amount, script⟩] }
  have message : btcMsgTx sampleLibraries wr ops = .ok tx := by
    simp [btcMsgTx, some, integer, target, decoded, read, tx]
  have hashes (prevOuts : List (OutPoint × TxOut)) (share : Int) : ∃ hashes,
      btcSigHashes sampleLibraries prevOuts tx share (List.range tx.txIn.length) = .ok hashes := by
    refine btcSigHashes_ok fun i member => ?_
    have inside : i < tx.txIn.length := List.mem_range.mp member
    refine ⟨witnessSigHash (List.replicate 20 0) tx tx.txIn[i] share, ?_⟩
    simp only [sampleLibraries, List.getElem?_eq_getElem inside]
  unfold buildBTCUnsignedTx
  simp only [message]
  split
  · rename_i err failed
    obtain ⟨payload, hashed⟩ := hashes _ _
    rw [hashed] at failed
    cases failed
  · refine ⟨_, wireSerialize (tx.witnessed signature), rfl, ?_⟩
    dsimp only
    rw [if_neg (by rw [show tx.txIn.length = ops.length from length]; omega)]
    rfl

end Unbounded

/-- No constant bounds the fee of a Bitcoin withdrawal. -/
theorem btc_fee_unbounded : ¬ ∃ bound : Int, ∀ (svc : Service) (w w' : World SagaCall) (id : UUID)
    (wr : WithdrawalRequest) (wallet : Wallet) (ops : List String) (tx : MsgTx),
    w.store.Finds id wr wallet → wallet.chain = .bitcoin →
    (∀ u ∈ w.store.utxos.rows, u.Valued) →
    (svc.constructAndSign id).Exec (step (.constructAndSign id)) w (.ok ()) w' →
    Builds svc.libs w'.store wr ops tx → w.store.fee ops tx ≤ bound := by
  rintro ⟨bound, bounded⟩
  let turns := bound.toNat + 1
  let w := overflowing turns
  obtain ⟨heavy, light, sorted, perm, each, last⟩ := overflowing_order turns
  have length : (heavy ++ [light]).length = 4 * turns + 2 := by
    rw [perm.length_eq]
    simp [overflowingRows]
  have count : (0 + heavy.length) % 4 = 1 := by
    rw [List.length_append, List.length_singleton] at length
    omega
  let ops := (heavy ++ [light]).map UTXO.outpoint
  have amount : parseInt overflowingWithdrawal.amount = (2 ^ 63 - 1, none) := by decide +kernel
  have looped : selectLoop (2 ^ 63 - 1)
      (stableOrder.sort (w.store.listFreeUTXOs sampleBTCWallet.id)) [] 0 = (ops, 2 ^ 63 - 1) := by
    have zero : wrapInt64 ((0 : Nat) * 2 ^ 62) = 0 := by decide
    have all := selectLoop_overflow heavy light each last 0 [] count
    rw [zero, List.nil_append] at all
    rw [sorted]
    exact all
  have selected : Selected sampleService.order w.store overflowingWithdrawal.walletID
      (parseInt overflowingWithdrawal.amount).1 ops (2 ^ 63 - 1) := by
    rw [amount]
    exact .of_loop looped le_rfl
  have parsed (op : String) (member : op ∈ ops) :
      ∃ outpoint, parseOutpoint sampleLibraries op = .ok outpoint := by
    obtain ⟨u, row, rfl⟩ := List.mem_map.mp member
    have padded := perm.mem_iff.mp row
    simp only [overflowingRows, List.mem_append, List.mem_map, List.mem_singleton] at padded
    rcases padded with ⟨i, -, rfl⟩ | rfl <;> exact ⟨_, parseOutpoint_padded _⟩
  have some : ops ≠ [] := by simp [ops]
  have signed : 64 * ops.length ≤ (List.replicate (64 * (4 * turns + 2)) (1 : UInt8)).length := by
    rw [List.length_replicate, List.length_map, length]
  obtain ⟨unsigned, bytes, built, assembled⟩ := sample_builds some parsed amount rfl signed
  have finds : w.store.Finds (sampleID 10) overflowingWithdrawal sampleBTCWallet := ⟨rfl, rfl⟩
  let script : Script := { signer := .ok ⟨List.replicate (64 * (4 * turns + 2)) 1, "mpc"⟩ }
  have run : ((sampleService.constructAndSign (sampleID 10)).run
      (script.handle (SagaCall.constructAndSign (sampleID 10))) w).1 = .ok () :=
    sampleService.run_constructAndSign finds rfl rfl selected built rfl rfl assembled
  have success := Program.exec_run (fun op w => script.handle_follows
    (SagaCall.constructAndSign (sampleID 10)) op w) (sampleService.constructAndSign (sampleID 10)) w
  rw [run] at success
  obtain ⟨ops', total, tx, selected', builds⟩ := constructAndSign_builds finds rfl success
  have same : ops' = ops := congrArg Prod.fst (selected'.taken.symm.trans selected.taken)
  subst same
  have heavyValue : bigSetString "4611686018427387904" = Option.some (2 ^ 62) := by decide +kernel
  have lightValue : bigSetString "4611686018427387903" = Option.some (2 ^ 62 - 1) := by
    decide +kernel
  have rows : ∀ u ∈ w.store.utxos.rows, u.Valued := by
    intro u member
    have padded : u ∈ overflowingRows turns := member
    simp only [overflowingRows, List.mem_append, List.mem_map, List.mem_singleton] at padded
    rcases padded with ⟨i, -, rfl⟩ | rfl
    · exact ⟨2 ^ 62, heavyValue, by decide⟩
    · exact ⟨2 ^ 62 - 1, lightValue, by decide⟩
  have small := bounded sampleService w _ (sampleID 10) overflowingWithdrawal sampleBTCWallet ops tx
    finds rfl rows success builds
  have output := (btcMsgTx_ok builds.built).2.1
  rw [amount] at output
  have input : w.store.inputValue ops = (4 * turns + 1 : Nat) * 2 ^ 62 + (2 ^ 62 - 1) := by
    have stored : ∀ u ∈ heavy ++ [light], u ∈ w.store.utxos.rows :=
      fun u member => perm.mem_iff.mp member
    rw [Store.inputValue_rows stored, (perm.map UTXO.amount).sum_eq]
    have heavyAmount (i : Nat) : (heavyUTXO i).amount = 2 ^ 62 := congrArg (·.getD 0) heavyValue
    have lightAmount : (lightUTXO (4 * turns + 1)).amount = 2 ^ 62 - 1 :=
      congrArg (·.getD 0) lightValue
    simp [overflowingRows, heavyAmount, lightAmount, Function.comp_def]
  rw [Store.fee, MsgTx.outputValue, output, List.sum_singleton, input] at small
  have large : bound ≤ bound.toNat := Int.self_le_toNat bound
  push_cast at small
  omega

end WalletManagement
