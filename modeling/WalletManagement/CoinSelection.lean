import WalletManagement.BitcoinFee
import Mathlib.Algebra.Order.BigOperators.Group.Finset
import Mathlib.Data.Finset.Max

/-!
# Coin selection

`SelectForAmount` takes the free unspent outputs of a wallet from the largest on until their total
reaches the amount. Taking the largest first needs the fewest: whatever other set of as many free
outputs one chooses, its total is not larger. Run alone the selection fails only when all the free
outputs together do not reach the amount, and then it has changed nothing.
-/

namespace WalletManagement

open Interaction Data Go

/-- A set with as many members as another, or fewer, has no larger sum when each member outside
the other set is worth no more than any member of it. -/
theorem sum_le_sum_of_larger {ι : Type} [DecidableEq ι] {f : ι → Int} {chosen best : Finset ι}
    (few : chosen.card ≤ best.card) (low : ∀ i ∈ best, 0 ≤ f i)
    (larger : ∀ i ∈ best, ∀ j ∈ chosen, j ∉ best → f j ≤ f i) :
    ∑ j ∈ chosen, f j ≤ ∑ i ∈ best, f i := by
  rcases best.eq_empty_or_nonempty with rfl | nonempty
  · have empty : chosen = ∅ := by simpa using few
    rw [empty]
  · obtain ⟨least, inside, smallest⟩ := best.exists_min_image f nonempty
    -- only the members that the two sets do not share matter
    apply Finset.sum_sdiff_le_sum_sdiff.mp
    have count : ((chosen \ best).card : Int) ≤ (best \ chosen).card := by
      exact_mod_cast Finset.card_sdiff_le_card_sdiff_iff.mpr few
    calc ∑ j ∈ chosen \ best, f j
        ≤ (chosen \ best).card • f least := by
          apply Finset.sum_le_card_nsmul
          intro j outside
          rw [Finset.mem_sdiff] at outside
          exact larger least inside j outside.1 outside.2
      _ ≤ (best \ chosen).card • f least := by
          rw [nsmul_eq_mul, nsmul_eq_mul]
          exact Int.mul_le_mul_of_nonneg_right count (low least inside)
      _ ≤ ∑ i ∈ best \ chosen, f i := by
          apply Finset.card_nsmul_le_sum
          intro i outside
          exact smallest i (Finset.mem_sdiff.mp outside).1

/-- A row that a selection for a wallet may take. -/
def Store.FreeOf (s : Store) (walletID : UUID) (u : UTXO) : Prop :=
  u ∈ s.utxos.rows ∧ u.walletID = walletID ∧ u.lockState = .free

/-- What all the free rows of a wallet are worth. -/
def Store.freeTotal (s : Store) (walletID : UUID) : Int :=
  ((s.listFreeUTXOs walletID).map UTXO.amount).sum

/-- The rows of a listing are distinct. -/
theorem Store.nodup_listFreeUTXOs (s : Store) (walletID : UUID) :
    (s.listFreeUTXOs walletID).Nodup := by
  apply (List.perm_insertionSort _ _).nodup_iff.mpr
  exact (List.Nodup.of_map _ s.utxos.distinct).filter _

/-- A selection that succeeded: which rows it took, for what total, and how the store changed. -/
structure ExactSelection (s s' : Store) (walletID : UUID) (amount : Int) (ops : List String)
    (total : Int) : Prop where
  /-- No outpoint is taken twice. -/
  distinct : ops.Nodup
  /-- Each outpoint is that of a free row of the wallet. -/
  free : ∀ op ∈ ops, ∃ u, s.FreeOf walletID u ∧ u.outpoint = op
  /-- The total is what the rows are worth. -/
  counted : total = s.inputValue ops
  /-- The total reaches the amount. -/
  enough : amount ≤ total
  /-- No smaller set of free rows of the wallet reaches the amount. -/
  fewest : ∀ chosen : Finset UTXO, (∀ u ∈ chosen, s.FreeOf walletID u) →
    amount ≤ ∑ u ∈ chosen, u.amount → ops.length ≤ chosen.card
  /-- Exactly the rows of the outpoints change, from free to locked at the time of the lock. -/
  locked : ∃ now utxos, s' = { s with utxos } ∧ ∀ op, utxos.get op =
    if op ∈ ops then (s.utxos.get op).map (Store.setLocked now) else s.utxos.get op

section Alone

variable {L : Type} {caller : L} {order : SortSlice largerValue} {w w' : World L} {s : Store}
  {walletID : UUID} {amount total : Int} {ops : List String}

/-- A selection run alone fails and leaves the store alone, or locks what its loop took. -/
theorem selectForAmount_cases {result : Except Err (List String × Int)}
    (execution : (selectForAmount order walletID amount).Exec (step caller) w result w') :
    (∃ ops total err, selectLoop amount (order.sort (w.store.listFreeUTXOs walletID)) [] 0 =
        (ops, total) ∧ total < amount ∧ result = .error err ∧ w'.store = w.store) ∨
      ∃ ops total now, Selected order w.store walletID amount ops total ∧
        result = .ok (ops, total) ∧ w'.store = (w.store.lockUTXOs now ops).2 := by
  obtain ⟨_, middle, same, rest⟩ := exec_store_bind execution
  simp only [StoreOp.exec] at rest same
  rcases looped : selectLoop amount (order.sort (w.store.listFreeUTXOs walletID)) [] 0 with
    ⟨ops, total⟩
  simp only [looped] at rest
  by_cases short : total < amount
  · rw [if_pos short] at rest
    obtain ⟨rfl, rfl⟩ := rest
    exact .inl ⟨ops, total, _, rfl, short, rfl, same⟩
  · rw [if_neg short] at rest
    obtain ⟨now, last, store, rest⟩ := exec_store_bind rest
    have selected := Selected.of_loop looped (not_lt.mp short)
    simp only [StoreOp.exec, same, looped, selected.locked] at rest store
    obtain ⟨rfl, rfl⟩ := rest
    exact .inr ⟨ops, total, now, selected, rfl, store⟩

/-- The loop reaches the amount exactly when all the free rows together do. -/
theorem enough_iff_freeTotal (valued : ∀ u ∈ s.listFreeUTXOs walletID, u.Valued)
    (fits : s.freeTotal walletID < 2 ^ 63)
    (looped : selectLoop amount (order.sort (s.listFreeUTXOs walletID)) [] 0 = (ops, total)) :
    amount ≤ total ↔ amount ≤ s.freeTotal walletID := by
  obtain ⟨taken, rest, split, -, counted, -, stopped⟩ := selectLoop_free valued fits looped
  have perm := order.perm (s.listFreeUTXOs walletID)
  have sum : s.freeTotal walletID = total + (rest.map UTXO.amount).sum := by
    unfold Store.freeTotal
    rw [← (perm.map UTXO.amount).sum_eq, split, List.map_append, List.sum_append, counted]
  have low : 0 ≤ (rest.map UTXO.amount).sum := by
    apply List.sum_nonneg
    intro a here
    obtain ⟨u, inside, rfl⟩ := List.mem_map.mp here
    have candidate : u ∈ order.sort (s.listFreeUTXOs walletID) := by
      rw [split]
      exact List.mem_append_right taken inside
    exact (Store.parseVal_free valued fits u (perm.mem_iff.mp candidate)).2
  constructor
  · omega
  · intro all
    rcases stopped with reached | rfl
    · exact reached
    · simpa [sum] using all

/-- No set of free rows with fewer members than a selection reaches the amount. -/
theorem Selected.fewest (selected : Selected order s walletID amount ops total)
    (valued : ∀ u ∈ s.listFreeUTXOs walletID, u.Valued) (fits : s.freeTotal walletID < 2 ^ 63)
    (chosen : Finset UTXO) (free : ∀ u ∈ chosen, s.FreeOf walletID u)
    (reaches : amount ≤ ∑ u ∈ chosen, u.amount) : ops.length ≤ chosen.card := by
  obtain ⟨taken, rest, split, named, -, least, -⟩ := selectLoop_free valued fits selected.taken
  rw [named, List.length_map]
  by_contra! few
  have nonempty : taken ≠ [] := by
    rintro rfl
    exact Nat.not_lt_zero _ few
  obtain ⟨before, last, rfl⟩ : ∃ before last, taken = before ++ [last] :=
    ⟨taken.dropLast, taken.getLast nonempty, (List.dropLast_append_getLast nonempty).symm⟩
  have short := least before last rfl
  have perm := order.perm (s.listFreeUTXOs walletID)
  rw [List.append_assoc] at split
  have candidates : (before ++ ([last] ++ rest)).Nodup := by
    rw [← split]
    exact perm.nodup_iff.mpr (s.nodup_listFreeUTXOs walletID)
  have distinct : before.Nodup := (List.nodup_append.mp candidates).1
  -- all the candidates outside the part taken before the last step come after it
  have bound : ∑ u ∈ chosen, u.amount ≤ before.toFinset.sum UTXO.amount := by
    apply sum_le_sum_of_larger
    · rw [List.toFinset_card_of_nodup distinct]
      simpa [Nat.lt_succ_iff] using few
    · intro u early
      have candidate : u ∈ order.sort (s.listFreeUTXOs walletID) := by
        rw [split]
        exact List.mem_append_left _ (List.mem_toFinset.mp early)
      exact (Store.parseVal_free valued fits u (perm.mem_iff.mp candidate)).2
    · intro u early v picked later
      have candidate : v ∈ order.sort (s.listFreeUTXOs walletID) :=
        perm.mem_iff.mpr (Store.mem_listFreeUTXOs.mpr (free v picked))
      rw [split] at candidate
      have late := (List.mem_append.mp candidate).resolve_left fun inside =>
        later (List.mem_toFinset.mpr inside)
      exact amount_le_of_earlier valued fits split (List.mem_toFinset.mp early) late
  rw [List.sum_toFinset UTXO.amount distinct] at bound
  omega

/-- What a selection takes is exact. -/
theorem Selected.exact (selected : Selected order s walletID amount ops total)
    (valued : ∀ u ∈ s.listFreeUTXOs walletID, u.Valued) (fits : s.freeTotal walletID < 2 ^ 63)
    (now : Int) : ExactSelection s (s.lockUTXOs now ops).2 walletID amount ops total := by
  obtain ⟨taken, rest, split, named, counted, -, -⟩ := selectLoop_free valued fits selected.taken
  have perm := order.perm (s.listFreeUTXOs walletID)
  have free (u : UTXO) (here : u ∈ taken) : s.FreeOf walletID u := by
    have candidate : u ∈ order.sort (s.listFreeUTXOs walletID) := by
      rw [split]
      exact List.mem_append_left rest here
    exact Store.mem_listFreeUTXOs.mp (perm.mem_iff.mp candidate)
  have rows (op : String) (member : op ∈ ops) : ∃ u, s.FreeOf walletID u ∧ u.outpoint = op := by
    rw [named] at member
    obtain ⟨u, here, rfl⟩ := List.mem_map.mp member
    exact ⟨u, free u here, rfl⟩
  have distinct : taken.Nodup := by
    have candidates := perm.nodup_iff.mpr (s.nodup_listFreeUTXOs walletID)
    rw [split] at candidates
    exact (List.nodup_append.mp candidates).1
  have unlocked : ∀ op ∈ ops, ∃ u, s.utxos.get op = some u ∧ u.lockState = .free := by
    intro op member
    obtain ⟨u, ⟨stored, -, state⟩, rfl⟩ := rows op member
    exact ⟨u, Table.get_of_mem stored, state⟩
  refine ⟨?_, rows, ?_, selected.enough, selected.fewest valued fits,
    ⟨now, (Store.lockUTXOs_free unlocked).2⟩⟩
  · -- rows with one outpoint are one row of the table
    rw [named]
    apply distinct.map_on
    intro u here v there same
    have found : s.utxos.get u.outpoint = some u := Table.get_of_mem (free u here).1
    rw [same, Table.get_of_mem (free v there).1] at found
    exact (Option.some.inj found).symm
  · rw [named, Store.inputValue_rows fun u here => (free u here).1]
    exact counted

end Alone

/-- `SelectForAmount` run alone returns, and it succeeds exactly when the free rows of the wallet
reach the amount. It then takes exactly what it says, with the fewest inputs, and otherwise leaves
the store as it was. -/
theorem coin_selection_exact {L : Type} (caller : L) (order : SortSlice largerValue) (w : World L)
    (walletID : UUID) (amount : Int)
    (valued : ∀ u ∈ w.store.listFreeUTXOs walletID, u.Valued)
    (fits : w.store.freeTotal walletID < 2 ^ 63) :
    (∃ result w', (selectForAmount order walletID amount).Exec (step caller) w result w') ∧
      ∀ result w', (selectForAmount order walletID amount).Exec (step caller) w result w' →
        (result.isOk = true ↔ amount ≤ w.store.freeTotal walletID) ∧
        (∀ ops total, result = .ok (ops, total) →
          ExactSelection w.store w'.store walletID amount ops total) ∧
        ∀ err, result = .error err → w'.store = w.store := by
  refine ⟨⟨_, _, Program.exec_run (fun op w => (accepting 0).handle_follows caller op w) _ w⟩,
    fun result w' execution => ?_⟩
  rcases selectForAmount_cases execution with
    ⟨ops, total, err, looped, short, rfl, same⟩ | ⟨ops, total, now, selected, rfl, store⟩
  · have reached := enough_iff_freeTotal valued fits looped
    refine ⟨?_, fun _ _ impossible => ?_, fun _ _ => same⟩
    · constructor
      · intro impossible
        cases impossible
      · omega
    · cases impossible
  · have reached := enough_iff_freeTotal valued fits selected.taken
    have enough := selected.enough
    refine ⟨?_, fun ops' total' answer => ?_, fun _ impossible => ?_⟩
    · constructor
      · omega
      · intro _
        rfl
    · cases answer
      rw [store]
      exact selected.exact valued fits now
    · cases impossible

/-- A Bitcoin wallet with three free outputs. -/
def sampleCoins : World (Fin 2) :=
  { store := { utxos := ((Table.empty.put (sampleUTXO "2000" '0')).put
      (sampleUTXO "5000" '1')).put (sampleUTXO "4000" '2') } }

/-- For 8000 satoshi the two largest outputs are taken, and no single one would do. -/
theorem coin_selection_exact_coins :
    ∃ w', (selectForAmount stableOrder sampleBTCWallet.id 8000).Exec (step firstCaller) sampleCoins
        (.ok ([(sampleUTXO "5000" '1').outpoint, (sampleUTXO "4000" '2').outpoint], 9000)) w' ∧
      ExactSelection sampleCoins.store w'.store sampleBTCWallet.id 8000
        [(sampleUTXO "5000" '1').outpoint, (sampleUTXO "4000" '2').outpoint] 9000 := by
  have execution := Program.exec_run
    (fun op w => (accepting 0).handle_follows firstCaller op w)
    (selectForAmount stableOrder sampleBTCWallet.id 8000) sampleCoins
  have answer : ((selectForAmount stableOrder sampleBTCWallet.id 8000).run
      ((accepting 0).handle firstCaller) sampleCoins).1 =
      .ok ([(sampleUTXO "5000" '1').outpoint, (sampleUTXO "4000" '2').outpoint], 9000) := by
    decide +kernel
  rw [answer] at execution
  have coins : (∀ u ∈ sampleCoins.store.listFreeUTXOs sampleBTCWallet.id,
        ∃ v ∈ [2000, 5000, 4000], bigSetString u.value = some v) ∧
      sampleCoins.store.freeTotal sampleBTCWallet.id < 2 ^ 63 := by decide +kernel
  obtain ⟨all, fits⟩ := coins
  have valued : ∀ u ∈ sampleCoins.store.listFreeUTXOs sampleBTCWallet.id, u.Valued := by
    intro u free
    obtain ⟨v, listed, integer⟩ := all u free
    have low : ∀ v ∈ [(2000 : Int), 5000, 4000], 0 ≤ v := by decide
    exact ⟨v, integer, low v listed⟩
  exact ⟨_, execution, ((coin_selection_exact firstCaller stableOrder sampleCoins sampleBTCWallet.id
    8000 valued fits).2 _ _ execution).2.1 _ _ rfl⟩

end WalletManagement
