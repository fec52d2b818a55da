import WalletManagement.Derivation
import WalletManagement.Interaction.Program

/-!
# The cache of the derivers

The derivers look an address up in a cache before they derive it, under a key that is formatted
from the extended public key and the indices. The chain and the network are not part of the key.
The cache may lose entries at any time, and its methods may fail; it holds nothing that a deriver
has not written. Any number of derivers share it.

What a deriver returns then does not depend on the cache. The keys determine what the derivation
depends on, and an entry is only ever the result of that derivation.
-/

namespace WalletManagement

open Interaction

/-! ## The cache -/

/-- The calls of the derivers to `cache.Cache`. -/
inductive CacheOp where
  | get (key : String)
  | set (key value : String) (ttl : Int)
  deriving DecidableEq

/-- The answers of a call. A key that is not there is no error. -/
abbrev CacheOp.Ans : CacheOp → Type
  | .get _ => Except Err (Option String)
  | .set _ _ _ => Except Err Unit

/-- The signature of the derivers. -/
abbrev cacheCalls : Signature := ⟨CacheOp, CacheOp.Ans⟩

/-- Programs of the derivers. -/
abbrev CacheProg (α : Type) : Type := Program cacheCalls α

/-- What a cache holds. -/
abbrev CacheEntries : Type := String → Option String

/-- The meaning of the calls. `Get` finds an entry, or nothing, or fails; `Set` may fail before or
after it writes; and other entries may be lost meanwhile. -/
def cacheStep : Transition cacheCalls CacheEntries
  | .get key, s, answer, s' => (∀ v, answer = .ok (some v) → s key = some v) ∧
      ∀ k v, s' k = some v → s k = some v
  | .set key value _, s, _, s' => ∀ k v, s' k = some v → s k = some v ∨ k = key ∧ v = value

/-- No cache at all: nothing is found, and nothing is kept. -/
def noCache : (op : CacheOp) → Unit → op.Ans × Unit
  | .get _, _ => (.ok none, ())
  | .set _ _ _, _ => (.ok (), ())

/-! ## The derivers -/

/-- `chaincfg.Params`, by its name. -/
structure NetParams where
  name : String
  deriving DecidableEq

/-- `EVMDeriver`. -/
structure EVMDeriver where
  xpub : String
  ttl : Int := 0
  deriving DecidableEq

/-- `BTCDeriver`. -/
structure BTCDeriver where
  xpub : String
  net : NetParams
  ttl : Int := 0
  deriving DecidableEq

/-- `SolanaDeriver`. -/
structure SolanaDeriver where
  pubkeyBase58 : String
  ttl : Int := 0
  deriving DecidableEq

/-- The key of `EVMDeriver.DeriveAt`. -/
def evmCacheKey (xpub : String) (index : Int) : String :=
  "deriv:evm:" ++ xpub ++ ":" ++ index.repr

/-- The key of `BTCDeriver.DeriveAt`. -/
def btcCacheKey (xpub : String) (change index : Int) : String :=
  "deriv:btc:" ++ xpub ++ ":" ++ change.repr ++ ":" ++ index.repr

/-- The key of `SolanaDeriver.DeriveAt`. -/
def solanaCacheKey (pubkeyBase58 : String) : String := "deriv:sol:" ++ pubkeyBase58

/-- The part that the three methods `DeriveAt` share: look the address up, and otherwise derive it
and write it to the cache, ignoring the error of `Set`. A failed `Get` is a miss. -/
def memoize (key : String) (ttl : Int) (derived : Option (Except Err String)) :
    CacheProg (Option (Except Err String)) := do
  match ← Program.perform (S := cacheCalls) (.get key) with
  | .ok (some v) => pure (some (.ok v))
  | _ =>
    match derived with
    | some (.ok addr) =>
      let _ ← Program.perform (S := cacheCalls) (.set key addr ttl)
      pure (some (.ok addr))
    | other => pure other

section Derivers

variable (libs : DerivationLibraries) (chain : Chain) (index change : Int)

/-- `EVMDeriver.DeriveAt`. -/
def EVMDeriver.deriveAt (d : EVMDeriver) : CacheProg (Option (Except Err DeriveResult)) :=
  if chain.isEVM = false then
    pure (some (.error
      ⟨"non-EVM chain " ++ libs.quote chain.name ++ " passed to EVMDeriver", none⟩))
  else if change ≠ 0 then pure (some (.error ⟨"EVM change chain must be 0", none⟩))
  else if index < 0 then pure (some (.error ⟨"EVM index must be >= 0", none⟩))
  else do
    let found ← memoize (evmCacheKey d.xpub index) d.ttl (evmDeriveUncached libs d.xpub index)
    pure (found.map (·.map fun addr =>
      ⟨addr, "m/44'/60'/0'/0/" ++ index.repr, index, change⟩))

/-- `BTCDeriver.DeriveAt`. -/
def BTCDeriver.deriveAt (d : BTCDeriver) : CacheProg (Option (Except Err DeriveResult)) :=
  if chain ≠ .bitcoin then
    pure (some (.error
      ⟨"non-BTC chain " ++ libs.quote chain.name ++ " passed to BTCDeriver", none⟩))
  else if change ≠ 0 ∧ change ≠ 1 then
    pure (some (.error ⟨"BTC change chain must be 0 or 1", none⟩))
  else if index < 0 then pure (some (.error ⟨"BTC index must be >= 0", none⟩))
  else do
    let found ← memoize (btcCacheKey d.xpub change index) d.ttl
      (some (btcDeriveUncached libs d.xpub index change))
    pure (found.map (·.map fun addr =>
      ⟨addr, "m/84'/0'/0'/" ++ change.repr ++ "/" ++ index.repr, index, change⟩))

/-- `SolanaDeriver.DeriveAt`. -/
def SolanaDeriver.deriveAt (d : SolanaDeriver) : CacheProg (Option (Except Err DeriveResult)) :=
  if chain ≠ .solana then
    pure (some (.error
      ⟨"non-Solana chain " ++ libs.quote chain.name ++ " passed to SolanaDeriver", none⟩))
  else do
    let found ← memoize (solanaCacheKey d.pubkeyBase58) d.ttl (some (.ok d.pubkeyBase58))
    pure (found.map (·.map fun addr => ⟨addr, "m/44'/501'/0'/0'", 0, 0⟩))

end Derivers

/-- A call of `DeriveAt` on some deriver. The identifier of the wallet is ignored by all of them. -/
inductive DeriveCall where
  | evm (d : EVMDeriver) (chain : Chain) (index change : Int)
  | btc (d : BTCDeriver) (chain : Chain) (index change : Int)
  | solana (d : SolanaDeriver) (chain : Chain) (index change : Int)
  deriving DecidableEq

/-- The program of a call. -/
def DeriveCall.body (libs : DerivationLibraries) :
    DeriveCall → CacheProg (Option (Except Err DeriveResult))
  | .evm d chain index change => d.deriveAt libs chain index change
  | .btc d chain index change => d.deriveAt libs chain index change
  | .solana d chain _ _ => d.deriveAt libs chain

/-- The address that a call derives. Nothing is looked up. -/
def DeriveCall.derives (libs : DerivationLibraries) : DeriveCall → Option (Except Err String)
  | .evm d _ index _ => evmDeriveUncached libs d.xpub index
  | .btc d _ index change => some (btcDeriveUncached libs d.xpub index change)
  | .solana d _ _ _ => some (.ok d.pubkeyBase58)

/-- What a call returns with no cache at all. -/
def DeriveCall.uncached (libs : DerivationLibraries) (call : DeriveCall) :
    Option (Except Err DeriveResult) :=
  ((call.body libs).run noCache ()).1

/-! ## Keys -/

/-- The last separator splits two texts that agree when neither last part contains it. -/
theorem separator_append_inj {separator : Char} {left right rest rest' : List Char}
    (same : left ++ separator :: rest = right ++ separator :: rest')
    (clean : separator ∉ rest) (clean' : separator ∉ rest') : left = right ∧ rest = rest' := by
  have reversed := congrArg List.reverse same
  simp only [List.reverse_append, List.reverse_cons, List.append_assoc, List.singleton_append]
    at reversed
  obtain ⟨rests, lefts⟩ := append_separator_inj reversed (by simpa using clean)
    (by simpa using clean')
  exact ⟨List.reverse_injective lefts, List.reverse_injective rests⟩

/-- A number at the end of a text, after a colon, splits off. -/
theorem append_repr_inj {left right : String} {v v' : Int}
    (same : left ++ ":" ++ v.repr = right ++ ":" ++ v'.repr) : left = right ∧ v = v' := by
  have clean (v : Int) : ':' ∉ v.repr.toList := fun member => by
    rcases Go.mem_repr member with digit | minus
    · cases digit
    · cases minus
  have chars := String.toList_inj.mpr same
  simp only [String.toList_append, List.append_assoc] at chars
  obtain ⟨lefts, numbers⟩ := separator_append_inj chars (clean v) (clean v')
  exact ⟨String.toList_inj.mp lefts, Go.repr_injective (String.toList_inj.mp numbers)⟩

/-- Two texts with the same beginning. -/
theorem append_left_inj {front left right : String} (same : front ++ left = front ++ right) :
    left = right := by
  have chars := String.toList_inj.mpr same
  simp only [String.toList_append, List.append_cancel_left_eq] at chars
  exact String.toList_inj.mp chars

/-- The key of an EVM address determines the extended public key and the index. -/
theorem evmCacheKey_inj {xpub xpub' : String} {index index' : Int}
    (same : evmCacheKey xpub index = evmCacheKey xpub' index') : xpub = xpub' ∧ index = index' := by
  obtain ⟨fronts, indices⟩ := append_repr_inj same
  exact ⟨append_left_inj fronts, indices⟩

/-- The key of a Bitcoin address determines the extended public key and the indices. -/
theorem btcCacheKey_inj {xpub xpub' : String} {change change' index index' : Int}
    (same : btcCacheKey xpub change index = btcCacheKey xpub' change' index') :
    xpub = xpub' ∧ change = change' ∧ index = index' := by
  obtain ⟨rest, indices⟩ := append_repr_inj same
  obtain ⟨fronts, changes⟩ := append_repr_inj rest
  exact ⟨append_left_inj fronts, changes, indices⟩

/-- A character of the beginning of a text. -/
theorem char_of_front {front rest : String} {n : Nat} (inside : n < front.toList.length) :
    (front ++ rest).toList[n]? = front.toList[n]? := by
  rw [String.toList_append, List.getElem?_append_left inside]

/-- The character after the first colon tells the kinds of keys apart. -/
theorem cacheKeys_apart (xpub xpub' pubkey : String) (index change index' : Int) :
    evmCacheKey xpub index ≠ btcCacheKey xpub' change index' ∧
      evmCacheKey xpub index ≠ solanaCacheKey pubkey ∧
      btcCacheKey xpub' change index' ≠ solanaCacheKey pubkey := by
  obtain ⟨rest, evmFront⟩ : ∃ rest, evmCacheKey xpub index = "deriv:evm:" ++ rest := by
    unfold evmCacheKey
    rw [String.append_assoc, String.append_assoc]
    exact ⟨_, rfl⟩
  obtain ⟨rest', btcFront⟩ : ∃ rest, btcCacheKey xpub' change index' = "deriv:btc:" ++ rest := by
    unfold btcCacheKey
    rw [String.append_assoc, String.append_assoc, String.append_assoc, String.append_assoc]
    exact ⟨_, rfl⟩
  have evm : ("deriv:evm:" ++ rest).toList[6]? = some 'e' := char_of_front (by decide)
  have btc : ("deriv:btc:" ++ rest').toList[6]? = some 'b' := char_of_front (by decide)
  have solana : ("deriv:sol:" ++ pubkey).toList[6]? = some 's' := char_of_front (by decide)
  rw [evmFront, btcFront, solanaCacheKey]
  refine ⟨fun same => ?_, fun same => ?_, fun same => ?_⟩
  · rw [same, btc] at evm
    cases evm
  · rw [same, solana] at evm
    cases evm
  · rw [same, solana] at btc
    cases btc

/-! ## Entries -/

/-- An entry is what every derivation under its key gives. -/
structure Derived (libs : DerivationLibraries) (key value : String) : Prop where
  evm : ∀ xpub index, key = evmCacheKey xpub index →
    evmDeriveUncached libs xpub index = some (.ok value)
  btc : ∀ xpub change index, key = btcCacheKey xpub change index →
    btcDeriveUncached libs xpub index change = .ok value
  solana : ∀ pubkey, key = solanaCacheKey pubkey → pubkey = value

/-- Every entry of the cache is what the derivations under its key give. -/
def AllDerived (libs : DerivationLibraries) (s : CacheEntries) : Prop :=
  ∀ key value, s key = some value → Derived libs key value

section Transparent

variable {libs : DerivationLibraries}

theorem derived_evm {xpub value : String} {index : Int} :
    Derived libs (evmCacheKey xpub index) value ↔
      evmDeriveUncached libs xpub index = some (.ok value) := by
  constructor
  · intro entry
    exact entry.evm xpub index rfl
  · intro derived
    refine ⟨fun xpub' index' same => ?_, fun xpub' change index' same => ?_, fun pubkey same => ?_⟩
    · obtain ⟨rfl, rfl⟩ := evmCacheKey_inj same
      exact derived
    · exact absurd same (cacheKeys_apart xpub xpub' "" index change index').1
    · exact absurd same (cacheKeys_apart xpub "" pubkey index 0 0).2.1

theorem derived_btc {xpub value : String} {change index : Int} :
    Derived libs (btcCacheKey xpub change index) value ↔
      btcDeriveUncached libs xpub index change = .ok value := by
  constructor
  · intro entry
    exact entry.btc xpub change index rfl
  · intro derived
    refine ⟨fun xpub' index' same => ?_, fun xpub' change' index' same => ?_, fun pubkey same => ?_⟩
    · exact absurd same.symm (cacheKeys_apart xpub' xpub "" index' change index).1
    · obtain ⟨rfl, rfl, rfl⟩ := btcCacheKey_inj same
      exact derived
    · exact absurd same (cacheKeys_apart "" xpub pubkey 0 change index).2.2

theorem derived_solana {pubkey value : String} :
    Derived libs (solanaCacheKey pubkey) value ↔ pubkey = value := by
  constructor
  · intro entry
    exact entry.solana pubkey rfl
  · intro derived
    refine ⟨fun xpub index same => ?_, fun xpub change index same => ?_, fun pubkey' same => ?_⟩
    · exact absurd same.symm (cacheKeys_apart xpub "" pubkey index 0 0).2.1
    · exact absurd same.symm (cacheKeys_apart "" xpub pubkey 0 change index).2.2
    · rw [← append_left_inj same]
      exact derived

/-! ## Transparency -/

/-- From every cache of derived entries, a program returns what it returns with no cache, and leaves
only derived entries. -/
def Transparent (libs : DerivationLibraries) {α : Type} (program : CacheProg α) : Prop :=
  ∀ s, AllDerived libs s → program.Wlp cacheStep
    (fun value s' => value = (program.run noCache ()).1 ∧ AllDerived libs s') s

theorem Transparent.pure {α : Type} (value : α) :
    Transparent libs (Pure.pure value : CacheProg α) := fun _ entries => ⟨rfl, entries⟩

/-- What is done with the value of a transparent program does not matter. -/
theorem Transparent.map {α β : Type} {program : CacheProg α}
    (transparent : Transparent libs program)
    (change : α → β) : Transparent libs (program >>= fun value => Pure.pure (change value)) := by
  intro s entries
  refine (transparent s entries).bind fun value s' => ?_
  rintro ⟨rfl, entries'⟩
  refine ⟨?_, entries'⟩
  rw [Program.run_bind]
  rfl

/-- Without a cache the derivation is made. -/
theorem run_memoize (key : String) (ttl : Int) (derived : Option (Except Err String)) :
    ((memoize key ttl derived).run noCache ()).1 = derived := by
  rcases derived with _ | _ | _ <;> rfl

/-- A lookup is transparent when the entries under its key are the results of its derivation. -/
theorem memoize_transparent {key : String} (ttl : Int) {derived : Option (Except Err String)}
    (entry : ∀ value, Derived libs key value ↔ derived = some (.ok value)) :
    Transparent libs (memoize key ttl derived) := by
  intro s entries
  rw [run_memoize]
  refine Program.Wlp.perform_bind fun answer s' moved => ?_
  obtain ⟨hit, kept⟩ := moved
  have entries' : AllDerived libs s' := fun k v found => entries k v (kept k v found)
  split
  · rename_i v
    have found := entries key v (hit v rfl)
    exact ⟨((entry v).mp found).symm, entries'⟩
  · split
    · rename_i addr
      refine Program.Wlp.perform_bind fun _ s'' written => ⟨rfl, fun k v found => ?_⟩
      rcases written k v found with old | ⟨rfl, rfl⟩
      · exact entries' k v old
      · exact (entry v).mpr rfl
    · exact ⟨rfl, entries'⟩

theorem EVMDeriver.deriveAt_transparent (d : EVMDeriver) (chain : Chain) (index change : Int) :
    Transparent libs (d.deriveAt libs chain index change) := by
  unfold EVMDeriver.deriveAt
  split
  · exact .pure _
  · split
    · exact .pure _
    · split
      · exact .pure _
      · exact (memoize_transparent d.ttl fun value => derived_evm).map _

theorem BTCDeriver.deriveAt_transparent (d : BTCDeriver) (chain : Chain) (index change : Int) :
    Transparent libs (d.deriveAt libs chain index change) := by
  have entry (value : String) : Derived libs (btcCacheKey d.xpub change index) value ↔
      some (btcDeriveUncached libs d.xpub index change) = some (.ok value) := by
    rw [derived_btc, Option.some_inj]
  unfold BTCDeriver.deriveAt
  split
  · exact .pure _
  · split
    · exact .pure _
    · split
      · exact .pure _
      · exact (memoize_transparent d.ttl entry).map _

theorem SolanaDeriver.deriveAt_transparent (d : SolanaDeriver) (chain : Chain) :
    Transparent libs (d.deriveAt libs chain) := by
  have entry (value : String) : Derived libs (solanaCacheKey d.pubkeyBase58) value ↔
      (some (.ok d.pubkeyBase58) : Option (Except Err String)) = some (.ok value) := by
    rw [derived_solana, Option.some_inj, Except.ok.injEq]
  unfold SolanaDeriver.deriveAt
  split
  · exact .pure _
  · exact (memoize_transparent d.ttl entry).map _

theorem DeriveCall.transparent (call : DeriveCall) : Transparent libs (call.body libs) := by
  cases call with
  | evm d chain index change => exact d.deriveAt_transparent chain index change
  | btc d chain index change => exact d.deriveAt_transparent chain index change
  | solana d chain _ _ => exact d.deriveAt_transparent chain

/-- The answers that the rotation policy expects of the deriver of a call. -/
def DeriveCall.Expects (quote : String → String) : DeriveCall → Except Err DeriveResult → Prop
  | .evm _ chain index change => Deriver.evm.MayDerive quote chain index change
  | .btc _ chain index change => Deriver.btc.MayDerive quote chain index change
  | .solana _ chain index change => Deriver.solana.MayDerive quote chain index change

/-- The answer of a call that derives an address. -/
def DeriveCall.answer (quote : String → String) :
    DeriveCall → Except Err String → Except Err DeriveResult
  | .evm _ chain index change, derived => evmDeriveAt quote derived chain index change
  | .btc _ chain index change, derived => btcDeriveAt quote derived chain index change
  | .solana d chain _ _, _ => solanaDeriveAt quote d.pubkeyBase58 chain

/-- Without a cache a call answers with what it derives, unless its checks already fail. -/
theorem DeriveCall.uncached_cases (libs : DerivationLibraries) (call : DeriveCall) :
    call.uncached libs = (call.derives libs).map (call.answer libs.quote) ∨
      ∀ derived, call.uncached libs = some (call.answer libs.quote derived) := by
  cases call with
  | evm d chain index change =>
    simp only [uncached, body, EVMDeriver.deriveAt, answer, evmDeriveAt, derives]
    split_ifs with other changed negative
    · exact .inr fun _ => rfl
    · exact .inr fun _ => rfl
    · exact .inr fun _ => rfl
    · refine .inl ?_
      rw [Program.run_bind, run_memoize]
      cases evmDeriveUncached libs d.xpub index with
      | none => rfl
      | some derived =>
        simp only [Option.map_some, answer, evmDeriveAt, if_neg other, if_neg changed,
          if_neg negative]
        cases derived <;> rfl
  | btc d chain index change =>
    simp only [uncached, body, BTCDeriver.deriveAt, answer, btcDeriveAt, derives]
    split_ifs with other changed negative
    · exact .inr fun _ => rfl
    · exact .inr fun _ => rfl
    · exact .inr fun _ => rfl
    · refine .inl ?_
      rw [Program.run_bind, run_memoize]
      simp only [Option.map_some, answer, btcDeriveAt, if_neg other, if_neg changed,
        if_neg negative]
      cases btcDeriveUncached libs d.xpub index change <;> rfl
  | solana d chain index change =>
    refine .inr fun _ => ?_
    simp only [uncached, body, SolanaDeriver.deriveAt, answer, solanaDeriveAt]
    split_ifs
    · rfl
    · rw [Program.run_bind, run_memoize]
      rfl

/-- A call that does not panic returns an answer that the rotation policy expects. -/
theorem DeriveCall.expects_uncached {call : DeriveCall} {answer : Except Err DeriveResult}
    (returned : call.uncached libs = some answer) : call.Expects libs.quote answer := by
  have expected (derived : Except Err String) :
      call.Expects libs.quote (call.answer libs.quote derived) := by
    cases call <;> exact ⟨_, rfl⟩
  rcases call.uncached_cases libs with derives | refused
  · obtain ⟨derived, -, rfl⟩ := Option.map_eq_some_iff.mp (derives.symm.trans returned)
    exact expected derived
  · obtain rfl := Option.some.inj ((refused (.ok "")).symm.trans returned)
    exact expected _

/-- Complete calls of `DeriveAt` on any derivers, one after the other. -/
abbrev DeriveRuns (libs : DerivationLibraries) : CacheEntries → CacheEntries → Prop :=
  Runs (fun _ => cacheStep) (DeriveCall.body libs) fun _ _ => True

/-- Every call leaves derived entries. -/
theorem allDerived_of_runs {start s : CacheEntries} (entries : AllDerived libs start)
    (history : DeriveRuns libs start s) : AllDerived libs s := by
  induction history with
  | refl => exact entries
  | tail _ last ih =>
    obtain ⟨call, value, -, execution⟩ := last
    exact ((Program.wlp_iff_exec _ _ _).mp (call.transparent _ ih) _ _ execution).2

end Transparent

/-- After every sequence of `DeriveAt` calls on any EVM, Bitcoin and Solana derivers that share a
cache, with entries lost at any time and any failures of `Get` and `Set`, every call returns the
result or error that it returns with no cache at all, and that is the answer for the address that
its deriver derives from its own key. -/
theorem derivation_cache_transparent (libs : DerivationLibraries) {s s' : CacheEntries}
    (history : DeriveRuns libs (fun _ => none) s) {call : DeriveCall}
    {answer : Option (Except Err DeriveResult)}
    (called : (call.body libs).Exec cacheStep s answer s') :
    answer = call.uncached libs ∧ ∀ derived, call.derives libs = some derived →
      answer = some (call.answer libs.quote derived) := by
  have empty : AllDerived libs fun _ => none := fun _ _ found => by cases found
  have entries := allDerived_of_runs empty history
  have same : answer = call.uncached libs :=
    ((Program.wlp_iff_exec _ _ _).mp (call.transparent s entries) _ _ called).1
  refine ⟨same, fun derived derives => same.trans ?_⟩
  rcases call.uncached_cases libs with answered | refused
  · rw [answered, derives]
    rfl
  · exact refused derived

/-! ## A run -/

/-- A cache that loses nothing and does not fail. -/
def memCache : (op : CacheOp) → CacheEntries → op.Ans × CacheEntries
  | .get key, s => (.ok (s key), s)
  | .set key value _, s => (.ok (), Function.update s key (some value))

theorem memCache_follows (op : CacheOp) (s : CacheEntries) :
    cacheStep op s (memCache op s).1 (memCache op s).2 := by
  cases op with
  | get key => exact ⟨fun v found => Except.ok.inj found, fun _ _ found => found⟩
  | set key value ttl =>
    intro k v found
    change Function.update s key (some value) k = some v at found
    by_cases same : k = key
    · rw [same, Function.update_self] at found
      exact .inr ⟨same, (Option.some.inj found).symm⟩
    · rw [Function.update_of_ne same] at found
      exact .inl found

/-- The address of the system program as a wallet's. -/
def sampleSolanaCall : DeriveCall :=
  .solana ⟨"11111111111111111111111111111111", 0⟩ .solana 0 0

/-- The cache after a first call. -/
def sampleCache : CacheEntries :=
  ((sampleSolanaCall.body sampleDerivation).run memCache fun _ => none).2

/-- The second call finds the entry that the first one wrote, and returns what it would have
derived. -/
theorem derivation_cache_transparent_hit :
    DeriveRuns sampleDerivation (fun _ => none) sampleCache ∧
      sampleCache (solanaCacheKey "11111111111111111111111111111111") =
        some "11111111111111111111111111111111" ∧
      ((sampleSolanaCall.body sampleDerivation).run memCache sampleCache).1 =
        sampleSolanaCall.uncached sampleDerivation ∧
      ((sampleSolanaCall.body sampleDerivation).run memCache sampleCache).1 =
        some (.ok ⟨"11111111111111111111111111111111", "m/44'/501'/0'/0'", 0, 0⟩) := by
  have first := Program.exec_run memCache_follows (sampleSolanaCall.body sampleDerivation)
    fun _ => none
  have second := Program.exec_run memCache_follows (sampleSolanaCall.body sampleDerivation)
    sampleCache
  have history : DeriveRuns sampleDerivation (fun _ => none) sampleCache :=
    .single ⟨sampleSolanaCall, _, trivial, first⟩
  obtain ⟨uncached, derived⟩ := derivation_cache_transparent sampleDerivation history second
  exact ⟨history, by decide +kernel, uncached, derived _ rfl⟩

end WalletManagement
