import Mathlib.Data.Rat.Defs
import NodeComponents.Lib.Fallible
import NodeComponents.Lib.Ranked
import NodeComponents.Rpc.GasOracleCache

/-!
# The gas oracle

The tip that is suggested is taken from the transactions of the last blocks: their
headers are asked for, the transactions of each block are read by a task of its own, and
the tips that reach a floor are sorted and the one at a percentile taken. What the tasks
return is collected as it comes, so the result must not depend on the order.

How far the window goes back is computed in unchecked words. A configured count of zero
goes below zero and asks for the whole chain, a height at the top of the words wraps.

The index of a percentile is computed in floating point and is an argument, as is the
tip of a transaction.
-/

namespace NodeComponents.Rpc.GasOracle

open Lib Lib.Word

variable {Tx E : Type}

/-! ## The code -/

/-- The fields of `StorageRpcConfig` that the oracle reads, with their defaults. -/
structure GasOracleConfig where
  gasOracleBlockCount : Nat := 20
  gasOraclePercentile : Rat := 60
  defaultGasPrice : Option Nat := some 1_000_000_000
  ignorePrice : Option Nat := some 2
  maxPrice : Option Nat := some 500_000_000_000
deriving DecidableEq

/-- The same fields of `StorageRpcConfigEnv`. -/
structure GasOracleConfigEnv where
  gasOracleBlockCount : Option Nat := none
  gasOraclePercentile : Option Nat := none
  defaultGasPrice : Option Nat := none
  ignorePrice : Option Nat := none
  maxPrice : Option Nat := none
deriving DecidableEq, Repr

/-- Map `0` to `None`, preserving all other values. -/
def nonzero (v : Nat) : Option Nat := if v = 0 then none else some v

/-- `From<StorageRpcConfigEnv>` -/
def GasOracleConfigEnv.config (env : GasOracleConfigEnv) : GasOracleConfig :=
  let defaults : GasOracleConfig := {}
  { gasOracleBlockCount := env.gasOracleBlockCount.getD defaults.gasOracleBlockCount
    gasOraclePercentile := (env.gasOraclePercentile.map Nat.cast).getD defaults.gasOraclePercentile
    defaultGasPrice := (env.defaultGasPrice.map nonzero).getD defaults.defaultGasPrice
    ignorePrice := (env.ignorePrice.map nonzero).getD defaults.ignorePrice
    maxPrice := (env.maxPrice.map nonzero).getD defaults.maxPrice }

/-- What is used of a header in cold storage. -/
structure OracleHeader where
  baseFeePerGas : Option Nat
deriving DecidableEq, Repr

/-- Cold storage, as it answers one call. -/
structure OracleCold (Tx E : Type) where
  getHeaders : List Nat → Except E (List (Option OracleHeader))
  getTransactionsInBlock : Nat → Except E (List Tx)

/-- What comes from outside: the tip of a transaction at a base fee, and the cast of
`percentile / 100.0 * last` to an index. -/
structure OracleRules (Tx : Type) where
  effectiveTipPerGas : Tx → Nat → Option Nat
  percentileIndex : Rat → Nat → Nat

/-- The order in which spawned tasks complete. -/
structure JoinOrder (α : Type) where
  complete : List α → List α
  perm : ∀ spawned, (complete spawned).Perm spawned

/-- The tasks complete as they were spawned. -/
def JoinOrder.spawned {α : Type} : JoinOrder α := ⟨id, List.Perm.refl⟩

def blockCount (config : GasOracleConfig) (latest : Nat) : Nat :=
  min config.gasOracleBlockCount (u64Add latest 1)

/-- The first block that is read; the outer subtraction saturates. -/
def start (config : GasOracleConfig) (latest : Nat) : Nat :=
  latest - u64Sub (blockCount config latest) 1

/-- The first block that is read, with checks. -/
def startChecked (config : GasOracleConfig) (latest : Nat) : Option Nat := do
  let height ← checkedAdd u64Size latest 1
  let back ← checkedSub (min config.gasOracleBlockCount height) 1
  return latest - back

/-- The headers that are asked for. -/
def specs (config : GasOracleConfig) (latest : Nat) : List Nat :=
  List.range' (start config latest) (latest + 1 - start config latest)

/-- The blocks that have headers, with their base fees. -/
def blocksWithFees (start : Nat) (headers : List (Option OracleHeader)) : List (Nat × Nat) :=
  headers.zipIdx.filterMap fun p =>
    p.1.map fun header => (u64Add start p.2, header.baseFeePerGas.getD 0)

/-- The tip of a transaction, if it reaches the floor. -/
def qualifyingTip (rules : OracleRules Tx) (config : GasOracleConfig) (baseFee : Nat) (tx : Tx) :
    Option Nat :=
  (rules.effectiveTipPerGas tx baseFee).filter fun tip =>
    config.ignorePrice.all fun floor => floor ≤ tip

/-- The loop over the tasks as they complete; the first error ends it. -/
def collectTips (rules : OracleRules Tx) (cold : OracleCold Tx E) (config : GasOracleConfig) :
    List (Nat × Nat) → Except E (List Nat)
  | [] => .ok []
  | (blockNum, baseFee) :: rest => do
    let txs ← cold.getTransactionsInBlock blockNum
    let allTips ← collectTips rules cold config rest
    return txs.filterMap (qualifyingTip rules config baseFee) ++ allTips

/-- The tips of the transactions that are read. -/
def readTips (rules : OracleRules Tx) (cold : OracleCold Tx E) (latest : Nat)
    (config : GasOracleConfig) (order : JoinOrder (Nat × Nat)) : Except E (List Nat) := do
  let headers ← cold.getHeaders (specs config latest)
  collectTips rules cold config (order.complete (blocksWithFees (start config latest) headers))

/-- The cap on a price. -/
def GasOracleConfig.capped (config : GasOracleConfig) (price : Nat) : Nat :=
  config.maxPrice.elim price (min price)

/-- The index into the sorted tips. -/
def tipIndex (rules : OracleRules Tx) (config : GasOracleConfig) (count : Nat) : Nat :=
  min (rules.percentileIndex config.gasOraclePercentile (count - 1)) (count - 1)

/-- The price for the tips that were read. -/
def priceOf (rules : OracleRules Tx) (config : GasOracleConfig) (allTips : List Nat) : Nat :=
  if allTips.isEmpty then config.defaultGasPrice.getD 0
  else config.capped
    ((allTips.insertionSort (· ≤ ·))[tipIndex rules config allTips.length]?.getD 0)

/-- `suggest_tip_cap`, and the cache it leaves. -/
def suggestTipCap (rules : OracleRules Tx) (cold : OracleCold Tx E) (latest : Nat)
    (config : GasOracleConfig) (cache : GasOracleCache) (order : JoinOrder (Nat × Nat)) :
    Except E Nat × GasOracleCache :=
  match cache.get latest with
  | some cachedTip => (.ok cachedTip, cache)
  | none =>
    match readTips rules cold latest config order with
    -- a price is cached, an error is not
    | .error e => (.error e, cache)
    | .ok allTips => (.ok (priceOf rules config allTips),
        cache.set latest (priceOf rules config allTips))

/-! ## The price of the tips

The index is one of the list, so that a price is a tip that was read. It is the same for
the tips in any order. -/

variable {rules : OracleRules Tx} {config : GasOracleConfig} {allTips : List Nat}

theorem tipIndex_lt (h : allTips ≠ []) :
    tipIndex rules config allTips.length < (allTips.insertionSort (· ≤ ·)).length := by
  have hpos := List.length_pos_of_ne_nil h
  rw [List.length_insertionSort]
  unfold tipIndex
  omega

theorem priceOf_nil : priceOf rules config [] = config.defaultGasPrice.getD 0 := rfl

theorem priceOf_ne_nil (h : allTips ≠ []) :
    priceOf rules config allTips = config.capped
      ((allTips.insertionSort (· ≤ ·)).get
        ⟨tipIndex rules config allTips.length, tipIndex_lt h⟩) := by
  unfold priceOf
  rw [if_neg (by simpa using h), List.getElem?_eq_getElem (tipIndex_lt h)]
  rfl

/-- The price of some tips is one of them, capped. -/
theorem priceOf_mem (h : allTips ≠ []) :
    ∃ tip ∈ allTips, priceOf rules config allTips = config.capped tip :=
  ⟨_, (List.mem_insertionSort _).mp (List.getElem_mem (tipIndex_lt h)), priceOf_ne_nil h⟩

theorem priceOf_perm {allTips' : List Nat} (h : allTips.Perm allTips') :
    priceOf rules config allTips = priceOf rules config allTips' := by
  unfold priceOf
  rw [insertionSort_perm h, h.length_eq, h.isEmpty_eq]

/-! ## Complete cold storage

It answers for the blocks of a chain, by their heights. -/

structure OracleBlock (Tx : Type) where
  header : OracleHeader
  txs : List Tx
deriving DecidableEq, Repr

variable {chain : List (OracleBlock Tx)}

def completeCold (E : Type) (chain : List (OracleBlock Tx)) : OracleCold Tx E where
  getHeaders := fun specs => .ok (specs.map fun n => chain[n]?.map OracleBlock.header)
  getTransactionsInBlock := fun n => .ok ((chain[n]?.map OracleBlock.txs).getD [])

/-- The tips of a block that reach the floor. -/
def OracleBlock.tips (rules : OracleRules Tx) (config : GasOracleConfig) (b : OracleBlock Tx) :
    List Nat :=
  b.txs.filterMap (qualifyingTip rules config (b.header.baseFeePerGas.getD 0))

/-- The tips of the blocks at some heights. -/
def tipsAt (rules : OracleRules Tx) (config : GasOracleConfig) (chain : List (OracleBlock Tx))
    (heights : List Nat) : List Nat :=
  heights.flatMap fun n => ((chain[n]?).map (OracleBlock.tips rules config)).getD []

/-- The height and base fee of the blocks there are among some heights. -/
def feesAt (chain : List (OracleBlock Tx)) (heights : List Nat) : List (Nat × Nat) :=
  heights.filterMap fun n => chain[n]?.map fun b => (n, b.header.baseFeePerGas.getD 0)

/-- Each header is paired with the height it was asked for. -/
theorem blocksWithFees_eq {first : Nat} : ∀ {count offset : Nat},
    first + offset + count ≤ u64Size →
    (((List.range' (first + offset) count).map fun n =>
          chain[n]?.map OracleBlock.header).zipIdx offset).filterMap (fun p =>
        p.1.map fun header => (u64Add first p.2, header.baseFeePerGas.getD 0))
      = feesAt chain (List.range' (first + offset) count)
  | 0, _, _ => rfl
  | count + 1, offset, hfit => by
      have hnum : u64Add first offset = first + offset := u64Add_of_lt (by omega)
      have hrest := @blocksWithFees_eq first count (offset + 1) (by omega)
      unfold feesAt at hrest ⊢
      rw [← Nat.add_assoc] at hrest
      rw [List.range'_succ, List.map_cons, List.zipIdx_cons, List.filterMap_cons,
        List.filterMap_cons, hrest, hnum]
      cases chain[first + offset]? with
      | none => rfl
      | some b => rfl

theorem collectTips_completeCold : ∀ {fees : List (Nat × Nat)},
    collectTips rules (completeCold E chain) config fees
      = .ok (fees.flatMap fun p => ((chain[p.1]?.map OracleBlock.txs).getD []).filterMap
        (qualifyingTip rules config p.2))
  | [] => rfl
  | (blockNum, baseFee) :: rest => by
      unfold collectTips
      rw [collectTips_completeCold]
      rfl

theorem flatMap_feesAt : ∀ {heights : List Nat},
    ((feesAt chain heights).flatMap fun p => ((chain[p.1]?.map OracleBlock.txs).getD []).filterMap
        (qualifyingTip rules config p.2))
      = tipsAt rules config chain heights
  | [] => rfl
  | n :: rest => by
      have hrest := @flatMap_feesAt rest
      unfold feesAt tipsAt at hrest ⊢
      rw [List.filterMap_cons, List.flatMap_cons, ← hrest]
      cases hblock : chain[n]? with
      | none => rfl
      | some b =>
          dsimp only [Option.map_some]
          rw [List.flatMap_cons, hblock]
          rfl

theorem blocksWithFees_complete {latest : Nat} (hlatest : latest < u64Size) :
    blocksWithFees (start config latest)
        ((specs config latest).map fun n => chain[n]?.map OracleBlock.header)
      = feesAt chain (specs config latest) := by
  have hle : start config latest ≤ latest := Nat.sub_le _ _
  have heq := @blocksWithFees_eq Tx chain (start config latest)
    (latest + 1 - start config latest) 0 (by omega)
  rwa [Nat.add_zero] at heq

/-- **What is read from complete storage**, in whatever order, are the tips of the blocks. -/
theorem readTips_complete {latest : Nat} (hlatest : latest < u64Size)
    (order : JoinOrder (Nat × Nat)) :
    ∃ allTips, readTips rules (completeCold E chain) latest config order = .ok allTips
      ∧ allTips.Perm (tipsAt rules config chain (specs config latest)) := by
  refine ⟨_, collectTips_completeCold, ?_⟩
  rw [← flatMap_feesAt, blocksWithFees_complete hlatest]
  exact (order.perm _).flatMap_right _

/-- A price that is not cached is that of the tips of the blocks that are read. -/
theorem suggestTipCap_complete {latest : Nat} (hlatest : latest < u64Size)
    {cache : GasOracleCache} (hmiss : cache.get latest = none) (order : JoinOrder (Nat × Nat)) :
    let price := priceOf rules config (tipsAt rules config chain (specs config latest))
    suggestTipCap rules (completeCold E chain) latest config cache order
      = (.ok price, cache.set latest price) := by
  obtain ⟨allTips, hread, hperm⟩ := readTips_complete (E := E) hlatest order
  intro price
  have hprice : priceOf rules config allTips = price := priceOf_perm hperm
  unfold suggestTipCap
  simp only [hmiss, hread, hprice]

/-! ## The window -/

/-- The last blocks up to `latest`, as many as are configured. -/
def window (config : GasOracleConfig) (latest : Nat) : List Nat :=
  List.range' (latest + 1 - min config.gasOracleBlockCount (latest + 1))
    (min config.gasOracleBlockCount (latest + 1))

/-- The tip of some transaction of the blocks, not below the floor. -/
def Qualifies (rules : OracleRules Tx) (config : GasOracleConfig) (chain : List (OracleBlock Tx))
    (heights : List Nat) (tip : Nat) : Prop :=
  ∃ n ∈ heights, ∃ b, chain[n]? = some b ∧ ∃ tx ∈ b.txs,
    rules.effectiveTipPerGas tx (b.header.baseFeePerGas.getD 0) = some tip
      ∧ ∀ floor, config.ignorePrice = some floor → floor ≤ tip

/-- The oracle on an empty cache reads the window and nothing else, and suggests the
default price or one of the tips of the window. -/
structure WindowSampled (E : Type) (rules : OracleRules Tx) (config : GasOracleConfig)
    (chain : List (OracleBlock Tx)) (latest : Nat) : Prop where
  computed : startChecked config latest = some (start config latest)
  headers : specs config latest = window config latest
  transactions : ∀ headers, (completeCold E chain).getHeaders (specs config latest)
    = .ok headers → (blocksWithFees (start config latest) headers).map Prod.fst
      = window config latest
  /-- The result is the default price, whatever that is, if and only if no tip qualifies. -/
  defaulted : (∀ default order, (suggestTipCap rules (completeCold E chain) latest
      { config with defaultGasPrice := default } .new order).1 = .ok (default.getD 0))
    ↔ ¬ ∃ tip, Qualifies rules config chain (window config latest) tip
  sampled : (∃ tip, Qualifies rules config chain (window config latest) tip) →
    ∃ tip, Qualifies rules config chain (window config latest) tip
      ∧ ∀ order, (suggestTipCap rules (completeCold E chain) latest config .new order).1
        = .ok (config.capped tip)

theorem qualifyingTip_eq_some {baseFee tip : Nat} {tx : Tx} :
    qualifyingTip rules config baseFee tx = some tip
      ↔ rules.effectiveTipPerGas tx baseFee = some tip
        ∧ ∀ floor, config.ignorePrice = some floor → floor ≤ tip := by
  unfold qualifyingTip
  rw [Option.filter_eq_some_iff]
  cases config.ignorePrice with
  | none => simp
  | some floor => simp

theorem mem_tipsAt {heights : List Nat} {tip : Nat} :
    tip ∈ tipsAt rules config chain heights ↔ Qualifies rules config chain heights tip := by
  unfold tipsAt Qualifies
  rw [List.mem_flatMap]
  constructor
  · rintro ⟨n, hn, htip⟩
    cases hblock : chain[n]? with
    | none =>
        rw [hblock] at htip
        cases htip
    | some b =>
        rw [hblock] at htip
        obtain ⟨tx, htx, hqualifies⟩ := List.mem_filterMap.mp htip
        exact ⟨n, hn, b, hblock, tx, htx, qualifyingTip_eq_some.mp hqualifies⟩
  · rintro ⟨n, hn, b, hblock, tx, htx, hqualifies⟩
    refine ⟨n, hn, ?_⟩
    rw [hblock]
    exact List.mem_filterMap.mpr ⟨tx, htx, qualifyingTip_eq_some.mpr hqualifies⟩

theorem tipsAt_eq_nil_iff {heights : List Nat} :
    tipsAt rules config chain heights = []
      ↔ ¬ ∃ tip, Qualifies rules config chain heights tip := by
  rw [List.eq_nil_iff_forall_not_mem, not_exists]
  exact forall_congr' fun tip => not_congr mem_tipsAt

theorem feesAt_fst {heights : List Nat} (h : ∀ n ∈ heights, n < chain.length) :
    (feesAt chain heights).map Prod.fst = heights := by
  unfold feesAt
  induction heights with
  | nil => rfl
  | cons n rest ih =>
      rw [List.filterMap_cons, List.getElem?_eq_getElem (h n List.mem_cons_self)]
      exact congrArg (n :: ·) (ih fun m hm => h m (List.mem_cons_of_mem _ hm))

variable {latest : Nat}

theorem start_eq (hcount : 1 ≤ config.gasOracleBlockCount) (hfit : latest + 1 < u64Size) :
    start config latest = latest - (min config.gasOracleBlockCount (latest + 1) - 1) := by
  unfold start blockCount
  rw [u64Add_of_lt hfit, u64Sub_of_le (by omega) (by omega)]

/-- The checks pass exactly for a positive count below the largest height. -/
theorem startChecked_eq_iff :
    startChecked config latest = some (start config latest)
      ↔ 1 ≤ config.gasOracleBlockCount ∧ latest + 1 < u64Size := by
  unfold startChecked
  constructor
  · intro h
    obtain ⟨height, hadd, h⟩ := Option.bind_eq_some_iff.mp h
    obtain ⟨back, hsub, _⟩ := Option.bind_eq_some_iff.mp h
    have hone := (checkedSub_eq_some.mp hsub).1
    exact ⟨by omega, (checkedAdd_eq_some.mp hadd).1⟩
  · rintro ⟨hcount, hfit⟩
    rw [start_eq hcount hfit]
    exact Option.bind_eq_some_iff.mpr ⟨_, checkedAdd_eq_some.mpr ⟨hfit, rfl⟩,
      Option.bind_eq_some_iff.mpr ⟨_, checkedSub_eq_some.mpr ⟨by omega, rfl⟩, rfl⟩⟩

/-- Without an underflow the window is what is read. -/
theorem specs_eq_window (hcount : 1 ≤ config.gasOracleBlockCount) (hfit : latest + 1 < u64Size) :
    specs config latest = window config latest := by
  unfold specs window
  rw [show start config latest = latest + 1 - min config.gasOracleBlockCount (latest + 1) by
    rw [start_eq hcount hfit]; omega, Nat.sub_sub_self (Nat.min_le_right _ _)]

theorem new_get_eq_none (hfit : latest + 1 < u64Size) :
    GasOracleCache.new.get latest = none := by
  refine if_neg fun hblock => ?_
  have hsentinel : u64Size - 1 = latest := hblock
  omega

/--
**The window that is sampled.** On an empty cache and complete cold storage the oracle
reads the last blocks, as many as are configured, without an underflow or overflow, and
suggests the default price or a capped tip of theirs, the same in every order, if and only
if the configured count is positive and the height below the largest word.
-/
theorem windowSampled_iff (E : Type) (rules : OracleRules Tx) {config : GasOracleConfig}
    {chain : List (OracleBlock Tx)} {latest : Nat} (hcomplete : latest < chain.length) :
    WindowSampled E rules config chain latest
      ↔ 1 ≤ config.gasOracleBlockCount ∧ latest + 1 < u64Size := by
  refine ⟨fun h => startChecked_eq_iff.mp h.computed, fun ⟨hcount, hfit⟩ => ?_⟩
  have hspecs := specs_eq_window hcount hfit
  -- the result for any default price, the configured one among them
  have hresult (default : Option Nat) (order : JoinOrder (Nat × Nat)) :
      (suggestTipCap rules (completeCold E chain) latest
          { config with defaultGasPrice := default } .new order).1
        = .ok (priceOf rules { config with defaultGasPrice := default }
            (tipsAt rules config chain (window config latest))) := by
    rw [suggestTipCap_complete (by omega) (new_get_eq_none hfit) order, ← hspecs]
    rfl
  have htips := @tipsAt_eq_nil_iff Tx rules config chain (window config latest)
  refine ⟨startChecked_eq_iff.mpr ⟨hcount, hfit⟩, hspecs, ?_, ?_, ?_⟩
  · intro headers hanswer
    obtain rfl := Except.ok.inj hanswer
    rw [blocksWithFees_complete (by omega), feesAt_fst, hspecs]
    intro n hn
    have hle : start config latest ≤ latest := Nat.sub_le _ _
    have hn := (List.mem_range'_1.mp hn).2
    omega
  · constructor
    · intro hdefault hsome
      have hnonempty := fun hnil => htips.mp hnil hsome
      -- with a tip the price is the same for every default, so another default is not returned
      have hone := hdefault (some (priceOf rules config (tipsAt rules config chain
        (window config latest)) + 1)) .spawned
      rw [hresult, priceOf_ne_nil hnonempty, priceOf_ne_nil hnonempty] at hone
      exact absurd (Except.ok.inj hone) (Nat.ne_of_lt (Nat.lt_succ_self _))
    · intro hnone default order
      rw [hresult, htips.mpr hnone, priceOf_nil]
  · intro hsome
    obtain ⟨tip, htip, hprice⟩ := @priceOf_mem Tx rules config _ fun hnil => htips.mp hnil hsome
    exact ⟨tip, mem_tipsAt.mp htip, fun order => by rw [← hprice]; exact hresult _ order⟩

/-- A transaction is its tip, and the index that of a whole percentile. -/
def tipRules : OracleRules Nat where
  effectiveTipPerGas := fun tip _ => some tip
  percentileIndex := fun percentile last => percentile.num.toNat * last / 100

/-- Blocks with one transaction each. -/
def tipChain (tips : List Nat) : List (OracleBlock Nat) :=
  tips.map fun tip => ⟨⟨none⟩, [tip]⟩

/-- The defaults, on a chain of three blocks. -/
theorem windowSampled_iff_defaults : WindowSampled Unit tipRules {} (tipChain [5, 7, 9]) 2 :=
  (windowSampled_iff Unit tipRules (by decide)).mpr (by decide)

/--
**A count of zero reads the whole chain.** The environment can configure it; the oracle
then asks for every header and suggests the tip of an old block, and the default price
is not returned. At the largest height the window cannot be computed.
-/
theorem windowSampled_ends :
    let config := GasOracleConfigEnv.config { gasOracleBlockCount := some 0 }
    config.gasOracleBlockCount = 0
      ∧ window config 2 = [] ∧ specs config 2 = [0, 1, 2]
      ∧ (suggestTipCap tipRules (completeCold Unit (tipChain [5, 7, 9])) 2 config .new
        .spawned).1 = .ok 7
      ∧ startChecked config 2 = none
      ∧ startChecked {} (u64Size - 1) = none := by
  decide +kernel

end NodeComponents.Rpc.GasOracle
