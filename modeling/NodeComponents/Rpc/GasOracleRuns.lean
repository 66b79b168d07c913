import NodeComponents.Rpc.GasOracle

/-!
# Cached suggestions along a changing chain

Calls at the latest block, one after another, while blocks are appended and replaced and
cold storage is up to date. A price is cached under the height it was computed at, in a
word that may be too small for it.

The height alone does not say which blocks were read: a reorg that replaces the block
at the same height leaves the price of the old one, and a price that is no word comes
back as the largest one.
-/

namespace NodeComponents.Rpc.GasOracle

open Lib Lib.Word

variable {Tx E : Type}

/-! ## The machine -/

/-- The chain that cold storage holds, and the cache. `asked` is no part of the code: the
chain at the last call. -/
structure OracleWorld (Tx : Type) where
  chain : List (OracleBlock Tx)
  cache : GasOracleCache
  asked : Option (List (OracleBlock Tx))
deriving DecidableEq, Repr

def OracleWorld.fresh (chain : List (OracleBlock Tx)) : OracleWorld Tx := ⟨chain, .new, none⟩

inductive OracleStep (Tx : Type) where
  | append (b : OracleBlock Tx)
  /-- The blocks above `ancestor` are replaced. -/
  | reorg (ancestor : Nat) (new : List (OracleBlock Tx))
  | suggest (order : JoinOrder (Nat × Nat))

/-- A call that has returned, and the chain it was made at. -/
structure OracleReturn (Tx E : Type) where
  chain : List (OracleBlock Tx)
  price : Except E Nat
deriving DecidableEq

/-- The tag of the latest block. -/
def latestOf (chain : List (OracleBlock Tx)) : Nat := chain.length - 1

def oracleStep (E : Type) (rules : OracleRules Tx) (config : GasOracleConfig) :
    OracleStep Tx → OracleWorld Tx → Option (OracleReturn Tx E) × OracleWorld Tx
  | .append b, w => (none, { w with chain := w.chain ++ [b] })
  | .reorg ancestor new, w => (none, { w with chain := w.chain.take (ancestor + 1) ++ new })
  | .suggest order, w =>
    let (price, cache) := suggestTipCap rules (completeCold E w.chain) (latestOf w.chain) config
      w.cache order
    (some ⟨w.chain, price⟩, { w with cache := cache, asked := some w.chain })

/-- The price is what an empty cache would have led to. -/
def Uncached (rules : OracleRules Tx) (config : GasOracleConfig) (r : OracleReturn Tx E) : Prop :=
  ∀ order, r.price
    = (suggestTipCap rules (completeCold E r.chain) (latestOf r.chain) config .new order).1

/-! ## When a price is a word -/

/-- Without a tip the default price is a word. With some the cap is, or more tips than the
index of the percentile are. -/
def PriceFits (rules : OracleRules Tx) (config : GasOracleConfig) (allTips : List Nat) : Prop :=
  (allTips = [] ∧ config.defaultGasPrice.getD 0 < u64Size)
    ∨ (allTips ≠ [] ∧ (config.maxPrice.any (· < u64Size)
      ∨ tipIndex rules config allTips.length < allTips.countP (· < u64Size)))

instance (rules : OracleRules Tx) (config : GasOracleConfig) (allTips : List Nat) :
    Decidable (PriceFits rules config allTips) :=
  inferInstanceAs (Decidable (_ ∨ _))

variable {rules : OracleRules Tx} {config : GasOracleConfig}

theorem capped_lt_iff {price bound : Nat} :
    config.capped price < bound ↔ config.maxPrice.any (· < bound) ∨ price < bound := by
  unfold GasOracleConfig.capped
  cases config.maxPrice with
  | none => simp
  | some cap => simp [or_comm]

theorem priceFits_iff {allTips : List Nat} :
    PriceFits rules config allTips ↔ priceOf rules config allTips < u64Size := by
  unfold PriceFits
  by_cases hnil : allTips = []
  · rw [hnil, priceOf_nil]
    simp
  · rw [priceOf_ne_nil hnil, capped_lt_iff, List.get_eq_getElem,
      getElem_insertionSort_lt_iff (tipIndex_lt hnil)]
    simp only [hnil, false_and, false_or, ne_eq, not_false_eq_true, true_and]

/-! ## Runs -/

/-- The tips a call at the tip of the chain would read. -/
def latestTips (rules : OracleRules Tx) (config : GasOracleConfig)
    (chain : List (OracleBlock Tx)) : List Nat :=
  tipsAt rules config chain (specs config (latestOf chain))

/-- The latest height is not the largest word. At the height of the last call, the blocks
that are read are those of that call, and their price is a word. -/
def CacheCurrent (rules : OracleRules Tx) (config : GasOracleConfig) :
    OracleStep Tx → OracleWorld Tx → Prop
  | .suggest _, w => latestOf w.chain + 1 < u64Size
    ∧ ∀ old, w.asked = some old → latestOf old = latestOf w.chain →
      (∀ n ∈ specs config (latestOf w.chain), w.chain[n]? = old[n]?)
        ∧ PriceFits rules config (latestTips rules config w.chain)
  | _, _ => True

/-- The cache holds the price of the last call's chain. -/
def CacheHolds (rules : OracleRules Tx) (config : GasOracleConfig) (w : OracleWorld Tx) : Prop :=
  match w.asked with
  | none => w.cache = .new
  | some old => w.cache = GasOracleCache.new.set (latestOf old)
      (priceOf rules config (latestTips rules config old))

/-- The price of a call on an empty cache. -/
theorem suggestTipCap_new {chain : List (OracleBlock Tx)} (hfit : latestOf chain + 1 < u64Size)
    (order : JoinOrder (Nat × Nat)) :
    suggestTipCap rules (completeCold E chain) (latestOf chain) config .new order
      = (.ok (priceOf rules config (latestTips rules config chain)),
        GasOracleCache.new.set (latestOf chain)
          (priceOf rules config (latestTips rules config chain))) :=
  suggestTipCap_complete (by omega) (new_get_eq_none hfit) order

/-- The tips depend on the blocks that are read only. -/
theorem tipsAt_congr {chain chain' : List (OracleBlock Tx)} {heights : List Nat}
    (h : ∀ n ∈ heights, chain[n]? = chain'[n]?) :
    tipsAt rules config chain heights = tipsAt rules config chain' heights := by
  unfold tipsAt
  refine List.flatMap_congr fun n hn => ?_
  rw [h n hn]

theorem saturate_word {a : Nat} (h : a < u64Size) : saturate u64Size a = a :=
  (saturate_eq_iff (Nat.zero_lt_of_lt h)).mpr h

/-- **A call returns what an empty cache would lead to**, and the cache holds it. -/
theorem suggest_uncached {w : OracleWorld Tx} (h : CacheHolds rules config w)
    {order : JoinOrder (Nat × Nat)} (hcurrent : CacheCurrent rules config (.suggest order) w) :
    suggestTipCap rules (completeCold E w.chain) (latestOf w.chain) config w.cache order
      = (.ok (priceOf rules config (latestTips rules config w.chain)),
        GasOracleCache.new.set (latestOf w.chain)
          (priceOf rules config (latestTips rules config w.chain))) := by
  obtain ⟨hfit, hold⟩ := hcurrent
  unfold CacheHolds at h
  cases hasked : w.asked with
  | none =>
      rw [hasked] at h
      rw [h]
      exact suggestTipCap_new hfit order
  | some old =>
      rw [hasked] at h
      dsimp only at h
      by_cases hheight : latestOf old = latestOf w.chain
      · -- a hit: the price of the last call, which read the same blocks
        obtain ⟨hsame, hprice⟩ := hold old hasked hheight
        have htips : latestTips rules config old = latestTips rules config w.chain := by
          unfold latestTips
          rw [hheight]
          exact (tipsAt_congr hsame).symm
        have hword := priceFits_iff.mp hprice
        have hhit := GasOracleCache.get_set_self .new (latestOf w.chain)
          (priceOf rules config (latestTips rules config w.chain))
        rw [saturate_word hword] at hhit
        rw [h, hheight, htips]
        unfold suggestTipCap
        simp only [hhit]
      · -- the price of another height is a miss
        have hmiss : w.cache.get (latestOf w.chain) = none := by
          rw [h]
          exact GasOracleCache.get_set_ne _ hheight
        exact suggestTipCap_complete (by omega) hmiss order

/-- **Preserved by every step**, which returns the uncached price. -/
theorem cacheHolds_step {w : OracleWorld Tx} (h : CacheHolds rules config w) (s : OracleStep Tx)
    (hcurrent : CacheCurrent rules config s w) :
    CacheHolds rules config (oracleStep E rules config s w).2
      ∧ ∀ r, (oracleStep E rules config s w).1 = some r → Uncached rules config r := by
  cases s with
  | append b => exact ⟨h, fun r hr => by cases hr⟩
  | reorg ancestor new => exact ⟨h, fun r hr => by cases hr⟩
  | suggest order =>
      unfold oracleStep
      dsimp only
      rw [suggest_uncached h hcurrent]
      refine ⟨rfl, fun r hr => ?_⟩
      obtain rfl := Option.some.inj hr
      intro fresh
      rw [suggestTipCap_new hcurrent.1 fresh]

/--
**The cache agrees with cold storage.** Along every run of chain changes and calls, each
call returns the price that an empty cache would lead to, if the latest height is below
the largest word at each call and, at the height of the call before, the blocks that are
read are still the same and their price is a word.
-/
theorem cached_agrees {chain : List (OracleBlock Tx)} {os : List (OracleReturn Tx E)}
    {w : OracleWorld Tx}
    (h : Run (oracleStep E rules config) (CacheCurrent rules config) (.fresh chain) os w) :
    ∀ r ∈ os, Uncached rules config r := by
  have hfresh : CacheHolds rules config (.fresh chain) := rfl
  refine (h.invariant
    (I := fun os w => CacheHolds rules config w ∧ ∀ r ∈ os, Uncached rules config r)
    ⟨hfresh, fun r hr => (by cases hr)⟩ ?_).2
  · rintro s os w ⟨hholds, hreturned⟩ hcurrent
    obtain ⟨hnext, hout⟩ := cacheHolds_step (E := E) hholds s hcurrent
    refine ⟨hnext, fun r hr => ?_⟩
    rcases List.mem_append.mp hr with hr | hr
    · exact hreturned r hr
    · exact hout r (Option.mem_toList.mp hr)

/-- A call at a height that was not asked for before: only the height is checked. -/
theorem cacheCurrent_of_ne {w : OracleWorld Tx} {order : JoinOrder (Nat × Nat)}
    (hfit : latestOf w.chain + 1 < u64Size)
    (h : ∀ old, w.asked = some old → latestOf old ≠ latestOf w.chain) :
    CacheCurrent rules config (.suggest order) w :=
  ⟨hfit, fun old hasked hheight => absurd hheight (h old hasked)⟩

/-- A call on the chain of the last call: only the price is checked. -/
theorem cacheCurrent_of_same {w : OracleWorld Tx} {order : JoinOrder (Nat × Nat)}
    (hfit : latestOf w.chain + 1 < u64Size) (hasked : w.asked = some w.chain)
    (hprice : PriceFits rules config (latestTips rules config w.chain)) :
    CacheCurrent rules config (.suggest order) w := by
  refine ⟨hfit, fun old hold _ => ⟨fun n _ => ?_, hprice⟩⟩
  rw [Option.some.inj (hasked.symm.trans hold)]

/-- Two calls on one chain, and one on a longer chain. -/
theorem cached_agrees_threeCalls :
    Uncached tipRules {} (⟨tipChain [5, 7], .ok 5⟩ : OracleReturn Nat Unit)
      ∧ Uncached tipRules {} (⟨tipChain [5, 7, 9], .ok 7⟩ : OracleReturn Nat Unit) := by
  let steps : List (OracleStep Nat) := [.suggest .spawned, .suggest .spawned,
    .append ⟨⟨none⟩, [9]⟩, .suggest .spawned]
  have hadmits : Admits (oracleStep Unit tipRules {}) (CacheCurrent tipRules {}) steps
      (.fresh (tipChain [5, 7])) := by
    refine ⟨?_, ?_, trivial, ?_, trivial⟩
    · exact cacheCurrent_of_ne (by decide) fun _ h => (by cases h)
    · exact cacheCurrent_of_same (by decide +kernel) (by decide +kernel) (by decide +kernel)
    · exact cacheCurrent_of_ne (by decide +kernel) (by decide +kernel)
  have hreturns := cached_agrees (runInputs_run _ _ hadmits)
  exact ⟨hreturns _ (by decide +kernel), hreturns _ (by decide +kernel)⟩

/--
**A replaced block keeps its price, and a large price comes back smaller.** After a reorg
that replaces the block at the same height the price of the old one is returned; without
a cap, a tip of two to the power 64 is returned as the largest word by the second call.
-/
theorem cached_stale :
    let uncapped : GasOracleConfig := { maxPrice := none }
    (runInputs (oracleStep Unit tipRules {}) [.suggest .spawned, .reorg 0 (tipChain [3]),
        .suggest .spawned] (.fresh (tipChain [5, 5]))).1
        = [⟨tipChain [5, 5], .ok 5⟩, ⟨tipChain [5, 3], .ok 5⟩]
      ∧ (suggestTipCap tipRules (completeCold Unit (tipChain [5, 3])) 1 {} .new .spawned).1 = .ok 3
      ∧ (runInputs (oracleStep Unit tipRules uncapped) [.suggest .spawned, .suggest .spawned]
        (.fresh (tipChain [u64Size]))).1
        = [⟨tipChain [u64Size], .ok u64Size⟩, ⟨tipChain [u64Size], .ok (u64Size - 1)⟩] := by
  decide +kernel

end NodeComponents.Rpc.GasOracle
