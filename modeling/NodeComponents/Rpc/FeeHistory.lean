import Mathlib.Algebra.GroupWithZero.Nat
import NodeComponents.Lib.Run

/-!
# The rewards of `eth_feeHistory`

The transactions of a block, sorted by their tips, are walked once for all the
percentiles of a request: the gas used so far and the index of the next transaction
are carried from one percentile to the next. The walk stops *in* a transaction,
with its gas already added and the index still on it, so the next percentile adds
that gas a second time.

What the code does is therefore the right thing for lowered thresholds: the one of
a percentile is lower by the gas counted again for the percentiles before it. The
rewards are right exactly when no threshold is lowered to a cheaper tip.

The gas of a block and the gas counted again stay far below `2^64`. The threshold of
a percentile is computed in floating point and is an argument, as is the tip of a
transaction.
-/

namespace NodeComponents.Rpc

open Lib

variable {Tx Pct : Type}

/-! ## The code -/

/-- What is used of a receipt in cold storage. -/
structure ColdReceipt where
  gasUsed : Nat
deriving DecidableEq, Repr

/-- The gas used and the tip of each transaction, sorted by tip ascending. -/
def txGasAndTip (effectiveTipPerGas : Tx → Nat → Option Nat) (baseFee : Nat) (txs : List Tx)
    (receipts : List ColdReceipt) : List (Nat × Nat) :=
  ((txs.zip receipts).map fun p => (p.2.gasUsed, (effectiveTipPerGas p.1 baseFee).getD 0)).mergeSort
    fun a b => decide (a.2 ≤ b.2)

/-- What is carried between percentiles; `tx_idx` is held as the transactions from it on. -/
structure RewardWalk where
  cumulativeGas : Nat
  rest : List (Nat × Nat)
deriving DecidableEq, Repr

/-- The `while` loop of one percentile. -/
def walkGas (threshold : Nat) : Nat → List (Nat × Nat) → RewardWalk
  | cumulativeGas, [] => ⟨cumulativeGas, []⟩
  | cumulativeGas, tx :: rest =>
    -- the index stays on the transaction whose gas was just added
    if threshold ≤ cumulativeGas + tx.1 then ⟨cumulativeGas + tx.1, tx :: rest⟩
    else walkGas threshold (cumulativeGas + tx.1) rest

/-- The body of the loop over the percentiles, for the highest tip of the block. -/
def rewardStep (highest : Nat) (threshold : Nat) (w : RewardWalk) : Option Nat × RewardWalk :=
  let walked := walkGas threshold w.cumulativeGas w.rest
  (some ((walked.rest.head?.map Prod.snd).getD highest), walked)

/-- `calculate_reward_percentiles`; `none` is the panic on a block without any receipt. -/
def calculateRewardPercentiles (threshold : Nat → Pct → Nat)
    (effectiveTipPerGas : Tx → Nat → Option Nat) (percentiles : List Pct) (gasUsed baseFee : Nat)
    (txs : List Tx) (receipts : List ColdReceipt) : Option (List Nat) :=
  if gasUsed = 0 ∨ txs.isEmpty then some (List.replicate percentiles.length 0)
  else
    let sorted := txGasAndTip effectiveTipPerGas baseFee txs receipts
    match sorted.getLast? with
    | none => if percentiles.isEmpty then some [] else none
    | some last =>
      some (runInputs (rewardStep last.2) (percentiles.map (threshold gasUsed)) ⟨0, sorted⟩).1

/-! ## What the rewards should be -/

/-- The gas of the transactions before an index, each counted once. -/
def gasBefore (sorted : List (Nat × Nat)) (i : Nat) : Nat := ((sorted.take i).map Prod.fst).sum

/-- The first transaction with which the gas reaches `t`; the number of them if none does. -/
def reachedIdx (sorted : List (Nat × Nat)) (t : Nat) : Nat :=
  (List.range sorted.length).findIdx fun i => t ≤ gasBefore sorted (i + 1)

/-- The tip of a transaction, the highest one past the end. -/
def tipAt (sorted : List (Nat × Nat)) (i : Nat) : Nat :=
  ((sorted[i]?.or sorted.getLast?).map Prod.snd).getD 0

/-- The gas-weighted tip at a threshold. -/
def percentileTip (sorted : List (Nat × Nat)) (t : Nat) : Nat := tipAt sorted (reachedIdx sorted t)

variable {sorted : List (Nat × Nat)}

theorem gasBefore_mono {i j : Nat} (h : i ≤ j) : gasBefore sorted i ≤ gasBefore sorted j := by
  obtain ⟨k, rfl⟩ := Nat.exists_eq_add_of_le h
  unfold gasBefore
  rw [List.take_add, List.map_append, List.sum_append]
  exact Nat.le_add_right _ _

theorem gasBefore_succ {i : Nat} (h : i < sorted.length) :
    gasBefore sorted (i + 1) = gasBefore sorted i + (sorted[i]).1 := by
  unfold gasBefore
  rw [List.take_succ_eq_append_getElem h, List.map_append, List.sum_append]
  simp

theorem reachedIdx_le_length (sorted : List (Nat × Nat)) (t : Nat) :
    reachedIdx sorted t ≤ sorted.length := by
  have hle : reachedIdx sorted t ≤ (List.range sorted.length).length := List.findIdx_le_length
  rwa [List.length_range] at hle

/-- **The index is the first at which the gas, each transaction counted once, reaches `t`.** -/
theorem reachedIdx_le_iff {t i : Nat} (hi : i < sorted.length) :
    reachedIdx sorted t ≤ i ↔ t ≤ gasBefore sorted (i + 1) := by
  unfold reachedIdx
  constructor
  · intro h
    have hlt : (List.range sorted.length).findIdx (fun i => decide (t ≤ gasBefore sorted (i + 1)))
        < (List.range sorted.length).length := by
      rw [List.length_range]
      omega
    have hreached := List.findIdx_getElem (w := hlt)
    rw [List.getElem_range, decide_eq_true_eq] at hreached
    exact Nat.le_trans hreached (gasBefore_mono (by omega))
  · intro h
    refine Nat.le_of_not_lt fun hlt => ?_
    have hnot := List.not_of_lt_findIdx hlt
    rw [List.getElem_range, decide_eq_false_iff_not] at hnot
    exact hnot h

theorem reachedIdx_mono {t t' : Nat} (h : t ≤ t') : reachedIdx sorted t ≤ reachedIdx sorted t' := by
  by_cases hend : reachedIdx sorted t' < sorted.length
  · exact (reachedIdx_le_iff hend).mpr
      (Nat.le_trans h ((reachedIdx_le_iff hend).mp (Nat.le_refl _)))
  · exact Nat.le_trans (reachedIdx_le_length sorted t) (Nat.le_of_not_lt hend)

/-- The tips of a sorted list ascend with the index. -/
theorem tipAt_mono (hs : sorted.Pairwise fun a b => a.2 ≤ b.2) {i j : Nat} (h : i ≤ j) :
    tipAt sorted i ≤ tipAt sorted j := by
  have hget : ∀ {i j : Nat} (_ : i ≤ j) (hi : i < sorted.length) (hj : j < sorted.length),
      (sorted[i]).2 ≤ (sorted[j]).2 := by
    intro i j hij hi hj
    rcases Nat.eq_or_lt_of_le hij with heq | hlt
    · subst heq
      exact Nat.le_refl _
    · exact List.pairwise_iff_getElem.mp hs i j hi hj hlt
  unfold tipAt
  by_cases hj : j < sorted.length
  · have hi : i < sorted.length := by omega
    rw [List.getElem?_eq_getElem hj, List.getElem?_eq_getElem hi]
    exact hget h hi hj
  · have hj' : sorted[j]? = none := List.getElem?_eq_none (Nat.le_of_not_lt hj)
    by_cases hi : i < sorted.length
    · have hend : sorted.length - 1 < sorted.length := by omega
      rw [hj', List.getElem?_eq_getElem hi, List.getLast?_eq_getElem?,
        List.getElem?_eq_getElem hend]
      exact hget (Nat.le_sub_one_of_lt hi) hi hend
    · have hi' : sorted[i]? = none := List.getElem?_eq_none (Nat.le_of_not_lt hi)
      exact Nat.le_of_eq (by rw [hi', hj'])

/-! ## What the walk does

`counted` is the gas that the walk has counted again so far. -/

/-- The gas of a transaction, zero past the end. -/
def gasAt (sorted : List (Nat × Nat)) (i : Nat) : Nat := (sorted[i]?.map Prod.fst).getD 0

theorem gasBefore_add_gasAt {i : Nat} :
    gasBefore sorted i + gasAt sorted i = gasBefore sorted (i + 1) := by
  by_cases h : i < sorted.length
  · rw [gasBefore_succ h]
    unfold gasAt
    rw [List.getElem?_eq_getElem h]
    rfl
  · unfold gasAt gasBefore
    rw [List.getElem?_eq_none (by omega), List.take_of_length_le (by omega),
      List.take_of_length_le (by omega)]
    rfl

/-- **The walk looks for the threshold lowered by what was counted again**, from where it is. -/
theorem walkGas_eq {t counted : Nat} : ∀ (left i : Nat), i + left = sorted.length →
    walkGas t (gasBefore sorted i + counted) (sorted.drop i)
      = ⟨gasBefore sorted (max i (reachedIdx sorted (t - counted)) + 1) + counted,
          sorted.drop (max i (reachedIdx sorted (t - counted)))⟩
  | 0, i, hi => by
      have hle : reachedIdx sorted (t - counted) ≤ i := by
        have := reachedIdx_le_length sorted (t - counted)
        omega
      rw [Nat.max_eq_left hle, List.drop_of_length_le (by omega), ← gasBefore_add_gasAt, gasAt,
        List.getElem?_eq_none (by omega)]
      rfl
  | left + 1, i, hi => by
      have hlt : i < sorted.length := by omega
      have hstop := reachedIdx_le_iff (t := t - counted) hlt
      rw [List.drop_eq_getElem_cons hlt, walkGas]
      rw [show gasBefore sorted i + counted + (sorted[i]).1
        = gasBefore sorted (i + 1) + counted by rw [gasBefore_succ hlt]; omega]
      by_cases hreach : t ≤ gasBefore sorted (i + 1) + counted
      · rw [if_pos hreach, Nat.max_eq_left (hstop.mpr (by omega)), List.drop_eq_getElem_cons hlt]
      · have hgt : i < reachedIdx sorted (t - counted) := by
          refine Nat.lt_of_not_le fun hle => hreach ?_
          have := hstop.mp hle
          omega
        rw [if_neg hreach, walkGas_eq left (i + 1) (by omega), Nat.max_eq_right (by omega),
          Nat.max_eq_right (by omega)]

/-- The index the walk stands at after some percentiles, and the gas it has counted again. -/
def recount (sorted : List (Nat × Nat)) (thresholds : List Nat) : Nat × Nat :=
  thresholds.foldl (fun r t =>
    let i := max r.1 (reachedIdx sorted (t - r.2))
    (i, r.2 + gasAt sorted i)) (0, 0)

theorem recount_concat {before : List Nat} {t : Nat} :
    recount sorted (before ++ [t])
      = (max (recount sorted before).1 (reachedIdx sorted (t - (recount sorted before).2)),
        (recount sorted before).2 + gasAt sorted (max (recount sorted before).1
          (reachedIdx sorted (t - (recount sorted before).2)))) := by
  unfold recount
  rw [List.foldl_append]
  rfl

/-- Where the loop over the percentiles is after some of them. -/
theorem rewardWalk_state (sorted : List (Nat × Nat)) (highest : Nat) (before : List Nat) :
    (runInputs (rewardStep highest) before ⟨0, sorted⟩).2
      = ⟨gasBefore sorted (recount sorted before).1 + (recount sorted before).2,
          sorted.drop (recount sorted before).1⟩
      ∧ (recount sorted before).1 ≤ sorted.length := by
  induction before using List.reverseRecOn with
  | nil => exact ⟨rfl, Nat.zero_le _⟩
  | append_singleton before t ih =>
      obtain ⟨hstate, hle⟩ := ih
      rw [runInputs_concat, hstate, recount_concat]
      refine ⟨?_, Nat.max_le.mpr ⟨hle, reachedIdx_le_length sorted _⟩⟩
      unfold rewardStep
      dsimp only
      rw [walkGas_eq (sorted.length - (recount sorted before).1) _ (by omega),
        ← gasBefore_add_gasAt]
      congr 1
      omega

/-- **The tips the loop returns** are those of the transactions it stops in. -/
theorem rewardWalk_tips {last : Nat × Nat} (hlast : sorted.getLast? = some last) (before : List Nat)
    (t : Nat) :
    (runInputs (rewardStep last.2) (before ++ [t]) ⟨0, sorted⟩).1
      = (runInputs (rewardStep last.2) before ⟨0, sorted⟩).1
        ++ [tipAt sorted (recount sorted (before ++ [t])).1] := by
  obtain ⟨hstate, hle⟩ := rewardWalk_state sorted last.2 before
  rw [runInputs_concat, hstate, recount_concat]
  unfold rewardStep tipAt
  dsimp only
  rw [walkGas_eq (sorted.length - (recount sorted before).1) _ (by omega), List.head?_drop, hlast]
  generalize sorted[max (recount sorted before).1
    (reachedIdx sorted (t - (recount sorted before).2))]? = found
  cases found with
  | none => rfl
  | some gasAndTip => rfl

/-! ## When the rewards are right -/

/--
Lowering the threshold by the gas counted again for the percentiles before it leaves
the tip as it is, or one of them has that tip already.
-/
def RecountHarmless (sorted : List (Nat × Nat)) (before : List Nat) (t : Nat) : Prop :=
  percentileTip sorted (t - (recount sorted before).2) = percentileTip sorted t ∨
    ∃ t' ∈ before, percentileTip sorted t' = percentileTip sorted t

/-- The walk is never past the transaction it should stop in. -/
theorem recount_le {before : List Nat} {t : Nat} (h : (before ++ [t]).Pairwise (· ≤ ·)) :
    (recount sorted (before ++ [t])).1 ≤ reachedIdx sorted t := by
  induction before using List.reverseRecOn generalizing t with
  | nil =>
      rw [recount_concat]
      exact Nat.max_le.mpr ⟨Nat.zero_le _, reachedIdx_mono (Nat.sub_le _ _)⟩
  | append_singleton before t' ih =>
      obtain ⟨hbefore, -, hlast⟩ := List.pairwise_append.mp h
      have htt : t' ≤ t := hlast t' (by simp) t (by simp)
      rw [recount_concat]
      exact Nat.max_le.mpr
        ⟨Nat.le_trans (ih hbefore) (reachedIdx_mono htt), reachedIdx_mono (Nat.sub_le _ _)⟩

/-- The walk never goes back. -/
theorem recount_fst_le (sorted : List (Nat × Nat)) (before after : List Nat) :
    (recount sorted before).1 ≤ (recount sorted (before ++ after)).1 := by
  induction after using List.reverseRecOn with
  | nil => exact Nat.le_of_eq (by rw [List.append_nil])
  | append_singleton after t ih =>
      rw [← List.append_assoc, recount_concat]
      exact Nat.le_trans ih (Nat.le_max_left _ _)

/-- The tips of a list of thresholds are right up to the last one. -/
def StopsRight (sorted : List (Nat × Nat)) (ts : List Nat) : Prop :=
  ∀ before t after, ts = before ++ t :: after →
    tipAt sorted (recount sorted (before ++ [t])).1 = percentileTip sorted t

/-- One percentile, after others whose tips are right. -/
theorem stop_right_iff (hs : sorted.Pairwise fun a b => a.2 ≤ b.2) {before : List Nat} {t : Nat}
    (hasc : (before ++ [t]).Pairwise (· ≤ ·)) (hbefore : StopsRight sorted before) :
    tipAt sorted (recount sorted (before ++ [t])).1 = percentileTip sorted t
      ↔ RecountHarmless sorted before t := by
  have hle : (recount sorted (before ++ [t])).1 ≤ reachedIdx sorted t := recount_le hasc
  constructor
  · intro hright
    rw [recount_concat] at hright
    rcases Nat.le_total (recount sorted before).1
      (reachedIdx sorted (t - (recount sorted before).2)) with hmax | hmax
    · rw [Nat.max_eq_right hmax] at hright
      exact Or.inl hright
    · -- the walk has not moved, so the percentile before has the tip
      rw [Nat.max_eq_left hmax] at hright
      rcases List.eq_nil_or_concat before with hnil | ⟨front, t', hcat⟩
      · subst hnil
        have hzero : reachedIdx sorted (t - (recount sorted []).2) = (recount sorted []).1 :=
          Nat.le_antisymm hmax (Nat.zero_le _)
        refine Or.inl ?_
        rw [percentileTip, hzero, hright]
      · rw [List.concat_eq_append] at hcat
        subst hcat
        exact Or.inr ⟨t', by simp, (hbefore front t' [] rfl).symm.trans hright⟩
  · intro hharmless
    refine Nat.le_antisymm (tipAt_mono hs hle) ?_
    rcases hharmless with hlowered | ⟨t', hmem, htip⟩
    · rw [← hlowered, recount_concat]
      exact tipAt_mono hs (Nat.le_max_right _ _)
    · obtain ⟨front, rest, hsplit⟩ := List.append_of_mem hmem
      have hstop := hbefore front t' rest hsplit
      have hmono := recount_fst_le sorted (front ++ [t']) (rest ++ [t])
      rw [← htip, ← hstop]
      refine tipAt_mono hs ?_
      rwa [List.append_assoc, List.singleton_append, ← List.cons_append, ← List.append_assoc,
        ← hsplit] at hmono

/-- The tips of the walk are all right exactly if no percentile's is spoiled. -/
theorem stopsRight_iff (hs : sorted.Pairwise fun a b => a.2 ≤ b.2) {ts : List Nat}
    (hasc : ts.Pairwise (· ≤ ·)) :
    StopsRight sorted ts
      ↔ ∀ before t after, ts = before ++ t :: after → RecountHarmless sorted before t := by
  induction ts using List.reverseRecOn with
  | nil =>
      constructor <;> intro _ before t after h <;> simp at h
  | append_singleton ts t ih =>
      have hts := (List.pairwise_append.mp hasc).1
      constructor
      · intro hright before t' after h
        have hfront : StopsRight sorted ts := fun front u rest he =>
          hright front u (rest ++ [t]) (by rw [he]; simp)
        rcases split_concat h with ⟨hbefore, ht⟩ | ⟨after', he⟩
        · rw [hbefore, ht]
          exact (stop_right_iff hs hasc hfront).mp (hright ts t [] rfl)
        · exact (ih hts).mp hfront before t' after' he
      · intro hharmless before t' after h
        have hfront : StopsRight sorted ts := (ih hts).mpr fun front u rest he =>
          hharmless front u (rest ++ [t]) (by rw [he]; simp)
        rcases split_concat h with ⟨hbefore, ht⟩ | ⟨after', he⟩
        · rw [hbefore, ht]
          exact (stop_right_iff hs hasc hfront).mpr (hharmless ts t [] rfl)
        · exact hfront before t' after' he

/-- The loop returns the right tips exactly if the walk stops right. -/
theorem rewardWalk_eq_iff {last : Nat × Nat} (hlast : sorted.getLast? = some last) (ts : List Nat) :
    (runInputs (rewardStep last.2) ts ⟨0, sorted⟩).1 = ts.map (percentileTip sorted)
      ↔ StopsRight sorted ts := by
  induction ts using List.reverseRecOn with
  | nil =>
      refine ⟨fun _ before t after h => ?_, fun _ => rfl⟩
      simp at h
  | append_singleton ts t ih =>
      rw [rewardWalk_tips hlast, List.map_append, List.map_singleton]
      constructor
      · intro h before t' after he
        obtain ⟨hfront, htip⟩ := List.append_inj' h rfl
        rcases split_concat he with ⟨hbefore, ht⟩ | ⟨after', hts⟩
        · rw [hbefore, ht]
          exact List.head_eq_of_cons_eq htip
        · exact ih.mp hfront before t' after' hts
      · intro h
        have hfront : StopsRight sorted ts := fun front u rest he =>
          h front u (rest ++ [t]) (by rw [he]; simp)
        rw [ih.mpr hfront, h ts t [] rfl]

/-- The transactions are sorted, and none is missing. -/
theorem txGasAndTip_sorted (effectiveTipPerGas : Tx → Nat → Option Nat) (baseFee : Nat)
    (txs : List Tx) (receipts : List ColdReceipt) :
    (txGasAndTip effectiveTipPerGas baseFee txs receipts).Pairwise fun a b => a.2 ≤ b.2 := by
  refine List.Pairwise.imp of_decide_eq_true (List.pairwise_mergeSort ?_ ?_ _)
  · intro a b c hab hbc
    rw [decide_eq_true_eq] at hab hbc ⊢
    exact Nat.le_trans hab hbc
  · intro a b
    rw [Bool.or_eq_true, decide_eq_true_eq, decide_eq_true_eq]
    exact Nat.le_total a.2 b.2

/-- On a block with transactions the function is the loop. -/
theorem calculateRewardPercentiles_loop (threshold : Nat → Pct → Nat)
    (effectiveTipPerGas : Tx → Nat → Option Nat) (baseFee : Nat) {gasUsed : Nat} {txs : List Tx}
    {receipts : List ColdReceipt} (hgas : 0 < gasUsed) (htxs : txs ≠ [])
    (hlen : txs.length = receipts.length) :
    ∃ last, (txGasAndTip effectiveTipPerGas baseFee txs receipts).getLast? = some last ∧
      ∀ percentiles : List Pct,
        calculateRewardPercentiles threshold effectiveTipPerGas percentiles gasUsed baseFee txs
          receipts
        = some (runInputs (rewardStep last.2) (percentiles.map (threshold gasUsed))
            ⟨0, txGasAndTip effectiveTipPerGas baseFee txs receipts⟩).1 := by
  have hpos : 0 < txs.length := List.length_pos_iff.mpr htxs
  have hsize : (txGasAndTip effectiveTipPerGas baseFee txs receipts).length = txs.length := by
    unfold txGasAndTip
    rw [List.length_mergeSort, List.length_map, List.length_zip]
    omega
  obtain ⟨last, hlast⟩ : ∃ last,
      (txGasAndTip effectiveTipPerGas baseFee txs receipts).getLast? = some last :=
    ⟨_, List.getLast?_eq_some_getLast (List.ne_nil_of_length_pos (by omega))⟩
  refine ⟨last, hlast, fun percentiles => ?_⟩
  unfold calculateRewardPercentiles
  have hmain : ¬ (gasUsed = 0 ∨ txs.isEmpty) := by
    rw [List.isEmpty_iff]
    intro h
    rcases h with h | h
    · omega
    · exact htxs h
  rw [if_neg hmain]
  simp only [hlast]

/-- **The rewards are right, and those of each percentile alone, exactly if no gas that
is counted again lowers a threshold to a cheaper tip.** -/
theorem calculateRewardPercentiles_right_iff {threshold : Nat → Pct → Nat}
    {effectiveTipPerGas : Tx → Nat → Option Nat} {gasUsed baseFee : Nat} {txs : List Tx}
    {receipts : List ColdReceipt} (hgas : 0 < gasUsed) (htxs : txs ≠ [])
    (hlen : txs.length = receipts.length) {percentiles : List Pct}
    (hasc : (percentiles.map (threshold gasUsed)).Pairwise (· ≤ ·)) :
    (calculateRewardPercentiles threshold effectiveTipPerGas percentiles gasUsed baseFee txs
        receipts
        = some ((percentiles.map (threshold gasUsed)).map
            (percentileTip (txGasAndTip effectiveTipPerGas baseFee txs receipts)))
      ∧ ∀ p ∈ percentiles,
        calculateRewardPercentiles threshold effectiveTipPerGas [p] gasUsed baseFee txs receipts
          = some [percentileTip (txGasAndTip effectiveTipPerGas baseFee txs receipts)
              (threshold gasUsed p)])
      ↔ ∀ before t after, percentiles.map (threshold gasUsed) = before ++ t :: after →
          RecountHarmless (txGasAndTip effectiveTipPerGas baseFee txs receipts) before t := by
  obtain ⟨last, hlast, hloop⟩ :=
    calculateRewardPercentiles_loop threshold effectiveTipPerGas baseFee hgas htxs hlen
  have hsorted := txGasAndTip_sorted effectiveTipPerGas baseFee txs receipts
  have halone : ∀ t : Nat,
      (runInputs (rewardStep last.2) [t]
        ⟨0, txGasAndTip effectiveTipPerGas baseFee txs receipts⟩).1
      = [percentileTip (txGasAndTip effectiveTipPerGas baseFee txs receipts) t] := by
    intro t
    refine (rewardWalk_eq_iff hlast [t]).mpr ((stopsRight_iff hsorted (by simp)).mpr ?_)
    intro before t' after h
    rcases split_concat (l := []) h with ⟨hbefore, _⟩ | ⟨after', hfront⟩
    · subst hbefore
      exact Or.inl rfl
    · simp at hfront
  rw [hloop, Option.some_inj, rewardWalk_eq_iff hlast, stopsRight_iff hsorted hasc]
  refine ⟨And.left, fun h => ⟨h, fun p _ => ?_⟩⟩
  rw [hloop, List.map_singleton, halone]

section ThreeTxs

/-- Three transactions of ten gas each, with tips one, two and three. -/
def threeTxs : List (Nat × Nat) := [(10, 1), (10, 2), (10, 3)]

def percentOf (gasUsed p : Nat) : Nat := gasUsed * p / 100

def tipPerGas (tip _baseFee : Nat) : Option Nat := some tip

theorem txGasAndTip_threeTxs :
    txGasAndTip tipPerGas 0 [1, 2, 3] [⟨10⟩, ⟨10⟩, ⟨10⟩] = threeTxs :=
  List.mergeSort_of_pairwise (by decide)

/-- Two percentiles in the first transaction: its gas counted again does no harm. -/
theorem calculateRewardPercentiles_right_iff_threeTxs :
    calculateRewardPercentiles percentOf tipPerGas [10, 30] 30 0 [1, 2, 3] [⟨10⟩, ⟨10⟩, ⟨10⟩]
      = some (([10, 30].map (percentOf 30)).map
          (percentileTip (txGasAndTip tipPerGas 0 [1, 2, 3] [⟨10⟩, ⟨10⟩, ⟨10⟩]))) := by
  have hright := @calculateRewardPercentiles_right_iff Nat Nat percentOf tipPerGas 30 0 [1, 2, 3]
    [⟨10⟩, ⟨10⟩, ⟨10⟩] (by decide) (by simp) rfl [10, 30] (by decide)
  refine (hright.mpr ?_).1
  rw [txGasAndTip_threeTxs]
  intro before t after h
  rcases before with _ | ⟨a, _ | ⟨b, rest⟩⟩
  · exact Or.inl rfl
  · injection h with ha h
    injection h with ht _
    subst ha ht
    exact Or.inl (by decide)
  · simp at h

/-- **The median of three equal transactions is the cheapest tip**, if the first tenth
is asked for with it: the ten gas of the first transaction are counted twice. -/
theorem calculateRewardPercentiles_counts_twice :
    calculateRewardPercentiles percentOf tipPerGas [10, 50] 30 0 [1, 2, 3] [⟨10⟩, ⟨10⟩, ⟨10⟩]
        = some [1, 1]
      ∧ calculateRewardPercentiles percentOf tipPerGas [50] 30 0 [1, 2, 3] [⟨10⟩, ⟨10⟩, ⟨10⟩]
        = some [2]
      ∧ ([10, 50].map (percentOf 30)).map
          (percentileTip (txGasAndTip tipPerGas 0 [1, 2, 3] [⟨10⟩, ⟨10⟩, ⟨10⟩])) = [1, 2] := by
  unfold calculateRewardPercentiles
  rw [txGasAndTip_threeTxs]
  exact ⟨rfl, rfl, by decide⟩

end ThreeTxs

end NodeComponents.Rpc
