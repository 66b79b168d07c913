import Mathlib.Data.Rat.Floor
import NodeComponents.Lib.Fallible
import NodeComponents.Lib.Word
import NodeComponents.Rpc.FeeHistory
import NodeComponents.Rpc.Snapshots

/-!
# `eth_feeHistory`

A request asks for a number of blocks up to a newest one, and maybe for percentiles.
The range of headers is computed first, in unchecked words; then the percentiles are
looked at, two neighbours at a time; then the headers are read, and for percentiles
the transactions and receipts of each block.

Two requests make the arithmetic go wrong: a newest block at the top of the words, and
a single pending block, for which nothing is left to ask. Of a pair of neighbours only
the first is compared with 100, and nothing with 0, so the ends of a list of percentiles
are hardly checked.

Percentiles and ratios are exact rationals here; what comes from the header and
transaction types is an argument.
-/

namespace NodeComponents.Rpc

open Lib Lib.Word

variable {Tx E : Type}

/-! ## The code -/

/-- The bounds of the configuration on a request. -/
structure FeeHistoryConfig where
  maxHeaderHistory : Nat
  maxBlockHistory : Nat
deriving DecidableEq, Repr

/-- `FeeHistoryArgs` -/
structure FeeHistoryArgs where
  blockCount : Nat
  newest : BlockNumberOrTag
  rewardPercentiles : Option (List Rat)
deriving DecidableEq

/-- What is used of a header in cold storage. -/
structure FeeHeader where
  baseFeePerGas : Option Nat
  gasLimit : Nat
  gasUsed : Nat
deriving DecidableEq, Repr

/-- What comes from the header and transaction types. -/
structure FeeRules (Tx : Type) where
  nextBlockBaseFee : FeeHeader → Option Nat
  effectiveTipPerGas : Tx → Nat → Option Nat

/-- Cold storage, as it answers one request. -/
structure FeeCold (Tx E : Type) where
  getHeaders : List Nat → Except E (List (Option FeeHeader))
  /-- The joined reads of the transactions and the receipts of a block. -/
  getBlock : Nat → Except E (List Tx × List ColdReceipt)

inductive FeeError (E : Type) where
  | invalidParams (message : String)
  | internal (message : String)
  | cold (e : E)
  | taskPanic
deriving DecidableEq, Repr

/-- The response; its default is the one to a request for no blocks. -/
structure FeeHistoryResponse where
  baseFeePerGas : List Nat := []
  gasUsedRatio : List Rat := []
  baseFeePerBlobGas : List Nat := []
  blobGasUsedRatio : List Rat := []
  oldestBlock : Nat := 0
  reward : Option (List (List Nat)) := none
deriving DecidableEq

def BlockNumberOrTag.isPending (tag : BlockNumberOrTag) : Bool := tag = .pending

def maxFeeHistory (cfg : FeeHistoryConfig) (args : FeeHistoryArgs) : Nat :=
  if args.rewardPercentiles.isNone then cfg.maxHeaderHistory else cfg.maxBlockHistory

/-- The number of blocks after the bound of the configuration and the pending block. -/
def clampedCount (cfg : FeeHistoryConfig) (args : FeeHistoryArgs) : Nat :=
  let blockCount := min args.blockCount (maxFeeHistory cfg args)
  if args.newest.isPending then blockCount - 1 else blockCount

/-- The newest block that is read: the latest one for a pending request. -/
def endBlock (tags : BlockTags) (args : FeeHistoryArgs) : Nat :=
  resolveBlockTag tags (if args.newest.isPending then .latest else args.newest)

/-- The first block that is read. -/
def startBlock (cfg : FeeHistoryConfig) (tags : BlockTags) (args : FeeHistoryArgs) : Nat :=
  let endBlockPlus := u64Add (endBlock tags args) 1
  u64Sub endBlockPlus (min (clampedCount cfg args) endBlockPlus)

/-- The first block that is read, with checks. -/
def startBlockChecked (cfg : FeeHistoryConfig) (tags : BlockTags) (args : FeeHistoryArgs) :
    Option Nat := do
  let endBlockPlus ← checkedAdd u64Size (endBlock tags args) 1
  checkedSub endBlockPlus (min (clampedCount cfg args) endBlockPlus)

/-- The specifiers of the headers that are asked for. Collecting them for every number a word
can hold would panic, and nothing would be asked for. -/
def headerSpecs (cfg : FeeHistoryConfig) (tags : BlockTags) (args : FeeHistoryArgs) : List Nat :=
  List.range' (startBlock cfg tags args) (endBlock tags args + 1 - startBlock cfg tags args)

/-- The check of the percentiles, on windows of two. -/
def invalidPercentiles (percentiles : List Rat) : Bool :=
  (percentiles.zip percentiles.tail).any fun w => w.2 < w.1 || 100 < w.1

/-- The gas a percentile stands for; the cast to a word saturates. -/
def rewardThreshold (gasUsed : Nat) (percentile : Rat) : Nat :=
  saturate u64Size (gasUsed * percentile / 100 : Rat).floor.toNat

/-- What the loop over the headers adds for one of them. -/
structure FeeRow where
  baseFee : Nat
  ratio : Rat
  rewards : Option (List Nat)

/-- The rewards of a block, if there are percentiles. -/
def blockRewards (rules : FeeRules Tx) (cold : FeeCold Tx E) (percentiles : Option (List Rat))
    (blockNum : Nat) (header : FeeHeader) : Except (FeeError E) (Option (List Nat)) :=
  match percentiles with
  | none => .ok none
  | some percentiles => do
    let (txs, receipts) ← (cold.getBlock blockNum).mapError .cold
    -- a panic while the rewards are computed ends the task of the request
    match calculateRewardPercentiles rewardThreshold rules.effectiveTipPerGas percentiles
        header.gasUsed (header.baseFeePerGas.getD 0) txs receipts with
    | none => .error .taskPanic
    | some blockRewards => return some blockRewards

/-- The loop over the headers. -/
def feeRows (rules : FeeRules Tx) (cold : FeeCold Tx E) (percentiles : Option (List Rat))
    (start : Nat) : Nat → List (Option FeeHeader) → Except (FeeError E) (List FeeRow)
  | _, [] => .ok []
  | offset, none :: _ =>
    .error (.internal ("missing header at block " ++ toString (u64Add start offset)))
  | offset, some header :: rest => do
    let rewards ← blockRewards rules cold percentiles (u64Add start offset) header
    let rows ← feeRows rules cold percentiles start (offset + 1) rest
    return ⟨header.baseFeePerGas.getD 0,
      if 0 < header.gasLimit then header.gasUsed / header.gasLimit else 0, rewards⟩ :: rows

/-- `fee_history` -/
def feeHistory (rules : FeeRules Tx) (cfg : FeeHistoryConfig) (tags : BlockTags)
    (cold : FeeCold Tx E) (args : FeeHistoryArgs) : Except (FeeError E) FeeHistoryResponse :=
  if args.blockCount = 0 then .ok {}
  else if args.rewardPercentiles.any invalidPercentiles then
    .error (.invalidParams "invalid reward percentiles")
  else do
    -- the specifiers are collected first, which panics if there is one for every word
    let headers ← (cold.getHeaders (headerSpecs cfg tags args)).mapError .cold
    let rows ← feeRows rules cold args.rewardPercentiles (startBlock cfg tags args) 0 headers
    let baseFeePerGas := rows.map FeeRow.baseFee ++
      (headers.getLast?.join.map fun header => (rules.nextBlockBaseFee header).getD 0).toList
    -- the blob fields are zeros, as many as there are fees and ratios
    return {
      baseFeePerGas := baseFeePerGas
      gasUsedRatio := rows.map FeeRow.ratio
      baseFeePerBlobGas := List.replicate baseFeePerGas.length 0
      blobGasUsedRatio := List.replicate rows.length 0
      oldestBlock := startBlock cfg tags args
      reward := args.rewardPercentiles.map fun _ => rows.filterMap FeeRow.rewards }

/-! ## The percentiles that are accepted -/

/-- In bounds, and not decreasing. -/
def ValidPercentiles (percentiles : List Rat) : Prop :=
  (∀ p ∈ percentiles, 0 ≤ p ∧ p ≤ 100) ∧ percentiles.Pairwise (· ≤ ·)

/-- The request was rejected for its parameters. -/
def Rejected (r : Except (FeeError E) FeeHistoryResponse) : Prop :=
  ∃ message, r = .error (.invalidParams message)

/-- **What the windows of two tell**: the order, and a bound on all but the last. -/
theorem invalidPercentiles_eq_false_iff {percentiles : List Rat} :
    invalidPercentiles percentiles = false
      ↔ percentiles.Pairwise (· ≤ ·) ∧ ∀ p ∈ percentiles.dropLast, p ≤ 100 := by
  induction percentiles with
  | nil => exact ⟨fun _ => ⟨List.Pairwise.nil, by simp⟩, fun _ => rfl⟩
  | cons a rest ih =>
      cases rest with
      | nil => exact ⟨fun _ => ⟨List.pairwise_singleton _ _, by simp⟩, fun _ => rfl⟩
      | cons b rest =>
          have hstep : invalidPercentiles (a :: b :: rest) = false
              ↔ (a ≤ b ∧ a ≤ 100) ∧ invalidPercentiles (b :: rest) = false := by
            show ((decide (b < a) || decide (100 < a)) || invalidPercentiles (b :: rest))
              = false ↔ _
            simp only [Bool.or_eq_false_iff, decide_eq_false_iff_not, not_lt]
          rw [hstep, ih, List.dropLast_cons_cons]
          constructor
          · rintro ⟨⟨hab, ha⟩, hsorted, hbound⟩
            refine ⟨List.pairwise_cons.mpr ⟨fun c hc => ?_, hsorted⟩, fun p hp => ?_⟩
            · rcases List.mem_cons.mp hc with rfl | hc
              · exact hab
              · exact le_trans hab ((List.pairwise_cons.mp hsorted).1 c hc)
            · rcases List.mem_cons.mp hp with rfl | hp
              · exact ha
              · exact hbound p hp
          · rintro ⟨hsorted, hbound⟩
            obtain ⟨hhead, htail⟩ := List.pairwise_cons.mp hsorted
            exact ⟨⟨hhead b List.mem_cons_self, hbound a List.mem_cons_self⟩, htail,
              fun p hp => hbound p (List.mem_cons_of_mem _ hp)⟩

/-- The rewards of a block are there exactly for percentiles, and no parameter is at fault. -/
theorem blockRewards_spec {rules : FeeRules Tx} {cold : FeeCold Tx E}
    {percentiles : Option (List Rat)} {blockNum : Nat} {header : FeeHeader} :
    (∀ message, blockRewards rules cold percentiles blockNum header
        ≠ .error (.invalidParams message))
      ∧ ∀ rewards, blockRewards rules cold percentiles blockNum header = .ok rewards →
        rewards.isSome = percentiles.isSome := by
  unfold blockRewards
  cases percentiles with
  | none =>
      refine ⟨fun _ => by simp, fun rewards h => ?_⟩
      obtain rfl := Except.ok.inj h
      rfl
  | some ps =>
      constructor
      · intro message h
        rcases bind_error h with hread | ⟨⟨txs, receipts⟩, _, h⟩
        · obtain ⟨_, _, he⟩ := mapError_error hread
          cases he
        · dsimp only at h
          split at h
          · cases h
          · cases h
      · intro rewards h
        obtain ⟨⟨txs, receipts⟩, _, h⟩ := bind_ok h
        dsimp only at h
        split at h
        · cases h
        · rw [← Except.ok.inj h]
          rfl

/-- The loop over the headers ends with an error of its own, or with a row for each. -/
theorem feeRows_spec {rules : FeeRules Tx} {cold : FeeCold Tx E}
    {percentiles : Option (List Rat)} {start : Nat} :
    ∀ {offset : Nat} {headers : List (Option FeeHeader)},
      (∀ message, feeRows rules cold percentiles start offset headers
          ≠ .error (.invalidParams message))
        ∧ ∀ rows, feeRows rules cold percentiles start offset headers = .ok rows →
          rows.length = headers.length ∧ (∀ header ∈ headers, header.isSome)
            ∧ ∀ row ∈ rows, row.rewards.isSome = percentiles.isSome
  | _, [] => by
      refine ⟨fun _ => by simp [feeRows], fun rows h => ?_⟩
      rw [← Except.ok.inj h]
      simp
  | _, none :: _ => ⟨fun _ => by simp [feeRows], fun rows h => by cases h⟩
  | offset, some header :: rest => by
      obtain ⟨hrewards, hsome⟩ := @blockRewards_spec Tx E rules cold percentiles
        (u64Add start offset) header
      obtain ⟨hfault, hrows⟩ := @feeRows_spec rules cold percentiles start (offset + 1) rest
      constructor
      · intro message h
        rcases bind_error h with h | ⟨_, _, h⟩
        · exact hrewards message h
        · rcases bind_error h with h | ⟨_, _, h⟩
          · exact hfault message h
          · cases h
      · intro rows h
        obtain ⟨rewards, hr, h⟩ := bind_ok h
        obtain ⟨later, hl, h⟩ := bind_ok h
        obtain ⟨hlen, hall, hrow⟩ := hrows later hl
        rw [← Except.ok.inj h]
        refine ⟨by simp [hlen], ?_, ?_⟩
        · intro x hx
          rcases List.mem_cons.mp hx with rfl | hx
          · rfl
          · exact hall x hx
        · intro row hr'
          rcases List.mem_cons.mp hr' with rfl | hr'
          · exact hsome rewards hr
          · exact hrow row hr'

/-- A request is rejected by the check of its percentiles alone. -/
theorem feeHistory_rejected_iff {rules : FeeRules Tx} {cfg : FeeHistoryConfig} {tags : BlockTags}
    {cold : FeeCold Tx E} {args : FeeHistoryArgs} :
    Rejected (feeHistory rules cfg tags cold args)
      ↔ args.blockCount ≠ 0 ∧ args.rewardPercentiles.any invalidPercentiles = true := by
  unfold Rejected feeHistory
  by_cases hcount : args.blockCount = 0
  · rw [if_pos hcount]
    refine ⟨fun ⟨_, h⟩ => ?_, fun h => absurd hcount h.1⟩
    cases h
  · rw [if_neg hcount]
    by_cases hinvalid : args.rewardPercentiles.any invalidPercentiles = true
    · rw [if_pos hinvalid]
      exact ⟨fun _ => ⟨hcount, hinvalid⟩, fun _ => ⟨_, rfl⟩⟩
    · rw [if_neg hinvalid]
      refine ⟨fun ⟨message, h⟩ => ?_, fun h => absurd h.2 hinvalid⟩
      rcases bind_error h with h | ⟨headers, _, h⟩
      · obtain ⟨_, _, he⟩ := mapError_error h
        cases he
      · rcases bind_error h with h | ⟨_, _, h⟩
        · exact absurd h (feeRows_spec.1 message)
        · cases h

/-- More percentiles stand for more gas. -/
theorem rewardThreshold_mono {gasUsed : Nat} {p q : Rat} (h : p ≤ q) :
    rewardThreshold gasUsed p ≤ rewardThreshold gasUsed q := by
  have hmul : (gasUsed * p / 100 : Rat) ≤ gasUsed * q / 100 := by
    have hgas : (0 : Rat) ≤ gasUsed := Nat.cast_nonneg gasUsed
    gcongr
  have hfloor := Rat.floor_monotone hmul
  unfold rewardThreshold saturate
  omega

/--
**The percentiles that are accepted.** The check answers as it should on exactly these
lists: the valid ones, and those of a request for blocks that decrease somewhere or exceed
100 before the last percentile.
-/
theorem percentiles_checked_iff (rules : FeeRules Tx) (cfg : FeeHistoryConfig) (tags : BlockTags)
    (cold : FeeCold Tx E) (blockCount : Nat) (newest : BlockNumberOrTag)
    (percentiles : List Rat) :
    ((Rejected (feeHistory rules cfg tags cold ⟨blockCount, newest, some percentiles⟩)
          ↔ ¬ ValidPercentiles percentiles)
        ∧ (¬ Rejected (feeHistory rules cfg tags cold ⟨blockCount, newest, some percentiles⟩) →
          percentiles.Pairwise (· ≤ ·)
            ∧ ∀ gasUsed, (percentiles.map (rewardThreshold gasUsed)).Pairwise (· ≤ ·)))
      ↔ ValidPercentiles percentiles
        ∨ (blockCount ≠ 0 ∧ (¬ percentiles.Pairwise (· ≤ ·)
          ∨ ∃ p ∈ percentiles.dropLast, 100 < p)) := by
  have hrejected := @feeHistory_rejected_iff Tx E rules cfg tags cold
    ⟨blockCount, newest, some percentiles⟩
  have hinvalid : invalidPercentiles percentiles = true
      ↔ ¬ percentiles.Pairwise (· ≤ ·) ∨ ∃ p ∈ percentiles.dropLast, 100 < p := by
    rw [← Bool.not_eq_false, invalidPercentiles_eq_false_iff, not_and_or]
    simp only [not_forall, not_le, exists_prop]
  have hvalid : ValidPercentiles percentiles → ¬ invalidPercentiles percentiles = true := by
    rintro ⟨hbound, hsorted⟩
    rw [Bool.not_eq_true]
    exact invalidPercentiles_eq_false_iff.mpr
      ⟨hsorted, fun p hp => (hbound p (List.dropLast_subset _ hp)).2⟩
  rw [hrejected, ← hinvalid]
  show ((blockCount ≠ 0 ∧ invalidPercentiles percentiles = true ↔ _)
    ∧ (¬ (blockCount ≠ 0 ∧ invalidPercentiles percentiles = true) → _)) ↔ _
  constructor
  · rintro ⟨hiff, _⟩
    by_cases h : ValidPercentiles percentiles
    · exact Or.inl h
    · exact Or.inr (hiff.mpr h)
  · rintro (h | h)
    · refine ⟨⟨fun hq => absurd hq.2 (hvalid h), fun hn => absurd h hn⟩, fun _ => ⟨h.2, ?_⟩⟩
      intro gasUsed
      exact List.pairwise_map.mpr (h.2.imp rewardThreshold_mono)
    · exact ⟨⟨fun _ hv => hvalid hv h.2, fun _ => h⟩, fun hn => absurd h hn⟩

/-- Blocks with no gas used, and one transaction type. -/
def noGasRules : FeeRules Unit := ⟨fun _ => some 7, fun _ _ => none⟩

def noGasCold : FeeCold Unit Unit where
  getHeaders specs := .ok (specs.map fun _ => some ⟨some 7, 30, 0⟩)
  getBlock _ := .ok ([], [])

/-- Rewards above 100 and below 0 percent are answered, as the ends of a list. -/
theorem percentiles_checked_ends :
    let answer := fun percentiles =>
      feeHistory noGasRules ⟨4, 4⟩ ⟨2, 1, 0⟩ noGasCold ⟨1, .latest, some percentiles⟩
    (answer [50, 150]).map FeeHistoryResponse.reward = .ok (some [[0, 0]])
      ∧ (answer [-5]).map FeeHistoryResponse.reward = .ok (some [[0]])
      ∧ ¬ ValidPercentiles [50, 150] ∧ ¬ ValidPercentiles [-5] := by
  refine ⟨by decide, by decide, ?_, ?_⟩
  · intro h
    exact absurd (h.1 150 (by simp)).2 (by decide)
  · intro h
    exact absurd (h.1 (-5) (by simp)).1 (by decide)

/-! ## The shape of the response -/

/-- Headers are answered one for one. -/
def FeeCold.Answers (cold : FeeCold Tx E) : Prop :=
  ∀ specs headers, cold.getHeaders specs = .ok headers → headers.length = specs.length

/-- One base fee more than ratios, and a row of rewards for each ratio if any were asked for. -/
def WellShaped (args : FeeHistoryArgs) (r : FeeHistoryResponse) : Prop :=
  r.baseFeePerGas.length = r.gasUsedRatio.length + 1
    ∧ ∀ percentiles, args.rewardPercentiles = some percentiles →
      ∃ rewards, r.reward = some rewards ∧ rewards.length = r.gasUsedRatio.length

/-- What a request may cost, and what it gets. -/
structure FeeHistoryBounded (E : Type) (rules : FeeRules Tx) (cfg : FeeHistoryConfig)
    (tags : BlockTags) (args : FeeHistoryArgs) : Prop where
  computed : startBlockChecked cfg tags args = some (startBlock cfg tags args)
  /-- The numbers of the loop are words. -/
  numbers : ∀ offset, offset < (headerSpecs cfg tags args).length →
    startBlock cfg tags args + offset < u64Size
  within : ∀ n ∈ headerSpecs cfg tags args, n ≤ endBlock tags args
  bounded : (headerSpecs cfg tags args).length ≤ min args.blockCount (maxFeeHistory cfg args)
  shaped : ∀ (cold : FeeCold Tx E) r, cold.Answers →
    feeHistory rules cfg tags cold args = .ok r → WellShaped args r

variable {rules : FeeRules Tx} {cfg : FeeHistoryConfig} {tags : BlockTags}
  {cold : FeeCold Tx E} {args : FeeHistoryArgs}

theorem clampedCount_le : clampedCount cfg args ≤ min args.blockCount (maxFeeHistory cfg args) := by
  unfold clampedCount
  dsimp only
  split <;> omega

/-- Without an overflow the headers are the last ones up to the newest. -/
theorem startBlock_eq (hfit : endBlock tags args + 1 < u64Size) :
    startBlock cfg tags args
      = endBlock tags args + 1 - min (clampedCount cfg args) (endBlock tags args + 1) := by
  unfold startBlock
  rw [u64Add_of_lt hfit, u64Sub_of_le (Nat.min_le_right _ _) hfit]

theorem headerSpecs_length (hfit : endBlock tags args + 1 < u64Size) :
    (headerSpecs cfg tags args).length
      = min (clampedCount cfg args) (endBlock tags args + 1) := by
  unfold headerSpecs
  rw [List.length_range', startBlock_eq hfit]
  omega

theorem startBlockChecked_eq_iff :
    startBlockChecked cfg tags args = some (startBlock cfg tags args)
      ↔ endBlock tags args + 1 < u64Size := by
  unfold startBlockChecked
  constructor
  · intro h
    obtain ⟨_, hadd, _⟩ := Option.bind_eq_some_iff.mp h
    exact (checkedAdd_eq_some.mp hadd).1
  · intro hfit
    exact Option.bind_eq_some_iff.mpr ⟨_, checkedAdd_eq_some.mpr ⟨hfit, rfl⟩,
      checkedSub_eq_some.mpr ⟨Nat.min_le_right _ _, (startBlock_eq hfit).symm⟩⟩

/-- What a successful request is made of. -/
theorem feeHistory_ok {r : FeeHistoryResponse} (hcount : args.blockCount ≠ 0)
    (h : feeHistory rules cfg tags cold args = .ok r) :
    args.rewardPercentiles.any invalidPercentiles = false
      ∧ ∃ headers rows, cold.getHeaders (headerSpecs cfg tags args) = .ok headers
        ∧ feeRows rules cold args.rewardPercentiles (startBlock cfg tags args) 0 headers = .ok rows
        ∧ r.baseFeePerGas = rows.map FeeRow.baseFee ++
          (headers.getLast?.join.map fun header => (rules.nextBlockBaseFee header).getD 0).toList
        ∧ r.gasUsedRatio = rows.map FeeRow.ratio
        ∧ r.reward = args.rewardPercentiles.map fun _ => rows.filterMap FeeRow.rewards := by
  unfold feeHistory at h
  rw [if_neg hcount] at h
  by_cases hinvalid : args.rewardPercentiles.any invalidPercentiles = true
  · rw [if_pos hinvalid] at h
    cases h
  · rw [if_neg hinvalid] at h
    refine ⟨Bool.not_eq_true _ ▸ hinvalid, ?_⟩
    obtain ⟨headers, hheaders, h⟩ := bind_ok h
    obtain ⟨rows, hrows, h⟩ := bind_ok h
    obtain rfl := Except.ok.inj h
    exact ⟨headers, rows, mapError_ok hheaders, hrows, rfl, rfl, rfl⟩

/-- A row for each header, and rewards for each row. -/
theorem filterMap_rewards_length {rows : List FeeRow}
    (h : ∀ row ∈ rows, row.rewards.isSome = true) :
    (rows.filterMap FeeRow.rewards).length = rows.length := by
  induction rows with
  | nil => rfl
  | cons row rows ih =>
      obtain ⟨rewards, hrow⟩ := Option.isSome_iff_exists.mp (h row List.mem_cons_self)
      rw [List.filterMap_cons_some hrow, List.length_cons, List.length_cons,
        ih fun r hr => h r (List.mem_cons_of_mem _ hr)]

/-- **A response to at least one header is well shaped.** -/
theorem wellShaped_of_specs {r : FeeHistoryResponse} (hcount : args.blockCount ≠ 0)
    (hspecs : headerSpecs cfg tags args ≠ []) (hcold : cold.Answers)
    (h : feeHistory rules cfg tags cold args = .ok r) : WellShaped args r := by
  obtain ⟨_, headers, rows, hheaders, hrows, hbase, hratio, hreward⟩ := feeHistory_ok hcount h
  obtain ⟨hlen, hsome, hrewards⟩ := feeRows_spec.2 rows hrows
  have hne : headers ≠ [] := by
    have hpos := List.length_pos_iff.mpr hspecs
    rw [← hcold _ _ hheaders] at hpos
    exact List.length_pos_iff.mp hpos
  obtain ⟨last, hlast⟩ := Option.isSome_iff_exists.mp (hsome _ (List.getLast_mem hne))
  refine ⟨?_, fun percentiles hp => ⟨rows.filterMap FeeRow.rewards, ?_, ?_⟩⟩
  · rw [hbase, hratio, List.getLast?_eq_some_getLast hne, hlast]
    simp
  · rw [hreward, hp]
    rfl
  · rw [hratio, List.length_map]
    refine filterMap_rewards_length fun row hrow => ?_
    rw [hrewards row hrow, hp]
    rfl

/-- With no header to read, a response that is not rejected has no base fee at all. -/
theorem not_wellShaped_of_nil (E : Type) (rules : FeeRules Tx) (hcount : args.blockCount ≠ 0)
    (hvalid : ¬ args.rewardPercentiles.any invalidPercentiles = true)
    (hspecs : headerSpecs cfg tags args = []) :
    ∃ cold : FeeCold Tx E, cold.Answers
      ∧ ∃ r, feeHistory rules cfg tags cold args = .ok r ∧ ¬ WellShaped args r := by
  refine ⟨⟨fun specs => .ok (specs.map fun _ => none), fun _ => .ok ([], [])⟩, ?_, ?_⟩
  · intro specs headers hok
    obtain rfl := Except.ok.inj hok
    exact List.length_map _
  · unfold feeHistory
    rw [if_neg hcount, if_neg hvalid, hspecs]
    refine ⟨_, rfl, fun hshape => ?_⟩
    cases hshape.1

/-- Nothing is left of a positive count only for a single pending block. -/
theorem clampedCount_eq_zero_iff (hmin : 1 ≤ min args.blockCount (maxFeeHistory cfg args)) :
    clampedCount cfg args = 0
      ↔ args.newest = .pending ∧ min args.blockCount (maxFeeHistory cfg args) < 2 := by
  unfold clampedCount BlockNumberOrTag.isPending
  dsimp only
  by_cases hpending : args.newest = .pending
  · rw [if_pos (by rw [hpending]; rfl)]
    simp only [hpending, true_and]
    omega
  · rw [if_neg (by simpa using hpending)]
    exact iff_of_false (by omega) fun h => hpending h.1

/--
**A request is bounded and its response well shaped**, if and only if its newest block is
below the largest word, and it is not a pending request that comes down to a single block
(and is not rejected for its percentiles).
-/
theorem feeHistory_bounded_iff (E : Type) (rules : FeeRules Tx) {cfg : FeeHistoryConfig}
    (tags : BlockTags) {args : FeeHistoryArgs} (hcount : 1 ≤ args.blockCount)
    (hheaders : 1 ≤ cfg.maxHeaderHistory) (hblocks : 1 ≤ cfg.maxBlockHistory) :
    FeeHistoryBounded E rules cfg tags args
      ↔ endBlock tags args + 1 < u64Size
        ∧ (args.newest = .pending → 2 ≤ min args.blockCount (maxFeeHistory cfg args)
          ∨ args.rewardPercentiles.any invalidPercentiles = true) := by
  have hmin : 1 ≤ min args.blockCount (maxFeeHistory cfg args) := by
    unfold maxFeeHistory
    split <;> omega
  have hcount' : args.blockCount ≠ 0 := by omega
  have hzero := clampedCount_eq_zero_iff hmin
  constructor
  · intro h
    have hfit := startBlockChecked_eq_iff.mp h.computed
    refine ⟨hfit, fun hpending => ?_⟩
    by_contra hnot
    -- a single pending block, not rejected: no header is asked for
    obtain ⟨hone, hvalid⟩ := not_or.mp hnot
    have hspecs : headerSpecs cfg tags args = [] := by
      refine List.eq_nil_of_length_eq_zero ?_
      rw [headerSpecs_length hfit, hzero.mpr ⟨hpending, by omega⟩, Nat.zero_min]
    obtain ⟨cold, hcold, r, hr, hshape⟩ := not_wellShaped_of_nil E rules hcount' hvalid hspecs
    exact hshape (h.shaped cold r hcold hr)
  · rintro ⟨hfit, hpending⟩
    have hlen := @headerSpecs_length cfg tags args hfit
    have hstart := @startBlock_eq cfg tags args hfit
    have hclamp := @clampedCount_le cfg args
    refine ⟨startBlockChecked_eq_iff.mpr hfit, ?_, ?_, by omega, ?_⟩
    · intro offset hoffset
      omega
    · intro n hn
      have hn := (List.mem_range'_1.mp hn).2
      omega
    · intro cold r hcold hr
      -- a pending request that was answered was not rejected, so two blocks were asked for
      have hclamped : clampedCount cfg args ≠ 0 := by
        intro hnone
        obtain ⟨hp, hone⟩ := hzero.mp hnone
        rcases hpending hp with htwo | hinvalid
        · omega
        · rw [(feeHistory_ok hcount' hr).1] at hinvalid
          cases hinvalid
      refine wellShaped_of_specs hcount' ?_ hcold hr
      refine List.ne_nil_of_length_pos ?_
      omega

/-- Five blocks up to the latest, with two percentiles. -/
theorem feeHistory_bounded_iff_fiveBlocks :
    FeeHistoryBounded Unit noGasRules ⟨4, 4⟩ ⟨2, 1, 0⟩ ⟨5, .latest, some [25, 75]⟩ :=
  (feeHistory_bounded_iff Unit noGasRules ⟨2, 1, 0⟩ (by decide) (by decide) (by decide)).mpr
    ⟨by decide, fun h => by cases h⟩

/-- For one block up to the largest number the specifiers of every header there can be are to
be collected, which panics; one pending block is answered with no base fee at all. -/
theorem feeHistory_bounded_ends :
    let cfg : FeeHistoryConfig := ⟨4, 4⟩
    let tags : BlockTags := ⟨2, 1, 0⟩
    let largest : FeeHistoryArgs := ⟨1, .number (u64Size - 1), none⟩
    startBlockChecked cfg tags largest = none
      ∧ (headerSpecs cfg tags largest).length = u64Size
      ∧ feeHistory noGasRules cfg tags noGasCold ⟨1, .pending, none⟩
        = .ok { oldestBlock := 3 } := by
  intro cfg tags largest
  refine ⟨by decide, ?_, by decide⟩
  unfold headerSpecs
  rw [List.length_range']
  decide

end NodeComponents.Rpc
