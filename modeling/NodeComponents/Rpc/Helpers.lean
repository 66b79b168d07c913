import NodeComponents.Lib.Word
import NodeComponents.NodeTypes

/-!
# Transactions and receipts as the RPC returns them

A transaction and its receipt are built from what cold storage keeps, and both report
the price per gas that was paid. It is computed in words from a tip that is wider: the
tip is cut to a word, and the base fee added without a check. So a price is reported
right exactly if it is a word.

The transaction type, the bloom filter and the address of a created contract come from
outside this repository and are arguments; a transaction of any of the five types is a
value of one type here.
-/

namespace NodeComponents.Rpc.Helpers

open Lib.Word

variable {Tx A L Bl : Type}

/-! ## The code -/

inductive TxType where
  | legacy
  | eip2930
  | eip1559
  | eip4844
  | eip7702
deriving DecidableEq, Repr

inductive TxKind (A : Type) where
  | create
  | call (address : A)
deriving DecidableEq, Repr

structure Receipt (L : Type) where
  status : Bool
  cumulativeGasUsed : Nat
  logs : List L
deriving DecidableEq, Repr

/-- What comes from the transaction, receipt and address types. -/
structure TxRules (Tx A L Bl : Type) where
  txType : Tx → TxType
  nonce : Tx → Nat
  kind : Tx → TxKind A
  gasPrice : Tx → Nat
  maxFeePerGas : Tx → Nat
  maxPriorityFeePerGas : Tx → Nat
  effectiveTipPerGas : Tx → Nat → Option Nat
  bloom : Receipt L → Bl
  create : A → Nat → A

/-- A receipt in cold storage. -/
structure ColdReceipt (A L : Type) where
  receipt : Receipt L
  txType : TxType
  txHash : B256
  transactionIndex : Nat
  blockHash : B256
  blockNumber : Nat
  sender : A
  gasUsed : Nat
deriving DecidableEq, Repr

structure ConfirmationMeta where
  blockNumber : Nat
  blockHash : B256
  transactionIndex : Nat
deriving DecidableEq, Repr

/-- A transaction as the RPC returns it. -/
structure RpcTransaction (Tx : Type) where
  inner : Tx
  blockHash : Option B256
  blockNumber : Option Nat
  transactionIndex : Option Nat
  effectiveGasPrice : Option Nat
deriving DecidableEq, Repr

structure ReceiptWithBloom (L Bl : Type) where
  receipt : Receipt L
  logsBloom : Bl
deriving DecidableEq, Repr

inductive ReceiptEnvelope (L Bl : Type) where
  | legacy (receipt : ReceiptWithBloom L Bl)
  | eip2930 (receipt : ReceiptWithBloom L Bl)
  | eip1559 (receipt : ReceiptWithBloom L Bl)
  | eip4844 (receipt : ReceiptWithBloom L Bl)
  | eip7702 (receipt : ReceiptWithBloom L Bl)
deriving DecidableEq, Repr

/-- A receipt as the RPC returns it. -/
structure TransactionReceipt (A L Bl : Type) where
  inner : ReceiptEnvelope L Bl
  transactionHash : B256
  transactionIndex : Option Nat
  blockHash : Option B256
  blockNumber : Option Nat
  sender : A
  «to» : Option A
  gasUsed : Nat
  contractAddress : Option A
  effectiveGasPrice : Nat
  blobGasPrice : Option Nat
  blobGasUsed : Option Nat
deriving DecidableEq, Repr

/-- The price both functions compute: the tip is cast to a word before the base fee is added. -/
def effectiveGasPrice (x : TxRules Tx A L Bl) (tx : Tx) : Option Nat → Nat
  | some baseFee => u64Add (truncate u64Size ((x.effectiveTipPerGas tx baseFee).getD 0)) baseFee
  | none => truncate u64Size (x.maxFeePerGas tx)

def buildRpcTransaction (x : TxRules Tx A L Bl) (tx : Tx) (confirmed : ConfirmationMeta)
    (baseFee : Option Nat) : RpcTransaction Tx where
  inner := tx
  blockHash := some confirmed.blockHash
  blockNumber := some confirmed.blockNumber
  transactionIndex := some confirmed.transactionIndex
  effectiveGasPrice := some (effectiveGasPrice x tx baseFee)

/-- Wrap a receipt in the variant of its type. -/
def buildReceiptEnvelope (receipt : ReceiptWithBloom L Bl) : TxType → ReceiptEnvelope L Bl
  | .legacy => .legacy receipt
  | .eip2930 => .eip2930 receipt
  | .eip1559 => .eip1559 receipt
  | .eip4844 => .eip4844 receipt
  | .eip7702 => .eip7702 receipt

def buildReceipt (x : TxRules Tx A L Bl) (cr : ColdReceipt A L) (tx : Tx)
    (baseFee : Option Nat) : TransactionReceipt A L Bl :=
  let (contractAddress, recipient) := match x.kind tx with
    | .create => (some (x.create cr.sender (x.nonce tx)), none)
    | .call address => (none, some address)
  { inner := buildReceiptEnvelope ⟨cr.receipt, x.bloom cr.receipt⟩ cr.txType
    transactionHash := cr.txHash
    transactionIndex := some cr.transactionIndex
    blockHash := some cr.blockHash
    blockNumber := some cr.blockNumber
    sender := cr.sender
    «to» := recipient
    gasUsed := cr.gasUsed
    contractAddress := contractAddress
    effectiveGasPrice := effectiveGasPrice x tx baseFee
    blobGasPrice := none
    blobGasUsed := none }

/-! ## The price that was paid -/

/-- The fees of a transaction: the tip is what the priority fee and the cap leave, and the
types before EIP-1559 have their gas price for both. -/
structure TxRules.Fees (x : TxRules Tx A L Bl) : Prop where
  tip : ∀ tx baseFee, baseFee ≤ x.maxFeePerGas tx → x.effectiveTipPerGas tx baseFee
    = some (min (x.maxPriorityFeePerGas tx) (x.maxFeePerGas tx - baseFee))
  priced : ∀ tx, x.txType tx = .legacy ∨ x.txType tx = .eip2930 →
    x.maxFeePerGas tx = x.gasPrice tx ∧ x.maxPriorityFeePerGas tx = x.gasPrice tx

/-- The price per gas that a transaction pays. -/
def pricePaid (x : TxRules Tx A L Bl) (tx : Tx) (baseFee : Nat) : Nat :=
  match x.txType tx with
  | .legacy => x.gasPrice tx
  | .eip2930 => x.gasPrice tx
  | _ => min (x.maxFeePerGas tx) (baseFee + x.maxPriorityFeePerGas tx)

/-- Both responses report the price, and nothing was cut off or carried on the way. -/
structure PriceReported (x : TxRules Tx A L Bl) (tx : Tx) (baseFee : Nat) : Prop where
  transaction : ∀ confirmed,
    (buildRpcTransaction x tx confirmed (some baseFee)).effectiveGasPrice
      = some (pricePaid x tx baseFee)
  receipt : ∀ cr, (buildReceipt x cr tx (some baseFee)).effectiveGasPrice
    = pricePaid x tx baseFee
  computed : ∃ tip, x.effectiveTipPerGas tx baseFee = some tip ∧ tip < u64Size
    ∧ checkedAdd u64Size tip baseFee = some (pricePaid x tx baseFee)

variable {x : TxRules Tx A L Bl} {tx : Tx} {baseFee : Nat}

/-- The price is the tip above the base fee, whatever the type. -/
theorem pricePaid_eq (hx : x.Fees) (hcap : baseFee ≤ x.maxFeePerGas tx) :
    pricePaid x tx baseFee
      = min (x.maxPriorityFeePerGas tx) (x.maxFeePerGas tx - baseFee) + baseFee := by
  have hdynamic : min (x.maxFeePerGas tx) (baseFee + x.maxPriorityFeePerGas tx)
      = min (x.maxPriorityFeePerGas tx) (x.maxFeePerGas tx - baseFee) + baseFee := by omega
  have hlegacy (htype : x.txType tx = .legacy ∨ x.txType tx = .eip2930) : x.gasPrice tx
      = min (x.maxPriorityFeePerGas tx) (x.maxFeePerGas tx - baseFee) + baseFee := by
    obtain ⟨hfee, hpriority⟩ := hx.priced tx htype
    omega
  unfold pricePaid
  cases htype : x.txType tx with
  | legacy => exact hlegacy (Or.inl htype)
  | eip2930 => exact hlegacy (Or.inr htype)
  | eip1559 => exact hdynamic
  | eip4844 => exact hdynamic
  | eip7702 => exact hdynamic

/-- Cutting the tip first changes nothing: the price is cut to a word. -/
theorem effectiveGasPrice_eq (hx : x.Fees) (hcap : baseFee ≤ x.maxFeePerGas tx) :
    effectiveGasPrice x tx (some baseFee) = truncate u64Size (pricePaid x tx baseFee) := by
  unfold effectiveGasPrice
  dsimp only
  rw [hx.tip tx baseFee hcap, pricePaid_eq hx hcap]
  exact truncate_truncate_add

/--
**The effective gas price** is reported right by both responses if and only if the fee cap,
or the base fee with the priority fee, is a word.
-/
theorem priceReported_iff (hx : x.Fees) (hcap : baseFee ≤ x.maxFeePerGas tx) :
    PriceReported x tx baseFee
      ↔ x.maxFeePerGas tx < u64Size ∨ baseFee + x.maxPriorityFeePerGas tx < u64Size := by
  have hprice := pricePaid_eq hx hcap
  have hword : pricePaid x tx baseFee < u64Size
      ↔ x.maxFeePerGas tx < u64Size ∨ baseFee + x.maxPriorityFeePerGas tx < u64Size := by
    omega
  rw [← hword]
  constructor
  · intro h
    obtain ⟨tip, _, _, hadd⟩ := h.computed
    obtain ⟨hlt, heq⟩ := checkedAdd_eq_some.mp hadd
    rwa [heq] at hlt
  · intro hlt
    have hexact : effectiveGasPrice x tx (some baseFee) = pricePaid x tx baseFee :=
      (effectiveGasPrice_eq hx hcap).trans ((truncate_eq_iff (by decide)).mpr hlt)
    refine ⟨fun _ => congrArg some hexact, fun _ => hexact, _, hx.tip tx baseFee hcap,
      by omega, checkedAdd_eq_some.mpr ⟨by omega, hprice.symm⟩⟩

/-- A transaction given by its type, its gas price or fee cap, and its priority fee. -/
abbrev FeeTx := TxType × Nat × Nat

/-- The priority fee of the types that have one. -/
def FeeTx.priority : FeeTx → Nat
  | (.legacy, gasPrice, _) => gasPrice
  | (.eip2930, gasPrice, _) => gasPrice
  | (_, _, priority) => priority

def feeTxRules : TxRules FeeTx Unit Unit Unit where
  txType := fun tx => tx.1
  nonce := fun _ => 0
  kind := fun _ => .create
  gasPrice := fun tx => tx.2.1
  maxFeePerGas := fun tx => tx.2.1
  maxPriorityFeePerGas := FeeTx.priority
  effectiveTipPerGas := fun tx baseFee =>
    if baseFee ≤ tx.2.1 then some (min tx.priority (tx.2.1 - baseFee)) else none
  bloom := fun _ => ()
  create := fun _ _ => ()

theorem feeTxRules_fees : feeTxRules.Fees where
  tip := fun _ _ h => if_pos h
  priced := by
    rintro ⟨type, price, priority⟩ htype
    rcases htype with htype | htype
    · obtain rfl : type = .legacy := htype
      exact ⟨rfl, rfl⟩
    · obtain rfl : type = .eip2930 := htype
      exact ⟨rfl, rfl⟩

/-- A tip of 3 on a base fee of 10, below a cap of 100. -/
theorem priceReported_iff_belowCap : PriceReported feeTxRules (.eip1559, 100, 3) 10 :=
  (priceReported_iff feeTxRules_fees (by decide)).mpr (by decide)

/-- **A gas price of two to the power 64 is reported as zero**, in both responses. -/
theorem priceReported_wraps :
    let tx : FeeTx := (.legacy, u64Size, 0)
    pricePaid feeTxRules tx 1 = u64Size
      ∧ (buildRpcTransaction feeTxRules tx ⟨1, 1, 0⟩ (some 1)).effectiveGasPrice = some 0
      ∧ (buildReceipt feeTxRules ⟨⟨true, 1, []⟩, .legacy, 1, 0, 1, 1, (), 1⟩ tx
        (some 1)).effectiveGasPrice = 0 := by
  decide

end NodeComponents.Rpc.Helpers
