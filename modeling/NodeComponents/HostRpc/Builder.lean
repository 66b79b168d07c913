import NodeComponents.HostRpc.View

/-!
# How a notifier comes to be, and what may happen to it

A notifier is built by a builder or from the environment, positioned once, and its
batch size may be set again at any time. The builder raises the buffer capacity and
the batch size to one; the slot duration it takes as it comes.

`Reached` are the states any order of these and of turns of the loop leads to,
with no condition on the provider.
-/

namespace NodeComponents.HostRpc

variable {T R : Type} {P : Provider T R} {s : RpcHostNotifier}

/-- Default chain view capacity. -/
def defaultBufferCapacity : Nat := 64

/-- Default seconds per slot. -/
def defaultSlotSeconds : Nat := 12

/-- The fields of the builder that the notifier keeps. -/
structure RpcHostNotifierBuilder where
  bufferCapacity : Nat
  backfillBatchSize : Nat
  slotSeconds : Nat
  genesisTimestamp : Nat
deriving DecidableEq, Repr

def RpcHostNotifierBuilder.new : RpcHostNotifierBuilder :=
  ⟨defaultBufferCapacity, defaultBackfillBatchSize, defaultSlotSeconds, 0⟩

/-- Values below 1 are clamped to 1. -/
def RpcHostNotifierBuilder.withBufferCapacity (b : RpcHostNotifierBuilder) (capacity : Nat) :
    RpcHostNotifierBuilder :=
  { b with bufferCapacity := if 0 < capacity then capacity else 1 }

/-- Values below 1 are clamped to 1. -/
def RpcHostNotifierBuilder.withBackfillBatchSize (b : RpcHostNotifierBuilder) (batchSize : Nat) :
    RpcHostNotifierBuilder :=
  { b with backfillBatchSize := if 0 < batchSize then batchSize else 1 }

def RpcHostNotifierBuilder.withSlotSeconds (b : RpcHostNotifierBuilder) (slotSeconds : Nat) :
    RpcHostNotifierBuilder :=
  { b with slotSeconds := slotSeconds }

def RpcHostNotifierBuilder.withGenesisTimestamp (b : RpcHostNotifierBuilder) (timestamp : Nat) :
    RpcHostNotifierBuilder :=
  { b with genesisTimestamp := timestamp }

/-- `build`, with the subscription established. -/
def RpcHostNotifierBuilder.build (b : RpcHostNotifierBuilder) : RpcHostNotifier :=
  RpcHostNotifier.new b.bufferCapacity b.backfillBatchSize b.slotSeconds b.genesisTimestamp

/-- Environment-based configuration, without the connection. -/
structure HostRpcConfig where
  bufferCapacity : Option Nat
  backfillBatchSize : Option Nat
deriving DecidableEq, Repr

/-- `into_builder`; the slot calculator gives the genesis timestamp. -/
def HostRpcConfig.intoBuilder (c : HostRpcConfig) (startTimestamp : Nat) :
    RpcHostNotifierBuilder :=
  RpcHostNotifierBuilder.new
    |>.withBufferCapacity (c.bufferCapacity.getD defaultBufferCapacity)
    |>.withBackfillBatchSize (c.backfillBatchSize.getD defaultBackfillBatchSize)
    |>.withGenesisTimestamp startTimestamp

/-- The builders any calls of the setters lead to. -/
inductive Configured : RpcHostNotifierBuilder → Prop
  | new : Configured .new
  | withBufferCapacity {b : RpcHostNotifierBuilder} (h : Configured b) (capacity : Nat) :
      Configured (b.withBufferCapacity capacity)
  | withBackfillBatchSize {b : RpcHostNotifierBuilder} (h : Configured b) (batchSize : Nat) :
      Configured (b.withBackfillBatchSize batchSize)
  | withSlotSeconds {b : RpcHostNotifierBuilder} (h : Configured b) (slotSeconds : Nat) :
      Configured (b.withSlotSeconds slotSeconds)
  | withGenesisTimestamp {b : RpcHostNotifierBuilder} (h : Configured b) (timestamp : Nat) :
      Configured (b.withGenesisTimestamp timestamp)

/-- The environment configures no builder that the setters do not. -/
theorem configured_intoBuilder (c : HostRpcConfig) (startTimestamp : Nat) :
    Configured (c.intoBuilder startTimestamp) :=
  (((Configured.new.withBufferCapacity _).withBackfillBatchSize _).withGenesisTimestamp _)

/-- The states a built notifier may be in. -/
inductive Reached (P : Provider T R) : RpcHostNotifier → Prop
  | built {b : RpcHostNotifierBuilder} (h : Configured b) : Reached P b.build
  | setHead {s : RpcHostNotifier} (h : Reached P s) (blockNumber : Nat) :
      Reached P (s.setHead blockNumber)
  | setBackfillThresholds {s : RpcHostNotifier} (h : Reached P s) (maxBlocks : Option Nat) :
      Reached P (s.setBackfillThresholds maxBlocks)
  | turned {s : RpcHostNotifier} (h : Reached P s) (tn : Turn) : Reached P (turn P tn s).2

theorem Configured.batchSize_pos {b : RpcHostNotifierBuilder} (h : Configured b) :
    1 ≤ b.backfillBatchSize := by
  induction h with
  | new => decide
  | withBackfillBatchSize _ batchSize _ =>
      show 1 ≤ if 0 < batchSize then batchSize else 1
      split <;> omega
  | withBufferCapacity _ _ ih => exact ih
  | withSlotSeconds _ _ ih => exact ih
  | withGenesisTimestamp _ _ ih => exact ih

/-- **No batch is configured to be empty.** -/
theorem Reached.batchSize_pos (h : Reached P s) : 1 ≤ s.backfillBatchSize := by
  induction h with
  | built hb => exact hb.batchSize_pos
  | setHead _ blockNumber ih =>
      unfold RpcHostNotifier.setHead
      split
      · exact ih
      · exact ih
  | setBackfillThresholds _ maxBlocks _ =>
      cases maxBlocks with
      | none =>
          show 1 ≤ defaultBackfillBatchSize
          decide
      | some m => exact Nat.le_max_right m 1
  | @turned s _ tn ih =>
      have hconfig : (turn P tn s).2.config = s.config := turn_config
      have hbatch : (turn P tn s).2.backfillBatchSize = s.backfillBatchSize :=
        congrArg (fun c => c.2.1) hconfig
      rw [hbatch]
      exact ih

end NodeComponents.HostRpc
