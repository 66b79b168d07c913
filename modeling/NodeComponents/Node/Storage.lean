import NodeComponents.Rpc.ChainNotifier

/-!
# The storage the node writes

Rollup blocks are kept in two tiers, hot and cold. The storage crate is not part
of this repository; what the node relies on is stated here, with a tier as the
list of its blocks by height, so that the block of height `h` is at index `h` and
genesis at index zero:

* `append_blocks` writes to hot storage and dispatches the block to cold storage, or
  fails and does neither;
* cold storage writes what was dispatched in order, but in its own time;
* `drain_above` cuts hot storage and what was dispatched to cold storage, written or
  not, and returns what it removed in ascending order, or fails and changes neither;
* `unwind_above` cuts both.

So the cold tier is written here as it was dispatched. At any time cold storage holds a
front part of it, and no more is left of it when the process stops: `found`.
-/

namespace NodeComponents.Node

open Rpc

/-- A block as execution returns it; `bundle` is its change of the rollup state. -/
structure ExecutedBlock (Tx G S : Type) where
  header : Header
  transactions : List Tx
  receipts : List (Receipt G)
  bundle : S
deriving DecidableEq, Repr

variable {Tx G S : Type}

/-- A block removed from storage, with the logs cold storage holds for each receipt. -/
structure DrainedBlock (G : Type) where
  header : Header
  receipts : List (List (Log G))
deriving DecidableEq, Repr

/-- Hot storage, and what was dispatched to cold storage, each by height. -/
structure UnifiedStorage (Tx G S : Type) where
  hot : List (ExecutedBlock Tx G S)
  cold : List (ExecutedBlock Tx G S)
deriving DecidableEq, Repr

/-- What is there when cold storage has written so many of its blocks. -/
def UnifiedStorage.found (st : UnifiedStorage Tx G S) (written : Nat) : UnifiedStorage Tx G S :=
  ⟨st.hot, st.cold.take written⟩

/-- The number of the last block of a tier. -/
def lastBlockNumber (tier : List (ExecutedBlock Tx G S)) : Option Nat :=
  if tier = [] then none else some (tier.length - 1)

/-- `append_blocks` of one block. -/
def UnifiedStorage.appendBlock (st : UnifiedStorage Tx G S) (b : ExecutedBlock Tx G S) :
    UnifiedStorage Tx G S := ⟨st.hot ++ [b], st.cold ++ [b]⟩

/-- `unwind_above`: drop every block above the height. -/
def UnifiedStorage.unwindAbove (st : UnifiedStorage Tx G S) (height : Nat) :
    UnifiedStorage Tx G S := ⟨st.hot.take (height + 1), st.cold.take (height + 1)⟩

/-- `drain_above`: what is removed, and the storage left. -/
def UnifiedStorage.drainAbove (coldLogs : ExecutedBlock Tx G S → List (List (Log G)))
    (st : UnifiedStorage Tx G S) (height : Nat) : List (DrainedBlock G) × UnifiedStorage Tx G S :=
  ((st.hot.drop (height + 1)).map fun b => ⟨b.header, coldLogs b⟩, st.unwindAbove height)

end NodeComponents.Node
