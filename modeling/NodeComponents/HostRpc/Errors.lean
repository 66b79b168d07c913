import NodeComponents.HostRpc.Retry

/-!
# Errors lose no blocks

The two halves put together: what is recorded was returned, so an error loses nothing
that was recorded; and what a failed call was about to return is returned by a later
one. Both need that a refresh of the tags does not fail once blocks are recorded, and
the second that a head is not lost to an error while the view is empty.
-/

namespace NodeComponents.HostRpc

open Lib

variable {T R : Type} {P : Provider T R} {U : B256 → Option RpcHeader} {s s' : RpcHostNotifier}
  {tn : Turn} {rs : List (Returned T R)}

/-- A later call answered by the healthy provider returns it: a batch as it was, a head's
blocks under those of any later head above it. -/
def Redelivers (H : SteadyProvider T R) (s : RpcHostNotifier)
    (n : HostNotification (RpcChainSegment T R)) : Prop :=
  (s.backfillFrom ≠ none → ∀ tn, (turn H.provider tn s).1 = some (some (.ok n)))
    ∧ (s.backfillFrom = none →
      ∃ seg last, n.committedChain = some seg ∧ seg.blocks.getLast? = some last ∧
        ∀ (tn : Turn) (header : RpcHeader) (above : List (Nat × B256)),
          tn.head = some header → Above H s.chainView last.hash above →
          header.hash = topHash last.hash above →
          BringsAgain s n seg.blocks.length above (turn H.provider tn s))

/-- A healthy provider over a stored chain. -/
def SteadyProvider.storing (chain : List (RpcBlock T R)) : SteadyProvider T R where
  tip := (chain.getLast?.map RpcBlock.number).getD 0
  byNumber tag :=
    match tag with
    | .number n => (chain.find? fun b => b.number = n).map RpcBlock.block
    | .latest => chain.getLast?.map RpcBlock.block
    | .safe => chain.head?.map RpcBlock.block
    | .finalized => chain.head?.map RpcBlock.block
  byHash h := (chain.find? fun b => b.hash = h).map RpcBlock.block
  receipts id :=
    match id with
    | .hash h => (chain.find? fun b => b.hash = h).map RpcBlock.receipts
    | .number n => (chain.find? fun b => b.number = n).map RpcBlock.receipts

end NodeComponents.HostRpc
