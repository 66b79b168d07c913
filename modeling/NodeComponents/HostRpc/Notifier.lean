import Mathlib.Data.List.DropRight
import NodeComponents.HostRpc.Provider
import NodeComponents.Lib.Run
import NodeComponents.Lib.Window

/-!
# `RpcHostNotifier`

The notifier follows the host chain through a `newHeads` subscription. It keeps
a bounded window `chainView` of the `(number, hash)` pairs it delivered last and
answers each head by walking parent hashes back to that window. Long gaps are
filled by number first (backfill).

Each method is a function from the state before to the result and the state
after, so that a state changed before a failing call stays changed, as it does
behind `&mut self`. Metrics, tracing and the concurrency bound of the fetches are
left out: nothing here reads them.

Assertions that only exist in debug builds are predicates beside the function
that makes them (`viewHashAsserts`); `assert!` and division by zero panic in
every build and are faults of the result.
-/

namespace NodeComponents.HostRpc

variable {T R : Type}

/-- Slots per Ethereum epoch. -/
def slotsPerEpoch : Nat := 32

/-- Default backfill batch size. -/
def defaultBackfillBatchSize : Nat := 32

/-- Result of walking the chain backward to find overlap with local state. -/
inductive WalkResult where
  /-- The hint hash is already in the view. -/
  | alreadySeen
  /-- New blocks extend the tip, ascending by number. -/
  | advance (newChain : List (Nat × B256))
  /-- The fork point is below the tip. -/
  | reorg (forkNumber oldTip : Nat) (newChain : List (Nat × B256))
  /-- No overlap within the buffer. -/
  | exhausted
deriving DecidableEq, Repr

/-- The fields of `RpcHostNotifier` that its methods read, without the provider
and the subscription, which are arguments. -/
structure RpcHostNotifier where
  /-- Local chain view, a ring buffer of `(number, hash)`, oldest first. -/
  chainView : List (Nat × B256)
  bufferCapacity : Nat
  cachedSafe : Option Nat
  cachedFinalized : Option Nat
  /-- Last epoch for which safe and finalized were fetched. -/
  lastTagEpoch : Option Nat
  /-- If set, backfill from this number before processing heads. -/
  backfillFrom : Option Nat
  backfillBatchSize : Nat
  /-- The last block emitted in a notification. -/
  lastEmitted : Option (Nat × B256)
  slotSeconds : Nat
  genesisTimestamp : Nat
  headSet : Bool
deriving DecidableEq, Repr

/-- `RpcHostNotifier::new`. -/
def RpcHostNotifier.new (bufferCapacity backfillBatchSize slotSeconds genesisTimestamp : Nat) :
    RpcHostNotifier where
  chainView := []
  bufferCapacity := bufferCapacity
  cachedSafe := none
  cachedFinalized := none
  lastTagEpoch := none
  backfillFrom := none
  backfillBatchSize := backfillBatchSize
  lastEmitted := none
  slotSeconds := slotSeconds
  genesisTimestamp := genesisTimestamp
  headSet := false

/-- `set_head`: only the first call has an effect. -/
def RpcHostNotifier.setHead (s : RpcHostNotifier) (blockNumber : Nat) : RpcHostNotifier :=
  if s.headSet then s
  else { s with headSet := true, backfillFrom := some blockNumber, lastEmitted := none }

/-- `set_backfill_thresholds`: values below one are raised to one. -/
def RpcHostNotifier.setBackfillThresholds (s : RpcHostNotifier) (maxBlocks : Option Nat) :
    RpcHostNotifier :=
  { s with backfillBatchSize := maxBlocks.elim defaultBackfillBatchSize (fun m => max m 1) }

/-! ## Chain view helpers -/

/-- Current tip of the chain view. -/
def RpcHostNotifier.tip (s : RpcHostNotifier) : Option (Nat × B256) := s.chainView.getLast?

/-- The hash the view holds at a number, by its offset from the front. -/
def viewHash (view : List (Nat × B256)) (number : Nat) : Option B256 :=
  match view.head? with
  | none => none
  | some (frontNumber, _) =>
    if number < frontNumber then none else (view[number - frontNumber]?).map Prod.snd

/-- The debug assertion of `view_hash`: the entry found carries the number asked for. -/
def viewHashAsserts (view : List (Nat × B256)) (number : Nat) : Prop :=
  ∀ front found, view.head? = some front → front.1 ≤ number →
    view[number - front.1]? = some found → found.1 = number

/-- Append entries to the chain view, evicting the oldest if over capacity. -/
def extendView (capacity : Nat) (view entries : List (Nat × B256)) : List (Nat × B256) :=
  Lib.Window.pushAll capacity view entries

/-- Drop entries at or above the fork from the back, then append the new ones. -/
def reorgView (capacity : Nat) (view : List (Nat × B256)) (forkNumber : Nat)
    (newEntries : List (Nat × B256)) : List (Nat × B256) :=
  extendView capacity (view.rdropWhile (fun e => forkNumber ≤ e.1)) newEntries

/-! ## Block fetching -/

/-- `convert_rpc_block`: a missing receipts answer becomes an empty list. -/
def convertRpcBlock (rpcBlock : Block T) (rpcReceipts : Option (List R)) : RpcBlock T R :=
  ⟨rpcBlock, rpcReceipts.getD []⟩

/-- `tokio::try_join!` of two calls: the error answered first wins. -/
def tryJoin {A B : Type} (t₁ : Instant) (a : Except TransportError A) (t₂ : Instant)
    (b : Except TransportError B) : Except Fault (A × B) :=
  match a, b with
  | .ok x, .ok y => .ok (x, y)
  | .error e, .ok _ => .error (.err (.rpc e))
  | .ok _, .error e => .error (.err (.rpc e))
  | .error e, .error e' => .error (.err (.rpc (if t₂ < t₁ then e' else e)))

/-- Fetch a single block with receipts, anchored by hash. -/
def fetchBlockByHash (P : Provider T R) (tb tr : Instant) (hash : B256) :
    Except Fault (RpcBlock T R) :=
  match tryJoin tb (P.getBlockByHash tb hash) tr (P.getBlockReceipts tr (.hash hash)) with
  | .error f => .error f
  | .ok (none, _) => .error (.err (.missingBlockByHash hash))
  | .ok (some block, receipts) => .ok (convertRpcBlock block receipts)

/-- Fetch a single block with receipts by number. -/
def fetchBlockByNumber (P : Provider T R) (tb tr : Instant) (number : Nat) :
    Except Fault (RpcBlock T R) :=
  match tryJoin tb (P.getBlockByNumber tb (.number number))
      tr (P.getBlockReceipts tr (.number number)) with
  | .error f => .error f
  | .ok (none, _) => .error (.err (.missingBlock (.number number)))
  | .ok (some block, receipts) => .ok (convertRpcBlock block receipts)

/-- `try_collect` of a `buffered` stream: results in order, or the first error in order. -/
def tryCollect {A : Type} : List (Except Fault A) → Except Fault (List A)
  | [] => .ok []
  | .error f :: _ => .error f
  | .ok a :: rest =>
    match tryCollect rest with
    | .error f => .error f
    | .ok as => .ok (a :: as)

/-- Fetch full blocks with receipts for a list of hashes, in order. -/
def fetchBlocksByHash (P : Provider T R) (tm : Timing) (hashes : List (Nat × B256)) :
    Except Fault (List (RpcBlock T R)) :=
  tryCollect (hashes.mapIdx fun i e => fetchBlockByHash P (tm.block i) (tm.receipts i) e.2)

/-- Fetch the blocks of `[lo, hi]` by number, in order; empty if `lo > hi`. -/
def fetchRange (P : Provider T R) (tm : Timing) (lo hi : Nat) :
    Except Fault (List (RpcBlock T R)) :=
  tryCollect ((List.range (hi + 1 - lo)).map fun i =>
    fetchBlockByNumber P (tm.block i) (tm.receipts i) (lo + i))

/-! ## Epoch and tag helpers -/

/-- The epoch number of a block timestamp. -/
def epochOf (s : RpcHostNotifier) (timestamp : Nat) : Except Fault Nat :=
  if s.slotSeconds * slotsPerEpoch % u64Size = 0 then
    .error (.panic "attempt to divide by zero")
  else
    .ok ((timestamp - s.genesisTimestamp) / (s.slotSeconds * slotsPerEpoch % u64Size))

/-- Refresh safe and finalized if an epoch boundary was crossed. -/
def maybeRefreshTags (P : Provider T R) (tm : Timing) (s : RpcHostNotifier) (timestamp : Nat) :
    Except Fault RpcHostNotifier :=
  match epochOf s timestamp with
  | .error f => .error f
  | .ok epoch =>
    if s.lastTagEpoch = some epoch then .ok s
    else
      match tryJoin tm.safe (P.getBlockByNumber tm.safe .safe)
          tm.finalized (P.getBlockByNumber tm.finalized .finalized) with
      | .error f => .error f
      | .ok (safe, finalized) =>
        .ok { s with
          cachedSafe := safe.map (·.header.number)
          cachedFinalized := finalized.map (·.header.number)
          lastTagEpoch := some epoch }

/-! ## Walk algorithm -/

/--
The loop of `walk_chain`. `walked` is kept newest first, which is the ascending
order the source restores with `reverse`.

`fuel` bounds the header calls; the depth limit stops the loop before
`bufferCapacity + 2` of them, so the first case is never reached from
`walkChain` (`walkLoop_fuel`).
-/
def walkLoop (P : Provider T R) (walk : Nat → Instant) (s : RpcHostNotifier) :
    Nat → B256 → List (Nat × B256) → Except Fault WalkResult
  | 0, _, _ => .ok .exhausted
  | fuel + 1, currentHash, walked =>
    match P.getBlockByHash (walk walked.length) currentHash with
    | .error e => .error (.err (.rpc e))
    | .ok none => .error (.err (.missingBlockByHash currentHash))
    | .ok (some block) =>
      let number := block.header.number
      -- the common ancestor, which is not new itself
      if viewHash s.chainView number = some currentHash then
        if walked = [] then .ok .alreadySeen
        else
          let tipNum := (s.tip.map Prod.fst).getD 0
          if number = tipNum then .ok (.advance walked)
          else .ok (.reorg (u64Add number 1) tipNum walked)
      -- nothing to overlap with: the first block shown is taken, whatever its parent
      else if s.chainView = [] then .ok (.advance ((number, currentHash) :: walked))
      else if viewHash s.chainView number = none ∧
          (s.chainView.head?.any fun front => number < front.1) then .ok .exhausted
      -- the depth limit, checked once the block is pushed
      else if s.bufferCapacity < walked.length + 1 then .ok .exhausted
      else walkLoop P walk s fuel block.header.parentHash ((number, currentHash) :: walked)

/-- Walk the chain backward from `startHash` to find overlap with the chain view. -/
def walkChain (P : Provider T R) (walk : Nat → Instant) (s : RpcHostNotifier)
    (startHash : B256) : Except Fault WalkResult :=
  if s.tip.any fun e => e.2 = startHash then .ok .alreadySeen
  else walkLoop P walk s (s.bufferCapacity + 1) startHash []

/-! ## Notification handling -/

/-- The walk of `handle_new_head`: from the hint, or from the latest block if the hint is stale. -/
def walkFromHint (P : Provider T R) (tm : Timing) (s : RpcHostNotifier) (hintHash : B256) :
    Except Fault WalkResult :=
  match walkChain P tm.walk s hintHash with
  -- the hint's block, or a parent of it, is gone: a coalesced or stale head
  | .error (.err (.missingBlockByHash _)) =>
    match P.getBlockByNumber tm.latest .latest with
    | .error e => .error (.err (.rpc e))
    | .ok none => .error (.err (.missingBlock .latest))
    | .ok (some latest) => walkChain P tm.rewalk s latest.header.hash
  | r => r

/-- Build the notification with the tags cached at this moment. -/
def notify (s : RpcHostNotifier) (kind : HostNotificationKind (RpcChainSegment T R)) :
    HostNotification (RpcChainSegment T R) :=
  ⟨kind, s.cachedSafe, s.cachedFinalized⟩

/-- The end of both emitting paths: refresh the tags of the changed state, then emit. -/
def refreshAndNotify (P : Provider T R) (tm : Timing) (s : RpcHostNotifier) (timestamp : Nat)
    (kind : HostNotificationKind (RpcChainSegment T R)) :
    Except Fault (HostNotification (RpcChainSegment T R)) × RpcHostNotifier :=
  match maybeRefreshTags P tm s timestamp with
  | .error f => (.error f, s)
  | .ok s' => (.ok (notify s' kind), s')

/-- The state after an advance. -/
def RpcHostNotifier.advanced (s : RpcHostNotifier) (newChain : List (Nat × B256)) :
    RpcHostNotifier :=
  { s with
    chainView := extendView s.bufferCapacity s.chainView newChain
    lastEmitted := newChain.getLast? }

/-- The state after a reorg. -/
def RpcHostNotifier.reorged (s : RpcHostNotifier) (forkNumber : Nat)
    (newChain : List (Nat × B256)) : RpcHostNotifier :=
  { s with
    chainView := reorgView s.bufferCapacity s.chainView forkNumber newChain
    lastEmitted := newChain.getLast? }

/-- The state after an exhausted walk: the buffer is reset and backfill resumes
behind the last emitted block. -/
def RpcHostNotifier.reset (s : RpcHostNotifier) : RpcHostNotifier :=
  { s with
    chainView := []
    backfillFrom := s.lastEmitted.map fun e => u64Add e.1 1
    lastTagEpoch := none }

/-- Handle a new subscription header; `none` if it brings nothing. -/
def handleNewHead (P : Provider T R) (tm : Timing) (s : RpcHostNotifier) (header : RpcHeader) :
    Except Fault (Option (HostNotification (RpcChainSegment T R))) × RpcHostNotifier :=
  match walkFromHint P tm s header.hash with
  | .error f => (.error f, s)
  | .ok .alreadySeen => (.ok none, s)
  | .ok .exhausted => (.ok none, s.reset)
  | .ok (.advance newChain) =>
    match fetchBlocksByHash P tm newChain with
    | .error f => (.error f, s)
    | .ok blocks =>
      let r := refreshAndNotify P tm (s.advanced newChain) header.timestamp
        (.chainCommitted ⟨blocks⟩)
      (r.1.map some, r.2)
  | .ok (.reorg forkNumber oldTip newChain) =>
    match fetchBlocksByHash P tm newChain with
    | .error f => (.error f, s)
    | .ok blocks =>
      -- the range is built behind the update of the view, by an assertion
      match RevertRange.new forkNumber oldTip with
      | none => (.error (.panic "RevertRange"), s.reorged forkNumber newChain)
      | some old =>
        let r := refreshAndNotify P tm (s.reorged forkNumber newChain) header.timestamp
          (.chainReorged old ⟨blocks⟩)
        (r.1.map some, r.2)

/-! ## Backfill -/

/-- The ceiling of a batch: `tip - capacity / 2`, or `tip` once the cursor is past that. -/
def effectiveCeiling (s : RpcHostNotifier) (cursor tip : Nat) : Nat :=
  if tip - s.bufferCapacity / 2 < cursor then tip else tip - s.bufferCapacity / 2

/-- The last number of the batch that starts at `cursor`. -/
def batchEnd (s : RpcHostNotifier) (cursor tip : Nat) : Nat :=
  min (effectiveCeiling s cursor tip) (u64Sub (u64Add cursor s.backfillBatchSize) 1)

/-- The first fetched block does not have the last emitted block as its parent. -/
def breaksContinuity (s : RpcHostNotifier) (blocks : List (RpcBlock T R)) : Bool :=
  match s.lastEmitted, blocks.head? with
  | some (_, expectedParent), some first => first.parentHash ≠ expectedParent
  | _, _ => false

/-- The `(number, hash)` entries of fetched blocks. -/
def viewEntries (blocks : List (RpcBlock T R)) : List (Nat × B256) :=
  blocks.map fun b => (b.number, b.hash)

/-- The state after a batch that ended at `hi`. -/
def RpcHostNotifier.backfilled (s : RpcHostNotifier) (ceiling hi : Nat)
    (entries : List (Nat × B256)) : RpcHostNotifier :=
  { s with
    chainView := extendView s.bufferCapacity s.chainView entries
    lastEmitted := entries.getLast?.orElse fun _ => s.lastEmitted
    backfillFrom := if ceiling ≤ hi then none else some (u64Add hi 1) }

/-- Process a backfill batch if one is pending; `none` hands over to the heads.
The cursor is `from` in the source. -/
def drainBackfill (P : Provider T R) (tm : Timing) (s : RpcHostNotifier) :
    Option (Except Fault (HostNotification (RpcChainSegment T R))) × RpcHostNotifier :=
  match s.backfillFrom with
  | none => (none, s)
  | some cursor =>
    match P.getBlockNumber tm.blockNumber with
    | .error e => (some (.error (.err (.rpc e))), s)
    | .ok tip =>
      -- the last batch ended at the tip: the heads take over
      if cursor = u64SatAdd tip 1 then (none, { s with backfillFrom := none })
      -- the tip fell back below what was already emitted
      else if u64SatAdd tip 1 < cursor then (some (.error (.err .backfillContinuityBreak)), s)
      else
        match fetchRange P tm cursor (batchEnd s cursor tip) with
        | .error f => (some (.error f), s)
        | .ok blocks =>
          -- only the first block is compared, and only with what was emitted since `set_head`
          if breaksContinuity s blocks then
            (some (.error (.err .backfillContinuityBreak)), { s with chainView := [] })
          else
            -- view, last emitted block and cursor move before the refresh that may fail
            let s' := s.backfilled (effectiveCeiling s cursor tip) (batchEnd s cursor tip)
              (viewEntries blocks)
            match blocks.getLast? with
            | none => (some (.ok (notify s' (.chainCommitted ⟨blocks⟩))), s')
            | some last =>
              let r := refreshAndNotify P tm s' last.timestamp (.chainCommitted ⟨blocks⟩)
              (some r.1, r.2)

/-! ## The loop of `next_notification` -/

/-- What `next_notification` returns: `none` once the subscription ended. -/
abbrev Returned (T R : Type) := Option (Except Fault (HostNotification (RpcChainSegment T R)))

/-- What the environment brings to one turn of the loop: when its calls are
answered, and what the subscription yields if it is asked. -/
structure Turn where
  timing : Timing
  head : Option RpcHeader

/-- One turn of the loop: what the call returns, if this turn ends it. -/
def turn (P : Provider T R) (tn : Turn) (s : RpcHostNotifier) :
    Option (Returned T R) × RpcHostNotifier :=
  match drainBackfill P tn.timing s with
  | (some r, s₁) => (some (some r), s₁)
  | (none, s₁) =>
    match tn.head with
    | none => (some none, s₁)
    | some header =>
      match handleNewHead P tn.timing s₁ header with
      | (.ok (some n), s₂) => (some (some (.ok n)), s₂)
      | (.ok none, s₂) => (none, s₂)
      | (.error f, s₂) => (some (some (.error f)), s₂)

/-- `next_notification` over the turns the environment grants it; `none` while
it is still waiting. -/
def nextNotification (P : Provider T R) :
    List Turn → RpcHostNotifier → Option (Returned T R) × RpcHostNotifier
  | [], s => (none, s)
  | tn :: tns, s =>
    match turn P tn s with
    | (some r, s') => (some r, s')
    | (none, s') => nextNotification P tns s'

/-! ## Runs -/

/-- Runs of the loop, one turn after another; the outputs are what the calls return. -/
abbrev NotifierRun (P : Provider T R) (C : Turn → RpcHostNotifier → Prop) :
    RpcHostNotifier → List (Returned T R) → RpcHostNotifier → Prop :=
  Lib.Run (turn P) C

/-- `C` holds at every turn one call of `next_notification` takes. -/
def Throughout (P : Provider T R) (C : Turn → RpcHostNotifier → Prop) :
    List Turn → RpcHostNotifier → Prop
  | [], _ => True
  | tn :: tns, s =>
    C tn s ∧ ((turn P tn s).1 = none → Throughout P C tns (turn P tn s).2)

/-- **One call of `next_notification` is a run of turns** that returns what the call returns. -/
theorem nextNotification_run {P : Provider T R} {C : Turn → RpcHostNotifier → Prop} :
    ∀ (tns : List Turn) (s : RpcHostNotifier), Throughout P C tns s →
      NotifierRun P C s (nextNotification P tns s).1.toList (nextNotification P tns s).2
  | [], s, _ => Lib.Run.start
  | tn :: tns, s, ⟨hc, hrest⟩ => by
      have hstep : NotifierRun P C s (turn P tn s).1.toList (turn P tn s).2 :=
        Lib.Run.next tn Lib.Run.start hc
      unfold nextNotification
      cases ht : turn P tn s with
      | mk r s' =>
          rw [ht] at hstep hrest
          cases r with
          | some r => exact hstep
          | none => exact hstep.trans (nextNotification_run tns s' (hrest rfl))

end NodeComponents.HostRpc
