import NodeComponents.Node.Storage

/-!
# `SignetNode`

The node turns host notifications into rollup storage. Reverts run before
commits; a commit executes the extracts above the stored tip one by one, and for
each block sends the event, then writes storage.

Everything outside this repository is an argument: the extractor, the EVM, and
the logs cold storage holds for a block. What may go wrong in one call is an
argument too (`Faults`), so that a theorem over all faults covers every error exit.
A method returns its result and the state it leaves, also when the result is an
error.
-/

namespace NodeComponents.Node

open Rpc

/-- What the extractor yields for one host block. -/
structure Extracts (H : Type) where
  ruHeight : Nat
  hostBlock : H
deriving DecidableEq, Repr

/-- The configuration of the node and the code it calls outside this repository,
for host segments `C` of host blocks `H`. -/
structure Externals (C H Tx G S : Type) where
  /-- `host_deploy_height` of the system constants. -/
  hostDeployHeight : Nat
  /-- `Extractor::extract_signet`, collected. -/
  extractSignet : C → List (Extracts H)
  /-- The EVM run on the state after the given blocks, the last of which is the parent. -/
  runEvm : List (ExecutedBlock Tx G S) → Extracts H → Except String (ExecutedBlock Tx G S)
  /-- The logs of a block, receipt by receipt, as cold storage answers them once it has written
  the block; a drain is taken to return them too. -/
  coldLogs : ExecutedBlock Tx G S → List (List (Log G))

/-- What fails while one notification is handled, and what the clock reads. -/
structure Faults where
  revertRead : Option String
  drain : Option String
  commitRead : Option String
  /-- The execution of the `i`-th block of the call. -/
  exec : Nat → Option String
  /-- The `append_blocks` of the `i`-th block of the call. -/
  append : Nat → Option String
  statusRead : Option String
  tagsRead : Option String
  sendFinished : Option String
  now : Nat

/-- Nothing fails. -/
def Faults.none (now : Nat) : Faults :=
  ⟨.none, .none, .none, fun _ => .none, fun _ => .none, .none, .none, .none, now⟩

/-- The errors a notification can end in. -/
inductive NodeError where
  /-- A read or write of storage failed. -/
  | storage (message : String)
  /-- The EVM or something it waits for failed. -/
  | execution (message : String)
  /-- `parent ru block not present in DB` -/
  | parentNotPresent
  /-- `revert range tip does not map to a rollup block number` -/
  | revertTipUnmapped
  /-- `revert range tip (host _, rollup _) does not cover stored rollup tip (_)` -/
  | revertTipNotCovering (tip rangeTipRu rollupTip : Nat)
  /-- The host notifier refused a finished height. -/
  | hostNotifier (message : String)
deriving DecidableEq, Repr

/-- The status channel. -/
inductive NodeStatus where
  | booting
  | atHeight (n : Nat)
deriving DecidableEq, Repr

/-- What the node's methods change. -/
structure NodeState (Tx G S : Type) where
  storage : UnifiedStorage Tx G S
  chain : ChainNotifier Tx G
  status : NodeStatus
  /-- What was passed to `send_finished_height`. -/
  finishedHeights : List Nat
deriving DecidableEq, Repr

variable {C H Tx G S : Type}

/-! ## Heights -/

/-- `host_block_to_rollup_block_num`. -/
def hostBlockToRollupBlockNum (deploy host : Nat) : Option Nat :=
  if deploy ≤ host then some (host - deploy) else none

/-- A host height and the rollup height it pairs with. -/
structure PairedHeights where
  host : Nat
  rollup : Nat
deriving DecidableEq, Repr

/-- `pair_ru`. -/
def pairRu (deploy rollup : Nat) : PairedHeights := ⟨rollup + deploy, rollup⟩

/-- `pair_host`. -/
def pairHost (deploy host : Nat) : Option PairedHeights :=
  (hostBlockToRollupBlockNum deploy host).map fun n => ⟨host, n⟩

/-- The last rollup block number in hot storage. -/
def lastRollupBlock (st : UnifiedStorage Tx G S) : Nat := (lastBlockNumber st.hot).getD 0

/-- `last_rollup_block`, which fails if the read does. -/
def readLastRollupBlock (fault : Option String) (st : UnifiedStorage Tx G S) :
    Except NodeError Nat :=
  match fault with
  | some m => .error (.storage m)
  | none => .ok (lastRollupBlock st)

theorem lastRollupBlock_eq (st : UnifiedStorage Tx G S) :
    lastRollupBlock st = st.hot.length - 1 := by
  unfold lastRollupBlock lastBlockNumber
  by_cases h : st.hot = []
  · rw [if_pos h, h]
    rfl
  · rw [if_neg h]
    rfl

theorem lastRollupBlock_append (st : UnifiedStorage Tx G S) (b : ExecutedBlock Tx G S) :
    lastRollupBlock st ≤ lastRollupBlock (st.appendBlock b) := by
  rw [lastRollupBlock_eq, lastRollupBlock_eq]
  show st.hot.length - 1 ≤ (st.hot ++ [b]).length - 1
  rw [List.length_append]
  omega

theorem lastRollupBlock_unwind (st : UnifiedStorage Tx G S) (target : Nat) :
    lastRollupBlock (st.unwindAbove target) = min (lastRollupBlock st) target := by
  rw [lastRollupBlock_eq, lastRollupBlock_eq]
  show (st.hot.take (target + 1)).length - 1 = _
  rw [List.length_take]
  omega

/-! ## Commits -/

/-- `process_block`: the header of the parent height must be in hot storage. -/
def processBlock (X : Externals C H Tx G S) (fault : Option String)
    (hot : List (ExecutedBlock Tx G S)) (x : Extracts H) :
    Except NodeError (ExecutedBlock Tx G S) :=
  -- `saturating_sub`: the parent of height zero is height zero
  match hot[x.ruHeight - 1]? with
  | none => .error .parentNotPresent
  | some _ =>
    match fault with
    | some m => .error (.execution m)
    | none =>
      match X.runEvm (hot.take (x.ruHeight - 1 + 1)) x with
      | .error m => .error (.execution m)
      | .ok b => .ok b

/-- Send a new block notification on the broadcast channel. -/
def notifyNewBlock (s : NodeState Tx G S) (b : ExecutedBlock Tx G S) : NodeState Tx G S :=
  { s with chain := s.chain.sendNewBlock ⟨b.header, b.transactions, b.receipts⟩ }

/-- The loop of `process_committed_chain`, from the `i`-th block of the call on. -/
def commitLoop (X : Externals C H Tx G S) (F : Faults) :
    Nat → List (Extracts H) → NodeState Tx G S → Option NodeError × NodeState Tx G S
  | _, [], s => (none, s)
  | i, x :: xs, s =>
    match processBlock X (F.exec i) s.storage.hot x with
    | .error e => (some e, s)
    | .ok b =>
      -- the event goes out before the block is stored
      match F.append i with
      | some m => (some (.storage m), notifyNewBlock s b)
      | none =>
        commitLoop X F (i + 1) xs
          { notifyNewBlock s b with storage := s.storage.appendBlock b }

/-- The extracts of a segment above a height: the filter is computed once, before the loop. -/
def freshExtracts (X : Externals C H Tx G S) (chain : C) (lastHeight : Nat) : List (Extracts H) :=
  (X.extractSignet chain).filter fun x => lastHeight < x.ruHeight

/-- Process a committed chain; `true` if any rollup block was processed. -/
def processCommittedChain (X : Externals C H Tx G S) (F : Faults) (chain : C)
    (s : NodeState Tx G S) : Except NodeError Bool × NodeState Tx G S :=
  match readLastRollupBlock F.commitRead s.storage with
  | .error e => (.error e, s)
  | .ok lastHeight =>
    match commitLoop X F 0 (freshExtracts X chain lastHeight) s with
    | (some e, s') => (.error e, s')
    | (none, s') => (.ok !(freshExtracts X chain lastHeight).isEmpty, s')

/-! ## Reverts -/

/-- The removed block a reorg notification carries for a drained block. -/
def removedBlock (d : DrainedBlock G) : RemovedBlock G :=
  ⟨d.header.number, d.header.hash, d.header.timestamp, d.receipts.flatten⟩

/-- Send a reorg notification on the broadcast channel. -/
def notifyReorg (now : Nat) (s : NodeState Tx G S) (drained : List (DrainedBlock G))
    (commonAncestor : Nat) : NodeState Tx G S :=
  { s with chain := s.chain.sendReorg now ⟨commonAncestor, drained.map removedBlock⟩ }

/-- The height a revert cuts storage to: the block before the first reverted one, or zero. -/
def revertTarget (deploy first : Nat) : Nat :=
  (hostBlockToRollupBlockNum deploy first).getD 0 - 1

/-- The storage is cut, the tags are capped, and the removal is announced if there was one. -/
def revertTo (X : Externals C H Tx G S) (now : Nat) (s : NodeState Tx G S) (target : Nat) :
    NodeState Tx G S :=
  let drained := (s.storage.drainAbove X.coldLogs target).1
  let s' := { s with
    storage := (s.storage.drainAbove X.coldLogs target).2
    chain := { s.chain with tags := s.chain.tags.rewindTo target } }
  if drained.isEmpty then s' else notifyReorg now s' drained target

/-- Called when the host chain has reverted a range; `true` if it was acted on. -/
def onHostRevert (X : Externals C H Tx G S) (F : Faults) (range : RevertRange)
    (s : NodeState Tx G S) : Except NodeError Bool × NodeState Tx G S :=
  if range.tip ≤ X.hostDeployHeight then (.ok false, s)
  else
    match readLastRollupBlock F.revertRead s.storage with
    | .error e => (.error e, s)
    | .ok rollupTip =>
      match hostBlockToRollupBlockNum X.hostDeployHeight range.tip with
      | none => (.error .revertTipUnmapped, s)
      | some rangeTipRu =>
        -- part of what is stored above the range would survive the revert
        if rangeTipRu < rollupTip then
          (.error (.revertTipNotCovering range.tip rangeTipRu rollupTip), s)
        else
          match F.drain with
          | some m => (.error (.storage m), s)
          | none => (.ok true, revertTo X F.now s (revertTarget X.hostDeployHeight range.first))

/-! ## Notifications -/

/-- The revert of a notification, if it has one. -/
def revertPart (X : Externals C H Tx G S) (F : Faults) (n : HostNotification C)
    (s : NodeState Tx G S) : Except NodeError Bool × NodeState Tx G S :=
  match n.revertRange with
  | none => (.ok false, s)
  | some range => onHostRevert X F range s

/-- The commit of a notification, if it has one. -/
def commitPart (X : Externals C H Tx G S) (F : Faults) (n : HostNotification C)
    (s : NodeState Tx G S) : Except NodeError Bool × NodeState Tx G S :=
  match n.committedChain with
  | none => (.ok false, s)
  | some chain => processCommittedChain X F chain s

/-- Runs on any notification from the host; `true` if any rollup state changed. -/
def onNotification (X : Externals C H Tx G S) (F : Faults) (n : HostNotification C)
    (s : NodeState Tx G S) : Except NodeError Bool × NodeState Tx G S :=
  -- reverts must run first
  match revertPart X F n s with
  | (.error e, s₁) => (.error e, s₁)
  | (.ok reverted, s₁) =>
    match commitPart X F n s₁ with
    | (.error e, s₂) => (.error e, s₂)
    | (.ok committed, s₂) =>
      if reverted || committed then
        match readLastRollupBlock F.statusRead s₂.storage with
        | .error e => (.error e, s₂)
        | .ok height => (.ok true, { s₂ with status := .atHeight height })
      else (.ok false, s₂)

/-- Map a host block number to paired heights, clamped to the rollup height. -/
def clampHostHeights (X : Externals C H Tx G S) (ruHeight : Nat) (hostBlockNumber : Option Nat) :
    PairedHeights :=
  match hostBlockNumber.bind (pairHost X.hostDeployHeight) with
  | none => ⟨X.hostDeployHeight, 0⟩
  | some heights =>
    -- the host may be ahead of what is stored
    if ruHeight < heights.rollup then pairRu X.hostDeployHeight ruHeight else heights

/-- Update the tags, and tell the host what is finished unless that is still genesis. -/
def updateBlockTags (X : Externals C H Tx G S) (F : Faults) (ruHeight : Nat)
    (safeBlockNumber finalizedBlockNumber : Option Nat) (s : NodeState Tx G S) :
    Except NodeError Unit × NodeState Tx G S :=
  let safeHeights := clampHostHeights X ruHeight safeBlockNumber
  let finalizedHeights := clampHostHeights X ruHeight finalizedBlockNumber
  let s' := { s with chain := { s.chain with
    tags := s.chain.tags.updateAll ruHeight safeHeights.rollup finalizedHeights.rollup } }
  -- at rollup genesis there is nothing to finish
  if 0 < finalizedHeights.rollup then
    match F.sendFinished with
    | some m => (.error (.hostNotifier m), s')
    | none =>
      (.ok (), { s' with finishedHeights := s'.finishedHeights ++ [finalizedHeights.host - 1] })
  else (.ok (), s')

/-- The body of the loop of `start_inner`; an error ends the process. -/
def handleNotification (X : Externals C H Tx G S) (F : Faults) (n : HostNotification C)
    (s : NodeState Tx G S) : Except NodeError Unit × NodeState Tx G S :=
  match onNotification X F n s with
  | (.error e, s₁) => (.error e, s₁)
  | (.ok changed, s₁) =>
    if changed then
      match readLastRollupBlock F.tagsRead s₁.storage with
      | .error e => (.error e, s₁)
      | .ok ruHeight =>
        updateBlockTags X F ruHeight n.safeBlockNumber n.finalizedBlockNumber s₁
    else (.ok (), s₁)

/-! ## Start-up -/

/-- `prebuild` of the builder: genesis is loaded into each tier that lacks it. -/
def prebuild (genesis : ExecutedBlock Tx G S) (st : UnifiedStorage Tx G S) :
    UnifiedStorage Tx G S :=
  ⟨if st.hot.isEmpty then [genesis] else st.hot, if st.cold.isEmpty then [genesis] else st.cold⟩

/-- The reconciliation of `start`: the tier that is ahead is cut to the other one's height. -/
def reconcile (st : UnifiedStorage Tx G S) : UnifiedStorage Tx G S :=
  let hotTip := lastRollupBlock st
  let coldTip := (lastBlockNumber st.cold).getD 0
  let target := min hotTip coldTip
  if target < hotTip ∨ target < coldTip then st.unwindAbove target else st

/-- The host height `start_inner` hands to `set_head`. -/
def headHeight (deploy lastRollupBlock : Nat) : Nat :=
  match lastRollupBlock with
  | 0 => deploy
  | n => (pairRu deploy n).host

/-- A process at the start of its loop. -/
def NodeState.started (st : UnifiedStorage Tx G S) : NodeState Tx G S :=
  ⟨st, ChainNotifier.new, .atHeight (lastRollupBlock st), []⟩

/-! ## The parts of a notification -/

/-- **What holds through a revert, a commit and a status update holds through a notification**,
however it ends. -/
theorem onNotification_invariant {X : Externals C H Tx G S} {F : Faults} {n : HostNotification C}
    {s : NodeState Tx G S} {I : NodeState Tx G S → Prop}
    (hrevert : I (revertPart X F n s).2)
    (hcommit : ∀ s₁, I s₁ → I (commitPart X F n s₁).2)
    (hstatus : ∀ s₁ status, I s₁ → I { s₁ with status := status }) :
    I (onNotification X F n s).2 := by
  unfold onNotification
  split
  · rename_i e s₁ heq
    rw [heq] at hrevert
    exact hrevert
  · rename_i reverted s₁ heq
    rw [heq] at hrevert
    have hs₂ := hcommit s₁ hrevert
    split
    · rename_i e s₂ heq₂
      rw [heq₂] at hs₂
      exact hs₂
    · rename_i committed s₂ heq₂
      rw [heq₂] at hs₂
      split
      · split
        · exact hs₂
        · exact hstatus s₂ _ hs₂
      · exact hs₂

theorem updateBlockTags_storage {X : Externals C H Tx G S} {F : Faults} (s : NodeState Tx G S)
    (ruHeight : Nat) (safe finalized : Option Nat) :
    (updateBlockTags X F ruHeight safe finalized s).2.storage = s.storage := by
  unfold updateBlockTags
  dsimp only
  split
  · split <;> rfl
  · rfl

/-- **What a notification leaves in storage** is what its revert leaves, if that fails, and
what its commit leaves behind it otherwise; it ends well only if both do. -/
theorem handleNotification_parts (X : Externals C H Tx G S) (F : Faults) (n : HostNotification C)
    (s : NodeState Tx G S) :
    let reverted := revertPart X F n s
    let committed := commitPart X F n reverted.2
    let out := handleNotification X F n s
    ((∃ e, reverted.1 = .error e) ∧ (∃ e, out.1 = .error e) ∧
        out.2.storage = reverted.2.storage)
      ∨ ((∃ v, reverted.1 = .ok v) ∧ out.2.storage = committed.2.storage ∧
        ∀ u, out.1 = .ok u → ∃ v, committed.1 = .ok v) := by
  dsimp only
  unfold handleNotification onNotification
  cases hr : revertPart X F n s with
  | mk res s₁ =>
  cases res with
  | error e => exact Or.inl ⟨⟨e, rfl⟩, ⟨e, rfl⟩, rfl⟩
  | ok reverted =>
  refine Or.inr ⟨⟨reverted, rfl⟩, ?_⟩
  dsimp only
  cases hc : commitPart X F n s₁ with
  | mk res s₂ =>
  cases res with
  | error e => exact ⟨rfl, fun u hu => absurd hu (by simp)⟩
  | ok committed =>
  refine ⟨?_, fun _ _ => ⟨committed, rfl⟩⟩
  dsimp only
  cases reverted || committed with
  | false => rfl
  | true =>
      unfold readLastRollupBlock
      cases F.statusRead with
      | some m => rfl
      | none =>
          cases F.tagsRead with
          | some m => rfl
          | none => exact updateBlockTags_storage _ _ _ _

end NodeComponents.Node
