import NodeComponents.Node.Recovery

/-!
# Blocks tagged with their host block

Storage does not say which host block a rollup block was made from, so a claim
about it needs a ghost: next to its bundle a block carries the host block whose
extracts were executed. `Externals.tagged` is the EVM that writes the tag and
never reads one.

The tags are only watched. `handleNotification_untag` and `startStorage_untag` say
that erasing them from what the tagged node does leaves what the node itself does.
-/

namespace NodeComponents.Node

open Lib Rpc

variable {C H Tx G S : Type} {X : Externals C H Tx G S} {F : Faults}

/-! ## Tags -/

/-- A bundle and the host block behind it; genesis has none. -/
abbrev Tagged (S H : Type) := S × Option H

/-- The block with its tag. -/
def ExecutedBlock.tag (b : ExecutedBlock Tx G S) (host : Option H) :
    ExecutedBlock Tx G (Tagged S H) :=
  ⟨b.header, b.transactions, b.receipts, b.bundle, host⟩

/-- The block without its tag. -/
def ExecutedBlock.untag (b : ExecutedBlock Tx G (Tagged S H)) : ExecutedBlock Tx G S :=
  ⟨b.header, b.transactions, b.receipts, b.bundle.1⟩

/-- The host block whose extracts were executed to make a block. -/
def ExecutedBlock.host (b : ExecutedBlock Tx G (Tagged S H)) : Option H := b.bundle.2

/-- The same code outside the repository, on tagged blocks. -/
def Externals.tagged (X : Externals C H Tx G S) : Externals C H Tx G (Tagged S H) where
  hostDeployHeight := X.hostDeployHeight
  extractSignet := X.extractSignet
  runEvm hot x := (X.runEvm (hot.map ExecutedBlock.untag) x).map fun b => b.tag (some x.hostBlock)
  coldLogs b := X.coldLogs b.untag

@[simp] theorem untag_tag (b : ExecutedBlock Tx G S) (host : Option H) :
    (b.tag host).untag = b := rfl

/-- **A block is tagged with the host block of its extracts**, and its parent is stored. -/
theorem executes_tagged {hot : List (ExecutedBlock Tx G (Tagged S H))} {x : Extracts H}
    {b : ExecutedBlock Tx G (Tagged S H)} (h : executes X.tagged hot x = some b) :
    b.host = some x.hostBlock ∧ x.ruHeight ≤ hot.length := by
  unfold executes processBlock at h
  cases hparent : hot[x.ruHeight - 1]? with
  | none =>
      rw [hparent] at h
      exact absurd h (by simp [Except.toOption])
  | some parent =>
      have hlt := (List.getElem?_eq_some_iff.mp hparent).1
      rw [hparent] at h
      dsimp only [Externals.tagged] at h
      cases hrun : X.runEvm ((hot.take (x.ruHeight - 1 + 1)).map ExecutedBlock.untag) x with
      | error m =>
          rw [hrun] at h
          exact absurd h (by simp [Except.map, Except.toOption])
      | ok c =>
          rw [hrun] at h
          obtain rfl : c.tag (some x.hostBlock) = b := Option.some.inj h
          exact ⟨rfl, by omega⟩

/-! ## Erasing the tags -/

/-- Storage without tags. -/
def UnifiedStorage.untag (st : UnifiedStorage Tx G (Tagged S H)) : UnifiedStorage Tx G S :=
  ⟨st.hot.map ExecutedBlock.untag, st.cold.map ExecutedBlock.untag⟩

/-- The state without tags; events, status and tags of the RPC carry none. -/
def NodeState.untag (s : NodeState Tx G (Tagged S H)) : NodeState Tx G S :=
  ⟨s.storage.untag, s.chain, s.status, s.finishedHeights⟩

/-- What a method returns, and the state it leaves without tags. -/
def erased {A : Type} (out : A × NodeState Tx G (Tagged S H)) : A × NodeState Tx G S :=
  (out.1, out.2.untag)

variable {s : NodeState Tx G (Tagged S H)}

theorem lastRollupBlock_untag (st : UnifiedStorage Tx G (Tagged S H)) :
    lastRollupBlock st.untag = lastRollupBlock st := by
  unfold lastRollupBlock lastBlockNumber UnifiedStorage.untag
  simp only [List.map_eq_nil_iff, List.length_map]

theorem readLastRollupBlock_untag (fault : Option String)
    (st : UnifiedStorage Tx G (Tagged S H)) :
    readLastRollupBlock fault st.untag = readLastRollupBlock fault st := by
  unfold readLastRollupBlock
  rw [lastRollupBlock_untag]

theorem unwindAbove_untag (st : UnifiedStorage Tx G (Tagged S H)) (height : Nat) :
    st.untag.unwindAbove height = (st.unwindAbove height).untag := by
  unfold UnifiedStorage.unwindAbove UnifiedStorage.untag
  rw [List.map_take, List.map_take]

/-- The tag of a block is not read when it is executed on. -/
theorem processBlock_untag (fault : Option String)
    (hot : List (ExecutedBlock Tx G (Tagged S H))) (x : Extracts H) :
    processBlock X fault (hot.map ExecutedBlock.untag) x
      = (processBlock X.tagged fault hot x).map ExecutedBlock.untag := by
  unfold processBlock
  rw [List.getElem?_map]
  cases hot[x.ruHeight - 1]? with
  | none => rfl
  | some parent =>
      dsimp only [Option.map_some]
      cases fault with
      | some m => rfl
      | none =>
          dsimp only [Externals.tagged]
          rw [← List.map_take]
          cases X.runEvm ((hot.take (x.ruHeight - 1 + 1)).map ExecutedBlock.untag) x <;> rfl

theorem commitLoop_untag : ∀ (xs : List (Extracts H)) (i : Nat)
    (s : NodeState Tx G (Tagged S H)),
    commitLoop X F i xs s.untag = erased (commitLoop X.tagged F i xs s)
  | [], _, _ => rfl
  | x :: xs, i, s => by
      have hblock : processBlock X (F.exec i) s.untag.storage.hot x
          = (processBlock X.tagged (F.exec i) s.storage.hot x).map ExecutedBlock.untag :=
        processBlock_untag (F.exec i) s.storage.hot x
      rw [commitLoop, commitLoop, hblock]
      cases processBlock X.tagged (F.exec i) s.storage.hot x with
      | error e => rfl
      | ok b =>
          dsimp only [Except.map]
          cases F.append i with
          | some m => rfl
          | none =>
              rw [← commitLoop_untag xs (i + 1)]
              simp [NodeState.untag, UnifiedStorage.untag, UnifiedStorage.appendBlock,
                notifyNewBlock, ExecutedBlock.untag]

theorem processCommittedChain_untag (chain : C) :
    processCommittedChain X F chain s.untag
      = erased (processCommittedChain X.tagged F chain s) := by
  unfold processCommittedChain
  rw [show s.untag.storage = s.storage.untag from rfl, readLastRollupBlock_untag]
  cases readLastRollupBlock F.commitRead s.storage with
  | error e => rfl
  | ok lastHeight =>
      have hfresh : freshExtracts X.tagged chain lastHeight
          = freshExtracts X chain lastHeight := rfl
      dsimp only
      rw [hfresh, commitLoop_untag]
      cases commitLoop X.tagged F 0 (freshExtracts X chain lastHeight) s with
      | mk res s' => cases res <;> rfl

theorem revertTo_untag (now target : Nat) :
    revertTo X now s.untag target = (revertTo X.tagged now s target).untag := by
  have hdrained : (s.untag.storage.drainAbove X.coldLogs target).1
      = (s.storage.drainAbove X.tagged.coldLogs target).1 := by
    show List.map _ (List.drop _ (List.map _ _)) = List.map _ (List.drop _ _)
    rw [← List.map_drop, List.map_map]
    rfl
  have hleft : (s.untag.storage.drainAbove X.coldLogs target).2
      = (s.storage.drainAbove X.tagged.coldLogs target).2.untag :=
    unwindAbove_untag s.storage target
  unfold revertTo
  rw [hdrained, hleft]
  dsimp only
  split <;> rfl

theorem onHostRevert_untag (range : RevertRange) :
    onHostRevert X F range s.untag = erased (onHostRevert X.tagged F range s) := by
  unfold onHostRevert
  rw [show s.untag.storage = s.storage.untag from rfl, readLastRollupBlock_untag, revertTo_untag,
    show X.tagged.hostDeployHeight = X.hostDeployHeight from rfl]
  by_cases hbelow : range.tip ≤ X.hostDeployHeight
  · rw [if_pos hbelow, if_pos hbelow]
    rfl
  · rw [if_neg hbelow, if_neg hbelow]
    cases readLastRollupBlock F.revertRead s.storage with
    | error e => rfl
    | ok rollupTip =>
        dsimp only
        cases hostBlockToRollupBlockNum X.hostDeployHeight range.tip with
        | none => rfl
        | some rangeTipRu =>
            dsimp only
            by_cases hcover : rangeTipRu < rollupTip
            · rw [if_pos hcover, if_pos hcover]
              rfl
            · rw [if_neg hcover, if_neg hcover]
              cases F.drain <;> rfl

theorem revertPart_untag (n : HostNotification C) :
    revertPart X F n s.untag = erased (revertPart X.tagged F n s) := by
  unfold revertPart
  cases n.revertRange with
  | none => rfl
  | some range => exact onHostRevert_untag range

theorem commitPart_untag (n : HostNotification C) :
    commitPart X F n s.untag = erased (commitPart X.tagged F n s) := by
  unfold commitPart
  cases n.committedChain with
  | none => rfl
  | some chain => exact processCommittedChain_untag chain

theorem onNotification_untag (n : HostNotification C) :
    onNotification X F n s.untag = erased (onNotification X.tagged F n s) := by
  unfold onNotification
  rw [revertPart_untag]
  cases revertPart X.tagged F n s with
  | mk res s₁ =>
  cases res with
  | error e => rfl
  | ok reverted =>
  dsimp only [erased]
  rw [commitPart_untag]
  cases commitPart X.tagged F n s₁ with
  | mk res s₂ =>
  cases res with
  | error e => rfl
  | ok committed =>
  dsimp only [erased]
  rw [show s₂.untag.storage = s₂.storage.untag from rfl, readLastRollupBlock_untag]
  cases reverted || committed with
  | false => rfl
  | true => cases readLastRollupBlock F.statusRead s₂.storage <;> rfl

theorem updateBlockTags_untag (ruHeight : Nat) (safe finalized : Option Nat) :
    updateBlockTags X F ruHeight safe finalized s.untag
      = erased (updateBlockTags X.tagged F ruHeight safe finalized s) := by
  unfold updateBlockTags
  rw [show clampHostHeights X.tagged = clampHostHeights X from rfl]
  dsimp only
  split
  · cases F.sendFinished <;> rfl
  · rfl

/-- **The tags are only watched**: handling a notification does not depend on them. -/
theorem handleNotification_untag (n : HostNotification C) :
    handleNotification X F n s.untag = erased (handleNotification X.tagged F n s) := by
  unfold handleNotification
  rw [onNotification_untag]
  cases onNotification X.tagged F n s with
  | mk res s₁ =>
  cases res with
  | error e => rfl
  | ok changed =>
  dsimp only [erased]
  cases changed with
  | false => rfl
  | true =>
      rw [show s₁.untag.storage = s₁.storage.untag from rfl, readLastRollupBlock_untag]
      cases readLastRollupBlock F.tagsRead s₁.storage with
      | error e => rfl
      | ok ruHeight => exact updateBlockTags_untag ruHeight _ _

/-- Nor does start-up. -/
theorem startStorage_untag (genesis : ExecutedBlock Tx G (Tagged S H))
    (st : UnifiedStorage Tx G (Tagged S H)) :
    startStorage genesis.untag st.untag = (startStorage genesis st).untag := by
  have hload (tier : List (ExecutedBlock Tx G (Tagged S H))) :
      (if (tier.map ExecutedBlock.untag).isEmpty then [genesis.untag]
        else tier.map ExecutedBlock.untag)
      = (if tier.isEmpty then [genesis] else tier).map ExecutedBlock.untag := by
    cases tier <;> rfl
  have hpre : prebuild genesis.untag st.untag = (prebuild genesis st).untag := by
    unfold prebuild UnifiedStorage.untag
    rw [hload, hload]
  have hcold : lastBlockNumber (prebuild genesis st).untag.cold
      = lastBlockNumber (prebuild genesis st).cold := by
    unfold lastBlockNumber UnifiedStorage.untag
    simp only [List.map_eq_nil_iff, List.length_map]
  unfold startStorage reconcile
  rw [hpre, lastRollupBlock_untag, hcold]
  dsimp only
  split
  · exact unwindAbove_untag _ _
  · rfl

end NodeComponents.Node
