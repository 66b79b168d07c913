import NodeComponents.Lib.Effects
import NodeComponents.Node.Events
import NodeComponents.Node.Recovery
import NodeComponents.Rpc.TagWrites

/-!
# The node, one effect at a time

RPC handlers read storage and tags while a notification is being handled, and a
crash may come at any time. Both see the states between two effects: an appended
block, a cut of storage, one atomic write to a tag, a broadcast.

`handleEffects` lists the effects of one notification in the order the source
makes them, and `handleEffects_state` says that making all of them is what
`handleNotification` does. A `LiveNode` carries the effects the notification in
hand still has to make, so that a run of it stops at every state that can be seen.

Cold storage follows on its own. A `LiveNode` counts what it has written of the blocks
dispatched to it, and a restart finds no more than that.
-/

namespace NodeComponents.Node

open Lib Rpc

variable {C H Tx G S : Type} {X : Externals C H Tx G S} {F : Faults}

/-! ## Effects -/

/-- An effect of the node that others can see. -/
inductive Effect (Tx G S : Type) where
  /-- `append_blocks`. -/
  | append (b : ExecutedBlock Tx G S)
  /-- `drain_above`. -/
  | drain (height : Nat)
  | tag (w : TagWrite)
  /-- The ring buffer half of `send_reorg`. -/
  | pushReorg (now : Nat) (notif : ReorgNotification G)
  | broadcast (event : ChainEvent Tx G)
  | status (height : Nat)
  /-- A call of `send_finished_height`, and whether the host notifier refuses it. -/
  | sendFinished (height : Nat) (refused : Option String)
deriving DecidableEq, Repr

/-- The state behind an effect. -/
def NodeState.after (s : NodeState Tx G S) : Effect Tx G S → NodeState Tx G S
  | .append b => { s with storage := s.storage.appendBlock b }
  | .drain height => { s with storage := s.storage.unwindAbove height }
  | .tag w => { s with chain := { s.chain with tags := s.chain.tags.write w } }
  | .pushReorg now notif =>
    { s with chain := { s.chain with reorgs := pushReorg s.chain.reorgs now notif } }
  | .broadcast event => { s with chain := s.chain.sendEvent event }
  | .status height => { s with status := .atHeight height }
  | .sendFinished height none => { s with finishedHeights := s.finishedHeights ++ [height] }
  | .sendFinished _ (some _) => s

/-! ## The effects of a notification -/

/-- The height a revert cuts storage to, if it is carried out. -/
def revertCut (X : Externals C H Tx G S) (F : Faults) (n : HostNotification C)
    (s : NodeState Tx G S) : Option Nat :=
  match n.revertRange with
  | none => none
  | some range =>
    if X.hostDeployHeight < range.tip ∧ F.revertRead = none
        ∧ lastRollupBlock s.storage ≤ range.tip - X.hostDeployHeight ∧ F.drain = none
    then some (revertTarget X.hostDeployHeight range.first)
    else none

/-- Storage is cut first, then the tags are capped, then the removal is announced. -/
def cutEffects (X : Externals C H Tx G S) (now : Nat) (s : NodeState Tx G S) (target : Nat) :
    List (Effect Tx G S) :=
  let drained := (s.storage.drainAbove X.coldLogs target).1
  .drain target :: (rewindToWrites target).map .tag ++
    if drained.isEmpty then []
    else [.pushReorg now ⟨target, drained.map removedBlock⟩,
      .broadcast (.reorg ⟨target, drained.map removedBlock⟩)]

def revertEffects (X : Externals C H Tx G S) (F : Faults) (n : HostNotification C)
    (s : NodeState Tx G S) : List (Effect Tx G S) :=
  match revertCut X F n s with
  | none => []
  | some target => cutEffects X F.now s target

/-- The effects of the commit loop, from the `i`-th block of the call on. -/
def loopEffects (X : Externals C H Tx G S) (F : Faults) :
    Nat → List (Extracts H) → NodeState Tx G S → List (Effect Tx G S)
  | _, [], _ => []
  | i, x :: xs, s =>
    match processBlock X (F.exec i) s.storage.hot x with
    | .error _ => []
    | .ok b =>
      match F.append i with
      | some _ => [.broadcast (blockEvent b)]
      | none =>
        .broadcast (blockEvent b) :: .append b ::
          loopEffects X F (i + 1) xs
            { notifyNewBlock s b with storage := s.storage.appendBlock b }

def commitEffects (X : Externals C H Tx G S) (F : Faults) (n : HostNotification C)
    (s : NodeState Tx G S) : List (Effect Tx G S) :=
  match n.committedChain with
  | none => []
  | some chain =>
    match readLastRollupBlock F.commitRead s.storage with
    | .error _ => []
    | .ok lastHeight => loopEffects X F 0 (freshExtracts X chain lastHeight) s

/-- The effects of `update_block_tags`. -/
def tagEffects (X : Externals C H Tx G S) (F : Faults) (ruHeight : Nat)
    (safeBlockNumber finalizedBlockNumber : Option Nat) : List (Effect Tx G S) :=
  let safeHeights := clampHostHeights X ruHeight safeBlockNumber
  let finalizedHeights := clampHostHeights X ruHeight finalizedBlockNumber
  (updateAllWrites ruHeight safeHeights.rollup finalizedHeights.rollup).map .tag ++
    if 0 < finalizedHeights.rollup then [.sendFinished (finalizedHeights.host - 1) F.sendFinished]
    else []

/-- The effects behind a commit, if any rollup state changed. -/
def changedEffects (X : Externals C H Tx G S) (F : Faults) (n : HostNotification C)
    (s : NodeState Tx G S) : List (Effect Tx G S) :=
  match readLastRollupBlock F.statusRead s.storage with
  | .error _ => []
  | .ok height =>
    .status height ::
      match readLastRollupBlock F.tagsRead s.storage with
      | .error _ => []
      | .ok ruHeight => tagEffects X F ruHeight n.safeBlockNumber n.finalizedBlockNumber

/-- The effects of one notification, in order. -/
def handleEffects (X : Externals C H Tx G S) (F : Faults) (n : HostNotification C)
    (s : NodeState Tx G S) : List (Effect Tx G S) :=
  revertEffects X F n s ++
    match revertPart X F n s with
    | (.error _, _) => []
    | (.ok reverted, s₁) =>
      commitEffects X F n s₁ ++
        match commitPart X F n s₁ with
        | (.error _, _) => []
        | (.ok committed, s₂) =>
          if reverted || committed then changedEffects X F n s₂ else []

/-- A commit only announces and appends. -/
theorem loopEffects_mem : ∀ (xs : List (Extracts H)) (i : Nat) (s : NodeState Tx G S),
    ∀ e ∈ loopEffects X F i xs s, (∃ event, e = .broadcast event) ∨ ∃ b, e = .append b
  | [], _, _ => fun _ he => absurd he (by simp [loopEffects])
  | x :: xs, i, s => by
      intro e he
      unfold loopEffects at he
      split at he
      · exact absurd he (by simp)
      · split at he
        · exact Or.inl ⟨_, List.mem_singleton.mp he⟩
        · rcases List.mem_cons.mp he with heq | he
          · exact Or.inl ⟨_, heq⟩
          rcases List.mem_cons.mp he with heq | he
          · exact Or.inr ⟨_, heq⟩
          exact loopEffects_mem xs (i + 1) _ e he

theorem commitEffects_mem (X : Externals C H Tx G S) (F : Faults) (n : HostNotification C)
    (s : NodeState Tx G S) :
    ∀ e ∈ commitEffects X F n s, (∃ event, e = .broadcast event) ∨ ∃ b, e = .append b := by
  intro e he
  unfold commitEffects at he
  split at he
  · exact absurd he (by simp)
  · split at he
    · exact absurd he (by simp)
    · exact loopEffects_mem _ 0 s e he

/-! ## Making all effects of a notification -/

/-- A revert that is carried out. -/
theorem revertCut_some {n : HostNotification C} {s : NodeState Tx G S} {target : Nat}
    (h : revertCut X F n s = some target) :
    ∃ range, n.revertRange = some range ∧
      (X.hostDeployHeight < range.tip ∧ F.revertRead = none
        ∧ lastRollupBlock s.storage ≤ range.tip - X.hostDeployHeight ∧ F.drain = none) ∧
      target = revertTarget X.hostDeployHeight range.first := by
  unfold revertCut at h
  cases hr : n.revertRange with
  | none => rw [hr] at h; exact absurd h (by simp)
  | some range =>
      rw [hr] at h
      dsimp only at h
      split at h
      · rename_i hcond
        exact ⟨range, rfl, hcond, (Option.some.inj h).symm⟩
      · exact absurd h (by simp)

/-- It leaves storage cut and the tags capped. -/
theorem revertPart_cut {n : HostNotification C} {s : NodeState Tx G S} {target : Nat}
    (h : revertCut X F n s = some target) :
    revertPart X F n s = (.ok true, revertTo X F.now s target) := by
  obtain ⟨range, hr, ⟨habove, hread, hcover, hdrain⟩, rfl⟩ := revertCut_some h
  unfold revertPart onHostRevert readLastRollupBlock hostBlockToRollupBlockNum
  rw [hr]
  dsimp only
  rw [if_neg (by omega), hread]
  dsimp only
  rw [if_pos (by omega)]
  dsimp only
  rw [if_neg (by omega), hdrain]

/-- A revert that is not carried out changes nothing, and fails unless it is below the rollup. -/
theorem revertPart_uncut {n : HostNotification C} {s : NodeState Tx G S}
    (h : revertCut X F n s = none) :
    (revertPart X F n s).2 = s ∧
      (((revertPart X F n s).1 = .ok false ∧
          ∀ range, n.revertRange = some range → range.tip ≤ X.hostDeployHeight)
        ∨ ∃ e, (revertPart X F n s).1 = .error e) := by
  unfold revertCut at h
  unfold revertPart
  cases hr : n.revertRange with
  | none => exact ⟨rfl, Or.inl ⟨rfl, fun _ hsome => absurd hsome (by simp)⟩⟩
  | some range =>
      rw [hr] at h
      dsimp only at h ⊢
      split at h
      · exact absurd h (by simp)
      · rename_i hcond
        unfold onHostRevert readLastRollupBlock hostBlockToRollupBlockNum
        by_cases htip : range.tip ≤ X.hostDeployHeight
        · rw [if_pos htip]
          exact ⟨rfl, Or.inl ⟨rfl, fun _ hsome => Option.some.inj hsome ▸ htip⟩⟩
        · rw [if_neg htip]
          cases hread : F.revertRead with
          | some m => exact ⟨rfl, Or.inr ⟨_, rfl⟩⟩
          | none =>
              dsimp only
              rw [if_pos (by omega)]
              dsimp only
              by_cases hcover : range.tip - X.hostDeployHeight < lastRollupBlock s.storage
              · rw [if_pos hcover]
                exact ⟨rfl, Or.inr ⟨_, rfl⟩⟩
              · rw [if_neg hcover]
                cases hdrain : F.drain with
                | some m => exact ⟨rfl, Or.inr ⟨_, rfl⟩⟩
                | none => exact absurd ⟨by omega, hread, by omega, hdrain⟩ hcond

theorem cutEffects_state (now : Nat) (s : NodeState Tx G S) (target : Nat) :
    (cutEffects X now s target).foldl NodeState.after s = revertTo X now s target := by
  unfold cutEffects revertTo
  dsimp only
  split <;> rfl

theorem revertEffects_state (n : HostNotification C) (s : NodeState Tx G S) :
    (revertEffects X F n s).foldl NodeState.after s = (revertPart X F n s).2 := by
  unfold revertEffects
  cases h : revertCut X F n s with
  | none => exact (revertPart_uncut h).1.symm
  | some target =>
      rw [revertPart_cut h]
      exact cutEffects_state F.now s target

theorem loopEffects_state : ∀ (xs : List (Extracts H)) (i : Nat) (s : NodeState Tx G S),
    (loopEffects X F i xs s).foldl NodeState.after s = (commitLoop X F i xs s).2
  | [], _, _ => rfl
  | x :: xs, i, s => by
      unfold loopEffects commitLoop
      cases processBlock X (F.exec i) s.storage.hot x with
      | error e => rfl
      | ok b =>
          dsimp only
          cases F.append i with
          | some m => rfl
          | none =>
              exact loopEffects_state xs (i + 1)
                { notifyNewBlock s b with storage := s.storage.appendBlock b }

theorem commitEffects_state (n : HostNotification C) (s : NodeState Tx G S) :
    (commitEffects X F n s).foldl NodeState.after s = (commitPart X F n s).2 := by
  unfold commitEffects commitPart
  cases n.committedChain with
  | none => rfl
  | some chain =>
      dsimp only
      unfold processCommittedChain
      cases readLastRollupBlock F.commitRead s.storage with
      | error e => rfl
      | ok lastHeight =>
          dsimp only
          rw [loopEffects_state]
          split <;> (rename_i heq; rw [heq])

theorem tagEffects_state (s : NodeState Tx G S) (ruHeight : Nat) (safe finalized : Option Nat) :
    (tagEffects X F ruHeight safe finalized).foldl NodeState.after s
      = (updateBlockTags X F ruHeight safe finalized s).2 := by
  unfold tagEffects updateBlockTags
  dsimp only
  split
  · cases F.sendFinished <;> rfl
  · rfl

/-- **The effects of a notification are what handling it does.** -/
theorem handleEffects_state (n : HostNotification C) (s : NodeState Tx G S) :
    (handleEffects X F n s).foldl NodeState.after s = (handleNotification X F n s).2 := by
  unfold handleEffects handleNotification onNotification
  rw [List.foldl_append, revertEffects_state]
  cases revertPart X F n s with
  | mk res s₁ =>
  cases res with
  | error e => rfl
  | ok reverted =>
  dsimp only
  rw [List.foldl_append, commitEffects_state]
  cases commitPart X F n s₁ with
  | mk res s₂ =>
  cases res with
  | error e => rfl
  | ok committed =>
  dsimp only
  unfold changedEffects readLastRollupBlock
  cases reverted || committed with
  | false => rfl
  | true =>
      cases F.statusRead with
      | some m => rfl
      | none =>
          cases F.tagsRead with
          | some m => rfl
          | none => exact tagEffects_state _ _ _ _

/-! ## Runs of a live node -/

/-- A node as others see it: its state, the effects the notification in hand still has to
make, and whether its loop ended. -/
structure LiveNode (Tx G S : Type) where
  state : NodeState Tx G S
  pending : List (Effect Tx G S)
  ended : Bool
  /-- The finalized numbers of the notifications taken so far. -/
  reported : List Nat
  /-- How many of the blocks dispatched to it cold storage has written. -/
  written : Nat

/-- What a live node does next. -/
inductive LiveMove (C : Type) where
  /-- It takes a notification from the host. -/
  | take (n : HostNotification C) (F : Faults)
  /-- It makes the next effect of the notification in hand. -/
  | effect
  /-- Cold storage writes the next block, if there is one. -/
  | ingest
  /-- It dies, whatever is pending, and is started again. -/
  | restart

/-- A node that was just started on a storage. -/
def LiveNode.booted (genesis : ExecutedBlock Tx G S) (st : UnifiedStorage Tx G S)
    (reported : List Nat) : LiveNode Tx G S :=
  ⟨NodeState.started (startStorage genesis st), [], false, reported,
    (startStorage genesis st).cold.length⟩

/-- What storage holds at the moment. -/
def LiveNode.found (w : LiveNode Tx G S) : UnifiedStorage Tx G S :=
  w.state.storage.found w.written

/-- One move, and the effect it makes, if any. -/
def liveStep (X : Externals C H Tx G S) (genesis : ExecutedBlock Tx G S) :
    LiveMove C → LiveNode Tx G S → Option (Effect Tx G S) × LiveNode Tx G S
  | .take n F, ⟨s, [], false, reported, written⟩ =>
    (none, ⟨s, handleEffects X F n s,
      -- an error ends the loop
      !(handleNotification X F n s).1.toOption.isSome,
      reported ++ n.finalizedBlockNumber.toList, written⟩)
  | .effect, ⟨s, e :: es, ended, reported, written⟩ =>
    -- a cut takes what was written away
    (some e, ⟨s.after e, es, ended, reported, min written (s.after e).storage.cold.length⟩)
  | .ingest, w => (none, { w with written := min (w.written + 1) w.state.storage.cold.length })
  | .restart, w => (none, LiveNode.booted genesis w.found w.reported)
  | _, w => (none, w)

/-- Runs of a live node whose moves all meet a condition. -/
abbrev LiveRun (X : Externals C H Tx G S) (genesis : ExecutedBlock Tx G S)
    (A : LiveMove C → LiveNode Tx G S → Prop) (st : UnifiedStorage Tx G S) :
    List (Effect Tx G S) → LiveNode Tx G S → Prop :=
  Run (liveStep X genesis) A (LiveNode.booted genesis st [])

/-- Making the pending effects, one after another; cold storage writes nothing meanwhile. -/
theorem runInputs_effects (genesis : ExecutedBlock Tx G S) (ended : Bool) (reported : List Nat) :
    ∀ (es : List (Effect Tx G S)) (s : NodeState Tx G S) (written : Nat), ∃ left ≤ written,
      runInputs (liveStep X genesis) (List.replicate es.length .effect)
          ⟨s, es, ended, reported, written⟩
        = (es, ⟨es.foldl NodeState.after s, [], ended, reported, left⟩)
  | [], _, written => ⟨written, Nat.le_refl _, rfl⟩
  | e :: es, s, written => by
      obtain ⟨left, hleft, h⟩ := runInputs_effects genesis ended reported es (s.after e)
        (min written (s.after e).storage.cold.length)
      refine ⟨left, Nat.le_trans hleft (Nat.min_le_left _ _), ?_⟩
      show (e :: (runInputs (liveStep X genesis) (List.replicate es.length .effect)
          ⟨s.after e, es, ended, reported, _⟩).1, (runInputs (liveStep X genesis)
          (List.replicate es.length .effect) ⟨s.after e, es, ended, reported, _⟩).2) = _
      rw [h]
      rfl

/-- **Taking a notification and making its effects is handling it.** -/
theorem live_handles (genesis : ExecutedBlock Tx G S) (n : HostNotification C) (F : Faults)
    (s : NodeState Tx G S) (reported : List Nat) (written : Nat) :
    let effects := handleEffects X F n s
    ∃ left ≤ written,
      runInputs (liveStep X genesis) (.take n F :: List.replicate effects.length .effect)
          ⟨s, [], false, reported, written⟩
        = (effects, ⟨(handleNotification X F n s).2, [],
            !(handleNotification X F n s).1.toOption.isSome,
            reported ++ n.finalizedBlockNumber.toList, left⟩) := by
  intro effects
  obtain ⟨left, hleft, h⟩ := runInputs_effects (X := X) genesis
    (!(handleNotification X F n s).1.toOption.isSome) (reported ++ n.finalizedBlockNumber.toList)
    effects s written
  rw [handleEffects_state] at h
  exact ⟨left, hleft, h⟩

end NodeComponents.Node
