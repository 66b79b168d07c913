import NodeComponents.Lib.Run
import NodeComponents.Node.Commit

/-!
# The event stream and storage

A subscriber that starts from the stored chain and folds the events should hold
the stored chain again after each notification. On the revert side it does:
storage is cut first and the event says what was cut. On the commit side the event
goes out **before** the block is appended, so an append that fails leaves the
subscribers with a block that was never stored.

`events_fold_storage` is what remains: in every run without a failing append the
fold is the stored chain, whatever else fails.
-/

namespace NodeComponents.Node

open Lib Rpc

variable {C H Tx G S : Type} {X : Externals C H Tx G S} {F : Faults}
  {base : List (NewBlockNotification Tx G)} {s : NodeState Tx G S}

/-! ## Folding the events -/

/-- What a subscriber is told of a block. -/
def announced (b : ExecutedBlock Tx G S) : NewBlockNotification Tx G :=
  ⟨b.header, b.transactions, b.receipts⟩

/-- A subscriber's chain, by height, after an event: a new block is appended, a
reorg drops every block above the common ancestor. -/
def foldEvent (chain : List (NewBlockNotification Tx G)) :
    ChainEvent Tx G → List (NewBlockNotification Tx G)
  | .newBlock notif => chain ++ [notif]
  | .reorg notif => chain.take (notif.commonAncestor + 1)

/-- The folded chain. -/
def folded (base : List (NewBlockNotification Tx G)) (events : List (ChainEvent Tx G)) :
    List (NewBlockNotification Tx G) := events.foldl foldEvent base

/-- The removed blocks of a reorg are the blocks the fold drops, in ascending order. -/
def RemovesDropped (base : List (NewBlockNotification Tx G)) (before : List (ChainEvent Tx G)) :
    ChainEvent Tx G → Prop
  | .newBlock _ => True
  | .reorg notif =>
    notif.removedBlocks.map (fun b => (b.number, b.hash, b.timestamp))
      = ((folded base before).drop (notif.commonAncestor + 1)).map
          fun b => (b.header.number, b.header.hash, b.header.timestamp)

/-- The event stream is a faithful log of storage since the stored chain was `base`. -/
structure FaithfulLog (base : List (NewBlockNotification Tx G)) (s : NodeState Tx G S) : Prop where
  folds : folded base s.chain.sent = s.storage.hot.map announced
  removes : Along (RemovesDropped base) s.chain.sent

theorem folded_append {events more : List (ChainEvent Tx G)} :
    folded base (events ++ more) = folded (folded base events) more := List.foldl_append

/-- New blocks are appended in the order they were sent. -/
theorem folded_blockEvents (bs : List (ExecutedBlock Tx G S)) :
    folded base (bs.map blockEvent) = base ++ bs.map announced := by
  induction bs generalizing base with
  | nil => simp [folded]
  | cons b bs ih =>
      have hstep : folded base ((b :: bs).map blockEvent)
          = folded (base ++ [announced b]) (bs.map blockEvent) := rfl
      rw [hstep, ih, List.append_assoc]
      rfl

theorem faithfulLog_started {st : UnifiedStorage Tx G S} :
    FaithfulLog (st.hot.map announced) (NodeState.started st) := ⟨rfl, along_nil⟩

/-! ## What each part keeps -/

/-- A commit whose blocks are all stored and announced keeps the log faithful. -/
theorem FaithfulLog.committed (h : FaithfulLog base s) (bs : List (ExecutedBlock Tx G S)) :
    FaithfulLog base (s.committed bs (bs.map blockEvent)) where
  folds := by
    show folded base (s.chain.sent ++ bs.map blockEvent) = (s.storage.hot ++ bs).map announced
    rw [folded_append, h.folds, folded_blockEvents, List.map_append]
  removes := by
    show Along (RemovesDropped base) (s.chain.sent ++ bs.map blockEvent)
    induction bs using List.reverseRecOn with
    | nil => rw [List.map_nil, List.append_nil]; exact h.removes
    | append_singleton bs b ih =>
        rw [List.map_append, ← List.append_assoc]
        exact along_concat ih trivial

/-- A revert that cuts storage and says what it cut keeps the log faithful. -/
theorem FaithfulLog.revertTo (h : FaithfulLog base s) (now target : Nat) :
    FaithfulLog base (revertTo X now s target) := by
  have hcut :
      (s.storage.drainAbove X.coldLogs target).2.hot = s.storage.hot.take (target + 1) := rfl
  unfold Node.revertTo
  dsimp only
  split
  · rename_i hempty
    -- nothing above the target: the cut changes nothing and nothing is sent
    have hnone : s.storage.hot.drop (target + 1) = [] := by
      simpa [UnifiedStorage.drainAbove] using hempty
    have hsame : s.storage.hot.take (target + 1) = s.storage.hot :=
      List.take_of_length_le (List.drop_eq_nil_iff.mp hnone)
    refine ⟨?_, h.removes⟩
    show folded base s.chain.sent = _
    rw [h.folds, hcut, hsame]
  · refine ⟨?_, along_concat h.removes ?_⟩
    · show folded base (s.chain.sent ++ [_]) = _
      rw [folded_append, h.folds]
      show (s.storage.hot.map announced).take (target + 1) = _
      rw [← List.map_take]
      rfl
    · show List.map _ (List.map removedBlock _) = List.map _ (List.drop (target + 1) _)
      rw [h.folds, ← List.map_drop, List.map_map, List.map_map]
      simp only [UnifiedStorage.drainAbove, List.map_map]
      rfl

/-- How `on_host_revert` can end: nothing changed, or storage was cut to the target. -/
inductive RevertEnd (X : Externals C H Tx G S) (F : Faults) (range : RevertRange)
    (s : NodeState Tx G S) : Except NodeError Bool → NodeState Tx G S → Prop
  | below (h : range.tip ≤ X.hostDeployHeight) : RevertEnd X F range s (.ok false) s
  | refused (e : NodeError) : RevertEnd X F range s (.error e) s
  | cut (h : X.hostDeployHeight < range.tip)
      (hcover : lastRollupBlock s.storage ≤ range.tip - X.hostDeployHeight) :
      RevertEnd X F range s (.ok true)
        (Node.revertTo X F.now s (revertTarget X.hostDeployHeight range.first))

theorem onHostRevert_end (X : Externals C H Tx G S) (F : Faults) (range : RevertRange)
    (s : NodeState Tx G S) :
    RevertEnd X F range s (onHostRevert X F range s).1 (onHostRevert X F range s).2 := by
  unfold onHostRevert
  split
  · rename_i h
    exact RevertEnd.below h
  · rename_i habove
    split
    · exact RevertEnd.refused _
    · rename_i rollupTip hread
      have htip : rollupTip = lastRollupBlock s.storage := by
        unfold readLastRollupBlock at hread
        split at hread
        · exact absurd hread (by simp)
        · exact (Except.ok.inj hread).symm
      split
      · exact RevertEnd.refused _
      · rename_i rangeTipRu hmap
        have hru : rangeTipRu = range.tip - X.hostDeployHeight := by
          unfold hostBlockToRollupBlockNum at hmap
          rw [if_pos (by omega)] at hmap
          exact (Option.some.inj hmap).symm
        split
        · exact RevertEnd.refused _
        · split
          · exact RevertEnd.refused _
          · exact RevertEnd.cut (by omega) (by omega)

theorem FaithfulLog.revertPart (h : FaithfulLog base s) {n : HostNotification C} :
    FaithfulLog base (revertPart X F n s).2 := by
  unfold Node.revertPart
  split
  · exact h
  · rename_i range _
    have hend := onHostRevert_end X F range s
    generalize (onHostRevert X F range s).1 = r at hend
    generalize (onHostRevert X F range s).2 = s' at hend
    cases hend with
    | below _ => exact h
    | refused _ => exact h
    | cut _ _ => exact h.revertTo _ _

/-- No append of the step fails. -/
def AppendsSucceed (F : Faults) : Prop := ∀ i, F.append i = none

theorem FaithfulLog.commitPart (hF : AppendsSucceed F) (h : FaithfulLog base s)
    {n : HostNotification C} : FaithfulLog base (commitPart X F n s).2 := by
  unfold Node.commitPart
  split
  · exact h
  · rename_i chain _
    cases hread : F.commitRead with
    | some m =>
        unfold processCommittedChain readLastRollupBlock
        rw [hread]
        exact h
    | none =>
        obtain ⟨done, rest, bs, extra, r, _, _, hstate, hend, _⟩ :=
          processCommittedChain_spec (X := X) s chain hread
        have hextra : extra = [] := by
          cases hend with
          | finished => rfl
          | refused _ => rfl
          | unstored _ ha => exact absurd ((hF _).symm.trans ha) (by simp)
        rw [hstate, hextra, List.append_nil]
        exact h.committed bs

/-! ## Runs -/

/-- One call of `on_notification`, which returns its result. -/
def notified (X : Externals C H Tx G S) (i : HostNotification C × Faults) (s : NodeState Tx G S) :
    Option (Except NodeError Bool) × NodeState Tx G S :=
  (some (onNotification X i.2 i.1 s).1, (onNotification X i.2 i.1 s).2)

/-- **A notification whose appends succeed keeps the log faithful**, also when it fails. -/
theorem faithfulLog_step (h : FaithfulLog base s) {i : HostNotification C × Faults}
    (hF : AppendsSucceed i.2) : FaithfulLog base (notified X i s).2 :=
  onNotification_invariant h.revertPart (fun _ h₁ => h₁.commitPart hF)
    (fun _ _ h₁ => ⟨h₁.folds, h₁.removes⟩)

/--
**The event stream is a faithful log of storage.** From any stored chain, over
any notifications with any faults but failing appends: after each of them, ended
well or in an error, the folded events are the stored chain, and each reorg event
removed exactly the blocks the fold dropped.
-/
theorem events_fold_storage {st : UnifiedStorage Tx G S} {rs : List (Except NodeError Bool)}
    (hrun : Run (notified X) (fun i _ => AppendsSucceed i.2) (NodeState.started st) rs s) :
    FaithfulLog (st.hot.map announced) s :=
  hrun.invariant (I := fun _ s => FaithfulLog (st.hot.map announced) s) faithfulLog_started
    fun _ _ _ h hF => faithfulLog_step h hF

/-- Two blocks are committed, and the second is replaced. -/
theorem events_fold_storage_reorg :
    let X := countingExternals 100
    let st : UnifiedStorage Unit Unit Unit := ⟨[emptyBlock 0], [emptyBlock 0]⟩
    let commit : HostNotification (List Nat) := ⟨.chainCommitted [101, 102], none, none⟩
    let reorg : HostNotification (List Nat) :=
      ⟨.chainReorged ⟨102, 102, by decide, by decide⟩ [102], none, none⟩
    let s := (runInputs (notified X) [(commit, Faults.none 0), (reorg, Faults.none 1)]
      (NodeState.started st)).2
    s.chain.sent.length = 4 ∧ FaithfulLog (st.hot.map announced) s := by
  intro X st commit reorg s
  exact ⟨rfl, events_fold_storage (runInputs_run [(commit, Faults.none 0), (reorg, Faults.none 1)]
    _ ⟨fun _ => rfl, fun _ => rfl, trivial⟩)⟩

/-- A failing append leaves the subscribers with a block that was never stored. -/
theorem failed_append_stays_announced :
    let X := countingExternals 100
    let st : UnifiedStorage Unit Unit Unit := ⟨[emptyBlock 0], [emptyBlock 0]⟩
    let commit : HostNotification (List Nat) := ⟨.chainCommitted [101], none, none⟩
    let F := { Faults.none 0 with append := fun _ => some "disk full" }
    let s := (notified X (commit, F) (NodeState.started st)).2
    (notified X (commit, F) (NodeState.started st)).1 = some (.error (.storage "disk full"))
      ∧ s.storage = st ∧ ¬ FaithfulLog (st.hot.map announced) s := by
  intro X st commit F s
  refine ⟨rfl, rfl, ?_⟩
  intro h
  have hlen := congrArg List.length h.folds
  exact absurd hlen (by decide)

end NodeComponents.Node
