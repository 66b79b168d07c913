import NodeComponents.Node.Commit

/-!
# What a revert leaves behind

`on_host_revert` checks the tip of the range against the stored tip and then cuts
storage below the first reverted block. The first block itself is never checked: a
range that lies above everything stored passes, removes nothing and is still
reported as a change, and the assertion that something was drained fails.

`RevertPost` is what a revert owes its caller. It is met exactly where one of the
two checks ends the call, or some stored block lies above the target.
-/

namespace NodeComponents.Node

open Rpc

variable {C H Tx G S : Type} {X : Externals C H Tx G S} {F : Faults} {range : RevertRange}
  {s : NodeState Tx G S}

/-! ## What a revert should do -/

/-- The blocks a revert of the range removes from storage. -/
def revertDrained (X : Externals C H Tx G S) (range : RevertRange) (s : NodeState Tx G S) :
    List (DrainedBlock G) :=
  (s.storage.drainAbove X.coldLogs (revertTarget X.hostDeployHeight range.first)).1

/-- The assertion of `on_host_revert`, which a call passes if it ends well and not before
the storage is cut: something was drained. -/
def revertAsserts (X : Externals C H Tx G S) (F : Faults) (range : RevertRange)
    (s : NodeState Tx G S) : Prop :=
  (onHostRevert X F range s).1 = .ok true → revertDrained X range s ≠ []

/-- What is true of a revert that was carried out, with common ancestor `target`. -/
structure Reverted (X : Externals C H Tx G S) (F : Faults) (range : RevertRange)
    (s : NodeState Tx G S) (target : Nat) : Prop where
  /-- Storage is cut to the target, or stays as it is below it. -/
  storage : (onHostRevert X F range s).2.storage = s.storage.unwindAbove target
  height : lastRollupBlock (onHostRevert X F range s).2.storage
    = min (lastRollupBlock s.storage) target
  tags : (onHostRevert X F range s).2.chain.tags
    = ⟨min s.chain.tags.latest target, min s.chain.tags.safe target,
        min s.chain.tags.finalized target⟩
  /-- All removed blocks are announced, if there are any, and nothing else is. -/
  announced : (onHostRevert X F range s).2.chain.sent
    = s.chain.sent ++ if revertDrained X range s = [] then []
        else [.reorg ⟨target, (revertDrained X range s).map removedBlock⟩]
  /-- It is reported as a change exactly if something was removed. -/
  changed : (onHostRevert X F range s).1 = .ok true ↔ revertDrained X range s ≠ []
  asserts : revertAsserts X F range s

/-- What a revert owes its caller, for the stored tip `lastRollupBlock s.storage`. -/
structure RevertPost (X : Externals C H Tx G S) (F : Faults) (range : RevertRange)
    (s : NodeState Tx G S) : Prop where
  /-- A range below the rollup is ignored. -/
  below : range.tip ≤ X.hostDeployHeight → onHostRevert X F range s = (.ok false, s)
  /-- A range that ends below the stored tip is refused. -/
  uncovered : X.hostDeployHeight < range.tip →
    range.tip - X.hostDeployHeight < lastRollupBlock s.storage →
    ∃ e, onHostRevert X F range s = (.error e, s)
  /-- Any other is carried out, if storage can be read and cut. -/
  carriedOut : X.hostDeployHeight < range.tip →
    lastRollupBlock s.storage ≤ range.tip - X.hostDeployHeight →
    F.revertRead = none → F.drain = none →
    Reverted X F range s (max (range.first - X.hostDeployHeight) 1 - 1)

/-! ## What the code does -/

/-- The target is the height below the first reverted block, zero at the deploy height. -/
theorem revertTarget_eq (deploy first : Nat) :
    revertTarget deploy first = max (first - deploy) 1 - 1 := by
  unfold revertTarget hostBlockToRollupBlockNum
  by_cases h : deploy ≤ first
  · rw [if_pos h, Option.getD_some]
    omega
  · rw [if_neg h, Option.getD_none]
    omega

/-- Something is removed exactly if the stored tip is above the target. -/
theorem revertDrained_ne_nil_iff :
    revertDrained X range s ≠ []
      ↔ revertTarget X.hostDeployHeight range.first < lastRollupBlock s.storage := by
  rw [lastRollupBlock_eq]
  unfold revertDrained UnifiedStorage.drainAbove
  dsimp only
  rw [Ne, List.map_eq_nil_iff, List.drop_eq_nil_iff]
  omega

/-- A range that passes the check is cut, whatever its first block. -/
theorem onHostRevert_covered (s : NodeState Tx G S) (hdeploy : X.hostDeployHeight < range.tip)
    (hcover : lastRollupBlock s.storage ≤ range.tip - X.hostDeployHeight)
    (hread : F.revertRead = none) (hdrain : F.drain = none) :
    onHostRevert X F range s
      = (.ok true, revertTo X F.now s (revertTarget X.hostDeployHeight range.first)) := by
  unfold onHostRevert readLastRollupBlock hostBlockToRollupBlockNum
  rw [if_neg (by omega), hread, if_pos (by omega)]
  dsimp only
  rw [if_neg (by omega), hdrain]

/-- The events of a cut: the removal, if there is one. -/
theorem revertTo_sent (now : Nat) :
    (revertTo X now s (revertTarget X.hostDeployHeight range.first)).chain.sent
      = s.chain.sent ++ if revertDrained X range s = [] then []
          else [.reorg ⟨revertTarget X.hostDeployHeight range.first,
            (revertDrained X range s).map removedBlock⟩] := by
  unfold revertTo
  dsimp only
  by_cases hnil : revertDrained X range s = []
  · have hempty : (s.storage.drainAbove X.coldLogs
        (revertTarget X.hostDeployHeight range.first)).1.isEmpty = true :=
      List.isEmpty_iff.mpr hnil
    rw [hempty, if_pos rfl, if_pos hnil, List.append_nil]
  · have hfull : ¬ (s.storage.drainAbove X.coldLogs
        (revertTarget X.hostDeployHeight range.first)).1.isEmpty = true :=
      fun h => hnil (List.isEmpty_iff.mp h)
    rw [if_neg hfull, if_neg hnil]
    rfl

/-- Announcing the removal changes neither storage nor tags. -/
theorem revertTo_frame (now target : Nat) :
    (revertTo X now s target).storage = s.storage.unwindAbove target
      ∧ (revertTo X now s target).chain.tags = s.chain.tags.rewindTo target := by
  unfold revertTo
  dsimp only
  split <;> exact ⟨rfl, rfl⟩

/-- **A revert that removes something is carried out as it should be.** -/
theorem reverted_of_lt (hdeploy : X.hostDeployHeight < range.tip)
    (hcover : lastRollupBlock s.storage ≤ range.tip - X.hostDeployHeight)
    (hread : F.revertRead = none) (hdrain : F.drain = none)
    (hlt : revertTarget X.hostDeployHeight range.first < lastRollupBlock s.storage) :
    Reverted X F range s (revertTarget X.hostDeployHeight range.first) := by
  have hcall := onHostRevert_covered s hdeploy hcover hread hdrain
  have hremoved := revertDrained_ne_nil_iff.mpr hlt
  obtain ⟨hstorage, htags⟩ :=
    revertTo_frame (X := X) (s := s) F.now (revertTarget X.hostDeployHeight range.first)
  refine ⟨?_, ?_, ?_, ?_, ?_, fun _ => hremoved⟩
  · rw [hcall, hstorage]
  · rw [hcall, hstorage, lastRollupBlock_unwind]
  · rw [hcall, htags]
    rfl
  · rw [hcall, revertTo_sent]
  · rw [hcall]
    exact ⟨fun _ => hremoved, fun _ => rfl⟩

/-- **A revert meets its postcondition exactly if one of its checks ends it, or the range
starts at or below the stored tip.** -/
theorem onHostRevert_post_iff (X : Externals C H Tx G S) (range : RevertRange)
    (s : NodeState Tx G S) :
    (∀ F, RevertPost X F range s)
      ↔ range.tip ≤ X.hostDeployHeight
        ∨ range.tip - X.hostDeployHeight < lastRollupBlock s.storage
        ∨ (1 ≤ lastRollupBlock s.storage
          ∧ range.first ≤ X.hostDeployHeight + lastRollupBlock s.storage) := by
  have htarget := revertTarget_eq X.hostDeployHeight range.first
  constructor
  · intro hpost
    by_cases hdeploy : range.tip ≤ X.hostDeployHeight
    · exact Or.inl hdeploy
    · by_cases hcover : range.tip - X.hostDeployHeight < lastRollupBlock s.storage
      · exact Or.inr (Or.inl hcover)
      · -- the call ends well, so its assertion says that something was removed
        have hout := (hpost (Faults.none 0)).carriedOut (by omega) (by omega) rfl rfl
        have hresult : (onHostRevert X (Faults.none 0) range s).1 = .ok true := by
          rw [onHostRevert_covered s (by omega) (by omega) rfl rfl]
        have hlt := revertDrained_ne_nil_iff.mp (hout.asserts hresult)
        exact Or.inr (Or.inr (by omega))
  · intro hcond F
    refine ⟨?_, ?_, ?_⟩
    · intro hdeploy
      unfold onHostRevert
      rw [if_pos hdeploy]
    · intro hdeploy hcover
      unfold onHostRevert readLastRollupBlock hostBlockToRollupBlockNum
      rw [if_neg (by omega), if_pos (by omega)]
      cases F.revertRead with
      | some m => exact ⟨_, rfl⟩
      | none =>
          dsimp only
          rw [if_pos hcover]
          exact ⟨_, rfl⟩
    · intro hdeploy hcover hread hdrain
      rw [← htarget]
      refine reverted_of_lt hdeploy hcover hread hdrain ?_
      rcases hcond with h | h | h <;> omega

/-- **A revert above the stored tip is reported as a change**, though it removes nothing,
and fails the assertion: one rollup block is stored, and its host block is 101. -/
theorem onHostRevert_above_tip :
    let X := countingExternals 100
    let range : RevertRange := ⟨102, 103, by decide, by decide⟩
    let s : NodeState Unit Unit Unit := .started ⟨[emptyBlock 0, emptyBlock 1],
      [emptyBlock 0, emptyBlock 1]⟩
    lastRollupBlock s.storage = 1
      ∧ onHostRevert X (Faults.none 0) range s = (.ok true, s)
      ∧ revertDrained X range s = []
      ∧ ¬ revertAsserts X (Faults.none 0) range s
      ∧ ¬ RevertPost X (Faults.none 0) range s := by
  intro X range s
  have hresult : onHostRevert X (Faults.none 0) range s = (.ok true, s) := by decide
  have hdrained : revertDrained X range s = [] := by decide
  refine ⟨by decide, hresult, hdrained, ?_, ?_⟩
  · exact fun h => h (congrArg Prod.fst hresult) hdrained
  · intro h
    have hout := h.carriedOut (by decide) (by decide) rfl rfl
    exact hout.changed.mp (congrArg Prod.fst hresult) hdrained

end NodeComponents.Node
