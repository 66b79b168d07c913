import NodeComponents.HostRpc.Delivery

/-!
# What the notifier records was returned

`lastEmitted` and the view are read as what the consumer has. They are written in the
middle of both emitting paths, before the refresh of the tags: if that fails, blocks
are recorded that no call returned, and no later call brings them.

The refresh is the only such place. Where each one that is due goes through, every
entry recorded is that of a block in a notification already returned, whatever else
failed on the way.
-/

namespace NodeComponents.HostRpc

open Lib

variable {T R : Type} {P : Provider T R} {U : B256 → Option RpcHeader} {tm : Timing}
  {s : RpcHostNotifier} {rs : List (Returned T R)}

/-- An entry is that of a block some call returned. -/
def WasReturned (rs : List (Returned T R)) (e : Nat × B256) : Prop :=
  ∃ n seg, some (.ok n) ∈ rs ∧ n.committedChain = some seg ∧ e ∈ viewEntries seg.blocks

/-- The entries the state records as emitted. -/
def RpcHostNotifier.Records (s : RpcHostNotifier) (e : Nat × B256) : Prop :=
  e ∈ s.chainView ∨ s.lastEmitted = some e

/-- What a run keeps of its records. -/
structure Recorded (U : B256 → Option RpcHeader) (rs : List (Returned T R))
    (s : RpcHostNotifier) : Prop where
  returned : ∀ e, s.Records e → WasReturned rs e
  /-- An entry carries the number of the block behind its hash. -/
  known : ∀ e, s.Records e → ∃ x, U e.2 = some x ∧ x.number = e.1
  /-- The view ends in the last emitted block. -/
  emitted : ∀ e, s.tip = some e → s.lastEmitted = some e
  consecutive : Consecutive Prod.fst s.chainView
  bounded : s.chainView.length ≤ s.bufferCapacity
  capacity : 1 ≤ s.bufferCapacity

theorem WasReturned.more {e : Nat × B256} (h : WasReturned rs e) (r : List (Returned T R)) :
    WasReturned (rs ++ r) e := by
  obtain ⟨n, seg, hn, hseg, he⟩ := h
  exact ⟨n, seg, List.mem_append_left _ hn, hseg, he⟩

/-- A step that adds no record. -/
theorem Recorded.still {s' : RpcHostNotifier} (h : Recorded U rs s) (r : List (Returned T R))
    (hview : s'.chainView = s.chainView ∨ s'.chainView = [])
    (hlast : s'.lastEmitted = s.lastEmitted) (hcap : s'.bufferCapacity = s.bufferCapacity) :
    Recorded U (rs ++ r) s' := by
  have hrecords : ∀ e, s'.Records e → s.Records e := by
    intro e hcase
    rcases hcase with hv | hl
    · rcases hview with hsame | hnil
      · exact Or.inl (hsame ▸ hv)
      · rw [hnil] at hv
        exact absurd hv (by simp)
    · exact Or.inr (hlast ▸ hl)
  refine ⟨fun e he => (h.returned e (hrecords e he)).more r, fun e he => h.known e (hrecords e he),
    ?_, ?_, ?_, hcap ▸ h.capacity⟩
  · intro e he
    rcases hview with hsame | hnil
    · rw [hlast]
      exact h.emitted e (by unfold RpcHostNotifier.tip at he ⊢; rwa [hsame] at he)
    · unfold RpcHostNotifier.tip at he
      rw [hnil] at he
      exact absurd he (by simp)
  · rcases hview with hsame | hnil
    · rw [hsame]
      exact h.consecutive
    · rw [hnil]
      exact consecutive_nil
  · rcases hview with hsame | hnil
    · rw [hsame, hcap]
      exact h.bounded
    · rw [hnil]
      exact Nat.zero_le _

end NodeComponents.HostRpc
