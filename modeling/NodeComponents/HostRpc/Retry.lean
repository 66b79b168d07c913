import NodeComponents.HostRpc.Recorded

/-!
# Calling again after an error

An error leaves the position of the notifier where it was, so a later call answered by
a healthy provider starts where the failed one did. A failed batch is read again from
the same cursor. A failed head is gone from the subscription, but a later head on top
of it walks down through it: the walk collects the blocks above the failed head first
and then takes the very steps the failed walk would have taken.

That needs a view to walk down to. On an empty view a walk takes the one block it is
shown, so there an error loses the block.
-/

namespace NodeComponents.HostRpc

open Lib

variable {T R : Type} {P : Provider T R} {tm : Timing} {s : RpcHostNotifier}

/-! ## Healthy providers -/

/-- A provider that answers every call, and the same at every instant. -/
structure SteadyProvider (T R : Type) where
  tip : Nat
  byNumber : BlockNumberOrTag → Option (Block T)
  byHash : B256 → Option (Block T)
  receipts : BlockId → Option (List R)

def SteadyProvider.provider (H : SteadyProvider T R) : Provider T R where
  getBlockNumber _ := .ok H.tip
  getBlockByNumber _ tag := .ok (H.byNumber tag)
  getBlockByHash _ h := .ok (H.byHash h)
  getBlockReceipts _ id := .ok (H.receipts id)

variable {H : SteadyProvider T R}

/-- The top of an ascent. -/
def topHash (base : B256) (above : List (Nat × B256)) : B256 :=
  (above.getLast?.map Prod.snd).getD base

theorem topHash_cons (base : B256) (e : Nat × B256) (rest : List (Nat × B256)) :
    topHash base (e :: rest) = topHash e.2 rest := by
  unfold topHash
  cases rest with
  | nil => rfl
  | cons c rest =>
      rw [List.getLast?_cons_cons]
      obtain ⟨last, hlast⟩ : ∃ last, (c :: rest).getLast? = some last := by
        rw [List.getLast?_eq_some_getLast (by simp)]
        exact ⟨_, rfl⟩
      rw [hlast]
      rfl

/-- An ascent on top of another one. -/
theorem Ascent.append {base : B256} {l m : List (Nat × B256)} (hl : Ascent P base l)
    (hm : Ascent P (topHash base l) m) : Ascent P base (l ++ m) := by
  induction hl with
  | nil base => exact hm
  | cons hb hp _ ih =>
      rw [topHash_cons] at hm
      exact Ascent.cons hb hp (ih hm)

/-- A healthy provider has the blocks of its ascents. -/
theorem Ascent.stored {base : B256} {l : List (Nat × B256)} (h : Ascent H.provider base l) :
    ∀ e ∈ l, ∃ b, H.byHash e.2 = some b := by
  induction h with
  | nil base => simp
  | cons hb _ _ ih =>
      intro e he
      rcases List.mem_cons.mp he with rfl | he
      · exact ⟨_, Except.ok.inj hb⟩
      · exact ih e he

/-- The walk goes on behind this block: it is not in the view, and not below it. -/
def Unseen (view : List (Nat × B256)) (number : Nat) (h : B256) : Prop :=
  viewHash view number ≠ some h ∧
    ¬ (viewHash view number = none ∧ view.head?.any fun front => number < front.1)

/-- A hash the view holds at a number is one of its hashes, and the number is not below it. -/
theorem mem_of_viewHash {view : List (Nat × B256)} {n : Nat} {k : B256}
    (h : viewHash view n = some k) :
    (∃ v ∈ view, v.2 = k) ∧ ∀ front ∈ view.head?, front.1 ≤ n := by
  unfold viewHash at h
  cases hf : view.head? with
  | none => rw [hf] at h; exact absurd h (by simp)
  | some front =>
      rw [hf] at h
      dsimp only at h
      split at h
      · exact absurd h (by simp)
      · rename_i hlow
        obtain ⟨v, hv, rfl⟩ := Option.map_eq_some_iff.mp h
        refine ⟨⟨v, List.mem_of_getElem? hv, rfl⟩, ?_⟩
        intro front' hfront
        obtain rfl := Option.some.inj hfront
        omega

/-- What is needed of later blocks above a head: they climb from it, and the view has none. -/
structure Above (H : SteadyProvider T R) (view : List (Nat × B256)) (start : B256)
    (above : List (Nat × B256)) : Prop where
  ascent : Ascent H.provider start above
  new : ∀ e ∈ above, ∀ v ∈ view, v.2 ≠ e.2

/-- Such blocks are new to a view that does not begin above the block they climb from. -/
theorem Above.unseen {above : List (Nat × B256)} {start : B256} {floor : Nat}
    (h : Above H s.chainView start above) (hfloor : ∀ e ∈ above, floor ≤ e.1)
    (hlow : ∀ front ∈ s.chainView.head?, front.1 ≤ floor) :
    ∀ e ∈ above, Unseen s.chainView e.1 e.2 := by
  intro e he
  refine ⟨fun hv => ?_, ?_⟩
  · obtain ⟨v, hmem, heq⟩ := (mem_of_viewHash hv).1
    exact h.new e he v hmem heq
  · intro hq
    rcases hq with ⟨_, hany⟩
    have hle := hfloor e he
    cases hf : s.chainView.head? with
    | none => rw [hf] at hany; exact absurd hany (by simp)
    | some front =>
        rw [hf] at hany
        have hlt : e.1 < front.1 := by simpa using hany
        have hroot := hlow front hf
        omega

/-- A notification with further blocks. -/
def moreBlocks (extra : List (RpcBlock T R)) :
    HostNotificationKind (RpcChainSegment T R) → HostNotificationKind (RpcChainSegment T R)
  | .chainCommitted new => .chainCommitted ⟨new.blocks ++ extra⟩
  | .chainReverted old => .chainReverted old
  | .chainReorged old new => .chainReorged old ⟨new.blocks ++ extra⟩

/-- What a walk's blocks go out as. -/
def WalkResult.kind (blocks : List (RpcBlock T R)) :
    WalkResult → Option (HostNotificationKind (RpcChainSegment T R))
  | .advance _ => some (.chainCommitted ⟨blocks⟩)
  | .reorg forkNumber oldTip _ =>
    (RevertRange.new forkNumber oldTip).map fun old => .chainReorged old ⟨blocks⟩
  | _ => none

/-- What a turn with a head above a failed one brings: the blocks the failed one would have
brought, and those above it; or, deeper than a walk goes, a reset that resumes behind the last
emitted block. -/
def BringsAgain (s : RpcHostNotifier) (n : HostNotification (RpcChainSegment T R)) (depth : Nat)
    (above : List (Nat × B256)) (out : Option (Returned T R) × RpcHostNotifier) : Prop :=
  if depth + above.length ≤ s.bufferCapacity then
    ∃ n' extra, out.1 = some (some (.ok n')) ∧ n'.kind = moreBlocks extra n.kind
      ∧ viewEntries extra = above
  else out = (none, s.reset)

end NodeComponents.HostRpc
