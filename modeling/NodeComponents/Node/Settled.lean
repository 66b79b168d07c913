import NodeComponents.Node.Finished
import NodeComponents.Node.Revert
import NodeComponents.Rpc.SubscriptionReplay

/-!
# Between the operations of a notification

A handler that looks at the node between two effects sees it settled, with the same
blocks dispatched to cold storage as hot storage has, each at its number, and the latest
tag on a stored block, or in the middle of a cut: storage is cut, and the tags and the
ring of reorgs do not say so yet.

`Story` groups the effects a notification still has to make accordingly. A cut that
removes something is one piece of it, and everything else is made from one settled
state to the next.
-/

namespace NodeComponents.Node

open Lib Rpc

variable {C H Tx G S : Type} {X : Externals C H Tx G S} {F : Faults}
  {genesis : ExecutedBlock Tx G S} {st : UnifiedStorage Tx G S} {s : NodeState Tx G S}

/-! ## Settled states -/

/-- Each block is stored at its number. -/
def Numbered (tier : List (ExecutedBlock Tx G S)) : Prop :=
  ∀ (h : Nat) (b : ExecutedBlock Tx G S), tier[h]? = some b → b.header.number = h

/-- A state between two operations. -/
structure Settled (s : NodeState Tx G S) : Prop where
  tiers : s.storage.cold = s.storage.hot
  numbered : Numbered s.storage.hot
  latest : s.chain.tags.latest < s.storage.hot.length

/-- The extractor yields consecutive heights, and the EVM numbers a block by its height. -/
structure NumbersBlocks (X : Externals C H Tx G S) : Prop where
  consecutive : ∀ chain, ConsecutiveExtracts X chain
  numbered : ∀ hot x b, X.runEvm hot x = .ok b → b.header.number = x.ruHeight

theorem Numbered.take {tier : List (ExecutedBlock Tx G S)} (h : Numbered tier) (n : Nat) :
    Numbered (tier.take n) := by
  intro k b hb
  rw [List.getElem?_take] at hb
  split at hb
  · exact h k b hb
  · exact absurd hb (by simp)

theorem Numbered.concat {tier : List (ExecutedBlock Tx G S)} (h : Numbered tier)
    {b : ExecutedBlock Tx G S} (hb : b.header.number = tier.length) : Numbered (tier ++ [b]) := by
  intro k c hc
  rcases Nat.lt_or_ge k tier.length with hold | hnew
  · rw [List.getElem?_append_left hold] at hc
    exact h k c hc
  · obtain ⟨hk, rfl⟩ : k = tier.length ∧ b = c := by
      rw [List.getElem?_append_right hnew, List.getElem?_singleton] at hc
      split at hc
      · exact ⟨by omega, Option.some.inj hc⟩
      · exact absurd hc (by simp)
    rw [hb, hk]

/-! ## Pieces -/

/-- An effect that leaves storage, the ring and the latest tag as they are. -/
def Quiet (s : NodeState Tx G S) : Effect Tx G S → Prop
  | .drain height => s.storage.hot.length ≤ height + 1
  | .tag (.store .latest _) => False
  | .tag (.fetchMin .latest n) => s.chain.tags.latest ≤ n
  | .append _ => False
  | .pushReorg _ _ => False
  | _ => True

theorem Quiet.frame {e : Effect Tx G S} (h : Quiet s e) (hs : Settled s) :
    (s.after e).storage = s.storage ∧ (s.after e).chain.reorgs = s.chain.reorgs
      ∧ (s.after e).chain.tags.latest = s.chain.tags.latest := by
  cases e with
  | append b => exact absurd h id
  | drain height =>
      have hlen : s.storage.hot.length ≤ height + 1 := h
      have hcold : s.storage.cold.length ≤ height + 1 := by rw [hs.tiers]; exact hlen
      have hsame : s.storage.unwindAbove height = s.storage := by
        unfold UnifiedStorage.unwindAbove
        rw [List.take_of_length_le hlen, List.take_of_length_le hcold]
      exact ⟨hsame, rfl, rfl⟩
  | tag w =>
      cases w with
      | store tag n =>
          cases tag with
          | latest => exact absurd h id
          | safe => exact ⟨rfl, rfl, rfl⟩
          | finalized => exact ⟨rfl, rfl, rfl⟩
      | fetchMin tag n =>
          cases tag with
          | latest => exact ⟨rfl, rfl, Nat.min_eq_left h⟩
          | safe => exact ⟨rfl, rfl, rfl⟩
          | finalized => exact ⟨rfl, rfl, rfl⟩
  | pushReorg now notif => exact absurd h id
  | broadcast event => exact ⟨rfl, rfl, rfl⟩
  | status height => exact ⟨rfl, rfl, rfl⟩
  | sendFinished height refused => cases refused <;> exact ⟨rfl, rfl, rfl⟩

/-- The effects still to be made, piece by piece. -/
inductive Story (X : Externals C H Tx G S) :
    NodeState Tx G S → List (Effect Tx G S) → Prop
  | done (s : NodeState Tx G S) : Story X s []
  | quiet {s : NodeState Tx G S} {e : Effect Tx G S} {es : List (Effect Tx G S)} (h : Quiet s e)
      (rest : Story X (s.after e) es) : Story X s (e :: es)
  | append {s : NodeState Tx G S} {b : ExecutedBlock Tx G S} {es : List (Effect Tx G S)}
      (hnum : b.header.number = s.storage.hot.length) (rest : Story X (s.after (.append b)) es) :
      Story X s (.append b :: es)
  | retag {s : NodeState Tx G S} {n : Nat} {es : List (Effect Tx G S)}
      (hup : s.chain.tags.latest ≤ n) (hstored : n < s.storage.hot.length)
      (rest : Story X (s.after (.tag (.store .latest n))) es) :
      Story X s (.tag (.store .latest n) :: es)
  | cut {s : NodeState Tx G S} {now target : Nat} {es : List (Effect Tx G S)}
      (habove : s.storage.hot.drop (target + 1) ≠ [])
      (rest : Story X (revertTo X now s target) es) :
      Story X s (cutEffects X now s target ++ es)

theorem Settled.quiet {e : Effect Tx G S} (hs : Settled s) (h : Quiet s e) :
    Settled (s.after e) := by
  obtain ⟨hstorage, _, hlatest⟩ := h.frame hs
  exact ⟨by rw [hstorage]; exact hs.tiers, by rw [hstorage]; exact hs.numbered,
    by rw [hstorage, hlatest]; exact hs.latest⟩

theorem Settled.append (hs : Settled s) {b : ExecutedBlock Tx G S}
    (hnum : b.header.number = s.storage.hot.length) : Settled (s.after (.append b)) := by
  have hlatest := hs.latest
  refine ⟨?_, hs.numbered.concat hnum, ?_⟩
  · show s.storage.cold ++ [b] = s.storage.hot ++ [b]
    rw [hs.tiers]
  · show s.chain.tags.latest < (s.storage.hot ++ [b]).length
    rw [List.length_append]
    omega

theorem Settled.cut (hs : Settled s) (now target : Nat) : Settled (revertTo X now s target) := by
  obtain ⟨hstorage, htags⟩ := revertTo_frame (X := X) (s := s) now target
  have hlatest := hs.latest
  refine ⟨?_, ?_, ?_⟩
  · rw [hstorage]
    show s.storage.cold.take (target + 1) = s.storage.hot.take (target + 1)
    rw [hs.tiers]
  · rw [hstorage]
    exact hs.numbered.take _
  · rw [hstorage, htags]
    show min s.chain.tags.latest target < (s.storage.hot.take (target + 1)).length
    rw [List.length_take]
    omega

theorem Story.trans {es fs : List (Effect Tx G S)} (h : Story X s es)
    (h' : Story X (es.foldl NodeState.after s) fs) : Story X s (es ++ fs) := by
  induction h with
  | done _ => exact h'
  | quiet h _ ih => exact Story.quiet h (ih h')
  | append hnum _ ih => exact Story.append hnum (ih h')
  | retag hup hstored _ ih => exact Story.retag hup hstored (ih h')
  | cut habove _ ih =>
      rw [List.append_assoc]
      refine Story.cut habove (ih ?_)
      rwa [List.foldl_append, cutEffects_state] at h'

/-! ## A notification -/

/-- A block that is executed has a parent in storage, and the EVM returned it. -/
theorem processBlock_ran {fault : Option String} {hot : List (ExecutedBlock Tx G S)}
    {x : Extracts H} {b : ExecutedBlock Tx G S} (h : processBlock X fault hot x = .ok b) :
    x.ruHeight - 1 < hot.length ∧ X.runEvm (hot.take (x.ruHeight - 1 + 1)) x = .ok b := by
  unfold processBlock at h
  split at h
  · exact absurd h (by simp)
  · rename_i parent hparent
    split at h
    · exact absurd h (by simp)
    · split at h
      · exact absurd h (by simp)
      · rename_i c hc
        rw [Except.ok.inj h] at hc
        exact ⟨(List.getElem?_eq_some_iff.mp hparent).1, hc⟩

/-- It is the next block: an extract of a greater height has no parent in storage. -/
theorem processBlock_number (hX : NumbersBlocks X) {fault : Option String}
    {hot : List (ExecutedBlock Tx G S)} {x : Extracts H} {b : ExecutedBlock Tx G S}
    (hne : hot ≠ []) (hx : hot.length ≤ x.ruHeight) (h : processBlock X fault hot x = .ok b) :
    b.header.number = hot.length ∧ x.ruHeight = hot.length := by
  have hpos := List.length_pos_iff.mpr hne
  obtain ⟨hparent, hrun⟩ := processBlock_ran h
  rw [hX.numbered _ _ _ hrun]
  omega

/-- The extracts above the tip ascend by one. -/
theorem freshExtracts_consecutive (hX : NumbersBlocks X) (chain : C) (r : Nat) :
    Consecutive Extracts.ruHeight (freshExtracts X chain r) := by
  have hxs := hX.consecutive chain
  unfold freshExtracts
  cases hhead : (X.extractSignet chain).head? with
  | none =>
      rw [List.head?_eq_none_iff.mp hhead]
      exact consecutive_nil
  | some first =>
      rw [hxs.filter_eq_drop hhead]
      exact hxs.suffix (List.drop_suffix _ _)

/-- The first of them is not below the next height. -/
theorem freshExtracts_head {st : UnifiedStorage Tx G S} {chain : C} {x : Extracts H}
    (hx : x ∈ (freshExtracts X chain (lastRollupBlock st)).head?) :
    st.hot.length ≤ x.ruHeight := by
  have habove := (List.mem_filter.mp (List.mem_of_mem_head? hx)).2
  rw [lastRollupBlock_eq, decide_eq_true_eq] at habove
  omega

/-- Behind a block that was executed, the next extract is of the next height. -/
theorem ruHeight_next {x y : Extracts H} {xs : List (Extracts H)}
    (hxs : Consecutive Extracts.ruHeight (x :: xs)) (hy : y ∈ xs.head?) :
    y.ruHeight = x.ruHeight + 1 := by
  cases xs with
  | nil => exact absurd hy (by simp)
  | cons z zs =>
      obtain rfl : z = y := by simpa using hy
      exact (consecutive_cons_cons.mp hxs).1

/-- Storage is cut, and the removal is not in the ring yet. -/
def cutPending : List (Effect Tx G S) → Bool
  | [] => false
  | .drain _ :: _ => false
  | .pushReorg _ _ :: _ => true
  | _ :: es => cutPending es

/-- A block of a number, on one of several forks, with one log. -/
def rangeBlock (number fork : Nat) : ExecutedBlock Nat Nat Unit :=
  ⟨⟨number, BitVec.ofNat 256 (100 * fork + number), 0, fork⟩, [number], [⟨0, [fork]⟩], ()⟩

/-- The log of such a block. -/
def rangeLog (number fork : Nat) : Log Nat :=
  ⟨fork, some (BitVec.ofNat 256 (100 * fork + number)), some number, some fork,
    some (BitVec.ofNat 256 number), some 0, some 0, false⟩

/-- A segment is a first rollup height, a number of blocks, and the fork they are on. -/
def rangeExternals (deploy : Nat) : Externals (Nat × Nat × Nat) Nat Nat Nat Unit where
  hostDeployHeight := deploy
  extractSignet c := (List.range' c.1 c.2.1).map fun r => ⟨r, c.2.2⟩
  runEvm _ x := .ok (rangeBlock x.ruHeight x.hostBlock)
  coldLogs b := [(announced b).rpcLogs (BitVec.ofNat 256)]

theorem rangeExternals_numbers (deploy : Nat) : NumbersBlocks (rangeExternals deploy) := by
  refine ⟨?_, ?_⟩
  · rintro ⟨first, count, fork⟩
    refine consecutive_map.mpr (consecutive_of_getElem? (n := first) ?_)
    intro i r hr
    obtain ⟨hi, rfl⟩ := List.getElem?_eq_some_iff.mp hr
    simp
  · intro hot x b hb
    rw [← Except.ok.inj hb]
    rfl

end NodeComponents.Node
