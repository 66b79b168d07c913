import NodeComponents.Node.Finished

/-!
# The finalized tag

A client that reads up to the finalized tag wants never to hear of those blocks again.
The node does not check that: it cuts storage wherever the notifier tells it to. What it
does have is an order. A notification cuts first and writes the tag last, the tag is
capped by the stored tip and by what the host reported, and a restart takes it back to
genesis.

`OutOfReach` says that nothing in hand cuts storage up to a height, and `TagKept` that
this always holds up to the finalized tag. Both last for as long as reverts stay above
what the host reported. A restart also cuts storage, down to what cold storage has
written; a height that is out of reach and written is `Sealed`, and stays so.
-/

namespace NodeComponents.Node

open Lib Rpc

variable {C H Tx G S : Type} {X : Externals C H Tx G S} {F : Faults}
  {genesis : ExecutedBlock Tx G S} {w : LiveNode Tx G S}

/-! ## Storage out of reach -/

/-- The height is genesis, or that of a host block at or below one reported as finalized. -/
def Covered (X : Externals C H Tx G S) (reported : List Nat) (k : Nat) : Prop :=
  k = 0 ∨ ∃ f ∈ reported, X.hostDeployHeight + k ≤ f

theorem Covered.mono {reported reported' : List Nat} {k : Nat} (h : Covered X reported k)
    (hsub : reported ⊆ reported') : Covered X reported' k := by
  rcases h with rfl | ⟨g, hg, hle⟩
  · exact Or.inl rfl
  · exact Or.inr ⟨g, hsub hg, hle⟩

theorem Covered.below {reported : List Nat} {k m : Nat} (h : Covered X reported k) (hm : m ≤ k) :
    Covered X reported m := by
  rcases h with rfl | ⟨g, hg, hle⟩
  · exact Or.inl (Nat.le_zero.mp hm)
  · exact Or.inr ⟨g, hg, by omega⟩

/-- The height an effect cuts storage to, or announces that it was cut to. -/
def Effect.cutTo : Effect Tx G S → Option Nat
  | .drain height => some height
  | .pushReorg _ notif => some notif.commonAncestor
  | .broadcast (.reorg notif) => some notif.commonAncestor
  | _ => none

/-- The height an effect stores in the finalized tag. -/
def Effect.finalizes : Effect Tx G S → Option Nat
  | .tag (.store .finalized k) => some k
  | _ => none

/-- The height is stored, and what the node still has in hand cuts nothing up to it. -/
structure OutOfReach (X : Externals C H Tx G S) (k : Nat) (w : LiveNode Tx G S) : Prop where
  trails : w.Trails
  covered : Covered X w.reported k
  stored : k ≤ lastRollupBlock w.state.storage
  cuts : ∀ e ∈ w.pending, ∀ height, e.cutTo = some height → k ≤ height

/-- What is out of reach up to a height is so up to every lower one. -/
theorem OutOfReach.below {k m : Nat} (h : OutOfReach X k w) (hm : m ≤ k) : OutOfReach X m w where
  trails := h.trails
  covered := h.covered.below hm
  stored := Nat.le_trans hm h.stored
  cuts := fun e he height hcut => Nat.le_trans hm (h.cuts e he height hcut)

/-- A height that is stored is below what was dispatched to cold storage. -/
theorem OutOfReach.lt_cold {k : Nat} (h : OutOfReach X k w) : k < w.state.storage.cold.length := by
  have hpos := List.length_pos_iff.mpr h.trails.level.1
  have hstored := h.stored
  rw [lastRollupBlock_eq] at hstored
  rw [← h.trails.level.2]
  omega

/-- Up to the height storage is `base`, out of reach and written. -/
structure Sealed (X : Externals C H Tx G S) (k : Nat) (base : UnifiedStorage Tx G S)
    (w : LiveNode Tx G S) : Prop extends OutOfReach X k w where
  held : k < w.written
  same : w.state.storage.unwindAbove k = base

/-- Up to a written height cold storage holds what was dispatched to it. -/
theorem unwindAbove_found (st : UnifiedStorage Tx G S) {k written : Nat} (hk : k < written) :
    (st.found written).unwindAbove k = st.unwindAbove k := by
  refine congrArg (UnifiedStorage.mk _) ?_
  show (st.cold.take written).take (k + 1) = _
  rw [List.take_take, Nat.min_eq_left (by omega)]

/-- **An effect that cuts no deeper leaves storage as it was** up to the height. -/
theorem unwindAbove_after {s : NodeState Tx G S} (hlevel : Level s.storage) {k : Nat}
    (hk : k ≤ lastRollupBlock s.storage) {e : Effect Tx G S}
    (he : ∀ height, e.cutTo = some height → k ≤ height) :
    (s.after e).storage.unwindAbove k = s.storage.unwindAbove k
      ∧ k ≤ lastRollupBlock (s.after e).storage := by
  obtain ⟨hne, hlen⟩ := hlevel
  have hpos := List.length_pos_iff.mpr hne
  have hbound := hk
  rw [lastRollupBlock_eq] at hbound
  have hstill (hst : (s.after e).storage = s.storage) :
      (s.after e).storage.unwindAbove k = s.storage.unwindAbove k
        ∧ k ≤ lastRollupBlock (s.after e).storage := by
    rw [hst]
    exact ⟨rfl, hk⟩
  cases e with
  | append b =>
      refine ⟨?_, Nat.le_trans hk (lastRollupBlock_append s.storage b)⟩
      show UnifiedStorage.mk ((s.storage.hot ++ [b]).take (k + 1))
        ((s.storage.cold ++ [b]).take (k + 1)) = _
      rw [List.take_append_of_le_length (by omega), List.take_append_of_le_length (by omega)]
      rfl
  | drain height =>
      have hcut := he height rfl
      refine ⟨?_, ?_⟩
      · show UnifiedStorage.mk ((s.storage.hot.take (height + 1)).take (k + 1))
          ((s.storage.cold.take (height + 1)).take (k + 1)) = _
        rw [List.take_take, List.take_take, Nat.min_eq_left (by omega)]
        rfl
      · show k ≤ lastRollupBlock (s.storage.unwindAbove height)
        rw [lastRollupBlock_unwind]
        exact Nat.le_min.mpr ⟨hk, hcut⟩
  | tag w => exact hstill rfl
  | pushReorg now notif => exact hstill rfl
  | broadcast event => exact hstill rfl
  | status height => exact hstill rfl
  | sendFinished height refused => cases refused <;> exact hstill rfl

/-! ## The effects of one notification -/

/-- A commit neither cuts nor finalizes. -/
theorem loopEffects_only_grow : ∀ (xs : List (Extracts H)) (i : Nat) (s : NodeState Tx G S),
    ∀ e ∈ loopEffects X F i xs s, e.cutTo = none ∧ e.finalizes = none
  | [], _, _ => fun _ he => absurd he (by simp [loopEffects])
  | x :: xs, i, s => by
      intro e he
      unfold loopEffects at he
      split at he
      · cases he
      · split at he
        · obtain rfl := List.mem_singleton.mp he
          exact ⟨rfl, rfl⟩
        · rcases List.mem_cons.mp he with rfl | he
          · exact ⟨rfl, rfl⟩
          rcases List.mem_cons.mp he with rfl | he
          · exact ⟨rfl, rfl⟩
          exact loopEffects_only_grow xs (i + 1) _ e he

theorem commitEffects_only_grow (n : HostNotification C) (s : NodeState Tx G S) :
    ∀ e ∈ commitEffects X F n s, e.cutTo = none ∧ e.finalizes = none := by
  intro e he
  unfold commitEffects at he
  split at he
  · cases he
  · split at he
    · cases he
    · exact loopEffects_only_grow _ 0 s e he

/-- A revert finalizes nothing, and cuts to the block before the first reverted one. -/
theorem revertEffects_cut (n : HostNotification C) (s : NodeState Tx G S) :
    ∀ e ∈ revertEffects X F n s, e.finalizes = none ∧ ∀ height, e.cutTo = some height →
      ∃ range, n.revertRange = some range
        ∧ height = revertTarget X.hostDeployHeight range.first := by
  intro e he
  unfold revertEffects at he
  cases hcut : revertCut X F n s with
  | none =>
      rw [hcut] at he
      cases he
  | some target =>
      obtain ⟨range, hrange, _, rfl⟩ := revertCut_some hcut
      rw [hcut] at he
      rcases List.mem_cons.mp he with rfl | he
      · exact ⟨rfl, fun height h => ⟨range, hrange, (Option.some.inj h).symm⟩⟩
      rcases List.mem_append.mp he with htags | hnews
      · obtain ⟨w, hw, rfl⟩ := List.mem_map.mp htags
        simp only [rewindToWrites, List.mem_cons, List.not_mem_nil, or_false] at hw
        rcases hw with rfl | rfl | rfl <;>
          exact ⟨rfl, fun height h => absurd h (by simp [Effect.cutTo])⟩
      · split at hnews
        · cases hnews
        · simp only [List.mem_cons, List.not_mem_nil, or_false] at hnews
          rcases hnews with rfl | rfl <;>
            exact ⟨rfl, fun height h => ⟨range, hrange, (Option.some.inj h).symm⟩⟩

/-- What an effect has to respect: a height it finalizes is stored, and reported. -/
def Finalizes (X : Externals C H Tx G S) (reported : List Nat) (s : NodeState Tx G S)
    (e : Effect Tx G S) : Prop :=
  ∀ k, e.finalizes = some k → Covered X reported k ∧ k ≤ lastRollupBlock s.storage

theorem finalizes_of_none {reported : List Nat} {s : NodeState Tx G S} {e : Effect Tx G S}
    (he : e.finalizes = none) : Finalizes X reported s e := by
  intro k hk
  rw [he] at hk
  cases hk

/-- The tags are updated without a cut, and the finalized one to a height the host reported. -/
theorem changedEffects_finalize (n : HostNotification C) (s : NodeState Tx G S) :
    (∀ e ∈ changedEffects X F n s, e.cutTo = none)
      ∧ Each NodeState.after (Finalizes X n.finalizedBlockNumber.toList)
          (changedEffects X F n s) s := by
  unfold changedEffects readLastRollupBlock
  cases F.statusRead with
  | some m => exact ⟨by simp, trivial⟩
  | none =>
  dsimp only
  cases F.tagsRead with
  | some m =>
      refine ⟨?_, finalizes_of_none rfl, trivial⟩
      intro e he
      obtain rfl := List.mem_singleton.mp he
      rfl
  | none =>
  dsimp only
  unfold tagEffects
  rw [clampHostHeights_eq, clampHostHeights_eq]
  dsimp only
  refine ⟨?_, finalizes_of_none rfl, ?_, finalizes_of_none rfl, finalizes_of_none rfl, ?_⟩
  · intro e he
    rcases List.mem_cons.mp he with rfl | he
    · rfl
    rcases List.mem_append.mp he with htags | hsent
    · obtain ⟨w, _, rfl⟩ := List.mem_map.mp htags
      rfl
    · split at hsent
      · obtain rfl := List.mem_singleton.mp hsent
        rfl
      · cases hsent
  · intro k hk
    obtain rfl := Option.some.inj hk
    refine ⟨?_, Nat.min_le_left _ _⟩
    cases hf : n.finalizedBlockNumber with
    | none => exact Or.inl (by simp)
    | some f =>
        rw [Option.getD_some]
        rcases Nat.eq_zero_or_pos (min (lastRollupBlock s.storage) (f - X.hostDeployHeight))
          with hzero | hpos
        · exact Or.inl hzero
        · exact Or.inr ⟨f, by simp, by omega⟩
  · split
    · exact ⟨finalizes_of_none rfl, trivial⟩
    · exact trivial

/-- **A notification cuts first and finalizes last.** -/
theorem handleEffects_split (X : Externals C H Tx G S) (F : Faults) (n : HostNotification C)
    (s : NodeState Tx G S) : ∃ rest, handleEffects X F n s = revertEffects X F n s ++ rest
      ∧ (∀ e ∈ rest, e.cutTo = none)
      ∧ Each NodeState.after (Finalizes X n.finalizedBlockNumber.toList) rest
          (revertPart X F n s).2 := by
  refine ⟨_, rfl, ?_⟩
  cases revertPart X F n s with
  | mk res s₁ =>
  cases res with
  | error e => exact ⟨by simp, trivial⟩
  | ok reverted =>
  have hgrow := commitEffects_only_grow (X := X) (F := F) n s₁
  have heach : Each NodeState.after (Finalizes X n.finalizedBlockNumber.toList)
      (commitEffects X F n s₁) s₁ := by
    refine (each_of_kept (P := fun _ => True) ?_ trivial).1
    exact fun e he s _ => ⟨finalizes_of_none (hgrow e he).2, trivial⟩
  dsimp only
  rw [each_append, commitEffects_state]
  cases commitPart X F n s₁ with
  | mk res s₂ =>
  cases res with
  | error e =>
      refine ⟨fun e he => ?_, heach, trivial⟩
      rw [List.append_nil] at he
      exact (hgrow e he).1
  | ok committed =>
      obtain ⟨hcuts, hfinal⟩ := changedEffects_finalize (X := X) (F := F) n s₂
      dsimp only
      split
      · refine ⟨fun e he => ?_, heach, hfinal⟩
        rcases List.mem_append.mp he with he | he
        · exact (hgrow e he).1
        · exact hcuts e he
      · refine ⟨fun e he => ?_, heach, trivial⟩
        rw [List.append_nil] at he
        exact (hgrow e he).1

/-! ## Every move of the node -/

/-- The notification reverts no host block at or below one reported before. -/
def KeepsReported : LiveMove C → LiveNode Tx G S → Prop
  | .take n _, w => ∀ range, n.revertRange = some range → ∀ f ∈ w.reported, f < range.first
  | _, _ => True

/-- **What is out of reach stays so**; a restart needs what cold storage has written. -/
theorem OutOfReach.step {k : Nat} (h : OutOfReach X k w) {m : LiveMove C}
    (hm : KeepsReported m w) (hrestart : m = .restart → k < w.written) :
    OutOfReach X k (liveStep X genesis m w).2 := by
  have htrails : (liveStep X genesis m w).2.Trails := h.trails.step m
  obtain ⟨s, pending, ended, reported, written⟩ := w
  have hkept := h
  obtain ⟨hnow, hcovered, hstored, hcuts⟩ := h
  cases m with
  | take n F =>
      cases pending with
      | cons e es => cases ended <;> exact hkept
      | nil =>
      cases ended with
      | true => exact hkept
      | false =>
          refine ⟨htrails, hcovered.mono (List.subset_append_left _ _), hstored, ?_⟩
          intro e he height hcut
          obtain ⟨rest, hsplit, hrest, _⟩ := handleEffects_split X F n s
          have he : e ∈ handleEffects X F n s := he
          rw [hsplit] at he
          rcases List.mem_append.mp he with he | he
          · obtain ⟨range, hrange, rfl⟩ := (revertEffects_cut n s e he).2 height hcut
            rcases hcovered with rfl | ⟨f, hf, hle⟩
            · exact Nat.zero_le _
            · have hlt := hm range hrange f hf
              unfold revertTarget hostBlockToRollupBlockNum
              rw [if_pos (by omega), Option.getD_some]
              omega
          · rw [hrest e he] at hcut
            cases hcut
  | effect =>
      cases pending with
      | nil => exact hkept
      | cons e es =>
          obtain ⟨_, htip⟩ := unwindAbove_after hnow.level hstored (hcuts e List.mem_cons_self)
          exact ⟨htrails, hcovered, htip, fun e' he' => hcuts e' (List.mem_cons_of_mem e he')⟩
  | ingest => exact ⟨htrails, hcovered, hstored, hcuts⟩
  | restart =>
      refine ⟨htrails, hcovered, ?_, by rintro _ ⟨⟩⟩
      have hheld : k < written := hrestart rfl
      have hle : written ≤ s.storage.hot.length := hnow.le_hot
      show k ≤ lastRollupBlock (startStorage genesis _)
      rw [hnow.restarted, lastRollupBlock_eq]
      show k ≤ (s.storage.hot.take written).length - 1
      rw [List.length_take]
      omega

/-- **What is sealed stays sealed.** -/
theorem Sealed.step {k : Nat} {base : UnifiedStorage Tx G S} (h : Sealed X k base w)
    {m : LiveMove C} (hm : KeepsReported m w) :
    Sealed X k base (liveStep X genesis m w).2 := by
  have hreach : OutOfReach X k (liveStep X genesis m w).2 :=
    h.toOutOfReach.step hm fun _ => h.held
  have hcold := hreach.lt_cold
  refine ⟨hreach, ?_, ?_⟩
  · have hheld := h.held
    obtain ⟨s, pending, ended, reported, written⟩ := w
    cases m with
    | take n F => cases pending <;> cases ended <;> exact hheld
    | effect =>
        cases pending with
        | nil => exact hheld
        | cons e es => exact Nat.lt_min.mpr ⟨hheld, hcold⟩
    | ingest => exact Nat.lt_min.mpr ⟨Nat.lt_succ_of_lt hheld, hcold⟩
    | restart => exact hcold
  · have hsame := h.same
    cases m with
    | take n F =>
        obtain ⟨s, pending, ended, reported, written⟩ := w
        cases pending <;> cases ended <;> exact hsame
    | effect =>
        obtain ⟨s, pending, ended, reported, written⟩ := w
        cases pending with
        | nil => exact hsame
        | cons e es =>
            exact (unwindAbove_after h.trails.level h.stored (h.cuts e List.mem_cons_self)).1.trans
              hsame
    | ingest => exact hsame
    | restart =>
        show (startStorage genesis w.found).unwindAbove k = base
        rw [h.trails.restarted, ← hsame]
        have hheld := h.held
        unfold UnifiedStorage.unwindAbove
        rw [List.take_take, List.take_take, Nat.min_eq_left (by omega)]

/-- Storage is out of reach up to the finalized tag, and will be once the effects in hand are
made. -/
structure TagKept (X : Externals C H Tx G S) (w : LiveNode Tx G S) : Prop where
  upToTag : OutOfReach X w.state.chain.tags.finalized w
  writes : Each NodeState.after (Finalizes X w.reported) w.pending w.state
  /-- Nothing is cut behind the write of the tag. -/
  order : w.pending.Pairwise fun e e' => e.finalizes ≠ none → e'.cutTo = none

/-- A node that was just started has no finalized block but genesis. -/
theorem tagKept_booted (st : UnifiedStorage Tx G S) (reported : List Nat) :
    TagKept X (LiveNode.booted genesis st reported) where
  upToTag := ⟨trails_booted genesis st reported, Or.inl rfl, Nat.zero_le _, by rintro _ ⟨⟩⟩
  writes := trivial
  order := List.Pairwise.nil

/-- An effect lowers the finalized tag, or leaves it, unless it stores it. -/
theorem finalized_after (s : NodeState Tx G S) (e : Effect Tx G S) :
    (s.after e).chain.tags.finalized ≤ s.chain.tags.finalized
      ∨ e.finalizes = some (s.after e).chain.tags.finalized
        ∧ (s.after e).storage = s.storage := by
  cases e with
  | tag w =>
      cases w with
      | store tag n =>
          cases tag with
          | finalized => exact Or.inr ⟨rfl, rfl⟩
          | latest => exact Or.inl (Nat.le_refl _)
          | safe => exact Or.inl (Nat.le_refl _)
      | fetchMin tag n =>
          cases tag with
          | finalized => exact Or.inl (Nat.min_le_left _ _)
          | latest => exact Or.inl (Nat.le_refl _)
          | safe => exact Or.inl (Nat.le_refl _)
  | append b => exact Or.inl (Nat.le_refl _)
  | drain height => exact Or.inl (Nat.le_refl _)
  | pushReorg now notif => exact Or.inl (Nat.le_refl _)
  | broadcast event => exact Or.inl (Nat.le_refl _)
  | status height => exact Or.inl (Nat.le_refl _)
  | sendFinished height refused => cases refused <;> exact Or.inl (Nat.le_refl _)

theorem TagKept.step (h : TagKept X w) {m : LiveMove C} (hm : KeepsReported m w) :
    TagKept X (liveStep X genesis m w).2 := by
  have hreach (hrestart : m ≠ .restart) : OutOfReach X _ (liveStep X genesis m w).2 :=
    h.upToTag.step hm fun heq => absurd heq hrestart
  obtain ⟨s, pending, ended, reported, written⟩ := w
  cases m with
  | take n F =>
      cases pending with
      | cons e es => cases ended <;> exact h
      | nil =>
      cases ended with
      | true => exact h
      | false =>
          obtain ⟨rest, hsplit, hrest, heach⟩ := handleEffects_split X F n s
          refine ⟨hreach (by simp), ?_, ?_⟩
          · show Each NodeState.after (Finalizes X (reported ++ n.finalizedBlockNumber.toList))
              (handleEffects X F n s) s
            rw [hsplit, each_append, revertEffects_state]
            refine ⟨(each_of_kept (P := fun _ => True) ?_ trivial).1, heach.mono ?_⟩
            · exact fun e he s _ => ⟨finalizes_of_none (revertEffects_cut n _ e he).1, trivial⟩
            · intro s e hfinal k hk
              obtain ⟨hcovered, hstored⟩ := hfinal k hk
              exact ⟨hcovered.mono (List.subset_append_right _ _), hstored⟩
          · show (handleEffects X F n s).Pairwise _
            rw [hsplit, List.pairwise_append]
            refine ⟨?_, ?_, fun _ _ e' he' _ => hrest e' he'⟩
            · refine List.pairwise_of_forall_mem_list ?_
              intro e he e' _ hne
              exact absurd (revertEffects_cut n s e he).1 hne
            · exact List.pairwise_of_forall_mem_list fun _ _ e' he' _ => hrest e' he'
  | effect =>
      cases pending with
      | nil => exact h
      | cons e es =>
          obtain ⟨_, hwrites, horder⟩ := h
          obtain ⟨hbehind, horder⟩ := List.pairwise_cons.mp horder
          refine ⟨?_, hwrites.2, horder⟩
          rcases finalized_after s e with hle | ⟨hstore, hst⟩
          · exact (hreach (by simp)).below hle
          · -- the tag was stored: nothing in hand cuts any more
            obtain ⟨hcovered, hstored⟩ := hwrites.1 _ hstore
            refine ⟨(hreach (by simp)).trails, hcovered, ?_, ?_⟩
            · show _ ≤ lastRollupBlock (s.after e).storage
              rw [hst]
              exact hstored
            · intro e' he' height hcut
              rw [hbehind e' he' (by rw [hstore]; simp)] at hcut
              cases hcut
  | ingest => exact ⟨hreach (by simp), h.writes, h.order⟩
  | restart => exact tagKept_booted _ _

end NodeComponents.Node
