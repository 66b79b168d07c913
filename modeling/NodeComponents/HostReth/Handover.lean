import NodeComponents.HostReth.Anchor

/-!
# Every block once, across the two phases

The cursor is the next block to read and one above the anchor, so the two phases meet
without a gap or an overlap: what was backfilled ends below the cursor, and the stream is
anchored at the block it ends in, or at the block below the starting point if nothing was
backfilled.

The host may lag, fail, and reorg above what it finalized. What is asked of it is that it
does not change a block at or below a number it reported as finalized, in this call or an
earlier one, nor the block the node starts behind. The chain is then one function of the
number, as far as the notifier reads it, and the anchor is on it.

All this is for runs in which the anchor is read whenever the phases switch.
-/

namespace NodeComponents.HostReth

open Lib

variable {T R : Type} {live : ExExStream T R} {n : Nat} {calls : List (Call T R)}
  {a : Answers T R} {s : RethHostNotifier} {chain : Nat → DbBlock T R}

/-! ## The chain of the host -/

/-- `k` blocks of the chain, from block `n` on. -/
def canonicalFrom (chain : Nat → DbBlock T R) (n k : Nat) : List (DbBlock T R) :=
  (List.range' n k).map chain

/-- A block of the chain by number and hash. -/
def anchorAt (chain : Nat → DbBlock T R) (m : Nat) : BlockNumHash :=
  ⟨m, (chain m).block.header.hash⟩

theorem canonicalFrom_append (chain : Nat → DbBlock T R) (n k m : Nat) :
    canonicalFrom chain n k ++ canonicalFrom chain (n + k) m = canonicalFrom chain n (k + m) := by
  unfold canonicalFrom
  rw [← List.map_append, List.range'_append_1]

/-- A call reported `f` as finalized. -/
def FinalizedRead (calls : List (Call T R)) (f : Nat) : Prop :=
  ∃ a, Call.nextNotification a ∈ calls ∧ a.finalized = .ok (some f)

/-- What the host may not change any more: blocks at or below a finalized number. -/
def Settled (calls : List (Call T R)) (k : Nat) : Prop := ∃ f, FinalizedRead calls f ∧ k ≤ f

/-- The host's answers about settled blocks, and about the block the node starts behind, are
those of the chain. -/
structure FollowsChain (chain : Nat → DbBlock T R) (n : Nat) (before : List (Call T R))
    (a : Answers T R) : Prop where
  block : ∀ k x, Settled (before ++ [.nextNotification a]) k →
    a.recoveredBlock k = .ok (some x) → x = (chain k).block
  receipts : ∀ k r, Settled (before ++ [.nextNotification a]) k →
    a.receiptsByBlock k = .ok (some r) → r = (chain k).receipts
  header : ∀ k header, k + 1 = n ∨ Settled (before ++ [.nextNotification a]) k →
    a.sealedHeader k = .ok (some header) → header = (chain k).block.header

/-- The blocks an item of the stream commits. -/
def itemBlocks : Option (Except String (ExExNotification T R)) → List (DbBlock T R)
  | some (.ok (.chainCommitted new)) => new.blocks
  | _ => []

/-- The blocks of the first `t` items of the stream set to `head`. -/
def streamBlocks (live : ExExStream T R) (head : BlockNumHash) (t : Nat) : List (DbBlock T R) :=
  (List.range t).flatMap fun i => itemBlocks (live (some head) i)

/-- Set to a block of the chain, the stream yields the blocks above it in order. -/
structure YieldsAbove (live : ExExStream T R) (chain : Nat → DbBlock T R) : Prop where
  committed : ∀ m i x, live (some (anchorAt chain m)) i = some (.ok x) →
    ∃ new, x = .chainCommitted new
  inOrder : ∀ m t, ∃ k, streamBlocks live (anchorAt chain m) t = canonicalFrom chain (m + 1) k

/-! ## What was delivered -/

/-- The blocks a call delivers. -/
def blocksOf : Returned T R → List (DbBlock T R)
  | some (.ok n) => (n.committedChain.map HostChain.blocks).getD []
  | _ => []

/-- The blocks the calls delivered, in order. -/
def delivered (rs : List (Returned T R)) : List (DbBlock T R) := rs.flatMap blocksOf

theorem delivered_concat (rs : List (Returned T R)) (r : Returned T R) :
    delivered (rs ++ [r]) = delivered rs ++ blocksOf r := by
  unfold delivered
  rw [List.flatMap_append, List.flatMap_singleton]

theorem streamBlocks_succ (live : ExExStream T R) (head : BlockNumHash) (t : Nat) :
    streamBlocks live head (t + 1)
      = streamBlocks live head t ++ itemBlocks (live (some head) t) := by
  unfold streamBlocks
  rw [List.range_succ, List.flatMap_append, List.flatMap_singleton]

/-- The live phase delivers the blocks of the item it takes. -/
theorem livePhase_delivers {head : BlockNumHash} {t : Nat}
    (hn : s.notifications = ⟨some head, t⟩)
    (hitem : ∀ x, live (some head) t = some (.ok x) → ∃ new, x = .chainCommitted new) :
    blocksOf (livePhase live a s).1 = itemBlocks (live (some head) t) := by
  unfold livePhase ExExNotifications.next
  rw [hn]
  dsimp only
  cases hx : live (some head) t with
  | none => rfl
  | some item =>
      cases item with
      | error e => rfl
      | ok x =>
          obtain ⟨new, rfl⟩ := hitem x hx
          rfl

/-- **A batch of settled blocks is a piece of the chain.** -/
theorem FollowsChain.batch {before : List (Call T R)} (h : FollowsChain chain n before a) {f : Nat}
    (hf : a.finalized = .ok (some f)) {lo k : Nat} {blocks : List (DbBlock T R)}
    (hr : List.Forall₂ (fun i x => readBlock a i = .ok x) (List.range' lo k) blocks)
    (hle : lo + k ≤ f + 1) : blocks = canonicalFrom chain lo k := by
  have hsettled : ∀ i ∈ List.range' lo k, Settled (before ++ [.nextNotification a]) i := by
    intro i hi
    rw [List.mem_range'_1] at hi
    exact ⟨f, ⟨a, by simp, hf⟩, by omega⟩
  unfold canonicalFrom
  generalize List.range' lo k = numbers at hr hsettled
  induction hr with
  | nil => rfl
  | @cons i x numbers blocks hx _ ih =>
      obtain ⟨hblock, hreceipts⟩ := readBlock_ok hx
      have hi := hsettled i (by simp)
      have hsame : x = chain i := by
        rw [show x = ⟨x.block, x.receipts⟩ from rfl, h.block i _ hi hblock,
          h.receipts i _ hi hreceipts]
      rw [hsame, ih fun j hj => hsettled j (List.mem_cons_of_mem i hj)]
      rfl

/-! ## Runs -/

theorem Settled.more {k : Nat} (h : Settled calls k) (more : List (Call T R)) :
    Settled (calls ++ more) k := by
  obtain ⟨f, ⟨a, ha, hf⟩, hk⟩ := h
  exact ⟨f, ⟨a, List.mem_append_left _ ha, hf⟩, hk⟩

/-- What is asked of a call: its batch fits into `u64`, the host keeps to its chain, and the
anchor is read if the phases switch. -/
def AnchorsRead (chain : Nat → DbBlock T R) (n : Nat) (before : List (Call T R)) (c : Call T R)
    (s : RethHostNotifier) : Prop :=
  BatchFits c s ∧ ∀ a, c = .nextNotification a → FollowsChain chain n before a ∧ ¬ AnchorFails a s

/-- **Where a run stands**: in front of the cursor, or on the stream above the anchor. -/
inductive Delivery (live : ExExStream T R) (chain : Nat → DbBlock T R) (n : Nat)
    (calls : List (Call T R)) (blocks : List (DbBlock T R)) (s : RethHostNotifier) : Prop
  | backfilling {b : DbBackfill} (hb : s.backfill = some b) (hle : n ≤ b.cursor)
      (hdel : blocks = canonicalFrom chain n (b.cursor - n))
      (hsettled : ∀ k, n ≤ k → k < b.cursor → Settled calls k)
  | live {c t : Nat} (hb : s.backfill = none) (hle : n ≤ c)
      (hn : s.notifications = ⟨some (anchorAt chain (c - 1)), t⟩)
      (hdel : blocks = canonicalFrom chain n (c - n)
        ++ streamBlocks live (anchorAt chain (c - 1)) t)

/-- A call that delivers nothing and keeps the cursor. -/
theorem Delivery.still {blocks : List (DbBlock T R)} (h : Delivery live chain n calls blocks s)
    {s' : RethHostNotifier}
    (hb : s'.backfill.map DbBackfill.cursor = s.backfill.map DbBackfill.cursor)
    (hn : s'.notifications = s.notifications) (c : Call T R) :
    Delivery live chain n (calls ++ [c]) blocks s' := by
  cases h with
  | backfilling hb' hle hdel hsettled =>
      rw [hb'] at hb
      obtain ⟨b', hb', hcursor⟩ := Option.map_eq_some_iff.mp hb
      rw [← hcursor] at hle hdel hsettled
      exact Delivery.backfilling hb' hle hdel fun k hlo hhi => (hsettled k hlo hhi).more _
  | live hb' hle hn' hdel =>
      rw [hb'] at hb
      exact Delivery.live (Option.map_eq_none_iff.mp hb) hle (hn.trans hn') hdel

section Runs

variable [BlockLayout T R]

/-- A switch anchors the stream at the block below the cursor, which is on the chain. -/
theorem switch_anchored {b : DbBackfill} (hn : 1 ≤ n) (hb : s.backfill = some b)
    (hle : n ≤ b.cursor) (hsettled : ∀ k, n ≤ k → k < b.cursor → Settled calls k)
    (hfollows : FollowsChain chain n calls a) (hread : ¬ AnchorFails a s) (hc : b.Complete a) :
    backfillPhase a s
      = (none, ⟨⟨some (anchorAt chain (b.cursor - 1)), 0⟩, none, s.headSet⟩) := by
  obtain ⟨header, hheader⟩ : ∃ header, a.sealedHeader (b.cursor - 1) = .ok (some header) := by
    by_contra hnone
    exact hread ⟨b, hb, hc, fun header h => hnone ⟨header, h⟩⟩
  have hknown : b.cursor - 1 + 1 = n ∨ Settled (calls ++ [.nextNotification a]) (b.cursor - 1) := by
    by_cases hstart : b.cursor = n
    · exact Or.inl (by omega)
    · exact Or.inr ((hsettled _ (by omega) (by omega)).more _)
  obtain rfl := hfollows.header _ header hknown hheader
  rw [backfillPhase_of_complete hb hc]
  unfold switchToLive
  dsimp only
  rw [hheader]
  rfl

/-- What a call does while the backfill stands at `b`. -/
structure HandsOver (live : ExExStream T R) (chain : Nat → DbBlock T R) (a : Answers T R)
    (b : DbBackfill) (s : RethHostNotifier) : Prop where
  /-- A batch is a piece of the chain: not empty, not above its size or the finalized block. -/
  batch : ∀ segment, (b.nextBatch a).1 = .ok (some segment) →
    ∃ f, a.finalized = .ok (some f) ∧ 1 ≤ segment.blocks.length
      ∧ segment.blocks.length ≤ b.batchSize ∧ b.cursor + segment.blocks.length ≤ f + 1
      ∧ segment.blocks = canonicalFrom chain b.cursor segment.blocks.length
      ∧ nextNotification live a s = (some (.ok (notify a (.chainCommitted (.backfill segment)))),
          { s with backfill := some { b with cursor := b.cursor + segment.blocks.length } })
  /-- A batch that failed is read again. -/
  failed : ∀ e, (b.nextBatch a).1 = .error e → nextNotification live a s = (some (.error e), s)
  /-- Once the cursor has passed the finalized block, or there is none, the stream is anchored
  at the block below the cursor. -/
  switched : b.Complete a → nextNotification live a s
    = livePhase live a ⟨⟨some (anchorAt chain (b.cursor - 1)), 0⟩, none, s.headSet⟩

/-- **One call during the backfill.** -/
theorem handsOver {b : DbBackfill} (hn : 1 ≤ n) (hb : s.backfill = some b) (hle : n ≤ b.cursor)
    (hsettled : ∀ k, n ≤ k → k < b.cursor → Settled calls k)
    (hfits : BatchFits (.nextNotification a) s)
    (hfollows : FollowsChain chain n calls a) (hread : ¬ AnchorFails a s) :
    HandsOver live chain a b s := by
  refine ⟨?_, ?_, ?_⟩
  · intro segment hnext
    obtain ⟨f, hf, hpos, hsize, hbelow, hr, hb'⟩ := (Fetched.of_eq (Prod.ext hnext rfl)).advance
      fun f hf hc => hfits a b f rfl hb hf hc
    refine ⟨f, hf, hpos, hsize, hbelow, hfollows.batch hf hr hbelow, ?_⟩
    refine nextNotification_of_some ?_
    unfold backfillPhase
    rw [hb]
    dsimp only
    rw [show b.nextBatch a = (.ok (some segment), _) from Prod.ext hnext hb']
  · intro e hnext
    have hb' : (b.nextBatch a).2 = b := by
      have hf := nextBatch_fetched a b
      rw [hnext] at hf
      generalize (b.nextBatch a).2 = b' at hf ⊢
      cases hf <;> rfl
    refine nextNotification_of_some ?_
    unfold backfillPhase
    rw [hb]
    dsimp only
    rw [show b.nextBatch a = (.error e, b) from Prod.ext hnext hb']
    dsimp only
    rw [← hb]
  · intro hc
    exact nextNotification_of_none (switch_anchored hn hb hle hsettled hfollows hread hc)

/-- **One call** takes a run on. -/
theorem delivery_nextNotification {blocks : List (DbBlock T R)} (hn : 1 ≤ n)
    (hlive : YieldsAbove live chain) (h : Delivery live chain n calls blocks s)
    (hfits : BatchFits (.nextNotification a) s)
    (hfollows : FollowsChain chain n calls a) (hread : ¬ AnchorFails a s) :
    Delivery live chain n (calls ++ [.nextNotification a])
      (blocks ++ blocksOf (nextNotification live a s).1) (nextNotification live a s).2 := by
  cases h with
  | live hb hle hnot hdel =>
      rw [nextNotification_of_none (backfillPhase_of_none hb),
        livePhase_delivers hnot (hlive.committed _ _)]
      refine Delivery.live (by rw [livePhase_state]; exact hb) hle
        (by rw [livePhase_state, hnot]) ?_
      rw [hdel, List.append_assoc, ← streamBlocks_succ]
  | @backfilling b hb hle hdel hsettled =>
      have hcall : HandsOver live chain a b s :=
        handsOver hn hb hle hsettled hfits hfollows hread
      cases hnext : (b.nextBatch a).1 with
      | error e =>
          rw [hcall.failed e hnext]
          refine Delivery.backfilling hb hle ?_ fun k hlo hhi => (hsettled k hlo hhi).more _
          rw [hdel]
          exact List.append_nil _
      | ok next =>
      cases next with
      | none =>
          -- the first item of the stream is taken by the call that switches
          rw [hcall.switched (nextBatch_eq_none_iff.mp hnext),
            livePhase_delivers rfl (hlive.committed _ _)]
          refine Delivery.live (by rw [livePhase_state]) hle (by rw [livePhase_state]) ?_
          rw [hdel, streamBlocks_succ]
          rfl
      | some segment =>
          obtain ⟨f, hf, _, _, hbelow, hblocks, heq⟩ := hcall.batch segment hnext
          rw [heq]
          refine Delivery.backfilling rfl (Nat.le_trans hle (Nat.le_add_right _ _)) ?_ ?_
          · have hjoin := canonicalFrom_append chain n (b.cursor - n) segment.blocks.length
            rw [Nat.add_sub_cancel' hle, ← hblocks] at hjoin
            have hcount : b.cursor - n + segment.blocks.length
                = b.cursor + segment.blocks.length - n := by omega
            show blocks ++ segment.blocks
              = canonicalFrom chain n (b.cursor + segment.blocks.length - n)
            rw [hdel, hjoin, hcount]
          · intro k hlo hhi
            by_cases hk : k < b.cursor
            · exact (hsettled k hlo hk).more _
            · dsimp only at hhi
              exact ⟨f, ⟨a, by simp, hf⟩, by omega⟩

/-- **The two phases of a run.** -/
theorem delivery_run (hn : 1 ≤ n) (hlive : YieldsAbove live chain)
    (hrun : AlongInputs (step live) (AnchorsRead chain n) (RethHostNotifier.new.setHead n) calls) :
    Delivery live chain n calls (delivered (returned live n calls)) (stateAfter live n calls) := by
  refine hrun.invariant (I := fun calls rs s => Delivery live chain n calls (delivered rs) s) ?_ ?_
  · refine Delivery.backfilling rfl (Nat.le_refl n) ?_ ?_
    · show [] = canonicalFrom chain n (n - n)
      rw [Nat.sub_self]
      rfl
    · intro k hlo hhi
      have : k < n := hhi
      omega
  · rintro calls c rs s h ⟨hfits, hanswers⟩ hs
    have hset : s.headSet = true := by
      rw [hs]
      exact stateAfter_headSet live n calls
    cases c with
    | nextNotification a =>
        obtain ⟨hfollows, hread⟩ := hanswers a rfl
        show Delivery live chain n _ (delivered (rs ++ [(nextNotification live a s).1])) _
        rw [delivered_concat]
        exact delivery_nextNotification hn hlive h hfits hfollows hread
    | setHead m =>
        show Delivery live chain n _ (delivered (rs ++ [])) (s.setHead m)
        rw [List.append_nil, setHead_headSet hset]
        exact h.still rfl rfl _
    | setBackfillThresholds m =>
        obtain ⟨_, hnot, hcursor⟩ := setBackfillThresholds_frame s m
        show Delivery live chain n _ (delivered (rs ++ [])) (s.setBackfillThresholds m)
        rw [List.append_nil]
        exact h.still hcursor hnot _

/--
**Every host block from the head on is delivered exactly once and in order**, in every run in
which the anchor is read whenever the phases switch: what was delivered is always the chain
from block `n` up to some block. During the backfill it ends below the cursor, and each
call reads a piece of the chain from there, fails and leaves the cursor, or anchors the stream
at the block below it; from then on it is followed by all the stream yielded.
-/
theorem delivers_every_block_once (hn : 1 ≤ n) (hlive : YieldsAbove live chain)
    (hrun : AlongInputs (step live) (AnchorsRead chain n) (RethHostNotifier.new.setHead n) calls) :
    (∃ k, delivered (returned live n calls) = canonicalFrom chain n k)
      ∧ (∀ before a after, calls = before ++ .nextNotification a :: after →
          ∀ b, (stateAfter live n before).backfill = some b → n ≤ b.cursor
            ∧ delivered (returned live n before) = canonicalFrom chain n (b.cursor - n)
            ∧ HandsOver live chain a b (stateAfter live n before))
      ∧ ((stateAfter live n calls).backfill = none → ∃ c t, n ≤ c
          ∧ (stateAfter live n calls).notifications = ⟨some (anchorAt chain (c - 1)), t⟩
          ∧ delivered (returned live n calls)
            = canonicalFrom chain n (c - n) ++ streamBlocks live (anchorAt chain (c - 1)) t) := by
  have hdelivery := delivery_run hn hlive hrun
  refine ⟨?_, ?_, ?_⟩
  · cases hdelivery with
    | backfilling _ _ hdel _ => exact ⟨_, hdel⟩
    | @live c t _ hle _ hdel =>
        obtain ⟨k, hk⟩ := hlive.inOrder (c - 1) t
        rw [hk, show c - 1 + 1 = n + (c - n) by omega, canonicalFrom_append] at hdel
        exact ⟨_, hdel⟩
  · rintro before a after rfl b hb
    obtain ⟨hfits, hanswers⟩ := hrun before (.nextNotification a) after rfl
    obtain ⟨hfollows, hread⟩ := hanswers a rfl
    cases delivery_run hn hlive hrun.initial with
    | live hnone _ _ _ => exact absurd (hnone.symm.trans hb) (by simp)
    | backfilling hb' hle hdel hsettled =>
        obtain rfl := Option.some.inj (hb'.symm.trans hb)
        exact ⟨hle, hdel, handsOver hn hb hle hsettled hfits hfollows hread⟩
  · intro hnone
    cases hdelivery with
    | backfilling hb _ _ _ => exact absurd (hnone.symm.trans hb) (by simp)
    | live _ hle hnot hdel => exact ⟨_, _, hle, hnot, hdel⟩

end Runs

/-! ## A host that stores its chain -/

/-- Blocks that are all of the chain make a host that follows it. -/
theorem storing_followsChain {blocks : List (DbBlock T R)} {finalized : Option Nat}
    (h : ∀ x ∈ blocks, x = chain x.block.header.number) (before : List (Call T R)) :
    FollowsChain chain n before (Answers.storing blocks finalized) := by
  have hfind : ∀ k x, blocks.find? (fun x => x.block.header.number = k) = some x → x = chain k := by
    intro k x hx
    have hnumber : x.block.header.number = k := by simpa using List.find?_some hx
    rw [← hnumber]
    exact h x (List.mem_of_find?_eq_some hx)
  refine ⟨?_, ?_, ?_⟩
  · intro k x _ hx
    obtain ⟨y, hy, rfl⟩ := Option.map_eq_some_iff.mp (Except.ok.inj hx)
    rw [hfind k y hy]
  · intro k r _ hr
    obtain ⟨y, hy, rfl⟩ := Option.map_eq_some_iff.mp (Except.ok.inj hr)
    rw [hfind k y hy]
  · intro k header _ hheader
    obtain ⟨y, hy, rfl⟩ := Option.map_eq_some_iff.mp (Except.ok.inj hheader)
    rw [hfind k y hy]

/-- A stream of one block an item: above its head, or from block `tip` on if it was set to none. -/
def blockStream (chain : Nat → DbBlock T R) (tip : Nat) : ExExStream T R := fun head i =>
  let first := (head.map fun h => h.number + 1).getD tip
  some (.ok (.chainCommitted ⟨[chain (first + i)], by simp⟩))

theorem blockStream_yieldsAbove (chain : Nat → DbBlock T R) (tip : Nat) :
    YieldsAbove (blockStream chain tip) chain where
  committed := by
    intro m i x hx
    exact ⟨_, (Except.ok.inj (Option.some.inj hx)).symm⟩
  inOrder := by
    intro m t
    refine ⟨t, ?_⟩
    induction t with
    | zero => rfl
    | succ t ih =>
        rw [streamBlocks_succ, ih, ← canonicalFrom_append]
        rfl

/-- Two blocks from the database and one from the stream above them. -/
theorem delivers_every_block_once_storing :
    let chain : Nat → DbBlock Unit Unit := fun k => bareBlock k (BitVec.ofNat 256 (k + 10))
    let host := Answers.storing [chain 1, chain 2, chain 3] (some 3)
    let calls := [Call.nextNotification host, .nextNotification host]
    let rs := returned (blockStream chain 9) 2 calls
    delivered rs = [chain 2, chain 3, chain 4] ∧ ∃ k, delivered rs = canonicalFrom chain 2 k := by
  intro chain host calls rs
  refine ⟨by decide, (delivers_every_block_once (by decide) (blockStream_yieldsAbove chain 9) ?_).1⟩
  have hhost : ∀ before, FollowsChain chain 2 before host :=
    storing_followsChain (by
      intro x hx
      simp only [List.mem_cons, List.not_mem_nil, or_false] at hx
      rcases hx with rfl | rfl | rfl <;> rfl)
  refine alongInputs_concat.mpr ⟨alongInputs_concat.mpr ⟨alongInputs_nil, ?_, ?_⟩, ?_, ?_⟩
  · intro a b f _ hb _ _
    obtain rfl := Option.some.inj hb
    show 2 + 1000 < u64Size
    decide
  · intro a ha
    obtain rfl := Call.nextNotification.inj ha
    refine ⟨hhost _, ?_⟩
    intro hq
    rcases hq with ⟨b, hb, _, hnone⟩
    obtain rfl := Option.some.inj hb
    exact hnone _ rfl
  · intro a b f _ hb _ _
    obtain rfl := Option.some.inj hb
    show 4 + 1000 < u64Size
    decide
  · intro a ha
    obtain rfl := Call.nextNotification.inj ha
    refine ⟨hhost _, ?_⟩
    intro hq
    rcases hq with ⟨b, hb, _, hnone⟩
    obtain rfl := Option.some.inj hb
    exact hnone _ rfl

/-- The header of the anchor is not read, and the next call delivers block 9 where block 5 is
due. -/
theorem unanchored_stream_skips_blocks :
    let chain : Nat → DbBlock Unit Unit := fun k => bareBlock k (BitVec.ofNat 256 (k + 10))
    let healthy := Answers.storing [chain 4, chain 5] none
    let failing := { healthy with sealedHeader := fun _ => .error ⟨"db"⟩ }
    let calls := [Call.nextNotification failing, .nextNotification healthy]
    let rs := returned (blockStream chain 9) 5 calls
    YieldsAbove (blockStream chain 9) chain ∧ FollowsChain chain 5 [] failing ∧
      FollowsChain chain 5 [.nextNotification failing] healthy ∧
      delivered rs = [chain 9] ∧ ¬ ∃ k, delivered rs = canonicalFrom chain 5 k := by
  intro chain healthy failing calls rs
  have hhealthy : ∀ before, FollowsChain chain 5 before healthy :=
    storing_followsChain (by
      intro x hx
      simp only [List.mem_cons, List.not_mem_nil, or_false] at hx
      rcases hx with rfl | rfl <;> rfl)
  have hdel : delivered rs = [chain 9] := by decide
  refine ⟨blockStream_yieldsAbove chain 9, ?_, hhealthy _, hdel, ?_⟩
  · have hnever : ∀ k, ¬ Settled ([] ++ [Call.nextNotification failing]) k := by
      intro k hq
      rcases hq with ⟨f, ⟨a, ha, hf⟩, _⟩
      obtain rfl : a = failing := by simpa using ha
      exact absurd hf (by simp [failing, healthy, Answers.storing])
    exact ⟨fun k _ hs => absurd hs (hnever k), fun k _ hs => absurd hs (hnever k),
      fun k header _ h => absurd h (by simp [failing])⟩
  · intro hq
    rcases hq with ⟨k, hk⟩
    rw [hdel] at hk
    cases k with
    | zero => exact absurd hk (by simp [canonicalFrom])
    | succ k =>
        have hfirst : chain 9 = chain 5 := List.head_eq_of_cons_eq hk
        exact absurd hfirst (by decide)

end NodeComponents.HostReth
