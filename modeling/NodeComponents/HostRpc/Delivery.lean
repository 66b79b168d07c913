import NodeComponents.HostRpc.View

/-!
# Delivery continuity

A consumer keeps the stack of host blocks delivered so far: a commit pushes its
blocks, a reorg pops the reverted range and pushes the replacement. The notifier
never sees this stack. All it keeps is `lastEmitted` and the window `chainView`,
and `Tracks` says how the two mirror it: `lastEmitted` is the top, and the view is
a suffix.

Three steps can leave the mirror behind or go past it, and `CleanTurn` names them:
a batch whose end wraps around, a head taken on an empty view after something was
emitted, and a tag refresh that fails after the state already moved. In every run
without them each notification continues the stack.
-/

namespace NodeComponents.HostRpc

open Lib

variable {T R : Type} {P : Provider T R} {U : B256 → Option RpcHeader} {tm : Timing}
  {s : RpcHostNotifier}

/-! ## The stack of delivered blocks -/

/-- Pop the blocks of a reverted range from the top. -/
def popRange (old : RevertRange) (stack : List (RpcBlock T R)) : List (RpcBlock T R) :=
  stack.rdropWhile (fun b => old.first ≤ b.number ∧ b.number ≤ old.tip)

/-- The stack after one notification. -/
def deliver (stack : List (RpcBlock T R)) :
    HostNotificationKind (RpcChainSegment T R) → List (RpcBlock T R)
  | .chainCommitted new => stack ++ new.blocks
  | .chainReverted old => popRange old stack
  | .chainReorged old new => popRange old stack ++ new.blocks

/-- The stack after what one call returned. -/
def deliverReturned (stack : List (RpcBlock T R)) : Returned T R → List (RpcBlock T R)
  | some (.ok n) => deliver stack n.kind
  | _ => stack

/-- The stack after a run's results. -/
def delivered (rs : List (Returned T R)) : List (RpcBlock T R) := rs.foldl deliverReturned []

/--
What a notification must be on a stack. A commit on a non-empty stack starts with
the child of the top. A reorg reverts up to the top, and its first block replaces
the first reverted one as a child of the delivered block below it.
-/
def Continues (stack : List (RpcBlock T R)) :
    HostNotificationKind (RpcChainSegment T R) → Prop
  | .chainCommitted new => ∀ top, stack.getLast? = some top →
      ∃ first, new.blocks.head? = some first ∧ first.number = top.number + 1 ∧
        first.parentHash = top.hash
  | .chainReverted _ => False
  | .chainReorged old new => ∃ top first below,
      stack.getLast? = some top ∧ old.tip = top.number ∧
      new.blocks.head? = some first ∧ first.number = old.first ∧
      below ∈ stack ∧ below.number + 1 = old.first ∧ first.parentHash = below.hash

/-- A returned notification continues the stack and leaves it numbered without a gap. -/
def ContinuesReturned (stack : List (RpcBlock T R)) (r : Returned T R) : Prop :=
  (∀ n, r = some (.ok n) → Continues stack n.kind) ∧
    Consecutive RpcBlock.number (deliverReturned stack r)

/-! ## The condition -/

/-- The turn comes to the heads: no batch is pending, or the cursor is behind the tip. -/
def AtHeads (P : Provider T R) (tm : Timing) (s : RpcHostNotifier) : Prop :=
  ∀ cursor, s.backfillFrom = some cursor →
    ∃ tip, P.getBlockNumber tm.blockNumber = .ok tip ∧ cursor = u64SatAdd tip 1

/-- A tag refresh for a block of this time goes through: it is not due, or both lookups answer. -/
def TagsRefresh (P : Provider T R) (tm : Timing) (s : RpcHostNotifier) (timestamp : Nat) : Prop :=
  ∃ epoch, epochOf s timestamp = .ok epoch ∧ (s.lastTagEpoch = some epoch ∨
    ∃ safe finalized, P.getBlockByNumber tm.safe .safe = .ok safe ∧
      P.getBlockByNumber tm.finalized .finalized = .ok finalized)

/-- The new blocks a walk found. -/
def WalkResult.newBlocks : WalkResult → Option (List (Nat × B256))
  | .advance newChain => some newChain
  | .reorg _ _ newChain => some newChain
  | _ => none

/-- The turn avoids the three steps that break delivery. -/
structure CleanTurn (P : Provider T R) (tn : Turn) (s : RpcHostNotifier) : Prop where
  /-- The end of a batch behind an emitted block does not wrap around. -/
  fits : ∀ e cursor tip, s.lastEmitted = some e → s.backfillFrom = some cursor →
    P.getBlockNumber tn.timing.blockNumber = .ok tip → cursor ≤ tip →
    cursor + s.backfillBatchSize ≤ u64Size
  /-- A head taken on an empty view is a child of the last emitted block. -/
  child : ∀ e header b, s.lastEmitted = some e → s.chainView = [] → AtHeads P tn.timing s →
    tn.head = some header → firstShown P tn.timing header.hash = some b →
    b.header.parentHash = e.2
  /-- The refresh behind a batch that is emitted goes through. -/
  batchTags : ∀ cursor tip blocks last, s.backfillFrom = some cursor →
    P.getBlockNumber tn.timing.blockNumber = .ok tip →
    fetchRange P tn.timing cursor (batchEnd s cursor tip) = .ok blocks →
    breaksContinuity s blocks = false → blocks.getLast? = some last →
    TagsRefresh P tn.timing s last.timestamp
  /-- The refresh behind a head whose new blocks are fetched goes through. -/
  headTags : ∀ header w newChain blocks, AtHeads P tn.timing s → tn.head = some header →
    walkFromHint P tn.timing s header.hash = .ok w → w.newBlocks = some newChain →
    fetchBlocksByHash P tn.timing newChain = .ok blocks →
    TagsRefresh P tn.timing s header.timestamp

/-- A refresh that goes through on the state before goes through on the changed state. -/
theorem TagsRefresh.ne_error {s' : RpcHostNotifier} {timestamp : Nat}
    (h : TagsRefresh P tm s timestamp) (hslot : s'.slotSeconds = s.slotSeconds)
    (hgen : s'.genesisTimestamp = s.genesisTimestamp) (hep : s'.lastTagEpoch = s.lastTagEpoch)
    {f : Fault} : maybeRefreshTags P tm s' timestamp ≠ .error f := by
  obtain ⟨epoch, hepoch, hdue⟩ := h
  have hepoch' : epochOf s' timestamp = .ok epoch := by
    rw [← hepoch]
    unfold epochOf
    rw [hslot, hgen]
  unfold maybeRefreshTags
  rw [hepoch']
  dsimp only
  rw [hep]
  by_cases hsame : s.lastTagEpoch = some epoch
  · rw [if_pos hsame]
    exact fun hf => absurd hf (by simp)
  · rcases hdue with hdue | ⟨safe, finalized, hs, hf⟩
    · exact absurd hdue hsame
    · rw [if_neg hsame, hs, hf]
      exact fun hf => absurd hf (by simp [tryJoin])

theorem Emitted.ok_of_tagsRefresh {s₀ s' : RpcHostNotifier} {timestamp : Nat}
    {kind : HostNotificationKind (RpcChainSegment T R)}
    {r : Except Fault (HostNotification (RpcChainSegment T R))}
    (he : Emitted P tm s timestamp kind r s') (h : TagsRefresh P tm s₀ timestamp)
    (hslot : s.slotSeconds = s₀.slotSeconds) (hgen : s.genesisTimestamp = s₀.genesisTimestamp)
    (hep : s.lastTagEpoch = s₀.lastTagEpoch) : ∃ n, r = .ok n ∧ n.kind = kind := by
  cases he with
  | ok hm => exact ⟨_, rfl, rfl⟩
  | failed hm => exact absurd hm (h.ne_error hslot hgen hep)

/-! ## The mirror -/

/-- What the notifier's state knows of the stack. -/
structure Tracks (U : B256 → Option RpcHeader) (stack : List (RpcBlock T R))
    (s : RpcHostNotifier) : Prop where
  /-- The last emitted block is the top. -/
  emitted : s.lastEmitted = (viewEntries stack).getLast?
  /-- The view is a suffix of the stack. -/
  view : s.chainView <:+ viewEntries stack
  /-- The stack has no gap. -/
  consecutive : Consecutive RpcBlock.number stack
  /-- Its blocks are the ones behind their hashes. -/
  known : ∀ b ∈ stack, U b.hash = some b.block.header

variable {stack : List (RpcBlock T R)}

/-- The mirror does not look at the cursor and the cached tags. -/
theorem Tracks.of_eq {s' : RpcHostNotifier} (h : Tracks U stack s)
    (hv : s'.chainView = s.chainView) (hl : s'.lastEmitted = s.lastEmitted) : Tracks U stack s' :=
  ⟨hl.trans h.emitted, by rw [hv]; exact h.view, h.consecutive, h.known⟩

theorem Tracks.clear {s' : RpcHostNotifier} (h : Tracks U stack s)
    (hv : s'.chainView = []) (hl : s'.lastEmitted = s.lastEmitted) : Tracks U stack s' :=
  ⟨hl.trans h.emitted, by rw [hv]; exact List.nil_suffix, h.consecutive, h.known⟩

theorem Tracks.emit {s' : RpcHostNotifier} {timestamp : Nat}
    {kind : HostNotificationKind (RpcChainSegment T R)}
    {r : Except Fault (HostNotification (RpcChainSegment T R))} (h : Tracks U stack s)
    (he : Emitted P tm s timestamp kind r s') : Tracks U stack s' := by
  obtain ⟨_, _, _, rfl⟩ := he.frame
  exact h.of_eq rfl rfl

theorem tracks_start {capacity batch slotSeconds genesisTimestamp n : Nat} :
    Tracks (T := T) (R := R) U []
      ((RpcHostNotifier.new capacity batch slotSeconds genesisTimestamp).setHead n) :=
  ⟨rfl, List.suffix_refl [], consecutive_nil, by simp⟩

/-- The view is numbered without a gap, as the stack is. -/
theorem Tracks.view_consecutive (h : Tracks U stack s) : Consecutive Prod.fst s.chainView :=
  (viewEntries_consecutive.mpr h.consecutive).suffix h.view

/-- The tip of the view is the top of the stack. -/
theorem Tracks.top_of_tip (h : Tracks U stack s) {e : Nat × B256} (ht : s.tip = some e) :
    ∃ top, stack.getLast? = some top ∧ (top.number, top.hash) = e := by
  have hlast : (viewEntries stack).getLast? = some e := by
    obtain ⟨below, hb⟩ := h.view
    have ht' : s.chainView.getLast? = some e := ht
    rw [← hb, List.getLast?_append, ht']
    rfl
  rw [viewEntries_getLast?] at hlast
  exact Option.map_eq_some_iff.mp hlast

/-- A parent hash that names a known block numbers the child. -/
theorem number_of_parentHash (hU : P.Immutable U) {a b : RpcBlock T R}
    (ha : U a.hash = some a.block.header) (hb : U b.hash = some b.block.header)
    (hp : b.parentHash = a.hash) : b.number = a.number + 1 := by
  have hpar : U b.block.header.parentHash = some a.block.header := by
    rw [← ha, ← hp]
    rfl
  exact (hU.parent b.hash _ _ hb hpar).symm

/-- Pushing linked blocks on what is left of the stack keeps the mirror. -/
theorem tracks_push (hU : P.Immutable U) {kept blocks : List (RpcBlock T R)}
    {view : List (Nat × B256)} {s' : RpcHostNotifier} (hview : view <:+ viewEntries kept)
    (hkept : Consecutive RpcBlock.number kept) (hknown : ∀ b ∈ kept, U b.hash = some b.block.header)
    (hne : blocks ≠ []) (hcons : Consecutive RpcBlock.number blocks)
    (hblocks : ∀ b ∈ blocks, U b.hash = some b.block.header)
    (hlink : ∀ a ∈ kept.getLast?, ∀ b ∈ blocks.head?, b.parentHash = a.hash)
    (hv : s'.chainView = extendView s'.bufferCapacity view (viewEntries blocks))
    (hl : s'.lastEmitted = (viewEntries blocks).getLast?) :
    Tracks U (kept ++ blocks) s' where
  emitted := by
    rw [hl]
    unfold viewEntries
    rw [List.map_append, List.getLast?_append]
    cases hq : blocks.getLast? with
    | none => exact absurd (List.getLast?_eq_none_iff.mp hq) hne
    | some last => simp [hq]
  view := by
    obtain ⟨below, hb⟩ := hview
    have hpush : s'.chainView <:+ view ++ viewEntries blocks := by
      rw [hv]
      exact Window.pushAll_suffix _ _ _
    refine hpush.trans ⟨below, ?_⟩
    rw [← List.append_assoc, hb, viewEntries, viewEntries, viewEntries, List.map_append]
  consecutive := by
    refine consecutive_append.mpr ⟨hkept, hcons, ?_⟩
    intro a ha b hb
    exact number_of_parentHash hU (hknown a (List.mem_of_getLast? ha))
      (hblocks b (List.mem_of_head? hb)) (hlink a ha b hb)
  known := by
    intro b hb
    rcases List.mem_append.mp hb with hb | hb
    · exact hknown b hb
    · exact hblocks b hb

/-! ## Batches -/

/-- A batch behind an emitted block is not empty. -/
theorem fetchRange_ne_nil {cursor tip : Nat} {blocks : List (RpcBlock T R)}
    (hb : 1 ≤ s.backfillBatchSize) (hfit : cursor + s.backfillBatchSize ≤ u64Size)
    (hle : cursor ≤ tip) (hf : fetchRange P tm cursor (batchEnd s cursor tip) = .ok blocks) :
    blocks ≠ [] := by
  have hlen := (fetchRange_ok hf).1
  have hend : cursor ≤ batchEnd s cursor tip := by
    have hceil := le_effectiveCeiling s hle
    unfold batchEnd
    rcases Nat.lt_or_eq_of_le hfit with hlt | heq
    · rw [u64Add_of_lt hlt, u64Sub_of_le (by omega) hlt]
      omega
    · -- the sum wraps to zero and the subtraction wraps it back
      have hwrap : u64Sub (u64Add cursor s.backfillBatchSize) 1 = u64Size - 1 := by
        unfold u64Add u64Sub
        rw [heq, Nat.mod_self]
        rfl
      rw [hwrap]
      omega
  intro hnil
  rw [hnil, List.length_nil] at hlen
  omega

/-- Blocks fetched by number are the ones behind their hashes. -/
theorem fetchRange_known (hU : P.Immutable U) {lo hi : Nat} {blocks : List (RpcBlock T R)}
    (hf : fetchRange P tm lo hi = .ok blocks) : ∀ b ∈ blocks, U b.hash = some b.block.header := by
  intro b hb
  obtain ⟨i, hi⟩ := List.mem_iff_getElem?.mp hb
  exact hU.byNumber _ _ b.block ((fetchRange_ok hf).2 i b hi).1

/-- A batch that does not break continuity starts with a child of the last emitted block. -/
theorem parentHash_of_not_breaks (h : Tracks U stack s) {blocks : List (RpcBlock T R)}
    (hbr : breaksContinuity s blocks = false) :
    ∀ a ∈ stack.getLast?, ∀ b ∈ blocks.head?, b.parentHash = a.hash := by
  intro a ha b hb
  have hemit : s.lastEmitted = some (a.number, a.hash) := by
    rw [h.emitted, viewEntries_getLast?, ha]
    rfl
  have hfirst : blocks.head? = some b := hb
  unfold breaksContinuity at hbr
  rw [hemit, hfirst] at hbr
  simpa using hbr

/-- Linked blocks continue the stack they are committed on. -/
theorem continues_committed (hU : P.Immutable U) (h : Tracks U stack s)
    {blocks : List (RpcBlock T R)} (hne : blocks ≠ [])
    (hblocks : ∀ b ∈ blocks, U b.hash = some b.block.header)
    (hlink : ∀ a ∈ stack.getLast?, ∀ b ∈ blocks.head?, b.parentHash = a.hash) :
    Continues stack (.chainCommitted ⟨blocks⟩) := by
  intro top htop
  cases blocks with
  | nil => exact absurd rfl hne
  | cons first rest =>
      have hp := hlink top htop first rfl
      exact ⟨first, rfl, number_of_parentHash hU (h.known top (List.mem_of_getLast? htop))
        (hblocks first List.mem_cons_self) hp, hp⟩

/-- What a step must do: keep the mirror, and continue the stack with what it returns. -/
def Keeps (U : B256 → Option RpcHeader) (stack : List (RpcBlock T R))
    (r : Option (Returned T R)) (s' : RpcHostNotifier) : Prop :=
  Tracks U (r.toList.foldl deliverReturned stack) s' ∧
    ∀ n, r = some (some (.ok n)) → Continues stack n.kind

theorem Keeps.quiet {r : Option (Returned T R)} {s' : RpcHostNotifier}
    (h : Tracks U stack s') (hr : ∀ n, r ≠ some (some (.ok n))) : Keeps U stack r s' := by
  refine ⟨?_, fun n hn => absurd hn (hr n)⟩
  match r with
  | none => exact h
  | some none => exact h
  | some (some (.error f)) => exact h
  | some (some (.ok n)) => exact absurd rfl (hr n)

/-- What a step emits keeps the mirror when its kind does. -/
theorem Keeps.emitted {n : HostNotification (RpcChainSegment T R)} {s' : RpcHostNotifier}
    {kind : HostNotificationKind (RpcChainSegment T R)} (hk : n.kind = kind)
    (h : Tracks U (deliver stack kind) s') (hc : Continues stack kind) :
    Keeps U stack (some (some (.ok n))) s' := by
  subst hk
  refine ⟨h, ?_⟩
  intro m hm
  obtain rfl : n = m := by simpa using hm
  exact hc

/-- A batch that is emitted keeps the mirror, and continues the stack unless it is empty. -/
theorem delivered_drained (hU : P.Immutable U) (h : Tracks U stack s)
    {n : HostNotification (RpcChainSegment T R)} {s' : RpcHostNotifier}
    (hd : Drained P tm s (some (.ok n)) s') :
    Tracks U (deliver stack n.kind) s' ∧ ∃ cursor tip blocks, s.backfillFrom = some cursor ∧
      P.getBlockNumber tm.blockNumber = .ok tip ∧ cursor ≤ tip ∧
      fetchRange P tm cursor (batchEnd s cursor tip) = .ok blocks ∧
      n.kind = .chainCommitted ⟨blocks⟩ ∧ (blocks ≠ [] → Continues stack n.kind) := by
  cases hd with
  | @empty cursor tip hc ht hlt hf =>
      refine ⟨?_, cursor, tip, [], hc, ht, le_tip_of_lt_satAdd hlt, hf, rfl,
        fun hne => absurd rfl hne⟩
      show Tracks U (stack ++ []) _
      rw [List.append_nil]
      exact h.of_eq rfl rfl
  | @batch cursor tip blocks last _ _ hc ht hlt hf hbr hl he =>
      have hne : blocks ≠ [] := by
        intro hnil
        rw [hnil] at hl
        exact absurd hl (by simp)
      have hknown := fetchRange_known hU hf
      have hlink := parentHash_of_not_breaks h hbr
      have htracks : Tracks U (stack ++ blocks)
          (s.backfilled (effectiveCeiling s cursor tip) (batchEnd s cursor tip)
            (viewEntries blocks)) := by
        refine tracks_push hU h.view h.consecutive h.known hne
          (consecutive_of_getElem? (fetchRange_number hU.answersNumber hf)) hknown hlink rfl ?_
        show (viewEntries blocks).getLast?.orElse _ = _
        rw [viewEntries_getLast?, hl]
        rfl
      rw [he.kind_eq]
      exact ⟨htracks.emit he, cursor, tip, blocks, hc, ht, le_tip_of_lt_satAdd hlt, hf, rfl,
        fun _ => continues_committed hU h hne hknown hlink⟩

/-- **`drain_backfill` keeps the mirror** when the turn is clean. -/
theorem keeps_drained (hU : P.Immutable U) (h : Tracks U stack s)
    (hb : 1 ≤ s.backfillBatchSize) {tn : Turn} (hclean : CleanTurn P tn s)
    {r : Except Fault (HostNotification (RpcChainSegment T R))} {s' : RpcHostNotifier}
    (hd : Drained P tn.timing s (some r) s') : Keeps U stack (some (some r)) s' := by
  cases r with
  | ok n =>
      obtain ⟨htracks, cursor, tip, blocks, hc, ht, hle, hf, hkind, hcont⟩ :=
        delivered_drained hU h hd
      refine Keeps.emitted rfl htracks ?_
      by_cases hnil : blocks = []
      · -- an empty batch can only be the first one, on an empty stack
        subst hnil
        have hnone : s.lastEmitted = none := by
          cases hl : s.lastEmitted with
          | none => rfl
          | some e =>
              exact absurd rfl (fetchRange_ne_nil hb (hclean.fits e cursor tip hl hc ht hle) hle hf)
        have hlast := h.emitted.symm.trans hnone
        rw [viewEntries_getLast?, Option.map_eq_none_iff] at hlast
        rw [hkind]
        intro top htop
        exact absurd (hlast.symm.trans htop) (by simp)
      · exact hcont hnil
  | error f =>
      cases hd with
      | failed e _ => exact Keeps.quiet h (by simp)
      | broken _ _ _ _ _ => exact Keeps.quiet (h.clear rfl rfl) (by simp)
      | @batch cursor tip blocks last _ _ hc ht hlt hf hbr hl he =>
          obtain ⟨n, hn, _⟩ := he.ok_of_tagsRefresh
            (hclean.batchTags cursor tip blocks last hc ht hf hbr hl) rfl rfl rfl
          exact absurd hn (by simp)

/-! ## Heads -/

/-- The ancestor a walk found in the view is a delivered block. -/
theorem Tracks.ancestor (h : Tracks U stack s) {n : Nat} {k : B256}
    (hv : viewHash s.chainView n = some k) :
    ∃ below ∈ stack, below.number = n ∧ below.hash = k := by
  have hmem := h.view.subset ((viewHash_eq_some h.view_consecutive).mp hv)
  obtain ⟨below, hb, heq⟩ := List.mem_map.mp hmem
  exact ⟨below, hb, congrArg Prod.fst heq, congrArg Prod.snd heq⟩

/-- Popping the range above a delivered block leaves that block on top. -/
theorem popRange_getLast? (hcons : Consecutive RpcBlock.number stack) {old : RevertRange}
    {top below : RpcBlock T R} (htop : stack.getLast? = some top) (htip : old.tip = top.number)
    (hb : below ∈ stack) (hfirst : old.first = below.number + 1) :
    popRange old stack = stack.rdropWhile (fun b => old.first ≤ b.number)
      ∧ (popRange old stack).getLast? = some below := by
  have heq : popRange old stack = stack.rdropWhile (fun b => old.first ≤ b.number) := by
    refine rdropWhile_congr ?_
    intro b hbs
    have hle := hcons.le_last hbs htop
    simp only [htip, hle, and_true]
  exact ⟨heq, by rw [heq]; exact hcons.cut_getLast? hb hfirst⟩

/-- Cut at the fork, the view is still a suffix of the stack cut there. -/
theorem Tracks.view_cut (h : Tracks U stack s) {n : Nat} {k : B256}
    (hv : viewHash s.chainView n = some k) :
    s.chainView.rdropWhile (fun e => n + 1 ≤ e.1) <:+
      viewEntries (stack.rdropWhile (fun b => n + 1 ≤ b.number)) := by
  obtain ⟨below, hb⟩ := h.view
  have hmem := (viewHash_eq_some h.view_consecutive).mp hv
  have hlast := h.view_consecutive.cut_getLast? hmem rfl
  have hne : s.chainView.rdropWhile (fun e => n + 1 ≤ e.1) ≠ [] := by
    intro hnil
    rw [hnil] at hlast
    exact absurd hlast (by simp)
  have hcut : viewEntries (stack.rdropWhile (fun b => n + 1 ≤ b.number))
      = (viewEntries stack).rdropWhile (fun e => n + 1 ≤ e.1) := by
    unfold viewEntries
    rw [rdropWhile_map]
  rw [hcut, ← hb, rdropWhile_append_of_ne_nil hne]
  exact List.suffix_append _ _

/-- What a turn returns when a head was handled. -/
def headReturn : Except Fault (Option (HostNotification (RpcChainSegment T R))) →
    Option (Returned T R)
  | .ok n => n.map fun n => some (.ok n)
  | .error f => some (some (.error f))

/-- What an advance found climbs from the top of the stack, also when the view is empty. -/
theorem ascent_of_advance (hU : P.Immutable U) (h : Tracks U stack s) {hint : B256}
    {newChain : List (Nat × B256)} (hw : walkFromHint P tm s hint = .ok (.advance newChain))
    (hchild : ∀ e b, s.lastEmitted = some e → s.chainView = [] →
      firstShown P tm hint = some b → b.header.parentHash = e.2) :
    ∃ base, Ascent P base newChain ∧ newChain ≠ [] ∧ Consecutive Prod.fst newChain ∧
      ∀ a ∈ stack.getLast?, a.hash = base := by
  by_cases hnil : s.chainView = []
  · -- the first block shown is taken as it is, so its parent is what the condition says
    obtain ⟨b, t, k, hfirst, hb, hadv⟩ := walkFromHint_nil hnil hw
    injection hadv with hadv
    subst hadv
    refine ⟨b.header.parentHash, Ascent.cons hb rfl (Ascent.nil k), by simp,
      consecutive_singleton _, ?_⟩
    intro a ha
    have hemit : s.lastEmitted = some (a.number, a.hash) := by
      rw [h.emitted, viewEntries_getLast?, ha]
      rfl
    exact (hchild _ b hemit hnil hfirst).symm
  · -- the ancestor is numbered like the tip of the view, so it is that tip
    cases walkFromHint_walked hnil hw with
    | @advance t hash b _ hb hv ht ha hne =>
        have htip := tip_eq_of_number h.view_consecutive hv ht
        obtain ⟨top, htop, heq⟩ := h.top_of_tip htip
        refine ⟨hash, ha, hne, (ha.consecutive hU.parentOneLower hb).tail, ?_⟩
        intro a hat
        obtain rfl := Option.some.inj (htop.symm.trans hat)
        exact congrArg Prod.snd heq

/-- An advance pushes linked blocks on the stack. -/
theorem delivered_advance (hU : P.Immutable U) (h : Tracks U stack s) {header : RpcHeader}
    {newChain : List (Nat × B256)} {blocks : List (RpcBlock T R)} {s' : RpcHostNotifier}
    {n : HostNotification (RpcChainSegment T R)}
    (hw : walkFromHint P tm s header.hash = .ok (.advance newChain))
    (hf : fetchBlocksByHash P tm newChain = .ok blocks)
    (hchild : ∀ e b, s.lastEmitted = some e → s.chainView = [] →
      firstShown P tm header.hash = some b → b.header.parentHash = e.2)
    (he : Emitted P tm (s.advanced newChain) header.timestamp (.chainCommitted ⟨blocks⟩)
      (.ok n) s') :
    Tracks U (stack ++ blocks) s' ∧ Continues stack (.chainCommitted ⟨blocks⟩) ∧
      Linked RpcBlock.hash RpcBlock.parentHash blocks := by
  obtain ⟨base, hasc, hne, hcons, hlink⟩ := ascent_of_advance hU h hw hchild
  obtain ⟨hkeys, hknown, hhead, hlinked⟩ :=
    hasc.fetched hU.hash hU.byHash (fetchBlocksByHash_forall₂ hf)
  have hbne := fetched_ne_nil hf hne
  have hbcons : Consecutive RpcBlock.number blocks := by
    rw [← hkeys] at hcons
    exact viewEntries_consecutive.mp hcons
  have hjoin : ∀ a ∈ stack.getLast?, ∀ b ∈ blocks.head?, b.parentHash = a.hash :=
    fun a ha b hb => (hhead b hb).trans (hlink a ha).symm
  have htracks : Tracks U (stack ++ blocks) (s.advanced newChain) := by
    refine tracks_push hU h.view h.consecutive h.known hbne hbcons hknown hjoin ?_ ?_
    · rw [hkeys]
      rfl
    · rw [hkeys]
      rfl
  exact ⟨htracks.emit he, continues_committed hU h hbne hknown hjoin, hlinked⟩

/-- A reorg pops the stack down to the ancestor the walk found and pushes linked blocks on it. -/
theorem delivered_reorg (hU : P.Immutable U) (h : Tracks U stack s) {header : RpcHeader}
    {forkNumber oldTip : Nat} {newChain : List (Nat × B256)} {blocks : List (RpcBlock T R)}
    {old : RevertRange} {s' : RpcHostNotifier} {n : HostNotification (RpcChainSegment T R)}
    (hw : walkFromHint P tm s header.hash = .ok (.reorg forkNumber oldTip newChain))
    (hf : fetchBlocksByHash P tm newChain = .ok blocks)
    (ho : RevertRange.new forkNumber oldTip = some old)
    (he : Emitted P tm (s.reorged forkNumber newChain) header.timestamp
      (.chainReorged old ⟨blocks⟩) (.ok n) s') :
    Tracks U (popRange old stack ++ blocks) s' ∧ Continues stack (.chainReorged old ⟨blocks⟩) ∧
      Linked RpcBlock.hash RpcBlock.parentHash blocks := by
  have hpar := hU.parentOneLower
  have hwalked := walkFromHint_walked (chainView_ne_nil_of_reorg hw) hw
  obtain ⟨old', ho', hfork, htip⟩ := revertRange_new_of_walked hpar h.view_consecutive hwalked
  obtain rfl := Option.some.inj (ho.symm.trans ho')
  cases hwalked with
  | @reorg t hash b _ hb hv ht ha hne =>
      rw [fork_eq hpar hb ha hne] at hfork
      obtain ⟨below, hbelow, hnum, hhash⟩ := h.ancestor hv
      obtain ⟨e, he'⟩ := exists_tip (chainView_ne_nil_of_reorg hw)
      obtain ⟨top, htop, heq⟩ := h.top_of_tip he'
      have htipnum : old.tip = top.number := by
        rw [htip, he', ← heq]
        rfl
      -- popping the range leaves the ancestor on top, and the new blocks are its children
      obtain ⟨hpop, hlast⟩ := popRange_getLast? h.consecutive htop htipnum hbelow
        (by rw [hfork, hnum])
      obtain ⟨hkeys, hknown, hhead, hlinked⟩ :=
        ha.fetched hU.hash hU.byHash (fetchBlocksByHash_forall₂ hf)
      have hbne := fetched_ne_nil hf hne
      have hpre : popRange old stack <+: stack := List.rdropWhile_prefix _ _
      have hjoin : ∀ a ∈ (popRange old stack).getLast?, ∀ b ∈ blocks.head?,
          b.parentHash = a.hash := by
        intro a ha b hb
        obtain rfl := Option.some.inj (hlast.symm.trans ha)
        exact (hhead b hb).trans hhash.symm
      have htracks : Tracks U (popRange old stack ++ blocks)
          (s.reorged (u64Add b.header.number 1) newChain) := by
        refine tracks_push hU (h.view_cut hv |>.trans ?_) (h.consecutive.initial hpre)
          (fun b hb => h.known b (hpre.subset hb)) hbne
          (viewEntries_consecutive.mp (hkeys ▸ (ha.consecutive hpar hb).tail)) hknown
          hjoin ?_ ?_
        · rw [hpop, hfork]
        · rw [hkeys, ← fork_eq hpar hb ha hne]
          rfl
        · rw [hkeys]
          rfl
      obtain ⟨first, hfirst⟩ : ∃ first, blocks.head? = some first := by
        cases blocks with
        | nil => exact absurd rfl hbne
        | cons first rest => exact ⟨first, rfl⟩
      have hp := hjoin below hlast first hfirst
      have hsucc := number_of_parentHash hU (h.known below hbelow)
        (hknown first (List.mem_of_head? hfirst)) hp
      refine ⟨htracks.emit he, ⟨top, first, below, htop, htipnum, hfirst, ?_, hbelow, ?_, hp⟩,
        hlinked⟩
      · rw [hsucc, hfork, hnum]
      · rw [hfork, hnum]

/-- **Blocks brought by a head are pushed where they belong**: they are hash-linked, keep the
mirror, and continue the stack. -/
theorem delivered_handled (hU : P.Immutable U) (h : Tracks U stack s) {header : RpcHeader}
    {n : HostNotification (RpcChainSegment T R)} {s' : RpcHostNotifier}
    (hchild : ∀ e b, s.lastEmitted = some e → s.chainView = [] →
      firstShown P tm header.hash = some b → b.header.parentHash = e.2)
    (hh : Handled P tm s header (.ok (some n)) s') :
    Tracks U (deliver stack n.kind) s' ∧ Continues stack n.kind ∧
      ∀ new, n.kind.committedChain = some new →
        Linked RpcBlock.hash RpcBlock.parentHash new.blocks := by
  have hemitted {r : Except Fault (HostNotification (RpcChainSegment T R))}
      (hr : (.ok (some n) : Except Fault (Option (HostNotification (RpcChainSegment T R))))
        = r.map some) : r = .ok n := by
    cases r with
    | error f => exact absurd hr (by simp [Except.map])
    | ok m =>
        injection hr with hr
        injection hr with hr
        rw [hr]
  cases hh with
  | advance hw hf he hr =>
      obtain rfl := hemitted hr
      obtain ⟨htracks, hcont, hlinked⟩ := delivered_advance hU h hw hf hchild he
      rw [he.kind_eq]
      refine ⟨htracks, hcont, ?_⟩
      intro new hnew
      rw [← Option.some.inj hnew]
      exact hlinked
  | reorg hw hf ho he hr =>
      obtain rfl := hemitted hr
      obtain ⟨htracks, hcont, hlinked⟩ := delivered_reorg hU h hw hf ho he
      rw [he.kind_eq]
      refine ⟨htracks, hcont, ?_⟩
      intro new hnew
      rw [← Option.some.inj hnew]
      exact hlinked

/-- A head that brings nothing keeps the mirror. -/
theorem tracks_handled_none (h : Tracks U stack s) {header : RpcHeader} {s' : RpcHostNotifier}
    (hh : Handled P tm s header (.ok none) s') : Tracks U stack s' := by
  have hnone {r : Except Fault (HostNotification (RpcChainSegment T R))} :
      (.ok none : Except Fault (Option (HostNotification (RpcChainSegment T R)))) ≠ r.map some := by
    cases r <;> simp [Except.map]
  cases hh with
  | seen => exact h
  | exhausted _ => exact h.clear rfl rfl
  | advance _ _ _ hr => exact absurd hr hnone
  | reorg _ _ _ _ hr => exact absurd hr hnone

/-- **`handle_new_head` keeps the mirror** when the turn is clean. -/
theorem keeps_handled (hU : P.Immutable U) (h : Tracks U stack s) {header : RpcHeader}
    {out : Except Fault (Option (HostNotification (RpcChainSegment T R)))} {s' : RpcHostNotifier}
    (hchild : ∀ e b, s.lastEmitted = some e → s.chainView = [] →
      firstShown P tm header.hash = some b → b.header.parentHash = e.2)
    (htags : ∀ w newChain blocks, walkFromHint P tm s header.hash = .ok w →
      w.newBlocks = some newChain → fetchBlocksByHash P tm newChain = .ok blocks →
      TagsRefresh P tm s header.timestamp)
    (hh : Handled P tm s header out s') : Keeps U stack (headReturn out) s' := by
  rcases out with f | _ | n
  · -- the refresh goes through, so the error left the state as it was
    cases hh with
    | failed e => exact Keeps.quiet h (by simp [headReturn])
    | @advance newChain blocks r _ _ hw hf he hr =>
        obtain ⟨n, rfl, _⟩ := he.ok_of_tagsRefresh (htags _ _ _ hw rfl hf) rfl rfl rfl
        exact absurd hr (by simp [Except.map])
    | @reorg forkNumber oldTip newChain blocks old r _ _ hw hf ho he hr =>
        obtain ⟨n, rfl, _⟩ := he.ok_of_tagsRefresh (htags _ _ _ hw rfl hf) rfl rfl rfl
        exact absurd hr (by simp [Except.map])
    | panicked hw _ ho =>
        obtain ⟨_, hnew, _, _⟩ := revertRange_new_of_walked hU.parentOneLower h.view_consecutive
          (walkFromHint_walked (chainView_ne_nil_of_reorg hw) hw)
        exact absurd (ho.symm.trans hnew) (by simp)
  · exact Keeps.quiet (tracks_handled_none h hh) (by simp [headReturn])
  · obtain ⟨htracks, hcont, _⟩ := delivered_handled hU h hchild hh
    exact Keeps.emitted rfl htracks hcont

/-! ## Turns and runs -/

/-- Coming to the heads is a matter of the cursor alone. -/
theorem Drained.atHeads {s' : RpcHostNotifier} (h : Drained P tm s none s') : AtHeads P tm s := by
  intro cursor hcur
  cases h with
  | idle hc => exact absurd (hc.symm.trans hcur) (by simp)
  | @handover c tip hc ht heq =>
      obtain rfl := Option.some.inj (hc.symm.trans hcur)
      exact ⟨tip, ht, heq⟩

theorem walkLoop_cursor {cursor : Option Nat} {walk : Nat → Instant} :
    ∀ (fuel : Nat) (currentHash : B256) (walked : List (Nat × B256)),
      walkLoop P walk { s with backfillFrom := cursor } fuel currentHash walked
        = walkLoop P walk s fuel currentHash walked
  | 0, _, _ => rfl
  | fuel + 1, currentHash, walked => by
      rw [walkLoop, walkLoop]
      simp only [walkLoop_cursor fuel]
      rfl

/-- The walk does not look at the cursor. -/
theorem walkFromHint_cursor {cursor : Option Nat} {hint : B256} :
    walkFromHint P tm { s with backfillFrom := cursor } hint = walkFromHint P tm s hint := by
  have hchain {walk : Nat → Instant} {k : B256} :
      walkChain P walk { s with backfillFrom := cursor } k = walkChain P walk s k := by
    unfold walkChain
    rw [walkLoop_cursor]
    rfl
  unfold walkFromHint
  simp only [hchain]

/-- **Every clean turn keeps the mirror** and continues the stack. -/
theorem keeps_turn (hU : P.Immutable U) (h : Tracks U stack s) (hb : 1 ≤ s.backfillBatchSize)
    {tn : Turn} (hclean : CleanTurn P tn s) :
    Keeps U stack (turn P tn s).1 (turn P tn s).2 := by
  have hhead {header : RpcHeader} {s₁ s₂ : RpcHostNotifier}
      {out : Except Fault (Option (HostNotification (RpcChainSegment T R)))}
      (hd : Drained P tn.timing s none s₁) (hh : tn.head = some header)
      (hn : Handled P tn.timing s₁ header out s₂) : Keeps U stack (headReturn out) s₂ := by
    have hat := hd.atHeads
    obtain rfl := hd.none_eq
    refine keeps_handled (s := { s with backfillFrom := none }) hU (h.of_eq rfl rfl) ?_ ?_ hn
    · intro e b he hnil hb
      exact hclean.child e header b he hnil hat hh hb
    · intro w newChain blocks hw
      exact hclean.headTags header w newChain blocks hat hh (walkFromHint_cursor.symm.trans hw)
  have ht := turn_turned P tn s
  generalize (turn P tn s).1 = out at ht
  generalize (turn P tn s).2 = s' at ht
  cases ht with
  | backfilled hd => exact keeps_drained hU h hb hclean hd
  | ended hd _ =>
      obtain rfl := hd.none_eq
      exact Keeps.quiet (h.of_eq rfl rfl) (by simp)
  | quiet hd hh hn => exact hhead hd hh hn
  | emitted hd hh hn => exact hhead hd hh hn
  | failed hd hh hn => exact hhead hd hh hn

/--
**Delivery continuity.** In every run of clean turns after `set_head`, whatever
the provider answers over time, each notification continues the stack of blocks
delivered before it, and the stack never has a gap or a repeated number.
-/
theorem delivery_continuity (hU : P.Immutable U)
    {capacity batch slotSeconds genesisTimestamp n : Nat} (hb : 1 ≤ batch)
    {rs : List (Returned T R)}
    (hrun : NotifierRun P (CleanTurn P)
      ((RpcHostNotifier.new capacity batch slotSeconds genesisTimestamp).setHead n) rs s) :
    Along (fun before r => ContinuesReturned (delivered before) r) rs := by
  refine (hrun.law (I := fun rs s => Tracks U (delivered rs) s ∧ 1 ≤ s.backfillBatchSize)
    ⟨tracks_start, hb⟩ ?_).2
  rintro tn rs s ⟨htracks, hbatch⟩ hclean
  obtain ⟨htracks', hlaw⟩ := keeps_turn hU htracks hbatch hclean
  have hconfig : (turn P tn s).2.config = s.config := turn_config
  have hsize : (turn P tn s).2.backfillBatchSize = s.backfillBatchSize :=
    congrArg (fun c => c.2.1) hconfig
  have hstack : delivered (rs ++ (turn P tn s).1.toList)
      = (turn P tn s).1.toList.foldl deliverReturned (delivered rs) := List.foldl_append
  refine ⟨⟨by rw [hstack]; exact htracks', by rw [hsize]; exact hbatch⟩, ?_⟩
  intro r hr
  refine ⟨?_, ?_⟩
  · intro m hm
    exact hlaw m (hr.trans (congrArg some hm))
  · rw [hr] at htracks'
    exact htracks'.consecutive

/-- A backfilled block and a head behind it, both clean. -/
theorem delivery_continuity_advance :
    let P := Provider.reorging [bareBlock 11 1 10, bareBlock 12 2 11]
      [bareBlock 11 1 10] [bareBlock 11 1 10, bareBlock 12 2 11]
    let backfill : Turn := ⟨Timing.constant 0, none⟩
    let head : Turn := ⟨Timing.constant 1, some (bareBlock 12 2 11).block.header⟩
    let rs := (runInputs (turn P) [backfill, head] ((RpcHostNotifier.new 4 8 12 0).setHead 1)).1
    delivered rs = [bareBlock 11 1 10, bareBlock 12 2 11] ∧
      Along (fun before r => ContinuesReturned (delivered before) r) rs := by
  intro P backfill head rs
  have hP : P.Immutable _ := reorging_immutable (by decide) (by decide) (by decide)
  refine ⟨by decide, ?_⟩
  have htags (t : Instant) (s : RpcHostNotifier) (h : s.slotSeconds = 12) (time : Nat) :
      TagsRefresh P (Timing.constant t) s time := by
    refine ⟨(time - s.genesisTimestamp) / 384, ?_, Or.inr ⟨_, _, rfl, rfl⟩⟩
    unfold epochOf
    rw [h]
    rfl
  have hfresh : ((RpcHostNotifier.new 4 8 12 0).setHead 1).lastEmitted = none := rfl
  have hbackfill : CleanTurn P backfill ((RpcHostNotifier.new 4 8 12 0).setHead 1) := by
    refine ⟨?_, ?_, ?_, ?_⟩
    · intro e cursor tip he
      exact absurd (hfresh.symm.trans he) (by simp)
    · intro e header b he
      exact absurd (hfresh.symm.trans he) (by simp)
    · intro cursor tip blocks last _ _ _ _ _
      exact htags 0 _ rfl _
    · intro header w newChain blocks _ hh
      exact absurd hh (by simp [backfill])
  have hidle : (turn P backfill ((RpcHostNotifier.new 4 8 12 0).setHead 1)).2.backfillFrom = none :=
    by decide
  have hview : (turn P backfill ((RpcHostNotifier.new 4 8 12 0).setHead 1)).2.chainView ≠ [] := by
    decide
  have hhead : CleanTurn P head
      (turn P backfill ((RpcHostNotifier.new 4 8 12 0).setHead 1)).2 := by
    refine ⟨?_, ?_, ?_, ?_⟩
    · intro e cursor tip _ hc
      exact absurd (hidle.symm.trans hc) (by simp)
    · intro e header b _ hnil
      exact absurd hnil hview
    · intro cursor tip blocks last _ _ _ _ _
      exact htags 1 _ rfl _
    · intro header w newChain blocks _ _ _ _ _
      exact htags 1 _ rfl _
  exact delivery_continuity hP (by decide)
    (runInputs_run [backfill, head] _ ⟨hbackfill, hhead, trivial⟩)

/-- After an exhausted walk the view is empty; when the cursor then stands behind
a tip of the same height, the replacement is delivered on top of the block it replaces. -/
theorem reset_handover_reparents :
    let P := Provider.reorging [bareBlock 10 0 9, bareBlock 11 1 10, bareBlock 21 1 10]
      [bareBlock 10 0 9, bareBlock 11 1 10] [bareBlock 10 0 9, bareBlock 21 1 10]
    let s₀ := (RpcHostNotifier.new 1 1 12 0).setHead 1
    let backfill : Turn := ⟨Timing.constant 0, none⟩
    let replacement : Turn := ⟨Timing.constant 1, some (bareBlock 21 1 10).block.header⟩
    let out := runInputs (turn P) [backfill, replacement, replacement] s₀
    (∃ U, P.Immutable U) ∧ NotifierRun P (fun _ _ => True) s₀ out.1 out.2 ∧
      ¬ Along (fun before r => ContinuesReturned (delivered before) r) out.1 := by
  intro P s₀ backfill replacement out
  have hP : P.Immutable _ := reorging_immutable (by decide) (by decide) (by decide)
  refine ⟨⟨_, hP⟩, runInputs_run _ _ (admits_true _ _), ?_⟩
  intro h
  have hout : out.1 = [some (.ok ⟨.chainCommitted ⟨[bareBlock 11 1 10]⟩, some 0, some 0⟩),
      some (.ok ⟨.chainCommitted ⟨[bareBlock 21 1 10]⟩, some 0, some 0⟩)] := by decide
  obtain ⟨hc, _⟩ := h [_] _ [] hout
  obtain ⟨first, hfirst, hnum, _⟩ := hc _ rfl (bareBlock 11 1 10) rfl
  obtain rfl := Option.some.inj hfirst
  exact absurd hnum (by decide)

end NodeComponents.HostRpc
