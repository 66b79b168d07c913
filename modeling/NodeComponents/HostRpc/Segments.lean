import NodeComponents.HostRpc.Delivery

/-!
# When a segment is consistent

A segment is fetched by many calls, and the host may reorg between any two of
them. By hash this is harmless: a hash names one block, and the walk that found
the hashes climbed parent links. By number it is not: each of the `2 k` calls of
a batch answers from whatever chain is canonical at its own instant.

`segment_consistent_iff` says exactly when an emitted segment is consistent: all
block calls of a batch saw the chain that the call for its highest block saw, and
no receipts call was answered from a chain whose block at that height has other
receipts, a missing answer counting as no receipts.
-/

namespace NodeComponents.HostRpc

open Lib

variable {T R : Type} {P : Provider T R} {s : RpcHostNotifier}
  {store : B256 → Option (RpcBlock T R)} {canon : Instant → Nat → Option (RpcBlock T R)}

/-! ## What the calls answer -/

/-- The blocks behind the hashes, and the chain that is canonical at each instant. -/
structure CanonicalChains (store : B256 → Option (RpcBlock T R))
    (canon : Instant → Nat → Option (RpcBlock T R)) : Prop where
  hash : ∀ h x, store h = some x → x.hash = h
  stored : ∀ t n x, canon t n = some x → store x.hash = some x
  /-- A canonical block stands on the canonical block below it. -/
  below : ∀ t n y, canon t (n + 1) = some y → ∃ x, canon t n = some x ∧ y.parentHash = x.hash

/-- A call by hash answers for that block or fails; a call by number answers for
the block that is canonical at that instant. -/
structure Provider.Serves (P : Provider T R) (store : B256 → Option (RpcBlock T R))
    (canon : Instant → Nat → Option (RpcBlock T R)) : Prop where
  blockByHash : ∀ t h b, P.getBlockByHash t h = .ok (some b) → ∃ x, store h = some x ∧ x.block = b
  receiptsByHash : ∀ t h rs, P.getBlockReceipts t (.hash h) = .ok (some rs) →
    ∀ x, store h = some x → x.receipts = rs
  blockByNumber : ∀ t n b, P.getBlockByNumber t (.number n) = .ok (some b) →
    ∃ x, canon t n = some x ∧ x.block = b
  receiptsByNumber : ∀ t n rs, P.getBlockReceipts t (.number n) = .ok rs →
    rs = (canon t n).map RpcBlock.receipts

/-! ## Consistency and its condition -/

/-- Each block names the one before it, and carries the receipts of the block behind its hash. -/
def ConsistentSegment (store : B256 → Option (RpcBlock T R)) (seg : RpcChainSegment T R) : Prop :=
  Linked RpcBlock.hash RpcBlock.parentHash seg.blocks ∧
    ∀ b ∈ seg.blocks, ∃ x, store b.hash = some x ∧ b.receipts = x.receipts

/-- The receipts a call by number is answered with, a missing answer counting as none. -/
def receiptsAt (canon : Instant → Nat → Option (RpcBlock T R)) (t : Instant) (n : Nat) : List R :=
  ((canon t n).map RpcBlock.receipts).getD []

/-- No reorg tells apart the calls of a batch `[lo, hi]`. -/
structure UndisturbedBatch (canon : Instant → Nat → Option (RpcBlock T R)) (tm : Timing)
    (lo hi : Nat) : Prop where
  /-- Each block call sees the block canonical when the highest block was answered. -/
  blocks : ∀ i, lo + i ≤ hi → canon (tm.block i) (lo + i) = canon (tm.block (hi - lo)) (lo + i)
  /-- Each receipts call sees the receipts canonical when its block was answered. -/
  receipts : ∀ i, lo + i ≤ hi →
    receiptsAt canon (tm.receipts i) (lo + i) = receiptsAt canon (tm.block i) (lo + i)

/-- The new blocks a walk found, if it found any. -/
def WalkResult.newChain : WalkResult → List (Nat × B256)
  | .advance newChain => newChain
  | .reorg _ _ newChain => newChain
  | _ => []

/-- The calls of a turn are not told apart by a reorg, nor answered with a missing
answer for receipts that exist. -/
structure UndisturbedTurn (P : Provider T R) (store : B256 → Option (RpcBlock T R))
    (canon : Instant → Nat → Option (RpcBlock T R)) (tn : Turn) (s : RpcHostNotifier) : Prop where
  batch : ∀ cursor tip, s.backfillFrom = some cursor →
    P.getBlockNumber tn.timing.blockNumber = .ok tip → cursor < u64SatAdd tip 1 →
    UndisturbedBatch canon tn.timing cursor (batchEnd s cursor tip)
  heads : ∀ header w, AtHeads P tn.timing s → tn.head = some header →
    walkFromHint P tn.timing s header.hash = .ok w → ∀ i e x, w.newChain[i]? = some e →
    P.getBlockReceipts (tn.timing.receipts i) (.hash e.2) = .ok none → store e.2 = some x →
    x.receipts = []

/-! ## Batches -/

variable {tm : Timing}

/-- The canonical blocks of `[lo, hi]` at one instant, up to a block that is known there. -/
theorem canonical_range (hc : CanonicalChains store canon) {t : Instant} {lo : Nat} :
    ∀ (k : Nat) {x : RpcBlock T R}, canon t (lo + k) = some x →
      ∃ l : List (RpcBlock T R), l.length = k + 1 ∧ l.getLast? = some x ∧
        Linked RpcBlock.hash RpcBlock.parentHash l ∧
        ∀ i b, l[i]? = some b → canon t (lo + i) = some b
  | 0, x, hx => by
      refine ⟨[x], rfl, rfl, List.isChain_singleton x, ?_⟩
      intro i b hb
      obtain ⟨rfl, rfl⟩ : i = 0 ∧ x = b := by
        cases i with
        | zero => exact ⟨rfl, by simpa using hb⟩
        | succ i => exact absurd hb (by simp)
      exact hx
  | k + 1, y, hy => by
      obtain ⟨x, hx, hlink⟩ := hc.below t (lo + k) y hy
      obtain ⟨l, hlen, hlast, hlinked, hget⟩ := canonical_range hc k hx
      refine ⟨l ++ [y], by simp [hlen], by simp, ?_, ?_⟩
      · refine linked_append.mpr ⟨hlinked, List.isChain_singleton y, ?_⟩
        intro a ha b hb
        obtain rfl := Option.some.inj (hlast.symm.trans ha)
        obtain rfl : y = b := by simpa using hb
        exact hlink
      · intro i b hb
        by_cases hi : i < l.length
        · rw [List.getElem?_append_left hi] at hb
          exact hget i b hb
        · rw [List.getElem?_append_right (by omega)] at hb
          obtain ⟨hi', rfl⟩ : i - l.length = 0 ∧ y = b := by
            cases hq : i - l.length with
            | zero => rw [hq] at hb; exact ⟨rfl, by simpa using hb⟩
            | succ j => rw [hq] at hb; exact absurd hb (by simp)
          rw [show lo + i = lo + k + 1 by omega]
          exact hy

/-- Each block of a batch is the canonical one at the instant of its call, with
the receipts of its receipts call. -/
theorem fetchRange_canonical (hP : P.Serves store canon) {lo hi : Nat}
    {blocks : List (RpcBlock T R)} (hf : fetchRange P tm lo hi = .ok blocks) {i : Nat}
    {b : RpcBlock T R} (hb : blocks[i]? = some b) :
    (∃ x, canon (tm.block i) (lo + i) = some x ∧ x.block = b.block)
      ∧ b.receipts = receiptsAt canon (tm.receipts i) (lo + i) := by
  obtain ⟨hblock, rs, hrs, heq⟩ := (fetchRange_ok hf).2 i b hb
  refine ⟨hP.blockByNumber _ _ _ hblock, ?_⟩
  rw [heq, hP.receiptsByNumber _ _ _ hrs]
  rfl

/-- Blocks with one hash that are both stored are the same block. -/
theorem stored_inj {x y : RpcBlock T R} (hx : store x.hash = some x) (hy : store y.hash = some y)
    (h : x.hash = y.hash) : x = y := by
  rw [h] at hx
  exact Option.some.inj (hx.symm.trans hy)

/-- A linked batch saw one chain: parent hashes lead down from the highest block. -/
theorem blocks_of_linked (hc : CanonicalChains store canon) (hP : P.Serves store canon)
    {lo hi : Nat} {blocks : List (RpcBlock T R)} (hf : fetchRange P tm lo hi = .ok blocks)
    (hlinked : Linked RpcBlock.hash RpcBlock.parentHash blocks) (i : Nat) (hi' : lo + i ≤ hi) :
    canon (tm.block i) (lo + i) = canon (tm.block (hi - lo)) (lo + i) := by
  have hlen := (fetchRange_ok hf).1
  obtain ⟨last, hlast⟩ : ∃ last, blocks[hi - lo]? = some last :=
    ⟨_, List.getElem?_eq_getElem (by omega)⟩
  obtain ⟨⟨top, htop, htopb⟩, _⟩ := fetchRange_canonical hP hf hlast
  obtain ⟨l, hllen, hllast, hllinked, hlget⟩ := canonical_range hc (hi - lo) htop
  -- the fetched blocks and the chain below the highest one, compared without their receipts
  have hsame : blocks.map RpcBlock.block = l.map RpcBlock.block := by
    have hfetched : Linked (fun b : Block T => b.header.hash) (fun b => b.header.parentHash)
        (blocks.map RpcBlock.block) := linked_map.mpr hlinked
    have hsuffix := hfetched.suffix_of_getLast? (linked_map.mpr hllinked) (by
        intro a ha b hb hab
        obtain ⟨b', hb', rfl⟩ := List.mem_map.mp hb
        obtain ⟨a', ha', rfl⟩ := List.mem_map.mp ha
        obtain ⟨j, hj⟩ := List.mem_iff_getElem?.mp ha'
        obtain ⟨k, hk⟩ := List.mem_iff_getElem?.mp hb'
        obtain ⟨⟨x, hx, hxa⟩, _⟩ := fetchRange_canonical hP hf hj
        rw [← hxa] at hab ⊢
        rw [stored_inj (hc.stored _ _ _ hx) (hc.stored _ _ _ (hlget k b' hk)) hab])
      (by simp only [List.length_map]; omega) (by
        intro a ha
        rw [List.getLast?_map, List.getLast?_eq_getElem?,
          show blocks.length - 1 = hi - lo by omega, hlast] at ha
        rw [List.getLast?_map, hllast, Option.map_some, htopb]
        exact ha)
    exact hsuffix.eq_of_length (by simp only [List.length_map]; omega)
  obtain ⟨b, hb⟩ : ∃ b, blocks[i]? = some b := ⟨_, List.getElem?_eq_getElem (by omega)⟩
  obtain ⟨y, hy⟩ : ∃ y, l[i]? = some y := ⟨_, List.getElem?_eq_getElem (by omega)⟩
  obtain ⟨⟨x, hx, hxb⟩, _⟩ := fetchRange_canonical hP hf hb
  have hget := congrArg (fun m => m[i]?) hsame
  simp only [List.getElem?_map, hb, hy, Option.map_some, Option.some.injEq] at hget
  have hhash : x.hash = y.hash := congrArg (fun b => b.header.hash) (hxb.trans hget)
  rw [hx, hlget i y hy, stored_inj (hc.stored _ _ _ hx) (hc.stored _ _ _ (hlget i y hy)) hhash]

/-- **A batch is consistent exactly when no reorg tells its calls apart.** -/
theorem batch_consistent_iff (hc : CanonicalChains store canon) (hP : P.Serves store canon)
    {lo hi : Nat} {blocks : List (RpcBlock T R)} (hf : fetchRange P tm lo hi = .ok blocks) :
    ConsistentSegment store ⟨blocks⟩ ↔ UndisturbedBatch canon tm lo hi := by
  have hlen := (fetchRange_ok hf).1
  constructor
  · intro hq
    rcases hq with ⟨hlinked, hreceipts⟩
    refine ⟨blocks_of_linked hc hP hf hlinked, ?_⟩
    intro i hi'
    obtain ⟨b, hb⟩ : ∃ b, blocks[i]? = some b := ⟨_, List.getElem?_eq_getElem (by omega)⟩
    obtain ⟨⟨x, hx, hxb⟩, hbr⟩ := fetchRange_canonical hP hf hb
    obtain ⟨y, hy, hyr⟩ := hreceipts b (List.mem_of_getElem? hb)
    have hxy : x = y := by
      have hstored := hc.stored _ _ _ hx
      rw [show x.hash = b.hash from congrArg (fun c => c.header.hash) hxb] at hstored
      exact Option.some.inj (hstored.symm.trans hy)
    rw [← hbr, hyr, ← hxy, receiptsAt, hx]
    rfl
  · intro hq
    rcases hq with ⟨hblocks, hreceipts⟩
    refine ⟨List.isChain_iff_getElem.mpr ?_, ?_⟩
    · intro i hi'
      have hnext : i + 1 < blocks.length := hi'
      obtain ⟨⟨x, hx, hxb⟩, _⟩ :=
        fetchRange_canonical hP hf (List.getElem?_eq_getElem (show i < blocks.length by omega))
      obtain ⟨⟨y, hy, hyb⟩, _⟩ := fetchRange_canonical hP hf (List.getElem?_eq_getElem hnext)
      rw [hblocks i (by omega)] at hx
      rw [hblocks (i + 1) (by omega)] at hy
      -- both are canonical at the instant of the highest block, where the chain is linked
      obtain ⟨z, hz, hlink⟩ := hc.below _ _ y hy
      obtain rfl := Option.some.inj (hx.symm.trans hz)
      have hparent := congrArg (fun c => c.header.parentHash) hyb
      have hhash := congrArg (fun c => c.header.hash) hxb
      exact hparent.symm.trans (hlink.trans hhash)
    · intro b hb
      obtain ⟨i, hi'⟩ := List.mem_iff_getElem?.mp hb
      have hilt : i < blocks.length := (List.getElem?_eq_some_iff.mp hi').1
      obtain ⟨⟨x, hx, hxb⟩, hbr⟩ := fetchRange_canonical hP hf hi'
      refine ⟨x, ?_, ?_⟩
      · have hstored := hc.stored _ _ _ hx
        rwa [show x.hash = b.hash from congrArg (fun c => c.header.hash) hxb] at hstored
      · rw [hbr, hreceipts i (by omega), receiptsAt, hx]
        rfl

/-! ## Heads -/

/-- The blocks a walk collected start somewhere: below the view's ancestor or below the
first block shown. -/
theorem ascent_of_walk {hint : B256} {w : WalkResult} (h : walkFromHint P tm s hint = .ok w) :
    ∃ base, Ascent P base w.newChain := by
  by_cases hnil : s.chainView = []
  · obtain ⟨b, t, k, _, hb, rfl⟩ := walkFromHint_nil hnil h
    exact ⟨b.header.parentHash, Ascent.cons hb rfl (Ascent.nil k)⟩
  · cases walkFromHint_walked hnil h with
    | alreadySeen => exact ⟨0, Ascent.nil 0⟩
    | exhausted => exact ⟨0, Ascent.nil 0⟩
    | advance _ _ _ ha _ => exact ⟨_, ha⟩
    | reorg _ _ _ ha _ => exact ⟨_, ha⟩

/-- What a head returns carries the chain of the kind it was built with. -/
theorem Emitted.committedChain_eq {s' : RpcHostNotifier} {timestamp : Nat}
    {kind : HostNotificationKind (RpcChainSegment T R)}
    {n : HostNotification (RpcChainSegment T R)}
    {r : Except Fault (HostNotification (RpcChainSegment T R))}
    (he : Emitted P tm s timestamp kind r s') (hr : .ok (some n) = r.map some) :
    n.committedChain = kind.committedChain := by
  cases r with
  | error f => exact absurd hr (by simp [Except.map])
  | ok m =>
      obtain rfl : n = m := by simpa [Except.map] using hr
      exact HostNotification.committedChain_of_kind he.kind_eq

/-- What a head brings is what its walk found, fetched by hash. -/
theorem Handled.segment {header : RpcHeader} {n : HostNotification (RpcChainSegment T R)}
    {s' : RpcHostNotifier} (h : Handled P tm s header (.ok (some n)) s') :
    ∃ w blocks, walkFromHint P tm s header.hash = .ok w ∧
      fetchBlocksByHash P tm w.newChain = .ok blocks ∧ n.committedChain = some ⟨blocks⟩ := by
  generalize hout : Except.ok (some n) = out at h
  cases h with
  | failed e => exact absurd hout (by simp)
  | seen => exact absurd hout (by simp)
  | exhausted _ => exact absurd hout (by simp)
  | panicked _ _ _ => exact absurd hout (by simp)
  | @advance newChain blocks r _ _ hw hf he hr =>
      exact ⟨_, blocks, hw, hf, he.committedChain_eq (hout.trans hr)⟩
  | @reorg _ _ newChain blocks old r _ _ hw hf _ he hr =>
      exact ⟨_, blocks, hw, hf, he.committedChain_eq (hout.trans hr)⟩

/-- **A segment fetched by hash is linked**, and consistent exactly when no
receipts that exist were answered as missing. -/
theorem heads_consistent_iff (hc : CanonicalChains store canon) (hP : P.Serves store canon)
    {hint : B256} {w : WalkResult} {blocks : List (RpcBlock T R)}
    (hw : walkFromHint P tm s hint = .ok w)
    (hf : fetchBlocksByHash P tm w.newChain = .ok blocks) :
    ConsistentSegment store ⟨blocks⟩ ↔ ∀ i e x, w.newChain[i]? = some e →
      P.getBlockReceipts (tm.receipts i) (.hash e.2) = .ok none → store e.2 = some x →
      x.receipts = [] := by
  obtain ⟨hlen, hget⟩ := fetchBlocksByHash_ok hf
  have hstored {i : Nat} {b : RpcBlock T R} {e : Nat × B256} (hb : blocks[i]? = some b)
      (he : w.newChain[i]? = some e) : ∃ x, store e.2 = some x ∧ b.hash = e.2 := by
    obtain ⟨x, hx, hxb⟩ := hP.blockByHash _ _ _ (hget i b e hb he).1
    exact ⟨x, hx, (congrArg (fun c => c.header.hash) hxb).symm.trans (hc.hash _ _ hx)⟩
  have hlinked : Linked RpcBlock.hash RpcBlock.parentHash blocks := by
    obtain ⟨base, ha⟩ := ascent_of_walk hw
    refine (ha.fetched (U := fun h => (store h).map fun x => x.block.header) ?_ ?_
      (fetchBlocksByHash_forall₂ hf)).2.2.2
    · intro h x hx
      obtain ⟨y, hy, rfl⟩ := Option.map_eq_some_iff.mp hx
      exact hc.hash h y hy
    · intro t h b hb
      obtain ⟨x, hx, rfl⟩ := hP.blockByHash t h b hb
      show (store h).map _ = _
      rw [hx]
      rfl
  constructor
  · rintro ⟨_, hreceipts⟩ i e x he hnone hx
    obtain ⟨b, hb⟩ : ∃ b, blocks[i]? = some b := by
      have hlt := (List.getElem?_eq_some_iff.mp he).1
      exact ⟨_, List.getElem?_eq_getElem (by omega)⟩
    obtain ⟨_, _, hbe⟩ := hstored hb he
    obtain ⟨y, hy, hyr⟩ := hreceipts b (List.mem_of_getElem? hb)
    obtain ⟨_, rs, hrs, hbr⟩ := hget i b e hb he
    rw [hbe, hx] at hy
    rw [hnone] at hrs
    obtain rfl := Except.ok.inj hrs
    rw [Option.some.inj hy, ← hyr, hbr]
    rfl
  · intro hmissing
    refine ⟨hlinked, ?_⟩
    intro b hb
    obtain ⟨i, hi⟩ := List.mem_iff_getElem?.mp hb
    obtain ⟨e, he⟩ : ∃ e, w.newChain[i]? = some e := by
      have hlt : i < blocks.length := (List.getElem?_eq_some_iff.mp hi).1
      exact ⟨_, List.getElem?_eq_getElem (by omega)⟩
    obtain ⟨x, hx, hbe⟩ := hstored hi he
    obtain ⟨_, rs, hrs, hbr⟩ := hget i b e hi he
    refine ⟨x, by rw [hbe, hx], ?_⟩
    rw [hbr]
    cases rs with
    | none => rw [hmissing i e x he hrs hx]; rfl
    | some r => rw [hP.receiptsByHash _ _ _ hrs x hx]; rfl

/-! ## Stored chains -/

theorem serving_serves {known : List (RpcBlock T R)} {chain : Instant → List (RpcBlock T R)} :
    (Provider.serving known chain).Serves (fun h => known.find? fun b => b.hash = h)
      (fun t n => (chain t).find? fun b => b.number = n) where
  blockByHash := by
    intro t h b hb
    exact Option.map_eq_some_iff.mp (Except.ok.inj hb)
  receiptsByHash := by
    intro t h rs hrs x hx
    obtain ⟨y, hy, hyr⟩ := Option.map_eq_some_iff.mp (Except.ok.inj hrs)
    rw [Option.some.inj (hx.symm.trans hy), hyr]
  blockByNumber := by
    intro t n b hb
    exact Option.map_eq_some_iff.mp (Except.ok.inj hb)
  receiptsByNumber := by
    intro t n rs hrs
    exact (Except.ok.inj hrs).symm

/-- A chain of stored blocks that reaches down to number zero. -/
structure StoredChain (known chain : List (RpcBlock T R)) : Prop where
  stored : ∀ b ∈ chain, known.find? (fun x => x.hash = b.hash) = some b
  below : ∀ b ∈ chain, b.number ≠ 0 →
    (chain.find? fun x => x.number = b.number - 1).any fun x => b.parentHash = x.hash

theorem serving_canonical {known : List (RpcBlock T R)} {chain : Instant → List (RpcBlock T R)}
    (h : ∀ t, StoredChain known (chain t)) :
    CanonicalChains (fun h => known.find? fun b => b.hash = h)
      (fun t n => (chain t).find? fun b => b.number = n) where
  hash := by
    intro h x hx
    simpa using List.find?_some hx
  stored := by
    intro t n x hx
    exact (h t).stored x (List.mem_of_find?_eq_some hx)
  below := by
    intro t n y hy
    have hnum : y.number = n + 1 := by simpa using List.find?_some hy
    have hbelow := (h t).below y (List.mem_of_find?_eq_some hy) (by omega)
    rw [hnum, Nat.add_sub_cancel] at hbelow
    obtain ⟨x, hx, hp⟩ := (Option.any_eq_true _ _).mp hbelow
    exact ⟨x, hx, of_decide_eq_true hp⟩

/-! ## Every emitted segment -/

/--
**When an emitted segment is consistent.** Whatever the state, and however the
host reorgs between the calls of the turn: the segment of the notification is
hash-linked and carries each block's own receipts exactly when no reorg told the
calls of a batch apart and no receipts that exist were answered as missing.
-/
theorem segment_consistent_iff (hc : CanonicalChains store canon) (hP : P.Serves store canon)
    {tn : Turn} {n : HostNotification (RpcChainSegment T R)} {seg : RpcChainSegment T R}
    (hn : (turn P tn s).1 = some (some (.ok n))) (hseg : n.committedChain = some seg) :
    ConsistentSegment store seg ↔ UndisturbedTurn P store canon tn s := by
  have ht := turn_turned P tn s
  rw [hn] at ht
  generalize (turn P tn s).2 = s' at ht
  cases ht with
  | backfilled hd =>
      -- no head is looked at while a batch is pending
      obtain ⟨cursor, tip, blocks, hcur, htip, hlt, hf, hk⟩ : ∃ cursor tip blocks,
          s.backfillFrom = some cursor ∧ P.getBlockNumber tn.timing.blockNumber = .ok tip ∧
          cursor < u64SatAdd tip 1 ∧
          fetchRange P tn.timing cursor (batchEnd s cursor tip) = .ok blocks ∧
          n.kind = .chainCommitted ⟨blocks⟩ := by
        cases hd with
        | empty hcur htip hlt hf => exact ⟨_, _, _, hcur, htip, hlt, hf, rfl⟩
        | batch hcur htip hlt hf _ _ he => exact ⟨_, _, _, hcur, htip, hlt, hf, he.kind_eq⟩
      have hblocks : seg = ⟨blocks⟩ := by
        unfold HostNotification.committedChain at hseg
        rw [hk] at hseg
        exact (Option.some.inj hseg).symm
      rw [hblocks, batch_consistent_iff hc hP hf]
      constructor
      · intro h
        refine ⟨?_, ?_⟩
        · intro c t hcur' htip' _
          obtain rfl := Option.some.inj (hcur.symm.trans hcur')
          obtain rfl := Except.ok.inj (htip.symm.trans htip')
          exact h
        · intro header w hat
          obtain ⟨t, htip', heq⟩ := hat cursor hcur
          obtain rfl := Except.ok.inj (htip.symm.trans htip')
          omega
      · intro h
        exact h.batch cursor tip hcur htip hlt
  | @emitted header _ s₁ _ hd hh hhandled =>
      have hat := hd.atHeads
      obtain rfl := hd.none_eq
      obtain ⟨w, blocks, hw, hf, hk⟩ := hhandled.segment
      rw [walkFromHint_cursor] at hw
      obtain rfl : seg = ⟨blocks⟩ := Option.some.inj (hseg.symm.trans hk)
      rw [heads_consistent_iff hc hP hw hf]
      constructor
      · intro h
        refine ⟨?_, ?_⟩
        · intro c t hcur htip hlt
          obtain ⟨t', htip', heq⟩ := hat c hcur
          obtain rfl := Except.ok.inj (htip.symm.trans htip')
          omega
        · intro header' w' _ hh' hw'
          obtain rfl := Option.some.inj (hh.symm.trans hh')
          obtain rfl := Except.ok.inj (hw.symm.trans hw')
          exact h
      · intro h
        exact h.heads header w hat hh hw

/-- A batch whose calls are all answered at one instant is consistent. -/
theorem segment_consistent_iff_twoBlocks :
    let chain := [bareBlock 10 0 9, bareBlock 11 1 10, bareBlock 12 2 11]
    let P := Provider.serving chain fun _ => chain
    let backfill : Turn := ⟨Timing.constant 0, none⟩
    let seg : RpcChainSegment Unit Unit := ⟨[bareBlock 11 1 10, bareBlock 12 2 11]⟩
    (turn P backfill ((RpcHostNotifier.new 4 8 12 0).setHead 1)).1
        = some (some (.ok ⟨.chainCommitted seg, some 0, some 0⟩))
      ∧ ConsistentSegment (fun h => chain.find? fun b => b.hash = h) seg := by
  intro chain P backfill seg
  have hturn : (turn P backfill ((RpcHostNotifier.new 4 8 12 0).setHead 1)).1
      = some (some (.ok ⟨.chainCommitted seg, some 0, some 0⟩)) := by decide
  have hchain : StoredChain chain chain := ⟨by decide, by decide⟩
  refine ⟨hturn, (segment_consistent_iff (serving_canonical fun _ => hchain) serving_serves
    hturn rfl).mpr ⟨?_, ?_⟩⟩
  · intro cursor tip _ _ _
    exact ⟨fun _ _ => rfl, fun _ _ => rfl⟩
  · intro header w _ hh
    exact absurd hh (by simp [backfill])

/-- A reorg between the two block calls of a batch: the segment takes its first
block from one chain and its second from the other. -/
theorem backfill_mixes_chains :
    let before := [bareBlock 10 0 9, bareBlock 11 1 10, bareBlock 12 2 11]
    let after := [bareBlock 10 0 9, bareBlock 21 1 10, bareBlock 22 2 21]
    let known := before ++ after
    let chain : Instant → List (RpcBlock Unit Unit) := fun t => if t = 0 then before else after
    let store : B256 → Option (RpcBlock Unit Unit) := fun h => known.find? fun b => b.hash = h
    let canon : Instant → Nat → Option (RpcBlock Unit Unit) :=
      fun t n => (chain t).find? fun b => b.number = n
    let P := Provider.serving known chain
    let backfill : Turn := ⟨{ Timing.constant 0 with block := id, receipts := id }, none⟩
    let seg : RpcChainSegment Unit Unit := ⟨[bareBlock 11 1 10, bareBlock 22 2 21]⟩
    CanonicalChains store canon ∧ P.Serves store canon ∧
      (turn P backfill ((RpcHostNotifier.new 4 8 12 0).setHead 1)).1
        = some (some (.ok ⟨.chainCommitted seg, some 0, some 0⟩)) ∧
      ¬ ConsistentSegment store seg := by
  intro before after known chain store canon P backfill seg
  have hchain (t : Instant) : StoredChain known (chain t) := by
    by_cases ht : t = 0
    · rw [show chain t = before from if_pos ht]
      exact ⟨by decide, by decide⟩
    · rw [show chain t = after from if_neg ht]
      exact ⟨by decide, by decide⟩
  refine ⟨serving_canonical hchain, serving_serves, by decide, ?_⟩
  intro h
  have hlink := (List.isChain_cons_cons.mp h.1).1
  exact absurd hlink (by decide)

end NodeComponents.HostRpc
