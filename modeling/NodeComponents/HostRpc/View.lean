import NodeComponents.HostRpc.Outcomes

/-!
# The chain view is a window without gaps

Six places change the view: an advance, a reorg's truncation, eviction, the reset
after an exhausted walk, a backfill batch, and the clearing on a continuity
break. `ViewInv` is what they all keep, on the paths that end in an error too:
the numbers in the view are consecutive, it never exceeds its capacity, its last
entry is the last emitted block, and a pending cursor stands right behind it.

From it follow the three facts the rest of the code takes for granted: the
lookup of `view_hash` lands on the number it was asked for, a revert range is
always valid, and no segment is empty.
-/

namespace NodeComponents.HostRpc

open Lib

variable {T R : Type} {P : Provider T R} {tm : Timing} {s : RpcHostNotifier}

/-! ## Batches -/

/-- The cursor and the batch size of a pending backfill fit in a `u64` together. -/
def CursorFits (_ : Turn) (s : RpcHostNotifier) : Prop :=
  ∀ cursor, s.backfillFrom = some cursor → cursor + s.backfillBatchSize < u64Size

theorem le_tip_of_lt_satAdd {cursor tip : Nat} (h : cursor < u64SatAdd tip 1) : cursor ≤ tip := by
  unfold u64SatAdd at h
  omega

theorem le_effectiveCeiling (s : RpcHostNotifier) {cursor tip : Nat} (h : cursor ≤ tip) :
    cursor ≤ effectiveCeiling s cursor tip := by
  unfold effectiveCeiling
  split <;> omega

/-- A batch that does not overflow ends at or behind its start, at most at the ceiling. -/
theorem batchEnd_eq {cursor : Nat} (tip : Nat) (hb : 1 ≤ s.backfillBatchSize)
    (hfit : cursor + s.backfillBatchSize < u64Size) :
    batchEnd s cursor tip
      = min (effectiveCeiling s cursor tip) (cursor + s.backfillBatchSize - 1) := by
  unfold batchEnd
  rw [u64Add_of_lt hfit, u64Sub_of_le (by omega) hfit]

theorem le_batchEnd {cursor tip : Nat} (hb : 1 ≤ s.backfillBatchSize)
    (hfit : cursor + s.backfillBatchSize < u64Size) (hlt : cursor < u64SatAdd tip 1) :
    cursor ≤ batchEnd s cursor tip := by
  have hceil := le_effectiveCeiling s (le_tip_of_lt_satAdd hlt)
  rw [batchEnd_eq tip hb hfit]
  omega

/-! ## Extending the view -/

/-- The last entry of a list of fetched blocks. -/
theorem viewEntries_getLast? {blocks : List (RpcBlock T R)} :
    (viewEntries blocks).getLast? = blocks.getLast?.map fun b => (b.number, b.hash) := by
  unfold viewEntries
  rw [List.getLast?_map]

theorem viewEntries_consecutive {blocks : List (RpcBlock T R)} :
    Consecutive Prod.fst (viewEntries blocks) ↔ Consecutive RpcBlock.number blocks :=
  consecutive_map

/-- Entries that continue a view keep it a window without gaps, and end up last. -/
theorem extendView_continues {capacity : Nat} {view : List (Nat × B256)}
    (entries : List (Nat × B256)) (hc : 1 ≤ capacity) (hlen : view.length ≤ capacity)
    (hv : Consecutive Prod.fst view)
    (he : Consecutive Prod.fst entries)
    (hlink : ∀ a ∈ view.getLast?, ∀ b ∈ entries.head?, b.1 = a.1 + 1) :
    Consecutive Prod.fst (extendView capacity view entries)
      ∧ (extendView capacity view entries).length ≤ capacity
      ∧ (entries ≠ [] → (extendView capacity view entries).getLast? = entries.getLast?) := by
  refine ⟨?_, Window.pushAll_length_le entries hlen, ?_⟩
  · exact (consecutive_append.mpr ⟨hv, he, hlink⟩).suffix (Window.pushAll_suffix _ _ _)
  · intro hne
    obtain ⟨e, hl⟩ : ∃ e, entries.getLast? = some e := by
      cases hq : entries.getLast? with
      | none => exact absurd (List.getLast?_eq_none_iff.mp hq) hne
      | some e => exact ⟨e, rfl⟩
    rw [extendView, Window.pushAll_getLast? entries hc hlen, List.getLast?_append, hl]
    rfl

/-! ## The invariant -/

/-- The representation invariant of the chain view. -/
structure ViewInv (s : RpcHostNotifier) : Prop where
  /-- The numbers are consecutive and ascending. -/
  consecutive : Consecutive Prod.fst s.chainView
  /-- The ring buffer keeps its bound. -/
  bounded : s.chainView.length ≤ s.bufferCapacity
  /-- The last entry is the last emitted block. -/
  emitted : ∀ e, s.tip = some e → s.lastEmitted = some e
  /-- A pending cursor stands right behind the last entry. -/
  cursor : ∀ e c, s.tip = some e → s.backfillFrom = some c → c = e.1 + 1
  /-- The configuration is one the builder makes. -/
  capacity : 1 ≤ s.bufferCapacity
  batch : 1 ≤ s.backfillBatchSize

/-- The invariant does not look at the cached tags. -/
theorem ViewInv.tags {safe finalized epoch : Option Nat} (h : ViewInv s) :
    ViewInv { s with
      cachedSafe := safe, cachedFinalized := finalized, lastTagEpoch := epoch } :=
  ⟨h.consecutive, h.bounded, h.emitted, h.cursor, h.capacity, h.batch⟩

theorem ViewInv.emit {s' : RpcHostNotifier} {timestamp : Nat}
    {kind : HostNotificationKind (RpcChainSegment T R)}
    {r : Except Fault (HostNotification (RpcChainSegment T R))} (h : ViewInv s)
    (he : Emitted P tm s timestamp kind r s') : ViewInv s' := by
  obtain ⟨safe, finalized, epoch, rfl⟩ := he.frame
  exact h.tags

/-- An empty view satisfies the invariant whatever the cursor is. -/
theorem viewInv_nil {from? : Option Nat} {epoch : Option Nat} (h : ViewInv s) :
    ViewInv { s with chainView := [], backfillFrom := from?, lastTagEpoch := epoch } where
  consecutive := consecutive_nil
  bounded := Nat.zero_le _
  emitted := by intro e he; exact absurd he (by simp [RpcHostNotifier.tip])
  cursor := by intro e c he; exact absurd he (by simp [RpcHostNotifier.tip])
  capacity := h.capacity
  batch := h.batch

theorem viewInv_start {capacity batch slotSeconds genesisTimestamp n : Nat} (hc : 1 ≤ capacity)
    (hb : 1 ≤ batch) :
    ViewInv ((RpcHostNotifier.new capacity batch slotSeconds genesisTimestamp).setHead n) where
  consecutive := consecutive_nil
  bounded := Nat.zero_le _
  emitted := by intro e he; exact absurd he (by simp [RpcHostNotifier.setHead,
    RpcHostNotifier.new, RpcHostNotifier.tip])
  cursor := by intro e c he; exact absurd he (by simp [RpcHostNotifier.setHead,
    RpcHostNotifier.new, RpcHostNotifier.tip])
  capacity := hc
  batch := hb

/-- A batch by number continues the view. -/
theorem viewInv_backfilled (hnum : P.AnswersNumber) (h : ViewInv s) {cursor tip : Nat}
    {blocks : List (RpcBlock T R)} (hc : s.backfillFrom = some cursor)
    (hfit : cursor + s.backfillBatchSize < u64Size) (hlt : cursor < u64SatAdd tip 1)
    (hf : fetchRange P tm cursor (batchEnd s cursor tip) = .ok blocks) :
    ViewInv (s.backfilled (effectiveCeiling s cursor tip) (batchEnd s cursor tip)
      (viewEntries blocks)) := by
  have hle := le_batchEnd h.batch hfit hlt
  have hnumber := fetchRange_number hnum hf
  have hlen := (fetchRange_ok hf).1
  obtain ⟨last, hl⟩ : ∃ last, blocks.getLast? = some last := by
    cases hq : blocks.getLast? with
    | none =>
        rw [List.getLast?_eq_none_iff.mp hq, List.length_nil] at hlen
        omega
    | some last => exact ⟨last, rfl⟩
  have hlastnum : last.number = batchEnd s cursor tip := by
    rw [List.getLast?_eq_getElem?] at hl
    have := hnumber _ last hl
    omega
  have hentries : (viewEntries blocks).getLast? = some (last.number, last.hash) := by
    rw [viewEntries_getLast?, hl, Option.map_some]
  obtain ⟨hcons, hbound, hlast⟩ := extendView_continues (viewEntries blocks)
    h.capacity h.bounded h.consecutive
    (viewEntries_consecutive.mpr (consecutive_of_getElem? hnumber)) (by
      intro a ha b hb
      -- the first block carries the cursor, which stands behind the view
      obtain ⟨first, hfirst, rfl⟩ : ∃ first, blocks[0]? = some first
          ∧ (first.number, first.hash) = b := by
        rw [viewEntries, List.head?_map, List.head?_eq_getElem?] at hb
        exact Option.map_eq_some_iff.mp hb
      have h0 := hnumber 0 first hfirst
      have hcur := h.cursor a cursor ha hc
      dsimp only
      omega)
  have hne : viewEntries blocks ≠ [] := by
    intro hnil
    rw [hnil] at hentries
    exact absurd hentries (by simp)
  refine ⟨hcons, hbound, ?_, ?_, h.capacity, h.batch⟩
  · intro e he
    show (viewEntries blocks).getLast?.orElse _ = some e
    have he' : (viewEntries blocks).getLast? = some e := (hlast hne).symm.trans he
    rw [he']
    rfl
  · intro e c he hcur
    have he' : (viewEntries blocks).getLast? = some e := (hlast hne).symm.trans he
    rw [hentries] at he'
    obtain rfl := Option.some.inj he'
    simp only [RpcHostNotifier.backfilled] at hcur
    split at hcur
    · exact absurd hcur (by simp)
    · rename_i hopen
      -- an unfinished batch ends at its own size, below the ceiling
      have hpos := h.batch
      have heq := batchEnd_eq tip hpos hfit
      have hsucc : u64Add (batchEnd s cursor tip) 1 = batchEnd s cursor tip + 1 :=
        u64Add_of_lt (by omega)
      rw [hsucc] at hcur
      injection hcur with hcur
      omega

/-- **`drain_backfill` keeps the invariant**, however it ends. -/
theorem viewInv_drained (hnum : P.AnswersNumber) (h : ViewInv s) {tn : Turn}
    (hfit : CursorFits tn s) {r : Option (Except Fault (HostNotification (RpcChainSegment T R)))}
    {s' : RpcHostNotifier} (hd : Drained P tm s r s') : ViewInv s' := by
  cases hd with
  | idle _ => exact h
  | failed _ _ => exact h
  | handover _ _ _ =>
      refine ⟨h.consecutive, h.bounded, h.emitted, ?_, h.capacity, h.batch⟩
      intro e c _ hc
      exact absurd hc (by simp)
  | broken _ _ _ _ _ => exact viewInv_nil h
  | empty hc _ hlt hf =>
      exact viewInv_backfilled hnum h hc (hfit _ hc) hlt hf
  | batch hc _ hlt hf _ _ he =>
      exact (viewInv_backfilled hnum h hc (hfit _ hc) hlt hf).emit he

/-- An advance or a reorg replaces the view by one that ends in the new chain. -/
theorem viewInv_climbed (h : ViewInv s) (hidle : s.backfillFrom = none)
    (base : List (Nat × B256)) {newChain : List (Nat × B256)} (hbase : base <+: s.chainView)
    (hn : Consecutive Prod.fst newChain) (hne : newChain ≠ [])
    (hlink : ∀ a ∈ base.getLast?, ∀ b ∈ newChain.head?, b.1 = a.1 + 1) :
    ViewInv { s with
      chainView := extendView s.bufferCapacity base newChain
      lastEmitted := newChain.getLast? } := by
  have hlen : base.length ≤ s.bufferCapacity := Nat.le_trans hbase.length_le h.bounded
  obtain ⟨hcons, hbound, hlast⟩ := extendView_continues newChain h.capacity hlen
    (h.consecutive.initial hbase) hn hlink
  refine ⟨hcons, hbound, ?_, ?_, h.capacity, h.batch⟩
  · intro e he
    exact (hlast hne).symm.trans he
  · intro e c _ hc
    exact absurd (hidle.symm.trans hc) (by simp)

/-! ## Where the walk found its ancestor -/

/-- An ancestor numbered like the tip is the tip. -/
theorem tip_eq_of_number (h : Consecutive Prod.fst s.chainView) {n : Nat} {k : B256}
    (hv : viewHash s.chainView n = some k) (ht : n = (s.tip.map Prod.fst).getD 0) :
    s.tip = some (n, k) := by
  have hmem := (viewHash_eq_some h).mp hv
  obtain ⟨e, he⟩ := exists_tip (List.ne_nil_of_mem hmem)
  rw [he, Option.map_some, Option.getD_some] at ht
  rw [he, h.inj hmem (tip_mem he) ht]

/-- An ancestor not numbered like the tip lies below it. -/
theorem lt_tip_of_number (h : Consecutive Prod.fst s.chainView) {n : Nat} {k : B256}
    (hv : viewHash s.chainView n = some k) (ht : n ≠ (s.tip.map Prod.fst).getD 0) :
    n < (s.tip.map Prod.fst).getD 0 := by
  have hmem := (viewHash_eq_some h).mp hv
  obtain ⟨e, he⟩ := exists_tip (List.ne_nil_of_mem hmem)
  have hle := h.le_last hmem he
  rw [he, Option.map_some, Option.getD_some] at ht ⊢
  exact Nat.lt_of_le_of_ne hle ht

/-- The fork number of a reorg is the successor of its ancestor. -/
theorem fork_eq (hpar : P.ParentOneLower) {t : Instant} {hash : B256} {b : Block T}
    {newChain : List (Nat × B256)} (hb : P.getBlockByHash t hash = .ok (some b))
    (ha : Ascent P hash newChain) (hne : newChain ≠ []) :
    u64Add b.header.number 1 = b.header.number + 1 := by
  cases newChain with
  | nil => exact absurd rfl hne
  | cons e rest =>
      have hsucc := (consecutive_cons_cons.mp (ha.consecutive hpar hb)).1
      have hlt := ha.number_lt e List.mem_cons_self
      exact u64Add_of_lt (by rw [← hsucc]; exact hlt)

/-- **A revert range is always valid**: the walk never asks for one that panics. -/
theorem revertRange_new_of_walked (hpar : P.ParentOneLower)
    (h : Consecutive Prod.fst s.chainView) {forkNumber oldTip : Nat}
    {newChain : List (Nat × B256)} (hw : Walked P s (.reorg forkNumber oldTip newChain)) :
    ∃ old, RevertRange.new forkNumber oldTip = some old ∧ old.first = forkNumber
      ∧ old.tip = oldTip := by
  cases hw with
  | reorg hb hv ht ha hne =>
      have hlt := lt_tip_of_number h hv ht
      rw [fork_eq hpar hb ha hne, RevertRange.new_eq_some (Nat.succ_pos _) hlt]
      exact ⟨_, rfl, rfl, rfl⟩

/-- A walk that reorgs had a view to find its ancestor in. -/
theorem chainView_ne_nil_of_reorg {hint : B256} {forkNumber oldTip : Nat}
    {newChain : List (Nat × B256)}
    (hw : walkFromHint P tm s hint = .ok (.reorg forkNumber oldTip newChain)) :
    s.chainView ≠ [] := by
  intro hnil
  obtain ⟨_, _, _, _, _, hadv⟩ := walkFromHint_nil hnil hw
  exact absurd hadv (by simp)

theorem fetched_ne_nil {newChain : List (Nat × B256)} {blocks : List (RpcBlock T R)}
    (hf : fetchBlocksByHash P tm newChain = .ok blocks) (hne : newChain ≠ []) : blocks ≠ [] := by
  intro hnil
  have hlen := (fetchBlocksByHash_ok hf).1
  rw [hnil, List.length_nil] at hlen
  exact hne (List.length_eq_zero_iff.mp hlen.symm)

/-- What a committed segment of a notification must be. -/
def CommitsSomething (n : HostNotification (RpcChainSegment T R)) : Prop :=
  ∀ seg, n.committedChain = some seg → seg.blocks ≠ []

/-- A returned result that neither panicked on a revert range nor carries an empty segment. -/
def SoundReturn : Returned T R → Prop
  | none => True
  | some (.ok n) => CommitsSomething n
  | some (.error f) => f ≠ .panic "RevertRange"

theorem commitsSomething_of_kind {n : HostNotification (RpcChainSegment T R)}
    {blocks : List (RpcBlock T R)} (hne : blocks ≠ [])
    (hk : n.kind = .chainCommitted ⟨blocks⟩ ∨ ∃ old, n.kind = .chainReorged old ⟨blocks⟩) :
    CommitsSomething n := by
  intro seg hseg
  rcases hk with hk | ⟨old, hk⟩ <;>
  · rw [HostNotification.committedChain_of_kind hk] at hseg
    obtain rfl := Option.some.inj hseg
    exact hne

/-- What an emitting path returns is sound when its segment is not empty. -/
theorem soundReturn_emitted {s' : RpcHostNotifier} {timestamp : Nat}
    {kind : HostNotificationKind (RpcChainSegment T R)} {blocks : List (RpcBlock T R)}
    {r : Except Fault (HostNotification (RpcChainSegment T R))} (hne : blocks ≠ [])
    (hk : kind = .chainCommitted ⟨blocks⟩ ∨ ∃ old, kind = .chainReorged old ⟨blocks⟩)
    (he : Emitted P tm s timestamp kind r s') : SoundReturn (some r) := by
  cases r with
  | ok n =>
      have hkind := he.kind_eq
      exact commitsSomething_of_kind hne (hkind ▸ hk)
  | error f =>
      intro hf
      subst hf
      exact absurd he.panic_eq (by decide)

theorem soundReturn_drained (h : ViewInv s) {tn : Turn} (hfit : CursorFits tn s)
    {r : Except Fault (HostNotification (RpcChainSegment T R))} {s' : RpcHostNotifier}
    (hd : Drained P tm s (some r) s') : SoundReturn (some r) := by
  cases hd with
  | failed e _ => exact fun hf => absurd hf (by simp)
  | broken _ _ _ _ _ => exact fun hf => absurd hf (by simp)
  | empty hc _ hlt hf =>
      have hlen := (fetchRange_ok hf).1
      have hle := le_batchEnd h.batch (hfit _ hc) hlt
      rw [List.length_nil] at hlen
      omega
  | batch _ _ _ _ _ hl he =>
      refine soundReturn_emitted ?_ (Or.inl rfl) he
      intro hnil
      rw [hnil] at hl
      exact absurd hl (by simp)

/-- **`handle_new_head` keeps the invariant** and returns soundly, however it ends. -/
theorem viewInv_handled (hpar : P.ParentOneLower) (h : ViewInv s) (hidle : s.backfillFrom = none)
    {header : RpcHeader} {out : Except Fault (Option (HostNotification (RpcChainSegment T R)))}
    {s' : RpcHostNotifier} (hh : Handled P tm s header out s') :
    ViewInv s' ∧ (∀ n, out = .ok (some n) → CommitsSomething n)
      ∧ (∀ f, out = .error f → f ≠ .panic "RevertRange") := by
  have hout {r : Except Fault (HostNotification (RpcChainSegment T R))}
      (hr : out = r.map some) (hs : SoundReturn (some r)) :
      (∀ n, out = .ok (some n) → CommitsSomething n)
        ∧ (∀ f, out = .error f → f ≠ .panic "RevertRange") := by
    subst hr
    constructor
    · intro n hn
      cases r with
      | ok m =>
          injection hn with hn
          injection hn with hn
          exact hn ▸ hs
      | error f => exact absurd hn (by simp [Except.map])
    · intro f hf
      cases r with
      | ok m => exact absurd hf (by simp [Except.map])
      | error g =>
          injection hf with hf
          exact hf ▸ hs
  cases hh with
  | failed e => exact ⟨h, by simp, by rintro f hf rfl; exact absurd hf (by simp)⟩
  | seen => exact ⟨h, by simp, by simp⟩
  | exhausted _ => exact ⟨viewInv_nil h, by simp, by simp⟩
  | @advance newChain blocks r _ s' hw hf he hr =>
      by_cases hnil : s.chainView = []
      · -- the first head on an empty view
        obtain ⟨b, t, k, _, _, hadv⟩ := walkFromHint_nil hnil hw
        injection hadv with hadv
        have hne : newChain ≠ [] := by rw [hadv]; simp
        have hinv := viewInv_climbed h hidle s.chainView ⟨[], List.append_nil _⟩
          (hadv ▸ consecutive_singleton _) hne (by rw [hnil]; simp)
        exact ⟨hinv.emit he, hout hr (soundReturn_emitted (fetched_ne_nil hf hne) (Or.inl rfl) he)⟩
      · cases walkFromHint_walked hnil hw with
        | @advance t hash b _ hb hv ht ha hne =>
            -- the ancestor is the tip, so the new entries stand right behind the view
            have htip := tip_eq_of_number h.consecutive hv ht
            have hcons := ha.consecutive hpar hb
            have hinv := viewInv_climbed h hidle s.chainView ⟨[], List.append_nil _⟩
              hcons.tail hne (by
                intro a hat c hc
                obtain rfl := Option.some.inj (htip.symm.trans hat)
                exact hcons.rel_head? hc)
            exact ⟨hinv.emit he,
              hout hr (soundReturn_emitted (fetched_ne_nil hf hne) (Or.inl rfl) he)⟩
  | @reorg forkNumber oldTip newChain blocks old r _ s' hw hf _ he hr =>
      cases walkFromHint_walked (chainView_ne_nil_of_reorg hw) hw with
      | @reorg t hash b _ hb hv ht ha hne =>
          -- cut at the fork, the view ends in the ancestor
          have hcons := ha.consecutive hpar hb
          have hcut := h.consecutive.cut_getLast? ((viewHash_eq_some h.consecutive).mp hv)
            (fork_eq hpar hb ha hne)
          have hpre := List.rdropWhile_prefix
            (fun e : Nat × B256 => decide (u64Add b.header.number 1 ≤ e.1)) s.chainView
          have hinv := viewInv_climbed h hidle _ hpre hcons.tail hne (by
            intro a hat c hc
            obtain rfl := Option.some.inj (hcut.symm.trans hat)
            exact hcons.rel_head? hc)
          exact ⟨hinv.emit he,
            hout hr (soundReturn_emitted (fetched_ne_nil hf hne) (Or.inr ⟨old, rfl⟩) he)⟩
  | panicked hw _ ho =>
      -- the ancestor lies below the tip, so the assertion holds
      obtain ⟨_, hnew, _, _⟩ := revertRange_new_of_walked hpar h.consecutive
        (walkFromHint_walked (chainView_ne_nil_of_reorg hw) hw)
      exact absurd (ho.symm.trans hnew) (by simp)

/-- **Every turn keeps the invariant and returns soundly.** -/
theorem viewInv_turn (hnum : P.AnswersNumber) (hpar : P.ParentOneLower) {tn : Turn}
    (h : ViewInv s) (hfit : CursorFits tn s) :
    ViewInv (turn P tn s).2 ∧ ∀ r, (turn P tn s).1 = some r → SoundReturn r := by
  have hafter {s₁ : RpcHostNotifier} (hd : Drained P tn.timing s none s₁) :
      ViewInv s₁ ∧ s₁.backfillFrom = none :=
    ⟨viewInv_drained hnum h hfit hd, by rw [hd.none_eq]⟩
  have ht := turn_turned P tn s
  generalize (turn P tn s).1 = out at ht
  generalize (turn P tn s).2 = s' at ht
  cases ht with
  | backfilled hd =>
      refine ⟨viewInv_drained hnum h hfit hd, ?_⟩
      intro r hr
      obtain rfl := Option.some.inj hr
      exact soundReturn_drained h hfit hd
  | ended hd _ =>
      refine ⟨(hafter hd).1, ?_⟩
      intro r hr
      obtain rfl := Option.some.inj hr
      trivial
  | quiet hd _ hn =>
      exact ⟨(viewInv_handled hpar (hafter hd).1 (hafter hd).2 hn).1, by simp⟩
  | emitted hd _ hn =>
      obtain ⟨hinv, hok, _⟩ := viewInv_handled hpar (hafter hd).1 (hafter hd).2 hn
      refine ⟨hinv, ?_⟩
      intro r hr
      obtain rfl := Option.some.inj hr
      exact hok _ rfl
  | failed hd _ hn =>
      obtain ⟨hinv, _, herr⟩ := viewInv_handled hpar (hafter hd).1 (hafter hd).2 hn
      refine ⟨hinv, ?_⟩
      intro r hr
      obtain rfl := Option.some.inj hr
      exact herr _ rfl

/-! ## Runs -/

/-- The configuration, which no method of the loop changes. -/
def RpcHostNotifier.config (s : RpcHostNotifier) : Nat × Nat × Nat × Nat :=
  (s.bufferCapacity, s.backfillBatchSize, s.slotSeconds, s.genesisTimestamp)

theorem Emitted.config_eq {s' : RpcHostNotifier} {timestamp : Nat}
    {kind : HostNotificationKind (RpcChainSegment T R)}
    {r : Except Fault (HostNotification (RpcChainSegment T R))}
    (he : Emitted P tm s timestamp kind r s') : s'.config = s.config := by
  obtain ⟨_, _, _, rfl⟩ := he.frame
  rfl

theorem Drained.config_eq {r : Option (Except Fault (HostNotification (RpcChainSegment T R)))}
    {s' : RpcHostNotifier} (hd : Drained P tm s r s') : s'.config = s.config := by
  cases hd with
  | batch _ _ _ _ _ _ he => exact he.config_eq
  | _ => rfl

theorem Handled.config_eq {header : RpcHeader}
    {out : Except Fault (Option (HostNotification (RpcChainSegment T R)))} {s' : RpcHostNotifier}
    (hh : Handled P tm s header out s') : s'.config = s.config := by
  cases hh with
  | advance _ _ he _ => exact he.config_eq
  | reorg _ _ _ he _ => exact he.config_eq
  | _ => rfl

theorem turn_config {tn : Turn} : (turn P tn s).2.config = s.config := by
  have ht := turn_turned P tn s
  generalize (turn P tn s).1 = out at ht
  generalize (turn P tn s).2 = s' at ht
  cases ht with
  | backfilled hd => exact hd.config_eq
  | ended hd _ => exact hd.config_eq
  | quiet hd _ hn => exact hn.config_eq.trans hd.config_eq
  | emitted hd _ hn => exact hn.config_eq.trans hd.config_eq
  | failed hd _ hn => exact hn.config_eq.trans hd.config_eq

theorem run_config {C : Turn → RpcHostNotifier → Prop} {s₀ : RpcHostNotifier}
    {rs : List (Returned T R)} (hrun : NotifierRun P C s₀ rs s) : s.config = s₀.config :=
  hrun.invariant (I := fun _ s => s.config = s₀.config) rfl
    fun _ _ _ ih _ => turn_config.trans ih

theorem viewInv_run (hnum : P.AnswersNumber) (hpar : P.ParentOneLower) {s₀ : RpcHostNotifier}
    (h0 : ViewInv s₀) {rs : List (Returned T R)} (hrun : NotifierRun P CursorFits s₀ rs s) :
    ViewInv s ∧ ∀ r ∈ rs, SoundReturn r := by
  refine hrun.invariant (I := fun rs s => ViewInv s ∧ ∀ r ∈ rs, SoundReturn r) ⟨h0, by simp⟩ ?_
  rintro tn rs s ⟨hinv, hsound⟩ hfit
  obtain ⟨hinv', hout⟩ := viewInv_turn hnum hpar hinv hfit
  refine ⟨hinv', ?_⟩
  intro r hr
  rcases List.mem_append.mp hr with hr | hr
  · exact hsound r hr
  · exact hout r (Option.mem_toList.mp hr)

/--
**The representation invariant of the chain view.** After every turn of every run
from `set_head`, whatever failed on the way: the view is numbered without a gap,
keeps its bound, ends in the last emitted block and is continued by a pending
cursor; the assertion of `view_hash` holds at every number; and no result
returned so far is a panic on a revert range or an empty segment.
-/
theorem chainView_represents (hnum : P.AnswersNumber) (hpar : P.ParentOneLower)
    {capacity batch slotSeconds genesisTimestamp n : Nat} (hc : 1 ≤ capacity) (hb : 1 ≤ batch)
    {rs : List (Returned T R)} {s : RpcHostNotifier}
    (hrun : NotifierRun P CursorFits
      ((RpcHostNotifier.new capacity batch slotSeconds genesisTimestamp).setHead n) rs s) :
    Consecutive Prod.fst s.chainView
      ∧ s.chainView.length ≤ capacity
      ∧ (∀ e, s.chainView.getLast? = some e → s.lastEmitted = some e)
      ∧ (∀ e c, s.chainView.getLast? = some e → s.backfillFrom = some c → c = e.1 + 1)
      ∧ (∀ number, viewHashAsserts s.chainView number)
      ∧ ∀ r ∈ rs, SoundReturn r := by
  obtain ⟨h, hsound⟩ := viewInv_run hnum hpar (viewInv_start hc hb) hrun
  have hcap : s.bufferCapacity = capacity := congrArg Prod.fst (run_config hrun)
  exact ⟨h.consecutive, hcap ▸ h.bounded, h.emitted, h.cursor,
    viewHashAsserts_of_consecutive h.consecutive, hsound⟩

/-- A turn that backfills a chain of two blocks. -/
theorem chainView_represents_twoBlocks :
    let P := Provider.serving [bareBlock 11 1 10, bareBlock 12 2 11]
      fun _ => [bareBlock 11 1 10, bareBlock 12 2 11]
    let backfill : Turn := ⟨Timing.constant 0, none⟩
    let s := (runInputs (turn P) [backfill] ((RpcHostNotifier.new 4 8 12 0).setHead 1)).2
    s.chainView = [(1, 11), (2, 12)] ∧ Consecutive Prod.fst s.chainView
      ∧ s.lastEmitted = some (2, 12) := by
  intro P backfill s
  have hP : P.Immutable _ := serving_immutable (fun _ => by decide) (by decide)
  have hfit : CursorFits backfill ((RpcHostNotifier.new 4 8 12 0).setHead 1) := by
    intro cursor hc
    obtain rfl := Option.some.inj hc
    decide
  have hinv := chainView_represents hP.answersNumber hP.parentOneLower (by decide) (by decide)
    (runInputs_run [backfill] _ ⟨hfit, trivial⟩)
  exact ⟨by decide, hinv.1, hinv.2.2.1 (2, 12) (by decide)⟩

end NodeComponents.HostRpc
