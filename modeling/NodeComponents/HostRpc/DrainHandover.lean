import NodeComponents.HostRpc.Delivery
import NodeComponents.HostRpc.ForkPoint

/-!
# From the backfill to the heads

Successive batches tile the numbers from the start cursor on, and each ends at or
below the tip its own call saw. The ceiling is half a buffer below the tip, or the
tip itself once the cursor is past that, so the last batch of a drain ends at most
half a buffer below the tip: a head that is at most the other half above it is in
reach of the walk, whose depth limit is the whole buffer.

The last backfilled block is the tip of the view then, so the walk ends in an
advance, by the fork point.
-/

namespace NodeComponents.HostRpc

open Lib

variable {T R : Type} {P : Provider T R} {tm : Timing} {s s' : RpcHostNotifier}
  {U : B256 → Option RpcHeader}

/-! ## One batch -/

/-- A call of `drain_backfill` that emits a batch of blocks, at a tip. -/
structure Batched (P : Provider T R) (tm : Timing) (s s' : RpcHostNotifier)
    (n : HostNotification (RpcChainSegment T R)) (cursor tip : Nat) (blocks : List (RpcBlock T R)) :
    Prop where
  pending : s.backfillFrom = some cursor
  seen : P.getBlockNumber tm.blockNumber = .ok tip
  le_tip : cursor ≤ tip
  kind : n.kind = .chainCommitted ⟨blocks⟩
  fetched : fetchRange P tm cursor (batchEnd s cursor tip) = .ok blocks
  nonempty : blocks ≠ []
  view : s'.chainView = extendView s.bufferCapacity s.chainView (viewEntries blocks)
  next : s'.backfillFrom
    = if effectiveCeiling s cursor tip ≤ batchEnd s cursor tip then none
      else some (batchEnd s cursor tip + 1)
  config : s'.config = s.config

/-- The cursor that follows a batch does not wrap around. -/
theorem u64Add_batchEnd {cursor tip : Nat} (hb : 1 ≤ s.backfillBatchSize)
    (hfit : cursor + s.backfillBatchSize < u64Size)
    (hmore : ¬ effectiveCeiling s cursor tip ≤ batchEnd s cursor tip) :
    u64Add (batchEnd s cursor tip) 1 = batchEnd s cursor tip + 1 := by
  have hend := batchEnd_eq tip hb hfit
  exact u64Add_of_lt (by omega)

/-- **What a successful call of `drain_backfill` does.** -/
theorem drainBackfill_batched {n : HostNotification (RpcChainSegment T R)}
    (hb : 1 ≤ s.backfillBatchSize)
    (hfit : ∀ cursor, s.backfillFrom = some cursor → cursor + s.backfillBatchSize < u64Size)
    (hok : (drainBackfill P tm s).1 = some (.ok n)) :
    ∃ cursor tip blocks, Batched P tm s (drainBackfill P tm s).2 n cursor tip blocks := by
  have hd := drainBackfill_drained P tm s
  rw [hok] at hd
  generalize (drainBackfill P tm s).2 = s' at hd
  generalize hr : some (Except.ok n) = r at hd
  cases hd with
  | idle _ => simp at hr
  | failed _ _ => simp at hr
  | handover _ _ _ => simp at hr
  | broken _ _ _ _ _ => simp at hr
  | @empty cursor tip hc _ hlt hf =>
      have hle := le_tip_of_lt_satAdd hlt
      exact absurd rfl (fetchRange_ne_nil hb (Nat.le_of_lt (hfit cursor hc)) hle hf)
  | @batch cursor tip blocks last r s' hc ht hlt hf _ hl he =>
      injection hr with hr
      subst hr
      have hkind := he.kind_eq
      have hle := le_tip_of_lt_satAdd hlt
      have hne := fetchRange_ne_nil hb (Nat.le_of_lt (hfit cursor hc)) hle hf
      obtain ⟨_, _, _, rfl⟩ := he.frame
      refine ⟨cursor, tip, blocks, hc, ht, hle, hkind, hf, hne, rfl, ?_, rfl⟩
      show (if effectiveCeiling s cursor tip ≤ batchEnd s cursor tip then none
        else some (u64Add (batchEnd s cursor tip) 1)) = _
      split
      · rfl
      · rename_i hmore
        rw [u64Add_batchEnd hb (hfit cursor hc) hmore]

variable {n : HostNotification (RpcChainSegment T R)} {cursor tip : Nat}
  {blocks : List (RpcBlock T R)}

theorem Batched.length (h : Batched P tm s s' n cursor tip blocks) :
    cursor + blocks.length = batchEnd s cursor tip + 1 := by
  have hlen := (fetchRange_ok h.fetched).1
  have hpos := List.length_pos_iff.mpr h.nonempty
  omega

/-- The blocks of a batch are numbered from the cursor on. -/
theorem Batched.numbers (hnum : P.AnswersNumber) (h : Batched P tm s s' n cursor tip blocks) :
    blocks.map RpcBlock.number = List.range' cursor blocks.length := by
  refine List.ext_getElem (by simp) fun i hi _ => ?_
  rw [List.length_map] at hi
  rw [List.getElem_map, List.getElem_range', Nat.one_mul]
  exact fetchRange_number hnum h.fetched i _ (List.getElem?_eq_getElem hi)

/-- A batch is as long as the batch size at most. -/
theorem Batched.length_le (hb : 1 ≤ s.backfillBatchSize)
    (hfit : cursor + s.backfillBatchSize < u64Size)
    (h : Batched P tm s s' n cursor tip blocks) : blocks.length ≤ s.backfillBatchSize := by
  have hlen := h.length
  have hend := batchEnd_eq tip hb hfit
  omega

theorem effectiveCeiling_le_tip : effectiveCeiling s cursor tip ≤ tip := by
  unfold effectiveCeiling
  split <;> omega

/-- No batch ends above the tip its call saw. -/
theorem Batched.end_le (h : Batched P tm s s' n cursor tip blocks) :
    cursor + blocks.length ≤ tip + 1 := by
  have hlen := h.length
  have hend : batchEnd s cursor tip ≤ effectiveCeiling s cursor tip := Nat.min_le_left _ _
  have hceil : effectiveCeiling s cursor tip ≤ tip := effectiveCeiling_le_tip
  omega

/-- **The last batch ends at most half a buffer below the tip.** -/
theorem Batched.end_of_none (h : Batched P tm s s' n cursor tip blocks)
    (hdone : s'.backfillFrom = none) : tip < cursor + blocks.length + s.bufferCapacity / 2 := by
  have hlen := h.length
  have hceil : effectiveCeiling s cursor tip ≤ batchEnd s cursor tip := by
    refine Nat.le_of_not_lt fun hlt => ?_
    have hnext := h.next
    rw [if_neg (by omega), hdone] at hnext
    simp at hnext
  unfold effectiveCeiling at hceil
  split at hceil <;> omega

/-! ## Successive batches -/

/-- The blocks of what was returned, one batch after another. -/
def emittedBlocks (rs : List (Except Fault (HostNotification (RpcChainSegment T R)))) :
    List (RpcBlock T R) :=
  rs.flatMap fun r => match r with
    | .ok n => (n.committedChain.map RpcChainSegment.blocks).getD []
    | .error _ => []

/-- The call emits a batch, and its end does not wrap around. -/
def EmitsBatch (P : Provider T R) (_ : List Timing) (tm : Timing) (s : RpcHostNotifier) : Prop :=
  (∃ n, (drainBackfill P tm s).1 = some (.ok n)) ∧
    ∀ cursor, s.backfillFrom = some cursor → cursor + s.backfillBatchSize < u64Size

/-- What successive batches keep, from an empty view and the cursor `first` on. -/
structure Tiled (P : Provider T R) (s₀ : RpcHostNotifier) (first : Nat) (tms : List Timing)
    (rs : List (Except Fault (HostNotification (RpcChainSegment T R)))) (s : RpcHostNotifier) :
    Prop where
  config : s.config = s₀.config
  view : s.chainView = extendView s₀.bufferCapacity [] (viewEntries (emittedBlocks rs))
  /-- The batches tile the numbers from the first cursor on. -/
  numbers : (emittedBlocks rs).map RpcBlock.number
    = List.range' first (emittedBlocks rs).length
  pending : ∀ cursor, s.backfillFrom = some cursor → cursor = first + (emittedBlocks rs).length
  answered : ∀ b ∈ emittedBlocks rs, ∃ t,
    P.getBlockByNumber t (.number b.number) = .ok (some b.block)
  calls : tms.length ≤ (emittedBlocks rs).length

theorem emittedBlocks_concat
    (rs : List (Except Fault (HostNotification (RpcChainSegment T R))))
    (hkind : n.kind = .chainCommitted ⟨blocks⟩) :
    emittedBlocks (rs ++ [.ok n]) = emittedBlocks rs ++ blocks := by
  unfold emittedBlocks
  rw [List.flatMap_append, List.flatMap_singleton]
  dsimp only
  rw [HostNotification.committedChain_of_kind hkind]
  rfl

theorem Batched.blocks_answered (hnum : P.AnswersNumber)
    (h : Batched P tm s s' n cursor tip blocks) :
    ∀ b ∈ blocks, ∃ t, P.getBlockByNumber t (.number b.number) = .ok (some b.block) := by
  intro b hb
  obtain ⟨i, hi⟩ := List.mem_iff_getElem?.mp hb
  obtain ⟨hget, _⟩ := (fetchRange_ok h.fetched).2 i b hi
  rw [← fetchRange_number hnum h.fetched i b hi] at hget
  exact ⟨_, hget⟩

variable {s₀ : RpcHostNotifier} {first : Nat} {tms : List Timing}
  {rs : List (Except Fault (HostNotification (RpcChainSegment T R)))}

theorem Tiled.capacity (h : Tiled P s₀ first tms rs s) :
    s.bufferCapacity = s₀.bufferCapacity := congrArg Prod.fst h.config

theorem Tiled.batchSize (h : Tiled P s₀ first tms rs s) :
    s.backfillBatchSize = s₀.backfillBatchSize := congrArg (fun c => c.2.1) h.config

/-- **A batch goes on where the batches before it ended.** -/
theorem Tiled.next (hnum : P.AnswersNumber) (hb : 1 ≤ s₀.backfillBatchSize)
    (h : Tiled P s₀ first tms rs s)
    (hfit : ∀ cursor, s.backfillFrom = some cursor → cursor + s.backfillBatchSize < u64Size)
    (hbatch : Batched P tm s s' n cursor tip blocks) :
    Tiled P s₀ first (tms ++ [tm]) (rs ++ [.ok n]) s' := by
  have hcursor := h.pending cursor hbatch.pending
  have hlen := hbatch.length
  have hpos := List.length_pos_iff.mpr hbatch.nonempty
  have hcap := h.capacity
  have hsize := h.batchSize
  have hend := batchEnd_eq tip (by omega) (hfit cursor hbatch.pending)
  have hmore := emittedBlocks_concat rs hbatch.kind
  refine ⟨hbatch.config.trans h.config, ?_, ?_, ?_, ?_, ?_⟩
  · rw [hmore, hbatch.view, h.view, hcap]
    unfold extendView Window.pushAll viewEntries
    rw [List.map_append, List.foldl_append]
  · rw [hmore, List.map_append, h.numbers, hbatch.numbers hnum, hcursor, List.range'_append_1,
      List.length_append]
  · intro next hnext
    rw [hbatch.next] at hnext
    rw [hmore, List.length_append]
    split at hnext
    · exact absurd hnext (by simp)
    · injection hnext with hnext
      omega
  · rw [hmore]
    intro b hmem
    rcases List.mem_append.mp hmem with hold | hnew
    · exact h.answered b hold
    · exact hbatch.blocks_answered hnum b hnew
  · have hcalls := h.calls
    rw [hmore, List.length_append, List.length_append, List.length_singleton]
    omega

/-- **Every run of successful calls tiles.** -/
theorem tiled_run (hnum : P.AnswersNumber) (hb : 1 ≤ s₀.backfillBatchSize)
    (hview : s₀.chainView = []) (hfrom : s₀.backfillFrom = some first)
    (hok : AlongInputs (drainBackfill P) (EmitsBatch P) s₀ tms) :
    Tiled P s₀ first tms (runInputs (drainBackfill P) tms s₀).1
      (runInputs (drainBackfill P) tms s₀).2 := by
  refine hok.invariant (I := Tiled P s₀ first) ⟨rfl, hview, rfl, ?_, by simp [emittedBlocks],
    Nat.le_refl 0⟩ ?_
  · intro cursor hc
    exact (Option.some.inj (hfrom.symm.trans hc)).symm
  · intro tms tm rs s h hemits _
    obtain ⟨⟨n, hn⟩, hfit⟩ := hemits
    have hsize := h.batchSize
    obtain ⟨cursor, tip, blocks, hbatch⟩ := drainBackfill_batched (by omega) hfit hn
    rw [hn]
    exact h.next hnum hb hfit hbatch

/-- A call of a run of successful calls. -/
theorem batched_of_split (hnum : P.AnswersNumber) (hb : 1 ≤ s₀.backfillBatchSize)
    (hview : s₀.chainView = []) (hfrom : s₀.backfillFrom = some first)
    (hok : AlongInputs (drainBackfill P) (EmitsBatch P) s₀ tms) {before after : List Timing}
    (hsplit : tms = before ++ tm :: after) :
    ∃ n cursor tip blocks,
      (drainBackfill P tm (runInputs (drainBackfill P) before s₀).2).1 = some (.ok n) ∧
      Batched P tm (runInputs (drainBackfill P) before s₀).2
        (drainBackfill P tm (runInputs (drainBackfill P) before s₀).2).2 n cursor tip blocks ∧
      cursor = first + (emittedBlocks (runInputs (drainBackfill P) before s₀).1).length ∧
      blocks.length ≤ s₀.backfillBatchSize := by
  obtain ⟨⟨n, hn⟩, hfit⟩ := hok before tm after hsplit
  subst hsplit
  have h := tiled_run hnum hb hview hfrom hok.initial
  have hsize := h.batchSize
  obtain ⟨cursor, tip, blocks, hbatch⟩ := drainBackfill_batched (by omega) hfit hn
  have hle := hbatch.length_le (by omega) (hfit cursor hbatch.pending)
  exact ⟨n, cursor, tip, blocks, hn, hbatch, h.pending cursor hbatch.pending, by omega⟩

/-! ## The head after the last batch -/

/-- The blocks emitted so far, as entries, are numbered without a gap. -/
theorem Tiled.entries_consecutive (h : Tiled P s₀ first tms rs s) :
    Consecutive Prod.fst (viewEntries (emittedBlocks rs)) := by
  refine viewEntries_consecutive.mpr (consecutive_of_getElem? (n := first) fun i b hb => ?_)
  have hnum := congrArg (fun l => l[i]?) h.numbers
  have hlt := (List.getElem?_eq_some_iff.mp hb).1
  simp only [List.getElem?_map, hb, Option.map_some, List.getElem?_range' hlt, Nat.one_mul] at hnum
  exact Option.some.inj hnum

/-- **The view that batches leave** is one of headers, and ends in the last block emitted. -/
theorem Tiled.headerView (hU : P.Immutable U) (h : Tiled P s₀ first tms rs s) :
    HeaderView U s.chainView := by
  have hsuffix : s.chainView <:+ viewEntries (emittedBlocks rs) := by
    rw [h.view]
    exact Window.pushAll_suffix s₀.bufferCapacity [] _
  refine ⟨h.entries_consecutive.suffix hsuffix, fun e he => ?_⟩
  obtain ⟨b, hb, rfl⟩ := List.mem_map.mp (hsuffix.subset he)
  obtain ⟨t, ht⟩ := h.answered b hb
  exact ⟨b.block.header, hU.byNumber t _ b.block ht, rfl⟩

theorem Tiled.tip_eq (h : Tiled P s₀ first tms rs s) (hc : 1 ≤ s₀.bufferCapacity)
    {last : RpcBlock T R} (hlast : (emittedBlocks rs).getLast? = some last) :
    s.tip = some (last.number, last.hash) := by
  unfold RpcHostNotifier.tip
  rw [h.view, extendView, Window.pushAll_getLast? _ hc (Nat.zero_le _), List.nil_append,
    viewEntries_getLast?, hlast]
  rfl

/-- The number of the last block emitted. -/
theorem Tiled.last_number (h : Tiled P s₀ first tms rs s) {last : RpcBlock T R}
    (hlast : (emittedBlocks rs).getLast? = some last) :
    last.number + 1 = first + (emittedBlocks rs).length := by
  rw [List.getLast?_eq_getElem?] at hlast
  have hnum := congrArg (fun l => l[(emittedBlocks rs).length - 1]?) h.numbers
  have hlt := (List.getElem?_eq_some_iff.mp hlast).1
  simp only [List.getElem?_map, hlast, Option.map_some, List.getElem?_range' hlt,
    Nat.one_mul] at hnum
  have := Option.some.inj hnum
  omega

/-- The blocks above an ancestor are numbered from behind it on. -/
theorem above_numbers (hU : P.Immutable U) {h : B256} {x : RpcHeader} (hx : U h = some x) {d : Nat}
    {e : Nat × B256} (he : ancestor U h d = some e) :
    (above U h d).map Prod.fst = List.range' (e.1 + 1) d := by
  induction d generalizing h x with
  | zero => rfl
  | succ d ih =>
      have hnum := ancestor_number hU.parent hx he
      obtain ⟨y, hy⟩ : ∃ y, U x.parentHash = some y := by
        rw [ancestor_succ hx] at he
        cases hq : U x.parentHash with
        | none => cases d <;> simp [ancestor, hq] at he
        | some y => exact ⟨y, rfl⟩
      have hbelow := ih hy (by rw [← ancestor_succ hx]; exact he)
      rw [above_succ hx, List.map_append, hbelow, List.map_singleton, List.range'_1_concat]
      congr 2
      dsimp only
      omega

/-- **A head above the tip of the view**, in reach of the walk, is an advance. -/
theorem walkFromHint_advance (hU : P.Immutable U) (hview : HeaderView U s.chainView)
    {e : Nat × B256} (htip : s.tip = some e) {header : RpcHeader} {d : Nat}
    (hx : U header.hash = some header) (hanc : ancestor U header.hash d = some e) (hpos : 1 ≤ d)
    (hd : d ≤ s.bufferCapacity) (hserve : ServesWalk P tm.walk U s 0 header.hash) :
    walkFromHint P tm s header.hash = .ok (.advance (above U header.hash d)) := by
  have hnum := ancestor_number hU.parent hx hanc
  have hfirst : FirstSeen U s.chainView header.hash d e := by
    refine ⟨hanc, tip_mem htip, fun i hi a ha hmem => ?_⟩
    have hai := ancestor_number hU.parent hx ha
    have hle := hview.consecutive.le_last hmem htip
    omega
  have hne : above U header.hash d ≠ [] :=
    List.ne_nil_of_length_pos (by rw [above_length hanc]; exact hpos)
  have hwalk := walkChain_found hU hview (fun _ => hserve) hfirst hd
  rw [foundAt_eq hview (tip_mem htip) htip hne, if_pos rfl] at hwalk
  unfold walkFromHint
  rw [hwalk]

/-- **An advance is delivered** when its blocks are fetched and the tags refreshed. -/
theorem turn_advance (hU : P.Immutable U) (hidle : s.backfillFrom = none)
    (hne : s.chainView ≠ []) {header : RpcHeader} {newChain : List (Nat × B256)}
    (hw : walkFromHint P tm s header.hash = .ok (.advance newChain))
    (hf : fetchBlocksByHash P tm newChain = .ok blocks)
    (htags : TagsRefresh P tm s header.timestamp) :
    ∃ n, (turn P ⟨tm, some header⟩ s).1 = some (some (.ok n))
      ∧ n.kind = .chainCommitted ⟨blocks⟩ ∧ viewEntries blocks = newChain := by
  have hentries : viewEntries blocks = newChain := by
    cases walkFromHint_walked hne hw with
    | advance _ _ _ ha _ =>
        exact (ha.fetched hU.hash hU.byHash (fetchBlocksByHash_forall₂ hf)).1
  have hemitted : Emitted P tm (s.advanced newChain) header.timestamp (.chainCommitted ⟨blocks⟩)
      _ _ := refreshAndNotify_emitted
  obtain ⟨n, hn, hkind⟩ := hemitted.ok_of_tagsRefresh htags rfl rfl rfl
  refine ⟨n, ?_, hkind, hentries⟩
  unfold turn drainBackfill
  rw [hidle]
  dsimp only
  unfold handleNewHead
  rw [hw]
  dsimp only
  rw [hf]
  dsimp only
  rw [hn]
  rfl

/-- A run of successful calls is no longer than the range to the highest tip. -/
theorem calls_le_of_tip (hnum : P.AnswersNumber) (hb : 1 ≤ s₀.backfillBatchSize)
    (hview : s₀.chainView = []) (hfrom : s₀.backfillFrom = some first)
    (hok : AlongInputs (drainBackfill P) (EmitsBatch P) s₀ tms) {bound : Nat}
    (hbound : ∀ t tip, P.getBlockNumber t = .ok tip → tip ≤ bound) :
    tms.length ≤ bound + 1 - first := by
  rcases List.eq_nil_or_concat tms with hnil | ⟨before, tm, hcat⟩
  · rw [hnil]
    exact Nat.zero_le _
  · -- the last batch ends at or below the bound, and every call has emitted a block
    rw [List.concat_eq_append] at hcat
    obtain ⟨n, cursor, tip, blocks, hn, hbatch, hcursor, _⟩ :=
      batched_of_split hnum hb hview hfrom hok hcat
    have hcalls := (tiled_run hnum hb hview hfrom hok).calls
    have hend := hbatch.end_le
    have htip := hbound _ _ hbatch.seen
    rw [hcat, runInputs_concat, hn, Option.toList_some, emittedBlocks_concat _ hbatch.kind,
      List.length_append, List.length_append] at hcalls
    rw [hcat, List.length_append]
    omega

/-- **Where the last batch ends**: at a block from the tip down to half a buffer below it. -/
theorem last_in_reach (hnum : P.AnswersNumber) (hb : 1 ≤ s₀.backfillBatchSize)
    (hview : s₀.chainView = []) (hfrom : s₀.backfillFrom = some first)
    (hok : AlongInputs (drainBackfill P) (EmitsBatch P) s₀ tms) {before : List Timing} {T₀ : Nat}
    (htms : tms = before ++ [tm]) (hT : P.getBlockNumber tm.blockNumber = .ok T₀)
    (hdone : (runInputs (drainBackfill P) tms s₀).2.backfillFrom = none) :
    ∃ last, (emittedBlocks (runInputs (drainBackfill P) tms s₀).1).getLast? = some last ∧
      last.number ≤ T₀ ∧ T₀ ≤ last.number + s₀.bufferCapacity / 2 := by
  obtain ⟨n, cursor, tip, blocks, hn, hbatch, hcursor, _⟩ :=
    batched_of_split hnum hb hview hfrom hok htms
  obtain rfl : tip = T₀ := Except.ok.inj (hbatch.seen.symm.trans hT)
  have hend := hbatch.end_le
  have hrun : runInputs (drainBackfill P) (before ++ [tm]) s₀ = _ :=
    runInputs_concat before tm s₀
  have hlow := hbatch.end_of_none (by rw [← hdone, htms, hrun])
  have hcap : (runInputs (drainBackfill P) before s₀).2.bufferCapacity = s₀.bufferCapacity := by
    have hinitial : AlongInputs (drainBackfill P) (EmitsBatch P) s₀ before := by
      rw [htms] at hok
      exact hok.initial
    exact (tiled_run hnum hb hview hfrom hinitial).capacity
  have hemitted : emittedBlocks (runInputs (drainBackfill P) tms s₀).1
      = emittedBlocks (runInputs (drainBackfill P) before s₀).1 ++ blocks := by
    rw [htms, hrun, hn, Option.toList_some, emittedBlocks_concat _ hbatch.kind]
  have hpos := List.length_pos_iff.mpr hbatch.nonempty
  obtain ⟨last, hlast⟩ : ∃ last,
      (emittedBlocks (runInputs (drainBackfill P) tms s₀).1).getLast? = some last := by
    refine ⟨_, List.getLast?_eq_some_getLast (List.ne_nil_of_length_pos ?_)⟩
    rw [hemitted, List.length_append]
    omega
  have hnumber := (tiled_run hnum hb hview hfrom hok).last_number hlast
  rw [hemitted, List.length_append] at hnumber
  exact ⟨last, hlast, by omega, by omega⟩

/-- **The backfill tiles the numbers from its cursor on, and hands over in reach of the walk.** -/
theorem backfill_handover (hnum : P.AnswersNumber) (hc : 1 ≤ s₀.bufferCapacity)
    (hb : 1 ≤ s₀.backfillBatchSize) (hview : s₀.chainView = [])
    (hfrom : s₀.backfillFrom = some first)
    (hok : AlongInputs (drainBackfill P) (EmitsBatch P) s₀ tms) :
    (∀ before tm after, tms = before ++ tm :: after → ∃ n tip blocks,
        (drainBackfill P tm (runInputs (drainBackfill P) before s₀).2).1 = some (.ok n)
          ∧ n.kind = .chainCommitted ⟨blocks⟩
          ∧ P.getBlockNumber tm.blockNumber = .ok tip
          ∧ blocks ≠ [] ∧ blocks.length ≤ s₀.backfillBatchSize
          ∧ blocks.map RpcBlock.number = List.range'
              (first + (emittedBlocks (runInputs (drainBackfill P) before s₀).1).length)
              blocks.length
          ∧ ∀ b ∈ blocks, b.number ≤ tip)
      ∧ (∀ bound, (∀ t tip, P.getBlockNumber t = .ok tip → tip ≤ bound) →
          tms.length ≤ bound + 1 - first)
      ∧ ∀ (U : B256 → Option RpcHeader) (before : List Timing) (tm : Timing) (T₀ : Nat),
          P.Immutable U → tms = before ++ [tm] → P.getBlockNumber tm.blockNumber = .ok T₀ →
          (runInputs (drainBackfill P) tms s₀).2.backfillFrom = none →
          ∃ last, (emittedBlocks (runInputs (drainBackfill P) tms s₀).1).getLast? = some last ∧
            ∀ (tm' : Timing) (header : RpcHeader), U header.hash = some header →
              T₀ < header.number →
              header.number ≤ T₀ + (s₀.bufferCapacity - s₀.bufferCapacity / 2) →
              ancestor U header.hash (header.number - last.number)
                = some (last.number, last.hash) →
              ServesWalk P tm'.walk U (runInputs (drainBackfill P) tms s₀).2 0 header.hash →
              walkFromHint P tm' (runInputs (drainBackfill P) tms s₀).2 header.hash
                  = .ok (.advance (above U header.hash (header.number - last.number)))
                ∧ (above U header.hash (header.number - last.number)).map Prod.fst
                  = List.range' (last.number + 1) (header.number - last.number)
                ∧ ∀ blocks,
                  fetchBlocksByHash P tm' (above U header.hash (header.number - last.number))
                    = .ok blocks →
                  TagsRefresh P tm' (runInputs (drainBackfill P) tms s₀).2 header.timestamp →
                  ∃ n, (turn P ⟨tm', some header⟩ (runInputs (drainBackfill P) tms s₀).2).1
                      = some (some (.ok n))
                    ∧ n.kind = .chainCommitted ⟨blocks⟩
                    ∧ viewEntries blocks
                      = above U header.hash (header.number - last.number) := by
  refine ⟨?_, ?_, ?_⟩
  · intro before tm after hsplit
    obtain ⟨n, cursor, tip, blocks, hn, hbatch, hcursor, hsize⟩ :=
      batched_of_split hnum hb hview hfrom hok hsplit
    refine ⟨n, tip, blocks, hn, hbatch.kind, hbatch.seen, hbatch.nonempty, hsize, ?_, ?_⟩
    · rw [← hcursor]
      exact hbatch.numbers hnum
    · intro b hmem
      have hin : b.number ∈ List.range' cursor blocks.length := by
        rw [← hbatch.numbers hnum]
        exact List.mem_map_of_mem hmem
      have hend := hbatch.end_le
      rw [List.mem_range'_1] at hin
      omega
  · exact fun bound hbound => calls_le_of_tip hnum hb hview hfrom hok hbound
  · intro U before tm T₀ hU htms hT hdone
    have htiled := tiled_run hnum hb hview hfrom hok
    obtain ⟨last, hlast, hbelow, hreach⟩ := last_in_reach hnum hb hview hfrom hok htms hT hdone
    refine ⟨last, hlast, fun tm' header hx hlt hle hanc hserve => ?_⟩
    have htip := htiled.tip_eq hc hlast
    have hwalk := walkFromHint_advance hU (htiled.headerView hU) htip hx hanc (by omega)
      (by rw [htiled.capacity]; omega) hserve
    refine ⟨hwalk, above_numbers hU hx hanc, fun fetched hf htags => ?_⟩
    exact turn_advance hU hdone (List.ne_nil_of_mem (tip_mem htip)) hwalk hf htags

/-- A buffer of two: the backfill stops one below its tip, and the head above the tip brings
two blocks. -/
theorem backfill_handover_twoBelow :
    let P := Provider.reorging [bareBlock 11 1 10, bareBlock 12 2 11, bareBlock 13 3 12]
      [bareBlock 11 1 10, bareBlock 12 2 11]
      [bareBlock 11 1 10, bareBlock 12 2 11, bareBlock 13 3 12]
    let s := (runInputs (drainBackfill P) [Timing.constant 0]
      ((RpcHostNotifier.new 2 8 12 0).setHead 1)).2
    ∃ n, (turn P ⟨Timing.constant 1, some (bareBlock 13 3 12).block.header⟩ s).1
        = some (some (.ok n))
      ∧ n.kind = .chainCommitted ⟨[bareBlock 12 2 11, bareBlock 13 3 12]⟩ := by
  intro P s
  have hU : P.Immutable _ := reorging_immutable (by decide) (by decide) (by decide)
  have hok : AlongInputs (drainBackfill P) (EmitsBatch P) ((RpcHostNotifier.new 2 8 12 0).setHead 1)
      ([] ++ [Timing.constant 0]) := by
    refine alongInputs_concat.mpr ⟨alongInputs_nil,
      ⟨⟨.chainCommitted ⟨[bareBlock 11 1 10]⟩, some 1, some 1⟩, by decide⟩, ?_⟩
    intro cursor hc
    obtain rfl := Option.some.inj hc
    decide
  obtain ⟨_, _, hhead⟩ := backfill_handover hU.answersNumber (by decide) (by decide) rfl rfl hok
  obtain ⟨last, hlast, hhead⟩ := hhead _ [] (Timing.constant 0) 2 hU rfl rfl rfl
  obtain rfl : bareBlock 11 1 10 = last := Option.some.inj hlast
  have hserve : ServesWalk P (Timing.constant 1).walk (fun h =>
      ([bareBlock 11 1 10, bareBlock 12 2 11, bareBlock 13 3 12].find? fun b => b.hash = h).map
        fun b => b.block.header) s 0 13 := by
    intro d hd _
    match d, hd with
    | 0, _ => exact ⟨(3, 13), (bareBlock 13 3 12).block, by decide, rfl⟩
    | 1, _ => exact ⟨(2, 12), (bareBlock 12 2 11).block, by decide, rfl⟩
    | 2, _ => exact ⟨(1, 11), (bareBlock 11 1 10).block, by decide, rfl⟩
    | d + 3, hd => exact absurd hd (by
        show ¬ 0 + (d + 3) ≤ 2
        omega)
  obtain ⟨_, _, hturn⟩ := hhead (Timing.constant 1) (bareBlock 13 3 12).block.header
    (by decide) (by decide) (by decide) (by decide) hserve
  obtain ⟨n, hn, hkind, _⟩ := hturn [bareBlock 12 2 11, bareBlock 13 3 12] rfl
    ⟨0, by decide, Or.inr ⟨_, _, rfl, rfl⟩⟩
  exact ⟨n, hn, hkind⟩

end NodeComponents.HostRpc
