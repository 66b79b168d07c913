import NodeComponents.HostRpc.ForkPoint
import NodeComponents.Node.Finality
import NodeComponents.Node.System

/-!
# Finalized is final

`FedNode` is the node, one effect at a time, and the RPC notifier its loop waits for.
That no revert reaches below what the host reported as finalized is no check of either:
it follows from how the notifier walks. The delivered stack goes through the final
blocks, for its top does; a reorg replaces a block of the stack by another one at the
same number; two blocks at a final number would both be the final one, so the fork is
above.

What is asked of the host is that the block emitted last in a turn meets the final
blocks reported so far (`FinalTurn`). The rest is `finalized_is_final`: what a client
reads in both tiers up to the finalized tag it reads at every later time.
-/

namespace NodeComponents.Node

open HostRpc Lib Rpc

variable {T R Tx G S : Type} {P : Provider T R} {U : B256 → Option HostRpc.RpcHeader}
  {final : Nat → Option B256} {X : Externals (RpcChainSegment T R) (RpcBlock T R) Tx G S}
  {genesis : ExecutedBlock Tx G S} {n : RpcHostNotifier} {tm : Timing}

/-! ## What a reorg replaces -/

/-- Nothing is collected where nothing new was found. -/
theorem unseen_of_nothing_new {view : List (Nat × B256)} {r : WalkResult} (h : r.newChain = []) :
    ∀ e ∈ r.newChain, viewHash view e.1 ≠ some e.2 := by
  rw [h]
  exact fun e he => absurd he List.not_mem_nil

/-- A walk only collects what it did not find in the view. -/
theorem walkLoop_unseen {walk : Nat → Instant} :
    ∀ (fuel : Nat) (currentHash : B256) (walked : List (Nat × B256)) {r : WalkResult},
      (∀ e ∈ walked, viewHash n.chainView e.1 ≠ some e.2) →
      walkLoop P walk n fuel currentHash walked = .ok r →
      ∀ e ∈ r.newChain, viewHash n.chainView e.1 ≠ some e.2
  | 0, _, _, r, _, h => by
      obtain rfl := Except.ok.inj h
      exact unseen_of_nothing_new rfl
  | fuel + 1, currentHash, walked, r, hwalked, h => by
      rw [walkLoop] at h
      split at h
      · cases h
      · cases h
      · rename_i b hb
        dsimp only at h
        split at h
        · split at h
          · obtain rfl := Except.ok.inj h
            exact unseen_of_nothing_new rfl
          · split at h <;> obtain rfl := Except.ok.inj h <;> exact hwalked
        · rename_i hunseen
          have hmore : ∀ e ∈ (b.header.number, currentHash) :: walked,
              viewHash n.chainView e.1 ≠ some e.2 := by
            intro e he
            rcases List.mem_cons.mp he with rfl | he
            · exact hunseen
            · exact hwalked e he
          split at h
          · obtain rfl := Except.ok.inj h
            exact hmore
          · split at h
            · obtain rfl := Except.ok.inj h
              exact unseen_of_nothing_new rfl
            · split at h
              · obtain rfl := Except.ok.inj h
                exact unseen_of_nothing_new rfl
              · exact walkLoop_unseen fuel _ _ hmore h

theorem walkFromHint_unseen {hint : B256} {r : WalkResult}
    (h : walkFromHint P tm n hint = .ok r) :
    ∀ e ∈ r.newChain, viewHash n.chainView e.1 ≠ some e.2 := by
  have hchain {walk : Nat → Instant} {k : B256} (hk : walkChain P walk n k = .ok r) :
      ∀ e ∈ r.newChain, viewHash n.chainView e.1 ≠ some e.2 := by
    unfold walkChain at hk
    split at hk
    · obtain rfl := Except.ok.inj hk
      exact unseen_of_nothing_new rfl
    · exact walkLoop_unseen _ _ _ (by simp) hk
  rcases walkFromHint_ok h with h | ⟨_, _, _, _, h⟩ <;> exact hchain h

/-- **A reorg replaces the block at its fork** by another one: the view has a block there, and
the new chain starts with one of that number and another hash. -/
theorem reorg_replaces (hpar : P.ParentOneLower) (hview : Consecutive Prod.fst n.chainView)
    {hint : B256} {fork oldTip : Nat} {newChain : List (Nat × B256)}
    (h : walkFromHint P tm n hint = .ok (.reorg fork oldTip newChain)) :
    ∃ k k', (fork, k) ∈ n.chainView ∧ (fork, k') ∈ newChain ∧ k' ≠ k := by
  have hne := chainView_ne_nil_of_reorg h
  cases walkFromHint_walked hne h with
  | @reorg t hash b _ hb hv ht ha hnew =>
      have hfork := fork_eq hpar hb ha hnew
      -- the ancestor is below the tip, so the view goes on above it
      have hlt := lt_tip_of_number hview hv ht
      obtain ⟨tip, htip⟩ := exists_tip hne
      rw [htip, Option.map_some, Option.getD_some] at hlt
      obtain ⟨old, hold, hnum⟩ := hview.exists_between ((viewHash_eq_some hview).mp hv)
        (tip_mem htip) (Nat.le_succ b.header.number) hlt
      obtain ⟨e, rest, rfl⟩ := List.exists_cons_of_ne_nil hnew
      have henum := (consecutive_cons_cons.mp (ha.consecutive hpar hb)).1
      rw [hfork]
      refine ⟨old.2, e.2, by rwa [← Nat.succ_eq_add_one, ← hnum], ?_, ?_⟩
      · rw [← henum]
        exact List.mem_cons_self
      · intro hsame
        refine walkFromHint_unseen h e List.mem_cons_self ?_
        rw [viewHash_eq_some hview, hsame, show e.1 = old.1 from henum.trans hnum.symm]
        exact hold

/-! ## Final blocks -/

/-- The blocks the host finalizes form one chain, down to its genesis. -/
def FinalChain (U : B256 → Option HostRpc.RpcHeader) (final : Nat → Option B256) : Prop :=
  ∀ m h x, final (m + 1) = some h → U h = some x → final m = some x.parentHash

/-- A block lies on one chain with the final block at a number: it is final itself if it is no
higher, and has that final block as its ancestor otherwise. -/
def MeetsFinal (U : B256 → Option HostRpc.RpcHeader) (final : Nat → Option B256) (e : Nat × B256)
    (f : Nat) : Prop :=
  ∃ a, ancestor U e.2 (e.1 - f) = some a ∧ final a.1 = some a.2

/-- The blocks of a stack at or below a reported number are final. -/
def ThroughFinal (final : Nat → Option B256) (reported : List Nat) (stack : List (RpcBlock T R)) :
    Prop :=
  ∀ b ∈ stack, ∀ f ∈ reported, b.number ≤ f → final b.number = some b.hash

/-- An element of a host chain is the ancestor, at the difference of their numbers, of each
one above it. -/
theorem HostChain.ancestor {l : List (RpcBlock T R)} (h : HostChain U l) {d : Nat}
    {b t : RpcBlock T R} (hb : b ∈ l) (ht : t ∈ l) (hd : b.number + d = t.number) :
    HostRpc.ancestor U t.hash d = some (b.number, b.hash) := by
  induction d generalizing t with
  | zero =>
      rw [ancestor_zero (h.known t ht), h.consecutive.inj hb ht hd]
      rfl
  | succ d ih =>
      obtain ⟨c, hc, hnum⟩ := h.consecutive.exists_between (n := b.number + d) hb ht
        (by omega) (by omega)
      have hparent := h.linked.parent_of_succ h.consecutive hc ht (by omega)
      rw [ancestor_succ (h.known t ht), show t.block.header.parentHash = c.hash from hparent]
      exact ih hc hnum.symm

/-- **A top that meets the final chain takes its stack along.** -/
theorem throughFinal_of_top (hfinal : FinalChain U final) {stack : List (RpcBlock T R)}
    (hstack : HostChain U stack) {reported : List Nat}
    (htop : ∀ top, stack.getLast? = some top →
      ∀ f ∈ reported, MeetsFinal U final (top.number, top.hash) f) :
    ThroughFinal final reported stack := by
  intro b hb f hf hbf
  obtain ⟨top, hlast⟩ : ∃ top, stack.getLast? = some top := by
    cases hq : stack.getLast? with
    | none => exact absurd (List.getLast?_eq_none_iff.mp hq) (List.ne_nil_of_mem hb)
    | some top => exact ⟨top, rfl⟩
  have hmem := List.mem_of_getLast? hlast
  have hle := hstack.consecutive.le_last hb hlast
  obtain ⟨c, hc, hnum⟩ := hstack.consecutive.exists_between (n := top.number - (top.number - f))
    hb hmem (by omega) (by omega)
  obtain ⟨a, hancestor, hafinal⟩ := htop top hlast f hf
  rw [hstack.ancestor hc hmem (by omega)] at hancestor
  obtain rfl := Option.some.inj hancestor
  refine hstack.linked.downward hstack.consecutive (Q := fun x => final x.number = some x.hash)
    ?_ hb hc (by omega) hafinal
  intro x _ y hy hsucc hparent hyfinal
  rw [hsucc] at hyfinal
  rw [hfinal x.number _ _ hyfinal (hstack.known y hy)]
  exact congrArg some hparent

/-- A head that reverts found a fork, and fetched what replaces it. -/
theorem handled_reverted {header : HostRpc.RpcHeader}
    {note : HostNotification (RpcChainSegment T R)} {n' : RpcHostNotifier}
    (h : Handled P tm n header (.ok (some note)) n') {range : RevertRange}
    (hrange : note.revertRange = some range) : ∃ oldTip newChain blocks,
      walkFromHint P tm n header.hash = .ok (.reorg range.first oldTip newChain)
        ∧ fetchBlocksByHash P tm newChain = .ok blocks
        ∧ note.kind.committedChain = some ⟨blocks⟩ := by
  generalize hout : Except.ok (some note) = out at h
  have hemitted {r : Except Fault (HostNotification (RpcChainSegment T R))}
      (hr : Except.ok (some note) = r.map some) : r = .ok note := by
    cases r with
    | error f => cases hr
    | ok m => exact congrArg Except.ok (Option.some.inj (Except.ok.inj hr)).symm
  cases h with
  | failed e => cases hout
  | seen => cases hout
  | exhausted hw => cases hout
  | panicked hw hf ho => cases hout
  | advance hw hf he hr =>
      obtain rfl := hemitted (hout.trans hr)
      rw [HostNotification.revertRange, he.kind_eq] at hrange
      cases hrange
  | @reorg fork oldTip newChain blocks old _ _ _ hw hf ho he hr =>
      obtain rfl := hemitted (hout.trans hr)
      rw [HostNotification.revertRange, he.kind_eq] at hrange
      obtain rfl := Option.some.inj hrange
      have hfirst : old.first = fork := by
        unfold RevertRange.new at ho
        split at ho
        · rw [← Option.some.inj ho]
        · cases ho
      rw [he.kind_eq, hfirst]
      exact ⟨oldTip, newChain, blocks, hw, hf, rfl⟩

/-- What is committed is delivered. -/
theorem mem_deliver {stack : List (RpcBlock T R)}
    {kind : HostNotificationKind (RpcChainSegment T R)} {new : RpcChainSegment T R}
    (hnew : kind.committedChain = some new) {b : RpcBlock T R}
    (hb : b ∈ new.blocks) : b ∈ deliver stack kind := by
  cases kind with
  | chainReverted old => cases hnew
  | chainCommitted seg =>
      obtain rfl := Option.some.inj hnew
      exact List.mem_append_right stack hb
  | chainReorged old seg =>
      obtain rfl := Option.some.inj hnew
      exact List.mem_append_right _ hb

/-- What the provider answers in a turn respects what it called final: the blocks are chains,
and the block emitted last meets every final block reported so far or with it. -/
structure FinalTurn (P : Provider T R) (U : B256 → Option HostRpc.RpcHeader)
    (final : Nat → Option B256) (tn : Turn) (n : RpcHostNotifier) (reported : List Nat) :
    Prop where
  /-- The blocks of a batch are one chain. -/
  batch : ∀ cursor tip blocks, n.backfillFrom = some cursor →
    P.getBlockNumber tn.timing.blockNumber = .ok tip →
    fetchRange P tn.timing cursor (batchEnd n cursor tip) = .ok blocks →
    Linked RpcBlock.hash RpcBlock.parentHash blocks
  /-- A head taken on an empty view is a child of the last emitted block. -/
  child : ∀ e header b, n.lastEmitted = some e → n.chainView = [] → AtHeads P tn.timing n →
    tn.head = some header → firstShown P tn.timing header.hash = some b →
    b.header.parentHash = e.2
  /-- What is emitted last meets the final blocks. -/
  meets : ∀ note e, (turn P tn n).1 = some (some (.ok note)) →
    (turn P tn n).2.lastEmitted = some e →
    ∀ f ∈ reported ++ note.finalizedBlockNumber.toList, MeetsFinal U final e f

/-- The notifier mirrors a stack that goes through the final blocks. -/
def FollowsFinal (U : B256 → Option HostRpc.RpcHeader) (final : Nat → Option B256)
    (reported : List Nat) (T R : Type) (n : RpcHostNotifier) : Prop :=
  ∃ stack : List (RpcBlock T R), Tracks U stack n
    ∧ Linked RpcBlock.hash RpcBlock.parentHash stack ∧ ThroughFinal final reported stack

/-- **A reorg starts above the final blocks**: at its fork the stack before and the stack behind
it hold different blocks, and both would be the final one. -/
theorem final_lt_first (hU : P.Immutable U) {reported : List Nat} {stack : List (RpcBlock T R)}
    (htracks : Tracks U stack n) (hthrough : ThroughFinal final reported stack)
    {header : HostRpc.RpcHeader} {note : HostNotification (RpcChainSegment T R)}
    {n' : RpcHostNotifier} (h : Handled P tm n header (.ok (some note)) n')
    (hthrough' : ThroughFinal final reported (deliver stack note.kind)) {range : RevertRange}
    (hrange : note.revertRange = some range) : ∀ f ∈ reported, f < range.first := by
  obtain ⟨oldTip, newChain, blocks, hw, hf, hnew⟩ := handled_reverted h hrange
  obtain ⟨k, k', hold, hreplaced, hne⟩ := reorg_replaces hU.parentOneLower
    htracks.view_consecutive hw
  obtain ⟨b, hb, hbk⟩ := List.mem_map.mp (htracks.view.subset hold)
  have hkeys : viewEntries blocks = newChain := (fetched_of_walk hU hw hf).1
  rw [← hkeys] at hreplaced
  obtain ⟨c, hc, hck⟩ := List.mem_map.mp hreplaced
  intro f hfm
  by_contra hge
  have hbnum : b.number = range.first := congrArg Prod.fst hbk
  have hcnum : c.number = range.first := congrArg Prod.fst hck
  have hbfinal := hthrough b hb f hfm (by omega)
  have hcfinal := hthrough' c (mem_deliver hnew hc) f hfm (by omega)
  rw [hbnum] at hbfinal
  rw [hcnum, hbfinal] at hcfinal
  refine hne ?_
  calc k' = c.hash := (congrArg Prod.snd hck).symm
    _ = b.hash := (Option.some.inj hcfinal).symm
    _ = k := congrArg Prod.snd hbk

/-- **A turn that delivers** leaves a stack through the final blocks, those reported with it
included, and reverts none that was reported before. -/
theorem followsFinal_turn (hU : P.Immutable U) (hfinal : FinalChain U final) {tn : Turn}
    {reported : List Nat} (h : FollowsFinal U final reported T R n)
    (hturn : FinalTurn P U final tn n reported) {note : HostNotification (RpcChainSegment T R)}
    (hnote : (turn P tn n).1 = some (some (.ok note))) :
    FollowsFinal U final (reported ++ note.finalizedBlockNumber.toList) T R (turn P tn n).2
      ∧ ∀ range, note.revertRange = some range → ∀ f ∈ reported, f < range.first := by
  obtain ⟨stack, htracks, hlinked, hthrough⟩ := h
  have hstack : HostChain U stack := ⟨hlinked, htracks.consecutive, htracks.known⟩
  have hmeets := hturn.meets note
  have ht := turn_turned P tn n
  rw [hnote] at ht hmeets
  generalize (turn P tn n).2 = n' at ht hmeets
  -- the new top meets the final blocks, so the whole stack does
  have hfollows (htracks' : Tracks U (deliver stack note.kind) n')
      (hchain : HostChain U (deliver stack note.kind)) :
      ThroughFinal final (reported ++ note.finalizedBlockNumber.toList)
        (deliver stack note.kind) := by
    refine throughFinal_of_top hfinal hchain fun top htop => hmeets _ rfl ?_
    rw [htracks'.emitted, viewEntries_getLast?, htop]
    rfl
  cases ht with
  | backfilled hd =>
      obtain ⟨htracks', cursor, tip, blocks, hcur, htip, _, hf, hkind, hcont⟩ :=
        delivered_drained hU htracks hd
      have hchain : HostChain U (deliver stack note.kind) := by
        rw [hkind] at htracks' hcont ⊢
        refine hostChain_delivered hstack htracks' ?_ ?_
        · by_cases hnil : blocks = []
          · exact Or.inl (by rw [hnil])
          · exact Or.inr (hcont hnil)
        · intro new hnew
          obtain rfl := Option.some.inj hnew
          exact hturn.batch cursor tip blocks hcur htip hf
      refine ⟨⟨_, htracks', hchain.linked, hfollows htracks' hchain⟩, ?_⟩
      intro range hrange
      rw [HostNotification.revertRange, hkind] at hrange
      cases hrange
  | emitted hd hh hhandled =>
      have hat := hd.atHeads
      obtain rfl := hd.none_eq
      have htracks₁ : Tracks U stack { n with backfillFrom := none } := htracks.of_eq rfl rfl
      obtain ⟨htracks', hcont, hlinked'⟩ := delivered_handled hU htracks₁
        (fun e b he hnil hb => hturn.child e _ b he hnil hat hh hb) hhandled
      have hchain := hostChain_delivered hstack htracks' (Or.inr hcont) hlinked'
      have hthrough' := hfollows htracks' hchain
      refine ⟨⟨_, htracks', hchain.linked, hthrough'⟩, ?_⟩
      intro range hrange
      exact final_lt_first hU htracks₁ hthrough hhandled
        (fun b hb f hf => hthrough' b hb f (List.mem_append_left _ hf)) hrange

/-! ## A node that is fed -/

/-- A node and the notifier that feeds it. -/
structure FedNode (Tx G S : Type) where
  node : LiveNode Tx G S
  notifier : RpcHostNotifier

/-- What can happen to it. -/
inductive FedMove where
  /-- The loop asks the notifier, which takes a turn. -/
  | turn (tn : Turn) (F : Faults)
  /-- The node makes the next effect of the notification in hand. -/
  | effect
  /-- Cold storage writes the next block, if there is one. -/
  | ingest
  /-- The process dies, whatever is pending, and is started again with this configuration. -/
  | restart (bufferCapacity backfillBatchSize slotSeconds genesisTimestamp : Nat)
      (backfillMaxBlocks : Option Nat)

/-- The loop is waiting for its notifier. -/
def LiveNode.waits (w : LiveNode Tx G S) : Bool := w.pending.isEmpty && !w.ended

/-- One turn of a loop that waits. The end of the subscription and an error of the notifier end
the loop; a notification is taken. -/
def fedTurn (P : Provider T R) (X : Externals (RpcChainSegment T R) (RpcBlock T R) Tx G S)
    (genesis : ExecutedBlock Tx G S) (tn : Turn) (F : Faults) (w : FedNode Tx G S) :
    FedNode Tx G S :=
  match turn P tn w.notifier with
  | (none, n') => ⟨w.node, n'⟩
  | (some (some (.ok note)), n') => ⟨(liveStep X genesis (.take note F) w.node).2, n'⟩
  | (some _, n') => ⟨{ w.node with ended := true }, n'⟩

/-- A process that was just started on a storage. -/
def FedNode.booted (deploy : Nat) (genesis : ExecutedBlock Tx G S) (st : UnifiedStorage Tx G S)
    (reported : List Nat) (bufferCapacity backfillBatchSize slotSeconds genesisTimestamp : Nat)
    (backfillMaxBlocks : Option Nat) : FedNode Tx G S :=
  ⟨LiveNode.booted genesis st reported, startNotifier deploy bufferCapacity backfillBatchSize
    slotSeconds genesisTimestamp backfillMaxBlocks (startStorage genesis st)⟩

/-- One move, and the effect it makes, if any. -/
def fedStep (P : Provider T R) (X : Externals (RpcChainSegment T R) (RpcBlock T R) Tx G S)
    (genesis : ExecutedBlock Tx G S) :
    FedMove → FedNode Tx G S → Option (Effect Tx G S) × FedNode Tx G S
  | .turn tn F, w => (none, if w.node.waits then fedTurn P X genesis tn F w else w)
  | .effect, w =>
    ((liveStep X genesis .effect w.node).1,
      { w with node := (liveStep X genesis .effect w.node).2 })
  | .ingest, w => (none, { w with node := (liveStep X genesis .ingest w.node).2 })
  | .restart bufferCapacity backfillBatchSize slotSeconds genesisTimestamp backfillMaxBlocks, w =>
    (none, FedNode.booted X.hostDeployHeight genesis w.node.found w.node.reported
      bufferCapacity backfillBatchSize slotSeconds genesisTimestamp backfillMaxBlocks)

/-- Each turn of the loop respects what the host called final. -/
def HostFinal (P : Provider T R) (U : B256 → Option HostRpc.RpcHeader) (final : Nat → Option B256) :
    FedMove → FedNode Tx G S → Prop
  | .turn tn _, w => w.node.waits = true → FinalTurn P U final tn w.notifier w.node.reported
  | _, _ => True

/-- While the loop runs, its notifier follows the final blocks. -/
def Follows (T R : Type) (U : B256 → Option HostRpc.RpcHeader) (final : Nat → Option B256)
    (w : FedNode Tx G S) : Prop :=
  w.node.ended = false → FollowsFinal U final w.node.reported T R w.notifier

/-- A started notifier has delivered nothing yet. -/
theorem follows_booted {deploy : Nat} (st : UnifiedStorage Tx G S) (reported : List Nat)
    (bufferCapacity backfillBatchSize slotSeconds genesisTimestamp : Nat)
    (backfillMaxBlocks : Option Nat) :
    Follows T R U final (FedNode.booted deploy genesis st reported bufferCapacity
      backfillBatchSize slotSeconds genesisTimestamp backfillMaxBlocks) :=
  fun _ => ⟨[], tracks_start.of_eq rfl rfl, linked_nil, by rintro _ ⟨⟩⟩

/-- The node made a move of its own that reverts nothing reported, or its loop ended. -/
def MovesAbove (X : Externals (RpcChainSegment T R) (RpcBlock T R) Tx G S)
    (genesis : ExecutedBlock Tx G S) (w w' : LiveNode Tx G S) : Prop :=
  (∃ m, KeepsReported m w ∧ w' = (liveStep X genesis m w).2) ∨ ∃ ended, w' = { w with ended }

theorem fedTurn_follows (hU : P.Immutable U) (hfinal : FinalChain U final) {w : FedNode Tx G S}
    (h : Follows T R U final w) {tn : Turn} {F : Faults} (hwaits : w.node.waits = true)
    (hturn : FinalTurn P U final tn w.notifier w.node.reported) :
    Follows T R U final (fedTurn P X genesis tn F w)
      ∧ MovesAbove X genesis w.node (fedTurn P X genesis tn F w).node := by
  obtain ⟨⟨s, pending, ended, reported, written⟩, n⟩ := w
  obtain ⟨hpending, hrunning⟩ := (Bool.and_eq_true _ _).mp hwaits
  obtain rfl : pending = [] := List.isEmpty_iff.mp hpending
  obtain rfl : ended = false := by simpa using hrunning
  have hquiet := turn_turned P tn n
  have hfollows (note : HostNotification (RpcChainSegment T R))
      (hnote : (turn P tn n).1 = some (some (.ok note))) :=
    followsFinal_turn hU hfinal (h rfl) hturn hnote
  unfold fedTurn
  cases hq : turn P tn n with
  | mk r n' =>
  rw [hq] at hquiet hfollows
  rcases r with _ | _ | f | note
  · cases hquiet with
    | quiet hd hh hn =>
        obtain ⟨stack, htracks, hlinked, hthrough⟩ := h rfl
        obtain rfl := hd.none_eq
        have htracks₁ : Tracks U stack { n with backfillFrom := none } := htracks.of_eq rfl rfl
        exact ⟨fun _ => ⟨stack, tracks_handled_none htracks₁ hn, hlinked, hthrough⟩,
          Or.inr ⟨false, rfl⟩⟩
  · exact ⟨fun hend => (Bool.noConfusion hend), Or.inr ⟨true, rfl⟩⟩
  · exact ⟨fun hend => (Bool.noConfusion hend), Or.inr ⟨true, rfl⟩⟩
  · obtain ⟨hstack, habove⟩ := hfollows note rfl
    exact ⟨fun _ => hstack, Or.inl ⟨.take note F, habove, rfl⟩⟩

/-- **A fed node only takes what reverts above the final blocks.** -/
theorem fedStep_follows (hU : P.Immutable U) (hfinal : FinalChain U final) {w : FedNode Tx G S}
    (h : Follows T R U final w) {m : FedMove} (hm : HostFinal P U final m w) :
    Follows T R U final (fedStep P X genesis m w).2
      ∧ MovesAbove X genesis w.node (fedStep P X genesis m w).2.node := by
  cases m with
  | effect =>
      refine ⟨?_, Or.inl ⟨.effect, trivial, rfl⟩⟩
      obtain ⟨⟨s, pending, ended, reported, written⟩, n⟩ := w
      cases pending <;> exact h
  | ingest => exact ⟨h, Or.inl ⟨.ingest, trivial, rfl⟩⟩
  | restart bufferCapacity backfillBatchSize slotSeconds genesisTimestamp backfillMaxBlocks =>
      exact ⟨follows_booted _ _ _ _ _ _ _, Or.inl ⟨.restart, trivial, rfl⟩⟩
  | turn tn F =>
      by_cases hwaits : w.node.waits = true
      · have hstep : (fedStep P X genesis (.turn tn F) w).2 = fedTurn P X genesis tn F w :=
          if_pos hwaits
        rw [hstep]
        exact fedTurn_follows hU hfinal h hwaits (hm hwaits)
      · have hstep : (fedStep P X genesis (.turn tn F) w).2 = w := if_neg hwaits
        rw [hstep]
        exact ⟨h, Or.inr ⟨w.node.ended, rfl⟩⟩

theorem TagKept.moves {w w' : LiveNode Tx G S} (h : TagKept X w) (hw : MovesAbove X genesis w w') :
    TagKept X w' := by
  rcases hw with ⟨m, hm, rfl⟩ | ⟨ended, rfl⟩
  · exact h.step hm
  · obtain ⟨⟨⟨hlevel, hpos, hle⟩, hcovered, hstored, hcuts⟩, hwrites, horder⟩ := h
    exact ⟨⟨⟨hlevel, hpos, hle⟩, hcovered, hstored, hcuts⟩, hwrites, horder⟩

theorem Sealed.moves {k : Nat} {base : UnifiedStorage Tx G S} {w w' : LiveNode Tx G S}
    (h : Sealed X k base w) (hw : MovesAbove X genesis w w') : Sealed X k base w' := by
  rcases hw with ⟨m, hm, rfl⟩ | ⟨ended, rfl⟩
  · exact h.step hm
  · obtain ⟨⟨⟨hlevel, hpos, hle⟩, hcovered, hstored, hcuts⟩, hheld, hsame⟩ := h
    exact ⟨⟨⟨hlevel, hpos, hle⟩, hcovered, hstored, hcuts⟩, hheld, hsame⟩

/-- The effect a move makes is the first in hand. -/
theorem fedStep_effect {m : FedMove} {w : FedNode Tx G S} {e : Effect Tx G S}
    (he : (fedStep P X genesis m w).1 = some e) : e ∈ w.node.pending := by
  cases m with
  | turn tn F => cases he
  | ingest => cases he
  | restart bufferCapacity backfillBatchSize slotSeconds genesisTimestamp backfillMaxBlocks =>
      cases he
  | effect =>
      obtain ⟨⟨s, pending, ended, reported, written⟩, n⟩ := w
      cases pending with
      | nil => cases he
      | cons e' es =>
          obtain rfl := Option.some.inj he
          exact List.mem_cons_self

/--
**Finalized is final.** Let a node fed by its RPC notifier run from empty storage, over any
batches, walks, reorgs, faults, errors, crashes and restarts with new configurations and any
lag of cold storage, and let what the provider answers respect the blocks it called final.
Take a height up to the finalized tag at one time, between any two effects, that cold storage
has written. What storage holds up to it then, in both tiers, it holds at every later time;
no effect made in between removes or announces the removal of a block there; and the height
is backed by a final block the host reported.
-/
theorem finalized_is_final (hU : P.Immutable U) (hfinal : FinalChain U final)
    {bufferCapacity backfillBatchSize slotSeconds genesisTimestamp : Nat}
    {backfillMaxBlocks : Option Nat} {es es' : List (Effect Tx G S)} {w w' : FedNode Tx G S}
    (hrun : Run (fedStep P X genesis) (HostFinal P U final)
      (FedNode.booted X.hostDeployHeight genesis ⟨[], []⟩ [] bufferCapacity backfillBatchSize
        slotSeconds genesisTimestamp backfillMaxBlocks) es w)
    (hlater : Run (fedStep P X genesis) (HostFinal P U final) w es' w') {k : Nat}
    (hk : k ≤ w.node.state.chain.tags.finalized) (hheld : k < w.node.found.cold.length) :
    (k ≤ lastRollupBlock w'.node.found
        ∧ w'.node.found.hot.take (k + 1) = w.node.found.hot.take (k + 1)
        ∧ k < w'.node.found.cold.length
        ∧ w'.node.found.cold.take (k + 1) = w.node.found.cold.take (k + 1))
      ∧ (∀ e ∈ es', ∀ height, e.cutTo = some height → k ≤ height)
      ∧ (k = 0 ∨ ∃ f ∈ w.node.reported, X.hostDeployHeight + k ≤ f) := by
  obtain ⟨hfollows, htag⟩ : Follows T R U final w ∧ TagKept X w.node := by
    refine Run.invariant (I := fun _ w => Follows T R U final w ∧ TagKept X w.node)
      ⟨follows_booted _ _ _ _ _ _ _, tagKept_booted _ _⟩ ?_ hrun
    intro m _ v hv hm
    obtain ⟨hnext, hmoves⟩ := fedStep_follows hU hfinal hv.1 hm
    exact ⟨hnext, hv.2.moves hmoves⟩
  have hreach : OutOfReach X k w.node := htag.upToTag.below hk
  have hnow : Sealed X k (w.node.state.storage.unwindAbove k) w.node :=
    ⟨hreach, Nat.lt_of_lt_of_le hheld (List.length_take_le _ _), rfl⟩
  have hlast : Follows T R U final w'
      ∧ Sealed X k (w.node.state.storage.unwindAbove k) w'.node
      ∧ ∀ e ∈ es', ∀ height, e.cutTo = some height → k ≤ height := by
    refine Run.invariant (I := fun es v => Follows T R U final v
      ∧ Sealed X k (w.node.state.storage.unwindAbove k) v.node
      ∧ ∀ e ∈ es, ∀ height, e.cutTo = some height → k ≤ height)
      ⟨hfollows, hnow, by rintro _ ⟨⟩⟩ ?_ hlater
    rintro m es v ⟨hv, hsealed, hcuts⟩ hm
    obtain ⟨hnext, hmoves⟩ := fedStep_follows hU hfinal hv hm
    refine ⟨hnext, hsealed.moves hmoves, ?_⟩
    intro e he
    rcases List.mem_append.mp he with he | he
    · exact hcuts e he
    · exact hsealed.cuts e (fedStep_effect (Option.mem_toList.mp he))
  obtain ⟨_, hsealed, hcuts⟩ := hlast
  -- what is sealed is what is found
  have hsame : w'.node.found.unwindAbove k = w.node.found.unwindAbove k := by
    calc w'.node.found.unwindAbove k
        = w'.node.state.storage.unwindAbove k := unwindAbove_found _ hsealed.held
      _ = w.node.state.storage.unwindAbove k := hsealed.same
      _ = w.node.found.unwindAbove k := (unwindAbove_found _ hnow.held).symm
  refine ⟨⟨hsealed.stored, congrArg UnifiedStorage.hot hsame, ?_,
    congrArg UnifiedStorage.cold hsame⟩, hcuts, hreach.covered⟩
  show k < (w'.node.state.storage.cold.take w'.node.written).length
  rw [List.length_take]
  exact Nat.lt_min.mpr ⟨hsealed.held, hsealed.lt_cold⟩

/-- Three blocks are taken in one batch, the first above genesis final, and cold storage writes
no more than that one. Then the host replaces the block above it, the node cuts storage down
to it and stores what is new, and a restart goes back to it again. -/
theorem finalized_is_final_reorg :
    let before := [bareBlock 10 0 9, bareBlock 11 1 10, bareBlock 12 2 11, bareBlock 13 3 12]
    let after := [bareBlock 11 1 10, bareBlock 22 2 11, bareBlock 23 3 22]
    let P := Provider.serving (before ++ after.tail) fun t => if t = 0 then before else after
    let step := fedStep P (emptyRollup 0) (emptyBlock 0)
    let batch : Turn := ⟨{ Timing.constant 0 with safe := 1, finalized := 1 }, none⟩
    let head : Turn := ⟨Timing.constant 1, some (bareBlock 23 3 22).block.header⟩
    let w := (runInputs step (.turn batch (Faults.none 0) :: List.replicate 9 .effect ++ [.ingest])
      (FedNode.booted 0 (emptyBlock 0) ⟨[], []⟩ [] 2 32 12 0 none)).2
    let reorg := .turn head (Faults.none 1) :: List.replicate 15 .effect
    let out := runInputs step (reorg ++ [.restart 2 32 12 0 none]) w
    w.node.state.chain.tags.finalized = 1 ∧ lastRollupBlock w.node.found = 2
      ∧ .drain 1 ∈ out.1 ∧ lastRollupBlock (runInputs step reorg w).2.node.found = 3
      ∧ lastRollupBlock out.2.node.found = 1
      ∧ out.2.node.found.cold.take 2 = w.node.found.cold.take 2 := by
  intro before after P step batch head w reorg out
  let U := fun h => ((before ++ after.tail).find? fun b => b.hash = h).map fun b => b.block.header
  let final (m : Nat) : Option B256 := ([10, 11] : List B256)[m]?
  have hU : P.Immutable U := by
    refine serving_immutable (fun t b hb => ?_) (by decide)
    by_cases ht : t = 0
    · rw [if_pos ht] at hb
      revert b
      decide
    · rw [if_neg ht] at hb
      revert b
      decide
  have hfinal : FinalChain U final := by
    intro m h x hm hx
    match m with
    | 0 =>
        obtain rfl := Option.some.inj hm
        obtain rfl := Option.some.inj hx
        rfl
    | m + 1 => cases hm
  let fresh := startNotifier 0 2 32 12 0 none
    (⟨[emptyBlock 0], [emptyBlock 0]⟩ : UnifiedStorage Unit Unit Unit)
  have hbatch : FinalTurn P U final batch fresh [] := by
    have hnote : (turn P batch fresh).1
        = some (some (.ok ⟨.chainCommitted ⟨before.take 3⟩, some 1, some 1⟩)) := by decide +kernel
    have hlast : (turn P batch fresh).2.lastEmitted = some (2, 12) := by decide +kernel
    have hfresh : fresh.lastEmitted = none := rfl
    refine ⟨?_, fun _ _ _ he => absurd (hfresh.symm.trans he) (by simp), ?_⟩
    · intro cursor tip blocks hc ht hf
      obtain rfl := Option.some.inj hc
      obtain rfl := Except.ok.inj ht
      have hblocks : fetchRange P batch.timing 0 (batchEnd fresh 0 3) = .ok (before.take 3) := by
        decide +kernel
      obtain rfl : before.take 3 = blocks := Except.ok.inj (hblocks.symm.trans hf)
      exact linked_cons.mpr ⟨fun x hx => by rw [← Option.some.inj hx]; rfl,
        linked_cons.mpr ⟨fun x hx => by rw [← Option.some.inj hx]; rfl,
          linked_cons.mpr ⟨by simp, linked_nil⟩⟩⟩
    · intro note e hn he f hf
      obtain rfl := Except.ok.inj (Option.some.inj (Option.some.inj (hnote.symm.trans hn)))
      obtain rfl := Option.some.inj (hlast.symm.trans he)
      obtain rfl := List.mem_singleton.mp hf
      exact ⟨(1, 11), rfl, rfl⟩
  have hhead : FinalTurn P U final head w.notifier w.node.reported := by
    have hnote : (turn P head w.notifier).1 = some (some (.ok
        ⟨.chainReorged ⟨2, 2, by decide, by decide⟩ ⟨after.tail⟩, some 1, some 1⟩)) := by
      decide +kernel
    have hlast : (turn P head w.notifier).2.lastEmitted = some (3, 23) := by decide +kernel
    have hidle : w.notifier.backfillFrom = none := by decide +kernel
    have hview : w.notifier.chainView ≠ [] := by decide +kernel
    have hreported : w.node.reported = [1] := by decide +kernel
    refine ⟨fun _ _ _ hc => ?_, fun _ _ _ _ hnil => absurd hnil hview, ?_⟩
    · rw [hidle] at hc
      cases hc
    · intro note e hn he f hf
      obtain rfl := Except.ok.inj (Option.some.inj (Option.some.inj (hnote.symm.trans hn)))
      obtain rfl := Option.some.inj (hlast.symm.trans he)
      rw [hreported] at hf
      obtain rfl : f = 1 := by simpa using hf
      exact ⟨(1, 11), rfl, rfl⟩
  have htag : w.node.state.chain.tags.finalized = 1 := by decide +kernel
  have hheld : 1 < w.node.found.cold.length := by decide +kernel
  have hfirst : Admits step (HostFinal P U final)
      (.turn batch (Faults.none 0) :: List.replicate 9 .effect ++ [.ingest])
      (FedNode.booted 0 (emptyBlock 0) ⟨[], []⟩ [] 2 32 12 0 none) :=
    ⟨fun _ => hbatch, admits_of_forall (by simp [HostFinal])⟩
  have hsecond : Admits step (HostFinal P U final) (reorg ++ [.restart 2 32 12 0 none]) w :=
    ⟨fun _ => hhead, admits_of_forall (by simp [HostFinal])⟩
  have hrun : Run step (HostFinal P U final) _ _ w := runInputs_run _ _ hfirst
  have hlater : Run step (HostFinal P U final) w out.1 out.2 := runInputs_run _ _ hsecond
  have hkept := finalized_is_final (X := emptyRollup 0) (w := w) (k := 1) hU hfinal hrun hlater
    (Nat.le_of_eq htag.symm) hheld
  exact ⟨htag, by decide +kernel, by decide +kernel, by decide +kernel, by decide +kernel,
    hkept.1.2.2.2⟩

end NodeComponents.Node
