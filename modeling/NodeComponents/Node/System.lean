import NodeComponents.Node.HostChain

/-!
# Node and notifier over restarts

`System` is the node and its notifier together, over any number of restarts, with
the host free to reorg at any time. A restart hands over one number (`set_head`);
the notifier forgets what it emitted, and the parent check of `drain_backfill` only
looks at what was emitted since.

The invariant says that storage has its hosts, and that a running notifier mirrors
a stack in sync with them. Three things can break it, and `CleanDelivery` names
them: a batch that mixes two chains, a head on an empty view that is no child of
the last emitted block, and, while the notifier is still below the stored tip, a
block at the height of that tip which is not the one storage was made from. The
last is a reorg of the stored tip while the process was down.
-/

namespace NodeComponents.Node

open HostRpc Lib Rpc

variable {T R Tx G S : Type} {P : Provider T R} {U : B256 → Option RpcHeader}
  {X : Externals (RpcChainSegment T R) (RpcBlock T R) Tx G S} {F : Faults}
  {genesis : ExecutedBlock Tx G (Tagged S (RpcBlock T R))} {hosts : List (RpcBlock T R)}

/-! ## Node and notifier -/

/-- The process is down, with what storage holds, or up, with its notifier. -/
inductive System (Tx G S : Type) where
  | down (st : UnifiedStorage Tx G S)
  | up (s : NodeState Tx G S) (n : RpcHostNotifier)

/-- What storage holds. -/
def System.storage : System Tx G S → UnifiedStorage Tx G S
  | .down st => st
  | .up s _ => s.storage

/-- What can happen. -/
inductive SystemMove where
  /-- The process is built with this configuration and started. -/
  | start (bufferCapacity backfillBatchSize slotSeconds genesisTimestamp : Nat)
      (backfillMaxBlocks : Option Nat)
  /-- The notifier takes a turn, and the node handles what it returns. -/
  | turn (tn : Turn) (F : Faults)
  /-- The process dies, and of each tier only this many blocks are found again. -/
  | crash (hot cold : Nat)

/-- The notifier as `start_inner` leaves it before the first notification. -/
def startNotifier (deploy bufferCapacity backfillBatchSize slotSeconds genesisTimestamp : Nat)
    (backfillMaxBlocks : Option Nat) (st : UnifiedStorage Tx G S) : RpcHostNotifier :=
  ((RpcHostNotifier.new bufferCapacity backfillBatchSize slotSeconds genesisTimestamp).setHead
    (headHeight deploy (lastRollupBlock st))).setBackfillThresholds backfillMaxBlocks

/-- One turn of the loop of `start_inner`. The end of the subscription, an error of the
notifier and an error of the node all end the process. -/
def systemTurn (P : Provider T R)
    (X : Externals (RpcChainSegment T R) (RpcBlock T R) Tx G S) (tn : Turn) (F : Faults)
    (s : NodeState Tx G S) (n : RpcHostNotifier) : System Tx G S :=
  match turn P tn n with
  | (none, n') => .up s n'
  | (some none, _) => .down s.storage
  | (some (some (.error _)), _) => .down s.storage
  | (some (some (.ok notification)), n') =>
    match handleNotification X F notification s with
    | (.ok _, s') => .up s' n'
    | (.error _, s') => .down s'.storage

/-- One move. -/
def systemStep (P : Provider T R) (X : Externals (RpcChainSegment T R) (RpcBlock T R) Tx G S)
    (genesis : ExecutedBlock Tx G S) : SystemMove → System Tx G S → Option Empty × System Tx G S
  | .start bufferCapacity backfillBatchSize slotSeconds genesisTimestamp backfillMaxBlocks,
      .down st =>
    (none, .up (NodeState.started (startStorage genesis st))
      (startNotifier X.hostDeployHeight bufferCapacity backfillBatchSize slotSeconds
        genesisTimestamp backfillMaxBlocks (startStorage genesis st)))
  | .turn tn F, .up s n => (none, systemTurn P X tn F s n)
  | .crash hot cold, p => (none, .down ⟨p.storage.hot.take hot, p.storage.cold.take cold⟩)
  | _, p => (none, p)

/-- A run from empty storage, of moves that `C` allows. -/
abbrev SystemRun (P : Provider T R)
    (X : Externals (RpcChainSegment T R) (RpcBlock T R) Tx G S) (genesis : ExecutedBlock Tx G S)
    (C : SystemMove → System Tx G S → Prop) (p : System Tx G S) : Prop :=
  Run (systemStep P X genesis) C (.down ⟨[], []⟩) [] p

/-! ## Tags along a run -/

/-- The system without tags. -/
def System.untag : System Tx G (Tagged S (RpcBlock T R)) → System Tx G S
  | .down st => .down st.untag
  | .up s n => .up s.untag n

theorem System.storage_untag (p : System Tx G (Tagged S (RpcBlock T R))) :
    p.untag.storage = p.storage.untag := by
  cases p <;> rfl

theorem systemTurn_untag (tn : Turn) (s : NodeState Tx G (Tagged S (RpcBlock T R)))
    (n : RpcHostNotifier) :
    systemTurn P X tn F s.untag n = (systemTurn P X.tagged tn F s n).untag := by
  unfold systemTurn
  cases turn P tn n with
  | mk r n' =>
  rcases r with _ | _ | f | notification
  · rfl
  · rfl
  · rfl
  · dsimp only
    rw [handleNotification_untag]
    cases handleNotification X.tagged F notification s with
    | mk res s' => cases res <;> rfl

/-- **A move does the same with tags and without.** -/
theorem systemStep_untag (m : SystemMove) (p : System Tx G (Tagged S (RpcBlock T R))) :
    (systemStep P X genesis.untag m p.untag).2 = (systemStep P X.tagged genesis m p).2.untag := by
  cases m with
  | crash hot cold =>
      have hcut (tier : List (ExecutedBlock Tx G (Tagged S (RpcBlock T R)))) (k : Nat) :
          (tier.map ExecutedBlock.untag).take k = (tier.take k).map ExecutedBlock.untag :=
        List.map_take.symm
      show System.down ⟨p.untag.storage.hot.take hot, p.untag.storage.cold.take cold⟩ = _
      rw [System.storage_untag]
      show System.down ⟨(p.storage.hot.map _).take hot, (p.storage.cold.map _).take cold⟩ = _
      rw [hcut, hcut]
      rfl
  | turn tn F =>
      cases p with
      | down st => rfl
      | up s n => exact systemTurn_untag tn s n
  | start bufferCapacity backfillBatchSize slotSeconds genesisTimestamp backfillMaxBlocks =>
      cases p with
      | up s n => rfl
      | down st =>
          show System.up (NodeState.started (startStorage genesis.untag st.untag)) _ = _
          unfold startNotifier
          rw [startStorage_untag, lastRollupBlock_untag]
          show System.up (NodeState.started (startStorage genesis st).untag) _
            = System.up (NodeState.started (startStorage genesis st)).untag _
          unfold NodeState.started
          rw [lastRollupBlock_untag]
          rfl

theorem systemRun_next {X : Externals (RpcChainSegment T R) (RpcBlock T R) Tx G S}
    {genesis : ExecutedBlock Tx G S} {C : SystemMove → System Tx G S → Prop} {p : System Tx G S}
    (h : SystemRun P X genesis C p) {m : SystemMove} (hm : C m p) :
    SystemRun P X genesis C (systemStep P X genesis m p).2 := by
  have hnext := Run.next m h hm
  cases hout : (systemStep P X genesis m p).1 with
  | some o => exact o.elim
  | none =>
      rw [hout] at hnext
      exact hnext

/-- **Every run carries tags**: what the node reaches is what the tagged node reaches, erased. -/
theorem systemRun_tagged {p : System Tx G S} {genesis : ExecutedBlock Tx G S}
    (h : SystemRun P X genesis (fun _ _ => True) p) :
    ∃ p', SystemRun P X.tagged (genesis.tag none) (fun _ _ => True) p' ∧ p'.untag = p := by
  refine Run.invariant (I := fun _ p => ∃ p', SystemRun P X.tagged (genesis.tag none)
    (fun _ _ => True) p' ∧ p'.untag = p) ⟨.down ⟨[], []⟩, Run.start, rfl⟩ ?_ h
  rintro m _ p ⟨p', hrun, rfl⟩ _
  refine ⟨_, systemRun_next hrun (m := m) trivial, ?_⟩
  rw [← systemStep_untag, untag_tag]

/-! ## The condition -/

/-- `t` is the host block behind the stored tip, and nothing as high was emitted yet. -/
def CatchingUp (s : NodeState Tx G (Tagged S (RpcBlock T R))) (n : RpcHostNotifier)
    (t : RpcBlock T R) : Prop :=
  (∃ b, s.storage.hot.getLast? = some b ∧ b.host = some t) ∧
    ∀ e, n.lastEmitted = some e → e.1 < t.number

/-- What the provider answers in a turn does not break the host chain. -/
structure CleanDelivery (P : Provider T R) (tn : Turn)
    (s : NodeState Tx G (Tagged S (RpcBlock T R))) (n : RpcHostNotifier) : Prop where
  /-- The blocks of a batch are one chain. -/
  batch : ∀ cursor tip blocks, n.backfillFrom = some cursor →
    P.getBlockNumber tn.timing.blockNumber = .ok tip →
    fetchRange P tn.timing cursor (batchEnd n cursor tip) = .ok blocks →
    Linked RpcBlock.hash RpcBlock.parentHash blocks
  /-- A head taken on an empty view is a child of the last emitted block. -/
  child : ∀ e header b, n.lastEmitted = some e → n.chainView = [] → AtHeads P tn.timing n →
    tn.head = some header → firstShown P tn.timing header.hash = some b →
    b.header.parentHash = e.2
  /-- A batch redelivers the stored tip. -/
  batchTip : ∀ t cursor tip blocks, CatchingUp s n t → n.backfillFrom = some cursor →
    P.getBlockNumber tn.timing.blockNumber = .ok tip →
    fetchRange P tn.timing cursor (batchEnd n cursor tip) = .ok blocks → Redelivers t blocks
  /-- A walk redelivers the stored tip. -/
  walkTip : ∀ t header w, CatchingUp s n t → AtHeads P tn.timing n → tn.head = some header →
    walkFromHint P tn.timing n header.hash = .ok w →
    ∀ e ∈ w.newChain, e.1 = t.number → e.2 = t.hash
  /-- A first head right above the stored tip is its child. -/
  firstTip : ∀ t header b, CatchingUp s n t → n.lastEmitted = none → AtHeads P tn.timing n →
    tn.head = some header → firstShown P tn.timing header.hash = some b →
    b.header.number = t.number + 1 → b.header.parentHash = t.hash

/-- Every move, but of the turns only those with a clean delivery. -/
def Allowed (P : Provider T R) : SystemMove → System Tx G (Tagged S (RpcBlock T R)) → Prop
  | .turn tn _, .up s n => CleanDelivery P tn s n
  | _, _ => True

/-! ## What a turn delivers -/

/-- Linked blocks that continue a host chain make one with it. -/
theorem hostChain_delivered {stack : List (RpcBlock T R)} (hstack : HostChain U stack)
    {kind : HostNotificationKind (RpcChainSegment T R)} {n : RpcHostNotifier}
    (htracks : Tracks U (deliver stack kind) n)
    (hcont : kind = .chainCommitted ⟨[]⟩ ∨ Continues stack kind)
    (hlinked : ∀ new, kind.committedChain = some new →
      Linked RpcBlock.hash RpcBlock.parentHash new.blocks) :
    HostChain U (deliver stack kind) := by
  refine ⟨?_, htracks.consecutive, htracks.known⟩
  cases kind with
  | chainReverted old => exact absurd hcont (by simp [Continues])
  | chainCommitted new =>
      refine linked_append.mpr ⟨hstack.linked, hlinked new rfl, ?_⟩
      intro a ha b hb
      rcases hcont with hempty | hcont
      · obtain rfl : new = ⟨[]⟩ := by simpa using hempty
        exact absurd hb (by simp)
      · obtain ⟨first, hfirst, _, hp⟩ := hcont a ha
        obtain rfl := Option.some.inj (hfirst.symm.trans hb)
        exact hp
  | chainReorged old new =>
      rcases hcont with hempty | ⟨top, first, below, htop, htip, hfirst, _, hbelow, hbnum, hp⟩
      · exact absurd hempty (by simp)
      obtain ⟨_, hlast⟩ := popRange_getLast? hstack.consecutive htop htip hbelow hbnum.symm
      refine linked_append.mpr
        ⟨hstack.linked.initial (List.rdropWhile_prefix _ _), hlinked new rfl, ?_⟩
      intro a ha b hb
      obtain rfl := Option.some.inj (hlast.symm.trans ha)
      obtain rfl := Option.some.inj (hfirst.symm.trans hb)
      exact hp

/-- The entries of a segment fetched by hash are those its walk found, and its first block has
the parent that the first block shown has. -/
theorem fetched_of_walk (hU : P.Immutable U) {tm : Timing} {n : RpcHostNotifier} {hint : B256}
    {w : WalkResult} {blocks : List (RpcBlock T R)} (hw : walkFromHint P tm n hint = .ok w)
    (hf : fetchBlocksByHash P tm w.newChain = .ok blocks) :
    viewEntries blocks = w.newChain ∧ (n.chainView = [] → ∃ b, firstShown P tm hint = some b ∧
      ∀ x ∈ blocks.head?, x.number = b.header.number ∧ x.parentHash = b.header.parentHash) := by
  refine ⟨?_, ?_⟩
  · obtain ⟨base, ha⟩ := ascent_of_walk hw
    exact (ha.fetched hU.hash hU.byHash (fetchBlocksByHash_forall₂ hf)).1
  · intro hnil
    obtain ⟨b, t, k, hshown, hb, rfl⟩ := walkFromHint_nil hnil hw
    have ha : Ascent P b.header.parentHash [(b.header.number, k)] :=
      Ascent.cons hb rfl (Ascent.nil k)
    obtain ⟨hkeys, _, hhead, _⟩ := ha.fetched hU.hash hU.byHash (fetchBlocksByHash_forall₂ hf)
    refine ⟨b, hshown, ?_⟩
    intro x hx
    have hentry : (viewEntries blocks).head? = some (x.number, x.hash) := by
      unfold viewEntries
      rw [List.head?_map, hx]
      rfl
    rw [hkeys] at hentry
    exact ⟨(congrArg Prod.fst (Option.some.inj hentry)).symm, hhead x hx⟩

/-- What a turn that delivers does to the stack. -/
structure Delivers (U : B256 → Option RpcHeader) (stack hosts : List (RpcBlock T R))
    (kind : HostNotificationKind (RpcChainSegment T R)) (n' : RpcHostNotifier) : Prop where
  tracks : Tracks U (deliver stack kind) n'
  chain : HostChain U (deliver stack kind)
  continues : kind = .chainCommitted ⟨[]⟩ ∨ Continues stack kind
  redelivers : Behind hosts stack → ∀ new t, kind.committedChain = some new →
    hosts.getLast? = some t → Redelivers t new.blocks

/-- Behind the stored tip the notifier is catching up with it. -/
theorem catchingUp_of_behind {s : NodeState Tx G (Tagged S (RpcBlock T R))} {deploy : Nat}
    (h : StoredHosts U deploy genesis s.storage.hot hosts) {stack : List (RpcBlock T R)}
    {n : RpcHostNotifier} (htracks : Tracks U stack n) (hbehind : Behind hosts stack)
    {t : RpcBlock T R} (ht : hosts.getLast? = some t) : CatchingUp s n t := by
  refine ⟨?_, ?_⟩
  · have hlast := congrArg List.getLast? h.tags
    rw [List.getLast?_map, List.getLast?_map, ht] at hlast
    obtain ⟨b, hb, hhost⟩ := Option.map_eq_some_iff.mp hlast
    refine ⟨b, ?_, hhost⟩
    obtain ⟨rest, hrest⟩ := h.starts
    rw [← hrest] at hb ⊢
    rw [List.getLast?_append, show rest.getLast? = some b from hb]
    rfl
  · intro e he
    rw [htracks.emitted, viewEntries_getLast?] at he
    obtain ⟨top, htop, rfl⟩ := Option.map_eq_some_iff.mp he
    exact hbehind top t htop ht

/-- A block that continues a stack behind the stored tip does not lie above that tip. -/
theorem not_above_of_behind {stack : List (RpcBlock T R)}
    (hcons : Consecutive RpcBlock.number stack) {kind : HostNotificationKind (RpcChainSegment T R)}
    {new : RpcChainSegment T R} (hnew : kind.committedChain = some new)
    (hcont : Continues stack kind) (hne : stack ≠ []) (hbehind : Behind hosts stack)
    {t x : RpcBlock T R} (ht : hosts.getLast? = some t) (hx : new.blocks.head? = some x) :
    x.number ≤ t.number := by
  obtain ⟨top, htop⟩ : ∃ top, stack.getLast? = some top := by
    cases hq : stack.getLast? with
    | none => exact absurd (List.getLast?_eq_none_iff.mp hq) hne
    | some top => exact ⟨top, rfl⟩
  have hlt := hbehind top t htop ht
  cases kind with
  | chainReverted old => exact absurd hnew (by simp [HostNotificationKind.committedChain])
  | chainCommitted _ =>
      obtain rfl := Option.some.inj hnew
      obtain ⟨first, hfirst, hnum, _⟩ := hcont top htop
      obtain rfl := Option.some.inj (hfirst.symm.trans hx)
      omega
  | chainReorged old _ =>
      obtain rfl := Option.some.inj hnew
      obtain ⟨_, first, below, _, _, hfirst, hfnum, hbelow, hbnum, _⟩ := hcont
      obtain rfl := Option.some.inj (hfirst.symm.trans hx)
      have hle := hcons.le_last hbelow htop
      omega

/-- **A clean turn delivers what continues the stack and redelivers the stored tip.** -/
theorem turn_delivers (hU : P.Immutable U) {s : NodeState Tx G (Tagged S (RpcBlock T R))}
    {deploy : Nat} (h : StoredHosts U deploy genesis s.storage.hot hosts)
    {stack : List (RpcBlock T R)} {n : RpcHostNotifier} (htracks : Tracks U stack n)
    (hlinked : Linked RpcBlock.hash RpcBlock.parentHash stack) {tn : Turn}
    (hclean : CleanDelivery P tn s n) {note : HostNotification (RpcChainSegment T R)}
    (hnote : (turn P tn n).1 = some (some (.ok note))) :
    Delivers U stack hosts note.kind (turn P tn n).2 := by
  have hstack : HostChain U stack := ⟨hlinked, htracks.consecutive, htracks.known⟩
  have ht := turn_turned P tn n
  rw [hnote] at ht
  generalize (turn P tn n).2 = n' at ht
  cases ht with
  | backfilled hd =>
      obtain ⟨htracks', cursor, tip, blocks, hcur, htip, _, hf, hkind, hcont⟩ :=
        delivered_drained hU htracks hd
      rw [hkind] at htracks' hcont ⊢
      have hcont' : HostNotificationKind.chainCommitted (⟨blocks⟩ : RpcChainSegment T R)
          = .chainCommitted ⟨[]⟩ ∨ Continues stack (.chainCommitted ⟨blocks⟩) := by
        by_cases hnil : blocks = []
        · exact Or.inl (by rw [hnil])
        · exact Or.inr (hcont hnil)
      refine ⟨htracks', ?_, hcont', ?_⟩
      · refine hostChain_delivered hstack htracks' hcont' ?_
        intro new hnew
        obtain rfl := Option.some.inj hnew
        exact hclean.batch cursor tip blocks hcur htip hf
      · intro hbehind new t hnew hlast
        obtain rfl := Option.some.inj hnew
        exact hclean.batchTip t cursor tip blocks (catchingUp_of_behind h htracks hbehind hlast)
          hcur htip hf
  | @emitted header _ n₁ _ hd hh hhandled =>
      have hat := hd.atHeads
      obtain rfl := hd.none_eq
      have htracks₁ : Tracks U stack { n with backfillFrom := none } := htracks.of_eq rfl rfl
      obtain ⟨htracks', hcont, hlinked'⟩ := delivered_handled hU htracks₁
        (fun e b he hnil hb => hclean.child e header b he hnil hat hh hb) hhandled
      refine ⟨htracks', hostChain_delivered hstack htracks' (Or.inr hcont) hlinked',
        Or.inr hcont, ?_⟩
      intro hbehind new t hnew hlast
      have hcatch := catchingUp_of_behind h htracks hbehind hlast
      obtain ⟨w, blocks, hw, hf, hseg⟩ := hhandled.segment
      obtain rfl : new = ⟨blocks⟩ := Option.some.inj (hnew.symm.trans hseg)
      rw [walkFromHint_cursor] at hw
      obtain ⟨hkeys, hshown⟩ := fetched_of_walk hU hw hf
      refine ⟨?_, ?_⟩
      · intro x hx hnum
        have hmem : (x.number, x.hash) ∈ w.newChain := by
          rw [← hkeys]
          exact List.mem_map_of_mem hx
        exact hclean.walkTip t header w hcatch hat hh hw _ hmem hnum
      · intro x hx hnum
        by_cases hnil : stack = []
        · -- nothing was emitted since the start, so the view is empty too
          subst hnil
          have hview : n.chainView = [] := List.suffix_nil.mp htracks.view
          obtain ⟨b, hb, hfirst⟩ := hshown hview
          obtain ⟨hbnum, hbparent⟩ := hfirst x hx
          rw [hbparent]
          exact hclean.firstTip t header b hcatch htracks.emitted hat hh hb (by omega)
        · have hle := not_above_of_behind htracks.consecutive hnew hcont hnil hbehind hlast hx
          omega

/-! ## Every run -/

/-- What holds at any time: storage has its hosts, and a running notifier mirrors a stack in
sync with them. -/
def OnHostChain (U : B256 → Option RpcHeader) (deploy : Nat)
    (genesis : ExecutedBlock Tx G (Tagged S (RpcBlock T R))) :
    System Tx G (Tagged S (RpcBlock T R)) → Prop
  | .down st => ∃ chain hosts, StoredHosts U deploy genesis chain hosts
      ∧ st.hot <+: chain ∧ st.cold <+: chain
  | .up s n => ∃ hosts stack, StoredHosts U deploy genesis s.storage.hot hosts
      ∧ s.storage.cold = s.storage.hot ∧ Tracks U stack n
      ∧ Linked RpcBlock.hash RpcBlock.parentHash stack ∧ InSync deploy hosts stack.getLast?

/-- What a process leaves behind when it ends. -/
theorem onHostChain_down {deploy : Nat} {st : UnifiedStorage Tx G (Tagged S (RpcBlock T R))}
    (h : StoredHosts U deploy genesis st.hot hosts) (hcold : st.cold = st.hot) :
    OnHostChain U deploy genesis (.down st) :=
  ⟨st.hot, hosts, h, List.prefix_refl _, by rw [hcold]⟩

theorem OnHostChain.prefixes {deploy : Nat} {p : System Tx G (Tagged S (RpcBlock T R))}
    (h : OnHostChain U deploy genesis p) : ∃ chain hosts, StoredHosts U deploy genesis chain hosts
      ∧ p.storage.hot <+: chain ∧ p.storage.cold <+: chain := by
  cases p with
  | down st => exact h
  | up s n =>
      obtain ⟨hosts, _, hhosts, hcold, _⟩ := h
      exact onHostChain_down hhosts hcold

/-- A front part of a chain from one host chain is from one host chain. -/
theorem StemsFromOneChain.initial {tier chain : List (ExecutedBlock Tx G (Tagged S (RpcBlock T R)))}
    (h : StemsFromOneChain chain) (hp : tier <+: chain) : StemsFromOneChain tier := by
  obtain ⟨rest, rfl⟩ := hp
  intro k below above hk hbelow habove
  refine h k below above hk ?_ ?_
  · rw [List.getElem?_append_left (List.getElem?_eq_some_iff.mp hbelow).1]
    exact hbelow
  · rw [List.getElem?_append_left (List.getElem?_eq_some_iff.mp habove).1]
    exact habove

/-- A turn with a clean delivery keeps the hosts one chain. -/
theorem onHostChain_turn (hX : MapsHeights X) (hU : P.Immutable U) {tn : Turn}
    {s : NodeState Tx G (Tagged S (RpcBlock T R))} {n : RpcHostNotifier}
    (h : OnHostChain U X.hostDeployHeight genesis (.up s n)) (hclean : CleanDelivery P tn s n) :
    OnHostChain U X.hostDeployHeight genesis (systemTurn P X.tagged tn F s n) := by
  obtain ⟨hosts, stack, hhosts, hcold, htracks, hlinked, hsync⟩ := h
  have hquiet := turn_turned P tn n
  have hdelivers (note : HostNotification (RpcChainSegment T R))
      (hnote : (turn P tn n).1 = some (some (.ok note))) :=
    turn_delivers hU hhosts htracks hlinked hclean hnote
  unfold systemTurn
  cases hq : turn P tn n with
  | mk r n' =>
  rw [hq] at hquiet hdelivers
  rcases r with _ | _ | f | note
  · cases hquiet with
    | quiet hd hh hn =>
        obtain rfl := hd.none_eq
        have htracks₁ : Tracks U stack { n with backfillFrom := none } := htracks.of_eq rfl rfl
        exact ⟨hosts, stack, hhosts, hcold, tracks_handled_none htracks₁ hn, hlinked, hsync⟩
  · exact onHostChain_down hhosts hcold
  · exact onHostChain_down hhosts hcold
  · obtain ⟨htracks', hchain, hcont, hred⟩ := hdelivers note rfl
    have hstack : HostChain U stack := ⟨hlinked, htracks.consecutive, htracks.known⟩
    obtain ⟨hosts', hhosts', hcold', hok⟩ :=
      notification_hosts (F := F) hX hhosts hcold hstack hsync hchain hcont hred
    dsimp only
    cases hh : handleNotification X.tagged F note s with
    | mk res s' =>
        rw [hh] at hhosts' hcold' hok
        cases res with
        | error e => exact onHostChain_down hhosts' hcold'
        | ok u => exact ⟨hosts', _, hhosts', hcold', htracks', hchain.linked, hok u rfl⟩

/-- **Every allowed move keeps the hosts one chain.** -/
theorem onHostChain_step (hX : MapsHeights X) (hU : P.Immutable U)
    {p : System Tx G (Tagged S (RpcBlock T R))}
    (h : OnHostChain U X.hostDeployHeight genesis p) {m : SystemMove} (hm : Allowed P m p) :
    OnHostChain U X.hostDeployHeight genesis (systemStep P X.tagged genesis m p).2 := by
  cases m with
  | crash hot cold =>
      obtain ⟨chain, hosts, hhosts, hhot, hcold⟩ := h.prefixes
      exact ⟨chain, hosts, hhosts, (List.take_prefix _ _).trans hhot,
        (List.take_prefix _ _).trans hcold⟩
  | turn tn F =>
      cases p with
      | down st => exact h
      | up s n => exact onHostChain_turn hX hU h hm
  | start bufferCapacity backfillBatchSize slotSeconds genesisTimestamp backfillMaxBlocks =>
      cases p with
      | up s n => exact h
      | down st =>
          obtain ⟨chain, hosts, hhosts, hhot, hcold⟩ := h
          obtain ⟨m, _, hpos, _, hout⟩ := startStorage_take hhosts.starts hhot hcold
          obtain ⟨r, rfl⟩ : ∃ r, m = r + 1 := ⟨m - 1, by omega⟩
          refine ⟨hosts.take r, [], ?_, ?_, ?_, linked_nil, by simp [InSync]⟩
          · show StoredHosts U X.hostDeployHeight genesis (startStorage genesis st).hot _
            rw [hout]
            exact hhosts.take r
          · show (startStorage genesis st).cold = (startStorage genesis st).hot
            rw [hout]
          · -- `set_head` leaves a notifier that has emitted nothing
            exact tracks_start.of_eq rfl rfl

/--
**The stored chain stems from one hash-linked host chain.** Whatever faults, crashes
and restarts a run goes through, as long as each turn has a clean delivery: in both
tiers the host block of each block above height one has the host block of the block
below it as its parent.
-/
theorem stored_chain_stems (hX : MapsHeights X) (hU : P.Immutable U)
    {genesis : ExecutedBlock Tx G S} {p : System Tx G (Tagged S (RpcBlock T R))}
    (h : SystemRun P X.tagged (genesis.tag none) (Allowed P) p) :
    StemsFromOneChain p.storage.hot ∧ StemsFromOneChain p.storage.cold := by
  have hinv : OnHostChain U X.hostDeployHeight (genesis.tag none) p := by
    refine Run.invariant (I := fun _ p => OnHostChain U X.hostDeployHeight (genesis.tag none) p)
      ?_ ?_ h
    · exact ⟨[genesis.tag none], [], storedHosts_genesis, List.nil_prefix, List.nil_prefix⟩
    · intro m _ p hp hm
      exact onHostChain_step hX hU hp hm
  obtain ⟨chain, hosts, hhosts, hhot, hcold⟩ := hinv.prefixes
  exact ⟨hhosts.stems.initial hhot, hhosts.stems.initial hcold⟩

/-! ## Two restarts -/

/-- A rollup that stores an empty block for each host block above the deploy height. -/
def emptyRollup (deploy : Nat) :
    Externals (RpcChainSegment Unit Unit) (RpcBlock Unit Unit) Unit Unit Unit where
  hostDeployHeight := deploy
  extractSignet seg :=
    (seg.blocks.filter fun b => deploy < b.number).map fun b => ⟨b.number - deploy, b⟩
  runEvm hot _ := .ok (emptyBlock hot.length)
  coldLogs _ := []

/-- A turn without a head is clean if its batch is one chain that redelivers the stored tip. -/
theorem cleanDelivery_backfill {tn : Turn} {s : NodeState Tx G (Tagged S (RpcBlock T R))}
    {n : RpcHostNotifier} {cursor tip : Nat} (blocks : List (RpcBlock T R))
    (hhead : tn.head = none) (hcur : n.backfillFrom = some cursor)
    (htip : P.getBlockNumber tn.timing.blockNumber = .ok tip)
    (hf : fetchRange P tn.timing cursor (batchEnd n cursor tip) = .ok blocks)
    (hlinked : Linked RpcBlock.hash RpcBlock.parentHash blocks)
    (hred : ∀ t, CatchingUp s n t → Redelivers t blocks) : CleanDelivery P tn s n := by
  have hbatch {cursor' tip' : Nat} {blocks' : List (RpcBlock T R)}
      (hcur' : n.backfillFrom = some cursor')
      (htip' : P.getBlockNumber tn.timing.blockNumber = .ok tip')
      (hf' : fetchRange P tn.timing cursor' (batchEnd n cursor' tip') = .ok blocks') :
      blocks' = blocks := by
    obtain rfl := Option.some.inj (hcur.symm.trans hcur')
    obtain rfl := Except.ok.inj (htip.symm.trans htip')
    exact Except.ok.inj (hf'.symm.trans hf)
  have hnone {header : RpcHeader} (hh : tn.head = some header) : False := by
    rw [hhead] at hh
    exact absurd hh (by simp)
  refine ⟨?_, fun _ _ _ _ _ _ hh => (hnone hh).elim, ?_, fun _ _ _ _ _ hh => (hnone hh).elim,
    fun _ _ _ _ _ _ hh => (hnone hh).elim⟩
  · intro _ _ _ hcur' htip' hf'
    rw [hbatch hcur' htip' hf']
    exact hlinked
  · intro t _ _ _ hcatch hcur' htip' hf'
    rw [hbatch hcur' htip' hf']
    exact hred t hcatch

/-- A turn without a head, all of it at one instant. -/
def backfillTurn (t : Instant) : SystemMove := .turn ⟨Timing.constant t, none⟩ (Faults.none t)

/-- The process is started, takes one batch, stops, is started again and takes another. -/
def twoLives : List SystemMove :=
  [.start 1 32 12 0 none, backfillTurn 0, .crash 2 2, .start 1 32 12 0 none, backfillTurn 1]

/-- Moves that are admitted make a run. -/
theorem systemRun_moves {X : Externals (RpcChainSegment T R) (RpcBlock T R) Tx G S}
    {genesis : ExecutedBlock Tx G S} {C : SystemMove → System Tx G S → Prop}
    {ms : List SystemMove} (h : Admits (systemStep P X genesis) C ms (.down ⟨[], []⟩)) :
    SystemRun P X genesis C (runInputs (systemStep P X genesis) ms (.down ⟨[], []⟩)).2 := by
  have hrun := runInputs_run ms _ h
  cases hout : (runInputs (systemStep P X genesis) ms (.down ⟨[], []⟩)).1 with
  | cons o os => exact o.elim
  | nil =>
      rw [hout] at hrun
      exact hrun

/-- Between the two lives the host only grows. -/
theorem stored_chain_stems_restart :
    let P := Provider.reorging [bareBlock 10 0 9, bareBlock 11 1 10, bareBlock 12 2 11]
      [bareBlock 10 0 9, bareBlock 11 1 10] [bareBlock 10 0 9, bareBlock 11 1 10, bareBlock 12 2 11]
    let step := systemStep P (emptyRollup 0).tagged ((emptyBlock 0).tag none)
    let p := (runInputs step twoLives (.down ⟨[], []⟩)).2
    p.storage.hot.length = 3 ∧ StemsFromOneChain p.storage.hot := by
  intro P step p
  have hX : MapsHeights (emptyRollup 0) := fun _ => rfl
  have hU : P.Immutable _ := reorging_immutable (by decide) (by decide) (by decide)
  let tier := [(emptyBlock 0).tag none, (emptyBlock 1).tag (some (bareBlock 11 1 10))]
  let life (st : UnifiedStorage Unit Unit (Tagged Unit (RpcBlock Unit Unit))) :=
    System.up (NodeState.started st) (startNotifier 0 1 32 12 0 none st)
  have hlinked {a b : RpcBlock Unit Unit} (hab : b.parentHash = a.hash) :
      Linked RpcBlock.hash RpcBlock.parentHash [a, b] :=
    linked_cons.mpr ⟨fun x hx => by rwa [← Option.some.inj hx],
      linked_cons.mpr ⟨by simp, linked_nil⟩⟩
  have hfirst : Allowed P (backfillTurn 0) (life ⟨tier.take 1, tier.take 1⟩) := by
    refine cleanDelivery_backfill [bareBlock 10 0 9, bareBlock 11 1 10] rfl rfl rfl
      (by decide +kernel) (hlinked rfl) ?_
    -- genesis has no host block, so there is no tip to redeliver
    intro t hq
    rcases hq with ⟨⟨b, hb, hhost⟩, _⟩
    obtain rfl := Option.some.inj hb
    exact absurd hhost (by simp [ExecutedBlock.host, ExecutedBlock.tag])
  have hstored : (step (.crash 2 2) (step (backfillTurn 0) (life ⟨tier.take 1, tier.take 1⟩)).2).2
      = .down ⟨tier, tier⟩ := congrArg System.down (by decide +kernel)
  have hsecond : Allowed P (backfillTurn 1) (life ⟨tier, tier⟩) := by
    refine cleanDelivery_backfill [bareBlock 11 1 10, bareBlock 12 2 11] rfl rfl rfl
      (by decide +kernel) (hlinked rfl) ?_
    intro t hq
    rcases hq with ⟨⟨b, hb, hhost⟩, _⟩
    obtain rfl := Option.some.inj hb
    obtain rfl : bareBlock 11 1 10 = t := Option.some.inj hhost
    refine ⟨?_, ?_⟩
    · intro x hx hnum
      rcases List.mem_pair.mp hx with rfl | rfl
      · rfl
      · exact absurd hnum (by decide)
    · intro x hx hnum
      obtain rfl := Option.some.inj hx
      exact absurd hnum (by decide)
  have hadmits : Admits step (Allowed P) twoLives (.down ⟨[], []⟩) := by
    refine ⟨trivial, hfirst, trivial, trivial, ?_, trivial⟩
    show Allowed P (backfillTurn 1) (step (.start 1 32 12 0 none)
      (step (.crash 2 2) (step (backfillTurn 0) (life ⟨tier.take 1, tier.take 1⟩)).2).2).2
    rw [hstored]
    exact hsecond
  exact ⟨by decide +kernel, (stored_chain_stems hX hU (systemRun_moves hadmits)).1⟩

/-- Between the two lives the host replaces the block storage was made from. The next start
asks for that height again, the replacement is dropped by height, and its child is executed
on the state of the block that was replaced. -/
theorem restart_keeps_replaced_block :
    let P := Provider.reorging
      [bareBlock 10 0 9, bareBlock 11 1 10, bareBlock 21 1 10, bareBlock 22 2 21]
      [bareBlock 10 0 9, bareBlock 11 1 10] [bareBlock 10 0 9, bareBlock 21 1 10, bareBlock 22 2 21]
    let genesis := (emptyBlock 0).tag none
    let p := (runInputs (systemStep P (emptyRollup 0).tagged genesis) twoLives (.down ⟨[], []⟩)).2
    (∃ U, P.Immutable U) ∧ MapsHeights (emptyRollup 0)
      ∧ SystemRun P (emptyRollup 0).tagged genesis (fun _ _ => True) p
      ∧ ¬ StemsFromOneChain p.storage.hot := by
  intro P genesis p
  have hU : P.Immutable _ := reorging_immutable (by decide) (by decide) (by decide)
  refine ⟨⟨_, hU⟩, fun _ => rfl, systemRun_moves (admits_true _ _), ?_⟩
  have hhot : p.storage.hot = [genesis, (emptyBlock 1).tag (some (bareBlock 11 1 10)),
      (emptyBlock 2).tag (some (bareBlock 22 2 21))] := by decide +kernel
  rw [hhot]
  intro h
  obtain ⟨x, y, hx, hy, hparent⟩ := h 1 _ _ (Nat.le_refl 1) rfl rfl
  obtain rfl := Option.some.inj hx
  obtain rfl := Option.some.inj hy
  exact absurd hparent (by decide)

end NodeComponents.Node
