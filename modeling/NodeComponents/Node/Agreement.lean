import NodeComponents.Node.Settled
import NodeComponents.Node.System

/-!
# Nodes agree

A rollup has no consensus of its own: each node derives the blocks from the host chain it
follows, and two nodes must derive the same ones. What each stores came about differently,
over batches, walks, reorgs, failures and restarts, from providers that answer at different
times.

The argument is that storage remembers nothing of that. Each stored block is what the EVM
makes of the host block behind it on the stored blocks below (`Derived`), and the host
blocks behind storage are one chain. So the host block behind a stored block determines it
and everything below it.
-/

namespace NodeComponents.Node

open HostRpc Lib Rpc

variable {T R Tx G S : Type} {P : Provider T R} {V : B256 → Option (RpcBlock T R)}
  {X : Externals (RpcChainSegment T R) (RpcBlock T R) Tx G S} {F : Faults}
  {hot : List (ExecutedBlock Tx G (Tagged S (RpcBlock T R)))}

/-! ## Derived blocks -/

/-- What each stored block above genesis is: the EVM's result for the host block behind it, on
the stored blocks up to its parent. -/
def Derived (X : Externals (RpcChainSegment T R) (RpcBlock T R) Tx G S)
    (V : B256 → Option (RpcBlock T R))
    (tier : List (ExecutedBlock Tx G (Tagged S (RpcBlock T R)))) : Prop :=
  ∀ k b, tier[k + 1]? = some b → ∃ x, b.host = some x ∧ V x.hash = some x ∧
    x.number - X.hostDeployHeight - 1 ≤ k ∧
    X.runEvm ((tier.take (x.number - X.hostDeployHeight - 1 + 1)).map ExecutedBlock.untag)
      ⟨x.number - X.hostDeployHeight, x⟩ = .ok b.untag

theorem derived_short {tier : List (ExecutedBlock Tx G (Tagged S (RpcBlock T R)))}
    (h : tier.length ≤ 1) : Derived X V tier := by
  intro k b hb
  rw [List.getElem?_eq_none (by omega)] at hb
  cases hb

/-- A front part is derived as well: a block depends on those below it only. -/
theorem Derived.initial {tier : List (ExecutedBlock Tx G (Tagged S (RpcBlock T R)))}
    (h : Derived X V hot) (hp : tier <+: hot) : Derived X V tier := by
  obtain ⟨rest, rfl⟩ := hp
  intro k b hb
  have hlt := (List.getElem?_eq_some_iff.mp hb).1
  obtain ⟨x, hx, hV, hle, hrun⟩ := h k b (by rw [List.getElem?_append_left hlt]; exact hb)
  refine ⟨x, hx, hV, hle, ?_⟩
  rwa [List.take_append_of_le_length (by omega)] at hrun

/-- The extract of a known host block, at the height the host block has. -/
def KnownExtract (X : Externals (RpcChainSegment T R) (RpcBlock T R) Tx G S)
    (V : B256 → Option (RpcBlock T R)) (x : Extracts (RpcBlock T R)) : Prop :=
  x.ruHeight = x.hostBlock.number - X.hostDeployHeight ∧ V x.hostBlock.hash = some x.hostBlock

/-- **An executed block is derived.** -/
theorem Derived.concat (h : Derived X V hot) {x : Extracts (RpcBlock T R)}
    (hx : KnownExtract X V x) {b : ExecutedBlock Tx G (Tagged S (RpcBlock T R))}
    (hb : executes X.tagged hot x = some b) : Derived X V (hot ++ [b]) := by
  obtain ⟨hheight, hV⟩ := hx
  have hprocess : processBlock X.tagged none hot x = .ok b := by
    unfold executes at hb
    cases hp : processBlock X.tagged none hot x with
    | error e =>
        rw [hp] at hb
        cases hb
    | ok c =>
        rw [hp] at hb
        rw [Option.some.inj hb]
  obtain ⟨hparent, hrun⟩ := processBlock_ran hprocess
  intro k c hc
  rcases Nat.lt_or_ge (k + 1) hot.length with hold | hnew
  · rw [List.getElem?_append_left hold] at hc
    obtain ⟨y, hy, hVy, hle, hruny⟩ := h k c hc
    refine ⟨y, hy, hVy, hle, ?_⟩
    rwa [List.take_append_of_le_length (by omega)]
  · obtain ⟨hk, rfl⟩ : k + 1 = hot.length ∧ b = c := by
      rw [List.getElem?_append_right hnew, List.getElem?_singleton] at hc
      split at hc
      · exact ⟨by omega, Option.some.inj hc⟩
      · cases hc
    refine ⟨x.hostBlock, (executes_tagged hb).1, hV, by omega, ?_⟩
    rw [← hheight, List.take_append_of_le_length (by omega)]
    -- the tagged EVM runs on the untagged chain and adds the tag
    have htagged : (X.runEvm ((hot.take (x.ruHeight - 1 + 1)).map ExecutedBlock.untag) x).map
        (fun c => c.tag (some x.hostBlock)) = .ok b := hrun
    cases hq : X.runEvm ((hot.take (x.ruHeight - 1 + 1)).map ExecutedBlock.untag) x with
    | error m =>
        rw [hq] at htagged
        cases htagged
    | ok c =>
        rw [hq] at htagged
        rw [← Except.ok.inj htagged, untag_tag]

theorem Derived.grown {new : List (ExecutedBlock Tx G (Tagged S (RpcBlock T R)))}
    {xs : List (Extracts (RpcBlock T R))} (hgrown : Grown (executes X.tagged) hot xs new)
    (h : Derived X V hot) (hxs : ∀ x ∈ xs, KnownExtract X V x) : Derived X V new := by
  induction hgrown with
  | nil => exact h
  | cons hb _ ih =>
      exact ih (h.concat (hxs _ List.mem_cons_self) hb) fun y hy =>
        hxs y (List.mem_cons_of_mem _ hy)

/-! ## One notification -/

/-- The committed blocks of a notification carry what is behind their hashes. -/
def Matched (V : B256 → Option (RpcBlock T R)) (n : HostNotification (RpcChainSegment T R)) :
    Prop := ∀ new, n.committedChain = some new → ∀ b ∈ new.blocks, V b.hash = some b

/-- Both tiers hold one derived chain. -/
def BothDerived (X : Externals (RpcChainSegment T R) (RpcBlock T R) Tx G S)
    (V : B256 → Option (RpcBlock T R)) (st : UnifiedStorage Tx G (Tagged S (RpcBlock T R))) :
    Prop := Derived X V st.hot ∧ st.cold = st.hot

theorem revert_derived {s : NodeState Tx G (Tagged S (RpcBlock T R))}
    (h : BothDerived X V s.storage) (n : HostNotification (RpcChainSegment T R)) :
    BothDerived X V (revertPart X.tagged F n s).2.storage := by
  unfold revertPart
  cases n.revertRange with
  | none => exact h
  | some range =>
      dsimp only
      have hend := onHostRevert_end X.tagged F range s
      generalize (onHostRevert X.tagged F range s).1 = res at hend
      generalize (onHostRevert X.tagged F range s).2 = s' at hend ⊢
      cases hend with
      | below _ => exact h
      | refused _ => exact h
      | cut _ _ =>
          rw [(revertTo_frame (X := X.tagged) (s := s) _ _).1]
          refine ⟨h.1.initial (List.take_prefix _ _), ?_⟩
          show s.storage.cold.take _ = s.storage.hot.take _
          rw [h.2]

theorem commit_derived (hX : MapsHeights X) {s : NodeState Tx G (Tagged S (RpcBlock T R))}
    (h : BothDerived X V s.storage) {n : HostNotification (RpcChainSegment T R)}
    (hn : Matched V n) : BothDerived X V (commitPart X.tagged F n s).2.storage := by
  unfold commitPart
  cases hchain : n.committedChain with
  | none => exact h
  | some chain =>
      dsimp only
      cases hread : F.commitRead with
      | some m =>
          unfold processCommittedChain readLastRollupBlock
          rw [hread]
          exact h
      | none =>
          obtain ⟨done, rest, bs, extra, r, hsplit, hgrown, hstate, _⟩ :=
            processCommittedChain_spec (X := X.tagged) (F := F) s chain hread
          rw [hstate]
          refine ⟨h.1.grown hgrown fun x hx => ?_, ?_⟩
          · have hfresh :
                x ∈ freshExtracts X.tagged ⟨chain.blocks⟩ (lastRollupBlock s.storage) := by
              rw [hsplit]
              exact List.mem_append_left _ hx
            rw [freshExtracts_tagged hX] at hfresh
            obtain ⟨b, hb, rfl⟩ := List.mem_map.mp hfresh
            exact ⟨rfl, hn chain hchain b (List.mem_filter.mp hb).1⟩
          · show s.storage.cold ++ bs = s.storage.hot ++ bs
            rw [h.2]

/-- **A notification leaves derived chains**, however it ends. -/
theorem notification_derived (hX : MapsHeights X)
    {s : NodeState Tx G (Tagged S (RpcBlock T R))} (h : BothDerived X V s.storage)
    {n : HostNotification (RpcChainSegment T R)} (hn : Matched V n) :
    BothDerived X V (handleNotification X.tagged F n s).2.storage := by
  have hrevert := revert_derived (F := F) h n
  rcases handleNotification_parts X.tagged F n s with ⟨_, _, hstorage⟩ | ⟨_, hstorage, _⟩
  · rw [hstorage]
    exact hrevert
  · rw [hstorage]
    exact commit_derived hX hrevert hn

/-! ## Runs -/

/-- The headers of the known host blocks. -/
def headersOf (V : B256 → Option (RpcBlock T R)) (h : B256) :
    Option HostRpc.RpcHeader :=
  (V h).map fun b => b.block.header

/-- What is fetched in a turn is a block with its own receipts: no reorg comes between the two
calls by number, and receipts that exist are not answered as missing. -/
structure FetchesWhole (P : Provider T R) (V : B256 → Option (RpcBlock T R)) (tm : Timing) :
    Prop where
  byNumber : ∀ i n b, fetchBlockByNumber P (tm.block i) (tm.receipts i) n = .ok b →
    V b.hash = some b
  byHash : ∀ i h b, fetchBlockByHash P (tm.block i) (tm.receipts i) h = .ok b → V b.hash = some b

/-- What is collected was in the stream. -/
theorem mem_of_tryCollect {A : Type} {l : List (Except Fault A)} {as : List A}
    (h : tryCollect l = .ok as) {a : A} (ha : a ∈ as) : .ok a ∈ l := by
  rw [tryCollect_ok h]
  exact List.mem_map_of_mem ha

/-- **What a turn delivers was fetched in it.** -/
theorem FetchesWhole.matched {tn : Turn} (h : FetchesWhole P V tn.timing) {n : RpcHostNotifier}
    {note : HostNotification (RpcChainSegment T R)}
    (hnote : (turn P tn n).1 = some (some (.ok note))) : Matched V note := by
  have hrange {lo hi : Nat} {blocks : List (RpcBlock T R)}
      (hf : fetchRange P tn.timing lo hi = .ok blocks) : ∀ b ∈ blocks, V b.hash = some b := by
    intro b hb
    obtain ⟨i, _, hi⟩ := List.mem_map.mp (mem_of_tryCollect hf hb)
    exact h.byNumber i _ b hi
  have ht := turn_turned P tn n
  rw [hnote] at ht
  generalize (turn P tn n).2 = n' at ht
  intro new hnew
  cases ht with
  | backfilled hd =>
      cases hd with
      | empty _ _ _ _ =>
          obtain rfl := Option.some.inj hnew
          simp
      | batch _ _ _ hf _ _ he =>
          obtain rfl := Option.some.inj
            ((HostNotification.committedChain_of_kind he.kind_eq).symm.trans hnew)
          exact hrange hf
  | emitted _ _ hhandled =>
      obtain ⟨w, blocks, _, hf, hseg⟩ := hhandled.segment
      obtain rfl : new = ⟨blocks⟩ := Option.some.inj (hnew.symm.trans hseg)
      intro b hb
      obtain ⟨i, hi, hget⟩ := List.mem_mapIdx.mp (mem_of_tryCollect hf hb)
      exact h.byHash i _ b hget

/-- A move whose turn has a clean delivery, of blocks fetched whole. -/
def Faithful (P : Provider T R) (V : B256 → Option (RpcBlock T R)) (m : SystemMove)
    (p : System Tx G (Tagged S (RpcBlock T R))) : Prop :=
  Allowed P m p ∧
    match m with
    | .turn tn _ => FetchesWhole P V tn.timing
    | _ => True

/-- What holds at any time: the hosts are one chain, and what is stored is derived from them. -/
structure OnDerivedChain (X : Externals (RpcChainSegment T R) (RpcBlock T R) Tx G S)
    (V : B256 → Option (RpcBlock T R)) (genesis : ExecutedBlock Tx G (Tagged S (RpcBlock T R)))
    (p : System Tx G (Tagged S (RpcBlock T R))) : Prop where
  hosts : OnHostChain (headersOf V) X.hostDeployHeight genesis p
  stored : Derived X V p.storage.hot ∧ Derived X V p.storage.cold

variable {genesis : ExecutedBlock Tx G (Tagged S (RpcBlock T R))}
  {p : System Tx G (Tagged S (RpcBlock T R))}

theorem startStorage_derived {st : UnifiedStorage Tx G (Tagged S (RpcBlock T R))}
    (hhot : Derived X V st.hot) (hcold : Derived X V st.cold) :
    Derived X V (startStorage genesis st).hot ∧ Derived X V (startStorage genesis st).cold := by
  have hload (tier : List (ExecutedBlock Tx G (Tagged S (RpcBlock T R))))
      (h : Derived X V tier) : Derived X V (if tier.isEmpty then [genesis] else tier) := by
    by_cases hempty : tier.isEmpty = true
    · rw [if_pos hempty]
      exact derived_short (Nat.le_refl 1)
    · rw [if_neg hempty]
      exact h
  obtain ⟨hh, hc⟩ :
    (startStorage genesis st).hot = _ ∧ (startStorage genesis st).cold = _ := startStorage_cut st
  rw [hh, hc]
  exact ⟨(hload _ hhot).initial (List.take_prefix _ _),
    (hload _ hcold).initial (List.take_prefix _ _)⟩

theorem onDerivedChain_turn (hX : MapsHeights X) {tn : Turn}
    {s : NodeState Tx G (Tagged S (RpcBlock T R))} {n : RpcHostNotifier}
    (h : OnDerivedChain X V genesis (.up s n))
    (hm : Faithful P V (.turn tn F) (.up s n)) :
    Derived X V (systemTurn P X.tagged tn F s n).storage.hot
      ∧ Derived X V (systemTurn P X.tagged tn F s n).storage.cold := by
  obtain ⟨_, _, _, htiers, _⟩ := h.hosts
  have hboth : BothDerived X V s.storage := ⟨h.stored.1, htiers⟩
  have htwo {st : UnifiedStorage Tx G (Tagged S (RpcBlock T R))} (h : BothDerived X V st) :
      Derived X V st.hot ∧ Derived X V st.cold := ⟨h.1, by rw [h.2]; exact h.1⟩
  have hmatched (note : HostNotification (RpcChainSegment T R))
      (hnote : (turn P tn n).1 = some (some (.ok note))) : Matched V note :=
    FetchesWhole.matched hm.2 hnote
  unfold systemTurn
  cases hq : turn P tn n with
  | mk r n' =>
  rw [hq] at hmatched
  rcases r with _ | _ | f | note
  · exact htwo hboth
  · exact htwo hboth
  · exact htwo hboth
  · have hnote := notification_derived (F := F) hX hboth (hmatched note rfl)
    dsimp only
    cases hh : handleNotification X.tagged F note s with
    | mk res s' =>
        rw [hh] at hnote
        cases res <;> exact htwo hnote

/-- **Every faithful move keeps storage derived.** -/
theorem onDerivedChain_step (hX : MapsHeights X) (hV : P.Immutable (headersOf V))
    (h : OnDerivedChain X V genesis p) {m : SystemMove} (hm : Faithful P V m p) :
    OnDerivedChain X V genesis (systemStep P X.tagged genesis m p).2 := by
  refine ⟨onHostChain_step hX hV h.hosts hm.1, ?_⟩
  cases m with
  | crash hot cold =>
      exact ⟨h.stored.1.initial (List.take_prefix _ _), h.stored.2.initial (List.take_prefix _ _)⟩
  | turn tn F =>
      cases p with
      | down st => exact h.stored
      | up s n => exact onDerivedChain_turn hX h hm
  | start bufferCapacity backfillBatchSize slotSeconds genesisTimestamp backfillMaxBlocks =>
      cases p with
      | up s n => exact h.stored
      | down st => exact startStorage_derived h.stored.1 h.stored.2

theorem onDerivedChain_run (hX : MapsHeights X) (hV : P.Immutable (headersOf V))
    (h : SystemRun P X.tagged genesis (Faithful P V) p) : OnDerivedChain X V genesis p := by
  refine Run.invariant (I := fun _ p => OnDerivedChain X V genesis p) ?_ ?_ h
  · exact ⟨⟨[genesis], [], storedHosts_genesis, List.nil_prefix, List.nil_prefix⟩,
      derived_short (Nat.zero_le _), derived_short (Nat.zero_le _)⟩
  · intro m _ p hp hm
    exact onDerivedChain_step hX hV hp hm

/-! ## Agreement -/

/-- One of the two tiers of storage. -/
def IsTier (st : UnifiedStorage Tx G S) (tier : List (ExecutedBlock Tx G S)) : Prop :=
  tier = st.hot ∨ tier = st.cold

/-- What is stored in a tier: blocks derived from one host chain, each at its height. -/
structure DerivedTier (X : Externals (RpcChainSegment T R) (RpcBlock T R) Tx G S)
    (V : B256 → Option (RpcBlock T R)) (genesis : ExecutedBlock Tx G (Tagged S (RpcBlock T R)))
    (tier : List (ExecutedBlock Tx G (Tagged S (RpcBlock T R)))) (hosts : List (RpcBlock T R)) :
    Prop where
  derived : Derived X V tier
  starts : ∀ b, tier[0]? = some b → b = genesis
  tags : ∀ k b, tier[k + 1]? = some b → ∃ x, hosts[k]? = some x ∧ b.host = some x
  chain : HostChain (headersOf V) hosts
  numbers : ∀ i x, hosts[i]? = some x → x.number = X.hostDeployHeight + 1 + i

theorem OnDerivedChain.tier (h : OnDerivedChain X V genesis p)
    {tier : List (ExecutedBlock Tx G (Tagged S (RpcBlock T R)))} (ht : IsTier p.storage tier) :
    ∃ hosts, DerivedTier X V genesis tier hosts := by
  obtain ⟨chain, hosts, hhosts, hhot, hcold⟩ := h.hosts.prefixes
  obtain ⟨hderived, hpre⟩ : Derived X V tier ∧ tier <+: chain := by
    rcases ht with rfl | rfl
    · exact ⟨h.stored.1, hhot⟩
    · exact ⟨h.stored.2, hcold⟩
  obtain ⟨rest, rfl⟩ := hpre
  have hget {k : Nat} {b : ExecutedBlock Tx G (Tagged S (RpcBlock T R))} (hb : tier[k]? = some b) :
      (tier ++ rest)[k]? = some b := by
    rw [List.getElem?_append_left (List.getElem?_eq_some_iff.mp hb).1]
    exact hb
  refine ⟨hosts, hderived, fun b hb => ?_, fun k b hb => ?_, hhosts.chain, hhosts.numbers⟩
  · obtain ⟨more, hmore⟩ := hhosts.starts
    have hb' := hget hb
    rw [← hmore] at hb'
    exact (Option.some.inj hb').symm
  · have hi := congrArg (fun l => l[k]?) hhosts.tags
    simp only [List.getElem?_map, List.getElem?_tail, hget hb, Option.map_some] at hi
    obtain ⟨x, hx, heq⟩ := Option.map_eq_some_iff.mp hi.symm
    exact ⟨x, hx, heq.symm⟩

/-- **The host block of a stored block decides it and all below it.** -/
theorem DerivedTier.agree {tier tier' : List (ExecutedBlock Tx G (Tagged S (RpcBlock T R)))}
    {hosts hosts' : List (RpcBlock T R)} (h : DerivedTier X V genesis tier hosts)
    (h' : DerivedTier X V genesis tier' hosts') {k : Nat} {x : RpcBlock T R}
    (hx : hosts[k]? = some x) {x' : RpcBlock T R} (hx' : hosts'[k]? = some x')
    (hhash : x.hash = x'.hash) :
    ∀ j ≤ k + 1, ∀ b b', tier[j]? = some b → tier'[j]? = some b' →
      b = b' ∧ tier.take (j + 1) = tier'.take (j + 1) := by
  -- the hosts are compared as two chains that end in the same hash
  have hend {l : List (RpcBlock T R)} {y : RpcBlock T R} (hy : l[k]? = some y) :
      (l.take (k + 1)).getLast? = some y := by
    rw [List.getLast?_take, if_neg (Nat.succ_ne_zero k), Nat.add_sub_cancel, hy]
    rfl
  have hcut {l : List (RpcBlock T R)} (hl : HostChain (headersOf V) l) :
      HostChain (headersOf V) (l.take (k + 1)) :=
    ⟨hl.linked.initial (List.take_prefix _ _), hl.consecutive.initial (List.take_prefix _ _),
      fun b hb => hl.known b (List.mem_of_mem_take hb)⟩
  have hsame {j : Nat} {y y' : RpcBlock T R} (hj : j ≤ k) (hy : hosts[j]? = some y)
      (hy' : hosts'[j]? = some y') : y.hash = y'.hash := by
    refine (hcut h.chain).agree (hcut h'.chain) (hend hx) (hend hx') hhash
      (List.mem_of_getElem? (i := j) ?_) (List.mem_of_getElem? (i := j) ?_) ?_
    · rwa [List.getElem?_take_of_lt (by omega)]
    · rwa [List.getElem?_take_of_lt (by omega)]
    · rw [h.numbers j y hy, h'.numbers j y' hy']
  intro j
  induction j with
  | zero =>
      intro _ b b' hb hb'
      have heq : b = b' := (h.starts b hb).trans (h'.starts b' hb').symm
      refine ⟨heq, ?_⟩
      rw [List.take_add_one, List.take_add_one, hb, hb', heq, List.take_zero, List.take_zero]
  | succ j ih =>
      intro hj b b' hb hb'
      obtain ⟨y, hy, hby⟩ := h.tags j b hb
      obtain ⟨y', hy', hby'⟩ := h'.tags j b' hb'
      obtain ⟨z, hz, hVz, _, hrun⟩ := h.derived j b hb
      obtain ⟨z', hz', hVz', _, hrun'⟩ := h'.derived j b' hb'
      obtain rfl : y = z := Option.some.inj (hby.symm.trans hz)
      obtain rfl : y' = z' := Option.some.inj (hby'.symm.trans hz')
      -- the same hash, so the same host block, with its transactions and receipts
      obtain rfl : y = y' := by
        have hh := hsame (by omega) hy hy'
        rw [hh, hVz'] at hVz
        exact (Option.some.inj hVz).symm
      -- and the blocks below are the same
      have hbelow : tier.take (j + 1) = tier'.take (j + 1) := by
        have hlt := (List.getElem?_eq_some_iff.mp hb).1
        have hlt' := (List.getElem?_eq_some_iff.mp hb').1
        have hget := List.getElem?_eq_getElem (l := tier) (i := j) (by omega)
        have hget' := List.getElem?_eq_getElem (l := tier') (i := j) (by omega)
        exact (ih (by omega) _ _ hget hget').2
      have hnum : y.number - X.hostDeployHeight - 1 + 1 = j + 1 := by
        rw [h.numbers j y hy]
        omega
      rw [hnum] at hrun hrun'
      rw [hbelow] at hrun
      have huntag : b.untag = b'.untag := Except.ok.inj (hrun.symm.trans hrun')
      have heq : b = b' := by
        obtain ⟨header, txs, receipts, bundle, host⟩ := b
        obtain ⟨header', txs', receipts', bundle', host'⟩ := b'
        obtain rfl : host = host' := hby.trans hby'.symm
        obtain ⟨rfl, rfl, rfl, rfl⟩ := ExecutedBlock.mk.inj huntag
        rfl
      refine ⟨heq, ?_⟩
      rw [List.take_add_one (i := j + 1), List.take_add_one (i := j + 1), hb, hb', heq, hbelow]

/--
**Nodes agree.** Take two nodes of one rollup that follow the same host over providers of
their own, each through any faults, crashes, restarts and reorgs, as long as each turn has a
clean delivery of blocks that were fetched whole. If at some height two tiers of theirs hold
blocks made from host blocks of the same hash, both hold the same blocks up to there.
-/
theorem nodes_agree {Q : Provider T R} (hX : MapsHeights X) (hP : P.Immutable (headersOf V))
    (hQ : Q.Immutable (headersOf V)) {genesis : ExecutedBlock Tx G S}
    {p q : System Tx G (Tagged S (RpcBlock T R))}
    (hp : SystemRun P X.tagged (genesis.tag none) (Faithful P V) p)
    (hq : SystemRun Q X.tagged (genesis.tag none) (Faithful Q V) q)
    {tier tier' : List (ExecutedBlock Tx G (Tagged S (RpcBlock T R)))}
    (ht : IsTier p.storage tier) (ht' : IsTier q.storage tier') {k : Nat}
    {b b' : ExecutedBlock Tx G (Tagged S (RpcBlock T R))} (hb : tier[k]? = some b)
    (hb' : tier'[k]? = some b') {x x' : RpcBlock T R} (hx : b.host = some x)
    (hx' : b'.host = some x') (hhash : x.hash = x'.hash) :
    tier.take (k + 1) = tier'.take (k + 1) := by
  obtain ⟨hosts, h⟩ := (onDerivedChain_run hX hP hp).tier ht
  obtain ⟨hosts', h'⟩ := (onDerivedChain_run hX hQ hq).tier ht'
  cases k with
  | zero =>
      -- genesis has no host block
      rw [h.starts b hb] at hx
      cases hx
  | succ k =>
      obtain ⟨y, hy, hby⟩ := h.tags k b hb
      obtain ⟨y', hy', hby'⟩ := h'.tags k b' hb'
      obtain rfl := Option.some.inj (hx.symm.trans hby)
      obtain rfl := Option.some.inj (hx'.symm.trans hby')
      exact (h.agree h' hy hy' hhash (k + 1) (Nat.le_refl _) b b' hb hb').2

/-! ## Two nodes -/

/-- At one instant, a provider over stored blocks answers with whole ones. -/
theorem serving_whole {known : List (RpcBlock T R)} {canon : Instant → List (RpcBlock T R)}
    (hstore : ∀ t, ∀ b ∈ canon t, known.find? (fun x => x.hash = b.hash) = some b) (t : Instant) :
    FetchesWhole (Provider.serving known canon) (fun h => known.find? fun b => b.hash = h)
      (Timing.constant t) where
  byNumber := by
    intro i n b h
    unfold fetchBlockByNumber tryJoin at h
    dsimp only [Provider.serving, Timing.constant] at h
    cases hfind : (canon t).find? fun b => b.number = n with
    | none =>
        rw [hfind] at h
        cases h
    | some x =>
        rw [hfind] at h
        obtain rfl : x = b := Except.ok.inj h
        exact hstore t x (List.mem_of_find?_eq_some hfind)
  byHash := by
    intro i k b h
    unfold fetchBlockByHash tryJoin at h
    dsimp only [Provider.serving, Timing.constant] at h
    cases hfind : known.find? fun b => b.hash = k with
    | none =>
        rw [hfind] at h
        cases h
    | some x =>
        rw [hfind] at h
        obtain rfl : x = b := Except.ok.inj h
        have hhash : x.hash = k := by simpa using List.find?_some hfind
        rw [hhash, hfind]

/-- The process is started, takes one batch, and dies before cold storage has it; it is started
again, and takes the batch again with one more block. -/
def lostCold : List SystemMove :=
  [.start 1 32 12 0 none, backfillTurn 0, .crash 2 1, .start 1 32 12 0 none, backfillTurn 1]

/-- One node has two lives, and its provider one more block in the second; another is started
once, with another batch size, over a provider that has them all. -/
theorem nodes_agree_lives :
    let chain := [bareBlock 10 0 9, bareBlock 11 1 10, bareBlock 12 2 11]
    let P := Provider.reorging chain (chain.take 2) chain
    let Q := Provider.reorging chain chain chain
    let genesis := (emptyBlock 0).tag none
    let p := (runInputs (systemStep P (emptyRollup 0).tagged genesis) lostCold (.down ⟨[], []⟩)).2
    let q := (runInputs (systemStep Q (emptyRollup 0).tagged genesis)
      [.start 1 16 12 0 none, backfillTurn 0] (.down ⟨[], []⟩)).2
    p.storage.hot.length = 3 ∧ p.storage.hot.take 3 = q.storage.cold.take 3 := by
  intro chain P Q genesis p q
  let V := fun h => chain.find? fun b => b.hash = h
  have hP : P.Immutable (headersOf V) := reorging_immutable (by decide) (by decide) (by decide)
  have hQ : Q.Immutable (headersOf V) := reorging_immutable (by decide) (by decide) (by decide)
  have hwholeP (t : Instant) : FetchesWhole P V (Timing.constant t) := by
    refine serving_whole (fun t b hb => ?_) t
    by_cases ht : t = 0
    · rw [if_pos ht] at hb
      revert b
      decide
    · rw [if_neg ht] at hb
      revert b
      decide
  have hwholeQ (t : Instant) : FetchesWhole Q V (Timing.constant t) := by
    refine serving_whole (fun t b hb => ?_) t
    rw [ite_self] at hb
    revert b
    decide
  let life (batch : Nat) : System Unit Unit (Tagged Unit (RpcBlock Unit Unit)) :=
    .up (NodeState.started ⟨[genesis], [genesis]⟩)
      (startNotifier 0 1 batch 12 0 none (⟨[genesis], [genesis]⟩ : UnifiedStorage Unit Unit
        (Tagged Unit (RpcBlock Unit Unit))))
  -- a node that stores genesis only has no tip that could be redelivered
  have hnone {n : RpcHostNotifier} {t : RpcBlock Unit Unit} : ¬ CatchingUp
      (NodeState.started (⟨[genesis], [genesis]⟩ : UnifiedStorage Unit Unit
        (Tagged Unit (RpcBlock Unit Unit)))) n t := by
    rintro ⟨⟨b, hb, hhost⟩, _⟩
    obtain rfl := Option.some.inj hb
    cases hhost
  have hlinked (n : Nat) : Linked RpcBlock.hash RpcBlock.parentHash (chain.take n) := by
    refine Linked.initial ?_ (List.take_prefix n chain)
    exact linked_cons.mpr ⟨fun x hx => by rw [← Option.some.inj hx]; rfl,
      linked_cons.mpr ⟨fun x hx => by rw [← Option.some.inj hx]; rfl,
        linked_cons.mpr ⟨by simp, linked_nil⟩⟩⟩
  have hfirst : Allowed P (backfillTurn 0) (life 32) :=
    cleanDelivery_backfill (chain.take 2) rfl rfl rfl (by decide +kernel) (hlinked 2)
      fun t ht => (hnone ht).elim
  have hsecond : Allowed P (backfillTurn 1) (life 32) :=
    cleanDelivery_backfill (chain.take 3) rfl rfl rfl (by decide +kernel) (hlinked 3)
      fun t ht => (hnone ht).elim
  have honce : Allowed Q (backfillTurn 0) (life 16) :=
    cleanDelivery_backfill (chain.take 3) rfl rfl rfl (by decide +kernel) (hlinked 3)
      fun t ht => (hnone ht).elim
  have hcrashed : (systemStep P (emptyRollup 0).tagged genesis (.crash 2 1)
      (systemStep P (emptyRollup 0).tagged genesis (backfillTurn 0) (life 32)).2).2
        = .down ⟨[genesis, (emptyBlock 1).tag (some (bareBlock 11 1 10))], [genesis]⟩ :=
    congrArg System.down (by decide +kernel)
  have hadmits : Admits (systemStep P (emptyRollup 0).tagged genesis) (Faithful P V) lostCold
      (.down ⟨[], []⟩) := by
    refine ⟨⟨trivial, trivial⟩, ⟨hfirst, hwholeP 0⟩, ⟨trivial, trivial⟩, ⟨trivial, trivial⟩,
      ⟨?_, hwholeP 1⟩, trivial⟩
    show Allowed P (backfillTurn 1) (systemStep P (emptyRollup 0).tagged genesis
      (.start 1 32 12 0 none) (systemStep P (emptyRollup 0).tagged genesis (.crash 2 1)
        (systemStep P (emptyRollup 0).tagged genesis (backfillTurn 0) (life 32)).2).2).2
    rw [hcrashed]
    exact hsecond
  have hadmits' : Admits (systemStep Q (emptyRollup 0).tagged genesis) (Faithful Q V)
      [.start 1 16 12 0 none, backfillTurn 0] (.down ⟨[], []⟩) :=
    ⟨⟨trivial, trivial⟩, ⟨honce, hwholeQ 0⟩, trivial⟩
  have hhot : p.storage.hot = [genesis, (emptyBlock 1).tag (some (bareBlock 11 1 10)),
      (emptyBlock 2).tag (some (bareBlock 12 2 11))] := by decide +kernel
  have hcold : q.storage.cold = [genesis, (emptyBlock 1).tag (some (bareBlock 11 1 10)),
      (emptyBlock 2).tag (some (bareBlock 12 2 11))] := by decide +kernel
  refine ⟨by rw [hhot]; rfl, ?_⟩
  exact nodes_agree (fun _ => rfl) hP hQ (systemRun_moves hadmits) (systemRun_moves hadmits')
    (Or.inl rfl) (Or.inr rfl) (by rw [hhot]; rfl) (by rw [hcold]; rfl) rfl rfl rfl

end NodeComponents.Node
