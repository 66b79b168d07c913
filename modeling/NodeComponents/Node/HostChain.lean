import NodeComponents.HostRpc.Segments
import NodeComponents.Node.Events
import NodeComponents.Node.Tagged

/-!
# The host chain behind the stored chain

Each stored block was made from one host block, and those should form one
hash-linked chain. Two chains meet here: the `hosts` behind storage, which the
tags record, and the `stack` of blocks delivered since the last start.

`notification_hosts` is what one notification does to them. A commit drops what
lies at or below the stored tip by height alone, so it keeps the hosts one chain
only if the block delivered at that height is the one storage was made from
(`Redelivers`). Once the stack has reached the stored tip that is no longer a
question: the two chains end in one block, and agree below it.
-/

namespace NodeComponents.Node

open HostRpc Lib Rpc

variable {T R Tx G S : Type} {P : Provider T R} {U : B256 → Option RpcHeader}
  {X : Externals (RpcChainSegment T R) (RpcBlock T R) Tx G S} {F : Faults}
  {hot : List (ExecutedBlock Tx G (Tagged S (RpcBlock T R)))} {hosts : List (RpcBlock T R)}

/-! ## Host chains -/

/-- Known host blocks, each the child of the one before it. -/
structure HostChain (U : B256 → Option RpcHeader) (l : List (RpcBlock T R)) : Prop where
  linked : Linked RpcBlock.hash RpcBlock.parentHash l
  consecutive : Consecutive RpcBlock.number l
  known : ∀ b ∈ l, U b.hash = some b.block.header

theorem HostChain.suffix {l m : List (RpcBlock T R)} (h : HostChain U m) (hs : l <:+ m) :
    HostChain U l :=
  ⟨h.linked.suffix hs, h.consecutive.suffix hs, fun b hb => h.known b (hs.subset hb)⟩

/-- **Two host chains that end in the same hash agree** at every number both have. -/
theorem HostChain.agree {l m : List (RpcBlock T R)} (hl : HostChain U l) (hm : HostChain U m)
    {x y : RpcBlock T R} (hx : l.getLast? = some x) (hy : m.getLast? = some y)
    (hxy : x.hash = y.hash) {a b : RpcBlock T R} (ha : a ∈ l) (hb : b ∈ m)
    (hnum : a.number = b.number) : a.hash = b.hash := by
  -- receipts are no part of a hash, so the chains are compared by their headers
  have hsame {a b : RpcBlock T R} (ha : a ∈ l) (hb : b ∈ m) (h : a.hash = b.hash) :
      a.block.header = b.block.header := by
    have hb' := hm.known b hb
    rw [← h, hl.known a ha] at hb'
    exact Option.some.inj hb'
  have hlinked {l : List (RpcBlock T R)} (h : HostChain U l) :
      Linked RpcHeader.hash RpcHeader.parentHash (l.map fun b => b.block.header) :=
    linked_map.mpr h.linked
  have hcons {l : List (RpcBlock T R)} (h : HostChain U l) :
      Consecutive RpcHeader.number (l.map fun b => b.block.header) :=
    consecutive_map.mpr h.consecutive
  have hinj : ∀ c ∈ l.map (fun b => b.block.header), ∀ d ∈ m.map (fun b => b.block.header),
      c.hash = d.hash → c = d := by
    intro c hc d hd hcd
    obtain ⟨a, ha, rfl⟩ := List.mem_map.mp hc
    obtain ⟨b, hb, rfl⟩ := List.mem_map.mp hd
    exact hsame ha hb hcd
  have hlast : (l.map fun b => b.block.header).getLast?
      = (m.map fun b => b.block.header).getLast? := by
    rw [List.getLast?_map, List.getLast?_map, hx, hy, Option.map_some, Option.map_some,
      hsame (List.mem_of_getLast? hx) (List.mem_of_getLast? hy) hxy]
  exact congrArg RpcHeader.hash ((hlinked hl).agree (hlinked hm) hinj (hcons hl) (hcons hm) hlast
    (List.mem_map_of_mem ha) (List.mem_map_of_mem hb) hnum)

/-! ## Host blocks behind storage -/

/-- The extractor maps each host block above the deploy height to its rollup height. -/
def MapsHeights (X : Externals (RpcChainSegment T R) (RpcBlock T R) Tx G S) : Prop :=
  ∀ seg, X.extractSignet seg
    = (seg.blocks.filter fun b => X.hostDeployHeight < b.number).map
        fun b => ⟨b.number - X.hostDeployHeight, b⟩

/-- **What storage must be**: from rollup height one on, the host block of a block has the
host block of the block below it as its parent. -/
def StemsFromOneChain (tier : List (ExecutedBlock Tx G (Tagged S (RpcBlock T R)))) : Prop :=
  ∀ k below above, 1 ≤ k → tier[k]? = some below → tier[k + 1]? = some above →
    ∃ x y, below.host = some x ∧ above.host = some y ∧ y.parentHash = x.hash

/-- The host blocks behind the stored blocks above genesis. -/
structure StoredHosts (U : B256 → Option RpcHeader) (deploy : Nat)
    (genesis : ExecutedBlock Tx G (Tagged S (RpcBlock T R)))
    (hot : List (ExecutedBlock Tx G (Tagged S (RpcBlock T R)))) (hosts : List (RpcBlock T R)) :
    Prop where
  /-- The chain starts with genesis. -/
  starts : [genesis] <+: hot
  /-- They are the tags above it, in order. -/
  tags : hot.tail.map ExecutedBlock.host = hosts.map some
  /-- Each names the one below as its parent. -/
  linked : Linked RpcBlock.hash RpcBlock.parentHash hosts
  /-- They are numbered from the deploy height on. -/
  numbers : ∀ i x, hosts[i]? = some x → x.number = deploy + 1 + i
  /-- They are the ones behind their hashes. -/
  known : ∀ x ∈ hosts, U x.hash = some x.block.header

variable {deploy : Nat} {genesis : ExecutedBlock Tx G (Tagged S (RpcBlock T R))}

/-- Only genesis is stored. -/
theorem storedHosts_genesis : StoredHosts (T := T) (R := R) U deploy genesis [genesis] [] :=
  ⟨List.prefix_refl _, rfl, linked_nil, by simp, by simp⟩

theorem StoredHosts.ne_nil (h : StoredHosts U deploy genesis hot hosts) : hot ≠ [] := by
  obtain ⟨rest, rfl⟩ := h.starts
  simp

theorem StoredHosts.length (h : StoredHosts U deploy genesis hot hosts) :
    hot.length = hosts.length + 1 := by
  have htags := congrArg List.length h.tags
  have hpos := List.length_pos_iff.mpr h.ne_nil
  simp only [List.length_map, List.length_tail] at htags
  omega

theorem StoredHosts.consecutive (h : StoredHosts U deploy genesis hot hosts) :
    Consecutive RpcBlock.number hosts := consecutive_of_getElem? h.numbers

theorem StoredHosts.chain (h : StoredHosts U deploy genesis hot hosts) : HostChain U hosts :=
  ⟨h.linked, h.consecutive, h.known⟩

/-- The host block behind the stored tip is numbered by the stored height. -/
theorem StoredHosts.tip_number (h : StoredHosts U deploy genesis hot hosts) {t : RpcBlock T R}
    (ht : hosts.getLast? = some t) : t.number = deploy + hosts.length ∧ 1 ≤ hosts.length := by
  have hpos := List.length_pos_of_mem (List.mem_of_getLast? ht)
  rw [List.getLast?_eq_getElem?] at ht
  have hnum := h.numbers _ t ht
  exact ⟨by omega, hpos⟩

/-- **Storage with hosts stems from one chain.** -/
theorem StoredHosts.stems (h : StoredHosts U deploy genesis hot hosts) : StemsFromOneChain hot := by
  intro k below above hk hbelow habove
  have htag {i : Nat} {b : ExecutedBlock Tx G (Tagged S (RpcBlock T R))}
      (hb : hot[i + 1]? = some b) : ∃ x, hosts[i]? = some x ∧ b.host = some x := by
    have hi := congrArg (fun l => l[i]?) h.tags
    simp only [List.getElem?_map, List.getElem?_tail, hb, Option.map_some] at hi
    obtain ⟨x, hx, heq⟩ := Option.map_eq_some_iff.mp hi.symm
    exact ⟨x, hx, heq.symm⟩
  obtain ⟨i, rfl⟩ : ∃ i, k = i + 1 := ⟨k - 1, by omega⟩
  obtain ⟨x, hx, hxb⟩ := htag hbelow
  obtain ⟨y, hy, hyb⟩ := htag habove
  refine ⟨x, y, hxb, hyb, ?_⟩
  refine h.linked.parent_of_succ h.consecutive (List.mem_of_getElem? hx)
    (List.mem_of_getElem? hy) ?_
  rw [h.numbers _ _ hx, h.numbers _ _ hy]
  omega

/-- Cutting storage cuts the hosts. -/
theorem StoredHosts.take (h : StoredHosts U deploy genesis hot hosts) (n : Nat) :
    StoredHosts U deploy genesis (hot.take (n + 1)) (hosts.take n) where
  starts := by
    obtain ⟨rest, rfl⟩ := h.starts
    exact ⟨rest.take n, rfl⟩
  tags := by
    have hcut := congrArg (List.take n) h.tags
    rw [← List.map_take, ← List.map_take] at hcut
    rw [← hcut]
    cases hot with
    | nil => exact absurd rfl h.ne_nil
    | cons b bs => rfl
  linked := h.linked.initial (List.take_prefix n hosts)
  numbers := by
    intro i x hx
    by_cases hi : i < n
    · exact h.numbers i x (by rwa [List.getElem?_take_of_lt hi] at hx)
    · rw [List.getElem?_take_eq_none (by omega)] at hx
      exact absurd hx (by simp)
  known := fun x hx => h.known x (List.mem_of_mem_take hx)

/-- Pushing blocks made from linked host blocks pushes those. -/
theorem StoredHosts.push (h : StoredHosts U deploy genesis hot hosts)
    {bs : List (ExecutedBlock Tx G (Tagged S (RpcBlock T R)))} {more : List (RpcBlock T R)}
    (htags : bs.map ExecutedBlock.host = more.map some)
    (hlinked : Linked RpcBlock.hash RpcBlock.parentHash more)
    (hnum : ∀ i x, more[i]? = some x → x.number = deploy + hosts.length + 1 + i)
    (hknown : ∀ x ∈ more, U x.hash = some x.block.header)
    (hjoin : ∀ t ∈ hosts.getLast?, ∀ x ∈ more.head?, x.parentHash = t.hash) :
    StoredHosts U deploy genesis (hot ++ bs) (hosts ++ more) where
  starts := h.starts.trans (List.prefix_append hot bs)
  tags := by
    rw [List.tail_append_of_ne_nil h.ne_nil, List.map_append, List.map_append, h.tags, htags]
  linked := linked_append.mpr ⟨h.linked, hlinked, hjoin⟩
  numbers := by
    intro i x hx
    by_cases hi : i < hosts.length
    · exact h.numbers i x (by rwa [List.getElem?_append_left hi] at hx)
    · rw [List.getElem?_append_right (by omega)] at hx
      have := hnum _ x hx
      omega
  known := by
    intro x hx
    rcases List.mem_append.mp hx with hx | hx
    · exact h.known x hx
    · exact hknown x hx

/-! ## Committing on them -/

/-- Blocks that are delivered over a stored tip: the one at its height is the one storage was
made from, and one that starts right above it names it. -/
structure Redelivers (t : RpcBlock T R) (blocks : List (RpcBlock T R)) : Prop where
  same : ∀ x ∈ blocks, x.number = t.number → x.hash = t.hash
  above : ∀ x ∈ blocks.head?, x.number = t.number + 1 → x.parentHash = t.hash

/-- The block emitted last is not above the stored tip, and is its host block at that height. -/
def InSync (deploy : Nat) (hosts : List (RpcBlock T R)) (top? : Option (RpcBlock T R)) : Prop :=
  ∀ top, top? = some top → top.number ≤ deploy + hosts.length ∧
    ∀ t, hosts.getLast? = some t → top.number = t.number → top.hash = t.hash

/-- The host blocks of the extracts above a height. -/
theorem freshExtracts_tagged (hX : MapsHeights X) (blocks : List (RpcBlock T R)) (r : Nat) :
    freshExtracts X.tagged ⟨blocks⟩ r
      = (blocks.filter fun b => X.hostDeployHeight + r < b.number).map
          fun b => ⟨b.number - X.hostDeployHeight, b⟩ := by
  have hextract : X.tagged.extractSignet ⟨blocks⟩ = X.extractSignet ⟨blocks⟩ := rfl
  unfold freshExtracts
  rw [hextract, hX, List.filter_map, List.filter_filter]
  congr 1
  refine List.filter_congr ?_
  intro b _
  show (decide (r < b.number - X.hostDeployHeight) && decide (X.hostDeployHeight < b.number)) = _
  rw [← Bool.decide_and]
  exact decide_eq_decide.mpr (by omega)

/-- The blocks grown from extracts carry their host blocks, one by one. -/
theorem grown_tags {old new : List (ExecutedBlock Tx G (Tagged S (RpcBlock T R)))}
    {xs : List (Extracts (RpcBlock T R))} (h : Grown (executes X.tagged) old xs new) :
    new.map ExecutedBlock.host
      = old.map ExecutedBlock.host ++ xs.map fun x => some x.hostBlock := by
  induction h with
  | nil => simp
  | cons hb _ ih =>
      rw [ih, List.map_append, List.map_singleton, (executes_tagged hb).1]
      simp

/-- The blocks of a segment above a height, where they are the next ones. -/
theorem above_tip {blocks : List (RpcBlock T R)} (hcons : Consecutive RpcBlock.number blocks)
    {tip : Nat} {f : RpcBlock T R}
    (hf : (blocks.filter fun b => tip < b.number).head? = some f) :
    (blocks.filter fun b => tip < b.number) <:+ blocks ∧
      (∀ x ∈ blocks.getLast?, (blocks.filter fun b => tip < b.number).getLast? = some x) ∧
      (f.number = tip + 1 ∧ (∃ p ∈ blocks, p.number = tip) ∨ blocks.head? = some f) := by
  obtain ⟨first, hfirst⟩ : ∃ first, blocks.head? = some first := by
    cases blocks with
    | nil => exact absurd hf (by simp)
    | cons first rest => exact ⟨first, rfl⟩
  have hdrop := hcons.filter_eq_drop hfirst tip
  rw [hdrop] at hf ⊢
  have hlt : tip + 1 - first.number < blocks.length := by
    by_contra hge
    rw [List.drop_eq_nil_of_le (by omega)] at hf
    exact absurd hf (by simp)
  refine ⟨List.drop_suffix _ _, ?_, ?_⟩
  · intro x hx
    rw [List.getLast?_drop, if_neg (by omega)]
    exact hx
  · by_cases hbelow : first.number ≤ tip
    · -- the segment reaches down to the height
      refine Or.inl ⟨?_, ?_⟩
      · rw [List.head?_drop] at hf
        have hnum := hcons.getElem? hfirst hf
        omega
      · have hget := List.getElem?_eq_getElem (l := blocks) (i := tip - first.number) (by omega)
        refine ⟨_, List.mem_of_getElem? hget, ?_⟩
        have hnum := hcons.getElem? hfirst hget
        omega
    · refine Or.inr ?_
      rwa [show tip + 1 - first.number = 0 by omega, List.drop_zero] at hf

/-- The host blocks of a segment above the stored tip. -/
def freshHosts (deploy : Nat) (hosts blocks : List (RpcBlock T R)) : List (RpcBlock T R) :=
  blocks.filter fun b => deploy + hosts.length < b.number

/-- The first extract that is executed is the next height, for its parent is stored. -/
theorem freshHosts_head (h : StoredHosts U deploy genesis hot hosts) {blocks : List (RpcBlock T R)}
    {done rest : List (Extracts (RpcBlock T R))}
    (hsplit : (freshHosts deploy hosts blocks).map (fun b => ⟨b.number - deploy, b⟩) = done ++ rest)
    (hne : done ≠ []) {new : List (ExecutedBlock Tx G (Tagged S (RpcBlock T R)))}
    (hgrown : Grown (executes X.tagged) hot done new) :
    ∃ f, (freshHosts deploy hosts blocks).head? = some f ∧
      f.number = deploy + hosts.length + 1 := by
  obtain ⟨x, xs, rfl⟩ := List.exists_cons_of_ne_nil hne
  cases hfresh : freshHosts deploy hosts blocks with
  | nil =>
      rw [hfresh] at hsplit
      exact absurd hsplit (by simp)
  | cons f fs =>
      rw [hfresh] at hsplit
      obtain rfl : (⟨f.number - deploy, f⟩ : Extracts (RpcBlock T R)) = x :=
        List.head_eq_of_cons_eq hsplit
      have hmem : f ∈ freshHosts deploy hosts blocks := by
        rw [hfresh]
        exact List.mem_cons_self
      have habove : deploy + hosts.length < f.number :=
        of_decide_eq_true (List.mem_filter.mp hmem).2
      have hle : f.number - deploy ≤ hot.length := by
        cases hgrown with
        | cons hb _ => exact (executes_tagged hb).2
      rw [h.length] at hle
      exact ⟨f, rfl, by omega⟩

/-- **What is executed over a redelivered tip continues the hosts.** -/
theorem executed_hosts (h : StoredHosts U deploy genesis hot hosts) {blocks : List (RpcBlock T R)}
    (hblocks : HostChain U blocks) (hred : ∀ t, hosts.getLast? = some t → Redelivers t blocks)
    {done rest : List (Extracts (RpcBlock T R))}
    (hsplit : (freshHosts deploy hosts blocks).map (fun b => ⟨b.number - deploy, b⟩) = done ++ rest)
    {bs : List (ExecutedBlock Tx G (Tagged S (RpcBlock T R)))}
    (hgrown : Grown (executes X.tagged) hot done (hot ++ bs)) :
    StoredHosts U deploy genesis (hot ++ bs)
      (hosts ++ (freshHosts deploy hosts blocks).take done.length) := by
  have hdone : done = ((freshHosts deploy hosts blocks).take done.length).map
      fun b => ⟨b.number - deploy, b⟩ := by
    rw [List.map_take, hsplit, List.take_left]
  have htags : bs.map ExecutedBlock.host
      = ((freshHosts deploy hosts blocks).take done.length).map some := by
    have hall := grown_tags hgrown
    rw [List.map_append, List.append_cancel_left_eq] at hall
    have hdoneHosts := congrArg (List.map fun x => some x.hostBlock) hdone
    rw [List.map_map] at hdoneHosts
    exact hall.trans hdoneHosts
  by_cases hne : done = []
  · subst hne
    exact h.push htags linked_nil (by simp) (by simp) (by simp)
  obtain ⟨f, hf, hfnum⟩ := freshHosts_head h hsplit hne hgrown
  obtain ⟨hsuffix, _, hfirst⟩ := above_tip hblocks.consecutive hf
  have hfresh : HostChain U (freshHosts deploy hosts blocks) := hblocks.suffix hsuffix
  refine h.push htags (hfresh.linked.initial (List.take_prefix _ _)) ?_ ?_ ?_
  · intro i x hx
    obtain ⟨below, hbelow⟩ := List.take_prefix done.length (freshHosts deploy hosts blocks)
    have hget : (freshHosts deploy hosts blocks)[i]? = some x := by
      rw [← hbelow, List.getElem?_append_left (List.getElem?_eq_some_iff.mp hx).1]
      exact hx
    have hnum := hfresh.consecutive.getElem? hf hget
    omega
  · intro x hx
    exact hfresh.known x (List.mem_of_mem_take hx)
  · -- the block below the first one is the stored tip's, wherever the segment starts
    intro t ht x hx
    obtain rfl : f = x := by
      rw [Option.mem_def, List.head?_take, if_neg (by simpa using hne), hf] at hx
      exact Option.some.inj hx
    have htnum := (h.tip_number ht).1
    rcases hfirst with ⟨_, p, hp, hpnum⟩ | hfirst
    · rw [← (hred t ht).same p hp (by omega)]
      exact hblocks.linked.parent_of_succ hblocks.consecutive hp
        (hsuffix.subset (List.mem_of_head? hf)) (by omega)
    · exact (hred t ht).above f hfirst (by omega)

/-- Once everything above the tip is stored, storage is in sync with the last block. -/
theorem inSync_committed {blocks : List (RpcBlock T R)}
    (hcons : Consecutive RpcBlock.number blocks)
    (hred : ∀ t, hosts.getLast? = some t → Redelivers t blocks)
    (h : StoredHosts U deploy genesis hot (hosts ++ freshHosts deploy hosts blocks)) :
    InSync deploy (hosts ++ freshHosts deploy hosts blocks) blocks.getLast? := by
  intro top htop
  have hmem := List.mem_of_getLast? htop
  cases hhead : (freshHosts deploy hosts blocks).head? with
  | none =>
      -- nothing lies above the tip
      have hnil := List.head?_eq_none_iff.mp hhead
      have hle := List.filter_eq_nil_iff.mp hnil top hmem
      rw [decide_eq_true_eq] at hle
      rw [hnil, List.append_nil]
      exact ⟨by omega, fun t ht hnum => (hred t ht).same top hmem hnum⟩
  | some f =>
      have hlast : (hosts ++ freshHosts deploy hosts blocks).getLast? = some top := by
        rw [List.getLast?_append, freshHosts, (above_tip hcons hhead).2.1 top htop]
        rfl
      refine ⟨Nat.le_of_eq (h.tip_number hlast).1, ?_⟩
      intro t ht _
      rw [Option.some.inj (hlast.symm.trans ht)]

/-- **A commit over a redelivered tip keeps the hosts one chain**, and if it ends well storage
is in sync with the last block delivered. -/
theorem commit_hosts (hX : MapsHeights X) {s : NodeState Tx G (Tagged S (RpcBlock T R))}
    (h : StoredHosts U X.hostDeployHeight genesis s.storage.hot hosts)
    (hcold : s.storage.cold = s.storage.hot) {blocks : List (RpcBlock T R)}
    (hblocks : HostChain U blocks)
    (hred : ∀ t, hosts.getLast? = some t → Redelivers t blocks) :
    let out := processCommittedChain X.tagged F ⟨blocks⟩ s
    ∃ hosts', StoredHosts U X.hostDeployHeight genesis out.2.storage.hot hosts'
      ∧ out.2.storage.cold = out.2.storage.hot
      ∧ ∀ v, out.1 = .ok v → (blocks = [] → hosts' = hosts) ∧
          InSync X.hostDeployHeight hosts' blocks.getLast? := by
  intro out
  cases hread : F.commitRead with
  | some m =>
      have hout : out = (.error (.storage m), s) := by
        simp only [out, processCommittedChain, readLastRollupBlock, hread]
      rw [hout]
      exact ⟨hosts, h, hcold, fun v hv => absurd hv (by simp)⟩
  | none =>
  obtain ⟨done, rest, bs, extra, res, hsplit, hgrown, hstate, hend, herr, _⟩ :=
    processCommittedChain_spec (X := X.tagged) (F := F) s ⟨blocks⟩ hread
  rw [lastRollupBlock_of_length h.length, freshExtracts_tagged hX] at hsplit
  have hpushed := executed_hosts h hblocks hred hsplit hgrown
  have hhot : out.2.storage.hot = s.storage.hot ++ bs := by rw [hstate]; rfl
  have htiers : out.2.storage.cold = out.2.storage.hot := by
    rw [hstate]
    show s.storage.cold ++ bs = s.storage.hot ++ bs
    rw [hcold]
  refine ⟨_, by rw [hhot]; exact hpushed, htiers, ?_⟩
  intro v hv
  -- no error: the loop executed all of them
  have hrest : rest = [] :=
    hend.rest_nil fun e he => absurd ((herr e he).symm.trans hv) (by simp)
  have hall : (freshHosts X.hostDeployHeight hosts blocks).take done.length
      = freshHosts X.hostDeployHeight hosts blocks := by
    have hlen := congrArg List.length hsplit
    rw [hrest, List.length_map, List.append_nil] at hlen
    exact List.take_of_length_le (Nat.le_of_eq hlen)
  rw [hall] at hpushed ⊢
  refine ⟨?_, inSync_committed hblocks.consecutive hred hpushed⟩
  intro hnil
  rw [hnil]
  exact List.append_nil hosts

/-! ## Reverting below them -/

/-- **A revert leaves storage at the block the replacement is a child of**, or leaves it as it
was because everything reverted lies at or below the deploy height. -/
theorem revert_hosts {s : NodeState Tx G (Tagged S (RpcBlock T R))}
    (h : StoredHosts U X.hostDeployHeight genesis s.storage.hot hosts)
    (hcold : s.storage.cold = s.storage.hot) {stack : List (RpcBlock T R)}
    (hstack : HostChain U stack) (hsync : InSync X.hostDeployHeight hosts stack.getLast?)
    {old : RevertRange} {top below : RpcBlock T R} (htop : stack.getLast? = some top)
    (htip : old.tip = top.number) (hbelow : below ∈ stack) (hfirst : below.number + 1 = old.first) :
    let out := onHostRevert X.tagged F old s
    ∃ hosts', StoredHosts U X.hostDeployHeight genesis out.2.storage.hot hosts'
      ∧ out.2.storage.cold = out.2.storage.hot
      ∧ ∀ v, out.1 = .ok v → (hosts' = hosts ∧ top.number ≤ X.hostDeployHeight)
          ∨ ∀ t, hosts'.getLast? = some t → t.number = below.number ∧ t.hash = below.hash := by
  intro out
  have hend : RevertEnd X.tagged F old s out.1 out.2 := onHostRevert_end X.tagged F old s
  generalize out.1 = res at hend
  generalize out.2 = s' at hend
  cases hend with
  | below hle => exact ⟨hosts, h, hcold, fun _ _ => Or.inl ⟨rfl, by rw [← htip]; exact hle⟩⟩
  | refused e => exact ⟨hosts, h, hcold, fun v hv => absurd hv (by simp)⟩
  | cut habove hcover =>
      have hstorage :
          (revertTo X.tagged F.now s (revertTarget X.hostDeployHeight old.first)).storage
            = s.storage.unwindAbove (revertTarget X.hostDeployHeight old.first) := by
        unfold revertTo
        dsimp only
        split <;> rfl
      rw [lastRollupBlock_of_length h.length] at hcover
      have hpair : X.tagged.hostDeployHeight = X.hostDeployHeight := rfl
      rw [hpair] at habove hcover ⊢
      generalize hn : revertTarget X.hostDeployHeight old.first = n at hstorage ⊢
      rw [hstorage]
      refine ⟨hosts.take n, h.take n, ?_, ?_⟩
      · show s.storage.cold.take (n + 1) = s.storage.hot.take (n + 1)
        rw [hcold]
      intro v _
      refine Or.inr ?_
      intro t ht
      -- the reverted tip is the stored one
      have hle := (hsync top htop).1
      have hpos := ((h.take n).tip_number ht).2
      have hnum := ((h.take n).tip_number ht).1
      rw [List.length_take] at hpos hnum
      obtain ⟨t₀, ht₀⟩ : ∃ t₀, hosts.getLast? = some t₀ := by
        cases hq : hosts.getLast? with
        | none =>
            rw [List.getLast?_eq_none_iff.mp hq, List.length_nil] at hpos
            omega
        | some t₀ => exact ⟨t₀, rfl⟩
      have htnum := (h.tip_number ht₀).1
      have hhash := (hsync top htop).2 t₀ ht₀ (by omega)
      have htarget : X.hostDeployHeight + n + 1 = old.first := by
        unfold revertTarget hostBlockToRollupBlockNum at hn
        by_cases hdeploy : X.hostDeployHeight ≤ old.first
        · rw [if_pos hdeploy, Option.getD_some] at hn
          omega
        · rw [if_neg hdeploy, Option.getD_none] at hn
          omega
      have hfle := old.first_le_tip
      have heq : t.number = below.number := by omega
      have hmem : t ∈ hosts := List.mem_of_mem_take (List.mem_of_getLast? ht)
      exact ⟨heq, h.chain.agree hstack ht₀ htop hhash.symm hmem hbelow heq⟩

/-! ## One notification -/

/-- Blocks on top of a block that agrees with the stored tip redeliver it. -/
theorem Redelivers.of_top {kept blocks : List (RpcBlock T R)} {x t : RpcBlock T R}
    (hchain : HostChain U (kept ++ blocks)) (hx : kept.getLast? = some x)
    (hnum : x.number = t.number) (hhash : x.hash = t.hash) : Redelivers t blocks := by
  obtain ⟨_, hcons, hnext⟩ := consecutive_append.mp hchain.consecutive
  obtain ⟨_, _, hlink⟩ := linked_append.mp hchain.linked
  refine ⟨?_, ?_⟩
  · intro y hy hynum
    obtain ⟨i, hi⟩ := List.mem_iff_getElem?.mp hy
    obtain ⟨first, hfirst⟩ : ∃ first, blocks.head? = some first := by
      cases blocks with
      | nil => exact absurd hy (by simp)
      | cons first rest => exact ⟨first, rfl⟩
    have hge := hcons.getElem? hfirst hi
    have hsucc := hnext x hx first hfirst
    omega
  · intro y hy _
    rw [← hhash]
    exact hlink x hx y hy

/-- The last block emitted lies below the stored tip, if anything was emitted. -/
def Behind (hosts stack : List (RpcBlock T R)) : Prop :=
  ∀ top t, stack.getLast? = some top → hosts.getLast? = some t → top.number < t.number

/-- Behind the stored tip the provider decides what is redelivered; at it the stack does. -/
theorem redelivers_committed (h : StoredHosts U deploy genesis hot hosts)
    {stack blocks : List (RpcBlock T R)} (hchain : HostChain U (stack ++ blocks))
    (hsync : InSync deploy hosts stack.getLast?)
    (hred : Behind hosts stack → ∀ t, hosts.getLast? = some t → Redelivers t blocks) :
    ∀ t, hosts.getLast? = some t → Redelivers t blocks := by
  intro t ht
  have htnum := (h.tip_number ht).1
  by_cases hbehind : Behind hosts stack
  · exact hred hbehind t ht
  · obtain ⟨top, htop, hge⟩ : ∃ top, stack.getLast? = some top ∧ t.number ≤ top.number := by
      by_contra hnone
      refine hbehind ?_
      intro top t' htop ht'
      obtain rfl := Option.some.inj (ht.symm.trans ht')
      by_contra hge
      exact hnone ⟨top, htop, by omega⟩
    obtain ⟨hle, hhash⟩ := hsync top htop
    have hnum : top.number = t.number := by omega
    exact Redelivers.of_top hchain htop hnum (hhash t ht hnum)

/-- What handling a notification must leave: hosts behind both tiers, in sync with the new top
if it ended well. -/
def LeavesHosts (U : B256 → Option RpcHeader) (deploy : Nat)
    (genesis : ExecutedBlock Tx G (Tagged S (RpcBlock T R))) (top? : Option (RpcBlock T R))
    (out : Except NodeError Unit × NodeState Tx G (Tagged S (RpcBlock T R))) : Prop :=
  ∃ hosts', StoredHosts U deploy genesis out.2.storage.hot hosts'
    ∧ out.2.storage.cold = out.2.storage.hot
    ∧ ∀ u, out.1 = .ok u → InSync deploy hosts' top?

theorem chainCommitted_hosts (hX : MapsHeights X) {s : NodeState Tx G (Tagged S (RpcBlock T R))}
    (h : StoredHosts U X.hostDeployHeight genesis s.storage.hot hosts)
    (hcold : s.storage.cold = s.storage.hot) {stack blocks : List (RpcBlock T R)}
    (hsync : InSync X.hostDeployHeight hosts stack.getLast?)
    (hdelivered : HostChain U (stack ++ blocks))
    (hred : Behind hosts stack → ∀ t, hosts.getLast? = some t → Redelivers t blocks)
    (safe finalized : Option Nat) :
    LeavesHosts U X.hostDeployHeight genesis (stack ++ blocks).getLast?
      (handleNotification X.tagged F ⟨.chainCommitted ⟨blocks⟩, safe, finalized⟩ s) := by
  have hblocks : HostChain U blocks := hdelivered.suffix (List.suffix_append stack blocks)
  obtain ⟨hosts', hhosts, htiers, hok⟩ := commit_hosts (F := F) hX h hcold hblocks
    (redelivers_committed h hdelivered hsync hred)
  obtain ⟨hstorage, hokay⟩ :=
    handleNotification_commit (X := X.tagged) (F := F) s ⟨blocks⟩ safe finalized
  rw [← hstorage] at hhosts htiers
  refine ⟨hosts', hhosts, htiers, ?_⟩
  intro u hu
  obtain ⟨v, hv⟩ := hokay u hu
  obtain ⟨hsame, hsync'⟩ := hok v hv
  by_cases hnil : blocks = []
  · rw [hsame hnil, hnil, List.append_nil]
    exact hsync
  · rw [List.getLast?_append_of_ne_nil _ hnil]
    exact hsync'

theorem chainReorged_hosts (hX : MapsHeights X) {s : NodeState Tx G (Tagged S (RpcBlock T R))}
    (h : StoredHosts U X.hostDeployHeight genesis s.storage.hot hosts)
    (hcold : s.storage.cold = s.storage.hot) {stack blocks : List (RpcBlock T R)}
    (hstack : HostChain U stack) (hsync : InSync X.hostDeployHeight hosts stack.getLast?)
    {old : RevertRange} (hdelivered : HostChain U (popRange old stack ++ blocks))
    (hcont : Continues stack (.chainReorged old ⟨blocks⟩))
    (hred : Behind hosts stack → ∀ t, hosts.getLast? = some t → Redelivers t blocks)
    (safe finalized : Option Nat) :
    LeavesHosts U X.hostDeployHeight genesis (popRange old stack ++ blocks).getLast?
      (handleNotification X.tagged F ⟨.chainReorged old ⟨blocks⟩, safe, finalized⟩ s) := by
  obtain ⟨top, first, below, htop, htip, hfirst, hfnum, hbelow, hbnum, hp⟩ := hcont
  have hblocks : HostChain U blocks := hdelivered.suffix (List.suffix_append _ blocks)
  have hnil : blocks ≠ [] := by
    intro hnil
    rw [hnil] at hfirst
    exact absurd hfirst (by simp)
  obtain ⟨hosts₁, hhosts₁, htiers₁, hcut⟩ :=
    revert_hosts (F := F) h hcold hstack hsync htop htip hbelow hbnum
  have hrevert : revertPart X.tagged F ⟨.chainReorged old ⟨blocks⟩, safe, finalized⟩ s
      = onHostRevert X.tagged F old s := rfl
  have hcommit (s₁ : NodeState Tx G (Tagged S (RpcBlock T R))) :
      commitPart X.tagged F ⟨.chainReorged old ⟨blocks⟩, safe, finalized⟩ s₁
        = processCommittedChain X.tagged F ⟨blocks⟩ s₁ := rfl
  rcases handleNotification_parts X.tagged F ⟨.chainReorged old ⟨blocks⟩, safe, finalized⟩ s
    with ⟨_, ⟨e, he⟩, hstorage⟩ | ⟨⟨v, hv⟩, hstorage, hokay⟩
  · -- the revert was refused, and nothing is committed behind it
    rw [hrevert] at hstorage
    rw [← hstorage] at hhosts₁ htiers₁
    refine ⟨hosts₁, hhosts₁, htiers₁, ?_⟩
    intro u hu
    exact absurd (he.symm.trans hu) (by simp)
  · rw [hrevert] at hv hstorage hokay
    rw [hcommit] at hstorage hokay
    have hred₁ : ∀ t, hosts₁.getLast? = some t → Redelivers t blocks := by
      intro t ht
      rcases hcut v hv with ⟨rfl, hdeploy⟩ | hcut
      · -- the stack is still at the deploy height, below every stored host
        refine hred ?_ t ht
        intro top' t' htop' ht'
        obtain rfl := Option.some.inj (htop.symm.trans htop')
        have htip' := h.tip_number ht'
        omega
      · -- storage was cut to the block the replacement is a child of
        obtain ⟨hnum, hhash⟩ := hcut t ht
        obtain ⟨_, hlast⟩ := popRange_getLast? hstack.consecutive htop htip hbelow hbnum.symm
        exact Redelivers.of_top hdelivered hlast hnum.symm hhash.symm
    obtain ⟨hosts', hhosts, htiers, hok⟩ :=
      commit_hosts (F := F) hX hhosts₁ htiers₁ hblocks hred₁
    rw [← hstorage] at hhosts htiers
    refine ⟨hosts', hhosts, htiers, ?_⟩
    intro u hu
    obtain ⟨w, hw⟩ := hokay u hu
    rw [List.getLast?_append_of_ne_nil _ hnil]
    exact (hok w hw).2

/-- **Handling what continues the stack keeps the hosts one chain**, and if it ends well storage
is in sync with the new top. -/
theorem notification_hosts (hX : MapsHeights X) {s : NodeState Tx G (Tagged S (RpcBlock T R))}
    (h : StoredHosts U X.hostDeployHeight genesis s.storage.hot hosts)
    (hcold : s.storage.cold = s.storage.hot) {stack : List (RpcBlock T R)}
    (hstack : HostChain U stack) (hsync : InSync X.hostDeployHeight hosts stack.getLast?)
    {n : HostNotification (RpcChainSegment T R)}
    (hdelivered : HostChain U (deliver stack n.kind))
    (hcont : n.kind = .chainCommitted ⟨[]⟩ ∨ Continues stack n.kind)
    (hred : Behind hosts stack → ∀ new t, n.kind.committedChain = some new →
      hosts.getLast? = some t → Redelivers t new.blocks) :
    LeavesHosts U X.hostDeployHeight genesis (deliver stack n.kind).getLast?
      (handleNotification X.tagged F n s) := by
  obtain ⟨kind, safe, finalized⟩ := n
  cases kind with
  | chainReverted old => exact absurd hcont (by simp [Continues])
  | chainCommitted new =>
      exact chainCommitted_hosts hX h hcold hsync hdelivered
        (fun hbehind t => hred hbehind _ t rfl) safe finalized
  | chainReorged old new =>
      rcases hcont with hempty | hcont
      · exact absurd hempty (by simp)
      · exact chainReorged_hosts hX h hcold hstack hsync hdelivered hcont
          (fun hbehind t => hred hbehind _ t rfl) safe finalized

end NodeComponents.Node
