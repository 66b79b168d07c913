import NodeComponents.Lib.Run
import NodeComponents.Node.Commit

/-!
# Crash recovery

A process may die at any point and leave either storage tier ahead of the other.
The next start cuts both to the shorter one, asks the host for everything from the
stored tip on, and the height filter drops what is already stored.

Against a host that does not reorg, with an EVM that is a function of the chain
and the host block, the stored chain is decided by its height alone: it is the
`IdealChain`. That is kept by every move of a process, crashes included, so a
process that crashed any number of times stores what one that never crashed does.
-/

namespace NodeComponents.Node

open Lib Rpc

variable {C H Tx G S : Type} {X : Externals C H Tx G S} {F : Faults}
  {genesis : ExecutedBlock Tx G S} {host : Nat → H} {segment : Nat → Nat → C}

/-! ## The chain the host determines -/

/-- The extracts of the rollup heights `r+1 .. r+n`. -/
def hostExtracts (deploy : Nat) (host : Nat → H) (r n : Nat) : List (Extracts H) :=
  (List.range' (r + 1) n).map fun k => ⟨k, host (k + deploy)⟩

/-- The rollup chain of height `r`: every height executed on its predecessor, from genesis. -/
def IdealChain (X : Externals C H Tx G S) (genesis : ExecutedBlock Tx G S) (host : Nat → H)
    (r : Nat) (chain : List (ExecutedBlock Tx G S)) : Prop :=
  Grown (runs X) [genesis] (hostExtracts X.hostDeployHeight host 0 r) chain

/-- The host does not reorg: `segment lo k` are its blocks `lo .. lo+k-1`, and the
extractor maps each block above the deploy height to its rollup height. -/
def StaticHost (X : Externals C H Tx G S) (host : Nat → H) (segment : Nat → Nat → C) : Prop :=
  ∀ lo k, X.extractSignet (segment lo k)
    = ((List.range' lo k).filter fun h => X.hostDeployHeight < h).map
        fun h => ⟨h - X.hostDeployHeight, host h⟩

theorem hostExtracts_append {deploy r m n : Nat} :
    hostExtracts deploy host r m ++ hostExtracts deploy host (r + m) n
      = hostExtracts deploy host r (m + n) := by
  unfold hostExtracts
  rw [← List.map_append, show r + m + 1 = r + 1 + m by omega, List.range'_append_1]

theorem hostExtracts_take {deploy r m n : Nat} :
    (hostExtracts deploy host r n).take m = hostExtracts deploy host r (min m n) := by
  unfold hostExtracts
  rw [← List.map_take]
  by_cases h : m ≤ n
  · rw [List.take_range'_of_length_ge h, Nat.min_eq_left h]
  · rw [List.take_range'_of_length_le (by omega), Nat.min_eq_right (by omega)]

theorem hostExtracts_height {deploy r n : Nat} {i : Nat} {x : Extracts H}
    (hx : (hostExtracts deploy host r n)[i]? = some x) : x.ruHeight = r + 1 + i := by
  unfold hostExtracts at hx
  rw [List.getElem?_map] at hx
  obtain ⟨k, hk, rfl⟩ := Option.map_eq_some_iff.mp hx
  rw [List.getElem?_eq_some_iff] at hk
  obtain ⟨_, hk⟩ := hk
  rw [List.getElem_range'] at hk
  dsimp only
  omega

/-- **The height filter**: of a segment that reaches down to the stored tip, exactly the
heights above it are left. -/
theorem freshExtracts_static (hX : StaticHost X host segment) {lo k r : Nat}
    (hlo : lo ≤ X.hostDeployHeight + r + 1) :
    freshExtracts X (segment lo k) r
      = hostExtracts X.hostDeployHeight host r (lo + k - (X.hostDeployHeight + r + 1)) := by
  have hfilter : (List.range' lo k).filter (fun h => X.hostDeployHeight + r < h)
      = List.range' (X.hostDeployHeight + r + 1) (lo + k - (X.hostDeployHeight + r + 1)) := by
    cases k with
    | zero => rw [show lo + 0 - (X.hostDeployHeight + r + 1) = 0 by omega]; rfl
    | succ k =>
        have hcons : Consecutive (fun h : Nat => h) (List.range' lo (k + 1)) := by
          refine consecutive_of_getElem? (n := lo) ?_
          intro i h hh
          obtain ⟨_, hh⟩ := List.getElem?_eq_some_iff.mp hh
          rw [List.getElem_range'] at hh
          omega
        rw [hcons.filter_eq_drop rfl, List.drop_range']
        congr 1 <;> omega
  unfold freshExtracts hostExtracts
  rw [hX lo k, List.filter_map, List.filter_filter]
  have hpred : (List.range' lo k).filter (fun h => (decide (r < h - X.hostDeployHeight)
        && decide (X.hostDeployHeight < h)))
      = (List.range' lo k).filter (fun h => X.hostDeployHeight + r < h) := by
    refine List.filter_congr ?_
    intro h _
    rw [← Bool.decide_and]
    exact decide_eq_decide.mpr (by omega)
  show List.map _ (List.filter (fun h => (decide (r < h - X.hostDeployHeight)
        && decide (X.hostDeployHeight < h))) _) = _
  rw [hpred, hfilter]
  refine List.ext_getElem (by simp) ?_
  intro i _ _
  simp only [List.getElem_map, List.getElem_range', Nat.one_mul, Extracts.mk.injEq]
  exact ⟨by omega, by congr 1; omega⟩

/-! ## Lives of a process -/

/-- A process is down, with what storage holds, or up, with the host height its
notifier was started at and the one it delivers next. -/
inductive Process (Tx G S : Type) where
  | down (st : UnifiedStorage Tx G S)
  | up (s : NodeState Tx G S) (head next : Nat)

/-- What storage holds. -/
def Process.storage : Process Tx G S → UnifiedStorage Tx G S
  | .down st => st
  | .up s _ _ => s.storage

/-- What can happen to a process. -/
inductive Move where
  /-- It is built and started. -/
  | start
  /-- The notifier delivers the next `k` host blocks. -/
  | deliver (k : Nat) (F : Faults) (safe finalized : Option Nat)
  /-- It dies, and of each tier only this many blocks are found again. -/
  | crash (hot cold : Nat)

/-- What start-up leaves of storage. -/
def startStorage (genesis : ExecutedBlock Tx G S) (st : UnifiedStorage Tx G S) :
    UnifiedStorage Tx G S := reconcile (prebuild genesis st)

/-- One move. An error in the notification loop ends the process. -/
def processStep (X : Externals C H Tx G S) (genesis : ExecutedBlock Tx G S)
    (segment : Nat → Nat → C) : Move → Process Tx G S → Option Empty × Process Tx G S
  | .start, .down st =>
    let head := headHeight X.hostDeployHeight (lastRollupBlock (startStorage genesis st))
    (none, .up (NodeState.started (startStorage genesis st)) head head)
  | .deliver k F safe finalized, .up s head next =>
    match handleNotification X F ⟨.chainCommitted (segment next k), safe, finalized⟩ s with
    | (.ok _, s') => (none, .up s' head (next + k))
    | (.error _, s') => (none, .down s'.storage)
  | .crash hot cold, p => (none, .down ⟨p.storage.hot.take hot, p.storage.cold.take cold⟩)
  | _, p => (none, p)

/-- A life of the process, from empty storage, of moves that `A` allows. -/
abbrev Lived (X : Externals C H Tx G S) (genesis : ExecutedBlock Tx G S)
    (segment : Nat → Nat → C) (A : Move → Prop) (p : Process Tx G S) : Prop :=
  Run (processStep X genesis segment) (fun m _ => A m) (.down ⟨[], []⟩) [] p

/-- A move of an uninterrupted life: no crash, and nothing fails. -/
def Uninterrupted : Move → Prop
  | .start => True
  | .deliver _ F _ _ => F = Faults.none F.now
  | .crash _ _ => False

/-! ## Start-up -/

/-- Both tiers are front parts of one ideal chain. -/
def FrontParts (X : Externals C H Tx G S) (genesis : ExecutedBlock Tx G S) (host : Nat → H)
    (st : UnifiedStorage Tx G S) : Prop :=
  ∃ r chain, IdealChain X genesis host r chain ∧ st.hot <+: chain ∧ st.cold <+: chain

/-- A non-empty front part of an ideal chain is the ideal chain of its height. -/
theorem IdealChain.frontPart {r m : Nat} {chain front : List (ExecutedBlock Tx G S)}
    (h : IdealChain X genesis host r chain) (hf : front <+: chain) (hlen : front.length = m + 1) :
    IdealChain X genesis host m front := by
  have hchain : chain.length = 1 + r := by
    rw [h.length]
    simp [hostExtracts]
  have hle := hf.length_le
  have htake := Grown.take h m
  rw [hostExtracts_take, Nat.min_eq_left (by omega)] at htake
  have hfront : chain.take ([genesis].length + m) = front := by
    obtain ⟨rest, rfl⟩ := hf
    rw [show [genesis].length + m = front.length by rw [hlen, List.length_singleton]; omega,
      List.take_left]
  rwa [hfront] at htake

/-- **Both tiers are cut to one height**, the smaller of the two. -/
theorem startStorage_cut (st : UnifiedStorage Tx G S) :
    let pre := prebuild genesis st
    (startStorage genesis st).hot = pre.hot.take (min pre.hot.length pre.cold.length)
      ∧ (startStorage genesis st).cold = pre.cold.take (min pre.hot.length pre.cold.length) := by
  intro pre
  have hne : pre.hot ≠ [] ∧ pre.cold ≠ [] := by
    obtain ⟨hot, cold⟩ := st
    cases hot <;> cases cold <;> simp [pre, prebuild]
  have hhpos := List.length_pos_iff.mpr hne.1
  have hcpos := List.length_pos_iff.mpr hne.2
  show (reconcile pre).hot = _ ∧ (reconcile pre).cold = _
  unfold reconcile lastRollupBlock lastBlockNumber
  rw [if_neg hne.1, if_neg hne.2, Option.getD_some, Option.getD_some]
  dsimp only
  split
  · unfold UnifiedStorage.unwindAbove
    rw [show min (pre.hot.length - 1) (pre.cold.length - 1) + 1
      = min pre.hot.length pre.cold.length by omega]
    exact ⟨rfl, rfl⟩
  · exact ⟨(List.take_of_length_le (by omega)).symm, (List.take_of_length_le (by omega)).symm⟩

/-- Start-up leaves both tiers the same front part of a chain they are front parts of. -/
theorem startStorage_take {st : UnifiedStorage Tx G S} {chain : List (ExecutedBlock Tx G S)}
    (hgenesis : [genesis] <+: chain) (hhot : st.hot <+: chain) (hcold : st.cold <+: chain) :
    ∃ m, m = min (prebuild genesis st).hot.length (prebuild genesis st).cold.length
      ∧ 0 < m ∧ m ≤ chain.length ∧ startStorage genesis st = ⟨chain.take m, chain.take m⟩ := by
  have hload (tier : List (ExecutedBlock Tx G S)) (ht : tier <+: chain) :
      (if tier.isEmpty then [genesis] else tier) <+: chain ∧
        0 < (if tier.isEmpty then [genesis] else tier).length := by
    cases tier with
    | nil => exact ⟨hgenesis, Nat.one_pos⟩
    | cons b bs => exact ⟨ht, Nat.succ_pos _⟩
  obtain ⟨hhot', hhpos⟩ := hload st.hot hhot
  obtain ⟨hcold', hcpos⟩ := hload st.cold hcold
  obtain ⟨hh, hc⟩ : (startStorage genesis st).hot = _ ∧ (startStorage genesis st).cold = _ :=
    startStorage_cut st
  have hhpre : (prebuild genesis st).hot <+: chain := hhot'
  have hcpre : (prebuild genesis st).cold <+: chain := hcold'
  have hle := hhpre.length_le
  refine ⟨_, rfl, Nat.lt_min.mpr ⟨hhpos, hcpos⟩, by omega, ?_⟩
  rw [List.prefix_iff_eq_take.mp hhpre, List.take_take] at hh
  rw [List.prefix_iff_eq_take.mp hcpre, List.take_take] at hc
  simp only [List.length_take] at hh hc
  have hle' := hcpre.length_le
  generalize startStorage genesis st = out at hh hc ⊢
  obtain ⟨hot, cold⟩ := out
  rw [UnifiedStorage.mk.injEq]
  refine ⟨hh.trans ?_, hc.trans ?_⟩ <;> congr 1 <;> omega

/-- **Both tiers are cut to the height of the shorter one**, and agree there. -/
theorem startStorage_spec {st : UnifiedStorage Tx G S} (h : FrontParts X genesis host st) :
    ∃ r, r + 1 = min (prebuild genesis st).hot.length (prebuild genesis st).cold.length
      ∧ IdealChain X genesis host r (startStorage genesis st).hot
      ∧ (startStorage genesis st).cold = (startStorage genesis st).hot := by
  obtain ⟨r, chain, hideal, hhot, hcold⟩ := h
  obtain ⟨m, hm, hpos, hle, hout⟩ := startStorage_take hideal.kept hhot hcold
  refine ⟨m - 1, by omega, ?_, by rw [hout]⟩
  rw [hout]
  refine hideal.frontPart (List.take_prefix m chain) ?_
  rw [List.length_take]
  omega

/-! ## Deliveries -/

/-- Handling a commit leaves what `process_committed_chain` leaves in storage, and
goes well only if that does. -/
theorem handleNotification_commit (s : NodeState Tx G S) (chain : C)
    (safe finalized : Option Nat) :
    (handleNotification X F ⟨.chainCommitted chain, safe, finalized⟩ s).2.storage
        = (processCommittedChain X F chain s).2.storage
      ∧ (∀ u, (handleNotification X F ⟨.chainCommitted chain, safe, finalized⟩ s).1 = .ok u →
          ∃ v, (processCommittedChain X F chain s).1 = .ok v) := by
  rcases handleNotification_parts X F ⟨.chainCommitted chain, safe, finalized⟩ s with
    ⟨⟨e, he⟩, _⟩ | ⟨_, hstorage, hok⟩
  · exact absurd he (by simp [revertPart, HostNotification.revertRange,
      HostNotificationKind.revertRange])
  · exact ⟨hstorage, hok⟩

/-- **A delivered segment extends the ideal chain**: by a front part of the heights it
has above the tip, all of them if it is handled without an error. -/
theorem deliver_spec (hX : StaticHost X host segment) {s : NodeState Tx G S} {r next k : Nat}
    (hideal : IdealChain X genesis host r s.storage.hot) (hcold : s.storage.cold = s.storage.hot)
    (hnext : next ≤ X.hostDeployHeight + r + 1) (safe finalized : Option Nat) :
    let out := handleNotification X F ⟨.chainCommitted (segment next k), safe, finalized⟩ s
    ∃ m, m ≤ next + k - (X.hostDeployHeight + r + 1)
      ∧ IdealChain X genesis host (r + m) out.2.storage.hot
      ∧ out.2.storage.cold = out.2.storage.hot
      ∧ (∀ u, out.1 = .ok u → m = next + k - (X.hostDeployHeight + r + 1)) := by
  intro out
  obtain ⟨hstorage, hokay⟩ := handleNotification_commit (X := X) (F := F) s (segment next k)
    safe finalized
  have hlen : s.storage.hot.length = r + 1 := by
    rw [hideal.length]
    simp [hostExtracts]
    omega
  cases hread : F.commitRead with
  | some m =>
      have hpcc : processCommittedChain X F (segment next k) s = (.error (.storage m), s) := by
        unfold processCommittedChain readLastRollupBlock
        rw [hread]
      rw [hpcc] at hstorage hokay
      refine ⟨0, Nat.zero_le _, ?_, ?_, ?_⟩
      · rw [hstorage]
        exact hideal
      · rw [hstorage]
        exact hcold
      · intro u hu
        obtain ⟨v, hv⟩ := hokay u hu
        exact absurd hv (by simp)
  | none =>
      obtain ⟨done, rest, bs, extra, res, hsplit, hgrown, hstate, hend, herr, hok⟩ :=
        processCommittedChain_spec (X := X) s (segment next k) hread
      rw [lastRollupBlock_of_length hlen] at hsplit hok
      rw [freshExtracts_static hX hnext] at hsplit
      have hruns := grown_runs (fun _ _ hx => hostExtracts_height hx) hlen hsplit hgrown
      have hcount := congrArg List.length hsplit
      have hdone : done = hostExtracts X.hostDeployHeight host r done.length := by
        have htake := congrArg (fun l => l.take done.length) hsplit
        simp only [List.take_left, hostExtracts_take] at htake
        simp only [hostExtracts, List.length_map, List.length_range', List.length_append] at hcount
        rw [Nat.min_eq_left (by omega)] at htake
        exact htake.symm
      simp only [hostExtracts, List.length_map, List.length_range', List.length_append] at hcount
      have hhot : out.2.storage.hot = s.storage.hot ++ bs := by rw [hstorage, hstate]; rfl
      refine ⟨done.length, by omega, ?_, ?_, ?_⟩
      · rw [hhot]
        have hall := Grown.append hideal hruns
        rw [hdone, show hostExtracts X.hostDeployHeight host r done.length
          = hostExtracts X.hostDeployHeight host (0 + r) done.length by rw [Nat.zero_add],
          hostExtracts_append] at hall
        exact hall
      · rw [hhot, hstorage, hstate]
        show s.storage.cold ++ bs = _
        rw [hcold]
      · intro u hu
        obtain ⟨v, hv⟩ := hokay u hu
        have hrest : rest = [] :=
          hend.rest_nil fun e he => absurd ((herr e he).symm.trans hv) (by simp)
        rw [hrest, List.length_nil] at hcount
        omega

/-! ## Every life -/

/-- What holds of a process at any time. -/
def OnIdealChain (X : Externals C H Tx G S) (genesis : ExecutedBlock Tx G S) (host : Nat → H) :
    Process Tx G S → Prop
  | .down st => FrontParts X genesis host st
  | .up s head next => ∃ r, IdealChain X genesis host r s.storage.hot
      ∧ s.storage.cold = s.storage.hot ∧ head ≤ X.hostDeployHeight + r
      ∧ (next = X.hostDeployHeight + r + 1 ∨ (next = head ∧ head = X.hostDeployHeight + r))

theorem idealChain_genesis : IdealChain X genesis host 0 [genesis] := Grown.nil _

theorem frontParts_of_ideal {st : UnifiedStorage Tx G S} {r : Nat}
    (h : IdealChain X genesis host r st.hot) (hcold : st.cold = st.hot) :
    FrontParts X genesis host st :=
  ⟨r, st.hot, h, List.prefix_refl _, by rw [hcold]⟩

theorem OnIdealChain.frontParts {p : Process Tx G S} (h : OnIdealChain X genesis host p) :
    FrontParts X genesis host p.storage := by
  cases p with
  | down st => exact h
  | up s head next =>
      obtain ⟨r, hideal, hcold, _⟩ := h
      exact frontParts_of_ideal hideal hcold

theorem processStep_deliver {k head next : Nat} {safe finalized : Option Nat}
    {s : NodeState Tx G S} :
    (processStep X genesis segment (.deliver k F safe finalized) (.up s head next)).2
      = match handleNotification X F ⟨.chainCommitted (segment next k), safe, finalized⟩ s with
        | (.ok _, s') => .up s' head (next + k)
        | (.error _, s') => .down s'.storage := by
  have hstep : processStep X genesis segment (.deliver k F safe finalized) (.up s head next)
      = match handleNotification X F ⟨.chainCommitted (segment next k), safe, finalized⟩ s with
        | (.ok _, s') => (none, .up s' head (next + k))
        | (.error _, s') => (none, .down s'.storage) := rfl
  rw [hstep]
  cases handleNotification X F ⟨.chainCommitted (segment next k), safe, finalized⟩ s with
  | mk res s' => cases res <;> rfl

/-- **Every move keeps the process on the ideal chain.** -/
theorem onIdealChain_step (hX : StaticHost X host segment) {p : Process Tx G S}
    (h : OnIdealChain X genesis host p) (m : Move) :
    OnIdealChain X genesis host (processStep X genesis segment m p).2 := by
  cases m with
  | crash hot cold =>
      obtain ⟨r, chain, hideal, hhot, hcold⟩ := h.frontParts
      have hlost : FrontParts X genesis host ⟨p.storage.hot.take hot, p.storage.cold.take cold⟩ :=
        ⟨r, chain, hideal, (List.take_prefix _ _).trans hhot, (List.take_prefix _ _).trans hcold⟩
      cases p <;> exact hlost
  | start =>
      cases p with
      | up s head next => exact h
      | down st =>
          obtain ⟨r, _, hideal, hcold⟩ := startStorage_spec h
          have hlen : (startStorage genesis st).hot.length = r + 1 := by
            rw [hideal.length]
            simp [hostExtracts]
            omega
          have hhead : headHeight X.hostDeployHeight (lastRollupBlock (startStorage genesis st))
              = X.hostDeployHeight + r := by
            rw [lastRollupBlock_of_length hlen]
            unfold headHeight pairRu
            cases r with
            | zero => rfl
            | succ r =>
                show r + 1 + X.hostDeployHeight = _
                omega
          -- the tip itself is asked for again
          exact ⟨r, hideal, hcold, Nat.le_of_eq hhead, Or.inr ⟨rfl, hhead⟩⟩
  | deliver k F safe finalized =>
      cases p with
      | down st => exact h
      | up s head next =>
          obtain ⟨r, hideal, hcold, hhead, hnext⟩ := h
          have hle : next ≤ X.hostDeployHeight + r + 1 := by omega
          obtain ⟨m, hm, hideal', hcold', hfull⟩ :=
            deliver_spec (F := F) (k := k) hX hideal hcold hle safe finalized
          rw [processStep_deliver]
          cases hq :
              handleNotification X F ⟨.chainCommitted (segment next k), safe, finalized⟩ s with
          | mk res s' =>
              rw [hq] at hideal' hcold' hfull
              cases res with
              | error e => exact frontParts_of_ideal hideal' hcold'
              | ok u =>
                  have hcount := hfull u rfl
                  refine ⟨r + m, hideal', hcold', by omega, ?_⟩
                  rcases hnext with hnext | ⟨hnext, hhead'⟩ <;> omega

theorem onIdealChain_lived (hX : StaticHost X host segment) {A : Move → Prop}
    {p : Process Tx G S} (h : Lived X genesis segment A p) : OnIdealChain X genesis host p := by
  refine Run.invariant (I := fun _ p => OnIdealChain X genesis host p) ?_ ?_ h
  · exact ⟨0, [genesis], idealChain_genesis, List.nil_prefix, List.nil_prefix⟩
  · intro m _ p hp _
    exact onIdealChain_step hX hp m

/-! ## The uninterrupted life exists -/

/-- Where the chain can be grown through all extracts, a commit without faults grows it. -/
theorem processCommittedChain_succeeds (s : NodeState Tx G S) {chain : C} (now : Nat)
    {new : List (ExecutedBlock Tx G S)}
    (h : Grown (executes X) s.storage.hot (freshExtracts X chain (lastRollupBlock s.storage)) new) :
    ∃ v, (processCommittedChain X (Faults.none now) chain s).1 = .ok v ∧
      (processCommittedChain X (Faults.none now) chain s).2.storage.hot = new := by
  obtain ⟨done, rest, bs, extra, res, hsplit, hgrown, hstate, hend, _, hok⟩ :=
    processCommittedChain_spec (X := X) (F := Faults.none now) s chain rfl
  rw [hsplit] at h
  have hfront := h.take done.length
  rw [List.take_left] at hfront
  have hsame := hgrown.unique hfront
  cases hend with
  | finished =>
      rw [List.append_nil] at h
      exact ⟨_, hok rfl, by rw [hstate]; exact hgrown.unique h⟩
  | unstored _ ha => exact absurd ha (by simp [Faults.none])
  | @refused x rest e hfail =>
      -- the chain grows through the next extract, so executing it does not fail
      obtain ⟨b, _, hb⟩ := h.getElem? (i := done.length) (x := x) (by simp)
      rw [← hsame] at hb
      unfold executes at hb
      rw [show processBlock X none (s.storage.hot ++ bs) x = .error e from hfail] at hb
      exact absurd hb (by simp [Except.toOption])

/-- Where a commit without faults goes well, so does its notification. -/
theorem handleNotification_succeeds {s : NodeState Tx G S} {chain : C} {now : Nat} {v : Bool}
    (h : (processCommittedChain X (Faults.none now) chain s).1 = .ok v) :
    (handleNotification X (Faults.none now) ⟨.chainCommitted chain, none, none⟩ s).1 = .ok () := by
  have hrevert : revertPart X (Faults.none now) ⟨.chainCommitted chain, none, none⟩ s
      = (.ok false, s) := rfl
  have hcommit : commitPart X (Faults.none now) ⟨.chainCommitted chain, none, none⟩ s
      = processCommittedChain X (Faults.none now) chain s := rfl
  unfold handleNotification onNotification
  rw [hrevert]
  dsimp only
  rw [hcommit]
  cases hq : processCommittedChain X (Faults.none now) chain s with
  | mk res s₂ =>
      rw [hq] at h
      obtain rfl : res = .ok v := h
      cases v <;> rfl

theorem lived_next {A : Move → Prop} {p : Process Tx G S} (h : Lived X genesis segment A p)
    {m : Move} (hm : A m) : Lived X genesis segment A (processStep X genesis segment m p).2 := by
  have hnext := Run.next m h hm
  cases hout : (processStep X genesis segment m p).1 with
  | some o => exact o.elim
  | none =>
      rw [hout] at hnext
      exact hnext

/-- An ideal chain is what one start and one delivery store. -/
theorem idealChain_lived (hX : StaticHost X host segment) {r : Nat}
    {chain : List (ExecutedBlock Tx G S)} (h : IdealChain X genesis host r chain) :
    ∃ s, Lived X genesis segment Uninterrupted
        (.up s X.hostDeployHeight (X.hostDeployHeight + (r + 1)))
      ∧ s.storage = ⟨chain, chain⟩ := by
  have hstart : Lived X genesis segment Uninterrupted
      (.up (NodeState.started ⟨[genesis], [genesis]⟩) X.hostDeployHeight X.hostDeployHeight) :=
    lived_next (m := .start) Run.start trivial
  have hfresh : freshExtracts X (segment X.hostDeployHeight (r + 1)) 0
      = hostExtracts X.hostDeployHeight host 0 r := by
    rw [freshExtracts_static hX (by omega)]
    congr 1
    omega
  have hgrown : Grown (executes X) [genesis]
      (freshExtracts X (segment X.hostDeployHeight (r + 1)) 0) chain := by
    rw [hfresh]
    refine h.congr ?_
    intro i x l b hx hl hb
    have hnum := hostExtracts_height hx
    rw [List.length_singleton] at hl
    rw [executes_eq_runs (List.ne_nil_of_length_pos (by omega)) (by omega)]
    exact hb
  obtain ⟨v, hv, hhot⟩ := processCommittedChain_succeeds (NodeState.started ⟨[genesis], [genesis]⟩)
    0 hgrown
  have hok := handleNotification_succeeds hv
  have hstorage := (handleNotification_commit (X := X) (F := Faults.none 0)
    (NodeState.started ⟨[genesis], [genesis]⟩) (segment X.hostDeployHeight (r + 1)) none none).1
  have hgenesis : IdealChain X genesis host 0
      (NodeState.started (⟨[genesis], [genesis]⟩ : UnifiedStorage Tx G S)).storage.hot :=
    idealChain_genesis
  obtain ⟨_, _, _, hcold, _⟩ := deliver_spec (F := Faults.none 0) (k := r + 1) hX hgenesis rfl
    (by omega : X.hostDeployHeight ≤ X.hostDeployHeight + 0 + 1) none none
  have hdone := lived_next hstart (m := .deliver (r + 1) (Faults.none 0) none none) rfl
  cases hq : handleNotification X (Faults.none 0)
    ⟨.chainCommitted (segment X.hostDeployHeight (r + 1)), none, none⟩
    (NodeState.started ⟨[genesis], [genesis]⟩) with
  | mk res s =>
  rw [hq] at hok hstorage hcold
  obtain rfl : res = .ok () := hok
  rw [processStep_deliver, hq] at hdone
  refine ⟨s, hdone, ?_⟩
  have hh : s.storage.hot = chain := by rw [hstorage, hhot]
  cases hs : s.storage with
  | mk hot cold =>
      rw [hs] at hh hcold
      obtain rfl : hot = chain := hh
      obtain rfl : cold = hot := hcold
      rfl

/-! ## Recovery -/

/-- The host height a running process has stored up to: what it was started at, or the
last block delivered to it. -/
def processedTo (head next : Nat) : Nat := max head (next - 1)

/--
**Crash recovery loses and duplicates nothing.** Whatever faults and crashes a
process lived through: a start cuts both tiers to the smaller height, where they
agree; and a running process that has stored the host up to height `h` holds in
both tiers the ideal chain of that height, which is what any uninterrupted life
holds at `h`, and there is such a life.
-/
theorem recovery_exact (hX : StaticHost X host segment) {p : Process Tx G S}
    (h : Lived X genesis segment (fun _ => True) p) :
    (∀ st, p = .down st →
      let pre := prebuild genesis st
      (startStorage genesis st).hot = pre.hot.take (min pre.hot.length pre.cold.length)
        ∧ (startStorage genesis st).cold = pre.cold.take (min pre.hot.length pre.cold.length)
        ∧ (startStorage genesis st).cold = (startStorage genesis st).hot)
      ∧ ∀ s head next, p = .up s head next →
        X.hostDeployHeight ≤ processedTo head next
          ∧ IdealChain X genesis host (processedTo head next - X.hostDeployHeight) s.storage.hot
          ∧ s.storage.cold = s.storage.hot
          ∧ (∀ s₀ head₀ next₀, Lived X genesis segment Uninterrupted (.up s₀ head₀ next₀) →
              processedTo head₀ next₀ = processedTo head next → s₀.storage = s.storage)
          ∧ ∃ s₀ head₀ next₀, Lived X genesis segment Uninterrupted (.up s₀ head₀ next₀)
              ∧ processedTo head₀ next₀ = processedTo head next := by
  -- what any life stores at a host height
  have hstored {A : Move → Prop} {s : NodeState Tx G S} {head next : Nat}
      (hl : Lived X genesis segment A (.up s head next)) :
      X.hostDeployHeight ≤ processedTo head next
        ∧ IdealChain X genesis host (processedTo head next - X.hostDeployHeight) s.storage.hot
        ∧ s.storage.cold = s.storage.hot := by
    obtain ⟨r, hideal, hcold, hhead, hnext⟩ := onIdealChain_lived hX hl
    have hto : processedTo head next = X.hostDeployHeight + r := by
      unfold processedTo
      rcases hnext with hnext | ⟨hnext, hhead'⟩ <;> omega
    rw [hto, Nat.add_sub_cancel_left]
    exact ⟨Nat.le_add_right _ _, hideal, hcold⟩
  refine ⟨?_, ?_⟩
  · rintro st rfl
    obtain ⟨_, _, _, hcold⟩ := startStorage_spec (onIdealChain_lived hX h)
    exact ⟨(startStorage_cut st).1, (startStorage_cut st).2, hcold⟩
  · rintro s head next rfl
    obtain ⟨hle, hideal, hcold⟩ := hstored h
    refine ⟨hle, hideal, hcold, ?_, ?_⟩
    · intro s₀ head₀ next₀ h₀ hto
      obtain ⟨_, hideal₀, hcold₀⟩ := hstored h₀
      rw [hto] at hideal₀
      have hhot := hideal₀.unique hideal
      cases hs : s.storage with
      | mk hot cold =>
          cases hs₀ : s₀.storage with
          | mk hot₀ cold₀ =>
              rw [hs] at hcold hhot
              rw [hs₀] at hcold₀ hhot
              rw [UnifiedStorage.mk.injEq]
              exact ⟨hhot, hcold₀.trans (hhot.trans hcold.symm)⟩
    · obtain ⟨s₀, hlived, _⟩ := idealChain_lived hX hideal
      refine ⟨s₀, _, _, hlived, ?_⟩
      unfold processedTo at hle ⊢
      omega

/-- A crash that leaves the cold tier two blocks behind, and the next start. -/
theorem recovery_exact_crash :
    ∃ s : NodeState Unit Unit Unit,
      Lived (countingExternals 100) (emptyBlock 0) (fun lo k => List.range' lo k) (fun _ => True)
        (.up s 101 104)
      ∧ IdealChain (countingExternals 100) (emptyBlock 0) id 3 s.storage.hot := by
  have hX : StaticHost (countingExternals 100) id (fun lo k => List.range' lo k) :=
    fun _ _ => rfl
  have hlife : Lived (countingExternals 100) (emptyBlock 0) (fun lo k => List.range' lo k)
      (fun _ => True) _ :=
    lived_next (lived_next (lived_next (lived_next (lived_next Run.start
      (m := .start) trivial)
      (m := .deliver 4 (Faults.none 0) none none) trivial)
      (m := .crash 4 2) trivial)
      (m := .start) trivial)
      (m := .deliver 3 (Faults.none 0) none none) trivial
  exact ⟨_, hlife, ((recovery_exact hX hlife).2 _ _ _ rfl).2.1⟩

end NodeComponents.Node
