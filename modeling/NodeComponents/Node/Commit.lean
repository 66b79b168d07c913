import NodeComponents.Lib.Growth
import NodeComponents.Lib.Heights
import NodeComponents.Node.Node

/-!
# Committing a segment

`commit_spec` is the one lemma about the loop of `process_committed_chain`: what
was executed, what storage and the event stream hold afterwards, and how the loop
ended. Storage grows by one block for each extract, each executed on the chain
stored before it, and everything else about committing is read off from that.

Nothing but the parent check keeps the loop from leaving a gap: an extract above
the next height has no parent in storage.
-/

namespace NodeComponents.Node

open Lib Rpc

variable {C H Tx G S : Type} {X : Externals C H Tx G S} {F : Faults}

/-! ## The loop -/

/-- The block an extract executes to on a chain, when nothing outside fails. -/
def executes (X : Externals C H Tx G S) (hot : List (ExecutedBlock Tx G S)) (x : Extracts H) :
    Option (ExecutedBlock Tx G S) := (processBlock X none hot x).toOption

/-- Append blocks to both tiers. -/
def UnifiedStorage.appendBlocks (st : UnifiedStorage Tx G S) (bs : List (ExecutedBlock Tx G S)) :
    UnifiedStorage Tx G S := ⟨st.hot ++ bs, st.cold ++ bs⟩

/-- The event sent for a block. -/
def blockEvent (b : ExecutedBlock Tx G S) : ChainEvent Tx G :=
  .newBlock ⟨b.header, b.transactions, b.receipts⟩

/-- A state to which blocks were committed, with the events sent meanwhile. -/
def NodeState.committed (s : NodeState Tx G S) (bs : List (ExecutedBlock Tx G S))
    (events : List (ChainEvent Tx G)) : NodeState Tx G S :=
  { s with
    storage := s.storage.appendBlocks bs
    chain := { s.chain with sent := s.chain.sent ++ events } }

/-- How the loop ends on the extracts it has left, and what it sent without storing. -/
inductive CommitEnd (X : Externals C H Tx G S) (F : Faults) (i : Nat)
    (hot : List (ExecutedBlock Tx G S)) :
    List (Extracts H) → Option NodeError → List (ChainEvent Tx G) → Prop
  | finished : CommitEnd X F i hot [] none []
  | refused {x : Extracts H} {rest : List (Extracts H)} {e : NodeError}
      (h : processBlock X (F.exec i) hot x = .error e) :
      CommitEnd X F i hot (x :: rest) (some e) []
  | unstored {x : Extracts H} {rest : List (Extracts H)} {b : ExecutedBlock Tx G S} {m : String}
      (h : processBlock X (F.exec i) hot x = .ok b) (ha : F.append i = some m) :
      CommitEnd X F i hot (x :: rest) (some (.storage m)) [blockEvent b]

/-- Without an error nothing is left. -/
theorem CommitEnd.rest_nil {i : Nat} {hot : List (ExecutedBlock Tx G S)}
    {rest : List (Extracts H)} {r : Option NodeError} {extra : List (ChainEvent Tx G)}
    (hend : CommitEnd X F i hot rest r extra) (hr : ∀ e, r ≠ some e) : rest = [] := by
  cases hend with
  | finished => rfl
  | refused _ => exact absurd rfl (hr _)
  | unstored _ _ => exact absurd rfl (hr _)

/-- A block that was executed under some faults is the block executed without any. -/
theorem executes_of_processBlock {fault : Option String} {hot : List (ExecutedBlock Tx G S)}
    {x : Extracts H} {b : ExecutedBlock Tx G S} (h : processBlock X fault hot x = .ok b) :
    executes X hot x = some b := by
  unfold processBlock at h
  unfold executes processBlock
  split at h
  · exact absurd h (by simp)
  · split at h
    · exact absurd h (by simp)
    · split at h
      · exact absurd h (by simp)
      · rename_i c hc
        exact congrArg some (Except.ok.inj h)

/-- **The commit loop.** It executes a front part of the extracts, each on the chain
before it, stores exactly those blocks, and ends in one of three ways. -/
theorem commitLoop_spec : ∀ (xs : List (Extracts H)) (i : Nat) (s : NodeState Tx G S),
    ∃ done rest bs extra, xs = done ++ rest
      ∧ Grown (executes X) s.storage.hot done (s.storage.hot ++ bs)
      ∧ (commitLoop X F i xs s).2 = s.committed bs (bs.map blockEvent ++ extra)
      ∧ CommitEnd X F (i + done.length) (s.storage.hot ++ bs) rest
          (commitLoop X F i xs s).1 extra
  | [], i, s => by
      refine ⟨[], [], [], [], rfl, ?_, ?_, CommitEnd.finished⟩
      · rw [List.append_nil]
        exact Grown.nil _
      · simp [commitLoop, NodeState.committed, UnifiedStorage.appendBlocks]
  | x :: xs, i, s => by
      have hnil : Grown (executes X) s.storage.hot [] (s.storage.hot ++ []) := by
        rw [List.append_nil]
        exact Grown.nil _
      cases hp : processBlock X (F.exec i) s.storage.hot x with
      | error e =>
          refine ⟨[], x :: xs, [], [], rfl, hnil, ?_, ?_⟩
          · simp [commitLoop, hp, NodeState.committed, UnifiedStorage.appendBlocks]
          · simp only [commitLoop, hp, List.append_nil, List.length_nil, Nat.add_zero]
            exact CommitEnd.refused hp
      | ok b =>
          cases ha : F.append i with
          | some m =>
              refine ⟨[], x :: xs, [], [blockEvent b], rfl, hnil, ?_, ?_⟩
              · simp [commitLoop, hp, ha, NodeState.committed, UnifiedStorage.appendBlocks,
                  notifyNewBlock, blockEvent, ChainNotifier.sendNewBlock, ChainNotifier.sendEvent]
              · simp only [commitLoop, hp, ha, List.append_nil, List.length_nil, Nat.add_zero]
                exact CommitEnd.unstored hp ha
          | none =>
              obtain ⟨done, rest, bs, extra, rfl, hgrown, hstate, hend⟩ :=
                commitLoop_spec xs (i + 1)
                { notifyNewBlock s b with storage := s.storage.appendBlock b }
              have hcons : s.storage.hot ++ b :: bs = (s.storage.hot ++ [b]) ++ bs := by simp
              refine ⟨x :: done, rest, b :: bs, extra, rfl, ?_, ?_, ?_⟩
              · rw [hcons]
                exact Grown.cons (executes_of_processBlock hp) hgrown
              · rw [commitLoop]
                simp only [hp, ha]
                rw [hstate]
                simp [NodeState.committed, UnifiedStorage.appendBlocks, notifyNewBlock, blockEvent,
                  UnifiedStorage.appendBlock, ChainNotifier.sendNewBlock, ChainNotifier.sendEvent]
              · rw [commitLoop]
                simp only [hp, ha]
                rw [hcons, List.length_cons,
                  show i + (done.length + 1) = i + 1 + done.length by omega]
                exact hend

/-- **What `process_committed_chain` does** once the stored tip is read. -/
theorem processCommittedChain_spec (s : NodeState Tx G S) (chain : C)
    (hread : F.commitRead = none) :
    ∃ done rest bs extra r, freshExtracts X chain (lastRollupBlock s.storage) = done ++ rest
      ∧ Grown (executes X) s.storage.hot done (s.storage.hot ++ bs)
      ∧ (processCommittedChain X F chain s).2 = s.committed bs (bs.map blockEvent ++ extra)
      ∧ CommitEnd X F done.length (s.storage.hot ++ bs) rest r extra
      ∧ (∀ e, r = some e → (processCommittedChain X F chain s).1 = .error e)
      ∧ (r = none → (processCommittedChain X F chain s).1
          = .ok !(freshExtracts X chain (lastRollupBlock s.storage)).isEmpty) := by
  obtain ⟨done, rest, bs, extra, hsplit, hgrown, hstate, hend⟩ := commitLoop_spec (F := F)
    (freshExtracts X chain (lastRollupBlock s.storage)) 0 s
  refine ⟨done, rest, bs, extra, _, hsplit, hgrown, ?_, by rw [Nat.zero_add] at hend; exact hend,
    ?_, ?_⟩
  · rw [← hstate]
    unfold processCommittedChain readLastRollupBlock
    rw [hread]
    dsimp only
    split <;> (rename_i heq; rw [heq])
  · intro e he
    unfold processCommittedChain readLastRollupBlock
    rw [hread]
    dsimp only
    split
    · rename_i heq
      rw [heq] at he
      rw [Option.some.inj he]
    · rename_i heq
      rw [heq] at he
      exact absurd he (by simp)
  · intro hnone
    unfold processCommittedChain readLastRollupBlock
    rw [hread]
    dsimp only
    split
    · rename_i heq
      rw [heq] at hnone
      exact absurd hnone (by simp)
    · rfl

/-! ## Heights -/

theorem lastBlockNumber_eq_some {tier : List (ExecutedBlock Tx G S)} {r : Nat} :
    lastBlockNumber tier = some r ↔ tier.length = r + 1 := by
  unfold lastBlockNumber
  cases tier with
  | nil => simp
  | cons b bs => simp

theorem lastRollupBlock_of_length {st : UnifiedStorage Tx G S} {r : Nat}
    (h : st.hot.length = r + 1) : lastRollupBlock st = r := by
  unfold lastRollupBlock
  rw [lastBlockNumber_eq_some.mpr h]
  rfl

/-- The block an extract executes to on its immediate predecessor. -/
def runs (X : Externals C H Tx G S) (hot : List (ExecutedBlock Tx G S)) (x : Extracts H) :
    Option (ExecutedBlock Tx G S) := (X.runEvm hot x).toOption

/-- At the next height, executing is running the EVM on the stored chain. -/
theorem executes_eq_runs {hot : List (ExecutedBlock Tx G S)} {x : Extracts H}
    (hne : hot ≠ []) (h : x.ruHeight = hot.length) : executes X hot x = runs X hot x := by
  have hpos : 0 < hot.length := List.length_pos_iff.mpr hne
  have htake : hot.take (x.ruHeight - 1 + 1) = hot := List.take_of_length_le (by omega)
  unfold executes processBlock runs
  rw [List.getElem?_eq_getElem (by omega : x.ruHeight - 1 < hot.length), htake]
  dsimp only
  cases X.runEvm hot x <;> rfl

/-- An extract above the next height has no parent in storage. -/
theorem processBlock_gap {fault : Option String} {hot : List (ExecutedBlock Tx G S)}
    {x : Extracts H} (h : hot.length < x.ruHeight) :
    processBlock X fault hot x = .error .parentNotPresent := by
  unfold processBlock
  rw [List.getElem?_eq_none (by omega)]

/-- The extracts of a segment ascend by one. -/
def ConsecutiveExtracts (X : Externals C H Tx G S) (chain : C) : Prop :=
  Consecutive Extracts.ruHeight (X.extractSignet chain)

/-- The extracts to execute start right above the tip, if the segment reaches down to it. -/
theorem freshExtracts_height {chain : C} (hxs : ConsecutiveExtracts X chain) {r : Nat}
    (hreach : ∀ x ∈ (X.extractSignet chain).head?, x.ruHeight ≤ r + 1) {i : Nat} {x : Extracts H}
    (hx : (freshExtracts X chain r)[i]? = some x) : x.ruHeight = r + 1 + i := by
  cases hhead : (X.extractSignet chain).head? with
  | none =>
      unfold freshExtracts at hx
      rw [List.head?_eq_none_iff.mp hhead] at hx
      exact absurd hx (by simp)
  | some first =>
      have hle := hreach first hhead
      unfold freshExtracts at hx
      rw [hxs.filter_eq_drop hhead, List.getElem?_drop] at hx
      have hnum := hxs.getElem? hhead hx
      omega

/-- The blocks a segment grows storage by are run on their immediate predecessors. -/
theorem grown_runs {xs : List (Extracts H)} {r : Nat}
    (hheight : ∀ i x, xs[i]? = some x → x.ruHeight = r + 1 + i)
    {hot new : List (ExecutedBlock Tx G S)} (hlen : hot.length = r + 1)
    {done rest : List (Extracts H)} (hsplit : xs = done ++ rest)
    (h : Grown (executes X) hot done new) : Grown (runs X) hot done new := by
  refine h.congr ?_
  intro i x l b hx hl hb
  have hxs : xs[i]? = some x := by
    rw [hsplit, List.getElem?_append_left (List.getElem?_eq_some_iff.mp hx).1]
    exact hx
  have hnum := hheight i x hxs
  rw [← executes_eq_runs (List.ne_nil_of_length_pos (by omega)) (by omega)]
  exact hb

theorem freshExtracts_length {chain : C} (hxs : ConsecutiveExtracts X chain) {r a b : Nat}
    (ha : (X.extractSignet chain).head?.map Extracts.ruHeight = some a)
    (hb : (X.extractSignet chain).getLast?.map Extracts.ruHeight = some b) (hreach : a ≤ r + 1) :
    (freshExtracts X chain r).length = b - r := by
  obtain ⟨first, hfirst, rfl⟩ := Option.map_eq_some_iff.mp ha
  obtain ⟨last, hlast, rfl⟩ := Option.map_eq_some_iff.mp hb
  have hnum := hxs.getLast? hfirst hlast
  have hpos := List.length_pos_of_mem (List.mem_of_head? hfirst)
  unfold freshExtracts
  rw [hxs.filter_eq_drop hfirst, List.length_drop]
  omega

/-! ## Gap-free and idempotent -/

/--
`new` is the chain `old` followed by exactly one block for each height up to
`top`, run from the extracts of that height on its immediate predecessor.
-/
structure ExtendsTo (X : Externals C H Tx G S) (xs : List (Extracts H))
    (old new : List (ExecutedBlock Tx G S)) (top : Nat) : Prop where
  kept : old <+: new
  length : new.length = top + 1
  executed : ∀ k, old.length ≤ k → k ≤ top → ∃ x b, x ∈ xs ∧ x.ruHeight = k ∧
    new[k]? = some b ∧ X.runEvm (new.take k) x = .ok b

theorem extendsTo_of_grown {chain : C} (hxs : ConsecutiveExtracts X chain) {r : Nat}
    (hreach : ∀ x ∈ (X.extractSignet chain).head?, x.ruHeight ≤ r + 1)
    {hot new : List (ExecutedBlock Tx G S)} (hlen : hot.length = r + 1)
    {done rest : List (Extracts H)} (hsplit : freshExtracts X chain r = done ++ rest)
    (h : Grown (executes X) hot done new) :
    ExtendsTo X (X.extractSignet chain) hot new (r + done.length) := by
  have hruns := grown_runs (fun _ _ hx => freshExtracts_height hxs hreach hx) hlen hsplit h
  refine ⟨h.kept, by rw [h.length, hlen]; omega, ?_⟩
  intro k hk htop
  obtain ⟨x, hx⟩ : ∃ x, done[k - (r + 1)]? = some x := ⟨_, List.getElem?_eq_getElem (by omega)⟩
  have hfresh : (freshExtracts X chain r)[k - (r + 1)]? = some x := by
    rw [hsplit, List.getElem?_append_left (by omega)]
    exact hx
  have hheight := freshExtracts_height hxs hreach hfresh
  obtain ⟨b, hb, hrun⟩ := hruns.getElem? hx
  rw [show hot.length + (k - (r + 1)) = k by omega] at hb hrun
  refine ⟨x, b, (List.mem_filter.mp (List.mem_of_getElem? hfresh)).1, by omega, hb, ?_⟩
  unfold runs at hrun
  cases hq : X.runEvm (new.take k) x with
  | error m => rw [hq] at hrun; exact absurd hrun (by simp [Except.toOption])
  | ok c =>
      rw [hq] at hrun
      rw [Option.some.inj hrun]

/-- The block of height `k` could not be executed on the stored chain, or not be stored. -/
def FailedAt (X : Externals C H Tx G S) (F : Faults) (xs : List (Extracts H))
    (hot : List (ExecutedBlock Tx G S)) (i k : Nat) (e : NodeError) : Prop :=
  ∃ x ∈ xs, x.ruHeight = k ∧
    (processBlock X (F.exec i) hot x = .error e ∨ ∃ m, F.append i = some m ∧ e = .storage m)

/-- The first extract of a segment that starts at `a`. -/
theorem ruHeight_head_le {xs : List (Extracts H)} {a m : Nat}
    (ha : xs.head?.map Extracts.ruHeight = some a) (hle : a ≤ m) :
    ∀ x ∈ xs.head?, x.ruHeight ≤ m := by
  intro x hx
  rw [show xs.head? = some x from hx] at ha
  rw [show x.ruHeight = a from Option.some.inj ha]
  exact hle

/-- A commit that finds nothing above the tip changes nothing. -/
theorem processCommittedChain_stale {s : NodeState Tx G S} {chain : C}
    (h : freshExtracts X chain (lastRollupBlock s.storage) = []) :
    (processCommittedChain X F chain s).2 = s ∧
      (F.commitRead = none → (processCommittedChain X F chain s).1 = .ok false) := by
  unfold processCommittedChain readLastRollupBlock
  cases hread : F.commitRead with
  | some m => exact ⟨rfl, fun hnone => absurd hnone (by simp)⟩
  | none =>
      dsimp only
      rw [h]
      exact ⟨rfl, fun _ => rfl⟩

/-- Committing appends the same blocks to both tiers. -/
theorem NodeState.committed_tiers {s : NodeState Tx G S} {r : Nat}
    (hlen : s.storage.hot.length = r + 1) (bs : List (ExecutedBlock Tx G S))
    (events : List (ChainEvent Tx G)) :
    (s.committed bs events).storage.hot = s.storage.hot ++ bs ∧
      (s.committed bs events).storage.cold
        = s.storage.cold ++ (s.committed bs events).storage.hot.drop (r + 1) := by
  refine ⟨rfl, ?_⟩
  show s.storage.cold ++ bs = s.storage.cold ++ (s.storage.hot ++ bs).drop (r + 1)
  rw [← hlen, List.drop_left]

/-- A segment that reaches down to the tip and is committed without an error. -/
theorem processCommittedChain_ok {s : NodeState Tx G S} {chain : C} {r a b : Nat}
    (hlen : s.storage.hot.length = r + 1) (hxs : ConsecutiveExtracts X chain)
    (ha : (X.extractSignet chain).head?.map Extracts.ruHeight = some a)
    (hb : (X.extractSignet chain).getLast?.map Extracts.ruHeight = some b) (hreach : a ≤ r + 1)
    {v : Bool} (hv : (processCommittedChain X F chain s).1 = .ok v) :
    let out := processCommittedChain X F chain s
    ExtendsTo X (X.extractSignet chain) s.storage.hot out.2.storage.hot (max r b)
      ∧ out.2.storage.cold = s.storage.cold ++ out.2.storage.hot.drop (r + 1)
      ∧ (v = true ↔ r < b) := by
  intro out
  have hread : F.commitRead = none := by
    cases hq : F.commitRead with
    | none => rfl
    | some m => simp [processCommittedChain, readLastRollupBlock, hq] at hv
  obtain ⟨done, rest, bs, extra, res, hsplit, hgrown, hstate, hend, herr, hok⟩ :=
    processCommittedChain_spec (X := X) s chain hread
  rw [lastRollupBlock_of_length hlen] at hsplit hok
  have hres : res = none := by
    cases hq : res with
    | none => rfl
    | some e => exact absurd ((herr e hq).symm.trans hv) (by simp)
  -- no error: nothing is left of the extracts
  have hrest : rest = [] := by
    rw [hres] at hend
    cases hend
    rfl
  have hcount := freshExtracts_length hxs ha hb hreach
  rw [hrest, List.append_nil] at hsplit
  rw [hsplit] at hcount hok
  obtain ⟨hhot, hcold⟩ := NodeState.committed_tiers hlen bs (bs.map blockEvent ++ extra)
  rw [← hstate] at hhot hcold
  have hext := extendsTo_of_grown hxs (ruHeight_head_le ha hreach) hlen
    (hsplit.trans (List.append_nil done).symm) hgrown
  rw [← hhot, show r + done.length = max r b by omega] at hext
  refine ⟨hext, hcold, ?_⟩
  have hbool := Except.ok.inj ((hok hres).symm.trans hv)
  rw [← hbool]
  cases done with
  | nil => simp only [List.length_nil] at hcount; simp; omega
  | cons x xs => simp only [List.length_cons] at hcount; simp; omega

/-- Behind a tip that covers the segment, committing it again changes nothing. -/
theorem processCommittedChain_again {s : NodeState Tx G S} {chain : C} {r b : Nat}
    (hlen : s.storage.hot.length = r + 1) (hxs : ConsecutiveExtracts X chain)
    (hb : (X.extractSignet chain).getLast?.map Extracts.ruHeight = some b) (hle : b ≤ r) :
    (processCommittedChain X F chain s).2 = s ∧
      (F.commitRead = none → (processCommittedChain X F chain s).1 = .ok false) := by
  refine processCommittedChain_stale ?_
  rw [lastRollupBlock_of_length hlen]
  refine List.filter_eq_nil_iff.mpr ?_
  intro x hx
  obtain ⟨last, hl, hlastb⟩ := Option.map_eq_some_iff.mp hb
  have hlast := hxs.le_last hx hl
  simp only [decide_eq_true_eq]
  omega

/-- A segment that reaches down to the tip and stops at an error. -/
theorem processCommittedChain_error {s : NodeState Tx G S} {chain : C} {r a b : Nat}
    (hlen : s.storage.hot.length = r + 1) (hxs : ConsecutiveExtracts X chain)
    (ha : (X.extractSignet chain).head?.map Extracts.ruHeight = some a)
    (hb : (X.extractSignet chain).getLast?.map Extracts.ruHeight = some b) (hreach : a ≤ r + 1)
    {e : NodeError} (he : (processCommittedChain X F chain s).1 = .error e)
    (hread : F.commitRead = none) :
    let out := processCommittedChain X F chain s
    ∃ k, r < k ∧ k ≤ b
      ∧ ExtendsTo X (X.extractSignet chain) s.storage.hot out.2.storage.hot (k - 1)
      ∧ out.2.storage.cold = s.storage.cold ++ out.2.storage.hot.drop (r + 1)
      ∧ FailedAt X F (X.extractSignet chain) out.2.storage.hot (k - (r + 1)) k e := by
  intro out
  obtain ⟨done, rest, bs, extra, res, hsplit, hgrown, hstate, hend, herr, hok⟩ :=
    processCommittedChain_spec (X := X) s chain hread
  rw [lastRollupBlock_of_length hlen] at hsplit
  obtain ⟨hhot, hcold⟩ := NodeState.committed_tiers hlen bs (bs.map blockEvent ++ extra)
  rw [← hstate] at hhot hcold
  have hext := extendsTo_of_grown hxs (ruHeight_head_le ha hreach) hlen hsplit hgrown
  have hcount := freshExtracts_length hxs ha hb hreach
  -- the loop stopped at the extract behind the executed ones
  obtain ⟨x, xs, rfl, hfail⟩ : ∃ x xs, rest = x :: xs ∧
      (processBlock X (F.exec done.length) (s.storage.hot ++ bs) x = .error e ∨
        ∃ m, F.append done.length = some m ∧ e = .storage m) := by
    cases hend with
    | finished => exact absurd ((hok rfl).symm.trans he) (by simp)
    | @refused x xs e' h =>
        obtain rfl := Except.error.inj ((herr e' rfl).symm.trans he)
        exact ⟨x, xs, rfl, Or.inl h⟩
    | @unstored x xs b m h hm =>
        exact ⟨x, xs, rfl, Or.inr ⟨m, hm, (Except.error.inj ((herr _ rfl).symm.trans he)).symm⟩⟩
  have hx : (freshExtracts X chain r)[done.length]? = some x := by
    rw [hsplit]
    simp
  have hlt := (List.getElem?_eq_some_iff.mp hx).1
  have hheight := freshExtracts_height hxs (ruHeight_head_le ha hreach) hx
  refine ⟨r + 1 + done.length, by omega, by omega, ?_, hcold, x,
    (List.mem_filter.mp (List.mem_of_getElem? hx)).1, hheight, ?_⟩
  · rw [hhot, show r + 1 + done.length - 1 = r + done.length by omega]
    exact hext
  · rw [hhot, show r + 1 + done.length - (r + 1) = done.length by omega]
    exact hfail

/-- A segment that starts above the next height is refused, and changes nothing. -/
theorem processCommittedChain_refused {s : NodeState Tx G S} {chain : C} {r a : Nat}
    (hlen : s.storage.hot.length = r + 1) (hxs : ConsecutiveExtracts X chain)
    (ha : (X.extractSignet chain).head?.map Extracts.ruHeight = some a) (hgap : r + 1 < a) :
    (∃ e, (processCommittedChain X F chain s).1 = .error e) ∧
      (processCommittedChain X F chain s).2 = s := by
  obtain ⟨first, hfirst, hfirsta⟩ := Option.map_eq_some_iff.mp ha
  cases hread : F.commitRead with
  | some m =>
      have hout : processCommittedChain X F chain s = (.error (.storage m), s) := by
        simp [processCommittedChain, readLastRollupBlock, hread]
      rw [hout]
      exact ⟨⟨_, rfl⟩, rfl⟩
  | none =>
      obtain ⟨xs, hcons⟩ : ∃ xs, freshExtracts X chain r = first :: xs := by
        unfold freshExtracts
        rw [hxs.filter_eq_drop hfirst, show r + 1 - first.ruHeight = 0 by omega, List.drop_zero]
        exact List.head?_eq_some_iff.mp hfirst
      have hout : processCommittedChain X F chain s = (.error .parentNotPresent, s) := by
        simp only [processCommittedChain, readLastRollupBlock, hread,
          lastRollupBlock_of_length hlen, hcons]
        rw [commitLoop, processBlock_gap (by omega)]
      rw [hout]
      exact ⟨⟨_, rfl⟩, rfl⟩

/--
**Committing a segment is gap-free and idempotent.** With stored tip `r` and
extracts of the heights `a..b`: a segment that reaches down to the tip leaves the
old chain followed by one block per height, in both tiers, up to `b` if it
succeeds and up to below the failing height if it does not; running it again
changes nothing. A segment that does not reach down changes nothing at all.
-/
theorem processCommittedChain_gapFree {s : NodeState Tx G S} {chain : C} {r a b : Nat}
    (hr : lastBlockNumber s.storage.hot = some r) (hxs : ConsecutiveExtracts X chain)
    (ha : (X.extractSignet chain).head?.map Extracts.ruHeight = some a)
    (hb : (X.extractSignet chain).getLast?.map Extracts.ruHeight = some b) :
    let out := processCommittedChain X F chain s
    (a ≤ r + 1 → ∀ v, out.1 = .ok v →
      ExtendsTo X (X.extractSignet chain) s.storage.hot out.2.storage.hot (max r b)
        ∧ out.2.storage.cold = s.storage.cold ++ out.2.storage.hot.drop (r + 1)
        ∧ (v = true ↔ r < b)
        ∧ ∀ F', (processCommittedChain X F' chain out.2).2 = out.2 ∧
            (F'.commitRead = none → (processCommittedChain X F' chain out.2).1 = .ok false))
      ∧ (a ≤ r + 1 → ∀ e, out.1 = .error e → F.commitRead = none →
        ∃ k, r < k ∧ k ≤ b
          ∧ ExtendsTo X (X.extractSignet chain) s.storage.hot out.2.storage.hot (k - 1)
          ∧ out.2.storage.cold = s.storage.cold ++ out.2.storage.hot.drop (r + 1)
          ∧ FailedAt X F (X.extractSignet chain) out.2.storage.hot (k - (r + 1)) k e)
      ∧ (r + 1 < a → (∃ e, out.1 = .error e) ∧ out.2 = s) := by
  intro out
  have hlen := lastBlockNumber_eq_some.mp hr
  refine ⟨?_, ?_, ?_⟩
  · intro hreach v hv
    obtain ⟨hext, hcold, htrue⟩ := processCommittedChain_ok hlen hxs ha hb hreach hv
    refine ⟨hext, hcold, htrue, ?_⟩
    intro F'
    exact processCommittedChain_again hext.length hxs hb (Nat.le_max_right r b)
  · intro hreach e he hread
    exact processCommittedChain_error hlen hxs ha hb hreach he hread
  · intro hgap
    exact processCommittedChain_refused hlen hxs ha hgap

/-- An empty block of a height. -/
def emptyBlock (number : Nat) : ExecutedBlock Unit Unit Unit :=
  ⟨⟨number, BitVec.ofNat 256 number, BitVec.ofNat 256 (number - 1), 0⟩, [], [], ()⟩

/-- A rollup deployed at a host height that stores an empty block for each host number above. -/
def countingExternals (deploy : Nat) : Externals (List Nat) Nat Unit Unit Unit where
  hostDeployHeight := deploy
  extractSignet hosts := (hosts.filter fun h => deploy < h).map fun h => ⟨h - deploy, h⟩
  runEvm hot _ := .ok (emptyBlock hot.length)
  coldLogs _ := []

/-- A segment that overlaps the stored chain by one block. -/
theorem processCommittedChain_gapFree_overlap :
    let X := countingExternals 100
    let tier := [emptyBlock 0, emptyBlock 1]
    let out :=
      processCommittedChain X (Faults.none 0) [101, 102, 103] (NodeState.started ⟨tier, tier⟩)
    out.1 = .ok true
      ∧ ExtendsTo X (X.extractSignet [101, 102, 103]) tier out.2.storage.hot 3 := by
  intro X tier out
  have hout : out.1 = .ok true := rfl
  have hxs : ConsecutiveExtracts X [101, 102, 103] := consecutive_of_getElem? (n := 1) (by
    intro i x hx
    match i with
    | 0 | 1 | 2 => obtain rfl := Option.some.inj hx; rfl
    | i + 3 => exact absurd hx (by simp [X, countingExternals]))
  have h := processCommittedChain_gapFree (F := Faults.none 0) (s := NodeState.started ⟨tier, tier⟩)
    (show lastBlockNumber tier = some 1 by decide) hxs (a := 1) (b := 3) rfl rfl
  exact ⟨hout, (h.1 (by decide) true hout).1⟩

end NodeComponents.Node
