import NodeComponents.Node.Effects

/-!
# The latest tag and storage

Handlers resolve `latest` through the tag and then read storage, so the tag should
never name a block that is not stored. Growth respects that: a block is appended
first, the tag follows. A revert does not: storage is cut before the tags are
capped, and until the third write of the rewind the latest tag is above the tip.

Between notifications the tag should be the tip itself. It is, once a notification
changed something; but the tags start at zero, start-up leaves them there, and
redelivered blocks change nothing.
-/

namespace NodeComponents.Node

open Lib Rpc

variable {C H Tx G S : Type} {X : Externals C H Tx G S} {F : Faults}
  {genesis : ExecutedBlock Tx G S} {st : UnifiedStorage Tx G S} {s : NodeState Tx G S}

/-! ## Between two effects -/

/-- The latest tag names a stored block. -/
def LatestStored (s : NodeState Tx G S) : Prop :=
  s.chain.tags.latest ≤ lastRollupBlock s.storage

/-- An effect that neither removes blocks nor stores the latest tag. -/
def Effect.Harmless : Effect Tx G S → Prop
  | .drain _ => False
  | .tag (.store .latest _) => False
  | _ => True

theorem LatestStored.after (h : LatestStored s) {e : Effect Tx G S} (he : e.Harmless) :
    LatestStored (s.after e) := by
  unfold LatestStored at h
  cases e with
  | append b =>
      have hgrown := lastRollupBlock_append s.storage b
      show s.chain.tags.latest ≤ lastRollupBlock (s.storage.appendBlock b)
      omega
  | drain height => exact absurd he id
  | tag w =>
      cases w with
      | store tag n =>
          cases tag with
          | latest => exact absurd he id
          | safe => exact h
          | finalized => exact h
      | fetchMin tag n =>
          cases tag with
          | latest => exact Nat.le_trans (Nat.min_le_left _ _) h
          | safe => exact h
          | finalized => exact h
  | pushReorg now notif => exact h
  | broadcast event => exact h
  | status height => exact h
  | sendFinished height refused => cases refused <;> exact h

theorem always_of_harmless {es : List (Effect Tx G S)} (hes : ∀ e ∈ es, e.Harmless)
    (h : LatestStored s) : Always NodeState.after LatestStored es s :=
  always_of_kept (fun e he _ hs => hs.after (hes e he)) h

/-- **A cut shows the latest tag above the tip**, unless the tag was not above the target. -/
theorem cutEffects_iff (h : LatestStored s) (now target : Nat) :
    Always NodeState.after LatestStored (cutEffects X now s target) s ↔
      s.chain.tags.latest ≤ target := by
  have hcut : LatestStored (s.after (.drain target)) ↔ s.chain.tags.latest ≤ target := by
    have htip := lastRollupBlock_unwind s.storage target
    unfold LatestStored at h ⊢
    show s.chain.tags.latest ≤ lastRollupBlock (s.storage.unwindAbove target) ↔ _
    omega
  rw [← hcut]
  constructor
  · intro hq
    rcases hq with ⟨_, hrest⟩
    exact hrest.first
  · intro hdrained
    refine ⟨h, always_of_harmless ?_ hdrained⟩
    intro e he
    rcases List.mem_append.mp he with htags | hnews
    · obtain ⟨w, hw, rfl⟩ := List.mem_map.mp htags
      simp only [rewindToWrites, List.mem_cons, List.not_mem_nil, or_false] at hw
      rcases hw with rfl | rfl | rfl <;> exact trivial
    · split at hnews
      · exact absurd hnews (by simp)
      · simp only [List.mem_cons, List.not_mem_nil, or_false] at hnews
        rcases hnews with rfl | rfl <;> exact trivial

theorem commitEffects_harmless (X : Externals C H Tx G S) (F : Faults) (n : HostNotification C)
    (s : NodeState Tx G S) : ∀ e ∈ commitEffects X F n s, e.Harmless := by
  intro e he
  rcases commitEffects_mem X F n s e he with ⟨event, rfl⟩ | ⟨b, rfl⟩ <;> exact trivial

/-- The tags are updated to the tip that is stored. -/
theorem changedEffects_always (h : LatestStored s) (n : HostNotification C) :
    Always NodeState.after LatestStored (changedEffects X F n s) s := by
  unfold changedEffects readLastRollupBlock
  cases F.statusRead with
  | some m => exact h
  | none =>
      dsimp only
      cases F.tagsRead with
      | some m => exact ⟨h, h⟩
      | none =>
          refine ⟨h, h, h, h, ?_⟩
          -- the latest tag is the tip now
          refine always_of_harmless ?_ (Nat.le_refl (lastRollupBlock s.storage))
          intro e he
          rcases List.mem_append.mp he with hnil | he
          · exact absurd hnil (by simp)
          split at he
          · obtain rfl := List.mem_singleton.mp he
            exact trivial
          · exact absurd he (by simp)

/-- **One notification.** What it shows between its effects keeps the latest tag on a stored
block iff its revert, if it is carried out, does not cut below the tag. -/
theorem handleEffects_latestStored_iff (h : LatestStored s) (n : HostNotification C) :
    Always NodeState.after LatestStored (handleEffects X F n s) s ↔
      ∀ target, revertCut X F n s = some target → s.chain.tags.latest ≤ target := by
  have hrevert : Always NodeState.after LatestStored (revertEffects X F n s) s ↔
      ∀ target, revertCut X F n s = some target → s.chain.tags.latest ≤ target := by
    unfold revertEffects
    cases revertCut X F n s with
    | none => exact iff_of_true h fun _ hsome => absurd hsome (by simp)
    | some target =>
        dsimp only
        rw [cutEffects_iff h]
        exact ⟨fun hle _ heq => Option.some.inj heq ▸ hle, fun hall => hall target rfl⟩
  unfold handleEffects
  rw [always_append, ← hrevert]
  refine and_iff_left_of_imp fun hcut => ?_
  have hs₁ := hcut.last
  rw [revertEffects_state] at hs₁ ⊢
  cases hr : revertPart X F n s with
  | mk res s₁ =>
  rw [hr] at hs₁
  cases res with
  | error e => exact hs₁
  | ok reverted =>
  dsimp only at hs₁ ⊢
  have hcommit := always_of_harmless (commitEffects_harmless X F n s₁) hs₁
  refine always_append.mpr ⟨hcommit, ?_⟩
  have hs₂ := hcommit.last
  rw [commitEffects_state] at hs₂ ⊢
  cases hc : commitPart X F n s₁ with
  | mk res s₂ =>
  rw [hc] at hs₂
  cases res with
  | error e => exact hs₂
  | ok committed =>
  dsimp only at hs₂ ⊢
  split
  · exact changedEffects_always hs₂ n
  · exact hs₂

/-! ## Every run -/

/-- A notification is taken only if its revert, if it is carried out, does not cut storage
below the latest tag. -/
def CutsAboveLatest (X : Externals C H Tx G S) : LiveMove C → LiveNode Tx G S → Prop
  | .take n F, w => ∀ target, revertCut X F n w.state = some target →
      w.state.chain.tags.latest ≤ target
  | _, _ => True

theorem latestStored_booted (reported : List Nat) :
    LatestStored (LiveNode.booted genesis st reported).state := Nat.zero_le _

/--
**The latest tag never names a missing block**, in every run of a node, over any
number of restarts, whose reverts do not cut storage below the tag: in every state
between two effects it is at most the last block in hot storage.
-/
theorem latest_tag_stored {es : List (Effect Tx G S)} {w : LiveNode Tx G S}
    (hrun : LiveRun X genesis (CutsAboveLatest X) st es w) :
    w.state.chain.tags.latest ≤ lastRollupBlock w.state.storage := by
  have hinv : Always NodeState.after LatestStored w.pending w.state := by
    refine Run.invariant
      (I := fun _ w => Always NodeState.after LatestStored w.pending w.state) ?_ ?_ hrun
    · exact latestStored_booted []
    intro m _ w hw hm
    obtain ⟨s, pending, ended, reported, written⟩ := w
    cases m with
    | take n F =>
        cases pending with
        | cons e es => cases ended <;> exact hw
        | nil =>
            cases ended with
            | true => exact hw
            | false => exact (handleEffects_latestStored_iff hw n).mpr hm
    | effect =>
        cases pending with
        | nil => exact hw
        | cons e es => exact hw.2
    | ingest => exact hw
    | restart => exact latestStored_booted _
  exact hinv.first

/-- A block is committed, and the host reverts the blocks above it, which were never stored. -/
theorem latest_tag_stored_revert :
    let X := countingExternals 100
    let commit : HostNotification (List Nat) := ⟨.chainCommitted [101], none, none⟩
    let revert : HostNotification (List Nat) :=
      ⟨.chainReverted ⟨102, 103, by decide, by decide⟩, none, none⟩
    let moves := LiveMove.take commit (Faults.none 0) :: List.replicate 6 .effect
      ++ .take revert (Faults.none 1) :: List.replicate 4 .effect
    let w :=
      (runInputs (liveStep X (emptyBlock 0)) moves (LiveNode.booted (emptyBlock 0) ⟨[], []⟩ [])).2
    w.state.chain.tags.latest = 1
      ∧ w.state.chain.tags.latest ≤ lastRollupBlock w.state.storage := by
  intro X commit revert moves w
  refine ⟨rfl, latest_tag_stored (X := X) (runInputs_run moves _ ?_)⟩
  refine ⟨?_, trivial, trivial, trivial, trivial, trivial, trivial, ?_, trivial, trivial, trivial,
    trivial, trivial⟩
  · intro target htarget
    exact absurd htarget (by simp [revertCut, commit, HostNotification.revertRange,
      HostNotificationKind.revertRange])
  · intro target htarget
    obtain rfl : 1 = target := Option.some.inj htarget
    exact Nat.le_refl 1

/-- The tip is reverted: between the cut and the rewind the latest tag is above storage. -/
theorem revert_shows_missing_block :
    let X := countingExternals 100
    let commit : HostNotification (List Nat) := ⟨.chainCommitted [101, 102], none, none⟩
    let revert : HostNotification (List Nat) :=
      ⟨.chainReverted ⟨102, 102, by decide, by decide⟩, none, none⟩
    let moves := LiveMove.take commit (Faults.none 0) :: List.replicate 8 .effect
      ++ [.take revert (Faults.none 1), .effect]
    let out :=
      runInputs (liveStep X (emptyBlock 0)) moves (LiveNode.booted (emptyBlock 0) ⟨[], []⟩ [])
    LiveRun X (emptyBlock 0) (fun _ _ => True) ⟨[], []⟩ out.1 out.2
      ∧ out.2.state.chain.tags.latest = 2 ∧ lastRollupBlock out.2.state.storage = 1 := by
  intro X commit revert moves out
  exact ⟨runInputs_run moves _ (admits_true moves _), rfl, rfl⟩

/-! ## At rest -/

/-- The state of the loop once some notifications are handled. -/
def runLoop (X : Externals C H Tx G S) (is : List (HostNotification C × Faults))
    (s : NodeState Tx G S) : NodeState Tx G S :=
  is.foldl (fun s i => (handleNotification X i.2 i.1 s).2) s

/-- Every notification is handled without an error. -/
def HandledOk (X : Externals C H Tx G S) (is : List (HostNotification C × Faults))
    (s : NodeState Tx G S) : Prop :=
  ∀ pre i post, is = pre ++ i :: post → (handleNotification X i.2 i.1 (runLoop X pre s)).1 = .ok ()

/-- The notification reverts a host block of the rollup, or commits a block that is not stored. -/
def Acts (X : Externals C H Tx G S) (n : HostNotification C) (s : NodeState Tx G S) : Prop :=
  (∃ range, n.revertRange = some range ∧ X.hostDeployHeight < range.tip) ∨
    ∃ chain, n.committedChain = some chain ∧
      ∃ x ∈ X.extractSignet chain, lastRollupBlock s.storage < x.ruHeight

theorem runLoop_concat (is : List (HostNotification C × Faults)) (i : HostNotification C × Faults)
    (s : NodeState Tx G S) :
    runLoop X (is ++ [i]) s = (handleNotification X i.2 i.1 (runLoop X is s)).2 := by
  unfold runLoop
  rw [List.foldl_append]
  rfl

/-- A revert reports a change iff it is above the rollup's first block, and changes nothing else. -/
theorem revertPart_ok {n : HostNotification C} {reverted : Bool}
    (h : (revertPart X F n s).1 = .ok reverted) :
    (reverted = true ↔ ∃ range, n.revertRange = some range ∧ X.hostDeployHeight < range.tip)
      ∧ (reverted = false → (revertPart X F n s).2 = s) := by
  cases hcut : revertCut X F n s with
  | none =>
      obtain ⟨hsame, ⟨hfalse, hbelow⟩ | ⟨e, he⟩⟩ := revertPart_uncut hcut
      · rw [hfalse] at h
        obtain rfl := Except.ok.inj h
        refine ⟨iff_of_false (by simp) ?_, fun _ => hsame⟩
        rintro ⟨range, hrange, hlt⟩
        have hle := hbelow range hrange
        omega
      · rw [he] at h
        exact absurd h (by simp)
  | some target =>
      rw [revertPart_cut hcut] at h
      obtain rfl := Except.ok.inj h
      obtain ⟨range, hrange, hcond, _⟩ := revertCut_some hcut
      exact ⟨iff_of_true rfl ⟨range, hrange, hcond.1⟩, fun hfalse => absurd hfalse (by simp)⟩

/-- A commit reports a change iff it found a block above the tip, and changes nothing else. -/
theorem commitPart_ok {n : HostNotification C} {committed : Bool}
    (h : (commitPart X F n s).1 = .ok committed) :
    (committed = true ↔ ∃ chain, n.committedChain = some chain ∧
        ∃ x ∈ X.extractSignet chain, lastRollupBlock s.storage < x.ruHeight)
      ∧ (committed = false → (commitPart X F n s).2 = s) := by
  unfold commitPart at h ⊢
  cases hc : n.committedChain with
  | none =>
      rw [hc] at h
      obtain rfl := Except.ok.inj h
      exact ⟨by simp, fun _ => rfl⟩
  | some chain =>
      rw [hc] at h
      dsimp only at h ⊢
      have hfresh : freshExtracts X chain (lastRollupBlock s.storage) ≠ [] ↔
          ∃ x ∈ X.extractSignet chain, lastRollupBlock s.storage < x.ruHeight := by
        unfold freshExtracts
        rw [Ne, List.filter_eq_nil_iff]
        simp
      unfold processCommittedChain readLastRollupBlock at h ⊢
      cases hread : F.commitRead with
      | some m => rw [hread] at h; exact absurd h (by simp)
      | none =>
          rw [hread] at h
          dsimp only at h ⊢
          cases hloop : commitLoop X F 0 (freshExtracts X chain (lastRollupBlock s.storage)) s with
          | mk e s' =>
          rw [hloop] at h
          cases e with
          | some e => exact absurd h (by simp)
          | none =>
              obtain rfl := Except.ok.inj h
              rw [Bool.not_eq_true', List.isEmpty_eq_false_iff, hfresh]
              refine ⟨by simp, ?_⟩
              intro hnone
              rw [Bool.not_eq_false', List.isEmpty_iff] at hnone
              rw [hnone] at hloop
              exact (congrArg Prod.snd hloop).symm

/-- The tags behind an update, whether or not the host notifier takes the finished height. -/
theorem updateBlockTags_tags (ruHeight : Nat) (safe finalized : Option Nat) :
    (updateBlockTags X F ruHeight safe finalized s).2.chain.tags
      = ⟨ruHeight, (clampHostHeights X ruHeight safe).rollup,
        (clampHostHeights X ruHeight finalized).rollup⟩ := by
  unfold updateBlockTags
  dsimp only
  split
  · split <;> rfl
  · rfl

/-- **What a handled notification does to the latest tag.** If it acts, the tag is the tip;
if it does not, nothing changed. -/
theorem handleNotification_ok {n : HostNotification C}
    (h : (handleNotification X F n s).1 = .ok ()) :
    (Acts X n s → (handleNotification X F n s).2.chain.tags.latest
        = lastRollupBlock (handleNotification X F n s).2.storage)
      ∧ (¬ Acts X n s → (handleNotification X F n s).2 = s) := by
  unfold handleNotification onNotification at h ⊢
  cases hr : revertPart X F n s with
  | mk res s₁ =>
  rw [hr] at h
  cases res with
  | error e => exact absurd h (by simp)
  | ok reverted =>
  dsimp only at h ⊢
  cases hc : commitPart X F n s₁ with
  | mk res s₂ =>
  rw [hc] at h
  cases res with
  | error e => exact absurd h (by simp)
  | ok committed =>
  have hok : (commitPart X F n s₁).1 = .ok committed := congrArg Prod.fst hc
  obtain ⟨hcommitted, hunchanged⟩ := commitPart_ok hok
  rw [hc] at hunchanged
  obtain ⟨hreverted, hkept⟩ := revertPart_ok (congrArg Prod.fst hr)
  rw [hr] at hkept
  -- the node reports a change iff the notification acts
  have hacts : (reverted || committed) = true ↔ Acts X n s := by
    cases reverted with
    | true => exact iff_of_true rfl (Or.inl (hreverted.mp rfl))
    | false =>
        obtain rfl : s₁ = s := hkept rfl
        rw [Bool.false_or, hcommitted]
        refine ⟨Or.inr, fun hact => hact.resolve_left fun hrev => ?_⟩
        exact absurd (hreverted.mpr hrev) (by simp)
  dsimp only at h ⊢
  by_cases hchanged : (reverted || committed) = true
  · rw [if_pos hchanged] at h ⊢
    refine ⟨fun _ => ?_, fun hnot => absurd (hacts.mp hchanged) hnot⟩
    unfold readLastRollupBlock at h ⊢
    cases hstatus : F.statusRead with
    | some m => rw [hstatus] at h; exact absurd h (by simp)
    | none =>
        rw [hstatus] at h
        dsimp only at h ⊢
        cases htags : F.tagsRead with
        | some m => rw [htags] at h; exact absurd h (by simp)
        | none =>
            dsimp only
            rw [if_pos rfl, updateBlockTags_tags, updateBlockTags_storage]
  · rw [if_neg hchanged] at h ⊢
    refine ⟨fun hact => absurd (hacts.mpr hact) hchanged, fun _ => ?_⟩
    rw [Bool.not_eq_true, Bool.or_eq_false_iff] at hchanged
    dsimp only
    rw [if_neg (by simp)]
    exact (hunchanged hchanged.2).trans (hkept hchanged.1)

/--
**When the latest tag is exact at rest.** Start a node on any storage and let it
handle any notifications without an error: the latest tag is the last rollup
block in storage if and only if storage held none but genesis at the start, or a
notification since then reverted a host block of the rollup or committed a block
that was not stored.
-/
theorem latest_exact_iff {is : List (HostNotification C × Faults)}
    (hok : HandledOk X is (NodeState.started (startStorage genesis st))) :
    let start : NodeState Tx G S := NodeState.started (startStorage genesis st)
    (runLoop X is start).chain.tags.latest = lastRollupBlock (runLoop X is start).storage ↔
      lastRollupBlock (startStorage genesis st) = 0 ∨
        ∃ pre i post, is = pre ++ i :: post ∧ Acts X i.1 (runLoop X pre start) := by
  intro start
  -- without an action the state is the one of the start
  have hrest : ∀ is, HandledOk X is start →
      (runLoop X is start).chain.tags.latest = lastRollupBlock (runLoop X is start).storage
          ∧ (∃ pre i post, is = pre ++ i :: post ∧ Acts X i.1 (runLoop X pre start))
        ∨ runLoop X is start = start
          ∧ ¬ ∃ pre i post, is = pre ++ i :: post ∧ Acts X i.1 (runLoop X pre start) := by
    intro is
    induction is using List.reverseRecOn with
    | nil =>
        intro _
        refine Or.inr ⟨rfl, ?_⟩
        intro hq
        rcases hq with ⟨pre, i, post, heq, _⟩
        exact absurd heq (by simp)
    | append_singleton is i ih =>
        intro hok
        have hbefore : HandledOk X is start := fun pre j post heq =>
          hok pre j (post ++ [i]) (by rw [heq]; simp)
        obtain ⟨hact, hnot⟩ := handleNotification_ok (hok is i [] rfl)
        rw [runLoop_concat]
        by_cases hi : Acts X i.1 (runLoop X is start)
        · exact Or.inl ⟨hact hi, is, i, [], rfl, hi⟩
        · rw [hnot hi]
          rcases ih hbefore with ⟨hexact, pre, j, post, heq, hj⟩ | ⟨hsame, hnone⟩
          · exact Or.inl ⟨hexact, pre, j, post ++ [i], by rw [heq]; simp, hj⟩
          · refine Or.inr ⟨hsame, ?_⟩
            intro hq
            rcases hq with ⟨pre, j, post, heq, hj⟩
            rcases split_concat heq with ⟨rfl, hlast⟩ | ⟨post', hfront⟩
            · exact hi (hlast ▸ hj)
            · exact hnone ⟨pre, j, post', hfront, hj⟩
  rcases hrest is hok with ⟨hexact, hacted⟩ | ⟨hsame, hnone⟩
  · exact iff_of_true hexact (Or.inr hacted)
  · rw [hsame]
    have hzero : start.chain.tags.latest = 0 := rfl
    rw [hzero]
    exact ⟨fun h => Or.inl h.symm, fun h => h.elim Eq.symm fun hacted => absurd hacted hnone⟩

/-- A node restarted at height one is exact behind the next new block. -/
theorem latest_exact_iff_restart :
    let X := countingExternals 100
    let tier := [emptyBlock 0, emptyBlock 1]
    let commit : HostNotification (List Nat) := ⟨.chainCommitted [101, 102], none, none⟩
    let s := runLoop X [(commit, Faults.none 0)]
      (NodeState.started (startStorage (emptyBlock 0) ⟨tier, tier⟩))
    s.chain.tags.latest = lastRollupBlock s.storage := by
  intro X tier commit s
  have hok : HandledOk X [(commit, Faults.none 0)]
      (NodeState.started (startStorage (emptyBlock 0) ⟨tier, tier⟩)) := by
    intro pre i post heq
    rcases pre with _ | ⟨_, pre⟩
    · obtain ⟨rfl, _⟩ := List.cons.inj heq
      rfl
    · exact absurd (List.cons.inj heq).2 (by simp)
  refine (latest_exact_iff hok).mpr
    (Or.inr ⟨[], _, [], rfl, Or.inr ⟨[101, 102], rfl, ⟨2, 102⟩, ?_⟩⟩)
  exact ⟨List.mem_cons_of_mem _ (List.mem_singleton.mpr rfl), by decide⟩

/-- A node restarted at height one says that its latest block is genesis, also once the host
has redelivered the block it stores. -/
theorem restart_shows_genesis :
    let X := countingExternals 100
    let tier := [emptyBlock 0, emptyBlock 1]
    let redelivery : HostNotification (List Nat) := ⟨.chainCommitted [101], none, none⟩
    let start : NodeState Unit Unit Unit :=
      NodeState.started (startStorage (emptyBlock 0) ⟨tier, tier⟩)
    let s := runLoop X [(redelivery, Faults.none 0)] start
    (handleNotification X (Faults.none 0) redelivery start).1 = .ok ()
      ∧ start.chain.tags.latest = 0 ∧ lastRollupBlock start.storage = 1
      ∧ s.chain.tags.latest = 0 ∧ lastRollupBlock s.storage = 1 := ⟨rfl, rfl, rfl, rfl, rfl⟩

end NodeComponents.Node
