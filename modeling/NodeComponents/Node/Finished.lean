import NodeComponents.Node.LatestTag

/-!
# Finished heights

`send_finished_height` lets the host prune. A host block the node may ask for again
must not be pruned, and what it asks for after a start is everything from the host
height of its stored tip on.

A finished height is one below a finalized host height, capped by the stored tip,
and sent only once the rollup left genesis. Later the tip can fall, but only to the
block before a reverted one, and the host reverts nothing it called finalized.

The tip that caps it is that of hot storage, and a start goes back to the lower tier.
So a height is safe exactly if cold storage has written the block it stands for by the
time it is sent, and nothing in the code waits for that.
-/

namespace NodeComponents.Node

open Lib Rpc

variable {C H Tx G S : Type} {X : Externals C H Tx G S} {F : Faults}
  {genesis : ExecutedBlock Tx G S} {st : UnifiedStorage Tx G S} {w : LiveNode Tx G S}

/-! ## Cold storage behind hot storage -/

/-- Both tiers hold genesis and end at one height. -/
def Level (st : UnifiedStorage Tx G S) : Prop := st.hot ≠ [] ∧ st.hot.length = st.cold.length

theorem level_startStorage (genesis : ExecutedBlock Tx G S) (st : UnifiedStorage Tx G S) :
    Level (startStorage genesis st) := by
  obtain ⟨hhot, hcold⟩ : (startStorage genesis st).hot = _ ∧ (startStorage genesis st).cold = _ :=
    startStorage_cut st
  have hne : 0 < (prebuild genesis st).hot.length ∧ 0 < (prebuild genesis st).cold.length := by
    obtain ⟨hot, cold⟩ := st
    cases hot <;> cases cold <;> simp [prebuild]
  unfold Level
  rw [← List.length_pos_iff, hhot, hcold, List.length_take, List.length_take]
  omega

theorem Level.after {s : NodeState Tx G S} (h : Level s.storage) (e : Effect Tx G S) :
    Level (s.after e).storage := by
  obtain ⟨hne, hlen⟩ := h
  cases e with
  | append b =>
      refine ⟨List.append_ne_nil_of_right_ne_nil _ (by simp), ?_⟩
      show (s.storage.hot ++ [b]).length = (s.storage.cold ++ [b]).length
      rw [List.length_append, List.length_append, hlen]
  | drain height =>
      have hpos := List.length_pos_iff.mpr hne
      refine ⟨?_, ?_⟩
      · show s.storage.hot.take (height + 1) ≠ []
        rw [← List.length_pos_iff, List.length_take]
        omega
      · show (s.storage.hot.take (height + 1)).length = (s.storage.cold.take (height + 1)).length
        rw [List.length_take, List.length_take, hlen]
  | tag w => exact ⟨hne, hlen⟩
  | pushReorg now notif => exact ⟨hne, hlen⟩
  | broadcast event => exact ⟨hne, hlen⟩
  | status height => exact ⟨hne, hlen⟩
  | sendFinished height refused => cases refused <;> exact ⟨hne, hlen⟩

theorem headHeight_eq (deploy n : Nat) : headHeight deploy n = deploy + n := by
  unfold headHeight pairRu
  split
  · rfl
  · exact Nat.add_comm _ _

/-- What was dispatched to cold storage is level with hot storage, and some of it is written. -/
structure LiveNode.Trails (w : LiveNode Tx G S) : Prop where
  level : Level w.state.storage
  pos : 0 < w.written
  le : w.written ≤ w.state.storage.cold.length

theorem LiveNode.Trails.le_hot (h : w.Trails) : w.written ≤ w.state.storage.hot.length :=
  h.level.2 ▸ h.le

theorem trails_booted (genesis : ExecutedBlock Tx G S) (st : UnifiedStorage Tx G S)
    (reported : List Nat) : (LiveNode.booted genesis st reported).Trails := by
  have hlevel := level_startStorage genesis st
  refine ⟨hlevel, ?_, Nat.le_refl _⟩
  show 0 < (startStorage genesis st).cold.length
  rw [← hlevel.2]
  exact List.length_pos_iff.mpr hlevel.1

/-- **Cold storage trails hot storage** at any time. -/
theorem LiveNode.Trails.step (h : w.Trails) (m : LiveMove C) :
    (liveStep X genesis m w).2.Trails := by
  obtain ⟨s, pending, ended, reported, written⟩ := w
  cases m with
  | take n F =>
      cases pending with
      | cons e es => cases ended <;> exact h
      | nil => cases ended <;> exact ⟨h.level, h.pos, h.le⟩
  | effect =>
      cases pending with
      | nil => exact h
      | cons e es =>
          have hlevel := h.level.after e
          have hpos := List.length_pos_iff.mpr hlevel.1
          rw [hlevel.2] at hpos
          exact ⟨hlevel, Nat.lt_min.mpr ⟨h.pos, hpos⟩, Nat.min_le_right _ _⟩
  | ingest =>
      have hpos : 0 < s.storage.cold.length := Nat.lt_of_lt_of_le h.pos h.le
      exact ⟨h.level, Nat.lt_min.mpr ⟨Nat.succ_pos _, hpos⟩, Nat.min_le_right _ _⟩
  | restart => exact trails_booted genesis _ _

/-- **A start goes back to what cold storage has written.** -/
theorem LiveNode.Trails.restarted (h : w.Trails) (genesis : ExecutedBlock Tx G S) :
    startStorage genesis w.found
      = ⟨w.state.storage.hot.take w.written, w.state.storage.cold.take w.written⟩ := by
  have hlen : (w.state.storage.cold.take w.written).length = w.written := by
    rw [List.length_take, Nat.min_eq_left h.le]
  have hcold : w.state.storage.cold.take w.written ≠ [] := by
    rw [← List.length_pos_iff, hlen]
    exact h.pos
  have hpre : prebuild genesis w.found = w.found := by
    show UnifiedStorage.mk (if w.state.storage.hot.isEmpty then _ else _)
      (if (w.state.storage.cold.take w.written).isEmpty then _ else _) = _
    rw [if_neg (by simpa using h.level.1), if_neg (by simpa using hcold)]
  obtain ⟨hhot, hcold'⟩ : (startStorage genesis w.found).hot = _
    ∧ (startStorage genesis w.found).cold = _ := startStorage_cut w.found
  have hmin : min w.found.hot.length w.found.cold.length = w.written := by
    show min w.state.storage.hot.length (w.state.storage.cold.take w.written).length = _
    rw [hlen]
    exact Nat.min_eq_right h.le_hot
  rw [hpre, hmin] at hhot hcold'
  refine congrArg₂ UnifiedStorage.mk hhot (hcold'.trans ?_)
  show (w.state.storage.cold.take w.written).take w.written = _
  rw [List.take_take, Nat.min_self]

/-- The host height a start asks for, with cold storage where it is. -/
theorem LiveNode.Trails.headHeight (h : w.Trails) (genesis : ExecutedBlock Tx G S) (deploy : Nat) :
    Node.headHeight deploy (lastRollupBlock (startStorage genesis w.found)) + 1
      = deploy + w.written := by
  have hpos := h.pos
  have hle := h.le_hot
  rw [h.restarted, lastRollupBlock_eq, headHeight_eq]
  show deploy + ((w.state.storage.hot.take w.written).length - 1) + 1 = _
  rw [List.length_take]
  omega

/-! ## Clamped heights -/

/-- A clamped height is a rollup height the host has reached and the node has stored, beside
its host height. -/
theorem clampHostHeights_eq (X : Externals C H Tx G S) (ruHeight : Nat) (f : Option Nat) :
    clampHostHeights X ruHeight f
      = ⟨X.hostDeployHeight + min ruHeight (f.getD 0 - X.hostDeployHeight),
          min ruHeight (f.getD 0 - X.hostDeployHeight)⟩ := by
  unfold clampHostHeights pairHost hostBlockToRollupBlockNum pairRu
  cases f with
  | none => simp
  | some f =>
      rw [Option.bind_some, Option.getD_some]
      by_cases hf : X.hostDeployHeight ≤ f
      · rw [if_pos hf]
        dsimp only [Option.map_some]
        split <;> (rw [PairedHeights.mk.injEq]; omega)
      · rw [if_neg hf]
        dsimp only [Option.map_none]
        rw [PairedHeights.mk.injEq]
        omega

/-! ## What was sent -/

/-- The height an effect sends to the host, taken or not. -/
def Effect.finished : Effect Tx G S → Option Nat
  | .sendFinished height _ => some height
  | _ => none

/-- The state behind an effect, beside every height sent so far. -/
def tell (p : NodeState Tx G S × List Nat) (e : Effect Tx G S) : NodeState Tx G S × List Nat :=
  (p.1.after e, p.2 ++ e.finished.toList)

/-- A height sent belongs to the rollup, is below one the host reported as finalized, and is
below the host height of the stored tip. -/
def Releasable (X : Externals C H Tx G S) (reported : List Nat) (s : NodeState Tx G S)
    (height : Nat) : Prop :=
  X.hostDeployHeight ≤ height ∧ height < X.hostDeployHeight + lastRollupBlock s.storage
    ∧ ∃ f ∈ reported, height < f

def AllReleasable (X : Externals C H Tx G S) (reported : List Nat)
    (p : NodeState Tx G S × List Nat) : Prop :=
  ∀ height ∈ p.2, Releasable X reported p.1 height

/-- The tags name stored heights in order, and the latest one is the stored tip. -/
def TagsSettled (s : NodeState Tx G S) : Prop :=
  s.chain.tags.finalized ≤ s.chain.tags.safe ∧ s.chain.tags.safe ≤ s.chain.tags.latest
    ∧ s.chain.tags.latest = lastRollupBlock s.storage

/-- What an effect has to respect: nothing sent is above the stored tip, the last write of an
update of the tags leaves them settled, and a height that is sent is one below the host
block of the number reported last, or of the stored tip if the host is ahead. -/
structure Respects (X : Externals C H Tx G S) (reported : List Nat)
    (p : NodeState Tx G S × List Nat) (e : Effect Tx G S) : Prop where
  releasable : AllReleasable X reported (tell p e)
  settles : ∀ k, e = .tag (.store .latest k) → TagsSettled (p.1.after e)
  sends : ∀ height, e.finished = some height → ∃ f, reported.getLast? = some f
    ∧ height + 1 = X.hostDeployHeight + min (lastRollupBlock p.1.storage) (f - X.hostDeployHeight)

/-- An effect that sends nothing and does not settle the tags. -/
def Effect.Silent (e : Effect Tx G S) : Prop :=
  e.finished = none ∧ ∀ k, e ≠ .tag (.store .latest k)

/-- A silent effect behind which all that was sent is releasable. -/
def Spares (X : Externals C H Tx G S) (reported : List Nat) (p : NodeState Tx G S × List Nat)
    (e : Effect Tx G S) : Prop := e.Silent ∧ AllReleasable X reported (tell p e)

theorem foldl_tell (es : List (Effect Tx G S)) : ∀ p : NodeState Tx G S × List Nat,
    (es.foldl tell p).1 = es.foldl NodeState.after p.1 := by
  induction es with
  | nil => exact fun _ => rfl
  | cons e es ih => exact fun p => ih (tell p e)

variable {p : NodeState Tx G S × List Nat} {reported : List Nat}

theorem AllReleasable.more (h : AllReleasable X reported p) (f : List Nat) :
    AllReleasable X (reported ++ f) p := by
  intro height hmem
  obtain ⟨hlow, htip, g, hg, hlt⟩ := h height hmem
  exact ⟨hlow, htip, g, List.mem_append_left _ hg, hlt⟩

theorem Spares.respects {e : Effect Tx G S} (h : Spares X reported p e) (f : List Nat) :
    Respects X (reported ++ f) p e where
  releasable := h.2.more f
  settles k heq := absurd heq (h.1.2 k)
  sends height heq := by
    rw [h.1.1] at heq
    cases heq

/-- An effect that leaves storage and sends nothing. -/
theorem AllReleasable.still (h : AllReleasable X reported p) {e : Effect Tx G S}
    (hst : (p.1.after e).storage = p.1.storage) (he : e.finished = none) :
    AllReleasable X reported (tell p e) := by
  intro height hmem
  unfold tell at hmem ⊢
  rw [he, Option.toList_none, List.append_nil] at hmem
  obtain ⟨hlow, htip, hf⟩ := h height hmem
  refine ⟨hlow, ?_, hf⟩
  rwa [hst]

/-- An effect that sends a height the node may release, taken or not. -/
theorem AllReleasable.release (h : AllReleasable X reported p) {height : Nat}
    (hheight : Releasable X reported p.1 height) (refused : Option String) :
    AllReleasable X reported (tell p (.sendFinished height refused)) := by
  have hst : (p.1.after (.sendFinished height refused)).storage = p.1.storage := by
    cases refused <;> rfl
  intro sent hmem
  unfold Releasable
  rw [tell, hst]
  rcases List.mem_append.mp hmem with hold | hnew
  · exact h sent hold
  · obtain rfl := List.mem_singleton.mp hnew
    exact hheight

/-- Silent effects that keep storage. -/
theorem each_still {es : List (Effect Tx G S)}
    (hes : ∀ e ∈ es, (∀ s : NodeState Tx G S, (s.after e).storage = s.storage) ∧ e.Silent)
    (h : AllReleasable X reported p) :
    Each tell (Spares X reported) es p ∧ AllReleasable X reported (es.foldl tell p) := by
  refine each_of_kept ?_ h
  intro e he q hq
  obtain ⟨hst, hsilent⟩ := hes e he
  have hnext := hq.still (hst q.1) hsilent.1
  exact ⟨⟨hsilent, hnext⟩, hnext⟩

/-- **A revert cuts nothing that was released**: storage keeps the host block before the first
reverted one. -/
theorem each_cutEffects (h : AllReleasable X reported p) {first : Nat}
    (hfirst : ∀ f ∈ reported, f < first) (now : Nat) :
    let es := cutEffects X now p.1 (revertTarget X.hostDeployHeight first)
    Each tell (Spares X reported) es p ∧ AllReleasable X reported (es.foldl tell p) := by
  intro es
  have hcut : AllReleasable X reported
      (tell p (.drain (revertTarget X.hostDeployHeight first))) := by
    intro height hmem
    have hmem : height ∈ p.2 := by simpa [tell, Effect.finished] using hmem
    obtain ⟨hlow, htip, f, hf, hlt⟩ := h height hmem
    have hbelow := hfirst f hf
    refine ⟨hlow, ?_, f, hf, hlt⟩
    show height < X.hostDeployHeight
      + lastRollupBlock (p.1.storage.unwindAbove (revertTarget X.hostDeployHeight first))
    rw [lastRollupBlock_unwind]
    unfold revertTarget hostBlockToRollupBlockNum
    rw [if_pos (by omega), Option.getD_some]
    omega
  have hstill : ∀ e ∈ es.tail, (∀ s : NodeState Tx G S, (s.after e).storage = s.storage)
      ∧ e.Silent := by
    intro e he
    rcases List.mem_append.mp he with htags | hnews
    · obtain ⟨w, hw, rfl⟩ := List.mem_map.mp htags
      simp only [rewindToWrites, List.mem_cons, List.not_mem_nil, or_false] at hw
      refine ⟨fun _ => rfl, rfl, ?_⟩
      rcases hw with rfl | rfl | rfl <;> exact fun k heq => absurd heq (by simp)
    · split at hnews
      · exact absurd hnews (by simp)
      · simp only [List.mem_cons, List.not_mem_nil, or_false] at hnews
        rcases hnews with rfl | rfl <;>
          exact ⟨fun _ => rfl, rfl, fun k heq => absurd heq (by simp)⟩
  obtain ⟨hrest, hlast⟩ := each_still hstill hcut
  exact ⟨⟨⟨⟨rfl, fun k heq => absurd heq (by simp)⟩, hcut⟩, hrest⟩, hlast⟩

/-- A commit only raises the tip. -/
theorem each_commitEffects (h : AllReleasable X reported p) (n : HostNotification C) :
    Each tell (Spares X reported) (commitEffects X F n p.1) p
      ∧ AllReleasable X reported ((commitEffects X F n p.1).foldl tell p) := by
  refine each_of_kept ?_ h
  intro e he q hq
  rcases commitEffects_mem X F n p.1 e he with ⟨event, rfl⟩ | ⟨b, rfl⟩
  · have hnext := hq.still (e := .broadcast event) rfl rfl
    exact ⟨⟨⟨rfl, fun k heq => absurd heq (by simp)⟩, hnext⟩, hnext⟩
  · have hnext : AllReleasable X reported (tell q (.append b)) := by
      intro height hmem
      have hmem : height ∈ q.2 := by simpa [tell, Effect.finished] using hmem
      obtain ⟨hlow, htip, hf⟩ := hq height hmem
      have hgrown := lastRollupBlock_append q.1.storage b
      exact ⟨hlow, Nat.lt_of_lt_of_le htip (Nat.add_le_add_left hgrown _), hf⟩
    exact ⟨⟨⟨rfl, fun k heq => absurd heq (by simp)⟩, hnext⟩, hnext⟩

/-- The finalized number of a notification is absent without the safe one, and not above it. -/
def FinalityOrdered (n : HostNotification C) : Prop :=
  ∀ f, n.finalizedBlockNumber = some f → ∃ safe, n.safeBlockNumber = some safe ∧ f ≤ safe

theorem FinalityOrdered.getD_le {n : HostNotification C} (hn : FinalityOrdered n) :
    n.finalizedBlockNumber.getD 0 ≤ n.safeBlockNumber.getD 0 := by
  cases hf : n.finalizedBlockNumber with
  | none => exact Nat.zero_le _
  | some f =>
      obtain ⟨safe, hsafe, hle⟩ := hn f hf
      rw [hsafe]
      exact hle

/-- **An update of the tags settles them**, and what it sends to the host is releasable. -/
theorem each_changedEffects (h : AllReleasable X reported p) {n : HostNotification C}
    (hn : FinalityOrdered n) :
    Each tell (Respects X (reported ++ n.finalizedBlockNumber.toList))
      (changedEffects X F n p.1) p := by
  unfold changedEffects readLastRollupBlock
  cases F.statusRead with
  | some m => exact trivial
  | none =>
  dsimp only
  have hstatus := h.still (e := .status (lastRollupBlock p.1.storage)) rfl rfl
  have hspared : Spares X reported p (.status (lastRollupBlock p.1.storage)) :=
    ⟨⟨rfl, fun k heq => absurd heq (by simp)⟩, hstatus⟩
  cases F.tagsRead with
  | some m => exact ⟨hspared.respects _, trivial⟩
  | none =>
  dsimp only
  unfold tagEffects
  rw [clampHostHeights_eq, clampHostHeights_eq]
  dsimp only
  have horder := hn.getD_le
  have hfinalized := hstatus.still (e := .tag (.store .finalized
    (min (lastRollupBlock p.1.storage) (n.finalizedBlockNumber.getD 0 - X.hostDeployHeight))))
    rfl rfl
  have hsafe := hfinalized.still (e := .tag (.store .safe
    (min (lastRollupBlock p.1.storage) (n.safeBlockNumber.getD 0 - X.hostDeployHeight)))) rfl rfl
  have hlatest := hsafe.still (e := .tag (.store .latest (lastRollupBlock p.1.storage))) rfl rfl
  refine ⟨hspared.respects _,
    Spares.respects ⟨⟨rfl, fun k heq => absurd heq (by simp)⟩, hfinalized⟩ _,
    Spares.respects ⟨⟨rfl, fun k heq => absurd heq (by simp)⟩, hsafe⟩ _,
    ⟨hlatest.more _, ?_, fun height heq => absurd heq (by simp [Effect.finished])⟩, ?_⟩
  · intro k _
    refine ⟨?_, Nat.min_le_left _ _, rfl⟩
    show min _ _ ≤ min _ _
    omega
  -- the finished height is sent last
  by_cases hpos : 0 < min (lastRollupBlock p.1.storage)
      (n.finalizedBlockNumber.getD 0 - X.hostDeployHeight)
  · rw [if_pos hpos]
    cases hf : n.finalizedBlockNumber with
    | none =>
        rw [hf] at hpos
        exact absurd hpos (by simp)
    | some f =>
        rw [hf, Option.getD_some] at hpos
        rw [hf] at hlatest
        refine ⟨⟨(hlatest.more [f]).release ?_ _, fun k heq => absurd heq (by simp), ?_⟩, trivial⟩
        · rw [Option.getD_some]
          refine ⟨by omega, ?_, f, by simp, by omega⟩
          show _ < X.hostDeployHeight + lastRollupBlock p.1.storage
          omega
        · intro height heq
          obtain rfl := Option.some.inj heq
          refine ⟨f, List.getLast?_concat, ?_⟩
          show _ = X.hostDeployHeight
            + min (lastRollupBlock p.1.storage) (f - X.hostDeployHeight)
          rw [Option.getD_some]
          omega
  · rw [if_neg hpos]
    exact trivial

/-- **One notification** whose finalized number is ordered and which reverts nothing that was
reported as finalized before. -/
theorem each_handleEffects (h : AllReleasable X reported p) {n : HostNotification C}
    (hn : FinalityOrdered n)
    (hrevert : ∀ range, n.revertRange = some range → ∀ f ∈ reported, f < range.first) :
    Each tell (Respects X (reported ++ n.finalizedBlockNumber.toList))
      (handleEffects X F n p.1) p := by
  have hmore : ∀ {es : List (Effect Tx G S)} {q : NodeState Tx G S × List Nat},
      Each tell (Spares X reported) es q →
        Each tell (Respects X (reported ++ n.finalizedBlockNumber.toList)) es q :=
    fun hes => hes.mono fun _ _ hr => hr.respects _
  have hcut : Each tell (Spares X reported) (revertEffects X F n p.1) p
      ∧ AllReleasable X reported ((revertEffects X F n p.1).foldl tell p) := by
    unfold revertEffects
    cases hcut : revertCut X F n p.1 with
    | none => exact ⟨trivial, h⟩
    | some target =>
        obtain ⟨range, hrange, _, rfl⟩ := revertCut_some hcut
        exact each_cutEffects h (hrevert range hrange) F.now
  unfold handleEffects
  rw [each_append]
  refine ⟨hmore hcut.1, ?_⟩
  obtain ⟨_, hp₁⟩ := hcut
  have hs₁ := foldl_tell (revertEffects X F n p.1) p
  generalize (revertEffects X F n p.1).foldl tell p = p₁ at hp₁ hs₁ ⊢
  rw [revertEffects_state] at hs₁
  cases hr : revertPart X F n p.1 with
  | mk res s₁ =>
  rw [hr] at hs₁
  obtain rfl : p₁.1 = s₁ := hs₁
  cases res with
  | error e => exact trivial
  | ok reverted =>
  dsimp only
  rw [each_append]
  obtain ⟨hcommit, hp₂⟩ := each_commitEffects (F := F) hp₁ n
  refine ⟨hmore hcommit, ?_⟩
  have hs₂ := foldl_tell (commitEffects X F n p₁.1) p₁
  generalize (commitEffects X F n p₁.1).foldl tell p₁ = p₂ at hp₂ hs₂ ⊢
  rw [commitEffects_state] at hs₂
  cases hc : commitPart X F n p₁.1 with
  | mk res s₂ =>
  rw [hc] at hs₂
  obtain rfl : p₂.1 = s₂ := hs₂
  cases res with
  | error e => exact trivial
  | ok committed =>
  dsimp only
  split
  · exact each_changedEffects hp₂ hn
  · exact trivial

/-! ## Every run -/

/-- The finalized number of each notification is ordered, and no notification reverts a host
block at or below one reported before. -/
def FinalityRespected : LiveMove C → LiveNode Tx G S → Prop
  | .take n _, w => FinalityOrdered n
      ∧ ∀ range, n.revertRange = some range → ∀ f ∈ w.reported, f < range.first
  | _, _ => True

/-- The heights sent by a sequence of effects. -/
def sentHeights (es : List (Effect Tx G S)) : List Nat := es.filterMap Effect.finished

/-- A height is sent only once cold storage has written the block it stands for: that of the
host block reported last as finalized, or the stored tip if the host is ahead. -/
def ReleasesWritten (X : Externals C H Tx G S) : LiveMove C → LiveNode Tx G S → Prop
  | .effect, w => ∀ e ∈ w.pending.head?, e.finished ≠ none → ∀ f ∈ w.reported.getLast?,
      min (lastRollupBlock w.state.storage) (f - X.hostDeployHeight) < w.written
  | _, _ => True

instance (m : LiveMove C) (w : LiveNode Tx G S) : Decidable (ReleasesWritten X m w) :=
  match m with
  | .effect => inferInstanceAs (Decidable (∀ e ∈ w.pending.head?, e.finished ≠ none →
      ∀ f ∈ w.reported.getLast?,
        min (lastRollupBlock w.state.storage) (f - X.hostDeployHeight) < w.written))
  | .take _ _ | .ingest | .restart => inferInstanceAs (Decidable True)

/-- What every run keeps: cold storage trails, what was sent is releasable and so it stays
through the effects of the notification in hand, and it is below what a start would ask for. -/
structure FinishedOk (X : Externals C H Tx G S) (es : List (Effect Tx G S))
    (w : LiveNode Tx G S) : Prop where
  trails : w.Trails
  sent : AllReleasable X w.reported (w.state, sentHeights es)
  pending : Each tell (Respects X w.reported) w.pending (w.state, sentHeights es)
  below : ∀ height ∈ sentHeights es, height + 1 < X.hostDeployHeight + w.written

/-- A height is sent, or something else is done. -/
theorem FinishedOk.effect {es : List (Effect Tx G S)} {e : Effect Tx G S}
    {rest : List (Effect Tx G S)} (h : FinishedOk X es w) (hw : w.pending = e :: rest)
    (hm : ReleasesWritten X (.effect : LiveMove C) w) :
    FinishedOk X (es ++ [e]) (liveStep X genesis .effect w).2 := by
  obtain ⟨s, pending, ended, reported, written⟩ := w
  obtain rfl : pending = e :: rest := hw
  obtain ⟨htrails, hsent, ⟨hhere, hrest⟩, hbelow⟩ := h
  have htold : tell (s, sentHeights es) e = (s.after e, sentHeights (es ++ [e])) := by
    unfold sentHeights tell
    rw [List.filterMap_append]
    cases hf : e.finished <;> simp [hf]
  have hreleasable := hhere.releasable
  rw [htold] at hreleasable hrest
  have htrails' : (liveStep X genesis .effect ⟨s, e :: rest, ended, reported, written⟩).2.Trails :=
    htrails.step .effect
  refine ⟨htrails', hreleasable, hrest, ?_⟩
  intro height hmem
  -- a cut takes what is written down to the new tip, which is still above
  have hlow := (hreleasable height hmem).1
  have htip : height < X.hostDeployHeight + lastRollupBlock (s.after e).storage :=
    (hreleasable height hmem).2.1
  rw [lastRollupBlock_eq] at htip
  have hlevel : (s.after e).storage.hot.length = (s.after e).storage.cold.length :=
    htrails'.level.2
  have hwritten : height + 1 < X.hostDeployHeight + written := by
    have hmem' : height ∈ sentHeights es ∨ e.finished = some height := by
      unfold sentHeights at hmem ⊢
      rw [List.filterMap_append, List.mem_append] at hmem
      exact hmem.imp_right fun hnew => by simpa using hnew
    rcases hmem' with hold | hnew
    · exact hbelow height hold
    · obtain ⟨f, hf, hheight⟩ := hhere.sends height hnew
      have hf' := hm e rfl (by rw [hnew]; simp) f hf
      have hf' : min (lastRollupBlock s.storage) (f - X.hostDeployHeight) < written := hf'
      have hheight : height + 1 = X.hostDeployHeight
        + min (lastRollupBlock s.storage) (f - X.hostDeployHeight) := hheight
      omega
  show height + 1 < X.hostDeployHeight + min written (s.after e).storage.cold.length
  omega

theorem FinishedOk.step {es : List (Effect Tx G S)} (h : FinishedOk X es w) {m : LiveMove C}
    (hm : FinalityRespected m w ∧ ReleasesWritten X m w) :
    FinishedOk X (es ++ (liveStep X genesis m w).1.toList) (liveStep X genesis m w).2 := by
  have hstay : FinishedOk X (es ++ (none : Option (Effect Tx G S)).toList) w := by
    rwa [Option.toList_none, List.append_nil]
  cases m with
  | take n F =>
      obtain ⟨s, pending, ended, reported, written⟩ := w
      cases pending with
      | cons e es => cases ended <;> exact hstay
      | nil =>
          cases ended with
          | true => exact hstay
          | false =>
              show FinishedOk X (es ++ []) _
              rw [List.append_nil]
              exact ⟨h.trails.step (.take n F), h.sent.more _,
                each_handleEffects h.sent hm.1.1 hm.1.2, h.below⟩
  | effect =>
      obtain ⟨s, pending, ended, reported, written⟩ := w
      cases pending with
      | nil => exact hstay
      | cons e rest => exact h.effect rfl hm.2
  | ingest =>
      show FinishedOk X (es ++ []) _
      rw [List.append_nil]
      refine ⟨h.trails.step (.ingest : LiveMove C), h.sent, h.pending, fun height hmem => ?_⟩
      have hbelow := h.below height hmem
      have hle := h.trails.le
      show height + 1 < X.hostDeployHeight + min (w.written + 1) w.state.storage.cold.length
      omega
  | restart =>
      show FinishedOk X (es ++ []) (LiveNode.booted genesis w.found w.reported)
      rw [List.append_nil]
      refine ⟨trails_booted genesis _ _, ?_, trivial, ?_⟩
      · intro height hmem
        obtain ⟨hlow, _, hf⟩ := h.sent height hmem
        have hbelow := h.below height hmem
        have hhead := h.trails.headHeight genesis X.hostDeployHeight
        rw [headHeight_eq] at hhead
        refine ⟨hlow, ?_, hf⟩
        show height < X.hostDeployHeight + lastRollupBlock (startStorage genesis w.found)
        omega
      · intro height hmem
        have hbelow := h.below height hmem
        show height + 1 < X.hostDeployHeight + (startStorage genesis w.found).cold.length
        rw [h.trails.restarted, List.length_take]
        have hle := h.trails.le
        omega

/--
**Pruning is safe where cold storage keeps up.** In every run of a node, over any number of
restarts and any lag of cold storage, against a host whose finalized numbers are ordered and
which reverts nothing it reported as finalized, in which a height is sent only once cold
storage has written the block it stands for: the last write of every update of the tags leaves
them in order with the latest one at the stored tip, and every height sent to the host so far
is below the host height a restart at this moment would ask for.

Nothing less will do: a height about to be sent is below what a restart would ask for if and
only if cold storage has written that block.
-/
theorem finished_height_safe {es : List (Effect Tx G S)}
    (hrun : LiveRun X genesis (fun m w => FinalityRespected m w ∧ ReleasesWritten X m w) st es w) :
    (∀ k post, w.pending = .tag (.store .latest k) :: post →
        TagsSettled (w.state.after (.tag (.store .latest k))))
      ∧ (∀ height refused, .sendFinished height refused ∈ es →
          height < headHeight X.hostDeployHeight (lastRollupBlock (startStorage genesis w.found)))
      ∧ ∀ height refused post, w.pending = .sendFinished height refused :: post →
          (height < headHeight X.hostDeployHeight (lastRollupBlock (startStorage genesis w.found))
            ↔ ReleasesWritten X (.effect : LiveMove C) w) := by
  have hinv : FinishedOk X es w := by
    refine Run.invariant ?_ (fun m _ _ hw hm => hw.step hm) hrun
    exact ⟨trails_booted genesis st _, fun _ hmem => absurd hmem (by simp [sentHeights]), trivial,
      fun _ hmem => absurd hmem (by simp [sentHeights])⟩
  have hhead := hinv.trails.headHeight genesis X.hostDeployHeight
  have hpending := hinv.pending
  refine ⟨?_, ?_, ?_⟩
  · intro k post heq
    rw [heq] at hpending
    exact hpending.1.settles k rfl
  · intro height refused hmem
    have hheight : height ∈ sentHeights es := List.mem_filterMap.mpr ⟨_, hmem, rfl⟩
    have hbelow := hinv.below height hheight
    omega
  · intro height refused post heq
    rw [heq] at hpending
    obtain ⟨f, hf, hheight⟩ := hpending.1.sends height rfl
    have hheight : height + 1 = X.hostDeployHeight
      + min (lastRollupBlock w.state.storage) (f - X.hostDeployHeight) := hheight
    constructor
    · intro hlt e _ _ g hg
      rw [hf] at hg
      obtain rfl : f = g := Option.some.inj hg
      omega
    · intro hwritten
      have hlt := hwritten _ (by rw [heq]; rfl) (by simp [Effect.finished]) f hf
      omega

/-- Two blocks are committed and the first is finalized; cold storage has written it when the
height is sent. The other is reverted, and the node is restarted. -/
theorem finished_height_safe_restarted :
    let X := countingExternals 100
    let commit : HostNotification (List Nat) := ⟨.chainCommitted [101, 102], some 102, some 101⟩
    let revert : HostNotification (List Nat) :=
      ⟨.chainReverted ⟨102, 102, by decide, by decide⟩, none, none⟩
    let moves := LiveMove.take commit (Faults.none 0) :: List.replicate 8 .effect
      ++ .ingest :: .effect :: .take revert (Faults.none 1) :: List.replicate 10 .effect
      ++ [.restart]
    let out :=
      runInputs (liveStep X (emptyBlock 0)) moves (LiveNode.booted (emptyBlock 0) ⟨[], []⟩ [])
    .sendFinished 100 none ∈ out.1 ∧ lastRollupBlock out.2.state.storage = 1
      ∧ 100 < headHeight 100 (lastRollupBlock (startStorage (emptyBlock 0) out.2.found)) := by
  intro X commit revert moves out
  have hcommit : FinalityOrdered commit := by
    intro f hf
    obtain rfl : 101 = f := Option.some.inj hf
    exact ⟨102, rfl, by decide⟩
  have hfinality : Admits (liveStep X (emptyBlock 0)) FinalityRespected moves
      (LiveNode.booted (emptyBlock 0) ⟨[], []⟩ []) := by
    refine ⟨⟨hcommit, fun _ hr => absurd hr (by simp [commit, HostNotification.revertRange,
      HostNotificationKind.revertRange])⟩, trivial, trivial, trivial, trivial, trivial, trivial,
      trivial, trivial, trivial, trivial, ⟨fun _ hf => absurd hf (by simp [revert]), ?_⟩, trivial,
      trivial, trivial, trivial, trivial, trivial, trivial, trivial, trivial, trivial, trivial,
      trivial⟩
    intro range hrange f hf
    obtain rfl := Option.some.inj hrange
    obtain rfl := List.mem_singleton.mp hf
    decide
  have hwritten : Admits (liveStep X (emptyBlock 0)) (ReleasesWritten X) moves
      (LiveNode.booted (emptyBlock 0) ⟨[], []⟩ []) := by
    decide +kernel
  have hrun : LiveRun X (emptyBlock 0)
      (fun m w => FinalityRespected m w ∧ ReleasesWritten X m w) ⟨[], []⟩ out.1 out.2 :=
    runInputs_run moves _ (admits_and hfinality hwritten)
  have hsent : Effect.sendFinished 100 none ∈ out.1 := by decide
  have hlast : lastRollupBlock out.2.state.storage = 1 := by decide
  exact ⟨hsent, hlast, (finished_height_safe hrun).2.1 100 none hsent⟩

/--
**A height is sent too early.** Two blocks are committed, the second is finalized, and cold
storage has written neither when the host is told that it may prune up to block 101. A node
restarted now goes back to genesis and asks for everything from block 100 on.
-/
theorem finished_height_early :
    let X := countingExternals 100
    let commit : HostNotification (List Nat) := ⟨.chainCommitted [101, 102], some 102, some 102⟩
    let moves := LiveMove.take commit (Faults.none 0) :: List.replicate 9 .effect
    let out :=
      runInputs (liveStep X (emptyBlock 0)) moves (LiveNode.booted (emptyBlock 0) ⟨[], []⟩ [])
    LiveRun X (emptyBlock 0) FinalityRespected ⟨[], []⟩ out.1 out.2
      ∧ .sendFinished 101 none ∈ out.1 ∧ lastRollupBlock out.2.state.storage = 2
      ∧ headHeight 100 (lastRollupBlock (startStorage (emptyBlock 0) out.2.found)) = 100 := by
  intro X commit moves out
  have hcommit : FinalityOrdered commit := by
    intro f hf
    obtain rfl : 102 = f := Option.some.inj hf
    exact ⟨102, rfl, Nat.le_refl _⟩
  have hadmits : Admits (liveStep X (emptyBlock 0)) FinalityRespected moves
      (LiveNode.booted (emptyBlock 0) ⟨[], []⟩ []) :=
    ⟨⟨hcommit, fun _ hr => absurd hr (by simp [commit, HostNotification.revertRange,
      HostNotificationKind.revertRange])⟩, trivial, trivial, trivial, trivial, trivial, trivial,
      trivial, trivial, trivial, trivial⟩
  exact ⟨runInputs_run moves _ hadmits, by decide, by decide, by decide⟩

end NodeComponents.Node
