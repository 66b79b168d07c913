import NodeComponents.HostReth.Backfill
import NodeComponents.HostRpc.Builder
import NodeComponents.HostRpc.DrainHandover
import NodeComponents.Lib.Word

/-!
# The arithmetic of the backfill

Both notifiers compute `cursor + batch_size - 1` in unchecked words, and the RPC one
divides by `slot_seconds * 32`. The batch sizes are raised to one and otherwise taken
as configured; the slot duration is not looked at. Where a window wraps, one notifier goes
back and the other panics.

Each computation is given here once more with every operation checked. It goes
through, with the values of the release build, exactly if the cursor and the batch
size fit in a word together, and if an epoch is neither empty nor too long; and then
the windows are where they should be and the cursor moves on.
-/

namespace NodeComponents.HostRpc

open Lib.Word

variable {T R : Type} {P : Provider T R} {s : RpcHostNotifier}

/-- `epoch_of`, with checks. -/
def epochOfChecked (s : RpcHostNotifier) (timestamp : Nat) : Option Nat := do
  let epochSeconds ← checkedMul u64Size s.slotSeconds slotsPerEpoch
  checkedDiv (timestamp - s.genesisTimestamp) epochSeconds

/-- The last number of a batch of `drain_backfill` and the cursor behind it, with checks. -/
def windowChecked (s : RpcHostNotifier) (cursor tip : Nat) : Option (Nat × Option Nat) := do
  let half ← checkedDiv s.bufferCapacity 2
  let ceiling := if tip - half < cursor then tip else tip - half
  let behind ← checkedAdd u64Size cursor s.backfillBatchSize
  let last ← checkedSub behind 1
  let hi := min ceiling last
  if ceiling ≤ hi then return (hi, none)
  else
    let next ← checkedAdd u64Size hi 1
    return (hi, some next)

/-- An epoch is computed without an overflow or a division by zero. -/
def EpochSafe (s : RpcHostNotifier) (timestamp : Nat) : Prop :=
  ∃ epoch, epochOfChecked s timestamp = some epoch ∧ epochOf s timestamp = .ok epoch

/-- A batch of `drain_backfill` is computed without an overflow, in bounds, and moves on. -/
structure WindowSafe (P : Provider T R) (s : RpcHostNotifier) (cursor tip : Nat) : Prop where
  computed : ∃ next, windowChecked s cursor tip = some (batchEnd s cursor tip, next)
  starts : cursor ≤ batchEnd s cursor tip
  ends : batchEnd s cursor tip ≤ effectiveCeiling s cursor tip
  ceiling : effectiveCeiling s cursor tip ≤ tip
  /-- What follows a successful batch is a larger cursor, or none once the ceiling is reached. -/
  advances : ∀ tm n, P.getBlockNumber tm.blockNumber = .ok tip →
    (drainBackfill P tm s).1 = some (.ok n) →
      ∀ c, (drainBackfill P tm s).2.backfillFrom = some c → cursor < c

theorem epochSafe_iff {timestamp : Nat} :
    EpochSafe s timestamp
      ↔ 0 < s.slotSeconds * slotsPerEpoch ∧ s.slotSeconds * slotsPerEpoch < u64Size := by
  unfold EpochSafe epochOfChecked epochOf
  constructor
  · intro hq
    rcases hq with ⟨epoch, hchecked, _⟩
    obtain ⟨seconds, hmul, hdiv⟩ := Option.bind_eq_some_iff.mp hchecked
    obtain ⟨hfit, rfl⟩ := checkedMul_eq_some.mp hmul
    exact ⟨Nat.pos_of_ne_zero (checkedDiv_eq_some.mp hdiv).1, hfit⟩
  · rintro ⟨hpos, hfit⟩
    have hne : s.slotSeconds * slotsPerEpoch ≠ 0 := by omega
    refine ⟨(timestamp - s.genesisTimestamp) / (s.slotSeconds * slotsPerEpoch), ?_, ?_⟩
    · exact Option.bind_eq_some_iff.mpr ⟨_, checkedMul_eq_some.mpr ⟨hfit, rfl⟩,
        checkedDiv_eq_some.mpr ⟨hne, rfl⟩⟩
    · rw [Nat.mod_eq_of_lt hfit, if_neg hne]

/-- The checks pass exactly if the cursor and the batch size fit in a word together. -/
theorem windowChecked_eq_some {cursor tip : Nat} (hb : 1 ≤ s.backfillBatchSize)
    (htip : tip < u64Size) :
    (∃ next, windowChecked s cursor tip = some (batchEnd s cursor tip, next))
      ↔ cursor + s.backfillBatchSize < u64Size := by
  have hhalf : checkedDiv s.bufferCapacity 2 = some (s.bufferCapacity / 2) :=
    checkedDiv_eq_some.mpr ⟨by decide, rfl⟩
  unfold windowChecked
  rw [hhalf, Option.bind_eq_bind, Option.bind_some]
  constructor
  · -- the sum decides alone, however small the window behind it is
    intro hq
    rcases hq with ⟨next, hchecked⟩
    obtain ⟨behind, hadd, _⟩ := Option.bind_eq_some_iff.mp hchecked
    exact (checkedAdd_eq_some.mp hadd).1
  · intro hfit
    have hend := batchEnd_eq (s := s) tip hb hfit
    have hceil : effectiveCeiling s cursor tip ≤ tip := effectiveCeiling_le_tip
    have hadd : checkedAdd u64Size cursor s.backfillBatchSize
        = some (cursor + s.backfillBatchSize) := checkedAdd_eq_some.mpr ⟨hfit, rfl⟩
    have hsub : checkedSub (cursor + s.backfillBatchSize) 1
        = some (cursor + s.backfillBatchSize - 1) := checkedSub_eq_some.mpr ⟨by omega, rfl⟩
    show ∃ next, (do
      let behind ← checkedAdd u64Size cursor s.backfillBatchSize
      let last ← checkedSub behind 1
      let hi := min (effectiveCeiling s cursor tip) last
      if effectiveCeiling s cursor tip ≤ hi then pure (hi, none)
      else
        let next ← checkedAdd u64Size hi 1
        pure (hi, some next)) = some (batchEnd s cursor tip, next)
    rw [hadd, Option.bind_eq_bind, Option.bind_some, hsub, Option.bind_some]
    dsimp only
    rw [← hend]
    by_cases hdone : effectiveCeiling s cursor tip ≤ batchEnd s cursor tip
    · exact ⟨none, by rw [if_pos hdone]; rfl⟩
    · have hnext : checkedAdd u64Size (batchEnd s cursor tip) 1
          = some (batchEnd s cursor tip + 1) := checkedAdd_eq_some.mpr ⟨by omega, rfl⟩
      exact ⟨some (batchEnd s cursor tip + 1), by rw [if_neg hdone, hnext]; rfl⟩

theorem windowSafe_iff {cursor tip : Nat} (hb : 1 ≤ s.backfillBatchSize)
    (hcur : s.backfillFrom = some cursor) (htip : tip < u64Size)
    (hlt : cursor < u64SatAdd tip 1) :
    WindowSafe P s cursor tip ↔ cursor + s.backfillBatchSize < u64Size := by
  constructor
  · intro h
    exact (windowChecked_eq_some hb htip).mp h.computed
  · intro hfit
    refine ⟨(windowChecked_eq_some hb htip).mpr hfit, le_batchEnd hb hfit hlt,
      Nat.min_le_left _ _, effectiveCeiling_le_tip, ?_⟩
    intro tm n hseen hok c hc
    have hpending : ∀ c', s.backfillFrom = some c' → c' + s.backfillBatchSize < u64Size := by
      intro c' hc'
      obtain rfl := Option.some.inj (hcur.symm.trans hc')
      exact hfit
    obtain ⟨cursor', tip', blocks, h⟩ := drainBackfill_batched hb hpending hok
    obtain rfl := Option.some.inj (hcur.symm.trans h.pending)
    obtain rfl := Except.ok.inj (hseen.symm.trans h.seen)
    have hnext := h.next
    rw [hc] at hnext
    have hle := le_batchEnd hb hfit hlt
    by_cases hdone : effectiveCeiling s cursor tip ≤ batchEnd s cursor tip
    · rw [if_pos hdone] at hnext
      exact absurd hnext (by simp)
    · rw [if_neg hdone] at hnext
      obtain rfl := Option.some.inj hnext
      omega

end NodeComponents.HostRpc

namespace NodeComponents.HostReth

open Lib.Word

variable {T R : Type} {b : DbBackfill}

/-- The last number of a batch of `next_batch` and the cursor behind it, with checks. -/
def DbBackfill.windowChecked (b : DbBackfill) (finalized : Nat) : Option (Nat × Nat) := do
  let behind ← checkedAdd u64Size b.cursor b.batchSize
  let last ← checkedSub behind 1
  let hi := min finalized last
  -- the number of blocks that are reserved for the batch
  let above ← checkedSub hi b.cursor
  let _ ← checkedAdd u64Size above 1
  let next ← checkedAdd u64Size hi 1
  return (hi, next)

/-- A batch of `next_batch` is computed without an overflow, in bounds, and moves on. -/
structure DbWindowSafe (T R : Type) [BlockLayout T R] (b : DbBackfill) (finalized : Nat) :
    Prop where
  computed : ∃ next, b.windowChecked finalized = some (b.batchEnd finalized, next)
  starts : b.cursor ≤ b.batchEnd finalized
  ends : b.batchEnd finalized ≤ finalized
  advances : ∀ (a : Answers T R) segment, a.finalized = .ok (some finalized) →
    (b.nextBatch a).1 = .ok (some segment) → b.cursor < (b.nextBatch a).2.cursor

theorem dbWindowSafe_iff [BlockLayout T R] {finalized : Nat} (hle : b.cursor ≤ finalized) :
    DbWindowSafe T R b finalized ↔ b.Fits := by
  constructor
  · intro h
    obtain ⟨next, hchecked⟩ := h.computed
    obtain ⟨behind, hadd, _⟩ := Option.bind_eq_some_iff.mp hchecked
    exact (checkedAdd_eq_some.mp hadd).1
  · intro hfits
    have hpos := b.batchSize_pos
    have hfit : b.cursor + b.batchSize < u64Size := hfits
    have hend : b.batchEnd finalized = min finalized (b.cursor + b.batchSize - 1) := by
      unfold DbBackfill.batchEnd
      rw [u64Add_of_lt hfit, u64Sub_of_le (by omega) hfit]
    have hstarts : b.cursor ≤ b.batchEnd finalized := by omega
    refine ⟨⟨b.batchEnd finalized + 1, ?_⟩, hstarts, Nat.min_le_left _ _, ?_⟩
    · unfold DbBackfill.windowChecked
      rw [checkedAdd_eq_some.mpr ⟨hfit, rfl⟩, Option.bind_eq_bind, Option.bind_some,
        checkedSub_eq_some.mpr ⟨by omega, rfl⟩, Option.bind_some]
      dsimp only
      rw [← hend, checkedSub_eq_some.mpr ⟨hstarts, rfl⟩, Option.bind_some,
        checkedAdd_eq_some.mpr ⟨by omega, rfl⟩, Option.bind_some,
        checkedAdd_eq_some.mpr ⟨by omega, rfl⟩]
      rfl
    · intro a segment hfinal hok
      unfold DbBackfill.nextBatch at hok ⊢
      rw [hfinal] at hok ⊢
      dsimp only at hok ⊢
      rw [if_neg (by omega)] at hok ⊢
      cases hread : readBlockRange a b.cursor (b.batchEnd finalized) with
      | error e =>
          rw [hread] at hok
          exact absurd hok (by simp)
      | ok read =>
          show b.cursor < u64Add (b.batchEnd finalized) 1
          rw [u64Add_of_lt (by omega)]
          omega

end NodeComponents.HostReth

namespace NodeComponents.Node

open HostRpc HostReth

variable {T R : Type} [BlockLayout T R]

/--
**The backfill arithmetic.** For every notifier that was built and driven in any way, and
every reader of the host's database: a batch is computed safely if and only if its cursor
and the batch size fit in a word together, in both backends, and an epoch if and only if
thirty-two slots take some time and fit in a word.
-/
theorem backfill_windows_safe_iff {P : Provider T R} {s : RpcHostNotifier} (hs : Reached P s)
    (b : DbBackfill) :
    (∀ cursor tip, s.backfillFrom = some cursor → tip < u64Size → cursor < u64SatAdd tip 1 →
        (WindowSafe P s cursor tip ↔ cursor + s.backfillBatchSize < u64Size))
      ∧ (∀ timestamp, EpochSafe s timestamp
        ↔ 0 < s.slotSeconds * slotsPerEpoch ∧ s.slotSeconds * slotsPerEpoch < u64Size)
      ∧ ∀ finalized, b.cursor ≤ finalized →
        (DbWindowSafe T R b finalized ↔ b.cursor + b.batchSize < u64Size) :=
  ⟨fun _ _ hcur htip hlt => windowSafe_iff hs.batchSize_pos hcur htip hlt,
    fun _ => epochSafe_iff, fun _ hle => dbWindowSafe_iff hle⟩

/-- The defaults, from block 5 on. -/
theorem backfill_windows_safe_iff_defaults :
    let P : Provider Unit Unit := Provider.serving [] fun _ => []
    let s := RpcHostNotifierBuilder.new.build.setHead 5
    WindowSafe P s 5 40 ∧ EpochSafe s 1000 ∧ DbWindowSafe Unit Unit (DbBackfill.new 5) 7 := by
  intro P s
  have hs : Reached P s := Reached.setHead (Reached.built Configured.new) 5
  obtain ⟨hwindow, hepoch, hdb⟩ := backfill_windows_safe_iff hs (DbBackfill.new 5)
  exact ⟨(hwindow 5 40 rfl (by decide) (by decide)).mpr (by decide),
    (hepoch 1000).mpr (by decide), (hdb 7 (by decide)).mpr (by decide)⟩

/-- A batch of the largest size from block 5 on wraps. The RPC notifier delivers it empty and
moves its cursor back to block 4; the reader of the host's database panics, for want of room
for all its blocks. Slots of no duration end in a division by zero. -/
theorem backfill_windows_wrap :
    let host := [bareBlock 15 10 14]
    let P := Provider.serving host fun _ => host
    let s := (RpcHostNotifierBuilder.new.withBackfillBatchSize (u64Size - 1)).build.setHead 5
    let a := Answers.storing ([] : List (DbBlock Unit Unit)) (some 10)
    let b := (DbBackfill.new 5).setBatchSize (u64Size - 1)
    Reached P s ∧ (drainBackfill P (Timing.constant 0) s).1
          = some (.ok (HostRpc.notify s (.chainCommitted ⟨[]⟩)))
      ∧ (drainBackfill P (Timing.constant 0) s).2.backfillFrom = some 4
      ∧ b.windowChecked 10 = none ∧ b.batchEnd 10 = 3
      ∧ b.nextBatch a = (.error (.panic "capacity overflow"), b)
      ∧ Reached P (RpcHostNotifierBuilder.new.withSlotSeconds 0).build
      ∧ epochOf (RpcHostNotifierBuilder.new.withSlotSeconds 0).build 1000
        = .error (.panic "attempt to divide by zero") := by
  intro host P s a b
  exact ⟨Reached.setHead (Reached.built (Configured.new.withBackfillBatchSize _)) 5,
    by decide, by decide, by decide, by decide,
    nextBatch_wrapped rfl (by decide) (by decide) (by decide) (by decide),
    Reached.built (Configured.new.withSlotSeconds 0), by decide⟩

end NodeComponents.Node
