import NodeComponents.Lib.Run
import NodeComponents.Lib.Word
import NodeComponents.NodeTypes

/-!
# The gas oracle cache

Two words: a height, and the tip that was suggested at it. A `set` stores the tip and
then the height; a `get` loads the height and, if it is the one asked for, the tip.

Each access is atomic and the two of a call are not. A reader that has found its height
gets the tip that was stored last, whoever stored it: between the two stores of a `set`
the words do not belong together, and two `set`s that cross leave them so.
-/

namespace NodeComponents.Rpc

open Lib Lib.Word

/-! ## The code -/

/-- The two atomics. -/
structure GasOracleCache where
  block : Nat
  tip : Nat
deriving DecidableEq, Repr

namespace GasOracleCache

/-- The largest word stands for a cache that holds nothing. -/
def new : GasOracleCache := ⟨u64Size - 1, 0⟩

def storeTip (cache : GasOracleCache) (tip : Nat) : GasOracleCache :=
  { cache with tip := saturate u64Size tip }

def storeBlock (cache : GasOracleCache) (block : Nat) : GasOracleCache :=
  { cache with block := block }

/-- Returns cached tip if still valid for current block. -/
def get (cache : GasOracleCache) (currentBlock : Nat) : Option Nat :=
  if cache.block = currentBlock then some cache.tip else none

/-- Update cache for new block. -/
def set (cache : GasOracleCache) (block tip : Nat) : GasOracleCache :=
  (cache.storeTip tip).storeBlock block

theorem get_set_self (cache : GasOracleCache) (block tip : Nat) :
    (cache.set block tip).get block = some (saturate u64Size tip) := if_pos rfl

theorem get_set_ne (cache : GasOracleCache) {block tip n : Nat} (h : block ≠ n) :
    (cache.set block tip).get n = none := if_neg h

end GasOracleCache

/-! ## Calls in any interleaving -/

inductive CacheOp where
  | set (block tip : Nat)
  | get (currentBlock : Nat)
deriving DecidableEq, Repr

/-- How many of its two accesses a call has made. -/
inductive CacheStage where
  | started
  | halfway
  | ended
deriving DecidableEq, Repr

structure CacheCall where
  op : CacheOp
  stage : CacheStage
deriving DecidableEq, Repr

/-- The cache and the calls of it. `tipBlock` is no part of the code: the block of the
`set` that stored the tip last. -/
structure CacheWorld where
  cache : GasOracleCache
  calls : List CacheCall
  tipBlock : Option Nat
deriving DecidableEq, Repr

def CacheWorld.fresh : CacheWorld := ⟨.new, [], none⟩

inductive CacheStep where
  | call (op : CacheOp)
  /-- The next access of a call. -/
  | access (i : Nat)
deriving DecidableEq, Repr

/-- What a `get` returns. -/
structure CacheReturn where
  currentBlock : Nat
  tip : Option Nat
deriving DecidableEq, Repr

def CacheWorld.setStage (w : CacheWorld) (i : Nat) (op : CacheOp) (stage : CacheStage) :
    CacheWorld :=
  { w with calls := w.calls.set i ⟨op, stage⟩ }

def cacheAccess (i : Nat) (w : CacheWorld) : CacheCall → Option CacheReturn × CacheWorld
  -- up to the second store the tip is under the block of an earlier call
  | ⟨.set block tip, .started⟩ =>
    (none, { w.setStage i (.set block tip) .halfway with
      cache := w.cache.storeTip tip, tipBlock := some block })
  | ⟨.set block tip, .halfway⟩ =>
    (none, { w.setStage i (.set block tip) .ended with cache := w.cache.storeBlock block })
  | ⟨.get n, .started⟩ =>
    if w.cache.block = n then (none, w.setStage i (.get n) .halfway)
    else (some ⟨n, none⟩, w.setStage i (.get n) .ended)
  | ⟨.get n, .halfway⟩ => (some ⟨n, some w.cache.tip⟩, w.setStage i (.get n) .ended)
  | ⟨_, .ended⟩ => (none, w)

def cacheStep : CacheStep → CacheWorld → Option CacheReturn × CacheWorld
  | .call op, w => (none, { w with calls := w.calls ++ [⟨op, .started⟩] })
  | .access i, w =>
    match w.calls[i]? with
    | none => (none, w)
    | some call => cacheAccess i w call

/-- A `set` that runs alone is the two stores, a `get` the two loads. -/
theorem cacheStep_alone (cache : GasOracleCache) (block tip n : Nat) (before : Option Nat) :
    (runInputs cacheStep [.access 0, .access 0]
        ⟨cache, [⟨.set block tip, .started⟩], before⟩).2.cache = cache.set block tip
      ∧ (runInputs cacheStep [.access 0, .access 0]
        ⟨cache, [⟨.get n, .started⟩], before⟩).1 = [⟨n, cache.get n⟩] := by
  refine ⟨rfl, ?_⟩
  unfold GasOracleCache.get
  by_cases hblock : cache.block = n
  · rw [if_pos hblock]
    simp [runInputs, cacheStep, cacheAccess, CacheWorld.setStage, hblock]
  · rw [if_neg hblock]
    simp [runInputs, cacheStep, cacheAccess, CacheWorld.setStage, hblock]

/-! ## Whose tip it is -/

/-- A call of `set` for the block, with a tip that is stored as `t`. -/
def CacheWorld.SetStarted (w : CacheWorld) (block t : Nat) : Prop :=
  ∃ tip stage, ⟨.set block tip, stage⟩ ∈ w.calls ∧ t = saturate u64Size tip

/-- The tip is that of a `set` for `tipBlock`. -/
def TipStored (w : CacheWorld) : Prop :=
  ∀ block, w.tipBlock = some block → w.SetStarted block w.cache.tip

/-- No access makes a call another one. -/
theorem CacheWorld.SetStarted.setStage {w : CacheWorld} {block t i : Nat}
    (h : w.SetStarted block t) {op : CacheOp} {before : CacheStage}
    (hcall : w.calls[i]? = some ⟨op, before⟩) (stage : CacheStage) :
    (w.setStage i op stage).SetStarted block t := by
  obtain ⟨tip, old, hmem, ht⟩ := h
  obtain ⟨j, hj⟩ := List.mem_iff_getElem?.mp hmem
  obtain ⟨hlt, _⟩ := List.getElem?_eq_some_iff.mp hj
  by_cases hij : i = j
  · subst hij
    obtain ⟨rfl, _⟩ := CacheCall.mk.inj (Option.some.inj (hcall.symm.trans hj))
    exact ⟨tip, stage, List.mem_set hlt _, ht⟩
  · refine ⟨tip, old, List.mem_iff_getElem?.mpr ⟨j, ?_⟩, ht⟩
    exact (List.getElem?_set_ne hij).trans hj

theorem cacheStep_access {w : CacheWorld} {i : Nat} {call : CacheCall}
    (hcall : w.calls[i]? = some call) : cacheStep (.access i) w = cacheAccess i w call := by
  simp only [cacheStep, hcall]

theorem cacheStep_access_none {w : CacheWorld} {i : Nat} (hcall : w.calls[i]? = none) :
    cacheStep (.access i) w = (none, w) := by
  simp only [cacheStep, hcall]

theorem tipStored_access {w : CacheWorld} (h : TipStored w) {i : Nat} {call : CacheCall}
    (hcall : w.calls[i]? = some call) : TipStored (cacheAccess i w call).2 := by
  obtain ⟨op, stage⟩ := call
  have hkeep (stage : CacheStage) : TipStored (w.setStage i op stage) :=
    fun block hblock => (h block hblock).setStage hcall stage
  cases op with
  | set block tip =>
      cases stage with
      | started =>
          -- the one access that stores a tip: it is that of this call
          intro b hb
          obtain rfl : block = b := Option.some.inj hb
          obtain ⟨hlt, _⟩ := List.getElem?_eq_some_iff.mp hcall
          exact ⟨tip, .halfway, List.mem_set hlt _, rfl⟩
      | halfway => exact hkeep .ended
      | ended => exact h
  | get n =>
      cases stage with
      | started =>
          unfold cacheAccess
          dsimp only
          by_cases hblock : w.cache.block = n
          · rw [if_pos hblock]
            exact hkeep .halfway
          · rw [if_neg hblock]
            exact hkeep .ended
      | halfway => exact hkeep .ended
      | ended => exact h

/-- **Preserved by every step.** -/
theorem tipStored_step {w : CacheWorld} (h : TipStored w) (s : CacheStep) :
    TipStored (cacheStep s w).2 := by
  cases s with
  | call op =>
      intro block hblock
      obtain ⟨tip, stage, hmem, ht⟩ := h block hblock
      exact ⟨tip, stage, List.mem_append_left _ hmem, ht⟩
  | access i =>
      cases hcall : w.calls[i]? with
      | none => rwa [cacheStep_access_none hcall]
      | some call =>
          rw [cacheStep_access hcall]
          exact tipStored_access h hcall

/-- A `get` that has found its block loads the tip only while no `set` for another block
has stored a tip behind the last `set` for its own. -/
def TipOfBlock : CacheStep → CacheWorld → Prop
  | .access i, w => ∀ n, w.calls[i]? = some ⟨.get n, .halfway⟩ → w.tipBlock = some n
  | .call _, _ => True

/-- Only a `get` that has found its block returns a tip, and it is the one it loads. -/
theorem cacheStep_returns {s : CacheStep} {w : CacheWorld} {n t : Nat}
    (h : (cacheStep s w).1 = some ⟨n, some t⟩) :
    ∃ i, s = .access i ∧ w.calls[i]? = some ⟨.get n, .halfway⟩ ∧ t = w.cache.tip := by
  cases s with
  | call op => cases h
  | access i =>
      refine ⟨i, rfl, ?_⟩
      cases hcall : w.calls[i]? with
      | none =>
          rw [cacheStep_access_none hcall] at h
          cases h
      | some call =>
          rw [cacheStep_access hcall] at h
          obtain ⟨op, stage⟩ := call
          cases op with
          | set block tip => cases stage <;> cases h
          | get m =>
              cases stage with
              | started =>
                  dsimp only [cacheAccess] at h
                  split at h <;> cases h
              | halfway =>
                  cases h
                  exact ⟨rfl, rfl⟩
              | ended => cases h

/--
**The cache pairs a block with its own tip**, whatever the interleaving, as long as each
`get` that has found its block loads the tip while no `set` for another block has stored
one behind the last `set` for its own: a tip that is returned for a block is that of a
`set` for the block that has started.
-/
theorem cache_pairs_own {os : List CacheReturn} {w : CacheWorld} {s : CacheStep} {n t : Nat}
    (h : Run cacheStep TipOfBlock .fresh os w) (hs : TipOfBlock s w)
    (hreturn : (cacheStep s w).1 = some ⟨n, some t⟩) : w.SetStarted n t := by
  have hstored : TipStored w := by
    refine h.invariant (I := fun _ w => TipStored w) ?_ fun s _ w hw _ => tipStored_step hw s
    intro block hblock
    cases hblock
  obtain ⟨i, rfl, hcall, rfl⟩ := cacheStep_returns hreturn
  exact hstored n (hs n hcall)

/-- A `get` between the stores of a `set` for the same block. -/
theorem cache_pairs_own_same :
    let w : CacheWorld := ⟨⟨1, 20⟩, [⟨.set 1 10, .ended⟩, ⟨.set 1 20, .halfway⟩,
      ⟨.get 1, .halfway⟩], some 1⟩
    w.SetStarted 1 20 := by
  intro w
  let steps : List CacheStep := [.call (.set 1 10), .access 0, .access 0, .call (.set 1 20),
    .call (.get 1), .access 2, .access 1]
  have hrun : Run cacheStep TipOfBlock .fresh [] w :=
    runInputs_run steps CacheWorld.fresh ⟨trivial, fun _ h => (by cases h),
      fun _ h => (by cases h), trivial, trivial, fun _ h => (by cases h), fun _ h => (by cases h),
      trivial⟩
  refine cache_pairs_own (s := .access 2) hrun (fun n h => ?_) rfl
  cases h
  rfl

/--
**The tip of another block is returned.** A `set` for block 2 has stored its tip and not
its block, and a `get` for block 1 returns that tip. After two `set`s that cross it is
returned even with all calls ended.
-/
theorem cache_crosses :
    let between := runInputs cacheStep [.call (.set 1 10), .access 0, .access 0,
      .call (.set 2 20), .access 1, .call (.get 1), .access 2, .access 2] .fresh
    let behind := runInputs cacheStep [.call (.set 1 10), .call (.set 2 20), .access 0, .access 1,
      .access 1, .access 0, .call (.get 1), .access 2, .access 2] .fresh
    between.1 = [⟨1, some 20⟩] ∧ ¬ between.2.SetStarted 1 20
      ∧ behind.1 = [⟨1, some 20⟩] ∧ ¬ behind.2.SetStarted 1 20 := by
  have hother {w : CacheWorld}
      (h : ∀ call ∈ w.calls, call.op ∈ [.set 1 10, .set 2 20, .get 1]) :
      ¬ w.SetStarted 1 20 := by
    rintro ⟨tip, stage, hmem, ht⟩
    have hten : tip = 10 := by simpa using h _ hmem
    rw [hten] at ht
    exact absurd ht (by decide)
  intro between behind
  exact ⟨by decide, hother (by decide), by decide, hother (by decide)⟩

end NodeComponents.Rpc
