/-!
# Shared types: words, hashes, revert ranges, host notifications

What the crates hand to each other. A host notification carries either a
committed segment, a range of reverted numbers, or both; only committed segments
carry blocks, so everything the node knows about a revert is two numbers.

`u64` values are natural numbers. Where the source adds or subtracts without a
check, the release build wraps, and the three functions below say so; where a
value cannot reach `2^64` plain `Nat` arithmetic is used.
-/

namespace NodeComponents

/-- A 256-bit hash. -/
abbrev B256 := BitVec 256

/-- The number of `u64` values, two to the power 64. -/
def u64Size : Nat := 0x1_0000_0000_0000_0000

/-- Unchecked `u64` addition, as the release build computes it. -/
def u64Add (a b : Nat) : Nat := (a + b) % u64Size

/-- Unchecked `u64` subtraction, as the release build computes it. -/
def u64Sub (a b : Nat) : Nat := (a + u64Size - b) % u64Size

/-- `u64::saturating_add`. -/
def u64SatAdd (a b : Nat) : Nat := min (a + b) (u64Size - 1)

theorem u64Add_of_lt {a b : Nat} (h : a + b < u64Size) : u64Add a b = a + b :=
  Nat.mod_eq_of_lt h

theorem u64Sub_of_le {a b : Nat} (h : b ≤ a) (ha : a < u64Size) : u64Sub a b = a - b := by
  unfold u64Sub
  rw [show a + u64Size - b = (a - b) + u64Size by omega, Nat.add_mod_right]
  exact Nat.mod_eq_of_lt (by omega)

/--
The range of host blocks that were reverted by the host chain.

`RevertRange::new` asserts `first > 0` and `first <= tip`; a value that fails
either cannot be built.
-/
structure RevertRange where
  /-- Block number of the first reverted block. -/
  first : Nat
  /-- Block number of the last reverted block. -/
  tip : Nat
  first_pos : 0 < first
  first_le_tip : first ≤ tip
deriving DecidableEq, Repr

/-- `RevertRange::new`; `none` is the panic of a failed assertion. -/
def RevertRange.new (first tip : Nat) : Option RevertRange :=
  if h : 0 < first ∧ first ≤ tip then some ⟨first, tip, h.1, h.2⟩ else none

theorem RevertRange.new_eq_some {first tip : Nat} (h₁ : 0 < first) (h₂ : first ≤ tip) :
    RevertRange.new first tip = some ⟨first, tip, h₁, h₂⟩ := dif_pos ⟨h₁, h₂⟩

/-- The number of blocks in the range. -/
def RevertRange.len (r : RevertRange) : Nat := r.tip - r.first + 1

/-- The kind of chain event in a `HostNotification`. -/
inductive HostNotificationKind (C : Type) where
  | chainCommitted (new : C)
  | chainReverted (old : RevertRange)
  | chainReorged (old : RevertRange) (new : C)
deriving DecidableEq, Repr

/-- A chain event with the safe and finalized numbers cached when it was built. -/
structure HostNotification (C : Type) where
  kind : HostNotificationKind C
  safeBlockNumber : Option Nat
  finalizedBlockNumber : Option Nat
deriving DecidableEq, Repr

variable {C : Type}

/-- The committed chain, if any. -/
def HostNotificationKind.committedChain : HostNotificationKind C → Option C
  | .chainCommitted new => some new
  | .chainReverted _ => none
  | .chainReorged _ new => some new

/-- The revert range, if any. -/
def HostNotificationKind.revertRange : HostNotificationKind C → Option RevertRange
  | .chainCommitted _ => none
  | .chainReverted old => some old
  | .chainReorged old _ => some old

/-- Shortcut for `kind.committedChain`. -/
def HostNotification.committedChain (n : HostNotification C) : Option C := n.kind.committedChain

theorem HostNotification.committedChain_of_kind {n : HostNotification C}
    {kind : HostNotificationKind C} (h : n.kind = kind) :
    n.committedChain = kind.committedChain :=
  congrArg HostNotificationKind.committedChain h

/-- Shortcut for `kind.revertRange`. -/
def HostNotification.revertRange (n : HostNotification C) : Option RevertRange := n.kind.revertRange

end NodeComponents
