import NodeComponents.Lib.Effects
import NodeComponents.Rpc.ChainNotifier

/-!
# Block tags, one atomic write at a time

`update_all` and `rewind_to` are three atomic writes each, in the order finalized,
safe, latest, and a reader may load the tags between any two of them. Lowering the
tags in that order is safe. Raising them is not: until the last write `latest` is
the old one, and the new `finalized` and `safe` may already be above it.

`tags_never_inverted_iff` says when no reader can see that: exactly when no call
raises `safe` above the latest tag it finds.
-/

namespace NodeComponents.Rpc

open Lib

/-! ## Writes -/

/-- The tags, each an atomic of its own. -/
inductive Tag where
  | latest
  | safe
  | finalized
deriving DecidableEq, Repr

/-- One atomic write to a tag. -/
inductive TagWrite where
  | store (tag : Tag) (n : Nat)
  | fetchMin (tag : Tag) (n : Nat)
deriving DecidableEq, Repr

def BlockTags.get (tags : BlockTags) : Tag → Nat
  | .latest => tags.latest
  | .safe => tags.safe
  | .finalized => tags.finalized

def BlockTags.set (tags : BlockTags) : Tag → Nat → BlockTags
  | .latest, n => { tags with latest := n }
  | .safe, n => { tags with safe := n }
  | .finalized, n => { tags with finalized := n }

/-- The tags behind a write. -/
def BlockTags.write (tags : BlockTags) : TagWrite → BlockTags
  | .store tag n => tags.set tag n
  | .fetchMin tag n => tags.set tag (min (tags.get tag) n)

/-- The writes of `update_all`, in order. -/
def updateAllWrites (latest safe finalized : Nat) : List TagWrite :=
  [.store .finalized finalized, .store .safe safe, .store .latest latest]

/-- The writes of `rewind_to`, in order. -/
def rewindToWrites (ancestor : Nat) : List TagWrite :=
  [.fetchMin .finalized ancestor, .fetchMin .safe ancestor, .fetchMin .latest ancestor]

theorem updateAll_writes (tags : BlockTags) (latest safe finalized : Nat) :
    (updateAllWrites latest safe finalized).foldl BlockTags.write tags
      = tags.updateAll latest safe finalized := rfl

theorem rewindTo_writes (tags : BlockTags) (ancestor : Nat) :
    (rewindToWrites ancestor).foldl BlockTags.write tags = tags.rewindTo ancestor := rfl

/-! ## Calls -/

/-- A call that writes the tags. -/
inductive TagCall where
  | updateAll (latest safe finalized : Nat)
  | rewindTo (ancestor : Nat)
deriving DecidableEq, Repr

def TagCall.writes : TagCall → List TagWrite
  | .updateAll latest safe finalized => updateAllWrites latest safe finalized
  | .rewindTo ancestor => rewindToWrites ancestor

/-- The tags once the call returned. -/
def BlockTags.call (tags : BlockTags) : TagCall → BlockTags
  | .updateAll latest safe finalized => tags.updateAll latest safe finalized
  | .rewindTo ancestor => tags.rewindTo ancestor

theorem call_writes (tags : BlockTags) (c : TagCall) :
    c.writes.foldl BlockTags.write tags = tags.call c := by
  cases c with
  | updateAll latest safe finalized => exact updateAll_writes tags latest safe finalized
  | rewindTo ancestor => exact rewindTo_writes tags ancestor

theorem calls_writes (tags : BlockTags) (calls : List TagCall) :
    (calls.flatMap TagCall.writes).foldl BlockTags.write tags
      = calls.foldl BlockTags.call tags := by
  induction calls generalizing tags with
  | nil => rfl
  | cons c calls ih => rw [List.flatMap_cons, List.foldl_append, call_writes, List.foldl_cons, ih]

/-- The arguments of an update are in order, as `update_block_tags` passes them. -/
def TagCall.Ordered : TagCall → Prop
  | .updateAll latest safe finalized => finalized ≤ safe ∧ safe ≤ latest
  | .rewindTo _ => True

/-! ## What a reader can see -/

/-- No tag is ahead of the latest one. -/
def BlockTags.NotInverted (tags : BlockTags) : Prop :=
  tags.finalized ≤ tags.latest ∧ tags.safe ≤ tags.latest

/-- The call does not raise the safe tag above the latest one it finds. -/
def TagCall.WithinLatest : TagCall → BlockTags → Prop
  | .updateAll _ safe _, tags => safe ≤ tags.latest
  | .rewindTo _, _ => True

/-- Capping the tags in this order never shows one ahead of the latest. -/
theorem rewindTo_never_inverted {tags : BlockTags} (h : tags.NotInverted) (ancestor : Nat) :
    Always BlockTags.write BlockTags.NotInverted (rewindToWrites ancestor) tags := by
  obtain ⟨hf, hs⟩ := h
  refine ⟨⟨hf, hs⟩, ⟨?_, hs⟩, ⟨?_, ?_⟩, ?_, ?_⟩ <;>
    simp only [BlockTags.write, BlockTags.set, BlockTags.get] <;> omega

/-- **One update.** The new safe tag is visible before the new latest one is. -/
theorem updateAll_never_inverted_iff {tags : BlockTags} (h : tags.NotInverted)
    {latest safe finalized : Nat} (hfs : finalized ≤ safe) (hsl : safe ≤ latest) :
    Always BlockTags.write BlockTags.NotInverted (updateAllWrites latest safe finalized) tags ↔
      safe ≤ tags.latest := by
  constructor
  · -- the state behind the second write
    intro hq
    rcases hq with ⟨_, _, ⟨_, hseen⟩, _⟩
    exact hseen
  · intro hle
    exact ⟨h, ⟨Nat.le_trans hfs hle, h.2⟩, ⟨Nat.le_trans hfs hle, hle⟩,
      Nat.le_trans hfs hsl, hsl⟩

/--
**When a reader never sees the tags inverted.** Over every sequence of updates and
rewinds from zeroed tags, updates being called with finalized ≤ safe ≤ latest: in
every state between two atomic writes finalized and safe are at most latest, if
and only if no update is called with a safe number above the latest tag it finds.
-/
theorem tags_never_inverted_iff {calls : List TagCall} (hordered : ∀ c ∈ calls, c.Ordered) :
    Always BlockTags.write BlockTags.NotInverted (calls.flatMap TagCall.writes) ⟨0, 0, 0⟩ ↔
      ∀ pre c post, calls = pre ++ c :: post →
        c.WithinLatest (pre.foldl BlockTags.call ⟨0, 0, 0⟩) := by
  have hcall : ∀ c ∈ calls, ∀ tags : BlockTags, tags.NotInverted →
      (Always BlockTags.write BlockTags.NotInverted c.writes tags ↔ c.WithinLatest tags) := by
    intro c hc tags h
    cases c with
    | updateAll latest safe finalized =>
        obtain ⟨hfs, hsl⟩ := hordered _ hc
        exact updateAll_never_inverted_iff h hfs hsl
    | rewindTo ancestor => exact iff_of_true (rewindTo_never_inverted h ancestor) trivial
  rw [always_operations hcall ⟨Nat.le_refl 0, Nat.le_refl 0⟩]
  simp only [calls_writes]

/-- Tags that advance to a block and are then rewound. -/
theorem tags_never_inverted_iff_rewound :
    Always BlockTags.write BlockTags.NotInverted
      ([TagCall.updateAll 1 0 0, .rewindTo 0].flatMap TagCall.writes) ⟨0, 0, 0⟩ := by
  refine (tags_never_inverted_iff (by simp [TagCall.Ordered])).mpr ?_
  intro pre c post heq
  match pre, heq with
  | [], heq =>
      obtain ⟨rfl, _⟩ := List.cons.inj heq
      exact Nat.le_refl 0
  | [_], heq =>
      obtain ⟨rfl, _⟩ := List.cons.inj (List.cons.inj heq).2
      exact trivial
  | _ :: _ :: _, heq => exact absurd heq (by simp)

/-- The first update of a node that synced ten blocks shows finalized three ahead of latest. -/
theorem first_update_inverts :
    ¬ Always BlockTags.write BlockTags.NotInverted
      ([TagCall.updateAll 10 5 3].flatMap TagCall.writes) ⟨0, 0, 0⟩ := by
  intro hq
  rcases hq with ⟨_, ⟨hseen, _⟩, _⟩
  exact absurd hseen (by decide)

end NodeComponents.Rpc
