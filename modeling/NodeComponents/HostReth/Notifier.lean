import NodeComponents.HostReth.Backfill
import NodeComponents.Lib.Run

/-!
# The reth host notifier

`RethHostNotifier` delivers the host chain in two phases. While it holds a `DbBackfill`,
each call reads a batch. Once the backfill is complete the live ExEx stream is anchored at
the block below the cursor, and from then on each call takes one item from the stream.

The stream is a library's. What is kept of it here is the head it was set to and the
number of items taken since; what it yields is any function of the two.

The backfill is taken out of the notifier before the header of the anchor is read. A call
in which that read fails leaves neither a backfill nor an anchored stream.
-/

namespace NodeComponents.HostReth

open Lib

variable {T R : Type}

/-! ## The live stream -/

/-- A block by number and hash. -/
structure BlockNumHash where
  number : Nat
  hash : B256
deriving DecidableEq, Repr

/-- A chain of blocks with their receipts, as the ExEx stream carries it; it is never empty. -/
structure RethChain (T R : Type) where
  blocks : List (DbBlock T R)
  ne_nil : blocks ≠ []
deriving DecidableEq, Repr

/-- The number of the first block. -/
def RethChain.firstNumber (c : RethChain T R) : Nat := (c.blocks.head c.ne_nil).block.header.number

/-- The number of the last block. -/
def RethChain.tipNumber (c : RethChain T R) : Nat :=
  (c.blocks.getLast c.ne_nil).block.header.number

inductive ExExNotification (T R : Type) where
  | chainCommitted (new : RethChain T R)
  | chainReverted (old : RethChain T R)
  | chainReorged (old new : RethChain T R)
deriving DecidableEq, Repr

/-- What the stream yields: the items of a stream set to a head (or to none), in order; `none`
once it has ended. -/
abbrev ExExStream (T R : Type) :=
  Option BlockNumHash → Nat → Option (Except String (ExExNotification T R))

/-- Where the stream stands. -/
structure ExExNotifications where
  head : Option BlockNumHash
  /-- The number of items taken since the head was set. -/
  taken : Nat
deriving DecidableEq, Repr

/-- `set_with_head`. -/
def ExExNotifications.setWithHead (_ : ExExNotifications) (head : BlockNumHash) :
    ExExNotifications := ⟨some head, 0⟩

/-- `next`. -/
def ExExNotifications.next (live : ExExStream T R) (n : ExExNotifications) :
    Option (Except String (ExExNotification T R)) × ExExNotifications :=
  (live n.head n.taken, { n with taken := n.taken + 1 })

/-! ## The notifier -/

/-- Unifies DB-backfill and live ExEx chain segments. -/
inductive HostChain (T R : Type) where
  | backfill (segment : DbChainSegment T R)
  | live (chain : RethChain T R)
deriving DecidableEq, Repr

/-- `blocks_and_receipts`. -/
def HostChain.blocks : HostChain T R → List (DbBlock T R)
  | .backfill segment => segment.blocks
  | .live chain => chain.blocks

/-- What `next_notification` returns: `none` once the stream has ended. -/
abbrev Returned (T R : Type) := Option (Except Fault (HostNotification (HostChain T R)))

/-- Reth ExEx implementation of `HostNotifier`. -/
structure RethHostNotifier where
  notifications : ExExNotifications
  backfill : Option DbBackfill
  headSet : Bool
deriving DecidableEq, Repr

/-- The notifier as `decompose_exex_context` builds it. -/
def RethHostNotifier.new : RethHostNotifier := ⟨⟨none, 0⟩, none, false⟩

/-- Build the notification with the tags the provider reports; a failed read leaves a tag out. -/
def notify (a : Answers T R) (kind : HostNotificationKind (HostChain T R)) :
    HostNotification (HostChain T R) :=
  ⟨kind, a.safeTag.toOption.join, a.finalizedTag.toOption.join⟩

/-- The end of the backfill, which was taken out of `s`: anchor the live stream. -/
def switchToLive (a : Answers T R) (backfill : DbBackfill) (s : RethHostNotifier) :
    Option (Returned T R) × RethHostNotifier :=
  let lastBackfilled := backfill.cursor - 1
  match a.sealedHeader lastBackfilled with
  | .ok (some header) =>
    (none, { s with notifications := s.notifications.setWithHead ⟨lastBackfilled, header.hash⟩ })
  | .ok none => (some (some (.error (.err (.missingHeader lastBackfilled)))), s)
  | .error e => (some (some (.error (.err (.provider e)))), s)

/-- Phase 1: DB backfill; `none` falls through to phase 2. -/
def backfillPhase [BlockLayout T R] (a : Answers T R) (s : RethHostNotifier) :
    Option (Returned T R) × RethHostNotifier :=
  match s.backfill with
  | none => (none, s)
  | some backfill =>
    match backfill.nextBatch a with
    | (.ok (some segment), backfill') =>
      (some (some (.ok (notify a (.chainCommitted (.backfill segment))))),
        { s with backfill := some backfill' })
    | (.ok none, backfill') => switchToLive a backfill' { s with backfill := none }
    | (.error e, backfill') => (some (some (.error e)), { s with backfill := some backfill' })

/-- The host notification of a live one; `none` is the panic of `RevertRange::new`. -/
def hostKind : ExExNotification T R → Option (HostNotificationKind (HostChain T R))
  | .chainCommitted new => some (.chainCommitted (.live new))
  | .chainReverted old =>
    (RevertRange.new old.firstNumber old.tipNumber).map .chainReverted
  | .chainReorged old new =>
    (RevertRange.new old.firstNumber old.tipNumber).map fun range => .chainReorged range (.live new)

/-- Phase 2: live ExEx notifications. -/
def livePhase (live : ExExStream T R) (a : Answers T R) (s : RethHostNotifier) :
    Returned T R × RethHostNotifier :=
  let s' := { s with notifications := (s.notifications.next live).2 }
  match (s.notifications.next live).1 with
  | none => (none, s')
  | some (.error e) => (some (.error (.err (.notification e))), s')
  | some (.ok notification) =>
    match hostKind notification with
    | none => (some (.error (.panic "RevertRange")), s')
    | some kind => (some (.ok (notify a kind)), s')

def nextNotification [BlockLayout T R] (live : ExExStream T R) (a : Answers T R)
    (s : RethHostNotifier) : Returned T R × RethHostNotifier :=
  match backfillPhase a s with
  | (some r, s') => (r, s')
  | (none, s') => livePhase live a s'

/-- Later calls are ignored. -/
def RethHostNotifier.setHead (s : RethHostNotifier) (blockNumber : Nat) : RethHostNotifier :=
  if s.headSet then s
  else { s with headSet := true, backfill := some (DbBackfill.new blockNumber) }

/-- `set_backfill_thresholds`; without a backfill it does nothing. -/
def RethHostNotifier.setBackfillThresholds (s : RethHostNotifier) (maxBlocks : Option Nat) :
    RethHostNotifier :=
  match s.backfill with
  | none => s
  | some backfill =>
    match maxBlocks with
    | some maxBlocks => { s with backfill := some (backfill.setBatchSize maxBlocks) }
    | none => { s with backfill := some backfill.resetBatchSize }

/-- The calls a node makes, with what the provider answers during them. -/
inductive Call (T R : Type) where
  | nextNotification (a : Answers T R)
  | setHead (blockNumber : Nat)
  | setBackfillThresholds (maxBlocks : Option Nat)

/-- One call; only `next_notification` returns something. -/
def step [BlockLayout T R] (live : ExExStream T R) :
    Call T R → RethHostNotifier → Option (Returned T R) × RethHostNotifier
  | .nextNotification a, s => (some (nextNotification live a s).1, (nextNotification live a s).2)
  | .setHead blockNumber, s => (none, s.setHead blockNumber)
  | .setBackfillThresholds maxBlocks, s => (none, s.setBackfillThresholds maxBlocks)

/-- The notifier after `set_head(n)` and the calls `calls`. -/
def stateAfter [BlockLayout T R] (live : ExExStream T R) (n : Nat) (calls : List (Call T R)) :
    RethHostNotifier :=
  (runInputs (step live) calls (RethHostNotifier.new.setHead n)).2

/-- What the calls returned, in order. -/
def returned [BlockLayout T R] (live : ExExStream T R) (n : Nat) (calls : List (Call T R)) :
    List (Returned T R) :=
  (runInputs (step live) calls (RethHostNotifier.new.setHead n)).1

/-! ## What a call does -/

/-- The live phase moves the stream on and nothing else. -/
theorem livePhase_state (live : ExExStream T R) (a : Answers T R) (s : RethHostNotifier) :
    (livePhase live a s).2 = { s with
      notifications := { s.notifications with taken := s.notifications.taken + 1 } } := by
  unfold livePhase
  dsimp only
  split
  · rfl
  · rfl
  · split <;> rfl

/-- It never fails for want of a header. -/
theorem livePhase_ne_missingHeader (live : ExExStream T R) (a : Answers T R)
    (s : RethHostNotifier) (k : Nat) :
    (livePhase live a s).1 ≠ some (.error (.err (.missingHeader k))) := by
  unfold livePhase
  dsimp only
  split
  · simp
  · simp
  · split <;> simp

variable [BlockLayout T R]

/-- The ways phase 1 can go. -/
inductive Backfilled (a : Answers T R) (s : RethHostNotifier) :
    Option (Returned T R) → RethHostNotifier → Prop
  | idle (h : s.backfill = none) : Backfilled a s none s
  | batch {b b' : DbBackfill} {segment : DbChainSegment T R} (hb : s.backfill = some b)
      (hn : b.nextBatch a = (.ok (some segment), b')) :
      Backfilled a s (some (some (.ok (notify a (.chainCommitted (.backfill segment))))))
        { s with backfill := some b' }
  | failed {b : DbBackfill} {e : Fault} (hb : s.backfill = some b)
      (hn : b.nextBatch a = (.error e, b)) : Backfilled a s (some (some (.error e))) s
  | switched {b : DbBackfill} {header : SealedHeader} (hb : s.backfill = some b)
      (hc : b.Complete a) (hh : a.sealedHeader (b.cursor - 1) = .ok (some header)) :
      Backfilled a s none
        { s with backfill := none, notifications := ⟨some ⟨b.cursor - 1, header.hash⟩, 0⟩ }
  | missing {b : DbBackfill} (hb : s.backfill = some b) (hc : b.Complete a)
      (hh : a.sealedHeader (b.cursor - 1) = .ok none) :
      Backfilled a s (some (some (.error (.err (.missingHeader (b.cursor - 1))))))
        { s with backfill := none }
  | unread {b : DbBackfill} {e : ProviderError} (hb : s.backfill = some b) (hc : b.Complete a)
      (hh : a.sealedHeader (b.cursor - 1) = .error e) :
      Backfilled a s (some (some (.error (.err (.provider e))))) { s with backfill := none }

theorem backfillPhase_backfilled (a : Answers T R) (s : RethHostNotifier) :
    Backfilled a s (backfillPhase a s).1 (backfillPhase a s).2 := by
  unfold backfillPhase
  split
  · rename_i h
    exact Backfilled.idle h
  · rename_i b hb
    split
    · rename_i segment b' heq
      exact Backfilled.batch hb heq
    · rename_i b' heq
      cases Fetched.of_eq heq with
      | complete hc =>
      unfold switchToLive
      dsimp only
      split
      · rename_i header hh
        exact Backfilled.switched hb hc hh
      · rename_i hh
        exact Backfilled.missing hb hc hh
      · rename_i e hh
        exact Backfilled.unread hb hc hh
    · rename_i e b' heq
      obtain rfl : b' = b := by cases Fetched.of_eq heq <;> rfl
      have hsame : { s with backfill := some b' } = s := by
        rw [← hb]
      rw [hsame]
      exact Backfilled.failed hb heq

theorem backfillPhase_of_none {a : Answers T R} {s : RethHostNotifier} (hb : s.backfill = none) :
    backfillPhase a s = (none, s) := by
  unfold backfillPhase
  rw [hb]

/-- Once the backfill is complete the call switches. -/
theorem backfillPhase_of_complete {a : Answers T R} {s : RethHostNotifier} {b : DbBackfill}
    (hb : s.backfill = some b) (hc : b.Complete a) :
    backfillPhase a s = switchToLive a b { s with backfill := none } := by
  unfold backfillPhase
  rw [hb]
  dsimp only
  rw [nextBatch_of_complete hc]

theorem nextNotification_of_some {live : ExExStream T R} {a : Answers T R}
    {s s' : RethHostNotifier} {r : Returned T R} (h : backfillPhase a s = (some r, s')) :
    nextNotification live a s = (r, s') := by
  unfold nextNotification
  rw [h]

theorem nextNotification_of_none {live : ExExStream T R} {a : Answers T R} {s s' : RethHostNotifier}
    (h : backfillPhase a s = (none, s')) :
    nextNotification live a s = livePhase live a s' := by
  unfold nextNotification
  rw [h]

end NodeComponents.HostReth
