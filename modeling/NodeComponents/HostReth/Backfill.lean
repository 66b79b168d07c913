import Mathlib.Data.List.Forall2
import NodeComponents.NodeTypes

/-!
# Backfill from the host's database

`DbBackfill` reads blocks from the reth provider in batches, from a cursor up to the
finalized block. A batch is read in full or not at all: the cursor moves behind the last
fallible read, so a batch that failed is read again from where it began.

The provider may change and fail between any two calls. What it answers during one call
of `next_notification` is an `Answers`; a batch asks for each number once, so an answer is
a function of the number. Nothing relates the answers of two calls here.

`read_block_range` makes room for its blocks before it reads them, and how many bytes that
takes depends on the layout of the host's types. A window that wrapped asks for more than
there can be, and the blocking task panics. It also asserts that parents chain, in debug
builds only; as everywhere the release build is modelled.
-/

namespace NodeComponents.HostReth

/-- An error of the reth provider. -/
structure ProviderError where
  message : String
deriving DecidableEq, Repr

/-- Errors from the `RethHostNotifier`. -/
inductive RethHostError where
  /-- A notification stream error forwarded from reth. -/
  | notification (message : String)
  /-- The provider failed to look up a header or block tag. -/
  | provider (e : ProviderError)
  /-- A required header was missing from the provider. -/
  | missingHeader (number : Nat)
  /-- A required block was missing from the provider during DB backfill. -/
  | missingBlock (number : Nat)
  /-- Receipts were missing for a block during DB backfill. -/
  | missingReceipts (number : Nat)
deriving DecidableEq, Repr

/-- What ends a call other than its value: an error it returns, or a panic. -/
inductive Fault where
  | err (e : RethHostError)
  | panic (message : String)
deriving DecidableEq, Repr

/-- The layout of a `DbBlock` with these transactions and receipts. -/
class BlockLayout (T R : Type) where
  /-- `size_of::<DbBlock>()` -/
  bytes : Nat
  bytes_pos : 0 < bytes

variable {T R : Type}

/-- A header with its hash. -/
structure SealedHeader where
  number : Nat
  hash : B256
deriving DecidableEq, Repr

/-- A block with its senders recovered. -/
structure RecoveredBlock (T : Type) where
  header : SealedHeader
  transactions : T
deriving DecidableEq, Repr

/-- An owned block and its receipts, read from the reth DB. -/
structure DbBlock (T R : Type) where
  block : RecoveredBlock T
  receipts : List R
deriving DecidableEq, Repr

/-- A contiguous segment of blocks read from the reth DB. -/
structure DbChainSegment (T R : Type) where
  blocks : List (DbBlock T R)
deriving DecidableEq, Repr

/-- What the provider answers during one call of `next_notification`. -/
structure Answers (T R : Type) where
  /-- `finalized_block_number`, as the batch reads it. -/
  finalized : Except ProviderError (Option Nat)
  recoveredBlock : Nat → Except ProviderError (Option (RecoveredBlock T))
  receiptsByBlock : Nat → Except ProviderError (Option (List R))
  sealedHeader : Nat → Except ProviderError (Option SealedHeader)
  /-- `safe_block_number`, as the notification carries it. -/
  safeTag : Except ProviderError (Option Nat)
  /-- `finalized_block_number`, as the notification carries it. -/
  finalizedTag : Except ProviderError (Option Nat)

/-! ## The reader -/

/-- Default number of blocks fetched per batch. -/
def defaultBatchSize : Nat := 1000

/-- Reads blocks and receipts from the reth DB provider in batches. -/
structure DbBackfill where
  /-- Next block to fetch. -/
  cursor : Nat
  batchSize : Nat
  batchSize_pos : 1 ≤ batchSize
deriving DecidableEq, Repr

/-- `DbBackfill::new`. -/
def DbBackfill.new (cursor : Nat) : DbBackfill := ⟨cursor, defaultBatchSize, by decide⟩

/-- Set the batch size (minimum 1). -/
def DbBackfill.setBatchSize (b : DbBackfill) (batchSize : Nat) : DbBackfill :=
  ⟨b.cursor, max batchSize 1, Nat.le_max_right _ _⟩

/-- Reset the batch size to the default. -/
def DbBackfill.resetBatchSize (b : DbBackfill) : DbBackfill :=
  ⟨b.cursor, defaultBatchSize, by decide⟩

/-- The body of the loop of `read_block_range`: one block and its receipts. -/
def readBlock (a : Answers T R) (number : Nat) : Except RethHostError (DbBlock T R) :=
  match a.recoveredBlock number with
  | .error e => .error (.provider e)
  | .ok none => .error (.missingBlock number)
  | .ok (some block) =>
    match a.receiptsByBlock number with
    | .error e => .error (.provider e)
    | .ok none => .error (.missingReceipts number)
    | .ok (some receipts) => .ok ⟨block, receipts⟩

/-- `isize::MAX` -/
def isizeMax : Nat := 0x7fff_ffff_ffff_ffff

/-- `Vec::with_capacity` for so many blocks goes through. -/
def Reservable (T R : Type) [BlockLayout T R] (capacity : Nat) : Prop :=
  capacity * BlockLayout.bytes T R ≤ isizeMax

instance [BlockLayout T R] (capacity : Nat) : Decidable (Reservable T R capacity) :=
  Nat.decLe _ _

/-- The loop of `read_block_range`; the first error ends it. -/
def readBlocks (a : Answers T R) (lo hi : Nat) : Except RethHostError (List (DbBlock T R)) :=
  (List.range' lo (hi + 1 - lo)).mapM (readBlock a)

/-- Read blocks and receipts for `lo..=hi`, once there is room for them. -/
def readBlockRange [BlockLayout T R] (a : Answers T R) (lo hi : Nat) :
    Except Fault (DbChainSegment T R) :=
  if Reservable T R (u64Add (u64Sub hi lo) 1) then
    match readBlocks a lo hi with
    | .error e => .error (.err e)
    | .ok blocks => .ok ⟨blocks⟩
  else .error (.panic "capacity overflow")

/-- The last number of the batch below `finalized`. -/
def DbBackfill.batchEnd (b : DbBackfill) (finalized : Nat) : Nat :=
  min finalized (u64Sub (u64Add b.cursor b.batchSize) 1)

/-- Fetch the next batch of blocks; `none` once the cursor has passed the finalized block. A
panic of the blocking task is one of the call. -/
def DbBackfill.nextBatch [BlockLayout T R] (a : Answers T R) (b : DbBackfill) :
    Except Fault (Option (DbChainSegment T R)) × DbBackfill :=
  match a.finalized with
  | .error e => (.error (.err (.provider e)), b)
  | .ok none => (.ok none, b)
  | .ok (some finalized) =>
    if finalized < b.cursor then (.ok none, b)
    else
      match readBlockRange a b.cursor (b.batchEnd finalized) with
      | .error e => (.error e, b)
      | .ok segment => (.ok (some segment), { b with cursor := u64Add (b.batchEnd finalized) 1 })

/-- A block that carries nothing but its number and hash. -/
def bareBlock (number : Nat) (hash : B256) : DbBlock Unit Unit := ⟨⟨⟨number, hash⟩, ()⟩, []⟩

/-- The number and the hash of a bare block. -/
instance : BlockLayout Unit Unit := ⟨40, by decide⟩

/-- The answers of a host that stores `chain`, finalized up to `finalized`. -/
def Answers.storing (chain : List (DbBlock T R)) (finalized : Option Nat) : Answers T R where
  finalized := .ok finalized
  recoveredBlock k := .ok ((chain.find? fun x => x.block.header.number = k).map DbBlock.block)
  receiptsByBlock k := .ok ((chain.find? fun x => x.block.header.number = k).map DbBlock.receipts)
  sealedHeader k :=
    .ok ((chain.find? fun x => x.block.header.number = k).map fun x => x.block.header)
  safeTag := .ok finalized
  finalizedTag := .ok finalized

/-! ## What a batch does -/

/-- The cursor has passed the finalized block, or there is none. -/
def DbBackfill.Complete (b : DbBackfill) (a : Answers T R) : Prop :=
  a.finalized = .ok none ∨ ∃ f, a.finalized = .ok (some f) ∧ f < b.cursor

/-- The arithmetic of a batch fits into `u64`. -/
def DbBackfill.Fits (b : DbBackfill) : Prop := b.cursor + b.batchSize < u64Size

/-- The number of blocks the batch reads below `finalized`. -/
def DbBackfill.batchLen (b : DbBackfill) (finalized : Nat) : Nat :=
  min (finalized + 1 - b.cursor) b.batchSize

variable {a : Answers T R} {b b' : DbBackfill}

theorem DbBackfill.Fits.batchEnd (h : b.Fits) {f : Nat} (hf : b.cursor ≤ f) :
    b.batchEnd f + 1 = b.cursor + b.batchLen f := by
  have hpos := b.batchSize_pos
  unfold DbBackfill.Fits at h
  unfold DbBackfill.batchEnd DbBackfill.batchLen
  rw [u64Add_of_lt h, u64Sub_of_le (by omega) h]
  omega

/-- A loop of fallible reads that ends has read every element. -/
theorem forall₂_of_mapM {α β ε : Type} {f : α → Except ε β} {l : List α} {m : List β}
    (h : l.mapM f = .ok m) : List.Forall₂ (fun x y => f x = .ok y) l m := by
  induction l generalizing m with
  | nil =>
      obtain rfl := Except.ok.inj h
      exact List.Forall₂.nil
  | cons x l ih =>
      rw [List.mapM_cons] at h
      cases hx : f x with
      | error e => rw [hx] at h; exact absurd h (by simp [bind, Except.bind])
      | ok y =>
          rw [hx] at h
          cases hl : l.mapM f with
          | error e => rw [hl] at h; exact absurd h (by simp [bind, Except.bind])
          | ok ys =>
              rw [hl] at h
              obtain rfl := Except.ok.inj h
              exact List.Forall₂.cons hx (ih hl)

/-- A loop of fallible reads fails with the error of one of them. -/
theorem exists_of_mapM_error {α β ε : Type} {f : α → Except ε β} {l : List α} {e : ε}
    (h : l.mapM f = .error e) : ∃ x ∈ l, f x = .error e := by
  induction l with
  | nil => exact absurd h (by simp [pure, Except.pure])
  | cons x l ih =>
      rw [List.mapM_cons] at h
      cases hx : f x with
      | error e' =>
          rw [hx] at h
          obtain rfl := Except.error.inj h
          exact ⟨x, by simp, hx⟩
      | ok y =>
          rw [hx] at h
          cases hl : l.mapM f with
          | ok ys => rw [hl] at h; exact absurd h (by simp [bind, Except.bind, pure, Except.pure])
          | error e' =>
              rw [hl] at h
              obtain rfl := Except.error.inj h
              obtain ⟨z, hz, hfz⟩ := ih hl
              exact ⟨z, List.mem_cons_of_mem x hz, hfz⟩

theorem readBlock_ok {number : Nat} {x : DbBlock T R} (h : readBlock a number = .ok x) :
    a.recoveredBlock number = .ok (some x.block)
      ∧ a.receiptsByBlock number = .ok (some x.receipts) := by
  unfold readBlock at h
  split at h
  · exact absurd h (by simp)
  · exact absurd h (by simp)
  · rename_i block hblock
    split at h
    · exact absurd h (by simp)
    · exact absurd h (by simp)
    · rename_i receipts hreceipts
      obtain rfl := Except.ok.inj h
      exact ⟨hblock, hreceipts⟩

/-- A read that fails is not for want of a header. -/
theorem readBlock_error {number : Nat} {e : RethHostError} (h : readBlock a number = .error e)
    (k : Nat) : e ≠ .missingHeader k := by
  rintro rfl
  unfold readBlock at h
  split at h
  · exact absurd h (by simp)
  · exact absurd h (by simp)
  · split at h <;> exact absurd h (by simp)

variable [BlockLayout T R]

theorem readBlockRange_panic {lo hi : Nat} (h : ¬ Reservable T R (u64Add (u64Sub hi lo) 1)) :
    readBlockRange a lo hi = .error (.panic "capacity overflow") := if_neg h

theorem readBlockRange_error {lo hi : Nat} (h : Reservable T R (u64Add (u64Sub hi lo) 1))
    {e : RethHostError} (hr : readBlocks a lo hi = .error e) :
    readBlockRange a lo hi = .error (.err e) := by
  unfold readBlockRange
  rw [if_pos h, hr]

theorem readBlockRange_ok {lo hi : Nat} (h : Reservable T R (u64Add (u64Sub hi lo) 1))
    {blocks : List (DbBlock T R)} (hr : readBlocks a lo hi = .ok blocks) :
    readBlockRange a lo hi = .ok ⟨blocks⟩ := by
  unfold readBlockRange
  rw [if_pos h, hr]

/-- The ways a batch can go. -/
inductive Fetched (a : Answers T R) (b : DbBackfill) :
    Except Fault (Option (DbChainSegment T R)) → DbBackfill → Prop
  | complete (h : b.Complete a) : Fetched a b (.ok none) b
  | unanswered {p : ProviderError} (hf : a.finalized = .error p) :
      Fetched a b (.error (.err (.provider p))) b
  | panicked {f : Nat} (hf : a.finalized = .ok (some f)) (hc : b.cursor ≤ f)
      (hroom : ¬ Reservable T R (u64Add (u64Sub (b.batchEnd f) b.cursor) 1)) :
      Fetched a b (.error (.panic "capacity overflow")) b
  | failed {f k : Nat} {e : RethHostError} (hf : a.finalized = .ok (some f)) (hc : b.cursor ≤ f)
      (hk : k ∈ List.range' b.cursor (b.batchEnd f + 1 - b.cursor))
      (hr : readBlock a k = .error e) : Fetched a b (.error (.err e)) b
  | batch {f : Nat} {blocks : List (DbBlock T R)} (hf : a.finalized = .ok (some f))
      (hc : b.cursor ≤ f)
      (hr : List.Forall₂ (fun k x => readBlock a k = .ok x)
        (List.range' b.cursor (b.batchEnd f + 1 - b.cursor)) blocks) :
      Fetched a b (.ok (some ⟨blocks⟩)) { b with cursor := u64Add (b.batchEnd f) 1 }

/-- **A batch is complete, fails or panics and changes nothing, or reads every block of its
range.** -/
theorem nextBatch_fetched (a : Answers T R) (b : DbBackfill) :
    Fetched a b (b.nextBatch a).1 (b.nextBatch a).2 := by
  unfold DbBackfill.nextBatch
  split
  · rename_i p hf
    exact Fetched.unanswered hf
  · rename_i hf
    exact Fetched.complete (Or.inl hf)
  · rename_i f hf
    by_cases hlt : f < b.cursor
    · rw [if_pos hlt]
      exact Fetched.complete (Or.inr ⟨f, hf, hlt⟩)
    · rw [if_neg hlt]
      have hc : b.cursor ≤ f := by omega
      by_cases hroom : Reservable T R (u64Add (u64Sub (b.batchEnd f) b.cursor) 1)
      · cases hr : readBlocks a b.cursor (b.batchEnd f) with
        | error e =>
            rw [readBlockRange_error hroom hr]
            obtain ⟨k, hk, he⟩ := exists_of_mapM_error hr
            exact Fetched.failed hf hc hk he
        | ok blocks =>
            rw [readBlockRange_ok hroom hr]
            exact Fetched.batch hf hc (forall₂_of_mapM hr)
      · rw [readBlockRange_panic hroom]
        exact Fetched.panicked hf hc hroom

theorem Fetched.of_eq {r : Except Fault (Option (DbChainSegment T R))}
    (h : b.nextBatch a = (r, b')) : Fetched a b r b' := by
  have hf := nextBatch_fetched a b
  rwa [h] at hf

/-- **A batch moves the cursor over the blocks it read**: at least one, at most the batch size,
none above the finalized block. -/
theorem Fetched.advance {segment : DbChainSegment T R}
    (h : Fetched a b (.ok (some segment)) b')
    (hfits : ∀ f, a.finalized = .ok (some f) → b.cursor ≤ f → b.Fits) :
    ∃ f, a.finalized = .ok (some f) ∧ 1 ≤ segment.blocks.length
      ∧ segment.blocks.length ≤ b.batchSize ∧ b.cursor + segment.blocks.length ≤ f + 1
      ∧ List.Forall₂ (fun k x => readBlock a k = .ok x)
          (List.range' b.cursor segment.blocks.length) segment.blocks
      ∧ b' = { b with cursor := b.cursor + segment.blocks.length } := by
  cases h with
  | @batch f blocks hf hc hr =>
      have hfits := hfits f hf hc
      have hend := hfits.batchEnd hc
      have hpos := b.batchSize_pos
      have hlen : b.batchEnd f + 1 - b.cursor = blocks.length := by
        rw [← hr.length_eq, List.length_range']
      have hcount : blocks.length = b.batchLen f := by omega
      unfold DbBackfill.Fits at hfits
      unfold DbBackfill.batchLen at hend hcount
      rw [hlen] at hr
      refine ⟨f, hf, ?_, ?_, ?_, hr, ?_⟩
      · show 1 ≤ blocks.length
        omega
      · show blocks.length ≤ b.batchSize
        omega
      · show b.cursor + blocks.length ≤ f + 1
        omega
      · have hcursor : u64Add (b.batchEnd f) 1 = b.cursor + blocks.length := by
          rw [u64Add_of_lt (by omega)]
          omega
        rw [hcursor]

/-- **A window that wraps panics**, with the cursor in the lower half of the words: the room it
asks for is that of the whole batch, which is more than there can be. -/
theorem nextBatch_wrapped {f : Nat} (hf : a.finalized = .ok (some f)) (hc : b.cursor ≤ f)
    (hcursor : b.cursor ≤ isizeMax) (hsize : b.batchSize < u64Size)
    (hwraps : u64Size < b.cursor + b.batchSize) :
    b.nextBatch a = (.error (.panic "capacity overflow"), b) := by
  have hwords : isizeMax + isizeMax + 2 = u64Size := by decide
  have hbehind : u64Add b.cursor b.batchSize = b.cursor + b.batchSize - u64Size := by
    unfold u64Add
    rw [Nat.mod_eq_sub_mod (by omega), Nat.mod_eq_of_lt (by omega)]
  have hend : b.batchEnd f = b.cursor + b.batchSize - u64Size - 1 := by
    unfold DbBackfill.batchEnd
    rw [hbehind, u64Sub_of_le (by omega) (by omega)]
    omega
  have hlen : u64Sub (b.batchEnd f) b.cursor = b.batchSize - 1 := by
    have hround : b.batchEnd f + u64Size - b.cursor = b.batchSize - 1 := by omega
    unfold u64Sub
    rw [hround, Nat.mod_eq_of_lt (by omega)]
  have hroom : ¬ Reservable T R (u64Add (u64Sub (b.batchEnd f) b.cursor) 1) := by
    have hbytes : b.batchSize ≤ b.batchSize * BlockLayout.bytes T R :=
      Nat.le_mul_of_pos_right _ BlockLayout.bytes_pos
    rw [hlen, u64Add_of_lt (by omega), Nat.sub_add_cancel b.batchSize_pos]
    unfold Reservable
    omega
  unfold DbBackfill.nextBatch
  rw [hf]
  dsimp only
  rw [if_neg (by omega), readBlockRange_panic hroom]

theorem nextBatch_of_complete (h : b.Complete a) : b.nextBatch a = (.ok none, b) := by
  unfold DbBackfill.nextBatch
  rcases h with hf | ⟨f, hf, hlt⟩
  · rw [hf]
  · rw [hf]
    exact if_pos hlt

/-- The backfill ends exactly where it is complete. -/
theorem nextBatch_eq_none_iff : (b.nextBatch a).1 = .ok none ↔ b.Complete a := by
  constructor
  · intro h
    have hf := nextBatch_fetched a b
    rw [h] at hf
    generalize (b.nextBatch a).2 = b' at hf
    cases hf with
    | complete hc => exact hc
  · intro h
    rw [nextBatch_of_complete h]

end NodeComponents.HostReth
