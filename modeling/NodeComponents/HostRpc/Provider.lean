import NodeComponents.NodeTypes

/-!
# The RPC provider of the host chain

A provider is a service that may reorg, lag or fail between any two calls, so
each method takes the **instant** at which the call is answered and the answer
may be any function of it. A provider is then one fixed function, and a run
against it is determined by the instants at which its calls are answered.

The calls of one turn of the notifier's loop are answered at the instants of a
`Timing`. Nothing orders them: the block and receipt calls of a batch run
concurrently, and every interleaving with the provider's own changes is some
choice of instants.
-/

namespace NodeComponents.HostRpc

/-- When a provider call is answered. -/
abbrev Instant := Nat

/-- An RPC transport error, as the provider reports it. -/
structure TransportError where
  message : String
deriving DecidableEq, Repr

/-- How a block is asked for by number. -/
inductive BlockNumberOrTag where
  | number (n : Nat)
  | latest
  | safe
  | finalized
deriving DecidableEq, Repr

/-- How receipts are asked for. -/
inductive BlockId where
  | hash (h : B256)
  | number (n : Nat)
deriving DecidableEq, Repr

/-- Errors from the RPC host notifier. -/
inductive RpcHostError where
  /-- An RPC call failed. -/
  | rpc (e : TransportError)
  /-- The RPC node returned no block for the requested hash. -/
  | missingBlockByHash (h : B256)
  /-- The RPC node returned no block for the requested number or tag. -/
  | missingBlock (tag : BlockNumberOrTag)
  /-- A backfill batch does not chain to the last emitted block, or the cursor is past the tip. -/
  | backfillContinuityBreak
deriving DecidableEq, Repr

/-- What ends a call other than its value: an error it returns, or a panic. -/
inductive Fault where
  | err (e : RpcHostError)
  | panic (message : String)
deriving DecidableEq, Repr

/-- A header as the RPC node reports it, with its hash. -/
structure RpcHeader where
  hash : B256
  number : Nat
  parentHash : B256
  timestamp : Nat
  /-- The number is a `u64`. -/
  number_lt : number < u64Size := by decide
deriving DecidableEq, Repr

variable {T R : Type}

/-- A block as the RPC node reports it. -/
structure Block (T : Type) where
  header : RpcHeader
  transactions : T
deriving DecidableEq, Repr

/-- A block with its receipts, fetched via RPC. -/
structure RpcBlock (T R : Type) where
  block : Block T
  receipts : List R
deriving DecidableEq, Repr

/-- The block number. -/
def RpcBlock.number (b : RpcBlock T R) : Nat := b.block.header.number

/-- The block hash. -/
def RpcBlock.hash (b : RpcBlock T R) : B256 := b.block.header.hash

/-- The parent block hash. -/
def RpcBlock.parentHash (b : RpcBlock T R) : B256 := b.block.header.parentHash

/-- The block timestamp. -/
def RpcBlock.timestamp (b : RpcBlock T R) : Nat := b.block.header.timestamp

/-- A chain segment fetched via RPC, ascending by number. -/
structure RpcChainSegment (T R : Type) where
  blocks : List (RpcBlock T R)
deriving DecidableEq, Repr

/-- The provider: what each call answers at each instant. -/
structure Provider (T R : Type) where
  getBlockNumber : Instant → Except TransportError Nat
  getBlockByNumber : Instant → BlockNumberOrTag → Except TransportError (Option (Block T))
  getBlockByHash : Instant → B256 → Except TransportError (Option (Block T))
  getBlockReceipts : Instant → BlockId → Except TransportError (Option (List R))

/-- The instants at which the provider calls of one turn of the loop are answered. -/
structure Timing where
  /-- `get_block_number` of `drain_backfill`. -/
  blockNumber : Instant
  /-- The block call of the `i`-th fetched block. -/
  block : Nat → Instant
  /-- The receipts call of the `i`-th fetched block. -/
  receipts : Nat → Instant
  /-- The safe lookup of a tag refresh. -/
  safe : Instant
  /-- The finalized lookup of a tag refresh. -/
  finalized : Instant
  /-- The `i`-th header call of the walk from the hint. -/
  walk : Nat → Instant
  /-- The latest lookup of the stale-hint fallback. -/
  latest : Instant
  /-- The `i`-th header call of the walk from the latest block. -/
  rewalk : Nat → Instant

/-- Every call of the turn is answered at one instant. -/
def Timing.constant (t : Instant) : Timing :=
  ⟨t, fun _ => t, fun _ => t, t, t, fun _ => t, t, fun _ => t⟩

/-! ## What is assumed of a provider -/

/-- A by-number answer carries the requested number. -/
def Provider.AnswersNumber (P : Provider T R) : Prop :=
  ∀ t n b, P.getBlockByNumber t (.number n) = .ok (some b) → b.header.number = n

/-- The block answered for a header's parent hash has the number one below the header's. -/
def Provider.ParentOneLower (P : Provider T R) : Prop :=
  ∀ t t' h b c, P.getBlockByHash t h = .ok (some b) →
    P.getBlockByHash t' b.header.parentHash = .ok (some c) → c.header.number + 1 = b.header.number

/--
A hash determines one immutable block: `U` is the header behind each hash, every
answer agrees with it, and a header's parent has the number one below.
-/
structure Provider.Immutable (P : Provider T R) (U : B256 → Option RpcHeader) : Prop where
  hash : ∀ h x, U h = some x → x.hash = h
  parent : ∀ h x y, U h = some x → U x.parentHash = some y → y.number + 1 = x.number
  byHash : ∀ t h b, P.getBlockByHash t h = .ok (some b) → U h = some b.header
  byNumber : ∀ t tag b, P.getBlockByNumber t tag = .ok (some b) → U b.header.hash = some b.header
  answersNumber : P.AnswersNumber

theorem Provider.Immutable.parentOneLower {P : Provider T R} {U : B256 → Option RpcHeader}
    (h : P.Immutable U) : P.ParentOneLower := by
  intro t t' k b c hb hc
  exact h.parent k b.header c.header (h.byHash t k b hb) (h.byHash t' _ c hc)

/-! ## A provider over stored blocks -/

/-- A block that carries nothing but its place in the chain. -/
def bareBlock (hash : B256) (number : Nat) (parentHash : B256)
    (h : number < u64Size := by decide) : RpcBlock Unit Unit :=
  ⟨⟨⟨hash, number, parentHash, 0, h⟩, ()⟩, []⟩

/-- A provider that stores the blocks `known`, answers by hash from them, and by
number from the chain that is canonical at the instant of the call. -/
def Provider.serving (known : List (RpcBlock T R)) (canon : Instant → List (RpcBlock T R)) :
    Provider T R where
  getBlockNumber t := .ok (((canon t).getLast?.map RpcBlock.number).getD 0)
  getBlockByNumber t tag :=
    match tag with
    | .number n => .ok (((canon t).find? fun b => b.number = n).map RpcBlock.block)
    | .latest => .ok ((canon t).getLast?.map RpcBlock.block)
    | .safe => .ok ((canon t).head?.map RpcBlock.block)
    | .finalized => .ok ((canon t).head?.map RpcBlock.block)
  getBlockByHash _ h := .ok ((known.find? fun b => b.hash = h).map RpcBlock.block)
  getBlockReceipts t id :=
    match id with
    | .hash h => .ok ((known.find? fun b => b.hash = h).map RpcBlock.receipts)
    | .number n => .ok (((canon t).find? fun b => b.number = n).map RpcBlock.receipts)

variable {known : List (RpcBlock T R)} {canon : Instant → List (RpcBlock T R)}

theorem serving_answersNumber : (Provider.serving known canon).AnswersNumber := by
  intro t n b h
  injection h with h
  obtain ⟨x, hx, rfl⟩ := Option.map_eq_some_iff.mp h
  have hn : x.number = n := by simpa using List.find?_some hx
  exact hn

/-- Its headers are immutable if every canonical block is the stored one and
parents are numbered one below. -/
theorem serving_immutable
    (hstore : ∀ t, ∀ b ∈ canon t, known.find? (fun x => x.hash = b.hash) = some b)
    (hparent : ∀ b ∈ known, ∀ c ∈ known, b.parentHash = c.hash → c.number + 1 = b.number) :
    (Provider.serving known canon).Immutable
      (fun h => (known.find? fun b => b.hash = h).map fun b => b.block.header) where
  hash := by
    intro h x hx
    obtain ⟨b, hb, rfl⟩ := Option.map_eq_some_iff.mp hx
    have hbh : b.hash = h := by simpa using List.find?_some hb
    exact hbh
  parent := by
    intro h x y hx hy
    obtain ⟨b, hb, rfl⟩ := Option.map_eq_some_iff.mp hx
    obtain ⟨c, hc, rfl⟩ := Option.map_eq_some_iff.mp hy
    have hch : c.hash = b.block.header.parentHash := by simpa using List.find?_some hc
    exact hparent b (List.mem_of_find?_eq_some hb) c (List.mem_of_find?_eq_some hc) hch.symm
  byHash := by
    intro t h b hb
    injection hb with hb
    obtain ⟨x, hx, rfl⟩ := Option.map_eq_some_iff.mp hb
    rw [hx]
    rfl
  byNumber := by
    intro t tag b hb
    obtain ⟨x, hx, rfl⟩ : ∃ x ∈ canon t, x.block = b := by
      cases tag <;> injection hb with hb <;>
        obtain ⟨x, hx, rfl⟩ := Option.map_eq_some_iff.mp hb
      · exact ⟨x, List.mem_of_find?_eq_some hx, rfl⟩
      · exact ⟨x, List.mem_of_getLast? hx, rfl⟩
      · exact ⟨x, List.mem_of_head? hx, rfl⟩
      · exact ⟨x, List.mem_of_head? hx, rfl⟩
    exact congrArg (Option.map fun b => b.block.header) (hstore t x hx)
  answersNumber := serving_answersNumber

/-- A provider over stored blocks whose chain changes once, after instant zero. -/
def Provider.reorging (known before after : List (RpcBlock T R)) : Provider T R :=
  Provider.serving known fun t => if t = 0 then before else after

theorem reorging_immutable {before after : List (RpcBlock T R)}
    (hbefore : ∀ b ∈ before, known.find? (fun x => x.hash = b.hash) = some b)
    (hafter : ∀ b ∈ after, known.find? (fun x => x.hash = b.hash) = some b)
    (hparent : ∀ b ∈ known, ∀ c ∈ known, b.parentHash = c.hash → c.number + 1 = b.number) :
    (Provider.reorging known before after).Immutable
      (fun h => (known.find? fun b => b.hash = h).map fun b => b.block.header) := by
  refine serving_immutable ?_ hparent
  intro t b hb
  by_cases ht : t = 0
  · rw [if_pos ht] at hb
    exact hbefore b hb
  · rw [if_neg ht] at hb
    exact hafter b hb

end NodeComponents.HostRpc
