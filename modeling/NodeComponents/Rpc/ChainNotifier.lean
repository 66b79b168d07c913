import NodeComponents.NodeTypes

/-!
# The chain state shared by the node and the RPC layer

The node writes three block tags and sends chain events; the RPC layer reads the
tags, receives the events, and polls the ring of recent reorgs. This module holds
the events and the notifier, `sent` being everything broadcast so far.

A clock reading is a natural number, as the source's `Instant` is only ever
compared.
-/

namespace NodeComponents.Rpc

/-- The parts of a rollup header that the node and the RPC layer read. -/
structure Header where
  number : Nat
  hash : B256
  parentHash : B256
  timestamp : Nat
deriving DecidableEq, Repr

/-- A log as the RPC layer returns it: the log itself, of type `G`, and where it was emitted. -/
structure Log (G : Type) where
  inner : G
  blockHash : Option B256
  blockNumber : Option Nat
  blockTimestamp : Option Nat
  transactionHash : Option B256
  transactionIndex : Option Nat
  logIndex : Option Nat
  removed : Bool
deriving DecidableEq, Repr

/-- A receipt as execution produces it. -/
structure Receipt (G : Type) where
  txType : Nat
  logs : List G
deriving DecidableEq, Repr

variable {Tx G : Type}

/-- Sent when a new block is available in storage. -/
structure NewBlockNotification (Tx G : Type) where
  header : Header
  transactions : List Tx
  receipts : List (Receipt G)
deriving DecidableEq, Repr

/-- A block that was removed during a chain reorganization. -/
structure RemovedBlock (G : Type) where
  number : Nat
  hash : B256
  timestamp : Nat
  logs : List (Log G)
deriving DecidableEq, Repr

/-- Sent when a chain reorganization is detected. -/
structure ReorgNotification (G : Type) where
  /-- The number of the last block still valid. -/
  commonAncestor : Nat
  /-- The blocks that were removed, ordered by number. -/
  removedBlocks : List (RemovedBlock G)
deriving DecidableEq, Repr

/-- A chain event broadcast to subscribers. -/
inductive ChainEvent (Tx G : Type) where
  | newBlock (notif : NewBlockNotification Tx G)
  | reorg (notif : ReorgNotification G)
deriving DecidableEq, Repr

/-! ## Block tags -/

/-- The tags the node publishes. -/
structure BlockTags where
  latest : Nat
  safe : Nat
  finalized : Nat
deriving DecidableEq, Repr

/-- `update_all`, once its three stores are done. -/
def BlockTags.updateAll (_ : BlockTags) (latest safe finalized : Nat) : BlockTags :=
  ⟨latest, safe, finalized⟩

/-- `rewind_to`: cap all three tags, once its three stores are done. -/
def BlockTags.rewindTo (tags : BlockTags) (ancestor : Nat) : BlockTags :=
  ⟨min tags.latest ancestor, min tags.safe ancestor, min tags.finalized ancestor⟩

/-! ## The notifier -/

/-- Maximum number of reorg notifications retained in the ring buffer. -/
def maxReorgEntries : Nat := 25

/-- The timestamped reorg ring buffer, oldest first. -/
abbrev ReorgBuffer (G : Type) := List (Nat × ReorgNotification G)

/-- The tags, the events sent so far, and the ring of recent reorgs. -/
structure ChainNotifier (Tx G : Type) where
  tags : BlockTags
  sent : List (ChainEvent Tx G)
  reorgs : ReorgBuffer G
deriving DecidableEq, Repr

/-- A notifier with zeroed tags. -/
def ChainNotifier.new : ChainNotifier Tx G := ⟨⟨0, 0, 0⟩, [], []⟩

/-- Broadcast an event; a missing receiver is no error to the callers. -/
def ChainNotifier.sendEvent (c : ChainNotifier Tx G) (event : ChainEvent Tx G) :
    ChainNotifier Tx G := { c with sent := c.sent ++ [event] }

/-- Send a new block notification. -/
def ChainNotifier.sendNewBlock (c : ChainNotifier Tx G) (notif : NewBlockNotification Tx G) :
    ChainNotifier Tx G := c.sendEvent (.newBlock notif)

/-- Write to the ring buffer, evicting the oldest entry if it is full. -/
def pushReorg (buf : ReorgBuffer G) (now : Nat) (notif : ReorgNotification G) : ReorgBuffer G :=
  (if maxReorgEntries ≤ buf.length then buf.tail else buf) ++ [(now, notif)]

/-- Send a reorg notification: the ring buffer first, then the broadcast. -/
def ChainNotifier.sendReorg (c : ChainNotifier Tx G) (now : Nat) (notif : ReorgNotification G) :
    ChainNotifier Tx G :=
  { c with reorgs := pushReorg c.reorgs now notif }.sendEvent (.reorg notif)

/-- All reorgs in the ring received after `since`. -/
def reorgsSince (buf : ReorgBuffer G) (since : Nat) : List (ReorgNotification G) :=
  (buf.filter fun e => since < e.1).map Prod.snd

end NodeComponents.Rpc
