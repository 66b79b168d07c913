import NodeComponents.Lib.Run
import NodeComponents.Rpc.Filters

/-!
# Push subscriptions

A subscription is a task with a queue. Each event it receives is put through its
filter and the output queued; whenever the client's channel grants permits, that
many items leave the queue at the front. A new block is filtered from its receipts,
a reorg from the logs the notification carries.

A Rust panic is an error here, and ends the task. The transaction hash of a
transaction is an argument, as transactions are.
-/

namespace NodeComponents.Rpc

open Lib

variable {B G Tx : Type}

/-! ## Buffers -/

/-- A block header as the RPC returns it. -/
structure RpcHeader where
  hash : B256
  inner : Header
  totalDifficulty : Option Nat
  size : Option Nat
deriving DecidableEq, Repr

/-- A buffer of chain events, over a representation of blocks. -/
inductive EventBuffer (B G : Type) where
  | log (logs : List (Log G))
  | block (blocks : List B)
deriving DecidableEq, Repr

/-- A single event popped from a buffer. -/
inductive EventItem (B G : Type) where
  | log (log : Log G)
  | block (block : B)
deriving DecidableEq, Repr

/-- Buffer for subscription outputs: log entries or block headers. -/
abbrev SubscriptionBuffer (G : Type) := EventBuffer RpcHeader G

/-- What a subscription task can panic with. -/
inductive Panic where
  /-- `attempted to extend with mismatched buffer kinds` -/
  | mismatchedKinds
  /-- The filter of a block subscription was unwrapped. -/
  | noFilter
  /-- A receipt has no transaction at its index. -/
  | noTransaction (index : Nat)
deriving DecidableEq, Repr

def EventBuffer.len : EventBuffer B G → Nat
  | .log logs => logs.length
  | .block blocks => blocks.length

def EventBuffer.isEmpty (b : EventBuffer B G) : Bool := b.len == 0

/-- Extend a buffer with the events of another one of its kind. -/
def EventBuffer.extend : EventBuffer B G → EventBuffer B G → Except Panic (EventBuffer B G)
  | .log a, .log b => .ok (.log (a ++ b))
  | .block a, .block b => .ok (.block (a ++ b))
  | _, _ => .error .mismatchedKinds

/-- Pop the next event from the front, beside what is left. -/
def EventBuffer.popFront : EventBuffer B G → Option (EventItem B G × EventBuffer B G)
  | .log [] => none
  | .log (l :: logs) => some (.log l, .log logs)
  | .block [] => none
  | .block (b :: blocks) => some (.block b, .block blocks)

/-! ## Filters of a subscription -/

def InterestKind.isBlock : InterestKind G → Bool
  | .log _ => false
  | .block => true

def InterestKind.emptySubBuffer : InterestKind G → SubscriptionBuffer G
  | .log _ => .log []
  | .block => .block []

def applyBlock (notif : NewBlockNotification Tx G) : SubscriptionBuffer G :=
  .block [⟨notif.header.hash, notif.header, none, none⟩]

/-- The logs of the receipts from an index on, each with the index and hash of its transaction. -/
def locateLogs (txHash : Tx → B256) (transactions : List Tx) :
    Nat → List (Receipt G) → Except Panic (List (Nat × B256 × G))
  | _, [] => .ok []
  | txIdx, receipt :: rest =>
    match transactions[txIdx]? with
    | none => .error (.noTransaction txIdx)
    | some tx =>
      match locateLogs txHash transactions (txIdx + 1) rest with
      | .error p => .error p
      | .ok later => .ok (receipt.logs.map (fun log => (txIdx, txHash tx, log)) ++ later)

/-- Logs are counted through the block before the filter drops any. -/
def InterestKind.applyFilter (txHash : Tx → B256) (kind : InterestKind G)
    (notif : NewBlockNotification Tx G) : Except Panic (SubscriptionBuffer G) :=
  match kind.asFilter with
  | none => .error .noFilter
  | some filter =>
    match locateLogs txHash notif.transactions 0 notif.receipts with
    | .error p => .error p
    | .ok located =>
      .ok (.log ((located.zipIdx.filter fun e => filter e.1.2.2).map fun e =>
        { inner := e.1.2.2
          blockHash := some notif.header.hash
          blockNumber := some notif.header.number
          blockTimestamp := some notif.header.timestamp
          transactionHash := some e.1.2.1
          transactionIndex := some e.1.1
          logIndex := some e.2
          removed := false }))

/-- Apply the filter to a new block. -/
def InterestKind.filterNotificationForSub (txHash : Tx → B256) (kind : InterestKind G)
    (notif : NewBlockNotification Tx G) : Except Panic (SubscriptionBuffer G) :=
  if kind.isBlock then .ok (applyBlock notif) else kind.applyFilter txHash notif

/-- The matching logs of the removed blocks, flagged as removed; headers are not taken back. -/
def InterestKind.filterReorgForSub (kind : InterestKind G) (reorg : ReorgNotification G) :
    SubscriptionBuffer G :=
  match kind.asFilter with
  | none => kind.emptySubBuffer
  | some filter =>
    .log (((reorg.removedBlocks.flatMap RemovedBlock.logs).filter fun log => filter log.inner).map
      fun log => { log with removed := true })

/-! ## The task -/

inductive TaskStatus where
  | running
  /-- The loop was left: cancelled by the user, by a disconnect, or a channel closed. -/
  | ended
  | panicked (p : Panic)
deriving DecidableEq, Repr

/-- The task of one subscription, with what it sent to its client. -/
structure SubscriptionTask (G : Type) where
  filter : InterestKind G
  notifBuffer : SubscriptionBuffer G
  sent : List (EventItem RpcHeader G)
  status : TaskStatus

/-- A task that was just spawned. -/
def SubscriptionTask.spawned (filter : InterestKind G) : SubscriptionTask G :=
  ⟨filter, filter.emptySubBuffer, [], .running⟩

/-- The branches of the `select!`. -/
inductive TaskInput (Tx G : Type) where
  | cancelled
  /-- So many permits, or none if the channel to the client closed. -/
  | permits (granted : Option Nat)
  | recv (event : ChainEvent Tx G)
  | lagged (skipped : Nat)
  | closed

/-- One item is sent for each permit, while there are any. -/
def SubscriptionTask.sendPermits : Nat → SubscriptionTask G → SubscriptionTask G
  | 0, t => t
  | k + 1, t =>
    match t.notifBuffer.popFront with
    | none => t
    | some (item, rest) =>
      SubscriptionTask.sendPermits k { t with notifBuffer := rest, sent := t.sent ++ [item] }

/-- Queue an output, if there is any. -/
def SubscriptionTask.queue (t : SubscriptionTask G) (output : SubscriptionBuffer G) :
    SubscriptionTask G :=
  if output.isEmpty then t
  else
    match t.notifBuffer.extend output with
    | .error p => { t with status := .panicked p }
    | .ok buffer => { t with notifBuffer := buffer }

/-- What the filter makes of an event. -/
def InterestKind.filterEvent (txHash : Tx → B256) (kind : InterestKind G) :
    ChainEvent Tx G → Except Panic (SubscriptionBuffer G)
  | .newBlock notif => kind.filterNotificationForSub txHash notif
  | .reorg notif => .ok (kind.filterReorgForSub notif)

/-- An event is filtered, and the output queued. -/
def SubscriptionTask.receive (txHash : Tx → B256) (t : SubscriptionTask G)
    (event : ChainEvent Tx G) : SubscriptionTask G :=
  match t.filter.filterEvent txHash event with
  | .error p => { t with status := .panicked p }
  | .ok output => t.queue output

/-- One round of the loop, and the event it received, if any. -/
def taskStep (txHash : Tx → B256) (i : TaskInput Tx G) (t : SubscriptionTask G) :
    Option (ChainEvent Tx G) × SubscriptionTask G :=
  match t.status with
  | .running =>
    match i with
    | .cancelled => (none, { t with status := .ended })
    | .permits granted =>
      -- no permits are asked for while nothing is queued
      if t.notifBuffer.isEmpty then (none, t)
      else
        match granted with
        | none => (none, { t with status := .ended })
        | some k => (none, t.sendPermits k)
    | .recv event => (some event, t.receive txHash event)
    | .lagged _ => (none, t)
    | .closed => (none, { t with status := .ended })
  | _ => (none, t)

/-- Runs of a subscription task, with the events it received. -/
abbrev TaskRun (txHash : Tx → B256) (kind : InterestKind G) :
    List (ChainEvent Tx G) → SubscriptionTask G → Prop :=
  Run (taskStep txHash) (fun _ _ => True) (SubscriptionTask.spawned kind)

/-! ## The queue -/

/-- The items of a buffer, front first. -/
def EventBuffer.items : EventBuffer B G → List (EventItem B G)
  | .log logs => logs.map .log
  | .block blocks => blocks.map .block

/-- The items an event is to put on the wire. -/
def eventItems (txHash : Tx → B256) (kind : InterestKind G) (event : ChainEvent Tx G) :
    List (EventItem RpcHeader G) :=
  match kind.filterEvent txHash event with
  | .error _ => []
  | .ok output => output.items

/-- A buffer holds what subscriptions of the kind are sent. -/
def InterestKind.Holds : InterestKind G → EventBuffer B G → Prop
  | .log _, .log _ => True
  | .block, .block _ => True
  | _, _ => False

theorem EventBuffer.isEmpty_iff {b : EventBuffer B G} : b.isEmpty = true ↔ b.items = [] := by
  cases b <;> simp [EventBuffer.isEmpty, EventBuffer.len, EventBuffer.items]

theorem holds_emptySubBuffer (kind : InterestKind G) : kind.Holds kind.emptySubBuffer := by
  cases kind <;> exact trivial

/-- Buffers of one kind extend each other. -/
theorem extend_holds {kind : InterestKind G} {a b : EventBuffer B G} (ha : kind.Holds a)
    (hb : kind.Holds b) :
    ∃ c, a.extend b = .ok c ∧ kind.Holds c ∧ c.items = a.items ++ b.items := by
  cases kind with
  | log filter =>
      cases a with
      | block blocks => exact absurd ha id
      | log logs =>
          cases b with
          | block blocks => exact absurd hb id
          | log logs' => exact ⟨.log (logs ++ logs'), rfl, trivial, List.map_append⟩
  | block =>
      cases a with
      | log logs => exact absurd ha id
      | block blocks =>
          cases b with
          | log logs => exact absurd hb id
          | block blocks' => exact ⟨.block (blocks ++ blocks'), rfl, trivial, List.map_append⟩

theorem popFront_holds {kind : InterestKind G} {b rest : EventBuffer B G} {item : EventItem B G}
    (hb : kind.Holds b) (h : b.popFront = some (item, rest)) :
    kind.Holds rest ∧ b.items = item :: rest.items := by
  unfold EventBuffer.popFront at h
  split at h
  · exact absurd h (by simp)
  · obtain ⟨rfl, rfl⟩ := Prod.mk.inj (Option.some.inj h)
    cases kind <;> exact ⟨hb, rfl⟩
  · exact absurd h (by simp)
  · obtain ⟨rfl, rfl⟩ := Prod.mk.inj (Option.some.inj h)
    cases kind <;> exact ⟨hb, rfl⟩

/-- The output of a filter is of its kind. -/
theorem filterEvent_holds {txHash : Tx → B256} {kind : InterestKind G} {event : ChainEvent Tx G}
    {output : SubscriptionBuffer G} (h : kind.filterEvent txHash event = .ok output) :
    kind.Holds output := by
  cases kind with
  | block =>
      cases event with
      | newBlock notif => obtain rfl := Except.ok.inj h; exact trivial
      | reorg notif => obtain rfl := Except.ok.inj h; exact trivial
  | log filter =>
      cases event with
      | reorg notif => obtain rfl := Except.ok.inj h; exact trivial
      | newBlock notif =>
          show InterestKind.Holds (.log filter) output
          have h : (InterestKind.log filter).applyFilter txHash notif = .ok output := h
          unfold InterestKind.applyFilter InterestKind.asFilter at h
          dsimp only at h
          split at h
          · exact absurd h (by simp)
          · obtain rfl := Except.ok.inj h
            exact trivial

/-- What a task keeps: it sent the items of the events received, in order, up to those queued. -/
structure Delivering (txHash : Tx → B256) (kind : InterestKind G) (es : List (ChainEvent Tx G))
    (t : SubscriptionTask G) : Prop where
  filter : t.filter = kind
  holds : kind.Holds t.notifBuffer
  items : t.sent ++ t.notifBuffer.items = es.flatMap (eventItems txHash kind)
  /-- A panic is one of the filter. -/
  panics : ∀ p, t.status = .panicked p → ∃ e ∈ es, kind.filterEvent txHash e = .error p

variable {txHash : Tx → B256} {kind : InterestKind G} {es : List (ChainEvent Tx G)}
  {t : SubscriptionTask G}

/-- Sending leaves the task as it is, running or not. -/
theorem sendPermits_status : ∀ (k : Nat) (t : SubscriptionTask G),
    (t.sendPermits k).status = t.status
  | 0, _ => rfl
  | k + 1, t => by
      unfold SubscriptionTask.sendPermits
      cases t.notifBuffer.popFront with
      | none => rfl
      | some popped => exact sendPermits_status k _

theorem Delivering.sendPermits : ∀ (k : Nat) {t : SubscriptionTask G},
    Delivering txHash kind es t → Delivering txHash kind es (t.sendPermits k)
  | 0, _, h => h
  | k + 1, t, h => by
      unfold SubscriptionTask.sendPermits
      cases hpop : t.notifBuffer.popFront with
      | none => exact h
      | some popped =>
          obtain ⟨item, rest⟩ := popped
          obtain ⟨hholds, hitems⟩ := popFront_holds h.holds hpop
          refine Delivering.sendPermits k ⟨h.filter, hholds, ?_, h.panics⟩
          show (t.sent ++ [item]) ++ rest.items = _
          rw [← h.items, hitems, List.append_assoc]
          rfl

/-- **Receiving an event** queues its items. -/
theorem Delivering.received (h : Delivering txHash kind es t) (e : ChainEvent Tx G) :
    Delivering txHash kind (es ++ [e]) (t.receive txHash e) := by
  have hmore : ∀ p, t.status = .panicked p →
      ∃ e' ∈ es ++ [e], kind.filterEvent txHash e' = .error p := by
    intro p hp
    obtain ⟨e', he', herr⟩ := h.panics p hp
    exact ⟨e', List.mem_append_left _ he', herr⟩
  have hflat : (es ++ [e]).flatMap (eventItems txHash kind)
      = t.sent ++ t.notifBuffer.items ++ eventItems txHash kind e := by
    rw [List.flatMap_append, h.items]
    simp
  have hfilter : t.filter.filterEvent txHash e = kind.filterEvent txHash e := by rw [h.filter]
  unfold SubscriptionTask.receive
  rw [hfilter]
  cases hf : kind.filterEvent txHash e with
  | error p =>
      refine ⟨h.filter, h.holds, ?_, ?_⟩
      · rw [hflat]
        unfold eventItems
        rw [hf]
        exact (List.append_nil _).symm
      · intro q hq
        obtain rfl := TaskStatus.panicked.inj hq
        exact ⟨e, by simp, hf⟩
  | ok output =>
      have hitems : eventItems txHash kind e = output.items := by
        unfold eventItems
        rw [hf]
      dsimp only
      unfold SubscriptionTask.queue
      by_cases hempty : output.isEmpty = true
      · rw [if_pos hempty]
        refine ⟨h.filter, h.holds, ?_, hmore⟩
        rw [hflat, hitems, EventBuffer.isEmpty_iff.mp hempty, List.append_nil]
      · rw [if_neg hempty]
        obtain ⟨c, hc, hholds, happ⟩ := extend_holds h.holds (filterEvent_holds hf)
        rw [hc]
        refine ⟨h.filter, hholds, ?_, hmore⟩
        show t.sent ++ c.items = _
        rw [hflat, hitems, happ, List.append_assoc]

theorem Delivering.step (h : Delivering txHash kind es t) (i : TaskInput Tx G) :
    Delivering txHash kind (es ++ (taskStep txHash i t).1.toList) (taskStep txHash i t).2 := by
  have hstay : ∀ {t' : SubscriptionTask G}, Delivering txHash kind es t' →
      Delivering txHash kind (es ++ (none : Option (ChainEvent Tx G)).toList) t' := by
    intro t' ht'
    rwa [Option.toList_none, List.append_nil]
  have hended : Delivering txHash kind es { t with status := .ended } :=
    ⟨h.filter, h.holds, h.items, fun p hp => absurd hp (by simp)⟩
  unfold taskStep
  split
  · cases i with
    | cancelled => exact hstay hended
    | permits granted =>
        dsimp only
        split
        · exact hstay h
        · cases granted with
          | none => exact hstay hended
          | some k => exact hstay (h.sendPermits k)
    | recv event => exact h.received event
    | lagged skipped => exact hstay h
    | closed => exact hstay hended
  · exact hstay h

/--
**A task delivers in order.** Whatever permits it is granted and when: what it sent, and
behind that what it has queued, are the items of the events it received, in order.
-/
theorem TaskRun.delivering (h : TaskRun txHash kind es t) : Delivering txHash kind es t := by
  refine Run.invariant ?_ (fun i _ _ ht _ => ht.step i) h
  refine ⟨rfl, holds_emptySubBuffer kind, ?_, fun p hp => absurd hp ?_⟩
  · cases kind <;> rfl
  · show TaskStatus.running ≠ .panicked p
    simp

end NodeComponents.Rpc
