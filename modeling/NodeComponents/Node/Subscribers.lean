import NodeComponents.Node.Settled
import NodeComponents.Rpc.SubscriptionReplay

/-!
# Subscribers of the node

The node broadcasts an event for each block it stores and for each cut, and a
subscription task turns the events into items for its client. Between the broadcast
and the client are a bounded channel and the queue of the task, and the client may
subscribe at any time, also while a notification is being handled.

End to end: a client that has been sent everything holds, between two notifications,
what is stored. For a log subscription these are the matching logs. A subscription to
new heads is never told of a reorg, but its client can see one: a head replaces what
was at its number, and everything above.
-/

namespace NodeComponents.Node

open Lib Rpc

variable {C H Tx G S : Type} {X : Externals C H Tx G S} {F : Faults}
  {genesis : ExecutedBlock Tx G S} {st : UnifiedStorage Tx G S} {s : NodeState Tx G S}
  {txHash : Tx → B256} {boot : List (NewBlockNotification Tx G)}
  {P : List (NewBlockNotification Tx G) → ChainEvent Tx G → Prop}

/-! ## The events and the stored chain -/

/-- Cold storage holds the logs of a block as its event reports them whenever it is drained, and
each receipt is one of a transaction. -/
structure ReportsLogs (txHash : Tx → B256) (X : Externals C H Tx G S) : Prop where
  cold : ∀ b, (X.coldLogs b).flatten = (announced b).rpcLogs txHash
  receipts : ∀ hot x b, X.runEvm hot x = .ok b → b.receipts.length ≤ b.transactions.length

/-- The event is of the chain, as far as a client that only looks at headers can tell. -/
def Numbers (chain : List (NewBlockNotification Tx G)) : ChainEvent Tx G → Prop
  | .newBlock b => b.header.number = chain.length
  | .reorg _ => True

/-- Each event the node broadcasts is, of the chain that is stored, as `P` says. -/
structure Tells (X : Externals C H Tx G S)
    (P : List (NewBlockNotification Tx G) → ChainEvent Tx G → Prop) : Prop where
  block : ∀ hot x b chain, X.runEvm hot x = .ok b → b.header.number = chain.length →
    P chain (blockEvent b)
  cut : ∀ (chain : List (ExecutedBlock Tx G S)) (target : Nat),
    P (chain.map announced) (.reorg ⟨target, (chain.drop (target + 1)).map fun b =>
      ⟨b.header.number, b.header.hash, b.header.timestamp, (X.coldLogs b).flatten⟩⟩)

theorem ReportsLogs.tells (hX : ReportsLogs txHash X) : Tells X (Announces txHash) where
  block _ _ _ _ hb hnum := ⟨hnum, hX.receipts _ _ _ hb⟩
  cut chain target := by
    show ReorgNotification.mk _ _ = _
    unfold reorgAbove
    rw [← List.map_drop, List.map_map]
    congr 1
    refine List.map_congr_left fun b _ => ?_
    rw [hX.cold b]
    rfl

/-- Heads need nothing of cold storage. -/
theorem tells_numbers : Tells X Numbers where
  block _ _ _ _ _ hnum := hnum
  cut _ _ := trivial

/-- The events sent since the stored chain was `boot` are events of a chain, and lead to the
one that is stored. -/
structure Recounts (P : List (NewBlockNotification Tx G) → ChainEvent Tx G → Prop)
    (boot : List (NewBlockNotification Tx G)) (s : NodeState Tx G S) : Prop where
  events : Each chainAfter P s.chain.sent boot
  chain : s.chain.sent.foldl chainAfter boot = s.storage.hot.map announced
  nonempty : s.storage.hot ≠ []

/-- One more event, and the chain it leads to. -/
theorem Recounts.event (h : Recounts P boot s) {e : ChainEvent Tx G}
    (he : P (s.storage.hot.map announced) e) {s' : NodeState Tx G S}
    (hsent : s'.chain.sent = s.chain.sent ++ [e])
    (hchain : chainAfter (s.storage.hot.map announced) e = s'.storage.hot.map announced)
    (hne : s'.storage.hot ≠ []) : Recounts P boot s' := by
  refine ⟨?_, ?_, hne⟩
  · rw [hsent]
    refine each_append.mpr ⟨h.events, ?_, trivial⟩
    rw [h.chain]
    exact he
  · rw [hsent, List.foldl_append, h.chain]
    exact hchain

theorem Recounts.block (hP : Tells X P) (h : Recounts P boot s) {hot : List (ExecutedBlock Tx G S)}
    {x : Extracts H} {b : ExecutedBlock Tx G S} (hran : X.runEvm hot x = .ok b)
    (hnum : b.header.number = s.storage.hot.length) :
    Recounts P boot { notifyNewBlock s b with storage := s.storage.appendBlock b } := by
  refine h.event (e := blockEvent b) (hP.block _ _ _ _ hran ?_) rfl ?_
    (List.append_ne_nil_of_right_ne_nil _ (by simp))
  · rw [List.length_map]
    exact hnum
  · show s.storage.hot.map announced ++ [announced b] = (s.storage.hot ++ [b]).map announced
    rw [List.map_append]
    rfl

/-- **A cut is announced with what cold storage holds of its blocks.** -/
theorem Recounts.cut (hP : Tells X P) (h : Recounts P boot s) (now target : Nat) :
    Recounts P boot (revertTo X now s target) := by
  have hlen := List.length_pos_iff.mpr h.nonempty
  have hne : s.storage.hot.take (target + 1) ≠ [] := by
    rw [← List.length_pos_iff, List.length_take]
    omega
  unfold revertTo
  dsimp only
  by_cases hdrained : (s.storage.drainAbove X.coldLogs target).1.isEmpty = true
  · rw [if_pos hdrained]
    have hnone : s.storage.hot.drop (target + 1) = [] := by
      rw [List.isEmpty_iff] at hdrained
      exact List.map_eq_nil_iff.mp hdrained
    have hsame : s.storage.hot.take (target + 1) = s.storage.hot :=
      List.take_of_length_le (List.drop_eq_nil_iff.mp hnone)
    refine ⟨h.events, ?_, hne⟩
    show s.chain.sent.foldl chainAfter boot = (s.storage.hot.take (target + 1)).map announced
    rw [hsame]
    exact h.chain
  · rw [if_neg hdrained]
    refine h.event (e := .reorg _) ?_ rfl List.map_take.symm hne
    have hcut := hP.cut s.storage.hot target
    unfold UnifiedStorage.drainAbove
    dsimp only
    rw [List.map_map]
    exact hcut

theorem commitLoop_recounts (hN : NumbersBlocks X) (hP : Tells X P) (hF : AppendsSucceed F) :
    ∀ (xs : List (Extracts H)) (i : Nat) (s : NodeState Tx G S),
    Consecutive Extracts.ruHeight xs →
    (∀ x ∈ xs.head?, s.storage.hot.length ≤ x.ruHeight) → Recounts P boot s →
    Recounts P boot (commitLoop X F i xs s).2
  | [], _, _, _, _, h => h
  | x :: xs, i, s, hxs, hhead, h => by
      unfold commitLoop
      cases hp : processBlock X (F.exec i) s.storage.hot x with
      | error e => exact h
      | ok b =>
          obtain ⟨hnum, hheight⟩ := processBlock_number hN h.nonempty (hhead x rfl) hp
          dsimp only
          rw [hF i]
          refine commitLoop_recounts hN hP hF xs (i + 1) _ (hxs.suffix (List.suffix_cons x xs)) ?_
            (h.block hP (processBlock_ran hp).2 hnum)
          intro y hy
          show (s.storage.hot ++ [b]).length ≤ y.ruHeight
          rw [ruHeight_next hxs hy, hheight, List.length_append, List.length_singleton]

theorem Recounts.commitPart (hN : NumbersBlocks X) (hP : Tells X P) (hF : AppendsSucceed F)
    (h : Recounts P boot s) (n : HostNotification C) :
    Recounts P boot (commitPart X F n s).2 := by
  unfold Node.commitPart
  cases n.committedChain with
  | none => exact h
  | some chain =>
      dsimp only
      unfold processCommittedChain readLastRollupBlock
      cases F.commitRead with
      | some m => exact h
      | none =>
          dsimp only
          have hloop : Recounts P boot
              (commitLoop X F 0 (freshExtracts X chain (lastRollupBlock s.storage)) s).2 :=
            commitLoop_recounts hN hP hF _ 0 s (freshExtracts_consecutive hN chain _)
              (fun x hx => freshExtracts_head hx) h
          split
          · rename_i e s' heq
            rw [heq] at hloop
            exact hloop
          · rename_i s' heq
            rw [heq] at hloop
            exact hloop

theorem Recounts.revertPart (hP : Tells X P) (h : Recounts P boot s)
    (n : HostNotification C) : Recounts P boot (revertPart X F n s).2 := by
  cases hcut : revertCut X F n s with
  | none =>
      rw [(revertPart_uncut hcut).1]
      exact h
  | some target =>
      rw [revertPart_cut hcut]
      exact h.cut hP F.now target

/-- **A notification whose appends succeed is recounted**, however it ends. -/
theorem Recounts.handled (hN : NumbersBlocks X) (hP : Tells X P) (hF : AppendsSucceed F)
    (h : Recounts P boot s) (n : HostNotification C) :
    Recounts P boot (handleNotification X F n s).2 := by
  have hall : Recounts P boot (onNotification X F n s).2 :=
    onNotification_invariant (h.revertPart hP n) (fun _ h₁ => h₁.commitPart hN hP hF n)
      fun _ _ h₁ => ⟨h₁.events, h₁.chain, h₁.nonempty⟩
  unfold handleNotification
  cases honn : onNotification X F n s with
  | mk res s₁ =>
  rw [honn] at hall
  cases res with
  | error e => exact hall
  | ok changed =>
  dsimp only
  split
  · unfold readLastRollupBlock
    cases F.tagsRead with
    | some m => exact hall
    | none =>
        dsimp only
        unfold updateBlockTags
        dsimp only
        split
        · cases F.sendFinished <;> exact ⟨hall.events, hall.chain, hall.nonempty⟩
        · exact ⟨hall.events, hall.chain, hall.nonempty⟩
  · exact hall

/-! ## The subscription -/

/-- A live node and one subscription: the events broadcast and not received yet, how many the
receiver lost since it last received, the task, and the chain announced before it was
spawned. -/
structure SubscribedNode (Tx G S : Type) where
  live : LiveNode Tx G S
  queue : List (ChainEvent Tx G)
  missed : Nat
  task : SubscriptionTask G
  base : List (NewBlockNotification Tx G)

inductive SubscribedMove (C : Type) where
  | take (n : HostNotification C) (F : Faults)
  | effect
  /-- The client subscribes, and drops the subscription it had. -/
  | subscribe
  /-- The task receives from the channel. -/
  | recv
  /-- The client's channel grants permits. -/
  | permits (k : Nat)

/-- The broadcast channel drops its oldest event to make room. -/
def SubscribedNode.effect (X : Externals C H Tx G S) (genesis : ExecutedBlock Tx G S)
    (capacity : Nat) (w : SubscribedNode Tx G S) : SubscribedNode Tx G S :=
  let live := (liveStep X genesis .effect w.live).2
  match w.live.pending with
  | .broadcast event :: _ =>
    if w.queue.length < capacity then { w with live := live, queue := w.queue ++ [event] }
    else { w with live := live, queue := (w.queue ++ [event]).tail, missed := w.missed + 1 }
  | _ => { w with live := live }

def SubscribedNode.subscribe (boot : List (NewBlockNotification Tx G)) (kind : InterestKind G)
    (w : SubscribedNode Tx G S) : SubscribedNode Tx G S :=
  { w with
    queue := []
    missed := 0
    task := SubscriptionTask.spawned kind
    base := w.live.state.chain.sent.foldl chainAfter boot }

/-- A receiver that lost events is told so first. -/
def SubscribedNode.recv (txHash : Tx → B256) (w : SubscribedNode Tx G S) :
    SubscribedNode Tx G S :=
  if 0 < w.missed then
    { w with missed := 0, task := (taskStep txHash (.lagged w.missed) w.task).2 }
  else
    match w.queue with
    | [] => w
    | event :: queue => { w with queue := queue, task := (taskStep txHash (.recv event) w.task).2 }

def subscribedStep (X : Externals C H Tx G S) (genesis : ExecutedBlock Tx G S) (txHash : Tx → B256)
    (boot : List (NewBlockNotification Tx G)) (kind : InterestKind G) (capacity : Nat) :
    SubscribedMove C → SubscribedNode Tx G S → Option Empty × SubscribedNode Tx G S
  | .take n F, w => (none, { w with live := (liveStep X genesis (.take n F) w.live).2 })
  | .effect, w => (none, w.effect X genesis capacity)
  | .subscribe, w => (none, w.subscribe boot kind)
  | .recv, w => (none, w.recv txHash)
  | .permits k, w => (none, { w with task := (taskStep txHash (.permits (some k)) w.task).2 })

/-- The stored chain a node starts from, as a subscriber is told of it. -/
def bootChain (genesis : ExecutedBlock Tx G S) (st : UnifiedStorage Tx G S) :
    List (NewBlockNotification Tx G) := (startStorage genesis st).hot.map announced

/-- A node was just started, and a client subscribes. -/
def SubscribedNode.booted (genesis : ExecutedBlock Tx G S) (st : UnifiedStorage Tx G S)
    (kind : InterestKind G) : SubscribedNode Tx G S :=
  ⟨LiveNode.booted genesis st [], [], 0, SubscriptionTask.spawned kind, bootChain genesis st⟩

/-- No append of a notification fails. -/
def Appending : SubscribedMove C → SubscribedNode Tx G S → Prop
  | .take _ F, _ => AppendsSucceed F
  | _, _ => True

/-- The channel has room for each event. -/
def KeepsUp (capacity : Nat) : SubscribedMove C → SubscribedNode Tx G S → Prop
  | .effect, w => w.queue.length < capacity
  | _, _ => True

instance decidableKeepsUp (capacity : Nat) : ∀ (m : SubscribedMove C) (w : SubscribedNode Tx G S),
    Decidable (KeepsUp capacity m w)
  | .effect, w => inferInstanceAs (Decidable (w.queue.length < capacity))
  | .take _ _, _ | .subscribe, _ | .recv, _ | .permits _, _ => isTrue trivial

/-! ## The invariant -/

/-- What the subscription was told are the events since it was spawned, up to those still in the
channel. -/
structure SubscribedInv (P : List (NewBlockNotification Tx G) → ChainEvent Tx G → Prop)
    (txHash : Tx → B256) (boot : List (NewBlockNotification Tx G)) (kind : InterestKind G)
    (w : SubscribedNode Tx G S) : Prop where
  /-- Once the notification in hand is handled, the events lead to what is stored. -/
  recounts : Recounts P boot (w.live.pending.foldl NodeState.after w.live.state)
  told : ∃ before es, w.live.state.chain.sent = before ++ (es ++ w.queue)
    ∧ w.base = before.foldl chainAfter boot ∧ TaskRun txHash kind es w.task
  missed : w.missed = 0
  running : w.task.status = .running

variable {kind : InterestKind G} {w : SubscribedNode Tx G S} {capacity : Nat}

/-- Effects only add to what was sent. -/
theorem sent_kept : ∀ (es : List (Effect Tx G S)) (s : NodeState Tx G S),
    s.chain.sent <+: (es.foldl NodeState.after s).chain.sent
  | [], _ => List.prefix_refl _
  | e :: es, s => by
      have hstep : s.chain.sent <+: (s.after e).chain.sent := by
        cases e with
        | broadcast event => exact List.prefix_append _ _
        | sendFinished height refused => cases refused <;> exact List.prefix_refl _
        | append b => exact List.prefix_refl _
        | drain height => exact List.prefix_refl _
        | tag w => exact List.prefix_refl _
        | pushReorg now notif => exact List.prefix_refl _
        | status height => exact List.prefix_refl _
      exact hstep.trans (sent_kept es (s.after e))

/-- What was sent so far are events of a chain. -/
theorem SubscribedInv.events (h : SubscribedInv P txHash boot kind w) :
    Each chainAfter P w.live.state.chain.sent boot := by
  obtain ⟨later, hlater⟩ := sent_kept w.live.pending w.live.state
  have hall := h.recounts.events
  rw [← hlater] at hall
  exact (each_append.mp hall).1

/-- The filter does not panic on such events. -/
def Filters (P : List (NewBlockNotification Tx G) → ChainEvent Tx G → Prop) (txHash : Tx → B256)
    (kind : InterestKind G) : Prop :=
  ∀ chain e, P chain e → ∃ output, kind.filterEvent txHash e = .ok output

theorem filters_log {filter : G → Bool} : Filters (Announces txHash) txHash (.log filter) :=
  fun _ _ he => ⟨_, filterEvent_announced he⟩

theorem filters_block : Filters P txHash .block :=
  fun _ e _ => by cases e <;> exact ⟨_, rfl⟩

/-- A task of a chain goes on running. -/
theorem receive_running {es : List (ChainEvent Tx G)} {t : SubscriptionTask G}
    (hrun : TaskRun txHash kind es t) (hstatus : t.status = .running) {e : ChainEvent Tx G}
    (he : ∃ output, kind.filterEvent txHash e = .ok output) :
    (t.receive txHash e).status = .running := by
  have hdelivering := hrun.delivering
  obtain ⟨output, hout⟩ := he
  unfold SubscriptionTask.receive
  rw [hdelivering.filter, hout]
  dsimp only
  unfold SubscriptionTask.queue
  split
  · exact hstatus
  · obtain ⟨c, hc, _, _⟩ := extend_holds hdelivering.holds (filterEvent_holds hout)
    rw [hc]
    exact hstatus

/-! ## Moves -/

theorem SubscribedInv.take (hN : NumbersBlocks X) (hP : Tells X P)
    (h : SubscribedInv P txHash boot kind w) (n : HostNotification C) {F : Faults}
    (hF : AppendsSucceed F) :
    SubscribedInv P txHash boot kind
      { w with live := (liveStep X genesis (.take n F) w.live).2 } := by
  obtain ⟨⟨s, pending, ended, reported, written⟩, queue, missed, task, base⟩ := w
  cases pending with
  | cons e es => cases ended <;> exact h
  | nil =>
      cases ended with
      | true => exact h
      | false =>
          have hrec : Recounts P boot s := h.recounts
          refine ⟨?_, h.told, h.missed, h.running⟩
          show Recounts P boot ((handleEffects X F n s).foldl NodeState.after s)
          rw [handleEffects_state]
          exact hrec.handled hN hP hF n

theorem SubscribedInv.effect (h : SubscribedInv P txHash boot kind w)
    (hroom : w.queue.length < capacity) :
    SubscribedInv P txHash boot kind (w.effect X genesis capacity) := by
  obtain ⟨⟨s, pending, ended, reported, written⟩, queue, missed, task, base⟩ := w
  cases pending with
  | nil => exact h
  | cons e es =>
      obtain ⟨before, received, hsent, hbase, hrun⟩ := h.told
      cases e with
      | broadcast event =>
          unfold SubscribedNode.effect
          dsimp only
          rw [if_pos hroom]
          refine ⟨h.recounts, ⟨before, received, ?_, hbase, hrun⟩, h.missed, h.running⟩
          show s.chain.sent ++ [event] = before ++ (received ++ (queue ++ [event]))
          rw [show s.chain.sent = before ++ (received ++ queue) from hsent]
          simp
      | append b => exact ⟨h.recounts, h.told, h.missed, h.running⟩
      | drain height => exact ⟨h.recounts, h.told, h.missed, h.running⟩
      | tag w => exact ⟨h.recounts, h.told, h.missed, h.running⟩
      | pushReorg now notif => exact ⟨h.recounts, h.told, h.missed, h.running⟩
      | status height => exact ⟨h.recounts, h.told, h.missed, h.running⟩
      | sendFinished height refused =>
          refine ⟨h.recounts, ⟨before, received, ?_, hbase, hrun⟩, h.missed, h.running⟩
          cases refused <;> exact hsent

/-- **The client subscribes**: what was announced before is its base. -/
theorem SubscribedInv.subscribe (h : SubscribedInv P txHash boot kind w) :
    SubscribedInv P txHash boot kind (w.subscribe boot kind) :=
  ⟨h.recounts, ⟨w.live.state.chain.sent, [], by simp [SubscribedNode.subscribe], rfl, Run.start⟩,
    rfl, rfl⟩

theorem SubscribedInv.recv (hfilters : Filters P txHash kind)
    (h : SubscribedInv P txHash boot kind w) :
    SubscribedInv P txHash boot kind (w.recv txHash) := by
  obtain ⟨before, es, hsent, hbase, hrun⟩ := h.told
  unfold SubscribedNode.recv
  rw [if_neg (by rw [h.missed]; exact Nat.lt_irrefl 0)]
  cases hqueue : w.queue with
  | nil => exact h
  | cons event queue =>
      rw [hqueue] at hsent
      have hevents := h.events
      rw [hsent, ← List.append_assoc] at hevents
      have hnext := Run.next (.recv event) hrun trivial
      have hstep : taskStep txHash (.recv event) w.task
          = (some event, w.task.receive txHash event) := by
        unfold taskStep
        rw [h.running]
      rw [show (taskStep txHash (.recv event) w.task).1 = some event by rw [hstep],
        Option.toList_some] at hnext
      dsimp only
      refine ⟨h.recounts, ⟨before, es ++ [event], ?_, hbase, hnext⟩, h.missed, ?_⟩
      · show w.live.state.chain.sent = before ++ (es ++ [event] ++ queue)
        rw [hsent]
        simp
      · show (taskStep txHash (.recv event) w.task).2.status = .running
        rw [hstep]
        exact receive_running hrun h.running (hfilters _ _ (each_append.mp hevents).2.1)

theorem SubscribedInv.permits (h : SubscribedInv P txHash boot kind w) (k : Nat) :
    SubscribedInv P txHash boot kind
      { w with task := (taskStep txHash (.permits (some k)) w.task).2 } := by
  obtain ⟨before, es, hsent, hbase, hrun⟩ := h.told
  have hnext := Run.next (.permits (some k)) hrun trivial
  have hstep : (taskStep txHash (.permits (some k)) w.task).1 = none
      ∧ (taskStep txHash (.permits (some k)) w.task).2.status = .running := by
    unfold taskStep
    rw [h.running]
    dsimp only
    split
    · exact ⟨rfl, h.running⟩
    · exact ⟨rfl, by rw [sendPermits_status]; exact h.running⟩
  rw [hstep.1, Option.toList_none, List.append_nil] at hnext
  exact ⟨h.recounts, ⟨before, es, hsent, hbase, hnext⟩, h.missed, hstep.2⟩

/-- **Every move keeps the invariant**, one case for each kind. -/
theorem subscribedInv_step (hN : NumbersBlocks X) (hP : Tells X P)
    (hfilters : Filters P txHash kind) (h : SubscribedInv P txHash boot kind w)
    (m : SubscribedMove C) (hF : Appending m w) (hroom : KeepsUp capacity m w) :
    SubscribedInv P txHash boot kind
      (subscribedStep X genesis txHash boot kind capacity m w).2 := by
  cases m with
  | take n F => exact h.take hN hP n hF
  | effect => exact h.effect hroom
  | subscribe => exact h.subscribe
  | recv => exact h.recv hfilters
  | permits k => exact h.permits k

/-- Runs of a node and a subscription whose appends succeed and whose channel has room. -/
abbrev SubscribedRun (X : Externals C H Tx G S) (genesis : ExecutedBlock Tx G S)
    (st : UnifiedStorage Tx G S) (txHash : Tx → B256) (kind : InterestKind G) (capacity : Nat)
    (w : SubscribedNode Tx G S) : Prop :=
  ∃ os, Run (subscribedStep X genesis txHash (bootChain genesis st) kind capacity)
    (fun m w => Appending m w ∧ KeepsUp capacity m w) (SubscribedNode.booted genesis st kind) os w

/-- Everything was sent to the client, and no notification is in hand. -/
structure Drained (w : SubscribedNode Tx G S) : Prop where
  handled : w.live.pending = []
  received : w.queue = []
  sent : w.task.notifBuffer.items = []

/-- **What a drained client was sent**: the items of events that lead from its base to the
stored chain. -/
theorem drained_events (hN : NumbersBlocks X) (hP : Tells X P) (hfilters : Filters P txHash kind)
    (hrun : SubscribedRun X genesis st txHash kind capacity w) (hdrained : Drained w) :
    ∃ es, Each chainAfter P es w.base
      ∧ es.foldl chainAfter w.base = w.live.state.storage.hot.map announced
      ∧ w.task.sent = es.flatMap (eventItems txHash kind) := by
  obtain ⟨os, hrun⟩ := hrun
  have hne : (startStorage genesis st).hot ≠ [] := (level_startStorage genesis st).1
  have hstart : SubscribedInv P txHash (bootChain genesis st) kind
      (SubscribedNode.booted genesis st kind) :=
    ⟨⟨trivial, rfl, hne⟩, ⟨[], [], rfl, rfl, Run.start⟩, rfl, rfl⟩
  have hinv : SubscribedInv P txHash (bootChain genesis st) kind w := by
    refine hrun.invariant (I := fun _ w => SubscribedInv P txHash (bootChain genesis st) kind w)
      hstart ?_
    rintro m _ w hw ⟨hF, hroom⟩
    exact subscribedInv_step hN hP hfilters hw m hF hroom
  obtain ⟨before, es, hsent, hbase, htask⟩ := hinv.told
  have hrec := hinv.recounts
  rw [hdrained.handled] at hrec
  rw [hdrained.received, List.append_nil] at hsent
  have hevents := hrec.events
  have hchain := hrec.chain
  rw [List.foldl_nil, hsent] at hevents
  rw [List.foldl_nil, hsent, List.foldl_append, ← hbase] at hchain
  refine ⟨es, ?_, hchain, ?_⟩
  · rw [hbase]
    exact (each_append.mp hevents).2
  · have hitems := htask.delivering.items
    rwa [hdrained.sent, List.append_nil] at hitems

/-! ## Log subscriptions -/

/--
**A log subscriber follows the stored chain.** A node handles any notifications effect by
effect, with any faults but failing appends, and a client subscribes at any time, its
channel granting any permits. If the broadcast channel has room for each event, then a
client that applies all it was sent to the matching logs announced before it subscribed
holds, once everything is sent and no notification is in hand, exactly the matching logs
of the stored chain.
-/
theorem log_subscriber_follows_node [DecidableEq G] (hN : NumbersBlocks X)
    (hX : ReportsLogs txHash X) {filter : G → Bool}
    (hrun : SubscribedRun X genesis st txHash (.log filter) capacity w) (hdrained : Drained w) :
    w.task.sent.foldl applyItem (Multiset.ofList (matchingLogs txHash filter w.base))
      = Multiset.ofList
          (matchingLogs txHash filter (w.live.state.storage.hot.map announced)) := by
  obtain ⟨es, hevents, hchain, hsent⟩ := drained_events hN hX.tells filters_log hrun hdrained
  rw [hsent, foldl_items hevents, hchain]

theorem rangeExternals_reports (deploy : Nat) :
    ReportsLogs (BitVec.ofNat 256) (rangeExternals deploy) := by
  refine ⟨fun b => List.append_nil _, fun hot x b hb => ?_⟩
  rw [← Except.ok.inj hb]
  exact Nat.le_refl 1

/-- Two blocks are committed, and the second is replaced. -/
def commitThenReorg : List (SubscribedMove (Nat × Nat × Nat)) :=
  [.take ⟨.chainCommitted (1, 2, 0), none, none⟩ (Faults.none 0)] ++ List.replicate 3 .effect
    ++ [.subscribe] ++ List.replicate 5 .effect
    ++ [.take ⟨.chainReorged ⟨102, 102, by decide, by decide⟩ (2, 1, 7), none, none⟩
      (Faults.none 2)] ++ List.replicate 6 .effect
    ++ [.recv, .permits 2] ++ List.replicate 6 .effect ++ [.recv, .permits 1]

theorem commitThenReorg_appending :
    ∀ m ∈ commitThenReorg, ∀ w : SubscribedNode Nat Nat Unit, Appending m w := by
  intro m hm w
  cases m with
  | take n F =>
      have hF : F = Faults.none 0 ∨ F = Faults.none 2 := by
        simp only [commitThenReorg, List.mem_append, List.mem_cons, List.mem_replicate,
          SubscribedMove.take.injEq, List.not_mem_nil, reduceCtorEq, and_false, or_false]
          at hm
        exact hm.imp And.right And.right
      rcases hF with rfl | rfl <;> exact fun _ => rfl
  | effect => exact trivial
  | subscribe => exact trivial
  | recv => exact trivial
  | permits k => exact trivial

/-- A node on which the moves are made, with a subscription of the kind. -/
def smallNode (kind : InterestKind Nat) : SubscribedNode Nat Nat Unit :=
  (runInputs (subscribedStep (rangeExternals 100) (rangeBlock 0 0) (BitVec.ofNat 256)
    (bootChain (rangeBlock 0 0) ⟨[], []⟩) kind 2) commitThenReorg
    (SubscribedNode.booted (rangeBlock 0 0) ⟨[], []⟩ kind)).2

theorem smallNode_run (kind : InterestKind Nat)
    (hroom : Admits (subscribedStep (rangeExternals 100) (rangeBlock 0 0) (BitVec.ofNat 256)
      (bootChain (rangeBlock 0 0) ⟨[], []⟩) kind 2) (KeepsUp 2) commitThenReorg
      (SubscribedNode.booted (rangeBlock 0 0) ⟨[], []⟩ kind)) :
    SubscribedRun (rangeExternals 100) (rangeBlock 0 0) ⟨[], []⟩ (BitVec.ofNat 256) kind 2
      (smallNode kind) :=
  ⟨_, runInputs_run commitThenReorg _
    (admits_and (admits_of_forall commitThenReorg_appending) hroom)⟩

/-- The client subscribes when two blocks were announced, and is told that the second is
replaced. -/
theorem log_subscriber_follows_node_reorg :
    let w := smallNode (.log fun _ => true)
    w.task.sent = [.log { rangeLog 2 0 with removed := true }, .log (rangeLog 2 7)]
      ∧ w.task.sent.foldl applyItem (Multiset.ofList
          (matchingLogs (BitVec.ofNat 256) (fun _ => true) w.base))
        = Multiset.ofList (matchingLogs (BitVec.ofNat 256) (fun _ => true)
          (w.live.state.storage.hot.map announced)) := by
  intro w
  have hrun := smallNode_run (.log fun _ => true) (by decide +kernel)
  have hdrained : Drained w := ⟨by decide +kernel, by decide +kernel, by decide +kernel⟩
  exact ⟨by decide +kernel, log_subscriber_follows_node (rangeExternals_numbers 100)
    (rangeExternals_reports 100) hrun hdrained⟩

/-! ## Subscriptions to new heads -/

/-- A client that puts a head at its number, in place of what was there and above. -/
def applyHead (chain : List Header) : EventItem RpcHeader G → List Header
  | .block head => chain.take head.inner.number ++ [head.inner]
  | .log _ => chain

/-- The client's chain starts with the headers of the chain. -/
def HeadsOf (chain : List (NewBlockNotification Tx G)) (heads : List Header) : Prop :=
  heads.take chain.length = chain.map NewBlockNotification.header

/-- **One event**: a head overwrites what a reorg left behind. -/
theorem headsOf_event {chain : List (NewBlockNotification Tx G)} {heads : List Header}
    (h : HeadsOf chain heads) {e : ChainEvent Tx G} (he : Numbers chain e) :
    HeadsOf (chainAfter chain e) ((eventItems txHash .block e).foldl applyHead heads) := by
  have h : heads.take chain.length = chain.map NewBlockNotification.header := h
  cases e with
  | newBlock b =>
      show (heads.take b.header.number ++ [b.header]).take (chain ++ [b]).length
        = (chain ++ [b]).map NewBlockNotification.header
      rw [show b.header.number = chain.length from he, h, List.map_append]
      exact List.take_of_length_le (by simp)
  | reorg n =>
      show heads.take (chain.take (n.commonAncestor + 1)).length
        = (chain.take (n.commonAncestor + 1)).map NewBlockNotification.header
      rw [List.map_take, ← h, List.take_take, List.length_take]

theorem headsOf_events : ∀ (es : List (ChainEvent Tx G)) {chain : List (NewBlockNotification Tx G)}
    {heads : List Header}, HeadsOf chain heads → Each chainAfter Numbers es chain →
    HeadsOf (es.foldl chainAfter chain)
      ((es.flatMap (eventItems txHash .block)).foldl applyHead heads)
  | [], _, _, h, _ => h
  | e :: es, _, _, h, hes => by
      rw [List.flatMap_cons, List.foldl_append]
      exact headsOf_events es (headsOf_event h hes.1) hes.2

/-- Events are turned into heads or into nothing, never into a removal. -/
theorem eventItems_heads {es : List (ChainEvent Tx G)} :
    ∀ item ∈ es.flatMap (eventItems txHash .block), ∃ head, item = .block head := by
  intro item hitem
  obtain ⟨e, _, he⟩ := List.mem_flatMap.mp hitem
  cases e with
  | newBlock b => exact ⟨_, List.mem_singleton.mp he⟩
  | reorg n => cases he

/--
**A subscriber to new heads can tell the stored chain.** In the same runs as for log
subscriptions, a client that starts from the headers announced before it subscribed and
puts each head at its number, dropping what was there and above, holds the headers of the
stored chain up to its height. Above it may still hold heads of a reorg that replaced them
by nothing. All it is sent are heads; cold storage plays no part.
-/
theorem head_subscriber_follows_node (hN : NumbersBlocks X)
    (hrun : SubscribedRun X genesis st txHash .block capacity w) (hdrained : Drained w) :
    (∀ item ∈ w.task.sent, ∃ head, item = .block head)
      ∧ (w.task.sent.foldl applyHead (w.base.map NewBlockNotification.header)).take
          w.live.state.storage.hot.length
        = w.live.state.storage.hot.map ExecutedBlock.header := by
  obtain ⟨es, hevents, hchain, hsent⟩ := drained_events hN tells_numbers filters_block hrun hdrained
  refine ⟨?_, ?_⟩
  · rw [hsent]
    exact eventItems_heads
  · have hbase : HeadsOf w.base (w.base.map NewBlockNotification.header) :=
      List.take_of_length_le (by rw [List.length_map])
    have hheads : HeadsOf (es.foldl chainAfter w.base)
        ((es.flatMap (eventItems txHash .block)).foldl applyHead
          (w.base.map NewBlockNotification.header)) := headsOf_events es hbase hevents
    rw [hchain, ← hsent] at hheads
    unfold HeadsOf at hheads
    rw [List.length_map, List.map_map] at hheads
    exact hheads

/-- The client is sent one head, of the block that replaces the second. -/
theorem head_subscriber_follows_node_reorg :
    let w := smallNode .block
    w.task.sent.length = 1 ∧ (∀ item ∈ w.task.sent, ∃ head, item = .block head)
      ∧ (w.task.sent.foldl applyHead (w.base.map NewBlockNotification.header)).take
          w.live.state.storage.hot.length
        = w.live.state.storage.hot.map ExecutedBlock.header := by
  intro w
  have hrun := smallNode_run .block (by decide +kernel)
  have hdrained : Drained w := ⟨by decide +kernel, by decide +kernel, by decide +kernel⟩
  exact ⟨by decide +kernel,
    head_subscriber_follows_node (rangeExternals_numbers 100) hrun hdrained⟩

end NodeComponents.Node
