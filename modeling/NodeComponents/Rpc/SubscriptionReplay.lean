import Mathlib.Algebra.GroupWithZero.Nat
import NodeComponents.Lib.Effects
import NodeComponents.Rpc.Replay
import NodeComponents.Rpc.Subscriptions

/-!
# The replay law of a log subscription

Two paths of the source put logs on the wire: new blocks are read from their
receipts, removals from the RPC logs a reorg notification carries. A client can pair
the two only if both number the logs of a block alike, over the whole block and not
over what its filter lets through.

Then a removal takes back exactly what was delivered, and a client that applies
everything it is sent holds the matching logs of the chain.
-/

namespace NodeComponents.Rpc

open Lib

variable {G Tx : Type} {txHash : Tx → B256} {filter : G → Bool}

/-! ## The logs of a block -/

/-- The RPC logs of some transactions with their receipts, the first being transaction `i`
and its first log being log `j` of the block. -/
def rpcLogsFrom (txHash : Tx → B256) (header : Header) :
    Nat → Nat → List (Tx × Receipt G) → List (Log G)
  | _, _, [] => []
  | i, j, (tx, receipt) :: rest =>
    (receipt.logs.zipIdx j).map (fun e =>
      ⟨e.1, some header.hash, some header.number, some header.timestamp, some (txHash tx), some i,
        some e.2, false⟩)
      ++ rpcLogsFrom txHash header (i + 1) (j + receipt.logs.length) rest

/-- The full RPC logs of a block. -/
def NewBlockNotification.rpcLogs (txHash : Tx → B256) (b : NewBlockNotification Tx G) :
    List (Log G) := rpcLogsFrom txHash b.header 0 0 (b.transactions.zip b.receipts)

/-- The RPC logs of a block that a filter matches. -/
def NewBlockNotification.matching (txHash : Tx → B256) (filter : G → Bool)
    (b : NewBlockNotification Tx G) : List (Log G) :=
  (b.rpcLogs txHash).filter fun log => filter log.inner

/-- Where a log is in its block: it is the `p`-th log of transaction `i`, and so many logs of
the block come before it. -/
def LocatedAt (txHash : Tx → B256) (b : NewBlockNotification Tx G) (k : Nat) (log : Log G) : Prop :=
  log.logIndex = some k ∧ ∃ i p tx receipt, b.transactions[i]? = some tx
    ∧ b.receipts[i]? = some receipt ∧ receipt.logs[p]? = some log.inner
    ∧ k = ((b.receipts.take i).map fun r => r.logs.length).sum + p
    ∧ log.transactionIndex = some i ∧ log.transactionHash = some (txHash tx)
    ∧ log.removed = false

theorem rpcLogsFrom_getElem? {header : Header} :
    ∀ (pairs : List (Tx × Receipt G)) (i j k : Nat) {log : Log G},
      (rpcLogsFrom txHash header i j pairs)[k]? = some log →
      log.logIndex = some (j + k) ∧ ∃ m p tx receipt, pairs[m]? = some (tx, receipt)
        ∧ receipt.logs[p]? = some log.inner
        ∧ k = ((pairs.take m).map fun e => e.2.logs.length).sum + p
        ∧ log.transactionIndex = some (i + m) ∧ log.transactionHash = some (txHash tx)
        ∧ log.removed = false
  | [], i, j, k, log, h => absurd h (by simp [rpcLogsFrom])
  | (tx, receipt) :: rest, i, j, k, log, h => by
      unfold rpcLogsFrom at h
      rw [List.getElem?_append, List.length_map, List.length_zipIdx] at h
      by_cases hk : k < receipt.logs.length
      · rw [if_pos hk, List.getElem?_map, List.getElem?_zipIdx] at h
        obtain ⟨e, he, rfl⟩ := Option.map_eq_some_iff.mp h
        obtain ⟨inner, hinner, rfl⟩ := Option.map_eq_some_iff.mp he
        exact ⟨rfl, 0, k, tx, receipt, rfl, hinner, by simp, rfl, rfl, rfl⟩
      · rw [if_neg hk] at h
        obtain ⟨hindex, m, p, tx', receipt', hpair, hinner, hsum, hi, htx⟩ :=
          rpcLogsFrom_getElem? rest (i + 1) (j + receipt.logs.length) (k - receipt.logs.length) h
        refine ⟨?_, m + 1, p, tx', receipt', hpair, hinner, ?_, ?_, htx⟩
        · rw [hindex]
          congr 1
          omega
        · rw [List.take_succ_cons, List.map_cons, List.sum_cons]
          dsimp only
          omega
        · rw [hi]
          congr 1
          omega

/-- **The unfiltered block numbers its logs** through all of its receipts. -/
theorem rpcLogs_located {b : NewBlockNotification Tx G} {k : Nat} {log : Log G}
    (h : (b.rpcLogs txHash)[k]? = some log) : LocatedAt txHash b k log := by
  obtain ⟨hindex, i, p, tx, receipt, hpair, hinner, hsum, hi, htx⟩ :=
    rpcLogsFrom_getElem? _ 0 0 k h
  rw [Nat.zero_add] at hindex hi
  rw [List.getElem?_zip_eq_some] at hpair
  refine ⟨hindex, i, p, tx, receipt, hpair.1, hpair.2, hinner, ?_, hi, htx⟩
  have hlt := (List.getElem?_eq_some_iff.mp hpair.1).1
  have htake : ((b.transactions.zip b.receipts).take i).map Prod.snd = b.receipts.take i := by
    rw [List.zip_eq_zipWith, List.take_zipWith, ← List.zip_eq_zipWith]
    refine List.map_snd_zip ?_
    rw [List.length_take, List.length_take]
    omega
  rw [hsum, ← htake, List.map_map]
  rfl

/-! ## The two paths -/

/-- The logs of the receipts, numbered through the block, are its RPC logs. -/
theorem locateLogs_rpcLogs (txHash : Tx → B256) (header : Header) {transactions : List Tx} :
    ∀ (receipts : List (Receipt G)) (i j : Nat),
      receipts.length + i ≤ transactions.length →
      ∃ located, locateLogs txHash transactions i receipts = .ok located
        ∧ (located.zipIdx j).map (fun e => Log.mk e.1.2.2 (some header.hash) (some header.number)
            (some header.timestamp) (some e.1.2.1) (some e.1.1) (some e.2) false)
          = rpcLogsFrom txHash header i j ((transactions.drop i).zip receipts)
  | [], i, j, _ => ⟨[], rfl, by rw [List.zip_nil_right]; rfl⟩
  | receipt :: rest, i, j, hlen => by
      rw [List.length_cons] at hlen
      have hrest : rest.length + (i + 1) ≤ transactions.length := by omega
      obtain ⟨later, hlater, hlogs⟩ :=
        locateLogs_rpcLogs txHash header rest (i + 1) (j + receipt.logs.length) hrest
      have hi : i < transactions.length := by omega
      unfold locateLogs
      rw [List.getElem?_eq_getElem hi, hlater]
      refine ⟨_, rfl, ?_⟩
      rw [List.drop_eq_getElem_cons hi, List.zip_cons_cons, rpcLogsFrom, List.zipIdx_append,
        List.map_append, List.length_map, hlogs, List.zipIdx_map, List.map_map]
      congr 1

/-- **A new block** puts its matching logs on the wire, as the unfiltered block numbers them. -/
theorem filterEvent_newBlock {b : NewBlockNotification Tx G}
    (hb : b.receipts.length ≤ b.transactions.length) :
    (InterestKind.log filter).filterEvent txHash (.newBlock b)
      = .ok (.log (b.matching txHash filter)) := by
  obtain ⟨located, hlocated, hlogs⟩ := locateLogs_rpcLogs txHash b.header b.receipts 0 0 hb
  show (InterestKind.log filter).applyFilter txHash b = _
  unfold InterestKind.applyFilter InterestKind.asFilter
  rw [hlocated]
  unfold NewBlockNotification.matching NewBlockNotification.rpcLogs
  rw [← List.drop_zero (l := b.transactions), ← hlogs, List.filter_map]
  rfl

/-- The log that takes another one back. -/
def Log.flag (log : Log G) : Log G := { log with removed := true }

/-- The blocks of a chain above a height, as a reorg notification carries them. -/
def reorgAbove (txHash : Tx → B256) (chain : List (NewBlockNotification Tx G)) (ancestor : Nat) :
    ReorgNotification G :=
  ⟨ancestor, (chain.drop (ancestor + 1)).map fun b =>
    ⟨b.header.number, b.header.hash, b.header.timestamp, b.rpcLogs txHash⟩⟩

/-- The matching logs of some blocks. -/
def matchingLogs (txHash : Tx → B256) (filter : G → Bool)
    (chain : List (NewBlockNotification Tx G)) : List (Log G) :=
  chain.flatMap fun b => b.matching txHash filter

/-- **A reorg** puts what its blocks put on the wire there again, flagged as removed. -/
theorem filterReorgForSub_reorgAbove (chain : List (NewBlockNotification Tx G)) (ancestor : Nat) :
    (InterestKind.log filter).filterReorgForSub (reorgAbove txHash chain ancestor)
      = .log ((matchingLogs txHash filter (chain.drop (ancestor + 1))).map Log.flag) := by
  unfold InterestKind.filterReorgForSub InterestKind.asFilter matchingLogs reorgAbove
  dsimp only
  rw [List.flatMap_map, List.filter_flatMap]
  rfl

theorem matching_removed {b : NewBlockNotification Tx G} :
    ∀ log ∈ b.matching txHash filter, log.removed = false := by
  intro log hlog
  obtain ⟨k, hk⟩ := List.mem_iff_getElem?.mp (List.mem_filter.mp hlog).1
  obtain ⟨_, _, _, _, _, _, _, _, _, _, _, hlive⟩ := rpcLogs_located hk
  exact hlive

/-! ## The chain a subscriber is told of -/

/-- What an event does to the chain. -/
def chainAfter (chain : List (NewBlockNotification Tx G)) :
    ChainEvent Tx G → List (NewBlockNotification Tx G)
  | .newBlock b => chain ++ [b]
  | .reorg n => chain.take (n.commonAncestor + 1)

/-- The event is one of the chain: a block of the next height, whose receipts have
transactions, or the removal of the blocks above a height with their full RPC logs. -/
def Announces (txHash : Tx → B256) (chain : List (NewBlockNotification Tx G)) :
    ChainEvent Tx G → Prop
  | .newBlock b => b.header.number = chain.length ∧ b.receipts.length ≤ b.transactions.length
  | .reorg n => n = reorgAbove txHash chain n.commonAncestor

/-- What an event of the chain puts on the wire. -/
def announced (txHash : Tx → B256) (filter : G → Bool) (chain : List (NewBlockNotification Tx G)) :
    ChainEvent Tx G → List (Log G)
  | .newBlock b => b.matching txHash filter
  | .reorg n => (matchingLogs txHash filter (chain.drop (n.commonAncestor + 1))).map Log.flag

theorem filterEvent_announced {chain : List (NewBlockNotification Tx G)} {e : ChainEvent Tx G}
    (he : Announces txHash chain e) :
    (InterestKind.log filter).filterEvent txHash e
      = .ok (.log (announced txHash filter chain e)) := by
  cases e with
  | newBlock b => exact filterEvent_newBlock he.2
  | reorg n =>
      show Except.ok ((InterestKind.log filter).filterReorgForSub n) = _
      rw [show n = reorgAbove txHash chain n.commonAncestor from he, filterReorgForSub_reorgAbove]
      rfl

theorem eventItems_announced {chain : List (NewBlockNotification Tx G)} {e : ChainEvent Tx G}
    (he : Announces txHash chain e) :
    eventItems txHash (.log filter) e = (announced txHash filter chain e).map .log := by
  unfold eventItems
  rw [filterEvent_announced he]
  rfl

/-- A client that keeps the logs it is sent, and drops those taken back. -/
def applyItem [DecidableEq G] (held : Multiset (Log G)) :
    EventItem RpcHeader G → Multiset (Log G)
  | .log log => applyLog held log
  | .block _ => held

/-- **One event** takes a client from the matching logs of one chain to those of the next. -/
theorem foldl_announced [DecidableEq G] {chain : List (NewBlockNotification Tx G)}
    {e : ChainEvent Tx G} :
    (announced txHash filter chain e).foldl applyLog
        (Multiset.ofList (matchingLogs txHash filter chain))
      = Multiset.ofList (matchingLogs txHash filter (chainAfter chain e)) := by
  cases e with
  | newBlock b =>
      show (b.matching txHash filter).foldl applyLog _ = _
      rw [foldl_applyLog_live matching_removed, Multiset.coe_add]
      unfold chainAfter matchingLogs
      rw [List.flatMap_append, List.flatMap_singleton]
  | reorg n =>
      let gone := matchingLogs txHash filter (chain.drop (n.commonAncestor + 1))
      let kept := matchingLogs txHash filter (chain.take (n.commonAncestor + 1))
      show (gone.map Log.flag).foldl applyLog _ = Multiset.ofList kept
      have hsplit : matchingLogs txHash filter chain = kept ++ gone := by
        show _ = List.flatMap _ _ ++ List.flatMap _ _
        rw [← List.flatMap_append, List.take_append_drop]
        rfl
      have hback : (gone.map Log.flag).map Log.unflag = gone := by
        rw [List.map_map]
        refine (List.map_congr_left ?_).trans (List.map_id _)
        intro log hlog
        obtain ⟨b, _, hb⟩ := List.mem_flatMap.mp hlog
        have hlive := matching_removed log hb
        cases log
        simp only [Log.flag, Log.unflag, Function.comp_apply, id_eq] at hlive ⊢
        rw [hlive]
      have hflagged : ∀ log ∈ gone.map Log.flag, log.removed = true := by
        intro log hlog
        obtain ⟨l, _, rfl⟩ := List.mem_map.mp hlog
        rfl
      have hremoved := foldl_applyLog_removed hflagged (Multiset.ofList kept)
      rw [hback, Multiset.coe_add] at hremoved
      rw [hsplit, ← hremoved]
      congr 1
      rw [← Multiset.coe_add, ← Multiset.coe_add, Multiset.add_comm]

theorem foldl_items [DecidableEq G] {es : List (ChainEvent Tx G)} :
    ∀ {base : List (NewBlockNotification Tx G)}, Each chainAfter (Announces txHash) es base →
      (es.flatMap (eventItems txHash (.log filter))).foldl applyItem
          (Multiset.ofList (matchingLogs txHash filter base))
        = Multiset.ofList (matchingLogs txHash filter (es.foldl chainAfter base)) := by
  induction es with
  | nil => exact fun _ => rfl
  | cons e es ih =>
      intro base h
      rw [List.flatMap_cons, List.foldl_append, eventItems_announced h.1, List.foldl_map]
      show (es.flatMap _).foldl applyItem ((announced txHash filter base e).foldl applyLog _) = _
      rw [foldl_announced]
      exact ih h.2

/-- A block of the chain was there at the start or was announced. -/
theorem mem_foldl_chainAfter {b : NewBlockNotification Tx G} :
    ∀ (es : List (ChainEvent Tx G)) {base : List (NewBlockNotification Tx G)},
      b ∈ es.foldl chainAfter base → b ∈ base ∨ .newBlock b ∈ es
  | [], _, h => Or.inl h
  | e :: es, base, h => by
      rcases mem_foldl_chainAfter es h with hnext | hlater
      · cases e with
        | newBlock b' =>
            rcases List.mem_append.mp hnext with hbase | hnew
            · exact Or.inl hbase
            · exact Or.inr (by rw [List.mem_singleton.mp hnew]; simp)
        | reorg n => exact Or.inl (List.mem_of_mem_take hnext)
      · exact Or.inr (List.mem_cons_of_mem _ hlater)

/-! ## The law -/

/-- The event in the middle is one of the chain the events before it leave. -/
theorem announces_at {base : List (NewBlockNotification Tx G)} {pre post : List (ChainEvent Tx G)}
    {e : ChainEvent Tx G} (h : Each chainAfter (Announces txHash) (pre ++ e :: post) base) :
    Announces txHash (pre.foldl chainAfter base) e := (each_append.mp h).2.1

/-- The event an input gives to a task that runs. -/
def eventGiven (input : TaskInput Tx G) (t : SubscriptionTask G) : Option (ChainEvent Tx G) :=
  match t.status, input with
  | .running, .recv event => some event
  | _, _ => none

/-- The events given to a task as long as it runs. -/
def eventsGiven (txHash : Tx → B256) :
    List (TaskInput Tx G) → SubscriptionTask G → List (ChainEvent Tx G)
  | [], _ => []
  | input :: inputs, t =>
    (eventGiven input t).toList ++ eventsGiven txHash inputs (taskStep txHash input t).2

/-- **A running task takes the event it is given**, and a task that ended takes none. -/
theorem taskStep_eventGiven (input : TaskInput Tx G) (t : SubscriptionTask G) :
    (taskStep txHash input t).1 = eventGiven input t := by
  unfold taskStep eventGiven
  cases t.status with
  | ended => rfl
  | panicked p => rfl
  | running =>
      cases input with
      | cancelled => rfl
      | recv event => rfl
      | lagged skipped => rfl
      | closed => rfl
      | permits granted =>
          dsimp only
          split
          · rfl
          · cases granted <;> rfl

theorem runInputs_eventsGiven : ∀ (inputs : List (TaskInput Tx G)) (t : SubscriptionTask G),
    (runInputs (taskStep txHash) inputs t).1 = eventsGiven txHash inputs t
  | [], _ => rfl
  | input :: inputs, t => by
      rw [eventsGiven, ← taskStep_eventGiven input t, ← runInputs_eventsGiven inputs]
      rfl

/--
**The replay law of a log subscription.** A task with any filter is given events of a
chain, starting from any blocks, and is granted any permits at any time. Then

* it does not panic, and what it sent, followed by what it has queued, are the items of
  the events in order;
* of a new block these are the RPC logs the filter matches, each with the log index,
  transaction index and transaction hash the unfiltered block gives it;
* of a reorg these are, flagged as removed, the items of the blocks it removed, each of
  which was there at the start or announced before;
* applied to the matching logs of the first chain, all items give those of the last.
-/
theorem log_subscription_replays [DecidableEq G] {base : List (NewBlockNotification Tx G)}
    {inputs : List (TaskInput Tx G)} {es : List (ChainEvent Tx G)} {t : SubscriptionTask G}
    (hgiven : eventsGiven txHash inputs (SubscriptionTask.spawned (.log filter)) = es)
    (hafter : (runInputs (taskStep txHash) inputs (SubscriptionTask.spawned (.log filter))).2 = t)
    (hchain : Each chainAfter (Announces txHash) es base) :
    ((∀ p, t.status ≠ .panicked p)
        ∧ t.sent ++ t.notifBuffer.items = es.flatMap (eventItems txHash (.log filter)))
      ∧ (∀ b, .newBlock b ∈ es →
          eventItems txHash (.log filter) (.newBlock b) = (b.matching txHash filter).map .log
            ∧ eventItems txHash (.log fun _ => true) (.newBlock b) = (b.rpcLogs txHash).map .log
            ∧ ∀ (k : Nat) (log : Log G),
                (b.rpcLogs txHash)[k]? = some log → LocatedAt txHash b k log)
      ∧ (∀ pre n post, es = pre ++ .reorg n :: post →
          eventItems txHash (.log filter) (.reorg n)
              = (((pre.foldl chainAfter base).drop (n.commonAncestor + 1)).flatMap fun b =>
                  b.matching txHash filter).map (fun log => .log log.flag)
            ∧ ∀ b ∈ pre.foldl chainAfter base, b ∈ base ∨ .newBlock b ∈ pre)
      ∧ (es.flatMap (eventItems txHash (.log filter))).foldl applyItem
          (Multiset.ofList (matchingLogs txHash filter base))
        = Multiset.ofList (matchingLogs txHash filter (es.foldl chainAfter base)) := by
  have hrun : TaskRun txHash (.log filter) es t := by
    rw [← hgiven, ← runInputs_eventsGiven, ← hafter]
    exact runInputs_run inputs _ (admits_true inputs _)
  have hdelivering := hrun.delivering
  have hmem : ∀ e ∈ es, ∃ chain, Announces txHash chain e := by
    intro e he
    obtain ⟨pre, post, rfl⟩ := List.append_of_mem he
    exact ⟨_, announces_at hchain⟩
  refine ⟨⟨?_, hdelivering.items⟩, ?_, ?_, foldl_items hchain⟩
  · intro p hp
    obtain ⟨e, he, herr⟩ := hdelivering.panics p hp
    obtain ⟨chain, hann⟩ := hmem e he
    rw [filterEvent_announced hann] at herr
    exact absurd herr (by simp)
  · intro b hb
    obtain ⟨chain, hann⟩ := hmem _ hb
    refine ⟨eventItems_announced hann, ?_, fun k log hlog => rpcLogs_located hlog⟩
    have hall : b.matching txHash (fun _ => true) = b.rpcLogs txHash := by
      unfold NewBlockNotification.matching
      exact List.filter_eq_self.mpr fun _ _ => rfl
    rw [eventItems_announced hann, ← hall]
    rfl
  · rintro pre n post rfl
    refine ⟨?_, fun b hb => mem_foldl_chainAfter pre hb⟩
    rw [eventItems_announced (announces_at hchain)]
    exact List.map_map

/-- A block with three logs in two receipts is announced on genesis, permits are granted, and a
reorg takes the block back; the filter lets the last log through. -/
theorem log_subscription_replays_removed :
    let hash : Nat → B256 := fun tx => BitVec.ofNat 256 tx
    let genesis : NewBlockNotification Nat Nat := ⟨⟨0, 4, 0, 6⟩, [], []⟩
    let b : NewBlockNotification Nat Nat :=
      ⟨⟨1, 5, 4, 7⟩, [11, 12], [⟨0, [1, 2]⟩, ⟨0, [9]⟩]⟩
    let events : List (ChainEvent Nat Nat) :=
      [.newBlock b, .reorg (reorgAbove hash [genesis, b] 0)]
    let inputs := [TaskInput.recv (.newBlock b), .permits (some 3),
      .recv (.reorg (reorgAbove hash [genesis, b] 0))]
    let t :=
      (runInputs (taskStep hash) inputs (SubscriptionTask.spawned (.log fun log => 2 < log))).2
    t.sent = [.log ⟨9, some 5, some 1, some 7, some 12, some 1, some 2, false⟩]
      ∧ t.notifBuffer.items = [.log ⟨9, some 5, some 1, some 7, some 12, some 1, some 2, true⟩]
      ∧ t.sent ++ t.notifBuffer.items
          = events.flatMap (eventItems hash (.log fun log => 2 < log)) := by
  intro hash genesis b events inputs t
  have hgiven :
      eventsGiven hash inputs (SubscriptionTask.spawned (.log fun log => 2 < log)) = events := rfl
  have hchain : Each chainAfter (Announces hash) events [genesis] :=
    ⟨⟨rfl, Nat.le_refl _⟩, rfl, trivial⟩
  exact ⟨by decide, by decide, (log_subscription_replays hgiven rfl hchain).1.2⟩

end NodeComponents.Rpc
