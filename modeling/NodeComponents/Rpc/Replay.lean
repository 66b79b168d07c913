import Mathlib.Data.Multiset.AddSub
import NodeComponents.Lib.Run
import NodeComponents.Rpc.Filters

/-!
# The replay law of a polled log filter

A client that adds the logs a poll returns, and deletes those it returns as removed,
holds the matching logs of the canonical chain after each poll. Between polls blocks
are appended and reorgs cut the chain, each atomically.

The invariant is about a poll that has not happened yet. Let `pending` be the reorgs
in the ring since the last poll, and `c` the cursor they rewind the filter to: what
the client holds are the logs `pending` would make it delete, and the matching logs
of the canonical blocks below `c`. A reorg moves logs from the second part to the
first, an append touches neither, and a poll deletes the first part and adds the
blocks from `c` to the latest tag.
-/

namespace NodeComponents.Rpc

open Lib

variable {G Tx : Type}

/-! ## The chain -/

/-- A canonical block, with its logs as cold storage returns them. -/
structure CanonicalBlock (G : Type) where
  hash : B256
  timestamp : Nat
  logs : List (Log G)
  live : ∀ log ∈ logs, log.removed = false

/-- The logs of some blocks that a filter matches. -/
def matching (filter : G → Bool) (blocks : List (CanonicalBlock G)) : List (Log G) :=
  (blocks.flatMap CanonicalBlock.logs).filter fun log => filter log.inner

/-- Cold storage that holds exactly the chain, and hits no limit. -/
def coldOf (chain : List (CanonicalBlock G)) : ColdReads G where
  getHeaders start latest := .ok (((chain.take (latest + 1)).drop start).map CanonicalBlock.hash)
  streamLogs filter start latest := .ok (matching filter ((chain.take (latest + 1)).drop start))

/-- The blocks of a chain above a height, as a reorg notification carries them. -/
def removedAbove (chain : List (CanonicalBlock G)) (ancestor : Nat) : List (RemovedBlock G) :=
  ((chain.drop (ancestor + 1)).zipIdx (ancestor + 1)).map fun e =>
    ⟨e.2, e.1.hash, e.1.timestamp, e.1.logs⟩

theorem matching_append (filter : G → Bool) (l m : List (CanonicalBlock G)) :
    matching filter (l ++ m) = matching filter l ++ matching filter m := by
  unfold matching
  rw [List.flatMap_append, List.filter_append]

theorem matching_live {filter : G → Bool} {blocks : List (CanonicalBlock G)} :
    ∀ log ∈ matching filter blocks, log.removed = false := by
  intro log hlog
  obtain ⟨b, _, hb⟩ := List.mem_flatMap.mp (List.mem_filter.mp hlog).1
  exact b.live log hb

/-- The logs below a cursor, split at the block a reorg cuts behind. -/
theorem matching_take {filter : G → Bool} {chain : List (CanonicalBlock G)} {cursor : Nat}
    (ancestor : Nat) : matching filter (chain.take cursor)
      = matching filter ((chain.take (ancestor + 1)).take (min cursor (ancestor + 1)))
        ++ matching filter ((chain.drop (ancestor + 1)).take (cursor - (ancestor + 1))) := by
  rw [← matching_append, List.take_take]
  congr 1
  by_cases h : cursor ≤ ancestor + 1
  · rw [Nat.sub_eq_zero_of_le h, List.take_zero, List.append_nil]
    congr 1
    omega
  · have hsplit := List.take_add (l := chain) (i := ancestor + 1) (j := cursor - (ancestor + 1))
    rw [show ancestor + 1 + (cursor - (ancestor + 1)) = cursor by omega] at hsplit
    rw [hsplit]
    congr 2
    omega

/-- Numbered blocks below a number are a front part. -/
theorem filter_zipIdx_lt {α : Type} (l : List α) (start bound : Nat) :
    (l.zipIdx start).filter (fun e => e.2 < bound) = (l.take (bound - start)).zipIdx start := by
  induction l generalizing start with
  | nil => simp
  | cons a l ih =>
      rw [List.zipIdx_cons]
      by_cases h : start < bound
      · rw [List.filter_cons_of_pos (by simpa using h), ih,
          show bound - start = (bound - (start + 1)) + 1 by omega, List.take_succ_cons,
          List.zipIdx_cons]
      · rw [List.filter_cons_of_neg (by simpa using h), ih, Nat.sub_eq_zero_of_le (by omega),
          Nat.sub_eq_zero_of_le (by omega), List.take_zero, List.take_zero]
        rfl

/-! ## The client -/

/-- The log a removal is about. -/
def Log.unflag (log : Log G) : Log G := { log with removed := false }

/-- A removed log is deleted, another one is added. -/
def applyLog [DecidableEq G] (held : Multiset (Log G)) (log : Log G) : Multiset (Log G) :=
  if log.removed then held.erase log.unflag else log ::ₘ held

/-- Apply the output of a poll in order. -/
def applyOutput [DecidableEq G] (held : Multiset (Log G)) : FilterOutput G → Multiset (Log G)
  | .log logs => logs.foldl applyLog held
  | .block _ => held

/-- Removals delete what they are about. -/
theorem foldl_applyLog_removed [DecidableEq G] {logs : List (Log G)}
    (h : ∀ log ∈ logs, log.removed = true) (held : Multiset (Log G)) :
    logs.foldl applyLog (Multiset.ofList (logs.map Log.unflag) + held) = held := by
  induction logs with
  | nil => simp
  | cons log logs ih =>
      rw [List.foldl_cons, List.map_cons, applyLog, if_pos (h log (by simp)),
        ← Multiset.cons_coe, Multiset.cons_add, Multiset.erase_cons_head]
      exact ih fun l hl => h l (List.mem_cons_of_mem _ hl)

/-- Live logs are added. -/
theorem foldl_applyLog_live [DecidableEq G] {logs : List (Log G)}
    (h : ∀ log ∈ logs, log.removed = false) (held : Multiset (Log G)) :
    logs.foldl applyLog held = held + ↑logs := by
  induction logs generalizing held with
  | nil => simp
  | cons log logs ih =>
      rw [List.foldl_cons, applyLog, if_neg (by rw [h log (by simp)]; simp),
        ih fun l hl => h l (List.mem_cons_of_mem _ hl), ← Multiset.cons_coe, Multiset.cons_add,
        Multiset.add_cons]

/-! ## Removed logs of cascading reorgs -/

theorem removeLoop_append {filter : G → Bool} {n : ReorgNotification G} :
    ∀ (reorgs : List (ReorgNotification G)) (f : ActiveFilter G),
      removeLoop filter (reorgs ++ [n]) f
        = ((removeLoop filter reorgs f).1
            ++ removedLogs filter (removeLoop filter reorgs f).2.nextStartBlock n.removedBlocks,
          (removeLoop filter reorgs f).2.rewind n)
  | [], f => by simp [removeLoop]
  | m :: rest, f => by
      simp only [List.cons_append, removeLoop]
      rw [removeLoop_append rest (f.rewind m), List.append_assoc]

theorem removeLoop_flagged {filter : G → Bool} :
    ∀ (reorgs : List (ReorgNotification G)) (f : ActiveFilter G),
      ∀ log ∈ (removeLoop filter reorgs f).1, log.removed = true
  | [], _ => by simp [removeLoop]
  | n :: rest, f => by
      intro log hlog
      rcases List.mem_append.mp hlog with hhere | hlater
      · obtain ⟨b, _, hb⟩ := List.mem_flatMap.mp hhere
        obtain ⟨l, _, rfl⟩ := List.mem_map.mp hb
        rfl
      · exact removeLoop_flagged rest (f.rewind n) log hlater

/-- The removed logs of a reorg are the matching logs of the blocks that fell below the
snapshot. -/
theorem removedLogs_removedAbove (filter : G → Bool) (snapshot ancestor : Nat)
    (chain : List (CanonicalBlock G)) :
    (removedLogs filter snapshot (removedAbove chain ancestor)).map Log.unflag
      = matching filter ((chain.drop (ancestor + 1)).take (snapshot - (ancestor + 1))) := by
  unfold removedLogs removedAbove
  rw [List.filter_map]
  have hcut : ((chain.drop (ancestor + 1)).zipIdx (ancestor + 1)).filter
        ((fun b : RemovedBlock G => decide (b.number < snapshot)) ∘ fun e =>
          ⟨e.2, e.1.hash, e.1.timestamp, e.1.logs⟩)
      = ((chain.drop (ancestor + 1)).take (snapshot - (ancestor + 1))).zipIdx (ancestor + 1) :=
    filter_zipIdx_lt _ _ _
  rw [hcut]
  generalize (chain.drop (ancestor + 1)).take (snapshot - (ancestor + 1)) = blocks
  generalize ancestor + 1 = start
  induction blocks generalizing start with
  | nil => rfl
  | cons b blocks ih =>
      have hb : ((b.logs.filter fun log => filter log.inner).map
          fun log => { log with removed := true }).map Log.unflag
          = b.logs.filter fun log => filter log.inner := by
        rw [List.map_map]
        refine (List.map_congr_left ?_).trans (List.map_id _)
        intro log hlog
        have hlive := b.live log (List.mem_filter.mp hlog).1
        cases log
        simp only [Log.unflag, Function.comp_apply, id_eq] at hlive ⊢
        rw [hlive]
      rw [List.zipIdx_cons, List.map_cons, List.flatMap_cons, List.map_append, ih (start + 1), hb]
      unfold matching
      rw [List.flatMap_cons, List.filter_append]

/-! ## Runs -/

/-- The chain, the notifier, one installed filter and its client; `sincePoll` counts the
reorgs since the filter was last polled. -/
structure PollWorld (Tx G : Type) where
  chain : List (CanonicalBlock G)
  notifier : ChainNotifier Tx G
  filter : ActiveFilter G
  client : Multiset (Log G)
  clock : Nat
  sincePoll : Nat

/-- What happens, each atomically and with the instant it reads. -/
inductive PollEvent (G : Type) where
  | append (block : CanonicalBlock G)
  | reorg (now ancestor : Nat)
  | poll (now : Nat)

/-- A block is stored and the latest tag advanced to it. -/
def appended (w : PollWorld Tx G) (block : CanonicalBlock G) : PollWorld Tx G :=
  { w with
    chain := w.chain ++ [block]
    notifier := { w.notifier with
      tags := w.notifier.tags.updateAll w.chain.length w.notifier.tags.safe
        w.notifier.tags.finalized } }

/-- The chain is cut, the tags rewound, and the removal announced. -/
def reorged (w : PollWorld Tx G) (now ancestor : Nat) : PollWorld Tx G :=
  { w with
    chain := w.chain.take (ancestor + 1)
    notifier := ({ w.notifier with tags := w.notifier.tags.rewindTo ancestor }).sendReorg now
      ⟨ancestor, removedAbove w.chain ancestor⟩
    clock := now
    sincePoll := w.sincePoll + 1 }

/-- The filter is polled, and the client applies what it gets. -/
def polled [DecidableEq G] (w : PollWorld Tx G) (now : Nat) : PollWorld Tx G :=
  let polled := getFilterChanges w.notifier.reorgs w.notifier.tags (coldOf w.chain) now w.filter
  { w with
    filter := polled.2
    client := match polled.1 with
      | .ok out => applyOutput w.client out
      | .error _ => w.client
    clock := now
    sincePoll := 0 }

def pollStep [DecidableEq G] : PollEvent G → PollWorld Tx G → Option Empty × PollWorld Tx G
  | .append block, w => (none, appended w block)
  | .reorg now ancestor, w => (none, reorged w now ancestor)
  | .poll now, w => (none, polled w now)

/-- Instants are distinct, and at most 25 reorgs happen between two polls. -/
def Spaced : PollEvent G → PollWorld Tx G → Prop
  | .append _, _ => True
  | .reorg now _, w => w.clock < now ∧ w.sincePoll < 25
  | .poll now, w => w.clock < now

/-- A log filter is installed, and its client holds the matching logs so far. -/
def installed (chain : List (CanonicalBlock G)) (notifier : ChainNotifier Tx G)
    (filter : G → Bool) (now : Nat) : PollWorld Tx G :=
  ⟨chain, notifier, ActiveFilter.install notifier.tags.latest now (.log filter),
    matching filter (chain.take (notifier.tags.latest + 1)), now, 0⟩

/-! ## The invariant -/

/-- What a poll would read from the ring and compute from it. -/
def pendingRemoval (filter : G → Bool) (w : PollWorld Tx G) : List (Log G) × ActiveFilter G :=
  removeLoop filter (reorgsSince w.notifier.reorgs w.filter.lastPollTime) w.filter

structure Replayable (filter : G → Bool) (w : PollWorld Tx G) : Prop where
  ring : RingOrdered w.notifier.reorgs w.clock
  pollTime : w.filter.lastPollTime ≤ w.clock
  kind : w.filter.kind = .log filter
  tag : w.notifier.tags.latest < w.chain.length
  counted : (reorgsSince w.notifier.reorgs w.filter.lastPollTime).length = w.sincePoll
  /-- The cursor the next poll starts at has not passed the latest tag. -/
  cursor : (pendingRemoval filter w).2.nextStartBlock ≤ w.notifier.tags.latest + 1
  /-- The client holds what the next poll deletes, and the logs below its cursor. -/
  client : w.client = Multiset.ofList ((pendingRemoval filter w).1.map Log.unflag)
    + Multiset.ofList (matching filter (w.chain.take (pendingRemoval filter w).2.nextStartBlock))

/-- Right after the installation, the first poll would delete nothing. -/
theorem pendingRemoval_installed (chain : List (CanonicalBlock G)) (filter : G → Bool)
    {notifier : ChainNotifier Tx G} {now : Nat} (hring : RingOrdered notifier.reorgs now) :
    reorgsSince notifier.reorgs now = []
      ∧ pendingRemoval filter (installed chain notifier filter now)
        = ([], ActiveFilter.install notifier.tags.latest now (.log filter)) := by
  have hnone : reorgsSince notifier.reorgs now = [] := by
    rw [reorgsSince_eq, entriesSince_clock hring (Nat.le_refl _)]
    rfl
  refine ⟨hnone, ?_⟩
  show removeLoop filter (reorgsSince notifier.reorgs now) _ = _
  rw [hnone]
  rfl

theorem replayable_installed {chain : List (CanonicalBlock G)} {notifier : ChainNotifier Tx G}
    {filter : G → Bool} {now : Nat} (hring : RingOrdered notifier.reorgs now)
    (htag : notifier.tags.latest < chain.length) :
    Replayable filter (installed chain notifier filter now) := by
  obtain ⟨hnone, hpending⟩ := pendingRemoval_installed chain filter hring
  refine ⟨hring, Nat.le_refl _, rfl, htag, ?_, ?_, ?_⟩
  · show (reorgsSince notifier.reorgs now).length = 0
    rw [hnone]
    rfl
  · rw [hpending]
    exact Nat.le_refl _
  · rw [hpending]
    exact (Multiset.zero_add _).symm

theorem replayable_appended {filter : G → Bool} {w : PollWorld Tx G} (h : Replayable filter w)
    (block : CanonicalBlock G) : Replayable filter (appended w block) := by
  have hpending : pendingRemoval filter (appended w block) = pendingRemoval filter w := rfl
  have htag := h.tag
  have hcursor := h.cursor
  refine ⟨h.ring, h.pollTime, h.kind, ?_, h.counted, ?_, ?_⟩
  · show w.chain.length < (w.chain ++ [block]).length
    simp
  · rw [hpending]
    show _ ≤ w.chain.length + 1
    omega
  · -- the cursor is not past the blocks there were
    rw [hpending]
    show w.client = _ + Multiset.ofList (matching filter ((w.chain ++ [block]).take _))
    rw [List.take_append_of_le_length (by omega)]
    exact h.client

/-- A reorg adds what it removes below the rewound cursor to what the next poll deletes. -/
theorem pendingRemoval_reorged {filter : G → Bool} {w : PollWorld Tx G} (h : Replayable filter w)
    {now : Nat} (hnow : w.clock < now) (hroom : w.sincePoll < 25) (ancestor : Nat) :
    reorgsSince (reorged w now ancestor).notifier.reorgs w.filter.lastPollTime
        = reorgsSince w.notifier.reorgs w.filter.lastPollTime
          ++ [⟨ancestor, removedAbove w.chain ancestor⟩]
      ∧ pendingRemoval filter (reorged w now ancestor)
        = ((pendingRemoval filter w).1 ++ removedLogs filter
            (pendingRemoval filter w).2.nextStartBlock (removedAbove w.chain ancestor),
          (pendingRemoval filter w).2.rewind ⟨ancestor, removedAbove w.chain ancestor⟩) := by
  have hsince : w.filter.lastPollTime < now := Nat.lt_of_le_of_lt h.pollTime hnow
  have hcount := h.counted
  have hpush : reorgsSince (reorged w now ancestor).notifier.reorgs w.filter.lastPollTime
      = reorgsSince w.notifier.reorgs w.filter.lastPollTime
        ++ [⟨ancestor, removedAbove w.chain ancestor⟩] := by
    rw [reorgsSince_eq, List.length_map] at hcount
    show reorgsSince (pushReorg w.notifier.reorgs now _) _ = _
    rw [reorgsSince_eq, entriesSince_push h.ring hsince (by rw [hcount]; exact hroom),
      List.map_append]
    rfl
  refine ⟨hpush, ?_⟩
  show removeLoop filter (reorgsSince (reorged w now ancestor).notifier.reorgs
    w.filter.lastPollTime) w.filter = _
  rw [hpush, removeLoop_append]
  rfl

theorem replayable_reorged {filter : G → Bool} {w : PollWorld Tx G} (h : Replayable filter w)
    {now : Nat} (hnow : w.clock < now) (hroom : w.sincePoll < 25) (ancestor : Nat) :
    Replayable filter (reorged w now ancestor) := by
  obtain ⟨hpush, hpending⟩ := pendingRemoval_reorged h hnow hroom ancestor
  have hsince : w.filter.lastPollTime < now := Nat.lt_of_le_of_lt h.pollTime hnow
  have htag := h.tag
  have hcursor := h.cursor
  refine ⟨h.ring.push hnow _, Nat.le_of_lt hsince, h.kind, ?_, ?_, ?_, ?_⟩
  · show min w.notifier.tags.latest ancestor < (w.chain.take (ancestor + 1)).length
    rw [List.length_take]
    omega
  · show (reorgsSince (reorged w now ancestor).notifier.reorgs w.filter.lastPollTime).length
      = w.sincePoll + 1
    rw [hpush, List.length_append, h.counted]
    rfl
  · rw [hpending]
    show min _ (ancestor + 1) ≤ min w.notifier.tags.latest ancestor + 1
    omega
  · -- what the client held above the ancestor is now what the next poll deletes
    rw [hpending]
    show w.client = _ + Multiset.ofList (matching filter
      ((w.chain.take (ancestor + 1)).take (min _ (ancestor + 1))))
    rw [h.client, List.map_append, removedLogs_removedAbove, matching_take ancestor,
      ← Multiset.coe_add, ← Multiset.coe_add, Multiset.add_assoc]
    congr 1
    exact Multiset.add_comm _ _

/-- **A poll of an up-to-date cold storage** returns the removed logs and then the matching
ones from the rewound cursor to the latest tag, and leaves the cursor behind that. -/
theorem getFilterChanges_coldOf (chain : List (CanonicalBlock G)) (now : Nat)
    {reorgs : ReorgBuffer G} {tags : BlockTags} {f : ActiveFilter G} {filter : G → Bool}
    (hkind : f.kind = .log filter)
    (hcursor : (removeLoop filter (reorgsSince reorgs f.lastPollTime) f).2.nextStartBlock
      ≤ tags.latest + 1) :
    let computed := removeLoop filter (reorgsSince reorgs f.lastPollTime) f
    getFilterChanges reorgs tags (coldOf chain) now f
      = (.ok (.log (computed.1 ++
          matching filter ((chain.take (tags.latest + 1)).drop computed.2.nextStartBlock))),
        ⟨tags.latest + 1, now, .log filter⟩) := by
  intro computed
  have hrewound : computed.2.kind = .log filter := by
    show (removeLoop filter _ f).2.kind = _
    rw [removeLoop_filter, (foldl_rewind _ f).2, hkind]
  have hread : f.readRing reorgs
      = (⟨.log filter, computed.2.nextStartBlock, computed.1⟩, computed.2) := by
    unfold ActiveFilter.readRing ActiveFilter.computeRemovedLogs
    rw [hkind]
    show (PollStart.mk computed.2.kind _ _, _) = _
    rw [hrewound]
    rfl
  unfold getFilterChanges PollStart.output PollStart.commit
  rw [hread]
  dsimp only
  by_cases hearly : tags.latest < computed.2.nextStartBlock
  · -- nothing new: the cursor is right behind the latest block
    have hstart : computed.2.nextStartBlock = tags.latest + 1 := by
      have : computed.2.nextStartBlock ≤ tags.latest + 1 := hcursor
      omega
    have hnew : matching filter ((chain.take (tags.latest + 1)).drop (tags.latest + 1)) = [] := by
      rw [List.drop_of_length_le (by rw [List.length_take]; omega)]
      rfl
    rw [if_pos hearly, if_pos hearly, hstart, hnew, List.append_nil]
    have hout : (if computed.1.isEmpty then (InterestKind.log filter).emptyOutput
        else FilterOutput.log computed.1) = .log computed.1 := by
      cases hremoved : computed.1 <;> rfl
    rw [hout]
    unfold ActiveFilter.touchPollTime
    rw [hstart, hrewound]
  · rw [if_neg hearly, if_neg hearly]
    unfold ActiveFilter.markPolled
    rw [hrewound]
    rfl

/-- A poll brings the client up to the latest tag. -/
theorem polled_client [DecidableEq G] {filter : G → Bool} {w : PollWorld Tx G}
    (h : Replayable filter w) (now : Nat) : (polled w now).client
      = Multiset.ofList (matching filter (w.chain.take (w.notifier.tags.latest + 1)))
    ∧ (polled w now).filter = ⟨w.notifier.tags.latest + 1, now, .log filter⟩ := by
  unfold polled
  rw [getFilterChanges_coldOf w.chain now h.kind h.cursor]
  refine ⟨?_, rfl⟩
  show List.foldl applyLog w.client ((pendingRemoval filter w).1 ++ matching filter
    ((w.chain.take (w.notifier.tags.latest + 1)).drop (pendingRemoval filter w).2.nextStartBlock))
    = _
  have hflagged : ∀ log ∈ (pendingRemoval filter w).1, log.removed = true :=
    removeLoop_flagged _ _
  rw [h.client, List.foldl_append, foldl_applyLog_removed hflagged,
    foldl_applyLog_live matching_live, Multiset.coe_add, ← matching_append]
  have htake : w.chain.take (pendingRemoval filter w).2.nextStartBlock
      = (w.chain.take (w.notifier.tags.latest + 1)).take
          (pendingRemoval filter w).2.nextStartBlock := by
    rw [List.take_take, Nat.min_eq_left h.cursor]
  rw [htake, List.take_append_drop]

/-- Right after a poll, the next one would delete nothing. -/
theorem pendingRemoval_polled [DecidableEq G] {filter : G → Bool} {w : PollWorld Tx G}
    (h : Replayable filter w) {now : Nat} (hnow : w.clock < now) :
    reorgsSince (polled w now).notifier.reorgs (polled w now).filter.lastPollTime = []
      ∧ pendingRemoval filter (polled w now)
        = ([], ⟨w.notifier.tags.latest + 1, now, .log filter⟩) := by
  obtain ⟨_, hfilter⟩ := polled_client h now
  have hnone : reorgsSince (polled w now).notifier.reorgs (polled w now).filter.lastPollTime
      = [] := by
    rw [hfilter]
    show reorgsSince w.notifier.reorgs now = []
    rw [reorgsSince_eq, entriesSince_clock h.ring (Nat.le_of_lt hnow)]
    rfl
  refine ⟨hnone, ?_⟩
  unfold pendingRemoval
  rw [hnone, hfilter]
  rfl

theorem replayable_polled [DecidableEq G] {filter : G → Bool} {w : PollWorld Tx G}
    (h : Replayable filter w) {now : Nat} (hnow : w.clock < now) :
    Replayable filter (polled w now) := by
  obtain ⟨hclient, hfilter⟩ := polled_client h now
  obtain ⟨hnone, hpending⟩ := pendingRemoval_polled h hnow
  refine ⟨h.ring.later (Nat.le_of_lt hnow), ?_, ?_, h.tag, ?_, ?_, ?_⟩
  · rw [hfilter]
    exact Nat.le_refl _
  · rw [hfilter]
  · rw [hnone]
    rfl
  · rw [hpending]
    exact Nat.le_refl _
  · rw [hpending, hclient]
    exact (Multiset.zero_add _).symm

theorem replayable_step [DecidableEq G] {filter : G → Bool} {w : PollWorld Tx G}
    (h : Replayable filter w) (e : PollEvent G) (hspaced : Spaced e w) :
    Replayable filter (pollStep e w).2 := by
  cases e with
  | append block => exact replayable_appended h block
  | reorg now ancestor => exact replayable_reorged h hspaced.1 hspaced.2 ancestor
  | poll now => exact replayable_polled h hspaced

/--
**The replay law.** A log filter is installed on a chain with a client that holds the
matching logs up to the latest tag. After any appends, reorgs and polls, a poll
succeeds, and its output leaves the client with exactly the matching logs of the
canonical blocks up to the latest tag, each as often as the chain has it.
-/
theorem poll_replays_chain [DecidableEq G] {chain : List (CanonicalBlock G)}
    {notifier : ChainNotifier Tx G} {filter : G → Bool} {installTime : Nat}
    (hring : RingOrdered notifier.reorgs installTime) (htag : notifier.tags.latest < chain.length)
    {os : List Empty} {w : PollWorld Tx G}
    (h : Run pollStep Spaced (installed chain notifier filter installTime) os w) (now : Nat) :
    (∃ out, (getFilterChanges w.notifier.reorgs w.notifier.tags (coldOf w.chain) now w.filter).1
        = .ok out ∧ (pollStep (.poll now) w).2.client = applyOutput w.client out)
      ∧ (pollStep (.poll now) w).2.client
        = Multiset.ofList (matching filter (w.chain.take (w.notifier.tags.latest + 1))) := by
  have hinv : Replayable filter w := by
    refine Run.invariant (I := fun _ w => Replayable filter w)
      (replayable_installed hring htag) ?_ h
    intro e _ w hw hspaced
    exact replayable_step hw e hspaced
  refine ⟨?_, (polled_client hinv now).1⟩
  have hok := getFilterChanges_coldOf w.chain now hinv.kind hinv.cursor
  refine ⟨_, congrArg Prod.fst hok, ?_⟩
  show (polled w now).client = _
  unfold polled
  rw [hok]

/-- A block of a number with one log. -/
def oneLog (number log : Nat) : CanonicalBlock Nat :=
  ⟨BitVec.ofNat 256 number, number,
    [⟨log, some (BitVec.ofNat 256 number), some number, some number, none, none, some 0,
      false⟩],
    by simp⟩

/-- A delivered block is replaced, and a filter installed at height one is polled again. -/
theorem poll_replays_chain_reorg :
    let start : PollWorld Unit Nat := installed [oneLog 0 7, oneLog 1 8] ⟨⟨1, 0, 0⟩, [], []⟩
      (fun log => 7 < log) 0
    let events := [.append (oneLog 2 9), .poll 1, .reorg 2 0, .append (oneLog 1 10), .reorg 3 0,
      .append (oneLog 1 11)]
    (pollStep (.poll 4) (runInputs pollStep events start).2).2.client
      = Multiset.ofList (oneLog 1 11).logs := by
  intro start events
  have hring : RingOrdered ([] : ReorgBuffer Nat) 0 :=
    ⟨List.Pairwise.nil, fun _ he => absurd he (by simp)⟩
  have hrun : Run pollStep Spaced start _ _ := runInputs_run events start
    ⟨trivial, (by omega : 0 < 1), (by omega : 1 < 2 ∧ 0 < 25), trivial,
      (by omega : 2 < 3 ∧ 1 < 25), trivial, trivial⟩
  exact (poll_replays_chain hring (by decide) hrun 4).2.trans rfl

end NodeComponents.Rpc
