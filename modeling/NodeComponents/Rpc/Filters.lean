import NodeComponents.Lib.Window
import NodeComponents.Rpc.ChainNotifier

/-!
# Polled filters

A filter holds a block cursor, `next_start_block`, and a cursor into the ring of
reorgs, the instant of its last poll. A poll reads the ring since that instant and
rewinds the block cursor, reads the latest tag, waits for cold storage, and commits
both cursors. The four parts are definitions of their own, because other tasks run
between them; `getFilterChanges` is the four in a row.

Block numbers are unbounded here: the source's `+ 1` on them cannot be told apart
from this below the top of `u64`.
-/

namespace NodeComponents.Rpc

open Lib

variable {G Tx : Type}

/-! ## Filters -/

/-- The different kinds of filters; a log filter is given by the logs it matches. -/
inductive InterestKind (G : Type) where
  | log (filter : G → Bool)
  | block

/-- Fallible cast to a filter. -/
def InterestKind.asFilter : InterestKind G → Option (G → Bool)
  | .log filter => some filter
  | .block => none

/-- Output of a polled filter: log entries or block hashes. -/
inductive FilterOutput (G : Type) where
  | log (logs : List (Log G))
  | block (hashes : List B256)
deriving DecidableEq, Repr

/-- An empty output of the kind. -/
def InterestKind.emptyOutput : InterestKind G → FilterOutput G
  | .log _ => .log []
  | .block => .block []

/-- An active filter; `lastPollTime` doubles as the cursor into the reorg ring. -/
structure ActiveFilter (G : Type) where
  nextStartBlock : Nat
  lastPollTime : Nat
  kind : InterestKind G

/-- The filter `install` inserts. -/
def ActiveFilter.install (currentBlock now : Nat) (kind : InterestKind G) : ActiveFilter G :=
  ⟨currentBlock + 1, now, kind⟩

/-- Mark the filter as having been polled at the given block. -/
def ActiveFilter.markPolled (f : ActiveFilter G) (currentBlock now : Nat) : ActiveFilter G :=
  { f with nextStartBlock := currentBlock + 1, lastPollTime := now }

/-- Update the poll timestamp without advancing `nextStartBlock`. -/
def ActiveFilter.touchPollTime (f : ActiveFilter G) (now : Nat) : ActiveFilter G :=
  { f with lastPollTime := now }

/-! ## Removed logs -/

/-- The matching logs of the removed blocks below the snapshot, flagged as removed. -/
def removedLogs (filter : G → Bool) (snapshot : Nat) (blocks : List (RemovedBlock G)) :
    List (Log G) :=
  (blocks.filter fun b => b.number < snapshot).flatMap fun b =>
    (b.logs.filter fun log => filter log.inner).map fun log => { log with removed := true }

/-- Rewind the block cursor to behind the common ancestor. -/
def ActiveFilter.rewind (f : ActiveFilter G) (n : ReorgNotification G) : ActiveFilter G :=
  { f with nextStartBlock := min f.nextStartBlock (n.commonAncestor + 1) }

/-- The loop over the reorgs: each is cut at the cursor the reorgs before it left. -/
def removeLoop (filter : G → Bool) :
    List (ReorgNotification G) → ActiveFilter G → List (Log G) × ActiveFilter G
  | [], f => ([], f)
  | n :: rest, f =>
    let snapshot := f.nextStartBlock
    let later := removeLoop filter rest (f.rewind n)
    (removedLogs filter snapshot n.removedBlocks ++ later.1, later.2)

/-- Compute removed logs from a sequence of reorg notifications; block filters have none. -/
def ActiveFilter.computeRemovedLogs (f : ActiveFilter G) (reorgs : List (ReorgNotification G)) :
    List (Log G) × ActiveFilter G :=
  match f.kind.asFilter with
  | none => ([], reorgs.foldl ActiveFilter.rewind f)
  | some filter => removeLoop filter reorgs f

/-! ## A poll -/

/-- What a poll carries over its first part. -/
structure PollStart (G : Type) where
  kind : InterestKind G
  start : Nat
  removed : List (Log G)

/-- The part under the shard lock: read the ring since the last poll and rewind. -/
def ActiveFilter.readRing (f : ActiveFilter G) (reorgs : ReorgBuffer G) :
    PollStart G × ActiveFilter G :=
  let computed := f.computeRemovedLogs (reorgsSince reorgs f.lastPollTime)
  (⟨computed.2.kind, computed.2.nextStartBlock, computed.1⟩, computed.2)

/-- What cold storage answers: the hashes of the headers of a range of numbers, and the
logs a filter matches in it. -/
structure ColdReads (G : Type) where
  getHeaders : Nat → Nat → Except String (List B256)
  streamLogs : (G → Bool) → Nat → Nat → Except String (List (Log G))

/-- What the poll returns, once `latest` is read. -/
def PollStart.output (p : PollStart G) (cold : ColdReads G) (latest : Nat) :
    Except String (FilterOutput G) :=
  -- an implicit reorg and an ordinary empty poll share this exit
  if latest < p.start then
    .ok (if p.removed.isEmpty then p.kind.emptyOutput else .log p.removed)
  else
    match p.kind with
    | .block => (cold.getHeaders p.start latest).map .block
    | .log filter =>
      -- the client sees removals before the replacement data
      (cold.streamLogs filter p.start latest).map fun logs => .log (p.removed ++ logs)

/-- Commit the cursors; the block cursor stays where it is if there was nothing to read. -/
def PollStart.commit (p : PollStart G) (latest now : Nat) (f : ActiveFilter G) : ActiveFilter G :=
  if latest < p.start then f.touchPollTime now else f.markPolled latest now

/-- `eth_getFilterChanges`, with no other task in between. -/
def getFilterChanges (reorgs : ReorgBuffer G) (tags : BlockTags) (cold : ColdReads G) (now : Nat)
    (f : ActiveFilter G) : Except String (FilterOutput G) × ActiveFilter G :=
  let read := f.readRing reorgs
  match read.1.output cold tags.latest with
  -- the rewind stays, the poll time does not move
  | .error e => (.error e, read.2)
  | .ok out => (.ok out, read.1.commit tags.latest now read.2)

/-! ## The cursors -/

theorem removeLoop_filter {filter : G → Bool} :
    ∀ (reorgs : List (ReorgNotification G)) (f : ActiveFilter G),
      (removeLoop filter reorgs f).2 = reorgs.foldl ActiveFilter.rewind f
  | [], _ => rfl
  | n :: rest, f => removeLoop_filter rest (f.rewind n)

/-- Of the filter, removing logs changes the block cursor only. -/
theorem computeRemovedLogs_filter (f : ActiveFilter G) (reorgs : List (ReorgNotification G)) :
    (f.computeRemovedLogs reorgs).2 = reorgs.foldl ActiveFilter.rewind f := by
  unfold ActiveFilter.computeRemovedLogs
  cases f.kind.asFilter with
  | none => rfl
  | some filter => exact removeLoop_filter reorgs f

/-- Rewinding leaves the poll time and the kind as they are. -/
theorem foldl_rewind (reorgs : List (ReorgNotification G)) (f : ActiveFilter G) :
    (reorgs.foldl ActiveFilter.rewind f).lastPollTime = f.lastPollTime ∧
      (reorgs.foldl ActiveFilter.rewind f).kind = f.kind := by
  induction reorgs generalizing f with
  | nil => exact ⟨rfl, rfl⟩
  | cons n rest ih => exact ih (f.rewind n)

/-- Either way of committing moves the poll time to the instant of the commit. -/
theorem commit_lastPollTime (p : PollStart G) (latest now : Nat) (f : ActiveFilter G) :
    (p.commit latest now f).lastPollTime = now := by
  unfold PollStart.commit
  split <;> rfl

/-- A poll moves the poll time to its instant, unless it failed. -/
theorem getFilterChanges_lastPollTime (reorgs : ReorgBuffer G) (tags : BlockTags)
    (cold : ColdReads G) (now : Nat) (f : ActiveFilter G) :
    (getFilterChanges reorgs tags cold now f).2.lastPollTime = now
      ∨ (getFilterChanges reorgs tags cold now f).2.lastPollTime = f.lastPollTime := by
  unfold getFilterChanges
  dsimp only
  split
  · right
    show (f.computeRemovedLogs _).2.lastPollTime = _
    rw [computeRemovedLogs_filter, (foldl_rewind _ _).1]
  · left
    exact commit_lastPollTime _ _ _ _

/-! ## The ring -/

/-- The entries of the ring received after an instant. -/
def entriesSince (reorgs : ReorgBuffer G) (since : Nat) : ReorgBuffer G :=
  reorgs.filter fun e => since < e.1

theorem reorgsSince_eq (reorgs : ReorgBuffer G) (since : Nat) :
    reorgsSince reorgs since = (entriesSince reorgs since).map Prod.snd := rfl

/-- The ring holds its entries in the order of their instants, all up to `clock`. -/
structure RingOrdered (reorgs : ReorgBuffer G) (clock : Nat) : Prop where
  ascending : reorgs.Pairwise fun a b => a.1 < b.1
  past : ∀ e ∈ reorgs, e.1 ≤ clock

theorem RingOrdered.later {reorgs : ReorgBuffer G} {clock now : Nat} (h : RingOrdered reorgs clock)
    (hnow : clock ≤ now) : RingOrdered reorgs now :=
  ⟨h.ascending, fun e he => Nat.le_trans (h.past e he) hnow⟩

/-- The ring is a window of the last entries. -/
theorem pushReorg_eq_push (reorgs : ReorgBuffer G) (now : Nat) (notif : ReorgNotification G) :
    pushReorg reorgs now notif = Window.push maxReorgEntries reorgs (now, notif) := by
  unfold pushReorg Window.push
  rw [List.length_append, List.length_singleton]
  by_cases hfull : maxReorgEntries ≤ reorgs.length
  · have hne : reorgs ≠ [] := List.ne_nil_of_length_pos (Nat.lt_of_lt_of_le (by decide) hfull)
    rw [if_pos hfull, if_pos (by omega), List.tail_append_of_ne_nil hne]
  · rw [if_neg hfull, if_neg (by omega)]

theorem RingOrdered.concat {reorgs : ReorgBuffer G} {clock now : Nat}
    (h : RingOrdered reorgs clock) (hnow : clock < now) (notif : ReorgNotification G) :
    RingOrdered (reorgs ++ [(now, notif)]) now := by
  refine ⟨List.pairwise_append.mpr ⟨h.ascending, List.pairwise_singleton _ _, ?_⟩, ?_⟩
  · intro a ha b hb
    rw [List.mem_singleton.mp hb]
    exact Nat.lt_of_le_of_lt (h.past a ha) hnow
  · intro e he
    rcases List.mem_append.mp he with hold | hnew
    · exact Nat.le_trans (h.past e hold) (Nat.le_of_lt hnow)
    · rw [List.mem_singleton.mp hnew]

theorem RingOrdered.push {reorgs : ReorgBuffer G} {clock now : Nat} (h : RingOrdered reorgs clock)
    (hnow : clock < now) (notif : ReorgNotification G) :
    RingOrdered (pushReorg reorgs now notif) now := by
  have hsuffix : pushReorg reorgs now notif <:+ reorgs ++ [(now, notif)] := by
    rw [pushReorg_eq_push]
    exact Window.pushAll_suffix maxReorgEntries reorgs [(now, notif)]
  have hall := h.concat hnow notif
  exact ⟨hall.ascending.sublist hsuffix.sublist, fun e he => hall.past e (hsuffix.subset he)⟩

/-- **No unread entry is evicted** while fewer than the capacity are unread. -/
theorem entriesSince_push {reorgs : ReorgBuffer G} {clock now since : Nat}
    (h : RingOrdered reorgs clock) (hsince : since < now)
    (hroom : (entriesSince reorgs since).length < maxReorgEntries) (notif : ReorgNotification G) :
    entriesSince (pushReorg reorgs now notif) since
      = entriesSince reorgs since ++ [(now, notif)] := by
  unfold entriesSince at hroom ⊢
  rw [pushReorg_eq_push, Window.push_filter ?_ hroom (by simpa using hsince)]
  refine h.ascending.imp ?_
  intro a b hab ha
  simp only [decide_eq_true_eq] at ha ⊢
  omega

/-- Nothing is unread from the clock on. -/
theorem entriesSince_clock {reorgs : ReorgBuffer G} {clock now : Nat} (h : RingOrdered reorgs clock)
    (hnow : clock ≤ now) : entriesSince reorgs now = [] := by
  refine List.filter_eq_nil_iff.mpr ?_
  intro e he
  have hpast := h.past e he
  simp only [decide_eq_true_eq]
  omega

end NodeComponents.Rpc
