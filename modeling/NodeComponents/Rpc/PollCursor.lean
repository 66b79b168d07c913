import NodeComponents.Lib.Run
import NodeComponents.Rpc.Filters

/-!
# Reorgs that land during a poll

The poll time of a filter is its cursor into the ring, and a poll moves it at its
end, to the instant of its commit, although it read the ring at its start. Here the
parts of a poll are steps of their own, and the node may send reorgs and store tags
between any two of them.

What a poll hands to `compute_removed_logs` are the reorgs sent since the last
commit. What it should hand over are those sent since the last ring read. The two
differ by the reorgs that landed between a ring read and its commit, which no poll
ever sees.
-/

namespace NodeComponents.Rpc

open Lib

variable {G Tx : Type}

/-! ## The steps of a poll -/

/-- How far the poll of the filter has come. -/
inductive PollPhase (G : Type) where
  | idle
  /-- The ring is read, the cursor rewound, and the lock dropped. -/
  | read (p : PollStart G)
  /-- The latest tag is read. -/
  | resolved (p : PollStart G) (latest : Nat)
  /-- Cold storage has answered. -/
  | answered (p : PollStart G) (latest : Nat)

/-- The notifier, one filter, and the poll of it that may be in progress. -/
structure CursorWorld (Tx G : Type) where
  notifier : ChainNotifier Tx G
  filter : ActiveFilter G
  phase : PollPhase G
  clock : Nat

/-- A step of the node or of the poll; those that read the clock carry the instant. -/
inductive CursorStep (G : Type) where
  | sendReorg (now : Nat) (notif : ReorgNotification G)
  | setTags (tags : BlockTags)
  | readRing
  | readLatest
  | coldAnswer
  | commit (now : Nat)

/-- What is observed: a reorg enters the ring, a poll hands the reorgs it read to
`compute_removed_logs`, a poll commits. -/
inductive CursorEvent (G : Type) where
  | pushed (entry : Nat × ReorgNotification G)
  | handed (entries : ReorgBuffer G)
  | committed
deriving DecidableEq

/-- The part under the shard lock. -/
def CursorWorld.readRing (w : CursorWorld Tx G) : Option (CursorEvent G) × CursorWorld Tx G :=
  match w.phase with
  | .idle =>
    let read := w.filter.readRing w.notifier.reorgs
    (some (.handed (entriesSince w.notifier.reorgs w.filter.lastPollTime)),
      { w with filter := read.2, phase := .read read.1 })
  | _ => (none, w)

/-- The latest tag is loaded. -/
def CursorWorld.readLatest (w : CursorWorld Tx G) : Option (CursorEvent G) × CursorWorld Tx G :=
  match w.phase with
  | .read p => (none, { w with phase := .resolved p w.notifier.tags.latest })
  | _ => (none, w)

/-- Cold storage has answered; it is not asked if there is nothing to read. -/
def CursorWorld.coldAnswer (w : CursorWorld Tx G) : Option (CursorEvent G) × CursorWorld Tx G :=
  match w.phase with
  | .resolved p latest =>
    if latest < p.start then (none, w) else (none, { w with phase := .answered p latest })
  | _ => (none, w)

/-- The poll ends. -/
def CursorWorld.committed (w : CursorWorld Tx G) (p : PollStart G) (latest now : Nat) :
    CursorWorld Tx G :=
  { w with filter := p.commit latest now w.filter, phase := .idle, clock := now }

/-- The commit; an early return makes it right after the latest tag is read. -/
def CursorWorld.commit (w : CursorWorld Tx G) (now : Nat) :
    Option (CursorEvent G) × CursorWorld Tx G :=
  match w.phase with
  | .resolved p latest =>
    if latest < p.start then (some .committed, w.committed p latest now) else (none, w)
  | .answered p latest => (some .committed, w.committed p latest now)
  | _ => (none, w)

/-- One step; a step the poll has not come to does nothing. -/
def cursorStep : CursorStep G → CursorWorld Tx G → Option (CursorEvent G) × CursorWorld Tx G
  | .sendReorg now notif, w =>
    (some (.pushed (now, notif)),
      { w with notifier := w.notifier.sendReorg now notif, clock := now })
  | .setTags tags, w => (none, { w with notifier := { w.notifier with tags := tags } })
  | .readRing, w => w.readRing
  | .readLatest, w => w.readLatest
  | .coldAnswer, w => w.coldAnswer
  | .commit now, w => w.commit now

/-- Instants are distinct, and the ring does not evict what was sent since the poll time. -/
def NoOverflow : CursorStep G → CursorWorld Tx G → Prop
  | .sendReorg now _, w => w.clock < now ∧
      (entriesSince w.notifier.reorgs w.filter.lastPollTime).length < maxReorgEntries
  | .commit now, w => w.clock < now
  | _, _ => True

/-- A filter right after it was installed. -/
def CursorWorld.installed (notifier : ChainNotifier Tx G) (kind : InterestKind G) (now : Nat) :
    CursorWorld Tx G :=
  ⟨notifier, ActiveFilter.install notifier.tags.latest now kind, .idle, now⟩

/-! ## What a run shows -/

/-- The reorgs sent since the last ring read. -/
def unread (os : List (CursorEvent G)) : ReorgBuffer G :=
  os.foldl (fun entries o => match o with
    | .pushed e => entries ++ [e]
    | .handed _ => []
    | .committed => entries) []

/-- Whether a poll is in progress, and the reorgs sent since the last ring read: those sent
before the commit of that poll, and those sent after it. -/
structure PollTrace (G : Type) where
  inPoll : Bool
  during : ReorgBuffer G
  after : ReorgBuffer G

def PollTrace.next (t : PollTrace G) : CursorEvent G → PollTrace G
  | .pushed e =>
    if t.inPoll then { t with during := t.during ++ [e] } else { t with after := t.after ++ [e] }
  | .handed _ => ⟨true, [], []⟩
  | .committed => { t with inPoll := false }

def pollTrace (os : List (CursorEvent G)) : PollTrace G :=
  os.foldl PollTrace.next ⟨false, [], []⟩

/-- A poll hands over exactly the reorgs sent since the ring was read before: each reorg goes
to the first poll that reads the ring after it. -/
def HandsOverUnread (pre : List (CursorEvent G)) (o : CursorEvent G) : Prop :=
  ∀ entries, o = .handed entries → entries = unread pre

/-- No reorg was sent between the last ring read and its commit when the ring is read again. -/
def NoneDuringPoll (pre : List (CursorEvent G)) (o : CursorEvent G) : Prop :=
  ∀ entries, o = .handed entries → (pollTrace pre).during = []

theorem pollTrace_concat (os : List (CursorEvent G)) (o : CursorEvent G) :
    pollTrace (os ++ [o]) = (pollTrace os).next o := by
  unfold pollTrace
  rw [List.foldl_append]
  rfl

/-- The unread reorgs are those sent during the last poll, and those sent after it. -/
theorem unread_eq (os : List (CursorEvent G)) :
    unread os = (pollTrace os).during ++ (pollTrace os).after
      ∧ ((pollTrace os).inPoll = true → (pollTrace os).after = []) := by
  induction os using List.reverseRecOn with
  | nil => exact ⟨rfl, fun _ => rfl⟩
  | append_singleton os o ih =>
      obtain ⟨hunread, hafter⟩ := ih
      rw [pollTrace_concat]
      have hstep : unread (os ++ [o]) = match o with
          | .pushed e => unread os ++ [e]
          | .handed _ => []
          | .committed => unread os := by
        unfold unread
        rw [List.foldl_append]
        rfl
      rw [hstep]
      cases o with
      | pushed e =>
          by_cases hpoll : (pollTrace os).inPoll = true
          · have hnext : (pollTrace os).next (.pushed e)
                = { pollTrace os with during := (pollTrace os).during ++ [e] } := if_pos hpoll
            rw [hnext]
            refine ⟨?_, hafter⟩
            dsimp only
            rw [hunread, hafter hpoll, List.append_nil, List.append_nil]
          · have hnext : (pollTrace os).next (.pushed e)
                = { pollTrace os with after := (pollTrace os).after ++ [e] } := if_neg hpoll
            rw [hnext]
            refine ⟨?_, fun h => absurd h hpoll⟩
            dsimp only
            rw [hunread, List.append_assoc]
      | handed entries => exact ⟨rfl, fun _ => rfl⟩
      | committed => exact ⟨hunread, fun h => absurd h (by simp [PollTrace.next])⟩

/-! ## The cursor -/

/-- The ring from the poll time on is what was sent after the last commit. -/
structure CursorInv (os : List (CursorEvent G)) (w : CursorWorld Tx G) : Prop where
  ring : RingOrdered w.notifier.reorgs w.clock
  pollTime : w.filter.lastPollTime ≤ w.clock
  inPoll : (pollTrace os).inPoll = true ↔ w.phase ≠ .idle
  after : w.phase = .idle →
    entriesSince w.notifier.reorgs w.filter.lastPollTime = (pollTrace os).after

/-- What one step does to the ring, the poll time and the phase. -/
inductive CursorStepped (w : CursorWorld Tx G) :
    CursorStep G → Option (CursorEvent G) → CursorWorld Tx G → Prop
  | pushed (now : Nat) (notif : ReorgNotification G) :
      CursorStepped w (.sendReorg now notif) (some (.pushed (now, notif)))
        { w with notifier := w.notifier.sendReorg now notif, clock := now }
  | silent {i : CursorStep G} {w' : CursorWorld Tx G}
      (hring : w'.notifier.reorgs = w.notifier.reorgs) (hfilter : w'.filter = w.filter)
      (hclock : w'.clock = w.clock) (hphase : w'.phase = .idle ↔ w.phase = .idle) :
      CursorStepped w i none w'
  | read {w' : CursorWorld Tx G} (hidle : w.phase = .idle)
      (hring : w'.notifier.reorgs = w.notifier.reorgs)
      (hfilter : w'.filter.lastPollTime = w.filter.lastPollTime) (hclock : w'.clock = w.clock)
      (hphase : w'.phase ≠ .idle) :
      CursorStepped w .readRing
        (some (.handed (entriesSince w.notifier.reorgs w.filter.lastPollTime))) w'
  | committed {now : Nat} (hphase : w.phase ≠ .idle) (p : PollStart G) (latest : Nat) :
      CursorStepped w (.commit now) (some .committed) (w.committed p latest now)

theorem cursorStep_stepped (i : CursorStep G) (w : CursorWorld Tx G) :
    CursorStepped w i (cursorStep i w).1 (cursorStep i w).2 := by
  cases i with
  | sendReorg now notif => exact CursorStepped.pushed now notif
  | setTags tags => exact CursorStepped.silent rfl rfl rfl Iff.rfl
  | readRing =>
      show CursorStepped w .readRing w.readRing.1 w.readRing.2
      unfold CursorWorld.readRing
      cases hphase : w.phase with
      | idle =>
          refine CursorStepped.read hphase rfl ?_ rfl (by simp)
          show (w.filter.computeRemovedLogs _).2.lastPollTime = _
          rw [computeRemovedLogs_filter, (foldl_rewind _ _).1]
      | read p => exact CursorStepped.silent rfl rfl rfl Iff.rfl
      | resolved p latest => exact CursorStepped.silent rfl rfl rfl Iff.rfl
      | answered p latest => exact CursorStepped.silent rfl rfl rfl Iff.rfl
  | readLatest =>
      show CursorStepped w .readLatest w.readLatest.1 w.readLatest.2
      unfold CursorWorld.readLatest
      cases hphase : w.phase with
      | idle => exact CursorStepped.silent rfl rfl rfl Iff.rfl
      | read p => exact CursorStepped.silent rfl rfl rfl (by simp [hphase])
      | resolved p latest => exact CursorStepped.silent rfl rfl rfl Iff.rfl
      | answered p latest => exact CursorStepped.silent rfl rfl rfl Iff.rfl
  | coldAnswer =>
      show CursorStepped w .coldAnswer w.coldAnswer.1 w.coldAnswer.2
      unfold CursorWorld.coldAnswer
      cases hphase : w.phase with
      | idle => exact CursorStepped.silent rfl rfl rfl Iff.rfl
      | read p => exact CursorStepped.silent rfl rfl rfl Iff.rfl
      | resolved p latest =>
          dsimp only
          by_cases hearly : latest < p.start
          · rw [if_pos hearly]
            exact CursorStepped.silent rfl rfl rfl Iff.rfl
          · rw [if_neg hearly]
            exact CursorStepped.silent rfl rfl rfl (by simp [hphase])
      | answered p latest => exact CursorStepped.silent rfl rfl rfl Iff.rfl
  | commit now =>
      show CursorStepped w (.commit now) (w.commit now).1 (w.commit now).2
      unfold CursorWorld.commit
      cases hphase : w.phase with
      | idle => exact CursorStepped.silent rfl rfl rfl Iff.rfl
      | read p => exact CursorStepped.silent rfl rfl rfl Iff.rfl
      | resolved p latest =>
          dsimp only
          by_cases hearly : latest < p.start
          · rw [if_pos hearly]
            exact CursorStepped.committed (by simp [hphase]) p latest
          · rw [if_neg hearly]
            exact CursorStepped.silent rfl rfl rfl Iff.rfl
      | answered p latest => exact CursorStepped.committed (by simp [hphase]) p latest

/-- **A ring read hands over what was sent since the last commit**, and every step keeps
the invariant. -/
theorem cursorInv_step {os : List (CursorEvent G)} {w : CursorWorld Tx G} (h : CursorInv os w)
    (i : CursorStep G) (hroom : NoOverflow i w) :
    CursorInv (os ++ (cursorStep i w).1.toList) (cursorStep i w).2
      ∧ ∀ o, (cursorStep i w).1 = some o →
        ∀ entries, o = .handed entries → entries = (pollTrace os).after := by
  have hstep := cursorStep_stepped i w
  generalize (cursorStep i w).1 = out at hstep ⊢
  generalize (cursorStep i w).2 = w' at hstep ⊢
  cases hstep with
  | pushed now notif =>
      obtain ⟨hnow, hlen⟩ := hroom
      have hsince := Nat.lt_of_le_of_lt h.pollTime hnow
      refine ⟨⟨h.ring.push hnow notif, Nat.le_of_lt hsince, ?_, ?_⟩, ?_⟩
      · rw [Option.toList_some, pollTrace_concat]
        refine Iff.trans ?_ h.inPoll
        unfold PollTrace.next
        dsimp only
        split <;> rfl
      · intro hidle
        -- between two polls a push is unread, and no unread entry makes room for it
        have hout : ¬ (pollTrace os).inPoll = true := fun hin => h.inPoll.mp hin hidle
        rw [Option.toList_some, pollTrace_concat]
        show entriesSince (pushReorg w.notifier.reorgs now notif) w.filter.lastPollTime = _
        rw [entriesSince_push h.ring hsince hlen, h.after hidle]
        unfold PollTrace.next
        dsimp only
        rw [if_neg hout]
      · intro o ho entries he
        rw [← Option.some.inj ho] at he
        exact absurd he (by simp)
  | silent hring hfilter hclock hphase =>
      rw [Option.toList_none, List.append_nil]
      refine ⟨⟨?_, ?_, ?_, ?_⟩, fun o ho => absurd ho (by simp)⟩
      · rw [hring, hclock]
        exact h.ring
      · rw [hfilter, hclock]
        exact h.pollTime
      · rw [Ne, hphase]
        exact h.inPoll
      · intro hidle
        rw [hring, hfilter]
        exact h.after (hphase.mp hidle)
  | read hidle hring hfilter hclock hphase =>
      rw [Option.toList_some]
      refine ⟨⟨?_, ?_, ?_, fun hidle' => absurd hidle' hphase⟩, ?_⟩
      · rw [hring, hclock]
        exact h.ring
      · rw [hfilter, hclock]
        exact h.pollTime
      · rw [pollTrace_concat]
        exact ⟨fun _ => hphase, fun _ => rfl⟩
      · intro o ho entries he
        rw [← Option.some.inj ho] at he
        rw [← CursorEvent.handed.inj he]
        exact h.after hidle
  | @committed now hphase p latest =>
      have hnow : w.clock < now := hroom
      rw [Option.toList_some]
      refine ⟨⟨h.ring.later (Nat.le_of_lt hnow), ?_, ?_, ?_⟩, ?_⟩
      · show (p.commit latest now w.filter).lastPollTime ≤ now
        rw [commit_lastPollTime]
      · rw [pollTrace_concat]
        exact ⟨fun hin => absurd hin (by simp [PollTrace.next]), fun hne => absurd rfl hne⟩
      · intro _
        -- the poll time passes over the whole ring, what came during the poll included
        show entriesSince w.notifier.reorgs (p.commit latest now w.filter).lastPollTime = _
        rw [commit_lastPollTime, entriesSince_clock h.ring (Nat.le_of_lt hnow), pollTrace_concat]
        exact ((unread_eq os).2 (h.inPoll.mpr hphase)).symm
      · intro o ho entries he
        rw [← Option.some.inj ho] at he
        exact absurd he (by simp)

/--
**When no reorg is lost to a poll in progress.** For every interleaving of reorgs, tag
stores and the parts of one filter's polls: each ring read hands over exactly the reorgs
sent since the ring read before it, if and only if, each time the ring is read again, no
reorg was sent between the last ring read and the commit of its poll.
-/
theorem unread_handed_iff {notifier : ChainNotifier Tx G} {kind : InterestKind G}
    {installTime : Nat} (hring : RingOrdered notifier.reorgs installTime)
    {os : List (CursorEvent G)} {w : CursorWorld Tx G}
    (h : Run cursorStep NoOverflow (CursorWorld.installed notifier kind installTime) os w) :
    Along HandsOverUnread os ↔ Along NoneDuringPoll os := by
  have hinit : CursorInv [] (CursorWorld.installed notifier kind installTime) :=
    ⟨hring, Nat.le_refl _, ⟨fun hin => absurd hin (by simp [pollTrace]), fun hne => absurd rfl hne⟩,
      fun _ => entriesSince_clock hring (Nat.le_refl _)⟩
  obtain ⟨_, hlaw⟩ := Run.law
    (L := fun pre o => ∀ entries, o = .handed entries → entries = (pollTrace pre).after)
    hinit (fun i os w hw hroom => cursorInv_step hw i hroom) h
  constructor
  · intro hall pre o post hos entries ho
    have hsame := (hall pre o post hos entries ho).symm.trans (hlaw pre o post hos entries ho)
    rw [(unread_eq pre).1] at hsame
    simpa using hsame
  · intro hnone pre o post hos entries ho
    rw [(unread_eq pre).1, hnone pre o post hos entries ho, List.nil_append]
    exact hlaw pre o post hos entries ho

/-- A reorg that leaves only genesis. -/
def toGenesis : ReorgNotification Nat := ⟨0, [⟨1, 11, 0, []⟩]⟩

/-- A log filter installed at genesis, when one block was appended since. -/
def oneAppended : CursorWorld Unit Nat :=
  CursorWorld.installed ⟨⟨0, 0, 0⟩, [], []⟩ (.log fun _ => true) 0

/-- A reorg between two polls goes to the second one. -/
theorem unread_handed_iff_between :
    let steps : List (CursorStep Nat) := [.setTags ⟨1, 0, 0⟩, .readRing, .readLatest, .coldAnswer,
      .commit 1, .sendReorg 2 toGenesis, .readRing]
    Along HandsOverUnread (runInputs cursorStep steps oneAppended).1 := by
  intro steps
  have hrun : Run cursorStep NoOverflow oneAppended _ _ := runInputs_run steps oneAppended
    ⟨trivial, trivial, trivial, trivial, (by omega : 0 < 1), ⟨(by omega : 1 < 2), by decide⟩,
      trivial, trivial⟩
  refine (unread_handed_iff ⟨List.Pairwise.nil, fun _ he => absurd he (by simp)⟩ hrun).mpr ?_
  have hnone (pre : List (CursorEvent Nat)) (o : CursorEvent Nat)
      (h : (pollTrace pre).during = []) : NoneDuringPoll pre o := fun _ _ => h
  exact along_concat (along_concat (along_concat (along_concat along_nil (hnone _ _ rfl))
    (hnone _ _ rfl)) (hnone _ _ rfl)) (hnone _ _ rfl)

/-- **A reorg that lands while a poll waits for cold storage is lost**: the next ring read
does not return it. -/
theorem reorg_during_poll_skipped :
    ¬ ∀ (os : List (CursorEvent Nat)) (w : CursorWorld Unit Nat),
      Run cursorStep NoOverflow oneAppended os w → Along HandsOverUnread os := by
  intro hall
  let steps : List (CursorStep Nat) := [.setTags ⟨1, 0, 0⟩, .readRing, .readLatest,
    .sendReorg 1 toGenesis, .coldAnswer, .commit 2, .readRing]
  have hrun : Run cursorStep NoOverflow oneAppended _ _ := runInputs_run steps oneAppended
    ⟨trivial, trivial, trivial, ⟨(by omega : 0 < 1), by decide⟩, trivial, (by omega : 1 < 2),
      trivial, trivial⟩
  have hlost := hall _ _ hrun [.handed [], .pushed (1, toGenesis), .committed] (.handed []) [] rfl
    [] rfl
  exact absurd hlost (by decide)

end NodeComponents.Rpc
