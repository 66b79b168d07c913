import NodeComponents.Rpc.Replay

/-!
# A poll that fails

A poll rewinds the block cursor before it waits for cold storage and moves the
poll time only once it succeeds. So the retry of a failed poll reads the same
reorgs, against a cursor they have already rewound: none of their removed blocks
is below it any more, and the removals the failed poll was about to return are
gone.

`retry_same_iff` says when that loses nothing: exactly when there was nothing to
remove.
-/

namespace NodeComponents.Rpc

variable {G : Type} {filter : G → Bool}

/-! ## The cursor -/

theorem foldl_rewind_le (reorgs : List (ReorgNotification G)) (f : ActiveFilter G) :
    (reorgs.foldl ActiveFilter.rewind f).nextStartBlock ≤ f.nextStartBlock ∧
      ∀ n ∈ reorgs, (reorgs.foldl ActiveFilter.rewind f).nextStartBlock ≤ n.commonAncestor + 1 := by
  induction reorgs generalizing f with
  | nil => exact ⟨Nat.le_refl _, by simp⟩
  | cons m rest ih =>
      obtain ⟨hle, hall⟩ := ih (f.rewind m)
      have hstep : (f.rewind m).nextStartBlock
        = min f.nextStartBlock (m.commonAncestor + 1) := rfl
      rw [List.foldl_cons]
      refine ⟨by omega, ?_⟩
      intro n hn
      rcases List.mem_cons.mp hn with rfl | hn
      · omega
      · exact hall n hn

/-- Reorgs that are not below the cursor leave the filter as it is. -/
theorem foldl_rewind_fixed {reorgs : List (ReorgNotification G)} {f : ActiveFilter G}
    (h : ∀ n ∈ reorgs, f.nextStartBlock ≤ n.commonAncestor + 1) :
    reorgs.foldl ActiveFilter.rewind f = f := by
  induction reorgs with
  | nil => rfl
  | cons n rest ih =>
      have hn : f.rewind n = f := by
        unfold ActiveFilter.rewind
        rw [Nat.min_eq_left (h n (by simp))]
      rw [List.foldl_cons, hn]
      exact ih fun m hm => h m (List.mem_cons_of_mem n hm)

/-- Rewinding a second time by the same reorgs changes nothing. -/
theorem foldl_rewind_again (reorgs : List (ReorgNotification G)) (f : ActiveFilter G) :
    reorgs.foldl ActiveFilter.rewind (reorgs.foldl ActiveFilter.rewind f)
      = reorgs.foldl ActiveFilter.rewind f :=
  foldl_rewind_fixed (foldl_rewind_le reorgs f).2

/-! ## The removed logs -/

/-- Two lists that shrink only give the same whole if neither shrinks. -/
theorem append_eq_iff_of_sublist {α : Type} {l l' m m' : List α} (hl : l.Sublist l')
    (hm : m.Sublist m') :
    l ++ m = l' ++ m' ↔ l = l' ∧ m = m' := by
  constructor
  · intro h
    have hlen := congrArg List.length h
    rw [List.length_append, List.length_append] at hlen
    have hle := hl.length_le
    have hme := hm.length_le
    exact ⟨hl.eq_of_length (by omega), hm.eq_of_length (by omega)⟩
  · intro hq
    rcases hq with ⟨rfl, rfl⟩
    rfl

/-- Below a smaller cursor fewer logs were delivered, and just as many iff the blocks in
between have no matching log. -/
theorem removedLogs_smaller (filter : G → Bool) {low high : Nat} (hle : low ≤ high)
    (blocks : List (RemovedBlock G)) :
    (removedLogs filter low blocks).Sublist (removedLogs filter high blocks) ∧
      (removedLogs filter low blocks = removedLogs filter high blocks ↔
        ∀ b ∈ blocks, low ≤ b.number → b.number < high → ∀ log ∈ b.logs,
          filter log.inner = false) := by
  induction blocks with
  | nil => simp [removedLogs]
  | cons b blocks ih =>
      obtain ⟨hsub, hiff⟩ := ih
      -- what the block adds below a cursor
      have hcons (snapshot : Nat) : removedLogs filter snapshot (b :: blocks)
          = (if b.number < snapshot then (b.logs.filter fun log => filter log.inner).map
              fun log => { log with removed := true } else [])
            ++ removedLogs filter snapshot blocks := by
        unfold removedLogs
        rw [List.filter_cons]
        by_cases h : b.number < snapshot <;> simp [h]
      have hblock : (if b.number < low then (b.logs.filter fun log => filter log.inner).map
            fun log => { log with removed := true } else []).Sublist
          (if b.number < high then (b.logs.filter fun log => filter log.inner).map
            fun log => { log with removed := true } else []) := by
        by_cases h : b.number < low
        · rw [if_pos h, if_pos (by omega)]
        · rw [if_neg h]
          exact List.nil_sublist _
      rw [hcons low, hcons high]
      refine ⟨hblock.append hsub, ?_⟩
      rw [append_eq_iff_of_sublist hblock hsub, hiff, List.forall_mem_cons]
      refine and_congr_left fun _ => ?_
      by_cases hlow : b.number < low
      · rw [if_pos hlow, if_pos (by omega)]
        exact iff_of_true rfl fun hge => absurd hlow (by omega)
      · rw [if_neg hlow]
        by_cases hhigh : b.number < high
        · rw [if_pos hhigh, eq_comm, List.map_eq_nil_iff, List.filter_eq_nil_iff]
          simp only [Bool.not_eq_true]
          exact ⟨fun h _ _ => h, fun h => h (by omega) hhigh⟩
        · rw [if_neg hhigh]
          exact iff_of_true rfl fun _ hlt => absurd hlt hhigh

/-- Behind a rewind the loop cuts every reorg at the rewound cursor. -/
theorem removeLoop_fixed {reorgs : List (ReorgNotification G)} {f : ActiveFilter G}
    (h : ∀ n ∈ reorgs, f.nextStartBlock ≤ n.commonAncestor + 1) :
    (removeLoop filter reorgs f).1
      = reorgs.flatMap fun n => removedLogs filter f.nextStartBlock n.removedBlocks := by
  induction reorgs with
  | nil => rfl
  | cons n rest ih =>
      have hn : f.rewind n = f := by
        unfold ActiveFilter.rewind
        rw [Nat.min_eq_left (h n (by simp))]
      show removedLogs filter f.nextStartBlock n.removedBlocks
        ++ (removeLoop filter rest (f.rewind n)).1 = _
      rw [hn, ih fun m hm => h m (List.mem_cons_of_mem n hm), List.flatMap_cons]

/--
No reorg removed a log the filter had delivered: a removed block below the cursor
that the reorgs before left, and not below the one all of them leave, has no
matching log.
-/
def RemovesNothing (filter : G → Bool) (reorgs : List (ReorgNotification G))
    (f : ActiveFilter G) : Prop :=
  ∀ pre n post, reorgs = pre ++ n :: post → ∀ b ∈ n.removedBlocks,
    (reorgs.foldl ActiveFilter.rewind f).nextStartBlock ≤ b.number →
    b.number < (pre.foldl ActiveFilter.rewind f).nextStartBlock →
    ∀ log ∈ b.logs, filter log.inner = false

/-- **Removals against a smaller cursor.** Cutting every reorg at one cursor below those of
the loop finds fewer logs, and just as many iff nothing matching lies in between. -/
theorem removeLoop_smaller (filter : G → Bool) {low : Nat} :
    ∀ (reorgs : List (ReorgNotification G)) (f : ActiveFilter G),
      low ≤ (reorgs.foldl ActiveFilter.rewind f).nextStartBlock →
      (reorgs.flatMap fun n => removedLogs filter low n.removedBlocks).Sublist
          (removeLoop filter reorgs f).1 ∧
        ((reorgs.flatMap fun n => removedLogs filter low n.removedBlocks)
            = (removeLoop filter reorgs f).1 ↔
          ∀ pre n post, reorgs = pre ++ n :: post → ∀ b ∈ n.removedBlocks,
            low ≤ b.number → b.number < (pre.foldl ActiveFilter.rewind f).nextStartBlock →
            ∀ log ∈ b.logs, filter log.inner = false)
  | [], f, _ => ⟨List.Sublist.refl _,
      iff_of_true rfl fun pre n post heq => absurd heq (by simp)⟩
  | n :: rest, f, hlow => by
      have hcursor := (foldl_rewind_le (n :: rest) f).1
      obtain ⟨hhere, hhereiff⟩ := removedLogs_smaller filter (Nat.le_trans hlow hcursor)
        n.removedBlocks
      obtain ⟨hlater, hlateriff⟩ := removeLoop_smaller filter rest (f.rewind n) hlow
      rw [List.flatMap_cons]
      refine ⟨hhere.append hlater, ?_⟩
      show _ = removedLogs filter f.nextStartBlock n.removedBlocks
        ++ (removeLoop filter rest (f.rewind n)).1 ↔ _
      rw [append_eq_iff_of_sublist hhere hlater, hhereiff, hlateriff]
      constructor
      · rintro ⟨hfirst, hrest⟩ pre m post heq
        cases pre with
        | nil =>
            obtain ⟨rfl, _⟩ := List.cons.inj heq
            exact hfirst
        | cons d pre =>
            obtain ⟨rfl, htail⟩ := List.cons.inj heq
            exact hrest pre m post htail
      · intro hall
        exact ⟨hall [] n rest rfl, fun pre m post heq =>
          hall (n :: pre) m post (by rw [heq]; rfl)⟩

/-! ## The retry -/

/-- A poll that fails leaves the filter rewound and its poll time where it was. -/
theorem getFilterChanges_failed {reorgs : ReorgBuffer G} {tags : BlockTags} {cold : ColdReads G}
    {now : Nat} {f : ActiveFilter G} {e : String}
    (h : (getFilterChanges reorgs tags cold now f).1 = .error e) :
    (getFilterChanges reorgs tags cold now f).2
        = (reorgsSince reorgs f.lastPollTime).foldl ActiveFilter.rewind f ∧
      ((reorgsSince reorgs f.lastPollTime).foldl ActiveFilter.rewind f).nextStartBlock
        ≤ tags.latest := by
  have hcursor : (f.readRing reorgs).2
      = (reorgsSince reorgs f.lastPollTime).foldl ActiveFilter.rewind f :=
    computeRemovedLogs_filter f (reorgsSince reorgs f.lastPollTime)
  have hread : (f.readRing reorgs).1.start = (f.readRing reorgs).2.nextStartBlock := rfl
  unfold getFilterChanges at h ⊢
  dsimp only at h ⊢
  cases hout : (f.readRing reorgs).1.output cold tags.latest with
  | ok out => rw [hout] at h; exact absurd h (by simp)
  | error e' =>
      refine ⟨hcursor, ?_⟩
      rw [← hcursor, ← hread]
      unfold PollStart.output at hout
      split at hout
      · exact absurd hout (by simp)
      · rename_i hle
        exact Nat.le_of_not_lt hle

/-- What a poll of a log filter returns once there is something to read. -/
theorem getFilterChanges_log {reorgs : ReorgBuffer G} {tags : BlockTags} {cold : ColdReads G}
    {now : Nat} {f : ActiveFilter G} (hkind : f.kind = .log filter)
    (hstart : ((reorgsSince reorgs f.lastPollTime).foldl ActiveFilter.rewind f).nextStartBlock
      ≤ tags.latest) :
    (getFilterChanges reorgs tags cold now f).1
      = (cold.streamLogs filter
          ((reorgsSince reorgs f.lastPollTime).foldl ActiveFilter.rewind f).nextStartBlock
          tags.latest).map fun logs =>
            .log ((removeLoop filter (reorgsSince reorgs f.lastPollTime) f).1 ++ logs) := by
  have hloop : f.computeRemovedLogs (reorgsSince reorgs f.lastPollTime)
      = removeLoop filter (reorgsSince reorgs f.lastPollTime) f := by
    unfold ActiveFilter.computeRemovedLogs
    rw [hkind]
    rfl
  have hread : f.readRing reorgs
      = (⟨.log filter,
          ((reorgsSince reorgs f.lastPollTime).foldl ActiveFilter.rewind f).nextStartBlock,
          (removeLoop filter (reorgsSince reorgs f.lastPollTime) f).1⟩,
        (reorgsSince reorgs f.lastPollTime).foldl ActiveFilter.rewind f) := by
    unfold ActiveFilter.readRing
    rw [hloop]
    dsimp only
    rw [removeLoop_filter, (foldl_rewind _ f).2, hkind]
  unfold getFilterChanges PollStart.output
  rw [hread]
  dsimp only
  rw [if_neg (by omega)]
  cases cold.streamLogs filter _ tags.latest <;> rfl

/--
**When the retry of a failed poll returns the same.** A poll of a log filter fails
because of cold storage, and the next one succeeds with nothing changed in
between but cold storage answering: it returns what it would have returned had
the failed poll not been made, if and only if no unread reorg removed a log that
the filter had delivered.
-/
theorem retry_same_iff {reorgs : ReorgBuffer G} {tags : BlockTags} {cold cold' : ColdReads G}
    {now now' : Nat} {f : ActiveFilter G} {e : String} {out : FilterOutput G}
    (hkind : f.kind = .log filter)
    (hfail : (getFilterChanges reorgs tags cold now f).1 = .error e)
    (hretry : (getFilterChanges reorgs tags cold' now'
      (getFilterChanges reorgs tags cold now f).2).1 = .ok out) :
    (getFilterChanges reorgs tags cold' now' (getFilterChanges reorgs tags cold now f).2).1
        = (getFilterChanges reorgs tags cold' now' f).1 ↔
      RemovesNothing filter (reorgsSince reorgs f.lastPollTime) f := by
  obtain ⟨hleft, hstart⟩ := getFilterChanges_failed hfail
  rw [hleft] at hretry ⊢
  obtain ⟨htime, hafter⟩ := foldl_rewind (reorgsSince reorgs f.lastPollTime) f
  have hfloor := (foldl_rewind_le (reorgsSince reorgs f.lastPollTime) f).2
  have hagain := foldl_rewind_again (reorgsSince reorgs f.lastPollTime) f
  have hsmaller := (removeLoop_smaller filter (reorgsSince reorgs f.lastPollTime) f
    (Nat.le_refl _)).2
  rw [getFilterChanges_log hkind hstart]
  generalize hrewound : (reorgsSince reorgs f.lastPollTime).foldl ActiveFilter.rewind f = f'
    at hretry htime hafter hfloor hagain hsmaller hstart ⊢
  rw [← htime] at hfloor hagain
  rw [getFilterChanges_log (hafter.trans hkind) (by rw [hagain]; exact hstart), hagain,
    removeLoop_fixed hfloor, htime] at hretry ⊢
  cases hlogs : cold'.streamLogs filter f'.nextStartBlock tags.latest with
  | error e' =>
      rw [hlogs] at hretry
      exact absurd hretry (by simp [Except.map])
  | ok logs =>
      simp only [Except.map, Except.ok.injEq, FilterOutput.log.injEq, List.append_cancel_right_eq]
      rw [hsmaller]
      unfold RemovesNothing
      rw [hrewound]

/-- Cold storage that cannot be read. -/
def unreadable : ColdReads Nat where
  getHeaders _ _ := .error "cold storage unavailable"
  streamLogs _ _ _ := .error "cold storage unavailable"

/-- A filter that matches every log, and has delivered up to block 2. -/
def deliveredTwo : ActiveFilter Nat := ⟨3, 0, .log fun _ => true⟩

/-- Nothing was reorged: the retry returns the logs of the new block. -/
theorem retry_same_iff_quiet :
    let chain := [oneLog 0 7, oneLog 1 8, oneLog 2 9, oneLog 3 10]
    let failed := getFilterChanges [] ⟨3, 0, 0⟩ unreadable 1 deliveredTwo
    (getFilterChanges [] ⟨3, 0, 0⟩ (coldOf chain) 2 failed.2).1
      = (getFilterChanges [] ⟨3, 0, 0⟩ (coldOf chain) 2 deliveredTwo).1 := by
  intro chain failed
  have hkind : deliveredTwo.kind = .log fun _ => true := rfl
  have hfail : failed.1 = .error "cold storage unavailable" := rfl
  have hretry : (getFilterChanges [] ⟨3, 0, 0⟩ (coldOf chain) 2 failed.2).1
    = .ok (.log (oneLog 3 10).logs) := rfl
  refine (retry_same_iff hkind hfail hretry).mpr ?_
  intro pre n post heq
  exact absurd heq (by simp [reorgsSince])

/-- Block 2 was replaced: the failed poll was to remove its log, the retry does not. -/
theorem failed_poll_forgets_removal :
    let removed := removedAbove [oneLog 0 7, oneLog 1 8, oneLog 2 9] 1
    let ring : ReorgBuffer Nat := [(1, ⟨1, removed⟩)]
    let cold := coldOf [oneLog 0 7, oneLog 1 8, oneLog 2 11]
    let failed := getFilterChanges ring ⟨2, 0, 0⟩ unreadable 2 deliveredTwo
    let retried := (getFilterChanges ring ⟨2, 0, 0⟩ cold 3 failed.2).1
    let unfailed := (getFilterChanges ring ⟨2, 0, 0⟩ cold 3 deliveredTwo).1
    failed.1 = .error "cold storage unavailable"
      ∧ retried = .ok (.log (oneLog 2 11).logs)
      ∧ unfailed = .ok (.log (((oneLog 2 9).logs.map fun log => { log with removed := true })
          ++ (oneLog 2 11).logs))
      ∧ retried ≠ unfailed := by
  intro removed ring cold failed retried unfailed
  have hretried : retried = .ok (.log (oneLog 2 11).logs) := rfl
  have hunfailed : unfailed = .ok (.log (((oneLog 2 9).logs.map
    fun log => { log with removed := true }) ++ (oneLog 2 11).logs)) := rfl
  refine ⟨rfl, hretried, hunfailed, ?_⟩
  rw [hretried, hunfailed]
  simp [oneLog]

end NodeComponents.Rpc
