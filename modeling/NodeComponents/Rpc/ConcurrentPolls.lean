import NodeComponents.Rpc.PollCalls

/-!
# Concurrent polls of one filter

The lock on a filter is dropped while cold storage is awaited, so several calls may
start from the same cursor. Each sets it to behind the tag it loaded, whatever the
cursor has become meanwhile: a slower call moves it back, and what two calls have in
their range they return twice.

Overlap that holds no output does no harm, and nothing else does any.
-/

namespace NodeComponents.Rpc

open Lib

variable {G Tx : Type} {kind : InterestKind G} {chain : List (CanonicalBlock G)}

/-- Cold storage holds every block it is asked for. -/
def ColdUpToDate : CallStep G → CallsWorld Tx G → Prop
  | .answer i, w => ∀ p latest, w.calls[i]? = some (.resolved p latest) → latest < w.held
  | _, _ => True

theorem ColdUpToDate.noneMissed {s : CallStep G} {w : CallsWorld Tx G} (h : ColdUpToDate s w) :
    NoneMissed s w := by
  cases s with
  | answer i =>
      intro p latest hcall
      have hheld := h p latest hcall
      exact itemsBetween_empty (by omega)
  | _ => trivial

/-- Two calls return nothing in common. -/
def Disjoint (a b : CallReturn G) : Prop := List.Disjoint a.out.items b.out.items

/-- If no item occurs twice in what was returned, no two calls returned the same one. -/
theorem pairwise_disjoint {os : List (CallReturn G)} (h : (returnedItems os).Nodup) :
    os.Pairwise Disjoint :=
  (List.nodup_flatMap.mp h).2

/-- **The cursor does not go back**, from any state of a run to a later one. -/
theorem callsInv_run {height : Nat} {os os' : List (CallReturn G)} {w w' : CallsWorld Tx G}
    (h : CallsInv kind height os w)
    (hrun : Run callStep (fun s w => Lagging s w ∧ ColdUpToDate s w ∧ NoOverlap s w) w os' w') :
    CallsInv kind height (os ++ os') w'
      ∧ w.filter.nextStartBlock ≤ w'.filter.nextStartBlock := by
  refine hrun.invariant (I := fun os' w' => CallsInv kind height (os ++ os') w'
    ∧ w.filter.nextStartBlock ≤ w'.filter.nextStartBlock) ⟨?_, Nat.le_refl _⟩ ?_
  · rwa [List.append_nil]
  · rintro s front v ⟨hinv, hcursor⟩ ⟨hlag, hcold, hover⟩
    obtain ⟨hnext, hmono⟩ := callsInv_step hinv s hlag hcold.noneMissed hover
    rw [← List.append_assoc]
    exact ⟨hnext, Nat.le_trans hcursor hmono⟩

/--
**Concurrent polls of one filter.** Any number of calls poll it, in any interleaving
with appended blocks and with cold storage up to date. If each call that commits finds
the cursor no higher than behind its own tag, and no output between its own start and
the cursor, then the cursor never decreases, all calls together have returned the output
of each block from the install height to the cursor once and in order, and, where the
items of the chain are distinct, no item is returned by two calls.
-/
theorem concurrent_polls_once {held : Nat} {notifier : ChainNotifier Tx G} {installTime : Nat}
    (hring : RingOrdered notifier.reorgs installTime) (htag : notifier.tags.latest < chain.length)
    {os os' : List (CallReturn G)} {w w' : CallsWorld Tx G}
    (h : Run callStep (fun s w => Lagging s w ∧ ColdUpToDate s w ∧ NoOverlap s w)
      (CallsWorld.installed chain held notifier kind installTime) os w)
    (h' : Run callStep (fun s w => Lagging s w ∧ ColdUpToDate s w ∧ NoOverlap s w) w os' w') :
    w.filter.nextStartBlock ≤ w'.filter.nextStartBlock
      ∧ returnedItems (os ++ os')
        = itemsBetween kind w'.chain (notifier.tags.latest + 1) w'.filter.nextStartBlock
      ∧ ((itemsBetween kind w'.chain (notifier.tags.latest + 1)
          w'.filter.nextStartBlock).Nodup → (os ++ os').Pairwise Disjoint) := by
  have hinv := (callsInv_run (callsInv_installed hring htag) h).1
  obtain ⟨hinv', hcursor⟩ := callsInv_run hinv h'
  rw [List.nil_append] at hinv'
  refine ⟨hcursor, hinv'.returned, fun hnodup => pairwise_disjoint ?_⟩
  rw [hinv'.returned]
  exact hnodup

theorem coldUpToDate_answer {w : CallsWorld Tx G} {i latest : Nat} {p : PollStart G}
    (hcall : w.calls[i]? = some (.resolved p latest)) (h : latest < w.held) :
    ColdUpToDate (.answer i) w := by
  intro q latest' hq
  obtain ⟨rfl, rfl⟩ := CallPhase.resolved.inj (Option.some.inj (hcall.symm.trans hq))
  exact h

theorem noOverlap_commit {w : CallsWorld Tx G} {i latest now : Nat} {p : PollStart G}
    {out : FilterOutput G} (hcall : w.calls[i]? = some (.answered p latest out))
    (h : w.filter.nextStartBlock ≤ latest + 1
      ∧ itemsBetween p.kind w.chain p.start w.filter.nextStartBlock = []) :
    NoOverlap (.commit i now) w := by
  intro q latest' out' hq _
  obtain ⟨rfl, rfl, _⟩ := CallPhase.answered.inj (Option.some.inj (hcall.symm.trans hq))
  exact h

/-- A filter on a chain of one block, which cold storage holds. -/
def watched (kind : InterestKind Nat) : CallsWorld Unit Nat :=
  CallsWorld.installed [oneLog 0 7] 1 ⟨⟨0, 0, 0⟩, [], []⟩ kind 0

/-- The filter when two calls have copied it and the first one is answered with `out`. -/
def watchedByTwo (kind : InterestKind Nat) (out : FilterOutput Nat) : CallsWorld Unit Nat :=
  ⟨[oneLog 0 7, oneLog 1 8], 2, ⟨⟨1, 0, 0⟩, [], []⟩, ⟨1, 0, kind⟩,
    [.answered ⟨kind, 1, []⟩ 1 out, .copied ⟨kind, 1, []⟩]⟩

/-- The steps up to there. -/
def twoCopies : List (CallStep Nat) :=
  [.append (oneLog 1 8), .ingest 2, .copy, .copy, .readLatest 0, .answer 0]

/-- Two calls start from the same cursor, but the block both return has no matching log. -/
theorem concurrent_polls_once_noLogs :
    let kind : InterestKind Nat := .log fun log => 8 < log
    returnedItems [⟨1, .log []⟩, ⟨2, .log (oneLog 2 9).logs⟩]
        = itemsBetween kind [oneLog 0 7, oneLog 1 8, oneLog 2 9] 1 3
      ∧ [⟨1, .log []⟩, ⟨2, .log (oneLog 2 9).logs⟩].Pairwise (@Disjoint Nat) := by
  intro kind
  let rest : List (CallStep Nat) := [.append (oneLog 2 9), .ingest 3, .readLatest 1, .answer 1,
    .commit 0 1, .commit 1 2]
  have hfirst : Run callStep (fun s w => Lagging s w ∧ ColdUpToDate s w ∧ NoOverlap s w)
      (watched kind) [] (watchedByTwo kind (.log [])) :=
    runInputs_run twoCopies (watched kind) ⟨⟨trivial, trivial, trivial⟩,
      ⟨⟨by decide, by decide⟩, trivial, trivial⟩, ⟨trivial, trivial, trivial⟩,
      ⟨trivial, trivial, trivial⟩, ⟨trivial, trivial, trivial⟩,
      ⟨trivial, coldUpToDate_answer (p := ⟨kind, 1, []⟩) rfl (Nat.lt_succ_self 1), trivial⟩,
      trivial⟩
  have hsecond : Run callStep (fun s w => Lagging s w ∧ ColdUpToDate s w ∧ NoOverlap s w)
      (watchedByTwo kind (.log [])) [⟨1, .log []⟩, ⟨2, .log (oneLog 2 9).logs⟩]
      ⟨[oneLog 0 7, oneLog 1 8, oneLog 2 9], 3, ⟨⟨2, 0, 0⟩, [], []⟩, ⟨3, 2, kind⟩,
        [.done, .done]⟩ :=
    runInputs_run rest (watchedByTwo kind (.log [])) ⟨⟨trivial, trivial, trivial⟩,
      ⟨⟨by decide, by decide⟩, trivial, trivial⟩, ⟨trivial, trivial, trivial⟩,
      ⟨trivial, coldUpToDate_answer (p := ⟨kind, 1, []⟩) rfl (Nat.lt_succ_self 2), trivial⟩,
      ⟨Nat.zero_le 1, trivial,
        noOverlap_commit (p := ⟨kind, 1, []⟩) rfl ⟨Nat.le_succ 1, rfl⟩⟩,
      ⟨Nat.le_succ 1, trivial,
        noOverlap_commit (p := ⟨kind, 1, []⟩) rfl ⟨Nat.le_succ 2, rfl⟩⟩, trivial⟩
  obtain ⟨_, hitems, hdisjoint⟩ := concurrent_polls_once
    ⟨List.Pairwise.nil, fun _ he => absurd he (by simp)⟩ (by decide) hfirst hsecond
  exact ⟨hitems, hdisjoint (List.nodup_singleton _)⟩

/--
**A slower call repeats and rewinds.** Two calls start from the same cursor; the second
one loads the tag a block later and commits first. The first call then returns block 1
once more, and takes the cursor back before block 2.
-/
theorem concurrent_polls_repeat :
    ∃ w w', Run callStep (fun s w => Lagging s w ∧ ColdUpToDate s w) (watched .block)
        [⟨2, .block [1, 2]⟩] w
      ∧ Run callStep (fun s w => Lagging s w ∧ ColdUpToDate s w) w [⟨1, .block [1]⟩] w'
      ∧ w.filter.nextStartBlock = 3 ∧ w'.filter.nextStartBlock = 2 := by
  let second : List (CallStep Nat) := [.append (oneLog 2 9), .ingest 3, .readLatest 1, .answer 1,
    .commit 1 1]
  let overtaken : CallsWorld Unit Nat := ⟨[oneLog 0 7, oneLog 1 8, oneLog 2 9], 3,
    ⟨⟨2, 0, 0⟩, [], []⟩, ⟨3, 1, .block⟩, [.answered ⟨.block, 1, []⟩ 1 (.block [1]), .done]⟩
  have hcopies : Run callStep (fun s w => Lagging s w ∧ ColdUpToDate s w)
      (watched .block) [] (watchedByTwo .block (.block [1])) :=
    runInputs_run twoCopies (watched .block) ⟨⟨trivial, trivial⟩,
      ⟨⟨by decide, by decide⟩, trivial⟩, ⟨trivial, trivial⟩, ⟨trivial, trivial⟩,
      ⟨trivial, trivial⟩,
      ⟨trivial, coldUpToDate_answer (p := ⟨.block, 1, []⟩) rfl (Nat.lt_succ_self 1)⟩, trivial⟩
  have hsecond : Run callStep (fun s w => Lagging s w ∧ ColdUpToDate s w)
      (watchedByTwo .block (.block [1])) [⟨2, .block [1, 2]⟩] overtaken :=
    runInputs_run second (watchedByTwo .block (.block [1])) ⟨⟨trivial, trivial⟩,
      ⟨⟨by decide, by decide⟩, trivial⟩, ⟨trivial, trivial⟩,
      ⟨trivial, coldUpToDate_answer (p := ⟨.block, 1, []⟩) rfl (Nat.lt_succ_self 2)⟩,
      ⟨Nat.zero_le 1, trivial⟩, trivial⟩
  have hslower : Run callStep (fun s w => Lagging s w ∧ ColdUpToDate s w) overtaken
      [⟨1, .block [1]⟩]
      { overtaken with filter := ⟨2, 2, .block⟩, calls := [.done, .done] } :=
    runInputs_run [CallStep.commit 0 2] overtaken ⟨⟨Nat.le_succ 1, trivial⟩, trivial⟩
  exact ⟨overtaken, _, hcopies.trans hsecond, hslower, rfl, rfl⟩

end NodeComponents.Rpc
