import NodeComponents.Rpc.PollCalls

/-!
# Polls behind a lagging cold storage

Cold storage holds a front part of the chain that grows behind the latest tag. A poll
asks it for the blocks up to the tag, takes what there is, and moves the cursor behind
the tag. Blocks that were missing are not asked for again.

So one poll after another returns every block exactly if no poll finds a block missing
that it would have returned. A failed read is no loss: it leaves the cursor.
-/

namespace NodeComponents.Rpc

open Lib

variable {G Tx : Type} {kind : InterestKind G} {chain : List (CanonicalBlock G)}

/-- A poll starts when all others have returned or failed. -/
def Sequential : CallStep G → CallsWorld Tx G → Prop
  | .copy, w => ∀ c ∈ w.calls, c = .done
  | _, _ => True

/-- What a call in progress has copied of the filter. -/
def CallPhase.pollStart : CallPhase G → Option (PollStart G)
  | .copied p => some p
  | .resolved p _ => some p
  | .answered p _ _ => some p
  | .done => none

/-- Only the last call may be in progress, and it has the cursor of the filter. -/
structure InTurn (w : CallsWorld Tx G) : Prop where
  last : ∀ i c, w.calls[i]? = some c → i + 1 < w.calls.length → c = .done
  start : ∀ c ∈ w.calls, ∀ p, c.pollStart = some p → p.start = w.filter.nextStartBlock

theorem InTurn.copy {w : CallsWorld Tx G} (hdone : ∀ c ∈ w.calls, c = .done) : InTurn w.copy := by
  refine ⟨fun i c hc hi => ?_, fun c hc p hp => ?_⟩
  · have hi' : i < w.calls.length := by
      have : i + 1 < (w.calls ++ [_]).length := hi
      rw [List.length_append, List.length_singleton] at this
      omega
    have hc' : (w.calls ++ [_])[i]? = some c := hc
    rw [List.getElem?_append_left hi'] at hc'
    exact hdone c (List.mem_of_getElem? hc')
  · rcases List.mem_append.mp hc with hold | hnew
    · rw [hdone c hold] at hp
      cases hp
    · rw [List.mem_singleton.mp hnew] at hp
      rw [← Option.some.inj hp]
      rfl

/-- The call in progress comes one phase further, or fails. -/
theorem InTurn.advance {w : CallsWorld Tx G} (h : InTurn w) {i : Nat} {c c' : CallPhase G}
    (hcall : w.calls[i]? = some c) (hlive : c ≠ .done)
    (hsame : ∀ p, c'.pollStart = some p → c.pollStart = some p) : InTurn (w.advance i c') := by
  refine ⟨fun j d hd hj => ?_, fun d hd p hp => ?_⟩
  · have hj' : j + 1 < w.calls.length := by
      have : j + 1 < (w.calls.set i c').length := hj
      rwa [List.length_set] at this
    have hd' : (w.calls.set i c')[j]? = some d := hd
    by_cases hij : i = j
    · subst hij
      exact absurd (h.last i c hcall hj') hlive
    · rw [List.getElem?_set_ne hij] at hd'
      exact h.last j d hd' hj'
  · rcases List.mem_or_eq_of_mem_set hd with hold | hnew
    · exact h.start d hold p hp
    · rw [hnew] at hp
      exact h.start c (List.mem_of_getElem? hcall) p (hsame p hp)

/-- Once the call in progress has returned, none is in progress. -/
theorem InTurn.finished {w : CallsWorld Tx G} (h : InTurn w) {i latest now : Nat}
    {p : PollStart G} {out : FilterOutput G} (hcall : w.calls[i]? = some (.answered p latest out)) :
    InTurn (w.finished i p latest now) := by
  have hdone : ∀ c ∈ w.calls.set i .done, c = .done := by
    intro c hc
    obtain ⟨j, hj, hget⟩ := List.mem_iff_getElem.mp hc
    rw [List.length_set] at hj
    by_cases hij : i = j
    · subst hij
      rw [List.getElem_set_self] at hget
      exact hget.symm
    · rw [List.getElem_set_ne hij] at hget
      have hi : i < w.calls.length := (List.getElem?_eq_some_iff.mp hcall).1
      have hlast : ¬ i + 1 < w.calls.length := fun hi => by cases h.last i _ hcall hi
      exact h.last j c (by rw [← hget]; exact List.getElem?_eq_getElem hj) (by omega)
  refine ⟨fun j c hc _ => hdone c (List.mem_of_getElem? hc), fun c hc q hq => ?_⟩
  rw [hdone c hc] at hq
  cases hq

theorem inTurn_step {w : CallsWorld Tx G} (h : InTurn w) (s : CallStep G) (hseq : Sequential s w) :
    InTurn (callStep s w).2 := by
  have hstep := callStep_moved s w
  generalize (callStep s w).1 = out at hstep
  generalize (callStep s w).2 = w' at hstep ⊢
  cases hstep with
  | same => exact h
  | appended b => exact ⟨h.last, h.start⟩
  | ingested held => exact ⟨h.last, h.start⟩
  | copied => exact InTurn.copy hseq
  | resolved hcall => exact h.advance hcall (fun hc => by cases hc) fun _ hp => hp
  | answered hcall _ => exact h.advance hcall (fun hc => by cases hc) fun _ hp => hp
  | failed s hcall => exact h.advance hcall (fun hc => by cases hc) fun _ hp => by cases hp
  | committed now hcall => exact h.finished hcall

/-- A call in turn starts at the cursor, so its commit overlaps nothing. -/
theorem InTurn.noOverlap {w : CallsWorld Tx G} (h : InTurn w) (s : CallStep G) :
    NoOverlap s w := by
  cases s with
  | commit i now =>
      intro p latest out hcall hlatest
      have hstart := h.start _ (List.mem_of_getElem? hcall) p rfl
      exact ⟨by omega, itemsBetween_empty (by omega)⟩
  | _ => trivial

/--
**Polls behind a lagging cold storage.** A filter is installed and polled by one call
after another, while blocks are appended and cold storage follows. If cold storage never
answers without a block that has output for the filter, then all polls together have
returned exactly the output of the blocks from the install height up to the latest one
any of them was asked for, in order.
-/
theorem lagging_polls_complete {held : Nat} {notifier : ChainNotifier Tx G} {installTime : Nat}
    (hring : RingOrdered notifier.reorgs installTime) (htag : notifier.tags.latest < chain.length)
    {os : List (CallReturn G)} {w : CallsWorld Tx G}
    (h : Run callStep (fun s w => Lagging s w ∧ Sequential s w ∧ NoneMissed s w)
      (CallsWorld.installed chain held notifier kind installTime) os w) :
    returnedItems os
        = itemsBetween kind w.chain (notifier.tags.latest + 1) w.filter.nextStartBlock
      ∧ (∀ r ∈ os, r.latest < w.filter.nextStartBlock)
      ∧ w.filter.nextStartBlock ≤ w.notifier.tags.latest + 1 := by
  have hinv : CallsInv kind notifier.tags.latest os w ∧ InTurn w := by
    refine Run.invariant (I := fun os w => CallsInv kind notifier.tags.latest os w ∧ InTurn w)
      ⟨callsInv_installed hring htag, ?_, ?_⟩ ?_ h
    · intro i c hc
      exact absurd hc (by simp [CallsWorld.installed])
    · intro c hc
      exact absurd hc (by simp [CallsWorld.installed])
    · rintro s os w ⟨hcalls, hturn⟩ ⟨hlag, hseq, hnone⟩
      exact ⟨(callsInv_step hcalls s hlag hnone (hturn.noOverlap s)).1, inTurn_step hturn s hseq⟩
  exact ⟨hinv.1.returned, hinv.1.passed, hinv.1.cursor⟩

/-- A block filter on a chain of one block, which cold storage holds. -/
def blockFilter : CallsWorld Unit Nat :=
  CallsWorld.installed [oneLog 0 7] 1 ⟨⟨0, 0, 0⟩, [], []⟩ .block 0

theorem noneMissed_answer {w : CallsWorld Tx G} {i latest : Nat} {p : PollStart G}
    (hcall : w.calls[i]? = some (.resolved p latest))
    (h : itemsBetween p.kind w.chain (max p.start w.held) (latest + 1) = []) :
    NoneMissed (.answer i) w := by
  intro q latest' hq
  obtain ⟨rfl, rfl⟩ := CallPhase.resolved.inj (Option.some.inj (hcall.symm.trans hq))
  exact h

/-- Cold storage lags behind the second block while the first one is polled. -/
theorem lagging_polls_complete_oneBehind :
    returnedItems [⟨1, .block [1]⟩]
      = itemsBetween .block [oneLog 0 7, oneLog 1 8, oneLog 2 9] 1 2 := by
  let steps : List (CallStep Nat) := [.append (oneLog 1 8), .ingest 2, .copy, .readLatest 0,
    .append (oneLog 2 9), .answer 0, .commit 0 1]
  have hadmits : Admits callStep (fun s w => Lagging s w ∧ Sequential s w ∧ NoneMissed s w) steps
      blockFilter :=
    ⟨⟨trivial, trivial, trivial⟩, ⟨⟨by decide, by decide⟩, trivial, trivial⟩,
      ⟨trivial, List.forall_mem_nil _, trivial⟩, ⟨trivial, trivial, trivial⟩,
      ⟨trivial, trivial, trivial⟩,
      ⟨trivial, trivial, noneMissed_answer (p := ⟨.block, 1, []⟩) rfl rfl⟩,
      ⟨Nat.zero_le 1, trivial, trivial⟩, trivial⟩
  have hrun := runInputs_run steps blockFilter hadmits
  exact (lagging_polls_complete ⟨List.Pairwise.nil, fun _ he => absurd he (by simp)⟩ (by decide)
    hrun).1

/--
**A block that cold storage gets late is never returned.** The filter is polled when
block 1 is tagged and not yet in cold storage; the poll returns nothing and moves the
cursor past it. Cold storage holds it from then on, and the next poll returns nothing.
-/
theorem lagging_poll_skips :
    ∃ w, Run callStep (fun s w => Lagging s w ∧ Sequential s w) blockFilter
        [⟨1, .block []⟩, ⟨1, .block []⟩] w
      ∧ w.held = 2 ∧ w.filter.nextStartBlock = 2
      ∧ itemsBetween .block w.chain 1 w.held = [.hash 1] := by
  let first : List (CallStep Nat) := [.append (oneLog 1 8), .copy, .readLatest 0, .answer 0,
    .commit 0 1]
  let second : List (CallStep Nat) := [.ingest 2, .copy, .readLatest 1, .answer 1, .commit 1 2]
  let polled : CallsWorld Unit Nat := ⟨[oneLog 0 7, oneLog 1 8], 1, ⟨⟨1, 0, 0⟩, [], []⟩,
    ⟨2, 1, .block⟩, [.done]⟩
  have hfirst : Run callStep (fun s w => Lagging s w ∧ Sequential s w) blockFilter
      [⟨1, .block []⟩] polled :=
    runInputs_run first blockFilter ⟨⟨trivial, trivial⟩, ⟨trivial, List.forall_mem_nil _⟩,
      ⟨trivial, trivial⟩, ⟨trivial, trivial⟩, ⟨Nat.zero_le 1, trivial⟩, trivial⟩
  have hdone : ∀ c ∈ polled.calls, c = .done := fun c hc => List.mem_singleton.mp hc
  have hsecond : Run callStep (fun s w => Lagging s w ∧ Sequential s w) polled
      [⟨1, .block []⟩] { polled with
        held := 2, filter.lastPollTime := 2, calls := [.done, .done] } :=
    runInputs_run second polled ⟨⟨⟨by decide, by decide⟩, trivial⟩, ⟨trivial, hdone⟩,
      ⟨trivial, trivial⟩, ⟨trivial, trivial⟩, ⟨Nat.le_succ 1, trivial⟩, trivial⟩
  exact ⟨_, hfirst.trans hsecond, rfl, rfl, rfl⟩

end NodeComponents.Rpc
