import NodeComponents.HostReth.Notifier

/-!
# The anchor of the live stream

The live stream is meant to be taken from only once it is anchored at the block below the
backfill cursor. The one read that can fail on the way is that of the anchor's header, and
by then the backfill is gone. So the phase switch cannot be retried: a call made after such
a failure takes from a stream nobody anchored. And where the header is not there at all,
because the host does not have the blocks the node was told to start behind, the call
fails with `MissingHeader`; there is no lower anchor to fall back to.

Both are settled exactly: over any sequence of calls after `set_head`, the stream is taken
from anchored iff no call follows one whose anchor could not be read, and the switch
survives iff the header below the starting point is there whenever nothing was backfilled.
-/

namespace NodeComponents.HostReth

open Lib

variable {T R : Type} [BlockLayout T R] {live : ExExStream T R} {n : Nat} {calls : List (Call T R)}
  {a : Answers T R} {s : RethHostNotifier}

/-! ## Runs after `set_head` -/

theorem stateAfter_concat (c : Call T R) :
    stateAfter live n (calls ++ [c]) = (step live c (stateAfter live n calls)).2 := by
  unfold stateAfter
  rw [runInputs_concat]

theorem setHead_headSet {s : RethHostNotifier} (h : s.headSet = true) (m : Nat) :
    s.setHead m = s := if_pos h

theorem backfillPhase_headSet (a : Answers T R) (s : RethHostNotifier) :
    (backfillPhase a s).2.headSet = s.headSet := by
  have hp := backfillPhase_backfilled a s
  generalize (backfillPhase a s).1 = r at hp
  generalize (backfillPhase a s).2 = s' at hp
  cases hp <;> rfl

/-- The second phase touches the stream alone. -/
theorem nextNotification_state (live : ExExStream T R) (a : Answers T R) (s : RethHostNotifier) :
    (nextNotification live a s).2.backfill = (backfillPhase a s).2.backfill
      ∧ (nextNotification live a s).2.headSet = (backfillPhase a s).2.headSet
      ∧ (nextNotification live a s).2.notifications.head
        = (backfillPhase a s).2.notifications.head := by
  cases hp : backfillPhase a s with
  | mk r s' =>
  cases r with
  | some r =>
      rw [nextNotification_of_some hp]
      exact ⟨rfl, rfl, rfl⟩
  | none =>
      rw [nextNotification_of_none hp, livePhase_state]
      exact ⟨rfl, rfl, rfl⟩

theorem setBackfillThresholds_frame (s : RethHostNotifier) (m : Option Nat) :
    (s.setBackfillThresholds m).headSet = s.headSet
      ∧ (s.setBackfillThresholds m).notifications = s.notifications
      ∧ (s.setBackfillThresholds m).backfill.map DbBackfill.cursor
        = s.backfill.map DbBackfill.cursor := by
  unfold RethHostNotifier.setBackfillThresholds
  cases hb : s.backfill with
  | none => exact ⟨rfl, rfl, by rw [hb]⟩
  | some b => cases m <;> exact ⟨rfl, rfl, rfl⟩

/-- `set_head` was called, and later calls of it are ignored. -/
theorem stateAfter_headSet (live : ExExStream T R) (n : Nat) (calls : List (Call T R)) :
    (stateAfter live n calls).headSet = true := by
  induction calls using List.reverseRecOn with
  | nil => rfl
  | append_singleton calls c ih =>
      rw [stateAfter_concat]
      cases c with
      | nextNotification a =>
          show (nextNotification live a (stateAfter live n calls)).2.headSet = true
          rw [(nextNotification_state live a _).2.1, backfillPhase_headSet, ih]
      | setHead m =>
          show ((stateAfter live n calls).setHead m).headSet = true
          rw [setHead_headSet ih, ih]
      | setBackfillThresholds m => exact (setBackfillThresholds_frame _ m).1.trans ih

/-! ## Retrying the switch -/

/-- The call goes on to take from the live stream. -/
def TakesLive (a : Answers T R) (s : RethHostNotifier) : Prop :=
  (backfillPhase a s).1 = none

/-- The backfill is complete and the header of the anchor is not read. -/
def AnchorFails (a : Answers T R) (s : RethHostNotifier) : Prop :=
  ∃ b, s.backfill = some b ∧ b.Complete a
    ∧ ∀ header, a.sealedHeader (b.cursor - 1) ≠ .ok (some header)

/-- One of the calls completed the backfill and anchored the stream at the block below its
cursor. -/
def AnchoredBelowCursor (live : ExExStream T R) (n : Nat) (calls : List (Call T R))
    (head : Option BlockNumHash) : Prop :=
  ∃ before a after b header, calls = before ++ .nextNotification a :: after
    ∧ (stateAfter live n before).backfill = some b ∧ b.Complete a
    ∧ a.sealedHeader (b.cursor - 1) = .ok (some header)
    ∧ head = some ⟨b.cursor - 1, header.hash⟩

/-- Every call that takes from the live stream finds it anchored below the cursor. -/
def TakenAnchored (live : ExExStream T R) (n : Nat) (calls : List (Call T R)) : Prop :=
  ∀ before a after, calls = before ++ .nextNotification a :: after →
    TakesLive a (stateAfter live n before) →
    AnchoredBelowCursor live n (before ++ [.nextNotification a])
      (backfillPhase a (stateAfter live n before)).2.notifications.head

theorem AnchoredBelowCursor.more {head : Option BlockNumHash} (more : List (Call T R))
    (h : AnchoredBelowCursor live n calls head) :
    AnchoredBelowCursor live n (calls ++ more) head := by
  obtain ⟨before, a, after, b, header, rfl, h⟩ := h
  exact ⟨before, a, after ++ more, b, header, by simp, h⟩

/-- **Without a backfill the head of the stream stays where it is.** -/
theorem idle_step (hb : s.backfill = none) (hset : s.headSet = true) (live : ExExStream T R)
    (c : Call T R) :
    (step live c s).2.backfill = none
      ∧ (step live c s).2.notifications.head = s.notifications.head := by
  cases c with
  | nextNotification a =>
      obtain ⟨hback, _, hh⟩ := nextNotification_state live a s
      rw [backfillPhase_of_none hb] at hback hh
      exact ⟨hback.trans hb, hh⟩
  | setHead m =>
      show (s.setHead m).backfill = none ∧ (s.setHead m).notifications.head = _
      rw [setHead_headSet hset]
      exact ⟨hb, rfl⟩
  | setBackfillThresholds m =>
      have hsame : s.setBackfillThresholds m = s := by
        unfold RethHostNotifier.setBackfillThresholds
        rw [hb]
      show (s.setBackfillThresholds m).backfill = none
        ∧ (s.setBackfillThresholds m).notifications.head = _
      rw [hsame]
      exact ⟨hb, rfl⟩

/-- Neither a backfill nor an anchor. -/
def RethHostNotifier.Lost (s : RethHostNotifier) : Prop :=
  s.backfill = none ∧ s.notifications.head = none

/-- **Nothing leads out of it.** -/
theorem lost_stateAfter (h : (stateAfter live n calls).Lost) (more : List (Call T R)) :
    (stateAfter live n (calls ++ more)).Lost := by
  induction more using List.reverseRecOn with
  | nil => rwa [List.append_nil]
  | append_singleton more c ih =>
      rw [← List.append_assoc, stateAfter_concat]
      obtain ⟨hb, hh⟩ := idle_step ih.1 (stateAfter_headSet live n _) live c
      exact ⟨hb, hh.trans ih.2⟩

/-- A call that fails to read the anchor loses the stream. -/
theorem AnchorFails.lost (h : AnchorFails a s) (hhead : s.notifications.head = none)
    (live : ExExStream T R) : (nextNotification live a s).2.Lost := by
  obtain ⟨b, hb, hc, hnone⟩ := h
  obtain ⟨hback, _, hh⟩ := nextNotification_state live a s
  rw [backfillPhase_of_complete hb hc] at hback hh
  unfold switchToLive at hback hh
  dsimp only at hback hh
  cases hread : a.sealedHeader (b.cursor - 1) with
  | error e =>
      rw [hread] at hback hh
      exact ⟨hback, hh.trans hhead⟩
  | ok header =>
      cases header with
      | none =>
          rw [hread] at hback hh
          exact ⟨hback, hh.trans hhead⟩
      | some header => exact absurd hread (hnone header)

/-- Where a sequence of calls has got to. -/
inductive Phase (live : ExExStream T R) (n : Nat) (calls : List (Call T R))
    (s : RethHostNotifier) : Prop
  | backfilling {b : DbBackfill} (hb : s.backfill = some b) (hh : s.notifications.head = none)
  | anchored (hb : s.backfill = none)
      (hh : AnchoredBelowCursor live n calls s.notifications.head)
  | lost (h : s.Lost) {before after : List (Call T R)} {a : Answers T R}
      (heq : calls = before ++ .nextNotification a :: after)
      (hfails : AnchorFails a (stateAfter live n before))

/-- A call during the backfill reads on, switches, or loses the stream. -/
theorem phase_backfilling {b : DbBackfill} (hb : (stateAfter live n calls).backfill = some b)
    (hh : (stateAfter live n calls).notifications.head = none) (c : Call T R) :
    Phase live n (calls ++ [c]) (step live c (stateAfter live n calls)).2 := by
  cases c with
  | nextNotification a =>
      show Phase live n _ (nextNotification live a (stateAfter live n calls)).2
      obtain ⟨hback, _, hhead⟩ := nextNotification_state live a (stateAfter live n calls)
      have hlost : AnchorFails a (stateAfter live n calls) →
          Phase live n (calls ++ [.nextNotification a])
            (nextNotification live a (stateAfter live n calls)).2 :=
        fun hfails => Phase.lost (hfails.lost hh live) rfl hfails
      have hp := backfillPhase_backfilled a (stateAfter live n calls)
      generalize (backfillPhase a (stateAfter live n calls)).1 = r at hp
      generalize (backfillPhase a (stateAfter live n calls)).2 = s' at hp hback hhead
      cases hp with
      | idle hnone => exact absurd (hnone.symm.trans hb) (by simp)
      | batch _ _ => exact Phase.backfilling hback (hhead.trans hh)
      | failed _ _ => exact Phase.backfilling (hback.trans hb) (hhead.trans hh)
      | switched hb' hc hread =>
          refine Phase.anchored hback ?_
          exact ⟨calls, a, [], _, _, rfl, hb', hc, hread, hhead⟩
      | missing hb' hc hread =>
          exact hlost ⟨_, hb', hc, fun header hsome => absurd (hread.symm.trans hsome) (by simp)⟩
      | unread hb' hc hread =>
          exact hlost ⟨_, hb', hc, fun header hsome => absurd (hread.symm.trans hsome) (by simp)⟩
  | setHead m =>
      show Phase live n _ ((stateAfter live n calls).setHead m)
      rw [setHead_headSet (stateAfter_headSet live n calls)]
      exact Phase.backfilling hb hh
  | setBackfillThresholds m =>
      obtain ⟨_, hnotifications, hcursor⟩ :=
        setBackfillThresholds_frame (stateAfter live n calls) m
      rw [hb] at hcursor
      obtain ⟨b', hb', _⟩ := Option.map_eq_some_iff.mp hcursor
      exact Phase.backfilling hb' ((congrArg _ hnotifications).trans hh)

/-- **The phases of a run.** -/
theorem phase_stateAfter (live : ExExStream T R) (n : Nat) (calls : List (Call T R)) :
    Phase live n calls (stateAfter live n calls) := by
  induction calls using List.reverseRecOn with
  | nil => exact Phase.backfilling (b := DbBackfill.new n) rfl rfl
  | append_singleton calls c ih =>
      have hset := stateAfter_headSet live n calls
      rw [stateAfter_concat]
      cases ih with
      | backfilling hb hh => exact phase_backfilling hb hh c
      | anchored hb hh =>
          obtain ⟨hb', hh'⟩ := idle_step hb hset live c
          refine Phase.anchored hb' ?_
          rw [hh']
          exact hh.more [c]
      | @lost h before after a heq hfails =>
          obtain ⟨hb', hh'⟩ := idle_step h.1 hset live c
          have hmore : calls ++ [c] = before ++ .nextNotification a :: (after ++ [c]) := by
            rw [heq]
            simp
          exact Phase.lost ⟨hb', hh'.trans h.2⟩ hmore hfails

/--
**The live stream is taken from anchored below the cursor, over any sequence of calls,
exactly if no call follows one whose anchor could not be read.**
-/
theorem live_anchored_iff (live : ExExStream T R) (n : Nat) (calls : List (Call T R)) :
    TakenAnchored live n calls ↔
      ∀ before a after, calls = before ++ .nextNotification a :: after →
        AnchorFails a (stateAfter live n before) → ∀ a', Call.nextNotification a' ∉ after := by
  constructor
  · rintro htaken before a after rfl hfails a' ha'
    obtain ⟨mid, rest, rfl⟩ := List.append_of_mem ha'
    -- the failed call loses the stream, and the next one takes from it
    have hphase := phase_stateAfter live n before
    have hhead : (stateAfter live n before).notifications.head = none := by
      obtain ⟨b, hb, _⟩ := hfails
      cases hphase with
      | backfilling _ hh => exact hh
      | anchored hnone _ => exact absurd (hnone.symm.trans hb) (by simp)
      | lost h _ _ => exact h.2
    have hlost : (stateAfter live n (before ++ [.nextNotification a])).Lost := by
      rw [stateAfter_concat]
      exact hfails.lost hhead live
    have hmid := lost_stateAfter hlost mid
    rw [List.append_assoc, List.singleton_append] at hmid
    have hidle : backfillPhase a' (stateAfter live n (before ++ .nextNotification a :: mid))
        = (none, stateAfter live n (before ++ .nextNotification a :: mid)) :=
      backfillPhase_of_none hmid.1
    obtain ⟨_, _, _, _, _, _, _, _, _, hanchor⟩ :=
      htaken (before ++ .nextNotification a :: mid) a' rest (by simp) (congrArg Prod.fst hidle)
    rw [hidle] at hanchor
    exact absurd (hmid.2.symm.trans hanchor) (by simp)
  · rintro hnone before a after rfl htakes
    have hphase := phase_stateAfter live n before
    cases hphase with
    | @lost h before' after' a' heq hfails =>
        have hlater := hnone before' a' (after' ++ .nextNotification a :: after)
          (by rw [heq]; simp) hfails a
        exact absurd (by simp) hlater
    | anchored hb hh =>
        rw [backfillPhase_of_none hb]
        exact hh.more _
    | backfilling hb hh =>
        have hp := backfillPhase_backfilled a (stateAfter live n before)
        unfold TakesLive at htakes
        rw [htakes] at hp
        generalize (backfillPhase a (stateAfter live n before)).2 = s' at hp
        cases hp with
        | idle hidle => exact absurd (hidle.symm.trans hb) (by simp)
        | switched hb' hc hread => exact ⟨before, a, [], _, _, rfl, hb', hc, hread, rfl⟩

/-- The header read of the first call fails, and the second takes block 9 from a stream set to
no head, though the backfill stood at block 5. -/
theorem live_taken_unanchored :
    let chain := [bareBlock 4 14, bareBlock 5 15]
    let healthy := Answers.storing chain none
    let failing := { healthy with sealedHeader := fun _ => .error ⟨"db"⟩ }
    let item : RethChain Unit Unit := ⟨[bareBlock 9 19], by simp⟩
    let live : ExExStream Unit Unit := fun head _ =>
      if head = none then some (.ok (.chainCommitted item)) else none
    let calls := [Call.nextNotification failing, .nextNotification healthy]
    returned live 5 calls = [some (.error (.err (.provider ⟨"db"⟩))),
        some (.ok ⟨.chainCommitted (.live item), none, none⟩)] ∧
      ¬ TakenAnchored live 5 calls := by
  intro chain healthy failing item live calls
  refine ⟨by decide, ?_⟩
  intro htaken
  obtain ⟨_, _, _, _, _, _, _, _, _, hanchor⟩ :=
    htaken [Call.nextNotification failing] healthy [] rfl rfl
  have hhead : (backfillPhase healthy
      (stateAfter live 5 [Call.nextNotification failing])).2.notifications.head = none := rfl
  exact absurd (hhead.symm.trans hanchor) (by simp)

/-! ## The header below the starting point -/

/-- An earlier batch read the block numbered `m`. -/
def ReadEarlier (live : ExExStream T R) (n : Nat) (calls : List (Call T R)) (m : Nat) : Prop :=
  ∃ before a after b segment, calls = before ++ .nextNotification a :: after
    ∧ (stateAfter live n before).backfill = some b ∧ (b.nextBatch a).1 = .ok (some segment)
    ∧ b.cursor ≤ m ∧ m < b.cursor + segment.blocks.length

/-- The switch fails for want of a header only where the notifier read the block itself, and
with nothing read it falls back to a block that is there. -/
def SwitchSurvives (live : ExExStream T R) (n : Nat) (calls : List (Call T R)) : Prop :=
  ∀ before a after, calls = before ++ .nextNotification a :: after →
    (∀ m, (nextNotification live a (stateAfter live n before)).1
        = some (.error (.err (.missingHeader m))) → ReadEarlier live n before m)
      ∧ ∀ b, (stateAfter live n before).backfill = some b → b.cursor = n → b.Complete a →
          a.sealedHeader (n - 1) = .ok none →
          ∃ k header, a.sealedHeader k = .ok (some header)
            ∧ (backfillPhase a (stateAfter live n before)).2.notifications.head
              = some ⟨k, header.hash⟩

/-- The arithmetic of the batch a call reads fits into `u64`. -/
def BatchFits (c : Call T R) (s : RethHostNotifier) : Prop :=
  ∀ a b f, c = .nextNotification a → s.backfill = some b → a.finalized = .ok (some f) →
    b.cursor ≤ f → b.Fits

theorem readEarlier_concat {c : Call T R} {m : Nat} :
    ReadEarlier live n (calls ++ [c]) m ↔ ReadEarlier live n calls m
      ∨ ∃ a b segment, c = .nextNotification a ∧ (stateAfter live n calls).backfill = some b
        ∧ (b.nextBatch a).1 = .ok (some segment) ∧ b.cursor ≤ m
        ∧ m < b.cursor + segment.blocks.length := by
  constructor
  · intro hq
    rcases hq with ⟨before, a, after, b, segment, heq, hb, hread, hlo, hhi⟩
    rcases split_concat heq with ⟨rfl, hc⟩ | ⟨after', hfront⟩
    · exact Or.inr ⟨a, b, segment, hc.symm, hb, hread, hlo, hhi⟩
    · exact Or.inl ⟨before, a, after', b, segment, hfront, hb, hread, hlo, hhi⟩
  · intro hcase
    rcases hcase with ⟨before, a, after, b, segment, rfl, h⟩ | ⟨a, b, segment, rfl, h⟩
    · exact ⟨before, a, after ++ [c], b, segment, by simp, h⟩
    · exact ⟨calls, a, [], b, segment, rfl, h⟩

/-- The blocks read are those from the starting point up to the cursor. -/
def ReadUpTo (live : ExExStream T R) (n : Nat) (calls : List (Call T R)) (cursor : Nat) : Prop :=
  n ≤ cursor ∧ ∀ m, ReadEarlier live n calls m ↔ n ≤ m ∧ m < cursor

/-- A call that reads nothing. -/
theorem ReadUpTo.still {cursor : Nat} (h : ReadUpTo live n calls cursor) {c : Call T R}
    (hc : ∀ a b segment, c = .nextNotification a → (stateAfter live n calls).backfill = some b →
      (b.nextBatch a).1 ≠ .ok (some segment)) : ReadUpTo live n (calls ++ [c]) cursor := by
  refine ⟨h.1, fun m => ?_⟩
  rw [readEarlier_concat, h.2 m]
  constructor
  · intro hcase
    rcases hcase with hm | ⟨a, b, segment, rfl, hb, hread, _⟩
    · exact hm
    · exact absurd hread (hc a b segment rfl hb)
  · exact Or.inl

/-- A call that reads a batch. -/
theorem ReadUpTo.batch {b : DbBackfill} {segment : DbChainSegment T R}
    (h : ReadUpTo live n calls b.cursor) (hb : (stateAfter live n calls).backfill = some b)
    (hn : (b.nextBatch a).1 = .ok (some segment)) :
    ReadUpTo live n (calls ++ [.nextNotification a]) (b.cursor + segment.blocks.length) := by
  obtain ⟨hle, hread⟩ := h
  refine ⟨Nat.le_trans hle (Nat.le_add_right _ _), fun m => ?_⟩
  rw [readEarlier_concat, hread m]
  constructor
  · intro hcase
    rcases hcase with ⟨hlo, hhi⟩ | ⟨a₁, b₁, segment₁, heq, hb₁, hn₁, hlo, hhi⟩
    · exact ⟨hlo, Nat.lt_of_lt_of_le hhi (Nat.le_add_right _ _)⟩
    · obtain rfl := Call.nextNotification.inj heq
      obtain rfl := Option.some.inj (hb.symm.trans hb₁)
      obtain rfl := Option.some.inj (Except.ok.inj (hn.symm.trans hn₁))
      exact ⟨Nat.le_trans hle hlo, hhi⟩
  · intro hm
    by_cases hold : m < b.cursor
    · exact Or.inl ⟨hm.1, hold⟩
    · exact Or.inr ⟨a, b, segment, rfl, hb, hn, by omega, hm.2⟩

/-- **The cursor stands behind the blocks read.** -/
theorem readUpTo_stateAfter
    (hfits : AlongInputs (step live) (fun _ => BatchFits) (RethHostNotifier.new.setHead n)
      calls) :
    ∀ b, (stateAfter live n calls).backfill = some b → ReadUpTo live n calls b.cursor := by
  induction calls using List.reverseRecOn with
  | nil =>
      intro b hb
      obtain rfl := Option.some.inj hb
      refine ⟨Nat.le_refl n, fun m => ⟨?_, fun ⟨hlo, hhi⟩ => absurd hhi (by
        show ¬ m < n
        omega)⟩⟩
      intro hq
      rcases hq with ⟨before, a, after, _, _, heq, _⟩
      simp at heq
  | append_singleton calls c ih =>
      obtain ⟨hbefore, hfit⟩ := alongInputs_concat.mp hfits
      intro b' hb'
      rw [stateAfter_concat] at hb'
      cases c with
      | setHead m =>
          have hsame : (step live (.setHead m) (stateAfter live n calls)).2
              = stateAfter live n calls := setHead_headSet (stateAfter_headSet live n calls) m
          rw [hsame] at hb'
          exact (ih hbefore b' hb').still fun _ _ _ h => absurd h (by simp)
      | setBackfillThresholds m =>
          obtain ⟨_, _, hcursor⟩ := setBackfillThresholds_frame (stateAfter live n calls) m
          rw [show (stateAfter live n calls |>.setBackfillThresholds m).backfill = some b' from hb',
            Option.map_some] at hcursor
          obtain ⟨b, hb, heq⟩ := Option.map_eq_some_iff.mp hcursor.symm
          rw [← heq]
          exact (ih hbefore b hb).still fun _ _ _ h => absurd h (by simp)
      | nextNotification a =>
          have hback := (nextNotification_state live a (stateAfter live n calls)).1
          rw [show (nextNotification live a (stateAfter live n calls)).2.backfill = some b'
            from hb'] at hback
          have hp := backfillPhase_backfilled a (stateAfter live n calls)
          generalize (backfillPhase a (stateAfter live n calls)).1 = r at hp
          generalize (backfillPhase a (stateAfter live n calls)).2 = s' at hp hback
          cases hp with
          | idle hnone => exact absurd (hnone.symm.trans hback.symm) (by simp)
          | switched _ _ _ => exact absurd hback (by simp)
          | missing _ _ _ => exact absurd hback (by simp)
          | unread _ _ _ => exact absurd hback (by simp)
          | failed hb hn =>
              obtain rfl := Option.some.inj (hb.symm.trans hback.symm)
              refine (ih hbefore _ hb).still ?_
              intro a₁ b₁ segment heq hb₁ hread
              obtain rfl := Call.nextNotification.inj heq
              obtain rfl := Option.some.inj (hb.symm.trans hb₁)
              rw [hn] at hread
              exact absurd hread (by simp)
          | @batch b b₁ segment hb hn =>
              obtain rfl := Option.some.inj hback
              obtain ⟨f, _, _, _, _, _, rfl⟩ := (Fetched.of_eq hn).advance
                fun f hf hc => hfit a b f rfl hb hf hc
              exact (ih hbefore b hb).batch hb (congrArg Prod.fst hn)

/-- The only header a call can miss is that of the block below the cursor. -/
theorem missingHeader_of_nextNotification {m : Nat}
    (h : (nextNotification live a s).1 = some (.error (.err (.missingHeader m)))) :
    ∃ b, s.backfill = some b ∧ b.Complete a ∧ m = b.cursor - 1 ∧ a.sealedHeader m = .ok none := by
  have hp := backfillPhase_backfilled a s
  cases heq : backfillPhase a s with
  | mk r s' =>
  rw [heq] at hp
  cases r with
  | none =>
      rw [nextNotification_of_none heq] at h
      exact absurd h (livePhase_ne_missingHeader live a s' m)
  | some r =>
      rw [nextNotification_of_some heq] at h
      dsimp only at h
      subst h
      cases hp with
      | missing hb hc hh => exact ⟨_, hb, hc, rfl, hh⟩
      | failed hb hn =>
          cases Fetched.of_eq hn with
          | failed _ _ _ hr => exact absurd rfl (readBlock_error hr m)

/--
**The switch survives a host that is behind exactly if the header below the starting point
is there whenever the backfill completes with nothing read.** Where it is missing, the call
fails with `MissingHeader`, and no lower block is tried.
-/
theorem switch_survives_iff
    (hfits : AlongInputs (step live) (fun _ => BatchFits) (RethHostNotifier.new.setHead n)
      calls) :
    SwitchSurvives live n calls ↔
      ∀ before a after b, calls = before ++ .nextNotification a :: after →
        (stateAfter live n before).backfill = some b → b.cursor = n → b.Complete a →
        a.sealedHeader (n - 1) ≠ .ok none := by
  have hread : ∀ before a after, calls = before ++ .nextNotification a :: after →
      ∀ b, (stateAfter live n before).backfill = some b → ReadUpTo live n before b.cursor := by
    rintro before a after rfl
    exact readUpTo_stateAfter hfits.initial
  constructor
  · intro hsurvives before a after b heq hb hn hc hnone
    have hmissing : (nextNotification live a (stateAfter live n before)).1
        = some (.error (.err (.missingHeader (n - 1)))) := by
      have hphase := backfillPhase_of_complete hb hc
      unfold switchToLive at hphase
      dsimp only at hphase
      rw [hn, hnone] at hphase
      rw [nextNotification_of_some hphase]
    -- nothing was read yet, the block below the starting point least of all
    obtain ⟨_, hm⟩ := hread before a after heq b hb
    obtain ⟨hlo, hhi⟩ := (hm (n - 1)).mp ((hsurvives before a after heq).1 _ hmissing)
    omega
  · intro hthere before a after heq
    refine ⟨?_, fun b hb hn hc hnone => absurd hnone (hthere before a after b heq hb hn hc)⟩
    intro m hmissing
    obtain ⟨b, hb, hc, rfl, hnone⟩ := missingHeader_of_nextNotification hmissing
    obtain ⟨hle, hm⟩ := hread before a after heq b hb
    by_cases hn : b.cursor = n
    · rw [hn] at hnone
      exact absurd hnone (hthere before a after b heq hb hn hc)
    · exact (hm _).mpr ⟨by omega, by omega⟩

/-- A batch is read, and the switch behind it finds its header. -/
theorem switch_survives_backfilled :
    let host := Answers.storing [bareBlock 1 11, bareBlock 2 12, bareBlock 3 13] (some 2)
    let live : ExExStream Unit Unit := fun _ _ => none
    let calls := [Call.nextNotification host, .nextNotification host]
    returned live 2 calls
        = [some (.ok ⟨.chainCommitted (.backfill ⟨[bareBlock 2 12]⟩), some 2, some 2⟩), none] ∧
      SwitchSurvives live 2 calls := by
  intro host live calls
  refine ⟨by decide, (switch_survives_iff ?_).mpr ?_⟩
  · refine alongInputs_concat.mpr ⟨alongInputs_concat.mpr ⟨alongInputs_nil, ?_⟩, ?_⟩
    · intro a b f _ hb _ _
      obtain rfl := Option.some.inj hb
      show 2 + 1000 < u64Size
      decide
    · intro a b f _ hb _ _
      obtain rfl := Option.some.inj hb
      show 3 + 1000 < u64Size
      decide
  · intro before a after b heq _ _ _
    have ha : Call.nextNotification a ∈ calls := by rw [heq]; simp
    obtain rfl : a = host := by simpa [calls] using ha
    simp [host, Answers.storing, bareBlock]

/-- The node starts at block 5 of a host that has blocks up to 2: the call fails for want of
header 4, a block nobody read. -/
theorem switch_fails_behind :
    let host := Answers.storing [bareBlock 1 11, bareBlock 2 12] (some 2)
    let live : ExExStream Unit Unit := fun _ _ => none
    let calls := [Call.nextNotification host]
    returned live 5 calls = [some (.error (.err (.missingHeader 4)))] ∧
      ¬ SwitchSurvives live 5 calls := by
  intro host live calls
  have hmissing : returned live 5 calls = [some (.error (.err (.missingHeader 4)))] := by decide
  refine ⟨hmissing, ?_⟩
  intro hsurvives
  obtain ⟨before, _, _, _, _, heq, _⟩ :=
    (hsurvives [] host [] rfl).1 4 (List.head_eq_of_cons_eq hmissing)
  simp at heq

end NodeComponents.HostReth
