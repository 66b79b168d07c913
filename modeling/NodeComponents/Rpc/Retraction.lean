import NodeComponents.Rpc.Replay

/-!
# What a log filter retracts

A filter takes the blocks below its cursor for those it has delivered. The cursor starts
behind the block the filter was installed at, so the blocks up to there count as
delivered, though no poll ever returned them. A reorg below that height makes the next
poll retract their logs.

Apart from them the rule is exact. The client of the replay law holds the logs of the
blocks the filter was installed on, and those delivered: as long as no reorg removes one
of the former, what a poll retracts is part of the latter.
-/

namespace NodeComponents.Rpc

open Lib

variable {G Tx : Type}

/-- The world of the replay law, and the height up to which the chain is still the one the
filter was installed on. -/
structure RetractWorld (Tx G : Type) where
  world : PollWorld Tx G
  base : Nat

/-- One step; a poll that succeeds returns its output. -/
def retractStep [DecidableEq G] : PollEvent G → RetractWorld Tx G →
    Option (FilterOutput G) × RetractWorld Tx G
  | .append block, r => (none, { r with world := appended r.world block })
  | .reorg now ancestor, r => (none, ⟨reorged r.world now ancestor, min r.base ancestor⟩)
  | .poll now, r =>
    ((getFilterChanges r.world.notifier.reorgs r.world.notifier.tags (coldOf r.world.chain) now
        r.world.filter).1.toOption, { r with world := polled r.world now })

/-- The filter is installed, and no poll has returned anything. -/
def RetractWorld.installed (chain : List (CanonicalBlock G)) (notifier : ChainNotifier Tx G)
    (filter : G → Bool) (now : Nat) : RetractWorld Tx G :=
  ⟨Rpc.installed chain notifier filter now, notifier.tags.latest⟩

/-- No reorg removes a block the filter was installed on, if it has a matching log. -/
def SparesBase (filter : G → Bool) : PollEvent G → RetractWorld Tx G → Prop
  | .reorg _ ancestor, r =>
    matching filter ((r.world.chain.take (r.base + 1)).drop (ancestor + 1)) = []
  | _, _ => True

/-- The logs an output retracts. -/
def FilterOutput.retracted : FilterOutput G → List (Log G)
  | .log logs => (logs.filter fun log => log.removed).map Log.unflag
  | .block _ => []

/-- The logs that were returned as live, without those retracted since. -/
def delivered [DecidableEq G] (os : List (FilterOutput G)) : Multiset (Log G) :=
  os.foldl applyOutput 0

/-- A poll retracts what polls before it delivered and none has retracted, each log once. -/
def RetractsDelivered [DecidableEq G] (pre : List (FilterOutput G)) (o : FilterOutput G) : Prop :=
  Multiset.ofList o.retracted ≤ delivered pre

/-! ## The invariant -/

theorem matching_take_le {filter : G → Bool} {chain : List (CanonicalBlock G)} {low high : Nat}
    (h : low ≤ high) :
    matching filter (chain.take high)
      = matching filter (chain.take low) ++ matching filter ((chain.take high).drop low) := by
  have hlow : chain.take low = (chain.take high).take low := by
    rw [List.take_take, Nat.min_eq_left h]
  rw [hlow, ← matching_append, List.take_append_drop]

/-- An output retracts its flagged logs. -/
theorem retracted_append {removed new : List (Log G)}
    (hremoved : ∀ log ∈ removed, log.removed = true) (hnew : ∀ log ∈ new, log.removed = false) :
    (FilterOutput.log (removed ++ new)).retracted = removed.map Log.unflag := by
  unfold FilterOutput.retracted
  dsimp only
  rw [List.filter_append, List.filter_eq_self.mpr hremoved, List.filter_eq_nil_iff.mpr ?_,
    List.append_nil]
  intro log hlog
  rw [hnew log hlog]
  simp

variable [DecidableEq G]

/-- The client holds what was delivered, and the logs the filter was installed on. -/
structure RetractInv (filter : G → Bool) (os : List (FilterOutput G)) (r : RetractWorld Tx G) :
    Prop where
  replayable : Replayable filter r.world
  below : r.base < (pendingRemoval filter r.world).2.nextStartBlock
  client : r.world.client
    = delivered os + Multiset.ofList (matching filter (r.world.chain.take (r.base + 1)))

variable {filter : G → Bool} {os : List (FilterOutput G)} {r : RetractWorld Tx G}

/-- **What was delivered** is what the next poll retracts, and the matching logs of the
blocks between the base and its cursor. -/
theorem RetractInv.delivered_eq (h : RetractInv filter os r) :
    delivered os = Multiset.ofList ((pendingRemoval filter r.world).1.map Log.unflag)
      + Multiset.ofList (matching filter ((r.world.chain.take
          (pendingRemoval filter r.world).2.nextStartBlock).drop (r.base + 1))) := by
  have hclient := h.replayable.client
  rw [h.client, matching_take_le h.below, ← Multiset.coe_add, Multiset.add_comm (Multiset.ofList
    (matching filter (r.world.chain.take (r.base + 1)))), ← Multiset.add_assoc] at hclient
  exact Multiset.add_left_inj.mp hclient

theorem RetractInv.append (h : RetractInv filter os r) (block : CanonicalBlock G) :
    RetractInv filter os (retractStep (.append block) r).2 := by
  have hpending : pendingRemoval filter (appended r.world block) = pendingRemoval filter r.world :=
    rfl
  have hbelow := h.below
  have hcursor := h.replayable.cursor
  have htag := h.replayable.tag
  refine ⟨replayable_appended h.replayable block, ?_, ?_⟩
  · show r.base < (pendingRemoval filter (appended r.world block)).2.nextStartBlock
    rw [hpending]
    exact h.below
  · show r.world.client = _ + Multiset.ofList (matching filter
      ((r.world.chain ++ [block]).take (r.base + 1)))
    rw [List.take_append_of_le_length (by omega)]
    exact h.client

theorem RetractInv.reorg (h : RetractInv filter os r) {now ancestor : Nat}
    (hspaced : Spaced (.reorg now ancestor) r.world)
    (hbase : SparesBase filter (.reorg now ancestor) r) :
    RetractInv filter os (retractStep (.reorg now ancestor) r).2 := by
  have hnone : matching filter ((r.world.chain.take (r.base + 1)).drop (ancestor + 1)) = [] := hbase
  obtain ⟨_, hpending⟩ := pendingRemoval_reorged h.replayable hspaced.1 hspaced.2 ancestor
  have hbelow := h.below
  refine ⟨replayable_reorged h.replayable hspaced.1 hspaced.2 ancestor, ?_, ?_⟩
  · show min r.base ancestor < (pendingRemoval filter
      (reorged r.world now ancestor)).2.nextStartBlock
    rw [hpending]
    show _ < min _ (ancestor + 1)
    omega
  · show r.world.client = _ + Multiset.ofList (matching filter
      ((r.world.chain.take (ancestor + 1)).take (min r.base ancestor + 1)))
    have hkept :
        matching filter ((r.world.chain.take (ancestor + 1)).take (min r.base ancestor + 1))
          = matching filter (r.world.chain.take (r.base + 1)) := by
      rw [List.take_take, Nat.min_eq_left (by omega)]
      by_cases hdeep : ancestor ≤ r.base
      · rw [Nat.min_eq_right hdeep, matching_take_le (Nat.succ_le_succ hdeep), hnone,
          List.append_nil]
      · rw [Nat.min_eq_left (by omega)]
    rw [hkept]
    exact h.client

/-- What a poll returns: what it retracts, and the matching logs from its cursor on. -/
theorem RetractInv.output (h : RetractInv filter os r) (now : Nat) :
    (retractStep (.poll now) r).1 = some (.log ((pendingRemoval filter r.world).1
      ++ matching filter ((r.world.chain.take (r.world.notifier.tags.latest + 1)).drop
        (pendingRemoval filter r.world).2.nextStartBlock))) := by
  have hpoll := getFilterChanges_coldOf r.world.chain now h.replayable.kind h.replayable.cursor
  show Except.toOption _ = _
  rw [hpoll]
  rfl

/-- **A poll retracts what was delivered**, and the client goes on to hold what is delivered
and the base. -/
theorem RetractInv.poll (h : RetractInv filter os r) {now : Nat}
    (hspaced : Spaced (.poll now) r.world) :
    RetractInv filter (os ++ (retractStep (.poll now) r).1.toList) (retractStep (.poll now) r).2
      ∧ ∀ o, (retractStep (.poll now) r).1 = some o → RetractsDelivered os o := by
  have hnow : r.world.clock < now := hspaced
  have hflagged : ∀ log ∈ (pendingRemoval filter r.world).1, log.removed = true :=
    removeLoop_flagged _ _
  have hdelivered := h.delivered_eq
  have hbelow := h.below
  have hcursor := h.replayable.cursor
  rw [h.output now, Option.toList_some]
  refine ⟨⟨replayable_polled h.replayable hnow, ?_, ?_⟩, ?_⟩
  · show r.base < (pendingRemoval filter (polled r.world now)).2.nextStartBlock
    rw [(pendingRemoval_polled h.replayable hnow).2]
    show r.base < r.world.notifier.tags.latest + 1
    omega
  · show (polled r.world now).client = _
    have happlied : delivered (os ++ [FilterOutput.log ((pendingRemoval filter r.world).1
        ++ matching filter ((r.world.chain.take (r.world.notifier.tags.latest + 1)).drop
          (pendingRemoval filter r.world).2.nextStartBlock))])
        = Multiset.ofList (matching filter ((r.world.chain.take
            (pendingRemoval filter r.world).2.nextStartBlock).drop (r.base + 1)))
          + Multiset.ofList (matching filter ((r.world.chain.take
            (r.world.notifier.tags.latest + 1)).drop
              (pendingRemoval filter r.world).2.nextStartBlock)) := by
      unfold delivered at hdelivered ⊢
      rw [List.foldl_append, hdelivered]
      show List.foldl applyLog _ (_ ++ _) = _
      rw [List.foldl_append, foldl_applyLog_removed hflagged, foldl_applyLog_live matching_live]
    rw [(polled_client h.replayable now).1, happlied, matching_take_le hcursor,
      matching_take_le hbelow, ← Multiset.coe_add, ← Multiset.coe_add, Multiset.add_assoc]
    exact Multiset.add_comm _ _
  · intro o ho
    rw [← Option.some.inj ho]
    unfold RetractsDelivered
    rw [retracted_append hflagged matching_live, hdelivered]
    exact Multiset.le_add_right _ _

theorem retractInv_step (h : RetractInv filter os r) (e : PollEvent G)
    (hspaced : Spaced e r.world) (hbase : SparesBase filter e r) :
    RetractInv filter (os ++ (retractStep e r).1.toList) (retractStep e r).2
      ∧ ∀ o, (retractStep e r).1 = some o → RetractsDelivered os o := by
  cases e with
  | append block =>
      rw [show (retractStep (.append block) r).1 = none from rfl, Option.toList_none,
        List.append_nil]
      exact ⟨h.append block, fun o ho => by cases ho⟩
  | reorg now ancestor =>
      rw [show (retractStep (.reorg now ancestor) r).1 = none from rfl, Option.toList_none,
        List.append_nil]
      exact ⟨h.reorg hspaced hbase, fun o ho => by cases ho⟩
  | poll now => exact h.poll hspaced

/--
**A filter retracts only what it delivered**, in every run of appends, reorgs and polls
in which no reorg removes a block the filter was installed on that has a matching log:
what a poll retracts was returned by polls before it and not retracted since, each log
as often as it was returned.
-/
theorem polls_retract_delivered {chain : List (CanonicalBlock G)} {notifier : ChainNotifier Tx G}
    {installTime : Nat} (hring : RingOrdered notifier.reorgs installTime)
    (htag : notifier.tags.latest < chain.length)
    (h : Run retractStep (fun e r => Spaced e r.world ∧ SparesBase filter e r)
      (RetractWorld.installed chain notifier filter installTime) os r) :
    Along RetractsDelivered os := by
  have hstart : RetractInv filter []
      (RetractWorld.installed chain notifier filter installTime) := by
    obtain ⟨_, hpending⟩ := pendingRemoval_installed chain filter hring
    refine ⟨replayable_installed hring htag, ?_, (Multiset.zero_add _).symm⟩
    show _ < (pendingRemoval filter (installed chain notifier filter installTime)).2.nextStartBlock
    rw [hpending]
    exact Nat.lt_succ_self _
  refine (Run.law (I := RetractInv filter) hstart ?_ h).2
  rintro e os r hinv ⟨hspaced, hbase⟩
  exact retractInv_step hinv e hspaced hbase

/-- A log filter that matches everything, installed on a chain of two blocks. -/
def installedAtOne : RetractWorld Unit Nat :=
  RetractWorld.installed [oneLog 0 7, oneLog 1 8] ⟨⟨1, 0, 0⟩, [], []⟩ (fun _ => true) 0

/-- A block is delivered and then replaced; the next poll retracts its log. -/
theorem polls_retract_delivered_replaced :
    RetractsDelivered [FilterOutput.log (oneLog 2 9).logs]
      (.log ((oneLog 2 9).logs.map fun log => { log with removed := true })) := by
  let events : List (PollEvent Nat) := [.append (oneLog 2 9), .poll 1, .reorg 2 1, .poll 3]
  have hrun : Run retractStep (fun e r => Spaced e r.world ∧ SparesBase (fun _ => true) e r)
      installedAtOne _ _ := runInputs_run events installedAtOne
    ⟨⟨trivial, trivial⟩, ⟨(by omega : 0 < 1), trivial⟩, ⟨(by omega : 1 < 2 ∧ 0 < 25), rfl⟩,
      ⟨(by omega : 2 < 3), trivial⟩, trivial⟩
  exact polls_retract_delivered ⟨List.Pairwise.nil, fun _ he => absurd he (by simp)⟩ (by decide)
    hrun _ _ [] rfl

/-- **A log that was never returned is retracted.** The filter is installed at height one,
and a reorg removes block one. -/
theorem poll_retracts_undelivered :
    ¬ ∀ (os : List (FilterOutput Nat)) (r : RetractWorld Unit Nat),
      Run retractStep (fun e r => Spaced e r.world) installedAtOne os r →
        Along RetractsDelivered os := by
  intro hall
  let events : List (PollEvent Nat) := [.reorg 1 0, .poll 2]
  have hrun : Run retractStep (fun e r => Spaced e r.world) installedAtOne
      [.log ((oneLog 1 8).logs.map fun log => { log with removed := true })] _ :=
    runInputs_run events installedAtOne ⟨(by omega : 0 < 1 ∧ 0 < 25), (by omega : 1 < 2), trivial⟩
  have hlost := hall _ _ hrun [] _ [] rfl
  exact List.cons_ne_nil _ _ ((Multiset.coe_eq_zero _).mp (Multiset.le_zero.mp hlost))

end NodeComponents.Rpc
