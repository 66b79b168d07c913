import NodeComponents.Rpc.ManagedFilters

/-!
# Filters are leases

What the map of filters is for is a table of leases. A lease is granted once under an id
of its own, renewed by each poll that returns, and ends when it is released or found
stale. `leases` is that table, computed from what the clients and the cleaner observed
alone; `filters_are_leases` says that the manager answers by it.
-/

namespace NodeComponents.Rpc

open Lib

variable {G Tx : Type} {ttl : Nat}

/-! ## Leases -/

/-- The table: the kind a lease was granted for, and when it was last renewed. -/
abbrev Leases (G : Type) := Nat → Option (InterestKind G × Nat)

/-- A poll that returns renews a lease, if there is one; its start and its failure do not. -/
def Leases.record (l : Leases G) : ManagerEvent G → Leases G
  | .installed id kind now => Function.update l id (some (kind, now))
  | .uninstalled id _ => Function.update l id none
  | .polled _ _ => l
  | .returned id now _ => Function.update l id ((l id).map fun e => (e.1, now))
  | .failed _ _ => l
  | .looked id _ kept => if kept then l else Function.update l id none

def leases (os : List (ManagerEvent G)) : Leases G := os.foldl Leases.record fun _ => none

/-- A lease of this kind was granted under the id. -/
def Granted (os : List (ManagerEvent G)) (id : Nat) (kind : InterestKind G) : Prop :=
  ∃ now, .installed id kind now ∈ os

/-- A poll of the id starts. -/
def ManagerEvent.accepts (id : Nat) : ManagerEvent G → Bool
  | .polled j none => j = id
  | _ => false

/-- A poll of the id comes to its end. -/
def ManagerEvent.concludes (id : Nat) : ManagerEvent G → Bool
  | .returned j _ _ => j = id
  | .failed j _ => j = id
  | _ => false

/-- A block filter returns hashes, and a log filter logs. -/
def FilterOutput.OfKind : FilterOutput G → InterestKind G → Prop
  | .log _, .log _ => True
  | .block _, .block => True
  | _, _ => False

/-- How an event depends on those before it. -/
def LeaseLaw (ttl : Nat) (os : List (ManagerEvent G)) : ManagerEvent G → Prop
  | .installed id _ _ => 1 ≤ id ∧ ∀ kind, ¬ Granted os id kind
  | .uninstalled id found => found = (leases os id).isSome
  | .polled id refusal =>
    refusal = if (leases os id).isSome then none else some (filterNotFound id)
  | .returned id _ out =>
    (∃ kind, Granted os id kind ∧ out.OfKind kind)
      ∧ os.countP (ManagerEvent.concludes id) < os.countP (ManagerEvent.accepts id)
  | .failed id _ => os.countP (ManagerEvent.concludes id) < os.countP (ManagerEvent.accepts id)
  | .looked id now kept => ∃ kind since, leases os id = some (kind, since)
      ∧ kept = decide (now - since < ttl)

theorem leases_concat (os : List (ManagerEvent G)) (e : ManagerEvent G) :
    leases (os ++ [e]) = (leases os).record e := by
  unfold leases
  rw [List.foldl_append]
  rfl

theorem granted_concat {os : List (ManagerEvent G)} {e : ManagerEvent G} {id : Nat}
    {kind : InterestKind G} :
    Granted (os ++ [e]) id kind ↔ Granted os id kind ∨ ∃ now, e = .installed id kind now := by
  unfold Granted
  simp only [List.mem_append, List.mem_singleton, exists_or, eq_comm]

theorem Granted.concat {os : List (ManagerEvent G)} {id : Nat} {kind : InterestKind G}
    (h : Granted os id kind) (e : ManagerEvent G) : Granted (os ++ [e]) id kind :=
  granted_concat.mpr (Or.inl h)

/-- Every lease was granted. -/
theorem granted_of_leases {os : List (ManagerEvent G)} {id since : Nat} {kind : InterestKind G}
    (h : leases os id = some (kind, since)) : Granted os id kind := by
  induction os using List.reverseRecOn generalizing since with
  | nil => cases h
  | append_singleton os e ih =>
      rw [leases_concat] at h
      cases e with
      | installed j kind' now =>
          by_cases hj : id = j
          · subst hj
            rw [Leases.record, Function.update_self] at h
            obtain ⟨rfl, rfl⟩ := Prod.mk.inj (Option.some.inj h)
            exact granted_concat.mpr (Or.inr ⟨_, rfl⟩)
          · rw [Leases.record, Function.update_of_ne hj] at h
            exact (ih h).concat _
      | uninstalled j found =>
          by_cases hj : id = j
          · subst hj
            rw [Leases.record, Function.update_self] at h
            cases h
          · rw [Leases.record, Function.update_of_ne hj] at h
            exact (ih h).concat _
      | polled j refusal => exact (ih h).concat _
      | returned j now out =>
          by_cases hj : id = j
          · subst hj
            rw [Leases.record, Function.update_self] at h
            obtain ⟨⟨kind', since'⟩, hold, heq⟩ := Option.map_eq_some_iff.mp h
            obtain ⟨rfl, rfl⟩ := Prod.mk.inj heq
            exact (ih hold).concat _
          · rw [Leases.record, Function.update_of_ne hj] at h
            exact (ih h).concat _
      | failed j error => exact (ih h).concat _
      | looked j now kept =>
          cases kept with
          | true => exact (ih h).concat _
          | false =>
              by_cases hj : id = j
              · subst hj
                simp only [Leases.record, Bool.false_eq_true, if_false, Function.update_self] at h
                cases h
              · simp only [Leases.record, Bool.false_eq_true, if_false,
                  Function.update_of_ne hj] at h
                exact (ih h).concat _

/-! ## The invariant -/

/-- The lease a filter stands for. -/
def ActiveFilter.lease (f : ActiveFilter G) : InterestKind G × Nat := (f.kind, f.lastPollTime)

/-- What a poll carries is that of a filter of the kind. -/
def PollStart.OfKind (p : PollStart G) (kind : InterestKind G) : Prop :=
  p.kind = kind ∧ (kind.asFilter = none → p.removed = [])

def CallPhase.OfKind (kind : InterestKind G) : CallPhase G → Prop
  | .copied p => p.OfKind kind
  | .resolved p _ => p.OfKind kind
  | .answered _ _ out => out.OfKind kind
  | .done => True

/-- The call has yet to return or fail. -/
def CallPhase.isOpen : CallPhase G → Bool
  | .done => false
  | _ => true

/-- The polls of an id: of one kind, and as many of them open as came to no end yet. -/
structure PollsInv (os : List (ManagerEvent G)) (id : Nat) (polls : List (CallPhase G)) :
    Prop where
  kinds : ∀ phase ∈ polls, ∃ kind, Granted os id kind ∧ phase.OfKind kind
  pending : os.countP (ManagerEvent.concludes id) + polls.countP CallPhase.isOpen
    = os.countP (ManagerEvent.accepts id)

/-- The ids that are drawn, and those that are granted. -/
structure IdsInv (os : List (ManagerEvent G)) (currentId : Nat)
    (installs : List (InstallPhase G)) : Prop where
  positive : 1 ≤ currentId
  granted : ∀ id kind, Granted os id kind → id < currentId
  numbered : ∀ (t : Nat) id latest kind, installs[t]? = some (.numbered id latest kind) →
    1 ≤ id ∧ id < currentId ∧ ∀ kind', ¬ Granted os id kind'
  apart : ∀ (t t' : Nat) id latest kind latest' kind',
    installs[t]? = some (.numbered id latest kind) →
    installs[t']? = some (.numbered id latest' kind') → t = t'

structure ManagerInv (os : List (ManagerEvent G)) (w : ManagerWorld Tx G) : Prop where
  ids : IdsInv os w.manager.currentId w.installs
  /-- The map holds the table. -/
  table : ∀ id, (w.manager.get id).map ActiveFilter.lease = leases os id
  polls : ∀ id, PollsInv os id (w.calls id)

variable {os : List (ManagerEvent G)} {w : ManagerWorld Tx G} {e : ManagerEvent G}

/-- An event that grants nothing. -/
theorem not_granted_concat {id : Nat} {kind : InterestKind G}
    (he : ∀ id kind now, e ≠ .installed id kind now) :
    Granted (os ++ [e]) id kind ↔ Granted os id kind := by
  rw [granted_concat]
  exact or_iff_left fun ⟨now, h⟩ => he _ _ _ h

theorem IdsInv.concat {currentId : Nat} {installs : List (InstallPhase G)}
    (h : IdsInv os currentId installs) (he : ∀ id kind now, e ≠ .installed id kind now) :
    IdsInv (os ++ [e]) currentId installs := by
  refine ⟨h.positive, fun id kind hg => h.granted id kind ((not_granted_concat he).mp hg), ?_,
    h.apart⟩
  intro t id latest kind ht
  obtain ⟨hpos, hlt, hno⟩ := h.numbered t id latest kind ht
  exact ⟨hpos, hlt, fun kind' hg => hno kind' ((not_granted_concat he).mp hg)⟩

/-- The polls of an id that an event neither starts nor ends. -/
theorem PollsInv.concat {id : Nat} {polls : List (CallPhase G)} (h : PollsInv os id polls)
    (haccept : e.accepts id = false) (hconclude : e.concludes id = false) :
    PollsInv (os ++ [e]) id polls := by
  refine ⟨fun phase hphase => ?_, ?_⟩
  · obtain ⟨kind, hgranted, hkind⟩ := h.kinds phase hphase
    exact ⟨kind, hgranted.concat e, hkind⟩
  · rw [List.countP_append, List.countP_append, List.countP_singleton, List.countP_singleton,
      haccept, hconclude]
    exact h.pending

theorem PollsInv.other {id j : Nat} {polls : List (CallPhase G)} (h : PollsInv os j polls)
    (he : e.id = id) (hj : j ≠ id) : PollsInv (os ++ [e]) j polls := by
  subst he
  refine h.concat ?_ ?_
  · unfold ManagerEvent.accepts
    split
    · exact decide_eq_false (Ne.symm hj)
    · rfl
  · unfold ManagerEvent.concludes
    split
    · exact decide_eq_false (Ne.symm hj)
    · exact decide_eq_false (Ne.symm hj)
    · rfl

theorem PollsInv.start {id : Nat} {polls : List (CallPhase G)} {p : PollStart G}
    {kind : InterestKind G} (h : PollsInv os id polls) (hgranted : Granted os id kind)
    (hp : p.OfKind kind) : PollsInv (os ++ [.polled id none]) id (polls ++ [.copied p]) := by
  refine ⟨fun phase hphase => ?_, ?_⟩
  · rcases List.mem_append.mp hphase with hold | hnew
    · obtain ⟨kind', hgranted', hkind⟩ := h.kinds phase hold
      exact ⟨kind', hgranted'.concat _, hkind⟩
    · rw [List.mem_singleton.mp hnew]
      exact ⟨kind, hgranted.concat _, hp⟩
  · have hpending := h.pending
    simp only [List.countP_append, List.countP_singleton, ManagerEvent.concludes,
      ManagerEvent.accepts, CallPhase.isOpen, decide_true, if_true, Bool.false_eq_true,
      if_false]
    omega

/-- A poll moves on, and stays open. -/
theorem PollsInv.move {id c : Nat} {polls : List (CallPhase G)} {old new : CallPhase G}
    (h : PollsInv os id polls) (hc : polls[c]? = some old) (hold : old.isOpen = true)
    (hnew : new.isOpen = true) (hkind : ∀ kind, old.OfKind kind → new.OfKind kind) :
    PollsInv os id (polls.set c new) := by
  obtain ⟨hlt, hget⟩ := List.getElem?_eq_some_iff.mp hc
  refine ⟨fun phase hphase => ?_, ?_⟩
  · rcases List.mem_or_eq_of_mem_set hphase with hmem | rfl
    · exact h.kinds phase hmem
    · obtain ⟨kind, hgranted, hofKind⟩ := h.kinds old (List.mem_of_getElem? hc)
      exact ⟨kind, hgranted, hkind kind hofKind⟩
  · have hpos : 0 < polls.countP CallPhase.isOpen :=
      List.countP_pos_iff.mpr ⟨old, List.mem_of_getElem? hc, hold⟩
    have hpending := h.pending
    rw [List.countP_set hlt, hget, hold, hnew, if_pos rfl]
    omega

/-- A poll comes to its end, which it had not come to before. -/
theorem PollsInv.conclude {id c : Nat} {polls : List (CallPhase G)} {old : CallPhase G}
    (h : PollsInv os id polls) (hc : polls[c]? = some old) (hold : old.isOpen = true)
    (he : e.concludes id = true) (he' : e.accepts id = false) :
    os.countP (ManagerEvent.concludes id) < os.countP (ManagerEvent.accepts id)
      ∧ PollsInv (os ++ [e]) id (polls.set c .done) := by
  obtain ⟨hlt, hget⟩ := List.getElem?_eq_some_iff.mp hc
  have hpos : 0 < polls.countP CallPhase.isOpen :=
    List.countP_pos_iff.mpr ⟨old, List.mem_of_getElem? hc, hold⟩
  have hpending := h.pending
  refine ⟨by omega, fun phase hphase => ?_, ?_⟩
  · rcases List.mem_or_eq_of_mem_set hphase with hmem | rfl
    · obtain ⟨kind, hgranted, hkind⟩ := h.kinds phase hmem
      exact ⟨kind, hgranted.concat e, hkind⟩
    · obtain ⟨kind, hgranted, -⟩ := h.kinds old (List.mem_of_getElem? hc)
      exact ⟨kind, hgranted.concat e, trivial⟩
  · rw [List.countP_set hlt, hget, hold, if_pos rfl, List.countP_append, List.countP_append,
      List.countP_singleton, List.countP_singleton, he, he']
    simp only [CallPhase.isOpen, if_true, Bool.false_eq_true, if_false]
    omega

/-! ## One step -/

theorem readRing_lease (f : ActiveFilter G) (reorgs : ReorgBuffer G) :
    (f.readRing reorgs).2.lease = f.lease := by
  unfold ActiveFilter.readRing ActiveFilter.lease
  rw [computeRemovedLogs_filter]
  obtain ⟨htime, hkind⟩ := foldl_rewind (reorgsSince reorgs f.lastPollTime) f
  rw [htime, hkind]

theorem readRing_ofKind (f : ActiveFilter G) (reorgs : ReorgBuffer G) :
    (f.readRing reorgs).1.OfKind f.kind := by
  refine ⟨congrArg Prod.fst (readRing_lease f reorgs), fun hnone => ?_⟩
  show (f.computeRemovedLogs _).1 = []
  unfold ActiveFilter.computeRemovedLogs
  rw [hnone]

theorem commit_lease (p : PollStart G) (latest now : Nat) (f : ActiveFilter G) :
    (p.commit latest now f).lease = (f.lease.1, now) := by
  unfold PollStart.commit
  split <;> rfl

/-- What a poll returns is of the kind of its filter: a block filter has no removed logs. -/
theorem output_ofKind {p : PollStart G} {kind : InterestKind G} {cold : ColdReads G} {latest : Nat}
    {out : FilterOutput G} (h : p.OfKind kind) (hout : p.output cold latest = .ok out) :
    out.OfKind kind := by
  obtain ⟨rfl, hremoved⟩ := h
  unfold PollStart.output at hout
  cases hk : p.kind with
  | block =>
      rw [hk] at hremoved hout
      rw [hremoved rfl] at hout
      split at hout
      · obtain rfl := Except.ok.inj hout
        trivial
      · dsimp only at hout
        cases hcold : cold.getHeaders p.start latest with
        | error e =>
            rw [hcold] at hout
            cases hout
        | ok hashes =>
            rw [hcold] at hout
            obtain rfl := Except.ok.inj hout
            trivial
  | log filter =>
      rw [hk] at hout
      split at hout
      · obtain rfl := Except.ok.inj hout
        split <;> trivial
      · dsimp only at hout
        cases hcold : cold.streamLogs filter p.start latest with
        | error e =>
            rw [hcold] at hout
            cases hout
        | ok logs =>
            rw [hcold] at hout
            obtain rfl := Except.ok.inj hout
            trivial

/-- Changing the filter of one id changes the table there. -/
theorem table_update {l : Leases G} {m m' : FilterManager G} {id : Nat}
    {lease : Option (InterestKind G × Nat)}
    (h : ∀ j, (m.get j).map ActiveFilter.lease = l j) (hne : ∀ j, j ≠ id → m'.get j = m.get j)
    (hself : (m'.get id).map ActiveFilter.lease = lease) (j : Nat) :
    (m'.get j).map ActiveFilter.lease = Function.update l id lease j := by
  by_cases hj : j = id
  · subst hj
    rw [Function.update_self, hself]
  · rw [Function.update_of_ne hj, hne j hj, h j]

/-- Changing the polls of one id. -/
theorem polls_update {os' : List (ManagerEvent G)} {calls : Nat → List (CallPhase G)} {id : Nat}
    {polls : List (CallPhase G)} (hself : PollsInv os' id polls)
    (hne : ∀ j, j ≠ id → PollsInv os' j (calls j)) (j : Nat) :
    PollsInv os' j (Function.update calls id polls j) := by
  by_cases hj : j = id
  · subst hj
    rw [Function.update_self]
    exact hself
  · rw [Function.update_of_ne hj]
    exact hne j hj

theorem IdsInv.draw {currentId t latest : Nat} {installs : List (InstallPhase G)}
    {kind : InterestKind G} (h : IdsInv os currentId installs)
    (ht : installs[t]? = some (.loaded latest kind)) :
    IdsInv os (currentId + 1) (installs.set t (.numbered currentId latest kind)) := by
  have hlt : t < installs.length := (List.getElem?_eq_some_iff.mp ht).1
  have hnumbered (u id latest' : Nat) (kind' : InterestKind G)
      (hu : (installs.set t (.numbered currentId latest kind))[u]? =
        some (.numbered id latest' kind')) :
      u = t ∧ id = currentId ∨ u ≠ t ∧ installs[u]? = some (.numbered id latest' kind') := by
    by_cases hut : u = t
    · subst hut
      rw [List.getElem?_set_self hlt] at hu
      obtain ⟨rfl, -, -⟩ := InstallPhase.numbered.inj (Option.some.inj hu)
      exact Or.inl ⟨rfl, rfl⟩
    · rw [List.getElem?_set_ne (Ne.symm hut)] at hu
      exact Or.inr ⟨hut, hu⟩
  refine ⟨Nat.le_succ_of_le h.positive,
    fun id kind hg => Nat.lt_succ_of_lt (h.granted id kind hg), ?_, ?_⟩
  · intro u id latest' kind' hu
    rcases hnumbered u id latest' kind' hu with ⟨-, rfl⟩ | ⟨-, hold⟩
    · exact ⟨h.positive, Nat.lt_succ_self _, fun kind hg => Nat.lt_irrefl _ (h.granted _ kind hg)⟩
    · obtain ⟨hpos, hid, hno⟩ := h.numbered u id latest' kind' hold
      exact ⟨hpos, Nat.lt_succ_of_lt hid, hno⟩
  · intro u u' id latest₁ kind₁ latest₂ kind₂ hu hu'
    rcases hnumbered u id latest₁ kind₁ hu with ⟨rfl, hid⟩ | ⟨-, hold⟩ <;>
      rcases hnumbered u' id latest₂ kind₂ hu' with ⟨rfl, hid'⟩ | ⟨-, hold'⟩
    · rfl
    · have hlt' := (h.numbered u' id latest₂ kind₂ hold').2.1
      omega
    · have hlt' := (h.numbered u id latest₁ kind₁ hold).2.1
      omega
    · exact h.apart u u' id latest₁ kind₁ latest₂ kind₂ hold hold'

theorem IdsInv.grant {currentId t id latest : Nat} {installs : List (InstallPhase G)}
    {kind : InterestKind G} (h : IdsInv os currentId installs)
    (ht : installs[t]? = some (.numbered id latest kind)) (now : Nat) :
    IdsInv (os ++ [.installed id kind now]) currentId (installs.set t .done) := by
  have hlt : t < installs.length := (List.getElem?_eq_some_iff.mp ht).1
  have hstill {u j latest' : Nat} {kind' : InterestKind G}
      (hu : (installs.set t .done)[u]? = some (.numbered j latest' kind')) :
      u ≠ t ∧ installs[u]? = some (.numbered j latest' kind') := by
    by_cases hut : u = t
    · subst hut
      rw [List.getElem?_set_self hlt] at hu
      cases hu
    · rw [List.getElem?_set_ne (Ne.symm hut)] at hu
      exact ⟨hut, hu⟩
  refine ⟨h.positive, fun j kind' hg => ?_, ?_, ?_⟩
  · rcases granted_concat.mp hg with hold | ⟨now', heq⟩
    · exact h.granted j kind' hold
    · obtain ⟨rfl, -, -⟩ := ManagerEvent.installed.inj heq
      exact (h.numbered t id latest kind ht).2.1
  · intro u j latest' kind' hu
    obtain ⟨hne, hold⟩ := hstill hu
    obtain ⟨hpos, hid, hno⟩ := h.numbered u j latest' kind' hold
    refine ⟨hpos, hid, fun kind'' hg => ?_⟩
    rcases granted_concat.mp hg with hbefore | ⟨now', heq⟩
    · exact hno kind'' hbefore
    · obtain ⟨rfl, -, -⟩ := ManagerEvent.installed.inj heq
      exact hne (h.apart u t id latest' kind' latest kind hold ht)
  · intro u u' j latest₁ kind₁ latest₂ kind₂ hu hu'
    exact h.apart u u' j latest₁ kind₁ latest₂ kind₂ (hstill hu).2 (hstill hu').2

/-- An install that only loaded the tag has no id. -/
theorem numbered_of_concat {t id latest latest' : Nat} {installs : List (InstallPhase G)}
    {kind kind' : InterestKind G}
    (h : (installs ++ [.loaded latest kind])[t]? = some (.numbered id latest' kind')) :
    installs[t]? = some (.numbered id latest' kind') := by
  rw [List.getElem?_append] at h
  split at h
  · exact h
  · rw [List.getElem?_singleton] at h
    split at h <;> cases h

theorem managerInv_new (notifier : ChainNotifier Tx G) :
    ManagerInv [] (ManagerWorld.new notifier) := by
  have hnone (id : Nat) (kind : InterestKind G) : ¬ Granted [] id kind :=
    fun ⟨_, hmem⟩ => absurd hmem (by simp)
  refine ⟨⟨Nat.le_refl 1, fun id kind hg => absurd hg (hnone id kind), ?_, ?_⟩, fun id => rfl,
    fun id => ⟨fun phase hphase => absurd hphase (by simp [ManagerWorld.new]), rfl⟩⟩
  · intro t id latest kind ht
    cases ht
  · intro t t' id latest kind latest' kind' ht
    cases ht

/-- The lease of a filter in the map. -/
theorem ManagerInv.lease (h : ManagerInv os w) {id : Nat} {f : ActiveFilter G}
    (hid : w.manager.get id = some f) : leases os id = some f.lease := by
  rw [← h.table id, hid]
  rfl

/-- **Each step keeps the invariant and obeys the law.** -/
theorem managerInv_step (h : ManagerInv os w) {o : Option (ManagerEvent G)}
    {w' : ManagerWorld Tx G} (hm : ManagerMoved ttl w o w') :
    ManagerInv (os ++ o.toList) w' ∧ ∀ e, o = some e → LeaseLaw ttl os e := by
  -- the law of the one event there is
  have only {e : ManagerEvent G} (he : LeaseLaw ttl os e) :
      ∀ e', some e = some e' → LeaseLaw ttl os e' := fun e' heq => Option.some.inj heq ▸ he
  have hquiet {e : ManagerEvent G} (haccept : ∀ j, e.accepts j = false)
      (hconclude : ∀ j, e.concludes j = false) (j : Nat) : PollsInv (os ++ [e]) j (w.calls j) :=
    (h.polls j).concat (haccept j) (hconclude j)
  cases hm with
  | same => exact ⟨by rwa [Option.toList_none, List.append_nil], by rintro _ ⟨⟩⟩
  | node notifier =>
      rw [Option.toList_none, List.append_nil]
      exact ⟨⟨h.ids, h.table, h.polls⟩, by rintro _ ⟨⟩⟩
  | loaded latest kind =>
      rw [Option.toList_none, List.append_nil]
      refine ⟨⟨⟨h.ids.positive, h.ids.granted, ?_, ?_⟩, h.table, h.polls⟩, by rintro _ ⟨⟩⟩
      · intro t id latest' kind' ht
        exact h.ids.numbered t id latest' kind' (numbered_of_concat ht)
      · intro t t' id latest₁ kind₁ latest₂ kind₂ ht ht'
        exact h.ids.apart t t' id latest₁ kind₁ latest₂ kind₂ (numbered_of_concat ht)
          (numbered_of_concat ht')
  | numbered ht =>
      rw [Option.toList_none, List.append_nil]
      exact ⟨⟨h.ids.draw ht, h.table, h.polls⟩, by rintro _ ⟨⟩⟩
  | @installed t id latest kind now ht =>
      obtain ⟨hpos, hid, hno⟩ := h.ids.numbered t id latest kind ht
      refine ⟨⟨h.ids.grant ht now, ?_, hquiet (fun j => rfl) (fun j => rfl)⟩, only ⟨hpos, hno⟩⟩
      rw [Option.toList_some, leases_concat]
      exact table_update h.table (fun j hj => get_insert_ne hj)
        (by rw [get_insert_self]; rfl)
  | uninstalled id =>
      refine ⟨⟨h.ids.concat (by rintro _ _ _ ⟨⟩), ?_, hquiet (fun j => rfl) (fun j => rfl)⟩,
        only ?_⟩
      · rw [Option.toList_some, leases_concat]
        exact table_update h.table (fun j hj => get_uninstall_ne hj)
          (by rw [get_uninstall_self]; rfl)
      · show (w.manager.get id).isSome = _
        rw [← h.table id, Option.isSome_map]
  | @refused id hid =>
      refine ⟨⟨h.ids.concat (by rintro _ _ _ ⟨⟩), ?_, hquiet (fun j => rfl) (fun j => rfl)⟩,
        only ?_⟩
      · rw [Option.toList_some, leases_concat]
        exact h.table
      · show _ = if (leases os id).isSome then none else _
        rw [← h.table id, hid]
        rfl
  | @copied id f hid =>
      have hlease := h.lease hid
      refine ⟨⟨?_, ?_, ?_⟩, only ?_⟩
      · exact h.ids.concat (by rintro _ _ _ ⟨⟩)
      · rw [Option.toList_some, leases_concat]
        intro j
        by_cases hj : j = id
        · subst hj
          rw [get_put_self hid, Leases.record, hlease, ← readRing_lease f w.notifier.reorgs]
          rfl
        · rw [get_put_ne hj]
          exact h.table j
      · exact polls_update ((h.polls id).start (granted_of_leases hlease)
          (readRing_ofKind f w.notifier.reorgs)) fun j hj => (h.polls j).other rfl hj
      · show _ = if (leases os id).isSome then none else _
        rw [hlease]
        rfl
  | @resolved id c p latest hc =>
      rw [Option.toList_none, List.append_nil]
      exact ⟨⟨h.ids, h.table, polls_update ((h.polls id).move hc rfl rfl fun kind hk => hk)
        fun j _ => h.polls j⟩, by rintro _ ⟨⟩⟩
  | @answered id c latest p cold out hc hout =>
      rw [Option.toList_none, List.append_nil]
      exact ⟨⟨h.ids, h.table, polls_update ((h.polls id).move hc rfl rfl fun kind hk =>
        output_ofKind hk hout) fun j _ => h.polls j⟩, by rintro _ ⟨⟩⟩
  | @failed id c latest p e hc =>
      obtain ⟨hlt, hpolls⟩ := (h.polls id).conclude (e := .failed id e) hc rfl
        (by simp [ManagerEvent.concludes]) rfl
      refine ⟨⟨h.ids.concat (by rintro _ _ _ ⟨⟩), ?_, ?_⟩, only hlt⟩
      · rw [Option.toList_some, leases_concat]
        exact h.table
      · exact polls_update hpolls fun j hj => (h.polls j).other rfl hj
  | @returned id c latest now p out hc =>
      obtain ⟨hlt, hpolls⟩ := (h.polls id).conclude (e := .returned id now out) hc rfl
        (by simp [ManagerEvent.concludes]) rfl
      obtain ⟨kind, hgranted, hkind⟩ := (h.polls id).kinds _ (List.mem_of_getElem? hc)
      refine ⟨⟨?_, ?_, ?_⟩, only ⟨⟨kind, hgranted, hkind⟩, hlt⟩⟩
      · have hids := h.ids.concat (e := .returned id now out) (by rintro _ _ _ ⟨⟩)
        rw [← currentId_modify (p.commit latest now)] at hids
        exact hids
      · rw [Option.toList_some, leases_concat]
        refine table_update h.table (fun j hj => get_modify_ne hj _) ?_
        rw [get_modify_self, ← h.table id]
        cases w.manager.get id with
        | none => rfl
        | some f => exact congrArg some (commit_lease p latest now f)
      · exact polls_update hpolls fun j hj => (h.polls j).other rfl hj
  | @kept id now f hid hfresh =>
      refine ⟨⟨h.ids.concat (by rintro _ _ _ ⟨⟩), ?_, hquiet (fun j => rfl) (fun j => rfl)⟩,
        only ⟨_, _, h.lease hid, (decide_eq_true hfresh).symm⟩⟩
      rw [Option.toList_some, leases_concat]
      exact h.table
  | @dropped id now f hid hstale =>
      refine ⟨⟨h.ids.concat (by rintro _ _ _ ⟨⟩), ?_, hquiet (fun j => rfl) (fun j => rfl)⟩,
        only ⟨_, _, h.lease hid, (decide_eq_false hstale).symm⟩⟩
      rw [Option.toList_some, leases_concat]
      exact table_update h.table (fun j hj => get_uninstall_ne hj)
        (by rw [get_uninstall_self]; rfl)

/-- Only granting makes a lease. -/
theorem leases_concat_none {id : Nat} (h : leases os id = none)
    (he : ∀ kind now, e ≠ .installed id kind now) : leases (os ++ [e]) id = none := by
  have hupdate (j : Nat) (lease : Option (InterestKind G × Nat)) (hj : id = j → lease = none) :
      Function.update (leases os) j lease id = none := by
    by_cases hid : id = j
    · subst hid
      rw [Function.update_self, hj rfl]
    · rw [Function.update_of_ne hid, h]
  rw [leases_concat]
  cases e with
  | installed j kind now => exact hupdate j _ fun hj => absurd (hj ▸ rfl) (he kind now)
  | uninstalled j found => exact hupdate j _ fun _ => rfl
  | polled j refusal => exact h
  | returned j now out => exact hupdate j _ fun hj => by rw [← hj, h]; rfl
  | failed j error => exact h
  | looked j now kept =>
      cases kept with
      | true => exact h
      | false => exact hupdate j _ fun _ => rfl

/-- **A lease that ended does not come back**: its id is granted once. -/
theorem lease_ended {pre : List (ManagerEvent G)} {id : Nat} {kind : InterestKind G}
    (hgranted : Granted pre id kind) (hnone : leases pre id = none) :
    ∀ post, Along (LeaseLaw ttl) (pre ++ post) → leases (pre ++ post) id = none := by
  intro post
  induction post using List.reverseRecOn with
  | nil => intro _; rwa [List.append_nil]
  | append_singleton post e ih =>
      intro hlaw
      rw [← List.append_assoc] at hlaw ⊢
      refine leases_concat_none (ih ?_) ?_
      · rintro before o after heq
        exact hlaw before o (after ++ [e]) (by rw [heq]; simp)
      · rintro kind' now rfl
        obtain ⟨now', hmem⟩ := hgranted
        exact (hlaw (pre ++ post) _ [] rfl).2 kind ⟨now', List.mem_append_left _ hmem⟩

/--
**Filters are leases.** However the installs, the polls, the uninstalls and the cleaner's
looks interleave, and whatever the node does meanwhile, the map holds exactly the leases
that were granted and have not ended, and every answer is the one the leases give: an id
is granted once; an uninstall finds, and a poll is accepted at, just the ids that are
leased; an accepted poll returns at most once, with output of the kind the filter was
installed for, even if the filter is gone by then; the cleaner drops a filter if and only
if its last poll to return, or its install, is the time-to-live ago. A lease that ended
does not come back.
-/
theorem filters_are_leases (ttl : Nat) (notifier : ChainNotifier Tx G)
    (steps : List (ManagerStep Tx G)) :
    let run := runInputs (managerStep ttl) steps (ManagerWorld.new notifier)
    (∀ id, (run.2.manager.get id).map ActiveFilter.lease = leases run.1 id)
      ∧ Along (LeaseLaw ttl) run.1
      ∧ ∀ pre post id kind, run.1 = pre ++ post → Granted pre id kind → leases pre id = none →
          leases run.1 id = none := by
  intro run
  have hrun : Run (managerStep ttl) (fun _ _ => True) (ManagerWorld.new notifier) run.1 run.2 :=
    runInputs_run steps _ (admits_true steps _)
  obtain ⟨hinv, hlaw⟩ := Run.law (I := ManagerInv) (L := LeaseLaw ttl) (managerInv_new notifier)
    (fun s os w h _ => managerInv_step h (managerStep_moved ttl s w)) hrun
  refine ⟨hinv.table, hlaw, fun pre post id kind heq hgranted hnone => ?_⟩
  rw [heq] at hlaw ⊢
  exact lease_ended hgranted hnone post hlaw

end NodeComponents.Rpc
