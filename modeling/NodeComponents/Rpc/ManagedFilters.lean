import Mathlib.Logic.Function.Basic
import NodeComponents.Lib.Unwinding
import NodeComponents.Rpc.PollCalls
import NodeComponents.Rpc.ReorgRing

/-!
# The filter manager under all its calls

Every filter of the server lives in one concurrent map, and four kinds of task meet there:
calls that install a filter, calls that uninstall one, polls, and the cleaner, which goes
over the filters one by one. A task locks one filter at a time, and never across a wait,
so other tasks run between any two of its accesses: between loading the latest tag and
inserting the filter, between the parts of a poll, between the cleaner's looks.

`filters_isolated` says that the filters do not notice one another all the same: what is
observed of one does not depend on any poll, uninstall or look at the others.
-/

namespace NodeComponents.Rpc

open Lib

variable {G Tx : Type} {ttl : Nat}

/-! ## Parts of the manager -/

/-- Get the next filter ID. -/
def FilterManager.nextId (m : FilterManager G) : Nat × FilterManager G :=
  (m.currentId, { m with currentId := m.currentId + 1 })

def FilterManager.insert (m : FilterManager G) (id : Nat) (f : ActiveFilter G) : FilterManager G :=
  { m.uninstall id with filters := (m.uninstall id).filters ++ [(id, f)] }

/-- Change the filter of an id, if it is there. -/
def FilterManager.modify (m : FilterManager G) (id : Nat)
    (change : ActiveFilter G → ActiveFilter G) : FilterManager G :=
  match m.get id with
  | none => m
  | some f => m.put id (change f)

section Map

variable {m : FilterManager G} {id j : Nat} {f : ActiveFilter G}

@[simp] theorem get_new (id : Nat) : (FilterManager.new : FilterManager G).get id = none := rfl

theorem get_uninstall_self : (m.uninstall id).get id = none := by
  unfold FilterManager.get FilterManager.uninstall
  refine List.lookup_eq_none_iff.mpr ?_
  intro e he
  simp only [List.mem_filter, decide_eq_true_eq] at he
  simpa using Ne.symm he.2

theorem get_uninstall_ne (h : j ≠ id) : (m.uninstall id).get j = m.get j := by
  unfold FilterManager.get FilterManager.uninstall
  induction m.filters with
  | nil => rfl
  | cons e rest ih =>
      obtain ⟨k, f⟩ := e
      dsimp only at ih
      by_cases hk : k = id
      · subst hk
        rw [List.filter_cons_of_neg (by simp), List.lookup_cons, ih,
          beq_eq_false_iff_ne.mpr h]
      · rw [List.filter_cons_of_pos (by simpa using hk), List.lookup_cons, List.lookup_cons, ih]

theorem get_insert_self : (m.insert id f).get id = some f := by
  have hnone : (m.uninstall id).filters.lookup id = none := get_uninstall_self
  show ((m.uninstall id).filters ++ [(id, f)]).lookup id = some f
  rw [List.lookup_append, hnone, List.lookup_cons, beq_self_eq_true]
  rfl

theorem get_insert_ne (h : j ≠ id) : (m.insert id f).get j = m.get j := by
  have hold : (m.uninstall id).filters.lookup j = m.get j := get_uninstall_ne h
  show ((m.uninstall id).filters ++ [(id, f)]).lookup j = m.get j
  rw [List.lookup_append, hold, List.lookup_cons, beq_eq_false_iff_ne.mpr h]
  cases m.get j <;> rfl

theorem get_put_ne (h : j ≠ id) : (m.put id f).get j = m.get j := by
  unfold FilterManager.get FilterManager.put
  induction m.filters with
  | nil => rfl
  | cons e rest ih =>
      obtain ⟨k, g⟩ := e
      dsimp only at ih ⊢
      rw [List.map_cons]
      by_cases hk : k = id
      · subst hk
        rw [if_pos rfl, List.lookup_cons, List.lookup_cons, ih]
        simp only [beq_eq_false_iff_ne.mpr h]
      · rw [if_neg hk, List.lookup_cons, List.lookup_cons, ih]

theorem get_put_self {g : ActiveFilter G} (h : m.get id = some g) :
    (m.put id f).get id = some f := by
  unfold FilterManager.get at h
  unfold FilterManager.get FilterManager.put
  generalize m.filters = filters at h
  induction filters with
  | nil => cases h
  | cons e rest ih =>
      obtain ⟨k, g'⟩ := e
      dsimp only at ih ⊢
      rw [List.map_cons]
      by_cases hk : k = id
      · subst hk
        rw [if_pos rfl, List.lookup_cons, beq_self_eq_true]
      · have hne : (id == k) = false := beq_eq_false_iff_ne.mpr (Ne.symm hk)
        rw [List.lookup_cons, hne] at h
        rw [if_neg hk, List.lookup_cons, hne]
        exact ih h

theorem get_modify_self (change : ActiveFilter G → ActiveFilter G) :
    (m.modify id change).get id = (m.get id).map change := by
  unfold FilterManager.modify
  cases h : m.get id with
  | none => exact h
  | some f => exact get_put_self h

theorem get_modify_ne (h : j ≠ id) (change : ActiveFilter G → ActiveFilter G) :
    (m.modify id change).get j = m.get j := by
  unfold FilterManager.modify
  cases m.get id with
  | none => rfl
  | some f => exact get_put_ne h

/-- Drawing an id and inserting under it is what installing does when no task comes between. -/
theorem insert_nextId (hfree : m.get m.currentId = none) (currentBlock now : Nat)
    (kind : InterestKind G) :
    m.nextId.2.insert m.nextId.1 (ActiveFilter.install currentBlock now kind)
      = m.install currentBlock now kind := by
  have hkeep : (m.filters.filter fun e => e.1 ≠ m.currentId) = m.filters := by
    refine List.filter_eq_self.mpr ?_
    intro e he
    have hne : m.currentId ≠ e.1 := by simpa using List.lookup_eq_none_iff.mp hfree e he
    simpa using Ne.symm hne
  show FilterManager.mk (m.currentId + 1) ((m.filters.filter fun e => e.1 ≠ m.currentId) ++ _) = _
  rw [hkeep]
  rfl

/-- A pass of the cleaner at one instant, as seen at one id. -/
theorem get_cleanStale (hnodup : (m.filters.map Prod.fst).Nodup) (now olderThan : Nat) :
    (m.cleanStale now olderThan).get id
      = (m.get id).filter fun f => now - f.lastPollTime < olderThan := by
  unfold FilterManager.get FilterManager.cleanStale
  generalize m.filters = filters at hnodup
  induction filters with
  | nil => rfl
  | cons e rest ih =>
      obtain ⟨k, f⟩ := e
      obtain ⟨hk, hrest⟩ := List.nodup_cons.mp hnodup
      dsimp only at ih ⊢
      have hih := ih hrest
      by_cases hid : id = k
      · subst hid
        have habsent : ∀ e ∈ rest, (id != e.1) = true := fun e he =>
          bne_iff_ne.mpr fun heq => hk (List.mem_map.mpr ⟨e, he, heq.symm⟩)
        rw [List.lookup_cons, beq_self_eq_true]
        by_cases hfresh : now - f.lastPollTime < olderThan
        · rw [List.filter_cons_of_pos (by simpa using hfresh), List.lookup_cons, beq_self_eq_true,
            Option.filter_some_pos (by simpa using hfresh)]
        · rw [List.filter_cons_of_neg (by simpa using hfresh),
            Option.filter_some_neg (by simpa using hfresh), hih,
            List.lookup_eq_none_iff.mpr habsent]
          rfl
      · have hne : (id == k) = false := beq_eq_false_iff_ne.mpr hid
        rw [List.lookup_cons, hne, ← hih]
        by_cases hfresh : now - f.lastPollTime < olderThan
        · rw [List.filter_cons_of_pos (by simpa using hfresh), List.lookup_cons, hne]
        · rw [List.filter_cons_of_neg (by simpa using hfresh)]

theorem currentId_modify (change : ActiveFilter G → ActiveFilter G) :
    (m.modify id change).currentId = m.currentId := by
  unfold FilterManager.modify
  cases m.get id <;> rfl

end Map

/-! ## The machine -/

/-- How far a call that installs a filter has come. -/
inductive InstallPhase (G : Type) where
  /-- The latest tag is loaded. -/
  | loaded (latest : Nat) (kind : InterestKind G)
  /-- The id is drawn; the filter is not in the map yet. -/
  | numbered (id latest : Nat) (kind : InterestKind G)
  | done

/-- The notifier, the manager, the calls that install, and the polls of each id. -/
structure ManagerWorld (Tx G : Type) where
  notifier : ChainNotifier Tx G
  manager : FilterManager G
  installs : List (InstallPhase G)
  calls : Nat → List (CallPhase G)

def ManagerWorld.new (notifier : ChainNotifier Tx G) : ManagerWorld Tx G :=
  ⟨notifier, FilterManager.new, [], fun _ => []⟩

/-- A step of the node, or of one task; a step that reads the clock carries the instant. -/
inductive ManagerStep (Tx G : Type) where
  /-- The node moves tags, or sends a reorg. -/
  | node (notifier : ChainNotifier Tx G)
  | newFilter (kind : InterestKind G)
  | nextId (t : Nat)
  | insert (t now : Nat)
  | uninstall (id : Nat)
  | copy (id : Nat)
  | readLatest (id c : Nat)
  | answer (id c : Nat) (cold : ColdReads G)
  | commit (id c now : Nat)
  /-- The cleaner looks at the filter of an id. -/
  | clean (id now : Nat)

/-- What the clients are told, and what the cleaner does. -/
inductive ManagerEvent (G : Type) where
  | installed (id : Nat) (kind : InterestKind G) (now : Nat)
  | uninstalled (id : Nat) (found : Bool)
  /-- A poll starts, or is refused. -/
  | polled (id : Nat) (refusal : Option String)
  | returned (id now : Nat) (out : FilterOutput G)
  | failed (id : Nat) (error : String)
  | looked (id now : Nat) (kept : Bool)

/-- The id an event is about. -/
def ManagerEvent.id : ManagerEvent G → Nat
  | .installed id _ _ => id
  | .uninstalled id _ => id
  | .polled id _ => id
  | .returned id _ _ => id
  | .failed id _ => id
  | .looked id _ _ => id

def filterNotFound (id : Nat) : String := s!"filter not found: {id}"

def ManagerWorld.advance (w : ManagerWorld Tx G) (id c : Nat) (phase : CallPhase G) :
    ManagerWorld Tx G :=
  { w with calls := Function.update w.calls id ((w.calls id).set c phase) }

def ManagerWorld.nextId (w : ManagerWorld Tx G) (t : Nat) : ManagerWorld Tx G :=
  match w.installs[t]? with
  | some (.loaded latest kind) =>
    { w with
      manager := w.manager.nextId.2
      installs := w.installs.set t (.numbered w.manager.nextId.1 latest kind) }
  | _ => w

def ManagerWorld.insert (w : ManagerWorld Tx G) (t now : Nat) :
    Option (ManagerEvent G) × ManagerWorld Tx G :=
  match w.installs[t]? with
  | some (.numbered id latest kind) =>
    (some (.installed id kind now), { w with
      manager := w.manager.insert id (ActiveFilter.install latest now kind)
      installs := w.installs.set t .done })
  | _ => (none, w)

/-- A poll starts: the part under the shard lock. -/
def ManagerWorld.copy (w : ManagerWorld Tx G) (id : Nat) :
    Option (ManagerEvent G) × ManagerWorld Tx G :=
  match w.manager.get id with
  | none => (some (.polled id (some (filterNotFound id))), w)
  | some f =>
    let read := f.readRing w.notifier.reorgs
    (some (.polled id none), { w with
      manager := w.manager.put id read.2
      calls := Function.update w.calls id (w.calls id ++ [.copied read.1]) })

def ManagerWorld.readLatest (w : ManagerWorld Tx G) (id c : Nat) : ManagerWorld Tx G :=
  match (w.calls id)[c]? with
  | some (.copied p) => w.advance id c (.resolved p w.notifier.tags.latest)
  | _ => w

def ManagerWorld.answer (w : ManagerWorld Tx G) (id c : Nat) (cold : ColdReads G) :
    Option (ManagerEvent G) × ManagerWorld Tx G :=
  match (w.calls id)[c]? with
  | some (.resolved p latest) =>
    match p.output cold latest with
    | .ok out => (none, w.advance id c (.answered p latest out))
    | .error e => (some (.failed id e), w.advance id c .done)
  | _ => (none, w)

/-- The cursors are committed, if the filter is still there; the call returns in any case. -/
def ManagerWorld.commit (w : ManagerWorld Tx G) (id c now : Nat) :
    Option (ManagerEvent G) × ManagerWorld Tx G :=
  match (w.calls id)[c]? with
  | some (.answered p latest out) =>
    (some (.returned id now out), { w.advance id c .done with
      manager := w.manager.modify id (p.commit latest now) })
  | _ => (none, w)

/-- The cleaner looks at one filter. -/
def ManagerWorld.clean (ttl : Nat) (w : ManagerWorld Tx G) (id now : Nat) :
    Option (ManagerEvent G) × ManagerWorld Tx G :=
  match w.manager.get id with
  | none => (none, w)
  | some f =>
    if now - f.lastPollTime < ttl then (some (.looked id now true), w)
    else (some (.looked id now false), { w with manager := w.manager.uninstall id })

/-- One step; a step its task has not come to does nothing. -/
def managerStep (ttl : Nat) :
    ManagerStep Tx G → ManagerWorld Tx G → Option (ManagerEvent G) × ManagerWorld Tx G
  | .node notifier, w => (none, { w with notifier := notifier })
  | .newFilter kind, w =>
    (none, { w with installs := w.installs ++ [.loaded w.notifier.tags.latest kind] })
  | .nextId t, w => (none, w.nextId t)
  | .insert t now, w => w.insert t now
  | .uninstall id, w =>
    (some (.uninstalled id (w.manager.get id).isSome), { w with manager := w.manager.uninstall id })
  | .copy id, w => w.copy id
  | .readLatest id c, w => (none, w.readLatest id c)
  | .answer id c cold, w => w.answer id c cold
  | .commit id c now, w => w.commit id c now
  | .clean id now, w => w.clean ttl id now

/-- **A look is the pass at its id**: taken one by one, at any instants, the looks of a pass do
to each filter what the pass at one instant does. -/
theorem get_clean {w : ManagerWorld Tx G} (hnodup : (w.manager.filters.map Prod.fst).Nodup)
    (id now : Nat) :
    (w.clean ttl id now).2.manager.get id = (w.manager.cleanStale now ttl).get id := by
  rw [get_cleanStale hnodup]
  unfold ManagerWorld.clean
  cases hget : w.manager.get id with
  | none => exact hget
  | some f =>
      dsimp only
      by_cases hfresh : now - f.lastPollTime < ttl
      · rw [if_pos hfresh, Option.filter_some_pos (by simpa using hfresh)]
        exact hget
      · rw [if_neg hfresh, Option.filter_some_neg (by simpa using hfresh)]
        exact get_uninstall_self

/-- What a step does. -/
inductive ManagerMoved (ttl : Nat) (w : ManagerWorld Tx G) :
    Option (ManagerEvent G) → ManagerWorld Tx G → Prop
  | same : ManagerMoved ttl w none w
  | node (notifier : ChainNotifier Tx G) : ManagerMoved ttl w none { w with notifier := notifier }
  | loaded (latest : Nat) (kind : InterestKind G) :
      ManagerMoved ttl w none { w with installs := w.installs ++ [.loaded latest kind] }
  | numbered {t latest : Nat} {kind : InterestKind G}
      (ht : w.installs[t]? = some (.loaded latest kind)) :
      ManagerMoved ttl w none { w with
        manager := w.manager.nextId.2
        installs := w.installs.set t (.numbered w.manager.currentId latest kind) }
  | installed {t id latest : Nat} {kind : InterestKind G} (now : Nat)
      (ht : w.installs[t]? = some (.numbered id latest kind)) :
      ManagerMoved ttl w (some (.installed id kind now)) { w with
        manager := w.manager.insert id (ActiveFilter.install latest now kind)
        installs := w.installs.set t .done }
  | uninstalled (id : Nat) :
      ManagerMoved ttl w (some (.uninstalled id (w.manager.get id).isSome))
        { w with manager := w.manager.uninstall id }
  | refused {id : Nat} (hid : w.manager.get id = none) :
      ManagerMoved ttl w (some (.polled id (some (filterNotFound id)))) w
  | copied {id : Nat} {f : ActiveFilter G} (hid : w.manager.get id = some f) :
      ManagerMoved ttl w (some (.polled id none)) { w with
        manager := w.manager.put id (f.readRing w.notifier.reorgs).2
        calls := Function.update w.calls id
          (w.calls id ++ [.copied (f.readRing w.notifier.reorgs).1]) }
  | resolved {id c : Nat} {p : PollStart G} (latest : Nat)
      (hc : (w.calls id)[c]? = some (.copied p)) :
      ManagerMoved ttl w none (w.advance id c (.resolved p latest))
  | answered {id c latest : Nat} {p : PollStart G} {cold : ColdReads G} {out : FilterOutput G}
      (hc : (w.calls id)[c]? = some (.resolved p latest)) (hout : p.output cold latest = .ok out) :
      ManagerMoved ttl w none (w.advance id c (.answered p latest out))
  | failed {id c latest : Nat} {p : PollStart G} (e : String)
      (hc : (w.calls id)[c]? = some (.resolved p latest)) :
      ManagerMoved ttl w (some (.failed id e)) (w.advance id c .done)
  | returned {id c latest : Nat} (now : Nat) {p : PollStart G} {out : FilterOutput G}
      (hc : (w.calls id)[c]? = some (.answered p latest out)) :
      ManagerMoved ttl w (some (.returned id now out)) { w.advance id c .done with
        manager := w.manager.modify id (p.commit latest now) }
  | kept {id now : Nat} {f : ActiveFilter G} (hid : w.manager.get id = some f)
      (hfresh : now - f.lastPollTime < ttl) : ManagerMoved ttl w (some (.looked id now true)) w
  | dropped {id now : Nat} {f : ActiveFilter G} (hid : w.manager.get id = some f)
      (hstale : ¬ now - f.lastPollTime < ttl) :
      ManagerMoved ttl w (some (.looked id now false)) { w with manager := w.manager.uninstall id }

theorem managerStep_moved (ttl : Nat) (s : ManagerStep Tx G) (w : ManagerWorld Tx G) :
    ManagerMoved ttl w (managerStep ttl s w).1 (managerStep ttl s w).2 := by
  cases s with
  | node notifier => exact .node notifier
  | newFilter kind => exact .loaded _ kind
  | nextId t =>
      show ManagerMoved ttl w none (w.nextId t)
      unfold ManagerWorld.nextId
      split
      · rename_i latest kind ht
        exact .numbered ht
      · exact .same
  | insert t now =>
      show ManagerMoved ttl w (w.insert t now).1 (w.insert t now).2
      unfold ManagerWorld.insert
      split
      · rename_i id latest kind ht
        exact .installed now ht
      · exact .same
  | uninstall id => exact .uninstalled id
  | copy id =>
      show ManagerMoved ttl w (w.copy id).1 (w.copy id).2
      unfold ManagerWorld.copy
      split
      · rename_i hid
        exact .refused hid
      · rename_i f hid
        exact .copied hid
  | readLatest id c =>
      show ManagerMoved ttl w none (w.readLatest id c)
      unfold ManagerWorld.readLatest
      split
      · rename_i p hc
        exact .resolved _ hc
      · exact .same
  | answer id c cold =>
      show ManagerMoved ttl w (w.answer id c cold).1 (w.answer id c cold).2
      unfold ManagerWorld.answer
      split
      · rename_i p latest hc
        split
        · rename_i out hout
          exact .answered hc hout
        · rename_i e hout
          exact .failed e hc
      · exact .same
  | commit id c now =>
      show ManagerMoved ttl w (w.commit id c now).1 (w.commit id c now).2
      unfold ManagerWorld.commit
      split
      · rename_i p latest out hc
        exact .returned now hc
      · exact .same
  | clean id now =>
      show ManagerMoved ttl w (w.clean ttl id now).1 (w.clean ttl id now).2
      unfold ManagerWorld.clean
      split
      · exact .same
      · rename_i f hid
        split
        · rename_i hfresh
          exact .kept hid hfresh
        · rename_i hstale
          exact .dropped hid hstale

/-! ## Isolation -/

/-- The input names the id, or no id. -/
def ManagerStep.concerns (id : Nat) : ManagerStep Tx G → Bool
  | .uninstall j => j = id
  | .copy j => j = id
  | .readLatest j _ => j = id
  | .answer j _ _ => j = id
  | .commit j _ _ => j = id
  | .clean j _ => j = id
  | _ => true

/-- Two worlds that differ at most in other filters. -/
structure SameBut (id : Nat) (w v : ManagerWorld Tx G) : Prop where
  notifier : w.notifier = v.notifier
  currentId : w.manager.currentId = v.manager.currentId
  filter : w.manager.get id = v.manager.get id
  installs : w.installs = v.installs
  calls : w.calls id = v.calls id

variable {w v : ManagerWorld Tx G} {id : Nat}

theorem SameBut.advance (h : SameBut id w v) (c : Nat) (phase : CallPhase G) :
    SameBut id (w.advance id c phase) (v.advance id c phase) :=
  ⟨h.notifier, h.currentId, h.filter, h.installs, by
    simp only [ManagerWorld.advance, Function.update_self, h.calls]⟩

/-- The map changes in both at the id. -/
theorem SameBut.manager (h : SameBut id w v) {m m' : FilterManager G}
    (hid : m.currentId = w.manager.currentId) (hid' : m'.currentId = v.manager.currentId)
    (hget : m.get id = m'.get id) :
    SameBut id { w with manager := m } { v with manager := m' } :=
  ⟨h.notifier, by rw [hid, hid', h.currentId], hget, h.installs, h.calls⟩

/-- What concerns the id is observed alike, and leaves the worlds alike. -/
theorem sameBut_concerned (ttl : Nat) (h : SameBut id w v) {s : ManagerStep Tx G}
    (hs : s.concerns id = true) :
    (managerStep ttl s w).1 = (managerStep ttl s v).1
      ∧ SameBut id (managerStep ttl s w).2 (managerStep ttl s v).2 := by
  cases s with
  | node notifier => exact ⟨rfl, ⟨rfl, h.currentId, h.filter, h.installs, h.calls⟩⟩
  | newFilter kind =>
      refine ⟨rfl, ⟨h.notifier, h.currentId, h.filter, ?_, h.calls⟩⟩
      show w.installs ++ _ = v.installs ++ _
      rw [h.installs, h.notifier]
  | nextId t =>
      refine ⟨rfl, ?_⟩
      show SameBut id (w.nextId t) (v.nextId t)
      unfold ManagerWorld.nextId FilterManager.nextId
      rw [h.installs]
      split
      · dsimp only
        rw [h.currentId]
        exact ⟨h.notifier, rfl, h.filter, rfl, h.calls⟩
      · exact h
  | insert t now =>
      show (w.insert t now).1 = (v.insert t now).1
        ∧ SameBut id (w.insert t now).2 (v.insert t now).2
      unfold ManagerWorld.insert
      rw [h.installs]
      split
      · rename_i j latest kind ht
        refine ⟨rfl, h.notifier, h.currentId, ?_, rfl, h.calls⟩
        dsimp only
        by_cases hj : id = j
        · rw [hj, get_insert_self, get_insert_self]
        · rw [get_insert_ne hj, get_insert_ne hj, h.filter]
      · exact ⟨rfl, h⟩
  | uninstall j =>
      obtain rfl : j = id := of_decide_eq_true hs
      refine ⟨?_, h.manager rfl rfl ?_⟩
      · show some (ManagerEvent.uninstalled j _) = some (.uninstalled j _)
        rw [h.filter]
      · rw [get_uninstall_self, get_uninstall_self]
  | copy j =>
      obtain rfl : j = id := of_decide_eq_true hs
      show (w.copy j).1 = (v.copy j).1 ∧ SameBut j (w.copy j).2 (v.copy j).2
      unfold ManagerWorld.copy
      rw [← h.filter]
      cases hget : w.manager.get j with
      | none => exact ⟨rfl, h⟩
      | some f =>
          refine ⟨rfl, h.notifier, h.currentId, ?_, h.installs, ?_⟩
          · dsimp only
            rw [get_put_self hget, get_put_self (h.filter ▸ hget), h.notifier]
          · dsimp only
            rw [Function.update_self, Function.update_self, h.calls, h.notifier]
  | readLatest j c =>
      obtain rfl : j = id := of_decide_eq_true hs
      refine ⟨rfl, ?_⟩
      show SameBut j (w.readLatest j c) (v.readLatest j c)
      unfold ManagerWorld.readLatest
      rw [h.calls, h.notifier]
      split
      · exact h.advance _ _
      · exact h
  | answer j c cold =>
      obtain rfl : j = id := of_decide_eq_true hs
      show (w.answer j c cold).1 = (v.answer j c cold).1
        ∧ SameBut j (w.answer j c cold).2 (v.answer j c cold).2
      unfold ManagerWorld.answer
      rw [h.calls]
      split
      · split
        · exact ⟨rfl, h.advance _ _⟩
        · exact ⟨rfl, h.advance _ _⟩
      · exact ⟨rfl, h⟩
  | commit j c now =>
      obtain rfl : j = id := of_decide_eq_true hs
      show (w.commit j c now).1 = (v.commit j c now).1
        ∧ SameBut j (w.commit j c now).2 (v.commit j c now).2
      unfold ManagerWorld.commit
      rw [h.calls]
      split
      · refine ⟨rfl, (h.advance _ _).manager (currentId_modify _) (currentId_modify _) ?_⟩
        rw [get_modify_self, get_modify_self, h.filter]
      · exact ⟨rfl, h⟩
  | clean j now =>
      obtain rfl : j = id := of_decide_eq_true hs
      show (w.clean ttl j now).1 = (v.clean ttl j now).1
        ∧ SameBut j (w.clean ttl j now).2 (v.clean ttl j now).2
      unfold ManagerWorld.clean
      rw [← h.filter]
      cases w.manager.get j with
      | none => exact ⟨rfl, h⟩
      | some f =>
          dsimp only
          split
          · exact ⟨rfl, h⟩
          · exact ⟨rfl, h.manager rfl rfl (by rw [get_uninstall_self, get_uninstall_self])⟩

/-- A world as it was, but for the filters and polls of another id. -/
theorem SameBut.elsewhere (h : SameBut id w v) {j : Nat} (hj : id ≠ j) {m : FilterManager G}
    {polls : List (CallPhase G)} (hcurrent : m.currentId = w.manager.currentId)
    (hget : m.get id = w.manager.get id) :
    SameBut id { w with manager := m, calls := Function.update w.calls j polls } v :=
  ⟨h.notifier, hcurrent.trans h.currentId, hget.trans h.filter, h.installs,
    (Function.update_of_ne hj _ _).trans h.calls⟩

theorem SameBut.released (h : SameBut id w v) {j : Nat} (hj : id ≠ j) :
    SameBut id { w with manager := w.manager.uninstall j } v :=
  ⟨h.notifier, h.currentId, (get_uninstall_ne hj).trans h.filter, h.installs, h.calls⟩

/-- What concerns another id only is not observed, and leaves the world as it is for this
one. -/
theorem sameBut_unconcerned (ttl : Nat) (h : SameBut id w v) {s : ManagerStep Tx G}
    (hs : s.concerns id = false) :
    (∀ e ∈ (managerStep ttl s w).1, e.id ≠ id) ∧ SameBut id (managerStep ttl s w).2 v := by
  have hnone : ∀ e ∈ (none : Option (ManagerEvent G)), e.id ≠ id := by rintro _ ⟨⟩
  have only {e : ManagerEvent G} (he : e.id ≠ id) : ∀ e' ∈ some e, e'.id ≠ id :=
    fun e' heq => Option.some.inj heq ▸ he
  cases s with
  | node notifier => cases hs
  | newFilter kind => cases hs
  | nextId t => cases hs
  | insert t now => cases hs
  | uninstall j =>
      have hj : j ≠ id := of_decide_eq_false hs
      exact ⟨only hj, h.released (Ne.symm hj)⟩
  | copy j =>
      have hj : j ≠ id := of_decide_eq_false hs
      show (∀ e ∈ (w.copy j).1, e.id ≠ id) ∧ SameBut id (w.copy j).2 v
      unfold ManagerWorld.copy
      split
      · exact ⟨only hj, h⟩
      · exact ⟨only hj, h.elsewhere (Ne.symm hj) rfl (get_put_ne (Ne.symm hj))⟩
  | readLatest j c =>
      have hj : j ≠ id := of_decide_eq_false hs
      refine ⟨hnone, ?_⟩
      show SameBut id (w.readLatest j c) v
      unfold ManagerWorld.readLatest
      split
      · exact h.elsewhere (Ne.symm hj) rfl rfl
      · exact h
  | answer j c cold =>
      have hj : j ≠ id := of_decide_eq_false hs
      show (∀ e ∈ (w.answer j c cold).1, e.id ≠ id) ∧ SameBut id (w.answer j c cold).2 v
      unfold ManagerWorld.answer
      split
      · split
        · exact ⟨hnone, h.elsewhere (Ne.symm hj) rfl rfl⟩
        · exact ⟨only hj, h.elsewhere (Ne.symm hj) rfl rfl⟩
      · exact ⟨hnone, h⟩
  | commit j c now =>
      have hj : j ≠ id := of_decide_eq_false hs
      show (∀ e ∈ (w.commit j c now).1, e.id ≠ id) ∧ SameBut id (w.commit j c now).2 v
      unfold ManagerWorld.commit
      split
      · exact ⟨only hj, h.elsewhere (Ne.symm hj) (currentId_modify _)
          (get_modify_ne (Ne.symm hj) _)⟩
      · exact ⟨hnone, h⟩
  | clean j now =>
      have hj : j ≠ id := of_decide_eq_false hs
      show (∀ e ∈ (w.clean ttl j now).1, e.id ≠ id) ∧ SameBut id (w.clean ttl j now).2 v
      unfold ManagerWorld.clean
      split
      · exact ⟨hnone, h⟩
      · split
        · exact ⟨only hj, h⟩
        · exact ⟨only hj, h.released (Ne.symm hj)⟩

/-- The worlds of an id unwind. -/
theorem sameBut_unwinding (ttl id : Nat) :
    Unwinding (managerStep ttl : ManagerStep Tx G → _) (ManagerStep.concerns id)
      (fun e => decide (e.id = id)) (SameBut id) where
  consistent s w v h hs := by
    obtain ⟨hevent, hsame⟩ := sameBut_concerned ttl h hs
    exact ⟨by rw [hevent], hsame⟩
  silent s w v h hs := by
    obtain ⟨hother, hsame⟩ := sameBut_unconcerned ttl h hs
    exact ⟨fun e he => decide_eq_false (hother e he), hsame⟩

/--
**Filters are isolated.** Take any interleaving of installs, polls, uninstalls, the
cleaner and the node, and delete from it all that polls, releases or looks at the other
filters. What is observed of this one stays the same, to the contents of every answer,
and so do its cursors in the end and the polls of it that are under way.
-/
theorem filters_isolated (ttl id : Nat) (notifier : ChainNotifier Tx G)
    (steps : List (ManagerStep Tx G)) :
    let all := runInputs (managerStep ttl) steps (ManagerWorld.new notifier)
    let alone := runInputs (managerStep ttl) (steps.filter (ManagerStep.concerns id))
      (ManagerWorld.new notifier)
    all.1.filter (fun e => e.id = id) = alone.1.filter (fun e => e.id = id)
      ∧ all.2.manager.get id = alone.2.manager.get id ∧ all.2.calls id = alone.2.calls id := by
  intro all alone
  have hstart : SameBut id (ManagerWorld.new notifier) (ManagerWorld.new notifier) :=
    ⟨rfl, rfl, rfl, rfl, rfl⟩
  obtain ⟨hevents, hsame⟩ := (sameBut_unwinding ttl id).purge steps hstart
  exact ⟨hevents, hsame.filter, hsame.calls⟩

end NodeComponents.Rpc
