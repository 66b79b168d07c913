import NodeComponents.Rpc.Subscriptions

/-!
# Reclaiming subscriptions

The manager keeps a token for each subscription in a map, and a cleaner removes those
whose token is cancelled. The task of a subscription may end in many ways: its client
disconnects, it is unsubscribed, the channel to its client or that of the events is
closed, notifications are off when it starts, or it panics.

Only a disconnect cancels the token from inside the task, and an unsubscribe from
outside. An event channel closes with the manager and its map. Each other way out leaves
an entry in the map that nothing takes away.

The ids do not reach `2^64`. Each step of a task is one round of its loop.
-/

namespace NodeComponents.Rpc

open Lib

variable {G Tx : Type}

/-! ## The code -/

/-- A subscription: its cancellation token, the signal that its client went away, and its
task, which may not have been polled yet. -/
structure Subscription (G : Type) where
  id : Nat
  token : Bool
  ajjCancel : Bool
  started : Bool
  task : SubscriptionTask G

/-- `SubscriptionManagerInner`; the entry of an id holds the token of the subscription. -/
structure SubscriptionManagerInner where
  nextId : Nat
  tasks : List Nat
deriving DecidableEq, Repr

/-- The manager, until it is dropped, and the subscriptions there have been. -/
structure SubWorld (G : Type) where
  manager : Option SubscriptionManagerInner
  subs : List (Subscription G)

def SubWorld.new : SubWorld G := ⟨some ⟨1, []⟩, []⟩

/-- The futures of the `select!` that are ready, beside the cancellations. -/
structure Ready (Tx G : Type) where
  /-- Permits, or none if the channel to the client is closed. -/
  permits : Option (Option Nat)
  recv : Option (Except (Option Nat) (ChainEvent Tx G))

/-- `RecvError`: how many events were missed, or none if the channel is closed. -/
def recvInput : Except (Option Nat) (ChainEvent Tx G) → TaskInput Tx G
  | .ok event => .recv event
  | .error (some skipped) => .lagged skipped
  | .error none => .closed

/-- The biased `select!`: the first branch that is ready. -/
def Subscription.select (s : Subscription G) (ready : Ready Tx G) : Option (TaskInput Tx G) :=
  if s.ajjCancel || s.token then some .cancelled
  else
    -- permits are waited for only with something to send
    match s.task.notifBuffer.isEmpty, ready.permits with
    | false, some granted => some (.permits granted)
    | _, _ => ready.recv.map recvInput

/-- One round of the loop. Only the disconnect cancels the token. -/
def Subscription.round (txHash : Tx → B256) (s : Subscription G) (ready : Ready Tx G) :
    Subscription G :=
  if s.started ∧ s.task.status = .running then
    match s.select ready with
    | none => s
    | some input =>
      { s with task := (taskStep txHash input s.task).2, token := s.token || s.ajjCancel }
  else s

/-- The task is polled for the first time. -/
def Subscription.start (s : Subscription G) (notificationsEnabled : Bool) : Subscription G :=
  if s.started then s
  else if notificationsEnabled then { s with started := true }
  -- the task returns before its loop: the token and the entry stay
  else { s with started := true, task := { s.task with status := .ended } }

/-- Change the subscription of an id. -/
def SubWorld.modify (w : SubWorld G) (id : Nat) (f : Subscription G → Subscription G) :
    SubWorld G :=
  { w with subs := w.subs.map fun s => if s.id = id then f s else s }

inductive SubStep (Tx G : Type) where
  | subscribe (notificationsEnabled : Bool) (filter : InterestKind G)
  | unsubscribe (id : Nat)
  | disconnect (id : Nat)
  | start (id : Nat) (notificationsEnabled : Bool)
  | round (id : Nat) (ready : Ready Tx G)
  | clean
  | dropManager

inductive SubReply where
  | subscribed (id : Option Nat)
  | unsubscribed (found : Bool)
deriving DecidableEq, Repr

/-- `subscribe` -/
def SubWorld.subscribe (w : SubWorld G) (m : SubscriptionManagerInner)
    (notificationsEnabled : Bool) (filter : InterestKind G) : Option Nat × SubWorld G :=
  if notificationsEnabled then
    (some m.nextId, ⟨some ⟨m.nextId + 1, m.nextId :: m.tasks⟩,
      w.subs ++ [⟨m.nextId, false, false, false, .spawned filter⟩]⟩)
  else (none, w)

/-- `unsubscribe` -/
def SubWorld.unsubscribe (w : SubWorld G) (m : SubscriptionManagerInner) (id : Nat) :
    Bool × SubWorld G :=
  if id ∈ m.tasks then
    (true, { w.modify id fun s => { s with token := true } with
      manager := some { m with tasks := m.tasks.filter (· ≠ id) } })
  else (false, w)

/-- The body of the cleaner's loop: entries stay whose token is not cancelled. -/
def SubWorld.clean (w : SubWorld G) (m : SubscriptionManagerInner) : SubWorld G :=
  { w with manager := some { m with
    tasks := m.tasks.filter fun id => !(w.subs.any fun s => s.id == id && s.token) } }

/-- The manager holds a sender, so that the channel of the events is open as long as it is
there. -/
def SubWorld.heard (w : SubWorld G) (ready : Ready Tx G) : Ready Tx G :=
  match w.manager, ready.recv with
  | some _, some (.error none) => { ready with recv := none }
  | _, _ => ready

def subStep (txHash : Tx → B256) : SubStep Tx G → SubWorld G → Option SubReply × SubWorld G
  | .subscribe notificationsEnabled filter, w =>
    match w.manager with
    | none => (none, w)
    | some m =>
      let (id, w') := w.subscribe m notificationsEnabled filter
      (some (.subscribed id), w')
  | .unsubscribe id, w =>
    match w.manager with
    | none => (none, w)
    | some m =>
      let (found, w') := w.unsubscribe m id
      (some (.unsubscribed found), w')
  | .disconnect id, w => (none, w.modify id fun s => { s with ajjCancel := true })
  | .start id notificationsEnabled, w => (none, w.modify id (·.start notificationsEnabled))
  | .round id ready, w => (none, w.modify id (·.round txHash (w.heard ready)))
  | .clean, w =>
    match w.manager with
    | none => (none, w)
    | some m => (none, w.clean m)
  | .dropManager, w => (none, { w with manager := none })

/-! ## Entries of tasks that ended -/

/-- The map has an entry for the id. -/
def SubWorld.InMap (w : SubWorld G) (id : Nat) : Prop := ∃ m, w.manager = some m ∧ id ∈ m.tasks

def Subscription.Ended (s : Subscription G) : Prop := s.task.status ≠ .running

/-- The entry is gone, or the cleaner will take it. -/
def SubWorld.Reclaimed (w : SubWorld G) (s : Subscription G) : Prop :=
  s.token = true ∨ ¬ w.InMap s.id

/-- The task takes a way out that leaves the token alone: permits from a closed channel, or
an event whose filter panics. -/
def TaskInput.LeavesToken (txHash : Tx → B256) (filter : InterestKind G) : TaskInput Tx G → Prop
  | .permits none => True
  | .recv event => ∃ p, filter.filterEvent txHash event = .error p
  | _ => False

/-- A subscription with an entry and an uncancelled token finds notifications on when its task
starts, and takes no such way out while its client is connected. -/
def KeepsToken (txHash : Tx → B256) : SubStep Tx G → SubWorld G → Prop
  | .start id notificationsEnabled, w => ∀ s ∈ w.subs, s.id = id → w.InMap id →
    s.started = false → s.token = false → notificationsEnabled = true
  | .round id ready, w => ∀ s ∈ w.subs, s.id = id → w.InMap id → s.started = true →
    s.ajjCancel = false → s.token = false →
    ∀ input, s.select (w.heard ready) = some input → ¬ input.LeavesToken txHash s.task.filter
  | _, _ => True

/-- What a run keeps: ids are known, tasks are those of runs, and none that ended has an
entry that stays. -/
structure ReclaimInv (txHash : Tx → B256) (w : SubWorld G) : Prop where
  known : ∀ m, w.manager = some m → ∀ s ∈ w.subs, s.id < m.nextId
  delivering : ∀ s ∈ w.subs, ∃ es : List (ChainEvent Tx G),
    Delivering txHash s.task.filter es s.task
  reclaimed : ∀ s ∈ w.subs, s.Ended → w.Reclaimed s

variable {txHash : Tx → B256} {w w' : SubWorld G} {s : Subscription G}

theorem mem_modify {id : Nat} {f : Subscription G → Subscription G}
    (h : s ∈ (w.modify id f).subs) : ∃ t ∈ w.subs, s = if t.id = id then f t else t := by
  obtain ⟨t, ht, hs⟩ := List.mem_map.mp h
  exact ⟨t, ht, hs.symm⟩

/-- A step that removes entries and nothing else. -/
theorem ReclaimInv.shrink (h : ReclaimInv txHash w) (hsubs : w'.subs = w.subs)
    (hnext : ∀ m', w'.manager = some m' → ∃ m, w.manager = some m ∧ m'.nextId = m.nextId
      ∧ ∀ id ∈ m'.tasks, id ∈ m.tasks) : ReclaimInv txHash w' := by
  refine ⟨?_, ?_, ?_⟩
  · intro m' hm' s hs
    obtain ⟨m, hm, hid, _⟩ := hnext m' hm'
    rw [hid]
    exact h.known m hm s (hsubs ▸ hs)
  · exact fun s hs => h.delivering s (hsubs ▸ hs)
  · intro s hs hended
    rcases h.reclaimed s (hsubs ▸ hs) hended with htoken | hno
    · exact Or.inl htoken
    · refine Or.inr fun ⟨m', hm', hid⟩ => hno ?_
      obtain ⟨m, hm, _, htasks⟩ := hnext m' hm'
      exact ⟨m, hm, htasks s.id hid⟩

/-- A step that changes the subscription of an id. -/
theorem ReclaimInv.modify (h : ReclaimInv txHash w) {id : Nat}
    {f : Subscription G → Subscription G}
    (hf : ∀ s ∈ w.subs, s.id = id → (f s).id = s.id
      ∧ (∃ es : List (ChainEvent Tx G), Delivering txHash (f s).task.filter es (f s).task)
      ∧ ((f s).Ended → w.Reclaimed (f s))) : ReclaimInv txHash (w.modify id f) := by
  refine ⟨?_, ?_, ?_⟩
  · intro m hm s hs
    obtain ⟨t, ht, rfl⟩ := mem_modify hs
    by_cases hid : t.id = id
    · rw [if_pos hid, (hf t ht hid).1]
      exact h.known m hm t ht
    · rw [if_neg hid]
      exact h.known m hm t ht
  · intro s hs
    obtain ⟨t, ht, rfl⟩ := mem_modify hs
    by_cases hid : t.id = id
    · rw [if_pos hid]
      exact (hf t ht hid).2.1
    · rw [if_neg hid]
      exact h.delivering t ht
  · intro s hs hended
    obtain ⟨t, ht, rfl⟩ := mem_modify hs
    by_cases hid : t.id = id
    · rw [if_pos hid] at hended ⊢
      exact (hf t ht hid).2.2 hended
    · rw [if_neg hid] at hended ⊢
      exact h.reclaimed t ht hended

/-! ## One round -/

/-- An event whose filter does not panic is queued. -/
theorem Delivering.receive_status {kind : InterestKind G} {es : List (ChainEvent Tx G)}
    {t : SubscriptionTask G} (h : Delivering txHash kind es t) {event : ChainEvent Tx G}
    {output : SubscriptionBuffer G} (hfilter : kind.filterEvent txHash event = .ok output) :
    (t.receive txHash event).status = t.status := by
  unfold SubscriptionTask.receive
  rw [h.filter, hfilter]
  dsimp only
  unfold SubscriptionTask.queue
  by_cases hempty : output.isEmpty = true
  · rw [if_pos hempty]
  · rw [if_neg hempty]
    obtain ⟨c, hc, _⟩ := extend_holds h.holds (filterEvent_holds hfilter)
    rw [hc]

/-- **What ends a task in a round**: a cancellation, a closed channel, or a panic. -/
theorem taskStep_running {es : List (ChainEvent Tx G)} {t : SubscriptionTask G}
    (h : Delivering txHash t.filter es t) (hrunning : t.status = .running)
    {input : TaskInput Tx G} (hcancelled : input ≠ .cancelled) (hclosed : input ≠ .closed)
    (hkeeps : ¬ input.LeavesToken txHash t.filter) :
    (taskStep txHash input t).2.status = .running := by
  unfold taskStep
  rw [hrunning]
  cases input with
  | cancelled => exact absurd rfl hcancelled
  | closed => exact absurd rfl hclosed
  | lagged skipped => exact hrunning
  | permits granted =>
      cases granted with
      | none => exact absurd trivial hkeeps
      | some k =>
          dsimp only
          by_cases hempty : t.notifBuffer.isEmpty = true
          · rw [if_pos hempty]
            exact hrunning
          · rw [if_neg hempty]
            exact (sendPermits_status k t).trans hrunning
  | recv event =>
      cases hfilter : t.filter.filterEvent txHash event with
      | error p => exact absurd ⟨p, hfilter⟩ hkeeps
      | ok output => exact (h.receive_status hfilter).trans hrunning

/-- Without a cancellation, and with the manager there, no such branch is taken. -/
theorem select_uncancelled {ready : Ready Tx G} {input : TaskInput Tx G} {id : Nat}
    (hmap : w.InMap id) (hajj : s.ajjCancel = false) (htoken : s.token = false)
    (h : s.select (w.heard ready) = some input) : input ≠ .cancelled ∧ input ≠ .closed := by
  obtain ⟨m, hm, _⟩ := hmap
  have hrecv : (w.heard ready).recv ≠ some (.error none) := by
    unfold SubWorld.heard
    rw [hm]
    split
    · exact fun hclosed => by cases hclosed
    · rename_i hopen
      exact fun hclosed => hopen m rfl hclosed
  unfold Subscription.select at h
  rw [hajj, htoken, if_neg (by decide)] at h
  split at h
  · obtain rfl := Option.some.inj h
    exact ⟨by simp, by simp⟩
  · obtain ⟨received, hreceived, rfl⟩ := Option.map_eq_some_iff.mp h
    rcases received with (_ | skipped) | event
    · exact absurd hreceived hrecv
    · exact ⟨by simp [recvInput], by simp [recvInput]⟩
    · exact ⟨by simp [recvInput], by simp [recvInput]⟩

/-- A round ends a task that keeps its entry only with its token cancelled. -/
theorem ReclaimInv.round (h : ReclaimInv txHash w) {id : Nat} {ready : Ready Tx G}
    (hkeeps : KeepsToken txHash (.round id ready) w) :
    ReclaimInv txHash (w.modify id (·.round txHash (w.heard ready))) := by
  refine h.modify fun s hs hid => ?_
  obtain ⟨es, hdelivering⟩ := h.delivering s hs
  unfold Subscription.round
  by_cases hloop : s.started = true ∧ s.task.status = .running
  · rw [if_pos hloop]
    cases hselect : s.select (w.heard ready) with
    | none => exact ⟨rfl, ⟨es, hdelivering⟩, h.reclaimed s hs⟩
    | some input =>
        have hstep := hdelivering.step input
        refine ⟨rfl, ⟨_, by rw [hstep.filter]; exact hstep⟩, fun hended => ?_⟩
        by_cases hcancel : (s.token || s.ajjCancel) = true
        · exact Or.inl hcancel
        · -- with its entry there and no cancellation the task is still running
          refine Or.inr fun hmap => hended ?_
          have hmap : w.InMap s.id := hmap
          obtain ⟨htoken, hajj⟩ := Bool.or_eq_false_iff.mp (Bool.eq_false_iff.mpr hcancel)
          obtain ⟨hcancelled, hclosed⟩ := select_uncancelled hmap hajj htoken hselect
          exact taskStep_running hdelivering hloop.2 hcancelled hclosed
            (hkeeps s hs hid (hid ▸ hmap) hloop.1 hajj htoken input hselect)
  · rw [if_neg hloop]
    exact ⟨rfl, ⟨es, hdelivering⟩, h.reclaimed s hs⟩

theorem ReclaimInv.start (h : ReclaimInv txHash w) {id : Nat} {notificationsEnabled : Bool}
    (hkeeps : KeepsToken txHash (.start id notificationsEnabled : SubStep Tx G) w) :
    ReclaimInv txHash (w.modify id (·.start notificationsEnabled)) := by
  refine h.modify fun s hs hid => ?_
  obtain ⟨es, hdelivering⟩ := h.delivering s hs
  unfold Subscription.start
  by_cases hstarted : s.started = true
  · rw [if_pos hstarted]
    exact ⟨rfl, ⟨es, hdelivering⟩, h.reclaimed s hs⟩
  · rw [if_neg hstarted]
    by_cases henabled : notificationsEnabled = true
    · rw [if_pos henabled]
      exact ⟨rfl, ⟨es, hdelivering⟩, h.reclaimed s hs⟩
    · rw [if_neg henabled]
      refine ⟨rfl, ⟨es, hdelivering.filter, hdelivering.holds, hdelivering.items,
        fun p hp => (by cases hp)⟩, fun _ => ?_⟩
      by_cases htoken : s.token = true
      · exact Or.inl htoken
      · refine Or.inr fun hmap => henabled ?_
        exact hkeeps s hs hid (hid ▸ hmap) (Bool.eq_false_iff.mpr hstarted)
          (Bool.eq_false_iff.mpr htoken)

theorem ReclaimInv.subscribe (h : ReclaimInv txHash w) {m : SubscriptionManagerInner}
    (hm : w.manager = some m) (notificationsEnabled : Bool) (filter : InterestKind G) :
    ReclaimInv txHash (w.subscribe m notificationsEnabled filter).2 := by
  unfold SubWorld.subscribe
  by_cases henabled : notificationsEnabled = true
  · rw [if_pos henabled]
    refine ⟨?_, ?_, ?_⟩
    · rintro _ ⟨⟩ s hs
      rcases List.mem_append.mp hs with hs | hs
      · exact Nat.lt_succ_of_lt (h.known m hm s hs)
      · obtain rfl := List.mem_singleton.mp hs
        exact Nat.lt_succ_self _
    · intro s hs
      rcases List.mem_append.mp hs with hs | hs
      · exact h.delivering s hs
      · obtain rfl := List.mem_singleton.mp hs
        exact ⟨[], TaskRun.delivering Run.start⟩
    · intro s hs hended
      rcases List.mem_append.mp hs with hs | hs
      · rcases h.reclaimed s hs hended with htoken | hno
        · exact Or.inl htoken
        · -- the new id is above those there have been
          refine Or.inr ?_
          rintro ⟨_, ⟨⟩, hmem⟩
          rcases List.mem_cons.mp hmem with hid | hmem
          · exact absurd hid (Nat.ne_of_lt (h.known m hm s hs))
          · exact hno ⟨m, hm, hmem⟩
      · obtain rfl := List.mem_singleton.mp hs
        exact absurd rfl hended
  · rw [if_neg henabled]
    exact h

theorem ReclaimInv.unsubscribe (h : ReclaimInv txHash w) {m : SubscriptionManagerInner}
    (hm : w.manager = some m) (id : Nat) : ReclaimInv txHash (w.unsubscribe m id).2 := by
  unfold SubWorld.unsubscribe
  by_cases hmem : id ∈ m.tasks
  · rw [if_pos hmem]
    have hcancelled : ReclaimInv txHash (w.modify id fun s => { s with token := true }) :=
      h.modify fun s hs _ => ⟨rfl, h.delivering s hs, fun _ => Or.inl rfl⟩
    refine hcancelled.shrink rfl ?_
    rintro _ ⟨⟩
    exact ⟨m, hm, rfl, fun _ hid => List.mem_of_mem_filter hid⟩
  · rw [if_neg hmem]
    exact h

theorem ReclaimInv.clean (h : ReclaimInv txHash w) {m : SubscriptionManagerInner}
    (hm : w.manager = some m) : ReclaimInv txHash (w.clean m) := by
  refine h.shrink rfl ?_
  rintro _ ⟨⟩
  exact ⟨m, hm, rfl, fun _ hid => List.mem_of_mem_filter hid⟩

/-- **Preserved by every step** that meets the condition. -/
theorem ReclaimInv.step (h : ReclaimInv txHash w) (step : SubStep Tx G)
    (hkeeps : KeepsToken txHash step w) : ReclaimInv txHash (subStep txHash step w).2 := by
  obtain ⟨manager, subs⟩ := w
  cases step with
  | subscribe notificationsEnabled filter =>
      cases manager with
      | none => exact h
      | some m => exact h.subscribe rfl notificationsEnabled filter
  | unsubscribe id =>
      cases manager with
      | none => exact h
      | some m => exact h.unsubscribe rfl id
  | disconnect id => exact h.modify fun s hs _ => ⟨rfl, h.delivering s hs, h.reclaimed s hs⟩
  | start id notificationsEnabled => exact h.start hkeeps
  | round id ready => exact h.round hkeeps
  | clean =>
      cases manager with
      | none => exact h
      | some m => exact h.clean rfl
  | dropManager => exact h.shrink rfl fun _ hm' => (by cases hm')

/-- The cleaner takes the entries of tasks whose token is cancelled. -/
theorem SubWorld.Reclaimed.clean (hs : s ∈ w.subs) (h : w.Reclaimed s) :
    ¬ (subStep txHash (.clean : SubStep Tx G) w).2.InMap s.id := by
  obtain ⟨manager, subs⟩ := w
  rintro ⟨m', hm', hmem⟩
  cases manager with
  | none => cases hm'
  | some m =>
      obtain rfl := Option.some.inj hm'
      obtain ⟨hid, hkept⟩ := List.mem_filter.mp hmem
      rcases h with htoken | hno
      · have hany : subs.any (fun t => t.id == s.id && t.token) = true :=
          List.any_eq_true.mpr ⟨s, hs, by simp [htoken]⟩
        rw [hany] at hkept
        cases hkept
      · exact hno ⟨m, rfl, hid⟩

/--
**Subscriptions are reclaimed** along every run in which no subscription that has an entry
and an uncancelled token finds notifications off when its task starts, and none whose
client is connected besides gets permits from a closed channel, or is given an event its
filter panics on: a task that ended has its token cancelled or no entry, and after the
next tick of the cleaner it has none.
-/
theorem subscriptions_reclaimed {os : List SubReply}
    (h : Run (subStep (G := G) txHash) (KeepsToken txHash) .new os w) :
    ∀ s ∈ w.subs, s.Ended → (s.token = true ∨ ¬ w.InMap s.id)
      ∧ ¬ (subStep txHash (.clean : SubStep Tx G) w).2.InMap s.id := by
  have hinv : ReclaimInv txHash w := by
    refine h.invariant (I := fun _ w => ReclaimInv txHash w) ?_
      fun step _ w hw hkeeps => hw.step step hkeeps
    exact ⟨fun _ _ s hs => (by cases hs), fun s hs => (by cases hs), fun s hs => (by cases hs)⟩
  intro s hs hended
  have hreclaimed := hinv.reclaimed s hs hended
  exact ⟨hreclaimed, hreclaimed.clean hs⟩

/-- A client disconnects, and its entry goes with the next tick. -/
theorem subscriptions_reclaimed_disconnect :
    let w : SubWorld Nat := ⟨some ⟨2, [1]⟩,
      [⟨1, true, true, true, ⟨.block, .block [], [], .ended⟩⟩]⟩
    ¬ (subStep (fun _ : Unit => 0) .clean w).2.InMap 1 := by
  intro w
  let steps : List (SubStep Unit Nat) :=
    [.subscribe true .block, .start 1 true, .disconnect 1, .round 1 ⟨none, none⟩]
  have hrun : Run (subStep fun _ : Unit => 0) (KeepsToken fun _ => 0) SubWorld.new
      [.subscribed (some 1)] w := by
    refine runInputs_run steps SubWorld.new ⟨trivial, ?_, trivial, ?_, trivial⟩
    · exact fun _ _ _ _ _ _ => rfl
    · intro s hs _ _ _ hajj
      obtain rfl := List.mem_singleton.mp hs
      cases hajj
  refine (subscriptions_reclaimed hrun _ (List.mem_singleton.mpr rfl) ?_).2
  simp [Subscription.Ended]

/--
**Entries that stay.** A client is granted permits from a closed channel, and another one
is gone before its task starts: both tasks end, the tokens are not cancelled, and the
cleaner leaves the entries.
-/
theorem subscriptions_leaked :
    let track : List (SubStep Unit Nat) → SubWorld Nat := fun steps =>
      (runInputs (subStep fun _ => 0) steps .new).2
    let closed := track [.subscribe true .block, .start 1 true,
      .round 1 ⟨none, some (.ok (.newBlock ⟨⟨1, 1, 0, 0⟩, [], []⟩))⟩,
      .round 1 ⟨some none, none⟩, .clean]
    let early := track [.subscribe true .block, .start 1 false, .clean]
    closed.manager = some ⟨2, [1]⟩
      ∧ closed.subs.map (fun s => (s.token, s.task.status)) = [(false, .ended)]
      ∧ early.manager = some ⟨2, [1]⟩
      ∧ early.subs.map (fun s => (s.token, s.task.status)) = [(false, .ended)] := by
  decide

end NodeComponents.Rpc
