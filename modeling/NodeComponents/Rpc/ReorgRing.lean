import NodeComponents.Lib.Run
import NodeComponents.Rpc.Filters

/-!
# How long the ring of reorgs lasts

The ring is sized by an estimate: one reorg in 12 seconds at most, and filters that live
for 5 minutes unpolled, make 25 reorgs. But a filter is dropped by a cleaner that comes
round every 5 minutes, and drops what is 5 minutes old by then. One that was polled
right after the cleaner came is still there almost 5 minutes after it became stale.

So a filter may be polled up to twice the time-to-live after its last poll, and the ring
holds the reorgs of the first half of that. Instants are nanoseconds here.
-/

namespace NodeComponents.Rpc

open Lib

variable {G Tx : Type} {ttl : Nat}

/-! ## The filter manager -/

def second : Nat := 1000000000

/-- The default time-to-live of stale filters. -/
def staleFilterTtl : Nat := 5 * 60 * second

/-- The time between two reorgs that the ring is sized for. -/
def reorgSpacing : Nat := 12 * second

/-- The active filters by their ids, which are assigned sequentially. The counter is 64 bits wide
and wraps; the ids are taken not to reach `2^64`. -/
structure FilterManager (G : Type) where
  currentId : Nat
  filters : List (Nat × ActiveFilter G)

def FilterManager.new : FilterManager G := ⟨1, []⟩

def FilterManager.install (m : FilterManager G) (currentBlock now : Nat) (kind : InterestKind G) :
    FilterManager G :=
  ⟨m.currentId + 1, m.filters ++ [(m.currentId, ActiveFilter.install currentBlock now kind)]⟩

def FilterManager.uninstall (m : FilterManager G) (id : Nat) : FilterManager G :=
  { m with filters := m.filters.filter fun e => e.1 ≠ id }

def FilterManager.get (m : FilterManager G) (id : Nat) : Option (ActiveFilter G) :=
  m.filters.lookup id

/-- The filter of an id is another one from here on. -/
def FilterManager.put (m : FilterManager G) (id : Nat) (f : ActiveFilter G) : FilterManager G :=
  { m with filters := m.filters.map fun e => if e.1 = id then (id, f) else e }

/-- Clean stale filters that have not been polled in a while. -/
def FilterManager.cleanStale (m : FilterManager G) (now olderThan : Nat) : FilterManager G :=
  { m with filters := m.filters.filter fun e => now - e.2.lastPollTime < olderThan }

/-! ## The schedule -/

/-- The notifier, the manager, the clock, the last reorg, and when the cleaner comes next. -/
structure RingWorld (Tx G : Type) where
  notifier : ChainNotifier Tx G
  manager : FilterManager G
  clock : Nat
  lastReorg : Option Nat
  nextClean : Nat

/-- The manager is constructed; the cleaner sleeps for the time-to-live first. -/
def RingWorld.started (notifier : ChainNotifier Tx G) (ttl now : Nat) : RingWorld Tx G :=
  ⟨notifier, FilterManager.new, now, none, now + ttl⟩

/-- What happens; a step that reads the clock carries the instant. -/
inductive RingStep (G : Type) where
  | setTags (tags : BlockTags)
  | install (now : Nat) (kind : InterestKind G)
  | uninstall (id : Nat)
  | sendReorg (now : Nat) (notif : ReorgNotification G)
  | poll (now id : Nat) (cold : ColdReads G)
  | clean

/-- What is observed: a reorg is sent, and an installed filter is polled. -/
inductive RingEvent (G : Type) where
  | sent (entry : Nat × ReorgNotification G)
  | polled (since now : Nat) (ring : ReorgBuffer G)
deriving DecidableEq

/-- A filter is polled, if it is still there. -/
def RingWorld.poll (w : RingWorld Tx G) (now id : Nat) (cold : ColdReads G) :
    Option (RingEvent G) × RingWorld Tx G :=
  match w.manager.get id with
  | none => (none, { w with clock := now })
  | some f =>
    let polled := getFilterChanges w.notifier.reorgs w.notifier.tags cold now f
    (some (.polled f.lastPollTime now w.notifier.reorgs),
      { w with manager := w.manager.put id polled.2, clock := now })

def ringStep (ttl : Nat) : RingStep G → RingWorld Tx G → Option (RingEvent G) × RingWorld Tx G
  | .setTags tags, w => (none, { w with notifier := { w.notifier with tags := tags } })
  | .install now kind, w =>
    (none, { w with
      manager := w.manager.install w.notifier.tags.latest now kind
      clock := now })
  | .uninstall id, w => (none, { w with manager := w.manager.uninstall id })
  | .sendReorg now notif, w =>
    (some (.sent (now, notif)), { w with
      notifier := w.notifier.sendReorg now notif
      clock := now
      lastReorg := some now })
  | .poll now id cold, w => w.poll now id cold
  | .clean, w =>
    (none, { w with
      manager := w.manager.cleanStale w.nextClean ttl
      clock := w.nextClean
      nextClean := w.nextClean + ttl })

/-- The clock runs forwards, the cleaner comes when it is due, and reorgs are spaced. -/
def OnSchedule : RingStep G → RingWorld Tx G → Prop
  | .install now _, w => w.clock ≤ now ∧ now ≤ w.nextClean
  | .poll now _ _, w => w.clock ≤ now ∧ now ≤ w.nextClean
  | .sendReorg now _, w => w.clock < now ∧ now ≤ w.nextClean
      ∧ ∀ last ∈ w.lastReorg, last + reorgSpacing ≤ now
  | _, _ => True

instance : ∀ (s : RingStep G) (w : RingWorld Tx G), Decidable (OnSchedule s w)
  | .install now _, w => inferInstanceAs (Decidable (w.clock ≤ now ∧ now ≤ w.nextClean))
  | .poll now _ _, w => inferInstanceAs (Decidable (w.clock ≤ now ∧ now ≤ w.nextClean))
  | .sendReorg now _, w => inferInstanceAs (Decidable (w.clock < now ∧ now ≤ w.nextClean
      ∧ ∀ last ∈ w.lastReorg, last + reorgSpacing ≤ now))
  | .setTags _, _ => isTrue trivial
  | .uninstall _, _ => isTrue trivial
  | .clean, _ => isTrue trivial

/-- The reorgs sent, oldest first. -/
def sentReorgs (os : List (RingEvent G)) : ReorgBuffer G :=
  os.filterMap fun
    | .sent entry => some entry
    | .polled _ _ _ => none

/-- The reorgs sent after an instant. -/
def sentSince (os : List (RingEvent G)) (since : Nat) : ReorgBuffer G :=
  entriesSince (sentReorgs os) since

/-- Every reorg sent since the previous poll of the filter is still in the ring. -/
def RingOutlives (pre : List (RingEvent G)) (since : Nat) (ring : ReorgBuffer G) : Prop :=
  ∀ e ∈ sentSince pre since, e ∈ ring

/-! ## The invariant -/

/-- A filter is not older than the clock, and will be dropped before it is twice the
time-to-live old. -/
structure FilterFresh (start ttl clock nextClean : Nat) (f : ActiveFilter G) : Prop where
  started : start ≤ f.lastPollTime
  past : f.lastPollTime ≤ clock
  cleaned : nextClean < f.lastPollTime + 2 * ttl

structure RingInv (start ttl : Nat) (ring : ReorgBuffer G) (os : List (RingEvent G))
    (w : RingWorld Tx G) : Prop where
  window : w.notifier.reorgs = Window.pushAll maxReorgEntries ring (sentReorgs os)
  ordered : RingOrdered (ring ++ sentReorgs os) w.clock
  spaced : (sentReorgs os).Pairwise fun a b => a.1 + reorgSpacing ≤ b.1
  last : ∀ e ∈ sentReorgs os, ∃ last, w.lastReorg = some last ∧ e.1 ≤ last
  filters : ∀ e ∈ w.manager.filters, FilterFresh start ttl w.clock w.nextClean e.2
  started : start ≤ w.clock
  clock : w.clock ≤ w.nextClean
  nextClean : w.nextClean ≤ w.clock + ttl

variable {start : Nat} {ring : ReorgBuffer G} {os : List (RingEvent G)} {w : RingWorld Tx G}

/-- Events that send nothing leave what is known of the reorgs. -/
theorem RingInv.quiet (h : RingInv start ttl ring os w) {w' : RingWorld Tx G}
    {es : List (RingEvent G)} (hes : sentReorgs es = [])
    (hreorgs : w'.notifier.reorgs = w.notifier.reorgs) (hlast : w'.lastReorg = w.lastReorg)
    (hclock : w.clock ≤ w'.clock) (hclean : w'.clock ≤ w'.nextClean)
    (hnext : w'.nextClean ≤ w'.clock + ttl)
    (hfilters : ∀ e ∈ w'.manager.filters, FilterFresh start ttl w'.clock w'.nextClean e.2) :
    RingInv start ttl ring (os ++ es) w' := by
  have hsent : sentReorgs (os ++ es) = sentReorgs os := by
    unfold sentReorgs at hes ⊢
    rw [List.filterMap_append, hes, List.append_nil]
  refine ⟨?_, ?_, ?_, ?_, hfilters, Nat.le_trans h.started hclock, hclean, hnext⟩
  · rw [hreorgs, hsent]
    exact h.window
  · rw [hsent]
    exact h.ordered.later hclock
  · rw [hsent]
    exact h.spaced
  · rw [hsent, hlast]
    exact h.last

theorem RingInv.sendReorg (h : RingInv start ttl ring os w) {now : Nat}
    {notif : ReorgNotification G} (hsched : OnSchedule (.sendReorg now notif) w) :
    RingInv start ttl ring (os ++ [.sent (now, notif)])
      (ringStep ttl (.sendReorg now notif) w).2 := by
  obtain ⟨hnow, hclean, hspaced⟩ := hsched
  have hsent : sentReorgs (os ++ [.sent (now, notif)]) = sentReorgs os ++ [(now, notif)] :=
    List.filterMap_append
  have hnext := h.nextClean
  have hstarted := h.started
  have hordered := h.ordered.concat hnow notif
  rw [List.append_assoc] at hordered
  refine ⟨?_, ?_, ?_, ?_, fun e he => ?_, ?_, hclean, ?_⟩
  · show pushReorg w.notifier.reorgs now notif = _
    rw [hsent, pushReorg_eq_push, h.window]
    unfold Window.pushAll
    rw [List.foldl_append]
    rfl
  · rw [hsent]
    exact hordered
  · rw [hsent]
    refine List.pairwise_append.mpr ⟨h.spaced, List.pairwise_singleton _ _, fun a ha b hb => ?_⟩
    obtain ⟨last, hlast, hle⟩ := h.last a ha
    have hgap := hspaced last hlast
    rw [List.mem_singleton.mp hb]
    show a.1 + reorgSpacing ≤ now
    omega
  · rw [hsent]
    intro e he
    refine ⟨now, rfl, ?_⟩
    rcases List.mem_append.mp he with hold | hnew
    · exact Nat.le_of_lt (Nat.lt_of_le_of_lt (h.ordered.past e (List.mem_append_right _ hold)) hnow)
    · rw [List.mem_singleton.mp hnew]
  · obtain ⟨hfrom, hpast, hcleaned⟩ := h.filters e he
    exact ⟨hfrom, Nat.le_trans hpast (Nat.le_of_lt hnow), hcleaned⟩
  · show start ≤ now
    omega
  · show w.nextClean ≤ now + ttl
    omega

theorem FilterFresh.later {clock nextClean now : Nat} {f : ActiveFilter G}
    (h : FilterFresh start ttl clock nextClean f) (hnow : clock ≤ now) :
    FilterFresh start ttl now nextClean f :=
  ⟨h.started, Nat.le_trans h.past hnow, h.cleaned⟩

/-- A filter polled or installed now is fresh. -/
theorem RingInv.fresh (h : RingInv start ttl ring os w) (httl : 0 < ttl) {now : Nat}
    (hnow : w.clock ≤ now) {f : ActiveFilter G} (hf : f.lastPollTime = now) :
    FilterFresh start ttl now w.nextClean f := by
  have hstarted := h.started
  have hnext := h.nextClean
  exact ⟨by omega, by omega, by omega⟩

/-- What is known of a poll: how old the filter is at most, and what ring it reads. -/
structure PolledIn (start ttl : Nat) (w : RingWorld Tx G) (since now : Nat)
    (ring : ReorgBuffer G) : Prop where
  started : start ≤ since
  age : now < since + 2 * ttl
  clock : w.clock ≤ now
  ring : ring = w.notifier.reorgs

/-- **A poll finds its filter less than twice the time-to-live old.** -/
theorem RingInv.poll (h : RingInv start ttl ring os w) (httl : 0 < ttl) {now id : Nat}
    {cold : ColdReads G} (hsched : OnSchedule (.poll now id cold) w) :
    RingInv start ttl ring (os ++ (w.poll now id cold).1.toList) (w.poll now id cold).2
      ∧ ∀ since now' polled, (w.poll now id cold).1 = some (.polled since now' polled) →
        PolledIn start ttl w since now' polled := by
  obtain ⟨hnow, hclean⟩ := hsched
  have hnext : w.nextClean ≤ now + ttl := Nat.le_trans h.nextClean (Nat.add_le_add_right hnow ttl)
  unfold RingWorld.poll
  cases hget : w.manager.get id with
  | none =>
      dsimp only
      refine ⟨h.quiet rfl rfl rfl hnow hclean hnext fun e he => (h.filters e he).later hnow, ?_⟩
      intro since now' polled hout
      cases hout
  | some f =>
      dsimp only
      obtain ⟨front, back, hfilters, _⟩ := List.lookup_eq_some_iff.mp hget
      have hfresh : FilterFresh start ttl w.clock w.nextClean f := by
        refine h.filters (id, f) ?_
        rw [hfilters]
        simp
      have hpolled : FilterFresh start ttl now w.nextClean
          (getFilterChanges w.notifier.reorgs w.notifier.tags cold now f).2 := by
        rcases getFilterChanges_lastPollTime w.notifier.reorgs w.notifier.tags cold now f with
          hmoved | hkept
        · exact h.fresh httl hnow hmoved
        · obtain ⟨hfrom, hpast, hcleaned⟩ := hfresh.later hnow
          exact ⟨hkept ▸ hfrom, hkept ▸ hpast, hkept ▸ hcleaned⟩
      refine ⟨h.quiet rfl rfl rfl hnow hclean hnext fun e he => ?_, ?_⟩
      · obtain ⟨e', he', rfl⟩ := List.mem_map.mp he
        split
        · exact hpolled
        · exact (h.filters e' he').later hnow
      · intro since now' polled hout
        obtain ⟨rfl, rfl, rfl⟩ := RingEvent.polled.inj (Option.some.inj hout)
        exact ⟨hfresh.started, Nat.lt_of_le_of_lt hclean hfresh.cleaned, hnow, rfl⟩

/-- The cleaner drops what would be twice the time-to-live old when it comes next. -/
theorem RingInv.clean (h : RingInv start ttl ring os w) :
    RingInv start ttl ring (os ++ []) (ringStep ttl .clean w).2 := by
  refine h.quiet rfl rfl rfl h.clock (Nat.le_add_right _ _) (Nat.le_refl _) fun e he => ?_
  obtain ⟨hold, hage⟩ := List.mem_filter.mp he
  have hyoung : w.nextClean - e.2.lastPollTime < ttl := of_decide_eq_true hage
  obtain ⟨hfrom, hpast, _⟩ := (h.filters e hold).later h.clock
  refine ⟨hfrom, hpast, ?_⟩
  show w.nextClean + ttl < e.2.lastPollTime + 2 * ttl
  omega

theorem ringInv_started {notifier : ChainNotifier Tx G} {now : Nat}
    (hring : RingOrdered notifier.reorgs now) :
    RingInv now ttl notifier.reorgs [] (RingWorld.started notifier ttl now) := by
  refine ⟨rfl, ?_, List.Pairwise.nil, fun e he => absurd he (by simp [sentReorgs]),
    fun e he => absurd he (by simp [RingWorld.started, FilterManager.new]), Nat.le_refl _,
    Nat.le_add_right _ _, Nat.le_refl _⟩
  show RingOrdered (notifier.reorgs ++ []) now
  rwa [List.append_nil]

theorem ringInv_step (h : RingInv start ttl ring os w) (httl : 0 < ttl) (s : RingStep G)
    (hsched : OnSchedule s w) :
    RingInv start ttl ring (os ++ (ringStep ttl s w).1.toList) (ringStep ttl s w).2
      ∧ ∀ since now polled, (ringStep ttl s w).1 = some (.polled since now polled) →
        PolledIn start ttl w since now polled := by
  cases s with
  | setTags tags =>
      exact ⟨h.quiet rfl rfl rfl (Nat.le_refl _) h.clock h.nextClean h.filters,
        fun _ _ _ hout => by cases hout⟩
  | install now kind =>
      obtain ⟨hnow, hclean⟩ := hsched
      have hnext : w.nextClean ≤ now + ttl :=
        Nat.le_trans h.nextClean (Nat.add_le_add_right hnow ttl)
      refine ⟨h.quiet rfl rfl rfl hnow hclean hnext fun e he => ?_, fun _ _ _ hout => by cases hout⟩
      rcases List.mem_append.mp he with hold | hnew
      · exact (h.filters e hold).later hnow
      · rw [List.mem_singleton.mp hnew]
        exact h.fresh httl hnow rfl
  | uninstall id =>
      refine ⟨h.quiet rfl rfl rfl (Nat.le_refl _) h.clock h.nextClean fun e he => ?_,
        fun _ _ _ hout => by cases hout⟩
      exact h.filters e (List.mem_filter.mp he).1
  | sendReorg now notif => exact ⟨h.sendReorg hsched, fun _ _ _ hout => by cases hout⟩
  | poll now id cold => exact h.poll httl hsched
  | clean => exact ⟨h.clean, fun _ _ _ hout => by cases hout⟩

/-! ## How much the ring holds -/

/-- **The ring holds all that was sent since an instant** exactly if that is no more than
its capacity. -/
theorem RingInv.outlives_iff (h : RingInv start ttl ring os w) (hring : RingOrdered ring start)
    (hlen : ring.length ≤ maxReorgEntries) {since : Nat} (hsince : start ≤ since) :
    RingOutlives os since w.notifier.reorgs ↔ (sentSince os since).length ≤ maxReorgEntries := by
  have hall : entriesSince (ring ++ sentReorgs os) since = sentSince os since := by
    unfold entriesSince
    rw [List.filter_append]
    have hnone : entriesSince ring since = [] := entriesSince_clock hring hsince
    unfold entriesSince at hnone
    rw [hnone, List.nil_append]
    rfl
  have hnodup : (ring ++ sentReorgs os).Nodup := by
    refine h.ordered.ascending.imp ?_
    rintro a b hab rfl
    exact Nat.lt_irrefl _ hab
  have hmarks : (ring ++ sentReorgs os).Pairwise fun a b =>
      decide (since < a.1) = true → decide (since < b.1) = true := by
    refine h.ordered.ascending.imp fun {a b} hab ha => ?_
    exact decide_eq_true (Nat.lt_trans (of_decide_eq_true ha) hab)
  unfold RingOutlives
  rw [h.window, Window.pushAll_eq_drop _ hlen, ← hall]
  exact Window.holds_marked_iff hnodup hmarks

/-- Entries that are spaced take time. -/
theorem spaced_length {l : ReorgBuffer G} {gap since now : Nat}
    (hspaced : l.Pairwise fun a b => a.1 + gap ≤ b.1)
    (hl : ∀ e ∈ l, since < e.1 ∧ e.1 ≤ now) (hsince : since < now + gap) :
    l.length * gap + since < now + gap := by
  induction l generalizing since with
  | nil => simpa using hsince
  | cons a l ih =>
      obtain ⟨ha, hrest⟩ := List.pairwise_cons.mp hspaced
      obtain ⟨hfrom, hto⟩ := hl a List.mem_cons_self
      have hlater : ∀ e ∈ l, a.1 + gap - 1 < e.1 ∧ e.1 ≤ now := by
        intro e he
        have hgap := ha e he
        exact ⟨by omega, (hl e (List.mem_cons_of_mem _ he)).2⟩
      have htail := ih hrest hlater (by omega)
      rw [List.length_cons, Nat.succ_mul]
      omega

/-- Within the time-to-live no more reorgs are sent than the ring holds. -/
theorem RingInv.sentSince_length (h : RingInv start ttl ring os w) {since now : Nat}
    (hclock : w.clock ≤ now) (hage : now ≤ since + staleFilterTtl) :
    (sentSince os since).length ≤ maxReorgEntries := by
  by_cases hsince : since < now + reorgSpacing
  · have hspaced : (sentSince os since).Pairwise fun a b => a.1 + reorgSpacing ≤ b.1 :=
      h.spaced.filter _
    have hwithin : ∀ e ∈ sentSince os since, since < e.1 ∧ e.1 ≤ now := by
      intro e he
      obtain ⟨hsent, hafter⟩ := List.mem_filter.mp he
      have hpast := h.ordered.past e (List.mem_append_right _ hsent)
      exact ⟨of_decide_eq_true hafter, Nat.le_trans hpast hclock⟩
    have hbound := spaced_length hspaced hwithin hsince
    unfold reorgSpacing second at hbound
    unfold staleFilterTtl second at hage
    unfold maxReorgEntries
    omega
  · have hnone : sentSince os since = [] := by
      refine List.filter_eq_nil_iff.mpr fun e he hafter => ?_
      have hpast := h.ordered.past e (List.mem_append_right _ he)
      have hlater := of_decide_eq_true hafter
      omega
    rw [hnone]
    exact Nat.zero_le _

/--
**When the ring outlives a filter.** In every run with the default time-to-live, and for
every poll in it: the ring holds every reorg sent since the previous poll of the filter,
or its installation, if and only if these are at most 25. They are at most 25 if that
was no more than the time-to-live ago; but all the cleaner sees to is that it was less
than twice the time-to-live ago.
-/
theorem polled_ring_outlives_iff {notifier : ChainNotifier Tx G}
    (hring : RingOrdered notifier.reorgs start) (hlen : notifier.reorgs.length ≤ maxReorgEntries)
    (h : Run (ringStep staleFilterTtl) OnSchedule
      (RingWorld.started notifier staleFilterTtl start) os w) :
    Along (fun pre o => ∀ since now polled, o = .polled since now polled →
      (RingOutlives pre since polled ↔ (sentSince pre since).length ≤ maxReorgEntries)
        ∧ (now ≤ since + staleFilterTtl → (sentSince pre since).length ≤ maxReorgEntries)
        ∧ now < since + 2 * staleFilterTtl) os := by
  refine (Run.law (I := RingInv start staleFilterTtl notifier.reorgs) (ringInv_started hring)
    ?_ h).2
  intro s os w hinv hsched
  obtain ⟨hnext, hpolled⟩ := ringInv_step hinv (by decide) s hsched
  refine ⟨hnext, fun o ho since now polled heq => ?_⟩
  obtain ⟨hstarted, hage, hclock, hread⟩ := hpolled since now polled (by rw [ho, heq])
  rw [hread]
  exact ⟨hinv.outlives_iff hring hlen hstarted, hinv.sentSince_length hclock, hage⟩

/-- Only the genesis block is left. -/
def emptyReorg : ReorgNotification Unit := ⟨0, []⟩

def emptyCold : ColdReads Unit := ⟨fun _ _ => .ok [], fun _ _ _ => .ok []⟩

/-- A manager that is constructed at instant zero. -/
def ringStart : RingWorld Unit Unit :=
  RingWorld.started ⟨⟨0, 0, 0⟩, [], []⟩ staleFilterTtl 0

/-- A reorg between the installation of a filter and its first poll is in the ring. -/
theorem polled_ring_outlives_iff_one :
    RingOutlives [.sent (2, emptyReorg)] 1 [(2, emptyReorg)] := by
  let steps : List (RingStep Unit) := [.install 1 .block, .sendReorg 2 emptyReorg,
    .poll 3 1 emptyCold]
  have hrun : Run (ringStep staleFilterTtl) OnSchedule ringStart
      [.sent (2, emptyReorg), .polled 1 3 [(2, emptyReorg)]] _ :=
    runInputs_run steps ringStart ⟨⟨by decide, by decide⟩,
      ⟨by decide, by decide, fun last hlast => by cases hlast⟩, ⟨by decide, by decide⟩, trivial⟩
  have hring : RingOrdered ([] : ReorgBuffer Unit) 0 :=
    ⟨List.Pairwise.nil, fun _ he => absurd he (by simp)⟩
  obtain ⟨hiff, hfew, _⟩ := polled_ring_outlives_iff hring (Nat.zero_le _) hrun
    [.sent (2, emptyReorg)] _ [] rfl _ _ _ rfl
  exact hiff.mpr (hfew (by decide))

/-- A reorg every 12 seconds from second 2 to second 302. -/
def spacedReorgs : ReorgBuffer Unit :=
  (List.range 26).map fun k => ((2 + 12 * k) * second, emptyReorg)

/-- The filter is installed in second 1 and 299 seconds old when the cleaner comes, between
the last two reorgs. It is polled in second 303. -/
def staleSchedule : List (RingStep Unit) :=
  .install second .block :: (spacedReorgs.dropLast.map fun e => .sendReorg e.1 e.2)
    ++ [.clean, .sendReorg (302 * second) emptyReorg, .poll (303 * second) 1 emptyCold]

/-- **The ring is too short for a filter the cleaner has spared**: the first of 26 reorgs,
12 seconds apart, is gone when the filter is polled. -/
theorem polled_ring_too_short :
    ¬ ∀ (os : List (RingEvent Unit)) (w : RingWorld Unit Unit),
      Run (ringStep staleFilterTtl) OnSchedule ringStart os w →
        Along (fun pre o => ∀ since now polled, o = .polled since now polled →
          RingOutlives pre since polled) os := by
  intro hall
  have hadmits : Admits (ringStep staleFilterTtl) OnSchedule staleSchedule ringStart := by
    decide +kernel
  have hout : (runInputs (ringStep staleFilterTtl) staleSchedule ringStart).1
      = spacedReorgs.map .sent ++ [.polled second (303 * second) spacedReorgs.tail] := by
    decide +kernel
  have hrun := runInputs_run staleSchedule ringStart hadmits
  have hheld := hall _ _ hrun (spacedReorgs.map .sent) _ [] hout _ _ _ rfl
  have hfirst : (2 * second, emptyReorg) ∈ sentSince (spacedReorgs.map .sent) second := by
    decide +kernel
  exact absurd (hheld _ hfirst) (by decide +kernel)

end NodeComponents.Rpc
