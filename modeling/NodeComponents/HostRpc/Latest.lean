import Mathlib.Data.List.Basic
import NodeComponents.Lib.Run

/-!
# The newest of the headers that are waiting

Behind the notifier's header subscription sits an adapter that drains the subscription on
each poll and yields the last header only. The drain ends at whatever is no header: one
poll of the adapter takes a run of ready items and the answer behind it.

That answer is thrown away when an item is held. Nothing is lost with a `Pending`, but
with the end of the stream the knowledge that it ended: the next poll asks the inner
stream again. So the adapter is right as long as the end is the last thing it is told.
-/

namespace NodeComponents.HostRpc.Latest

open Lib

variable {α : Type}

/-! ## The code -/

/-- `Poll<Option<_>>` -/
inductive Poll (α : Type) where
  | pending
  | ready (item : Option α)
deriving DecidableEq, Repr

/-- The inner stream: the answers it will give, and those it gave during a call. With no
answer left it stays pending. -/
structure Inner (α : Type) where
  script : List (Poll α)
  polled : List (Poll α)
deriving DecidableEq, Repr

def Inner.pollNext : Inner α → Poll α × Inner α
  | ⟨[], polled⟩ => (.pending, ⟨[], polled ++ [.pending]⟩)
  | ⟨answer :: script, polled⟩ => (answer, ⟨script, polled ++ [answer]⟩)

/-- The drain loop: the item it keeps, how many it skipped, and the inner stream behind it. -/
def drain : α → Nat → List (Poll α) → List (Poll α) → α × Nat × Inner α
  | _, skipped, .ready (some newer) :: script, polled =>
    drain newer (skipped + 1) script (polled ++ [.ready (some newer)])
  -- the answer that ends the loop is dropped, whatever it is
  | latest, skipped, script, polled => (latest, skipped, (Inner.pollNext ⟨script, polled⟩).2)

/-- `poll_next`: the answer, the number of headers counted as coalesced, the inner stream. -/
def pollNext (inner : Inner α) : Poll α × Nat × Inner α :=
  match inner.pollNext with
  | (.pending, inner) => (.pending, 0, inner)
  | (.ready none, inner) => (.ready none, 0, inner)
  | (.ready (some latest), inner) =>
    let (latest, skipped, inner) := drain latest 0 inner.script inner.polled
    (.ready (some latest), skipped, inner)

/-! ## Polling the adapter -/

/-- One poll of the adapter: what the inner stream answered during it, and the result. -/
structure Call (α : Type) where
  polled : List (Poll α)
  result : Poll α
  skipped : Nat
deriving DecidableEq, Repr

/-- A poll on what is left of a script, and what it leaves. -/
def callOnce (script : List (Poll α)) : Call α × List (Poll α) :=
  let (result, skipped, inner) := pollNext ⟨script, []⟩
  (⟨inner.polled, result, skipped⟩, inner.script)

/-- A number of polls. -/
def calls : Nat → List (Poll α) → List (Call α)
  | 0, _ => []
  | n + 1, script => (callOnce script).1 :: calls n (callOnce script).2

/-- All that the inner stream answered during some calls. -/
def polledIn (cs : List (Call α)) : List (Poll α) := cs.flatMap Call.polled

def Poll.item : Poll α → Option α
  | .pending => none
  | .ready item => item

/-- The answers with some items. -/
def ready (items : List α) : List (Poll α) := items.map fun x => .ready (some x)

/-- A call that polls takes a run of items and the answer behind it. It yields the last item
of the run, or the answer if there is none. -/
def Call.TakesRun (c : Call α) : Prop :=
  ∃ (items : List α) (stop : Poll α), stop.item = none
    ∧ c.polled = ready items ++ [stop]
    ∧ c.result = (items.getLast?.map fun x => .ready (some x)).getD stop
    ∧ c.skipped = items.length - 1

/-- The end is not among the answers, or is the last of them. -/
def EndIsLast (answers : List (Poll α)) : Prop :=
  ∀ pre post, answers = pre ++ .ready none :: post → post = []

/-- The newest item is never lost, and nothing is polled behind the end. -/
structure Coalesces (cs : List (Call α)) : Prop where
  /-- Behind the end a call polls nothing and returns the end. -/
  run : ∀ before c after, cs = before ++ c :: after →
    c.TakesRun ∨ (.ready none ∈ polledIn before ∧ c.polled = [] ∧ c.result = .ready none)
  ordered : (cs.filterMap fun c => c.result.item).Sublist ((polledIn cs).filterMap Poll.item)
  /-- The last item before an answer that is none is yielded. -/
  newest : ∀ pre x stop post, polledIn cs = pre ++ .ready (some x) :: stop :: post →
    stop.item = none → ∃ c ∈ cs, c.result = .ready (some x)
  ended : (∃ c ∈ cs, c.result = .ready none) → .ready none ∈ polledIn cs
  once : EndIsLast (polledIn cs)

/-! ## One poll -/

/-- A script begins with a run and the answer behind it, the one of an exhausted script
included; `rest` is what it leaves. -/
def Begins (script : List (Poll α)) (items : List α) (stop : Poll α) (rest : List (Poll α)) :
    Prop :=
  stop.item = none ∧ (script = ready items ++ stop :: rest
    ∨ (script = ready items ∧ stop = .pending ∧ rest = []))

theorem Begins.cons {script rest : List (Poll α)} {items : List α} {stop : Poll α}
    (h : Begins script items stop rest) (x : α) :
    Begins (.ready (some x) :: script) (x :: items) stop rest := by
  obtain ⟨hstop, hscript | ⟨hscript, hpending, hrest⟩⟩ := h
  · exact ⟨hstop, Or.inl (by rw [hscript]; rfl)⟩
  · exact ⟨hstop, Or.inr ⟨by rw [hscript]; rfl, hpending, hrest⟩⟩

theorem begins_stop {stop : Poll α} (h : stop.item = none) (rest : List (Poll α)) :
    Begins (stop :: rest) [] stop rest :=
  ⟨h, Or.inl rfl⟩

theorem begins_nil : Begins ([] : List (Poll α)) [] .pending [] := ⟨rfl, Or.inr ⟨rfl, rfl, rfl⟩⟩

/-- **What the loop drains**: the run at the front, and the answer behind it. -/
theorem drain_spec : ∀ (script : List (Poll α)) (latest : α) (skipped : Nat)
    (polled : List (Poll α)), ∃ items stop,
    (drain latest skipped script polled).1 = items.getLast?.getD latest
      ∧ (drain latest skipped script polled).2.1 = skipped + items.length
      ∧ (drain latest skipped script polled).2.2.polled = polled ++ (ready items ++ [stop])
      ∧ Begins script items stop (drain latest skipped script polled).2.2.script
  | [], _, _, _ => ⟨[], .pending, rfl, rfl, rfl, begins_nil⟩
  | .pending :: rest, _, _, _ => ⟨[], .pending, rfl, rfl, rfl, begins_stop rfl rest⟩
  | .ready none :: rest, _, _, _ => ⟨[], .ready none, rfl, rfl, rfl, begins_stop rfl rest⟩
  | .ready (some newer) :: rest, latest, skipped, polled => by
      obtain ⟨items, stop, hlatest, hskipped, hpolled, hbegins⟩ :=
        drain_spec rest newer (skipped + 1) (polled ++ [.ready (some newer)])
      refine ⟨newer :: items, stop, ?_, ?_, ?_, hbegins.cons newer⟩
      · rw [List.getLast?_cons]
        exact hlatest
      · refine hskipped.trans ?_
        rw [List.length_cons]
        omega
      · refine hpolled.trans ?_
        rw [List.append_assoc]
        rfl

/-- One poll takes a run and the answer behind it from the front of the script. -/
theorem callOnce_spec (script : List (Poll α)) :
    ∃ items stop, (callOnce script).1.polled = ready items ++ [stop]
      ∧ (callOnce script).1.result = (items.getLast?.map fun x => .ready (some x)).getD stop
      ∧ (callOnce script).1.skipped = items.length - 1
      ∧ Begins script items stop (callOnce script).2 := by
  match script with
  | [] => exact ⟨[], .pending, rfl, rfl, rfl, begins_nil⟩
  | .pending :: rest => exact ⟨[], .pending, rfl, rfl, rfl, begins_stop rfl rest⟩
  | .ready none :: rest => exact ⟨[], .ready none, rfl, rfl, rfl, begins_stop rfl rest⟩
  | .ready (some first) :: rest =>
      obtain ⟨items, stop, hlatest, hskipped, hpolled, hbegins⟩ :=
        drain_spec rest first 0 [.ready (some first)]
      refine ⟨first :: items, stop, hpolled, ?_, ?_, hbegins.cons first⟩
      · rw [List.getLast?_cons, Option.map_some, Option.getD_some, ← hlatest]
        rfl
      · refine hskipped.trans ?_
        rw [List.length_cons]
        omega

theorem callOnce_takesRun (script : List (Poll α)) : (callOnce script).1.TakesRun := by
  obtain ⟨items, stop, hpolled, hresult, hskipped, hstop, _⟩ := callOnce_spec script
  exact ⟨items, stop, hstop, hpolled, hresult, hskipped⟩

theorem calls_takesRun : ∀ (n : Nat) (script : List (Poll α)), ∀ c ∈ calls n script, c.TakesRun
  | 0, _, _, hc => by cases hc
  | n + 1, script, c, hc => by
      rcases List.mem_cons.mp hc with rfl | hc
      · exact callOnce_takesRun script
      · exact calls_takesRun n _ c hc

/-! ## Calls that take runs -/

variable {cs : List (Call α)}

theorem ready_filterMap (items : List α) : (ready items).filterMap Poll.item = items := by
  unfold ready
  rw [List.filterMap_map]
  exact List.filterMap_some

/-- The item a call yields, if any, is the last of those it was given. -/
theorem Call.TakesRun.item {c : Call α} (h : c.TakesRun) :
    c.result.item = (c.polled.filterMap Poll.item).getLast? := by
  obtain ⟨items, stop, hstop, hpolled, hresult, _⟩ := h
  rw [hpolled, hresult, List.filterMap_append, ready_filterMap, List.filterMap_cons_none hstop,
    List.filterMap_nil, List.append_nil]
  cases hlast : items.getLast? with
  | none => exact hstop
  | some x => rfl

theorem yielded_sublist : ∀ {cs : List (Call α)}, (∀ c ∈ cs, c.TakesRun) →
    (cs.filterMap fun c => c.result.item).Sublist ((polledIn cs).filterMap Poll.item)
  | [], _ => List.Sublist.refl _
  | c :: cs, h => by
      have hrest := yielded_sublist fun d hd => h d (List.mem_cons_of_mem _ hd)
      have hitem := (h c List.mem_cons_self).item
      unfold polledIn at hrest ⊢
      rw [List.flatMap_cons, List.filterMap_append, List.filterMap_cons, hitem]
      cases hlast : (c.polled.filterMap Poll.item).getLast? with
      | none => exact hrest.trans (List.sublist_append_right _ _)
      | some x =>
          have hone : [x].Sublist (c.polled.filterMap Poll.item) :=
            List.singleton_sublist.mpr (List.mem_of_getLast? hlast)
          exact hone.append hrest

theorem item_of_mem_ready {items : List α} {answer : Poll α} (h : answer ∈ ready items) :
    answer.item ≠ none := by
  obtain ⟨x, _, rfl⟩ := List.mem_map.mp h
  exact Option.some_ne_none x

/-- In a call the answer that is no item is the last one. -/
theorem Call.TakesRun.stop {c : Call α} (h : c.TakesRun) {pre post : List (Poll α)}
    {stop : Poll α} (hpolled : c.polled = pre ++ stop :: post) (hstop : stop.item = none) :
    post = [] ∧ ∃ items, pre = ready items
      ∧ c.result = (items.getLast?.map fun x => .ready (some x)).getD stop := by
  obtain ⟨items, last, _, htaken, hresult, _⟩ := h
  rw [htaken] at hpolled
  rcases split_concat hpolled with ⟨hpre, rfl⟩ | ⟨post', hready⟩
  · rw [hpre] at hpolled
    have hpost := List.append_cancel_left hpolled
    exact ⟨(List.cons.inj hpost).2.symm, items, hpre, hresult⟩
  · have hmem : stop ∈ ready items := by
      rw [hready]
      exact List.mem_append_right _ List.mem_cons_self
    exact absurd hstop (item_of_mem_ready hmem)

theorem newest_yielded {x : α} {stop : Poll α} (hstop : stop.item = none) :
    ∀ {cs : List (Call α)}, (∀ c ∈ cs, c.TakesRun) → ∀ {pre post : List (Poll α)},
      polledIn cs = pre ++ .ready (some x) :: stop :: post → ∃ c ∈ cs, c.result = .ready (some x)
  | [], _, pre, post, h => by simp [polledIn] at h
  | c :: cs, hruns, pre, post, h => by
      have hlater (front : List (Poll α))
          (hfront : polledIn cs = front ++ .ready (some x) :: stop :: post) :
          ∃ d ∈ c :: cs, d.result = .ready (some x) := by
        obtain ⟨d, hd, hresult⟩ := newest_yielded hstop
          (fun d hd => hruns d (List.mem_cons_of_mem _ hd)) hfront
        exact ⟨d, List.mem_cons_of_mem _ hd, hresult⟩
      have hrun := hruns c List.mem_cons_self
      unfold polledIn at h
      rw [List.flatMap_cons] at h
      rcases List.append_eq_append_iff.mp h with ⟨front, _, hfront⟩ | ⟨back, hpolled, hback⟩
      · exact hlater front hfront
      · -- the call itself ends behind the item, or with it, or goes on to the answer
        rcases back with _ | ⟨answer, back⟩
        · exact hlater [] hback.symm
        · obtain ⟨hanswer, htail⟩ := List.cons.inj hback
          subst hanswer
          rcases back with _ | ⟨answer, back⟩
          · obtain ⟨items, last, hlast, htaken, _⟩ := hrun
            rw [htaken] at hpolled
            obtain ⟨_, heq⟩ := List.append_inj' hpolled rfl
            rw [(List.cons.inj heq).1] at hlast
            cases hlast
          · obtain ⟨hanswer, _⟩ := List.cons.inj htail
            subst hanswer
            have hsplit : c.polled = (pre ++ [.ready (some x)]) ++ stop :: back := by
              rw [hpolled, List.append_assoc]
              rfl
            obtain ⟨_, items, hready, hresult⟩ := hrun.stop hsplit hstop
            refine ⟨c, List.mem_cons_self, ?_⟩
            have hitems : items = pre.filterMap Poll.item ++ [x] := by
              rw [← ready_filterMap items, ← hready, List.filterMap_append]
              rfl
            rw [hresult, hitems, List.getLast?_concat]
            rfl

/-- **Calls that all take runs lose nothing**; what is left is that they stop at the end. -/
theorem coalesces_iff_once (h : ∀ c ∈ cs, c.TakesRun) :
    Coalesces cs ↔ EndIsLast (polledIn cs) := by
  refine ⟨Coalesces.once, fun honce => ⟨?_, yielded_sublist h, ?_, ?_, honce⟩⟩
  · rintro before c after rfl
    exact Or.inl (h c (List.mem_append_right _ List.mem_cons_self))
  · intro pre x stop post hpolled hstop
    exact newest_yielded hstop h hpolled
  · rintro ⟨c, hc, hresult⟩
    obtain ⟨items, stop, hstop, hpolled, hyield, _⟩ := h c hc
    refine List.mem_flatMap.mpr ⟨c, hc, ?_⟩
    rw [hresult] at hyield
    cases hlast : items.getLast? with
    | none =>
        rw [hlast] at hyield
        rw [hpolled, hyield]
        exact List.mem_append_right _ List.mem_cons_self
    | some x =>
        rw [hlast] at hyield
        cases hyield

/-! ## The end of the inner stream -/

def Poll.isEnd : Poll α → Bool
  | .ready none => true
  | _ => false

def Poll.isPending : Poll α → Bool
  | .pending => true
  | _ => false

/-- The polls of the adapter up to and with the one that meets the end. -/
def pollsToEnd (script : List (Poll α)) : Nat :=
  (script.takeWhile fun answer => !answer.isEnd).countP Poll.isPending + 1

theorem end_not_mem_ready (items : List α) : .ready none ∉ ready items :=
  fun h => item_of_mem_ready h rfl

theorem pollsToEnd_ready_append : ∀ (items : List α) (script : List (Poll α)),
    pollsToEnd (ready items ++ script) = pollsToEnd script
  | [], _ => rfl
  | _ :: items, script => pollsToEnd_ready_append items script

theorem pollsToEnd_pending_cons (script : List (Poll α)) :
    pollsToEnd (.pending :: script) = pollsToEnd script + 1 := by
  unfold pollsToEnd
  rw [List.takeWhile_cons_of_pos rfl, List.countP_cons_of_pos rfl]

theorem endIsLast_append {front answers : List (Poll α)} (h : .ready none ∉ front) :
    EndIsLast (front ++ answers) ↔ EndIsLast answers := by
  constructor
  · intro hlast pre post heq
    refine hlast (front ++ pre) post ?_
    rw [heq, List.append_assoc]
  · intro hlast pre post heq
    rcases List.append_eq_append_iff.mp heq with ⟨pre', _, hpre⟩ | ⟨back, hfront, hback⟩
    · exact hlast pre' post hpre
    · rcases back with _ | ⟨answer, back⟩
      · exact hlast [] post hback.symm
      · obtain ⟨rfl, _⟩ := List.cons.inj hback
        refine absurd ?_ h
        rw [hfront]
        exact List.mem_append_right _ List.mem_cons_self

/-- A call that polls makes the answers longer. -/
theorem polledIn_calls_eq_nil_iff {n : Nat} {script : List (Poll α)} :
    polledIn (calls n script) = [] ↔ n = 0 := by
  cases n with
  | zero => exact ⟨fun _ => rfl, fun _ => rfl⟩
  | succ n =>
      obtain ⟨items, stop, hpolled, _⟩ := callOnce_spec script
      refine ⟨fun h => ?_, fun h => by cases h⟩
      have hfirst := (List.append_eq_nil_iff.mp h).1
      rw [hpolled] at hfirst
      exact absurd hfirst (by simp)

theorem endIsLast_end_cons {answers : List (Poll α)} :
    EndIsLast (.ready none :: answers) ↔ answers = [] := by
  constructor
  · exact fun h => h [] answers rfl
  · rintro rfl pre post h
    have hlen := congrArg List.length h
    simp only [List.length_cons, List.length_nil, List.length_append] at hlen
    exact List.eq_nil_of_length_eq_zero (by omega)

/-- **Nothing is polled behind the end** as long as no poll follows the one that meets it. -/
theorem endIsLast_calls : ∀ (n : Nat) (script : List (Poll α)),
    EndIsLast (polledIn (calls n script)) ↔ .ready none ∉ script ∨ n ≤ pollsToEnd script
  | 0, _ => by
      refine ⟨fun _ => Or.inr (Nat.zero_le _), fun _ pre post h => ?_⟩
      simp [calls, polledIn] at h
  | n + 1, script => by
      obtain ⟨items, stop, hpolled, _, _, hstop, hscript⟩ := callOnce_spec script
      have hrest := endIsLast_calls n (callOnce script).2
      have hsplit : polledIn (calls (n + 1) script)
          = ready items ++ (stop :: polledIn (calls n (callOnce script).2)) := by
        show (callOnce script).1.polled ++ polledIn (calls n (callOnce script).2) = _
        rw [hpolled, List.append_assoc]
        rfl
      have hitems := end_not_mem_ready items
      rw [hsplit, endIsLast_append hitems]
      cases stop with
      | pending =>
          rw [show (.pending :: polledIn (calls n (callOnce script).2) : List (Poll α))
            = [.pending] ++ polledIn (calls n (callOnce script).2) from rfl,
            endIsLast_append (by simp), hrest]
          rcases hscript with hscript | ⟨hscript, _, hexhausted⟩
          · generalize (callOnce script).2 = rest at hscript
            have hmem : .ready none ∈ script ↔ .ready none ∈ rest := by
              rw [hscript]
              simp [hitems]
            have hpolls : pollsToEnd script = pollsToEnd rest + 1 := by
              rw [hscript, pollsToEnd_ready_append, pollsToEnd_pending_cons]
            rw [hmem, hpolls, Nat.add_le_add_iff_right]
          · -- an exhausted script stays pending
            rw [hexhausted, hscript]
            exact iff_of_true (Or.inl List.not_mem_nil) (Or.inl hitems)
      | ready item =>
          -- the end itself, so this must have been the last poll
          obtain rfl : item = none := hstop
          rw [endIsLast_end_cons, polledIn_calls_eq_nil_iff]
          rcases hscript with hscript | ⟨_, hpending, _⟩
          · have hmem : .ready none ∈ script := by
              rw [hscript]
              exact List.mem_append_right _ List.mem_cons_self
            have hpolls : pollsToEnd script = 1 := by
              rw [hscript, pollsToEnd_ready_append]
              rfl
            rw [hpolls]
            exact ⟨fun h => Or.inr (by omega), fun h => by
              have := h.resolve_left (not_not_intro hmem)
              omega⟩
          · cases hpending

/--
**The adapter coalesces without losing the newest item**, on every script and for every
number of polls, if and only if the inner stream does not end or no poll follows the one
that meets the end.
-/
theorem latest_coalesces_iff (n : Nat) (script : List (Poll α)) :
    Coalesces (calls n script) ↔ .ready none ∉ script ∨ n ≤ pollsToEnd script :=
  (coalesces_iff_once (calls_takesRun n script)).trans (endIsLast_calls n script)

/-- **The end is asked for again** and the stream goes on behind it: the first poll yields 7
and swallows the end, the second yields an item again. -/
theorem latest_polls_again :
    let cs := calls 2 [.ready (some 7), .ready none, .ready (some 8)]
    cs.map Call.result = [.ready (some 7), .ready (some 8)]
      ∧ polledIn cs = [.ready (some 7), .ready none, .ready (some 8), .pending]
      ∧ ¬ Coalesces cs := by
  intro cs
  refine ⟨by decide, by decide, fun h => ?_⟩
  have hpost := h.once [.ready (some 7)] [.ready (some 8), .pending] (by decide)
  cases hpost

end NodeComponents.HostRpc.Latest
