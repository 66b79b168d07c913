import NodeComponents.Rpc.Replay

/-!
# Calls of `eth_getFilterChanges` on one filter

Any number of calls, each in parts: the cursor is copied under the lock, the latest
tag loaded, cold storage asked, and the cursor committed under the lock again. Blocks
are appended between any two parts, and cold storage is told of them later: it holds
the blocks below `held`.

`callsInv_step` is about both ways of going wrong. If no answer misses output and no
commit covers output twice, then what was returned is exactly the output of the blocks
between the install height and the cursor, in order.
-/

namespace NodeComponents.Rpc

open Lib

variable {G Tx : Type}

/-! ## What a filter returns of a block -/

/-- A block hash or a log, as a poll returns them. -/
inductive FilterItem (G : Type) where
  | hash (blockHash : B256)
  | log (log : Log G)
deriving DecidableEq

def FilterOutput.items : FilterOutput G → List (FilterItem G)
  | .log logs => logs.map .log
  | .block hashes => hashes.map .hash

/-- What a filter returns of a block: its hash, or its matching logs. -/
def InterestKind.itemsOf (b : CanonicalBlock G) : InterestKind G → List (FilterItem G)
  | .block => [.hash b.hash]
  | .log filter => (b.logs.filter fun log => filter log.inner).map .log

/-- What a filter returns of the blocks from `start` on below `stop`. -/
def itemsBetween (kind : InterestKind G) (chain : List (CanonicalBlock G)) (start stop : Nat) :
    List (FilterItem G) :=
  ((chain.take stop).drop start).flatMap kind.itemsOf

variable {kind : InterestKind G} {chain : List (CanonicalBlock G)}

@[simp] theorem itemsBetween_empty {start stop : Nat} (h : stop ≤ start) :
    itemsBetween kind chain start stop = [] := by
  unfold itemsBetween
  rw [List.drop_of_length_le (by rw [List.length_take]; omega)]
  rfl

theorem itemsBetween_trans {start mid stop : Nat} (h : start ≤ mid) (h' : mid ≤ stop) :
    itemsBetween kind chain start mid ++ itemsBetween kind chain mid stop
      = itemsBetween kind chain start stop := by
  unfold itemsBetween
  rw [← List.flatMap_append]
  congr 1
  have hfront : (chain.take stop).take mid = chain.take mid := by
    rw [List.take_take, Nat.min_eq_left h']
  have hdrop : ((chain.take stop).drop start).drop (mid - start) = (chain.take stop).drop mid := by
    rw [List.drop_drop]
    congr 1
    omega
  rw [← hfront, ← hdrop, List.drop_take, List.take_append_drop]

/-- Blocks that are appended later do not show in a range there was. -/
theorem itemsBetween_concat {start stop : Nat} (h : stop ≤ chain.length)
    (b : CanonicalBlock G) :
    itemsBetween kind (chain ++ [b]) start stop = itemsBetween kind chain start stop := by
  unfold itemsBetween
  rw [List.take_append_of_le_length h]

theorem itemsBetween_take (held start stop : Nat) :
    itemsBetween kind (chain.take held) start stop
      = itemsBetween kind chain start (min stop held) := by
  unfold itemsBetween
  rw [List.take_take]

/-- A poll without removed logs returns what cold storage holds of the range. -/
theorem output_items (chain : List (CanonicalBlock G)) {p : PollStart G}
    (hremoved : p.removed = []) (latest : Nat) :
    ∃ out, p.output (coldOf chain) latest = .ok out
      ∧ out.items = itemsBetween p.kind chain p.start (latest + 1) := by
  unfold PollStart.output
  by_cases hearly : latest < p.start
  · rw [if_pos hearly, if_pos (by rw [hremoved]; rfl), itemsBetween_empty (by omega)]
    refine ⟨_, rfl, ?_⟩
    cases p.kind <;> rfl
  · rw [if_neg hearly]
    cases p.kind with
    | block =>
        refine ⟨_, rfl, ?_⟩
        show List.map _ (List.map _ _) = List.flatMap _ _
        rw [List.map_map, List.map_eq_flatMap]
        rfl
    | log filter =>
        refine ⟨_, rfl, ?_⟩
        show List.map _ (p.removed ++ matching filter _) = List.flatMap _ _
        rw [hremoved, List.nil_append]
        unfold matching
        rw [List.filter_flatMap, List.map_flatMap]
        rfl

/-! ## The machine -/

/-- How far a call has come. -/
inductive CallPhase (G : Type) where
  /-- The filter is copied, and the lock dropped. -/
  | copied (p : PollStart G)
  /-- The latest tag is loaded. -/
  | resolved (p : PollStart G) (latest : Nat)
  /-- What the call will return is known; the cursor is not committed yet. -/
  | answered (p : PollStart G) (latest : Nat) (out : FilterOutput G)
  | done

/-- The chain, how many of its blocks cold storage holds, the notifier, one filter and
all calls that poll it. -/
structure CallsWorld (Tx G : Type) where
  chain : List (CanonicalBlock G)
  held : Nat
  notifier : ChainNotifier Tx G
  filter : ActiveFilter G
  calls : List (CallPhase G)

/-- A step of the node, of cold storage, or of one call by its index. -/
inductive CallStep (G : Type) where
  | append (block : CanonicalBlock G)
  | ingest (held : Nat)
  | copy
  | readLatest (i : Nat)
  | answer (i : Nat)
  | fail (i : Nat)
  | commit (i now : Nat)

/-- A call returns what it found up to the latest tag it loaded. -/
structure CallReturn (G : Type) where
  latest : Nat
  out : FilterOutput G
deriving DecidableEq

/-- A block is stored and the latest tag advanced to it. -/
def CallsWorld.append (w : CallsWorld Tx G) (block : CanonicalBlock G) : CallsWorld Tx G :=
  { w with
    chain := w.chain ++ [block]
    notifier := { w.notifier with
      tags := w.notifier.tags.updateAll w.chain.length w.notifier.tags.safe
        w.notifier.tags.finalized } }

/-- A call starts: the part under the shard lock. -/
def CallsWorld.copy (w : CallsWorld Tx G) : CallsWorld Tx G :=
  let read := w.filter.readRing w.notifier.reorgs
  { w with filter := read.2, calls := w.calls ++ [.copied read.1] }

def CallsWorld.advance (w : CallsWorld Tx G) (i : Nat) (phase : CallPhase G) : CallsWorld Tx G :=
  { w with calls := w.calls.set i phase }

def CallsWorld.readLatest (w : CallsWorld Tx G) (i : Nat) : CallsWorld Tx G :=
  match w.calls[i]? with
  | some (.copied p) => w.advance i (.resolved p w.notifier.tags.latest)
  | _ => w

/-- Cold storage answers with what it holds; an early return does not ask it. -/
def CallsWorld.answer (w : CallsWorld Tx G) (i : Nat) : CallsWorld Tx G :=
  match w.calls[i]? with
  | some (.resolved p latest) =>
    match p.output (coldOf (w.chain.take w.held)) latest with
    | .ok out => w.advance i (.answered p latest out)
    | .error _ => w.advance i .done
  | _ => w

/-- Cold storage fails, and the call with it. -/
def CallsWorld.fail (w : CallsWorld Tx G) (i : Nat) : CallsWorld Tx G :=
  match w.calls[i]? with
  | some (.resolved p latest) => if latest < p.start then w else w.advance i .done
  | _ => w

/-- The call has committed the cursor and returned. -/
def CallsWorld.finished (w : CallsWorld Tx G) (i : Nat) (p : PollStart G) (latest now : Nat) :
    CallsWorld Tx G :=
  { w.advance i .done with filter := p.commit latest now w.filter }

def CallsWorld.commit (w : CallsWorld Tx G) (i now : Nat) :
    Option (CallReturn G) × CallsWorld Tx G :=
  match w.calls[i]? with
  | some (.answered p latest out) => (some ⟨latest, out⟩, w.finished i p latest now)
  | _ => (none, w)

/-- One step; a step the call has not come to does nothing. -/
def callStep : CallStep G → CallsWorld Tx G → Option (CallReturn G) × CallsWorld Tx G
  | .append block, w => (none, w.append block)
  | .ingest held, w => (none, { w with held := held })
  | .copy, w => (none, w.copy)
  | .readLatest i, w => (none, w.readLatest i)
  | .answer i, w => (none, w.answer i)
  | .fail i, w => (none, w.fail i)
  | .commit i now, w => w.commit i now

/-- A filter right after it was installed. -/
def CallsWorld.installed (chain : List (CanonicalBlock G)) (held : Nat)
    (notifier : ChainNotifier Tx G) (kind : InterestKind G) (now : Nat) : CallsWorld Tx G :=
  ⟨chain, held, notifier, ActiveFilter.install notifier.tags.latest now kind, []⟩

/-- What the calls returned, in the order they did. -/
def returnedItems (os : List (CallReturn G)) : List (FilterItem G) :=
  os.flatMap fun r => r.out.items

/-! ## Conditions -/

/-- Cold storage grows, behind the latest tag, and the clock does not run backwards. -/
def Lagging : CallStep G → CallsWorld Tx G → Prop
  | .ingest held, w => w.held ≤ held ∧ held ≤ w.notifier.tags.latest + 1
  | .commit _ now, w => w.filter.lastPollTime ≤ now
  | _, _ => True

/-- What cold storage does not hold yet of the range it is asked for has no output. -/
def NoneMissed : CallStep G → CallsWorld Tx G → Prop
  | .answer i, w => ∀ p latest, w.calls[i]? = some (.resolved p latest) →
      itemsBetween p.kind w.chain (max p.start w.held) (latest + 1) = []
  | _, _ => True

/-- A commit does not move the cursor back, nor over output the cursor has passed before. -/
def NoOverlap : CallStep G → CallsWorld Tx G → Prop
  | .commit i _, w => ∀ p latest out, w.calls[i]? = some (.answered p latest out) →
      p.start ≤ latest → w.filter.nextStartBlock ≤ latest + 1
        ∧ itemsBetween p.kind w.chain p.start w.filter.nextStartBlock = []
  | _, _ => True

/-! ## What one step does -/

/-- What a step does to the calls. -/
inductive CallMoved (w : CallsWorld Tx G) :
    CallStep G → Option (CallReturn G) → CallsWorld Tx G → Prop
  | same (s : CallStep G) : CallMoved w s none w
  | appended (block : CanonicalBlock G) : CallMoved w (.append block) none (w.append block)
  | ingested (held : Nat) : CallMoved w (.ingest held) none { w with held := held }
  | copied : CallMoved w .copy none w.copy
  | resolved {i : Nat} {p : PollStart G} (hcall : w.calls[i]? = some (.copied p)) :
      CallMoved w (.readLatest i) none (w.advance i (.resolved p w.notifier.tags.latest))
  | answered {i latest : Nat} {p : PollStart G} {out : FilterOutput G}
      (hcall : w.calls[i]? = some (.resolved p latest))
      (hout : p.output (coldOf (w.chain.take w.held)) latest = .ok out) :
      CallMoved w (.answer i) none (w.advance i (.answered p latest out))
  | failed (s : CallStep G) {i latest : Nat} {p : PollStart G}
      (hcall : w.calls[i]? = some (.resolved p latest)) : CallMoved w s none (w.advance i .done)
  | committed {i latest : Nat} (now : Nat) {p : PollStart G} {out : FilterOutput G}
      (hcall : w.calls[i]? = some (.answered p latest out)) :
      CallMoved w (.commit i now) (some ⟨latest, out⟩) (w.finished i p latest now)

theorem callStep_moved (s : CallStep G) (w : CallsWorld Tx G) :
    CallMoved w s (callStep s w).1 (callStep s w).2 := by
  cases s with
  | append block => exact .appended block
  | ingest held => exact .ingested held
  | copy => exact .copied
  | readLatest i =>
      show CallMoved w _ none (w.readLatest i)
      unfold CallsWorld.readLatest
      split
      · rename_i p hcall
        exact .resolved hcall
      · exact .same _
  | answer i =>
      show CallMoved w _ none (w.answer i)
      unfold CallsWorld.answer
      split
      · rename_i p latest hcall
        split
        · rename_i out hout
          exact .answered hcall hout
        · exact .failed _ hcall
      · exact .same _
  | fail i =>
      show CallMoved w _ none (w.fail i)
      unfold CallsWorld.fail
      split
      · rename_i p latest hcall
        split
        · exact .same _
        · exact .failed _ hcall
      · exact .same _
  | commit i now =>
      show CallMoved w _ (w.commit i now).1 (w.commit i now).2
      unfold CallsWorld.commit
      split
      · rename_i p latest out hcall
        exact .committed now hcall
      · exact .same _

/-! ## The invariant -/

/-- A call has copied a filter of this kind that no reorg rewound, and the cursor has not
gone back since. -/
structure Copied (kind : InterestKind G) (cursor : Nat) (p : PollStart G) : Prop where
  ofKind : p.kind = kind
  removed : p.removed = []
  start : p.start ≤ cursor

/-- What is known of a call, however far it has come. -/
def CallInv (kind : InterestKind G) (w : CallsWorld Tx G) : CallPhase G → Prop
  | .copied p => Copied kind w.filter.nextStartBlock p
  | .resolved p latest =>
    Copied kind w.filter.nextStartBlock p ∧ latest ≤ w.notifier.tags.latest
  | .answered p latest out => Copied kind w.filter.nextStartBlock p
      ∧ latest ≤ w.notifier.tags.latest
      ∧ out.items = itemsBetween kind w.chain p.start (latest + 1)
  | .done => True

/-- What was returned is the output of the blocks between the install height and the cursor. -/
structure CallsInv (kind : InterestKind G) (height : Nat) (os : List (CallReturn G))
    (w : CallsWorld Tx G) : Prop where
  ofKind : w.filter.kind = kind
  ring : ∀ e ∈ w.notifier.reorgs, e.1 ≤ w.filter.lastPollTime
  tag : w.notifier.tags.latest < w.chain.length
  above : height < w.filter.nextStartBlock
  calls : ∀ c ∈ w.calls, CallInv kind w c
  returned : returnedItems os = itemsBetween kind w.chain (height + 1) w.filter.nextStartBlock
  /-- The cursor is past all that was asked for, and has not passed the latest tag. -/
  passed : ∀ r ∈ os, r.latest < w.filter.nextStartBlock
  cursor : w.filter.nextStartBlock ≤ w.notifier.tags.latest + 1

/-- The chain and the cursor only grow under a call. -/
theorem CallInv.mono {w w' : CallsWorld Tx G} {c : CallPhase G} (h : CallInv kind w c)
    (hcursor : w.filter.nextStartBlock ≤ w'.filter.nextStartBlock)
    (htag : w.notifier.tags.latest ≤ w'.notifier.tags.latest)
    (hitems : ∀ start stop, stop ≤ w.notifier.tags.latest + 1 →
      itemsBetween kind w'.chain start stop = itemsBetween kind w.chain start stop) :
    CallInv kind w' c := by
  have hcopied : ∀ p, Copied kind w.filter.nextStartBlock p →
      Copied kind w'.filter.nextStartBlock p := fun p hp =>
    ⟨hp.ofKind, hp.removed, Nat.le_trans hp.start hcursor⟩
  cases c with
  | copied p => exact hcopied p h
  | resolved p latest => exact ⟨hcopied p h.1, Nat.le_trans h.2 htag⟩
  | answered p latest out =>
      obtain ⟨hp, hlatest, hout⟩ := h
      refine ⟨hcopied p hp, Nat.le_trans hlatest htag, ?_⟩
      rw [hitems _ _ (Nat.succ_le_succ hlatest)]
      exact hout
  | done => trivial

theorem CallsInv.append {height : Nat} {os : List (CallReturn G)} {w : CallsWorld Tx G}
    (h : CallsInv kind height os w) (b : CanonicalBlock G) :
    CallsInv kind height os (w.append b) := by
  have htag := h.tag
  have hcursor : (w.append b).filter.nextStartBlock ≤ w.notifier.tags.latest + 1 := h.cursor
  refine ⟨h.ofKind, h.ring, ?_, h.above, fun c hc => ?_, ?_, h.passed, ?_⟩
  · show w.chain.length < (w.chain ++ [b]).length
    simp
  · refine (h.calls c hc).mono (Nat.le_refl _) (Nat.le_of_lt htag) fun start stop hstop => ?_
    exact itemsBetween_concat (by omega) b
  · show _ = itemsBetween kind (w.chain ++ [b]) _ _
    rw [itemsBetween_concat (by omega)]
    exact h.returned
  · show _ ≤ w.chain.length + 1
    omega

/-- Without reorgs since the last poll the ring is read in vain. -/
theorem readRing_quiet {f : ActiveFilter G} {reorgs : ReorgBuffer G}
    (h : ∀ e ∈ reorgs, e.1 ≤ f.lastPollTime) :
    f.readRing reorgs = (⟨f.kind, f.nextStartBlock, []⟩, f) := by
  have hnone : reorgsSince reorgs f.lastPollTime = [] := by
    rw [reorgsSince_eq, List.map_eq_nil_iff]
    refine List.filter_eq_nil_iff.mpr fun e he => ?_
    simpa using h e he
  unfold ActiveFilter.readRing ActiveFilter.computeRemovedLogs
  rw [hnone]
  cases f.kind.asFilter <;> rfl

theorem CallsInv.copy {height : Nat} {os : List (CallReturn G)} {w : CallsWorld Tx G}
    (h : CallsInv kind height os w) : CallsInv kind height os w.copy := by
  have hcopy : w.copy = { w with
      calls := w.calls ++ [.copied ⟨w.filter.kind, w.filter.nextStartBlock, []⟩] } := by
    unfold CallsWorld.copy
    rw [readRing_quiet h.ring]
  rw [hcopy]
  refine ⟨h.ofKind, h.ring, h.tag, h.above, fun c hc => ?_, h.returned, h.passed, h.cursor⟩
  rcases List.mem_append.mp hc with hold | hnew
  · exact h.calls c hold
  · rw [List.mem_singleton.mp hnew]
    exact ⟨h.ofKind, rfl, Nat.le_refl _⟩

theorem CallsInv.advance {height : Nat} {os : List (CallReturn G)} {w : CallsWorld Tx G}
    (h : CallsInv kind height os w) (i : Nat) {phase : CallPhase G}
    (hphase : CallInv kind w phase) : CallsInv kind height os (w.advance i phase) := by
  refine ⟨h.ofKind, h.ring, h.tag, h.above, fun c hc => ?_, h.returned, h.passed, h.cursor⟩
  rcases List.mem_or_eq_of_mem_set hc with hold | hnew
  · exact h.calls c hold
  · rw [hnew]
    exact hphase

/-- An answer of cold storage that misses no output is the output of the whole range. -/
theorem output_complete {p : PollStart G} {held latest : Nat} {out : FilterOutput G}
    (hremoved : p.removed = []) (hout : p.output (coldOf (chain.take held)) latest = .ok out)
    (hnone : itemsBetween p.kind chain (max p.start held) (latest + 1) = []) :
    out.items = itemsBetween p.kind chain p.start (latest + 1) := by
  obtain ⟨out', hout', hitems⟩ := output_items (chain.take held) hremoved latest
  obtain rfl := Except.ok.inj (hout'.symm.trans hout)
  rw [hitems, itemsBetween_take]
  by_cases hheld : latest + 1 ≤ held
  · rw [Nat.min_eq_left hheld]
  · rw [Nat.min_eq_right (by omega)]
    by_cases hstart : held ≤ p.start
    · rw [Nat.max_eq_left hstart] at hnone
      rw [itemsBetween_empty hstart, hnone]
    · rw [Nat.max_eq_right (by omega)] at hnone
      have hsplit : itemsBetween p.kind chain p.start held
          ++ itemsBetween p.kind chain held (latest + 1)
          = itemsBetween p.kind chain p.start (latest + 1) :=
        itemsBetween_trans (by omega) (by omega)
      rw [← hsplit, hnone, List.append_nil]

/-- **A commit that overlaps nothing** extends what was returned by the blocks the cursor
passes. -/
theorem CallsInv.finished {height : Nat} {os : List (CallReturn G)} {w : CallsWorld Tx G}
    (h : CallsInv kind height os w) {i latest now : Nat} {p : PollStart G} {out : FilterOutput G}
    (hcall : CallInv kind w (.answered p latest out)) (hnow : w.filter.lastPollTime ≤ now)
    (hover : p.start ≤ latest → w.filter.nextStartBlock ≤ latest + 1
      ∧ itemsBetween p.kind w.chain p.start w.filter.nextStartBlock = []) :
    CallsInv kind height (os ++ [⟨latest, out⟩]) (w.finished i p latest now)
      ∧ w.filter.nextStartBlock ≤ (w.finished i p latest now).filter.nextStartBlock := by
  obtain ⟨hp, hlatest, hout⟩ := hcall
  obtain ⟨hkind, hremoved, hstart⟩ := hp
  have hret : returnedItems (os ++ [⟨latest, out⟩]) = returnedItems os ++ out.items := by
    unfold returnedItems
    simp
  have habove := h.above
  have hring : ∀ e ∈ w.notifier.reorgs, e.1 ≤ now := fun e he => Nat.le_trans (h.ring e he) hnow
  have hcalls : ∀ {cursor}, w.filter.nextStartBlock ≤ cursor →
      ∀ c ∈ w.calls.set i .done, CallInv kind { w with filter.nextStartBlock := cursor } c := by
    intro cursor hcursor c hc
    rcases List.mem_or_eq_of_mem_set hc with hold | hnew
    · exact (h.calls c hold).mono hcursor (Nat.le_refl _) fun _ _ _ => rfl
    · rw [hnew]
      trivial
  by_cases hearly : latest < p.start
  · have hcommit : p.commit latest now w.filter = w.filter.touchPollTime now := if_pos hearly
    rw [itemsBetween_empty (by omega)] at hout
    unfold CallsWorld.finished
    rw [hcommit]
    refine ⟨⟨h.ofKind, hring, h.tag, h.above, hcalls (Nat.le_refl _), ?_, fun r hr => ?_,
      h.cursor⟩, Nat.le_refl _⟩
    · rw [hret, hout, List.append_nil]
      exact h.returned
    · rcases List.mem_append.mp hr with hold | hnew
      · exact h.passed r hold
      · rw [List.mem_singleton.mp hnew]
        exact Nat.lt_of_lt_of_le hearly hstart
  · have hcommit : p.commit latest now w.filter = w.filter.markPolled latest now := if_neg hearly
    obtain ⟨hcursor, hnone⟩ := hover (by omega)
    rw [hkind] at hnone
    unfold CallsWorld.finished
    rw [hcommit]
    refine ⟨⟨h.ofKind, hring, h.tag, ?_, hcalls hcursor, ?_, fun r hr => ?_, ?_⟩, hcursor⟩
    · show height < latest + 1
      omega
    · show _ = itemsBetween kind w.chain (height + 1) (latest + 1)
      rw [hret, h.returned, hout, ← itemsBetween_trans hstart hcursor, hnone, List.nil_append,
        itemsBetween_trans habove hcursor]
    · rcases List.mem_append.mp hr with hold | hnew
      · exact Nat.lt_of_lt_of_le (h.passed r hold) hcursor
      · rw [List.mem_singleton.mp hnew]
        exact Nat.lt_succ_self _
    · exact Nat.succ_le_succ hlatest

/-- **Every step keeps the invariant**, and the cursor does not go back. -/
theorem callsInv_step {height : Nat} {os : List (CallReturn G)} {w : CallsWorld Tx G}
    (h : CallsInv kind height os w) (s : CallStep G) (hlag : Lagging s w)
    (hnone : NoneMissed s w) (hover : NoOverlap s w) :
    CallsInv kind height (os ++ (callStep s w).1.toList) (callStep s w).2
      ∧ w.filter.nextStartBlock ≤ (callStep s w).2.filter.nextStartBlock := by
  have hstep := callStep_moved s w
  generalize (callStep s w).1 = out at hstep ⊢
  generalize (callStep s w).2 = w' at hstep ⊢
  cases hstep with
  | same => exact ⟨by rwa [Option.toList_none, List.append_nil], Nat.le_refl _⟩
  | appended b =>
      rw [Option.toList_none, List.append_nil]
      exact ⟨h.append b, Nat.le_refl _⟩
  | ingested held =>
      rw [Option.toList_none, List.append_nil]
      refine ⟨⟨h.ofKind, h.ring, h.tag, h.above, fun c hc => ?_, h.returned, h.passed, h.cursor⟩,
        Nat.le_refl _⟩
      exact (h.calls c hc).mono (Nat.le_refl _) (Nat.le_refl _) fun _ _ _ => rfl
  | copied =>
      rw [Option.toList_none, List.append_nil]
      refine ⟨h.copy, ?_⟩
      unfold CallsWorld.copy
      rw [readRing_quiet h.ring]
  | resolved hcall =>
      rw [Option.toList_none, List.append_nil]
      have hp := h.calls _ (List.mem_of_getElem? hcall)
      exact ⟨h.advance _ ⟨hp, Nat.le_refl _⟩, Nat.le_refl _⟩
  | answered hcall hout =>
      rw [Option.toList_none, List.append_nil]
      obtain ⟨hp, hlatest⟩ := h.calls _ (List.mem_of_getElem? hcall)
      have hitems := output_complete hp.removed hout (hnone _ _ hcall)
      rw [hp.ofKind] at hitems
      exact ⟨h.advance _ ⟨hp, hlatest, hitems⟩, Nat.le_refl _⟩
  | failed s _ =>
      rw [Option.toList_none, List.append_nil]
      exact ⟨h.advance _ trivial, Nat.le_refl _⟩
  | committed now hcall =>
      rw [Option.toList_some]
      exact h.finished (h.calls _ (List.mem_of_getElem? hcall)) hlag (hover _ _ _ hcall)

theorem callsInv_installed {held : Nat} {notifier : ChainNotifier Tx G} {installTime : Nat}
    (hring : RingOrdered notifier.reorgs installTime) (htag : notifier.tags.latest < chain.length) :
    CallsInv kind notifier.tags.latest []
      (CallsWorld.installed chain held notifier kind installTime) :=
  ⟨rfl, hring.past, htag, Nat.lt_succ_self _,
    fun c hc => absurd hc (by simp [CallsWorld.installed]),
    (itemsBetween_empty (Nat.le_refl _)).symm, fun r hr => absurd hr (by simp), Nat.le_refl _⟩

end NodeComponents.Rpc
