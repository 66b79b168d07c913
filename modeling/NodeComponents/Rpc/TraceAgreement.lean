import NodeComponents.Lib.Fallible
import NodeComponents.Rpc.Tracing

/-!
# Transaction-level and block-level tracing agree

A block-level call traces a prefix of the block, and every tracer commits what a plain
run commits. So a transaction-level call arrives at the same state before its target, and
builds the same frame.

The two stop at a system transaction differently. A block-level call checks each
transaction before it traces it; a transaction-level call checks those it runs, but not
its target. `tracing_agrees_iff` says that this is the only difference: they disagree
exactly on the first system transaction of a block, if it can be traced at all.
-/

namespace NodeComponents.Rpc

open Lib

variable {P S R I C F : Type} {ε α : Type}

/-! ## The EVM -/

/-- An inspector does not change what a run does. -/
def Revm.Transparent (evm : Revm P S R I C F) : Prop :=
  ∀ i s tx i' t, evm.inspect i s tx = .ok (i', t) → evm.run s tx = .ok t

/-- Localized traces have a frame for the transaction itself, and all carry its hash. -/
def Revm.Localizes (evm : Revm P S R I C F) : Prop :=
  ∀ i info, evm.localizedTraces i info ≠ []
    ∧ ∀ l ∈ evm.localizedTraces i info, l.transactionHash = info.hash

variable {evm : Revm P S R I C F}

theorem inspected_runTx (hevm : evm.Transparent) {i i' : I} {s : S} {tx : RecoveredTx P}
    {t : Transacted S R} (h : inspected evm i s tx = .ok (i', t)) :
    evm.runTx s tx = .ok (t.acceptState evm) := by
  have hrun := hevm _ _ _ _ _ (mapError_ok h)
  unfold Revm.runTx
  rw [hrun]
  rfl

/-- A tracer leaves the state a plain run leaves. -/
def Commits (evm : Revm P S R I C F) (trace : Nat → RecoveredTx P → S → Except ε (α × S)) : Prop :=
  ∀ idx tx s frame s', trace idx tx s = .ok (frame, s') → evm.runTx s tx = .ok s'

variable (hevm : evm.Transparent) {s s' : S} {tx : RecoveredTx P} {frame : F} {config : C}
  {info : TransactionInfo}

include hevm

/-- A tracer that ends by accepting the state of its inspected run. -/
theorem accepted_runTx {i i' : I} {t : Transacted S R} (h : inspected evm i s tx = .ok (i', t))
    {a b : α}
    (hout : (Except.ok (a, t.acceptState evm) : Except DebugError (α × S)) = .ok (b, s')) :
    evm.runTx s tx = .ok s' := by
  rw [← (Prod.mk.inj (Except.ok.inj hout)).2]
  exact inspected_runTx hevm h

theorem traceFourByte_runTx (h : traceFourByte evm s tx = .ok (frame, s')) :
    evm.runTx s tx = .ok s' := by
  obtain ⟨⟨i, t⟩, ht, hout⟩ := bind_ok h
  exact accepted_runTx hevm ht hout

theorem traceCall_runTx (h : traceCall evm config s tx = .ok (frame, s')) :
    evm.runTx s tx = .ok s' := by
  obtain ⟨callConfig, -, h⟩ := bind_ok h
  obtain ⟨⟨i, t⟩, ht, hout⟩ := bind_ok h
  exact accepted_runTx hevm ht hout

theorem tracePreState_runTx (h : tracePreState evm config s tx = .ok (frame, s')) :
    evm.runTx s tx = .ok s' := by
  obtain ⟨prestateConfig, -, h⟩ := bind_ok h
  obtain ⟨⟨i, t⟩, ht, h⟩ := bind_ok h
  obtain ⟨frame', -, hout⟩ := bind_ok h
  exact accepted_runTx hevm ht hout

theorem traceFlatCall_runTx (h : traceFlatCall evm config info s tx = .ok (frame, s')) :
    evm.runTx s tx = .ok s' := by
  obtain ⟨flatCallConfig, -, h⟩ := bind_ok h
  obtain ⟨⟨i, t⟩, ht, hout⟩ := bind_ok h
  exact accepted_runTx hevm ht hout

theorem traceMux_runTx (h : traceMux evm config info s tx = .ok (frame, s')) :
    evm.runTx s tx = .ok s' := by
  obtain ⟨muxConfig, -, h⟩ := bind_ok h
  obtain ⟨inspector, -, h⟩ := bind_ok h
  obtain ⟨⟨i, t⟩, ht, h⟩ := bind_ok h
  obtain ⟨frame', -, hout⟩ := bind_ok h
  exact accepted_runTx hevm ht hout

omit hevm in
theorem traceNoop_runTx (h : traceNoop evm s tx = .ok (frame, s')) : evm.runTx s tx = .ok s' := by
  obtain ⟨t, ht, hout⟩ := bind_ok h
  rw [← (Prod.mk.inj (Except.ok.inj hout)).2]
  unfold Revm.runTx
  rw [mapError_ok ht]
  rfl

/-- **Every tracer leaves the state of a plain run**, however it builds its frame. -/
theorem trace_runTx {opts : GethDebugTracingOptions C}
    (h : trace evm opts info s tx = .ok (frame, s')) : evm.runTx s tx = .ok s' := by
  unfold trace at h
  split at h
  · cases h
  · cases h
  · split at h
    · cases h
    · exact traceFourByte_runTx hevm h
    · exact traceCall_runTx hevm h
    · exact traceFlatCall_runTx hevm h
    · exact tracePreState_runTx hevm h
    · exact traceNoop_runTx h
    · exact traceMux_runTx hevm h

theorem traceParityLocalized_runTx {frames : List (LocalizedTransactionTrace F)}
    (h : traceParityLocalized evm info s tx = .ok (frames, s')) : evm.runTx s tx = .ok s' := by
  obtain ⟨⟨i, t⟩, ht, hout⟩ := bind_ok h
  exact accepted_runTx hevm ht hout

theorem traceParityReplay_runTx (h : traceParityReplay evm config s tx = .ok (frame, s')) :
    evm.runTx s tx = .ok s' := by
  obtain ⟨⟨i, t⟩, ht, h⟩ := bind_ok h
  obtain ⟨results, -, hout⟩ := bind_ok h
  exact accepted_runTx hevm ht hout

omit hevm

/-! ## The loops -/

/-- The transactions of a block before the one with a hash. -/
def txsBefore (txs : List (RecoveredTx P)) (txHash : B256) : List (RecoveredTx P) :=
  txs.takeWhile fun t => t.txHash ≠ txHash

/-- Run transactions one after another. -/
def runAll (evm : Revm P S R I C F) (s : S) (txs : List (RecoveredTx P)) : Except String S :=
  txs.foldlM evm.runTx s

/-- The frames of a hash. -/
def framesOf (txHash : B256) (frames : List (B256 × α)) : List α :=
  (frames.filter fun frame => frame.1 = txHash).map Prod.snd

/-- Where a transaction stands in its block, and what the two loops make of it: a block-level
loop that found `frames`, and a transaction-level one on the same block. -/
inductive Located (evm : Revm P S R I C F) (trace : Nat → RecoveredTx P → S → Except ε (α × S))
    (txs : List (RecoveredTx P)) (start : Nat) (s : S) (tx : RecoveredTx P)
    (frames : List (B256 × α)) : Prop
  /-- No system transaction comes before it, and it is none. -/
  | traced {s' s'' : S} {frame : α}
      (hbefore : ∀ t ∈ txsBefore txs tx.txHash, evm.isMagic t.signature = false)
      (hplain : evm.isMagic tx.signature = false)
      (hrun : runAll evm s (txsBefore txs tx.txHash) = .ok s')
      (hfound : replayUntil evm tx.txHash (txs.zipIdx start) s
        = .ok (some (tx, start + (txsBefore txs tx.txHash).length, s')))
      (htrace : trace (start + (txsBefore txs tx.txHash).length) tx s' = .ok (frame, s''))
      (hframes : framesOf tx.txHash frames = [frame])
  /-- It is the first system transaction. -/
  | system {s' : S}
      (hbefore : ∀ t ∈ txsBefore txs tx.txHash, evm.isMagic t.signature = false)
      (hsystem : evm.isMagic tx.signature = true)
      (hrun : runAll evm s (txsBefore txs tx.txHash) = .ok s')
      (hfound : replayUntil evm tx.txHash (txs.zipIdx start) s
        = .ok (some (tx, start + (txsBefore txs tx.txHash).length, s')))
      (hframes : framesOf tx.txHash frames = [])
  /-- A system transaction comes before it. -/
  | behind
      (hbefore : ∃ t ∈ txsBefore txs tx.txHash, evm.isMagic t.signature = true)
      (hfound : replayUntil evm tx.txHash (txs.zipIdx start) s = .ok none)
      (hframes : framesOf tx.txHash frames = [])

variable {trace : Nat → RecoveredTx P → S → Except ε (α × S)} {txs : List (RecoveredTx P)}
  {frames : List (B256 × α)}

/-- What the block-level loop does with its first transaction. -/
theorem traceLoop_cons {idx : Nat} {isMagic : Signature → Bool} {txns : List (RecoveredTx P × Nat)}
    (h : traceLoop isMagic trace ((tx, idx) :: txns) s = .ok frames) :
    (isMagic tx.signature = true ∧ frames = [])
      ∨ (isMagic tx.signature = false ∧ ∃ frame s' rest, trace idx tx s = .ok (frame, s')
        ∧ traceLoop isMagic trace txns s' = .ok rest ∧ frames = (tx.txHash, frame) :: rest) := by
  unfold traceLoop at h
  split at h
  · rename_i hmagic
    exact Or.inl ⟨hmagic, (Except.ok.inj h).symm⟩
  · rename_i hmagic
    obtain ⟨⟨frame, s'⟩, hframe, h⟩ := bind_ok h
    obtain ⟨rest, hrest, hout⟩ := bind_ok h
    exact Or.inr ⟨Bool.eq_false_iff.mpr hmagic, frame, s', rest, hframe, hrest,
      (Except.ok.inj hout).symm⟩

/-- Each frame was traced from a transaction of the block, and has its hash. -/
theorem traceLoop_mem {isMagic : Signature → Bool} :
    ∀ {txs : List (RecoveredTx P)} {start : Nat} {s : S} {frames : List (B256 × α)},
      traceLoop isMagic trace (txs.zipIdx start) s = .ok frames →
      ∀ frame ∈ frames, ∃ tx ∈ txs, frame.1 = tx.txHash
        ∧ ∃ idx s s', trace idx tx s = .ok (frame.2, s')
  | [], _, _, _, h => by
      rw [← Except.ok.inj h]
      simp
  | t :: txs, start, s, frames, h => by
      rw [List.zipIdx_cons] at h
      rcases traceLoop_cons h with ⟨_, hnil⟩ | ⟨_, frame, s', rest, hframe, hrest, hcons⟩
      · rw [hnil]
        simp
      · rw [hcons]
        intro f hf
        rcases List.mem_cons.mp hf with rfl | hf
        · exact ⟨t, List.mem_cons_self, rfl, _, _, _, hframe⟩
        · obtain ⟨tx, htx, htraced⟩ := traceLoop_mem hrest f hf
          exact ⟨tx, List.mem_cons_of_mem _ htx, htraced⟩

theorem framesOf_eq_nil {txHash : B256} (h : ∀ frame ∈ frames, frame.1 ≠ txHash) :
    framesOf txHash frames = [] := by
  unfold framesOf
  rw [List.filter_eq_nil_iff.mpr fun frame hframe => by simpa using h frame hframe]
  rfl

theorem txsBefore_self : txsBefore (tx :: txs) tx.txHash = [] := by
  unfold txsBefore
  rw [List.takeWhile_cons_of_neg (by simp)]

theorem txsBefore_cons {t : RecoveredTx P} (h : t.txHash ≠ tx.txHash) :
    txsBefore (t :: txs) tx.txHash = t :: txsBefore txs tx.txHash := by
  unfold txsBefore
  rw [List.takeWhile_cons_of_pos (by simpa using h)]

/-- The target is the first transaction. -/
theorem located_self {start : Nat}
    (h : traceLoop evm.isMagic trace ((tx :: txs).zipIdx start) s = .ok frames)
    (hfresh : tx.txHash ∉ txs.map RecoveredTx.txHash) :
    Located evm trace (tx :: txs) start s tx frames := by
  rw [List.zipIdx_cons] at h
  have hbefore : ∀ t ∈ txsBefore (tx :: txs) tx.txHash, evm.isMagic t.signature = false := by
    rw [txsBefore_self]
    simp
  have hrun : runAll evm s (txsBefore (tx :: txs) tx.txHash) = .ok s := by
    rw [txsBefore_self]
    rfl
  have hfound : replayUntil evm tx.txHash ((tx :: txs).zipIdx start) s
      = .ok (some (tx, start + (txsBefore (tx :: txs) tx.txHash).length, s)) := by
    rw [txsBefore_self, List.zipIdx_cons]
    unfold replayUntil
    rw [if_pos rfl]
    rfl
  rcases traceLoop_cons h with ⟨hmagic, hnil⟩ | ⟨hplain, frame, s', rest, hframe, hrest, hcons⟩
  · refine Located.system hbefore hmagic hrun hfound ?_
    rw [hnil]
    rfl
  · have hframes : framesOf tx.txHash frames = [frame] := by
      have hnone : framesOf tx.txHash rest = [] := by
        refine framesOf_eq_nil fun f hf heq => hfresh ?_
        obtain ⟨t, ht, hlabel, _⟩ := traceLoop_mem hrest f hf
        rw [← heq, hlabel]
        exact List.mem_map_of_mem ht
      unfold framesOf at hnone ⊢
      rw [hcons, List.filter_cons_of_pos (by simp), List.map_cons, hnone]
    have htrace : trace (start + (txsBefore (tx :: txs) tx.txHash).length) tx s
        = .ok (frame, s') := by
      rw [txsBefore_self]
      exact hframe
    exact Located.traced hbefore hplain hrun hfound htrace hframes

/-- The target comes behind a transaction that both loops run. -/
theorem Located.cons {start : Nat} {t : RecoveredTx P} {frame : α}
    (h : Located evm trace txs (start + 1) s' tx frames) (hhash : t.txHash ≠ tx.txHash)
    (hplain : evm.isMagic t.signature = false) (hrunTx : evm.runTx s t = .ok s') :
    Located evm trace (t :: txs) start s tx ((t.txHash, frame) :: frames) := by
  have hreplay : replayUntil evm tx.txHash ((t :: txs).zipIdx start) s
      = replayUntil evm tx.txHash (txs.zipIdx (start + 1)) s' := by
    rw [List.zipIdx_cons]
    conv_lhs => unfold replayUntil
    rw [if_neg hhash, if_neg (by simp [hplain]), hrunTx]
    rfl
  have hrunAll : ∀ front, runAll evm s (t :: front) = runAll evm s' front := by
    intro front
    unfold runAll
    rw [List.foldlM_cons, hrunTx]
    rfl
  have hlen : start + (txsBefore (t :: txs) tx.txHash).length
      = start + 1 + (txsBefore txs tx.txHash).length := by
    rw [txsBefore_cons hhash, List.length_cons]
    omega
  have hframesOf :
      framesOf tx.txHash ((t.txHash, frame) :: frames) = framesOf tx.txHash frames := by
    unfold framesOf
    rw [List.filter_cons_of_neg (by simpa using hhash)]
  have hall (hbefore : ∀ t ∈ txsBefore txs tx.txHash, evm.isMagic t.signature = false) :
      ∀ b ∈ txsBefore (t :: txs) tx.txHash, evm.isMagic b.signature = false := by
    rw [txsBefore_cons hhash]
    exact List.forall_mem_cons.mpr ⟨hplain, hbefore⟩
  cases h with
  | traced hbefore htarget hrun hfound htrace hframes =>
      rw [← hrunAll, ← txsBefore_cons hhash] at hrun
      rw [← hreplay, ← hlen] at hfound
      rw [← hlen] at htrace
      exact Located.traced (hall hbefore) htarget hrun hfound htrace (hframesOf.trans hframes)
  | system hbefore hsystem hrun hfound hframes =>
      rw [← hrunAll, ← txsBefore_cons hhash] at hrun
      rw [← hreplay, ← hlen] at hfound
      exact Located.system (hall hbefore) hsystem hrun hfound (hframesOf.trans hframes)
  | behind hbefore hfound hframes =>
      obtain ⟨b, hb, hmagic⟩ := hbefore
      refine Located.behind ⟨b, ?_, hmagic⟩ (hreplay.trans hfound) (hframesOf.trans hframes)
      rw [txsBefore_cons hhash]
      exact List.mem_cons_of_mem _ hb

/-- **The two loops meet.** If a block-level loop succeeds, a transaction-level one finds the
state it traced each transaction on. -/
theorem located (hcommits : Commits evm trace) :
    ∀ {txs : List (RecoveredTx P)} {start : Nat} {s : S} {frames : List (B256 × α)},
      traceLoop evm.isMagic trace (txs.zipIdx start) s = .ok frames →
      (txs.map RecoveredTx.txHash).Nodup → tx ∈ txs → Located evm trace txs start s tx frames
  | [], _, _, _, _, _, htx => absurd htx (by simp)
  | t :: txs, start, s, frames, h, hnodup, htx => by
      rw [List.map_cons, List.nodup_cons] at hnodup
      obtain ⟨hfresh, hnodup⟩ := hnodup
      by_cases hhash : t.txHash = tx.txHash
      · have htarget : tx = t := by
          rcases List.mem_cons.mp htx with heq | htail
          · exact heq
          · rw [hhash] at hfresh
            exact absurd (List.mem_map_of_mem htail) hfresh
        subst htarget
        exact located_self h hfresh
      · have htail : tx ∈ txs := by
          rcases List.mem_cons.mp htx with heq | htail
          · exact absurd (congrArg RecoveredTx.txHash heq.symm) hhash
          · exact htail
        rw [List.zipIdx_cons] at h
        rcases traceLoop_cons h with
          ⟨hmagic, hnil⟩ | ⟨hplain, frame, s', rest, hframe, hrest, hcons⟩
        · -- the block-level loop stops here, and so does the other one
          refine Located.behind ⟨t, ?_, hmagic⟩ ?_ ?_
          · rw [txsBefore_cons hhash]
            exact List.mem_cons_self
          · rw [List.zipIdx_cons]
            unfold replayUntil
            rw [if_neg hhash, if_pos hmagic]
          · rw [hnil]
            rfl
        · rw [hcons]
          exact (located hcommits hrest hnodup htail).cons hhash hplain (hcommits _ _ _ _ _ hframe)

/-! ## Agreement -/

/-- A transaction-level call returned something exactly if the block-level one has entries for
the transaction, and then it returned these. -/
def SameFrames {β : Type} (answer : Option (List β)) (entries : List β) : Prop :=
  (answer.isSome = true ↔ entries ≠ []) ∧ ∀ frames, answer = some frames → frames = entries

/-- The frame a transaction-level call makes of its target. -/
def targetFrame (evm : Revm P S R I C F) (trace : Nat → RecoveredTx P → S → Except ε (α × S))
    (txs : List (RecoveredTx P)) (s : S) (txHash : B256) : Option α :=
  match replayUntil evm txHash txs.zipIdx s with
  | .ok (some (tx, idx, s)) => (trace idx tx s).toOption.map Prod.fst
  | _ => none

/-- The transaction is the first system transaction of its block, and it can be traced on the
state the transactions before it leave. -/
def SystemTraced (evm : Revm P S R I C F) (trace : Nat → RecoveredTx P → S → Except ε (α × S))
    (txs : List (RecoveredTx P)) (s : S) (tx : RecoveredTx P) : Prop :=
  (∀ t ∈ txsBefore txs tx.txHash, evm.isMagic t.signature = false)
    ∧ evm.isMagic tx.signature = true
    ∧ ∃ s' out, runAll evm s (txsBefore txs tx.txHash) = .ok s'
      ∧ trace (txsBefore txs tx.txHash).length tx s' = .ok out

/-- **The two calls agree** but for a system transaction that is traced. -/
theorem Located.sameFrames_iff {β : Type} {g : α → List β}
    (h : Located evm trace txs 0 s tx frames)
    (hg : ∀ idx tx s frame s', trace idx tx s = .ok (frame, s') → g frame ≠ []) :
    SameFrames ((targetFrame evm trace txs s tx.txHash).map g)
        ((framesOf tx.txHash frames).flatMap g)
      ↔ ¬ SystemTraced evm trace txs s tx := by
  have hnothing : SameFrames (none : Option (List β)) [] := by
    refine ⟨by simp, fun frames h => by cases h⟩
  unfold targetFrame
  cases h with
  | @traced s' s'' frame hbefore hplain hrun hfound htrace hframes =>
      rw [hfound, hframes]
      dsimp only
      rw [htrace]
      refine ⟨fun _ hsystem => ?_, fun _ => ⟨?_, fun fs hfs => ?_⟩⟩
      · rw [hsystem.2.1] at hplain
        cases hplain
      · simpa [Except.toOption] using hg _ _ _ _ _ htrace
      · simpa [Except.toOption] using hfs.symm
  | @system s' hbefore hsystem hrun hfound hframes =>
      rw [hfound, hframes]
      dsimp only
      rw [Nat.zero_add]
      cases hout : trace (txsBefore txs tx.txHash).length tx s' with
      | ok out =>
          refine ⟨fun hsame => absurd (hsame.1.mp rfl) (by simp), fun hnot => ?_⟩
          exact absurd ⟨hbefore, hsystem, s', out, hrun, hout⟩ hnot
      | error e =>
          refine ⟨fun _ htraced => ?_, fun _ => hnothing⟩
          obtain ⟨_, _, s'', out, hrun', hout'⟩ := htraced
          rw [hrun] at hrun'
          rw [← Except.ok.inj hrun', hout] at hout'
          cases hout'
  | behind hbefore hfound hframes =>
      rw [hfound, hframes]
      refine ⟨fun _ htraced => ?_, fun _ => hnothing⟩
      obtain ⟨b, hb, hmagic⟩ := hbefore
      rw [htraced.1 b hb] at hmagic
      cases hmagic

/-! ## The endpoints -/

/-- A block as storage has it: its header, its transactions with distinct hashes, each found
by its hash, and the EVM on the state before it. -/
structure StoredBlock (ctx : TraceCtx P S) (number : Nat) (header : StoredHeader)
    (txs : List (RecoveredTx P)) (s : S) : Prop where
  resolved : ctx.resolveHeader (.number (.number number)) = .ok (some header)
  numbered : header.header.number = number
  transactions : ctx.getTransactionsInBlock number = .ok txs
  distinct : (txs.map RecoveredTx.txHash).Nodup
  confirmed : ∀ tx ∈ txs,
    ctx.getTxByHash tx.txHash = .ok (some (tx, ⟨number, header.header.hash⟩))
  state : ctx.evmAtHeight (number - 1) header = .ok s

/-- How the `debug` namespace traces a transaction of a block. -/
def gethTracer (evm : Revm P S R I C F) (header : StoredHeader)
    (opts : GethDebugTracingOptions C) (idx : Nat) (tx : RecoveredTx P) (s : S) :
    Except DebugError (F × S) :=
  Rpc.trace evm opts (txInfo header header.header.hash idx tx) s tx

/-- How `trace_block` and `trace_transaction` trace a transaction of a block. -/
def localizedTracer (evm : Revm P S R I C F) (header : StoredHeader) (idx : Nat)
    (tx : RecoveredTx P) (s : S) : Except TraceError (List (LocalizedTransactionTrace F) × S) :=
  (traceParityLocalized evm (txInfo header header.header.hash idx tx) s tx).mapError .tracerHalt

/-- How the replaying endpoints trace a transaction of a block. -/
def replayTracer (evm : Revm P S R I C F) (traceTypes : C) (_ : Nat) (tx : RecoveredTx P) (s : S) :
    Except TraceError (F × S) :=
  (traceParityReplay evm traceTypes s tx).mapError .tracerHalt

variable {ctx : TraceCtx P S} {number : Nat} {header : StoredHeader}

theorem StoredBlock.debugTransaction (hblock : StoredBlock ctx number header txs s) (htx : tx ∈ txs)
    (opts : GethDebugTracingOptions C) :
    (Debug.traceTransaction evm ctx tx.txHash opts).toOption
      = targetFrame evm (gethTracer evm header opts) txs s tx.txHash := by
  unfold Debug.traceTransaction targetFrame
  rw [mapError_bind (hblock.confirmed tx htx)]
  dsimp only
  rw [mapError_bind hblock.resolved]
  dsimp only
  rw [mapError_bind hblock.transactions, mapError_bind hblock.state]
  cases replayUntil evm tx.txHash txs.zipIdx s with
  | error e => rfl
  | ok found =>
      rcases found with _ | ⟨target, idx, s'⟩
      · rfl
      · rw [mapError_bind rfl]
        dsimp only
        unfold gethTracer
        cases Rpc.trace evm opts (txInfo header header.header.hash idx target) s' target <;> rfl

theorem StoredBlock.traceTransaction (hblock : StoredBlock ctx number header txs s)
    (htx : tx ∈ txs) :
    (Trace.traceTransaction evm ctx tx.txHash).toOption.join
      = targetFrame evm (localizedTracer evm header) txs s tx.txHash := by
  unfold Trace.traceTransaction targetFrame
  rw [mapError_bind (hblock.confirmed tx htx)]
  dsimp only
  rw [mapError_bind hblock.resolved]
  dsimp only
  rw [mapError_bind hblock.transactions, mapError_bind hblock.state]
  cases replayUntil evm tx.txHash txs.zipIdx s with
  | error e => rfl
  | ok found =>
      rcases found with _ | ⟨target, idx, s'⟩
      · rfl
      · rw [mapError_bind rfl]
        dsimp only
        unfold localizedTracer
        cases traceParityLocalized evm (txInfo header header.header.hash idx target) s' target
        · rfl
        · rfl

theorem StoredBlock.replayTransaction (hblock : StoredBlock ctx number header txs s)
    (htx : tx ∈ txs) (traceTypes : C) :
    (Trace.replayTransaction evm ctx tx.txHash traceTypes).toOption
      = targetFrame evm (replayTracer evm traceTypes) txs s tx.txHash := by
  unfold Trace.replayTransaction targetFrame
  rw [mapError_bind (hblock.confirmed tx htx)]
  dsimp only
  rw [mapError_bind hblock.resolved]
  dsimp only
  rw [mapError_bind hblock.transactions, mapError_bind hblock.state]
  cases replayUntil evm tx.txHash txs.zipIdx s with
  | error e => rfl
  | ok found =>
      rcases found with _ | ⟨target, idx, s'⟩
      · rfl
      · rw [mapError_bind rfl]
        dsimp only
        unfold replayTracer
        cases traceParityReplay evm traceTypes s' target <;> rfl

/-- The block endpoints open the state below the header's own number. -/
theorem StoredBlock.stateBefore (hblock : StoredBlock ctx number header txs s) :
    ctx.evmAtHeight (header.header.number - 1) header = .ok s := by
  rw [hblock.numbered]
  exact hblock.state

theorem StoredBlock.debugBlock (hblock : StoredBlock ctx number header txs s) {id : BlockId}
    (hid : ctx.resolveBlockId id = .ok number) {opts : GethDebugTracingOptions C}
    {results : List (TraceResult F)} (h : Debug.traceBlock evm ctx id opts = .ok results) :
    ∃ frames, traceLoop evm.isMagic (gethTracer evm header opts) txs.zipIdx s = .ok frames
      ∧ results = frames.map fun frame => ⟨frame.2, some frame.1⟩ := by
  unfold Debug.traceBlock at h
  rw [mapError_bind hid, mapError_bind hblock.resolved] at h
  dsimp only at h
  rw [mapError_bind hblock.transactions, mapError_bind hblock.stateBefore] at h
  obtain ⟨frames, hframes, hout⟩ := bind_ok h
  exact ⟨frames, hframes, (Except.ok.inj hout).symm⟩

theorem StoredBlock.traceBlock (hblock : StoredBlock ctx number header txs s)
    {id : BlockNumberOrTag} (hid : ctx.resolveBlockId (.number id) = .ok number)
    {traces : List (LocalizedTransactionTrace F)}
    (h : Trace.traceBlock evm ctx id = .ok (some traces)) :
    ∃ frames, traceLoop evm.isMagic (localizedTracer evm header) txs.zipIdx s = .ok frames
      ∧ traces = frames.flatMap Prod.snd := by
  unfold Trace.traceBlock at h
  rw [mapError_bind hid, mapError_bind hblock.resolved] at h
  dsimp only at h
  rw [mapError_bind hblock.transactions, mapError_bind hblock.stateBefore] at h
  obtain ⟨traces', htraces, hout⟩ := bind_ok h
  obtain ⟨frames, hframes, hflat⟩ := bind_ok htraces
  refine ⟨frames, hframes, ?_⟩
  rw [← Option.some.inj (Except.ok.inj hout), ← Except.ok.inj hflat]

theorem StoredBlock.replayBlock (hblock : StoredBlock ctx number header txs s)
    {id : BlockNumberOrTag} (hid : ctx.resolveBlockId (.number id) = .ok number) {traceTypes : C}
    {results : List (TraceResultsWithTransactionHash F)}
    (h : Trace.replayBlockTransactions evm ctx id traceTypes = .ok (some results)) :
    ∃ frames, traceLoop evm.isMagic (replayTracer evm traceTypes) txs.zipIdx s = .ok frames
      ∧ results = frames.map fun frame => ⟨frame.2, frame.1⟩ := by
  unfold Trace.replayBlockTransactions at h
  rw [mapError_bind hid, mapError_bind hblock.resolved] at h
  dsimp only at h
  rw [mapError_bind hblock.transactions, mapError_bind hblock.stateBefore] at h
  obtain ⟨results', hresults, hout⟩ := bind_ok h
  obtain ⟨frames, hframes, hmap⟩ := bind_ok hresults
  refine ⟨frames, hframes, ?_⟩
  rw [← Option.some.inj (Except.ok.inj hout), ← Except.ok.inj hmap]

/-! ## The entries of a transaction -/

/-- The frames `debug_traceBlock` returned for a transaction. -/
def debugEntries (txHash : B256) (results : List (TraceResult F)) : List F :=
  (results.filter fun r => r.txHash = some txHash).map TraceResult.result

/-- The traces `trace_block` returned for a transaction. -/
def localizedEntries (txHash : B256) (traces : List (LocalizedTransactionTrace F)) :
    List (LocalizedTransactionTrace F) :=
  traces.filter fun l => l.transactionHash = some txHash

/-- The results `trace_replayBlockTransactions` returned for a transaction. -/
def replayEntries (txHash : B256) (results : List (TraceResultsWithTransactionHash F)) : List F :=
  (results.filter fun r => r.transactionHash = txHash).map
    TraceResultsWithTransactionHash.fullTrace

theorem debugEntries_map (txHash : B256) (frames : List (B256 × F)) :
    debugEntries txHash (frames.map fun frame => ⟨frame.2, some frame.1⟩)
      = (framesOf txHash frames).flatMap fun f => [f] := by
  unfold debugEntries framesOf
  have hlabel : ((fun r : TraceResult F => decide (r.txHash = some txHash)) ∘
      fun frame => ⟨frame.2, some frame.1⟩)
      = fun frame : B256 × F => decide (frame.1 = txHash) := by
    funext frame
    simp
  rw [List.flatMap_singleton', List.filter_map, List.map_map, hlabel]
  rfl

theorem replayEntries_map (txHash : B256) (frames : List (B256 × F)) :
    replayEntries txHash (frames.map fun frame => ⟨frame.2, frame.1⟩)
      = (framesOf txHash frames).flatMap fun f => [f] := by
  unfold replayEntries framesOf
  rw [List.flatMap_singleton', List.filter_map, List.map_map]
  rfl

/-- Traces that carry the hash of their transaction are found by it. -/
theorem localizedEntries_flatMap (txHash : B256)
    {frames : List (B256 × List (LocalizedTransactionTrace F))}
    (h : ∀ frame ∈ frames, ∀ l ∈ frame.2, l.transactionHash = some frame.1) :
    localizedEntries txHash (frames.flatMap Prod.snd) = (framesOf txHash frames).flatMap id := by
  unfold localizedEntries framesOf
  induction frames with
  | nil => rfl
  | cons frame frames ih =>
      have hframe := h frame List.mem_cons_self
      rw [List.flatMap_cons, List.filter_append,
        ih fun f hf => h f (List.mem_cons_of_mem _ hf)]
      by_cases hhash : frame.1 = txHash
      · have hall : frame.2.filter (fun l => l.transactionHash = some txHash) = frame.2 := by
          refine List.filter_eq_self.mpr fun l hl => ?_
          rw [hframe l hl, hhash]
          simp
        rw [hall, List.filter_cons_of_pos (by simpa using hhash), List.map_cons, List.flatMap_cons]
        rfl
      · have hnone : frame.2.filter (fun l => l.transactionHash = some txHash) = [] := by
          refine List.filter_eq_nil_iff.mpr fun l hl => ?_
          rw [hframe l hl]
          simpa using hhash
        rw [hnone, List.filter_cons_of_neg (by simpa using hhash), List.nil_append]

/--
**Transaction-level and block-level tracing.** For a stored block with distinct hashes and
a transaction in it, an EVM whose inspectors do not change what a run does, and any tracer
for which the block-level call succeeds: each of the three transaction-level calls agrees
with its block-level one if and only if the transaction is not the first system
transaction of the block, or cannot be traced on the state before it.
-/
theorem tracing_agrees_iff (hevm : evm.Transparent) (hlocal : evm.Localizes)
    (hblock : StoredBlock ctx number header txs s) (htx : tx ∈ txs) :
    (∀ id opts results, ctx.resolveBlockId id = .ok number →
      Debug.traceBlock evm ctx id opts = .ok results →
        (SameFrames ((Debug.traceTransaction evm ctx tx.txHash opts).toOption.map fun f => [f])
            (debugEntries tx.txHash results)
          ↔ ¬ SystemTraced evm (gethTracer evm header opts) txs s tx))
      ∧ (∀ id traces, ctx.resolveBlockId (.number id) = .ok number →
        Trace.traceBlock evm ctx id = .ok (some traces) →
          (SameFrames (Trace.traceTransaction evm ctx tx.txHash).toOption.join
              (localizedEntries tx.txHash traces)
            ↔ ¬ SystemTraced evm (localizedTracer evm header) txs s tx))
      ∧ (∀ id traceTypes results, ctx.resolveBlockId (.number id) = .ok number →
        Trace.replayBlockTransactions evm ctx id traceTypes = .ok (some results) →
          (SameFrames
              ((Trace.replayTransaction evm ctx tx.txHash traceTypes).toOption.map fun f => [f])
              (replayEntries tx.txHash results)
            ↔ ¬ SystemTraced evm (replayTracer evm traceTypes) txs s tx)) := by
  refine ⟨fun blockId opts results hid h => ?_, fun blockId traces hid h => ?_,
    fun blockId traceTypes results hid h => ?_⟩
  · obtain ⟨frames, hframes, hresults⟩ := hblock.debugBlock hid h
    have hcommits : Commits evm (gethTracer evm header opts) :=
      fun _ _ _ _ _ h => trace_runTx hevm h
    rw [hblock.debugTransaction htx, hresults, debugEntries_map]
    exact (located hcommits hframes hblock.distinct htx).sameFrames_iff fun _ _ _ _ _ _ => by simp
  · obtain ⟨frames, hframes, htraces⟩ := hblock.traceBlock hid h
    have hcommits : Commits evm (localizedTracer evm header) :=
      fun _ _ _ _ _ h => traceParityLocalized_runTx hevm (mapError_ok h)
    have hlabelled : ∀ idx tx s fs s', localizedTracer evm header idx tx s = .ok (fs, s') →
        fs ≠ [] ∧ ∀ l ∈ fs, l.transactionHash = some tx.txHash := by
      intro idx tx s fs s' hfs
      obtain ⟨⟨i, t⟩, -, hout⟩ := bind_ok (mapError_ok hfs)
      rw [← (Prod.mk.inj (Except.ok.inj hout)).1]
      exact hlocal _ _
    have hfound := (located hcommits hframes hblock.distinct htx).sameFrames_iff (g := id)
      fun _ _ _ _ _ hfs => (hlabelled _ _ _ _ _ hfs).1
    rw [Option.map_id] at hfound
    rw [hblock.traceTransaction htx, htraces, localizedEntries_flatMap]
    · exact hfound
    · intro frame hframe
      obtain ⟨t, _, hhash, idx, v, v', htrace⟩ := traceLoop_mem hframes frame hframe
      rw [hhash]
      exact (hlabelled _ _ _ _ _ htrace).2
  · obtain ⟨frames, hframes, hresults⟩ := hblock.replayBlock hid h
    have hcommits : Commits evm (replayTracer evm traceTypes) :=
      fun _ _ _ _ _ h => traceParityReplay_runTx hevm (mapError_ok h)
    rw [hblock.replayTransaction htx, hresults, replayEntries_map]
    exact (located hcommits hframes hblock.distinct htx).sameFrames_iff fun _ _ _ _ _ _ => by simp

/-! ## A system transaction that is traced -/

/-- An EVM that counts its transactions, and inspectors that record the count before one. -/
def countingEvm : Revm Unit Nat Nat Nat Unit Nat where
  isMagic := fun signature => signature.r = 0
  run := fun s _ => .ok ⟨s, s + 1⟩
  inspect := fun _ s _ => .ok (s, ⟨s, s + 1⟩)
  commit := fun _ r => r
  gasLimit := fun _ => 21000
  gasUsed := fun _ => 21000
  withTransactionGasLimit := fun i _ => i
  fourByteInspector := 0
  fourByteFrame := id
  noopFrame := 0
  intoCallConfig := some
  fromGethCallConfig := fun _ => 0
  gethCallTraces := fun i _ _ => i
  intoPreStateConfig := some
  fromGethPrestateConfig := fun _ => 0
  gethPrestateTraces := fun i _ _ _ => .ok i
  intoFlatCallConfig := some
  fromFlatCallConfig := fun _ => 0
  intoMuxConfig := some
  muxInspector := fun _ => .ok 0
  muxFrame := fun i _ _ _ => .ok i
  defaultParity := 0
  localizedTraces := fun i info =>
    [⟨i, info.blockHash, info.blockNumber, info.hash, info.index⟩]
  flatCallFrame := fun traces => traces.length
  fromParityConfig := fun _ => 0
  traceResults := fun i _ _ _ => .ok i

def plainTx : RecoveredTx Unit := ⟨1, ⟨7, 7, false⟩, ()⟩

def systemTx : RecoveredTx Unit := ⟨2, ⟨0, 0, false⟩, ()⟩

/-- Block 1 has a transaction and a system transaction. -/
def systemBlock : TraceCtx Unit Nat where
  hotReader := .ok [storedHeader 0, storedHeader 1]
  tags := ⟨1, 0, 0⟩
  getTxByHash := fun txHash => .ok (([plainTx, systemTx].find? fun tx => tx.txHash = txHash).map
    fun tx => (tx, ⟨1, (storedHeader 1).header.hash⟩))
  getTransactionsInBlock := fun _ => .ok [plainTx, systemTx]
  evmAtHeight := fun number _ => .ok number

theorem systemBlock_stored :
    StoredBlock systemBlock 1 (storedHeader 1) [plainTx, systemTx] 0 := by
  refine ⟨rfl, rfl, rfl, by decide, fun tx htx => ?_, rfl⟩
  rcases List.mem_cons.mp htx with rfl | htx
  · rfl
  · rw [List.mem_singleton.mp htx]
    rfl

def callTracer : GethDebugTracingOptions Unit := ⟨some (.builtInTracer .callTracer), ()⟩

/-- The two `debug` calls agree on the transaction before the system transaction. -/
theorem tracing_agrees_iff_plainTx :
    SameFrames ((Debug.traceTransaction countingEvm systemBlock plainTx.txHash
      callTracer).toOption.map fun f => [f]) (debugEntries plainTx.txHash [⟨0, some 1⟩]) := by
  have hevm : countingEvm.Transparent := fun _ _ _ _ _ h => by
    rw [← (Prod.mk.inj (Except.ok.inj h)).2]
    rfl
  have hlocal : countingEvm.Localizes := fun _ _ =>
    ⟨List.cons_ne_nil _ _, fun l hl => by rw [List.mem_singleton.mp hl]⟩
  refine ((tracing_agrees_iff hevm hlocal systemBlock_stored List.mem_cons_self).1
    (.number .latest) callTracer _ rfl rfl).mpr ?_
  rintro ⟨_, hmagic, _⟩
  exact absurd hmagic (by decide)

/-- **A system transaction has a trace of its own, and none in its block**, in all three pairs. -/
theorem systemTx_traced :
    (Debug.traceBlock countingEvm systemBlock (.number .latest) callTracer = .ok [⟨0, some 1⟩]
        ∧ Debug.traceTransaction countingEvm systemBlock systemTx.txHash callTracer = .ok 1)
      ∧ (∃ traces, Trace.traceBlock countingEvm systemBlock .latest = .ok (some traces)
        ∧ localizedEntries systemTx.txHash traces = []
        ∧ (Trace.traceTransaction countingEvm systemBlock systemTx.txHash).toOption.join.isSome)
      ∧ (Trace.replayBlockTransactions countingEvm systemBlock .latest () = .ok (some [⟨0, 1⟩])
        ∧ Trace.replayTransaction countingEvm systemBlock systemTx.txHash () = .ok 1) := by
  refine ⟨⟨rfl, rfl⟩, ⟨_, rfl, ?_, rfl⟩, rfl, rfl⟩
  decide

end NodeComponents.Rpc
