import NodeComponents.Rpc.TraceAgreement

/-!
# Filtering the traces of a range of blocks

`trace_filter` replays the blocks of a range one after another, keeps the traces its
matcher takes, and returns a page of these. It reads each block at instants of its own, and
a client that wants all pages makes one call after another while the chain grows.

`trace_filter_pages`: as long as the blocks of the range stay what they are, each call
returns the page that follows what the client has. `trace_filter_replays_transactions`: what
the pages are cut from is what `trace_transaction` returns for the transactions of the
range, one after another.
-/

namespace NodeComponents.Rpc

open Lib

variable {P S R I C F : Type}

/-! ## The endpoint -/

/-- Parameters of `trace_filter`. The matcher is the one its addresses and mode make. -/
structure TraceFilter (F : Type) where
  fromBlock : Option Nat
  toBlock : Option Nat
  matcher : F → Bool
  after : Option Nat
  count : Option Nat

/-- Errors of `trace_filter`: of its range, or of the blocks it replays. -/
inductive TraceFilterError where
  | trace (e : TraceError)
  | invalidBlockRange (reason : String)
  | blockRangeExceeded (requested max : Nat)
deriving DecidableEq, Repr

/-- What one block is read from: its header, its transactions and the state before it, each at
an instant of its own. -/
structure BlockReads (P S : Type) where
  header : TraceCtx P S
  transactions : TraceCtx P S
  state : TraceCtx P S

/-- The bounds of the range, checked against the latest block. -/
def TraceFilter.range (filter : TraceFilter F) (tags : BlockTags) (max : Nat) :
    Except TraceFilterError (Nat × Nat) :=
  let start := filter.fromBlock.getD 0
  let stop := filter.toBlock.getD tags.latest
  if tags.latest < start then .error (.trace (.blockNotFound (.number (.number start))))
  else if tags.latest < stop then .error (.trace (.blockNotFound (.number (.number stop))))
  else if stop < start then
    .error (.invalidBlockRange "fromBlock cannot be greater than toBlock")
  else if max < stop - start + 1 then .error (.blockRangeExceeded (stop - start + 1) max)
  else .ok (start, stop)

/-- The heights of a range. -/
def heights (start stop : Nat) : List Nat := List.range' start (stop + 1 - start)

/-- The traces that the matcher takes. -/
def retained (matcher : F → Bool) (traces : List (LocalizedTransactionTrace F)) :
    List (LocalizedTransactionTrace F) :=
  traces.filter fun t => matcher t.trace

/-- Replay one block of the range. A height without a header is skipped. -/
def Trace.filterBlock (evm : Revm P S R I C F) (matcher : F → Bool) (reads : BlockReads P S)
    (blockNum : Nat) : Except TraceError (List (LocalizedTransactionTrace F)) := do
  match ← (reads.header.resolveHeader (.number (.number blockNum))).mapError .resolve with
  | none => return []
  | some header =>
    let txs ← (reads.transactions.getTransactionsInBlock blockNum).mapError .cold
    let s ← (reads.state.evmAtHeight (header.header.number - 1) header).mapError .hot
    let traces ← traceBlockLocalized evm header header.header.hash txs s
    return retained matcher traces

/-- The loop over the blocks of the range. -/
def Trace.filterLoop (evm : Revm P S R I C F) (matcher : F → Bool) (reads : Nat → BlockReads P S) :
    List Nat → Except TraceError (List (LocalizedTransactionTrace F))
  | [] => .ok []
  | blockNum :: blockNums => do
    let traces ← Trace.filterBlock evm matcher (reads blockNum) blockNum
    let allTraces ← Trace.filterLoop evm matcher reads blockNums
    return traces ++ allTraces

/-- Skip `after`, limit `count`. -/
def TraceFilter.paginate (filter : TraceFilter F) (allTraces : List (LocalizedTransactionTrace F)) :
    List (LocalizedTransactionTrace F) :=
  let limit (traces : List (LocalizedTransactionTrace F)) :=
    match filter.count with
    | some count => traces.take count
    | none => traces
  match filter.after with
  | some after => if allTraces.length ≤ after then [] else limit (allTraces.drop after)
  | none => limit allTraces

/-- `trace_filter`. -/
def Trace.traceFilter (evm : Revm P S R I C F) (max : Nat) (tags : BlockTags)
    (reads : Nat → BlockReads P S) (filter : TraceFilter F) :
    Except TraceFilterError (List (LocalizedTransactionTrace F)) := do
  let (start, stop) ← filter.range tags max
  let allTraces ← (Trace.filterLoop evm filter.matcher reads (heights start stop)).mapError .trace
  return filter.paginate allTraces

/-- `trace_get`. -/
def Trace.traceGet (evm : Revm P S R I C F) (ctx : TraceCtx P S) (txHash : B256)
    (indices : List Nat) : Except TraceError (Option (LocalizedTransactionTrace F)) :=
  match indices with
  | [index] => do
    let traces ← Trace.traceTransaction evm ctx txHash
    return traces.bind fun traces => traces[index]?
  | _ => .ok none

/-! ## A client that asks for all pages -/

/-- What one call reads: the tags when it starts, then block after block. -/
structure FilterCall (P S : Type) where
  tags : BlockTags
  reads : Nat → BlockReads P S

/-- The last block of the range of a call. -/
def FilterCall.stop (toBlock : Option Nat) (call : FilterCall P S) : Nat :=
  toBlock.getD call.tags.latest

/-- The filter of a client that has received some traces and asks for more. -/
def nextPage (start : Nat) (toBlock : Option Nat) (matcher : F → Bool) (count received : Nat) :
    TraceFilter F :=
  ⟨some start, toBlock, matcher, some received, some count⟩

/-- The client's calls, one after another; it stops at the first that fails. -/
def Trace.filterPages (evm : Revm P S R I C F) (max start : Nat) (toBlock : Option Nat)
    (matcher : F → Bool) (count : Nat) (calls : List (FilterCall P S)) :
    Except TraceFilterError (List (LocalizedTransactionTrace F)) :=
  calls.foldlM (fun received call => do
    let page ← Trace.traceFilter evm max call.tags call.reads
      (nextPage start toBlock matcher count received.length)
    return received ++ page) []

/-! ## What a call returns -/

/-- The traces of a range as `trace_block` returns them at one instant, as far as the matcher
takes them. -/
def wholeTraces (evm : Revm P S R I C F) (ctx : TraceCtx P S) (matcher : F → Bool)
    (blockNums : List Nat) : Except TraceError (List (LocalizedTransactionTrace F)) := do
  let traces ← blockNums.mapM fun n => Trace.traceBlock evm ctx (.number n)
  return retained matcher (traces.flatMap fun t => t.getD [])

/-- A block is read as a context has it. -/
structure BlockReads.SameAs (reads : BlockReads P S) (ctx : TraceCtx P S) (n : Nat) : Prop where
  header : reads.header.resolveHeader (.number (.number n))
    = ctx.resolveHeader (.number (.number n))
  transactions : reads.transactions.getTransactionsInBlock n = ctx.getTransactionsInBlock n
  state : ∀ header, ctx.resolveHeader (.number (.number n)) = .ok (some header) →
    reads.state.evmAtHeight (header.header.number - 1) header
      = ctx.evmAtHeight (header.header.number - 1) header

section

variable {evm : Revm P S R I C F} {ctx : TraceCtx P S} {matcher : F → Bool}

/-- **A block of the range is traced as `trace_block` traces it.** -/
theorem filterBlock_eq {reads : BlockReads P S} {n : Nat} (h : reads.SameAs ctx n) :
    Trace.filterBlock evm matcher reads n
      = (Trace.traceBlock evm ctx (.number n)).map fun t => retained matcher (t.getD []) := by
  have hid : ctx.resolveBlockId (.number (.number n)) = .ok n := rfl
  unfold Trace.filterBlock Trace.traceBlock
  rw [mapError_bind hid, h.header, h.transactions]
  cases hheader : ctx.resolveHeader (.number (.number n)) with
  | error e => rfl
  | ok header =>
      cases header with
      | none => rfl
      | some header =>
          rw [mapError_bind rfl, mapError_bind rfl]
          dsimp only
          rw [h.state header hheader]
          cases ctx.getTransactionsInBlock n with
          | error e => rfl
          | ok txs =>
              rw [mapError_bind rfl, mapError_bind rfl]
              cases ctx.evmAtHeight (header.header.number - 1) header with
              | error e => rfl
              | ok s =>
                  rw [mapError_bind rfl, mapError_bind rfl]
                  cases traceBlockLocalized evm header header.header.hash txs s <;> rfl

theorem retained_append (l m : List (LocalizedTransactionTrace F)) :
    retained matcher (l ++ m) = retained matcher l ++ retained matcher m :=
  List.filter_append _ _

theorem wholeTraces_cons (n : Nat) (ns : List Nat) :
    wholeTraces evm ctx matcher (n :: ns) = (do
      let t ← Trace.traceBlock evm ctx (.number n)
      let traces ← wholeTraces evm ctx matcher ns
      return retained matcher (t.getD []) ++ traces) := by
  unfold wholeTraces
  rw [List.mapM_cons]
  cases Trace.traceBlock evm ctx (.number n) with
  | error e => rfl
  | ok t =>
      cases (ns.mapM fun n => Trace.traceBlock evm ctx (.number n)) with
      | error e => rfl
      | ok ts =>
          show Except.ok (retained matcher ((t :: ts).flatMap fun t => t.getD [])) = _
          rw [List.flatMap_cons, retained_append]
          rfl

theorem wholeTraces_append (ns ms : List Nat) :
    wholeTraces evm ctx matcher (ns ++ ms) = (do
      let front ← wholeTraces evm ctx matcher ns
      let back ← wholeTraces evm ctx matcher ms
      return front ++ back) := by
  induction ns with
  | nil =>
      have hnil : wholeTraces evm ctx matcher [] = .ok [] := rfl
      rw [hnil, List.nil_append]
      cases wholeTraces evm ctx matcher ms <;> rfl
  | cons n ns ih =>
      rw [List.cons_append, wholeTraces_cons, wholeTraces_cons, ih]
      cases Trace.traceBlock evm ctx (.number n) with
      | error e => rfl
      | ok t =>
          cases wholeTraces evm ctx matcher ns with
          | error e => rfl
          | ok front =>
              cases wholeTraces evm ctx matcher ms with
              | error e => rfl
              | ok back =>
                  show Except.ok (_ ++ (front ++ back)) = Except.ok (_ ++ front ++ back)
                  rw [List.append_assoc]

/-- The loop over the range returns what the blocks hold at one instant. -/
theorem filterLoop_eq {reads : Nat → BlockReads P S} :
    ∀ {ns : List Nat}, (∀ n ∈ ns, (reads n).SameAs ctx n) →
      Trace.filterLoop evm matcher reads ns = wholeTraces evm ctx matcher ns
  | [], _ => rfl
  | n :: ns, h => by
      rw [wholeTraces_cons]
      unfold Trace.filterLoop
      rw [filterBlock_eq (h n List.mem_cons_self),
        filterLoop_eq fun m hm => h m (List.mem_cons_of_mem _ hm)]
      cases Trace.traceBlock evm ctx (.number n) <;> rfl

theorem mem_heights {start stop n : Nat} : n ∈ heights start stop ↔ start ≤ n ∧ n ≤ stop := by
  unfold heights
  rw [List.mem_range'_1]
  omega

/-- A range that ends later only adds blocks. -/
theorem heights_append (start : Nat) {stop stop' : Nat} (h : stop ≤ stop') :
    ∃ more, heights start stop' = heights start stop ++ more := by
  refine ⟨List.range' (start + (stop + 1 - start)) (stop' + 1 - start - (stop + 1 - start)), ?_⟩
  unfold heights
  rw [List.range'_append_1]
  congr 1
  omega

/-- **The traces of a longer range begin with those of a shorter one**, and a block that cannot
be traced fails both. -/
theorem wholeTraces_later (evm : Revm P S R I C F) (ctx : TraceCtx P S) (matcher : F → Bool)
    (start : Nat) {stop stop' : Nat} (h : stop ≤ stop') :
    (∀ whole, wholeTraces evm ctx matcher (heights start stop') = .ok whole →
      ∃ front, wholeTraces evm ctx matcher (heights start stop) = .ok front ∧ front <+: whole)
      ∧ ∀ e, wholeTraces evm ctx matcher (heights start stop) = .error e →
        wholeTraces evm ctx matcher (heights start stop') = .error e := by
  obtain ⟨more, hmore⟩ := heights_append start h
  rw [hmore, wholeTraces_append]
  refine ⟨fun whole hwhole => ?_, fun e he => ?_⟩
  · obtain ⟨front, hfront, hwhole⟩ := bind_ok hwhole
    obtain ⟨back, -, hout⟩ := bind_ok hwhole
    exact ⟨front, hfront, back, Except.ok.inj hout⟩
  · rw [he]
    rfl

theorem paginate_nextPage {start : Nat} {toBlock : Option Nat} (count received : Nat)
    (allTraces : List (LocalizedTransactionTrace F)) :
    (nextPage start toBlock matcher count received).paginate allTraces
      = (allTraces.drop received).take count := by
  show (if allTraces.length ≤ received then [] else _) = _
  split
  · rename_i hall
    rw [List.drop_eq_nil_of_le hall, List.take_nil]
  · rfl

/-! ## Pages -/

/-- A call whose range is accepted, and whose blocks are read as a context has them. -/
structure FilterCall.Reads (call : FilterCall P S) (ctx : TraceCtx P S) (max start : Nat)
    (toBlock : Option Nat) : Prop where
  nonempty : start ≤ call.stop toBlock
  known : call.stop toBlock ≤ call.tags.latest
  short : call.stop toBlock - start + 1 ≤ max
  same : ∀ n, start ≤ n → n ≤ call.stop toBlock → (call.reads n).SameAs ctx n

variable {max start : Nat} {toBlock : Option Nat} {count : Nat}

theorem FilterCall.Reads.range {call : FilterCall P S} (h : call.Reads ctx max start toBlock)
    (received : Nat) :
    (nextPage start toBlock matcher count received).range call.tags max
      = .ok (start, call.stop toBlock) := by
  have hstart : start ≤ call.tags.latest := Nat.le_trans h.nonempty h.known
  show (if call.tags.latest < start then _ else if call.tags.latest < call.stop toBlock then _
    else if call.stop toBlock < start then _
    else if max < call.stop toBlock - start + 1 then _ else _) = _
  rw [if_neg (Nat.not_lt.mpr hstart), if_neg (Nat.not_lt.mpr h.known),
    if_neg (Nat.not_lt.mpr h.nonempty), if_neg (Nat.not_lt.mpr h.short)]
  rfl

/-- One call: what comes after the traces that were received. -/
theorem FilterCall.Reads.traceFilter {call : FilterCall P S}
    (h : call.Reads ctx max start toBlock) (received : Nat) :
    Trace.traceFilter evm max call.tags call.reads (nextPage start toBlock matcher count received)
      = ((wholeTraces evm ctx matcher (heights start (call.stop toBlock))).mapError .trace).map
        fun whole => (whole.drop received).take count := by
  have hloop : Trace.filterLoop evm matcher call.reads (heights start (call.stop toBlock))
      = wholeTraces evm ctx matcher (heights start (call.stop toBlock)) :=
    filterLoop_eq fun n hn => h.same n (mem_heights.mp hn).1 (mem_heights.mp hn).2
  unfold Trace.traceFilter
  rw [h.range received]
  show ((Trace.filterLoop evm matcher call.reads (heights start (call.stop toBlock))).mapError
    TraceFilterError.trace).bind _ = _
  rw [hloop]
  cases wholeTraces evm ctx matcher (heights start (call.stop toBlock)) with
  | error e => rfl
  | ok whole =>
      show Except.ok ((nextPage start toBlock matcher count received).paginate whole) = _
      rw [paginate_nextPage]
      rfl

/-- What was received, and the next page of what it is a beginning of. -/
theorem append_page {α : Type} {received whole : List α} (h : received <+: whole) (count : Nat) :
    received ++ (whole.drop received.length).take count
      = whole.take (received.length + count) := by
  obtain ⟨rest, rfl⟩ := h
  rw [List.drop_left, List.take_length_add_append]

theorem filterPages_concat (calls : List (FilterCall P S)) (last : FilterCall P S) :
    Trace.filterPages evm max start toBlock matcher count (calls ++ [last]) = (do
      let received ← Trace.filterPages evm max start toBlock matcher count calls
      let page ← Trace.traceFilter evm max last.tags last.reads
        (nextPage start toBlock matcher count received.length)
      return received ++ page) := by
  unfold Trace.filterPages
  simp only [List.foldlM_append, List.foldlM_cons, List.foldlM_nil, bind_pure]

/-- **One more call.** -/
theorem filterPages_next {calls : List (FilterCall P S)} {last : FilterCall P S}
    {received : List (LocalizedTransactionTrace F)}
    (hlast : last.Reads ctx max start toBlock)
    (h : Trace.filterPages evm max start toBlock matcher count calls = .ok received) :
    (∀ whole, wholeTraces evm ctx matcher (heights start (last.stop toBlock)) = .ok whole →
      received <+: whole →
      Trace.filterPages evm max start toBlock matcher count (calls ++ [last])
        = .ok (whole.take (received.length + count)))
      ∧ ∀ e, wholeTraces evm ctx matcher (heights start (last.stop toBlock)) = .error e →
        Trace.filterPages evm max start toBlock matcher count (calls ++ [last])
          = .error (.trace e) := by
  rw [filterPages_concat, h]
  show (∀ whole, _ → _ → (Trace.traceFilter evm max last.tags last.reads
      (nextPage start toBlock matcher count received.length)).bind _ = _)
    ∧ ∀ e, _ → (Trace.traceFilter evm max last.tags last.reads
      (nextPage start toBlock matcher count received.length)).bind _ = _
  rw [hlast.traceFilter]
  refine ⟨fun whole hwhole hbegin => ?_, fun e he => ?_⟩
  · rw [hwhole, ← append_page hbegin]
    rfl
  · rw [he]
    rfl

/-- No call ends its range before an earlier one. -/
def EndsGrow (toBlock : Option Nat) (calls : List (FilterCall P S)) : Prop :=
  (calls.map (FilterCall.stop toBlock)).Pairwise (· ≤ ·)

theorem EndsGrow.concat {calls : List (FilterCall P S)} {last : FilterCall P S}
    (h : EndsGrow toBlock (calls ++ [last])) :
    EndsGrow toBlock calls ∧ ∀ call ∈ calls, call.stop toBlock ≤ last.stop toBlock := by
  unfold EndsGrow at h
  rw [List.map_append, List.pairwise_append] at h
  obtain ⟨hcalls, -, hle⟩ := h
  exact ⟨hcalls, fun call hcall => hle _ (List.mem_map_of_mem hcall) _ List.mem_cons_self⟩

/-- **What was received is a beginning of the traces of the range**, wherever above the ends of
the calls the range is cut. If they cannot all be traced, the calls fail as they do or stop
below the block. -/
theorem filterPages_begins {calls : List (FilterCall P S)} :
    ∀ {stop : Nat}, EndsGrow toBlock calls → (∀ call ∈ calls, call.stop toBlock ≤ stop) →
      (∀ call ∈ calls, call.Reads ctx max start toBlock) →
      (∀ whole, wholeTraces evm ctx matcher (heights start stop) = .ok whole →
        ∃ received, Trace.filterPages evm max start toBlock matcher count calls = .ok received
          ∧ received <+: whole)
        ∧ ∀ e, wholeTraces evm ctx matcher (heights start stop) = .error e →
          Trace.filterPages evm max start toBlock matcher count calls = .error (.trace e)
            ∨ ∃ received,
              Trace.filterPages evm max start toBlock matcher count calls = .ok received := by
  induction calls using List.reverseRecOn with
  | nil =>
      intro _ _ _ _
      exact ⟨fun whole _ => ⟨[], rfl, List.nil_prefix⟩, fun _ _ => Or.inr ⟨[], rfl⟩⟩
  | append_singleton calls last ih =>
      intro stop hgrow hstop hreads
      obtain ⟨hgrow, hle⟩ := hgrow.concat
      have hlast := hreads last (List.mem_append_right _ List.mem_cons_self)
      have hbelow : last.stop toBlock ≤ stop :=
        hstop last (List.mem_append_right _ List.mem_cons_self)
      obtain ⟨hok, herror⟩ :=
        ih hgrow hle fun call hcall => hreads call (List.mem_append_left _ hcall)
      obtain ⟨hshorter, hfails⟩ :=
        wholeTraces_later evm ctx matcher start hbelow
      refine ⟨fun whole hwhole => ?_, fun e he => ?_⟩
      · obtain ⟨front, hfront, hbegin⟩ := hshorter whole hwhole
        obtain ⟨received, hreceived, hbefore⟩ := hok front hfront
        exact ⟨_, (filterPages_next hlast hreceived).1 front hfront hbefore,
          (List.take_prefix _ _).trans hbegin⟩
      · cases hfront : wholeTraces evm ctx matcher (heights start (last.stop toBlock)) with
        | ok front =>
            obtain ⟨received, hreceived, hbefore⟩ := hok front hfront
            exact Or.inr ⟨_, (filterPages_next hlast hreceived).1 front hfront hbefore⟩
        | error e' =>
            obtain rfl : e' = e := Except.error.inj ((hfails e' hfront).symm.trans he)
            refine Or.inl ?_
            rcases herror e' hfront with hfailed | ⟨received, hreceived⟩
            · rw [filterPages_concat, hfailed]
              rfl
            · exact (filterPages_next hlast hreceived).2 e' hfront

/-- All calls have the same range: each page is full until the traces run out. -/
theorem filterPages_fixed (count : Nat) {stop : Nat} {whole : List (LocalizedTransactionTrace F)}
    (hwhole : wholeTraces evm ctx matcher (heights start stop) = .ok whole) :
    ∀ {calls : List (FilterCall P S)}, (∀ call ∈ calls, call.stop toBlock = stop) →
      (∀ call ∈ calls, call.Reads ctx max start toBlock) →
      Trace.filterPages evm max start toBlock matcher count calls
        = .ok (whole.take (calls.length * count)) := by
  intro calls
  induction calls using List.reverseRecOn with
  | nil =>
      intro _ _
      rw [List.length_nil, Nat.zero_mul, List.take_zero]
      rfl
  | append_singleton calls last ih =>
      intro hstop hreads
      have hlast := List.mem_append_right calls (List.mem_cons_self (a := last) (l := []))
      have hreceived := ih (fun call hcall => hstop call (List.mem_append_left _ hcall))
        fun call hcall => hreads call (List.mem_append_left _ hcall)
      rw [← hstop last hlast] at hwhole
      rw [(filterPages_next (hreads last hlast) hreceived).1 whole hwhole (List.take_prefix _ _)]
      congr 1
      rw [List.take_eq_take_iff, List.length_take, List.length_append, Nat.add_mul,
        List.length_singleton]
      omega

/--
**Pages of `trace_filter`.** A client asks for the traces of a range page by page, each call
for what comes after what it has. The calls may be made at any times, and read each block
at any instants; with no last block given, the range of each ends at the block that is the
latest when it starts. As long as each call is made for a range that is accepted, and reads
the blocks of it as they are in the end:

* if all of them can be traced, the client has a beginning of their traces before the last
  call, and one of `count` traces more after it; no trace is skipped or returned twice. With
  a last block given, `k` calls return the first `k * count` traces;
* if one of them cannot be traced, a call fails with the error of the first that cannot.
-/
theorem trace_filter_pages {calls : List (FilterCall P S)} {last : FilterCall P S}
    (hgrow : EndsGrow toBlock (calls ++ [last]))
    (hreads : ∀ call ∈ calls ++ [last], call.Reads ctx max start toBlock) :
    (∀ whole, wholeTraces evm ctx matcher (heights start (last.stop toBlock)) = .ok whole →
      (∃ received, Trace.filterPages evm max start toBlock matcher count calls = .ok received
        ∧ received <+: whole
        ∧ Trace.filterPages evm max start toBlock matcher count (calls ++ [last])
          = .ok (whole.take (received.length + count)))
        ∧ (toBlock.isSome →
          Trace.filterPages evm max start toBlock matcher count (calls ++ [last])
            = .ok (whole.take ((calls.length + 1) * count))))
      ∧ ∀ e, wholeTraces evm ctx matcher (heights start (last.stop toBlock)) = .error e →
        Trace.filterPages evm max start toBlock matcher count (calls ++ [last])
          = .error (.trace e) := by
  obtain ⟨hgrow, hle⟩ := hgrow.concat
  have hlast := hreads last (List.mem_append_right _ List.mem_cons_self)
  obtain ⟨hok, herror⟩ :=
    filterPages_begins hgrow hle fun call hcall => hreads call (List.mem_append_left _ hcall)
  refine ⟨fun whole hwhole => ⟨?_, fun hfixed => ?_⟩, fun e he => ?_⟩
  · obtain ⟨received, hreceived, hbefore⟩ := hok whole hwhole
    exact ⟨received, hreceived, hbefore, (filterPages_next hlast hreceived).1 whole hwhole hbefore⟩
  · obtain ⟨stop, rfl⟩ := Option.isSome_iff_exists.mp hfixed
    have hpages := filterPages_fixed count hwhole (fun _ _ => rfl) hreads
    rw [hpages, List.length_append, List.length_singleton]
  · rcases herror e he with hfailed | ⟨received, hreceived⟩
    · rw [filterPages_concat, hfailed]
      rfl
    · exact (filterPages_next hlast hreceived).2 e he

end

/-- The first blocks of a chain: block `n` has one transaction, whose hash is `n`. -/
def numberedChain (latest : Nat) : TraceCtx Unit Nat where
  hotReader := .ok ((List.range (latest + 1)).map storedHeader)
  tags := ⟨latest, 0, 0⟩
  getTxByHash := fun txHash => .ok (some (⟨txHash, ⟨7, 7, false⟩, ()⟩,
    ⟨txHash.toNat, (storedHeader txHash.toNat).header.hash⟩))
  getTransactionsInBlock := fun n => .ok [⟨BitVec.ofNat 256 n, ⟨7, 7, false⟩, ()⟩]
  evmAtHeight := fun number _ => .ok number

/-- A call while a block is the latest. -/
def callAt (latest : Nat) : FilterCall Unit Nat :=
  ⟨⟨latest, 0, 0⟩, fun _ => ⟨numberedChain latest, numberedChain latest, numberedChain latest⟩⟩

theorem callAt_reads {latest : Nat} (hlatest : latest = 1 ∨ latest = 2) :
    (callAt latest).Reads (numberedChain 2) 100 1 none := by
  have hblock (n : Nat) (hn : 1 ≤ n) (hle : n ≤ latest) :
      (numberedChain latest).resolveHeader (.number (.number n))
        = (numberedChain 2).resolveHeader (.number (.number n)) := by
    rcases hlatest with rfl | rfl
    · obtain rfl : n = 1 := by omega
      rfl
    · rfl
  refine ⟨?_, Nat.le_refl _, ?_, fun n hn hle => ⟨hblock n hn hle, rfl, fun _ _ => rfl⟩⟩
  · show 1 ≤ latest
    omega
  · show latest - 1 + 1 ≤ 100
    omega

/-- The traces of blocks 1 and 2. -/
def numberedTraces : List (LocalizedTransactionTrace Nat) :=
  [⟨0, some (storedHeader 1).header.hash, some 1, some 1, some 0⟩,
    ⟨1, some (storedHeader 2).header.hash, some 2, some 2, some 0⟩]

/-- A client asks for one trace at a time, from block 1: once before and once after block 2. -/
theorem trace_filter_pages_growing :
    Trace.filterPages countingEvm 100 1 none (fun _ => true) 1 [callAt 1, callAt 2]
      = .ok numberedTraces := by
  have hgrow : EndsGrow none [callAt 1, callAt 2] :=
    List.pairwise_cons.mpr ⟨by decide, List.pairwise_singleton _ _⟩
  have hreads : ∀ call ∈ [callAt 1] ++ [callAt 2], call.Reads (numberedChain 2) 100 1 none := by
    intro call hcall
    rcases List.mem_cons.mp hcall with rfl | hcall
    · exact callAt_reads (Or.inl rfl)
    · rw [List.mem_singleton.mp hcall]
      exact callAt_reads (Or.inr rfl)
  obtain ⟨received, hreceived, -, hpages⟩ :=
    ((@trace_filter_pages _ _ _ _ _ _ countingEvm (numberedChain 2) (fun _ => true) 100 1 none 1
      [callAt 1] (callAt 2) hgrow hreads).1 numberedTraces rfl).1
  have hfirst : Trace.filterPages countingEvm 100 1 none (fun _ => true) 1 [callAt 1]
      = .ok (numberedTraces.take 1) := rfl
  rw [← Except.ok.inj (hfirst.symm.trans hreceived)] at hpages
  exact hpages

/-! ## The transactions of the range -/

section

variable {evm : Revm P S R I C F} {ctx : TraceCtx P S} {matcher : F → Bool}

/-- The transactions of a block before its first system transaction. -/
def plainTxs (evm : Revm P S R I C F) (txs : List (RecoveredTx P)) : List (RecoveredTx P) :=
  txs.takeWhile fun tx => !evm.isMagic tx.signature

/-- The traces `trace_transaction` has for a transaction. -/
def tracesOf (evm : Revm P S R I C F) (ctx : TraceCtx P S) (tx : RecoveredTx P) :
    List (LocalizedTransactionTrace F) :=
  (Trace.traceTransaction evm ctx tx.txHash).toOption.join.getD []

/-- The block-level loop traces the transactions before the first system transaction. -/
theorem traceLoop_hashes {ε α : Type}
    {trace : Nat → RecoveredTx P → S → Except ε (α × S)} :
    ∀ {txs : List (RecoveredTx P)} {start : Nat} {s : S} {frames : List (B256 × α)},
      traceLoop evm.isMagic trace (txs.zipIdx start) s = .ok frames →
      frames.map Prod.fst = (plainTxs evm txs).map RecoveredTx.txHash
  | [], _, _, _, h => by
      rw [← Except.ok.inj h]
      rfl
  | tx :: txs, start, s, frames, h => by
      rw [List.zipIdx_cons] at h
      unfold plainTxs
      rcases traceLoop_cons h with ⟨hmagic, hnil⟩ | ⟨hplain, frame, s', rest, -, hrest, hcons⟩
      · rw [List.takeWhile_cons_of_neg (by simp [hmagic]), hnil]
        rfl
      · rw [List.takeWhile_cons_of_pos (by simp [hplain]), hcons, List.map_cons, List.map_cons,
          traceLoop_hashes hrest]
        rfl

/-- **A frame of the block is the frame of its transaction.** -/
theorem targetFrame_of_mem {ε α : Type} {trace : Nat → RecoveredTx P → S → Except ε (α × S)}
    (hcommits : Commits evm trace) {txs : List (RecoveredTx P)} {s : S} {frames : List (B256 × α)}
    (h : traceLoop evm.isMagic trace txs.zipIdx s = .ok frames)
    (hdistinct : (txs.map RecoveredTx.txHash).Nodup) {frame : B256 × α} (hmem : frame ∈ frames) :
    targetFrame evm trace txs s frame.1 = some frame.2 := by
  obtain ⟨tx, htx, hhash, -⟩ := traceLoop_mem h frame hmem
  have hentry : frame.2 ∈ framesOf tx.txHash frames :=
    List.mem_map_of_mem (List.mem_filter.mpr ⟨hmem, by simpa using hhash⟩)
  rw [hhash]
  unfold targetFrame
  cases located hcommits h hdistinct htx with
  | traced _ _ _ hfound htrace hframes =>
      rw [hframes] at hentry
      rw [hfound, List.mem_singleton.mp hentry]
      dsimp only
      rw [htrace]
      rfl
  | system _ _ _ _ hframes =>
      rw [hframes] at hentry
      cases hentry
  | behind _ _ hframes =>
      rw [hframes] at hentry
      cases hentry

variable {txs : List (RecoveredTx P)} {n : Nat} {header : StoredHeader} {s : S}

/-- **A block is its transactions**: `trace_block` returns what `trace_transaction` returns for
the transactions before the first system transaction. -/
theorem StoredBlock.traceBlock_transactions (hevm : evm.Transparent)
    (hblock : StoredBlock ctx n header txs s)
    {t : Option (List (LocalizedTransactionTrace F))}
    (h : Trace.traceBlock evm ctx (.number n) = .ok t) :
    t.getD [] = (plainTxs evm txs).flatMap (tracesOf evm ctx) := by
  have hid : ctx.resolveBlockId (.number (.number n)) = .ok n := rfl
  obtain ⟨traces, rfl⟩ : ∃ traces, t = some traces := by
    unfold Trace.traceBlock at h
    rw [mapError_bind hid, mapError_bind hblock.resolved] at h
    dsimp only at h
    rw [mapError_bind hblock.transactions, mapError_bind hblock.stateBefore] at h
    obtain ⟨traces, -, hout⟩ := bind_ok h
    exact ⟨traces, (Except.ok.inj hout).symm⟩
  obtain ⟨frames, hframes, rfl⟩ := hblock.traceBlock hid h
  have hcommits : Commits evm (localizedTracer evm header) :=
    fun _ _ _ _ _ h => traceParityLocalized_runTx hevm (mapError_ok h)
  -- every frame is the target frame of its hash, and the hashes are those of the transactions
  have hsnd : frames.map Prod.snd = (frames.map Prod.fst).map fun txHash =>
      (targetFrame evm (localizedTracer evm header) txs s txHash).getD [] := by
    rw [List.map_map]
    refine List.map_congr_left fun frame hframe => ?_
    show frame.2 = (targetFrame evm (localizedTracer evm header) txs s frame.1).getD []
    rw [targetFrame_of_mem hcommits hframes hblock.distinct hframe]
    rfl
  show frames.flatMap Prod.snd = _
  rw [List.flatMap_def, hsnd, traceLoop_hashes hframes, List.map_map, List.flatMap_def]
  congr 1
  refine List.map_congr_left fun tx htx => ?_
  show (targetFrame evm (localizedTracer evm header) txs s tx.txHash).getD [] = _
  rw [← hblock.traceTransaction (List.takeWhile_subset _ htx)]
  rfl

/-- A trace of a transaction is the one `trace_get` has at its index. -/
theorem traceGet_of_mem {tx : RecoveredTx P} {t : LocalizedTransactionTrace F}
    (h : t ∈ tracesOf evm ctx tx) :
    ∃ index, Trace.traceGet evm ctx tx.txHash [index] = .ok (some t) := by
  unfold tracesOf at h
  unfold Trace.traceGet
  cases hanswer : Trace.traceTransaction evm ctx tx.txHash with
  | error e =>
      rw [hanswer] at h
      cases h
  | ok traces =>
      rw [hanswer] at h
      cases traces with
      | none => cases h
      | some traces =>
          obtain ⟨index, hindex⟩ := List.mem_iff_getElem?.mp h
          exact ⟨index, congrArg Except.ok hindex⟩

/-- What the transactions of a range have for the matcher, block after block. -/
def rangeTraces (evm : Revm P S R I C F) (ctx : TraceCtx P S) (matcher : F → Bool)
    (txsOf : Nat → List (RecoveredTx P)) (blockNums : List Nat) :
    List (LocalizedTransactionTrace F) :=
  blockNums.flatMap fun n => retained matcher ((plainTxs evm (txsOf n)).flatMap (tracesOf evm ctx))

theorem wholeTraces_transactions (hevm : evm.Transparent) {txsOf : Nat → List (RecoveredTx P)} :
    ∀ {ns : List Nat} {whole : List (LocalizedTransactionTrace F)},
      (∀ n ∈ ns, ∃ header s, StoredBlock ctx n header (txsOf n) s) →
      wholeTraces evm ctx matcher ns = .ok whole → whole = rangeTraces evm ctx matcher txsOf ns
  | [], _, _, h => (Except.ok.inj h).symm
  | n :: ns, whole, hblocks, h => by
      rw [wholeTraces_cons] at h
      obtain ⟨t, ht, h⟩ := bind_ok h
      obtain ⟨rest, hrest, hout⟩ := bind_ok h
      obtain ⟨header, s, hblock⟩ := hblocks n List.mem_cons_self
      have hrest := wholeTraces_transactions hevm
        (fun m hm => hblocks m (List.mem_cons_of_mem _ hm)) hrest
      rw [← Except.ok.inj hout, hblock.traceBlock_transactions hevm ht, hrest]
      rfl

/-- A call that succeeds has checked its range. -/
theorem traceFilter_ok {max : Nat} {tags : BlockTags} {reads : Nat → BlockReads P S}
    {filter : TraceFilter F} {page : List (LocalizedTransactionTrace F)}
    (h : Trace.traceFilter evm max tags reads filter = .ok page) :
    ∃ allTraces, Trace.filterLoop evm filter.matcher reads
        (heights (filter.fromBlock.getD 0) (filter.toBlock.getD tags.latest)) = .ok allTraces
      ∧ page = filter.paginate allTraces := by
  unfold Trace.traceFilter at h
  obtain ⟨⟨start, stop⟩, hrange, h⟩ := bind_ok h
  obtain ⟨allTraces, hall, hout⟩ := bind_ok h
  refine ⟨allTraces, ?_, (Except.ok.inj hout).symm⟩
  unfold TraceFilter.range at hrange
  dsimp only at hrange
  split at hrange
  · cases hrange
  · split at hrange
    · cases hrange
    · split at hrange
      · cases hrange
      · split at hrange
        · cases hrange
        · obtain ⟨rfl, rfl⟩ := Prod.mk.inj (Except.ok.inj hrange)
          exact mapError_ok hall

theorem paginate_subset (filter : TraceFilter F) (allTraces : List (LocalizedTransactionTrace F)) :
    filter.paginate allTraces ⊆ allTraces := by
  unfold TraceFilter.paginate
  dsimp only
  split
  · split
    · exact List.nil_subset _
    · split
      · exact List.Subset.trans (List.take_subset _ _) (List.drop_subset _ _)
      · exact List.drop_subset _ _
  · split
    · exact List.take_subset _ _
    · exact List.Subset.refl _

/--
**`trace_filter` and `trace_transaction` agree.** For an EVM whose inspectors do not change
what a run does and blocks of the range that are stored whole: what a call returns is the
page of what `trace_transaction` returns, under the matcher, for the transactions of the
range, in the order of the chain; a block contributes those before its first system
transaction. So each trace of the answer can be had from `trace_get`, by the hash of one of
these transactions and an index.
-/
theorem trace_filter_replays_transactions (hevm : evm.Transparent) {max : Nat} {tags : BlockTags}
    {reads : Nat → BlockReads P S} {filter : TraceFilter F} {txsOf : Nat → List (RecoveredTx P)}
    {page : List (LocalizedTransactionTrace F)}
    (hreads : ∀ n, filter.fromBlock.getD 0 ≤ n → n ≤ filter.toBlock.getD tags.latest →
      (reads n).SameAs ctx n ∧ ∃ header s, StoredBlock ctx n header (txsOf n) s)
    (h : Trace.traceFilter evm max tags reads filter = .ok page) :
    let range := heights (filter.fromBlock.getD 0) (filter.toBlock.getD tags.latest)
    page = filter.paginate (rangeTraces evm ctx filter.matcher txsOf range)
      ∧ ∀ t ∈ page, ∃ n ∈ range, ∃ tx ∈ plainTxs evm (txsOf n), ∃ index,
        Trace.traceGet evm ctx tx.txHash [index] = .ok (some t) := by
  intro range
  obtain ⟨allTraces, hall, hpage⟩ := traceFilter_ok h
  have hblocks (n : Nat) (hn : n ∈ range) :=
    hreads n (mem_heights.mp hn).1 (mem_heights.mp hn).2
  rw [filterLoop_eq fun n hn => (hblocks n hn).1] at hall
  have hwhole : allTraces = rangeTraces evm ctx filter.matcher txsOf range :=
    wholeTraces_transactions hevm (fun n hn => (hblocks n hn).2) hall
  rw [← hwhole]
  refine ⟨hpage, fun t ht => ?_⟩
  rw [hpage] at ht
  have hmem := paginate_subset filter allTraces ht
  rw [hwhole] at hmem
  obtain ⟨n, hn, hmem⟩ := List.mem_flatMap.mp hmem
  obtain ⟨tx, htx, hmem⟩ := List.mem_flatMap.mp (List.mem_filter.mp hmem).1
  obtain ⟨index, hindex⟩ := traceGet_of_mem hmem
  exact ⟨n, hn, tx, htx, index, hindex⟩

end

/-- The filter for all traces of block 1. -/
def blockOneFilter : TraceFilter Nat := ⟨some 1, some 1, fun _ => true, none, none⟩

/-- Block 1 has a transaction and a system transaction; the filter has a trace of the first. -/
theorem trace_filter_replays_transactions_systemBlock :
    ∃ t, [t] = blockOneFilter.paginate (rangeTraces countingEvm systemBlock (fun _ => true)
        (fun _ => [plainTx, systemTx]) (heights 1 1))
      ∧ ∃ n ∈ heights 1 1, ∃ tx ∈ plainTxs countingEvm [plainTx, systemTx], ∃ index,
        Trace.traceGet countingEvm systemBlock tx.txHash [index] = .ok (some t) := by
  have hevm : countingEvm.Transparent := fun _ _ _ _ _ h => by
    rw [← (Prod.mk.inj (Except.ok.inj h)).2]
    rfl
  have hreads : ∀ n, 1 ≤ n → n ≤ 1 →
      (⟨systemBlock, systemBlock, systemBlock⟩ : BlockReads Unit Nat).SameAs systemBlock n
        ∧ ∃ header s, StoredBlock systemBlock n header [plainTx, systemTx] s := by
    intro n hn hle
    obtain rfl : n = 1 := Nat.le_antisymm hle hn
    exact ⟨⟨rfl, rfl, fun _ _ => rfl⟩, _, _, systemBlock_stored⟩
  obtain ⟨hpage, htraces⟩ :=
    @trace_filter_replays_transactions _ _ _ _ _ _ countingEvm systemBlock hevm 100 ⟨1, 0, 0⟩
      (fun _ => ⟨systemBlock, systemBlock, systemBlock⟩) blockOneFilter
      (fun _ => [plainTx, systemTx])
      [⟨0, some (storedHeader 1).header.hash, some 1, some 1, some 0⟩] hreads rfl
  exact ⟨_, hpage, htraces _ List.mem_cons_self⟩

end NodeComponents.Rpc
