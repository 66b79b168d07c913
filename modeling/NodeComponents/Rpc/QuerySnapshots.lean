import NodeComponents.Lib.Run
import NodeComponents.Rpc.BlockQueries

/-!
# Answers are snapshots

The parts of an answer are read at several instants, and cold storage changes between
them. They still fit unless the block a query has read a part of is removed before its
last read: then the answer is what the query would have got in one read of cold storage
at some instant of the call. A block that is only just stored can be torn too, but only
for a query that does not begin with its header.
-/

namespace NodeComponents.Rpc.Queries

open Lib Helpers

variable {Tx A L Bl : Type} (x : QueryRules Tx A L Bl)

/-! ## Conditions -/

/-- The height whose block a call has read a part of and will read more of. A header that was
not there needs no other part. -/
def Phase.pinned : Phase Tx A L → Option Nat
  | .start => none
  | .parts _ (some none) _ _ => none
  | .parts _ none none none => none
  | .parts n _ _ _ => some n
  | .confirmed _ confirmedAt => some confirmedAt.blockNumber
  | .found cr _ _ => some cr.blockNumber
  | .done => none

/-- The height whose block a call has read another part of, but not its header. -/
def Phase.headless : Phase Tx A L → Option Nat
  | .parts _ none none none => none
  | .parts n none _ _ => some n
  | _ => none

/-- A stored block has the transaction of each of its receipts. -/
def ColdBlock.Complete (n : Nat) (b : ColdBlock Tx A L) : Prop :=
  ∀ cr ∈ b.receipts, cr.blockNumber = n ∧ ∃ tx ∈ b.txs, x.txHash tx = cr.txHash

/-- What is stored is complete. No block is removed while the `i`-th call is reading it, or
stored between the reads of that call if it does not begin with the header. -/
def Undisturbed (i : Nat) : QueryStep Tx A L → QueryWorld Tx A L → Prop
  | .ingest b, w => b.Complete x w.cold.length
      ∧ ∀ q ∈ w.queries[i]?, q.phase.headless ≠ some w.cold.length
  | .truncate height, w => ∀ q ∈ w.queries[i]?, ∀ n ∈ q.phase.pinned, n ≤ height
  | _, _ => True

/-! ## The invariant -/

variable {x}

/-- What a phase has read is what cold storage held at one instant of the call. -/
def PhaseOk (x : QueryRules Tx A L Bl) (cold : ColdTier Tx A L) (seen : List (ColdTier Tx A L))
    (request : Request) : Phase Tx A L → Prop
  | .start => True
  | .parts n header txs receipts =>
    (request = .blockReceipts n ∨ ∃ full, request = .block n full)
      ∧ ((header = some none ∧ ∃ tier ∈ seen, tier.getHeaderByNumber n = none)
        ∨ ((∀ v ∈ header, v = cold.getHeaderByNumber n)
          ∧ (∀ v ∈ txs, v = cold.getTransactionsInBlock n)
          ∧ ∀ v ∈ receipts, v = cold.getReceiptsInBlock n))
  | .confirmed tx confirmedAt =>
    ∃ tier ∈ seen, tier[confirmedAt.blockNumber]? = cold[confirmedAt.blockNumber]?
      ∧ ((∃ hash, request = .transactionByHash hash
          ∧ tier.getTxByHash x hash = some (tx, confirmedAt))
        ∨ ∃ n index, request = .transactionByBlockAndIndex n index
          ∧ tier.getTxByBlockAndIndex n index = some (tx, confirmedAt))
  | .found cr tx header =>
    ∃ tier ∈ seen, tier[cr.blockNumber]? = cold[cr.blockNumber]?
      ∧ (∃ hash, request = .transactionReceipt hash ∧ tier.getReceipt hash = some cr)
      ∧ (∃ b t, tier[cr.blockNumber]? = some b ∧ t ∈ b.txs ∧ x.txHash t = cr.txHash
        ∧ ∀ v ∈ tx, v = some t)
      ∧ ∀ v ∈ header, v = tier.getHeaderByNumber cr.blockNumber
  | .done => True

/-- What is stored is complete, and the `i`-th call has read what fits. -/
structure QueryInv (x : QueryRules Tx A L Bl) (i : Nat) (w : QueryWorld Tx A L) : Prop where
  complete : ∀ (n : Nat) (b : ColdBlock Tx A L), w.cold[n]? = some b → b.Complete x n
  call : ∀ q ∈ w.queries[i]?, w.cold ∈ q.seen ∧ PhaseOk x w.cold q.seen q.request q.phase

/-- A transaction that is found stands in a stored block. -/
theorem getTxByHash_at {cold : ColdTier Tx A L} {hash : B256} {tx : Tx}
    {confirmedAt : Helpers.ConfirmationMeta}
    (h : cold.getTxByHash x hash = some (tx, confirmedAt)) :
    confirmedAt.blockNumber < cold.length := by
  obtain ⟨⟨b, n⟩, hb, he⟩ := List.mem_flatMap.mp (List.mem_of_find?_eq_some h)
  obtain ⟨e, -, heq⟩ := List.mem_map.mp he
  obtain ⟨rfl, rfl⟩ := Prod.mk.inj heq
  exact (List.getElem?_eq_some_iff.mp (List.mem_zipIdx_iff_getElem?.mp hb)).1

theorem getTxByBlockAndIndex_at {cold : ColdTier Tx A L} {n index : Nat} {tx : Tx}
    {confirmedAt : Helpers.ConfirmationMeta}
    (h : cold.getTxByBlockAndIndex n index = some (tx, confirmedAt)) :
    confirmedAt.blockNumber < cold.length := by
  obtain ⟨b, hb, hindex⟩ := Option.bind_eq_some_iff.mp h
  obtain ⟨e, -, heq⟩ := List.mem_map.mp (List.mem_of_getElem? hindex)
  obtain ⟨rfl, rfl⟩ := Prod.mk.inj heq
  exact (List.getElem?_eq_some_iff.mp hb).1

theorem getHeaderByNumber_congr {cold cold' : ColdTier Tx A L} {n : Nat}
    (h : cold[n]? = cold'[n]?) : cold.getHeaderByNumber n = cold'.getHeaderByNumber n := by
  unfold ColdTier.getHeaderByNumber
  rw [h]

theorem lt_length_of_getElem?_eq {α : Type} {l m : List α} {n : Nat} (h : l[n]? = m[n]?)
    (hlt : n < l.length) : n < m.length := by
  rw [List.getElem?_eq_getElem hlt] at h
  exact (List.getElem?_eq_some_iff.mp h.symm).1

/-- A block that a call is reading is stored, unless the call began with another part of it than
the header. -/
theorem PhaseOk.stored {cold : ColdTier Tx A L} {seen : List (ColdTier Tx A L)}
    {request : Request} {phase : Phase Tx A L} (h : PhaseOk x cold seen request phase) {n : Nat}
    (hn : n ∈ phase.pinned) : phase.headless = some n ∨ n < cold.length := by
  cases phase with
  | start => cases hn
  | done => cases hn
  | confirmed tx confirmedAt =>
      obtain rfl := Option.some.inj hn
      obtain ⟨c, -, hsame, ⟨hash, -, hget⟩ | ⟨n, index, -, hget⟩⟩ := h
      · exact Or.inr (lt_length_of_getElem?_eq hsame (getTxByHash_at hget))
      · exact Or.inr (lt_length_of_getElem?_eq hsame (getTxByBlockAndIndex_at hget))
  | found cr tx header =>
      obtain rfl := Option.some.inj hn
      obtain ⟨c, -, hsame, -, ⟨b, t, hb, -⟩, -⟩ := h
      exact Or.inr (lt_length_of_getElem?_eq hsame (List.getElem?_eq_some_iff.mp hb).1)
  | parts m header txs receipts =>
      cases header with
      | none =>
          refine Or.inl ?_
          cases txs with
          | some txs => exact hn
          | none =>
              cases receipts with
              | some receipts => exact hn
              | none => cases hn
      | some header =>
          cases header with
          | none => cases hn
          | some v =>
              obtain rfl := Option.some.inj hn
              obtain ⟨-, ⟨hnone, -⟩ | ⟨hheader, -⟩⟩ := h
              · cases hnone
              · obtain ⟨b, hb, -⟩ := Option.map_eq_some_iff.mp (hheader _ rfl).symm
                exact Or.inr (List.getElem?_eq_some_iff.mp hb).1

/-- A call that has read a part, and has not found the header missing, pins its height. -/
theorem mem_pinned_parts {n : Nat} {header : Option (Option StoredHeader)}
    {txs : Option (List Tx)} {receipts : Option (List (Helpers.ColdReceipt A L))}
    (hread : ¬ (header = none ∧ txs = none ∧ receipts = none)) (hfound : header ≠ some none) :
    n ∈ (Phase.parts n header txs receipts : Phase Tx A L).pinned := by
  rcases header with _ | _ | v
  · rcases txs with _ | txs
    · rcases receipts with _ | receipts
      · exact absurd ⟨rfl, rfl, rfl⟩ hread
      · exact rfl
    · exact rfl
  · exact absurd rfl hfound
  · exact rfl

/-- Cold storage changes; what a call has read is still there. -/
theorem PhaseOk.store {cold cold' : ColdTier Tx A L} {seen : List (ColdTier Tx A L)}
    {request : Request} {phase : Phase Tx A L} (h : PhaseOk x cold seen request phase)
    (hcold : cold ∈ seen) (hkeep : ∀ n ∈ phase.pinned, cold'[n]? = cold[n]?) :
    PhaseOk x cold' (seen ++ [cold']) request phase := by
  cases phase with
  | start => trivial
  | done => trivial
  | confirmed tx confirmedAt =>
      obtain ⟨c, hc, hsame, hfound⟩ := h
      exact ⟨c, List.mem_append_left _ hc, hsame.trans (hkeep _ rfl).symm, hfound⟩
  | found cr tx header =>
      obtain ⟨c, hc, hsame, hrest⟩ := h
      exact ⟨c, List.mem_append_left _ hc, hsame.trans (hkeep _ rfl).symm, hrest⟩
  | parts n header txs receipts =>
      obtain ⟨hrequest, hread⟩ := h
      refine ⟨hrequest, ?_⟩
      rcases hread with ⟨hnone, c, hc, habsent⟩ | ⟨hheader, htxs, hreceipts⟩
      · exact Or.inl ⟨hnone, c, List.mem_append_left _ hc, habsent⟩
      · by_cases habsent : header = some none
        · have hnone := hheader none habsent
          exact Or.inl ⟨habsent, cold, List.mem_append_left _ hcold, hnone.symm⟩
        · by_cases hunread : header = none ∧ txs = none ∧ receipts = none
          · obtain ⟨rfl, rfl, rfl⟩ := hunread
            exact Or.inr ⟨by simp, by simp, by simp⟩
          · have hsame := hkeep n (mem_pinned_parts hunread habsent)
            refine Or.inr ⟨?_, ?_, ?_⟩
            · intro v hv
              rw [hheader v hv, getHeaderByNumber_congr hsame]
            · intro v hv
              rw [htxs v hv]
              unfold ColdTier.getTransactionsInBlock
              rw [hsame]
            · intro v hv
              rw [hreceipts v hv]
              unfold ColdTier.getReceiptsInBlock
              rw [hsame]

/-! ## Reads -/

/-- A transaction that is stored is found by its hash. -/
theorem getTxByHash_stored (hinj : Function.Injective x.txHash) {cold : ColdTier Tx A L} {n : Nat}
    {b : ColdBlock Tx A L} {t : Tx} (hb : cold[n]? = some b) (ht : t ∈ b.txs) :
    (cold.getTxByHash x (x.txHash t)).map Prod.fst = some t := by
  have hmem : ∃ e ∈ cold.zipIdx.flatMap fun e => e.1.confirmed e.2, e.1 = t := by
    obtain ⟨index, hlt, hindex⟩ := List.getElem_of_mem ht
    refine ⟨(t, ⟨n, b.header.header.hash, index⟩), List.mem_flatMap.mpr ⟨(b, n), ?_, ?_⟩, rfl⟩
    · exact List.mem_zipIdx_iff_getElem?.mpr hb
    · exact List.mem_map.mpr ⟨(t, index), List.mem_zipIdx_iff_getElem?.mpr
        (List.getElem?_eq_some_iff.mpr ⟨hlt, hindex⟩), rfl⟩
  unfold ColdTier.getTxByHash
  cases hfind : (cold.zipIdx.flatMap fun e => e.1.confirmed e.2).find?
      fun e => x.txHash e.1 = x.txHash t with
  | none =>
      obtain ⟨e, he, rfl⟩ := hmem
      exact absurd (List.find?_eq_none.mp hfind e he) (by simp)
  | some e =>
      have heq : x.txHash e.1 = x.txHash t := by simpa using List.find?_some hfind
      exact congrArg some (hinj heq)

theorem getReceipt_stored {cold : ColdTier Tx A L} {hash : B256} {cr : Helpers.ColdReceipt A L}
    (h : cold.getReceipt hash = some cr) :
    ∃ (n : Nat) (b : ColdBlock Tx A L), cold[n]? = some b ∧ cr ∈ b.receipts := by
  obtain ⟨b, hb, hcr⟩ := List.mem_flatMap.mp (List.mem_of_find?_eq_some h)
  obtain ⟨n, hlt, hn⟩ := List.getElem_of_mem hb
  exact ⟨n, b, List.getElem?_eq_some_iff.mpr ⟨hlt, hn⟩, hcr⟩

/-- What is said of where a read leads. -/
def ProgressOk (x : QueryRules Tx A L Bl) (cold : ColdTier Tx A L) (seen : List (ColdTier Tx A L))
    (request : Request) : Progress Tx A L Bl → Prop
  | .still phase => PhaseOk x cold seen request phase
  | .answer ans =>
    (∃ c ∈ seen, ans = answerAt x c request) ∧ ∀ hash, ans ≠ .error (.transactionMissing hash)

variable {cold : ColdTier Tx A L} {seen : List (ColdTier Tx A L)} {request : Request}

/-- The first read. -/
theorem readFirst_ok (hcomplete : ∀ (n : Nat) (b : ColdBlock Tx A L), cold[n]? = some b →
    b.Complete x n) (hcold : cold ∈ seen) :
    ProgressOk x cold seen request (request.readFirst x cold) := by
  -- a call of one read
  have hsingle {ans : Answer Tx A L Bl} (hans : ans = answerAt x cold request)
      (herr : ∀ hash, ans ≠ .error (.transactionMissing hash)) :
      ProgressOk x cold seen request (.answer ans) := ⟨⟨cold, hcold, hans⟩, herr⟩
  cases request with
  | block n full => trivial
  | blockReceipts n => trivial
  | blockTxCount n => exact hsingle rfl (by rintro _ ⟨⟩)
  | rawTransactionByHash hash => exact hsingle rfl (by rintro _ ⟨⟩)
  | rawTransactionByBlockAndIndex n index => exact hsingle rfl (by rintro _ ⟨⟩)
  | transactionByHash hash =>
      unfold Request.readFirst
      dsimp only
      cases hget : cold.getTxByHash x hash with
      | none =>
          exact hsingle (by simp only [answerAt, hget, answerAt.transactionAt]) (by rintro _ ⟨⟩)
      | some e => exact ⟨cold, hcold, rfl, Or.inl ⟨hash, rfl, hget⟩⟩
  | transactionByBlockAndIndex n index =>
      unfold Request.readFirst
      dsimp only
      cases hget : cold.getTxByBlockAndIndex n index with
      | none =>
          exact hsingle (by simp only [answerAt, hget, answerAt.transactionAt]) (by rintro _ ⟨⟩)
      | some e => exact ⟨cold, hcold, rfl, Or.inr ⟨n, index, rfl, hget⟩⟩
  | transactionReceipt hash =>
      unfold Request.readFirst
      dsimp only
      cases hget : cold.getReceipt hash with
      | none => exact hsingle (by simp only [answerAt, hget]) (by rintro _ ⟨⟩)
      | some cr =>
          obtain ⟨n, b, hb, hcr⟩ := getReceipt_stored hget
          obtain ⟨rfl, t, ht, htx⟩ := hcomplete n b hb cr hcr
          exact ⟨cold, hcold, rfl, ⟨hash, rfl, hget⟩, ⟨b, t, hb, ht, htx, by simp⟩, by simp⟩

/-- The parts of a block, with one more read. -/
theorem assemble_parts_ok (hcold : cold ∈ seen) {n : Nat} {header : Option (Option StoredHeader)}
    {txs : Option (List Tx)} {receipts : Option (List (Helpers.ColdReceipt A L))}
    (h : PhaseOk x cold seen request (.parts n header txs receipts)) :
    ProgressOk x cold seen request (assemble x request (.parts n header txs receipts)) := by
  obtain ⟨hrequest, hread⟩ := h
  unfold assemble
  rcases hrequest with rfl | ⟨full, rfl⟩
  · cases header with
    | none => exact ⟨Or.inl rfl, hread⟩
    | some header =>
        cases txs with
        | none => exact ⟨Or.inl rfl, hread⟩
        | some txs =>
            cases receipts with
            | none => exact ⟨Or.inl rfl, hread⟩
            | some receipts =>
                refine ⟨?_, by rintro _ ⟨⟩⟩
                rcases hread with ⟨hnone, c, hc, habsent⟩ | ⟨hheader, htxs, hreceipts⟩
                · obtain rfl := Option.some.inj hnone
                  exact ⟨c, hc, by simp only [answerAt, habsent, Option.map_none]⟩
                · obtain rfl := hheader _ rfl
                  obtain rfl := htxs _ rfl
                  obtain rfl := hreceipts _ rfl
                  exact ⟨cold, hcold, rfl⟩
  · cases header with
    | none => exact ⟨Or.inr ⟨full, rfl⟩, hread⟩
    | some header =>
        cases txs with
        | none => exact ⟨Or.inr ⟨full, rfl⟩, hread⟩
        | some txs =>
            refine ⟨?_, by rintro _ ⟨⟩⟩
            rcases hread with ⟨hnone, c, hc, habsent⟩ | ⟨hheader, htxs, -⟩
            · obtain rfl := Option.some.inj hnone
              exact ⟨c, hc, by simp only [answerAt, habsent, Option.map_none]⟩
            · obtain rfl := hheader _ rfl
              obtain rfl := htxs _ rfl
              exact ⟨cold, hcold, rfl⟩

/-- A receipt and what it comes with, with one more read. -/
theorem assemble_found_ok {cr : Helpers.ColdReceipt A L} {tx : Option (Option Tx)}
    {header : Option (Option StoredHeader)} (hinj : Function.Injective x.txHash)
    (h : PhaseOk x cold seen request (.found cr tx header)) :
    ProgressOk x cold seen request (assemble x request (.found cr tx header)) := by
  obtain ⟨c, hc, hsame, ⟨hash, rfl, hget⟩, ⟨b, t, hb, ht, htx, hread⟩, hheader⟩ := h
  unfold assemble
  cases tx with
  | none => exact ⟨c, hc, hsame, ⟨hash, rfl, hget⟩, ⟨b, t, hb, ht, htx, hread⟩, hheader⟩
  | some tx =>
      cases header with
      | none => exact ⟨c, hc, hsame, ⟨hash, rfl, hget⟩, ⟨b, t, hb, ht, htx, hread⟩, hheader⟩
      | some header =>
          obtain rfl := hread _ rfl
          obtain rfl := hheader _ rfl
          refine ⟨⟨c, hc, ?_⟩, by rintro _ ⟨⟩⟩
          simp only [answerAt, hget]
          rw [← htx, getTxByHash_stored hinj hb ht]

/-- **One read.** -/
theorem readPart_ok (hinj : Function.Injective x.txHash)
    (hcomplete : ∀ (n : Nat) (b : ColdBlock Tx A L), cold[n]? = some b → b.Complete x n)
    (hcold : cold ∈ seen) {phase : Phase Tx A L} (h : PhaseOk x cold seen request phase)
    (part : Part) : ProgressOk x cold seen request (readPart x cold request phase part) := by
  unfold readPart
  split
  · exact readFirst_ok hcomplete hcold
  · -- the header of a block
    rename_i n txs receipts
    obtain ⟨hrequest, hread⟩ := h
    refine assemble_parts_ok hcold ⟨hrequest, Or.inr ?_⟩
    rcases hread with ⟨hnone, -⟩ | ⟨-, hrest⟩
    · cases hnone
    · exact ⟨fun v hv => (Option.some.inj hv).symm, hrest⟩
  · rename_i n header receipts
    obtain ⟨hrequest, hread⟩ := h
    refine assemble_parts_ok hcold ⟨hrequest, hread.imp_right ?_⟩
    rintro ⟨hheader, -, hreceipts⟩
    exact ⟨hheader, fun v hv => (Option.some.inj hv).symm, hreceipts⟩
  · rename_i n header txs
    split
    · obtain ⟨hrequest, hread⟩ := h
      refine assemble_parts_ok hcold ⟨hrequest, hread.imp_right ?_⟩
      rintro ⟨hheader, htxs, -⟩
      exact ⟨hheader, htxs, fun v hv => (Option.some.inj hv).symm⟩
    · exact h
  · -- the header of a transaction
    rename_i tx confirmedAt
    obtain ⟨c, hc, hsame, hfound⟩ := h
    refine ⟨⟨c, hc, ?_⟩, by rintro _ ⟨⟩⟩
    rcases hfound with ⟨hash, rfl, hget⟩ | ⟨n, index, rfl, hget⟩
    · simp only [answerAt, hget, answerAt.transactionAt, getHeaderByNumber_congr hsame]
    · simp only [answerAt, hget, answerAt.transactionAt, getHeaderByNumber_congr hsame]
  · -- the transaction of a receipt
    rename_i cr header
    obtain ⟨c, hc, hsame, hrequest, ⟨b, t, hb, ht, htx, -⟩, hheader⟩ := h
    refine assemble_found_ok hinj ⟨c, hc, hsame, hrequest, ⟨b, t, hb, ht, htx, ?_⟩, hheader⟩
    intro v hv
    rw [← Option.some.inj hv, ← htx, getTxByHash_stored hinj (hsame.symm.trans hb) ht]
  · rename_i cr tx
    obtain ⟨c, hc, hsame, hrequest, htx, -⟩ := h
    refine assemble_found_ok hinj ⟨c, hc, hsame, hrequest, htx, fun v hv => ?_⟩
    rw [← Option.some.inj hv, getHeaderByNumber_congr hsame]
  · exact h

/-! ## Runs -/

variable {w : QueryWorld Tx A L} {i : Nat}

theorem QueryInv.store (h : QueryInv x i w) {cold : ColdTier Tx A L}
    (hcomplete : ∀ (n : Nat) (b : ColdBlock Tx A L), cold[n]? = some b → b.Complete x n)
    (hkeep : ∀ q ∈ w.queries[i]?, ∀ n ∈ q.phase.pinned, cold[n]? = w.cold[n]?) :
    QueryInv x i (w.store cold) := by
  refine ⟨hcomplete, fun q hq => ?_⟩
  have hq : (w.queries.map fun q => { q with seen := q.seen ++ [cold] })[i]? = some q := hq
  rw [List.getElem?_map] at hq
  obtain ⟨q, hold, rfl⟩ := Option.map_eq_some_iff.mp hq
  obtain ⟨hcold, hphase⟩ := h.call q hold
  exact ⟨List.mem_append_right _ (List.mem_singleton.mpr rfl),
    hphase.store hcold (hkeep q hold)⟩

/-- A call moves on; the `i`-th one to a phase that fits. -/
theorem QueryInv.advance (h : QueryInv x i w) {j : Nat} {q : Query Tx A L}
    (hj : w.queries[j]? = some q) {phase : Phase Tx A L}
    (hphase : i = j → PhaseOk x w.cold q.seen q.request phase) :
    QueryInv x i (w.advance j q phase) := by
  refine ⟨h.complete, fun q' hq' => ?_⟩
  have hq' : (w.queries.set j { q with phase := phase })[i]? = some q' := hq'
  by_cases hij : i = j
  · subst hij
    rw [List.getElem?_set_self (List.getElem?_eq_some_iff.mp hj).1] at hq'
    obtain rfl := Option.some.inj hq'
    exact ⟨(h.call q hj).1, hphase rfl⟩
  · rw [List.getElem?_set_ne (Ne.symm hij)] at hq'
    exact h.call q' hq'

theorem start_ok (cold : ColdTier Tx A L) (seen : List (ColdTier Tx A L)) (request : Request) :
    PhaseOk x cold seen request request.start := by
  cases request with
  | block n full => exact ⟨Or.inr ⟨full, rfl⟩, Or.inr ⟨by simp, by simp, by simp⟩⟩
  | blockReceipts n => exact ⟨Or.inl rfl, Or.inr ⟨by simp, by simp, by simp⟩⟩
  | _ => trivial

/-- What is said of an event of the `i`-th call. -/
def EventOk (x : QueryRules Tx A L Bl) (i : Nat) : QueryEvent Tx A L Bl → Prop
  | .answered j request seen ans => i = j →
    (∃ c ∈ seen, ans = answerAt x c request) ∧ ∀ hash, ans ≠ .error (.transactionMissing hash)
  | .failed _ => True

/-- **Each step keeps the invariant**, and answers from one instant of the call. -/
theorem queryInv_step (hinj : Function.Injective x.txHash) (h : QueryInv x i w)
    (s : QueryStep Tx A L) (hs : Undisturbed x i s w) :
    QueryInv x i (queryStep x s w).2 ∧ ∀ e ∈ (queryStep x s w).1, EventOk x i e := by
  have hquiet : ∀ e ∈ (none : Option (QueryEvent Tx A L Bl)), EventOk x i e := by rintro _ ⟨⟩
  cases s with
  | setTags tags => exact ⟨⟨h.complete, h.call⟩, hquiet⟩
  | setHot hot => exact ⟨⟨h.complete, h.call⟩, hquiet⟩
  | ingest b =>
      obtain ⟨hb, hheadless⟩ := hs
      refine ⟨h.store (fun n c hc => ?_) (fun q hq n hn => ?_), hquiet⟩
      · rcases Nat.lt_or_ge n w.cold.length with hlt | hge
        · rw [List.getElem?_append_left hlt] at hc
          exact h.complete n c hc
        · rw [List.getElem?_append_right hge, List.getElem?_singleton] at hc
          split at hc
          · obtain rfl := Option.some.inj hc
            rwa [show n = w.cold.length by omega]
          · cases hc
      · rcases Nat.lt_or_ge n w.cold.length with hlt | hge
        · exact List.getElem?_append_left hlt
        · rcases (h.call q hq).2.stored hn with hpart | hlt
          · have hne : n ≠ w.cold.length := fun heq => hheadless q hq (heq ▸ hpart)
            rw [List.getElem?_eq_none hge, List.getElem?_eq_none]
            rw [List.length_append, List.length_singleton]
            omega
          · omega
  | truncate height =>
      refine ⟨h.store (fun n c hc => ?_) (fun q hq n hn => ?_), hquiet⟩
      · rw [List.getElem?_take] at hc
        split at hc
        · exact h.complete n c hc
        · cases hc
      · exact List.getElem?_take_of_lt (Nat.lt_succ_of_le (hs q hq n hn))
  | ask endpoint =>
      show QueryInv x i (w.ask endpoint).2 ∧ ∀ e ∈ (w.ask endpoint).1, EventOk x i e
      unfold QueryWorld.ask
      split
      · exact ⟨h, fun e he => Option.some.inj he ▸ trivial⟩
      · rename_i request _
        refine ⟨⟨h.complete, fun q hq => ?_⟩, hquiet⟩
        have hq : (w.queries ++ [⟨request, request.start, [w.cold]⟩])[i]? = some q := hq
        rcases Nat.lt_or_ge i w.queries.length with hold | hnew
        · rw [List.getElem?_append_left hold] at hq
          exact h.call q hq
        · rw [List.getElem?_append_right hnew] at hq
          obtain rfl := List.mem_singleton.mp (List.mem_of_getElem? hq)
          exact ⟨List.mem_singleton.mpr rfl, start_ok _ _ _⟩
  | read j part =>
      show QueryInv x i (w.read x j part).2 ∧ ∀ e ∈ (w.read x j part).1, EventOk x i e
      unfold QueryWorld.read
      cases hj : w.queries[j]? with
      | none => exact ⟨h, hquiet⟩
      | some q =>
          have hread (hij : i = j) :
              ProgressOk x w.cold q.seen q.request (readPart x w.cold q.request q.phase part) := by
            obtain ⟨hcold, hphase⟩ := h.call q (hij ▸ hj)
            exact readPart_ok hinj h.complete hcold hphase part
          dsimp only
          cases hprogress : readPart x w.cold q.request q.phase part with
          | still phase =>
              rw [hprogress] at hread
              exact ⟨h.advance hj hread, hquiet⟩
          | answer ans =>
              rw [hprogress] at hread
              exact ⟨h.advance hj fun _ => trivial, fun e he => Option.some.inj he ▸ hread⟩
  | fail j e =>
      show QueryInv x i (w.fail j e).2 ∧ ∀ e' ∈ (w.fail j e).1, EventOk x i e'
      unfold QueryWorld.fail
      cases hj : w.queries[j]? with
      | none => exact ⟨h, hquiet⟩
      | some q =>
          dsimp only
          split
          · exact ⟨h, hquiet⟩
          · exact ⟨h.advance hj fun _ => trivial, fun e' he => Option.some.inj he ▸ trivial⟩

/-- Nothing is asked yet. -/
def QueryWorld.started (tags : BlockTags) (hot : HotSnapshot) (cold : ColdTier Tx A L) :
    QueryWorld Tx A L := ⟨tags, hot, cold, []⟩

/--
**Answers are snapshots.** In every interleaving of the reads of any number of calls with
the writes to cold storage, the tags and hot storage, and in any order of the reads of one
call, take a call no block of which was removed after a part of it was read and before its
last read, or stored after a part of it other than the header was read. Its answer is the one
the endpoint gives in a single read of cold storage at some instant between the resolution
and the answer; and no transaction of a receipt is missing. Of other calls nothing is asked.
-/
theorem answers_are_snapshots (hinj : Function.Injective x.txHash) {tags : BlockTags}
    {hot : HotSnapshot} {cold : ColdTier Tx A L}
    (hcomplete : ∀ (n : Nat) (b : ColdBlock Tx A L), cold[n]? = some b → b.Complete x n)
    {os : List (QueryEvent Tx A L Bl)}
    (hrun : Run (queryStep x) (Undisturbed x i) (QueryWorld.started tags hot cold) os w) :
    ∀ request seen ans, QueryEvent.answered i request seen ans ∈ os →
      (∃ c ∈ seen, ans = answerAt x c request)
        ∧ ∀ hash, ans ≠ .error (.transactionMissing hash) := by
  have hall : QueryInv x i w ∧ ∀ e ∈ os, EventOk x i e := by
    refine hrun.invariant (I := fun os w => QueryInv x i w ∧ ∀ e ∈ os, EventOk x i e)
      ⟨⟨hcomplete, fun q hq => absurd hq (by simp [QueryWorld.started])⟩, by simp⟩ ?_
    rintro s os w ⟨hinv, hos⟩ hs
    obtain ⟨hinv', hout⟩ := queryInv_step hinj hinv s hs
    refine ⟨hinv', fun e he => ?_⟩
    rcases List.mem_append.mp he with hold | hnew
    · exact hos e hold
    · exact hout e (Option.mem_toList.mp hnew)
  intro request seen ans hmem
  exact hall.2 _ hmem rfl

/-! ## Runs of the calls -/

instance (n : Nat) (b : ColdBlock Tx A L) : Decidable (b.Complete x n) :=
  inferInstanceAs (Decidable (∀ cr ∈ b.receipts, cr.blockNumber = n
    ∧ ∃ tx ∈ b.txs, x.txHash tx = cr.txHash))

instance : ∀ (s : QueryStep Tx A L) (w : QueryWorld Tx A L), Decidable (Undisturbed x i s w)
  | .ingest b, w => inferInstanceAs (Decidable (b.Complete x w.cold.length
      ∧ ∀ q ∈ w.queries[i]?, q.phase.headless ≠ some w.cold.length))
  | .truncate height, w =>
    inferInstanceAs (Decidable (∀ q ∈ w.queries[i]?, ∀ n ∈ q.phase.pinned, n ≤ height))
  | .setTags _, _ | .setHot _, _ | .ask _, _ | .read _ _, _ | .fail _ _, _ => isTrue trivial

/-- Transactions that are their hashes, and tip one wei. -/
def hashRules : QueryRules B256 Unit Unit Unit where
  txType := fun _ => .eip1559
  nonce := fun _ => 0
  kind := fun _ => .call ()
  gasPrice := fun _ => 8
  maxFeePerGas := fun _ => 9
  maxPriorityFeePerGas := fun _ => 1
  effectiveTipPerGas := fun _ _ => some 1
  bloom := fun _ => ()
  create := fun _ _ => ()
  txHash := id
  encoded2718 := fun _ => [2]

/-- A block of one transaction, with a base fee of its own. -/
def oneTxBlock (n hash baseFee : Nat) (tx : B256) : ColdBlock B256 Unit Unit :=
  ⟨⟨⟨n, BitVec.ofNat 256 hash, 0, n⟩, some baseFee⟩, [tx],
    [⟨⟨true, 21000, []⟩, .eip1559, tx, 0, BitVec.ofNat 256 hash, n, (), 21000⟩]⟩

def coldGenesis : ColdBlock B256 Unit Unit := ⟨⟨⟨0, 0, 0, 0⟩, some 7⟩, [], []⟩

/-- A receipt and the latest block are asked for while the block behind it is replaced, which a
third call is reading. -/
def queryRun : List (QueryStep B256 Unit Unit) :=
  [.ask (.transactionReceipt 7), .ask (.block (.number .latest) false),
    .ask (.block (.number (.number 2)) false), .read 0 .first, .ingest (oneTxBlock 2 12 9 8),
    .read 1 .txs, .read 2 .txs, .read 0 .header, .truncate 1, .ingest (oneTxBlock 2 13 9 9),
    .read 1 .header, .read 2 .header, .read 0 .tx]

/-- Two blocks are stored, and nothing is asked yet. -/
def queryStart : QueryWorld B256 Unit Unit :=
  QueryWorld.started ⟨1, 0, 0⟩ [] [coldGenesis, oneTxBlock 1 11 7 7]

/-- The first two calls of the run are answered, from one instant each. -/
theorem answers_are_snapshots_twoCalls :
    let run := runInputs (queryStep hashRules) queryRun queryStart
    (∀ i ∈ [0, 1], ∀ request seen ans, QueryEvent.answered i request seen ans ∈ run.1 →
        (∃ c ∈ seen, ans = answerAt hashRules c request)
          ∧ ∀ hash, ans ≠ .error (.transactionMissing hash))
      ∧ run.1.length = 3 := by
  intro run
  have hcomplete : ∀ (n : Nat) (b : ColdBlock B256 Unit Unit),
      [coldGenesis, oneTxBlock 1 11 7 7][n]? = some b → b.Complete hashRules n := by
    intro n b hb
    match n with
    | 0 =>
        obtain rfl := Option.some.inj hb
        decide
    | 1 =>
        obtain rfl := Option.some.inj hb
        decide
    | n + 2 => cases hb
  refine ⟨fun i hi => ?_, by decide +kernel⟩
  have hadmits : Admits (queryStep hashRules) (Undisturbed hashRules i) queryRun queryStart := by
    simp only [List.mem_cons, List.not_mem_nil, or_false] at hi
    rcases hi with rfl | rfl <;> decide +kernel
  exact answers_are_snapshots Function.injective_id hcomplete
    (runInputs_run queryRun queryStart hadmits)

/-- A reorg between the two reads of a block: the transactions are of the block that was
removed, the header is of the one that took its place. -/
example :
    ((runInputs (queryStep hashRules) [.ask (.block (.number .latest) false), .read 0 .txs,
      .truncate 0, .ingest (oneTxBlock 1 12 9 8), .read 0 .header] queryStart).1.map fun
        | .answered _ _ _ ans => some ans
        | .failed _ => none)
      = [some (.block (some ⟨(oneTxBlock 1 12 9 8).header, .hashes [7]⟩))] := by
  decide +kernel

end NodeComponents.Rpc.Queries
