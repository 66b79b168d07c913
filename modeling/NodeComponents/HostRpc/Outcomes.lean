import NodeComponents.HostRpc.Walk
import NodeComponents.Lib.Linked

/-!
# What one turn of the notifier can do

One inversion per method: `Drained` for `drain_backfill`, `Handled` for
`handle_new_head`, `Turned` for a turn of the loop. Each lists the ways the
method can end, with the facts known there, so that an invariant is a case split
over named outcomes and never unfolds a method again.
-/

namespace NodeComponents.HostRpc

open Lib

variable {T R : Type} {P : Provider T R} {tm : Timing} {s : RpcHostNotifier}

/-! ## Fetching -/

theorem tryJoin_error {A B : Type} {t₁ t₂ : Instant} {a : Except TransportError A}
    {b : Except TransportError B} {f : Fault} (h : tryJoin t₁ a t₂ b = .error f) :
    ∃ e, f = .err e := by
  unfold tryJoin at h
  split at h
  · exact absurd h (by simp)
  all_goals
    injection h with h
    exact ⟨_, h.symm⟩

theorem tryJoin_ok {A B : Type} {t₁ t₂ : Instant} {a : Except TransportError A}
    {b : Except TransportError B} {x : A} {y : B} (h : tryJoin t₁ a t₂ b = .ok (x, y)) :
    a = .ok x ∧ b = .ok y := by
  unfold tryJoin at h
  split at h
  · injection h with h
    injection h with hx hy
    exact ⟨congrArg Except.ok hx, congrArg Except.ok hy⟩
  all_goals exact absurd h (by simp)

/-- A collected stream is the list of its results. -/
theorem tryCollect_ok {A : Type} :
    ∀ {l : List (Except Fault A)} {as : List A}, tryCollect l = .ok as → l = as.map .ok
  | [], as, h => by
      injection h with h
      subst h
      rfl
  | .error f :: _, as, h => by exact absurd h (by simp [tryCollect])
  | .ok a :: rest, as, h => by
      rw [tryCollect] at h
      cases hrest : tryCollect rest with
      | error f => rw [hrest] at h; exact absurd h (by simp)
      | ok bs =>
          rw [hrest] at h
          injection h with h
          subst h
          rw [tryCollect_ok hrest]
          rfl

theorem tryCollect_error {A : Type} :
    ∀ {l : List (Except Fault A)} {f : Fault}, tryCollect l = .error f → .error f ∈ l
  | [], f, h => by exact absurd h (by simp [tryCollect])
  | .error g :: rest, f, h => by
      injection h with h
      exact h ▸ List.mem_cons_self
  | .ok a :: rest, f, h => by
      rw [tryCollect] at h
      cases hrest : tryCollect rest with
      | error g =>
          rw [hrest] at h
          injection h with h
          exact h ▸ List.mem_cons_of_mem _ (tryCollect_error hrest)
      | ok bs => rw [hrest] at h; exact absurd h (by simp)

theorem fetchBlockByHash_ok {tb tr : Instant} {hash : B256} {b : RpcBlock T R}
    (h : fetchBlockByHash P tb tr hash = .ok b) :
    P.getBlockByHash tb hash = .ok (some b.block) ∧
      ∃ rs, P.getBlockReceipts tr (.hash hash) = .ok rs ∧ b.receipts = rs.getD [] := by
  unfold fetchBlockByHash at h
  split at h
  · exact absurd h (by simp)
  · exact absurd h (by simp)
  · rename_i block rs hj
    obtain ⟨hb, hr⟩ := tryJoin_ok hj
    injection h with h
    subst h
    exact ⟨hb, rs, hr, rfl⟩

theorem fetchBlockByHash_error {tb tr : Instant} {hash : B256} {f : Fault}
    (h : fetchBlockByHash P tb tr hash = .error f) : ∃ e, f = .err e := by
  unfold fetchBlockByHash at h
  split at h
  · rename_i f' hj
    injection h with h
    exact h ▸ tryJoin_error hj
  · injection h with h
    exact ⟨_, h.symm⟩
  · exact absurd h (by simp)

theorem fetchBlockByNumber_ok {tb tr : Instant} {n : Nat} {b : RpcBlock T R}
    (h : fetchBlockByNumber P tb tr n = .ok b) :
    P.getBlockByNumber tb (.number n) = .ok (some b.block) ∧
      ∃ rs, P.getBlockReceipts tr (.number n) = .ok rs ∧ b.receipts = rs.getD [] := by
  unfold fetchBlockByNumber at h
  split at h
  · exact absurd h (by simp)
  · exact absurd h (by simp)
  · rename_i block rs hj
    obtain ⟨hb, hr⟩ := tryJoin_ok hj
    injection h with h
    subst h
    exact ⟨hb, rs, hr, rfl⟩

theorem fetchBlockByNumber_error {tb tr : Instant} {n : Nat} {f : Fault}
    (h : fetchBlockByNumber P tb tr n = .error f) : ∃ e, f = .err e := by
  unfold fetchBlockByNumber at h
  split at h
  · rename_i f' hj
    injection h with h
    exact h ▸ tryJoin_error hj
  · injection h with h
    exact ⟨_, h.symm⟩
  · exact absurd h (by simp)

/-- The fetched blocks are the answers to the hashes asked for, in order. -/
theorem fetchBlocksByHash_ok {hashes : List (Nat × B256)} {blocks : List (RpcBlock T R)}
    (h : fetchBlocksByHash P tm hashes = .ok blocks) :
    blocks.length = hashes.length ∧ ∀ (i : Nat) (b : RpcBlock T R) (e : Nat × B256),
      blocks[i]? = some b → hashes[i]? = some e →
      P.getBlockByHash (tm.block i) e.2 = .ok (some b.block) ∧
        ∃ rs, P.getBlockReceipts (tm.receipts i) (.hash e.2) = .ok rs
          ∧ b.receipts = rs.getD [] := by
  have hl := tryCollect_ok h
  refine ⟨by simpa using (congrArg List.length hl).symm, ?_⟩
  intro i b e hb he
  have hi := congrArg (fun l => l[i]?) hl
  simp only [List.getElem?_mapIdx, List.getElem?_map, hb, he, Option.map_some] at hi
  exact fetchBlockByHash_ok (Option.some.inj hi)

theorem fetchBlocksByHash_error {hashes : List (Nat × B256)} {f : Fault}
    (h : fetchBlocksByHash P tm hashes = .error f) : ∃ e, f = .err e := by
  obtain ⟨i, hi, hf⟩ := List.mem_mapIdx.mp (tryCollect_error h)
  exact fetchBlockByHash_error hf

/-- The blocks fetched for an ascent are the ascent: they carry its numbers and
hashes, and each names the one below as its parent. -/
theorem Ascent.fetched {U : B256 → Option RpcHeader} (hhash : ∀ h x, U h = some x → x.hash = h)
    (hby : ∀ t h b, P.getBlockByHash t h = .ok (some b) → U h = some b.header) {base : B256}
    {newChain : List (Nat × B256)} (ha : Ascent P base newChain) {blocks : List (RpcBlock T R)}
    (hf : List.Forall₂ (fun b e => ∃ t, P.getBlockByHash t e.2 = .ok (some b.block))
      blocks newChain) :
    viewEntries blocks = newChain
      ∧ (∀ b ∈ blocks, U b.hash = some b.block.header)
      ∧ (∀ b ∈ blocks.head?, b.parentHash = base)
      ∧ Linked RpcBlock.hash RpcBlock.parentHash blocks := by
  induction ha generalizing blocks with
  | nil base =>
      cases hf
      exact ⟨rfl, by simp, by simp, linked_nil⟩
  | @cons base k t c rest hc hp _ ih =>
      cases hf with
      | @cons b _ bs _ hb htail =>
          obtain ⟨hkeys, hknown, hhead, hlinked⟩ := ih htail
          obtain ⟨t', hb⟩ := hb
          have hUb : U k = some b.block.header := hby t' k b.block hb
          have hheader : c.header = b.block.header :=
            Option.some.inj ((hby t k c hc).symm.trans hUb)
          have hkey : b.hash = k := hhash k _ hUb
          refine ⟨?_, ?_, ?_, ?_⟩
          · show (b.number, b.hash) :: viewEntries bs = _
            rw [hkeys, hkey, hheader]
            rfl
          · intro x hx
            rcases List.mem_cons.mp hx with rfl | hx
            · rw [hkey]
              exact hUb
            · exact hknown x hx
          · intro x hx
            obtain rfl := Option.some.inj hx
            show b.block.header.parentHash = base
            rw [← hheader]
            exact hp
          · exact linked_cons.mpr ⟨fun x hx => (hhead x hx).trans hkey.symm, hlinked⟩

/-- Fetching by hash answers each hash at some instant. -/
theorem fetchBlocksByHash_forall₂ {hashes : List (Nat × B256)} {blocks : List (RpcBlock T R)}
    (h : fetchBlocksByHash P tm hashes = .ok blocks) :
    List.Forall₂ (fun b e => ∃ t, P.getBlockByHash t e.2 = .ok (some b.block)) blocks hashes := by
  obtain ⟨hlen, hget⟩ := fetchBlocksByHash_ok h
  refine List.forall₂_iff_get.mpr ⟨hlen, ?_⟩
  intro i h₁ h₂
  exact ⟨_, (hget i _ _ (List.getElem?_eq_getElem h₁) (List.getElem?_eq_getElem h₂)).1⟩

/-- The fetched blocks are the answers to the numbers of the range, in order. -/
theorem fetchRange_ok {lo hi : Nat} {blocks : List (RpcBlock T R)}
    (h : fetchRange P tm lo hi = .ok blocks) :
    blocks.length = hi + 1 - lo ∧ ∀ (i : Nat) (b : RpcBlock T R), blocks[i]? = some b →
      P.getBlockByNumber (tm.block i) (.number (lo + i)) = .ok (some b.block) ∧
        ∃ rs, P.getBlockReceipts (tm.receipts i) (.number (lo + i)) = .ok rs ∧
          b.receipts = rs.getD [] := by
  have hl := tryCollect_ok h
  have hlen : blocks.length = hi + 1 - lo := by simpa using (congrArg List.length hl).symm
  refine ⟨hlen, ?_⟩
  intro i b hb
  have hlt : i < hi + 1 - lo := by
    rw [← hlen]
    exact (List.getElem?_eq_some_iff.mp hb).1
  have hget := congrArg (fun l => l[i]?) hl
  simp only [List.getElem?_map, List.getElem?_range hlt, hb, Option.map_some] at hget
  exact fetchBlockByNumber_ok (Option.some.inj hget)

theorem fetchRange_error {lo hi : Nat} {f : Fault} (h : fetchRange P tm lo hi = .error f) :
    ∃ e, f = .err e := by
  obtain ⟨i, _, hf⟩ := List.mem_map.mp (tryCollect_error h)
  exact fetchBlockByNumber_error hf

/-- A range fetched by number is numbered from its start. -/
theorem fetchRange_number (hnum : P.AnswersNumber) {lo hi : Nat} {blocks : List (RpcBlock T R)}
    (h : fetchRange P tm lo hi = .ok blocks) (i : Nat) (b : RpcBlock T R)
    (hb : blocks[i]? = some b) : b.number = lo + i :=
  hnum _ _ _ ((fetchRange_ok h).2 i b hb).1

/-! ## Walking -/

theorem walkLoop_error {walk : Nat → Instant} {f : Fault} :
    ∀ (fuel : Nat) (currentHash : B256) (walked : List (Nat × B256)),
      walkLoop P walk s fuel currentHash walked = .error f → ∃ e, f = .err e
  | 0, _, _, h => by exact absurd h (by simp [walkLoop])
  | fuel + 1, currentHash, walked, h => by
      rw [walkLoop] at h
      split at h
      · injection h with h
        exact ⟨_, h.symm⟩
      · injection h with h
        exact ⟨_, h.symm⟩
      · dsimp only at h
        split at h
        · split at h
          · exact absurd h (by simp)
          · split at h <;> exact absurd h (by simp)
        · split at h
          · exact absurd h (by simp)
          · split at h
            · exact absurd h (by simp)
            · split at h
              · exact absurd h (by simp)
              · exact walkLoop_error fuel _ _ h

theorem walkChain_error {walk : Nat → Instant} {startHash : B256} {f : Fault}
    (h : walkChain P walk s startHash = .error f) : ∃ e, f = .err e := by
  unfold walkChain at h
  split at h
  · exact absurd h (by simp)
  · exact walkLoop_error _ _ _ h

theorem walkFromHint_error {hint : B256} {f : Fault} (h : walkFromHint P tm s hint = .error f) :
    ∃ e, f = .err e := by
  unfold walkFromHint at h
  split at h
  · split at h
    · injection h with h
      exact ⟨_, h.symm⟩
    · injection h with h
      exact ⟨_, h.symm⟩
    · exact walkChain_error h
  · exact walkChain_error h

/-- The walk that decided a head: from the hint, or from the block answered for
`latest` once the hint's walk met a missing block. -/
theorem walkFromHint_ok {hint : B256} {w : WalkResult} (h : walkFromHint P tm s hint = .ok w) :
    walkChain P tm.walk s hint = .ok w ∨
      ∃ k latest, walkChain P tm.walk s hint = .error (.err (.missingBlockByHash k)) ∧
        P.getBlockByNumber tm.latest .latest = .ok (some latest) ∧
        walkChain P tm.rewalk s latest.header.hash = .ok w := by
  unfold walkFromHint at h
  split at h
  · rename_i k hk
    split at h
    · exact absurd h (by simp)
    · exact absurd h (by simp)
    · rename_i latest hl
      exact Or.inr ⟨k, latest, hk, hl, h⟩
  · exact Or.inl h

theorem walkFromHint_walked {hint : B256} {w : WalkResult} (hne : s.chainView ≠ [])
    (h : walkFromHint P tm s hint = .ok w) : Walked P s w := by
  rcases walkFromHint_ok h with h | ⟨_, _, _, _, h⟩
  · exact walkChain_walked hne h
  · exact walkChain_walked hne h

/-- The block a walk on an empty view would be shown: the hint's, or that of the
block answered for `latest` if the hint is stale. -/
def firstShown (P : Provider T R) (tm : Timing) (hint : B256) : Option (Block T) :=
  match P.getBlockByHash (tm.walk 0) hint with
  | .error _ => none
  | .ok (some b) => some b
  | .ok none =>
    match P.getBlockByNumber tm.latest .latest with
    | .ok (some latest) =>
      match P.getBlockByHash (tm.rewalk 0) latest.header.hash with
      | .ok (some b) => some b
      | _ => none
    | _ => none

/-- On an empty view the walk advances by exactly the block it is shown. -/
theorem walkFromHint_nil {hint : B256} {w : WalkResult} (hnil : s.chainView = [])
    (h : walkFromHint P tm s hint = .ok w) :
    ∃ (b : Block T) (t : Instant) (k : B256), firstShown P tm hint = some b ∧
      P.getBlockByHash t k = .ok (some b) ∧ w = .advance [(b.header.number, k)] := by
  have hshow {walk : Nat → Instant} {k : B256} {b : Block T}
      (hb : P.getBlockByHash (walk 0) k = .ok (some b)) :
      walkChain P walk s k = .ok (.advance [(b.header.number, k)]) := by
    rw [walkChain_nil hnil, hb]
  unfold firstShown
  cases hq : P.getBlockByHash (tm.walk 0) hint with
  | error e =>
      have hw : walkChain P tm.walk s hint = .error (.err (.rpc e)) := by
        rw [walkChain_nil hnil, hq]
      simp [walkFromHint, hw] at h
  | ok o =>
      cases o with
      | some b =>
          simp only [walkFromHint, hshow hq] at h
          injection h with h
          exact ⟨b, _, hint, rfl, hq, h.symm⟩
      | none =>
          have hw : walkChain P tm.walk s hint = .error (.err (.missingBlockByHash hint)) := by
            rw [walkChain_nil hnil, hq]
          simp only [walkFromHint, hw] at h
          dsimp only
          split at h
          · exact absurd h (by simp)
          · exact absurd h (by simp)
          · rename_i latest hl
            rw [walkChain_nil hnil] at h
            rw [hl]
            dsimp only
            split at h
            · exact absurd h (by simp)
            · exact absurd h (by simp)
            · rename_i b hb
              injection h with h
              rw [hb]
              exact ⟨b, _, latest.header.hash, rfl, hb, h.symm⟩

/-! ## Refreshing the tags -/

/-- A refresh touches nothing but the cached tags and their epoch. -/
theorem maybeRefreshTags_frame {s' : RpcHostNotifier} {timestamp : Nat}
    (h : maybeRefreshTags P tm s timestamp = .ok s') :
    ∃ safe finalized epoch, s' = { s with
      cachedSafe := safe, cachedFinalized := finalized, lastTagEpoch := epoch } := by
  unfold maybeRefreshTags at h
  split at h
  · exact absurd h (by simp)
  · split at h
    · injection h with h
      exact ⟨s.cachedSafe, s.cachedFinalized, s.lastTagEpoch, h.symm⟩
    · split at h
      · exact absurd h (by simp)
      · injection h with h
        exact ⟨_, _, _, h.symm⟩

/-- How an emitting path ends: the refresh succeeds and the notification goes
out, or it fails and the changed state stays. -/
inductive Emitted (P : Provider T R) (tm : Timing) (s : RpcHostNotifier) (timestamp : Nat)
    (kind : HostNotificationKind (RpcChainSegment T R)) :
    Except Fault (HostNotification (RpcChainSegment T R)) → RpcHostNotifier → Prop
  | ok {s' : RpcHostNotifier} (h : maybeRefreshTags P tm s timestamp = .ok s') :
      Emitted P tm s timestamp kind (.ok (notify s' kind)) s'
  | failed {f : Fault} (h : maybeRefreshTags P tm s timestamp = .error f) :
      Emitted P tm s timestamp kind (.error f) s

theorem refreshAndNotify_emitted {timestamp : Nat}
    {kind : HostNotificationKind (RpcChainSegment T R)} :
    Emitted P tm s timestamp kind (refreshAndNotify P tm s timestamp kind).1
      (refreshAndNotify P tm s timestamp kind).2 := by
  unfold refreshAndNotify
  split
  · rename_i h
    exact Emitted.failed h
  · rename_i h
    exact Emitted.ok h

theorem Emitted.frame {s' : RpcHostNotifier} {timestamp : Nat}
    {kind : HostNotificationKind (RpcChainSegment T R)}
    {r : Except Fault (HostNotification (RpcChainSegment T R))}
    (h : Emitted P tm s timestamp kind r s') :
    ∃ safe finalized epoch, s' = { s with
      cachedSafe := safe, cachedFinalized := finalized, lastTagEpoch := epoch } := by
  cases h with
  | ok h => exact maybeRefreshTags_frame h
  | failed h => exact ⟨s.cachedSafe, s.cachedFinalized, s.lastTagEpoch, rfl⟩

/-- What goes out carries the kind it was built with. -/
theorem Emitted.kind_eq {s' : RpcHostNotifier} {timestamp : Nat}
    {kind : HostNotificationKind (RpcChainSegment T R)}
    {n : HostNotification (RpcChainSegment T R)}
    (h : Emitted P tm s timestamp kind (.ok n) s') : n.kind = kind := by
  cases h with
  | ok h => rfl

/-- The only panic of a refresh is the division by zero. -/
theorem Emitted.panic_eq {s' : RpcHostNotifier} {timestamp : Nat}
    {kind : HostNotificationKind (RpcChainSegment T R)} {m : String}
    (h : Emitted P tm s timestamp kind (.error (.panic m)) s') :
    m = "attempt to divide by zero" := by
  cases h with
  | failed h =>
      unfold maybeRefreshTags at h
      split at h
      · rename_i f hep
        unfold epochOf at hep
        split at hep
        · injection hep with hep
          subst hep
          injection h with h
          injection h with h
          exact h.symm
        · exact absurd hep (by simp)
      · split at h
        · exact absurd h (by simp)
        · split at h
          · rename_i hj
            obtain ⟨e, rfl⟩ := tryJoin_error hj
            exact absurd h (by simp)
          · exact absurd h (by simp)

/-! ## The outcomes -/

/-- How `drain_backfill` can end. -/
inductive Drained (P : Provider T R) (tm : Timing) (s : RpcHostNotifier) :
    Option (Except Fault (HostNotification (RpcChainSegment T R))) → RpcHostNotifier → Prop
  | idle (hc : s.backfillFrom = none) : Drained P tm s none s
  | failed {cursor : Nat} (e : RpcHostError) (hc : s.backfillFrom = some cursor) :
      Drained P tm s (some (.error (.err e))) s
  | handover {cursor tip : Nat} (hc : s.backfillFrom = some cursor)
      (ht : P.getBlockNumber tm.blockNumber = .ok tip) (heq : cursor = u64SatAdd tip 1) :
      Drained P tm s none { s with backfillFrom := none }
  | broken {cursor tip : Nat} {blocks : List (RpcBlock T R)} (hc : s.backfillFrom = some cursor)
      (ht : P.getBlockNumber tm.blockNumber = .ok tip) (hlt : cursor < u64SatAdd tip 1)
      (hf : fetchRange P tm cursor (batchEnd s cursor tip) = .ok blocks)
      (hbr : breaksContinuity s blocks = true) :
      Drained P tm s (some (.error (.err .backfillContinuityBreak))) { s with chainView := [] }
  | empty {cursor tip : Nat} (hc : s.backfillFrom = some cursor)
      (ht : P.getBlockNumber tm.blockNumber = .ok tip) (hlt : cursor < u64SatAdd tip 1)
      (hf : fetchRange P tm cursor (batchEnd s cursor tip) = .ok []) :
      Drained P tm s
        (some (.ok (notify (s.backfilled (effectiveCeiling s cursor tip) (batchEnd s cursor tip) [])
          (.chainCommitted ⟨[]⟩))))
        (s.backfilled (effectiveCeiling s cursor tip) (batchEnd s cursor tip) [])
  | batch {cursor tip : Nat} {blocks : List (RpcBlock T R)} {last : RpcBlock T R}
      {r : Except Fault (HostNotification (RpcChainSegment T R))} {s' : RpcHostNotifier}
      (hc : s.backfillFrom = some cursor)
      (ht : P.getBlockNumber tm.blockNumber = .ok tip) (hlt : cursor < u64SatAdd tip 1)
      (hf : fetchRange P tm cursor (batchEnd s cursor tip) = .ok blocks)
      (hbr : breaksContinuity s blocks = false) (hl : blocks.getLast? = some last)
      (he : Emitted P tm (s.backfilled (effectiveCeiling s cursor tip) (batchEnd s cursor tip)
        (viewEntries blocks)) last.timestamp (.chainCommitted ⟨blocks⟩) r s') :
      Drained P tm s (some r) s'

theorem drainBackfill_drained (P : Provider T R) (tm : Timing) (s : RpcHostNotifier) :
    Drained P tm s (drainBackfill P tm s).1 (drainBackfill P tm s).2 := by
  unfold drainBackfill
  split
  · rename_i hc
    exact Drained.idle hc
  · rename_i cursor hc
    split
    · exact Drained.failed _ hc
    · rename_i tip ht
      split
      · rename_i heq
        exact Drained.handover hc ht heq
      · rename_i hne
        split
        · exact Drained.failed _ hc
        · rename_i hle
          have hlt : cursor < u64SatAdd tip 1 :=
            Nat.lt_of_le_of_ne (Nat.le_of_not_lt hle) hne
          split
          · rename_i f hf
            obtain ⟨e, rfl⟩ := fetchRange_error hf
            exact Drained.failed e hc
          · rename_i blocks hf
            split
            · rename_i hbr
              exact Drained.broken hc ht hlt hf hbr
            · rename_i hbr
              dsimp only
              split
              · rename_i hl
                obtain rfl := List.getLast?_eq_none_iff.mp hl
                exact Drained.empty hc ht hlt hf
              · rename_i last hl
                exact Drained.batch hc ht hlt hf (Bool.eq_false_iff.mpr hbr) hl
                  refreshAndNotify_emitted

/-- How `handle_new_head` can end. -/
inductive Handled (P : Provider T R) (tm : Timing) (s : RpcHostNotifier) (header : RpcHeader) :
    Except Fault (Option (HostNotification (RpcChainSegment T R))) → RpcHostNotifier → Prop
  | failed (e : RpcHostError) : Handled P tm s header (.error (.err e)) s
  | seen : Handled P tm s header (.ok none) s
  | exhausted (hw : walkFromHint P tm s header.hash = .ok .exhausted) :
      Handled P tm s header (.ok none) s.reset
  | advance {newChain : List (Nat × B256)} {blocks : List (RpcBlock T R)}
      {r : Except Fault (HostNotification (RpcChainSegment T R))}
      {out : Except Fault (Option (HostNotification (RpcChainSegment T R)))} {s' : RpcHostNotifier}
      (hw : walkFromHint P tm s header.hash = .ok (.advance newChain))
      (hf : fetchBlocksByHash P tm newChain = .ok blocks)
      (he : Emitted P tm (s.advanced newChain) header.timestamp (.chainCommitted ⟨blocks⟩) r s')
      (hr : out = r.map some) : Handled P tm s header out s'
  | reorg {forkNumber oldTip : Nat} {newChain : List (Nat × B256)} {blocks : List (RpcBlock T R)}
      {old : RevertRange} {r : Except Fault (HostNotification (RpcChainSegment T R))}
      {out : Except Fault (Option (HostNotification (RpcChainSegment T R)))} {s' : RpcHostNotifier}
      (hw : walkFromHint P tm s header.hash = .ok (.reorg forkNumber oldTip newChain))
      (hf : fetchBlocksByHash P tm newChain = .ok blocks)
      (ho : RevertRange.new forkNumber oldTip = some old)
      (he : Emitted P tm (s.reorged forkNumber newChain) header.timestamp
        (.chainReorged old ⟨blocks⟩) r s')
      (hr : out = r.map some) : Handled P tm s header out s'
  | panicked {forkNumber oldTip : Nat} {newChain : List (Nat × B256)}
      {blocks : List (RpcBlock T R)}
      (hw : walkFromHint P tm s header.hash = .ok (.reorg forkNumber oldTip newChain))
      (hf : fetchBlocksByHash P tm newChain = .ok blocks)
      (ho : RevertRange.new forkNumber oldTip = none) :
      Handled P tm s header (.error (.panic "RevertRange")) (s.reorged forkNumber newChain)

theorem handleNewHead_handled (P : Provider T R) (tm : Timing) (s : RpcHostNotifier)
    (header : RpcHeader) :
    Handled P tm s header (handleNewHead P tm s header).1 (handleNewHead P tm s header).2 := by
  unfold handleNewHead
  split
  · rename_i f hw
    obtain ⟨e, rfl⟩ := walkFromHint_error hw
    exact Handled.failed e
  · exact Handled.seen
  · rename_i hw
    exact Handled.exhausted hw
  · rename_i newChain hw
    split
    · rename_i f hf
      obtain ⟨e, rfl⟩ := fetchBlocksByHash_error hf
      exact Handled.failed e
    · rename_i blocks hf
      exact Handled.advance hw hf refreshAndNotify_emitted rfl
  · rename_i forkNumber oldTip newChain hw
    split
    · rename_i f hf
      obtain ⟨e, rfl⟩ := fetchBlocksByHash_error hf
      exact Handled.failed e
    · rename_i blocks hf
      split
      · rename_i ho
        exact Handled.panicked hw hf ho
      · rename_i old ho
        exact Handled.reorg hw hf ho refreshAndNotify_emitted rfl

/-- How a turn of the loop can end. -/
inductive Turned (P : Provider T R) (tn : Turn) (s : RpcHostNotifier) :
    Option (Returned T R) → RpcHostNotifier → Prop
  | backfilled {r : Except Fault (HostNotification (RpcChainSegment T R))} {s' : RpcHostNotifier}
      (hd : Drained P tn.timing s (some r) s') : Turned P tn s (some (some r)) s'
  | ended {s' : RpcHostNotifier} (hd : Drained P tn.timing s none s') (hh : tn.head = none) :
      Turned P tn s (some none) s'
  | quiet {header : RpcHeader} {s₁ s₂ : RpcHostNotifier} (hd : Drained P tn.timing s none s₁)
      (hh : tn.head = some header) (h : Handled P tn.timing s₁ header (.ok none) s₂) :
      Turned P tn s none s₂
  | emitted {header : RpcHeader} {n : HostNotification (RpcChainSegment T R)}
      {s₁ s₂ : RpcHostNotifier} (hd : Drained P tn.timing s none s₁)
      (hh : tn.head = some header) (h : Handled P tn.timing s₁ header (.ok (some n)) s₂) :
      Turned P tn s (some (some (.ok n))) s₂
  | failed {header : RpcHeader} {f : Fault} {s₁ s₂ : RpcHostNotifier}
      (hd : Drained P tn.timing s none s₁) (hh : tn.head = some header)
      (h : Handled P tn.timing s₁ header (.error f) s₂) :
      Turned P tn s (some (some (.error f))) s₂

theorem turn_turned (P : Provider T R) (tn : Turn) (s : RpcHostNotifier) :
    Turned P tn s (turn P tn s).1 (turn P tn s).2 := by
  have hd := drainBackfill_drained P tn.timing s
  unfold turn
  split
  · rename_i r s₁ heq
    rw [heq] at hd
    exact Turned.backfilled hd
  · rename_i s₁ heq
    rw [heq] at hd
    split
    · rename_i hh
      exact Turned.ended hd hh
    · rename_i header hh
      have hn := handleNewHead_handled P tn.timing s₁ header
      split
      · rename_i n s₂ heq₂
        rw [heq₂] at hn
        exact Turned.emitted hd hh hn
      · rename_i s₂ heq₂
        rw [heq₂] at hn
        exact Turned.quiet hd hh hn
      · rename_i f s₂ heq₂
        rw [heq₂] at hn
        exact Turned.failed hd hh hn

/-- Before the heads are read the state differs at most in its cursor, which is gone. -/
theorem Drained.none_eq {s' : RpcHostNotifier} (h : Drained P tm s none s') :
    s' = { s with backfillFrom := none } := by
  cases h with
  | idle hc =>
      rw [← hc]
  | handover _ _ _ => rfl

end NodeComponents.HostRpc
