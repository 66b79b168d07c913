import NodeComponents.HostRpc.Notifier
import NodeComponents.Lib.Heights

/-!
# What the hash walk returns

`view_hash` looks a number up by its offset from the front, which is right only
while the view is numbered without a gap. On such a view the lookup is plain
membership, and a walk that ends in an advance or a reorg has climbed down a
chain of parent hashes to an entry of the view: the new blocks are an `Ascent`
from that entry.
-/

namespace NodeComponents.HostRpc

open Lib

variable {T R : Type} {P : Provider T R} {s : RpcHostNotifier}

/-! ## Looking up the view -/

/-- **On a view without gaps the lookup is membership.** -/
theorem viewHash_eq_some {view : List (Nat × B256)} (h : Consecutive Prod.fst view)
    {n : Nat} {k : B256} : viewHash view n = some k ↔ (n, k) ∈ view := by
  unfold viewHash
  cases view with
  | nil => simp
  | cons front rest =>
      dsimp only [List.head?_cons]
      constructor
      · intro hk
        split at hk
        · exact absurd hk (by simp)
        · rename_i hle
          obtain ⟨e, he, hek⟩ := Option.map_eq_some_iff.mp hk
          have hnum := h.getElem? rfl he
          have hen : e = (n, k) := Prod.ext (by omega) hek
          exact hen ▸ List.mem_of_getElem? he
      · intro hmem
        obtain ⟨i, hi⟩ := List.mem_iff_getElem?.mp hmem
        have hnum := h.getElem? rfl hi
        dsimp only at hnum
        rw [if_neg (by omega), show n - front.1 = i by omega, hi]
        rfl

/-- On a view without gaps the debug assertion of `view_hash` holds. -/
theorem viewHashAsserts_of_consecutive {view : List (Nat × B256)}
    (h : Consecutive Prod.fst view) (number : Nat) : viewHashAsserts view number := by
  intro front found hfront hle hfound
  have hnum := h.getElem? hfront hfound
  omega

theorem viewHash_nil {n : Nat} : viewHash [] n = none := rfl

theorem tip_eq_none (h : s.chainView = []) : s.tip = none := by
  unfold RpcHostNotifier.tip
  rw [h, List.getLast?_nil]

theorem exists_tip (h : s.chainView ≠ []) : ∃ e, s.tip = some e := by
  unfold RpcHostNotifier.tip
  cases hq : s.chainView.getLast? with
  | none => exact absurd (List.getLast?_eq_none_iff.mp hq) h
  | some e => exact ⟨e, rfl⟩

theorem tip_mem {e : Nat × B256} (h : s.tip = some e) : e ∈ s.chainView :=
  List.mem_of_getLast? h

/-! ## The blocks a walk collects -/

/--
`newChain` climbs from the block with hash `base`: the provider answered a block
for each of its hashes, whose parent is the block below, and whose number is the
one recorded.
-/
inductive Ascent (P : Provider T R) : B256 → List (Nat × B256) → Prop
  | nil (base : B256) : Ascent P base []
  | cons {base h : B256} {t : Instant} {b : Block T} {rest : List (Nat × B256)}
      (hb : P.getBlockByHash t h = .ok (some b)) (hp : b.header.parentHash = base)
      (hr : Ascent P h rest) : Ascent P base ((b.header.number, h) :: rest)

/-- An ascent is numbered without a gap, starting above its base. -/
theorem Ascent.consecutive (hpar : P.ParentOneLower) {base : B256} {l : List (Nat × B256)}
    (h : Ascent P base l) {t : Instant} {c : Block T}
    (hc : P.getBlockByHash t base = .ok (some c)) :
    Consecutive Prod.fst ((c.header.number, base) :: l) := by
  induction h generalizing t c with
  | nil => exact consecutive_singleton _
  | @cons base h t' b rest hb hp _ ih =>
      refine consecutive_cons_cons.mpr ⟨?_, ih hb⟩
      have hlower := hpar t' t h b c hb (hp ▸ hc)
      exact hlower.symm

/-- Every number of an ascent is a `u64`. -/
theorem Ascent.number_lt {base : B256} {l : List (Nat × B256)} (h : Ascent P base l) :
    ∀ e ∈ l, e.1 < u64Size := by
  induction h with
  | nil => simp
  | @cons base h t b rest _ _ _ ih =>
      intro e he
      rcases List.mem_cons.mp he with rfl | he
      · exact b.header.number_lt
      · exact ih e he

/-- What a walk on a non-empty view can return. -/
inductive Walked (P : Provider T R) (s : RpcHostNotifier) : WalkResult → Prop
  | alreadySeen : Walked P s .alreadySeen
  | exhausted : Walked P s .exhausted
  | advance {t : Instant} {hash : B256} {b : Block T} {newChain : List (Nat × B256)}
      (hb : P.getBlockByHash t hash = .ok (some b))
      (hv : viewHash s.chainView b.header.number = some hash)
      (ht : b.header.number = (s.tip.map Prod.fst).getD 0)
      (ha : Ascent P hash newChain) (hne : newChain ≠ []) : Walked P s (.advance newChain)
  | reorg {t : Instant} {hash : B256} {b : Block T} {newChain : List (Nat × B256)}
      (hb : P.getBlockByHash t hash = .ok (some b))
      (hv : viewHash s.chainView b.header.number = some hash)
      (ht : b.header.number ≠ (s.tip.map Prod.fst).getD 0)
      (ha : Ascent P hash newChain) (hne : newChain ≠ []) :
      Walked P s (.reorg (u64Add b.header.number 1) ((s.tip.map Prod.fst).getD 0) newChain)

/-- The loop keeps the walked blocks an ascent from the hash it asks for next. -/
theorem walkLoop_walked {walk : Nat → Instant} (hne : s.chainView ≠ []) :
    ∀ (fuel : Nat) (currentHash : B256) (walked : List (Nat × B256)) {w : WalkResult},
      Ascent P currentHash walked → walkLoop P walk s fuel currentHash walked = .ok w →
      Walked P s w
  | 0, _, _, w, _, h => by
      injection h with h
      exact h ▸ Walked.exhausted
  | fuel + 1, currentHash, walked, w, ha, h => by
      rw [walkLoop] at h
      split at h
      · exact absurd h (by simp)
      · exact absurd h (by simp)
      · rename_i b hb
        dsimp only at h
        split at h
        · rename_i hv
          split at h
          · injection h with h
            exact h ▸ Walked.alreadySeen
          · rename_i hwalked
            split at h
            · rename_i ht
              injection h with h
              exact h ▸ Walked.advance hb hv ht ha hwalked
            · rename_i ht
              injection h with h
              exact h ▸ Walked.reorg hb hv ht ha hwalked
        · split at h
          · injection h with h
            exact h ▸ Walked.exhausted
          · split at h
            · injection h with h
              exact h ▸ Walked.exhausted
            · exact walkLoop_walked hne fuel _ _ (Ascent.cons hb rfl ha) h

theorem walkChain_walked {walk : Nat → Instant} {startHash : B256} {w : WalkResult}
    (hne : s.chainView ≠ []) (h : walkChain P walk s startHash = .ok w) : Walked P s w := by
  unfold walkChain at h
  split at h
  · injection h with h
    exact h ▸ Walked.alreadySeen
  · exact walkLoop_walked hne _ _ _ (Ascent.nil _) h

/-- **On an empty view the walk takes the first block it is shown.** -/
theorem walkChain_nil {walk : Nat → Instant} {startHash : B256} (hnil : s.chainView = []) :
    walkChain P walk s startHash =
      match P.getBlockByHash (walk 0) startHash with
      | .error e => .error (.err (.rpc e))
      | .ok none => .error (.err (.missingBlockByHash startHash))
      | .ok (some block) => .ok (.advance [(block.header.number, startHash)]) := by
  unfold walkChain
  rw [if_neg (by simp [tip_eq_none hnil]), walkLoop]
  simp only [List.length_nil, hnil, viewHash_nil]
  cases P.getBlockByHash (walk 0) startHash with
  | error e => rfl
  | ok b => cases b <;> rfl

/-- **The fuel never runs out**: beyond the depth limit it makes no difference. -/
theorem walkLoop_fuel {walk : Nat → Instant} (extra : Nat) :
    ∀ (fuel : Nat) (currentHash : B256) (walked : List (Nat × B256)),
      walked.length ≤ s.bufferCapacity → s.bufferCapacity < fuel + walked.length →
      walkLoop P walk s (fuel + extra) currentHash walked
        = walkLoop P walk s fuel currentHash walked
  | 0, _, _, hle, hlt => by omega
  | fuel + 1, currentHash, walked, hle, hlt => by
      rw [show fuel + 1 + extra = (fuel + extra) + 1 by omega, walkLoop, walkLoop]
      split
      · rfl
      · rfl
      · rename_i b _
        dsimp only
        by_cases hdeep : s.bufferCapacity < walked.length + 1
        · simp only [if_pos hdeep]
        · rw [walkLoop_fuel extra fuel b.header.parentHash _ (by simp; omega) (by simp; omega)]

end NodeComponents.HostRpc
