import Mathlib.Order.Nat
import NodeComponents.HostRpc.View

/-!
# The fork point

A hash determines its header, so the ancestors of a hash are determined by depth.
The walk asks for them one after the other and stops at the first that is an entry
of the view: what it returns is a function of the least such depth and of nothing
else, as long as the provider answers for the ancestors it is asked for.

The four other exits do not get in the way. An ancestor below the front of the view
has no entry among its own ancestors, and the depth limit is checked behind the
lookup, so an ancestor at depth `bufferCapacity` is still found.
-/

namespace NodeComponents.HostRpc

open Lib

variable {T R : Type} {P : Provider T R} {s : RpcHostNotifier} {U : B256 → Option RpcHeader}

/-! ## Ancestors -/

/-- The ancestor of a hash at a depth, with its number; the hash itself is at depth zero. -/
def ancestor (U : B256 → Option RpcHeader) : B256 → Nat → Option (Nat × B256)
  | h, 0 => (U h).map fun x => (x.number, h)
  | h, d + 1 => (U h).bind fun x => ancestor U x.parentHash d

/-- The `d` blocks above the ancestor at depth `d`, ascending. -/
def above (U : B256 → Option RpcHeader) : B256 → Nat → List (Nat × B256)
  | _, 0 => []
  | h, d + 1 =>
    match U h with
    | none => []
    | some x => above U x.parentHash d ++ [(x.number, h)]

theorem ancestor_zero {h : B256} {x : RpcHeader} (hx : U h = some x) :
    ancestor U h 0 = some (x.number, h) := by
  unfold ancestor
  rw [hx]
  rfl

theorem ancestor_succ {h : B256} {x : RpcHeader} (hx : U h = some x) (d : Nat) :
    ancestor U h (d + 1) = ancestor U x.parentHash d := by
  rw [ancestor, hx]
  rfl

theorem above_succ {h : B256} {x : RpcHeader} (hx : U h = some x) (d : Nat) :
    above U h (d + 1) = above U x.parentHash d ++ [(x.number, h)] := by
  rw [above, hx]

/-- There is one block above for each depth. -/
theorem above_length {h : B256} {d : Nat} {e : Nat × B256} (he : ancestor U h d = some e) :
    (above U h d).length = d := by
  induction d generalizing h with
  | zero => rfl
  | succ d ih =>
      obtain ⟨x, hx, hrest⟩ := Option.bind_eq_some_iff.mp he
      rw [above_succ hx, List.length_append, ih hrest, List.length_singleton]

/-- The ancestor at a depth is numbered that much lower. -/
theorem ancestor_number (hpar : ∀ h x y, U h = some x → U x.parentHash = some y →
    y.number + 1 = x.number) {h : B256} {x : RpcHeader} (hx : U h = some x) {d : Nat}
    {e : Nat × B256} (he : ancestor U h d = some e) : e.1 + d = x.number := by
  induction d generalizing h x with
  | zero =>
      rw [ancestor_zero hx] at he
      injection he with he
      rw [← he]
      rfl
  | succ d ih =>
      rw [ancestor_succ hx] at he
      obtain ⟨y, hy⟩ : ∃ y, U x.parentHash = some y := by
        cases hq : U x.parentHash with
        | none => cases d <;> simp [ancestor, hq] at he
        | some y => exact ⟨y, rfl⟩
      have hbelow := ih hy he
      have hone := hpar h x y hx hy
      omega

/-! ## The view and the provider -/

/-- A contiguous view of headers. -/
structure HeaderView (U : B256 → Option RpcHeader) (view : List (Nat × B256)) : Prop where
  consecutive : Consecutive Prod.fst view
  header : ∀ e ∈ view, ∃ x, U e.2 = some x ∧ x.number = e.1

/-- A contiguous, hash-linked view: its entries are headers, each the parent of the next. -/
structure LinkedView (U : B256 → Option RpcHeader) (view : List (Nat × B256)) : Prop
    extends HeaderView U view where
  linked : view.IsChain fun a b => ∀ x, U b.2 = some x → x.parentHash = a.2

/-- The ancestor at depth `d` is an entry of the view, and none above it is. -/
structure FirstSeen (U : B256 → Option RpcHeader) (view : List (Nat × B256)) (h : B256) (d : Nat)
    (e : Nat × B256) : Prop where
  ancestor : ancestor U h d = some e
  mem : e ∈ view
  unseen : ∀ i < d, ∀ a, HostRpc.ancestor U h i = some a → a ∉ view

/-- The walk goes on behind the first `d` ancestors: they are not in the view, nor below it. -/
def GoesBehind (U : B256 → Option RpcHeader) (view : List (Nat × B256)) (h : B256) (d : Nat) :
    Prop :=
  ∀ i < d, ∀ a, ancestor U h i = some a →
    a ∉ view ∧ ¬ (view.head?.any fun front => a.1 < front.1) = true

/-- The provider serves the ancestors of `h` as deep as a walk from it goes, its first call
being the one at instant `walk first`. -/
def ServesWalk (P : Provider T R) (walk : Nat → Instant) (U : B256 → Option RpcHeader)
    (s : RpcHostNotifier) (first : Nat) (h : B256) : Prop :=
  ∀ d, first + d ≤ s.bufferCapacity → GoesBehind U s.chainView h d →
    ∃ e b, ancestor U h d = some e ∧ P.getBlockByHash (walk (first + d)) e.2 = .ok (some b)

theorem goesBehind_succ {view : List (Nat × B256)} {h : B256} {x : RpcHeader} (hx : U h = some x)
    (hnot : (x.number, h) ∉ view)
    (hfront : ¬ (view.head?.any fun front => x.number < front.1) = true)
    {d : Nat} (hd : GoesBehind U view x.parentHash d) : GoesBehind U view h (d + 1) := by
  intro i hi a ha
  cases i with
  | zero =>
      rw [ancestor_zero hx] at ha
      injection ha with ha
      subst ha
      exact ⟨hnot, hfront⟩
  | succ i =>
      rw [ancestor_succ hx] at ha
      exact hd i (by omega) a ha

/-- A walk that goes on is served at the parent. -/
theorem ServesWalk.parent {walk : Nat → Instant} {first : Nat} {h : B256} {x : RpcHeader}
    (hs : ServesWalk P walk U s first h) (hx : U h = some x) (hnot : (x.number, h) ∉ s.chainView)
    (hfront : ¬ (s.chainView.head?.any fun front => x.number < front.1) = true) :
    ServesWalk P walk U s (first + 1) x.parentHash := by
  intro d hd hgoes
  obtain ⟨e, b, he, hb⟩ := hs (d + 1) (by omega) (goesBehind_succ hx hnot hfront hgoes)
  rw [ancestor_succ hx] at he
  rw [show first + (d + 1) = first + 1 + d by omega] at hb
  exact ⟨e, b, he, hb⟩

/-- What is asked for first is a header with its number. -/
theorem ServesWalk.head (hU : P.Immutable U) {walk : Nat → Instant} {first : Nat} {h : B256}
    (hs : ServesWalk P walk U s first h) (hfirst : first ≤ s.bufferCapacity) :
    ∃ b, P.getBlockByHash (walk first) h = .ok (some b) ∧ U h = some b.header := by
  obtain ⟨e, b, he, hb⟩ := hs 0 hfirst fun i hi => absurd hi (Nat.not_lt_zero i)
  obtain ⟨x, hx, rfl⟩ := Option.map_eq_some_iff.mp he
  exact ⟨b, hb, hU.byHash _ _ b hb⟩

/-! ## The loop -/

/-- Nothing is found below the front. -/
theorem viewHash_below {view : List (Nat × B256)} {n : Nat}
    (h : (view.head?.any fun front => n < front.1) = true) : viewHash view n = none := by
  unfold viewHash
  cases hq : view.head? with
  | none => rfl
  | some front =>
      rw [hq, Option.any_some, decide_eq_true_eq] at h
      exact if_pos h

/-- A number above an entry of the view is not below the front. -/
theorem not_below_front {view : List (Nat × B256)} (hc : Consecutive Prod.fst view)
    {e : Nat × B256} (he : e ∈ view) {n : Nat} (hn : e.1 ≤ n) :
    ¬ (view.head?.any fun front => n < front.1) = true := by
  cases view with
  | nil => simp
  | cons front rest =>
      have hle : front.1 ≤ e.1 := by
        rcases List.mem_cons.mp he with heq | hmem
        · exact heq ▸ Nat.le_refl _
        · exact hc.head_le hmem
      simp only [List.head?_cons, Option.any_some, decide_eq_true_eq]
      omega

/-- What the walk returns at an entry of the view, below some new blocks. -/
def foundAt (s : RpcHostNotifier) (e : Nat × B256) (newChain : List (Nat × B256)) : WalkResult :=
  if newChain = [] then .alreadySeen
  else if e.1 = (s.tip.map Prod.fst).getD 0 then .advance newChain
  else .reorg (u64Add e.1 1) ((s.tip.map Prod.fst).getD 0) newChain

/-- One turn of the loop, at a block that is served. -/
theorem walkLoop_served {walk : Nat → Instant} (hc : Consecutive Prod.fst s.chainView)
    (hne : s.chainView ≠ []) {fuel : Nat} {h : B256} {walked : List (Nat × B256)} {b : Block T}
    (hb : P.getBlockByHash (walk walked.length) h = .ok (some b)) :
    walkLoop P walk s (fuel + 1) h walked =
      if (b.header.number, h) ∈ s.chainView then .ok (foundAt s (b.header.number, h) walked)
      else if s.chainView.head?.any fun front => b.header.number < front.1 then .ok .exhausted
      else if s.bufferCapacity < walked.length + 1 then .ok .exhausted
      else walkLoop P walk s fuel b.header.parentHash ((b.header.number, h) :: walked) := by
  rw [walkLoop, hb]
  dsimp only
  by_cases hmem : (b.header.number, h) ∈ s.chainView
  · rw [if_pos ((viewHash_eq_some hc).mpr hmem), if_pos hmem]
    unfold foundAt
    split
    · rfl
    · split <;> rfl
  · rw [if_neg (fun hv => hmem ((viewHash_eq_some hc).mp hv)), if_neg hne, if_neg hmem]
    by_cases hfront : (s.chainView.head?.any fun front => b.header.number < front.1) = true
    · rw [if_pos hfront, if_pos ⟨viewHash_below hfront, hfront⟩]
    · rw [if_neg hfront, if_neg fun h => hfront h.2]

/-- **The loop stops at the first ancestor that is an entry of the view.** -/
theorem walkLoop_found (hU : P.Immutable U) (hview : HeaderView U s.chainView)
    {walk : Nat → Instant} {e : Nat × B256} :
    ∀ (d fuel : Nat) (h : B256) (walked : List (Nat × B256)),
      FirstSeen U s.chainView h d e → walked.length + d ≤ s.bufferCapacity → d < fuel →
      ServesWalk P walk U s walked.length h →
      walkLoop P walk s fuel h walked = .ok (foundAt s e (above U h d ++ walked))
  | _, 0, _, _, _, _, hfuel, _ => absurd hfuel (Nat.not_lt_zero _)
  | d, fuel + 1, h, walked, hfirst, hdeep, hfuel, hs => by
      obtain ⟨b, hb, hx⟩ := hs.head hU (by omega)
      rw [walkLoop_served hview.consecutive (List.ne_nil_of_mem hfirst.mem) hb]
      cases d with
      | zero =>
          have he := hfirst.ancestor
          rw [ancestor_zero hx] at he
          injection he with he
          rw [he, if_pos hfirst.mem]
          rfl
      | succ d =>
          have hnot := hfirst.unseen 0 (Nat.succ_pos d) _ (ancestor_zero hx)
          -- the entry below is numbered lower, and is not below the front
          have hfront :
              ¬ (s.chainView.head?.any fun front => b.header.number < front.1) = true := by
            have hnum := ancestor_number hU.parent hx hfirst.ancestor
            exact not_below_front hview.consecutive hfirst.mem (by omega)
          have hparent : FirstSeen U s.chainView b.header.parentHash d e := by
            refine ⟨by rw [← ancestor_succ hx]; exact hfirst.ancestor, hfirst.mem, ?_⟩
            intro i hi a ha
            exact hfirst.unseen (i + 1) (by omega) a (by rw [ancestor_succ hx]; exact ha)
          rw [if_neg hnot, if_neg hfront, if_neg (by omega), above_succ hx, List.append_assoc,
            List.singleton_append]
          exact walkLoop_found hU hview d fuel _ _ hparent (by rw [List.length_cons]; omega)
            (by omega)
            (hs.parent hx hnot hfront)

/-- **The loop gives up where no ancestor in reach is an entry of the view.** -/
theorem walkLoop_exhausted (hU : P.Immutable U) (hview : HeaderView U s.chainView)
    (hne : s.chainView ≠ []) {walk : Nat → Instant} :
    ∀ (fuel : Nat) (h : B256) (walked : List (Nat × B256)),
      (∀ d, walked.length + d ≤ s.bufferCapacity → ∀ a, ancestor U h d = some a →
        a ∉ s.chainView) →
      walked.length ≤ s.bufferCapacity → ServesWalk P walk U s walked.length h →
      walkLoop P walk s fuel h walked = .ok .exhausted
  | 0, _, _, _, _, _ => rfl
  | fuel + 1, h, walked, hnone, hdeep, hs => by
      obtain ⟨b, hb, hx⟩ := hs.head hU hdeep
      have hnot := hnone 0 hdeep _ (ancestor_zero hx)
      rw [walkLoop_served hview.consecutive hne hb, if_neg hnot]
      split
      · rfl
      · rename_i hfront
        split
        · rfl
        · rename_i hlimit
          refine walkLoop_exhausted hU hview hne fuel _ _ ?_ (by rw [List.length_cons]; omega)
            (hs.parent hx hnot hfront)
          intro d hd a ha
          rw [List.length_cons] at hd
          exact hnone (d + 1) (by omega) a (by rw [ancestor_succ hx]; exact ha)

/-! ## The header requests -/

/-- The hashes the loop asks for, in order. -/
def walkRequests (P : Provider T R) (walk : Nat → Instant) (s : RpcHostNotifier) :
    Nat → B256 → List (Nat × B256) → List B256
  | 0, _, _ => []
  | fuel + 1, h, walked =>
    match P.getBlockByHash (walk walked.length) h with
    | .error _ => [h]
    | .ok none => [h]
    | .ok (some block) =>
      if viewHash s.chainView block.header.number = some h ∨ s.chainView = [] ∨
          (viewHash s.chainView block.header.number = none ∧
            (s.chainView.head?.any fun front => block.header.number < front.1)) ∨
          s.bufferCapacity < walked.length + 1 then [h]
      else h :: walkRequests P walk s fuel block.header.parentHash
        ((block.header.number, h) :: walked)

/-- **The loop depends on the provider through these requests only.** -/
theorem walkLoop_congr {P' : Provider T R} {walk : Nat → Instant} :
    ∀ (fuel : Nat) (h : B256) (walked : List (Nat × B256)),
      (∀ i k, (walkRequests P walk s fuel h walked)[i]? = some k →
        P'.getBlockByHash (walk (walked.length + i)) k
          = P.getBlockByHash (walk (walked.length + i)) k) →
      walkLoop P' walk s fuel h walked = walkLoop P walk s fuel h walked
  | 0, _, _, _ => rfl
  | fuel + 1, h, walked, hsame => by
      have hfirst : P'.getBlockByHash (walk walked.length) h
          = P.getBlockByHash (walk walked.length) h := by
        refine hsame 0 h ?_
        rw [walkRequests]
        split
        · rfl
        · rfl
        · split <;> rfl
      rw [walkLoop, walkLoop, hfirst]
      split
      · rfl
      · rfl
      · rename_i b hb
        dsimp only
        split
        · rfl
        · rename_i hv
          split
          · rfl
          · rename_i hnil
            split
            · rfl
            · rename_i hfront
              split
              · rfl
              · rename_i hlimit
                refine walkLoop_congr fuel _ _ fun i k hik => ?_
                have hlater := hsame (i + 1) k
                rw [walkRequests, hb] at hlater
                dsimp only at hlater
                rw [if_neg (by
                  intro hstop
                  rcases hstop with h | h | h | h
                  · exact hv h
                  · exact hnil h
                  · exact hfront h
                  · exact hlimit h)] at hlater
                rw [List.length_cons, show walked.length + 1 + i = walked.length + (i + 1) by omega]
                exact hlater (by rw [List.getElem?_cons_succ]; exact hik)

/-- **No view and no hint takes more than `bufferCapacity + 1` requests.** -/
theorem walkRequests_length_le (walk : Nat → Instant) :
    ∀ (fuel : Nat) (h : B256) (walked : List (Nat × B256)), walked.length ≤ s.bufferCapacity →
      (walkRequests P walk s fuel h walked).length + walked.length ≤ s.bufferCapacity + 1
  | 0, _, _, hle => by
      rw [walkRequests, List.length_nil]
      omega
  | fuel + 1, h, walked, hle => by
      rw [walkRequests]
      split
      · rw [List.length_singleton]; omega
      · rw [List.length_singleton]; omega
      · rename_i b _
        split
        · rw [List.length_singleton]; omega
        · rename_i hgo
          have hlimit : walked.length + 1 ≤ s.bufferCapacity :=
            Nat.le_of_not_lt fun hlt => hgo (Or.inr (Or.inr (Or.inr hlt)))
          have hrest := walkRequests_length_le walk fuel b.header.parentHash
            ((b.header.number, h) :: walked) (by rw [List.length_cons]; exact hlimit)
          rw [List.length_cons] at hrest ⊢
          omega

/-! ## The walk -/

/-- What is returned at an entry of the view, in the words of the fork point. -/
theorem foundAt_eq (hview : HeaderView U s.chainView) {e tip : Nat × B256} (he : e ∈ s.chainView)
    (htip : s.tip = some tip) {newChain : List (Nat × B256)} (hne : newChain ≠ []) :
    foundAt s e newChain
      = if e = tip then .advance newChain else .reorg (e.1 + 1) tip.1 newChain := by
  unfold foundAt
  rw [if_neg hne, htip, Option.map_some, Option.getD_some]
  by_cases heq : e = tip
  · rw [if_pos heq, if_pos (congrArg Prod.fst heq)]
  · have hnum : e.1 ≠ tip.1 := fun h => heq (hview.consecutive.inj he (tip_mem htip) h)
    -- a fork number is at most the number of the tip, which is a `u64`
    have hlt : e.1 + 1 < u64Size := by
      have hle := hview.consecutive.le_last he htip
      obtain ⟨x, _, hx⟩ := hview.header tip (tip_mem htip)
      have := x.number_lt
      omega
    rw [if_neg heq, if_neg hnum, u64Add_of_lt hlt]

/-- The tip is its own ancestor at depth zero. -/
theorem HeaderView.tip_ancestor (hview : HeaderView U s.chainView) {t : Nat × B256}
    (ht : s.tip = some t) : ancestor U t.2 0 = some t := by
  obtain ⟨x, hx, hnum⟩ := hview.header t (tip_mem ht)
  rw [ancestor_zero hx, hnum]

/-- **The walk at the first ancestor that is an entry of the view.** -/
theorem walkChain_found (hU : P.Immutable U) (hview : HeaderView U s.chainView)
    {walk : Nat → Instant} {h : B256}
    (hserve : (∀ e, s.tip = some e → e.2 ≠ h) → ServesWalk P walk U s 0 h) {d : Nat}
    {e : Nat × B256} (hfirst : FirstSeen U s.chainView h d e) (hd : d ≤ s.bufferCapacity) :
    walkChain P walk s h = .ok (foundAt s e (above U h d)) := by
  unfold walkChain
  by_cases htip : (s.tip.any fun e => e.2 = h) = true
  · -- the shortcut: the hash is the tip's, which is its own ancestor at depth zero
    rw [if_pos htip]
    obtain ⟨t, ht⟩ := exists_tip (List.ne_nil_of_mem hfirst.mem)
    rw [ht, Option.any_some, decide_eq_true_eq] at htip
    have hd0 : d = 0 := by
      refine Nat.eq_zero_of_not_pos fun hpos => ?_
      exact hfirst.unseen 0 hpos t (htip ▸ hview.tip_ancestor ht) (tip_mem ht)
    subst hd0
    rfl
  · rw [if_neg htip]
    have hs : ServesWalk P walk U s 0 h := by
      refine hserve fun e he hh => htip ?_
      rw [he, Option.any_some, hh, decide_eq_true_eq]
    have hloop := walkLoop_found hU hview d (s.bufferCapacity + 1) h [] hfirst
      (by rw [List.length_nil]; omega) (by omega) hs
    rwa [List.append_nil] at hloop

/-- **The walk where no ancestor in reach is an entry of the view.** -/
theorem walkChain_exhausted (hU : P.Immutable U) (hview : HeaderView U s.chainView)
    (hne : s.chainView ≠ []) {walk : Nat → Instant} {h : B256}
    (hserve : (∀ e, s.tip = some e → e.2 ≠ h) → ServesWalk P walk U s 0 h)
    (hnone : ∀ d ≤ s.bufferCapacity, ∀ a, ancestor U h d = some a → a ∉ s.chainView) :
    walkChain P walk s h = .ok .exhausted := by
  have htip : ∀ e, s.tip = some e → e.2 ≠ h := by
    intro t ht hth
    exact hnone 0 (Nat.zero_le _) t (hth ▸ hview.tip_ancestor ht) (tip_mem ht)
  unfold walkChain
  rw [if_neg]
  · refine walkLoop_exhausted hU hview hne _ h [] ?_ (Nat.zero_le _) (hserve htip)
    intro d hd
    rw [List.length_nil, Nat.zero_add] at hd
    exact hnone d hd
  · intro h
    obtain ⟨t, ht⟩ := exists_tip hne
    rw [ht, Option.any_some, decide_eq_true_eq] at h
    exact htip t ht h

/-- Some ancestor in reach is the first that is an entry of the view, or none is an entry. -/
theorem firstSeen_or (U : B256 → Option RpcHeader) (view : List (Nat × B256)) (h : B256) (c : Nat) :
    (∃ d ≤ c, ∃ e, FirstSeen U view h d e)
      ∨ ∀ d ≤ c, ∀ a, ancestor U h d = some a → a ∉ view := by
  by_cases hsome : ∃ d, d ≤ c ∧ ∃ e, ancestor U h d = some e ∧ e ∈ view
  · obtain ⟨hle, e, he, hmem⟩ := Nat.find_spec hsome
    refine Or.inl ⟨Nat.find hsome, hle, e, he, hmem, ?_⟩
    intro i hi a ha hin
    exact Nat.find_min hsome hi ⟨by omega, a, ha, hin⟩
  · exact Or.inr fun d hd a ha hin => hsome ⟨d, hd, a, ha, hin⟩

/-- **`walk_chain` computes the fork point**: what it returns says at which depth the first
ancestor is that is an entry of the view, with at most `bufferCapacity + 1` requests. -/
theorem walkChain_forkPoint (P : Provider T R) (walk : Nat → Instant) (s : RpcHostNotifier)
    (h : B256) :
    (∀ fuel, (walkRequests P walk s fuel h []).length ≤ s.bufferCapacity + 1
        ∧ walkLoop P walk s (s.bufferCapacity + 1 + fuel) h []
          = walkLoop P walk s (s.bufferCapacity + 1) h [])
      ∧ ∀ (U : B256 → Option RpcHeader) (tip : Nat × B256), P.Immutable U →
        LinkedView U s.chainView → s.tip = some tip → s.chainView.length ≤ s.bufferCapacity →
        (tip.2 ≠ h → ServesWalk P walk U s 0 h) →
        (walkChain P walk s h = .ok .alreadySeen ↔ ∃ e, FirstSeen U s.chainView h 0 e)
          ∧ (∀ d e, FirstSeen U s.chainView h d e → 1 ≤ d → d ≤ s.bufferCapacity →
              (above U h d).length = d ∧ walkChain P walk s h
                = .ok (if e = tip then .advance (above U h d)
                    else .reorg (e.1 + 1) tip.1 (above U h d)))
          ∧ (walkChain P walk s h = .ok .exhausted
              ↔ ∀ d ≤ s.bufferCapacity, ∀ e, ¬ FirstSeen U s.chainView h d e) := by
  refine ⟨fun fuel => ⟨?_, walkLoop_fuel fuel _ h [] (Nat.zero_le _) (by simp)⟩, ?_⟩
  · have hle := walkRequests_length_le (P := P) (s := s) walk fuel h [] (Nat.zero_le _)
    rwa [List.length_nil, Nat.add_zero] at hle
  intro U tip hU hlink htip _ hserve
  have hview := hlink.toHeaderView
  have hs : (∀ e, s.tip = some e → e.2 ≠ h) → ServesWalk P walk U s 0 h :=
    fun hne => hserve (hne tip htip)
  have hfound : ∀ {d : Nat} {e : Nat × B256}, FirstSeen U s.chainView h d e → 1 ≤ d →
      d ≤ s.bufferCapacity → (above U h d).length = d ∧ walkChain P walk s h
        = .ok (if e = tip then .advance (above U h d)
            else .reorg (e.1 + 1) tip.1 (above U h d)) := by
    intro d e hfirst hpos hd
    have hlen := above_length hfirst.ancestor
    have hne : above U h d ≠ [] := List.ne_nil_of_length_pos (by omega)
    rw [walkChain_found hU hview hs hfirst hd, foundAt_eq hview hfirst.mem htip hne]
    exact ⟨hlen, rfl⟩
  have hseen : ∀ {e : Nat × B256}, FirstSeen U s.chainView h 0 e →
      walkChain P walk s h = .ok .alreadySeen := by
    intro e hfirst
    exact walkChain_found hU hview hs hfirst (Nat.zero_le _)
  have hnone := walkChain_exhausted hU hview (List.ne_nil_of_mem (tip_mem htip)) hs
  refine ⟨⟨fun hw => ?_, fun ⟨e, hfirst⟩ => hseen hfirst⟩, fun d e => hfound, fun hw => ?_,
    fun hno => ?_⟩
  · rcases firstSeen_or U s.chainView h s.bufferCapacity with ⟨d, hd, e, hfirst⟩ | hno
    · cases d with
      | zero => exact ⟨e, hfirst⟩
      | succ d =>
          rw [(hfound hfirst (Nat.succ_pos d) hd).2] at hw
          split at hw <;> simp at hw
    · rw [hnone hno] at hw
      simp at hw
  · intro d hd e hfirst
    cases d with
    | zero => rw [hseen hfirst] at hw; simp at hw
    | succ d =>
        rw [(hfound hfirst (Nat.succ_pos d) hd).2] at hw
        split at hw <;> simp at hw
  · rcases firstSeen_or U s.chainView h s.bufferCapacity with ⟨d, hd, e, hfirst⟩ | hno'
    · exact absurd hfirst (hno d hd e)
    · exact hnone hno'

/-- A replacement of the tip is found one block above the entry below it. -/
theorem walkChain_forkPoint_replacement :
    let known := [bareBlock 11 1 10, bareBlock 12 2 11, bareBlock 22 2 11]
    let s := { RpcHostNotifier.new 4 8 12 0 with chainView := [(1, 11), (2, 12)] }
    walkChain (Provider.serving known fun _ => known) id s 22 = .ok (.reorg 2 2 [(2, 22)]) := by
  intro known s
  have hU : (Provider.serving [bareBlock 11 1 10, bareBlock 12 2 11, bareBlock 22 2 11]
      fun _ => [bareBlock 11 1 10, bareBlock 12 2 11, bareBlock 22 2 11]).Immutable _ :=
    serving_immutable (fun _ => by decide) (by decide)
  have hlink : LinkedView (fun h => (known.find? fun b => b.hash = h).map fun b => b.block.header)
      s.chainView := by
    refine ⟨⟨consecutive_cons_cons.mpr ⟨rfl, consecutive_singleton _⟩, ?_⟩, ?_⟩
    · intro e he
      rcases List.mem_cons.mp he with rfl | he
      · exact ⟨_, rfl, rfl⟩
      · rw [List.mem_singleton.mp he]
        exact ⟨_, rfl, rfl⟩
    · refine List.isChain_pair.mpr ?_
      intro x hx
      injection hx with hx
      rw [← hx]
      rfl
  have hfirst : FirstSeen (fun h => (known.find? fun b => b.hash = h).map fun b => b.block.header)
      s.chainView 22 1 (1, 11) := by
    refine ⟨by decide, by decide, ?_⟩
    intro i hi a ha
    obtain rfl := Nat.lt_one_iff.mp hi
    obtain rfl := Option.some.inj (ha.symm.trans (by decide :
      _ = some ((2 : Nat), (22 : B256))))
    decide
  have hserve : ServesWalk (Provider.serving known fun _ => known) id
      (fun h => (known.find? fun b => b.hash = h).map fun b => b.block.header) s 0 22 := by
    intro d _ hgoes
    match d, hgoes with
    | 0, _ => exact ⟨(2, 22), (bareBlock 22 2 11).block, by decide, rfl⟩
    | 1, _ => exact ⟨(1, 11), (bareBlock 11 1 10).block, by decide, rfl⟩
    | d + 2, hgoes => exact absurd hfirst.mem (hgoes 1 (by omega) _ hfirst.ancestor).1
  obtain ⟨_, hreturn⟩ := walkChain_forkPoint (Provider.serving known fun _ => known) id s 22
  obtain ⟨_, hreorg, _⟩ := hreturn _ (2, 12) hU hlink rfl (by decide) fun _ => hserve
  exact (hreorg 1 (1, 11) hfirst (by decide) (by decide)).2

end NodeComponents.HostRpc
