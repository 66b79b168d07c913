import Mathlib.Data.List.Basic
import NodeComponents.Lib.Run
import NodeComponents.NodeTypes

/-!
# Alias oracles

A transaction that a host contract sends to the rollup is sent from an aliased address.
Whether an address is one of a contract is asked of the host: over RPC, by the code at the
address, or from the state of a host node in the same process.

The RPC oracle keeps the addresses it found to be contracts in a set that all its clones
share. Nothing leaves the set, so what it answers is right only as long as a contract stays
one. `cached_answers_current` says that this is also enough, for every interleaving of
calls: each answer is what the host would say at the instant it is given.
-/

namespace NodeComponents.BlockProcessor

open Lib

/-- An account address. -/
abbrev Address := BitVec 160

instance instLawfulBEqAddress : LawfulBEq Address := inferInstance

/-- The code at an address. -/
abbrev Code := List UInt8

/-! ## Code -/

/-- EIP-7702 delegation bytecode is a designator of 3 bytes and an address of 20. -/
def eip7702DelegationLen : Nat := 23

def eip7702DelegationDesignator : Code := [0xef, 0x01, 0x00]

/-- Classify bytecode: `true` if it is that of a contract, and no delegation. -/
def shouldAliasBytecode (code : Code) : Bool :=
  if code.isEmpty then false
  else if code.length = eip7702DelegationLen ∧ eip7702DelegationDesignator <+: code then false
  else true

/-- **Not aliased** are the lack of code, and a designator followed by an address. -/
theorem shouldAliasBytecode_eq_false_iff {code : Code} :
    shouldAliasBytecode code = false ↔
      code = [] ∨
        ∃ address, address.length = 20 ∧ code = eip7702DelegationDesignator ++ address := by
  unfold shouldAliasBytecode
  by_cases hempty : code = []
  · rw [hempty]
    exact iff_of_true rfl (Or.inl rfl)
  · rw [if_neg (by rwa [List.isEmpty_iff])]
    constructor
    · intro h
      split at h
      · rename_i hdelegation
        obtain ⟨hlen, address, rfl⟩ := hdelegation
        refine Or.inr ⟨address, ?_, rfl⟩
        rw [List.length_append] at hlen
        exact Nat.add_left_cancel hlen
      · exact absurd h (by simp)
    · rintro (h | ⟨address, hlen, rfl⟩)
      · exact absurd h hempty
      · refine if_pos ⟨?_, List.prefix_append _ _⟩
        rw [List.length_append, hlen]
        rfl

/-! ## The oracle of a host node -/

/-- A host account, with the hash of its code. -/
structure Account where
  bytecodeHash : Option (BitVec 256)
deriving DecidableEq, Repr

/-- The state of the host, as a state provider reads it. -/
structure HostState where
  basicAccount : Address → Except String (Option Account)
  bytecodeByHash : BitVec 256 → Except String (Option Code)
  /-- `Bytecode::is_eip7702`. -/
  isEip7702 : Code → Bool
  keccakEmpty : BitVec 256

/-- `RethAliasOracle::check_alias`. -/
def HostState.checkAlias (st : HostState) (address : Address) : Except String Bool :=
  match st.basicAccount address with
  | .error e => .error e
  | .ok none => .ok false
  | .ok (some acct) =>
    match acct.bytecodeHash with
    | none => .ok false
    | some bch =>
      if bch = st.keccakEmpty then .ok false
      else
        match st.bytecodeByHash bch with
        | .error e => .error e
        | .ok none => .error "code not found. This indicates a corrupted database"
        | .ok (some code) => .ok !st.isEip7702 code

/-- `eth_getCode` of a host in a state: no account and no code are the same. -/
def HostState.CodeAt (st : HostState) (address : Address) (code : Code) : Prop :=
  match st.basicAccount address with
  | .error _ => False
  | .ok none => code = []
  | .ok (some acct) =>
    match acct.bytecodeHash with
    | none => code = []
    | some bch =>
      if bch = st.keccakEmpty then code = [] else st.bytecodeByHash bch = .ok (some code)

/-- The database stores no empty code but under the empty hash, and a delegation is what has the
form of one. -/
structure HostState.Proper (st : HostState) : Prop where
  nonempty : ∀ hash code, hash ≠ st.keccakEmpty → st.bytecodeByHash hash = .ok (some code) →
    code ≠ []
  delegation : ∀ code, st.isEip7702 code = true ↔
    code.length = eip7702DelegationLen ∧ eip7702DelegationDesignator <+: code

/-- **Both oracles classify alike**: what the host node finds in its state is what the RPC oracle
makes of the code the same host returns. -/
theorem checkAlias_eq {st : HostState} (hst : st.Proper) {address : Address} {code : Code}
    (hcode : st.CodeAt address code) : st.checkAlias address = .ok (shouldAliasBytecode code) := by
  unfold HostState.CodeAt at hcode
  unfold HostState.checkAlias
  cases hacct : st.basicAccount address with
  | error e => rw [hacct] at hcode; exact absurd hcode id
  | ok acct =>
      rw [hacct] at hcode
      cases acct with
      | none =>
          obtain rfl : code = [] := hcode
          rfl
      | some acct =>
          dsimp only at hcode ⊢
          cases hhash : acct.bytecodeHash with
          | none =>
              rw [hhash] at hcode
              obtain rfl : code = [] := hcode
              rfl
          | some bch =>
              rw [hhash] at hcode
              dsimp only at hcode ⊢
              by_cases hempty : bch = st.keccakEmpty
              · rw [if_pos hempty] at hcode ⊢
                obtain rfl : code = [] := hcode
                rfl
              · rw [if_neg hempty] at hcode ⊢
                rw [hcode]
                have hne := hst.nonempty bch code hempty hcode
                have hdelegation := hst.delegation code
                dsimp only
                unfold shouldAliasBytecode
                rw [if_neg (by rwa [List.isEmpty_iff])]
                by_cases hform : code.length = eip7702DelegationLen
                    ∧ eip7702DelegationDesignator <+: code
                · rw [if_pos hform, hdelegation.mpr hform]
                  rfl
                · rw [if_neg hform, Bool.eq_false_iff.mpr fun htrue => hform (hdelegation.mp htrue)]
                  rfl

/-- What a host node answers is about the code it has at the address. -/
theorem checkAlias_codeAt {st : HostState} {address : Address} {v : Bool}
    (h : st.checkAlias address = .ok v) : ∃ code, st.CodeAt address code := by
  unfold HostState.checkAlias at h
  unfold HostState.CodeAt
  cases hacct : st.basicAccount address with
  | error e =>
      rw [hacct] at h
      cases h
  | ok acct =>
      rw [hacct] at h
      rcases acct with _ | ⟨_ | bch⟩
      · exact ⟨[], rfl⟩
      · exact ⟨[], rfl⟩
      · dsimp only at h ⊢
        by_cases hempty : bch = st.keccakEmpty
        · simp only [if_pos hempty]
          exact ⟨[], rfl⟩
        · rw [if_neg hempty] at h
          simp only [if_neg hempty]
          cases hcode : st.bytecodeByHash bch with
          | error e =>
              rw [hcode] at h
              cases h
          | ok found =>
              rw [hcode] at h
              cases found with
              | none => cases h
              | some code => exact ⟨code, rfl⟩

/-! ## The RPC oracle -/

/-- What the provider answers `eth_getCode` at latest, by instant. -/
abbrev CodeProvider := Nat → Address → Except String Code

/-- `RpcAliasOracle::should_alias`, with no other call in between; the cache is the set of
addresses known to be contracts. -/
def rpcShouldAlias (P : CodeProvider) (now : Nat) (address : Address) (cache : List Address) :
    Except String Bool × List Address :=
  if address ∈ cache then (.ok true, cache)
  else
    match P now address with
    | .error e => (.error e, cache)
    | .ok code =>
      (.ok (shouldAliasBytecode code),
        if shouldAliasBytecode code then address :: cache else cache)

/-- How far a call has come. -/
inductive AliasPhase where
  | called
  /-- The address is not in the cache, and the provider is asked. -/
  | asking
  /-- The address is one of a contract, and not in the cache yet. -/
  | found
  | done
deriving DecidableEq, Repr

structure AliasCall where
  address : Address
  phase : AliasPhase
deriving DecidableEq, Repr

/-- The shared cache, the calls of all clones, and the clock. -/
structure AliasWorld where
  cache : List Address
  calls : List AliasCall
  clock : Nat
deriving DecidableEq, Repr

/-- A call is made, or one call goes on, at an instant. -/
inductive AliasStep where
  | call (address : Address)
  | readCache (i now : Nat)
  | getCode (i now : Nat)
  | insert (i now : Nat)
deriving DecidableEq, Repr

/-- A call has returned. -/
structure AliasReturn where
  address : Address
  now : Nat
  result : Except String Bool
deriving DecidableEq

def AliasWorld.advance (w : AliasWorld) (i now : Nat) (address : Address) (phase : AliasPhase) :
    AliasWorld := { w with calls := w.calls.set i ⟨address, phase⟩, clock := now }

def AliasWorld.readCache (w : AliasWorld) (i now : Nat) : Option AliasReturn × AliasWorld :=
  match w.calls[i]? with
  | some ⟨address, .called⟩ =>
    if address ∈ w.cache then (some ⟨address, now, .ok true⟩, w.advance i now address .done)
    else (none, w.advance i now address .asking)
  | _ => (none, w)

def AliasWorld.getCode (P : CodeProvider) (w : AliasWorld) (i now : Nat) :
    Option AliasReturn × AliasWorld :=
  match w.calls[i]? with
  | some ⟨address, .asking⟩ =>
    match P now address with
    | .error e => (some ⟨address, now, .error e⟩, w.advance i now address .done)
    | .ok code =>
      if shouldAliasBytecode code then (none, w.advance i now address .found)
      else (some ⟨address, now, .ok false⟩, w.advance i now address .done)
  | _ => (none, w)

def AliasWorld.insert (w : AliasWorld) (i now : Nat) : Option AliasReturn × AliasWorld :=
  match w.calls[i]? with
  | some ⟨address, .found⟩ =>
    (some ⟨address, now, .ok true⟩,
      { w.advance i now address .done with cache := address :: w.cache })
  | _ => (none, w)

/-- One step; a step the call has not come to does nothing. -/
def aliasStep (P : CodeProvider) : AliasStep → AliasWorld → Option AliasReturn × AliasWorld
  | .call address, w => (none, { w with calls := w.calls ++ [⟨address, .called⟩] })
  | .readCache i now, w => w.readCache i now
  | .getCode i now, w => w.getCode P i now
  | .insert i now, w => w.insert i now

/-- Time does not go back. -/
def Timed : AliasStep → AliasWorld → Prop
  | .call _, _ => True
  | .readCache _ now, w => w.clock ≤ now
  | .getCode _ now, w => w.clock ≤ now
  | .insert _ now, w => w.clock ≤ now

instance decidableTimed : ∀ (m : AliasStep) (w : AliasWorld), Decidable (Timed m w)
  | .call _, _ => isTrue trivial
  | .readCache _ now, w => inferInstanceAs (Decidable (w.clock ≤ now))
  | .getCode _ now, w => inferInstanceAs (Decidable (w.clock ≤ now))
  | .insert _ now, w => inferInstanceAs (Decidable (w.clock ≤ now))

/-- An oracle that was just created. -/
def AliasWorld.new : AliasWorld := ⟨[], [], 0⟩

/-- The steps of a call that no other call comes between. -/
def callSteps (w : AliasWorld) (address : Address) (now : Nat) : List AliasStep :=
  [.call address, .readCache w.calls.length now, .getCode w.calls.length now,
    .insert w.calls.length now]

/-- **A call alone** is `should_alias`: one answer, and the cache with the address if it is new. -/
theorem call_alone (P : CodeProvider) (w : AliasWorld) (address : Address) (now : Nat) :
    (runInputs (aliasStep P) (callSteps w address now) w).1
        = [⟨address, now, (rpcShouldAlias P now address w.cache).1⟩]
      ∧ (runInputs (aliasStep P) (callSteps w address now) w).2.cache
        = (rpcShouldAlias P now address w.cache).2 := by
  unfold rpcShouldAlias callSteps
  by_cases hcached : address ∈ w.cache
  · simp [runInputs, aliasStep, AliasWorld.readCache, AliasWorld.getCode, AliasWorld.insert,
      AliasWorld.advance, hcached]
  · cases hcode : P now address with
    | error e =>
        simp [runInputs, aliasStep, AliasWorld.readCache, AliasWorld.getCode, AliasWorld.insert,
          AliasWorld.advance, hcached, hcode]
    | ok code =>
        cases halias : shouldAliasBytecode code <;>
          simp [runInputs, aliasStep, AliasWorld.readCache, AliasWorld.getCode, AliasWorld.insert,
            AliasWorld.advance, hcached, hcode, halias]

/-! ## Answers -/

/-- The address is one of a contract from an instant on, at the latest. -/
def ContractBy (P : CodeProvider) (address : Address) (now : Nat) : Prop :=
  ∃ t code, t ≤ now ∧ P t address = .ok code ∧ shouldAliasBytecode code = true

/-- A contract stays one. -/
def ContractsPermanent (P : CodeProvider) : Prop :=
  ∀ address t t' code code', t ≤ t' → P t address = .ok code → P t' address = .ok code' →
    shouldAliasBytecode code = true → shouldAliasBytecode code' = true

/-- What a call returns is what the host says of the address at that instant, and a failure is
the host's. -/
def AnswersCurrent (P : CodeProvider) (r : AliasReturn) : Prop :=
  match r.result with
  | .ok answer => ∀ code, P r.now r.address = .ok code → shouldAliasBytecode code = answer
  | .error e => P r.now r.address = .error e

theorem ContractBy.later {P : CodeProvider} {address : Address} {now now' : Nat}
    (h : ContractBy P address now) (hle : now ≤ now') : ContractBy P address now' := by
  obtain ⟨t, code, ht, hcode, halias⟩ := h
  exact ⟨t, code, Nat.le_trans ht hle, hcode, halias⟩

/-- A contract that is known is answered rightly. -/
theorem ContractBy.answers {P : CodeProvider} (hP : ContractsPermanent P) {address : Address}
    {now : Nat} (h : ContractBy P address now) : AnswersCurrent P ⟨address, now, .ok true⟩ := by
  obtain ⟨t, code, ht, hcode, halias⟩ := h
  exact fun code' hcode' => hP address t now code code' ht hcode hcode' halias

/-- The cache, and the calls that are about to add to it, know contracts only. -/
structure AliasInv (P : CodeProvider) (w : AliasWorld) : Prop where
  cache : ∀ address ∈ w.cache, ContractBy P address w.clock
  found : ∀ c ∈ w.calls, c.phase = .found → ContractBy P c.address w.clock

variable {P : CodeProvider} {w : AliasWorld}

/-- **A call goes on**: the clock moves, and the call is one that knows its contract. -/
theorem AliasInv.advance (h : AliasInv P w) {now : Nat} (hnow : w.clock ≤ now) (i : Nat)
    (address : Address) (phase : AliasPhase)
    (hphase : phase = .found → ContractBy P address now) :
    AliasInv P (w.advance i now address phase) := by
  refine ⟨fun a ha => (h.cache a ha).later hnow, fun c hc hfound => ?_⟩
  rcases List.mem_or_eq_of_mem_set hc with hold | rfl
  · exact (h.found c hold hfound).later hnow
  · exact hphase hfound

theorem aliasInv_step (hP : ContractsPermanent P) (h : AliasInv P w) (m : AliasStep)
    (hm : Timed m w) :
    AliasInv P (aliasStep P m w).2
      ∧ ∀ r, (aliasStep P m w).1 = some r → AnswersCurrent P r := by
  have hidle : AliasInv P w ∧ ∀ r, (none : Option AliasReturn) = some r → AnswersCurrent P r :=
    ⟨h, fun r hr => absurd hr (by simp)⟩
  cases m with
  | call address =>
      refine ⟨⟨h.cache, fun c hc hfound => ?_⟩, fun r hr => absurd hr (by simp [aliasStep])⟩
      rcases List.mem_append.mp hc with hold | hnew
      · exact h.found c hold hfound
      · rw [List.mem_singleton.mp hnew] at hfound
        exact absurd hfound (by simp)
  | readCache i now =>
      show AliasInv P (w.readCache i now).2 ∧ ∀ r, (w.readCache i now).1 = some r → _
      unfold AliasWorld.readCache
      split
      · rename_i address _
        by_cases hcached : address ∈ w.cache
        · rw [if_pos hcached]
          refine ⟨h.advance hm i address .done (by simp), fun r hr => ?_⟩
          rw [← Option.some.inj hr]
          exact ((h.cache address hcached).later hm).answers hP
        · rw [if_neg hcached]
          exact ⟨h.advance hm i address .asking (by simp), fun r hr => absurd hr (by simp)⟩
      · exact hidle
  | getCode i now =>
      show AliasInv P (w.getCode P i now).2 ∧ ∀ r, (w.getCode P i now).1 = some r → _
      unfold AliasWorld.getCode
      split
      · rename_i address _
        cases hcode : P now address with
        | error e =>
            refine ⟨h.advance hm i address .done (by simp), fun r hr => ?_⟩
            rw [← Option.some.inj hr]
            exact hcode
        | ok code =>
            dsimp only
            by_cases halias : shouldAliasBytecode code = true
            · rw [if_pos halias]
              exact ⟨h.advance hm i address .found fun _ =>
                ⟨now, code, Nat.le_refl _, hcode, halias⟩, fun r hr => absurd hr (by simp)⟩
            · rw [if_neg halias]
              refine ⟨h.advance hm i address .done (by simp), fun r hr => ?_⟩
              rw [← Option.some.inj hr]
              intro code' hcode'
              rw [Except.ok.inj (hcode.symm.trans hcode')] at halias
              exact Bool.eq_false_iff.mpr halias
      · exact hidle
  | insert i now =>
      show AliasInv P (w.insert i now).2 ∧ ∀ r, (w.insert i now).1 = some r → _
      unfold AliasWorld.insert
      split
      · rename_i address hi
        have hknown := (h.found _ (List.mem_of_getElem? hi) rfl).later hm
        have hadvance := h.advance hm i address .done (by simp)
        refine ⟨⟨fun a ha => ?_, hadvance.found⟩, fun r hr => ?_⟩
        · rcases List.mem_cons.mp ha with rfl | hold
          · exact hknown
          · exact hadvance.cache a hold
        · rw [← Option.some.inj hr]
          exact hknown.answers hP
      · exact hidle

/--
**The shared cache never answers wrongly**, as long as a contract stays one. In every
interleaving of the calls of all clones of an oracle, each call that returns an answer
returns what the host says of the address at that instant, whether the answer comes from
the cache or not; a call fails only where the host fails.
-/
theorem cached_answers_current (hP : ContractsPermanent P) {rs : List AliasReturn}
    (hrun : Run (aliasStep P) Timed AliasWorld.new rs w) : ∀ r ∈ rs, AnswersCurrent P r := by
  have hnew : AliasInv P AliasWorld.new :=
    ⟨fun a ha => absurd ha (by simp [AliasWorld.new]), fun c hc => absurd hc
      (by simp [AliasWorld.new])⟩
  have hall := Run.law (I := fun _ w => AliasInv P w) (L := fun _ r => AnswersCurrent P r) hnew
    (fun m _ _ h hm => aliasInv_step hP h m hm) hrun
  intro r hr
  obtain ⟨before, after, heq⟩ := List.append_of_mem hr
  exact hall.2 before r after heq

/-- A host where a contract is deployed at instant 2, and that cannot be reached at instant 6. -/
def deployingHost : CodeProvider := fun now address =>
  if now = 6 then .error "unreachable"
  else if address = 1 ∧ 2 ≤ now then .ok [0x60, 0x80]
  else .ok []

theorem deployingHost_permanent : ContractsPermanent deployingHost := by
  intro address t t' code code' hle hcode hcode' halias
  unfold deployingHost at hcode hcode'
  by_cases h6 : t = 6
  · rw [if_pos h6] at hcode
    exact absurd hcode (by simp)
  · by_cases h6' : t' = 6
    · rw [if_pos h6'] at hcode'
      exact absurd hcode' (by simp)
    · rw [if_neg h6] at hcode
      rw [if_neg h6'] at hcode'
      by_cases hdeployed : address = 1 ∧ 2 ≤ t
      · rw [if_pos ⟨hdeployed.1, Nat.le_trans hdeployed.2 hle⟩] at hcode'
        rw [← Except.ok.inj hcode']
        rfl
      · rw [if_neg hdeployed] at hcode
        rw [← Except.ok.inj hcode] at halias
        exact absurd halias (by decide)

/-- A call before the deployment, two calls that both miss the cache after it, one that is
answered from the cache while the host cannot be reached, and one that fails then. -/
theorem cached_answers_current_deployed :
    let steps := [.call 1, .readCache 0 0, .getCode 0 1, .call 1, .call 1, .readCache 1 2,
      .readCache 2 3, .getCode 2 3, .getCode 1 4, .insert 1 5, .call 1, .readCache 3 6,
      .insert 2 6, .call 5, .readCache 4 6, .getCode 4 6]
    let returns : List AliasReturn := [⟨1, 1, .ok false⟩, ⟨1, 5, .ok true⟩, ⟨1, 6, .ok true⟩,
      ⟨1, 6, .ok true⟩, ⟨5, 6, .error "unreachable"⟩]
    (runInputs (aliasStep deployingHost) steps AliasWorld.new).1 = returns
      ∧ ∀ r ∈ returns, AnswersCurrent deployingHost r := by
  intro steps returns
  have hreturns : (runInputs (aliasStep deployingHost) steps AliasWorld.new).1 = returns := by
    decide +kernel
  have hrun : Run (aliasStep deployingHost) Timed AliasWorld.new _ _ :=
    runInputs_run steps AliasWorld.new (by decide +kernel)
  rw [hreturns] at hrun
  exact ⟨hreturns, cached_answers_current deployingHost_permanent hrun⟩

end NodeComponents.BlockProcessor
