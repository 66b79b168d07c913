import NodeComponents.Blobber.Handle
import NodeComponents.BlockProcessor.Alias
import NodeComponents.Node.Settled

/-!
# Running the EVM for one block

The processor executes one extracted block on the state after its parent. Two of the
things it reads are not part of the chain: the blobs of the submitted block, which come
through the cacher from whichever source answers, and which senders are contracts, which
comes from an oracle at the latest host state.

A node of the rollup must not depend on either. `idealEvm` is what the block executes to
when both are given, and `asIdeal_of_run` says that a processor computes just that, or
fails, at whatever instants and with whatever caches it asks: honest sources have the
blobs of a transaction or none, and an oracle is right about an address or fails.
-/

namespace NodeComponents.BlockProcessor

open Blobber Lib Node Rpc

variable {B Hd Z En Tk Tr Zt Tx G Bd σ O : Type}

/-! ## Blocks -/

/-- A call from the host chain, with its sender there. -/
structure Transact (Tr : Type) where
  hostSender : Address
  call : Tr
deriving DecidableEq, Repr

/-- A host block, with what the extractor finds in it. -/
structure HostBlock (Hd En Tk Tr : Type) where
  number : Nat
  timestamp : Nat
  submitted : Option (ExtractedEvent Hd)
  enters : List En
  enterTokens : List Tk
  transacts : List (Transact Tr)

/-- An event as it is stored, with its place among the events of the block. -/
inductive DbSignetEvent (En Tk Tr : Type) where
  | enter (order : Nat) (event : En)
  | enterToken (order : Nat) (event : Tk)
  | transact (order : Nat) (event : Transact Tr)
deriving DecidableEq, Repr

def DbSignetEvent.numbered (order : Nat) : DbSignetEvent En Tk Tr → DbSignetEvent En Tk Tr
  | .enter _ e => .enter order e
  | .enterToken _ e => .enterToken order e
  | .transact _ e => .transact order e

/-- What is stored with a block besides its header, transactions and receipts. -/
structure Artifacts (Hd En Tk Tr Bd : Type) where
  bundle : Bd
  signetEvents : List (DbSignetEvent En Tk Tr)
  zenithHeader : Option Hd
deriving DecidableEq, Repr

abbrev StoredBlock (Hd En Tk Tr Tx G Bd : Type) := ExecutedBlock Tx G (Artifacts Hd En Tk Tr Bd)

/-- What a driver leaves once it has driven a block. -/
structure Driven (Tx G Bd : Type) where
  header : Header
  transactions : List Tx
  receipts : List (Rpc.Receipt G)
  bundle : Bd
deriving DecidableEq, Repr

/-- What the processor is configured with, and calls outside this repository. -/
structure ProcessorConfig (B Hd Z En Tk Tr Zt Tx G Bd : Type) where
  coding : Coding B Hd Z
  /-- `SlotCalculator::slot_ending_at`; before the merge there is none. -/
  slotEndingAt : Nat → Option Nat
  /-- The transactions of a decoded block. -/
  intoTransactions : Z → List Zt
  isEip4844 : Zt → Bool
  /-- A driver on the state after the given blocks, for an extract, the set of addresses to
  alias, the submitted transactions and the parent header. -/
  driveBlock : List (StoredBlock Hd En Tk Tr Tx G Bd) → Extracts (HostBlock Hd En Tk Tr) →
    (Address → Bool) → List Zt → Header → Except String (Driven Tx G Bd)

/-! ## Oracles -/

/-- `AliasOracleFactory`: `create` at an instant, and `should_alias` of an oracle that was
created, which may use what the factory keeps. -/
structure AliasOracleFactory (σ O : Type) where
  create : Nat → Except String O
  shouldAlias : Nat → O → Address → σ → Except String Bool × σ

/-- `RpcAliasOracle`: a clone shares the cache. -/
def rpcAliasOracle (P : CodeProvider) : AliasOracleFactory (List Address) Unit where
  create _ := .ok ()
  shouldAlias now _ address cache := rpcShouldAlias P now address cache

/-- `RethAliasOracleFactory`: the oracle reads the state that was the latest when it was created. -/
def rethAliasOracleFactory (latest : Nat → Except String HostState) :
    AliasOracleFactory Unit HostState where
  create now := latest now
  shouldAlias _ st address s := (st.checkAlias address, s)

/-- The loop over the senders, with one oracle; the `i`-th question is asked at `askedAt i`. -/
def aliasLoop (A : AliasOracleFactory σ O) (askedAt : Nat → Nat) (oracle : O) :
    List Address → Nat → List Address → σ → Except String (List Address) × σ
  | [], _, toAlias, s => (.ok toAlias, s)
  | addr :: rest, i, toAlias, s =>
    if addr ∈ toAlias then aliasLoop A askedAt oracle rest i toAlias s
    else
      match A.shouldAlias (askedAt i) oracle addr s with
      | (.error e, s') => (.error e, s')
      | (.ok true, s') => aliasLoop A askedAt oracle rest (i + 1) (addr :: toAlias) s'
      | (.ok false, s') => aliasLoop A askedAt oracle rest (i + 1) toAlias s'

/-! ## The EVM -/

/-- How `run_evm` fails. -/
inductive RunError where
  /-- A reader of hot storage, or a read. -/
  | hot (message : String)
  /-- `parent ru block not present in DB` -/
  | parentNotPresent
  /-- `expect submitted events only occur post-merge`: a panic. -/
  | preMerge
  | fetch (e : FetchError)
  | oracle (message : String)
  | driver (message : String)
deriving DecidableEq, Repr

/-- What happens outside while a block is run. -/
structure CallEnv (f : BlobFetcher B) where
  /-- The first reader of hot storage fails, or its read. -/
  header : Option String
  attempts : Attempts f
  createdAt : Nat
  askedAt : Nat → Nat
  /-- The reader under the EVM fails, or one of its reads. -/
  state : Option String

/-- What outlives a block: the task of the blob cacher, and what the oracles share. -/
structure Shared (B σ : Type) where
  cacher : CacherTask B
  oracles : σ

/-- The slot of a host block, and the transactions of a block without blob transactions. -/
def ProcessorConfig.submittedTransactions (K : ProcessorConfig B Hd Z En Tk Tr Zt Tx G Bd) (z : Z) :
    List Zt := (K.intoTransactions z).filter fun tx => !K.isEip4844 tx

/-- The transactions that were submitted in a host block. -/
def ProcessorConfig.txns (K : ProcessorConfig B Hd Z En Tk Tr Zt Tx G Bd) (f : BlobFetcher B)
    (host : HostBlock Hd En Tk Tr) (as : Attempts f) (cacher : CacherTask B) :
    Except RunError (List Zt) × CacherTask B :=
  match host.submitted with
  | none => (.ok [], cacher)
  | some submitted =>
    match K.slotEndingAt host.timestamp with
    | none => (.error .preMerge, cacher)
    | some slot =>
      match CacheHandle.signetBlock K.coding f host.number slot submitted as cacher with
      | (.error e, cacher') => (.error (.fetch e), cacher')
      | (.ok z, cacher') => (.ok (K.submittedTransactions z), cacher')

/-- The events of a host block in the order they are stored, each with its place. -/
def signetEvents (host : HostBlock Hd En Tk Tr) : List (DbSignetEvent En Tk Tr) :=
  let events := host.enters.map (DbSignetEvent.enter 0)
    ++ host.enterTokens.map (DbSignetEvent.enterToken 0)
    ++ host.transacts.map (DbSignetEvent.transact 0)
  events.zipIdx.map fun e => e.1.numbered e.2

/-- The block as it is stored. -/
def assemble (host : HostBlock Hd En Tk Tr) (d : Driven Tx G Bd) :
    StoredBlock Hd En Tk Tr Tx G Bd :=
  ⟨d.header, d.transactions, d.receipts,
    ⟨d.bundle, signetEvents host, host.submitted.map fun e => e.ruHeader host.number⟩⟩

/-- The driver runs, on the state at the number of the parent. -/
def ProcessorConfig.drive (K : ProcessorConfig B Hd Z En Tk Tr Zt Tx G Bd)
    (hot : List (StoredBlock Hd En Tk Tr Tx G Bd)) (x : Extracts (HostBlock Hd En Tk Tr))
    (toAlias : Address → Bool) (txns : List Zt) (parent : Header) :
    Except String (StoredBlock Hd En Tk Tr Tx G Bd) :=
  (K.driveBlock (hot.take (parent.number + 1)) x toAlias txns parent).map (assemble x.hostBlock)

/-- `run_evm` -/
def runEvm (K : ProcessorConfig B Hd Z En Tk Tr Zt Tx G Bd) (f : BlobFetcher B)
    (A : AliasOracleFactory σ O) (env : CallEnv f) (hot : List (StoredBlock Hd En Tk Tr Tx G Bd))
    (x : Extracts (HostBlock Hd En Tk Tr)) (w : Shared B σ) :
    Except RunError (StoredBlock Hd En Tk Tr Tx G Bd) × Shared B σ :=
  match env.header with
  | some m => (.error (.hot m), w)
  | none =>
    -- `saturating_sub`: the parent of height zero is height zero
    match hot[x.ruHeight - 1]? with
    | none => (.error .parentNotPresent, w)
    | some parent =>
      match K.txns f x.hostBlock env.attempts w.cacher with
      | (.error e, cacher') => (.error e, { w with cacher := cacher' })
      | (.ok txns, cacher') =>
        -- the oracle is created once
        match A.create env.createdAt with
        | .error m => (.error (.oracle m), { w with cacher := cacher' })
        | .ok oracle =>
          match aliasLoop A env.askedAt oracle (x.hostBlock.transacts.map Transact.hostSender) 0 []
              w.oracles with
          | (.error m, oracles') => (.error (.oracle m), ⟨cacher', oracles'⟩)
          | (.ok toAlias, oracles') =>
            match env.state with
            | some m => (.error (.hot m), ⟨cacher', oracles'⟩)
            | none =>
              match K.drive hot x (fun a => decide (a ∈ toAlias)) txns parent.header with
              | .error m => (.error (.driver m), ⟨cacher', oracles'⟩)
              | .ok b => (.ok b, ⟨cacher', oracles'⟩)

/-! ## What a block executes to -/

/-- The block that was submitted, for the blobs of its transaction. -/
def idealBlock (K : Coding B Hd Z) (blobsOf : Nat × B256 → List B) (number slot : Nat)
    (submitted : ExtractedEvent Hd) : Z :=
  match submitted.blobVersionedHashes with
  | none => K.fromHeaderAndData (submitted.ruHeader number) []
  | some _ => decodeBlockOrDefault K (.other (blobsOf (slot, submitted.txHash)))
      (submitted.ruHeader number) submitted.blockDataHash

def preMergeText : String := "expect submitted events only occur post-merge"

def idealTxns (K : ProcessorConfig B Hd Z En Tk Tr Zt Tx G Bd) (blobsOf : Nat × B256 → List B)
    (host : HostBlock Hd En Tk Tr) : Except String (List Zt) :=
  match host.submitted with
  | none => .ok []
  | some submitted =>
    match K.slotEndingAt host.timestamp with
    | none => .error preMergeText
    | some slot =>
      .ok (K.submittedTransactions (idealBlock K.coding blobsOf host.number slot submitted))

/-- The senders of a host block that are contracts. -/
def contractSenders (isContract : Address → Bool) (host : HostBlock Hd En Tk Tr) (a : Address) :
    Bool := decide (a ∈ host.transacts.map Transact.hostSender) && isContract a

/-- The block an extract executes to on a chain that ends in its parent, for given blobs and
contracts. -/
def idealEvm (K : ProcessorConfig B Hd Z En Tk Tr Zt Tx G Bd) (blobsOf : Nat × B256 → List B)
    (isContract : Address → Bool) (chain : List (StoredBlock Hd En Tk Tr Tx G Bd))
    (x : Extracts (HostBlock Hd En Tk Tr)) : Except String (StoredBlock Hd En Tk Tr Tx G Bd) :=
  match chain.getLast? with
  | none => .error "parent ru block not present in DB"
  | some parent =>
    match idealTxns K blobsOf x.hostBlock with
    | .error e => .error e
    | .ok txns => K.drive chain x (contractSenders isContract x.hostBlock) txns parent.header

/-! ## Sound oracles -/

/-- An oracle that says of an address it is `asked` for whether it is a contract, or fails: `I`
holds of what the factory keeps, and `J` of what it creates. -/
structure AliasOracleFactory.Sound (A : AliasOracleFactory σ O) (asked : Address → Prop)
    (isContract : Address → Bool) (I : σ → Prop) (J : O → Prop) : Prop where
  created : ∀ now o, A.create now = .ok o → J o
  kept : ∀ now o a s, asked a → J o → I s → I (A.shouldAlias now o a s).2
  right : ∀ now o a s v, asked a → J o → I s → (A.shouldAlias now o a s).1 = .ok v →
    v = isContract a

/-- The host says the same of an address whenever it is asked for it. -/
def StableCode (P : CodeProvider) (asked : Address → Prop) (isContract : Address → Bool) : Prop :=
  ∀ now address code, asked address → P now address = .ok code →
    shouldAliasBytecode code = isContract address

variable {asked : Address → Prop}

theorem rpcAliasOracle_sound {P : CodeProvider} {isContract : Address → Bool}
    (hP : StableCode P asked isContract) :
    (rpcAliasOracle P).Sound asked isContract (fun cache => ∀ a ∈ cache, isContract a = true)
      fun _ => True where
  created _ _ _ := trivial
  kept now o a cache hasked _ hcache := by
    show ∀ b ∈ (rpcShouldAlias P now a cache).2, isContract b = true
    unfold rpcShouldAlias
    by_cases hcached : a ∈ cache
    · rw [if_pos hcached]
      exact hcache
    · rw [if_neg hcached]
      cases hcode : P now a with
      | error e => exact hcache
      | ok code =>
          dsimp only
          cases halias : shouldAliasBytecode code with
          | false => exact hcache
          | true =>
              intro b hb
              rcases List.mem_cons.mp hb with rfl | hb
              · rw [← hP now b code hasked hcode, halias]
              · exact hcache b hb
  right now o a cache v hasked _ hcache h := by
    have hv : (rpcShouldAlias P now a cache).1 = .ok v := h
    unfold rpcShouldAlias at hv
    by_cases hcached : a ∈ cache
    · rw [if_pos hcached] at hv
      rw [hcache a hcached, ← Except.ok.inj hv]
    · rw [if_neg hcached] at hv
      cases hcode : P now a with
      | error e =>
          rw [hcode] at hv
          cases hv
      | ok code =>
          rw [hcode] at hv
          rw [← hP now a code hasked hcode, ← Except.ok.inj hv]

theorem rethAliasOracleFactory_sound {latest : Nat → Except String HostState}
    {isContract : Address → Bool}
    (hlatest : ∀ now st, latest now = .ok st → st.Proper ∧ ∀ address code, asked address →
      st.CodeAt address code → shouldAliasBytecode code = isContract address) :
    (rethAliasOracleFactory latest).Sound asked isContract (fun _ => True) fun st =>
      st.Proper ∧ ∀ address code, asked address → st.CodeAt address code →
        shouldAliasBytecode code = isContract address where
  created := hlatest
  kept _ _ _ _ _ _ _ := trivial
  right now st a s v hasked hst _ h := by
    obtain ⟨code, hcode⟩ := checkAlias_codeAt h
    rw [← hst.2 a code hasked hcode]
    exact Except.ok.inj (h.symm.trans (checkAlias_eq hst.1 hcode))

section Oracles

variable {A : AliasOracleFactory σ O} {isContract : Address → Bool} {I : σ → Prop} {J : O → Prop}

/-- An oracle fails. -/
def AliasOracleFactory.Fails (A : AliasOracleFactory σ O) (m : String) : Prop :=
  (∃ now, A.create now = .error m) ∨ ∃ now o a s, (A.shouldAlias now o a s).1 = .error m

/-- **The loop adds the senders that are contracts**, unless the oracle fails. -/
theorem aliasLoop_spec (hA : A.Sound asked isContract I J) (askedAt : Nat → Nat) {o : O}
    (ho : J o) :
    ∀ (senders : List Address) (i : Nat) (toAlias : List Address) (s : σ), I s →
      (∀ a ∈ senders, asked a) → (∀ a ∈ toAlias, isContract a = true) →
      I (aliasLoop A askedAt o senders i toAlias s).2 ∧
      match (aliasLoop A askedAt o senders i toAlias s).1 with
      | .ok all => ∀ a, a ∈ all ↔ a ∈ toAlias ∨ a ∈ senders ∧ isContract a = true
      | .error m => A.Fails m
  | [], i, toAlias, s, hs, _, _ => ⟨hs, fun a => by simp⟩
  | addr :: rest, i, toAlias, s, hs, hsenders, hto => by
      have hrest : ∀ a ∈ rest, asked a := fun a ha => hsenders a (List.mem_cons_of_mem addr ha)
      unfold aliasLoop
      by_cases hmem : addr ∈ toAlias
      · rw [if_pos hmem]
        obtain ⟨hI, hres⟩ := aliasLoop_spec hA askedAt ho rest i toAlias s hs hrest hto
        refine ⟨hI, ?_⟩
        cases hloop : (aliasLoop A askedAt o rest i toAlias s).1 with
        | error m =>
            rw [hloop] at hres
            exact hres
        | ok all =>
            rw [hloop] at hres
            intro a
            rw [hres a, List.mem_cons]
            constructor
            · rintro (h | ⟨h, hc⟩)
              · exact Or.inl h
              · exact Or.inr ⟨Or.inr h, hc⟩
            · rintro (h | ⟨rfl | h, hc⟩)
              · exact Or.inl h
              · exact Or.inl hmem
              · exact Or.inr ⟨h, hc⟩
      · rw [if_neg hmem]
        have hasked := hsenders addr List.mem_cons_self
        have hkept := hA.kept (askedAt i) o addr s hasked ho hs
        have hright := hA.right (askedAt i) o addr s
        cases hq : A.shouldAlias (askedAt i) o addr s with
        | mk answer s' =>
        rw [hq] at hkept hright
        cases answer with
        | error m => exact ⟨hkept, Or.inr ⟨_, _, _, _, by rw [hq]⟩⟩
        | ok v =>
            have hv : v = isContract addr := hright v hasked ho hs rfl
            have hmore (toAlias' : List Address)
                (hto' : ∀ a, a ∈ toAlias' ↔ a ∈ toAlias ∨ a = addr ∧ isContract a = true) :
                I (aliasLoop A askedAt o rest (i + 1) toAlias' s').2 ∧
                match (aliasLoop A askedAt o rest (i + 1) toAlias' s').1 with
                | .ok all => ∀ a, a ∈ all ↔ a ∈ toAlias ∨ a ∈ addr :: rest ∧ isContract a = true
                | .error m => A.Fails m := by
              obtain ⟨hI, hres⟩ := aliasLoop_spec hA askedAt ho rest (i + 1) toAlias' s' hkept
                hrest fun a ha => ((hto' a).mp ha).elim (hto a) And.right
              refine ⟨hI, ?_⟩
              cases hloop : (aliasLoop A askedAt o rest (i + 1) toAlias' s').1 with
              | error m =>
                  rw [hloop] at hres
                  exact hres
              | ok all =>
                  rw [hloop] at hres
                  intro a
                  rw [hres a, hto' a, List.mem_cons, or_and_right, or_assoc]
            cases v with
            | true =>
                refine hmore (addr :: toAlias) fun a => ?_
                rw [List.mem_cons, or_comm]
                refine or_congr_right ⟨?_, And.left⟩
                rintro rfl
                exact ⟨rfl, hv.symm⟩
            | false =>
                refine hmore toAlias fun a => (or_iff_left ?_).symm
                rintro ⟨rfl, hc⟩
                rw [hc] at hv
                cases hv

end Oracles

/-! ## Honest sources -/

/-- The blobs of a source are those of the transaction; a source need not have any. -/
def Honest (f : BlobFetcher B) (blobsOf : Nat × B256 → List B) : Prop :=
  ∀ s ∈ f.syncSources ++ f.asyncSources, ∀ spec now blobs, s spec now = .ok (some blobs) →
    blobs.asVec = blobsOf (spec.slot, spec.txHash)

/-- The cache holds the blobs of its keys. -/
def CacherHonest (blobsOf : Nat × B256 → List B) : CacherTask B → Prop
  | .gone => True
  | .running cache => ∀ e ∈ cache, e.2.asVec = blobsOf e.1

variable {f : BlobFetcher B} {blobsOf : Nat × B256 → List B}

theorem fetchLoop_honest (hf : Honest f blobsOf) {spec : BlobSpec} {blobs : Blobs B} :
    ∀ {as : List (Attempt f)}, fetchLoop f spec as = .ok blobs →
      blobs.asVec = blobsOf (spec.slot, spec.txHash)
  | [], h => by cases h
  | a :: rest, h => by
      rw [fetchLoop] at h
      cases ha : f.fetchBlobs spec a with
      | ok found =>
          rw [ha] at h
          obtain rfl := Except.ok.inj h
          obtain ⟨s, hs, hanswer⟩ := fetchBlobs_source ha
          exact hf s hs spec a.now found hanswer
      | error e =>
          rw [ha] at h
          exact fetchLoop_honest hf h

/-- **A handle returns the blobs of the transaction**, and keeps the cache honest. -/
theorem fetchBlobs_honest (hf : Honest f blobsOf) (spec : BlobSpec) (as : Attempts f)
    {task : CacherTask B} (htask : CacherHonest blobsOf task) :
    CacherHonest blobsOf (CacheHandle.fetchBlobs f spec as task).2
      ∧ ∀ blobs, (CacheHandle.fetchBlobs f spec as task).1 = .ok blobs →
        blobs.asVec = blobsOf (spec.slot, spec.txHash) := by
  cases task with
  | gone => exact ⟨trivial, fun blobs h => by cases h⟩
  | running cache =>
      rw [CacheHandle.fetchBlobs_running]
      unfold cacherFetchBlobs
      cases hget : Lru.get (spec.slot, spec.txHash) cache with
      | mk hit cache' =>
      have hcache' : CacherHonest blobsOf (.running cache') := by
        intro e he
        have he' : e ∈ (Lru.get (spec.slot, spec.txHash) cache).2 := by rw [hget]; exact he
        exact htask e (Lru.mem_of_mem_get he')
      cases hit with
      | some found =>
          refine ⟨hcache', fun blobs h => ?_⟩
          obtain rfl := Except.ok.inj h
          exact htask _ (Lru.get_hit (by rw [hget]))
      | none =>
          dsimp only
          cases hloop : fetchLoop f spec as.val with
          | error e => exact ⟨hcache', fun blobs h => by cases h⟩
          | ok found =>
              have hfound := fetchLoop_honest hf hloop
              refine ⟨fun e he => ?_, fun blobs h => ?_⟩
              · rcases Lru.mem_of_mem_insert he with rfl | he
                · exact hfound
                · exact hcache' e he
              · obtain rfl := Except.ok.inj h
                exact hfound

/-- The task behind a handle after a block was asked for. -/
theorem signetBlock_task (K : Coding B Hd Z) {number slot : Nat} {submitted : ExtractedEvent Hd}
    {as : Attempts f} {task : CacherTask B} :
    (CacheHandle.signetBlock K f number slot submitted as task).2
      = match submitted.blobVersionedHashes with
        | none => task
        | some hashes => (CacheHandle.fetchBlobs f ⟨submitted.txHash, slot, hashes⟩ as task).2 := by
  unfold CacheHandle.signetBlock CacheHandle.fetchAndDecode
  cases submitted.blobVersionedHashes with
  | none => rfl
  | some hashes =>
      dsimp only
      rcases CacheHandle.fetchBlobs f ⟨submitted.txHash, slot, hashes⟩ as task
        with ⟨e | blobs, task'⟩
      · cases e <;> rfl
      · dsimp only
        cases decodeBlobs K submitted blobs with
        | ok data => rfl
        | error e => cases e <;> rfl

/-- **A handle makes the ideal block**, unless there are no blobs to be had: the cacher is gone,
or has none and finds none. -/
theorem signetBlock_honest (hf : Honest f blobsOf) (K : Coding B Hd Z) (number slot : Nat)
    (submitted : ExtractedEvent Hd) (as : Attempts f) {task : CacherTask B}
    (htask : CacherHonest blobsOf task) :
    CacherHonest blobsOf (CacheHandle.signetBlock K f number slot submitted as task).2 ∧
      match (CacheHandle.signetBlock K f number slot submitted as task).1 with
      | .ok z => z = idealBlock K blobsOf number slot submitted
      | .error _ => ∃ hashes, submitted.blobVersionedHashes = some hashes
        ∧ ¬ Retrievable f ⟨submitted.txHash, slot, hashes⟩ as task := by
  rw [signetBlock_task]
  unfold idealBlock
  cases h4844 : submitted.blobVersionedHashes with
  | none =>
      refine ⟨htask, ?_⟩
      unfold CacheHandle.signetBlock CacheHandle.fetchAndDecode
      rw [h4844]
  | some hashes =>
      obtain ⟨hkept, hblobs⟩ := fetchBlobs_honest hf ⟨submitted.txHash, slot, hashes⟩ as htask
      refine ⟨hkept, ?_⟩
      by_cases hretr : Retrievable f ⟨submitted.txHash, slot, hashes⟩ as task
      · obtain ⟨blobs, hfetch⟩ := CacheHandle.fetchBlobs_spec.1.mpr hretr
        rw [CacheHandle.signetBlock_obtained K number h4844 hfetch]
        have hvec : blobs.asVec = (Blobs.other (blobsOf (slot, submitted.txHash))).asVec :=
          hblobs blobs hfetch
        show decodeBlockOrDefault K blobs _ _ = decodeBlockOrDefault K (.other _) _ _
        unfold decodeBlockOrDefault decodeBlock
        rw [hvec]
      · rw [CacheHandle.signetBlock_failed K number h4844 hretr]
        exact ⟨hashes, rfl, hretr⟩

/-- The blobs of a submission cannot be had. -/
def NoBlobs (f : BlobFetcher B) (slotEndingAt : Nat → Option Nat) (host : HostBlock Hd En Tk Tr)
    (as : Attempts f) (task : CacherTask B) : Prop :=
  ∃ submitted slot hashes, host.submitted = some submitted ∧ slotEndingAt host.timestamp = some slot
    ∧ submitted.blobVersionedHashes = some hashes
    ∧ ¬ Retrievable f ⟨submitted.txHash, slot, hashes⟩ as task

/-- **The submitted transactions** are those of the ideal block, unless there are no blobs. -/
theorem txns_spec (hf : Honest f blobsOf) (K : ProcessorConfig B Hd Z En Tk Tr Zt Tx G Bd)
    (host : HostBlock Hd En Tk Tr) (as : Attempts f) {task : CacherTask B}
    (htask : CacherHonest blobsOf task) :
    CacherHonest blobsOf (K.txns f host as task).2 ∧
      match (K.txns f host as task).1 with
      | .ok txns => idealTxns K blobsOf host = .ok txns
      | .error .preMerge => idealTxns K blobsOf host = .error preMergeText
      | .error (.fetch _) => NoBlobs f K.slotEndingAt host as task
      | .error _ => False := by
  unfold ProcessorConfig.txns idealTxns
  cases hsub : host.submitted with
  | none => exact ⟨htask, rfl⟩
  | some submitted =>
      dsimp only
      cases hslot : K.slotEndingAt host.timestamp with
      | none => exact ⟨htask, rfl⟩
      | some slot =>
          have hblock := signetBlock_honest hf K.coding host.number slot submitted as htask
          dsimp only
          rcases hq : CacheHandle.signetBlock K.coding f host.number slot submitted as task
            with ⟨e | z, task'⟩
          · rw [hq] at hblock
            obtain ⟨hkept, hashes, h4844, hno⟩ := hblock
            exact ⟨hkept, submitted, slot, hashes, hsub, hslot, h4844, hno⟩
          · rw [hq] at hblock
            obtain ⟨hkept, rfl⟩ := hblock
            exact ⟨hkept, rfl⟩

/-! ## Runs of a processor -/

/-- What happens to a processor: a block is run, the cacher's task ends, or the process starts
again. -/
inductive ProcessorMove (f : BlobFetcher B) (Hd En Tk Tr Tx G Bd : Type) where
  | block (env : CallEnv f) (hot : List (StoredBlock Hd En Tk Tr Tx G Bd))
      (x : Extracts (HostBlock Hd En Tk Tr))
  | cacherGone
  | restart

/-- A block was run, in what was shared before. -/
structure BlockRun (f : BlobFetcher B) (σ Hd En Tk Tr Tx G Bd : Type) where
  env : CallEnv f
  hot : List (StoredBlock Hd En Tk Tr Tx G Bd)
  extracts : Extracts (HostBlock Hd En Tk Tr)
  before : Shared B σ
  result : Except RunError (StoredBlock Hd En Tk Tr Tx G Bd)

/-- A new processor, with an oracle factory that keeps `s₀`. -/
def Shared.new (s₀ : σ) : Shared B σ := ⟨.running [], s₀⟩

def processorStep (K : ProcessorConfig B Hd Z En Tk Tr Zt Tx G Bd) (f : BlobFetcher B)
    (A : AliasOracleFactory σ O) (s₀ : σ) : ProcessorMove f Hd En Tk Tr Tx G Bd → Shared B σ →
      Option (BlockRun f σ Hd En Tk Tr Tx G Bd) × Shared B σ
  | .block env hot x, w =>
    (some ⟨env, hot, x, w, (runEvm K f A env hot x w).1⟩, (runEvm K f A env hot x w).2)
  | .cacherGone, w => (none, { w with cacher := .gone })
  | .restart, _ => (none, Shared.new s₀)

/-- Each block is stored at its number, and the host senders are among those asked for. -/
def OnNumbered (asked : Address → Prop) :
    ProcessorMove f Hd En Tk Tr Tx G Bd → Shared B σ → Prop
  | .block _ hot x, _ => Numbered hot ∧ ∀ t ∈ x.hostBlock.transacts, asked t.hostSender
  | _, _ => True

/-- The node's view of a processor: the blobs and the contracts are those there are. -/
def processorExternals {C : Type} (K : ProcessorConfig B Hd Z En Tk Tr Zt Tx G Bd)
    (blobsOf : Nat × B256 → List B) (isContract : Address → Bool) (deploy : Nat)
    (extractSignet : C → List (Extracts (HostBlock Hd En Tk Tr)))
    (coldLogs : StoredBlock Hd En Tk Tr Tx G Bd → List (List (Log G))) :
    Externals C (HostBlock Hd En Tk Tr) Tx G (Artifacts Hd En Tk Tr Bd) where
  hostDeployHeight := deploy
  extractSignet := extractSignet
  runEvm := idealEvm K blobsOf isContract
  coldLogs := coldLogs

/-- **The law of a block**: it is the block the node's model executes, or fails where that does,
or something outside failed. -/
def AsIdeal {C : Type} (X : Externals C (HostBlock Hd En Tk Tr) Tx G (Artifacts Hd En Tk Tr Bd))
    (slotEndingAt : Nat → Option Nat) (A : AliasOracleFactory σ O)
    (r : BlockRun f σ Hd En Tk Tr Tx G Bd) : Prop :=
  match r.result with
  | .ok b => processBlock X none r.hot r.extracts = .ok b
  | .error .parentNotPresent => processBlock X none r.hot r.extracts = .error .parentNotPresent
  | .error .preMerge => processBlock X none r.hot r.extracts = .error (.execution preMergeText)
  | .error (.driver m) => processBlock X none r.hot r.extracts = .error (.execution m)
  | .error (.hot m) => r.env.header = some m ∨ r.env.state = some m
  | .error (.fetch _) =>
    NoBlobs f slotEndingAt r.extracts.hostBlock r.env.attempts r.before.cacher
  | .error (.oracle m) => A.Fails m

/-- What is shared is sound. -/
structure SharedSound (blobsOf : Nat × B256 → List B) (I : σ → Prop) (w : Shared B σ) : Prop where
  cacher : CacherHonest blobsOf w.cacher
  oracles : I w.oracles

variable {C : Type} {K : ProcessorConfig B Hd Z En Tk Tr Zt Tx G Bd} {A : AliasOracleFactory σ O}
  {isContract : Address → Bool} {I : σ → Prop} {J : O → Prop} {deploy : Nat}
  {extractSignet : C → List (Extracts (HostBlock Hd En Tk Tr))}
  {coldLogs : StoredBlock Hd En Tk Tr Tx G Bd → List (List (Log G))} {s₀ : σ}

/-- The node's model on a chain that reaches up to the parent, which is stored at its number. -/
theorem processBlock_ideal {hot : List (StoredBlock Hd En Tk Tr Tx G Bd)} (hnum : Numbered hot)
    {x : Extracts (HostBlock Hd En Tk Tr)} {parent : StoredBlock Hd En Tk Tr Tx G Bd}
    (hparent : hot[x.ruHeight - 1]? = some parent) :
    processBlock (processorExternals K blobsOf isContract deploy extractSignet coldLogs) none hot x
      = match idealTxns K blobsOf x.hostBlock with
        | .error m => .error (.execution m)
        | .ok txns =>
          match K.drive hot x (contractSenders isContract x.hostBlock) txns parent.header with
          | .error m => .error (.execution m)
          | .ok b => .ok b := by
  have hlast : (hot.take (x.ruHeight - 1 + 1)).getLast? = some parent := by
    rw [List.getLast?_take, if_neg (Nat.succ_ne_zero _), Nat.add_sub_cancel, hparent]
    rfl
  have hdrive (txns : List Zt) (senders : Address → Bool) :
      K.drive (hot.take (x.ruHeight - 1 + 1)) x senders txns parent.header
        = K.drive hot x senders txns parent.header := by
    unfold ProcessorConfig.drive
    rw [hnum _ _ hparent, List.take_take, Nat.min_self]
  have hrun : (processorExternals K blobsOf isContract deploy extractSignet coldLogs).runEvm
      (hot.take (x.ruHeight - 1 + 1)) x
      = match idealTxns K blobsOf x.hostBlock with
        | .error m => .error m
        | .ok txns =>
          K.drive hot x (contractSenders isContract x.hostBlock) txns parent.header := by
    show idealEvm K blobsOf isContract (hot.take (x.ruHeight - 1 + 1)) x = _
    unfold idealEvm
    rw [hlast]
    dsimp only
    cases idealTxns K blobsOf x.hostBlock with
    | error m => rfl
    | ok txns => exact hdrive txns _
  unfold processBlock
  rw [hparent]
  dsimp only
  rw [hrun]
  cases idealTxns K blobsOf x.hostBlock with
  | error m => rfl
  | ok txns =>
      dsimp only
      cases K.drive hot x (contractSenders isContract x.hostBlock) txns parent.header <;> rfl

/-- **One block.** -/
theorem runEvm_spec (hf : Honest f blobsOf) (hA : A.Sound asked isContract I J) (env : CallEnv f)
    {hot : List (StoredBlock Hd En Tk Tr Tx G Bd)} (hnum : Numbered hot)
    (x : Extracts (HostBlock Hd En Tk Tr))
    (hasked : ∀ t ∈ x.hostBlock.transacts, asked t.hostSender)
    {w : Shared B σ} (hw : SharedSound blobsOf I w) :
    SharedSound blobsOf I (runEvm K f A env hot x w).2 ∧
      AsIdeal (processorExternals K blobsOf isContract deploy extractSignet coldLogs)
        K.slotEndingAt A ⟨env, hot, x, w, (runEvm K f A env hot x w).1⟩ := by
  unfold runEvm
  cases hheader : env.header with
  | some m => exact ⟨hw, Or.inl hheader⟩
  | none =>
      cases hparent : hot[x.ruHeight - 1]? with
      | none =>
          refine ⟨hw, ?_⟩
          show processBlock _ none hot x = _
          unfold processBlock
          rw [hparent]
      | some parent =>
          have hideal : processBlock
              (processorExternals K blobsOf isContract deploy extractSignet coldLogs) none hot x
              = _ := processBlock_ideal hnum hparent
          have htxns := txns_spec hf K x.hostBlock env.attempts hw.cacher
          dsimp only
          rcases hq : K.txns f x.hostBlock env.attempts w.cacher with ⟨e | txns, cacher'⟩
          · rw [hq] at htxns
            obtain ⟨hcacher, hres⟩ := htxns
            refine ⟨⟨hcacher, hw.oracles⟩, ?_⟩
            cases e with
            | preMerge =>
                rw [show idealTxns K blobsOf x.hostBlock = _ from hres] at hideal
                exact hideal
            | fetch e => exact hres
            | hot m => exact hres.elim
            | parentNotPresent => exact hres.elim
            | oracle m => exact hres.elim
            | driver m => exact hres.elim
          · rw [hq] at htxns
            obtain ⟨hcacher, hres⟩ := htxns
            rw [show idealTxns K blobsOf x.hostBlock = _ from hres] at hideal
            dsimp only
            cases hcreate : A.create env.createdAt with
            | error m => exact ⟨⟨hcacher, hw.oracles⟩, Or.inl ⟨_, hcreate⟩⟩
            | ok oracle =>
                have hloop := aliasLoop_spec hA env.askedAt (hA.created _ _ hcreate)
                  (x.hostBlock.transacts.map Transact.hostSender) 0 [] w.oracles hw.oracles
                  (by simpa using hasked) (by simp)
                dsimp only
                rcases hq' : aliasLoop A env.askedAt oracle
                  (x.hostBlock.transacts.map Transact.hostSender) 0 [] w.oracles
                  with ⟨m | toAlias, oracles'⟩
                · rw [hq'] at hloop
                  exact ⟨⟨hcacher, hloop.1⟩, hloop.2⟩
                · rw [hq'] at hloop
                  obtain ⟨horacles, hmem⟩ := hloop
                  have hsenders : (fun a => decide (a ∈ toAlias))
                      = contractSenders isContract x.hostBlock := by
                    funext a
                    unfold contractSenders
                    rw [Bool.eq_iff_iff, Bool.and_eq_true, decide_eq_true_eq, decide_eq_true_eq,
                      hmem a]
                    simp
                  dsimp only
                  cases hstate : env.state with
                  | some m => exact ⟨⟨hcacher, horacles⟩, Or.inr hstate⟩
                  | none =>
                      rw [hsenders]
                      dsimp only at hideal ⊢
                      cases hdrive : K.drive hot x (contractSenders isContract x.hostBlock) txns
                          parent.header with
                      | error m =>
                          rw [hdrive] at hideal
                          exact ⟨⟨hcacher, horacles⟩, hideal⟩
                      | ok b =>
                          rw [hdrive] at hideal
                          exact ⟨⟨hcacher, horacles⟩, hideal⟩

/-- **Every block of a run obeys the law**, over restarts and whatever fails. -/
theorem asIdeal_of_run (hf : Honest f blobsOf) (hA : A.Sound asked isContract I J) (hs₀ : I s₀)
    {os : List (BlockRun f σ Hd En Tk Tr Tx G Bd)} {w : Shared B σ}
    (hrun : Run (processorStep K f A s₀) (OnNumbered asked) (Shared.new s₀) os w) :
    ∀ r ∈ os, AsIdeal (processorExternals K blobsOf isContract deploy extractSignet coldLogs)
      K.slotEndingAt A r := by
  have hnew : SharedSound blobsOf I (Shared.new s₀ : Shared B σ) :=
    ⟨fun e he => absurd he (by simp), hs₀⟩
  have hlaw := Run.law (I := fun _ w => SharedSound blobsOf I w) (L := fun _ r => AsIdeal
    (processorExternals K blobsOf isContract deploy extractSignet coldLogs) K.slotEndingAt A r)
    hnew ?_ hrun
  · intro r hr
    obtain ⟨before, after, heq⟩ := List.append_of_mem hr
    exact hlaw.2 before r after heq
  · intro m _ w hw hm
    cases m with
    | block env hot x =>
        obtain ⟨hw', hideal⟩ : _ ∧
            AsIdeal (processorExternals K blobsOf isContract deploy extractSignet coldLogs)
              K.slotEndingAt A _ := runEvm_spec hf hA env hm.1 x hm.2 hw
        refine ⟨hw', fun r hr => ?_⟩
        rw [← Option.some.inj hr]
        exact hideal
    | cacherGone => exact ⟨⟨trivial, hw.oracles⟩, fun r hr => by cases hr⟩
    | restart => exact ⟨hnew, fun r hr => by cases hr⟩

/--
**Processors agree.** Take two processors of one configuration, each with honest blob sources
and an oracle factory of its own that is sound for the senders it is asked for, that run any
blocks on any numbered chains, over restarts, with caches as they come to be and whatever fails
outside. Each block run ends in the block the chain, the blobs and the contracts alone
determine, or fails for a reason that lies in these or is named outside; so blocks that two
processors return for the same extracts on the same chain are equal.
-/
theorem processors_agree {f' : BlobFetcher B} {σ' O' : Type} {A' : AliasOracleFactory σ' O'}
    {I' : σ' → Prop} {J' : O' → Prop} {s₀' : σ'}
    (hf : Honest f blobsOf) (hA : A.Sound asked isContract I J) (hs₀ : I s₀)
    (hf' : Honest f' blobsOf) (hA' : A'.Sound asked isContract I' J') (hs₀' : I' s₀')
    {os : List (BlockRun f σ Hd En Tk Tr Tx G Bd)} {w : Shared B σ}
    (hrun : Run (processorStep K f A s₀) (OnNumbered asked) (Shared.new s₀) os w)
    {os' : List (BlockRun f' σ' Hd En Tk Tr Tx G Bd)} {w' : Shared B σ'}
    (hrun' : Run (processorStep K f' A' s₀') (OnNumbered asked) (Shared.new s₀') os' w') :
    (∀ r ∈ os, AsIdeal (processorExternals K blobsOf isContract deploy extractSignet coldLogs)
        K.slotEndingAt A r)
      ∧ ∀ r ∈ os, ∀ r' ∈ os', r'.hot = r.hot → r'.extracts = r.extracts →
        ∀ b b', r.result = .ok b → r'.result = .ok b' → b = b' := by
  have hall : ∀ r ∈ os,
      AsIdeal (processorExternals K blobsOf isContract deploy extractSignet coldLogs)
        K.slotEndingAt A r := asIdeal_of_run hf hA hs₀ hrun
  have hall' : ∀ r ∈ os',
      AsIdeal (processorExternals K blobsOf isContract deploy extractSignet coldLogs)
        K.slotEndingAt A' r := asIdeal_of_run hf' hA' hs₀' hrun'
  refine ⟨hall, fun r hr r' hr' hhot hx b b' hb hb' => ?_⟩
  have hideal := hall r hr
  have hideal' := hall' r' hr'
  unfold AsIdeal at hideal hideal'
  rw [hb] at hideal
  rw [hb', hhot, hx] at hideal'
  exact Except.ok.inj (hideal.symm.trans hideal')

/-! ## Two backends -/

/-- A rollup whose transactions are the bytes of its blobs, and that stores who was aliased. -/
def byteRollup : ProcessorConfig Nat Nat (List UInt8) Unit Unit Unit UInt8 UInt8 Unit
    (List Address) where
  coding := ⟨fun blobs => some [blobs.map UInt8.ofNat], fun data => data.length, fun _ data => data⟩
  slotEndingAt timestamp := some (timestamp / 12)
  intoTransactions := id
  isEip4844 tx := tx = 3
  driveBlock _ x toAlias txns parent :=
    .ok ⟨⟨x.ruHeight, 0, parent.hash, 0⟩, txns, [],
      (x.hostBlock.transacts.map Transact.hostSender).filter toAlias⟩

/-- A source that has the blobs from an instant on. -/
def blobsFrom (start : Nat) : BlobFetcher Nat :=
  ⟨[], [fun _ now => if now < start then .error "no blobs yet" else .ok (some (.other [5, 3, 8]))]⟩

theorem blobsFrom_order (start : Nat) :
    [0].Perm (List.range (blobsFrom start).asyncSources.length) := List.Perm.refl _

theorem blobsFrom_honest (start : Nat) : Honest (blobsFrom start) fun _ => [5, 3, 8] := by
  intro s hs spec now blobs hblobs
  obtain rfl := List.mem_singleton.mp hs
  dsimp only at hblobs
  split at hblobs
  · cases hblobs
  · rw [← Option.some.inj (Except.ok.inj hblobs)]
    rfl

/-- The address 1 is a contract, and the host is out of reach at instant 9. -/
def oneContract : CodeProvider := fun now address =>
  if now = 9 then .error "unreachable" else .ok (if address = 1 then [0x60] else [])

theorem oneContract_stable :
    StableCode oneContract (fun _ => True) fun address => decide (address = 1) := by
  intro now address code _ h
  unfold oneContract at h
  by_cases h9 : now = 9
  · rw [if_pos h9] at h
    cases h
  · rw [if_neg h9] at h
    rw [← Except.ok.inj h]
    show _ = decide (address = 1)
    by_cases h1 : address = 1
    · rw [if_pos h1, decide_eq_true h1]
      rfl
    · rw [if_neg h1, decide_eq_false h1]
      rfl

/-- The same host, as a node in the process sees it. -/
def oneContractState : HostState :=
  ⟨fun address => .ok (some ⟨if address = 1 then some 6 else none⟩),
    fun hash => .ok (if hash = 6 then some [0x60] else none),
    fun code =>
      decide (code.length = eip7702DelegationLen ∧ eip7702DelegationDesignator <+: code), 0⟩

theorem oneContractState_proper : oneContractState.Proper := by
  refine ⟨fun hash code _ h => ?_, fun code => decide_eq_true_iff⟩
  have hcode : (if hash = 6 then some ([0x60] : Code) else none) = some code := Except.ok.inj h
  by_cases h6 : hash = 6
  · rw [if_pos h6] at hcode
    rw [← Option.some.inj hcode]
    simp
  · rw [if_neg h6] at hcode
    cases hcode

theorem oneContractState_right (address : Address) (code : Code)
    (h : oneContractState.CodeAt address code) :
    shouldAliasBytecode code = decide (address = 1) := by
  unfold HostState.CodeAt at h
  have hacct : oneContractState.basicAccount address
    = .ok (some ⟨if address = 1 then some 6 else none⟩) := rfl
  rw [hacct] at h
  by_cases h1 : address = 1
  · rw [if_pos h1] at h
    have hcode : (.ok (some [0x60]) : Except String (Option Code)) = .ok (some code) := h
    rw [← Option.some.inj (Except.ok.inj hcode), decide_eq_true h1]
    rfl
  · rw [if_neg h1] at h
    rw [show code = [] from h, decide_eq_false h1]
    rfl

def byteGenesis : StoredBlock Nat Unit Unit Unit UInt8 Unit (List Address) :=
  ⟨⟨0, 0, 0, 0⟩, [], [], ⟨[], [], none⟩⟩

theorem byteGenesis_numbered : Numbered [byteGenesis] := by
  intro h b hb
  cases h with
  | zero =>
      obtain rfl := Option.some.inj hb
      rfl
  | succ h => cases hb

/-- The host block of the first rollup block: a submission, an entry and three calls. -/
def byteExtracts : Extracts (HostBlock Nat Unit Unit Unit) :=
  ⟨1, 101, 24, some ⟨7, some [1], 3, id⟩, [()], [], [⟨1, ()⟩, ⟨2, ()⟩, ⟨1, ()⟩]⟩

/-- A call at an instant, with an attempt at each of the three instants from it on. -/
def callAt (start now : Nat) : CallEnv (blobsFrom start) :=
  ⟨none, ⟨[⟨now, [0], blobsFrom_order start⟩, ⟨now + 1, [0], blobsFrom_order start⟩,
    ⟨now + 2, [0], blobsFrom_order start⟩], rfl⟩, now + 3, fun _ => now + 4, none⟩

def callBlock (start now : Nat) :
    ProcessorMove (blobsFrom start) Nat Unit Unit Unit UInt8 Unit (List Address) :=
  .block (callAt start now) [byteGenesis] byteExtracts

theorem callBlocks_numbered (start : Nat) (nows : List Nat) (s : Shared Nat σ)
    (step : ProcessorMove (blobsFrom start) Nat Unit Unit Unit UInt8 Unit (List Address) →
      Shared Nat σ → Option (BlockRun (blobsFrom start) σ Nat Unit Unit Unit UInt8 Unit
        (List Address)) × Shared Nat σ) :
    Admits step (OnNumbered fun _ => True) (nows.map (callBlock start)) s := by
  refine admits_of_forall fun m hm s => ?_
  obtain ⟨now, _, rfl⟩ := List.mem_map.mp hm
  exact ⟨byteGenesis_numbered, fun _ _ => trivial⟩

/-- The block both make: the blob transaction is left out, and the one contract is aliased. -/
def byteBlock : StoredBlock Nat Unit Unit Unit UInt8 Unit (List Address) :=
  ⟨⟨1, 0, 0, 0⟩, [5, 8], [], ⟨[1, 1], [.enter 0 (), .transact 1 ⟨1, ()⟩, .transact 2 ⟨2, ()⟩,
    .transact 3 ⟨1, ()⟩], some 101⟩⟩

/-- Over RPC, the first call finds no blobs, the second one runs the block, and in the third the
host is out of reach when it is asked for the address that is not cached. In the process the
block is run at once. -/
theorem processors_agree_backends :
    let rpc := (runInputs (processorStep byteRollup (blobsFrom 5) (rpcAliasOracle oneContract) [])
      ([0, 3, 5].map (callBlock 5)) (Shared.new [])).1
    let reth := (runInputs (processorStep byteRollup (blobsFrom 0)
      (rethAliasOracleFactory fun _ => .ok oneContractState) ()) ([8].map (callBlock 0))
      (Shared.new ())).1
    rpc.map BlockRun.result = [.error (.fetch (.missingSidecar 7)), .ok byteBlock,
        .error (.oracle "unreachable")]
      ∧ reth.map BlockRun.result = [.ok byteBlock]
      ∧ (∀ r ∈ rpc, AsIdeal (C := Unit) (processorExternals byteRollup (fun _ => [5, 3, 8])
          (fun a => decide (a = 1)) 100 (fun _ => []) fun _ => []) byteRollup.slotEndingAt
          (rpcAliasOracle oneContract) r)
      ∧ ∀ r ∈ rpc, ∀ r' ∈ reth, r'.hot = r.hot → r'.extracts = r.extracts →
        ∀ b b', r.result = .ok b → r'.result = .ok b' → b = b' := by
  intro rpc reth
  have hrun : Run _ (OnNumbered fun _ => True) (Shared.new []) rpc _ :=
    runInputs_run ([0, 3, 5].map (callBlock 5)) (Shared.new []) (callBlocks_numbered 5 _ _ _)
  have hrun' : Run _ (OnNumbered fun _ => True) (Shared.new ()) reth _ :=
    runInputs_run ([8].map (callBlock 0)) (Shared.new ()) (callBlocks_numbered 0 _ _ _)
  refine ⟨by decide +kernel, by decide +kernel, ?_⟩
  exact processors_agree (blobsFrom_honest 5) (rpcAliasOracle_sound oneContract_stable) (by simp)
    (blobsFrom_honest 0) (rethAliasOracleFactory_sound fun now st hst => by
      obtain rfl := Except.ok.inj hst
      exact ⟨oneContractState_proper, fun a code _ => oneContractState_right a code⟩) trivial hrun
    hrun'

end NodeComponents.BlockProcessor
