import NodeComponents.Lib.Run
import NodeComponents.Blobber.Blobs

/-!
# The block is decoded from the first answer

A fetch ends with the first source that has blobs, and nothing checks that they are
all of them: a source that is documented to return what it has may win against one
that has everything, its list is cached, and a list that does not decode makes an
empty block.

So the block depends on the order of completion and on the cache exactly as far as
the sources that may answer first differ. Cached lists are no exception, as each was
the answer of such a source to an earlier fetch.
-/

namespace NodeComponents.Blobber

open Lib

variable {B Hd Z : Type}

/-! ## Cache histories -/

/-- What a task of the cacher does to the cache: look a key up, or store what its attempts
fetched. Other tasks run between the two. -/
inductive CacheOp (f : BlobFetcher B) where
  | lookup (spec : BlobSpec)
  | store (spec : BlobSpec) (as : Attempts f)

/-- A fetch that filled the cache: what it looked up, and its attempts. -/
abbrev CacheFill (f : BlobFetcher B) := BlobSpec × Attempts f

def cacheStep {f : BlobFetcher B} : CacheOp f → BlobCache B → Option (CacheFill f) × BlobCache B
  | .lookup spec, cache => (none, (Lru.get (spec.slot, spec.txHash) cache).2)
  | .store spec as, cache =>
    match fetchLoop f spec as.val with
    | .ok blobs =>
      (some (spec, as), Lru.insert blobCacheSize (spec.slot, spec.txHash) blobs cache)
    | .error _ => (none, cache)

/-- The versioned hashes of a lookup are those of its transaction. -/
def OfTransaction {f : BlobFetcher B} (hashesOf : B256 → List B256) :
    CacheOp f → BlobCache B → Prop
  | .lookup _, _ => True
  | .store spec _, _ => spec.versionedHashes = hashesOf spec.txHash

/-- A cache some history leaves, with the fetches that filled it. -/
abbrev CacheReached (f : BlobFetcher B) (hashesOf : B256 → List B256)
    (fills : List (CacheFill f)) (cache : BlobCache B) : Prop :=
  Run cacheStep (OfTransaction hashesOf) [] fills cache

/-- An attempt of the call, or of a fetch that filled the cache for this lookup. -/
def AttemptFor {f : BlobFetcher B} (spec : BlobSpec) (as : Attempts f) (fills : List (CacheFill f))
    (a : Attempt f) : Prop := a ∈ as.val ∨ ∃ fill ∈ fills, fill.1 = spec ∧ a ∈ fill.2.val

/-- Every cached list was the answer of a source that may answer first, to an attempt of a fetch
that filled the cache. -/
theorem cacheReached_mayAnswer {f : BlobFetcher B} {hashesOf : B256 → List B256}
    {fills : List (CacheFill f)} {cache : BlobCache B} (h : CacheReached f hashesOf fills cache) :
    ∀ e ∈ cache, ∃ fill ∈ fills, fill.1 = ⟨e.1.2, e.1.1, hashesOf e.1.2⟩
      ∧ ∃ a ∈ fill.2.val, MayAnswer f fill.1 a.now e.2 := by
  refine Run.invariant (I := fun fills cache => ∀ e ∈ cache, ∃ fill ∈ fills,
    fill.1 = ⟨e.1.2, e.1.1, hashesOf e.1.2⟩ ∧ ∃ a ∈ fill.2.val, MayAnswer f fill.1 a.now e.2)
    (by simp) ?_ h
  intro op fills cache hcache hop e he
  have hearlier (hold : e ∈ cache) : ∃ fill ∈ fills ++ (cacheStep op cache).1.toList,
      fill.1 = ⟨e.1.2, e.1.1, hashesOf e.1.2⟩ ∧ ∃ a ∈ fill.2.val, MayAnswer f fill.1 a.now e.2 := by
    obtain ⟨fill, hfill, hmay⟩ := hcache e hold
    exact ⟨fill, List.mem_append_left _ hfill, hmay⟩
  cases op with
  | lookup spec => exact hearlier (Lru.mem_of_mem_get he)
  | store spec as =>
      unfold cacheStep at he hearlier ⊢
      dsimp only at he hearlier ⊢
      cases hfetch : fetchLoop f spec as.val with
      | error _ =>
          rw [hfetch] at he hearlier
          exact hearlier he
      | ok blobs =>
          rw [hfetch] at he hearlier
          rcases Lru.mem_of_mem_insert he with rfl | hold
          · have hhashes : spec.versionedHashes = hashesOf spec.txHash := hop
            refine ⟨(spec, as), by simp, ?_, fetchLoop_mayAnswer hfetch⟩
            rw [← hhashes]
          · exact hearlier hold

/-! ## The block -/

/-- The block decoded from some blobs: an empty one if they do not decode. -/
def blockFrom (K : Coding B Hd Z) (extract : ExtractedEvent Hd) (hostBlockNumber : Nat)
    (blobs : Blobs B) : Z :=
  K.fromHeaderAndData (extract.ruHeader hostBlockNumber)
    (match decodeBlobs K extract blobs with
    | .ok data => data
    | .error _ => [])

/-- Whatever is fetched, decoding ends in a block. -/
theorem signetBlock_fetched (K : Coding B Hd Z) {f : BlobFetcher B} {extract : ExtractedEvent Hd}
    (hostBlockNumber : Nat) {slot : Nat} {hashes : List B256}
    (h4844 : extract.blobVersionedHashes = some hashes) {as : Attempts f} {cache : BlobCache B}
    {blobs : Blobs B}
    (h : (cacherFetchBlobs f ⟨extract.txHash, slot, hashes⟩ as cache).1 = .ok blobs) :
    (signetBlock K f hostBlockNumber slot extract as cache).1
      = .ok (blockFrom K extract hostBlockNumber blobs) := by
  have hfetch : (fetchAndDecode K f slot extract as cache).1 = decodeBlobs K extract blobs := by
    unfold fetchAndDecode
    rw [h4844]
    dsimp only
    cases hq : cacherFetchBlobs f ⟨extract.txHash, slot, hashes⟩ as cache with
    | mk res cache' =>
        rw [hq] at h
        rw [show res = .ok blobs from h]
  have hdecode : ∀ e, decodeBlobs K extract blobs ≠ .error (.fetch e) := by
    intro e he
    unfold decodeBlobs at he
    split at he
    · exact absurd he (by simp)
    · split at he <;> exact absurd he (by simp)
  unfold signetBlock blockFrom
  cases hq : fetchAndDecode K f slot extract as cache with
  | mk res cache' =>
      rw [hq] at hfetch
      rw [← show res = decodeBlobs K extract blobs from hfetch] at hdecode ⊢
      rcases res with (e | e) | data
      · exact absurd rfl (hdecode e)
      · rfl
      · rfl

/-- **A fetch returns the answer of a source that may answer first**, to an attempt of its own or
of the fetch that filled the cache. -/
theorem cacherFetchBlobs_mayAnswer {f : BlobFetcher B} {hashesOf : B256 → List B256}
    {txHash : B256} {slot : Nat} (hanswered : Answered f ⟨txHash, slot, hashesOf txHash⟩)
    {fills : List (CacheFill f)} {cache : BlobCache B}
    (hcache : CacheReached f hashesOf fills cache) (as : Attempts f) :
    ∃ blobs a, AttemptFor ⟨txHash, slot, hashesOf txHash⟩ as fills a
      ∧ MayAnswer f ⟨txHash, slot, hashesOf txHash⟩ a.now blobs
      ∧ (cacherFetchBlobs f ⟨txHash, slot, hashesOf txHash⟩ as cache).1 = .ok blobs := by
  unfold cacherFetchBlobs
  dsimp only
  cases hget : Lru.get (slot, txHash) cache with
  | mk hit cache' =>
      cases hit with
      | some blobs =>
          -- a cached list was an answer when it was stored
          have hmem : ((slot, txHash), blobs) ∈ cache :=
            Lru.get_hit (by rw [hget])
          obtain ⟨fill, hfill, hspec, a, ha, hmay⟩ := cacheReached_mayAnswer hcache _ hmem
          rw [hspec] at hmay
          exact ⟨blobs, a, Or.inr ⟨fill, hfill, hspec, ha⟩, hmay, rfl⟩
      | none =>
          obtain ⟨as, hlen⟩ := as
          cases as with
          | nil => exact absurd hlen (by simp [fetchRetries])
          | cons a rest =>
              obtain ⟨blobs, hblobs⟩ := hanswered.fetchBlobs a
              refine ⟨blobs, a, Or.inl List.mem_cons_self, fetchBlobs_mayAnswer hblobs, ?_⟩
              simp only [fetchLoop, hblobs]

/-! ## First answers and full lists -/

/-- The sources of a transaction with the blobs `full`: each returns some of them or none, and
one always returns all. -/
structure LenientSources (f : BlobFetcher B) (spec : BlobSpec) (full : List B) : Prop where
  part : ∀ s ∈ f.syncSources ++ f.asyncSources, ∀ now blobs, s spec now = .ok (some blobs) →
    blobs.asVec ≠ [] ∧ blobs.asVec.Sublist full
  complete : ∃ s ∈ f.syncSources ++ f.asyncSources, ∀ now, ∃ blobs,
    s spec now = .ok (some blobs) ∧ blobs.asVec = full

/-- The coder decodes the blobs to data with the announced hash. -/
def Announced (K : Coding B Hd Z) (extract : ExtractedEvent Hd) (full : List B) : Prop :=
  ∃ datas, K.decodeAll full = some datas ∧
    ∃ data ∈ datas, K.keccak256 data = extract.blockDataHash

theorem blockFrom_announced {K : Coding B Hd Z} {extract : ExtractedEvent Hd} {full : List B}
    (h : Announced K extract full) (hostBlockNumber : Nat) :
    ∃ data, K.keccak256 data = extract.blockDataHash ∧
      blockFrom K extract hostBlockNumber (.other full)
        = K.fromHeaderAndData (extract.ruHeader hostBlockNumber) data := by
  obtain ⟨datas, hdatas, data, hmem, hhash⟩ := h
  unfold blockFrom decodeBlobs
  rw [show (Blobs.other full).asVec = full from rfl, hdatas]
  dsimp only
  cases hfind : datas.find? fun data => K.keccak256 data = extract.blockDataHash with
  | none =>
      have hno := List.find?_eq_none.mp hfind data hmem
      exact absurd hhash (by simpa using hno)
  | some found => exact ⟨found, by simpa using List.find?_some hfind, rfl⟩

/--
**The block is the one decoded from a first answer.** For a 4844 submission with lenient
sources, every completion order and every cache history: a block is returned, and it is
the one decoded from the list of a source that may answer first to an attempt of the call,
or of the fetch that filled the cache. It is the block of the full list for all of them if
and only if every source that may answer first returns a list of which the same block is
built.
-/
theorem signetBlock_firstAnswer (K : Coding B Hd Z) (f : BlobFetcher B)
    (extract : ExtractedEvent Hd) (hashesOf : B256 → List B256) (hostBlockNumber : Nat)
    (h4844 : extract.blobVersionedHashes = some (hashesOf extract.txHash))
    {slot : Nat} {full : List B}
    (hsources : LenientSources f ⟨extract.txHash, slot, hashesOf extract.txHash⟩ full)
    (hannounced : Announced K extract full) :
    let fullBlock := blockFrom K extract hostBlockNumber (.other full)
    let spec : BlobSpec := ⟨extract.txHash, slot, hashesOf extract.txHash⟩
    (∃ data, K.keccak256 data = extract.blockDataHash ∧
        fullBlock = K.fromHeaderAndData (extract.ruHeader hostBlockNumber) data)
      ∧ (∀ fills cache, CacheReached f hashesOf fills cache → ∀ as, ∃ blobs a,
          AttemptFor spec as fills a ∧ MayAnswer f spec a.now blobs
            ∧ (signetBlock K f hostBlockNumber slot extract as cache).1
              = .ok (blockFrom K extract hostBlockNumber blobs))
      ∧ ((∀ fills cache, CacheReached f hashesOf fills cache → ∀ as,
            (signetBlock K f hostBlockNumber slot extract as cache).1 = .ok fullBlock)
          ↔ ∀ now blobs, MayAnswer f spec now blobs →
            blockFrom K extract hostBlockNumber blobs = fullBlock) := by
  intro fullBlock spec
  have hanswered : Answered f ⟨extract.txHash, slot, hashesOf extract.txHash⟩ := by
    obtain ⟨s, hs, hfull⟩ := hsources.complete
    refine ⟨s, hs, fun now => ?_⟩
    obtain ⟨blobs, hblobs, _⟩ := hfull now
    exact ⟨blobs, hblobs⟩
  have hblock : ∀ fills cache, CacheReached f hashesOf fills cache → ∀ as, ∃ blobs a,
      AttemptFor spec as fills a ∧ MayAnswer f spec a.now blobs
        ∧ (signetBlock K f hostBlockNumber slot extract as cache).1
          = .ok (blockFrom K extract hostBlockNumber blobs) := by
    intro fills cache hcache as
    obtain ⟨blobs, a, hfor, hmay, hfetch⟩ := cacherFetchBlobs_mayAnswer hanswered hcache as
    exact ⟨blobs, a, hfor, hmay, signetBlock_fetched K hostBlockNumber h4844 hfetch⟩
  refine ⟨blockFrom_announced hannounced hostBlockNumber, hblock, ?_, ?_⟩
  · intro hall now blobs hmay
    -- on an empty cache, the race in which this source completes first
    obtain ⟨completion, hfetch⟩ : ∃ completion, f.fetchBlobs
        ⟨extract.txHash, slot, hashesOf extract.txHash⟩ ⟨now, completion⟩ = .ok blobs :=
      mayAnswer_fetchBlobs hmay
    have hcacher : (cacherFetchBlobs f ⟨extract.txHash, slot, hashesOf extract.txHash⟩
        ⟨List.replicate fetchRetries ⟨now, completion⟩, List.length_replicate⟩ []).1
        = .ok blobs := by
      unfold cacherFetchBlobs
      simp only [Lru.get, List.find?_nil, fetchRetries, List.replicate_succ, fetchLoop, hfetch]
    have hsame := (signetBlock_fetched K hostBlockNumber h4844 hcacher).symm.trans
      (hall [] [] Run.start _)
    exact Except.ok.inj hsame
  · intro hsame fills cache hcache as
    obtain ⟨blobs, a, _, hmay, hresult⟩ := hblock fills cache hcache as
    rw [hresult, hsame a.now blobs hmay]

/-! ## A race between a full and a partial list -/

/-- Two blobs that only decode together, to one byte. -/
def pairCoding : Coding Nat Unit (List UInt8) where
  decodeAll blobs := if blobs = [1, 2] then some [[7]] else none
  keccak256 data := BitVec.ofNat 256 data.length
  fromHeaderAndData _ data := data

/-- A submission that announces the byte. -/
def pairEvent : ExtractedEvent Unit := ⟨0, some [], 1, fun _ => ()⟩

def fullSource : BlobSource Nat := fun _ _ => .ok (some (.other [1, 2]))

def partialSource : BlobSource Nat := fun _ _ => .ok (some (.other [1]))

theorem lenient_pair {f : BlobFetcher Nat} (spec : BlobSpec)
    (h : ∀ s ∈ f.syncSources ++ f.asyncSources, s = fullSource ∨ s = partialSource)
    (hfull : fullSource ∈ f.syncSources ++ f.asyncSources) : LenientSources f spec [1, 2] := by
  refine ⟨?_, fullSource, hfull, fun _ => ⟨_, rfl, rfl⟩⟩
  intro s hs now blobs hblobs
  rcases h s hs with rfl | rfl
  · obtain rfl := Option.some.inj (Except.ok.inj hblobs)
    exact ⟨by simp [Blobs.asVec], List.Sublist.refl _⟩
  · obtain rfl := Option.some.inj (Except.ok.inj hblobs)
    exact ⟨by simp [Blobs.asVec], by decide⟩

theorem announced_pair : Announced pairCoding pairEvent [1, 2] :=
  ⟨[[7]], rfl, [7], by simp, rfl⟩

/-- Three attempts whose races go the same way. -/
def alike {f : BlobFetcher Nat} (completion : CompletionOrder f.asyncSources.length) :
    Attempts f := ⟨List.replicate fetchRetries ⟨0, completion⟩, List.length_replicate⟩

/-- A synchronous source with the full list is asked first, and decides. -/
theorem signetBlock_firstAnswer_sync :
    let f : BlobFetcher Nat := ⟨[fullSource], [partialSource]⟩
    (signetBlock pairCoding f 0 0 pairEvent (alike ⟨[0], List.Perm.refl _⟩) []).1 = .ok [7] := by
  intro f
  have hsources : LenientSources f ⟨0, 0, []⟩ [1, 2] :=
    lenient_pair _ (by simp [f]) (by simp [f])
  have h := signetBlock_firstAnswer pairCoding f pairEvent (fun _ => []) 0 rfl hsources
    announced_pair
  refine h.2.2.mpr ?_ [] [] Run.start _
  intro now blobs hmay
  obtain rfl : blobs = .other [1, 2] := hmay
  rfl

/-- **Whoever answers first decides the block**: with the full list it is the announced data,
with a part of the list it is empty. -/
theorem partial_answer_empties_block :
    let f : BlobFetcher Nat := ⟨[], [fullSource, partialSource]⟩
    LenientSources f ⟨pairEvent.txHash, 0, []⟩ [1, 2] ∧ Announced pairCoding pairEvent [1, 2]
      ∧ (signetBlock pairCoding f 0 0 pairEvent (alike ⟨[0, 1], List.Perm.refl _⟩) []).1 = .ok [7]
      ∧ (signetBlock pairCoding f 0 0 pairEvent (alike ⟨[1, 0], List.Perm.swap 0 1 []⟩) []).1
        = .ok [] := by
  intro f
  exact ⟨lenient_pair _ (by simp [f]) (by simp [f]), announced_pair, rfl, rfl⟩

end NodeComponents.Blobber
