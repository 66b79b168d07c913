import NodeComponents.Lib.Lru
import NodeComponents.NodeTypes

/-!
# Fetching, caching and decoding blobs

The rollup block of a host transaction is decoded from its blobs. A fetcher asks
synchronous sources one after the other and then races the asynchronous ones; a
cacher keeps what was fetched and retries; a handle decodes.

What a source answers is a function of the lookup and of the instant it is asked
at. The race is won by whoever completes first, so an attempt to fetch carries the
order in which the asynchronous sources complete. The coder, the hash and the
block type come from outside this repository and are arguments.
-/

namespace NodeComponents.Blobber

open Lib

/-! ## Errors -/

/-- Unrecoverable blob fetching errors. -/
inductive FetchError where
  /-- `Cannot retrieve sidecar for _ from any source` -/
  | missingSidecar (txHash : B256)
  | blobSource (message : String)
deriving DecidableEq, Repr

/-- Ignorable blob fetching errors. -/
inductive DecodeError where
  /-- `Non-4844 transaction` -/
  | non4844Transaction
  /-- `Decoding failed` -/
  | blobDecodeError
  /-- `Block data not found in decoded blob. Expected block hash: _` -/
  | blockDataNotFound (dataHash : B256)
deriving DecidableEq, Repr

inductive BlobberError where
  | fetch (e : FetchError)
  | decode (e : DecodeError)
deriving DecidableEq, Repr

/-! ## Sources -/

/-- Blobs of a sidecar, or a list of blobs from an external source. -/
inductive Blobs (B : Type) where
  | fromSidecar (blobs : List B)
  | other (blobs : List B)
deriving DecidableEq, Repr

variable {B Hd Z : Type}

/-- The blobs, wherever they come from. -/
def Blobs.asVec : Blobs B → List B
  | .fromSidecar blobs => blobs
  | .other blobs => blobs

/-- All known context for a blob lookup. -/
structure BlobSpec where
  txHash : B256
  slot : Nat
  versionedHashes : List B256
deriving DecidableEq, Repr

/-- What a source answers: blobs, none, or an error. -/
abbrev Answer (B : Type) := Except String (Option (Blobs B))

/-- A source of blobs, as a function of the lookup and the instant it is asked at. -/
abbrev BlobSource (B : Type) := BlobSpec → Nat → Answer B

/-- `BlobFetcher`: sources tried in order, and sources raced. -/
structure BlobFetcher (B : Type) where
  syncSources : List (BlobSource B)
  asyncSources : List (BlobSource B)

/-- The order in which `n` futures complete, by their index. -/
structure CompletionOrder (n : Nat) where
  order : List Nat
  perm : order.Perm (List.range n)

/-- One attempt to fetch: when it is made, and how its race goes. -/
structure Attempt (f : BlobFetcher B) where
  now : Nat
  completion : CompletionOrder f.asyncSources.length

/-- The first answer with blobs; a source that has none or fails is passed over. -/
def firstBlobs : List (Answer B) → Option (Blobs B)
  | [] => none
  | .ok (some blobs) :: _ => some blobs
  | .ok none :: rest => firstBlobs rest
  | .error _ :: rest => firstBlobs rest

/-- What the synchronous sources answer, in list order. -/
def BlobFetcher.syncAnswers (f : BlobFetcher B) (spec : BlobSpec) (now : Nat) : List (Answer B) :=
  f.syncSources.map fun s => s spec now

/-- What the asynchronous sources answer, in the order they complete. -/
def BlobFetcher.completed (f : BlobFetcher B) (spec : BlobSpec) (a : Attempt f) :
    List (Answer B) :=
  a.completion.order.filterMap fun i => (f.asyncSources[i]?).map fun s => s spec a.now

/-- Fetch blobs by trying sync sources first, then racing async sources. -/
def BlobFetcher.fetchBlobs (f : BlobFetcher B) (spec : BlobSpec) (a : Attempt f) :
    Except FetchError (Blobs B) :=
  match firstBlobs (f.syncAnswers spec a.now) with
  | some blobs => .ok blobs
  | none =>
    match firstBlobs (f.completed spec a) with
    | some blobs => .ok blobs
    | none => .error (.missingSidecar spec.txHash)

/-! ## The cache -/

/-- `MAX_BLOBS_PER_BLOCK_ELECTRA * EPOCH_SLOTS` -/
def blobCacheSize : Nat := 9 * 32

def fetchRetries : Nat := 3

/-- The cached blobs by slot and transaction hash. `Lib.Lru` stands for the map of the third-party
`schnellru` crate, limited by length; what is relied on is its documented behaviour: `get` finds
what was inserted last under a key and makes it the most recently used entry, and `insert` over
the limit evicts the least recently used one. -/
abbrev BlobCache (B : Type) := List ((Nat × B256) × Blobs B)

/-- The attempts of one call. -/
abbrev Attempts (f : BlobFetcher B) := { as : List (Attempt f) // as.length = fetchRetries }

/-- The loop over the attempts. -/
def fetchLoop (f : BlobFetcher B) (spec : BlobSpec) :
    List (Attempt f) → Except BlobberError (Blobs B)
  | [] => .error (.fetch (.missingSidecar spec.txHash))
  | a :: rest =>
    match f.fetchBlobs spec a with
    | .ok blobs => .ok blobs
    | .error _ => fetchLoop f spec rest

/-- `BlobCacher::fetch_blobs`, with no other task in between. -/
def cacherFetchBlobs (f : BlobFetcher B) (spec : BlobSpec) (as : Attempts f) (cache : BlobCache B) :
    Except BlobberError (Blobs B) × BlobCache B :=
  match Lru.get (spec.slot, spec.txHash) cache with
  | (some blobs, cache') => (.ok blobs, cache')
  | (none, cache') =>
    match fetchLoop f spec as.val with
    | .ok blobs => (.ok blobs, Lru.insert blobCacheSize (spec.slot, spec.txHash) blobs cache')
    | .error e => (.error e, cache')

/-! ## Decoding -/

/-- What comes from outside: the coder, the hash, and how a block is built. -/
structure Coding (B Hd Z : Type) where
  decodeAll : List B → Option (List (List UInt8))
  keccak256 : List UInt8 → B256
  fromHeaderAndData : Hd → List UInt8 → Z

/-- A block submission extracted from a host transaction; the versioned hashes are
there if the transaction is a 4844 transaction. -/
structure ExtractedEvent (Hd : Type) where
  txHash : B256
  blobVersionedHashes : Option (List B256)
  blockDataHash : B256
  ruHeader : Nat → Hd

/-- Decode blobs to the data with the announced hash. -/
def decodeBlobs (K : Coding B Hd Z) (extract : ExtractedEvent Hd) (blobs : Blobs B) :
    Except BlobberError (List UInt8) :=
  match K.decodeAll blobs.asVec with
  | none => .error (.decode .blobDecodeError)
  | some datas =>
    match datas.find? fun data => K.keccak256 data = extract.blockDataHash with
    | none => .error (.decode (.blockDataNotFound extract.blockDataHash))
    | some data => .ok data

/-- `CacheHandle::fetch_and_decode` -/
def fetchAndDecode (K : Coding B Hd Z) (f : BlobFetcher B) (slot : Nat)
    (extract : ExtractedEvent Hd) (as : Attempts f) (cache : BlobCache B) :
    Except BlobberError (List UInt8) × BlobCache B :=
  match extract.blobVersionedHashes with
  | none => (.error (.decode .non4844Transaction), cache)
  | some versionedHashes =>
    match cacherFetchBlobs f ⟨extract.txHash, slot, versionedHashes⟩ as cache with
    | (.error e, cache') => (.error e, cache')
    | (.ok blobs, cache') => (decodeBlobs K extract blobs, cache')

/-- `CacheHandle::signet_block`: data that cannot be decoded makes an empty block. -/
def signetBlock (K : Coding B Hd Z) (f : BlobFetcher B) (hostBlockNumber slot : Nat)
    (extract : ExtractedEvent Hd) (as : Attempts f) (cache : BlobCache B) :
    Except FetchError Z × BlobCache B :=
  let header := extract.ruHeader hostBlockNumber
  match fetchAndDecode K f slot extract as cache with
  | (.ok data, cache') => (.ok (K.fromHeaderAndData header data), cache')
  | (.error (.decode _), cache') => (.ok (K.fromHeaderAndData header []), cache')
  | (.error (.fetch e), cache') => (.error e, cache')

/-! ## Which blobs are fetched -/

theorem firstBlobs_mem {answers : List (Answer B)} {blobs : Blobs B}
    (h : firstBlobs answers = some blobs) : .ok (some blobs) ∈ answers := by
  induction answers with
  | nil => exact absurd h (by simp [firstBlobs])
  | cons answer rest ih =>
      rcases answer with e | _ | found
      · exact List.mem_cons_of_mem _ (ih h)
      · exact List.mem_cons_of_mem _ (ih h)
      · obtain rfl : found = blobs := Option.some.inj h
        exact List.mem_cons_self

theorem firstBlobs_isSome {answers : List (Answer B)} {blobs : Blobs B}
    (h : .ok (some blobs) ∈ answers) : ∃ first, firstBlobs answers = some first := by
  induction answers with
  | nil => exact absurd h (by simp)
  | cons answer rest ih =>
      rcases answer with e | _ | found
      · exact ih ((List.mem_cons.mp h).resolve_left (by simp))
      · exact ih ((List.mem_cons.mp h).resolve_left (by simp))
      · exact ⟨found, rfl⟩

theorem mem_completed {f : BlobFetcher B} {spec : BlobSpec} {a : Attempt f} {answer : Answer B} :
    answer ∈ f.completed spec a ↔ ∃ s ∈ f.asyncSources, s spec a.now = answer := by
  unfold BlobFetcher.completed
  rw [List.mem_filterMap]
  constructor
  · intro hq
    rcases hq with ⟨i, _, hi⟩
    obtain ⟨s, hs, rfl⟩ := Option.map_eq_some_iff.mp hi
    exact ⟨s, List.mem_of_getElem? hs, rfl⟩
  · intro hq
    rcases hq with ⟨s, hs, rfl⟩
    obtain ⟨i, hi⟩ := List.mem_iff_getElem?.mp hs
    refine ⟨i, a.completion.perm.mem_iff.mpr ?_, by rw [hi]; rfl⟩
    exact List.mem_range.mpr (List.getElem?_eq_some_iff.mp hi).1

/-- A source whose blobs an attempt may return: the first synchronous one that has any, or,
if none has, any asynchronous one. -/
def MayAnswer (f : BlobFetcher B) (spec : BlobSpec) (now : Nat) (blobs : Blobs B) : Prop :=
  match firstBlobs (f.syncAnswers spec now) with
  | some first => blobs = first
  | none => ∃ s ∈ f.asyncSources, s spec now = .ok (some blobs)

/-- An attempt returns blobs that may answer. -/
theorem fetchBlobs_mayAnswer {f : BlobFetcher B} {spec : BlobSpec} {a : Attempt f}
    {blobs : Blobs B} (h : f.fetchBlobs spec a = .ok blobs) : MayAnswer f spec a.now blobs := by
  unfold BlobFetcher.fetchBlobs at h
  unfold MayAnswer
  cases hsync : firstBlobs (f.syncAnswers spec a.now) with
  | some first =>
      rw [hsync] at h
      exact (Except.ok.inj h).symm
  | none =>
      rw [hsync] at h
      dsimp only at h ⊢
      cases hasync : firstBlobs (f.completed spec a) with
      | some first =>
          rw [hasync] at h
          obtain rfl := Except.ok.inj h
          exact mem_completed.mp (firstBlobs_mem hasync)
      | none =>
          rw [hasync] at h
          exact absurd h (by simp)

/-- **Whatever may answer does, in some race.** -/
theorem mayAnswer_fetchBlobs {f : BlobFetcher B} {spec : BlobSpec} {now : Nat} {blobs : Blobs B}
    (h : MayAnswer f spec now blobs) :
    ∃ completion, f.fetchBlobs spec ⟨now, completion⟩ = .ok blobs := by
  unfold MayAnswer at h
  unfold BlobFetcher.fetchBlobs
  cases hsync : firstBlobs (f.syncAnswers spec now) with
  | some first =>
      rw [hsync] at h
      refine ⟨⟨_, List.Perm.refl _⟩, ?_⟩
      dsimp only
      rw [hsync, show blobs = first from h]
  | none =>
      rw [hsync] at h
      obtain ⟨s, hs, hanswer⟩ := h
      obtain ⟨i, hi⟩ := List.mem_iff_getElem?.mp hs
      -- the source completes first, and then the others
      have hmem : i ∈ List.range f.asyncSources.length :=
        List.mem_range.mpr (List.getElem?_eq_some_iff.mp hi).1
      refine ⟨⟨i :: (List.range f.asyncSources.length).erase i,
        (List.perm_cons_erase hmem).symm⟩, ?_⟩
      have hfirst (a : Attempt f) (rest : List Nat) (hnow : a.now = now)
          (horder : a.completion.order = i :: rest) :
          firstBlobs (f.completed spec a) = some blobs := by
        unfold BlobFetcher.completed
        rw [horder, hnow, List.filterMap_cons_some (by rw [hi]; rfl)]
        dsimp only
        rw [hanswer]
        rfl
      dsimp only
      rw [hsync]
      dsimp only
      rw [hfirst _ _ rfl rfl]

/-- Some source has blobs at an instant. -/
def HasBlobs (f : BlobFetcher B) (spec : BlobSpec) (now : Nat) : Prop :=
  ∃ s ∈ f.syncSources ++ f.asyncSources, ∃ blobs, s spec now = .ok (some blobs)

/-- What an attempt returns is the answer of a source. -/
theorem fetchBlobs_source {f : BlobFetcher B} {spec : BlobSpec} {a : Attempt f}
    {blobs : Blobs B} (h : f.fetchBlobs spec a = .ok blobs) :
    ∃ s ∈ f.syncSources ++ f.asyncSources, s spec a.now = .ok (some blobs) := by
  have hmay := fetchBlobs_mayAnswer h
  unfold MayAnswer at hmay
  cases hsync : firstBlobs (f.syncAnswers spec a.now) with
  | some first =>
      rw [hsync] at hmay
      obtain rfl : blobs = first := hmay
      obtain ⟨s, hs, hanswer⟩ := List.mem_map.mp (firstBlobs_mem hsync)
      exact ⟨s, List.mem_append_left _ hs, hanswer⟩
  | none =>
      rw [hsync] at hmay
      obtain ⟨s, hs, hanswer⟩ := hmay
      exact ⟨s, List.mem_append_right _ hs, hanswer⟩

/-- **An attempt succeeds exactly if some source has blobs**, whatever order they answer in. -/
theorem fetchBlobs_ok_iff {f : BlobFetcher B} {spec : BlobSpec} {a : Attempt f} :
    (∃ blobs, f.fetchBlobs spec a = .ok blobs) ↔ HasBlobs f spec a.now := by
  constructor
  · rintro ⟨blobs, h⟩
    obtain ⟨s, hs, hanswer⟩ := fetchBlobs_source h
    exact ⟨s, hs, blobs, hanswer⟩
  · rintro ⟨s, hs, blobs, hanswer⟩
    unfold BlobFetcher.fetchBlobs
    cases hsync : firstBlobs (f.syncAnswers spec a.now) with
    | some first => exact ⟨first, rfl⟩
    | none =>
        rcases List.mem_append.mp hs with hs | hs
        · obtain ⟨first, hfirst⟩ := firstBlobs_isSome
            (List.mem_map.mpr ⟨s, hs, hanswer⟩ : .ok (some blobs) ∈ f.syncAnswers spec a.now)
          exact absurd (hsync.symm.trans hfirst) (by simp)
        · obtain ⟨first, hfirst⟩ := firstBlobs_isSome (mem_completed.mpr ⟨s, hs, hanswer⟩)
          exact ⟨first, by rw [hfirst]⟩

/-- A source that always has blobs. -/
def Answered (f : BlobFetcher B) (spec : BlobSpec) : Prop :=
  ∃ s ∈ f.syncSources ++ f.asyncSources, ∀ now, ∃ blobs, s spec now = .ok (some blobs)

/-- With such a source, no attempt fails. -/
theorem Answered.fetchBlobs {f : BlobFetcher B} {spec : BlobSpec} (h : Answered f spec)
    (a : Attempt f) : ∃ blobs, f.fetchBlobs spec a = .ok blobs := by
  obtain ⟨s, hs, hanswer⟩ := h
  exact fetchBlobs_ok_iff.mpr ⟨s, hs, hanswer a.now⟩

/-- Retrying returns what one of the attempts may answer. -/
theorem fetchLoop_mayAnswer {f : BlobFetcher B} {spec : BlobSpec} {blobs : Blobs B} :
    ∀ {as : List (Attempt f)}, fetchLoop f spec as = .ok blobs →
      ∃ a ∈ as, MayAnswer f spec a.now blobs
  | [], h => absurd h (by simp [fetchLoop])
  | a :: rest, h => by
      rw [fetchLoop] at h
      cases ha : f.fetchBlobs spec a with
      | ok found =>
          rw [ha] at h
          obtain rfl := Except.ok.inj h
          exact ⟨a, List.mem_cons_self, fetchBlobs_mayAnswer ha⟩
      | error e =>
          rw [ha] at h
          obtain ⟨b, hb, hmay⟩ := fetchLoop_mayAnswer h
          exact ⟨b, List.mem_cons_of_mem _ hb, hmay⟩

end NodeComponents.Blobber
