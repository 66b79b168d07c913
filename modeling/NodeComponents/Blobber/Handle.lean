import NodeComponents.Blobber.FirstAnswer

/-!
# Which failures halt the node

The node asks for a block through a handle. Its request goes to the cacher's task, and
what comes back is blobs or nothing: the task drops the response on an error, and a task
that is gone drops the request. Either is taken for a missing sidecar, an error that
halts the node, while an error in decoding makes an empty block.

So a halt must mean that there were no blobs, and an empty block that there were and they
did not decode. The cacher has only the one error to drop, which is why nothing is lost
on the way.
-/

namespace NodeComponents.Blobber

open Lib

variable {B Hd Z : Type}

/-! ## The code -/

/-- `BlobCacher::handle_inst`: the response, if it is sent. -/
def handleInst (f : BlobFetcher B) (spec : BlobSpec) (as : Attempts f) (cache : BlobCache B) :
    Option (Blobs B) × BlobCache B :=
  match cacherFetchBlobs f spec as cache with
  | (.ok blobs, cache') => (some blobs, cache')
  -- the response is dropped, and with it the error
  | (.error _, cache') => (none, cache')

/-- The task behind a handle. -/
inductive CacherTask (B : Type) where
  /-- The request, or the response to it, is dropped. -/
  | gone
  | running (cache : BlobCache B)
deriving DecidableEq, Repr

namespace CacheHandle

/-- `CacheHandle::fetch_blobs` -/
def fetchBlobs (f : BlobFetcher B) (spec : BlobSpec) (as : Attempts f) :
    CacherTask B → Except BlobberError (Blobs B) × CacherTask B
  | .gone => (.error (.fetch (.missingSidecar spec.txHash)), .gone)
  | .running cache =>
    match handleInst f spec as cache with
    | (some blobs, cache') => (.ok blobs, .running cache')
    -- nothing tells a failed fetch from a task that is gone
    | (none, cache') => (.error (.fetch (.missingSidecar spec.txHash)), .running cache')

/-- `CacheHandle::fetch_and_decode` -/
def fetchAndDecode (K : Coding B Hd Z) (f : BlobFetcher B) (slot : Nat)
    (extract : ExtractedEvent Hd) (as : Attempts f) (task : CacherTask B) :
    Except BlobberError (List UInt8) × CacherTask B :=
  match extract.blobVersionedHashes with
  | none => (.error (.decode .non4844Transaction), task)
  | some versionedHashes =>
    match fetchBlobs f ⟨extract.txHash, slot, versionedHashes⟩ as task with
    | (.error e, task') => (.error e, task')
    | (.ok blobs, task') => (decodeBlobs K extract blobs, task')

/-- `CacheHandle::signet_block` -/
def signetBlock (K : Coding B Hd Z) (f : BlobFetcher B) (hostBlockNumber slot : Nat)
    (extract : ExtractedEvent Hd) (as : Attempts f) (task : CacherTask B) :
    Except FetchError Z × CacherTask B :=
  let header := extract.ruHeader hostBlockNumber
  match fetchAndDecode K f slot extract as task with
  | (.ok data, task') => (.ok (K.fromHeaderAndData header data), task')
  -- what does not decode is an empty block, what was not fetched a halt
  | (.error (.decode _), task') => (.ok (K.fromHeaderAndData header []), task')
  | (.error (.fetch e), task') => (.error e, task')

end CacheHandle

/-- `SignetBlockDecoder::decode_block` -/
def decodeBlock (K : Coding B Hd Z) (blobs : Blobs B) (header : Hd) (dataHash : B256) :
    Except DecodeError Z :=
  match K.decodeAll blobs.asVec with
  | none => .error .blobDecodeError
  | some datas =>
    match datas.find? fun data => K.keccak256 data = dataHash with
    | none => .error (.blockDataNotFound dataHash)
    | some data => .ok (K.fromHeaderAndData header data)

/-- `SignetBlockDecoder::decode_block_or_default` -/
def decodeBlockOrDefault (K : Coding B Hd Z) (blobs : Blobs B) (header : Hd) (dataHash : B256) :
    Z :=
  match decodeBlock K blobs header dataHash with
  | .ok block => block
  | .error _ => K.fromHeaderAndData header []

/-! ## What a fetch ends with -/

variable {f : BlobFetcher B} {spec : BlobSpec}

/-- A fetch has one error. -/
theorem fetchBlobs_error {a : Attempt f} {e : FetchError} (h : f.fetchBlobs spec a = .error e) :
    e = .missingSidecar spec.txHash := by
  unfold BlobFetcher.fetchBlobs at h
  split at h
  · cases h
  · split at h
    · cases h
    · exact (Except.error.inj h).symm

theorem fetchBlobs_none {a : Attempt f} (h : ¬ HasBlobs f spec a.now) :
    f.fetchBlobs spec a = .error (.missingSidecar spec.txHash) := by
  cases hfetch : f.fetchBlobs spec a with
  | ok blobs => exact absurd (fetchBlobs_ok_iff.mp ⟨blobs, hfetch⟩) h
  | error e => rw [fetchBlobs_error hfetch]

theorem firstBlobs_append {before after : List (Answer B)}
    (h : ∀ blobs, .ok (some blobs) ∉ before) : firstBlobs (before ++ after) = firstBlobs after := by
  induction before with
  | nil => rfl
  | cons answer rest ih =>
      have hrest := ih fun blobs hmem => h blobs (List.mem_cons_of_mem _ hmem)
      rcases answer with e | _ | found
      · exact hrest
      · exact hrest
      · exact absurd List.mem_cons_self (h found)

/-- **The first synchronous source with blobs wins**, in list order. -/
theorem fetchBlobs_sync {a : Attempt f} {before after : List (BlobSource B)} {s : BlobSource B}
    {blobs : Blobs B} (hsources : f.syncSources = before ++ s :: after)
    (hbefore : ∀ t ∈ before, ∀ other, t spec a.now ≠ .ok (some other))
    (hs : s spec a.now = .ok (some blobs)) : f.fetchBlobs spec a = .ok blobs := by
  have hfirst : firstBlobs (f.syncAnswers spec a.now) = some blobs := by
    unfold BlobFetcher.syncAnswers
    rw [hsources, List.map_append, List.map_cons, firstBlobs_append, hs]
    · rfl
    · intro other hmem
      obtain ⟨t, ht, hanswer⟩ := List.mem_map.mp hmem
      exact hbefore t ht other hanswer
  unfold BlobFetcher.fetchBlobs
  rw [hfirst]

/-- **The loop fails exactly if no attempt finds blobs**, and with the one error. -/
theorem fetchLoop_spec : ∀ {as : List (Attempt f)},
    ((∃ blobs, fetchLoop f spec as = .ok blobs) ↔ ∃ a ∈ as, HasBlobs f spec a.now)
      ∧ ∀ e, fetchLoop f spec as = .error e → e = .fetch (.missingSidecar spec.txHash)
  | [] => by simp [fetchLoop, eq_comm]
  | a :: rest => by
      obtain ⟨hok, herror⟩ := @fetchLoop_spec rest
      unfold fetchLoop
      cases hfetch : f.fetchBlobs spec a with
      | ok blobs =>
          have hblobs := fetchBlobs_ok_iff.mp ⟨blobs, hfetch⟩
          exact ⟨iff_of_true ⟨blobs, rfl⟩ ⟨a, List.mem_cons_self, hblobs⟩, fun e h => by cases h⟩
      | error _ =>
          have hno : ¬ HasBlobs f spec a.now := by
            intro hblobs
            obtain ⟨blobs, hfound⟩ := fetchBlobs_ok_iff.mpr hblobs
            rw [hfetch] at hfound
            cases hfound
          refine ⟨hok.trans ⟨?_, ?_⟩, herror⟩
          · rintro ⟨b, hb, hblobs⟩
            exact ⟨b, List.mem_cons_of_mem _ hb, hblobs⟩
          · rintro ⟨b, hb, hblobs⟩
            rcases List.mem_cons.mp hb with rfl | hb
            · exact absurd hblobs hno
            · exact ⟨b, hb, hblobs⟩

/-- The cacher has blobs if it has cached some or an attempt finds some. -/
theorem cacherFetchBlobs_spec {as : Attempts f} {cache : BlobCache B} :
    ((∃ blobs, (cacherFetchBlobs f spec as cache).1 = .ok blobs)
        ↔ (∃ blobs, ((spec.slot, spec.txHash), blobs) ∈ cache)
          ∨ ∃ a ∈ as.val, HasBlobs f spec a.now)
      ∧ ∀ e, (cacherFetchBlobs f spec as cache).1 = .error e →
        e = .fetch (.missingSidecar spec.txHash) := by
  obtain ⟨hok, herror⟩ := @fetchLoop_spec B f spec as.val
  unfold cacherFetchBlobs
  cases hget : Lru.get (spec.slot, spec.txHash) cache with
  | mk hit cache' =>
      cases hit with
      | some blobs =>
          have hmem : ((spec.slot, spec.txHash), blobs) ∈ cache := Lru.get_hit (by rw [hget])
          exact ⟨iff_of_true ⟨blobs, rfl⟩ (Or.inl ⟨blobs, hmem⟩), fun e h => by cases h⟩
      | none =>
          have hmiss : ¬ ∃ blobs, ((spec.slot, spec.txHash), blobs) ∈ cache :=
            not_exists.mpr (Lru.get_miss_iff.mp (by rw [hget]))
          dsimp only
          rw [or_iff_right hmiss, ← hok]
          cases hloop : fetchLoop f spec as.val with
          | ok blobs => exact ⟨iff_of_true ⟨blobs, rfl⟩ ⟨blobs, rfl⟩, fun e h => by cases h⟩
          | error e =>
              refine ⟨by simp, fun e' h => ?_⟩
              obtain rfl := Except.error.inj h
              exact herror _ hloop

/-- The cacher has its blobs from the cache, or from a source that may answer an attempt first. -/
theorem cacherFetchBlobs_obtained {as : Attempts f} {cache : BlobCache B} {blobs : Blobs B}
    (h : (cacherFetchBlobs f spec as cache).1 = .ok blobs) :
    ((spec.slot, spec.txHash), blobs) ∈ cache ∨ ∃ a ∈ as.val, MayAnswer f spec a.now blobs := by
  unfold cacherFetchBlobs at h
  cases hget : Lru.get (spec.slot, spec.txHash) cache with
  | mk hit cache' =>
      rw [hget] at h
      cases hit with
      | some found =>
          obtain rfl : found = blobs := Except.ok.inj h
          exact Or.inl (Lru.get_hit (by rw [hget]))
      | none =>
          dsimp only at h
          cases hloop : fetchLoop f spec as.val with
          | error e =>
              rw [hloop] at h
              cases h
          | ok found =>
              rw [hloop] at h
              obtain rfl : found = blobs := Except.ok.inj h
              exact Or.inr (fetchLoop_mayAnswer hloop)

/-! ## Through the channel -/

/-- A dropped response stands for the only error there is. -/
theorem CacheHandle.fetchBlobs_running {as : Attempts f} {cache : BlobCache B} :
    CacheHandle.fetchBlobs f spec as (.running cache)
      = ((cacherFetchBlobs f spec as cache).1, .running (cacherFetchBlobs f spec as cache).2) := by
  have herror := (@cacherFetchBlobs_spec B f spec as cache).2
  unfold CacheHandle.fetchBlobs handleInst
  dsimp only
  rcases hfetch : cacherFetchBlobs f spec as cache with ⟨e | blobs, cache'⟩
  · rw [hfetch] at herror
    rw [herror e rfl]
  · rfl

/-- **A handle on a running task does what the cacher would do in place.** -/
theorem CacheHandle.signetBlock_running (K : Coding B Hd Z) {hostBlockNumber slot : Nat}
    {extract : ExtractedEvent Hd} {as : Attempts f} {cache : BlobCache B} :
    CacheHandle.signetBlock K f hostBlockNumber slot extract as (.running cache)
      = ((Blobber.signetBlock K f hostBlockNumber slot extract as cache).1,
        .running (Blobber.signetBlock K f hostBlockNumber slot extract as cache).2) := by
  have hdecode : CacheHandle.fetchAndDecode K f slot extract as (.running cache)
      = ((Blobber.fetchAndDecode K f slot extract as cache).1,
        .running (Blobber.fetchAndDecode K f slot extract as cache).2) := by
    unfold CacheHandle.fetchAndDecode Blobber.fetchAndDecode
    cases extract.blobVersionedHashes with
    | none => rfl
    | some hashes =>
        dsimp only
        rw [CacheHandle.fetchBlobs_running]
        rcases cacherFetchBlobs f ⟨extract.txHash, slot, hashes⟩ as cache with ⟨e | blobs, cache'⟩
        · rfl
        · rfl
  unfold CacheHandle.signetBlock Blobber.signetBlock
  dsimp only
  rw [hdecode]
  rcases Blobber.fetchAndDecode K f slot extract as cache with ⟨(e | e) | data, cache'⟩
  · rfl
  · rfl
  · rfl

/-- The handle decodes as the decoder does. -/
theorem blockFrom_eq_decodeBlockOrDefault (K : Coding B Hd Z) {extract : ExtractedEvent Hd}
    {hostBlockNumber : Nat} {blobs : Blobs B} :
    blockFrom K extract hostBlockNumber blobs
      = decodeBlockOrDefault K blobs (extract.ruHeader hostBlockNumber) extract.blockDataHash := by
  unfold blockFrom decodeBlockOrDefault decodeBlobs decodeBlock
  cases K.decodeAll blobs.asVec with
  | none => rfl
  | some datas =>
      dsimp only
      cases datas.find? fun data => K.keccak256 data = extract.blockDataHash with
      | none => rfl
      | some data => rfl

/-- A task that is there has the blobs cached, or one of its attempts finds them. -/
def Retrievable (f : BlobFetcher B) (spec : BlobSpec) (as : Attempts f) : CacherTask B → Prop
  | .gone => False
  | .running cache => (∃ blobs, ((spec.slot, spec.txHash), blobs) ∈ cache)
    ∨ ∃ a ∈ as.val, HasBlobs f spec a.now

/-- Where blobs may come from: the cache of a task that is there, or a source that may answer one
of its attempts first. -/
def Obtainable (f : BlobFetcher B) (spec : BlobSpec) (as : Attempts f) :
    CacherTask B → Blobs B → Prop
  | .gone, _ => False
  | .running cache, blobs => ((spec.slot, spec.txHash), blobs) ∈ cache
    ∨ ∃ a ∈ as.val, MayAnswer f spec a.now blobs

variable {as : Attempts f} {task : CacherTask B}

theorem CacheHandle.fetchBlobs_obtained {blobs : Blobs B}
    (h : (CacheHandle.fetchBlobs f spec as task).1 = .ok blobs) :
    Obtainable f spec as task blobs := by
  cases task with
  | gone => cases h
  | running cache =>
      rw [CacheHandle.fetchBlobs_running] at h
      exact cacherFetchBlobs_obtained h

theorem CacheHandle.fetchBlobs_spec :
    ((∃ blobs, (CacheHandle.fetchBlobs f spec as task).1 = .ok blobs)
        ↔ Retrievable f spec as task)
      ∧ ∀ e, (CacheHandle.fetchBlobs f spec as task).1 = .error e →
        e = .fetch (.missingSidecar spec.txHash) := by
  cases task with
  | gone =>
      refine ⟨iff_of_false (by simp [CacheHandle.fetchBlobs]) id, fun e h => ?_⟩
      exact (Except.error.inj h).symm
  | running cache =>
      rw [CacheHandle.fetchBlobs_running]
      exact cacherFetchBlobs_spec

/-- Blobs that were obtained make a block. -/
theorem CacheHandle.signetBlock_obtained (K : Coding B Hd Z) (hostBlockNumber : Nat) {slot : Nat}
    {extract : ExtractedEvent Hd} {hashes : List B256}
    (h4844 : extract.blobVersionedHashes = some hashes) {blobs : Blobs B}
    (h : (CacheHandle.fetchBlobs f ⟨extract.txHash, slot, hashes⟩ as task).1 = .ok blobs) :
    (CacheHandle.signetBlock K f hostBlockNumber slot extract as task).1
      = .ok (decodeBlockOrDefault K blobs (extract.ruHeader hostBlockNumber)
        extract.blockDataHash) := by
  cases task with
  | gone => cases h
  | running cache =>
      rw [CacheHandle.fetchBlobs_running] at h
      rw [CacheHandle.signetBlock_running, ← blockFrom_eq_decodeBlockOrDefault]
      exact signetBlock_fetched K hostBlockNumber h4844 h

/-- **A fetch that fails is a halt**, and never an empty block. -/
theorem CacheHandle.signetBlock_failed (K : Coding B Hd Z) (hostBlockNumber : Nat) {slot : Nat}
    {extract : ExtractedEvent Hd} {hashes : List B256}
    (h4844 : extract.blobVersionedHashes = some hashes)
    (h : ¬ Retrievable f ⟨extract.txHash, slot, hashes⟩ as task) :
    (CacheHandle.signetBlock K f hostBlockNumber slot extract as task).1
      = .error (.missingSidecar extract.txHash) := by
  obtain ⟨hok, herror⟩ := @CacheHandle.fetchBlobs_spec B f ⟨extract.txHash, slot, hashes⟩ as task
  unfold CacheHandle.signetBlock CacheHandle.fetchAndDecode
  rw [h4844]
  dsimp only
  rcases hfetch : CacheHandle.fetchBlobs f ⟨extract.txHash, slot, hashes⟩ as task
    with ⟨e | blobs, task'⟩
  · rw [hfetch] at herror
    rw [herror e rfl]
  · rw [hfetch] at hok
    exact absurd (hok.mp ⟨blobs, rfl⟩) h

/--
**Blob failures are classified correctly**, for all sources, answers, orders of completion
and caches. An attempt succeeds exactly if some source has blobs, with those of the first
synchronous one if there is one, and ends with a missing sidecar otherwise. A 4844
submission fails exactly if the cacher is gone, or nothing is cached and no attempt finds
blobs; blobs that were obtained, which are cached ones or those of a source that may answer
an attempt first, make the block the decoder makes of them. A submission of another type
makes the empty block.
-/
theorem blob_failures_classified (K : Coding B Hd Z) (f : BlobFetcher B)
    (extract : ExtractedEvent Hd) (hostBlockNumber slot : Nat) (as : Attempts f)
    (task : CacherTask B) :
    (∀ (spec : BlobSpec) (a : Attempt f),
        ((∃ blobs, f.fetchBlobs spec a = .ok blobs) ↔ HasBlobs f spec a.now)
          ∧ (∀ blobs, f.fetchBlobs spec a = .ok blobs →
            ∃ s ∈ f.syncSources ++ f.asyncSources, s spec a.now = .ok (some blobs))
          ∧ (∀ before s after blobs, f.syncSources = before ++ s :: after →
            (∀ t ∈ before, ∀ other, t spec a.now ≠ .ok (some other)) →
            s spec a.now = .ok (some blobs) → f.fetchBlobs spec a = .ok blobs)
          ∧ (¬ HasBlobs f spec a.now →
            f.fetchBlobs spec a = .error (.missingSidecar spec.txHash)))
      ∧ (∀ hashes, extract.blobVersionedHashes = some hashes →
        ((∃ e, (CacheHandle.signetBlock K f hostBlockNumber slot extract as task).1 = .error e)
            ↔ ¬ Retrievable f ⟨extract.txHash, slot, hashes⟩ as task)
          ∧ ∀ blobs,
            (CacheHandle.fetchBlobs f ⟨extract.txHash, slot, hashes⟩ as task).1 = .ok blobs →
            Obtainable f ⟨extract.txHash, slot, hashes⟩ as task blobs
              ∧ (CacheHandle.signetBlock K f hostBlockNumber slot extract as task).1
                = .ok (decodeBlockOrDefault K blobs (extract.ruHeader hostBlockNumber)
                  extract.blockDataHash))
      ∧ (extract.blobVersionedHashes = none →
        (CacheHandle.signetBlock K f hostBlockNumber slot extract as task).1
          = .ok (K.fromHeaderAndData (extract.ruHeader hostBlockNumber) [])) := by
  refine ⟨fun spec a => ⟨fetchBlobs_ok_iff, fun _ => fetchBlobs_source, ?_, fetchBlobs_none⟩, ?_,
    ?_⟩
  · intro before s after blobs hsources hbefore hs
    exact fetchBlobs_sync hsources hbefore hs
  · intro hashes h4844
    refine ⟨⟨?_, ?_⟩, fun blobs h => ⟨CacheHandle.fetchBlobs_obtained h,
      CacheHandle.signetBlock_obtained K hostBlockNumber h4844 h⟩⟩
    · rintro ⟨e, he⟩ hretrievable
      obtain ⟨blobs, hblobs⟩ := CacheHandle.fetchBlobs_spec.1.mpr hretrievable
      rw [CacheHandle.signetBlock_obtained K hostBlockNumber h4844 hblobs] at he
      cases he
    · intro hno
      exact ⟨_, CacheHandle.signetBlock_failed K hostBlockNumber h4844 hno⟩
  · intro hnon4844
    unfold CacheHandle.signetBlock CacheHandle.fetchAndDecode
    rw [hnon4844]

/-- A source that fails, and one that has blobs at the third attempt only. -/
def lateFetcher : BlobFetcher Nat :=
  ⟨[fun _ _ => .error "down"], [fun _ now => .ok (if now = 2 then some (.other [1, 2]) else none)]⟩

/-- Attempts at some instants. -/
def attemptsAt (first second third : Nat) : Attempts lateFetcher :=
  ⟨[⟨first, [0], List.Perm.refl _⟩, ⟨second, [0], List.Perm.refl _⟩,
    ⟨third, [0], List.Perm.refl _⟩], rfl⟩

/-- Found at the third attempt, the blobs are decoded; never found, the node halts. -/
theorem blob_failures_classified_late :
    (CacheHandle.signetBlock pairCoding lateFetcher 0 0 pairEvent (attemptsAt 0 1 2)
        (.running [])).1 = .ok [7]
      ∧ ∃ e, (CacheHandle.signetBlock pairCoding lateFetcher 0 0 pairEvent (attemptsAt 0 1 3)
        (.running [])).1 = .error e := by
  have hfound := blob_failures_classified pairCoding lateFetcher pairEvent 0 0 (attemptsAt 0 1 2)
    (.running [])
  have hnever := blob_failures_classified pairCoding lateFetcher pairEvent 0 0 (attemptsAt 0 1 3)
    (.running [])
  refine ⟨((hfound.2.1 [] rfl).2 (.other [1, 2]) rfl).2, (hnever.2.1 [] rfl).1.mpr ?_⟩
  rintro (⟨blobs, hmem⟩ | ⟨a, ha, s, hs, blobs, hanswer⟩)
  · cases hmem
  · have hnow : a.now ≠ 2 := by
      simp only [attemptsAt, List.mem_cons, List.not_mem_nil, or_false] at ha
      rcases ha with rfl | rfl | rfl <;> decide
    simp only [lateFetcher, List.singleton_append, List.mem_cons, List.not_mem_nil,
      or_false] at hs
    rcases hs with rfl | rfl
    · cases hanswer
    · dsimp only at hanswer
      rw [if_neg hnow] at hanswer
      cases hanswer

end NodeComponents.Blobber
