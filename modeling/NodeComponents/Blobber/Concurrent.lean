import NodeComponents.Blobber.Blobs
import NodeComponents.Lib.Run

/-!
# Many requests to one cacher

The cacher answers each request in a task of its own. The tasks share the cache, and
lock it once to look a key up and once to insert, so that any number of other steps may
come between: another task may fetch the same key, replace the entry or push it out.

What a caller relies on holds in every interleaving. It is given blobs that a source
returned for its slot and transaction, or refused after three attempts of its own at
instants at which no source had any, and it is answered once.
-/

namespace NodeComponents.Blobber

open Lib

variable {B : Type} {f : BlobFetcher B}

/-! ## The tasks -/

/-- How far the task of a request has come. -/
inductive CacherPhase (B : Type) where
  | spawned
  /-- The cache has no entry, and so many attempts failed. -/
  | trying (failed : Nat)
  /-- An attempt succeeded, and the blobs are not in the cache yet. -/
  | fetched (blobs : Blobs B)
  | done
deriving DecidableEq, Repr

structure RequestTask (B : Type) where
  spec : BlobSpec
  phase : CacherPhase B
deriving DecidableEq, Repr

/-- The cache, and the tasks spawned so far. -/
structure Cacher (B : Type) where
  cache : BlobCache B
  tasks : List (RequestTask B)
deriving DecidableEq, Repr

/-- A step of the loop that spawns, or of one task by its index. -/
inductive CacherStep (f : BlobFetcher B) where
  | retrieve (spec : BlobSpec)
  | lookup (i : Nat)
  | attempt (i : Nat) (a : Attempt f)
  | insert (i : Nat)
  | giveUp (i : Nat)

/-- What a task shows: how its attempts end, and what it responds. -/
inductive CacherEvent (B : Type) where
  | fetched (i : Nat) (spec : BlobSpec) (now : Nat) (blobs : Blobs B)
  | failed (i : Nat) (spec : BlobSpec) (now : Nat)
  | answered (i : Nat) (spec : BlobSpec) (blobs : Blobs B)
  /-- The response is dropped, which the caller takes for a missing sidecar. -/
  | refused (i : Nat) (spec : BlobSpec)
deriving DecidableEq, Repr

def BlobSpec.key (spec : BlobSpec) : Nat × B256 := (spec.slot, spec.txHash)

def Cacher.advance (w : Cacher B) (i : Nat) (spec : BlobSpec) (phase : CacherPhase B) :
    Cacher B := { w with tasks := w.tasks.set i ⟨spec, phase⟩ }

def Cacher.lookup (w : Cacher B) (i : Nat) : Option (CacherEvent B) × Cacher B :=
  match w.tasks[i]? with
  | some ⟨spec, .spawned⟩ =>
    let found := Lru.get spec.key w.cache
    match found.1 with
    | some blobs =>
      (some (.answered i spec blobs), { w.advance i spec .done with cache := found.2 })
    | none => (none, { w.advance i spec (.trying 0) with cache := found.2 })
  | _ => (none, w)

def Cacher.attempt (w : Cacher B) (i : Nat) (a : Attempt f) : Option (CacherEvent B) × Cacher B :=
  match w.tasks[i]? with
  | some ⟨spec, .trying failed⟩ =>
    if failed < fetchRetries then
      match f.fetchBlobs spec a with
      | .ok blobs => (some (.fetched i spec a.now blobs), w.advance i spec (.fetched blobs))
      | .error _ => (some (.failed i spec a.now), w.advance i spec (.trying (failed + 1)))
    else (none, w)
  | _ => (none, w)

def Cacher.insert (w : Cacher B) (i : Nat) : Option (CacherEvent B) × Cacher B :=
  match w.tasks[i]? with
  | some ⟨spec, .fetched blobs⟩ =>
    (some (.answered i spec blobs),
      { w.advance i spec .done with cache := Lru.insert blobCacheSize spec.key blobs w.cache })
  | _ => (none, w)

def Cacher.giveUp (w : Cacher B) (i : Nat) : Option (CacherEvent B) × Cacher B :=
  match w.tasks[i]? with
  | some ⟨spec, .trying failed⟩ =>
    if failed < fetchRetries then (none, w) else (some (.refused i spec), w.advance i spec .done)
  | _ => (none, w)

/-- One step; a step the task has not come to does nothing. -/
def cacherStep : CacherStep f → Cacher B → Option (CacherEvent B) × Cacher B
  | .retrieve spec, w => (none, { w with tasks := w.tasks ++ [⟨spec, .spawned⟩] })
  | .lookup i, w => w.lookup i
  | .attempt i a, w => w.attempt i a
  | .insert i, w => w.insert i
  | .giveUp i, w => w.giveUp i

/-- A cacher with an empty cache. -/
def Cacher.new : Cacher B := ⟨[], []⟩

/-! ## One request alone -/

/-- Attempts do nothing where none is due. -/
theorem attempts_idle (cache : BlobCache B) (spec : BlobSpec) {phase : CacherPhase B}
    (hphase : ∀ failed, phase ≠ .trying failed) : ∀ as : List (Attempt f),
      runInputs cacherStep (as.map (CacherStep.attempt 0)) ⟨cache, [⟨spec, phase⟩]⟩
        = ([], ⟨cache, [⟨spec, phase⟩]⟩)
  | [] => rfl
  | a :: as => by
      have hstep : cacherStep (CacherStep.attempt 0 a) ⟨cache, [⟨spec, phase⟩]⟩
          = (none, ⟨cache, [⟨spec, phase⟩]⟩) := by
        cases phase with
        | trying failed => exact absurd rfl (hphase failed)
        | spawned => rfl
        | fetched blobs => rfl
        | done => rfl
      rw [List.map_cons, runInputs, hstep, attempts_idle cache spec hphase as]
      rfl

/-- The attempts of a task that is alone are the loop over them. -/
theorem attempts_fetchLoop (cache : BlobCache B) (spec : BlobSpec) :
    ∀ (as : List (Attempt f)) (failed : Nat), failed + as.length = fetchRetries →
      (runInputs cacherStep (as.map (CacherStep.attempt 0)) ⟨cache, [⟨spec, .trying failed⟩]⟩).2
        = ⟨cache, [⟨spec, match fetchLoop f spec as with
            | .ok blobs => .fetched blobs
            | .error _ => .trying fetchRetries⟩]⟩
  | [], failed, hlen => by
      obtain rfl : failed = fetchRetries := by simpa using hlen
      rfl
  | a :: as, failed, hlen => by
      rw [List.length_cons] at hlen
      have hstep : (cacherStep (CacherStep.attempt 0 a)
          (⟨cache, [⟨spec, .trying failed⟩]⟩ : Cacher B)).2 = ⟨cache, [⟨spec,
            match f.fetchBlobs spec a with
            | .ok blobs => .fetched blobs
            | .error _ => .trying (failed + 1)⟩]⟩ := by
        show (Cacher.attempt _ 0 a).2 = _
        unfold Cacher.attempt
        dsimp only [List.getElem?_cons_zero]
        rw [if_pos (by omega)]
        cases f.fetchBlobs spec a <;> rfl
      show (runInputs cacherStep (as.map (CacherStep.attempt 0)) _).2 = _
      rw [hstep]
      unfold fetchLoop
      cases f.fetchBlobs spec a with
      | ok blobs => exact congrArg Prod.snd (attempts_idle cache spec (fun _ => by simp) as)
      | error e => exact attempts_fetchLoop cache spec as (failed + 1) (by omega)

/-- **A request that is alone** is responded to, and leaves the cache, as `fetch_blobs` with no
other task in between says. -/
theorem request_alone (spec : BlobSpec) (as : Attempts f) (cache : BlobCache B) :
    let tried := (runInputs cacherStep (.lookup 0 :: as.val.map (CacherStep.attempt 0))
      ⟨cache, [⟨spec, .spawned⟩]⟩).2
    match cacherFetchBlobs f spec as cache with
    | (.ok blobs, cache') => tried = ⟨cache', [⟨spec, .done⟩]⟩
        ∨ tried.insert 0 = (some (.answered 0 spec blobs), ⟨cache', [⟨spec, .done⟩]⟩)
    | (.error _, cache') =>
      tried.giveUp 0 = (some (.refused 0 spec), ⟨cache', [⟨spec, .done⟩]⟩) := by
  intro tried
  have htried : tried = (runInputs cacherStep (as.val.map (CacherStep.attempt 0))
      ((⟨cache, [⟨spec, .spawned⟩]⟩ : Cacher B).lookup 0).2).2 := rfl
  unfold Cacher.lookup at htried
  dsimp only [List.getElem?_cons_zero] at htried
  unfold cacherFetchBlobs
  cases hget : Lru.get (spec.slot, spec.txHash) cache with
  | mk found cache' =>
  rw [show Lru.get spec.key cache = (found, cache') from hget] at htried
  cases found with
  | some blobs =>
      left
      rw [htried]
      exact congrArg Prod.snd (attempts_idle cache' spec (fun _ => by simp) as.val)
  | none =>
      have hloop := attempts_fetchLoop cache' spec as.val 0 (by rw [as.property, Nat.zero_add])
      rw [htried]
      dsimp only [Cacher.advance, List.set_cons_zero]
      rw [hloop]
      cases fetchLoop f spec as.val with
      | ok blobs => exact Or.inr rfl
      | error e => rfl

/-! ## What a run shows -/

/-- The instants of the failed attempts of a task. -/
def failuresOf (i : Nat) (os : List (CacherEvent B)) : List Nat :=
  os.filterMap fun
    | .failed j _ now => if j = i then some now else none
    | _ => none

/-- The blobs were fetched before, for the same slot and transaction. -/
def FetchedBefore (os : List (CacherEvent B)) (key : Nat × B256) (blobs : Blobs B) : Prop :=
  ∃ j spec now, .fetched j spec now blobs ∈ os ∧ spec.key = key

/-- A task has responded. -/
def Responded (i : Nat) (os : List (CacherEvent B)) : Prop :=
  ∃ spec, (∃ blobs, .answered i spec blobs ∈ os) ∨ .refused i spec ∈ os

/-- What each event of a run is, given those before it. -/
def CacherLaw (f : BlobFetcher B) (pre : List (CacherEvent B)) : CacherEvent B → Prop
  | .fetched _ spec now blobs => MayAnswer f spec now blobs
  | .failed _ spec now => ¬ HasBlobs f spec now
  -- the attempt may be another task's
  | .answered i spec blobs => FetchedBefore pre spec.key blobs ∧ ¬ Responded i pre
  -- the attempts are its own
  | .refused i spec => (failuresOf i pre).length = fetchRetries
      ∧ (∀ now ∈ failuresOf i pre, ¬ HasBlobs f spec now) ∧ ¬ Responded i pre

variable {os : List (CacherEvent B)} {w : Cacher B}

theorem failuresOf_concat (i : Nat) (os : List (CacherEvent B)) (o : CacherEvent B) :
    failuresOf i (os ++ [o]) = failuresOf i os ++ failuresOf i [o] := List.filterMap_append

theorem FetchedBefore.later {key : Nat × B256} {blobs : Blobs B} (h : FetchedBefore os key blobs)
    (os' : List (CacherEvent B)) : FetchedBefore (os ++ os') key blobs := by
  obtain ⟨j, spec, now, hmem, hkey⟩ := h
  exact ⟨j, spec, now, List.mem_append_left _ hmem, hkey⟩

/-! ## The invariant -/

/-- What is known of a task from its phase. -/
def TaskOk (f : BlobFetcher B) (os : List (CacherEvent B)) (i : Nat) (t : RequestTask B) : Prop :=
  match t.phase with
  | .spawned => failuresOf i os = [] ∧ ¬ Responded i os
  | .trying failed => (failuresOf i os).length = failed ∧ failed ≤ fetchRetries
      ∧ (∀ now ∈ failuresOf i os, ¬ HasBlobs f t.spec now) ∧ ¬ Responded i os
  | .fetched blobs => FetchedBefore os t.spec.key blobs ∧ ¬ Responded i os
  | .done => True

structure CacherInv (f : BlobFetcher B) (os : List (CacherEvent B)) (w : Cacher B) : Prop where
  entries : ∀ e ∈ w.cache, FetchedBefore os e.1 e.2
  bounded : w.cache.length ≤ blobCacheSize
  nodup : (Lru.keys w.cache).Nodup
  tasks : ∀ (i : Nat) (t : RequestTask B), w.tasks[i]? = some t → TaskOk f os i t
  /-- Only tasks that were spawned show anything. -/
  future : ∀ i, w.tasks.length ≤ i → failuresOf i os = [] ∧ ¬ Responded i os

/-- The task an event is of. -/
def CacherEvent.task : CacherEvent B → Nat
  | .fetched i _ _ _ => i
  | .failed i _ _ => i
  | .answered i _ _ => i
  | .refused i _ => i

/-- An event of another task says nothing of this one. -/
theorem of_other_task (os : List (CacherEvent B)) (o : Option (CacherEvent B)) (j : Nat)
    (ho : ∀ e ∈ o, e.task ≠ j) :
    failuresOf j (os ++ o.toList) = failuresOf j os
      ∧ (Responded j (os ++ o.toList) ↔ Responded j os) := by
  cases o with
  | none => rw [Option.toList_none, List.append_nil]; exact ⟨rfl, Iff.rfl⟩
  | some e =>
      have hne := ho e rfl
      rw [Option.toList_some, failuresOf_concat]
      refine ⟨?_, ?_⟩
      · have hnone : failuresOf j [e] = [] := by
          cases e with
          | failed i spec now =>
              have hne : ¬ i = j := hne
              simp [failuresOf, hne]
          | fetched i spec now blobs => rfl
          | answered i spec blobs => rfl
          | refused i spec => rfl
        rw [hnone, List.append_nil]
      · unfold Responded
        refine exists_congr fun spec => ?_
        simp only [List.mem_append, List.mem_singleton]
        constructor
        · rintro (⟨blobs, hmem | rfl⟩ | hmem | rfl)
          · exact Or.inl ⟨blobs, hmem⟩
          · exact absurd rfl hne
          · exact Or.inr hmem
          · exact absurd rfl hne
        · exact Or.imp (fun ⟨blobs, hmem⟩ => ⟨blobs, Or.inl hmem⟩) Or.inl

theorem TaskOk.other {j : Nat} {t : RequestTask B} {o : Option (CacherEvent B)}
    (h : TaskOk f os j t) (ho : ∀ e ∈ o, e.task ≠ j) : TaskOk f (os ++ o.toList) j t := by
  obtain ⟨hfailures, hresponded⟩ := of_other_task os o j ho
  unfold TaskOk at h ⊢
  cases hphase : t.phase with
  | spawned =>
      rw [hphase] at h
      rw [hfailures, hresponded]
      exact h
  | trying failed =>
      rw [hphase] at h
      rw [hfailures, hresponded]
      exact h
  | fetched blobs =>
      rw [hphase] at h
      rw [hresponded]
      exact ⟨h.1.later _, h.2⟩
  | done => exact trivial

/-- **A task moves on**: it alone changes, and the cache. -/
theorem CacherInv.advance (h : CacherInv f os w) {i : Nat} {old : RequestTask B}
    (hi : w.tasks[i]? = some old) (spec : BlobSpec) (phase : CacherPhase B)
    (o : Option (CacherEvent B)) (ho : ∀ e ∈ o, e.task = i)
    (hok : TaskOk f (os ++ o.toList) i ⟨spec, phase⟩) {cache : BlobCache B}
    (hentries : ∀ e ∈ cache, FetchedBefore (os ++ o.toList) e.1 e.2)
    (hbounded : cache.length ≤ blobCacheSize) (hnodup : (Lru.keys cache).Nodup) :
    CacherInv f (os ++ o.toList) { w.advance i spec phase with cache := cache } := by
  have hlt := (List.getElem?_eq_some_iff.mp hi).1
  refine ⟨hentries, hbounded, hnodup, ?_, ?_⟩
  · intro j t ht
    have ht : (w.tasks.set i ⟨spec, phase⟩)[j]? = some t := ht
    by_cases hij : i = j
    · subst hij
      rw [List.getElem?_set_self hlt] at ht
      rw [← Option.some.inj ht]
      exact hok
    · rw [List.getElem?_set_ne hij] at ht
      exact (h.tasks j t ht).other fun e he => by rw [ho e he]; exact hij
  · intro j hj
    have hj : (w.tasks.set i ⟨spec, phase⟩).length ≤ j := hj
    rw [List.length_set] at hj
    obtain ⟨hfailures, hresponded⟩ := of_other_task os o j fun e he => by rw [ho e he]; omega
    rw [hfailures, hresponded]
    exact h.future j hj

/-- What is known of the cache stays known. -/
theorem CacherInv.kept (h : CacherInv f os w) (os' : List (CacherEvent B)) :
    ∀ e ∈ w.cache, FetchedBefore (os ++ os') e.1 e.2 := fun e he => (h.entries e he).later os'

/-! ## Steps -/

/-- What a step owes: the invariant, and the law of what it shows. -/
def StepOk (f : BlobFetcher B) (os : List (CacherEvent B))
    (out : Option (CacherEvent B) × Cacher B) : Prop :=
  CacherInv f (os ++ out.1.toList) out.2 ∧ ∀ o, out.1 = some o → CacherLaw f os o

theorem CacherInv.idle (h : CacherInv f os w) : StepOk f os (none, w) := by
  refine ⟨?_, fun o ho => absurd ho (by simp)⟩
  show CacherInv f (os ++ []) w
  rwa [List.append_nil]

theorem CacherInv.retrieve (h : CacherInv f os w) (spec : BlobSpec) :
    StepOk f os (none, { w with tasks := w.tasks ++ [⟨spec, .spawned⟩] }) := by
  refine ⟨?_, fun o ho => absurd ho (by simp)⟩
  show CacherInv f (os ++ []) _
  rw [List.append_nil]
  refine ⟨h.entries, h.bounded, h.nodup, ?_, ?_⟩
  · intro i t ht
    rcases Nat.lt_or_ge i w.tasks.length with hold | hnew
    · rw [List.getElem?_append_left hold] at ht
      exact h.tasks i t ht
    · rw [List.getElem?_append_right hnew, List.getElem?_singleton] at ht
      split at ht
      · rw [← Option.some.inj ht]
        exact h.future i hnew
      · exact absurd ht (by simp)
  · intro i hi
    rw [List.length_append] at hi
    exact h.future i (by omega)

/-- **A lookup** answers with an entry of the key, which was fetched before. -/
theorem CacherInv.lookup (h : CacherInv f os w) (i : Nat) : StepOk f os (w.lookup i) := by
  unfold Cacher.lookup
  cases hi : w.tasks[i]? with
  | none => exact h.idle
  | some t =>
      obtain ⟨spec, phase⟩ := t
      cases phase with
      | spawned =>
          obtain ⟨hnone, hfresh⟩ : failuresOf i os = [] ∧ ¬ Responded i os := h.tasks i _ hi
          have hbounded := Nat.le_trans (Lru.get_length_le spec.key w.cache) h.bounded
          have hnodup := Lru.get_nodup spec.key h.nodup
          dsimp only
          cases hfound : (Lru.get spec.key w.cache).1 with
          | some blobs =>
              have hbefore := h.entries _ (Lru.get_hit hfound)
              refine ⟨h.advance hi spec .done (some _) ?_ trivial ?_ hbounded hnodup, ?_⟩
              · intro e he
                rw [← Option.some.inj he]
                rfl
              · exact fun e he => h.kept _ e (Lru.mem_of_mem_get he)
              · intro o ho
                rw [← Option.some.inj ho]
                exact ⟨hbefore, hfresh⟩
          | none =>
              refine ⟨h.advance hi spec (.trying 0) none (fun e he => absurd he (by simp)) ?_ ?_
                hbounded hnodup, fun o ho => absurd ho (by simp)⟩
              · show _ ∧ _ ∧ _ ∧ _
                rw [Option.toList_none, List.append_nil, hnone]
                exact ⟨rfl, Nat.zero_le _, fun now hnow => absurd hnow (by simp), hfresh⟩
              · exact fun e he => h.kept _ e (Lru.mem_of_mem_get he)
      | trying failed => exact h.idle
      | fetched blobs => exact h.idle
      | done => exact h.idle

/-- **An attempt** shows what the sources have at its instant. -/
theorem CacherInv.attempt (h : CacherInv f os w) (i : Nat) (a : Attempt f) :
    StepOk f os (w.attempt i a) := by
  unfold Cacher.attempt
  cases hi : w.tasks[i]? with
  | none => exact h.idle
  | some t =>
      obtain ⟨spec, phase⟩ := t
      cases phase with
      | trying failed =>
          obtain ⟨hcount, _, hnone, hfresh⟩ : (failuresOf i os).length = failed
            ∧ failed ≤ fetchRetries ∧ (∀ now ∈ failuresOf i os, ¬ HasBlobs f spec now)
            ∧ ¬ Responded i os := h.tasks i _ hi
          dsimp only
          by_cases hroom : failed < fetchRetries
          · rw [if_pos hroom]
            have hstill : ∀ e : CacherEvent B, (∀ spec, (∀ blobs, e ≠ .answered i spec blobs)
                ∧ e ≠ .refused i spec) → ¬ Responded i (os ++ [e]) := by
              rintro e he ⟨spec', (⟨blobs, hmem⟩ | hmem)⟩
              · rcases List.mem_append.mp hmem with hold | hnew
                · exact hfresh ⟨spec', Or.inl ⟨blobs, hold⟩⟩
                · exact (he spec').1 blobs (List.mem_singleton.mp hnew).symm
              · rcases List.mem_append.mp hmem with hold | hnew
                · exact hfresh ⟨spec', Or.inr hold⟩
                · exact (he spec').2 (List.mem_singleton.mp hnew).symm
            cases hfetch : f.fetchBlobs spec a with
            | ok blobs =>
                refine ⟨h.advance hi spec (.fetched blobs) (some _) ?_ ?_ (h.kept _) h.bounded
                  h.nodup, ?_⟩
                · intro e he
                  rw [← Option.some.inj he]
                  rfl
                · exact ⟨⟨i, spec, a.now, by simp, rfl⟩, hstill _ fun _ => ⟨fun _ => by simp,
                    by simp⟩⟩
                · intro o ho
                  rw [← Option.some.inj ho]
                  exact fetchBlobs_mayAnswer hfetch
            | error err =>
                have hnow : ¬ HasBlobs f spec a.now := by
                  intro hhas
                  obtain ⟨blobs, hok⟩ := fetchBlobs_ok_iff.mpr hhas
                  rw [hfetch] at hok
                  exact absurd hok (by simp)
                refine ⟨h.advance hi spec (.trying (failed + 1)) (some _) ?_ ?_ (h.kept _)
                  h.bounded h.nodup, ?_⟩
                · intro e he
                  rw [← Option.some.inj he]
                  rfl
                · have hmore : failuresOf i (os ++ [.failed i spec a.now])
                      = failuresOf i os ++ [a.now] := by
                    rw [failuresOf_concat]
                    simp [failuresOf]
                  show _ ∧ _ ∧ _ ∧ _
                  rw [Option.toList_some, hmore, List.length_append]
                  refine ⟨by rw [hcount]; rfl, hroom, ?_, hstill _ fun _ => ⟨fun _ => by simp,
                    by simp⟩⟩
                  intro now hmem
                  rcases List.mem_append.mp hmem with hold | hnew
                  · exact hnone now hold
                  · rw [List.mem_singleton.mp hnew]
                    exact hnow
                · intro o ho
                  rw [← Option.some.inj ho]
                  exact hnow
          · rw [if_neg hroom]
            exact h.idle
      | spawned => exact h.idle
      | fetched blobs => exact h.idle
      | done => exact h.idle

/-- **An insertion** is of blobs that were fetched for the key. -/
theorem CacherInv.insert (h : CacherInv f os w) (i : Nat) : StepOk f os (w.insert i) := by
  unfold Cacher.insert
  cases hi : w.tasks[i]? with
  | none => exact h.idle
  | some t =>
      obtain ⟨spec, phase⟩ := t
      cases phase with
      | fetched blobs =>
          obtain ⟨hbefore, hfresh⟩ : FetchedBefore os spec.key blobs ∧ ¬ Responded i os :=
            h.tasks i _ hi
          refine ⟨h.advance hi spec .done (some _) ?_ trivial ?_ Lru.insert_length_le
            (Lru.insert_nodup h.nodup), ?_⟩
          · intro e he
            rw [← Option.some.inj he]
            rfl
          · intro e he
            rcases Lru.mem_of_mem_insert he with rfl | hold
            · exact hbefore.later _
            · exact h.kept _ e hold
          · intro o ho
            rw [← Option.some.inj ho]
            exact ⟨hbefore, hfresh⟩
      | spawned => exact h.idle
      | trying failed => exact h.idle
      | done => exact h.idle

theorem CacherInv.giveUp (h : CacherInv f os w) (i : Nat) : StepOk f os (w.giveUp i) := by
  unfold Cacher.giveUp
  cases hi : w.tasks[i]? with
  | none => exact h.idle
  | some t =>
      obtain ⟨spec, phase⟩ := t
      cases phase with
      | trying failed =>
          obtain ⟨hcount, hle, hnone, hfresh⟩ : (failuresOf i os).length = failed
            ∧ failed ≤ fetchRetries ∧ (∀ now ∈ failuresOf i os, ¬ HasBlobs f spec now)
            ∧ ¬ Responded i os := h.tasks i _ hi
          dsimp only
          by_cases hroom : failed < fetchRetries
          · rw [if_pos hroom]
            exact h.idle
          · rw [if_neg hroom]
            refine ⟨h.advance hi spec .done (some _) ?_ trivial (h.kept _) h.bounded h.nodup, ?_⟩
            · intro e he
              rw [← Option.some.inj he]
              rfl
            · intro o ho
              rw [← Option.some.inj ho]
              exact ⟨by omega, hnone, hfresh⟩
      | spawned => exact h.idle
      | fetched blobs => exact h.idle
      | done => exact h.idle

/-- **Every step keeps the invariant and the law**, one case for each kind. -/
theorem cacherInv_step (h : CacherInv f os w) (step : CacherStep f) :
    StepOk f os (cacherStep step w) := by
  cases step with
  | retrieve spec => exact h.retrieve spec
  | lookup i => exact h.lookup i
  | attempt i a => exact h.attempt i a
  | insert i => exact h.insert i
  | giveUp i => exact h.giveUp i

/--
**Concurrent requests to one cacher.** In every interleaving of any requests to a cacher
whose cache is empty at first:

* an attempt that succeeds returns what its sources may answer at its instant, and one that
  fails finds no source with blobs;
* a request is responded to at most once, with blobs that an attempt before, its own or
  another request's, fetched for the same slot and transaction, or with a refusal once
  exactly three attempts of its own failed;
* the cache never holds more than its bound, nor two entries of one key.
-/
theorem concurrent_requests {os : List (CacherEvent B)} {w : Cacher B}
    (hrun : Run (cacherStep (f := f)) (fun _ _ => True) Cacher.new os w) :
    Along (CacherLaw f) os ∧ w.cache.length ≤ blobCacheSize ∧ (Lru.keys w.cache).Nodup := by
  have hnew : CacherInv f [] Cacher.new :=
    ⟨fun e he => absurd he (by simp [Cacher.new]), Nat.zero_le _, List.nodup_nil,
      fun i t ht => absurd ht (by simp [Cacher.new]),
      fun i _ => ⟨rfl, fun ⟨_, hq⟩ =>
        hq.elim (fun ⟨_, hmem⟩ => List.not_mem_nil hmem) List.not_mem_nil⟩⟩
  obtain ⟨hinv, hlaw⟩ := Run.law (I := CacherInv f) hnew
    (fun step _ _ h _ => cacherInv_step h step) hrun
  exact ⟨hlaw, hinv.bounded, hinv.nodup⟩

/-- A source that has blobs from the fifth instant on. -/
def slowFetcher : BlobFetcher Nat :=
  ⟨[fun _ now => if now < 5 then .ok none else .ok (some (.other [now]))], []⟩

def slowAttempt (now : Nat) : Attempt slowFetcher := ⟨now, [], List.Perm.refl _⟩

/-- Two requests for one transaction miss the cache, and the second one fetches first; a third
request is given what the first one put in its place. -/
theorem concurrent_requests_shared :
    let spec : BlobSpec := ⟨7, 3, []⟩
    let steps := [.retrieve spec, .retrieve spec, .lookup 0, .lookup 1, .attempt 0 (slowAttempt 2),
      .attempt 1 (slowAttempt 5), .attempt 0 (slowAttempt 6), .insert 1, .insert 0, .retrieve spec,
      .lookup 2]
    let events : List (CacherEvent Nat) := [.failed 0 spec 2, .fetched 1 spec 5 (.other [5]),
      .fetched 0 spec 6 (.other [6]), .answered 1 spec (.other [5]), .answered 0 spec (.other [6])]
    (runInputs (cacherStep (f := slowFetcher)) steps Cacher.new).1
        = events ++ [.answered 2 spec (.other [6])]
      ∧ CacherLaw slowFetcher events (.answered 2 spec (.other [6])) := by
  intro spec steps events
  have hevents : (runInputs (cacherStep (f := slowFetcher)) steps Cacher.new).1
      = events ++ [.answered 2 spec (.other [6])] := by
    decide
  have hrun : Run (cacherStep (f := slowFetcher)) (fun _ _ => True) Cacher.new _ _ :=
    runInputs_run steps Cacher.new (admits_true steps Cacher.new)
  exact ⟨hevents, (concurrent_requests hrun).1 events _ [] hevents⟩

end NodeComponents.Blobber
