import NodeComponents.Lib.Run
import NodeComponents.Rpc.TagWrites

/-!
# Queries on a tag, and the snapshot they read

A query opens a snapshot of hot storage, loads a tag, and looks the height up in the
snapshot. The node writes in the order storage, tag. Reading in the order storage,
tag is then the wrong way round: a block stored and tagged between the two reads is
in the tag and not in the snapshot.

The queries are steps of their own here, any number of them at once, and the node
stores blocks and tags between any two. Without reorgs, with no tag above storage, a
lookup finds its block unless its tag was raised above its snapshot behind its back.
-/

namespace NodeComponents.Rpc

open Lib

variable {Sp : Type}

/-! ## Resolving a block -/

/-- How a block is asked for by number. -/
inductive BlockNumberOrTag where
  | latest
  | finalized
  | safe
  | earliest
  | pending
  | number (n : Nat)
deriving DecidableEq, Repr

inductive BlockId where
  | hash (blockHash : B256)
  | number (tag : BlockNumberOrTag)
deriving DecidableEq, Repr

def BlockId.isPending (id : BlockId) : Bool := id = .number .pending

/-- The errors a resolution can end in; a failed read is left out. -/
inductive EthError where
  | hashNotFound (blockHash : B256)
  | blockNotFound (id : BlockId)
deriving DecidableEq, Repr

/-- A header in hot storage. -/
structure StoredHeader where
  header : Header
  baseFeePerGas : Option Nat
deriving DecidableEq, Repr

/-- A snapshot of hot storage: its headers by height. -/
abbrev HotSnapshot := List StoredHeader

/-- Resolve a tag to a height. -/
def resolveBlockTag (tags : BlockTags) : BlockNumberOrTag → Nat
  | .latest => tags.latest
  | .pending => tags.latest
  | .safe => tags.safe
  | .finalized => tags.finalized
  | .earliest => 0
  | .number n => n

/-- `hot_reader_at_block`, on the snapshot it opened and the tags as it loads them. -/
def hotReaderAtBlock (snapshot : HotSnapshot) (tags : BlockTags) : BlockId → Except EthError Nat
  | .number tag => .ok (resolveBlockTag tags tag)
  | .hash h =>
    match snapshot.findIdx? fun b => b.header.hash = h with
    | some height => .ok height
    | none => .error (.hashNotFound h)

/-- What `resolve_evm_block` takes from the context and from the header type. -/
structure EvmConfig (Sp : Type) where
  slotDuration : Nat
  nextBlockBaseFee : StoredHeader → Option Nat
  specIdForHeader : StoredHeader → Sp

/-- The header, the height of the state, and the fork to execute with. -/
structure EvmBlockContext (Sp : Type) where
  header : StoredHeader
  stateHeight : Nat
  specId : Sp
deriving DecidableEq, Repr

/-- The header of the block after this one, as far as it is known. -/
def pendingHeader (cfg : EvmConfig Sp) (b : StoredHeader) : StoredHeader :=
  let next := { b with header := { b.header with
    parentHash := b.header.hash
    number := b.header.number + 1
    timestamp := b.header.timestamp + cfg.slotDuration } }
  { next with baseFeePerGas := cfg.nextBlockBaseFee next }

/-- `resolve_evm_block`, on the snapshot it opened and the tags as it loads them. -/
def resolveEvmBlock (cfg : EvmConfig Sp) (snapshot : HotSnapshot) (tags : BlockTags)
    (id : BlockId) : Except EthError (EvmBlockContext Sp) :=
  -- a pending block is executed on the latest one
  let resolved := if id.isPending then .number .latest else id
  let sealedHeader := match resolved with
    | .hash h => snapshot.find? fun b => b.header.hash = h
    | .number tag => snapshot[resolveBlockTag tags tag]?
  match sealedHeader with
  | none => .error (.blockNotFound resolved)
  | some b =>
    let header := if id.isPending then pendingHeader cfg b else b
    .ok ⟨header, b.header.number, cfg.specIdForHeader header⟩

/-- The tag whose value a block id is resolved to. -/
def BlockId.tag : BlockId → Option Tag
  | .number .latest => some .latest
  | .number .pending => some .latest
  | .number .safe => some .safe
  | .number .finalized => some .finalized
  | _ => none

/-! ## The node and its readers -/

inductive Endpoint where
  | account
  | evm
deriving DecidableEq, Repr

/-- How far a query has come: its snapshot, then the tags as it loaded them. -/
inductive QueryPhase where
  | opened (snapshot : HotSnapshot)
  | loaded (snapshot : HotSnapshot) (tags : BlockTags)
  | answered
deriving DecidableEq

structure Query where
  endpoint : Endpoint
  id : BlockId
  phase : QueryPhase
deriving DecidableEq

/-- Hot storage, the tags, and all queries so far. -/
structure SnapshotWorld where
  hot : HotSnapshot
  tags : BlockTags
  queries : List Query

/-- A step of the node, or of one query by its index. -/
inductive SnapshotStep where
  | commit (b : StoredHeader)
  | store (tag : Tag) (n : Nat)
  | openReader (endpoint : Endpoint) (id : BlockId)
  | load (i : Nat)
  | lookup (i : Nat)

/-- What a query is answered with, from its snapshot and the tags as it loaded them. -/
inductive QueryAnswer (Sp : Type) where
  | account (id : BlockId) (snapshot : HotSnapshot) (tags : BlockTags)
      (height : Except EthError Nat)
  | evm (id : BlockId) (snapshot : HotSnapshot) (tags : BlockTags)
      (ctx : Except EthError (EvmBlockContext Sp))

/-- The tag of the query is loaded. -/
def SnapshotWorld.load (w : SnapshotWorld) (i : Nat) : SnapshotWorld :=
  match w.queries[i]? with
  | some ⟨endpoint, id, .opened snapshot⟩ =>
    { w with queries := w.queries.set i ⟨endpoint, id, .loaded snapshot w.tags⟩ }
  | _ => w

/-- The height is looked up in the snapshot of the query. -/
def SnapshotWorld.lookup (cfg : EvmConfig Sp) (w : SnapshotWorld) (i : Nat) :
    Option (QueryAnswer Sp) × SnapshotWorld :=
  match w.queries[i]? with
  | some ⟨.account, id, .loaded snapshot tags⟩ =>
    (some (.account id snapshot tags (hotReaderAtBlock snapshot tags id)),
      { w with queries := w.queries.set i ⟨.account, id, .answered⟩ })
  | some ⟨.evm, id, .loaded snapshot tags⟩ =>
    (some (.evm id snapshot tags (resolveEvmBlock cfg snapshot tags id)),
      { w with queries := w.queries.set i ⟨.evm, id, .answered⟩ })
  | _ => (none, w)

/-- One step; a step the query has not come to does nothing. -/
def snapshotStep (cfg : EvmConfig Sp) : SnapshotStep → SnapshotWorld →
    Option (QueryAnswer Sp) × SnapshotWorld
  | .commit b, w => (none, { w with hot := w.hot ++ [b] })
  | .store tag n, w => (none, { w with tags := w.tags.set tag n })
  | .openReader endpoint id, w =>
    (none, { w with queries := w.queries ++ [⟨endpoint, id, .opened w.hot⟩] })
  | .load i, w => (none, w.load i)
  | .lookup i, w => w.lookup cfg i

/-- No tag is stored above storage. -/
def TagsStored : SnapshotStep → SnapshotWorld → Prop
  | .store _ n, w => n < w.hot.length
  | _, _ => True

/-- No tag is stored above storage, nor above the snapshot of a query that is about to load it. -/
def NotOutrun : SnapshotStep → SnapshotWorld → Prop
  | .store tag n, w => n < w.hot.length ∧ ∀ q ∈ w.queries, ∀ snapshot,
      q.phase = .opened snapshot → q.id.tag = some tag → n < snapshot.length
  | _, _ => True

/-- A query on a tag is answered from the block of its snapshot at the height the tag had when
it was loaded. -/
def AnsweredFromSnapshot : QueryAnswer Sp → Prop
  | .account id snapshot tags height => ∀ tag, id.tag = some tag →
      height = .ok (tags.get tag) ∧ tags.get tag < snapshot.length
  | .evm id snapshot tags ctx => ∀ tag, id.tag = some tag →
      ∃ (c : EvmBlockContext Sp) (b : StoredHeader),
        ctx = .ok c ∧ snapshot[tags.get tag]? = some b ∧ c.stateHeight = b.header.number

/-! ## Looking up a tag -/

theorem resolveBlockTag_eq {id : BlockId} {tag : Tag} (h : id.tag = some tag) (tags : BlockTags) :
    ∃ t, id = .number t ∧ resolveBlockTag tags t = tags.get tag := by
  unfold BlockId.tag at h
  split at h
  case h_5 => exact absurd h (by simp)
  all_goals
    injection h with h
    subst h
    exact ⟨_, rfl, rfl⟩

/-- An account query is answered at the height it loaded, in the snapshot or not. -/
theorem hotReaderAtBlock_tag {id : BlockId} {tag : Tag} (h : id.tag = some tag)
    (snapshot : HotSnapshot) (tags : BlockTags) :
    hotReaderAtBlock snapshot tags id = .ok (tags.get tag) := by
  obtain ⟨t, rfl, ht⟩ := resolveBlockTag_eq h tags
  rw [← ht]
  rfl

/-- A pending block is resolved like the latest one. -/
theorem resolved_tag {id : BlockId} {tag : Tag} (h : id.tag = some tag) (tags : BlockTags) :
    ∃ t, (if id.isPending then BlockId.number .latest else id) = .number t
      ∧ resolveBlockTag tags t = tags.get tag := by
  by_cases hp : id.isPending = true
  · have hpending : id = .number .pending := of_decide_eq_true hp
    subst hpending
    rw [if_pos hp, ← Option.some.inj h]
    exact ⟨_, rfl, rfl⟩
  · rw [if_neg hp]
    exact resolveBlockTag_eq h tags

/-- An EVM query finds its block if the snapshot has one at the tag it loaded. -/
theorem resolveEvmBlock_tag (cfg : EvmConfig Sp) {id : BlockId} {tag : Tag} {b : StoredHeader}
    {snapshot : HotSnapshot} {tags : BlockTags} (h : id.tag = some tag)
    (hb : snapshot[tags.get tag]? = some b) :
    ∃ c, resolveEvmBlock cfg snapshot tags id = .ok c ∧ c.stateHeight = b.header.number := by
  obtain ⟨t, hresolved, ht⟩ := resolved_tag h tags
  unfold resolveEvmBlock
  dsimp only
  rw [hresolved]
  dsimp only
  rw [ht, hb]
  exact ⟨_, rfl, rfl⟩

/-! ## The invariant -/

/-- Whatever a query has loaded, or would load now, is in its snapshot. -/
structure SnapInv (w : SnapshotWorld) : Prop where
  /-- Tags are in storage. -/
  tag : ∀ tag, w.tags.get tag < w.hot.length
  /-- A query that has yet to load its tag would find it in its snapshot. -/
  opened : ∀ q ∈ w.queries, ∀ snapshot tag, q.phase = .opened snapshot →
    q.id.tag = some tag → w.tags.get tag < snapshot.length
  /-- A query that has loaded its tag will find it in its snapshot. -/
  loaded : ∀ q ∈ w.queries, ∀ snapshot tags tag, q.phase = .loaded snapshot tags →
    q.id.tag = some tag → tags.get tag < snapshot.length

theorem get_set (tags : BlockTags) (tag tag' : Tag) (n : Nat) :
    (tags.set tag n).get tag' = if tag' = tag then n else tags.get tag' := by
  cases tag <;> cases tag' <;> rfl

theorem SnapInv.commit {w : SnapshotWorld} (hinv : SnapInv w) (b : StoredHeader) :
    SnapInv { w with hot := w.hot ++ [b] } := by
  refine ⟨fun tag => ?_, hinv.opened, hinv.loaded⟩
  have htag := hinv.tag tag
  simp only [List.length_append, List.length_singleton]
  omega

theorem SnapInv.store {w : SnapshotWorld} (hinv : SnapInv w) {tag : Tag} {n : Nat}
    (hc : NotOutrun (.store tag n) w) : SnapInv { w with tags := w.tags.set tag n } := by
  obtain ⟨hn, hopened⟩ := hc
  refine ⟨fun tag' => ?_, fun q hq snapshot tag' hphase hid => ?_, hinv.loaded⟩
  · dsimp only
    rw [get_set]
    split
    · exact hn
    · exact hinv.tag tag'
  · dsimp only
    rw [get_set]
    split
    · rename_i htag
      exact hopened q hq snapshot hphase (htag ▸ hid)
    · exact hinv.opened q hq snapshot tag' hphase hid

theorem SnapInv.openReader {w : SnapshotWorld} (hinv : SnapInv w) (endpoint : Endpoint)
    (id : BlockId) :
    SnapInv { w with queries := w.queries ++ [⟨endpoint, id, .opened w.hot⟩] } := by
  refine ⟨hinv.tag, fun q hq snapshot tag hphase hid => ?_,
    fun q hq snapshot tags tag hphase hid => ?_⟩
  · rcases List.mem_append.mp hq with hold | hnew
    · exact hinv.opened q hold snapshot tag hphase hid
    · obtain rfl := List.mem_singleton.mp hnew
      injection hphase with hphase
      rw [← hphase]
      exact hinv.tag tag
  · rcases List.mem_append.mp hq with hold | hnew
    · exact hinv.loaded q hold snapshot tags tag hphase hid
    · obtain rfl := List.mem_singleton.mp hnew
      cases hphase

/-- A query goes on to a phase whose loaded tags, if any, are in its snapshot. -/
theorem SnapInv.advance {w : SnapshotWorld} (hinv : SnapInv w) (i : Nat) {q : Query}
    (hnotOpened : ∀ snapshot, q.phase ≠ .opened snapshot)
    (hloaded : ∀ snapshot tags tag, q.phase = .loaded snapshot tags → q.id.tag = some tag →
      tags.get tag < snapshot.length) :
    SnapInv { w with queries := w.queries.set i q } := by
  refine ⟨hinv.tag, fun q' hq snapshot tag hphase hid => ?_,
    fun q' hq snapshot tags tag hphase hid => ?_⟩
  · rcases List.mem_or_eq_of_mem_set hq with hold | rfl
    · exact hinv.opened q' hold snapshot tag hphase hid
    · exact absurd hphase (hnotOpened snapshot)
  · rcases List.mem_or_eq_of_mem_set hq with hold | rfl
    · exact hinv.loaded q' hold snapshot tags tag hphase hid
    · exact hloaded snapshot tags tag hphase hid

theorem SnapInv.load {w : SnapshotWorld} (hinv : SnapInv w) (i : Nat) : SnapInv (w.load i) := by
  unfold SnapshotWorld.load
  split
  · rename_i endpoint id snapshot hq
    refine hinv.advance i (fun _ h => by cases h) fun snapshot' tags tag hphase hid => ?_
    injection hphase with hsnapshot htags
    subst hsnapshot htags
    exact hinv.opened _ (List.mem_of_getElem? hq) snapshot tag rfl hid
  · exact hinv

/-- The lookup keeps the invariant, and what it answers is from the snapshot. -/
theorem SnapInv.lookup (cfg : EvmConfig Sp) {w : SnapshotWorld} (hinv : SnapInv w) (i : Nat) :
    SnapInv (w.lookup cfg i).2 ∧ ∀ a, (w.lookup cfg i).1 = some a → AnsweredFromSnapshot a := by
  have hdone : ∀ endpoint id, SnapInv { w with
      queries := w.queries.set i ⟨endpoint, id, .answered⟩ } := fun endpoint id =>
    hinv.advance i (fun _ h => by cases h) fun _ _ _ h => by cases h
  unfold SnapshotWorld.lookup
  split
  · rename_i id snapshot tags hq
    refine ⟨hdone _ _, fun a ha => ?_⟩
    obtain rfl := Option.some.inj ha
    intro tag hid
    exact ⟨hotReaderAtBlock_tag hid snapshot tags,
      hinv.loaded _ (List.mem_of_getElem? hq) snapshot tags tag rfl hid⟩
  · rename_i id snapshot tags hq
    refine ⟨hdone _ _, fun a ha => ?_⟩
    obtain rfl := Option.some.inj ha
    intro tag hid
    have hlt := hinv.loaded _ (List.mem_of_getElem? hq) snapshot tags tag rfl hid
    have hb := List.getElem?_eq_getElem hlt
    obtain ⟨c, hc, hheight⟩ := resolveEvmBlock_tag cfg hid hb
    exact ⟨c, _, hc, hb, hheight⟩
  · exact ⟨hinv, fun a ha => absurd ha (by simp)⟩

theorem SnapInv.step (cfg : EvmConfig Sp) {w : SnapshotWorld} (hinv : SnapInv w)
    {s : SnapshotStep} (hc : NotOutrun s w) :
    SnapInv (snapshotStep cfg s w).2
      ∧ ∀ a, (snapshotStep cfg s w).1 = some a → AnsweredFromSnapshot a := by
  cases s with
  | commit b => exact ⟨hinv.commit b, fun a ha => absurd ha (by simp [snapshotStep])⟩
  | store tag n => exact ⟨hinv.store hc, fun a ha => absurd ha (by simp [snapshotStep])⟩
  | openReader endpoint id =>
    exact ⟨hinv.openReader endpoint id, fun a ha => absurd ha (by simp [snapshotStep])⟩
  | load i => exact ⟨hinv.load i, fun a ha => absurd ha (by simp [snapshotStep])⟩
  | lookup i => exact hinv.lookup cfg i

/-! ## Every run -/

/--
**A query on a tag is answered from its own snapshot**, in every run that raises no
tag above the snapshot of a query about to load it.

This is the whole of what the order gives. The snapshot is opened first, so it is
the tag that is fresh and the snapshot that may be stale.
-/
theorem tagQueries_answeredFromSnapshot (cfg : EvmConfig Sp) {w₀ w : SnapshotWorld}
    {os : List (QueryAnswer Sp)} (htags : ∀ tag, w₀.tags.get tag < w₀.hot.length)
    (hqueries : w₀.queries = []) (hrun : Run (snapshotStep cfg) NotOutrun w₀ os w) :
    ∀ a ∈ os, AnsweredFromSnapshot a := by
  have h0 : SnapInv w₀ := by
    refine ⟨htags, ?_, ?_⟩ <;> simp [hqueries]
  have hlaw := hrun.law (I := fun _ w => SnapInv w) (L := fun _ a => AnsweredFromSnapshot a) h0
    fun s _ w hinv hc => hinv.step cfg hc
  intro a ha
  obtain ⟨pre, post, hos⟩ := List.append_of_mem ha
  exact hlaw.2 pre a post hos

/-! ## A tag that outruns a snapshot -/

def plainConfig : EvmConfig Unit where
  slotDuration := 12
  nextBlockBaseFee := fun b => b.baseFeePerGas
  specIdForHeader := fun _ => ()

def storedHeader (n : Nat) : StoredHeader := ⟨⟨n, n + 1, n, 12 * n⟩, some 7⟩

/-- Only the genesis block, which all tags are at. -/
def genesisOnly : SnapshotWorld := ⟨[storedHeader 0], ⟨0, 0, 0⟩, []⟩

/-- Block 1 is stored while one query is under way and before another one starts. -/
theorem tagQueries_answeredFromSnapshot_twoQueries :
    AnsweredFromSnapshot (.evm (.number .latest) [storedHeader 0, storedHeader 1] ⟨1, 0, 0⟩
      (.ok ⟨storedHeader 1, 1, ()⟩) : QueryAnswer Unit) := by
  let steps : List SnapshotStep := [.openReader .account (.number .safe), .commit (storedHeader 1),
    .load 0, .openReader .evm (.number .latest), .store .latest 1, .load 1, .lookup 1]
  have hadmits : Admits (snapshotStep plainConfig) NotOutrun steps genesisOnly := by
    refine ⟨trivial, trivial, trivial, trivial, ⟨by decide, ?_⟩, trivial, trivial, trivial⟩
    intro q hq snapshot hphase htag
    rcases List.mem_cons.mp hq with rfl | hq
    · cases hphase
    · obtain rfl := List.mem_singleton.mp hq
      injection hphase with hphase
      rw [← hphase]
      decide
  have htags : ∀ tag, genesisOnly.tags.get tag < genesisOnly.hot.length := by
    intro tag
    cases tag <;> decide
  exact tagQueries_answeredFromSnapshot plainConfig htags rfl
    (runInputs_run steps genesisOnly hadmits) _ (List.mem_singleton.mpr rfl)

/-- What the account query of the run below is answered with. -/
def outrunHeight : QueryAnswer Unit :=
  .account (.number .latest) [storedHeader 0] ⟨1, 0, 0⟩ (.ok 1)

/-- What the EVM query of the run below is answered with. -/
def outrunBlock : QueryAnswer Unit :=
  .evm (.number .latest) [storedHeader 0] ⟨1, 0, 0⟩ (.error (.blockNotFound (.number .latest)))

/-- Both queries have opened their snapshot when block 1 is stored and tagged. The account
query is answered at a height its snapshot does not have, the other one not at all. -/
theorem tagQueries_outrun :
    ∃ w, Run (snapshotStep plainConfig) TagsStored genesisOnly [outrunHeight, outrunBlock] w
      ∧ ¬ AnsweredFromSnapshot outrunHeight ∧ ¬ AnsweredFromSnapshot outrunBlock := by
  let steps : List SnapshotStep := [.openReader .account (.number .latest),
    .openReader .evm (.number .latest), .commit (storedHeader 1), .store .finalized 0,
    .store .safe 0, .store .latest 1, .load 0, .load 1, .lookup 0, .lookup 1]
  have hadmits : Admits (snapshotStep plainConfig) TagsStored steps genesisOnly :=
    ⟨trivial, trivial, trivial, Nat.zero_lt_two, Nat.zero_lt_two, Nat.one_lt_two, trivial,
      trivial, trivial, trivial, trivial⟩
  refine ⟨_, runInputs_run steps genesisOnly hadmits, ?_, ?_⟩
  · intro h
    exact absurd (h .latest rfl).2 (by decide)
  · intro h
    obtain ⟨c, b, hc, -, -⟩ := h .latest rfl
    cases hc

end NodeComponents.Rpc
