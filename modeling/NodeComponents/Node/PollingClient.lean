import NodeComponents.Node.Settled
import NodeComponents.Rpc.PollCalls

/-!
# A client that polls the node

The replay law of a polled log filter is about a chain that is appended to and cut in
one step, with a poll between two steps. Here the chain is what the node stores, which
it changes effect by effect, and a poll is made in parts between any of them: the ring
is read, the latest tag is loaded, cold storage answers, the cursor is committed.

A cut takes several effects, and until the removal is in the ring the ring, the tags
and storage disagree. As long as no poll overlaps these effects the law holds: the
parts of a poll see what a poll at one instant would see, and each piece of a
notification's story is an append, a raised tag or a whole reorg to the client.

Cold storage answers from what it has written. The tag may be ahead of that, and the
cursor moves behind the tag, so a block that is missing then must hold nothing the
filter matches.
-/

namespace NodeComponents.Node

open Lib Rpc

variable {C H Tx G S : Type} {X : Externals C H Tx G S} {F : Faults}
  {genesis : ExecutedBlock Tx G S} {st : UnifiedStorage Tx G S} {s : NodeState Tx G S}
  {filter : G → Bool}

/-! ## What cold storage answers -/

/-- The matching logs of stored blocks. -/
def storedLogs (X : Externals C H Tx G S) (filter : G → Bool)
    (blocks : List (ExecutedBlock Tx G S)) : List (Log G) :=
  (blocks.flatMap fun b => (X.coldLogs b).flatten).filter fun log => filter log.inner

/-- Cold storage answers from the tier it holds. -/
def storedCold (X : Externals C H Tx G S) (st : UnifiedStorage Tx G S) : ColdReads G where
  getHeaders start latest :=
    .ok (((st.cold.take (latest + 1)).drop start).map fun b => b.header.hash)
  streamLogs filter start latest :=
    .ok (storedLogs X filter ((st.cold.take (latest + 1)).drop start))

/-- No log in cold storage is flagged as removed. -/
def ColdLogsLive (X : Externals C H Tx G S) : Prop :=
  ∀ b, ∀ logs ∈ X.coldLogs b, ∀ log ∈ logs, log.removed = false

/-- A stored block as a block of the replay law. -/
def canonical (hlive : ColdLogsLive X) (b : ExecutedBlock Tx G S) : CanonicalBlock G where
  hash := b.header.hash
  timestamp := b.header.timestamp
  logs := (X.coldLogs b).flatten
  live := by
    intro log hlog
    obtain ⟨logs, hlogs, hmem⟩ := List.mem_flatten.mp hlog
    exact hlive b logs hlogs log hmem

variable {hlive : ColdLogsLive X}

/-- A live node, one log filter with the poll of it that may be in progress, and the client;
`sincePoll` counts the reorgs since the last poll. -/
structure PolledNode (Tx G S : Type) where
  live : LiveNode Tx G S
  filter : ActiveFilter G
  phase : CallPhase G
  client : Multiset (Log G)
  clock : Nat
  sincePoll : Nat

/-- A move of the node or a part of a poll. -/
inductive PolledMove (C : Type) where
  | take (n : HostNotification C) (F : Faults)
  | effect
  /-- Cold storage writes the next block, if there is one. -/
  | ingest
  /-- The filter is installed anew. -/
  | install (now : Nat)
  | readRing
  | readLatest
  | coldAnswer
  | commit (now : Nat)

/-- The node makes its next effect; the instant of a reorg is read when it enters the ring. -/
def PolledNode.effect (X : Externals C H Tx G S) (genesis : ExecutedBlock Tx G S)
    (w : PolledNode Tx G S) : PolledNode Tx G S :=
  let live := (liveStep X genesis .effect w.live).2
  match w.live.pending with
  | .pushReorg now _ :: _ => { w with live := live, clock := now, sincePoll := w.sincePoll + 1 }
  | _ => { w with live := live }

/-- A filter is installed, for a client that holds the matching logs up to the latest tag. -/
def PolledNode.install (X : Externals C H Tx G S) (filter : G → Bool) (now : Nat)
    (w : PolledNode Tx G S) : PolledNode Tx G S :=
  let latest := w.live.state.chain.tags.latest
  { w with
    filter := ActiveFilter.install latest now (.log filter)
    phase := .done
    client := Multiset.ofList (storedLogs X filter (w.live.state.storage.hot.take (latest + 1)))
    clock := now
    sincePoll := 0 }

/-- The part under the shard lock. -/
def PolledNode.readRing (w : PolledNode Tx G S) : PolledNode Tx G S :=
  match w.phase with
  | .done =>
    let read := w.filter.readRing w.live.state.chain.reorgs
    { w with filter := read.2, phase := .copied read.1 }
  | _ => w

def PolledNode.readLatest (w : PolledNode Tx G S) : PolledNode Tx G S :=
  match w.phase with
  | .copied p => { w with phase := .resolved p w.live.state.chain.tags.latest }
  | _ => w

def PolledNode.coldAnswer (X : Externals C H Tx G S) (w : PolledNode Tx G S) :
    PolledNode Tx G S :=
  match w.phase with
  | .resolved p latest =>
    match p.output (storedCold X w.live.found) latest with
    | .ok out => { w with phase := .answered p latest out }
    | .error _ => { w with phase := .done }
  | _ => w

/-- The cursor is committed, and the client applies what it gets. -/
def PolledNode.finish [DecidableEq G] (w : PolledNode Tx G S) (p : PollStart G) (latest : Nat)
    (out : FilterOutput G) (now : Nat) : PolledNode Tx G S :=
  { w with
    filter := p.commit latest now w.filter
    phase := .done
    client := applyOutput w.client out
    clock := now
    sincePoll := 0 }

def PolledNode.commit [DecidableEq G] (w : PolledNode Tx G S) (now : Nat) :
    Option (CallReturn G) × PolledNode Tx G S :=
  match w.phase with
  | .answered p latest out => (some ⟨latest, out⟩, w.finish p latest out now)
  | _ => (none, w)

/-- No poll of the filter is in progress. -/
def PolledNode.idle (w : PolledNode Tx G S) : Bool :=
  match w.phase with
  | .done => true
  | _ => false

/-- Storage is cut while no poll is in progress, and the ring has room for the reorg. -/
def Clear (w : PolledNode Tx G S) : Effect Tx G S → Prop
  | .drain _ => w.idle = true
  | .pushReorg now _ => w.clock < now ∧ w.sincePoll < 25
  | _ => True

/-- No poll overlaps a cut, instants are distinct, and at most 25 reorgs happen between two
polls. -/
def NoOverlap : PolledMove C → PolledNode Tx G S → Prop
  | .effect, w => ∀ e ∈ w.live.pending.head?, Clear w e
  | .install now, w => w.clock < now ∧ cutPending w.live.pending = false
  | .readRing, w => cutPending w.live.pending = false
  | .commit now, w => w.clock < now
  | _, _ => True

/-- Cold storage answers no poll without a block that holds a matching log. -/
def NoneMissing (X : Externals C H Tx G S) (filter : G → Bool) :
    PolledMove C → PolledNode Tx G S → Prop
  | .coldAnswer, w => ∀ p latest, w.phase = .resolved p latest → storedLogs X filter
      ((w.live.state.storage.cold.take (latest + 1)).drop (max p.start w.live.written)) = []
  | _, _ => True

instance decidableClear (w : PolledNode Tx G S) : ∀ e, Decidable (Clear w e)
  | .drain _ => inferInstanceAs (Decidable (w.idle = true))
  | .pushReorg now _ => inferInstanceAs (Decidable (w.clock < now ∧ w.sincePoll < 25))
  | .append _ | .tag _ | .broadcast _ | .status _ | .sendFinished _ _ => isTrue trivial

instance decidableNoOverlap : ∀ (m : PolledMove C) (w : PolledNode Tx G S),
    Decidable (NoOverlap m w)
  | .effect, w => inferInstanceAs (Decidable (∀ e ∈ w.live.pending.head?, Clear w e))
  | .install now, w =>
    inferInstanceAs (Decidable (w.clock < now ∧ cutPending w.live.pending = false))
  | .readRing, w => inferInstanceAs (Decidable (cutPending w.live.pending = false))
  | .commit now, w => inferInstanceAs (Decidable (w.clock < now))
  | .take _ _, _ | .ingest, _ | .readLatest, _ | .coldAnswer, _ => isTrue trivial

instance decidableNoneMissing [DecidableEq G] : ∀ (m : PolledMove C) (w : PolledNode Tx G S),
    Decidable (NoneMissing X filter m w)
  | .coldAnswer, ⟨live, _, .resolved p latest, _, _, _⟩ =>
    decidable_of_iff (storedLogs X filter
        ((live.state.storage.cold.take (latest + 1)).drop (max p.start live.written)) = [])
      ⟨fun h _ _ hphase => by obtain ⟨rfl, rfl⟩ := CallPhase.resolved.inj hphase; exact h,
        fun h => h p latest rfl⟩
  | .coldAnswer, ⟨_, _, .done, _, _, _⟩ | .coldAnswer, ⟨_, _, .copied _, _, _, _⟩
  | .coldAnswer, ⟨_, _, .answered _ _ _, _, _, _⟩ => isTrue fun _ _ hphase => by cases hphase
  | .take _ _, _ | .effect, _ | .ingest, _ | .install _, _ | .readRing, _ | .readLatest, _
  | .commit _, _ => isTrue trivial

/-- A node was just started, and a filter is installed on it. -/
def PolledNode.booted (X : Externals C H Tx G S) (genesis : ExecutedBlock Tx G S)
    (st : UnifiedStorage Tx G S) (filter : G → Bool) (now : Nat) : PolledNode Tx G S :=
  PolledNode.install X filter now
    ⟨LiveNode.booted genesis st [], ActiveFilter.install 0 now (.log filter), .done, 0, now, 0⟩

/-! ## A poll in parts -/

/-- The world of the replay law, where the poll in progress has not begun. -/
def PolledNode.world (hlive : ColdLogsLive X) (w : PolledNode Tx G S) (f₀ : ActiveFilter G) :
    PollWorld Tx G :=
  ⟨w.live.state.storage.cold.map (canonical hlive), w.live.state.chain, f₀, w.client, w.clock,
    w.sincePoll⟩

variable {w : PolledNode Tx G S}

variable [DecidableEq G]

end NodeComponents.Node
