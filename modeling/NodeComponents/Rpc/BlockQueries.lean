import NodeComponents.Rpc.Helpers
import NodeComponents.Rpc.Snapshots

/-!
# Block queries

A query for a block, its receipts or one of its transactions resolves a block id to a
number and then reads cold storage, most often more than once: the header and the
transactions, the receipt and then its transaction and its header. Each read is made at
an instant of its own. Cold storage is written behind the node meanwhile, which appends
blocks and, in a reorg, removes those above a height.

`answerAt` is what an endpoint would answer with all its reads at one instant.

Cold storage is not part of this repository; it is its blocks by height here, and its
reads are what their names say.
-/

namespace NodeComponents.Rpc.Queries

open Helpers

variable {Tx A L Bl : Type}

/-! ## Cold storage -/

/-- A block in cold storage; its receipts carry where they stand. -/
structure ColdBlock (Tx A L : Type) where
  header : StoredHeader
  txs : List Tx
  receipts : List (Helpers.ColdReceipt A L)
deriving DecidableEq, Repr

abbrev ColdTier (Tx A L : Type) := List (ColdBlock Tx A L)

/-- What comes from the transaction types. -/
structure QueryRules (Tx A L Bl : Type) extends TxRules Tx A L Bl where
  txHash : Tx → B256
  encoded2718 : Tx → List UInt8

variable (x : QueryRules Tx A L Bl)

def ColdTier.getHeaderByNumber (cold : ColdTier Tx A L) (n : Nat) : Option StoredHeader :=
  cold[n]?.map ColdBlock.header

def ColdTier.getTransactionsInBlock (cold : ColdTier Tx A L) (n : Nat) : List Tx :=
  (cold[n]?.map ColdBlock.txs).getD []

def ColdTier.getReceiptsInBlock (cold : ColdTier Tx A L) (n : Nat) :
    List (Helpers.ColdReceipt A L) :=
  (cold[n]?.map ColdBlock.receipts).getD []

/-- The transactions of a block with where they were confirmed. -/
def ColdBlock.confirmed (b : ColdBlock Tx A L) (n : Nat) : List (Tx × Helpers.ConfirmationMeta) :=
  b.txs.zipIdx.map fun e => (e.1, ⟨n, b.header.header.hash, e.2⟩)

def ColdTier.getTxByBlockAndIndex (cold : ColdTier Tx A L) (n index : Nat) :
    Option (Tx × Helpers.ConfirmationMeta) :=
  cold[n]?.bind fun b => (b.confirmed n)[index]?

def ColdTier.getTxByHash (cold : ColdTier Tx A L) (hash : B256) :
    Option (Tx × Helpers.ConfirmationMeta) :=
  (cold.zipIdx.flatMap fun e => e.1.confirmed e.2).find? fun e => x.txHash e.1 = hash

def ColdTier.getReceipt (cold : ColdTier Tx A L) (hash : B256) :
    Option (Helpers.ColdReceipt A L) :=
  (cold.flatMap ColdBlock.receipts).find? fun cr => cr.txHash = hash

/-! ## What the endpoints answer -/

inductive BlockTransactions (Tx : Type) where
  | full (txs : List (RpcTransaction Tx))
  | hashes (hashes : List B256)
deriving DecidableEq, Repr

structure RpcBlock (Tx : Type) where
  header : StoredHeader
  transactions : BlockTransactions Tx
deriving DecidableEq, Repr

inductive QueryError where
  | resolve (e : EthError)
  | cold (e : String)
  | transactionMissing (hash : B256)
deriving DecidableEq, Repr

inductive Answer (Tx A L Bl : Type) where
  | block (block : Option (RpcBlock Tx))
  | count (count : Option Nat)
  | receipts (receipts : Option (List (TransactionReceipt A L Bl)))
  | transaction (tx : Option (RpcTransaction Tx))
  | raw (bytes : Option (List UInt8))
  | receipt (receipt : Option (TransactionReceipt A L Bl))
  | error (e : QueryError)
deriving DecidableEq, Repr

/-- The block as it is serialized, from its header and transactions. -/
def rpcBlock (n : Nat) (full : Bool) (txs : List Tx) (header : StoredHeader) : RpcBlock Tx where
  header := header
  transactions :=
    if full then
      .full (txs.zipIdx.map fun e =>
        buildRpcTransaction x.toTxRules e.1 ⟨n, header.header.hash, e.2⟩ header.baseFeePerGas)
    else .hashes (txs.map x.txHash)

/-- The receipts as they are serialized, each with its transaction. -/
def lazyReceipts (txs : List Tx) (receipts : List (Helpers.ColdReceipt A L))
    (header : StoredHeader) : List (TransactionReceipt A L Bl) :=
  (txs.zip receipts).map fun e => buildReceipt x.toTxRules e.2 e.1 header.baseFeePerGas

/-- `eth_getTransaction*`, from the transaction found and the header of its block. -/
def transactionAnswer (tx : Tx) (confirmed : Helpers.ConfirmationMeta)
    (header : Option StoredHeader) : Answer Tx A L Bl :=
  .transaction (some (buildRpcTransaction x.toTxRules tx confirmed
    (header.bind StoredHeader.baseFeePerGas)))

/-- `eth_getTransactionReceipt`, from the receipt found, its transaction and its header. -/
def receiptAnswer (cr : Helpers.ColdReceipt A L) (tx : Option Tx) (header : Option StoredHeader) :
    Answer Tx A L Bl :=
  match tx with
  | none => .error (.transactionMissing cr.txHash)
  | some tx =>
    .receipt (some (buildReceipt x.toTxRules cr tx (header.bind StoredHeader.baseFeePerGas)))

/-! ## The calls -/

/-- The endpoints that read cold storage. -/
inductive Endpoint where
  | block (id : BlockId) (full : Bool)
  | blockTxCount (id : BlockId)
  | blockReceipts (id : BlockId)
  | transactionByHash (hash : B256)
  | rawTransactionByHash (hash : B256)
  | transactionByBlockAndIndex (id : BlockId) (index : Nat)
  | rawTransactionByBlockAndIndex (id : BlockId) (index : Nat)
  | transactionReceipt (hash : B256)
deriving DecidableEq, Repr

/-- An endpoint whose block id is resolved. -/
inductive Request where
  | block (n : Nat) (full : Bool)
  | blockTxCount (n : Nat)
  | blockReceipts (n : Nat)
  | transactionByHash (hash : B256)
  | rawTransactionByHash (hash : B256)
  | transactionByBlockAndIndex (n index : Nat)
  | rawTransactionByBlockAndIndex (n index : Nat)
  | transactionReceipt (hash : B256)
deriving DecidableEq, Repr

/-- Resolve a block id, by the tags or in hot storage. -/
def resolveBlockId (hot : HotSnapshot) (tags : BlockTags) (id : BlockId) : Except QueryError Nat :=
  match id with
  | .number tag => .ok (resolveBlockTag tags tag)
  | .hash h =>
    match hot.findIdx? fun b => b.header.hash = h with
    | some n => .ok n
    | none => .error (.resolve (.hashNotFound h))

def Endpoint.resolve (hot : HotSnapshot) (tags : BlockTags) : Endpoint → Except QueryError Request
  | .block id full => (resolveBlockId hot tags id).map fun n => .block n full
  | .blockTxCount id => (resolveBlockId hot tags id).map .blockTxCount
  | .blockReceipts id => (resolveBlockId hot tags id).map .blockReceipts
  | .transactionByHash hash => .ok (.transactionByHash hash)
  | .rawTransactionByHash hash => .ok (.rawTransactionByHash hash)
  | .transactionByBlockAndIndex id index =>
    (resolveBlockId hot tags id).map fun n => .transactionByBlockAndIndex n index
  | .rawTransactionByBlockAndIndex id index =>
    (resolveBlockId hot tags id).map fun n => .rawTransactionByBlockAndIndex n index
  | .transactionReceipt hash => .ok (.transactionReceipt hash)

/-- How far a call has come. -/
inductive Phase (Tx A L : Type) where
  /-- Nothing is read. -/
  | start
  /-- The parts of a block that are read, in any order. -/
  | parts (n : Nat) (header : Option (Option StoredHeader)) (txs : Option (List Tx))
    (receipts : Option (List (Helpers.ColdReceipt A L)))
  /-- The transaction is found; the header of its block is not read yet. -/
  | confirmed (tx : Tx) (confirmedAt : Helpers.ConfirmationMeta)
  /-- The receipt is found; its transaction and header are read in any order. -/
  | found (cr : Helpers.ColdReceipt A L) (tx : Option (Option Tx))
    (header : Option (Option StoredHeader))
  | done
deriving DecidableEq, Repr

/-- Where a call starts. -/
def Request.start : Request → Phase Tx A L
  | .block n _ => .parts n none none none
  | .blockReceipts n => .parts n none none none
  | _ => .start

/-- A read of cold storage. -/
inductive Part where
  | first
  | header
  | txs
  | receipts
  | tx
deriving DecidableEq, Repr

/-- What a read leads to. -/
inductive Progress (Tx A L Bl : Type) where
  | still (phase : Phase Tx A L)
  | answer (ans : Answer Tx A L Bl)

/-- The first read of a call that looks something up. -/
def Request.readFirst (cold : ColdTier Tx A L) : Request → Progress Tx A L Bl
  | .blockTxCount n => .answer (.count (some (cold.getTransactionsInBlock n).length))
  | .transactionByHash hash =>
    match cold.getTxByHash x hash with
    | none => .answer (.transaction none)
    | some (tx, confirmedAt) => .still (.confirmed tx confirmedAt)
  | .rawTransactionByHash hash =>
    .answer (.raw ((cold.getTxByHash x hash).map fun e => x.encoded2718 e.1))
  | .transactionByBlockAndIndex n index =>
    match cold.getTxByBlockAndIndex n index with
    | none => .answer (.transaction none)
    | some (tx, confirmedAt) => .still (.confirmed tx confirmedAt)
  | .rawTransactionByBlockAndIndex n index =>
    .answer (.raw ((cold.getTxByBlockAndIndex n index).map fun e => x.encoded2718 e.1))
  | .transactionReceipt hash =>
    match cold.getReceipt hash with
    | none => .answer (.receipt none)
    | some cr => .still (.found cr none none)
  | .block _ _ | .blockReceipts _ => .still .start

/-- The answer, once all parts are read. -/
def assemble (request : Request) (phase : Phase Tx A L) : Progress Tx A L Bl :=
  match request, phase with
  | .block n full, .parts _ (some header) (some txs) _ =>
    .answer (.block (header.map (rpcBlock x n full txs)))
  | .blockReceipts _, .parts _ (some header) (some txs) (some receipts) =>
    .answer (.receipts (header.map (lazyReceipts x txs receipts)))
  | .transactionReceipt _, .found cr (some tx) (some header) =>
    .answer (receiptAnswer x cr tx header)
  | _, phase => .still phase

/-- One read; a part is read once. -/
def readPart (cold : ColdTier Tx A L) (request : Request) (phase : Phase Tx A L) (part : Part) :
    Progress Tx A L Bl :=
  match phase, part with
  | .start, .first => request.readFirst x cold
  | .parts n none txs receipts, .header =>
    assemble x request (.parts n (some (cold.getHeaderByNumber n)) txs receipts)
  | .parts n header none receipts, .txs =>
    assemble x request (.parts n header (some (cold.getTransactionsInBlock n)) receipts)
  | .parts n header txs none, .receipts =>
    match request with
    | .blockReceipts _ =>
      assemble x request (.parts n header txs (some (cold.getReceiptsInBlock n)))
    | _ => .still (.parts n header txs none)
  | .confirmed tx confirmedAt, .header =>
    .answer (transactionAnswer x tx confirmedAt (cold.getHeaderByNumber confirmedAt.blockNumber))
  | .found cr none header, .tx =>
    assemble x request (.found cr (some ((cold.getTxByHash x cr.txHash).map Prod.fst)) header)
  | .found cr tx none, .header =>
    assemble x request (.found cr tx (some (cold.getHeaderByNumber cr.blockNumber)))
  | phase, _ => .still phase

/-! ## The machine -/

/-- A call; `seen` is ghost: the contents of cold storage since it was resolved. -/
structure Query (Tx A L : Type) where
  request : Request
  phase : Phase Tx A L
  seen : List (ColdTier Tx A L)
deriving DecidableEq, Repr

/-- The tags, hot storage for resolving hashes, cold storage, and all calls. -/
structure QueryWorld (Tx A L : Type) where
  tags : BlockTags
  hot : HotSnapshot
  cold : ColdTier Tx A L
  queries : List (Query Tx A L)
deriving DecidableEq, Repr

/-- A step of the node, of cold storage, or of one call by its index. -/
inductive QueryStep (Tx A L : Type) where
  | setTags (tags : BlockTags)
  | setHot (hot : HotSnapshot)
  | ingest (b : ColdBlock Tx A L)
  /-- Remove the blocks above a height. -/
  | truncate (height : Nat)
  | ask (endpoint : Endpoint)
  | read (i : Nat) (part : Part)
  | fail (i : Nat) (e : String)

inductive QueryEvent (Tx A L Bl : Type) where
  /-- The `i`-th call is answered. -/
  | answered (i : Nat) (request : Request) (seen : List (ColdTier Tx A L)) (ans : Answer Tx A L Bl)
  | failed (e : QueryError)
deriving DecidableEq, Repr

def QueryWorld.store (w : QueryWorld Tx A L) (cold : ColdTier Tx A L) : QueryWorld Tx A L :=
  { w with
    cold := cold
    queries := w.queries.map fun q => { q with seen := q.seen ++ [cold] } }

def QueryWorld.ask (w : QueryWorld Tx A L) (endpoint : Endpoint) :
    Option (QueryEvent Tx A L Bl) × QueryWorld Tx A L :=
  match endpoint.resolve w.hot w.tags with
  | .error e => (some (.failed e), w)
  | .ok request => (none, { w with queries := w.queries ++ [⟨request, request.start, [w.cold]⟩] })

def QueryWorld.advance (w : QueryWorld Tx A L) (i : Nat) (q : Query Tx A L)
    (phase : Phase Tx A L) : QueryWorld Tx A L :=
  { w with queries := w.queries.set i { q with phase := phase } }

def QueryWorld.read (w : QueryWorld Tx A L) (i : Nat) (part : Part) :
    Option (QueryEvent Tx A L Bl) × QueryWorld Tx A L :=
  match w.queries[i]? with
  | none => (none, w)
  | some q =>
    match readPart x w.cold q.request q.phase part with
    | .still phase => (none, w.advance i q phase)
    | .answer ans => (some (.answered i q.request q.seen ans), w.advance i q .done)

/-- A read fails, and the call with it. -/
def QueryWorld.fail (w : QueryWorld Tx A L) (i : Nat) (e : String) :
    Option (QueryEvent Tx A L Bl) × QueryWorld Tx A L :=
  match w.queries[i]? with
  | none => (none, w)
  | some q =>
    if q.phase matches .done then (none, w) else (some (.failed (.cold e)), w.advance i q .done)

def queryStep : QueryStep Tx A L → QueryWorld Tx A L →
    Option (QueryEvent Tx A L Bl) × QueryWorld Tx A L
  | .setTags tags, w => (none, { w with tags := tags })
  | .setHot hot, w => (none, { w with hot := hot })
  | .ingest b, w => (none, w.store (w.cold ++ [b]))
  | .truncate height, w => (none, w.store (w.cold.take (height + 1)))
  | .ask endpoint, w => w.ask endpoint
  | .read i part, w => w.read x i part
  | .fail i e, w => w.fail i e

/-- An endpoint with all its reads at one instant. -/
def answerAt (cold : ColdTier Tx A L) : Request → Answer Tx A L Bl
  | .block n full =>
    .block ((cold.getHeaderByNumber n).map (rpcBlock x n full (cold.getTransactionsInBlock n)))
  | .blockTxCount n => .count (some (cold.getTransactionsInBlock n).length)
  | .blockReceipts n =>
    .receipts ((cold.getHeaderByNumber n).map
      (lazyReceipts x (cold.getTransactionsInBlock n) (cold.getReceiptsInBlock n)))
  | .transactionByHash hash => transactionAt (cold.getTxByHash x hash)
  | .rawTransactionByHash hash =>
    .raw ((cold.getTxByHash x hash).map fun e => x.encoded2718 e.1)
  | .transactionByBlockAndIndex n index => transactionAt (cold.getTxByBlockAndIndex n index)
  | .rawTransactionByBlockAndIndex n index =>
    .raw ((cold.getTxByBlockAndIndex n index).map fun e => x.encoded2718 e.1)
  | .transactionReceipt hash =>
    match cold.getReceipt hash with
    | none => .receipt none
    | some cr => receiptAnswer x cr ((cold.getTxByHash x cr.txHash).map Prod.fst)
      (cold.getHeaderByNumber cr.blockNumber)
where
  transactionAt : Option (Tx × Helpers.ConfirmationMeta) → Answer Tx A L Bl
    | none => .transaction none
    | some (tx, confirmedAt) =>
      transactionAnswer x tx confirmedAt (cold.getHeaderByNumber confirmedAt.blockNumber)

end NodeComponents.Rpc.Queries
