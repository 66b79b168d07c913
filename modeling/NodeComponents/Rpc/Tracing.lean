import NodeComponents.Rpc.Snapshots

/-!
# Tracing a block, and tracing one of its transactions

Block-level calls trace the transactions of a block one by one, up to the first system
transaction. Transaction-level calls run the transactions before their target without
tracing them, and trace the target on the state these leave. The `debug` and the `trace`
namespace each do both, with tracers of their own.

The EVM, the inspectors and what is built from them are parameters. `P` is what the EVM
takes of a transaction, `S` an EVM between two transactions, `R` the result of a run with
the state it would commit, `I` an inspector, `C` what a caller configures tracers with,
and `F` what they build.
-/

namespace NodeComponents.Rpc

open Lib

variable {P S R I C F : Type}

/-! ## Transactions -/

structure Signature where
  r : B256
  s : B256
  yParity : Bool
deriving DecidableEq, Repr

structure RecoveredTx (P : Type) where
  txHash : B256
  signature : Signature
  payload : P
deriving DecidableEq, Repr

/-- Where a transaction stands, as traces report it. -/
structure TransactionInfo where
  hash : Option B256
  index : Option Nat
  blockHash : Option B256
  blockNumber : Option Nat
  baseFee : Option Nat
deriving DecidableEq, Repr

/-- One frame of a transaction, with where the transaction stands. -/
structure LocalizedTransactionTrace (F : Type) where
  trace : F
  blockHash : Option B256
  blockNumber : Option Nat
  transactionHash : Option B256
  transactionPosition : Option Nat
deriving DecidableEq, Repr

/-! ## The EVM and its inspectors -/

/-- An EVM that has run a transaction and not yet committed its state. -/
structure Transacted (S R : Type) where
  evm : S
  result : R

/-- What the tracers use of the EVM and of the inspectors. -/
structure Revm (P S R I C F : Type) where
  /-- `MagicSig::try_from_signature` finds a magic signature. -/
  isMagic : Signature → Bool
  run : S → RecoveredTx P → Except String (Transacted S R)
  /-- Run with an inspector, which is returned with what it recorded. -/
  inspect : I → S → RecoveredTx P → Except String (I × Transacted S R)
  commit : S → R → S
  gasLimit : RecoveredTx P → Nat
  gasUsed : R → Nat
  withTransactionGasLimit : I → Nat → I
  fourByteInspector : I
  fourByteFrame : I → F
  noopFrame : F
  intoCallConfig : C → Option C
  fromGethCallConfig : C → I
  gethCallTraces : I → C → Nat → F
  intoPreStateConfig : C → Option C
  fromGethPrestateConfig : C → I
  gethPrestateTraces : I → R → C → S → Except String F
  intoFlatCallConfig : C → Option C
  fromFlatCallConfig : C → I
  intoMuxConfig : C → Option C
  muxInspector : C → Except String I
  muxFrame : I → R → S → TransactionInfo → Except String F
  defaultParity : I
  localizedTraces : I → TransactionInfo → List (LocalizedTransactionTrace F)
  /-- The frame the `debug` namespace makes of localized traces. -/
  flatCallFrame : List (LocalizedTransactionTrace F) → F
  fromParityConfig : C → I
  traceResults : I → R → C → S → Except String F

/-- Commit the state of the run. -/
def Transacted.acceptState (evm : Revm P S R I C F) (t : Transacted S R) : S :=
  evm.commit t.evm t.result

/-- `run_tx`, and `accept_state`. -/
def Revm.runTx (evm : Revm P S R I C F) (s : S) (tx : RecoveredTx P) : Except String S :=
  (evm.run s tx).map (Transacted.acceptState evm)

/-! ## Errors -/

inductive ResolveError where
  | storage (e : String)
  | hashNotFound (blockHash : B256)
deriving DecidableEq, Repr

/-- Errors of the `debug` namespace. -/
inductive DebugError where
  | cold (e : String)
  | hot (e : String)
  | resolve (e : ResolveError)
  | invalidTracerConfig
  | unsupported (what : String)
  | evmHalt (reason : String)
  | blockNotFound (id : BlockId)
  | transactionNotFound (txHash : B256)
deriving DecidableEq, Repr

/-- Errors of the `trace` namespace; a failed tracer is a halt with the text of its error. -/
inductive TraceError where
  | cold (e : String)
  | hot (e : String)
  | resolve (e : ResolveError)
  | evmHalt (reason : String)
  | tracerHalt (e : DebugError)
  | blockNotFound (id : BlockId)
  | transactionNotFound (txHash : B256)
deriving DecidableEq, Repr

/-! ## Tracers -/

inductive GethDebugBuiltInTracerType where
  | erc7562Tracer
  | fourByteTracer
  | callTracer
  | flatCallTracer
  | preStateTracer
  | noopTracer
  | muxTracer
deriving DecidableEq, Repr

inductive GethDebugTracerType where
  | builtInTracer (tracer : GethDebugBuiltInTracerType)
  | jsTracer (code : String)
deriving DecidableEq, Repr

structure GethDebugTracingOptions (C : Type) where
  tracer : Option GethDebugTracerType
  tracerConfig : C

section

variable (evm : Revm P S R I C F)

/-- Run with an inspector; a failure is a halt. -/
def inspected (inspector : I) (s : S) (tx : RecoveredTx P) :
    Except DebugError (I × Transacted S R) :=
  (evm.inspect inspector s tx).mapError .evmHalt

/-- Parse a tracer's configuration. -/
def configured (into : C → Option C) (config : C) : Except DebugError C :=
  match into config with
  | some parsed => .ok parsed
  | none => .error .invalidTracerConfig

def traceFourByte (s : S) (tx : RecoveredTx P) : Except DebugError (F × S) := do
  let (fourByte, t) ← inspected evm evm.fourByteInspector s tx
  return (evm.fourByteFrame fourByte, t.acceptState evm)

def traceCall (config : C) (s : S) (tx : RecoveredTx P) : Except DebugError (F × S) := do
  let callConfig ← configured evm.intoCallConfig config
  let (inspector, t) ← inspected evm (evm.fromGethCallConfig callConfig) s tx
  let inspector := evm.withTransactionGasLimit inspector (evm.gasLimit tx)
  return (evm.gethCallTraces inspector callConfig (evm.gasUsed t.result), t.acceptState evm)

def tracePreState (config : C) (s : S) (tx : RecoveredTx P) : Except DebugError (F × S) := do
  let prestateConfig ← configured evm.intoPreStateConfig config
  let (inspector, t) ← inspected evm (evm.fromGethPrestateConfig prestateConfig) s tx
  let inspector := evm.withTransactionGasLimit inspector (evm.gasLimit tx)
  -- the frame is built on the state before the commit
  let frame ← (evm.gethPrestateTraces inspector t.result prestateConfig t.evm).mapError .evmHalt
  return (frame, evm.commit t.evm t.result)

def traceFlatCall (config : C) (txInfo : TransactionInfo) (s : S) (tx : RecoveredTx P) :
    Except DebugError (F × S) := do
  let flatCallConfig ← configured evm.intoFlatCallConfig config
  let (inspector, t) ← inspected evm (evm.fromFlatCallConfig flatCallConfig) s tx
  let inspector := evm.withTransactionGasLimit inspector (evm.gasLimit tx)
  return (evm.flatCallFrame (evm.localizedTraces inspector txInfo), t.acceptState evm)

def traceNoop (s : S) (tx : RecoveredTx P) : Except DebugError (F × S) := do
  let t ← (evm.run s tx).mapError .evmHalt
  return (evm.noopFrame, t.acceptState evm)

def traceMux (config : C) (txInfo : TransactionInfo) (s : S) (tx : RecoveredTx P) :
    Except DebugError (F × S) := do
  let muxConfig ← configured evm.intoMuxConfig config
  let inspector ← (evm.muxInspector muxConfig).mapError .evmHalt
  let (inspector, t) ← inspected evm inspector s tx
  let frame ← (evm.muxFrame inspector t.result t.evm txInfo).mapError .evmHalt
  return (frame, evm.commit t.evm t.result)

/-- Trace a transaction using the provided EVM and tracing options. -/
def trace (opts : GethDebugTracingOptions C) (txInfo : TransactionInfo) (s : S)
    (tx : RecoveredTx P) : Except DebugError (F × S) :=
  match opts.tracer with
  | none => .error .invalidTracerConfig
  | some (.jsTracer _) => .error (.unsupported "JS tracer")
  | some (.builtInTracer builtIn) =>
    match builtIn with
    | .erc7562Tracer => .error (.unsupported "ERC-7562 tracing is not yet implemented")
    | .fourByteTracer => traceFourByte evm s tx
    | .callTracer => traceCall evm opts.tracerConfig s tx
    | .flatCallTracer => traceFlatCall evm opts.tracerConfig txInfo s tx
    | .preStateTracer => tracePreState evm opts.tracerConfig s tx
    | .noopTracer => traceNoop evm s tx
    | .muxTracer => traceMux evm opts.tracerConfig txInfo s tx

/-- Trace a transaction and return localized traces. -/
def traceParityLocalized (txInfo : TransactionInfo) (s : S) (tx : RecoveredTx P) :
    Except DebugError (List (LocalizedTransactionTrace F) × S) := do
  let (inspector, t) ← inspected evm evm.defaultParity s tx
  let inspector := evm.withTransactionGasLimit inspector (evm.gasLimit tx)
  return (evm.localizedTraces inspector txInfo, t.acceptState evm)

/-- Trace a transaction and return its trace results. -/
def traceParityReplay (traceTypes : C) (s : S) (tx : RecoveredTx P) :
    Except DebugError (F × S) := do
  let (inspector, t) ← inspected evm (evm.fromParityConfig traceTypes) s tx
  let results ← (evm.traceResults inspector t.result traceTypes t.evm).mapError
    fun e => .evmHalt ("state diff: " ++ e)
  return (results, evm.commit t.evm t.result)

end

/-! ## The loops -/

/-- The loop of a block-level call: trace one transaction after another, up to the first
magic signature. Each frame comes with the hash of its transaction. -/
def traceLoop {ε α : Type} (isMagic : Signature → Bool)
    (trace : Nat → RecoveredTx P → S → Except ε (α × S)) :
    List (RecoveredTx P × Nat) → S → Except ε (List (B256 × α))
  | [], _ => .ok []
  | (tx, idx) :: txns, s =>
    if isMagic tx.signature then .ok []
    else do
      let (frame, s) ← trace idx tx s
      let frames ← traceLoop isMagic trace txns s
      return (tx.txHash, frame) :: frames

/-- The loop of a transaction-level call: run the transactions up to the target. There is no
target if no transaction has the hash, or a system transaction comes before it. -/
def replayUntil (evm : Revm P S R I C F) (txHash : B256) :
    List (RecoveredTx P × Nat) → S → Except String (Option (RecoveredTx P × Nat × S))
  | [], _ => .ok none
  | (tx, idx) :: txns, s =>
    if tx.txHash = txHash then .ok (some (tx, idx, s))
    else if evm.isMagic tx.signature then .ok none
    else do
      let s ← evm.runTx s tx
      replayUntil evm txHash txns s

def txInfo (header : StoredHeader) (blockHash : B256) (idx : Nat) (tx : RecoveredTx P) :
    TransactionInfo :=
  ⟨some tx.txHash, some idx, some blockHash, some header.header.number, header.baseFeePerGas⟩

/-! ## The context -/

/-- Where a transaction was confirmed. -/
structure ConfirmationMeta where
  blockNumber : Nat
  blockHash : B256
deriving DecidableEq, Repr

/-- What the endpoints read; `evmAtHeight` is the EVM on the state at a height, filled with a
block. -/
structure TraceCtx (P S : Type) where
  hotReader : Except String HotSnapshot
  tags : BlockTags
  getTxByHash : B256 → Except String (Option (RecoveredTx P × ConfirmationMeta))
  getTransactionsInBlock : Nat → Except String (List (RecoveredTx P))
  evmAtHeight : Nat → StoredHeader → Except String S

/-- Resolve a block id to a block number. -/
def TraceCtx.resolveBlockId (ctx : TraceCtx P S) : BlockId → Except ResolveError Nat
  | .number tag => .ok (resolveBlockTag ctx.tags tag)
  | .hash h => do
    let reader ← ctx.hotReader.mapError .storage
    match reader.findIdx? fun b => b.header.hash = h with
    | some number => .ok number
    | none => .error (.hashNotFound h)

/-- Resolve a block id to a header from hot storage. -/
def TraceCtx.resolveHeader (ctx : TraceCtx P S) (id : BlockId) :
    Except ResolveError (Option StoredHeader) := do
  let reader ← ctx.hotReader.mapError .storage
  match id with
  | .hash h => return reader.find? fun b => b.header.hash = h
  | .number tag => return reader[resolveBlockTag ctx.tags tag]?

/-! ## The `debug` namespace -/

/-- A traced transaction of a block. -/
structure TraceResult (F : Type) where
  result : F
  txHash : Option B256
deriving DecidableEq, Repr

variable (evm : Revm P S R I C F) (ctx : TraceCtx P S)

/-- Shared tracing loop used by block-level debug handlers. -/
def traceBlockInner (header : StoredHeader) (blockHash : B256) (txs : List (RecoveredTx P)) (s : S)
    (opts : GethDebugTracingOptions C) : Except DebugError (List (TraceResult F)) := do
  let frames ← traceLoop evm.isMagic
    (fun idx tx s => trace evm opts (txInfo header blockHash idx tx) s tx) txs.zipIdx s
  return frames.map fun frame => ⟨frame.2, some frame.1⟩

/-- `debug_traceBlockByNumber` and `debug_traceBlockByHash`. -/
def Debug.traceBlock (id : BlockId) (opts : GethDebugTracingOptions C) :
    Except DebugError (List (TraceResult F)) := do
  let blockNum ← (ctx.resolveBlockId id).mapError .resolve
  match ← (ctx.resolveHeader (.number (.number blockNum))).mapError .resolve with
  | none => .error (.blockNotFound id)
  | some header =>
    let txs ← (ctx.getTransactionsInBlock blockNum).mapError .cold
    -- the state before this block
    let s ← (ctx.evmAtHeight (header.header.number - 1) header).mapError .hot
    traceBlockInner evm header header.header.hash txs s opts

/-- `debug_traceTransaction`. -/
def Debug.traceTransaction (txHash : B256) (opts : GethDebugTracingOptions C) :
    Except DebugError F := do
  match ← (ctx.getTxByHash txHash).mapError .cold with
  | none => .error (.transactionNotFound txHash)
  | some (_, confirmed) =>
    let blockId := BlockId.number (.number confirmed.blockNumber)
    match ← (ctx.resolveHeader blockId).mapError .resolve with
    | none => .error (.blockNotFound blockId)
    | some header =>
      let txs ← (ctx.getTransactionsInBlock confirmed.blockNumber).mapError .cold
      let s ← (ctx.evmAtHeight (confirmed.blockNumber - 1) header).mapError .hot
      match ← (replayUntil evm txHash txs.zipIdx s).mapError .evmHalt with
      | none => .error (.transactionNotFound txHash)
      | some (tx, idx, s) =>
        let res ← trace evm opts (txInfo header confirmed.blockHash idx tx) s tx
        return res.1

/-! ## The `trace` namespace -/

/-- Shared localized tracing loop. -/
def traceBlockLocalized (header : StoredHeader) (blockHash : B256) (txs : List (RecoveredTx P))
    (s : S) : Except TraceError (List (LocalizedTransactionTrace F)) := do
  let frames ← traceLoop evm.isMagic (fun idx tx s =>
    (traceParityLocalized evm (txInfo header blockHash idx tx) s tx).mapError .tracerHalt)
      txs.zipIdx s
  return frames.flatMap Prod.snd

/-- A transaction of a replayed block. -/
structure TraceResultsWithTransactionHash (F : Type) where
  fullTrace : F
  transactionHash : B256
deriving DecidableEq, Repr

/-- Shared replay tracing loop. -/
def traceBlockReplay (txs : List (RecoveredTx P)) (s : S) (traceTypes : C) :
    Except TraceError (List (TraceResultsWithTransactionHash F)) := do
  let frames ← traceLoop evm.isMagic
    (fun _ tx s => (traceParityReplay evm traceTypes s tx).mapError TraceError.tracerHalt)
    txs.zipIdx s
  return frames.map fun frame => ⟨frame.2, frame.1⟩

/-- `trace_block`. -/
def Trace.traceBlock (id : BlockNumberOrTag) :
    Except TraceError (Option (List (LocalizedTransactionTrace F))) := do
  let blockNum ← (ctx.resolveBlockId (.number id)).mapError .resolve
  match ← (ctx.resolveHeader (.number (.number blockNum))).mapError .resolve with
  | none => return none
  | some header =>
    let txs ← (ctx.getTransactionsInBlock blockNum).mapError .cold
    let s ← (ctx.evmAtHeight (header.header.number - 1) header).mapError .hot
    let traces ← traceBlockLocalized evm header header.header.hash txs s
    return some traces

/-- `trace_transaction`. -/
def Trace.traceTransaction (txHash : B256) :
    Except TraceError (Option (List (LocalizedTransactionTrace F))) := do
  match ← (ctx.getTxByHash txHash).mapError .cold with
  | none => return none
  | some (_, confirmed) =>
    let blockId := BlockId.number (.number confirmed.blockNumber)
    match ← (ctx.resolveHeader blockId).mapError .resolve with
    | none => .error (.blockNotFound blockId)
    | some header =>
      let txs ← (ctx.getTransactionsInBlock confirmed.blockNumber).mapError .cold
      let s ← (ctx.evmAtHeight (confirmed.blockNumber - 1) header).mapError .hot
      match ← (replayUntil evm txHash txs.zipIdx s).mapError .evmHalt with
      | none => return none
      | some (tx, idx, s) =>
        let (traces, _) ← (traceParityLocalized evm (txInfo header confirmed.blockHash idx tx) s
          tx).mapError .tracerHalt
        return some traces

/-- `trace_replayBlockTransactions`. -/
def Trace.replayBlockTransactions (id : BlockNumberOrTag) (traceTypes : C) :
    Except TraceError (Option (List (TraceResultsWithTransactionHash F))) := do
  let blockNum ← (ctx.resolveBlockId (.number id)).mapError .resolve
  match ← (ctx.resolveHeader (.number (.number blockNum))).mapError .resolve with
  | none => return none
  | some header =>
    let txs ← (ctx.getTransactionsInBlock blockNum).mapError .cold
    let s ← (ctx.evmAtHeight (header.header.number - 1) header).mapError .hot
    let results ← traceBlockReplay evm txs s traceTypes
    return some results

/-- `trace_replayTransaction`. -/
def Trace.replayTransaction (txHash : B256) (traceTypes : C) : Except TraceError F := do
  match ← (ctx.getTxByHash txHash).mapError .cold with
  | none => .error (.transactionNotFound txHash)
  | some (_, confirmed) =>
    let blockId := BlockId.number (.number confirmed.blockNumber)
    match ← (ctx.resolveHeader blockId).mapError .resolve with
    | none => .error (.blockNotFound blockId)
    | some header =>
      let txs ← (ctx.getTransactionsInBlock confirmed.blockNumber).mapError .cold
      let s ← (ctx.evmAtHeight (confirmed.blockNumber - 1) header).mapError .hot
      match ← (replayUntil evm txHash txs.zipIdx s).mapError .evmHalt with
      | none => .error (.transactionNotFound txHash)
      | some (tx, _, s) =>
        let (results, _) ← (traceParityReplay evm traceTypes s tx).mapError .tracerHalt
        return results

end NodeComponents.Rpc
