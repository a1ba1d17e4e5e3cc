import Kdapp.Generator

/-! The listener (`kdapp/src/proxy.rs`): it follows the virtual chain of a node and hands the
accepted transactions of each new chain block to the engines. -/

namespace Kdapp
open Borsh
open Std (ExtTreeMap)

structure RpcTransactionOutput where
  value : UInt64
  scriptVersion : UInt16
  script : Bytes

/-- `transactionId` is the one field of the verbose data that is read. -/
structure RpcTransaction where
  transactionId : Option Hash
  payload : Bytes
  outputs : List RpcTransactionOutput

structure RpcBlockVerboseData where
  selectedParentHash : Hash
  mergeSetBluesHashes : List Hash
  mergeSetRedsHashes : List Hash

structure RpcBlock where
  daaScore : UInt64
  timestamp : UInt64
  transactions : List RpcTransaction
  verboseData : Option RpcBlockVerboseData

/-- An accepting block with the ids it accepts, the coinbase first. -/
structure RpcAcceptedTransactionIds where
  acceptingBlockHash : Hash
  acceptedTransactionIds : List Hash

structure VirtualChain where
  removedChainBlockHashes : List Hash
  acceptedTransactionIds : List RpcAcceptedTransactionIds

/-- `EngineMap`, in the order in which it is iterated. The sender of an engine is named by
the prefix. -/
structure EngineMap where
  entries : List (PrefixType × PatternType)
  nodup : (entries.map (·.1)).Nodup
  /-- The feature `tx-script-bytes`. -/
  txScriptBytes : Bool

abbrev Sent := PrefixType × EngineMsg

/-- What has been found of the required transactions of one accepting block. -/
structure Required where
  payloads : ExtTreeMap Hash (Option Bytes)
  outputs : ExtTreeMap Hash (Option (List TxOutputInfo))
  num : ℕ

def requiredTxs (engines : EngineMap) (acceptedTransactionIds : List Hash) : List Hash :=
  (acceptedTransactionIds.drop 1).filter fun id =>
    engines.entries.any fun e => checkPattern id e.2

namespace Required

def absent {α : Type} (ids : List Hash) : ExtTreeMap Hash (Option α) :=
  ids.foldl (fun m id => m.insert id none) ∅

def new (ids : List Hash) : Required where
  payloads := absent ids
  outputs := absent ids
  num := (absent ids : ExtTreeMap Hash (Option Bytes)).size

def outputsInfo (txScriptBytes : Bool) (tx : RpcTransaction) : List TxOutputInfo :=
  tx.outputs.map fun out => {
    value := out.value
    scriptVersion := out.scriptVersion
    scriptBytes := if txScriptBytes then some out.script else none }

/-- The loop over the transactions of a merged block. The flag is the `break 'outer`;
`none` is an underflow of `required_num`. -/
def collectTxs (txScriptBytes : Bool) : List RpcTransaction → Required → Option (Required × Bool)
  | [], self => some (self, false)
  | tx :: txs, self =>
    match tx.transactionId with
    | none => collectTxs txScriptBytes txs self
    | some id =>
      match self.payloads[id]? with
      | some none =>
        let payloads := self.payloads.insert id (some tx.payload)
        let outputs :=
          if id ∈ self.outputs then
            self.outputs.insert id (some (outputsInfo txScriptBytes tx))
          else self.outputs
        if self.num = 0 then none
        else if self.num - 1 = 0 then some ({ payloads, outputs, num := self.num - 1 }, true)
        else collectTxs txScriptBytes txs { payloads, outputs, num := self.num - 1 }
      | _ => collectTxs txScriptBytes txs self

/-- The loop over the merged blocks, each as its `get_block` call answered. -/
def collectBlocks (txScriptBytes : Bool) : List (Option RpcBlock) → Required → Option Required
  | [], self => some self
  | none :: blocks, self => collectBlocks txScriptBytes blocks self
  | some block :: blocks, self => do
    let (self, done) ← collectTxs txScriptBytes (block.transactions.drop 1) self
    if done then some self else collectBlocks txScriptBytes blocks self

/-- The `filter_map` of one engine over `required_txs`: the associated transactions, and the
maps with the consumed entries removed. `none` is a payload too short to strip. -/
def consume (prefixType : PrefixType) (pattern : PatternType) :
    List Hash → Required → Option (List (Hash × Bytes × Option (List TxOutputInfo)) × Required)
  | [], self => some ([], self)
  | id :: ids, self =>
    if checkPattern id pattern then
      match self.payloads[id]? with
      | some (some payload) =>
        if Payload.checkHeader payload prefixType then do
          let stripped ← Payload.stripHeader payload
          let (txs, self') ← consume prefixType pattern ids { self with
            payloads := self.payloads.erase id
            outputs := self.outputs.erase id }
          some ((id, stripped, self.outputs[id]?.join) :: txs, self')
        else consume prefixType pattern ids self
      | _ => consume prefixType pattern ids self
    else consume prefixType pattern ids self

end Required

/-- The loop over the engines, with the break when every required transaction is consumed. -/
def dispatch (acceptingHash : Hash) (acceptingBlock : RpcBlock) (ids : List Hash) :
    List (PrefixType × PatternType) → ℕ → Required → Option (List Sent)
  | [], _, _ => some []
  | (prefixType, pattern) :: engines, consumedTxs, required => do
    let (associatedTxs, required) ← required.consume prefixType pattern ids
    let consumedTxs := consumedTxs + associatedTxs.length
    let msgs :=
      if associatedTxs = [] then []
      else [(prefixType, .blkAccepted {
        acceptingHash
        acceptingDaa := acceptingBlock.daaScore
        acceptingTime := acceptingBlock.timestamp / 1000
        associatedTxs })]
    if consumedTxs = ids.length then some msgs
    else do
      let rest ← dispatch acceptingHash acceptingBlock ids engines consumedTxs required
      some (msgs ++ rest)

def RpcBlockVerboseData.mergeSet (verbose : RpcBlockVerboseData) : List Hash :=
  verbose.mergeSetBluesHashes ++ verbose.mergeSetRedsHashes

/-- The body of the loop over new chain blocks: the messages sent. `acceptingBlock` is the
answer of `get_block` for the accepting block, `mergedBlock` its answer for each merged
block, by position; `none` is a failed call. -/
def newChainBlock (engines : EngineMap) (ncb : RpcAcceptedTransactionIds)
    (acceptingBlock : Option RpcBlock) (mergedBlock : ℕ → Hash → Option RpcBlock) :
    Option (List Sent) :=
  let ids := requiredTxs engines ncb.acceptedTransactionIds
  let required := Required.new ids
  if required.num = 0 then some []
  else
    match acceptingBlock with
    | none => some []
    | some acceptingBlock =>
      match acceptingBlock.verboseData with
      | none => some []
      | some verbose => do
        let blocks := verbose.mergeSet.mapIdx mergedBlock
        let required ← required.collectBlocks engines.txScriptBytes blocks
        if required.num ≠ 0 then some []
        else dispatch ncb.acceptingBlockHash acceptingBlock ids engines.entries 0 required

/-- The answers of the node during one iteration of the loop; `none` and `false` are failed
calls. Blocks are asked for by the position of the new chain block, and of the block in its
merge set. -/
structure Answers where
  virtualChain : Option VirtualChain
  connect : Bool
  sink : Option Hash
  acceptingBlock : ℕ → Hash → Option RpcBlock
  mergedBlock : ℕ → ℕ → Hash → Option RpcBlock

/-- The loop over new chain blocks, from the `i`th on. -/
def newChainBlocks (engines : EngineMap) (answers : Answers) :
    ℕ → List RpcAcceptedTransactionIds → Option (List Sent)
  | _, [] => some []
  | i, ncb :: ncbs => do
    let msgs ← newChainBlock engines ncb (answers.acceptingBlock i ncb.acceptingBlockHash)
      (answers.mergedBlock i)
    let rest ← newChainBlocks engines answers (i + 1) ncbs
    some (msgs ++ rest)

def blocksReverted (engines : EngineMap) (removedChainBlockHashes : List Hash) : List Sent :=
  removedChainBlockHashes.flatMap fun rcb =>
    engines.entries.map fun e => (e.1, .blkReverted rcb)

/-- One iteration: the new `sink` and the messages sent. -/
def poll (engines : EngineMap) (answers : Answers) (sink : Hash) : Option (Hash × List Sent) :=
  match answers.virtualChain with
  | none =>
    if answers.connect then some (answers.sink.getD sink, [])
    else some (sink, [])
  | some vcb =>
    match vcb.acceptedTransactionIds.getLast? with
    | none => some (sink, [])
    | some newSink => do
      let accepted ← newChainBlocks engines answers 0 vcb.acceptedTransactionIds
      some (newSink.acceptingBlockHash,
        blocksReverted engines vcb.removedChainBlockHashes ++ accepted)

/-- The first `sink`: `get_block_dag_info`, and again after a reconnect when it fails.
`none` is the return of a listener that never starts. -/
def firstSink (info : Option Hash) (connect : Bool) (infoAgain : Option Hash) : Option Hash :=
  match info with
  | some sink => some sink
  | none => if connect then infoAgain else none

end Kdapp
