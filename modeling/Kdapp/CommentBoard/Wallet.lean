import Kdapp.CommentBoard.Scripts
import Mathlib.Data.List.Sort

/-! The wallet that locks bonds (`comment-board/src/wallet/utxo_manager.rs`). A method takes
besides its arguments what the clock and the node tell it, and gives what was put to the node.
Arithmetic wraps, as in a release build. -/

namespace Kdapp.CommentBoard
open Borsh
open Std (ExtTreeMap)

def FEE : UInt64 := 5000

def utf8 (text : String) : Bytes := text.toByteArray.data.toList

/-- `str::contains`. -/
def contains (text pattern : String) : Bool := decide (pattern.toList <:+: text.toList)

variable [Crypto] [WalletCrates]

deriving instance DecidableEq for TransactionOutpoint

inductive BondEnforcementLevel where
  | applicationLayer (proofTransactionId : String)
  | scriptBased (scriptPubkey : Consensus.ScriptPublicKey)
    (unlockScriptCondition : ScriptUnlockCondition)

/-- The consensus that a vote has to reach is a float, and never read. -/
inductive UnlockCondition where
  | timeBasedRelease (unlockTime : UInt64)
  | communityVote (voteId : UInt64)
  | moderatorDecision (requiredSignatures : UInt8) (disputeId : UInt64)
  | forfeited (violationType : String)

structure LockedUtxo where
  outpoint : TransactionOutpoint
  entry : UtxoEntry Consensus.ScriptPublicKey
  commentId : UInt64
  bondAmount : UInt64
  lockTime : UInt64
  unlockConditions : UnlockCondition
  bondTransactionId : String
  confirmationHeight : Option UInt64
  bondAddress : Consensus.Address
  enforcementLevel : BondEnforcementLevel

structure UtxoLockManager where
  availableUtxos : List Utxo
  lockedUtxos : ExtTreeMap UInt64 LockedUtxo
  totalAvailableBalance : UInt64
  totalLockedBalance : UInt64
  kaspaAddress : Consensus.Address
  keypair : Consensus.Keypair
  pendingBonds : ExtTreeMap UInt64 String

inductive WalletError where
  | insufficientBalance (available required : UInt64)
  | massLimit (amount : UInt64)
  | noSuitableUtxo (required : UInt64) (available : List UInt64)
  | bondProof
  | invalidScriptConditions (reason : String)
  | scriptPublicKey (reason : String)
  | noUtxosForBond
  | noUtxosForComment
  | encodeEpisodeMsg
  | nonceOverflow
  | tooSmallToSplit
  | submission (msg : String)
  | notUnlockable
  | noBond (commentId : UInt64)
  | alreadyScriptBased
  | refresh (msg : String)
  /-- An index into no inputs. -/
  | panic

structure Built where
  inputs : List Utxo
  tx : Tx

inductive NodeEvent where
  | submitted (built : Built) (result : Except String Unit)
  | refreshed (entries : List Utxo)

abbrev Answers := ℕ → Except String Unit

/-- The loop of `submit_with_retry`, with so many attempts left. -/
def submitAttempts (answers : Answers) : ℕ → ℕ → Except String Unit
  | 0, attempts => answers attempts
  | left + 1, attempts =>
    match answers attempts with
    | .ok () => .ok ()
    | .error msg =>
      if contains msg "already accepted" then .ok ()
      else if left = 0 then .error msg
      else submitAttempts answers left (attempts + 1)

def submitWithRetry (answers : Answers) : Except String Unit := submitAttempts answers 3 0

/-- The sum of the amounts, as `sum` adds them up. -/
def amountsTotal (utxos : List Utxo) : UInt64 := utxos.foldl (fun sum u => sum + u.2.amount) 0

def smallestSuitable (minRequired : UInt64) : Option Utxo → List Utxo → Option Utxo
  | best, [] => best
  | best, u :: utxos =>
    if u.2.amount ≥ minRequired then
      match best with
      | none => smallestSuitable minRequired (some u) utxos
      | some b =>
        smallestSuitable minRequired (some (if u.2.amount < b.2.amount then u else b)) utxos
    else smallestSuitable minRequired best utxos

/-- Stable, as `sort_by_key`. -/
def sortByAmount (utxos : List Utxo) : List Utxo :=
  utxos.insertionSort fun a b => a.2.amount ≤ b.2.amount

/-- The loop of the coin selection: what is taken behind a total, and the total then. -/
def selectInputs (required : UInt64) : UInt64 → List Utxo → List Utxo × UInt64
  | total, [] => ([], total)
  | total, u :: utxos =>
    let total := Saturating.add total u.2.amount
    if total ≥ required then ([u], total)
    else
      let (inputs, total) := selectInputs required total utxos
      (u :: inputs, total)

def transactionInput (u : Utxo) : TransactionInput where
  previousOutpoint := u.1
  signatureScript := []
  sequence := 0
  sigOpCount := 1

/-- `Transaction::new_non_finalized`. -/
def newNonFinalized (version : UInt16) (subnetworkId : Bytes) (inputs : List Utxo)
    (outputs : List (TransactionOutput Consensus.ScriptPublicKey)) (payload : Bytes) : Tx where
  version
  inputs := inputs.map transactionInput
  outputs
  lockTime := 0
  subnetworkId
  gas := 0
  payload
  id := Hash.filled 0

/-- `Transaction::new` on the native subnetwork, version 0. -/
def newTransaction (inputs : List Utxo)
    (outputs : List (TransactionOutput Consensus.ScriptPublicKey)) (payload : Bytes) : Tx :=
  (newNonFinalized 0 (List.replicate 20 0) inputs outputs payload).finalize

namespace UtxoLockManager

/-- `new`, for an answer of the node. -/
def new (entries : List Utxo) (kaspaAddress : Consensus.Address) (keypair : Consensus.Keypair) :
    UtxoLockManager where
  availableUtxos := entries
  lockedUtxos := ∅
  totalAvailableBalance := amountsTotal entries
  totalLockedBalance := 0
  kaspaAddress
  keypair
  pendingBonds := ∅

/-- The manager, what a method returns, and what passed between it and the node. -/
abbrev Outcome (α : Type) := UtxoLockManager × Except WalletError α × List NodeEvent

variable (self : UtxoLockManager)

def getAvailableBalance : UInt64 := self.totalAvailableBalance - self.totalLockedBalance

def canAffordBond (bondAmount : UInt64) : Bool := decide (self.getAvailableBalance ≥ bondAmount)

def payToSelf (value : UInt64) : TransactionOutput Consensus.ScriptPublicKey where
  value
  scriptPublicKey := Consensus.payToAddressScript self.kaspaAddress

def sign (inputs : List Utxo) (tx : Tx) : Built where
  inputs
  tx := Consensus.sign tx (inputs.map (·.2)) self.keypair

/-- The transaction of `create_bond_transaction`. -/
def createBondTransaction (commentId bondAmount : UInt64) (source : Utxo) :
    Except WalletError Built :=
  let bondReference := "BOND:" ++ commentId.toNat.repr ++ ":" ++ bondAmount.toNat.repr
  let proofAmount := FEE * 2
  let changeAmount := source.2.amount - proofAmount
  if changeAmount < FEE then .error .bondProof
  else
    .ok (self.sign [source] (newTransaction [source]
      [self.payToSelf proofAmount, self.payToSelf changeAmount] (utf8 bondReference)))

def provenBond (commentId bondAmount now unlockTime : UInt64) (utxo : Utxo) (bondTxId : String) :
    LockedUtxo where
  outpoint := utxo.1
  entry := utxo.2
  commentId
  bondAmount
  lockTime := now
  unlockConditions := .timeBasedRelease unlockTime
  bondTransactionId := bondTxId
  confirmationHeight := none
  bondAddress := self.kaspaAddress
  enforcementLevel := .applicationLayer bondTxId

def lockUtxoForComment (commentId bondAmount lockDurationSeconds now : UInt64)
    (answers : Answers) : Outcome String :=
  if self.canAffordBond bondAmount = false then
    (self, .error (.insufficientBalance self.getAvailableBalance bondAmount), [])
  else
    let minRequired := FEE * 2 + 1000
    match smallestSuitable minRequired none self.availableUtxos with
    | none =>
      (self, .error (.noSuitableUtxo minRequired (self.availableUtxos.map (·.2.amount))), [])
    | some utxo =>
      if utxo.2.amount > 100000 then (self, .error (.massLimit utxo.2.amount), [])
      else
        match self.createBondTransaction commentId bondAmount utxo with
        | .error e => (self, .error e, [])
        | .ok built =>
          match submitWithRetry answers with
          | .error msg =>
            (self, .error (.submission msg), [.submitted built (.error msg)])
          | .ok () =>
            let bondTxId := displayHash built.tx.id
            let lockedUtxo :=
              self.provenBond commentId bondAmount now (now + lockDurationSeconds) utxo bondTxId
            ({ self with
              pendingBonds := self.pendingBonds.insert commentId bondTxId
              lockedUtxos := self.lockedUtxos.insert commentId lockedUtxo
              totalLockedBalance := self.totalLockedBalance + bondAmount },
              .ok bondTxId, [.submitted built (.ok ())])

def scriptCondition (unlockTime : UInt64) (moderatorPubkeys : Option (List PubKey))
    (requiredModeratorSignatures : Option UInt64) : ScriptUnlockCondition :=
  let userPubkey := WalletCrates.publicKey self.keypair
  match moderatorPubkeys, requiredModeratorSignatures with
  | some modPubkeys, some requiredSigs =>
    .timeOrModerator unlockTime userPubkey modPubkeys requiredSigs
  | _, _ => .timeLock unlockTime userPubkey

def bondOutputs (bondOutput : TransactionOutput Consensus.ScriptPublicKey)
    (selectedTotal bondAmount : UInt64) : List (TransactionOutput Consensus.ScriptPublicKey) :=
  let changeValue := Saturating.sub selectedTotal (bondAmount + FEE)
  if changeValue > 0 then [bondOutput, self.payToSelf changeValue] else [bondOutput]

/-- The coin selection and the transaction of `create_script_based_bond`. -/
def scriptBondTransaction (commentId bondAmount : UInt64)
    (scriptPubkey : Consensus.ScriptPublicKey) : Except WalletError Built :=
  let requiredTotal := bondAmount + FEE
  let (selectedInputs, selectedTotal) :=
    selectInputs requiredTotal 0 (sortByAmount self.availableUtxos)
  if selectedTotal < requiredTotal then .error .noUtxosForBond
  else
    let bondPayload := "SCRIPT_BOND:" ++ commentId.toNat.repr ++ ":" ++ bondAmount.toNat.repr ++
      ":" ++ (WalletCrates.script scriptPubkey).length.repr
    .ok (self.sign selectedInputs (newNonFinalized Consensus.txVersion
      Consensus.subnetworkIdNative selectedInputs
      (self.bondOutputs { value := bondAmount, scriptPublicKey := scriptPubkey } selectedTotal
        bondAmount)
      (utf8 bondPayload)))

/-- A bond of the second phase, under the first of the UTXOs that were spent for it. -/
def scriptBond (commentId bondAmount now unlockTime : UInt64) (first : Utxo) (txId : String)
    (scriptPubkey : Consensus.ScriptPublicKey) (condition : ScriptUnlockCondition) :
    LockedUtxo where
  outpoint := first.1
  entry := first.2
  commentId
  bondAmount
  lockTime := now
  unlockConditions := .timeBasedRelease unlockTime
  bondTransactionId := txId
  confirmationHeight := none
  bondAddress := self.kaspaAddress
  enforcementLevel := .scriptBased scriptPubkey condition

/-- It is submitted once, without `submit_with_retry`. -/
def createScriptBasedBond (commentId bondAmount lockDurationSeconds : UInt64)
    (moderatorPubkeys : Option (List PubKey)) (requiredModeratorSignatures : Option UInt64)
    (now : UInt64) (answer : Except String Unit) : Outcome String :=
  if self.canAffordBond bondAmount = false then
    (self, .error (.insufficientBalance self.getAvailableBalance bondAmount), [])
  else
    let unlockTime := now + lockDurationSeconds
    let condition := self.scriptCondition unlockTime moderatorPubkeys requiredModeratorSignatures
    match validateScriptConditions condition now with
    | .error reason => (self, .error (.invalidScriptConditions reason), [])
    | .ok () =>
      match createBondScriptPubkey condition with
      | .error reason => (self, .error (.scriptPublicKey reason), [])
      | .ok scriptPubkey =>
        match self.scriptBondTransaction commentId bondAmount scriptPubkey with
        | .error e => (self, .error e, [])
        | .ok built =>
          match answer, built.inputs with
          | .ok (), first :: _ =>
            let txId := displayHash built.tx.id
            let lockedUtxo :=
              self.scriptBond commentId bondAmount now unlockTime first txId scriptPubkey condition
            ({ self with
              pendingBonds := self.pendingBonds.insert commentId txId
              lockedUtxos := self.lockedUtxos.insert commentId lockedUtxo
              totalLockedBalance := self.totalLockedBalance + bondAmount },
              .ok txId, [.submitted built (.ok ())])
          | .error msg, _ => (self, .error (.submission msg), [.submitted built (.error msg)])
          -- `selected_inputs[0]` is reached only once the node has the transaction
          | .ok (), [] => (self, .error .panic, [.submitted built (.ok ())])

/-- `bond_output` of `submit_comment_with_bond_payload`. -/
def commentBondOutput (bondAmount unlockTime : UInt64) (useScriptBonds : Bool) :
    TransactionOutput Consensus.ScriptPublicKey :=
  if useScriptBonds then
    match createBondScriptPubkey (.timeLock unlockTime (WalletCrates.publicKey self.keypair)) with
    | .ok spk => { value := bondAmount, scriptPublicKey := spk }
    | .error _ => self.payToSelf bondAmount
  else self.payToSelf bondAmount

/-- The coin selection and the transaction of one attempt of
`submit_comment_with_bond_payload`. -/
def commentTransaction (inner : Bytes) (bondAmount lockDurationSeconds : UInt64)
    (pattern : PatternType) (prefixType : PrefixType) (useScriptBonds : Bool) (now : UInt64) :
    Except WalletError Built :=
  let requiredTotal := bondAmount + FEE
  let (selectedInputs, selectedTotal) :=
    selectInputs requiredTotal 0 (sortByAmount self.availableUtxos)
  if selectedTotal < requiredTotal then .error .noUtxosForComment
  else
    let bondOutput := self.commentBondOutput bondAmount (now + lockDurationSeconds) useScriptBonds
    let unsigned := (newNonFinalized Consensus.txVersion Consensus.subnetworkIdNative
      selectedInputs (self.bondOutputs bondOutput selectedTotal bondAmount)
      (Payload.packHeader inner prefixType)).finalize
    match TransactionGenerator.findNonce pattern 0 unsigned with
    | none => .error .nonceOverflow
    | some unsigned => .ok (self.sign selectedInputs unsigned)

/-- The UTXOs and their total are replaced by what the node answers. -/
def refreshUtxos (answer : Except String (List Utxo)) : Outcome Unit :=
  match answer with
  | .error msg => (self, .error (.refresh msg), [])
  | .ok entries =>
    ({ self with
      availableUtxos := entries
      totalAvailableBalance := amountsTotal entries }, .ok (), [.refreshed entries])

def retryComment (transaction : UtxoLockManager → Except WalletError Built) (answers : Answers)
    (refreshAnswer : Except String (List Utxo)) : Outcome String :=
  let (manager, _, events) := self.refreshUtxos refreshAnswer
  match transaction manager with
  | .error e => (manager, .error e, events)
  | .ok built =>
    match submitWithRetry answers with
    | .ok () =>
      (manager, .ok (displayHash built.tx.id), events ++ [.submitted built (.ok ())])
    | .error msg =>
      (manager, .error (.submission msg), events ++ [.submitted built (.error msg)])

def submitCommentWithBondPayload (episodeMsg : EpisodeMessage ContractCommentBoard)
    (bondAmount lockDurationSeconds : UInt64) (pattern : PatternType) (prefixType : PrefixType)
    (useScriptBonds : Bool) (now now' : UInt64) (answers answers' : Answers)
    (refreshAnswer : Except String (List Utxo)) : Outcome String :=
  match EpisodeMessage.codec.serialize episodeMsg with
  | none => (self, .error .encodeEpisodeMsg, [])
  | some inner =>
    match self.commentTransaction inner bondAmount lockDurationSeconds pattern prefixType
      useScriptBonds now with
    | .error e => (self, .error e, [])
    | .ok built =>
      match submitWithRetry answers with
      | .ok () => (self, .ok (displayHash built.tx.id), [.submitted built (.ok ())])
      | .error msg =>
        if contains msg "orphan" then
          let (manager, result, events) := self.retryComment
            (fun manager => manager.commentTransaction inner bondAmount lockDurationSeconds pattern
              prefixType useScriptBonds now') answers' refreshAnswer
          (manager, result, .submitted built (.error msg) :: events)
        else (self, .error (.submission msg), [.submitted built (.error msg)])

/-- The transaction of `split_large_utxo`. -/
def splitTransaction (targetChunkSize : UInt64) (large : Utxo) : Except WalletError Built :=
  let availableAmount := Saturating.sub large.2.amount FEE
  if availableAmount ≤ targetChunkSize + 1000 then .error .tooSmallToSplit
  else
    let microAmount := targetChunkSize
    let changeAmount := availableAmount - microAmount
    .ok (self.sign [large] (newTransaction [large]
      [self.payToSelf microAmount, self.payToSelf changeAmount] []))

def splitLargeUtxo (maxUtxoSize targetChunkSize : UInt64) (answers : Answers) : Outcome Unit :=
  match self.availableUtxos.find? fun u => decide (u.2.amount > maxUtxoSize) with
  | none => (self, .ok (), [])
  | some large =>
    match self.splitTransaction targetChunkSize large with
    | .error e => (self, .error e, [])
    | .ok built =>
      match submitWithRetry answers with
      | .ok () =>
        ({ self with
          availableUtxos := self.availableUtxos.filter fun u => decide (u.1 ≠ large.1) },
          .ok (), [.submitted built (.ok ())])
      | .error msg => (self, .error (.submission msg), [.submitted built (.error msg)])

def canUnlockBond (commentId now : UInt64) : Bool :=
  match self.lockedUtxos[commentId]? with
  | some lockedUtxo =>
    match lockedUtxo.unlockConditions with
    | .timeBasedRelease unlockTime => decide (now ≥ unlockTime)
    | _ => false
  | none => false

def removeBond (commentId : UInt64) : Outcome UInt64 :=
  match self.lockedUtxos[commentId]? with
  | some lockedUtxo =>
    ({ self with
      lockedUtxos := self.lockedUtxos.erase commentId
      totalLockedBalance := self.totalLockedBalance - lockedUtxo.bondAmount },
      .ok lockedUtxo.bondAmount, [])
  | none => (self, .error (.noBond commentId), [])

def unlockBond (commentId now : UInt64) : Outcome UInt64 :=
  if self.canUnlockBond commentId now = false then (self, .error .notUnlockable, [])
  else self.removeBond commentId

def forfeitBond (commentId : UInt64) : Outcome UInt64 := self.removeBond commentId

def remainingLockTime (unlockConditions : UnlockCondition) (now : UInt64) : UInt64 :=
  match unlockConditions with
  | .timeBasedRelease unlockTime => if unlockTime > now then unlockTime - now else 600
  | _ => 600

def upgradeBondToScriptBased (commentId : UInt64) (moderatorPubkeys : Option (List PubKey))
    (requiredModeratorSignatures : Option UInt64) (now now' : UInt64)
    (answer : Except String Unit) : Outcome String :=
  match self.lockedUtxos[commentId]? with
  | none => (self, .error (.noBond commentId), [])
  | some existingBond =>
    match existingBond.enforcementLevel with
    | .scriptBased _ _ => (self, .error .alreadyScriptBased, [])
    | .applicationLayer _ =>
      match self.createScriptBasedBond (commentId + 1000000) existingBond.bondAmount
        (remainingLockTime existingBond.unlockConditions now) moderatorPubkeys
        requiredModeratorSignatures now' answer with
      | (manager, .ok newBondTxId, events) =>
        -- the bond that is replaced leaves its amount in the total
        ({ manager with
          lockedUtxos := manager.lockedUtxos.erase commentId
          pendingBonds := manager.pendingBonds.erase commentId }, .ok newBondTxId, events)
      | (manager, .error e, events) => (manager, .error e, events)

end UtxoLockManager
end Kdapp.CommentBoard
