import Kdapp.CommentBoard
import Kdapp.Funding
import Kdapp.TicTacToe.Mcp

/-! The tools of the MCP server that build transactions (`kdapp-mcp-server/src/tools.rs`). -/

namespace Kdapp
open Borsh
open CommentBoard (displayHash)

namespace TttCommand

def codec : Codec TttCommand where
  serialize
    | .move row col player => some [0, row, col, player]
  deserialize
    | 0 :: row :: col :: player :: bs => some (.move row col player, bs)
    | _ => none

end TttCommand

instance [Crypto] : Episode TicTacToeEpisode where
  Command := TttCommand
  CommandRollback := TttRollback
  CommandError := TicTacToeError
  World := Unit
  Fault := Fault
  codec := TttCommand.codec
  initializeWith participants _ := return TicTacToeEpisode.create participants
  execute self cmd authorization _ := StateT.lift (self.execute cmd authorization)
  rollback self rollback := StateT.lift (self.rollback rollback)

namespace Tools

/-- Of `serde_json`; a `float` is a number that is no integer. -/
inductive Value where
  | null
  | bool (b : Bool)
  | int (n : ℤ)
  | float
  | string (s : String)
  | array (items : List Value)
  | object (fields : List (String × Value))

namespace Value

def get (self : Value) (key : String) : Option Value :=
  match self with
  | .object fields => (fields.find? fun field => field.1 = key).map (·.2)
  | _ => none

def asStr : Value → Option String
  | .string s => some s
  | _ => none

def asI64 : Value → Option ℤ
  | .int n => if -2 ^ 63 ≤ n ∧ n < 2 ^ 63 then some n else none
  | _ => none

def asU64 : Value → Option UInt64
  | .int n => if 0 ≤ n ∧ n < 2 ^ 64 then some (UInt64.ofNat n.toNat) else none
  | _ => none

end Value

def PATTERN : PatternType := Vector.replicate 10 (0, 0)

def PREFIX : PrefixType := 0x12345678

def FEE : UInt64 := 2000

def addDigit (n : ℕ) (c : Char) : Except String ℕ :=
  if c.isDigit = false then .error "invalid digit found in string"
  else if 10 * n + (c.toNat - 48) < UInt32.size then .ok (10 * n + (c.toNat - 48))
  else .error "number too large to fit in target type"

/-- `str::parse::<EpisodeId>`. -/
def parseEpisodeId (text : String) : Except String EpisodeId :=
  match text.toList with
  | [] => .error "cannot parse integer from empty string"
  | ['+'] => .error "invalid digit found in string"
  | '+' :: digits => (digits.foldlM addDigit 0).map UInt32.ofNat
  | digits => (digits.foldlM addDigit 0).map UInt32.ofNat

def playerCode : Option Value → UInt8
  | some (.string s) =>
    if s.toUpper = "X" then 0
    else if s.toUpper = "O" then 1
    else 255
  | some p =>
    match p.asU64 with
    | some n => n.toUInt8
    | none => 255
  | none => 255

def parseCommand (command : Value) : Except String TttCommand :=
  if (command.get "type").bind Value.asStr = some "move" then
    let row := ((command.get "row").bind Value.asI64).getD (-1)
    let col := ((command.get "col").bind Value.asI64).getD (-1)
    let player := playerCode (command.get "player")
    if ¬ (0 ≤ row ∧ row ≤ 2) ∨ ¬ (0 ≤ col ∧ col ≤ 2) ∨ player > 1 then
      .error "Invalid move parameters"
    else .ok (.move (UInt8.ofNat row.toNat) (UInt8.ofNat col.toNat) player)
  else .error "Unsupported command type"

variable [Crypto] [AddressCrates]

structure AgentWallet where
  keypair : Consensus.Keypair
  mainnet : Bool

/-- What the tools use of the state: there is a client if the server runs with a node. -/
structure ServerState where
  nodeClient : Bool
  agent1Wallet : AgentWallet
  agent2Wallet : AgentWallet

/-- What a tool did: the transaction that it built beside the UTXO it spends, the message that it
sent to the engine, and the answer. `none` is a panic. -/
structure ToolCall where
  built : Option (Utxo × Tx)
  sent : Option EngineMsg
  result : Option (Except String Value)

def ToolCall.failed (msg : String) : ToolCall where
  built := none
  sent := none
  result := some (.error msg)

namespace AgentWallet
variable (self : AgentWallet)

def generator : TransactionGenerator where
  signer := self.keypair
  pattern := PATTERN
  prefixType := PREFIX

def addr (mainnet : Bool) : Consensus.Address :=
  AddressCrates.newAddress mainnet ((AddressCrates.publicKey self.keypair).serialize.drop 1)

def signed (episodeId : EpisodeId) (cmd : TttCommand) :
    Option (EpisodeMessage TicTacToeEpisode) :=
  EpisodeMessage.newSignedCommand episodeId cmd (AddressCrates.secretKey self.keypair)
    (AddressCrates.publicKey self.keypair)

end AgentWallet

/-- The message of an engine that learns of a command without a block. -/
def engineMsg (payload : Bytes) : EngineMsg :=
  .blkAccepted {
    acceptingHash := Hash.filled 0
    acceptingDaa := 0
    acceptingTime := 0
    associatedTxs := [(Hash.filled 0, payload, none)] }

namespace ServerState
variable (self : ServerState)

def wallet (signer : Option String) : AgentWallet :=
  if signer = some "agent2" then self.agent2Wallet else self.agent1Wallet

/-- The part of `execute_command` that is left out without a node: what was built, and the result
if the node took it. `none` is the panic of the generator. -/
def executeOnChain (wallet : AgentWallet) (signed : EpisodeMessage TicTacToeEpisode)
    (utxos : Consensus.Address → Except String (List Utxo)) (answer : Except String Unit) :
    Option (Option (Utxo × Tx) × Option Value) :=
  if self.nodeClient = false then some (none, none)
  else
    match utxos (wallet.addr false) with
    | .error _ => some (none, none)
    | .ok [] => some (none, none)
    | .ok (utxo :: _) =>
      (wallet.generator.buildCommandTransaction utxo (wallet.addr false) signed FEE).map fun tx =>
        (some (utxo, tx),
          match answer with
          | .error _ => none
          | .ok () => some (.object [("txid", .string (displayHash tx.id)),
              ("explorer_url",
                .string ("https://explorer-tn10.kaspa.org/txs/" ++ displayHash tx.id))]))

/-- `delivered` is the answer of the channel to the engine. -/
def executeCommand (episodeId : String) (command : Value) (signer : Option String)
    (utxos : Consensus.Address → Except String (List Utxo))
    (answer delivered : Except String Unit) : ToolCall :=
  match parseEpisodeId episodeId with
  | .error e => .failed ("Invalid episode ID: " ++ e)
  | .ok episodeId =>
    match parseCommand command with
    | .error e => .failed e
    | .ok cmd =>
      let wallet := self.wallet signer
      match wallet.signed episodeId cmd with
      | none => { built := none, sent := none, result := none }
      | some signed =>
        match self.executeOnChain wallet signed utxos answer with
        | none => { built := none, sent := none, result := none }
        -- the engine gets the command whether or not the node took the transaction
        | some (built, transactionResult) =>
          match EpisodeMessage.codec.serialize signed, delivered with
          | none, _ => { built, sent := none, result := none }
          | some _, .error e =>
            { built
              sent := none
              result := some (.error ("Failed to send message to engine: " ++ e)) }
          | some payload, .ok () =>
            { built
              sent := some (engineMsg payload)
              result := some (.ok (transactionResult.getD .null)) }

def submitCommandTx (episodeId : String) (command : Value) (signer : Option String)
    (utxos : Consensus.Address → Except String (List Utxo)) (answer : Except String Unit) :
    ToolCall :=
  match parseEpisodeId episodeId with
  | .error e => .failed ("Invalid episode ID: " ++ e)
  | .ok episodeId =>
    match parseCommand command with
    | .error e => .failed e
    | .ok cmd =>
      let wallet := self.wallet signer
      match wallet.signed episodeId cmd with
      | none => { built := none, sent := none, result := none }
      | some signed =>
        if self.nodeClient = false then .failed "node client not available"
        else
          let addr := wallet.addr wallet.mainnet
          match utxos addr with
          | .error e => .failed e
          | .ok [] => .failed "no UTXOs for signer address"
          | .ok (utxo :: _) =>
            match wallet.generator.buildCommandTransaction utxo addr signed FEE with
            | none => { built := none, sent := none, result := none }
            | some tx =>
              { built := some (utxo, tx)
                sent := none
                result := some (answer.map fun _ =>
                  .object [("txid", .string (displayHash tx.id))]) }

def dummyUtxo : Utxo :=
  (⟨Hash.filled 0, 0⟩,
    ⟨100000000, Consensus.payToAddressScript (self.agent1Wallet.addr false), 0, false⟩)

/-- What the answer of `generate_transaction` shows, for a drawn id. -/
def generateTransaction (dummyEpisodeId : EpisodeId) : Option Tx :=
  self.agent1Wallet.generator.buildCommandTransaction (G := TicTacToeEpisode) self.dummyUtxo
    (self.agent1Wallet.addr false) (.unsignedCommand dummyEpisodeId (TttCommand.move 0 0 0)) FEE

variable {self} {command : Value} {episodeId : String} {signer : Option String}
  {utxos : Consensus.Address → Except String (List Utxo)} {answer delivered : Except String Unit}
  {utxo : Utxo} {tx : Tx}

theorem executeOnChain_built {wallet : AgentWallet} {signed : EpisodeMessage TicTacToeEpisode}
    {transactionResult : Option Value}
    (h : self.executeOnChain wallet signed utxos answer =
      some (some (utxo, tx), transactionResult)) :
    (∃ entries, utxos (wallet.addr false) = .ok (utxo :: entries)) ∧
      wallet.generator.buildCommandTransaction utxo (wallet.addr false) signed FEE = some tx := by
  unfold executeOnChain at h
  split at h
  · cases h
  split at h
  · cases h
  · cases h
  rename_i first entries hutxos
  obtain ⟨built, hbuilt, hsame⟩ := Option.map_eq_some_iff.mp h
  cases hsame
  exact ⟨⟨entries, hutxos⟩, hbuilt⟩

theorem executeCommand_built
    (h : (self.executeCommand episodeId command signer utxos answer delivered).built =
      some (utxo, tx)) :
    (∃ entries, utxos ((self.wallet signer).addr false) = .ok (utxo :: entries)) ∧
      ∃ signed, (self.wallet signer).generator.buildCommandTransaction (G := TicTacToeEpisode)
        utxo ((self.wallet signer).addr false) signed FEE = some tx := by
  unfold executeCommand at h
  split at h
  · cases h
  split at h
  · cases h
  dsimp only at h
  split at h
  · cases h
  rename_i signed hsigned
  split at h
  · cases h
  rename_i built transactionResult hchain
  have hsame : built = some (utxo, tx) := by
    rw [← h]
    split <;> rfl
  rw [hsame] at hchain
  obtain ⟨hentries, hbuilt⟩ := executeOnChain_built hchain
  exact ⟨hentries, signed, hbuilt⟩

theorem submitCommandTx_built
    (h : (self.submitCommandTx episodeId command signer utxos answer).built = some (utxo, tx)) :
    (∃ entries, utxos ((self.wallet signer).addr (self.wallet signer).mainnet) =
      .ok (utxo :: entries)) ∧
      ∃ signed, (self.wallet signer).generator.buildCommandTransaction (G := TicTacToeEpisode)
        utxo ((self.wallet signer).addr (self.wallet signer).mainnet) signed FEE = some tx := by
  unfold submitCommandTx at h
  split at h
  · cases h
  split at h
  · cases h
  dsimp only at h
  split at h
  · cases h
  rename_i signed hsigned
  split at h
  · cases h
  split at h
  · cases h
  · cases h
  rename_i first entries hutxos
  split at h
  · cases h
  rename_i built hbuilt
  cases h
  exact ⟨⟨entries, hutxos⟩, signed, hbuilt⟩

theorem generateTransaction_balanced {dummyEpisodeId : EpisodeId}
    (h : self.generateTransaction dummyEpisodeId = some tx) :
    Balanced FEE self.dummyUtxo tx := by
  apply (balanced_of_covered_iff h).mpr
  have hcovered : FEE.toNat ≤ (100000000 : UInt64).toNat := by decide
  exact hcovered

end ServerState
end Tools
end Kdapp
