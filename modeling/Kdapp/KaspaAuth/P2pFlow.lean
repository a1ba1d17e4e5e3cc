import Kdapp.Engine.Isolation
import Kdapp.Funding
import Kdapp.KaspaAuth.RateLimit
import Kdapp.Library.Transition

/-! A participant signs in at an organizer over the chain (`run_p2p_authentication_flow` of
`daemon/service.rs`): three transactions, each paid with what the one before left over, and the
status of the organizer (`get_status` and `HttpAuthHandler` of `api/http`) between them. Others
send what they like to the organizer's engine in the meantime. -/

namespace Kdapp.KaspaAuth
open Borsh FiniteMap Outcome InOrder Transition
open Std (ExtTreeMap)
open CommentBoard (hex)

def AUTH_PATTERN : PatternType :=
  #[(7, 0), (32, 1), (45, 0), (99, 1), (113, 0), (126, 1), (189, 0), (200, 1), (211, 0),
    (250, 1)].toVector

def AUTH_PREFIX : PrefixType := 0x41555448

variable [Crypto]

/-- `SharedEpisodeState`. -/
abbrev SharedEpisodeState := ExtTreeMap EpisodeId SimpleAuth

/-- The fields of the answer of `get_status`. -/
structure AuthStatus where
  episodeId : EpisodeId
  authenticated : Bool
  status : String
  challenge : Option String
  sessionToken : Option String
  blockchainConfirmed : Bool
  publicKey : Option String

def getStatus (blockchainEpisodes : SharedEpisodeState) (episodeId : EpisodeId) : AuthStatus :=
  match blockchainEpisodes[episodeId]? with
  | some episode => {
      episodeId
      authenticated := episode.isAuthenticated
      status := if episode.isAuthenticated then "authenticated" else "pending"
      challenge := episode.challenge
      sessionToken := episode.sessionToken
      blockchainConfirmed := true
      publicKey := episode.owner.map fun pk => hex pk.serialize }
  | none => {
      episodeId
      authenticated := false
      status := "episode_not_found"
      challenge := none
      sessionToken := none
      blockchainConfirmed := false
      publicKey := none }

section Handler
variable [RandChaCha]

/-- `HttpAuthHandler`, as far as the shared state goes: a rollback is only logged. -/
def HttpAuthHandler.record (blockchainEpisodes : SharedEpisodeState) :
    HandlerCall SimpleAuth → SharedEpisodeState
  | .onInitialize episodeId episode => blockchainEpisodes.insert episodeId episode
  | .onCommand episodeId episode _ _ _ => blockchainEpisodes.insert episodeId episode
  | .onRollback _ _ => blockchainEpisodes

end Handler

variable [AddressCrates]

namespace P2pFlow

inductive FlowError where
  /-- Of the client or the node. -/
  | node (error : String)
  | noUtxos
  | noChallenge
  | noSessionToken

/-- Where the flow stands; the number is how often it will still poll if this poll fails. -/
inductive Phase where
  | connecting
  | requesting (utxo : Utxo)
  | awaitingChallenge (utxo : Utxo) (left : ℕ)
  | answering (utxo : Utxo) (challenge : String)
  | awaitingToken (left : ℕ)
  | returned (result : Except FlowError String)
  /-- Of the generator, or of `to_message`. -/
  | panicked

/-- A transaction of a block that the engine is told of: the next one of the participant's own, or
somebody else's. -/
inductive Carried where
  | own (txOutputs : Option (List TxOutputInfo))
  | other (tx : Hash × Bytes × Option (List TxOutputInfo))

/-- The transactions of a block, and those of the participant that are left. -/
def carry : List Carried → List Tx → List (Hash × Bytes × Option (List TxOutputInfo)) × List Tx
  | [], pending => ([], pending)
  | .other tx :: carried, pending =>
    let (txs, pending) := carry carried pending
    (tx :: txs, pending)
  | .own _ :: carried, [] => carry carried []
  | .own txOutputs :: carried, tx :: pending =>
    let (txs, pending) := carry carried pending
    ((tx.id, tx.payload.drop 8, txOutputs) :: txs, pending)

inductive Event where
  | connects (entries : Except String (List Utxo)) (answer : Except String Unit)
  | requests (answer : Except String Unit)
  | polls (reached : Bool)
  | responds (answer : Except String Unit)
  /-- A block with the transactions that are carried. -/
  | accepts (blk : BlkAccepted) (carried : List Carried)
  | reverts (acceptingHash : Hash)
  | clock (now : UInt64)

/-- The participant and the organizer, and what the node was given and has put into no block. Each
of these transactions spends an output of the one before, so they are accepted in order. -/
structure State [RandChaCha] where
  phase : Phase
  pending : List Tx
  engine : Engine SimpleAuth
  blockchainEpisodes : SharedEpisodeState

end P2pFlow

/-- A run of the flow: the keypair of the wallet, and the id that is drawn. -/
structure P2pFlow where
  keypair : Consensus.Keypair
  episodeId : EpisodeId

namespace P2pFlow
variable (self : P2pFlow)

def participantPubkey : PubKey := AddressCrates.publicKey self.keypair

def generator : TransactionGenerator where
  signer := self.keypair
  pattern := AUTH_PATTERN
  prefixType := AUTH_PREFIX

def kaspaAddr : Consensus.Address :=
  AddressCrates.newAddress false (self.participantPubkey.serialize.drop 1)

/-- `none` is a panic of `to_message`, which a text of 2^32 bytes would cause. -/
def response (challenge : String) : Option AuthCommand :=
  (SignatureVerifier.digest challenge).map fun msg =>
    let signature := signMessage (AddressCrates.secretKey self.keypair) msg
    .submitResponse (hex (Crypto.serializeDer signature)) challenge

def pollChallenge (utxo : Utxo) (left : ℕ) (status : Option AuthStatus) : Phase :=
  match status.bind (·.challenge), left with
  | some challenge, _ =>
    -- an empty one ends the loop too, and the flow then fails
    if challenge = "" then .returned (.error .noChallenge) else .answering utxo challenge
  | none, 0 => .returned (.error .noChallenge)
  | none, left + 1 => .awaitingChallenge utxo left

def pollToken (left : ℕ) (status : Option AuthStatus) : Phase :=
  match (status.bind (·.sessionToken)).filter (· ≠ ""), left with
  | some token, _ => .returned (.ok token)
  | none, 0 => .returned (.error .noSessionToken)
  | none, left + 1 => .awaitingToken left

def goOn (next : Utxo → Phase) (tx : Tx) : Phase :=
  match getFirstOutputUtxo tx with
  | none => .panicked
  | some utxo => next utxo

variable [RandChaCha]

def newEpisodeMsg : EpisodeMessage SimpleAuth :=
  .newEpisode self.episodeId [self.participantPubkey]

def signed (authCommand : AuthCommand) : Option (EpisodeMessage SimpleAuth) :=
  EpisodeMessage.newSignedCommand self.episodeId authCommand
    (AddressCrates.secretKey self.keypair) self.participantPubkey

variable (s : State)

def submit (utxo : Utxo) (step : Option (EpisodeMessage SimpleAuth)) (answer : Except String Unit)
    (next : Tx → Phase) : State :=
  match step.bind fun step =>
    self.generator.buildCommandTransaction utxo self.kaspaAddr step 5000 with
  | none => { s with phase := .panicked }
  | some tx => { s with
      pending := s.pending ++ [tx]
      phase := match answer with
        | .error e => .returned (.error (.node e))
        | .ok () => next tx }

def statusOf (reached : Bool) : Option AuthStatus :=
  if reached then some (getStatus s.blockchainEpisodes self.episodeId) else none

def act : Phase → Event → State
  | .connecting, .connects (.error e) _ => { s with phase := .returned (.error (.node e)) }
  | .connecting, .connects (.ok []) _ => { s with phase := .returned (.error .noUtxos) }
  | .connecting, .connects (.ok (utxo :: _)) answer =>
    self.submit s utxo (some self.newEpisodeMsg) answer (goOn .requesting)
  | .requesting utxo, .requests answer =>
    self.submit s utxo (self.signed .requestChallenge) answer
      (goOn fun utxo => .awaitingChallenge utxo 9)
  | .awaitingChallenge utxo left, .polls reached =>
    { s with phase := pollChallenge utxo left (self.statusOf s reached) }
  | .answering utxo challenge, .responds answer =>
    self.submit s utxo ((self.response challenge).bind self.signed) answer
      fun _ => .awaitingToken 9
  | .awaitingToken left, .polls reached =>
    { s with phase := pollToken left (self.statusOf s reached) }
  | _, _ => s

/-- The engine that runs an organizer panics at nothing it receives, see `acceptBlock_total` and
`revertBlock_total`. -/
def State.told (s : State) :
    Except (Panic SimpleAuth) (Engine SimpleAuth × List (HandlerCall SimpleAuth)) → State
  | .ok (engine, calls) => { s with
      engine
      blockchainEpisodes := calls.foldl HttpAuthHandler.record s.blockchainEpisodes }
  | .error _ => s

def step : Event → State
  | .accepts blk carried =>
    let (associatedTxs, pending) := carry carried s.pending
    { s with pending }.told (s.engine.acceptBlock { blk with associatedTxs })
  | .reverts acceptingHash => s.told (s.engine.revertBlock acceptingHash)
  | .clock now => { s with engine := { s.engine with world := now } }
  | e => self.act s s.phase e

def run (engine : Engine SimpleAuth) (blockchainEpisodes : SharedEpisodeState)
    (events : List Event) : State :=
  after self.step ⟨.connecting, [], engine, blockchainEpisodes⟩ events

end P2pFlow
end Kdapp.KaspaAuth
