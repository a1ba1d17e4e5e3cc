import Kdapp.CommentIt.Submission
import Kdapp.CommentIt.BlockchainEngine
import Kdapp.Library.Transition

/-! The requests of the HTTP peer (`api/http/handlers`) and the messages it sends for them. All of
them are signed with the one wallet of the web participants. -/

namespace Kdapp.CommentIt
open FiniteMap
open CommentBoard (displayKey)
open Std (ExtTreeMap)

inductive StatusCode where
  | badRequest
  | notFound
  | requestTimeout
  | internalServerError
  | serviceUnavailable
deriving DecidableEq

structure AuthRequest where
  publicKey : String
  episodeId : Option UInt64

structure ChallengeRequest where
  episodeId : UInt64
  publicKey : Option String

structure VerifyRequest where
  episodeId : UInt64
  signature : String
  nonce : String

structure RevokeSessionRequest where
  episodeId : UInt64
  sessionToken : String
  signature : String

structure SimpleSubmitRequest where
  episodeId : UInt64
  text : String
  sessionToken : Option String

structure ChallengeResponse where
  episodeId : UInt64
  nonce : String
  transactionId : Option String
  status : String
deriving DecidableEq

structure VerifyResponse where
  episodeId : UInt64
  authenticated : Bool
  status : String
  transactionId : Option String
deriving DecidableEq

structure RevokeSessionResponse where
  episodeId : UInt64
  transactionId : String
  status : String

structure SimpleSubmitResponse where
  episodeId : UInt64
  transactionId : Option String
  status : String

/-- `u64` to `u32` by `try_into`. -/
def tryIntoU32 (episodeId : UInt64) : Option EpisodeId :=
  if episodeId.toNat < UInt32.size then some episodeId.toUInt32 else none

theorem tryIntoU32_iff {episodeId : UInt64} {id : EpisodeId} :
    tryIntoU32 episodeId = some id ↔ id.toUInt64 = episodeId := by
  unfold tryIntoU32
  constructor
  · intro h
    split at h
    · rename_i hlt
      obtain rfl := Option.some.inj h
      apply UInt64.toNat_inj.mp
      rw [UInt32.toNat_toUInt64, UInt64.toNat_toUInt32]
      exact Nat.mod_eq_of_lt hlt
    · cases h
  · rintro rfl
    have hlt : id.toUInt64.toNat < UInt32.size := by
      rw [UInt32.toNat_toUInt64]
      exact id.toNat_lt
    rw [if_pos hlt, UInt32.toUInt32_toUInt64]

theorem narrow_toUInt64 (episodeId : EpisodeId) : episodeId.toUInt64.toNat < 2 ^ 32 := by
  rw [UInt32.toNat_toUInt64]
  exact episodeId.toNat_lt

variable [Crypto]

namespace AuthWithCommentsEpisode
variable (self : AuthWithCommentsEpisode)

def isParticipantAuthenticated (participant : PubKey) : Bool :=
  self.authenticatedParticipants.contains (displayKey participant)

def getChallengeForParticipant (participant : PubKey) : Option String :=
  self.activeChallenges[displayKey participant]?

def isAuthenticated : Bool := !self.authenticatedParticipants.isEmpty

def owner : Option PubKey := self.creator

end AuthWithCommentsEpisode

variable [RandChaCha]

/-- What a handler does in the end: it answers, or sends a message and answers with what became of
it, or panics. -/
inductive Reply (R : Type) where
  | refuse (code : StatusCode)
  | respond (response : R)
  | submit (message : EpisodeMessage AuthWithCommentsEpisode)
      (response : Except String String → Except StatusCode R)
  | panic

def Reply.room {R : Type} : Reply R → Option EpisodeId
  | .submit message _ => some message.episodeId
  | .refuse _ | .respond _ | .panic => none

def ChallengeRequest.participantPubkey (req : ChallengeRequest)
    (blockchainEpisodes : SharedEpisodeState) : Option PubKey :=
  match req.publicKey with
  | some text => parsePublicKey text
  | none => blockchainEpisodes[req.episodeId]?.bind (·.owner)

/-- The part of `request_challenge` up to the submission, for a participant. -/
def requestChallengeMessage (req : ChallengeRequest) (participantPubkey : PubKey)
    (secretKey : Crypto.SecretKey) : Option (EpisodeMessage AuthWithCommentsEpisode) :=
  (tryIntoU32 req.episodeId).bind fun episodeId =>
    EpisodeMessage.newSignedCommand episodeId UnifiedCommand.requestChallenge secretKey
      participantPubkey

def challengeSubmitted : Except String String → String × String
  | .ok txId => (txId, "request_challenge_submitted")
  | .error _ => ("error", "request_challenge_failed")

/-- The part of `verify_auth` after its key is in the set. -/
def verifyAuth (blockchainEpisodes : SharedEpisodeState) (wallet : Option Crypto.SecretKey)
    (req : VerifyRequest) : Reply VerifyResponse :=
  if (blockchainEpisodes[req.episodeId]?.map (·.isAuthenticated)).getD false then
    .respond ⟨req.episodeId, true, "already_authenticated", none⟩
  else
    match wallet with
    | none => .refuse .internalServerError
    | some secretKey =>
      match tryIntoU32 req.episodeId with
      | none => .refuse .badRequest
      | some episodeId =>
        match EpisodeMessage.newSignedCommand episodeId
            (UnifiedCommand.submitResponse req.signature req.nonce) secretKey
            (Crypto.fromSecretKey secretKey) with
        | none => .panic
        | some message =>
          .submit message fun result =>
            .ok <| match result with
              | .ok txId => ⟨req.episodeId, false, "submit_response_submitted", some txId⟩
              | .error _ => ⟨req.episodeId, false, "submit_response_failed", some "error"⟩

theorem newSignedCommand_some {id : EpisodeId} {cmd : UnifiedCommand}
    {sk : Crypto.SecretKey} {pk : PubKey} {message : EpisodeMessage AuthWithCommentsEpisode}
    (h : EpisodeMessage.newSignedCommand id cmd sk pk = some message) :
    ∃ sig, message = .signedCommand id cmd pk sig := by
  unfold EpisodeMessage.newSignedCommand at h
  obtain ⟨msg, -, rfl⟩ := Option.map_eq_some_iff.mp h
  exact ⟨_, rfl⟩

theorem requestChallengeMessage_room {req : ChallengeRequest} {pk : PubKey}
    {sk : Crypto.SecretKey} {message : EpisodeMessage AuthWithCommentsEpisode}
    (h : requestChallengeMessage req pk sk = some message) :
    message.episodeId.toUInt64 = req.episodeId := by
  obtain ⟨episodeId, hid, hmessage⟩ := Option.bind_eq_some_iff.mp h
  obtain ⟨sig, rfl⟩ := newSignedCommand_some hmessage
  exact tryIntoU32_iff.mp hid

theorem verifyAuth_message {blockchainEpisodes : SharedEpisodeState}
    {wallet : Option Crypto.SecretKey} {req : VerifyRequest}
    {message : EpisodeMessage AuthWithCommentsEpisode}
    {response : Except String String → Except StatusCode VerifyResponse}
    (h : verifyAuth blockchainEpisodes wallet req = .submit message response) :
    ∃ (id : EpisodeId) (pk : PubKey) (sig : Sig), id.toUInt64 = req.episodeId ∧
      message =
        .signedCommand id (UnifiedCommand.submitResponse req.signature req.nonce) pk sig := by
  unfold verifyAuth at h
  split at h
  · cases h
  split at h
  · cases h
  split at h
  · cases h
  rename_i sk episodeId hid
  split at h
  · cases h
  rename_i built hbuilt
  cases h
  obtain ⟨sig, rfl⟩ := newSignedCommand_some hbuilt
  exact ⟨episodeId, _, sig, tryIntoU32_iff.mp hid, rfl⟩

/-- What the handlers read of the peer; `wallet` is the secret key of the web participant, and
`cached` says what the cache or the node, if there is one, answer. -/
structure PeerState [AddressCrates] where
  blockchainEpisodes : SharedEpisodeState
  peerKeypair : Crypto.SecretKey
  wallet : Option Crypto.SecretKey
  cached : Option (Consensus.Address → Except String (List Utxo))

section Handlers
variable [AddressCrates] (state : PeerState)

structure AuthResponse where
  episodeId : UInt64
  organizerPublicKey : String
  participantKaspaAddress : Consensus.Address
  transactionId : Option String
  status : String

def walletAddr (secretKey : Crypto.SecretKey) : Consensus.Address :=
  participantAddr (Crypto.fromSecretKey secretKey)

def xOnly (pk : PubKey) : String := CommentBoard.hex (pk.serialize.drop 1)

/-- `drawn` is the random id of a new room. -/
def startAuth (drawn : UInt64) (req : AuthRequest) : Reply AuthResponse :=
  match parsePublicKey req.publicKey with
  | none => .refuse .badRequest
  | some participantPubkey =>
    let episodeId := req.episodeId.getD drawn
    match state.wallet with
    | none => .refuse .internalServerError
    | some secretKey =>
      match state.cached with
      | none => .refuse .internalServerError
      | some cached =>
        match cached (walletAddr secretKey) with
        | .error _ => .refuse .internalServerError
        | .ok [] => .refuse .serviceUnavailable
        -- the submission selects among the UTXOs once more
        | .ok (_ :: _) =>
          .submit (.newEpisode episodeId.toUInt32 [participantPubkey]) fun result =>
            let (transactionId, status) := match result with
              | .ok txId => (txId,
                  if req.episodeId.isSome then "joined_existing_episode"
                  else "submitted_to_blockchain")
              | .error _ => ("error", "transaction_submission_failed")
            .ok {
              episodeId
              organizerPublicKey := xOnly (Crypto.fromSecretKey state.peerKeypair)
              participantKaspaAddress := participantAddr participantPubkey
              transactionId := some transactionId
              status }

/-- A room without an owner would be taken for one of the key of 33 twos. -/
def revokeSession (req : RevokeSessionRequest) : Reply RevokeSessionResponse :=
  match state.blockchainEpisodes[req.episodeId]? with
  | none => .refuse .notFound
  | some episode =>
    match episode.owner.or (Crypto.fromSlice (List.replicate 33 2)) with
    | none => .panic
    | some participantPubkey =>
      match state.wallet with
      | none => .refuse .internalServerError
      | some secretKey =>
        match tryIntoU32 req.episodeId with
        | none => .refuse .badRequest
        | some episodeId =>
          match EpisodeMessage.newSignedCommand episodeId
              (UnifiedCommand.revokeSession req.sessionToken req.signature) secretKey
              participantPubkey with
          | none => .panic
          | some message =>
            .submit message fun result =>
              .ok <| match result with
                | .ok txId => ⟨req.episodeId, txId, "session_revocation_submitted"⟩
                | .error _ => ⟨req.episodeId, "error", "session_revocation_failed"⟩

/-- `isMember` is the answer of the indexer, where it is asked. Who is a member is put down as
authenticated in the copy that the requests share. -/
def submitCommentSimple (isMember : Bool) (req : SimpleSubmitRequest) :
    SharedEpisodeState × Reply SimpleSubmitResponse :=
  match state.wallet with
  | none => (state.blockchainEpisodes, .refuse .badRequest)
  | some secretKey =>
    let publicKey := Crypto.fromSecretKey secretKey
    let blockchainEpisodes :=
      match state.blockchainEpisodes[req.episodeId]? with
      | none => state.blockchainEpisodes
      | some episode =>
        if !episode.isParticipantAuthenticated publicKey && isMember then
          state.blockchainEpisodes.insert req.episodeId { episode with
            authenticatedParticipants :=
              episode.authenticatedParticipants.insert (displayKey publicKey) }
        else state.blockchainEpisodes
    let cmd := UnifiedCommand.submitComment req.text (req.sessionToken.getD "")
    (blockchainEpisodes,
      match EpisodeMessage.newSignedCommand req.episodeId.toUInt32 cmd secretKey publicKey with
      | none => .panic
      | some message =>
        .submit message fun result =>
          match result with
          | .ok txId => .ok ⟨req.episodeId, some txId, "submitted"⟩
          | .error _ => .error .internalServerError)

end Handlers

section Rooms
variable [AddressCrates]

inductive SharedStep where
  | callback (call : HandlerCall AuthWithCommentsEpisode)
  | comment (state : PeerState) (isMember : Bool) (req : SimpleSubmitRequest)

def sharedStep (shared : SharedEpisodeState) : SharedStep → SharedEpisodeState
  | .callback call => HttpAuthHandler.handle shared call
  | .comment state isMember req =>
    (submitCommentSimple { state with blockchainEpisodes := shared } isMember req).1

/-- Every shared room is one of the engine's: its id is a `u32`. -/
def Narrow (shared : SharedEpisodeState) : Prop := ∀ key ∈ shared, key.toNat < 2 ^ 32

variable {shared : SharedEpisodeState} {state : PeerState} {id : UInt64}

omit [RandChaCha] [AddressCrates] in
theorem Narrow.insert (h : Narrow shared) (hid : id.toNat < 2 ^ 32)
    (episode : AuthWithCommentsEpisode) : Narrow (shared.insert id episode) := by
  intro key hkey
  rcases ExtTreeMap.mem_insert.mp hkey with heq | hbefore
  · rw [← Std.LawfulEqOrd.eq_of_compare heq]
    exact hid
  · exact h key hbefore

theorem submitCommentSimple_narrow (h : Narrow state.blockchainEpisodes) (isMember : Bool)
    (req : SimpleSubmitRequest) : Narrow (submitCommentSimple state isMember req).1 := by
  unfold submitCommentSimple
  split
  · exact h
  dsimp only
  split
  · exact h
  · rename_i episode hepisode
    split
    · exact h.insert (h req.episodeId (mem_of_some hepisode)) _
    · exact h

theorem Narrow.step (h : Narrow shared) (e : SharedStep) : Narrow (sharedStep shared e) := by
  cases e with
  | callback call =>
    cases call with
    | onInitialize episodeId episode => exact h.insert (narrow_toUInt64 episodeId) episode
    | onCommand episodeId episode cmd auth md => exact h.insert (narrow_toUInt64 episodeId) episode
    | onRollback episodeId episode => exact h
  | comment state isMember req =>
    apply submitCommentSimple_narrow
    exact h

theorem narrow_after (steps : List SharedStep) : Narrow (Transition.after sharedStep ∅ steps) := by
  induction steps using List.reverseRecOn with
  | nil => exact fun key hkey => absurd hkey ExtTreeMap.not_mem_empty
  | append_singleton steps e ih =>
    rw [Transition.after_concat]
    exact ih.step e

theorem startAuth_room {drawn : UInt64} {req : AuthRequest} {room : EpisodeId}
    (h : (startAuth state drawn req).room = some room) :
    room = (req.episodeId.getD drawn).toUInt32 := by
  unfold startAuth at h
  split at h
  · cases h
  dsimp only at h
  split at h
  · cases h
  split at h
  · cases h
  split at h
  · cases h
  · cases h
  · exact (Option.some.inj h).symm

omit [AddressCrates] in
theorem verifyAuth_room {wallet : Option Crypto.SecretKey} {req : VerifyRequest} {room : EpisodeId}
    (h : (verifyAuth shared wallet req).room = some room) : room.toUInt64 = req.episodeId := by
  cases hverify : verifyAuth shared wallet req with
  | submit message response =>
    rw [hverify] at h
    obtain ⟨id, pk, sig, hid, rfl⟩ := verifyAuth_message hverify
    obtain rfl := Option.some.inj h
    exact hid
  | refuse code =>
    rw [hverify] at h
    cases h
  | respond response =>
    rw [hverify] at h
    cases h
  | panic =>
    rw [hverify] at h
    cases h

theorem revokeSession_room {req : RevokeSessionRequest} {room : EpisodeId}
    (h : (revokeSession state req).room = some room) :
    room.toUInt64 = req.episodeId ∧ req.episodeId ∈ state.blockchainEpisodes := by
  unfold revokeSession at h
  split at h
  · cases h
  rename_i episode hepisode
  split at h
  · cases h
  split at h
  · cases h
  split at h
  · cases h
  rename_i episodeId hid
  split at h
  · cases h
  rename_i message hmessage
  obtain ⟨sig, rfl⟩ := newSignedCommand_some hmessage
  obtain rfl := Option.some.inj h
  exact ⟨tryIntoU32_iff.mp hid, mem_of_some hepisode⟩

theorem submitCommentSimple_room {isMember : Bool} {req : SimpleSubmitRequest} {room : EpisodeId}
    (h : (submitCommentSimple state isMember req).2.room = some room) :
    room = req.episodeId.toUInt32 := by
  unfold submitCommentSimple at h
  split at h
  · cases h
  dsimp only at h
  split at h
  · cases h
  rename_i message hmessage
  obtain ⟨sig, rfl⟩ := newSignedCommand_some hmessage
  exact (Option.some.inj h).symm

inductive Handler where
  | startAuth
  | requestChallenge
  | verifyAuth
  | revokeSession
  | submitCommentSimple
deriving DecidableEq

/-- A handler sends a message to a room when it is asked for the room of an id. -/
inductive Sends (state : PeerState) (id : UInt64) : Handler → EpisodeId → Prop
  | startAuth {drawn : UInt64} {req : AuthRequest} {room : EpisodeId}
    (hid : req.episodeId.getD drawn = id) (h : (startAuth state drawn req).room = some room) :
    Sends state id .startAuth room
  | requestChallenge {req : ChallengeRequest} {pk : PubKey} {sk : Crypto.SecretKey}
    {message : EpisodeMessage AuthWithCommentsEpisode} (hid : req.episodeId = id)
    (hpk : req.participantPubkey state.blockchainEpisodes = some pk)
    (h : requestChallengeMessage req pk sk = some message) :
    Sends state id .requestChallenge message.episodeId
  | verifyAuth {req : VerifyRequest} {room : EpisodeId} (hid : req.episodeId = id)
    (h : (verifyAuth state.blockchainEpisodes state.wallet req).room = some room) :
    Sends state id .verifyAuth room
  | revokeSession {req : RevokeSessionRequest} {room : EpisodeId} (hid : req.episodeId = id)
    (h : (revokeSession state req).room = some room) : Sends state id .revokeSession room
  | submitCommentSimple {isMember : Bool} {req : SimpleSubmitRequest} {room : EpisodeId}
    (hid : req.episodeId = id) (h : (submitCommentSimple state isMember req).2.room = some room) :
    Sends state id .submitCommentSimple room

theorem Sends.room {handler : Handler} {room : EpisodeId} (h : Sends state id handler room) :
    room.toUInt64 = id ∨
      room = id.toUInt32 ∧ (handler = .startAuth ∨ handler = .submitCommentSimple) := by
  cases h with
  | startAuth hid h =>
    rw [← hid]
    exact .inr ⟨startAuth_room h, .inl rfl⟩
  | requestChallenge hid hpk h => exact .inl ((requestChallengeMessage_room h).trans hid)
  | verifyAuth hid h => exact .inl ((verifyAuth_room h).trans hid)
  | revokeSession hid h => exact .inl ((revokeSession_room h).1.trans hid)
  | submitCommentSimple hid h =>
    rw [← hid]
    exact .inr ⟨submitCommentSimple_room h, .inr rfl⟩

def PeerState.sharing (state : PeerState) (steps : List SharedStep) : PeerState :=
  { state with blockchainEpisodes := Transition.after sharedStep ∅ steps }

/-- Whatever the callbacks and the comments made of the shared rooms: a message goes to the room of
the id modulo 2^32. Of the handlers that are asked for a larger id, only the one that opened the
room and the one for comments send anything, and none finds the room. -/
theorem wide_room_lost (state : PeerState) (steps : List SharedStep) (id : UInt64) :
    (∀ handler room, Sends (state.sharing steps) id handler room → room = id.toUInt32) ∧
      (2 ^ 32 ≤ id.toNat → id ∉ (state.sharing steps).blockchainEpisodes ∧
        ∀ handler room, Sends (state.sharing steps) id handler room →
          handler = .startAuth ∨ handler = .submitCommentSimple) := by
  constructor
  · intro handler room h
    rcases h.room with hroom | ⟨hroom, -⟩
    · rw [← hroom, UInt32.toUInt32_toUInt64]
    · exact hroom
  · intro hwide
    constructor
    · intro hmem
      exact absurd (narrow_after steps id hmem) (Nat.not_lt.mpr hwide)
    · intro handler room h
      rcases h.room with hroom | ⟨-, hhandler⟩
      · rw [← hroom] at hwide
        exact absurd (narrow_toUInt64 room) (Nat.not_lt.mpr hwide)
      · exact hhandler

end Rooms
end Kdapp.CommentIt
