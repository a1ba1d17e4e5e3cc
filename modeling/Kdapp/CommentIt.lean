import Kdapp.Auth

/-! The comment room of `comment-it` (`core/episode.rs`, `core/commands.rs`, `core/types.rs`,
`core/errors.rs`): its participants answer a challenge before they comment. -/

namespace Kdapp.CommentIt
open Borsh
open Std (ExtTreeMap ExtTreeSet)
open CommentBoard (blank displayKey)

inductive AuthError where
  | challengeNotFound
  | invalidChallenge
  | signatureVerificationFailed
  | alreadyAuthenticated
  | notAuthorized
  | rateLimited
  | invalidSignature
  | challengeExpired
  | sessionNotFound
  | invalidSessionToken
  | sessionAlreadyRevoked
  | commentTooLong
  | commentEmpty
  | notAuthenticated
deriving DecidableEq

inductive UnifiedCommand where
  | requestChallenge
  | submitResponse (signature nonce : String)
  | revokeSession (sessionToken signature : String)
  | submitComment (text sessionToken : String)
deriving DecidableEq

namespace UnifiedCommand

def texts : Codec (String × String) := Codec.string.pair Codec.string

def codec : Codec UnifiedCommand where
  serialize
    | .requestChallenge => some [0]
    | .submitResponse signature nonce => (texts.serialize (signature, nonce)).map (1 :: ·)
    | .revokeSession sessionToken signature =>
      (texts.serialize (sessionToken, signature)).map (2 :: ·)
    | .submitComment text sessionToken => (texts.serialize (text, sessionToken)).map (3 :: ·)
  deserialize
    | 0 :: bs => some (.requestChallenge, bs)
    | 1 :: bs => (texts.deserialize bs).map fun ((signature, nonce), bs) =>
      (.submitResponse signature nonce, bs)
    | 2 :: bs => (texts.deserialize bs).map fun ((sessionToken, signature), bs) =>
      (.revokeSession sessionToken signature, bs)
    | 3 :: bs => (texts.deserialize bs).map fun ((text, sessionToken), bs) =>
      (.submitComment text sessionToken, bs)
    | _ => none

theorem codec_lawful : codec.Lawful := by
  have htexts : texts.Lawful := Codec.string_lawful.pair Codec.string_lawful
  intro cmd bs rest hs
  cases cmd with
  | requestChallenge =>
    cases hs
    rfl
  | submitResponse signature nonce =>
    obtain ⟨x, hbs, hx⟩ := htexts.tagged rest hs
    simp only [codec, hbs, hx, Option.map_some]
  | revokeSession sessionToken signature =>
    obtain ⟨x, hbs, hx⟩ := htexts.tagged rest hs
    simp only [codec, hbs, hx, Option.map_some]
  | submitComment text sessionToken =>
    obtain ⟨x, hbs, hx⟩ := htexts.tagged rest hs
    simp only [codec, hbs, hx, Option.map_some]

end UnifiedCommand

inductive UnifiedRollback where
  | challenge (participantKey : String) (previousParticipant : Option Unit)
  | authentication (participantKey : String) (wasPreviouslyAuthenticated : Bool)
  | sessionRevoked (participantKey : String) (wasPreviouslyAuthenticated : Bool)
  | commentAdded (commentId : ℕ)
deriving DecidableEq

/-- The ids count the comments, which are kept in memory: they stay far below 2^64. -/
structure Comment where
  id : ℕ
  text : String
  author : String
  timestamp : UInt64
deriving DecidableEq

variable [Crypto]

structure AuthWithCommentsEpisode where
  creator : Option PubKey
  createdAt : UInt64
  authenticatedParticipants : ExtTreeSet String
  /-- No participant gets beyond five attempts. -/
  rateLimits : ExtTreeMap String ℕ
  authorizedParticipants : List PubKey
  activeChallenges : ExtTreeMap String String
  comments : List Comment
  nextCommentId : ℕ

namespace AuthWithCommentsEpisode

/-- `Episode::initialize`. -/
def create (participants : List PubKey) (metadata : PayloadMetadata) :
    AuthWithCommentsEpisode where
  creator := participants.head?
  createdAt := metadata.acceptingTime
  authenticatedParticipants := ∅
  rateLimits := ∅
  authorizedParticipants := participants
  activeChallenges := ∅
  comments := []
  nextCommentId := 1

/-- The room after an `execute` and what it returned. -/
abbrev Executed := AuthWithCommentsEpisode × Except (EpisodeError AuthError) UnifiedRollback

variable (self : AuthWithCommentsEpisode) (participant : PubKey) (metadata : PayloadMetadata)

def isRateLimited : Bool :=
  match self.rateLimits[displayKey participant]? with
  | some attempts => decide (attempts ≥ 5)
  | none => false

def incrementRateLimit : ExtTreeMap String ℕ :=
  self.rateLimits.insert (displayKey participant)
    ((self.rateLimits[displayKey participant]?).getD 0 + 1)

def reject (e : EpisodeError AuthError) : Executed := (self, .error e)

def executeRequestChallenge [RandChaCha] : Executed :=
  let participantKey := displayKey participant
  if participantKey ∈ self.authenticatedParticipants then
    self.reject (.invalidCommand .alreadyAuthenticated)
  else
    let newChallenge := ChallengeGenerator.generateWithProvidedTimestamp metadata.acceptingTime
    ({ self with
      activeChallenges := self.activeChallenges.insert participantKey newChallenge
      rateLimits := self.incrementRateLimit participant },
      .ok (.challenge participantKey none))

def executeSubmitResponse (signature nonce : String) : Executed :=
  let participantKey := displayKey participant
  if participantKey ∈ self.authenticatedParticipants then
    self.reject (.invalidCommand .alreadyAuthenticated)
  -- the nonce of the command, not the active challenge
  else if SignatureVerifier.verify participant nonce signature = false then
    self.reject (.invalidCommand .signatureVerificationFailed)
  else
    ({ self with
      authenticatedParticipants := self.authenticatedParticipants.insert participantKey
      activeChallenges := self.activeChallenges.erase participantKey },
      .ok (.authentication participantKey (self.authenticatedParticipants.contains participantKey)))

def executeRevokeSession (sessionToken signature : String) : Executed :=
  let participantKey := displayKey participant
  if participantKey ∉ self.authenticatedParticipants then
    self.reject (.invalidCommand .sessionNotFound)
  else if SignatureVerifier.verify participant sessionToken signature = false then
    self.reject (.invalidCommand .signatureVerificationFailed)
  else
    ({ self with authenticatedParticipants := self.authenticatedParticipants.erase participantKey },
      .ok (.sessionRevoked participantKey (self.authenticatedParticipants.contains participantKey)))

def executeSubmitComment (text : String) : Executed :=
  let participantKey := displayKey participant
  if blank text then self.reject (.invalidCommand .commentEmpty)
  else if text.utf8ByteSize > 2000 then self.reject (.invalidCommand .commentTooLong)
  else if participantKey ∉ self.authenticatedParticipants then
    self.reject (.invalidCommand .invalidSessionToken)
  else
    let comment : Comment := {
      id := self.nextCommentId
      text
      author := participantKey
      timestamp := metadata.acceptingTime }
    ({ self with
      comments := self.comments ++ [comment]
      nextCommentId := self.nextCommentId + 1 },
      .ok (.commentAdded self.nextCommentId))

def execute [RandChaCha] (cmd : UnifiedCommand) (authorization : Option PubKey) : Executed :=
  match authorization with
  | none => self.reject .unauthorized
  | some participant =>
    if participant ∉ self.authorizedParticipants then
      self.reject (.invalidCommand .notAuthorized)
    else if self.isRateLimited participant then self.reject (.invalidCommand .rateLimited)
    else
      match cmd with
      | .requestChallenge => self.executeRequestChallenge participant metadata
      | .submitResponse signature nonce => self.executeSubmitResponse participant signature nonce
      | .revokeSession sessionToken signature =>
        self.executeRevokeSession participant sessionToken signature
      | .submitComment text _ => self.executeSubmitComment participant metadata text

def rollback : UnifiedRollback → AuthWithCommentsEpisode × Bool
  | .challenge participantKey _ =>
    -- the token does not know the challenge that was replaced
    ({ self with activeChallenges := self.activeChallenges.erase participantKey }, true)
  | .authentication participantKey wasPreviouslyAuthenticated =>
    ({ self with
      authenticatedParticipants :=
        if wasPreviouslyAuthenticated then self.authenticatedParticipants.insert participantKey
        else self.authenticatedParticipants.erase participantKey }, true)
  | .sessionRevoked participantKey wasPreviouslyAuthenticated =>
    ({ self with
      authenticatedParticipants :=
        if wasPreviouslyAuthenticated then self.authenticatedParticipants.insert participantKey
        else self.authenticatedParticipants }, true)
  | .commentAdded commentId =>
    match self.comments.findIdx? fun c => decide (c.id = commentId) with
    | some pos =>
      ({ self with comments := self.comments.eraseIdx pos, nextCommentId := commentId }, true)
    | none => (self, false)

instance [RandChaCha] : Episode AuthWithCommentsEpisode where
  Command := UnifiedCommand
  CommandRollback := UnifiedRollback
  CommandError := AuthError
  World := Unit
  Fault := Empty
  codec := UnifiedCommand.codec
  initializeWith participants metadata := return create participants metadata
  execute self cmd authorization metadata := return self.execute metadata cmd authorization
  rollback self rb := return self.rollback rb

end AuthWithCommentsEpisode
end Kdapp.CommentIt
