import Kdapp.Auth

/-! The authentication episode of `kaspa-auth` (`core/episode.rs`, `core/commands.rs`,
`core/types.rs`, `core/errors.rs`): one challenge and one session for all its participants. -/

namespace Kdapp.KaspaAuth
open Borsh
open Std (ExtTreeMap)
open CommentBoard (displayHash)

inductive AuthError where
  | challengeNotFound
  | invalidChallenge
  | signatureVerificationFailed
  | alreadyAuthenticated
  | notAuthorized
  | rateLimited
  | invalidSignature
  | challengeExpired
  | sessionNotFound
  | invalidSessionToken
  | sessionAlreadyRevoked
deriving DecidableEq

inductive AuthCommand where
  | requestChallenge
  | submitResponse (signature nonce : String)
  | revokeSession (sessionToken signature : String)
deriving DecidableEq

namespace AuthCommand

def texts : Codec (String × String) := Codec.string.pair Codec.string

def codec : Codec AuthCommand where
  serialize
    | .requestChallenge => some [0]
    | .submitResponse signature nonce => (texts.serialize (signature, nonce)).map (1 :: ·)
    | .revokeSession sessionToken signature =>
      (texts.serialize (sessionToken, signature)).map (2 :: ·)
  deserialize
    | 0 :: bs => some (.requestChallenge, bs)
    | 1 :: bs => (texts.deserialize bs).map fun ((signature, nonce), bs) =>
      (.submitResponse signature nonce, bs)
    | 2 :: bs => (texts.deserialize bs).map fun ((sessionToken, signature), bs) =>
      (.revokeSession sessionToken signature, bs)
    | _ => none

theorem codec_lawful : codec.Lawful := by
  have htexts : texts.Lawful := Codec.string_lawful.pair Codec.string_lawful
  intro cmd bs rest hs
  cases cmd with
  | requestChallenge =>
    cases hs
    rfl
  | submitResponse signature nonce =>
    obtain ⟨x, hbs, hx⟩ := htexts.tagged rest hs
    simp only [codec, hbs, hx, Option.map_some]
  | revokeSession sessionToken signature =>
    obtain ⟨x, hbs, hx⟩ := htexts.tagged rest hs
    simp only [codec, hbs, hx, Option.map_some]

end AuthCommand

inductive AuthRollback where
  | challenge (previousChallenge : Option String) (previousTimestamp : UInt64)
  | authentication (previousAuthStatus : Bool) (previousSessionToken : Option String)
  | sessionRevoked (previousToken : String) (wasAuthenticated : Bool)
deriving DecidableEq

variable [Crypto]

structure SimpleAuth where
  owner : Option PubKey
  challenge : Option String
  isAuthenticated : Bool
  sessionToken : Option String
  challengeTimestamp : UInt64
  /-- The times of a participant's attempts, oldest first. -/
  rateLimits : ExtTreeMap Bytes (List UInt64)
  authorizedParticipants : List PubKey

namespace SimpleAuth

/-- `Episode::initialize`. -/
def create (participants : List PubKey) (metadata : PayloadMetadata) : SimpleAuth where
  owner := participants.head?
  challenge := none
  isAuthenticated := false
  sessionToken := none
  challengeTimestamp := metadata.acceptingTime
  rateLimits := ∅
  authorizedParticipants := participants

/-- The episode after an `execute` and what it returned. -/
abbrev Executed := SimpleAuth × Except (EpisodeError AuthError) AuthRollback

def windowSecs : UInt64 := 300

def maxAttempts : ℕ := 5

/-- Within the window before `now`. -/
def recent (now t : UInt64) : Bool := decide (Saturating.sub now t ≤ windowSecs)

variable (self : SimpleAuth) (participant : PubKey)

def isRateLimited (now : UInt64) : Bool :=
  match self.rateLimits[participant.serialize]? with
  | some attempts => decide ((attempts.filter (recent now)).length ≥ maxAttempts)
  | none => false

def incrementRateLimit (now : UInt64) : ExtTreeMap Bytes (List UInt64) :=
  let entry := (self.rateLimits[participant.serialize]?).getD []
  self.rateLimits.insert participant.serialize ((entry ++ [now]).filter (recent now))

def generateSessionToken [RandChaCha] : String :=
  let ownerBytes := match self.owner with
    | some owner => owner.serialize
    | none => []
  let challengeBytes := match self.challenge with
    | some ch => asBytes ch
    | none => []
  let seed := seedOf (leBytes 8 self.challengeTimestamp.toNat ++ ownerBytes ++ challengeBytes)
  "sess_" ++ (RandChaCha.gen seed).toNat.repr

def reject (e : EpisodeError AuthError) : Executed := (self, .error e)

def challengeFor [RandChaCha] (metadata : PayloadMetadata) : String :=
  ChallengeGenerator.generateWithEntropy metadata.acceptingTime
    (participant.serialize ++ asBytes (displayHash metadata.txId))

def executeRequestChallenge [RandChaCha] (metadata : PayloadMetadata) : Executed :=
  ({ self with
    challenge := some (challengeFor participant metadata)
    challengeTimestamp := metadata.acceptingTime
    owner := some participant
    rateLimits := self.incrementRateLimit participant metadata.acceptingTime },
    .ok (.challenge self.challenge self.challengeTimestamp))

/-- `now` is the clock of the machine, in seconds. -/
def executeSubmitResponse [RandChaCha] (now : UInt64) (signature nonce : String) : Executed :=
  if self.isAuthenticated then self.reject (.invalidCommand .alreadyAuthenticated)
  else
    match self.challenge with
    | none => self.reject (.invalidCommand .challengeNotFound)
    | some currentChallenge =>
      if nonce ≠ currentChallenge then self.reject (.invalidCommand .invalidChallenge)
      else if ChallengeGenerator.isValid now currentChallenge 3600 = false then
        self.reject (.invalidCommand .challengeExpired)
      -- under the key of the sender, whoever the owner is
      else if SignatureVerifier.verify participant currentChallenge signature = false then
        self.reject (.invalidCommand .signatureVerificationFailed)
      else
        ({ self with
          isAuthenticated := true
          sessionToken := some self.generateSessionToken },
          .ok (.authentication self.isAuthenticated self.sessionToken))

def executeRevokeSession (sessionToken signature : String) : Executed :=
  match self.sessionToken with
  | none => self.reject (.invalidCommand .sessionNotFound)
  | some currentToken =>
    if sessionToken ≠ currentToken then self.reject (.invalidCommand .invalidSessionToken)
    else if self.isAuthenticated = false then
      self.reject (.invalidCommand .sessionAlreadyRevoked)
    else if SignatureVerifier.verify participant sessionToken signature = false then
      self.reject (.invalidCommand .signatureVerificationFailed)
    else
      ({ self with isAuthenticated := false, sessionToken := none },
        .ok (.sessionRevoked currentToken self.isAuthenticated))

def execute [RandChaCha] (now : UInt64) (metadata : PayloadMetadata) (cmd : AuthCommand)
    (authorization : Option PubKey) : Executed :=
  match authorization with
  | none => self.reject .unauthorized
  | some participant =>
    if participant ∉ self.authorizedParticipants then
      self.reject (.invalidCommand .notAuthorized)
    else if self.isRateLimited participant metadata.acceptingTime then
      self.reject (.invalidCommand .rateLimited)
    else
      match cmd with
      | .requestChallenge => self.executeRequestChallenge participant metadata
      | .submitResponse signature nonce =>
        self.executeSubmitResponse participant now signature nonce
      | .revokeSession sessionToken signature =>
        self.executeRevokeSession participant sessionToken signature

def rollback : AuthRollback → SimpleAuth × Bool
  | .challenge previousChallenge previousTimestamp =>
    ({ self with challenge := previousChallenge, challengeTimestamp := previousTimestamp }, true)
  | .authentication previousAuthStatus previousSessionToken =>
    ({ self with isAuthenticated := previousAuthStatus, sessionToken := previousSessionToken },
      true)
  | .sessionRevoked previousToken wasAuthenticated =>
    ({ self with isAuthenticated := wasAuthenticated, sessionToken := some previousToken }, true)

instance [RandChaCha] : Episode SimpleAuth where
  Command := AuthCommand
  CommandRollback := AuthRollback
  CommandError := AuthError
  World := UInt64
  Fault := Empty
  codec := AuthCommand.codec
  initializeWith participants metadata := return create participants metadata
  execute self cmd authorization metadata := do
    let now ← get
    return self.execute now metadata cmd authorization
  rollback self rb := return self.rollback rb

end SimpleAuth
end Kdapp.KaspaAuth
