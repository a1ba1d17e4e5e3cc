import Kdapp.CommentBoard
import Kdapp.Library.Outcome
import Kdapp.Library.Traversal

/-! The comments of `comment-it` in an episode of their own (`comment-it/src/comment.rs`), for those
whose session was registered with it. -/

namespace Kdapp.CommentStore
open Std (ExtTreeMap)
open Kdapp.CommentBoard (blank displayKey)

inductive CommentCommand where
  | submitComment (text author sessionToken signature : String)
  | getComments (sessionToken : Option String)
  | getCommentsByAuthor (author : String) (sessionToken : Option String)
  | registerSession (publicKey sessionToken : String) (authEpisodeId : UInt64)
  | revokeSession (sessionToken : String)
deriving DecidableEq

inductive CommentRollback where
  | commentSubmitted (commentId : ℕ)
  | commentsQueried
  | sessionRegistered (publicKey : String)
  | sessionRevoked (publicKey sessionToken : String)
deriving DecidableEq

inductive CommentError where
  | invalidSessionToken
  | signatureVerificationFailed
  | commentTooLong
  | commentEmpty
  | notAuthorized
deriving DecidableEq

/-- The ids count the comments, which are kept in memory: they stay far below 2^64. -/
structure Comment where
  id : ℕ
  text : String
  author : String
  timestamp : UInt64
  sessionToken : String
deriving DecidableEq

variable [Crypto]

structure CommentEpisode where
  comments : List Comment
  nextId : ℕ
  authorizedParticipants : List PubKey
  createdAt : UInt64
  validSessions : ExtTreeMap String String
  authEpisodeId : Option UInt64

namespace CommentEpisode

/-- `Episode::initialize`. -/
def create (participants : List PubKey) (metadata : PayloadMetadata) : CommentEpisode where
  comments := []
  nextId := 1
  authorizedParticipants := participants
  createdAt := metadata.acceptingTime
  validSessions := ∅
  authEpisodeId := none

/-- The episode after an `execute` and what it returned. -/
abbrev Executed := CommentEpisode × Except (EpisodeError CommentError) CommentRollback

variable (self : CommentEpisode)

def reject (e : EpisodeError CommentError) : Executed := (self, .error e)

def executeSubmitComment (participant : PubKey) (metadata : PayloadMetadata)
    (text author sessionToken : String) : Executed :=
  if blank text then self.reject (.invalidCommand .commentEmpty)
  else if text.utf8ByteSize > 2000 then self.reject (.invalidCommand .commentTooLong)
  else if self.validSessions[displayKey participant]? ≠ some sessionToken then
    self.reject (.invalidCommand .invalidSessionToken)
  else
    -- the author is the one that the command names
    let comment : Comment := {
      id := self.nextId
      text
      author
      timestamp := metadata.acceptingTime
      sessionToken }
    ({ self with
      comments := self.comments ++ [comment]
      nextId := self.nextId + 1 },
      .ok (.commentSubmitted self.nextId))

def executeRegisterSession (publicKey sessionToken : String) (authEpisodeId : UInt64) : Executed :=
  ({ self with
    validSessions := self.validSessions.insert publicKey sessionToken
    authEpisodeId := match self.authEpisodeId with
      | none => some authEpisodeId
      | some id => some id },
    .ok (.sessionRegistered publicKey))

/-- The first session with the token, in the order in which the map is traversed. -/
def holder (order : Traversal String String) (sessionToken : String) : Option (String × String) :=
  (order.entries self.validSessions).find? fun e => decide (e.2 = sessionToken)

def executeRevokeSession (order : Traversal String String) (sessionToken : String) : Executed :=
  match self.holder order sessionToken with
  | some (key, _) =>
    ({ self with validSessions := self.validSessions.erase key },
      .ok (.sessionRevoked key sessionToken))
  | none => self.reject (.invalidCommand .invalidSessionToken)

def executeCommand (order : Traversal String String) (participant : PubKey)
    (metadata : PayloadMetadata) : CommentCommand → Executed
  | .submitComment text author sessionToken _ =>
    self.executeSubmitComment participant metadata text author sessionToken
  | .getComments _ => (self, .ok .commentsQueried)
  | .getCommentsByAuthor _ _ => (self, .ok .commentsQueried)
  | .registerSession publicKey sessionToken authEpisodeId =>
    self.executeRegisterSession publicKey sessionToken authEpisodeId
  | .revokeSession sessionToken => self.executeRevokeSession order sessionToken

def execute (order : Traversal String String) (metadata : PayloadMetadata) (cmd : CommentCommand)
    (authorization : Option PubKey) : Executed :=
  match authorization with
  | none => self.reject .unauthorized
  | some participant =>
    if participant ∉ self.authorizedParticipants then
      self.reject (.invalidCommand .notAuthorized)
    else self.executeCommand order participant metadata cmd

def rollback : CommentRollback → CommentEpisode × Bool
  | .commentSubmitted commentId =>
    match self.comments.findIdx? fun c => decide (c.id = commentId) with
    | some pos =>
      ({ self with comments := self.comments.eraseIdx pos, nextId := commentId }, true)
    | none => (self, false)
  | .commentsQueried => (self, true)
  | .sessionRegistered publicKey =>
    ({ self with validSessions := self.validSessions.erase publicKey }, true)
  | .sessionRevoked publicKey sessionToken =>
    ({ self with validSessions := self.validSessions.insert publicKey sessionToken }, true)

end CommentEpisode
end Kdapp.CommentStore
