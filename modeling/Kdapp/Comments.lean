import Kdapp.CommentBoard

/-! The comment board without a contract (`comment-board/src/comments.rs`): whoever joins the room
and answers the challenge may comment, and the last fifty comments are kept. -/

namespace Kdapp.Comments
open Std (ExtTreeMap ExtTreeSet)
open Kdapp.CommentBoard (blank displayKey challengeFor)

inductive CommentError where
  | empty
  | tooLong
  | notAuthenticated
  | unauthorized
deriving DecidableEq

inductive CommentCommand where
  | requestChallenge
  | submitResponse (signature nonce : String)
  | joinRoom
  | submitComment (text : String) (bondAmount : UInt64)
  | setForbiddenWords (words : List String)
deriving DecidableEq

structure CommentRollback where
  commandType : String
  commentId : Option ℕ
  wasAuthenticated : Bool
  prevTimestamp : UInt64
deriving DecidableEq

namespace CommentRollback

def newJoin (wasAuthenticated : Bool) (prevTimestamp : UInt64) : CommentRollback where
  commandType := "join"
  commentId := none
  wasAuthenticated := wasAuthenticated
  prevTimestamp := prevTimestamp

def newComment (commentId : ℕ) (prevTimestamp : UInt64) : CommentRollback where
  commandType := "comment"
  commentId := some commentId
  wasAuthenticated := false
  prevTimestamp := prevTimestamp

end CommentRollback

/-- The ids count the comments whose tokens the engine keeps in memory for their rollback: they
stay far below 2^64. -/
structure Comment where
  id : ℕ
  text : String
  author : String
  timestamp : UInt64
  bondAmount : UInt64
deriving DecidableEq

/-- `str::to_lowercase`. -/
class Lowercase where
  toLowercase : String → String

variable [Crypto]

structure CommentBoard where
  comments : List Comment
  creator : Option PubKey
  roomMembers : ExtTreeSet String
  nextCommentId : ℕ
  timestamp : UInt64
  commentHistory : List ℕ
  challenge : Option String
  authenticatedUsers : ExtTreeSet String
  sessionTokens : ExtTreeMap String String
  forbiddenWords : List String

namespace CommentBoard

/-- `Episode::initialize`. -/
def create (participants : List PubKey) (metadata : PayloadMetadata) : CommentBoard where
  comments := []
  creator := participants.head?
  roomMembers := ∅
  nextCommentId := 1
  timestamp := metadata.acceptingTime
  commentHistory := []
  challenge := none
  authenticatedUsers := ∅
  sessionTokens := ∅
  forbiddenWords := []

/-- The board after an `execute` and what it returned. -/
abbrev Executed := CommentBoard × Except (EpisodeError CommentError) CommentRollback

variable (self : CommentBoard) (participant : PubKey) (metadata : PayloadMetadata)

def reject (e : EpisodeError CommentError) : Executed := (self, .error e)

def executeRequestChallenge : Executed :=
  let board := match self.challenge with
    | none => { self with challenge := some (challengeFor metadata) }
    | some _ => self
  ({ board with timestamp := metadata.acceptingTime }, .ok (.newJoin false board.timestamp))

/-- `drawn` is what the generator of the thread draws for the session token. -/
def executeSubmitResponse (drawn : UInt64) (signature nonce : String) : Executed :=
  match self.challenge with
  | some challenge =>
    if ¬ (nonce = challenge ∧ signature ≠ "") then
      self.reject (.invalidCommand .notAuthenticated)
    else
      let sessionToken := "sess_" ++ drawn.toNat.repr
      ({ self with
        authenticatedUsers := self.authenticatedUsers.insert (displayKey participant)
        sessionTokens := self.sessionTokens.insert (displayKey participant) sessionToken
        challenge := none
        timestamp := metadata.acceptingTime },
        .ok (.newJoin false self.timestamp))
  | none => self.reject (.invalidCommand .notAuthenticated)

def executeJoinRoom : Executed :=
  let wasInRoom := self.roomMembers.contains (displayKey participant)
  ({ self with
    roomMembers := self.roomMembers.insert (displayKey participant)
    timestamp := metadata.acceptingTime },
    .ok (.newJoin wasInRoom self.timestamp))

def hasForbiddenWord [Lowercase] (text : String) : Bool :=
  self.forbiddenWords.any fun forbiddenWord =>
    decide ((Lowercase.toLowercase forbiddenWord).toList <:+:
      (Lowercase.toLowercase text).toList)

def evict : CommentBoard :=
  if self.commentHistory.length > 50 then
    match self.commentHistory with
    | oldCommentId :: commentHistory =>
      { self with
        commentHistory
        comments := self.comments.filter fun c => decide (c.id ≠ oldCommentId) }
    | [] => self
  else self

def executeSubmitComment [Lowercase] (text : String) (bondAmount : UInt64) : Executed :=
  let participantStr := displayKey participant
  if participantStr ∉ self.authenticatedUsers then
    self.reject (.invalidCommand .notAuthenticated)
  else if participantStr ∉ self.roomMembers then self.reject (.invalidCommand .notAuthenticated)
  else if blank text then self.reject (.invalidCommand .empty)
  else if text.utf8ByteSize > 500 then self.reject (.invalidCommand .tooLong)
  else if self.hasForbiddenWord text then self.reject (.invalidCommand .unauthorized)
  else
    let comment : Comment := {
      id := self.nextCommentId
      text
      author := participantStr
      timestamp := metadata.acceptingTime
      bondAmount }
    let board := evict { self with
      comments := self.comments ++ [comment]
      commentHistory := self.commentHistory ++ [self.nextCommentId] }
    ({ board with
      timestamp := metadata.acceptingTime
      nextCommentId := self.nextCommentId + 1 },
      .ok (.newComment self.nextCommentId self.timestamp))

def executeSetForbiddenWords (words : List String) : Executed :=
  if self.creator ≠ some participant then self.reject .unauthorized
  else
    ({ self with
      timestamp := metadata.acceptingTime
      forbiddenWords := words },
      .ok (.newJoin false self.timestamp))

def execute [Lowercase] (drawn : UInt64) (cmd : CommentCommand)
    (authorization : Option PubKey) : Executed :=
  match authorization with
  | none => self.reject .unauthorized
  | some participant =>
    match cmd with
    | .requestChallenge => self.executeRequestChallenge metadata
    | .submitResponse signature nonce =>
      self.executeSubmitResponse participant metadata drawn signature nonce
    | .joinRoom => self.executeJoinRoom participant metadata
    | .submitComment text bondAmount =>
      self.executeSubmitComment participant metadata text bondAmount
    | .setForbiddenWords words => self.executeSetForbiddenWords participant metadata words

def rollback (rb : CommentRollback) : CommentBoard × Bool :=
  if rb.commandType = "join" then
    -- who joined or signed in stays
    ({ self with timestamp := rb.prevTimestamp }, true)
  else if rb.commandType = "comment" then
    match rb.commentId with
    | some commentId =>
      let comments := self.comments.filter fun c => decide (c.id ≠ commentId)
      ({ self with
        timestamp := rb.prevTimestamp
        comments
        commentHistory := self.commentHistory.filter fun id => decide (id ≠ commentId)
        nextCommentId := if self.nextCommentId > 1 then commentId else self.nextCommentId },
        decide (comments.length < self.comments.length))
    | none => (self, false)
  else (self, false)

end CommentBoard
end Kdapp.Comments
