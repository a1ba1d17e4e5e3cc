import Kdapp.Episode
import Kdapp.Library.Saturating
import Mathlib.Data.List.Infix

/-! The comment board whose rooms are economic contracts
(`comment-board/src/episode/board_with_contract.rs`, `contract.rs`, `commands.rs`), as it is built
by default. -/

namespace Kdapp.CommentBoard
open Borsh
open Std (ExtTreeMap)

inductive BondScriptKind where
  | p2pk
  | timeLock (unlockTime : UInt64)
  | moderatorMultisig (requiredSignatures moderatorCount : UInt8)
  | timeOrModerator (unlockTime : UInt64) (requiredSignatures moderatorCount : UInt8)
deriving DecidableEq

inductive ContractCommand where
  | joinRoom (bondAmount : UInt64)
  | requestChallenge
  | submitResponse (signature nonce : String)
  | submitComment (text : String) (bondAmount : UInt64) (bondOutputIndex : Option UInt32)
    (bondScript : Option BondScriptKind)
deriving DecidableEq

inductive ContractError where
  | insufficientBond (required provided : UInt64)
  | userNotAuthenticated
  | roomRulesViolation (rule : String)
  | contractExpired (episodeId : UInt32)
  | invalidCommand (reason : String)
deriving DecidableEq

namespace BondScriptKind

def moderatorFields : Codec (UInt8 × UInt8) := Codec.u8.pair Codec.u8

def timeOrModeratorFields : Codec (UInt64 × UInt8 × UInt8) := Codec.u64.pair moderatorFields

def codec : Codec BondScriptKind where
  serialize
    | .p2pk => some [0]
    | .timeLock t => (Codec.u64.serialize t).map (1 :: ·)
    | .moderatorMultisig req cnt => (moderatorFields.serialize (req, cnt)).map (2 :: ·)
    | .timeOrModerator t req cnt =>
      (timeOrModeratorFields.serialize (t, req, cnt)).map (3 :: ·)
  deserialize
    | 0 :: bs => some (.p2pk, bs)
    | 1 :: bs => (Codec.u64.deserialize bs).map fun (t, bs) => (.timeLock t, bs)
    | 2 :: bs => (moderatorFields.deserialize bs).map fun ((req, cnt), bs) =>
      (.moderatorMultisig req cnt, bs)
    | 3 :: bs => (timeOrModeratorFields.deserialize bs).map fun ((t, req, cnt), bs) =>
      (.timeOrModerator t req cnt, bs)
    | _ => none

theorem codec_lawful : codec.Lawful := by
  have hmoderator : moderatorFields.Lawful := Codec.u8_lawful.pair Codec.u8_lawful
  have htime : timeOrModeratorFields.Lawful := Codec.u64_lawful.pair hmoderator
  intro kind bs rest hs
  cases kind with
  | p2pk =>
    cases hs
    rfl
  | timeLock t =>
    obtain ⟨x, hbs, hx⟩ := Codec.u64_lawful.tagged rest hs
    simp only [codec, hbs, hx, Option.map_some]
  | moderatorMultisig req cnt =>
    obtain ⟨x, hbs, hx⟩ := hmoderator.tagged rest hs
    simp only [codec, hbs, hx, Option.map_some]
  | timeOrModerator t req cnt =>
    obtain ⟨x, hbs, hx⟩ := htime.tagged rest hs
    simp only [codec, hbs, hx, Option.map_some]

end BondScriptKind

namespace ContractCommand

def submitResponseFields : Codec (String × String) := Codec.string.pair Codec.string

def submitCommentFields : Codec (String × UInt64 × Option UInt32 × Option BondScriptKind) :=
  Codec.string.pair (Codec.u64.pair (Codec.u32.option.pair BondScriptKind.codec.option))

def codec : Codec ContractCommand where
  serialize
    | .joinRoom bondAmount => (Codec.u64.serialize bondAmount).map (0 :: ·)
    | .requestChallenge => some [1]
    | .submitResponse signature nonce =>
      (submitResponseFields.serialize (signature, nonce)).map (2 :: ·)
    | .submitComment text bondAmount bondOutputIndex bondScript =>
      (submitCommentFields.serialize (text, bondAmount, bondOutputIndex, bondScript)).map (3 :: ·)
  deserialize
    | 0 :: bs => (Codec.u64.deserialize bs).map fun (bondAmount, bs) => (.joinRoom bondAmount, bs)
    | 1 :: bs => some (.requestChallenge, bs)
    | 2 :: bs => (submitResponseFields.deserialize bs).map fun ((signature, nonce), bs) =>
      (.submitResponse signature nonce, bs)
    | 3 :: bs => (submitCommentFields.deserialize bs).map
      fun ((text, bondAmount, bondOutputIndex, bondScript), bs) =>
        (.submitComment text bondAmount bondOutputIndex bondScript, bs)
    | _ => none

theorem codec_lawful : codec.Lawful := by
  have hresponse : submitResponseFields.Lawful := Codec.string_lawful.pair Codec.string_lawful
  have hcomment : submitCommentFields.Lawful :=
    Codec.string_lawful.pair (Codec.u64_lawful.pair
      (Codec.u32_lawful.option.pair BondScriptKind.codec_lawful.option))
  intro cmd bs rest hs
  cases cmd with
  | joinRoom bondAmount =>
    obtain ⟨x, hbs, hx⟩ := Codec.u64_lawful.tagged rest hs
    simp only [codec, hbs, hx, Option.map_some]
  | requestChallenge =>
    cases hs
    rfl
  | submitResponse signature nonce =>
    obtain ⟨x, hbs, hx⟩ := hresponse.tagged rest hs
    simp only [codec, hbs, hx, Option.map_some]
  | submitComment text bondAmount bondOutputIndex bondScript =>
    obtain ⟨x, hbs, hx⟩ := hcomment.tagged rest hs
    simp only [codec, hbs, hx, Option.map_some]

end ContractCommand

section Descriptor

def skipBytes (n : ℕ) (bytes : Bytes) : Option Bytes :=
  if bytes.length < n then none else some (bytes.drop n)

def skipPub (bytes : Bytes) : Option Bytes := skipBytes 33 bytes

/-- `decode_bond_descriptor` (`wallet/kaspa_scripts.rs`). -/
def decodeBondDescriptor : Bytes → Option BondScriptKind
  | 0x01 :: bytes => do
    let _ ← skipPub bytes
    some .p2pk
  | 0x02 :: bytes => do
    let (t, bytes) ← Codec.u64.deserialize bytes
    let _ ← skipPub bytes
    some (.timeLock t)
  | 0x03 :: req :: cnt :: bytes => do
    let bytes ← skipBytes (cnt.toNat * 33) bytes
    let _ ← skipPub bytes
    some (.moderatorMultisig req cnt)
  | 0x04 :: bytes => do
    let (t, bytes) ← Codec.u64.deserialize bytes
    match bytes with
    | req :: cnt :: bytes => do
      let bytes ← skipBytes (cnt.toNat * 33) bytes
      let _ ← skipPub bytes
      some (.timeOrModerator t req cnt)
    | _ => none
  | _ => none

end Descriptor

structure RoomRules where
  minBond : UInt64
  maxBond : UInt64
  bondsEnabled : Bool
  maxCommentLength : UInt64
  forbiddenWords : List String

def RoomRules.default : RoomRules where
  minBond := 100000000
  maxBond := 10000000000
  bondsEnabled := true
  maxCommentLength := 500
  forbiddenWords := []

structure EconomicComment where
  id : UInt64
  text : String
  author : String
  timestamp : UInt64
  bondAmount : UInt64
deriving DecidableEq

structure CommentRoomContract where
  roomRules : RoomRules
  totalLockedValue : UInt64
  comments : List EconomicComment
  roomMembers : List String
  authenticatedUsers : List String
  currentChallenge : Option String
  totalComments : UInt64

/-- `CommentRoomContract::new` without funding. -/
def CommentRoomContract.new (rules : RoomRules) : CommentRoomContract where
  roomRules := rules
  totalLockedValue := 0
  comments := []
  roomMembers := []
  authenticatedUsers := []
  currentChallenge := none
  totalComments := 0

/-- `contains_forbidden_words`, over `str::to_lowercase`. -/
def CommentRoomContract.containsForbiddenWords (self : CommentRoomContract)
    (toLowercase : String → String) (text : String) : Option String :=
  self.roomRules.forbiddenWords.find? fun word =>
    decide ((toLowercase word).toList <:+: (toLowercase text).toList)

structure ContractRollback where
  operationType : String
  commentId : Option UInt64
  bondAmount : Option UInt64
  prevTimestamp : UInt64
  utxoChanges : List (String × UInt64)
deriving DecidableEq

structure ContractCommentBoard where
  contract : CommentRoomContract
  lockedUtxos : ExtTreeMap String UInt64
  nextCommentId : UInt64
  contractExpiresAt : UInt64

def hex (bytes : Bytes) : String :=
  String.ofList
    (bytes.flatMap fun b => [Nat.digitChar (b.toNat / 16), Nat.digitChar (b.toNat % 16)])

/-- `Display` of a key and of a hash. -/
def displayKey [Crypto] (pk : PubKey) : String := hex pk.serialize

def displayHash (hash : Hash) : String := hex hash.1

/-- The property `White_Space` of Unicode. -/
def isWhitespace (c : Char) : Bool :=
  decide (9 ≤ c.toNat ∧ c.toNat ≤ 13 ∨ 0x2000 ≤ c.toNat ∧ c.toNat ≤ 0x200a) ||
    [0x20, 0x85, 0xa0, 0x1680, 0x2028, 0x2029, 0x202f, 0x205f, 0x3000].contains c.toNat

/-- `text.trim().is_empty()`. -/
def blank (text : String) : Bool := text.toList.all isWhitespace

def joinBondId (participant : String) : String := "join_bond_" ++ participant

def commentBondId (commentId : UInt64) (txId : Hash) : String :=
  "comment_bond_" ++ commentId.toNat.repr ++ "_" ++ displayHash txId

def challengeFor (metadata : PayloadMetadata) : String := "auth_" ++ displayHash metadata.txId

namespace ContractCommentBoard

/-- A board with these rules, as `initialize` makes it. -/
def new (rules : RoomRules) (metadata : PayloadMetadata) : ContractCommentBoard where
  contract := .new rules
  lockedUtxos := ∅
  nextCommentId := 1
  contractExpiresAt := max (metadata.acceptingTime + 7776000) 2000000000

/-- With and without participants alike, as far as commands can tell. -/
def initializeWith [Crypto] (_participants : List PubKey) (metadata : PayloadMetadata) :
    ContractCommentBoard :=
  new RoomRules.default metadata

/-- The board after an `execute` and what it returned. -/
abbrev Executed := ContractCommentBoard × Except (EpisodeError ContractError) ContractRollback

variable (self : ContractCommentBoard) (participant : String) (metadata : PayloadMetadata)

def reject (e : EpisodeError ContractError) : Executed := (self, .error e)

def executeJoinRoom (bondAmount : UInt64) : Executed :=
  ({ self with
    contract.roomMembers := self.contract.roomMembers ++ [participant]
    contract.totalLockedValue := self.contract.totalLockedValue + bondAmount },
    .ok {
      operationType := "join_room"
      commentId := none
      bondAmount := some bondAmount
      prevTimestamp := metadata.acceptingTime
      utxoChanges := [(joinBondId participant, bondAmount)] })

def executeRequestChallenge : Executed :=
  ({ self with contract.currentChallenge := some (challengeFor metadata) },
    .ok {
      operationType := "request_challenge"
      commentId := none
      bondAmount := none
      prevTimestamp := metadata.acceptingTime
      utxoChanges := [] })

def executeSubmitResponse (signature nonce : String) : Executed :=
  match self.contract.currentChallenge with
  | none => self.reject (.invalidCommand .userNotAuthenticated)
  | some challenge =>
    if nonce = challenge ∧ signature ≠ "" then
      ({ self with
        contract.authenticatedUsers := self.contract.authenticatedUsers ++ [participant]
        contract.currentChallenge := none },
        .ok {
          operationType := "authenticate"
          commentId := none
          bondAmount := none
          prevTimestamp := metadata.acceptingTime
          utxoChanges := [] })
    else self.reject (.invalidCommand .userNotAuthenticated)

def checkOutputs (bondAmount : UInt64) (bondOutputIndex : Option UInt32)
    (bondScript : Option BondScriptKind) (outputs : List TxOutputInfo) : Option ContractError :=
  match bondOutputIndex with
  | some idx =>
    if outputs[idx.toNat]?.map (·.value) ≠ some bondAmount then
      some (.insufficientBond bondAmount 0)
    else
      match bondScript, outputs[idx.toNat]?.bind (·.scriptBytes) with
      | some descriptor, some scriptBytes =>
        match decodeBondDescriptor scriptBytes with
        | some onchainDesc =>
          if onchainDesc ≠ descriptor then
            some (.invalidCommand "bond script descriptor mismatch")
          else none
        -- a script that does not decode passes: the source compares what it can read
        | none => none
      | _, _ => none
  | none =>
    if outputs.any fun o => decide (o.value ≥ bondAmount) then none
    else some (.insufficientBond bondAmount 0)

def checkComment (text : String) (bondAmount : UInt64) (bondOutputIndex : Option UInt32)
    (bondScript : Option BondScriptKind) : Option ContractError :=
  if blank text then some (.roomRulesViolation "Empty comment")
  else if bondAmount = 0 then none
  else if self.contract.roomRules.bondsEnabled = false then
    some (.roomRulesViolation "Bonds are disabled for this room by organizer")
  else if bondAmount < self.contract.roomRules.minBond then
    some (.insufficientBond self.contract.roomRules.minBond bondAmount)
  else
    match metadata.txOutputs with
    | some outputs => checkOutputs bondAmount bondOutputIndex bondScript outputs
    | none => none

def executeSubmitComment (text : String) (bondAmount : UInt64) (bondOutputIndex : Option UInt32)
    (bondScript : Option BondScriptKind) : Executed :=
  match self.checkComment metadata text bondAmount bondOutputIndex bondScript with
  | some e => self.reject (.invalidCommand e)
  | none =>
    let commentId := self.nextCommentId
    let economicComment : EconomicComment := {
      id := commentId
      text := text
      author := participant
      timestamp := metadata.acceptingTime
      bondAmount := bondAmount }
    let utxoId := commentBondId commentId metadata.txId
    ({ self with
      lockedUtxos := self.lockedUtxos.insert utxoId bondAmount
      contract.comments := self.contract.comments ++ [economicComment]
      contract.totalComments := self.contract.totalComments + 1
      contract.totalLockedValue := self.contract.totalLockedValue + bondAmount
      nextCommentId := self.nextCommentId + 1 },
      .ok {
        operationType := "submit_comment"
        commentId := some commentId
        bondAmount := some bondAmount
        prevTimestamp := metadata.acceptingTime
        utxoChanges := [(utxoId, bondAmount)] })

def execute [Crypto] (authorization : Option PubKey) (cmd : ContractCommand) : Executed :=
  match authorization with
  | none => self.reject .unauthorized
  | some pk =>
    if metadata.acceptingTime > self.contractExpiresAt then
      self.reject (.invalidCommand (.contractExpired 0))
    else
      match cmd with
      | .joinRoom bondAmount => self.executeJoinRoom (displayKey pk) metadata bondAmount
      | .requestChallenge => self.executeRequestChallenge metadata
      | .submitResponse signature nonce =>
        self.executeSubmitResponse (displayKey pk) metadata signature nonce
      | .submitComment text bondAmount bondOutputIndex bondScript =>
        self.executeSubmitComment (displayKey pk) metadata text bondAmount bondOutputIndex
          bondScript

def reverseUtxo (lockedUtxos : ExtTreeMap String UInt64) (change : String × UInt64) :
    ExtTreeMap String UInt64 :=
  if change.2 > 0 then lockedUtxos.erase change.1 else lockedUtxos.insert change.1 change.2

def removeComment (commentId : UInt64) : ContractCommentBoard :=
  let comments := self.contract.comments.filter fun c => decide (c.id ≠ commentId)
  { self with
    contract.comments := comments
    contract.totalComments :=
      if self.contract.totalComments > 0 ∧ comments.length < self.contract.comments.length then
        self.contract.totalComments - 1
      else self.contract.totalComments }

def unlockValue (bondAmount : Option UInt64) : ContractCommentBoard :=
  match bondAmount with
  | some bond =>
    { self with
      contract.totalLockedValue := Saturating.sub self.contract.totalLockedValue bond }
  | none => self

def rollback (rb : ContractRollback) : ContractCommentBoard × Bool :=
  let board := { self with lockedUtxos := rb.utxoChanges.foldl reverseUtxo self.lockedUtxos }
  if rb.operationType = "submit_comment" then
    match rb.commentId with
    | some commentId => ((board.removeComment commentId).unlockValue rb.bondAmount, true)
    | none => (board, true)
  else if rb.operationType = "join_room" then (board.unlockValue rb.bondAmount, true)
  else (board, true)

instance [Crypto] : Episode ContractCommentBoard where
  Command := ContractCommand
  CommandRollback := ContractRollback
  CommandError := ContractError
  World := Unit
  Fault := Empty
  codec := ContractCommand.codec
  initializeWith participants metadata := return initializeWith participants metadata
  execute self cmd authorization metadata := return self.execute metadata authorization cmd
  rollback self rb := return self.rollback rb

end ContractCommentBoard
end Kdapp.CommentBoard
