import Kdapp.Engine
import Mathlib.Data.Fintype.Prod
import Mathlib.Logic.Function.Basic

/-! Tic-tac-toe with six pieces at most (`tictactoe/src/game.rs`), and the callbacks of its
player (`main.rs`). -/

namespace Kdapp
open Borsh

inductive TTTError where
  | outOfBounds
  | occupied
  | notPlayersTurn
  | gameOver
  | noNewPlayers
  | unauthorized
deriving DecidableEq

structure TTTMove where
  row : UInt64
  col : UInt64
deriving DecidableEq

namespace TTTMove

def codec : Codec TTTMove :=
  (Codec.u64.pair Codec.u64).via (fun mv => (mv.row, mv.col)) fun p => some ⟨p.1, p.2⟩

theorem codec_lawful : codec.Lawful :=
  (Codec.u64_lawful.pair Codec.u64_lawful).via fun _ => rfl

end TTTMove

structure TTTRollback where
  mv : TTTMove
  removedMv : Option TTTMove
  prevTimestamp : UInt64
deriving DecidableEq

inductive Fault where
  | indexOutOfBounds
  | remainderByZero
deriving DecidableEq

abbrev Square := Fin 3 × Fin 3

def square (row col : ℕ) : Option Square :=
  if h : row < 3 ∧ col < 3 then some (⟨row, h.1⟩, ⟨col, h.2⟩) else none

/-- `[[α; 3]; 3]`. -/
abbrev Board (α : Type) := Square → α

namespace Board
variable {α : Type}

def index (self : Board α) (row col : ℕ) : Except Fault α :=
  match square row col with
  | some sq => .ok (self sq)
  | none => .error .indexOutOfBounds

def assign (self : Board α) (row col : ℕ) (a : α) : Except Fault (Board α) :=
  match square row col with
  | some sq => .ok (Function.update self sq a)
  | none => .error .indexOutOfBounds

end Board

variable [Crypto]

inductive TTTGameStatus where
  | inProgress (pk : PubKey)
  | winner (pk : PubKey)
  | draw
deriving DecidableEq

structure TTTState where
  board : Board (Option PubKey)
  firstPlayer : PubKey
  status : TTTGameStatus
deriving DecidableEq

structure TicTacToe where
  board : Board (Option PubKey)
  players : List PubKey
  currentIndex : ℕ
  timestamp : UInt64
  /-- The oldest move first. -/
  moveHistory : List (UInt64 × UInt64)
deriving DecidableEq

namespace TicTacToe

/-- `Episode::initialize`. -/
def create (participants : List PubKey) (metadata : PayloadMetadata) : TicTacToe where
  board _ := none
  players := participants
  currentIndex := 0
  timestamp := metadata.acceptingTime
  moveHistory := []

variable (self : TicTacToe)

/-- `self.players[i]`. -/
def player (i : ℕ) : Except Fault PubKey :=
  match self.players[i]? with
  | some pk => .ok pk
  | none => .error .indexOutOfBounds

/-- `(self.current_index + 1) % self.players.len()`. -/
def nextIndex : Except Fault ℕ :=
  if self.players.length = 0 then .error .remainderByZero
  else .ok ((self.currentIndex + 1) % self.players.length)

/-- Keeps the number of pieces at six: board and history without the oldest, and its move. -/
def removeOldest :
    Except Fault (Board (Option PubKey) × List (UInt64 × UInt64) × Option TTTMove) :=
  if self.moveHistory.length = 6 then
    match self.moveHistory with
    | (oldRow, oldCol) :: moveHistory => do
      let board ← self.board.assign oldRow.toNat oldCol.toNat none
      return (board, moveHistory, some ⟨oldRow, oldCol⟩)
    | [] => return (self.board, [], none)
  else return (self.board, self.moveHistory, none)

def execute (cmd : TTTMove) (authorization : Option PubKey) (metadata : PayloadMetadata) :
    Except Fault (TicTacToe × Except (EpisodeError TTTError) TTTRollback) :=
  match authorization with
  | none => return (self, .error .unauthorized)
  | some player => do
    let current ← self.player self.currentIndex
    if player ≠ current then return (self, .error (.invalidCommand .notPlayersTurn))
    else if 3 ≤ cmd.row ∨ 3 ≤ cmd.col then
      return (self, .error (.invalidCommand .outOfBounds))
    else do
      let cell ← self.board.index cmd.row.toNat cmd.col.toNat
      if cell.isSome then return (self, .error (.invalidCommand .occupied))
      else do
        let (board, moveHistory, removedMv) ← self.removeOldest
        let board ← board.assign cmd.row.toNat cmd.col.toNat (some player)
        let currentIndex ← self.nextIndex
        return ({ self with
            board
            currentIndex
            timestamp := metadata.acceptingTime
            moveHistory := moveHistory ++ [(cmd.row, cmd.col)] },
          .ok { mv := cmd, removedMv, prevTimestamp := self.timestamp })

def restoreOldest (removedMv : Option TTTMove) : Except Fault TicTacToe :=
  match removedMv with
  | some removedMv => do
    -- six moves back is always the current player
    let player ← self.player self.currentIndex
    let board ← self.board.assign removedMv.row.toNat removedMv.col.toNat (some player)
    return { self with
      board
      moveHistory := (removedMv.row, removedMv.col) :: self.moveHistory }
  | none => return self

def rollback (rollback : TTTRollback) : Except Fault (TicTacToe × Bool) := do
  let cell ← self.board.index rollback.mv.row.toNat rollback.mv.col.toNat
  if cell.isNone then return (self, false)
  else do
    let board ← self.board.assign rollback.mv.row.toNat rollback.mv.col.toNat none
    let currentIndex ← self.nextIndex
    let self : TicTacToe := { self with
      board
      currentIndex
      timestamp := rollback.prevTimestamp
      moveHistory := self.moveHistory.dropLast }
    let self ← self.restoreOldest rollback.removedMv
    return (self, true)

def lines : List (Square × Square × Square) :=
  [((0, 0), (0, 1), (0, 2)), ((1, 0), (1, 1), (1, 2)), ((2, 0), (2, 1), (2, 2)),
    ((0, 0), (1, 0), (2, 0)), ((0, 1), (1, 1), (2, 1)), ((0, 2), (1, 2), (2, 2)),
    ((0, 0), (1, 1), (2, 2)), ((0, 2), (1, 1), (2, 0))]

def lineOwner (line : Square × Square × Square) : Option PubKey :=
  match self.board line.1, self.board line.2.1, self.board line.2.2 with
  | some p₁, some p₂, some p₃ => if p₁ = p₂ ∧ p₂ = p₃ then some p₁ else none
  | _, _, _ => none

def checkWinner : Option PubKey := lines.findSome? self.lineOwner

def isDraw : Bool := decide (∀ sq, (self.board sq).isSome)

def status : Except Fault TTTGameStatus :=
  match self.checkWinner with
  | some winner => return .winner winner
  | none =>
    if self.isDraw then return .draw
    else do
      let pk ← self.player self.currentIndex
      return .inProgress pk

def poll : Except Fault TTTState := do
  let firstPlayer ← self.player 0
  let status ← self.status
  return { board := self.board, firstPlayer, status }

instance : Episode TicTacToe where
  Command := TTTMove
  CommandRollback := TTTRollback
  CommandError := TTTError
  World := Unit
  Fault := Fault
  codec := TTTMove.codec
  initializeWith participants metadata := return create participants metadata
  execute self cmd authorization metadata := StateT.lift (self.execute cmd authorization metadata)
  rollback self rollback := StateT.lift (self.rollback rollback)

end TicTacToe

/-- The callbacks of one player; what is sent to the player is their result. -/
structure TTTHandler where
  player : PubKey

namespace TTTHandler
variable (self : TTTHandler)

def onInitialize (episodeId : EpisodeId) (episode : TicTacToe) :
    Except Fault (List (EpisodeId × TTTState)) :=
  if self.player ∈ episode.players then do
    let state ← episode.poll
    return [(episodeId, state)]
  else return []

def onCommand (episodeId : EpisodeId) (episode : TicTacToe) :
    Except Fault (List (EpisodeId × TTTState)) :=
  if self.player ∈ episode.players then do
    let state ← episode.poll
    return [(episodeId, state)]
  else return []

def handle : HandlerCall TicTacToe → Except Fault (List (EpisodeId × TTTState))
  | .onInitialize episodeId episode => self.onInitialize episodeId episode
  | .onCommand episodeId episode _ _ _ => self.onCommand episodeId episode
  | .onRollback _ _ => return []

/-- The engine's thread with this handler, on the messages received. The callbacks come after the
run here, which changes at most the panic that is met first. -/
def run (msgs : List EngineMsg) :
    Except (Panic TicTacToe) (Engine TicTacToe × List (EpisodeId × TTTState)) := do
  let (engine, calls) ← Engine.start msgs (.new () : Engine TicTacToe)
  let sent ← (calls.mapM self.handle).mapError .episode
  return (engine, sent.flatten)

end TTTHandler
end Kdapp
