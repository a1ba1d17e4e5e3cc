import Kdapp.TicTacToe
import Kdapp.Library.Outcome

/-! The same game as the MCP server keeps it (`kdapp-mcp-server/src/state.rs`). -/

namespace Kdapp

/-- `Player::X` and `Player::O`. -/
inductive Player where
  | x
  | o
deriving DecidableEq

inductive TicTacToeError where
  | outOfBounds
  | cellOccupied
  | wrongTurn
deriving DecidableEq

inductive TttCommand where
  | move (row col player : UInt8)
deriving DecidableEq

structure TttRemoved where
  row : UInt8
  col : UInt8
  symbol : UInt8
deriving DecidableEq

structure TttRollback where
  row : UInt8
  col : UInt8
  prevPlayer : UInt8
  removed : Option TttRemoved
deriving DecidableEq

variable [Crypto]

structure TicTacToeEpisode where
  /-- 0 empty, 1 X, 2 O. -/
  board : Board UInt8
  current : Player
  participants : List PubKey
  /-- The last six squares, the oldest first. -/
  moveHistory : List (UInt8 × UInt8)
deriving DecidableEq

/-- `want`: 0 for X, 1 for O. -/
def Player.number : Player → UInt8
  | .x => 0
  | .o => 1

namespace TicTacToeEpisode

/-- `Episode::initialize`. -/
def create (participants : List PubKey) : TicTacToeEpisode where
  board _ := 0
  current := .x
  participants := participants
  moveHistory := []

variable (self : TicTacToeEpisode)

def designated (player : UInt8) : Option PubKey :=
  if player = 0 then self.participants[0]? else self.participants[1]?

def slide : Except Fault (Board UInt8 × List (UInt8 × UInt8) × Option TttRemoved) :=
  if self.moveHistory.length = 6 then
    match self.moveHistory with
    | (oldR, oldC) :: moveHistory => do
      let sym ← self.board.index oldR.toNat oldC.toNat
      if sym ≠ 0 then
        let board ← self.board.assign oldR.toNat oldC.toNat 0
        return (board, moveHistory, some ⟨oldR, oldC, sym⟩)
      else return (self.board, moveHistory, none)
    | [] => return (self.board, [], none)
  else return (self.board, self.moveHistory, none)

/-- The part of `execute` after its checks. -/
def apply (row col player : UInt8) : Except Fault (TicTacToeEpisode × TttRollback) := do
  let (board, moveHistory, removed) ← self.slide
  let board ← board.assign row.toNat col.toNat (if player = 0 then 1 else 2)
  return ({ self with
      board
      moveHistory := moveHistory ++ [(row, col)]
      current := if player = 0 then .o else .x },
    { row, col, prevPlayer := self.current.number, removed })

def execute (cmd : TttCommand) (authorization : Option PubKey) :
    Except Fault (TicTacToeEpisode × Except (EpisodeError TicTacToeError) TttRollback) :=
  match cmd with
  | .move row col player =>
    if row.toNat > 2 ∨ col.toNat > 2 then
      return (self, .error (.invalidCommand .outOfBounds))
    else do
      let cell ← self.board.index row.toNat col.toNat
      if cell ≠ 0 then return (self, .error (.invalidCommand .cellOccupied))
      else if player ≠ self.current.number then
        return (self, .error (.invalidCommand .wrongTurn))
      else
        match authorization, self.designated player with
        | some authPk, some expected =>
          if authPk ≠ expected then return (self, .error .unauthorized)
          else do
            let (episode, rollback) ← self.apply row col player
            return (episode, .ok rollback)
        | _, _ => return (self, .error .unauthorized)

def putBack (removed : Option TttRemoved) : Except Fault TicTacToeEpisode :=
  match removed with
  | some rem =>
    if rem.row.toNat ≤ 2 ∧ rem.col.toNat ≤ 2 then do
      let board ← self.board.assign rem.row.toNat rem.col.toNat rem.symbol
      return { self with board, moveHistory := (rem.row, rem.col) :: self.moveHistory }
    else return self
  | none => return self

def rollback (rollback : TttRollback) : Except Fault (TicTacToeEpisode × Bool) :=
  if rollback.row.toNat > 2 ∨ rollback.col.toNat > 2 then return (self, false)
  else do
    let board ← self.board.assign rollback.row.toNat rollback.col.toNat 0
    let self : TicTacToeEpisode := { self with
      board
      moveHistory := self.moveHistory.dropLast }
    let self ← self.putBack rollback.removed
    return ({ self with current := if rollback.prevPlayer = 0 then .x else .o }, true)

structure Node where
  episode : TicTacToeEpisode
  stack : List TttRollback

namespace Node

def start (participants : List PubKey) : Node := ⟨create participants, []⟩

def move (self : Node) (cmd : TttCommand) (authorization : Option PubKey) : Node :=
  match self.episode.execute cmd authorization with
  | .ok (episode, .ok rollback) => ⟨episode, rollback :: self.stack⟩
  | .ok (episode, .error _) => { self with episode }
  | .error _ => self

def rollback (self : Node) : Node :=
  match self.stack with
  | rollback :: stack =>
    match self.episode.rollback rollback with
    | .ok (episode, _) => ⟨episode, stack⟩
    | .error _ => self
  | [] => self

end Node
end TicTacToeEpisode
end Kdapp
