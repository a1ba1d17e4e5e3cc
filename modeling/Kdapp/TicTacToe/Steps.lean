import Kdapp.TicTacToe
import Kdapp.Library.Outcome

/-! What a move and a rollback can do to a game whose indices are in bounds. -/

namespace Kdapp
open Outcome

theorem square_eq_none {row col : ℕ} : square row col = none ↔ 3 ≤ row ∨ 3 ≤ col := by
  unfold square
  split
  · rename_i h
    simp only [reduceCtorEq, false_iff]
    omega
  · rename_i h
    simp only [true_iff]
    omega

theorem exists_square {row col : ℕ} (h : ¬ (3 ≤ row ∨ 3 ≤ col)) : ∃ sq, square row col = some sq :=
  Option.ne_none_iff_exists'.mp (square_eq_none.not.mpr h)

namespace Board
variable {α : Type} {self : Board α} {row col : ℕ} {sq : Square}

theorem index_of_square (h : square row col = some sq) : self.index row col = .ok (self sq) := by
  unfold index
  rw [h]

theorem assign_of_square (h : square row col = some sq) (a : α) :
    self.assign row col a = .ok (Function.update self sq a) := by
  unfold assign
  rw [h]

end Board

namespace TTTMove

def square (mv : TTTMove) : Option Square := Kdapp.square mv.row.toNat mv.col.toNat

theorem square_eq_none {mv : TTTMove} : mv.square = none ↔ 3 ≤ mv.row ∨ 3 ≤ mv.col := by
  unfold square
  rw [Kdapp.square_eq_none]
  rfl

end TTTMove

variable [Crypto]

namespace TicTacToe

structure InBounds (g : TicTacToe) : Prop where
  current : g.players ≠ [] → g.currentIndex < g.players.length
  history : ∀ p ∈ g.moveHistory, TTTMove.square ⟨p.1, p.2⟩ ≠ none

variable {g g' : TicTacToe} {cmd : TTTMove} {auth : Option PubKey} {md : PayloadMetadata}

theorem player_of_getElem? {i : ℕ} {pk : PubKey} (h : g.players[i]? = some pk) :
    g.player i = .ok pk := by
  unfold player
  rw [h]

theorem nextIndex_of_ne_nil (h : g.players ≠ []) :
    g.nextIndex = .ok ((g.currentIndex + 1) % g.players.length) := by
  unfold nextIndex
  rw [if_neg]
  exact fun hlen => h (List.eq_nil_of_length_eq_zero hlen)

inductive RemovesOldest (g : TicTacToe) :
    Board (Option PubKey) → List (UInt64 × UInt64) → Option TTTMove → Prop
  | few (h : g.moveHistory.length ≠ 6) : RemovesOldest g g.board g.moveHistory none
  | full {row col rest sq} (h : g.moveHistory = (row, col) :: rest) (hlen : rest.length = 5)
    (hsq : TTTMove.square ⟨row, col⟩ = some sq) :
    RemovesOldest g (Function.update g.board sq none) rest (some ⟨row, col⟩)

theorem InBounds.removeOldest (h : g.InBounds) :
    ∃ board history removedMv, g.removeOldest = .ok (board, history, removedMv) ∧
      g.RemovesOldest board history removedMv := by
  unfold TicTacToe.removeOldest
  split
  · rename_i hlen
    cases hhistory : g.moveHistory with
    | nil =>
      rw [hhistory] at hlen
      cases hlen
    | cons p rest =>
      obtain ⟨row, col⟩ := p
      have hmem : (row, col) ∈ g.moveHistory := by
        rw [hhistory]
        exact List.mem_cons_self
      obtain ⟨sq, hsq⟩ := Option.ne_none_iff_exists'.mp (h.history _ hmem)
      refine ⟨Function.update g.board sq none, rest, some ⟨row, col⟩, ?_, .full hhistory ?_ hsq⟩
      · dsimp only
        rw [bind_of_ok _ (Board.assign_of_square hsq none)]
        rfl
      · rw [hhistory] at hlen
        exact Nat.succ.inj hlen
  · rename_i hlen
    exact ⟨_, _, _, rfl, .few hlen⟩

/-- The move is signed by the player whose turn it is and goes to a free square. -/
structure Admits (g : TicTacToe) (cmd : TTTMove) (auth : Option PubKey) (pk : PubKey)
    (sq : Square) : Prop where
  authorized : auth = some pk
  turn : g.players[g.currentIndex]? = some pk
  onBoard : cmd.square = some sq
  free : g.board sq = none

def moved (g : TicTacToe) (cmd : TTTMove) (md : PayloadMetadata) (pk : PubKey) (sq : Square)
    (board : Board (Option PubKey)) (history : List (UInt64 × UInt64)) : TicTacToe where
  board := Function.update board sq (some pk)
  players := g.players
  currentIndex := (g.currentIndex + 1) % g.players.length
  timestamp := md.acceptingTime
  moveHistory := history ++ [(cmd.row, cmd.col)]

theorem InBounds.execute_cases (h : g.InBounds) (cmd : TTTMove) (auth : Option PubKey)
    (md : PayloadMetadata) :
    (auth ≠ none ∧ g.players = [] ∧ g.execute cmd auth md = .error .indexOutOfBounds) ∨
    ((∀ pk sq, ¬ g.Admits cmd auth pk sq) ∧ (auth = none ∨ g.players ≠ []) ∧
      ∃ e, g.execute cmd auth md = .ok (g, .error e)) ∨
    ∃ pk sq board history removedMv, g.Admits cmd auth pk sq ∧
      g.RemovesOldest board history removedMv ∧
      g.execute cmd auth md = .ok (g.moved cmd md pk sq board history,
        .ok ⟨cmd, removedMv, g.timestamp⟩) := by
  cases auth with
  | none =>
    refine .inr (.inl ⟨fun pk sq hadmits => ?_, .inl rfl, _, rfl⟩)
    cases hadmits.authorized
  | some pk =>
    by_cases hplayers : g.players = []
    · refine .inl ⟨Option.some_ne_none pk, hplayers, ?_⟩
      unfold execute player
      rw [hplayers]
      rfl
    refine .inr ?_
    obtain ⟨current, hcurrent⟩ : ∃ current, g.players[g.currentIndex]? = some current :=
      ⟨_, List.getElem?_eq_getElem (h.current hplayers)⟩
    unfold execute
    dsimp only
    rw [bind_of_ok _ (player_of_getElem? hcurrent)]
    -- the checks, in the order in which they are made
    split
    · rename_i hturn
      refine .inl ⟨fun pk' sq hadmits => hturn ?_, .inr hplayers, _, rfl⟩
      exact Option.some.inj (hadmits.authorized.trans (hadmits.turn.symm.trans hcurrent))
    rename_i hturn
    obtain rfl := not_not.mp hturn
    split
    · rename_i hbounds
      refine .inl ⟨fun pk' sq hadmits => ?_, .inr hplayers, _, rfl⟩
      cases (TTTMove.square_eq_none.mpr hbounds).symm.trans hadmits.onBoard
    rename_i hbounds
    obtain ⟨sq, hsq⟩ := Option.ne_none_iff_exists'.mp (TTTMove.square_eq_none.not.mpr hbounds)
    rw [bind_of_ok _ (Board.index_of_square hsq)]
    split
    · rename_i hoccupied
      refine .inl ⟨fun pk' sq' hadmits => ?_, .inr hplayers, _, rfl⟩
      cases hsq.symm.trans hadmits.onBoard
      rw [hadmits.free] at hoccupied
      cases hoccupied
    rename_i hfree
    obtain ⟨board, history, removedMv, hremove, hremoves⟩ := h.removeOldest
    refine .inr ⟨pk, sq, board, history, removedMv, ⟨rfl, hcurrent, hsq, ?_⟩, hremoves, ?_⟩
    · exact Option.not_isSome_iff_eq_none.mp hfree
    · rw [bind_of_ok _ hremove]
      dsimp only
      rw [bind_of_ok _ (Board.assign_of_square hsq _),
        bind_of_ok _ (nextIndex_of_ne_nil hplayers)]
      rfl

theorem execute_rejected {e : EpisodeError TTTError} (h : g.InBounds)
    (hexec : g.execute cmd auth md = .ok (g', .error e)) :
    g' = g ∧ ∀ pk sq, ¬ g.Admits cmd auth pk sq := by
  rcases h.execute_cases cmd auth md with ⟨-, -, herror⟩ | ⟨hadmits, -, e', hrejects⟩ |
    ⟨pk, sq, board, history, removedMv, -, -, haccepts⟩
  · cases hexec.symm.trans herror
  · cases hexec.symm.trans hrejects
    exact ⟨rfl, hadmits⟩
  · cases hexec.symm.trans haccepts

theorem execute_accepted {rb : TTTRollback} (h : g.InBounds)
    (hexec : g.execute cmd auth md = .ok (g', .ok rb)) :
    ∃ pk sq board history, g.Admits cmd auth pk sq ∧ rb.mv = cmd ∧
      rb.prevTimestamp = g.timestamp ∧ g.RemovesOldest board history rb.removedMv ∧
      g' = g.moved cmd md pk sq board history := by
  rcases h.execute_cases cmd auth md with ⟨-, -, herror⟩ | ⟨-, -, e', hrejects⟩ |
    ⟨pk, sq, board, history, removedMv, hadmits, hremoves, haccepts⟩
  · cases hexec.symm.trans herror
  · cases hexec.symm.trans hrejects
  · cases hexec.symm.trans haccepts
    exact ⟨pk, sq, board, history, hadmits, rfl, rfl, hremoves, rfl⟩

def undone (g : TicTacToe) (rb : TTTRollback) (sq : Square) : TicTacToe where
  board := Function.update g.board sq none
  players := g.players
  currentIndex := (g.currentIndex + 1) % g.players.length
  timestamp := rb.prevTimestamp
  moveHistory := g.moveHistory.dropLast

def restored (g : TicTacToe) (mv : TTTMove) (sq : Square) (pk : PubKey) : TicTacToe where
  board := Function.update g.board sq (some pk)
  players := g.players
  currentIndex := g.currentIndex
  timestamp := g.timestamp
  moveHistory := (mv.row, mv.col) :: g.moveHistory

section Rollback
variable {rb : TTTRollback} {sq : Square}

theorem rollback_free (hsq : rb.mv.square = some sq) (hfree : g.board sq = none) :
    g.rollback rb = .ok (g, false) := by
  unfold rollback
  rw [bind_of_ok _ (Board.index_of_square hsq), hfree]
  rfl

theorem rollback_taken (hplayers : g.players ≠ []) (hsq : rb.mv.square = some sq)
    (htaken : g.board sq ≠ none) (h : (g.undone rb sq).restoreOldest rb.removedMv = .ok g') :
    g.rollback rb = .ok (g', true) := by
  unfold rollback
  rw [bind_of_ok _ (Board.index_of_square hsq), if_neg (by simpa using htaken),
    bind_of_ok _ (Board.assign_of_square hsq _), bind_of_ok _ (nextIndex_of_ne_nil hplayers)]
  exact bind_of_ok _ h

theorem restoreOldest_some {mv : TTTMove} {pk : PubKey} (hsq : mv.square = some sq)
    (hpk : g.players[g.currentIndex]? = some pk) :
    g.restoreOldest (some mv) = .ok (g.restored mv sq pk) := by
  unfold restoreOldest
  dsimp only
  rw [bind_of_ok _ (player_of_getElem? hpk), bind_of_ok _ (Board.assign_of_square hsq _)]
  rfl

end Rollback

/-- An accepted move: what `execute` returned for its rollback, and the game it led to. -/
structure Record where
  rollback : TTTRollback
  after : TicTacToe

structure Node where
  game : TicTacToe
  stack : List Record

inductive Event where
  | move (cmd : TTTMove) (authorization : Option PubKey) (metadata : PayloadMetadata)
  | rollback

namespace Node

def step (self : Node) : Event → Node
  | .move cmd authorization metadata =>
    match self.game.execute cmd authorization metadata with
    | .ok (game, .ok rollback) => ⟨game, ⟨rollback, game⟩ :: self.stack⟩
    | .ok (game, .error _) => { self with game }
    | .error _ => self
  | .rollback =>
    match self.stack with
    | record :: stack =>
      match self.game.rollback record.rollback with
      | .ok (game, _) => ⟨game, stack⟩
      | .error _ => self
    | [] => self

def start (participants : List PubKey) (metadata : PayloadMetadata) : Node :=
  ⟨create participants metadata, []⟩

end Node

end TicTacToe
end Kdapp
