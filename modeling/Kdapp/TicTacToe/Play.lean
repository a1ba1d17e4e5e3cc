import Kdapp.TicTacToe.Steps
import Kdapp.Library.Turns
import Kdapp.Library.UndoLog

/-! A game of two players shows a play: the board, the turn and the history follow from the side
to move and the squares taken. -/

namespace Kdapp
open Outcome Turns

abbrev SixPiecePlay := Play Square 6

def indices (sq : Square) : UInt64 × UInt64 := (.ofNat sq.1, .ofNat sq.2)

def toMove (sq : Square) : TTTMove := ⟨.ofNat sq.1, .ofNat sq.2⟩

theorem square_toMove (sq : Square) : (toMove sq).square = some sq := by
  revert sq
  decide

theorem toMove_of_square {mv : TTTMove} {sq : Square} (h : mv.square = some sq) :
    mv = toMove sq := by
  unfold TTTMove.square square at h
  split at h
  · cases h
    simp only [toMove, UInt64.ofNat_toNat]
  · cases h

def sideIndex : Side → ℕ
  | .first => 0
  | .second => 1

variable [Crypto]

def sideKey (first second : PubKey) : Side → PubKey
  | .first => first
  | .second => second

theorem sideKey_injective {first second : PubKey} (hne : first ≠ second) :
    Function.Injective (sideKey first second) := by
  intro s t h
  cases s <;> cases t
  · rfl
  · exact absurd h hne
  · exact absurd h.symm hne
  · rfl

namespace TicTacToe

/-- Seats for the two sides: whose turn it is follows from the side to move. -/
structure Seating where
  players : List PubKey
  index : Side → ℕ
  key : Side → PubKey
  mover : ∀ s, players[index s]? = some (key s)
  next : ∀ s, (index s + 1) % players.length = index s.other

def Seating.two (first second : PubKey) : Seating where
  players := [first, second]
  index := sideIndex
  key := sideKey first second
  mover s := by cases s <;> rfl
  next s := by
    cases s with
    | first => rfl
    | second => exact Nat.mod_self 2

def Seating.one (player : PubKey) : Seating where
  players := [player]
  index _ := 0
  key _ := player
  mover _ := rfl
  next _ := Nat.mod_self 1

variable {seats : Seating} {p : SixPiecePlay} {g g' : TicTacToe} {cmd : TTTMove}
  {auth : Option PubKey} {md : PayloadMetadata} {sq : Square}

structure Seated (seats : Seating) (p : SixPiecePlay) (g : TicTacToe) : Prop where
  board : p.Painted (Option.map seats.key) g.board
  players : g.players = seats.players
  current : g.currentIndex = seats.index p.turn
  history : g.moveHistory = (p.placed.map indices).reverse

namespace Seated

theorem mover (h : Seated seats p g) :
    g.players[g.currentIndex]? = some (seats.key p.turn) := by
  rw [h.players, h.current]
  exact seats.mover p.turn

theorem current_lt (h : Seated seats p g) : g.currentIndex < g.players.length :=
  (List.getElem?_eq_some_iff.mp h.mover).1

theorem players_ne_nil (h : Seated seats p g) : g.players ≠ [] :=
  List.ne_nil_of_length_pos (Nat.zero_lt_of_lt h.current_lt)

theorem next (h : Seated seats p g) :
    (g.currentIndex + 1) % g.players.length = seats.index p.turn.other := by
  rw [h.players, h.current]
  exact seats.next p.turn

theorem inBounds (h : Seated seats p g) : g.InBounds where
  current _ := h.current_lt
  history q hq := by
    rw [h.history, List.mem_reverse] at hq
    obtain ⟨sq, -, rfl⟩ := List.mem_map.mp hq
    exact square_toMove sq ▸ Option.some_ne_none sq

theorem free_iff (h : Seated seats p g) : g.board sq = none ↔ sq ∉ p.placed := by
  rw [h.board, Option.map_eq_none_iff, Play.owner_eq_none]

theorem admits_iff (h : Seated seats p g) {pk : PubKey} :
    g.Admits cmd auth pk sq ↔ auth = some pk ∧ pk = seats.key p.turn ∧
      cmd.square = some sq ∧ sq ∉ p.placed := by
  rw [← h.free_iff]
  constructor
  · rintro ⟨hauth, hturn, hsq, hfree⟩
    exact ⟨hauth, Option.some.inj (hturn.symm.trans h.mover), hsq, hfree⟩
  · rintro ⟨hauth, rfl, hsq, hfree⟩
    exact ⟨hauth, h.mover, hsq, hfree⟩

theorem removesOldest (h : Seated seats p g) {board : Board (Option PubKey)}
    {history : List (UInt64 × UInt64)} {removedMv : Option TTTMove}
    (hremoves : g.RemovesOldest board history removedMv) :
    p.Cleared (Option.map seats.key) board ∧
    history = (p.kept.map indices).reverse ∧ removedMv = p.leaving.map toMove := by
  have hlength : g.moveHistory.length = p.placed.length := by
    rw [h.history, List.length_reverse, List.length_map]
  cases hremoves with
  | few hlen =>
    rw [hlength] at hlen
    have hleaving : p.leaving = none := if_neg hlen
    have hkept : p.kept = p.placed := if_neg hlen
    rw [hleaving, hkept]
    exact ⟨h.board.cleared_of_none hleaving, h.history, rfl⟩
  | @full row col rest sq hhistory hlen hsq =>
    have hfull : p.placed.length = 6 := by
      rw [← hlength, hhistory, List.length_cons, hlen]
    obtain ⟨c, hc⟩ := p.exists_leaving hfull
    have hplaced := p.kept_append_leaving
    rw [hc] at hplaced
    rw [h.history, ← hplaced, List.map_append, List.reverse_append] at hhistory
    obtain ⟨hhead, hrest⟩ := List.cons.inj hhistory
    cases hhead
    have hsame : sq = c := Option.some.inj (hsq.symm.trans (square_toMove c))
    subst hsame
    exact ⟨h.board.clear hc, hrest.symm, by rw [hc]; rfl⟩

theorem moved (h : Seated seats p g) (hsq : cmd.square = some sq) (hfree : sq ∉ p.placed)
    {board : Board (Option PubKey)} {history : List (UInt64 × UInt64)}
    {removedMv : Option TTTMove} (hremoves : g.RemovesOldest board history removedMv) :
    Seated seats (p.place sq hfree)
      (g.moved cmd md (seats.key p.turn) sq board history) := by
  obtain ⟨hboard, hhistory, -⟩ := h.removesOldest hremoves
  refine ⟨hboard.place, h.players, h.next, ?_⟩
  obtain rfl := toMove_of_square hsq
  change history ++ [indices sq] = ((sq :: p.kept).map indices).reverse
  rw [hhistory, List.map_cons, List.reverse_cons]

theorem execute_cases (h : Seated seats p g) (cmd : TTTMove) (auth : Option PubKey)
    (md : PayloadMetadata) :
    ((∀ pk sq, ¬ g.Admits cmd auth pk sq) ∧ ∃ e, g.execute cmd auth md = .ok (g, .error e)) ∨
    ∃ sq g', ∃ hfree : sq ∉ p.placed,
      g.Admits cmd auth (seats.key p.turn) sq ∧
      g.execute cmd auth md = .ok (g', .ok ⟨cmd, p.leaving.map toMove, g.timestamp⟩) ∧
      Seated seats (p.place sq hfree) g' := by
  rcases h.inBounds.execute_cases cmd auth md with ⟨-, hplayers, -⟩ | ⟨hnot, -, hrejects⟩ |
    ⟨pk, sq, board, history, removedMv, hadmits, hremoves, haccepts⟩
  · exact absurd hplayers h.players_ne_nil
  · exact .inl ⟨hnot, hrejects⟩
  · obtain ⟨-, rfl, hsq, hfree⟩ := h.admits_iff.mp hadmits
    obtain ⟨-, -, rfl⟩ := h.removesOldest hremoves
    exact .inr ⟨sq, _, hfree, hadmits, haccepts, h.moved hsq hfree hremoves⟩

theorem rollback {rb : TTTRollback} {hfree : sq ∉ p.placed}
    (h : Seated seats (p.place sq hfree) g) (hmv : rb.mv.square = some sq)
    (hremoved : rb.removedMv = p.leaving.map toMove) :
    ∃ g', g.rollback rb = .ok (g', true) ∧ Seated seats p g' ∧
      g'.timestamp = rb.prevTimestamp := by
  have htaken : g.board sq ≠ none := by
    rw [h.board, Play.owner_place, if_pos rfl]
    exact Option.some_ne_none _
  have hdrop : g.moveHistory.dropLast = (p.kept.map indices).reverse := by
    rw [h.history]
    change ((sq :: p.kept).map indices).reverse.dropLast = _
    rw [List.map_cons, List.reverse_cons, List.dropLast_concat]
  -- of two players, who is next is also who was last
  have hturn : (g.currentIndex + 1) % g.players.length = seats.index p.turn := by
    rw [h.next]
    exact congrArg seats.index p.turn.other_other
  have hboard : p.Cleared (Option.map seats.key) (g.undone rb sq).board := h.board.unplace
  have hplaced := p.kept_append_leaving
  cases hleaving : p.leaving with
  | none =>
    rw [hleaving] at hremoved hplaced
    have hrestore : (g.undone rb sq).restoreOldest rb.removedMv = .ok (g.undone rb sq) := by
      rw [hremoved]
      rfl
    refine ⟨_, rollback_taken h.players_ne_nil hmv htaken hrestore, ?_, rfl⟩
    refine ⟨hboard.painted_of_none hleaving, h.players, hturn, hdrop.trans ?_⟩
    rw [← hplaced]
    exact congrArg (fun l => (l.map indices).reverse) (List.append_nil p.kept).symm
  | some c =>
    rw [hleaving] at hremoved hplaced
    -- the oldest piece goes back to the mover, whose turn it is again
    have hmover : (g.undone rb sq).players[(g.undone rb sq).currentIndex]? =
        some (seats.key p.turn) := by
      change g.players[(g.currentIndex + 1) % g.players.length]? = _
      rw [hturn, h.players]
      exact seats.mover p.turn
    have hrestore : (g.undone rb sq).restoreOldest rb.removedMv =
        .ok ((g.undone rb sq).restored (toMove c) c (seats.key p.turn)) := by
      rw [hremoved]
      exact restoreOldest_some (square_toMove c) hmover
    refine ⟨_, rollback_taken h.players_ne_nil hmv htaken hrestore, ?_, rfl⟩
    refine ⟨hboard.restore rfl hleaving, h.players, hturn, ?_⟩
    change indices c :: g.moveHistory.dropLast = _
    rw [hdrop, ← hplaced, List.map_append, List.reverse_append]
    rfl

theorem eq_of_timestamp (h : Seated seats p g) (h' : Seated seats p g')
    (htime : g.timestamp = g'.timestamp) : g = g' := by
  have hboard : g.board = g'.board := by
    funext sq
    rw [h.board, h'.board]
  have hplayers : g.players = g'.players := h.players.trans h'.players.symm
  have hcurrent : g.currentIndex = g'.currentIndex := h.current.trans h'.current.symm
  have hhistory : g.moveHistory = g'.moveHistory := h.history.trans h'.history.symm
  cases g
  cases g'
  cases hboard
  cases hplayers
  cases hcurrent
  cases htime
  cases hhistory
  rfl

end Seated

structure Shows (first second : PubKey) (p : SixPiecePlay) (g : TicTacToe) : Prop where
  board : p.Painted (Option.map (sideKey first second)) g.board
  players : g.players = [first, second]
  current : g.currentIndex = sideIndex p.turn
  history : g.moveHistory = (p.placed.map indices).reverse

variable {first second : PubKey}

theorem shows_iff : Shows first second p g ↔ Seated (.two first second) p g :=
  ⟨fun h => ⟨h.board, h.players, h.current, h.history⟩,
    fun h => ⟨h.board, h.players, h.current, h.history⟩⟩

theorem create_shows (md : PayloadMetadata) :
    Shows first second .opening (create [first, second] md) where
  board _ := rfl
  players := rfl
  current := rfl
  history := rfl

namespace Shows

theorem admits_iff (h : Shows first second p g) {pk : PubKey} :
    g.Admits cmd auth pk sq ↔ auth = some pk ∧ pk = sideKey first second p.turn ∧
      cmd.square = some sq ∧ sq ∉ p.placed :=
  (shows_iff.mp h).admits_iff

theorem execute_cases (h : Shows first second p g) (cmd : TTTMove) (auth : Option PubKey)
    (md : PayloadMetadata) :
    ((∀ pk sq, ¬ g.Admits cmd auth pk sq) ∧ ∃ e, g.execute cmd auth md = .ok (g, .error e)) ∨
    ∃ sq g', ∃ hfree : sq ∉ p.placed,
      g.Admits cmd auth (sideKey first second p.turn) sq ∧
      g.execute cmd auth md = .ok (g', .ok ⟨cmd, p.leaving.map toMove, g.timestamp⟩) ∧
      Shows first second (p.place sq hfree) g' := by
  simp only [shows_iff]
  exact (shows_iff.mp h).execute_cases cmd auth md

theorem rollback {rb : TTTRollback} {hfree : sq ∉ p.placed}
    (h : Shows first second (p.place sq hfree) g) (hmv : rb.mv.square = some sq)
    (hremoved : rb.removedMv = p.leaving.map toMove) :
    ∃ g', g.rollback rb = .ok (g', true) ∧ Shows first second p g' ∧
      g'.timestamp = rb.prevTimestamp := by
  simp only [shows_iff]
  exact (shows_iff.mp h).rollback hmv hremoved

end Shows

inductive Places (first second : PubKey) (r : Record) : SixPiecePlay → SixPiecePlay → Prop
  | intro {q : SixPiecePlay} {c} {hfree : c ∉ q.placed} (hmv : r.rollback.mv.square = some c)
    (hremoved : r.rollback.removedMv = q.leaving.map toMove)
    (hafter : Shows first second (q.place c hfree) r.after) :
    Places first second r q (q.place c hfree)

structure Node.Plays (first second : PubKey) (p : SixPiecePlay) (node : Node) : Prop where
  chain : UndoLog.Chain (Places first second) .opening node.stack p
  shows : Shows first second p node.game

namespace Node.Plays
variable {node : Node}

theorem start (md : PayloadMetadata) : Plays first second .opening (.start [first, second] md) :=
  ⟨.nil, create_shows md⟩

theorem move_cases (h : Plays first second p node) (cmd : TTTMove) (auth : Option PubKey)
    (md : PayloadMetadata) :
    ((∀ pk sq, ¬ node.game.Admits cmd auth pk sq) ∧ node.step (.move cmd auth md) = node) ∨
    ∃ sq record, ∃ hfree : sq ∉ p.placed,
      node.game.Admits cmd auth (sideKey first second p.turn) sq ∧
      node.step (.move cmd auth md) = ⟨record.after, record :: node.stack⟩ ∧
      Plays first second (p.place sq hfree) ⟨record.after, record :: node.stack⟩ := by
  rcases h.shows.execute_cases cmd auth md with ⟨hnot, e, hexec⟩ |
    ⟨sq, g', hfree, hadmits, hexec, hshows⟩
  · refine .inl ⟨hnot, ?_⟩
    simp only [step, hexec]
  · refine .inr ⟨sq, ⟨⟨cmd, p.leaving.map toMove, node.game.timestamp⟩, g'⟩, hfree, hadmits, ?_,
      ?_, hshows⟩
    · simp only [step, hexec]
    · exact h.chain.cons (.intro hadmits.onBoard rfl hshows)

theorem rollback_cases (h : Plays first second p node) :
    (node.stack = [] ∧ node.step .rollback = node) ∨
    ∃ record stack p₀ game, node.stack = record :: stack ∧
      node.step .rollback = ⟨game, stack⟩ ∧ Plays first second p₀ ⟨game, stack⟩ := by
  cases hstack : node.stack with
  | nil =>
    refine .inl ⟨rfl, ?_⟩
    simp only [step, hstack]
  | cons record stack =>
    have hchain := h.chain
    rw [hstack] at hchain
    obtain ⟨p₀, hrest, hplaces⟩ := hchain.uncons
    cases hplaces with
    | intro hmv hremoved hafter =>
      obtain ⟨game, hroll, hshows, -⟩ := h.shows.rollback hmv hremoved
      refine .inr ⟨record, stack, p₀, game, rfl, ?_, hrest, hshows⟩
      simp only [step, hstack, hroll]

theorem step (h : Plays first second p node) (e : Event) :
    ∃ p', Plays first second p' (node.step e) := by
  cases e with
  | move cmd auth md =>
    rcases h.move_cases cmd auth md with ⟨-, hsame⟩ | ⟨sq, record, hfree, -, hstep, hplays⟩
    · rw [hsame]
      exact ⟨p, h⟩
    · rw [hstep]
      exact ⟨_, hplays⟩
  | rollback =>
    rcases h.rollback_cases with ⟨-, hsame⟩ | ⟨record, stack, p₀, game, -, hstep, hplays⟩
    · rw [hsame]
      exact ⟨p, h⟩
    · rw [hstep]
      exact ⟨p₀, hplays⟩

end Node.Plays
end TicTacToe
end Kdapp
