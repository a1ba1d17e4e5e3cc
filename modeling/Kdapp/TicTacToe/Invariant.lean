import Kdapp.Library.Transition
import Kdapp.TicTacToe.Play
import Mathlib.Data.Fintype.Card
import Mathlib.Data.List.Chain

/-! What holds of the board, the queue of moves and the turn in every game of two players. -/

namespace Kdapp
open Outcome Turns Transition

theorem indices_injective : Function.Injective indices := by
  intro sq sq' h
  have hmove : toMove sq = toMove sq' := congrArg (fun q => TTTMove.mk q.1 q.2) h
  have hsquare := square_toMove sq
  rw [hmove, square_toMove sq'] at hsquare
  exact (Option.some.inj hsquare).symm

variable [Crypto]

namespace TicTacToe

def ownerAt (g : TicTacToe) (entry : UInt64 × UInt64) : Option PubKey :=
  (TTTMove.square ⟨entry.1, entry.2⟩).bind g.board

/-- The queue lists the pieces on the board, the players took turns, and the board never fills
up. -/
structure BoardInvariant (first second : PubKey) (g : TicTacToe) : Prop where
  players : g.players = [first, second]
  occupied : ∀ sq, g.board sq ≠ none ↔ indices sq ∈ g.moveHistory
  onBoard : ∀ entry ∈ g.moveHistory, ∃ sq, indices sq = entry
  nodup : g.moveHistory.Nodup
  length_le : g.moveHistory.length ≤ 6
  alternate : g.moveHistory.IsChain fun entry next => ∃ pk pk',
    g.ownerAt entry = some pk ∧ g.ownerAt next = some pk' ∧ pk ≠ pk'
  newest : ∀ entry ∈ g.moveHistory.getLast?, ∃ pk mover, g.ownerAt entry = some pk ∧
    pk ∈ g.players ∧ g.players[g.currentIndex]? = some mover ∧ pk ≠ mover
  share : ∀ pk, (Finset.univ.filter fun sq => g.board sq = some pk).card ≤ 3
  noDraw : ∃ state, g.poll = .ok state ∧ state.status ≠ .draw

variable {first second : PubKey} {p : SixPiecePlay} {g : TicTacToe}

theorem ownerAt_indices (sq : Square) : g.ownerAt (indices sq) = g.board sq := by
  change (toMove sq).square.bind g.board = _
  rw [square_toMove]
  rfl

namespace Shows

theorem ownerAt (h : Shows first second p g) (sq : Square) :
    g.ownerAt (indices sq) = (p.owner sq).map (sideKey first second) := by
  rw [ownerAt_indices, h.board]

theorem mem_history (h : Shows first second p g) (sq : Square) :
    indices sq ∈ g.moveHistory ↔ sq ∈ p.placed := by
  rw [h.history, List.mem_reverse, List.mem_map_of_injective indices_injective]

theorem alternate (hne : first ≠ second) (h : Shows first second p g) :
    g.moveHistory.IsChain fun entry next => ∃ pk pk',
      g.ownerAt entry = some pk ∧ g.ownerAt next = some pk' ∧ pk ≠ pk' := by
  rw [h.history, List.isChain_reverse, List.isChain_map]
  have hsides : p.placed.IsChain fun newer older =>
      ∃ s, p.owner newer = some s ∧ p.owner older = some s.other := owner_isChain p.nodup
  apply hsides.imp
  rintro newer older ⟨s, hnewer, holder⟩
  refine ⟨sideKey first second s.other, sideKey first second s, ?_, ?_, ?_⟩
  · rw [h.ownerAt, holder]
    rfl
  · rw [h.ownerAt, hnewer]
    rfl
  · exact fun hkey => s.other_ne (sideKey_injective hne hkey)

theorem newest (hne : first ≠ second) (h : Shows first second p g)
    {entry : UInt64 × UInt64} (hentry : entry ∈ g.moveHistory.getLast?) :
    ∃ pk mover, g.ownerAt entry = some pk ∧ pk ∈ g.players ∧
      g.players[g.currentIndex]? = some mover ∧ pk ≠ mover := by
  rw [h.history, List.getLast?_reverse, List.head?_map] at hentry
  obtain ⟨sq, hhead, rfl⟩ := Option.map_eq_some_iff.mp hentry
  obtain ⟨placed, hplaced⟩ : ∃ placed, p.placed = sq :: placed := List.head?_eq_some_iff.mp hhead
  have howner : p.owner sq = some p.turn.other := by
    unfold Play.owner
    rw [hplaced]
    exact if_pos rfl
  refine ⟨sideKey first second p.turn.other, sideKey first second p.turn, ?_, ?_, ?_, ?_⟩
  · rw [h.ownerAt, howner]
    rfl
  · rw [h.players]
    cases p.turn with
    | first => exact List.mem_cons_of_mem _ List.mem_cons_self
    | second => exact List.mem_cons_self
  · exact (shows_iff.mp h).mover
  · exact fun hkey => p.turn.other_ne (sideKey_injective hne hkey)

theorem share (hne : first ≠ second) (h : Shows first second p g) (pk : PubKey) :
    (Finset.univ.filter fun sq => g.board sq = some pk).card ≤ 3 := by
  by_cases hside : ∃ s, sideKey first second s = pk
  · obtain ⟨s, rfl⟩ := hside
    have hsubset : (Finset.univ.filter fun sq => g.board sq = some (sideKey first second s)) ⊆
        (p.placed.filter fun sq => p.owner sq = some s).toFinset := by
      intro sq hsq
      have howner := (Finset.mem_filter.mp hsq).2
      rw [h.board, Option.map_eq_some_iff] at howner
      obtain ⟨t, ht, hkey⟩ := howner
      obtain rfl := sideKey_injective hne hkey
      have hplaced : sq ∈ p.placed := by
        rw [← not_not (a := sq ∈ p.placed), ← p.owner_eq_none, ht]
        exact Option.some_ne_none t
      exact List.mem_toFinset.mpr (List.mem_filter.mpr ⟨hplaced, decide_eq_true ht⟩)
    have hcount : (p.placed.filter fun sq => p.owner sq = some s).length ≤ 3 := by
      have hle := p.length_le
      rw [← List.countP_eq_length_filter]
      unfold Play.owner
      rw [owned_count p.nodup s]
      split
      · omega
      · omega
    exact (Finset.card_le_card hsubset).trans ((List.toFinset_card_le _).trans hcount)
  · have hempty : (Finset.univ.filter fun sq => g.board sq = some pk) = ∅ := by
      apply Finset.filter_eq_empty_iff.mpr
      intro sq _ howner
      rw [h.board, Option.map_eq_some_iff] at howner
      obtain ⟨s, -, hkey⟩ := howner
      exact hside ⟨s, hkey⟩
    rw [hempty]
    exact Nat.zero_le 3

theorem exists_free (h : Shows first second p g) : ∃ sq, g.board sq = none := by
  have hcard : p.placed.toFinset.card < (Finset.univ : Finset Square).card := by
    have hle := (List.toFinset_card_le p.placed).trans p.length_le
    have hnine : (Finset.univ : Finset Square).card = 9 := rfl
    omega
  obtain ⟨sq, -, hsq⟩ := Finset.exists_mem_notMem_of_card_lt_card hcard
  exact ⟨sq, (shows_iff.mp h).free_iff.mpr fun hmem => hsq (List.mem_toFinset.mpr hmem)⟩

theorem noDraw (h : Shows first second p g) :
    ∃ state, g.poll = .ok state ∧ state.status ≠ .draw := by
  have hseated := shows_iff.mp h
  have hfirst : g.players[0]? = some first := by
    rw [h.players]
    rfl
  have hdraw : g.isDraw = false := by
    obtain ⟨sq, hfree⟩ := h.exists_free
    apply decide_eq_false
    intro hall
    have htaken := hall sq
    rw [hfree] at htaken
    cases htaken
  have hstatus : ∃ status, g.status = .ok status ∧ status ≠ .draw := by
    unfold TicTacToe.status
    cases g.checkWinner with
    | some winner => exact ⟨_, rfl, nofun⟩
    | none =>
      rw [hdraw]
      exact ⟨_, bind_of_ok _ (player_of_getElem? hseated.mover), nofun⟩
  obtain ⟨status, hstatus, hne⟩ := hstatus
  refine ⟨⟨g.board, first, status⟩, ?_, hne⟩
  unfold TicTacToe.poll
  rw [bind_of_ok _ (player_of_getElem? hfirst), bind_of_ok _ hstatus]
  rfl

theorem boardInvariant (hne : first ≠ second) (h : Shows first second p g) :
    BoardInvariant first second g where
  players := h.players
  occupied sq := by rw [ne_eq, (shows_iff.mp h).free_iff, not_not, h.mem_history]
  onBoard entry hentry := by
    rw [h.history, List.mem_reverse] at hentry
    obtain ⟨sq, -, hsq⟩ := List.mem_map.mp hentry
    exact ⟨sq, hsq⟩
  nodup := by
    rw [h.history, List.nodup_reverse]
    exact p.nodup.map indices_injective
  length_le := by
    rw [h.history, List.length_reverse, List.length_map]
    exact p.length_le
  alternate := h.alternate hne
  newest _ := h.newest hne
  share := h.share hne
  noDraw := h.noDraw

end Shows

theorem Node.Plays.after (md : PayloadMetadata) (events : List Event) :
    ∃ p, Node.Plays first second p (after Node.step (.start [first, second] md) events) := by
  induction events using List.reverseRecOn with
  | nil => exact ⟨_, Node.Plays.start md⟩
  | append_singleton events e ih =>
    obtain ⟨p, hplays⟩ := ih
    rw [after_concat]
    exact hplays.step e

theorem board_invariant (hne : first ≠ second) (md : PayloadMetadata) (events : List Event) :
    BoardInvariant first second
      (after Node.step (.start [first, second] md) events).game := by
  obtain ⟨p, hplays⟩ := Node.Plays.after md events
  exact hplays.shows.boardInvariant hne

end TicTacToe
end Kdapp

namespace Kdapp.TicTacToe
open Transition
attribute [local instance] idealCrypto

/-- Both players fill the board with six pieces, a seventh moves the oldest away, and is taken
back. -/
def sevenMoves : List Event :=
  let moved (pk : UInt8) (row col : UInt64) : Event :=
    .move ⟨row, col⟩ (some (pk : PubKey)) ⟨Hash.filled 1, 1, 1, Hash.filled 2, none⟩
  [moved 1 0 0, moved 2 1 0, moved 1 0 1, moved 2 1 1, moved 1 2 2, moved 2 0 2, moved 1 2 0,
    .rollback]

theorem board_invariant_at : BoardInvariant (1 : UInt8) (2 : UInt8)
    (after Node.step (.start [(1 : UInt8), (2 : UInt8)] ⟨Hash.filled 1, 1, 1, Hash.filled 2, none⟩)
      sevenMoves).game :=
  board_invariant (by decide) _ _

end Kdapp.TicTacToe
