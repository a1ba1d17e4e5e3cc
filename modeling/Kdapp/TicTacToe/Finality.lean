import Kdapp.TicTacToe.Play
import Kdapp.Library.Transition

/-! When the first complete line decides a game: no check ends it, so it does as long as nobody
moves on. -/

namespace Kdapp
open Outcome Turns Transition InOrder

variable [Crypto]

namespace TicTacToe

def OwnsLine (g : TicTacToe) (pk : PubKey) : Prop :=
  ∃ line ∈ lines, g.board line.1 = some pk ∧ g.board line.2.1 = some pk ∧
    g.board line.2.2 = some pk

variable {first second pk : PubKey} {p : SixPiecePlay} {g g' : TicTacToe}

theorem lineOwner_eq_some {line : Square × Square × Square} :
    g.lineOwner line = some pk ↔ g.board line.1 = some pk ∧ g.board line.2.1 = some pk ∧
      g.board line.2.2 = some pk := by
  unfold lineOwner
  split
  · rename_i p₁ p₂ p₃ h₁ h₂ h₃
    rw [h₁, h₂, h₃, Option.ite_none_right_eq_some]
    constructor
    · rintro ⟨⟨rfl, rfl⟩, h⟩
      exact ⟨h, h, h⟩
    · rintro ⟨hp₁, hp₂, hp₃⟩
      cases hp₁
      cases hp₂
      cases hp₃
      exact ⟨⟨rfl, rfl⟩, rfl⟩
  · rename_i hnot
    refine iff_of_false nofun fun ⟨h₁, h₂, h₃⟩ => hnot pk pk pk h₁ h₂ h₃

theorem ownsLine_of_checkWinner (h : g.checkWinner = some pk) : g.OwnsLine pk := by
  obtain ⟨line, hline, howner⟩ := List.exists_of_findSome?_eq_some h
  exact ⟨line, hline, lineOwner_eq_some.mp howner⟩

theorem checkWinner_ne_none (h : g.OwnsLine pk) : g.checkWinner ≠ none := by
  obtain ⟨line, hline, howner⟩ := h
  intro hnone
  have hline' := List.findSome?_eq_none_iff.mp hnone line hline
  cases (lineOwner_eq_some.mpr howner).symm.trans hline'

theorem poll_of_ownsLine (h : Shows first second p g) (hline : g.OwnsLine pk)
    (hunique : ∀ pk', g.OwnsLine pk' → pk' = pk) :
    ∃ state, g.poll = .ok state ∧ state.status = .winner pk := by
  obtain ⟨winner, hwinner⟩ := Option.ne_none_iff_exists'.mp (checkWinner_ne_none hline)
  obtain rfl := hunique winner (ownsLine_of_checkWinner hwinner)
  have hfirst : g.players[0]? = some first := by
    rw [h.players]
    rfl
  refine ⟨⟨g.board, first, .winner winner⟩, ?_, rfl⟩
  unfold poll status
  rw [bind_of_ok _ (player_of_getElem? hfirst), hwinner]
  rfl

namespace Shows

theorem ownsLine_iff (h : Shows first second p g) (h' : Shows first second p g') :
    g.OwnsLine pk ↔ g'.OwnsLine pk := by
  have hboard : g.board = g'.board := funext fun sq => (h.board sq).trans (h'.board sq).symm
  unfold OwnsLine
  rw [hboard]

theorem opening_no_line (h : Shows first second .opening g) : ¬ g.OwnsLine pk := by
  rintro ⟨line, -, howner, -⟩
  rw [h.board] at howner
  cases howner

variable (hne : first ≠ second) (h : Shows first second p g)
include hne h

theorem board_eq_some {sq : Square} {s : Side} :
    g.board sq = some (sideKey first second s) ↔ p.owner sq = some s := by
  rw [h.board, Option.map_eq_some_iff]
  constructor
  · rintro ⟨t, howner, hkey⟩
    rw [howner, sideKey_injective hne hkey]
  · intro howner
    exact ⟨s, howner, rfl⟩

theorem mover_of_ownsLine {sq : Square} {hfree : sq ∉ p.placed}
    (h' : Shows first second (p.place sq hfree) g') (hnone : ∀ pk, ¬ g.OwnsLine pk)
    (hline : g'.OwnsLine pk) : pk = sideKey first second p.turn := by
  obtain ⟨line, hmem, h₁, h₂, h₃⟩ := hline
  obtain ⟨s, -, rfl⟩ := Option.map_eq_some_iff.mp ((h'.board line.1).symm.trans h₁)
  rcases Side.eq_or_eq_other s p.turn with rfl | rfl
  · rfl
  · -- the squares of the other side were its squares before the move
    have hbefore : ∀ d, g'.board d = some (sideKey first second p.turn.other) →
        g.board d = some (sideKey first second p.turn.other) := by
      intro d hd
      exact (h.board_eq_some hne).mpr (p.owner_of_place ((h'.board_eq_some hne).mp hd))
    exact absurd ⟨line, hmem, hbefore _ h₁, hbefore _ h₂, hbefore _ h₃⟩ (hnone _)

end Shows

/-- The first complete line decides: nobody moved on from one, one player at most owns one, and
that player is reported as the winner as long as the completing move is not rolled back. -/
structure Decided (node : Node) : Prop where
  last : ∀ record ∈ node.stack.tail, ∀ pk, ¬ record.after.OwnsLine pk
  unique : ∀ pk pk', node.game.OwnsLine pk → node.game.OwnsLine pk' → pk' = pk
  winner : ∀ record ∈ node.stack, ∀ pk, record.after.OwnsLine pk →
    ∃ state, node.game.poll = .ok state ∧ state.status = .winner pk

/-- The event is not a move, by the player whose turn it is and to a free square, in a game with
a complete line. -/
def RespectsLine (node : Node) : Event → Prop
  | .move cmd auth _ => (∃ pk, node.game.OwnsLine pk) → ∀ pk sq, ¬ node.game.Admits cmd auth pk sq
  | .rollback => True

namespace Node.Plays
variable {node : Node} (hne : first ≠ second) (h : Plays first second p node)
include h

theorem newest {record : Record} {stack : List Record} (hstack : node.stack = record :: stack) :
    Shows first second p record.after := by
  have hchain := h.chain
  rw [hstack] at hchain
  obtain ⟨p₀, -, hplaces⟩ := hchain.uncons
  cases hplaces with
  | intro hmv hremoved hafter => exact hafter

theorem exists_newest (hline : node.game.OwnsLine pk) :
    ∃ record stack, node.stack = record :: stack ∧ record.after.OwnsLine pk := by
  cases hstack : node.stack with
  | nil =>
    have hchain := h.chain
    rw [hstack] at hchain
    cases hchain
    exact absurd hline h.shows.opening_no_line
  | cons record stack =>
    exact ⟨record, stack, rfl, (h.shows.ownsLine_iff (h.newest hstack)).mp hline⟩

include hne

theorem decided_move {sq : Square} {hfree : sq ∉ p.placed} {record : Record}
    (h' : Plays first second (p.place sq hfree) ⟨record.after, record :: node.stack⟩)
    (hdecided : Decided node) :
    Decided ⟨record.after, record :: node.stack⟩ ↔ ∀ pk, ¬ node.game.OwnsLine pk := by
  constructor
  · intro hnext pk hline
    obtain ⟨newest, stack, hstack, hline'⟩ := h.exists_newest hline
    exact hnext.last newest (hstack ▸ List.mem_cons_self) pk hline'
  · intro hnone
    have hearlier : ∀ r ∈ node.stack, ∀ pk, ¬ r.after.OwnsLine pk := by
      intro r hr pk hline
      cases hstack : node.stack with
      | nil =>
        rw [hstack] at hr
        cases hr
      | cons newest stack =>
        have hlast := hdecided.last
        rw [hstack] at hr hlast
        rcases List.mem_cons.mp hr with rfl | hr
        · exact hnone pk ((h.shows.ownsLine_iff (h.newest hstack)).mpr hline)
        · exact hlast r hr pk hline
    have hmover : ∀ pk, record.after.OwnsLine pk → pk = sideKey first second p.turn :=
      fun pk => h.shows.mover_of_ownsLine hne h'.shows hnone
    refine ⟨hearlier, fun pk pk' hline hline' => ?_, fun r hr pk hline => ?_⟩
    · rw [hmover pk hline, hmover pk' hline']
    · rcases List.mem_cons.mp hr with rfl | hr
      · apply poll_of_ownsLine h'.shows hline
        intro pk' hline'
        rw [hmover pk hline, hmover pk' hline']
      · exact absurd hline (hearlier r hr pk)

omit hne h in
theorem decided_rollback {record : Record} {stack : List Record} {p₀ : SixPiecePlay}
    {game : TicTacToe} (hstack : node.stack = record :: stack)
    (h' : Plays first second p₀ ⟨game, stack⟩) (hdecided : Decided node) :
    Decided ⟨game, stack⟩ := by
  have hlast := hdecided.last
  rw [hstack] at hlast
  have hnone : ∀ pk, ¬ game.OwnsLine pk := by
    intro pk hline
    obtain ⟨newest, rest, hrest, hline'⟩ := h'.exists_newest hline
    obtain rfl : stack = newest :: rest := hrest
    exact hlast newest List.mem_cons_self pk hline'
  refine ⟨fun r hr => hlast r (List.mem_of_mem_tail hr), fun pk pk' hline => ?_,
    fun r hr pk hline => ?_⟩
  · exact absurd hline (hnone pk)
  · exact absurd hline (hlast r hr pk)

theorem decided_step_iff (hdecided : Decided node) (e : Event) :
    Decided (node.step e) ↔ RespectsLine node e := by
  cases e with
  | move cmd auth md =>
    rcases h.move_cases cmd auth md with ⟨hnot, hsame⟩ | ⟨sq, record, hfree, hadmits, hstep, h'⟩
    · rw [hsame]
      exact iff_of_true hdecided fun _ => hnot
    · rw [hstep, h.decided_move hne h' hdecided]
      constructor
      · intro hnone hsome
        obtain ⟨pk, hline⟩ := hsome
        exact absurd hline (hnone pk)
      · intro hrespects pk hline
        exact hrespects ⟨pk, hline⟩ _ sq hadmits
  | rollback =>
    refine iff_of_true ?_ trivial
    rcases h.rollback_cases with ⟨-, hsame⟩ | ⟨record, stack, p₀, game, hstack, hstep, h'⟩
    · rw [hsame]
      exact hdecided
    · rw [hstep]
      exact decided_rollback hstack h' hdecided

end Node.Plays

theorem start_decided (first second : PubKey) (md : PayloadMetadata) :
    Decided (.start [first, second] md) where
  last := nofun
  unique _ _ hline := absurd hline (create_shows md).opening_no_line
  winner := nofun

/-- In every run of a game of two players, the first complete line decides as long as it lasts if
and only if no admitted move comes while there is one. -/
theorem finality_iff (hne : first ≠ second) (md : PayloadMetadata) (events : List Event) :
    Always Node.step (.start [first, second] md) Decided events ↔
      Throughout (fun earlier e =>
        RespectsLine (after Node.step (.start [first, second] md) earlier) e) events := by
  have hplays : ∃ p, Node.Plays first second p (.start [first, second] md) :=
    ⟨_, Node.Plays.start md⟩
  exact always_iff_throughout (Q := fun node => ∃ p, Node.Plays first second p node)
    (start_decided first second md) hplays (fun node e _ ⟨p, h⟩ _ => h.step e)
    (fun node e hdecided ⟨p, h⟩ => h.decided_step_iff hne hdecided e) events

end TicTacToe
end Kdapp

namespace Kdapp.TicTacToe
open Transition
attribute [local instance] idealCrypto

def someMetadata : PayloadMetadata where
  acceptingHash := Hash.filled 1
  acceptingDaa := 1
  acceptingTime := 1
  txId := Hash.filled 2
  txOutputs := none

def moveOf (pk : UInt8) (row col : UInt64) : Event :=
  .move ⟨row, col⟩ (some (pk : PubKey)) someMetadata

def twoLines : List Event :=
  [moveOf 1 0 0, moveOf 2 1 0, moveOf 1 0 1, moveOf 2 1 1, moveOf 1 0 2, moveOf 2 1 2]

theorem twoLines_undecided :
    ¬ Always Node.step (.start [(1 : UInt8), (2 : UInt8)] someMetadata) Decided twoLines := by
  intro h
  have htop : (after Node.step (.start [(1 : UInt8), (2 : UInt8)] someMetadata)
      (twoLines.take 6)).game.OwnsLine (1 : UInt8) := ⟨((0, 0), (0, 1), (0, 2)), by decide +kernel⟩
  have hmiddle : (after Node.step (.start [(1 : UInt8), (2 : UInt8)] someMetadata)
      (twoLines.take 6)).game.OwnsLine (2 : UInt8) := ⟨((1, 0), (1, 1), (1, 2)), by decide +kernel⟩
  exact absurd ((h 6).unique _ _ htop hmiddle) (by decide)

theorem finality_at :
    (¬ Always Node.step (.start [(1 : UInt8), (2 : UInt8)] someMetadata) Decided twoLines) ∧
    ¬ InOrder.Throughout (fun earlier e => RespectsLine
      (after Node.step (.start [(1 : UInt8), (2 : UInt8)] someMetadata) earlier) e) twoLines :=
  ⟨twoLines_undecided, fun h =>
    twoLines_undecided ((finality_iff (by decide) someMetadata twoLines).mpr h)⟩

theorem two_lines :
    ¬ ∀ (first second : PubKey) (md : PayloadMetadata) (events : List Event), first ≠ second →
      Always Node.step (.start [first, second] md) Decided events :=
  fun h => twoLines_undecided (h (1 : UInt8) (2 : UInt8) someMetadata twoLines (by decide))

end Kdapp.TicTacToe
