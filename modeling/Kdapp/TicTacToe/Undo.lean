import Kdapp.Library.Transition
import Kdapp.TicTacToe.Panics
import Kdapp.TicTacToe.Play

/-! When a rollback takes back the move it was made for. It passes the turn on like a move does,
which comes round to the mover again with two players at most. -/

namespace Kdapp
open Outcome Turns Transition UndoLog

variable [Crypto]

namespace TicTacToe
variable {seats : Seating} {p : SixPiecePlay} {g g' : TicTacToe} {cmd : TTTMove}
  {auth : Option PubKey} {md : PayloadMetadata} {rb : TTTRollback} {participants : List PubKey}

/-- The rollback succeeds and leaves board, turn, time and history as they were in `before`. -/
def TakesBack (g : TicTacToe) (rb : TTTRollback) (before : TicTacToe) : Prop :=
  ∃ g', g.rollback rb = .ok (g', true) ∧ g'.board = before.board ∧
    g'.currentIndex = before.currentIndex ∧ g'.timestamp = before.timestamp ∧
    g'.moveHistory = before.moveHistory

section FewPlayers

theorem exists_seating (hne : participants ≠ []) (hlen : participants.length ≤ 2) :
    ∃ seats : Seating, seats.players = participants ∧ seats.index .first = 0 := by
  match participants, hne, hlen with
  | [player], _, _ => exact ⟨.one player, rfl, rfl⟩
  | [first, second], _, _ => exact ⟨.two first second, rfl, rfl⟩

theorem create_seated (hfirst : seats.index .first = 0) (md : PayloadMetadata) :
    Seated seats .opening (create seats.players md) where
  board _ := rfl
  players := rfl
  current := hfirst.symm
  history := rfl

theorem Seated.undo (h : Seated seats p g) (hexec : g.execute cmd auth md = .ok (g', .ok rb)) :
    g'.rollback rb = .ok (g, true) ∧ ∃ p', Seated seats p' g' := by
  rcases h.execute_cases cmd auth md with ⟨-, e, hrejects⟩ | ⟨sq, g₁, hfree, hadmits, haccepts, h₁⟩
  · cases hexec.symm.trans hrejects
  · cases hexec.symm.trans haccepts
    have hundo : ∃ g₂, g'.rollback ⟨cmd, p.leaving.map toMove, g.timestamp⟩ = .ok (g₂, true) ∧
        Seated seats p g₂ ∧ g₂.timestamp = g.timestamp := h₁.rollback hadmits.onBoard rfl
    obtain ⟨g₂, hroll, h₂, htime⟩ := hundo
    rw [hroll, h₂.eq_of_timestamp h htime]
    exact ⟨rfl, _, h₁⟩

inductive Made (seats : Seating) (r : Record) : TicTacToe → TicTacToe → Prop
  | intro {q : SixPiecePlay} {b b' : TicTacToe} {mv signer metadata} (h : Seated seats q b)
    (hexec : b.execute mv signer metadata = .ok (b', .ok r.rollback)) : Made seats r b b'

/-- The moves on the stack were made one after another, and lead to the game as it is. -/
structure Node.Retraces (seats : Seating) (created : TicTacToe) (node : Node) : Prop where
  chain : Chain (Made seats) created node.stack node.game
  seated : ∃ p, Seated seats p node.game

theorem Node.Retraces.step {created : TicTacToe} {node : Node} (h : node.Retraces seats created)
    (e : Event) : (node.step e).Retraces seats created := by
  obtain ⟨p, hseated⟩ := h.seated
  cases e with
  | move cmd auth md =>
    unfold Node.step
    rcases hseated.execute_cases cmd auth md with ⟨-, e, hexec⟩ | ⟨sq, g', hfree, -, hexec, h'⟩
    · simp only [hexec]
      exact h
    · simp only [hexec]
      exact ⟨h.chain.cons (.intro hseated hexec), _, h'⟩
  | rollback =>
    unfold Node.step
    cases hstack : node.stack with
    | nil => exact h
    | cons record stack =>
      have hchain := h.chain
      rw [hstack] at hchain
      obtain ⟨before, hrest, hmade⟩ := hchain.uncons
      cases hmade with
      | intro hbefore hexec =>
        simp only [(hbefore.undo hexec).1]
        exact ⟨hrest, _, hbefore⟩

theorem retraces_after (hfirst : seats.index .first = 0) (md : PayloadMetadata)
    (events : List Event) :
    (after Node.step (.start seats.players md) events).Retraces seats
      (create seats.players md) := by
  induction events using List.reverseRecOn with
  | nil => exact ⟨.nil, _, create_seated hfirst md⟩
  | append_singleton events e ih =>
    rw [after_concat]
    exact ih.step e

end FewPlayers

section ManyPlayers

/-- A game among these players whose indices are in bounds, as are those on its stack. -/
structure Node.Sound (participants : List PubKey) (node : Node) : Prop where
  players : node.game.players = participants
  inBounds : node.game.InBounds
  stack : ∀ record ∈ node.stack, record.rollback.OnBoard

theorem Node.Sound.step {node : Node} (hne : participants ≠ []) (h : node.Sound participants)
    (e : Event) : (node.step e).Sound participants := by
  have hplayers : node.game.players ≠ [] := h.players ▸ hne
  cases e with
  | move cmd auth md =>
    unfold Node.step
    rcases h.inBounds.execute_cases cmd auth md with ⟨-, -, hexec⟩ | ⟨-, -, e, hexec⟩ |
      ⟨pk, sq, board, history, removedMv, hadmits, hremoves, hexec⟩
    · simp only [hexec]
      exact h
    · simp only [hexec]
      exact h
    · simp only [hexec]
      refine ⟨h.players, h.inBounds.moved hadmits hremoves, fun record hrecord => ?_⟩
      rcases List.mem_cons.mp hrecord with rfl | hrecord
      · exact ⟨hadmits.onBoard ▸ Option.some_ne_none sq, hremoves.onBoard⟩
      · exact h.stack record hrecord
  | rollback =>
    unfold Node.step
    cases hstack : node.stack with
    | nil => exact h
    | cons record stack =>
      have hmem : ∀ r ∈ record :: stack, r.rollback.OnBoard := hstack ▸ h.stack
      obtain ⟨g', res, hroll, hbounds, hsame⟩ :=
        h.inBounds.rollback hplayers (hmem record List.mem_cons_self)
      simp only [hroll]
      exact ⟨hsame.trans h.players, hbounds, fun r hr => hmem r (List.mem_cons_of_mem _ hr)⟩

theorem sound_after (hne : participants ≠ []) (md : PayloadMetadata) (events : List Event) :
    (after Node.step (.start participants md) events).Sound participants := by
  induction events using List.reverseRecOn with
  | nil => exact ⟨rfl, create_inBounds participants md, nofun⟩
  | append_singleton events e ih =>
    rw [after_concat]
    exact ih.step hne e

theorem restoreOldest_currentIndex {removedMv : Option TTTMove}
    (h : g.restoreOldest removedMv = .ok g') : g'.currentIndex = g.currentIndex := by
  cases removedMv with
  | none =>
    cases h
    rfl
  | some mv =>
    obtain ⟨pk, -, h⟩ := bind_ok h
    obtain ⟨board, -, h⟩ := bind_ok h
    cases h
    rfl

theorem rollback_currentIndex (hplayers : g.players ≠ [])
    (h : g.rollback rb = .ok (g', true)) :
    g'.currentIndex = (g.currentIndex + 1) % g.players.length := by
  unfold rollback at h
  obtain ⟨cell, -, h⟩ := bind_ok h
  split at h
  · cases h
  · obtain ⟨board, -, h⟩ := bind_ok h
    rw [bind_of_ok _ (nextIndex_of_ne_nil hplayers)] at h
    obtain ⟨g₁, hrestore, h⟩ := bind_ok h
    cases h
    exact restoreOldest_currentIndex hrestore

omit [Crypto] in
theorem mod_two_steps_ne {i n : ℕ} (hn : 2 < n) : ((i + 1) % n + 1) % n ≠ i % n := by
  rw [Nat.mod_add_mod]
  intro heq
  have hdvd : (i + 1 + 1 - i) % n = 0 := Nat.sub_mod_eq_zero_of_mod_eq heq
  have htwo : i + 1 + 1 - i = 2 := by omega
  rw [htwo, Nat.mod_eq_of_lt hn] at hdvd
  cases hdvd

theorem InBounds.not_takesBack (h : g.InBounds) (hlen : 2 < g.players.length)
    (hexec : g.execute cmd auth md = .ok (g', .ok rb)) : ¬ g'.TakesBack rb g := by
  rintro ⟨g'', hroll, -, hcurrent, -, -⟩
  obtain ⟨pk, sq, board, history, hadmits, -, -, -, rfl⟩ := execute_accepted h hexec
  have hlt : g.currentIndex < g.players.length := h.current hadmits.players_ne_nil
  rw [rollback_currentIndex (g := g.moved cmd md pk sq board history) hadmits.players_ne_nil hroll]
    at hcurrent
  apply mod_two_steps_ne (i := g.currentIndex) hlen
  rw [Nat.mod_eq_of_lt hlt]
  exact hcurrent

end ManyPlayers

/-- In every game that is reached, a rollback undoes the move it was made for if and only if there
are two participants at most. -/
theorem rollback_undoes_iff (hne : participants ≠ []) (created : PayloadMetadata)
    (events : List Event)
    (hexec : (after Node.step (.start participants created) events).game.execute cmd auth md =
      .ok (g', .ok rb)) :
    g'.TakesBack rb (after Node.step (.start participants created) events).game ↔
      participants.length ≤ 2 := by
  have hsound := sound_after hne created events
  constructor
  · intro htakes
    by_contra hlen
    apply hsound.inBounds.not_takesBack _ hexec htakes
    rw [hsound.players]
    exact not_le.mp hlen
  · intro hlen
    obtain ⟨seats, rfl, hfirst⟩ := exists_seating hne hlen
    obtain ⟨p, hseated⟩ := (retraces_after hfirst created events).seated
    exact ⟨_, (hseated.undo hexec).1, rfl, rfl, rfl, rfl⟩

end TicTacToe
end Kdapp

namespace Kdapp.TicTacToe
open Outcome Transition
attribute [local instance] idealCrypto

def createdAt : PayloadMetadata := ⟨Hash.filled 1, 1, 1, Hash.filled 2, none⟩

def corner : Event := .move ⟨0, 0⟩ (some (1 : UInt8)) createdAt

def alone : List PubKey := [(1 : UInt8), (1 : UInt8)]

theorem rollback_undoes_at : ∃ g' rb,
    (after Node.step (.start alone createdAt) [corner]).game.execute
      ⟨1, 1⟩ (some (1 : UInt8)) createdAt = .ok (g', .ok rb) ∧
    (g'.TakesBack rb (after Node.step (.start alone createdAt) [corner]).game ↔
      alone.length ≤ 2) := by
  have hread : ((after Node.step (.start alone createdAt) [corner]).game.execute
      ⟨1, 1⟩ (some (1 : UInt8)) createdAt).toOption.map (·.2.isOk) = some true := by decide +kernel
  obtain ⟨⟨g', res⟩, hexec, hok⟩ := exists_of_map hread
  obtain ⟨rb, rfl⟩ := exists_of_isOk hok
  exact ⟨g', rb, hexec, rollback_undoes_iff (by decide) createdAt [corner] hexec⟩

def threePlayers : List PubKey := [(1 : UInt8), (2 : UInt8), (3 : UInt8)]

/-- After one move and its rollback it is the third player's turn. -/
theorem three_players_lose_turn :
    ¬ ∀ (participants : List PubKey) (created : PayloadMetadata) (events : List Event)
      (cmd : TTTMove) (auth : Option PubKey) (md : PayloadMetadata) (g' : TicTacToe)
      (rb : TTTRollback), participants ≠ [] →
      (after Node.step (.start participants created) events).game.execute cmd auth md =
        .ok (g', .ok rb) →
      g'.TakesBack rb (after Node.step (.start participants created) events).game := by
  intro h
  have hread : ((Node.start threePlayers createdAt).game.execute
      ⟨0, 0⟩ (some (1 : UInt8)) createdAt).toOption.map (·.2.isOk) = some true := by decide +kernel
  obtain ⟨⟨g', res⟩, hexec, hok⟩ := exists_of_map hread
  obtain ⟨rb, rfl⟩ := exists_of_isOk hok
  have htakes := h threePlayers createdAt [] _ _ _ g' rb (by decide) hexec
  exact (create_inBounds _ createdAt).not_takesBack (by decide) hexec htakes

end Kdapp.TicTacToe
