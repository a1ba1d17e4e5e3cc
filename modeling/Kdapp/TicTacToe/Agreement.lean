import Kdapp.TicTacToe.Mcp
import Kdapp.TicTacToe.Play
import Kdapp.Library.Transition

/-! The two implementations of the game show the same play, move by move and rollback by
rollback. -/

namespace Kdapp
open Outcome Turns Transition

def TttCommand.toTTTMove : TttCommand → TTTMove
  | .move row col _ => ⟨row.toUInt64, col.toUInt64⟩

def TttCommand.player : TttCommand → UInt8
  | .move _ _ player => player

def byteIndices (sq : Square) : UInt8 × UInt8 := (.ofNat sq.1, .ofNat sq.2)

theorem square_byteIndices (sq : Square) :
    square (byteIndices sq).1.toNat (byteIndices sq).2.toNat = some sq := by
  revert sq
  decide

theorem indices_eq (sq : Square) :
    indices sq = ((byteIndices sq).1.toUInt64, (byteIndices sq).2.toUInt64) := by
  revert sq
  decide

theorem square_toTTTMove (row col player : UInt8) :
    (TttCommand.move row col player).toTTTMove.square = square row.toNat col.toNat := rfl

theorem byteIndices_le (sq : Square) :
    (byteIndices sq).1.toNat ≤ 2 ∧ (byteIndices sq).2.toNat ≤ 2 := by
  revert sq
  decide

theorem byteIndices_of_square {row col : UInt8} {sq : Square}
    (h : square row.toNat col.toNat = some sq) : (row, col) = byteIndices sq := by
  unfold square at h
  split at h
  · cases h
    simp only [byteIndices, UInt8.ofNat_toNat]
  · cases h

def sidePlayer : Side → Player
  | .first => .x
  | .second => .o

def sideSymbol : Side → UInt8
  | .first => 1
  | .second => 2

def mark (owner : Option Side) : UInt8 := (owner.map sideSymbol).getD 0

theorem sideSymbol_ne_zero (s : Side) : sideSymbol s ≠ 0 := by
  cases s <;> decide

variable [Crypto]

namespace TicTacToeEpisode

structure Shows (first second : PubKey) (p : SixPiecePlay) (m : TicTacToeEpisode) : Prop where
  board : p.Painted mark m.board
  participants : m.participants = [first, second]
  current : m.current = sidePlayer p.turn
  history : m.moveHistory = (p.placed.map byteIndices).reverse

variable {first second : PubKey} {p : SixPiecePlay} {m : TicTacToeEpisode} {row col player : UInt8}
  {cmd : TttCommand} {auth : Option PubKey} {sq : Square}

theorem create_shows : Shows first second .opening (create [first, second]) where
  board _ := rfl
  participants := rfl
  current := rfl
  history := rfl

/-- The piece that leaves the play, as the rollback object keeps it. -/
def removedOf (p : SixPiecePlay) : Option TttRemoved :=
  p.leaving.map fun sq => ⟨(byteIndices sq).1, (byteIndices sq).2, sideSymbol p.turn⟩

namespace Shows

theorem free_iff (h : Shows first second p m) : m.board sq = 0 ↔ sq ∉ p.placed := by
  rw [h.board, ← p.owner_eq_none]
  cases p.owner sq with
  | none => exact iff_of_true rfl rfl
  | some s => exact iff_of_false (sideSymbol_ne_zero s) nofun

theorem designated (h : Shows first second p m) :
    m.designated m.current.number = some (sideKey first second p.turn) := by
  unfold TicTacToeEpisode.designated
  rw [h.current, h.participants]
  cases p.turn <;> rfl

theorem slide (h : Shows first second p m) :
    ∃ board, m.slide = .ok (board, (p.kept.map byteIndices).reverse, removedOf p) ∧
      p.Cleared mark board := by
  have hlength : m.moveHistory.length = p.placed.length := by
    rw [h.history, List.length_reverse, List.length_map]
  unfold TicTacToeEpisode.slide removedOf
  by_cases hfull : p.placed.length = 6
  · obtain ⟨c, hc⟩ := p.exists_leaving hfull
    have hhistory := h.history
    rw [← p.kept_append_leaving, hc, List.map_append, List.reverse_append] at hhistory
    change m.moveHistory = byteIndices c :: _ at hhistory
    have howner : m.board c = sideSymbol p.turn := by
      rw [h.board, p.owner_of_leaving rfl hc]
      rfl
    rw [if_pos (hlength.trans hfull), hhistory, hc]
    dsimp only
    rw [bind_of_ok _ (Board.index_of_square (square_byteIndices c)), howner,
      if_pos (sideSymbol_ne_zero _), bind_of_ok _ (Board.assign_of_square (square_byteIndices c) 0)]
    exact ⟨_, rfl, h.board.clear hc⟩
  · have hleaving : p.leaving = none := if_neg hfull
    have hkept : p.kept = p.placed := if_neg hfull
    rw [if_neg (hlength ▸ hfull), hleaving, hkept, ← h.history]
    exact ⟨m.board, rfl, h.board.cleared_of_none hleaving⟩

theorem apply (h : Shows first second p m) (hsq : square row.toNat col.toNat = some sq)
    (hfree : sq ∉ p.placed) :
    ∃ m', m.apply row col m.current.number =
        .ok (m', ⟨row, col, m.current.number, removedOf p⟩) ∧
      Shows first second (p.place sq hfree) m' := by
  obtain ⟨board, hslide, hboard⟩ := h.slide
  unfold TicTacToeEpisode.apply
  rw [bind_of_ok _ hslide]
  dsimp only
  have hmark : (if m.current.number = 0 then 1 else 2) = mark (some p.turn) := by
    rw [h.current]
    cases p.turn <;> rfl
  rw [bind_of_ok _ (Board.assign_of_square hsq _), hmark]
  refine ⟨_, rfl, hboard.place, h.participants, ?_, ?_⟩
  · dsimp only
    rw [h.current]
    cases hturn : p.turn <;> simp [Play.place, hturn, sidePlayer, Side.other, Player.number]
  · change (p.kept.map byteIndices).reverse ++ [(row, col)] =
      ((sq :: p.kept).map byteIndices).reverse
    rw [byteIndices_of_square hsq, List.map_cons, List.reverse_cons]

theorem execute_cases (h : Shows first second p m) (row col player : UInt8)
    (auth : Option PubKey) :
    ((¬ ∃ sq, player = m.current.number ∧ auth = some (sideKey first second p.turn) ∧
        square row.toNat col.toNat = some sq ∧ sq ∉ p.placed) ∧
      ∃ e, m.execute (.move row col player) auth = .ok (m, .error e)) ∨
    ∃ sq m', ∃ hfree : sq ∉ p.placed, player = m.current.number ∧
      auth = some (sideKey first second p.turn) ∧ square row.toNat col.toNat = some sq ∧
      m.execute (.move row col player) auth =
        .ok (m', .ok ⟨row, col, m.current.number, removedOf p⟩) ∧
      Shows first second (p.place sq hfree) m' := by
  unfold execute
  dsimp only
  -- the checks, in the order in which they are made
  split
  · rename_i hbounds
    refine .inl ⟨?_, _, rfl⟩
    rintro ⟨sq, -, -, hsq, -⟩
    have hnone : square row.toNat col.toNat = none := square_eq_none.mpr (by omega)
    cases hsq.symm.trans hnone
  rename_i hbounds
  obtain ⟨sq, hsq⟩ : ∃ sq, square row.toNat col.toNat = some sq := exists_square (by omega)
  rw [bind_of_ok _ (Board.index_of_square hsq)]
  split
  · rename_i htaken
    refine .inl ⟨?_, _, rfl⟩
    rintro ⟨sq', -, -, hsq', hfree⟩
    cases hsq.symm.trans hsq'
    exact htaken (h.free_iff.mpr hfree)
  rename_i hfree
  have hfree : sq ∉ p.placed := h.free_iff.mp (not_not.mp hfree)
  split
  · rename_i hturn
    refine .inl ⟨?_, _, rfl⟩
    rintro ⟨-, hplayer, -⟩
    exact hturn hplayer
  rename_i hturn
  obtain rfl := not_not.mp hturn
  rw [h.designated]
  cases auth with
  | none =>
    refine .inl ⟨?_, _, rfl⟩
    rintro ⟨-, -, hauth, -⟩
    cases hauth
  | some pk =>
    dsimp only
    split
    · rename_i hpk
      refine .inl ⟨?_, _, rfl⟩
      rintro ⟨-, -, hauth, -⟩
      exact hpk (Option.some.inj hauth)
    · rename_i hpk
      obtain rfl := not_not.mp hpk
      obtain ⟨m', happly, hshows⟩ := h.apply hsq hfree
      refine .inr ⟨sq, m', hfree, rfl, rfl, hsq, ?_, hshows⟩
      rw [bind_of_ok _ happly]
      rfl

theorem rollback {hfree : sq ∉ p.placed} (h : Shows first second (p.place sq hfree) m)
    (hsq : square row.toNat col.toNat = some sq) :
    ∃ m', m.rollback ⟨row, col, (sidePlayer p.turn).number, removedOf p⟩ = .ok (m', true) ∧
      Shows first second p m' := by
  have hbounds : ¬ (row.toNat > 2 ∨ col.toNat > 2) := by
    intro hout
    have hnone : square row.toNat col.toNat = none := square_eq_none.mpr (by omega)
    cases hsq.symm.trans hnone
  have hdrop : m.moveHistory.dropLast = (p.kept.map byteIndices).reverse := by
    rw [h.history]
    change ((sq :: p.kept).map byteIndices).reverse.dropLast = _
    rw [List.map_cons, List.reverse_cons, List.dropLast_concat]
  have hcurrent : (if (sidePlayer p.turn).number = 0 then Player.x else .o) =
      sidePlayer p.turn := by
    cases p.turn <;> rfl
  have hboard : p.Cleared mark (Function.update m.board sq 0) := h.board.unplace
  have hplaced := p.kept_append_leaving
  unfold TicTacToeEpisode.rollback
  rw [if_neg hbounds, bind_of_ok _ (Board.assign_of_square hsq 0)]
  unfold removedOf
  cases hleaving : p.leaving with
  | none =>
    rw [hleaving] at hplaced
    refine ⟨_, rfl, hboard.painted_of_none hleaving, h.participants, hcurrent, hdrop.trans ?_⟩
    rw [← hplaced]
    exact congrArg (fun l => (l.map byteIndices).reverse) (List.append_nil p.kept).symm
  | some c =>
    rw [hleaving] at hplaced
    dsimp only [Option.map_some, putBack]
    rw [if_pos (byteIndices_le c), bind_of_ok _ (Board.assign_of_square (square_byteIndices c) _)]
    refine ⟨_, rfl, hboard.restore rfl hleaving, h.participants, hcurrent, ?_⟩
    change byteIndices c :: m.moveHistory.dropLast = _
    rw [hdrop, ← hplaced, List.map_append, List.reverse_append]
    rfl

end Shows

def pieceOf (participants : List PubKey) (symbol : UInt8) : Option PubKey :=
  if symbol = 1 then participants[0]? else if symbol = 2 then participants[1]? else none

structure Corresponds (t : TicTacToe) (m : TicTacToeEpisode) : Prop where
  players : t.players = m.participants
  board : ∀ sq, m.board sq ≤ 2 ∧ t.board sq = pieceOf m.participants (m.board sq)
  turn : t.currentIndex = m.current.number.toNat
  history : t.moveHistory = m.moveHistory.map fun q => (q.1.toUInt64, q.2.toUInt64)

theorem Shows.corresponds {t : TicTacToe} (ht : TicTacToe.Shows first second p t)
    (hm : Shows first second p m) : Corresponds t m where
  players := ht.players.trans hm.participants.symm
  board sq := by
    rw [ht.board, hm.board, hm.participants]
    rcases p.owner sq with _ | _ | _
    · exact ⟨by decide, rfl⟩
    · exact ⟨by decide, rfl⟩
    · exact ⟨by decide, rfl⟩
  turn := by
    rw [ht.current, hm.current]
    cases p.turn <;> rfl
  history := by
    rw [ht.history, hm.history, List.map_reverse, List.map_map]
    apply congrArg List.reverse
    exact List.map_congr_left fun sq _ => indices_eq sq

end TicTacToeEpisode

structure Pair where
  crate : TicTacToe.Node
  server : TicTacToeEpisode.Node

namespace Pair
open TicTacToeEpisode (Corresponds removedOf)

inductive Event where
  | move (cmd : TttCommand) (authorization : Option PubKey) (metadata : PayloadMetadata)
  | rollback

def start (participants : List PubKey) (metadata : PayloadMetadata) : Pair where
  crate := .start participants metadata
  server := .start participants

/-- The field `player` of the command names the side to move. -/
def NamesMover (self : Pair) (cmd : TttCommand) : Prop :=
  cmd.player.toNat = self.crate.game.currentIndex

instance (self : Pair) (cmd : TttCommand) : Decidable (self.NamesMover cmd) :=
  inferInstanceAs (Decidable (_ = _))

/-- The moves of the crate have no field `player`: a command that names the wrong side has no
counterpart there. -/
def step (self : Pair) : Event → Pair
  | .move cmd authorization metadata => {
    crate := if self.NamesMover cmd then
        self.crate.step (.move cmd.toTTTMove authorization metadata)
      else self.crate
    server := self.server.move cmd authorization }
  | .rollback => {
    crate := self.crate.step .rollback
    server := self.server.rollback }

inductive SameStory (first second : PubKey) :
    List TicTacToe.Record → List TttRollback → SixPiecePlay → Prop
  | nil : SameStory first second [] [] .opening
  | cons {records rollbacks q c row col} {hfree : c ∉ q.placed} {r : TicTacToe.Record}
    (h : SameStory first second records rollbacks q)
    (hmv : r.rollback.mv.square = some c) (hremoved : r.rollback.removedMv = q.leaving.map toMove)
    (hsq : square row.toNat col.toNat = some c) :
    SameStory first second (r :: records)
      (⟨row, col, (sidePlayer q.turn).number, removedOf q⟩ :: rollbacks) (q.place c hfree)

structure Together (first second : PubKey) (p : SixPiecePlay) (pair : Pair) : Prop where
  story : SameStory first second pair.crate.stack pair.server.stack p
  crate : TicTacToe.Shows first second p pair.crate.game
  server : TicTacToeEpisode.Shows first second p pair.server.episode

namespace Together
variable {first second : PubKey} {p : SixPiecePlay} {pair : Pair}

theorem start (md : PayloadMetadata) : Together first second .opening (.start [first, second] md) :=
  ⟨.nil, TicTacToe.create_shows md, TicTacToeEpisode.create_shows⟩

theorem namesMover_iff (h : Together first second p pair) (cmd : TttCommand) :
    pair.NamesMover cmd ↔ cmd.player = pair.server.episode.current.number := by
  unfold NamesMover
  rw [h.crate.current, h.server.current, ← UInt8.toNat_inj]
  cases p.turn <;> rfl

theorem admits_iff (h : Together first second p pair) {row col : UInt8} (player : UInt8)
    {auth : Option PubKey} {sq : Square} :
    pair.crate.game.Admits (TttCommand.move row col player).toTTTMove auth
        (sideKey first second p.turn) sq ↔
      auth = some (sideKey first second p.turn) ∧ square row.toNat col.toNat = some sq ∧
        sq ∉ p.placed := by
  rw [h.crate.admits_iff, square_toTTTMove]
  constructor
  · rintro ⟨hauth, -, hrest⟩
    exact ⟨hauth, hrest⟩
  · rintro ⟨hauth, hrest⟩
    exact ⟨hauth, rfl, hrest⟩

theorem move_cases (h : Together first second p pair) (cmd : TttCommand) (auth : Option PubKey)
    (md : PayloadMetadata) :
    ((¬ ∃ m rb, pair.server.episode.execute cmd auth = .ok (m, .ok rb)) ∧
      (¬ (pair.NamesMover cmd ∧
        ∃ t rb, pair.crate.game.execute cmd.toTTTMove auth md = .ok (t, .ok rb))) ∧
      pair.step (.move cmd auth md) = pair) ∨
    ((∃ m rb, pair.server.episode.execute cmd auth = .ok (m, .ok rb)) ∧
      (pair.NamesMover cmd ∧
        ∃ t rb, pair.crate.game.execute cmd.toTTTMove auth md = .ok (t, .ok rb)) ∧
      ∃ p', Together first second p' (pair.step (.move cmd auth md))) := by
  obtain ⟨row, col, player⟩ := cmd
  rcases h.server.execute_cases row col player auth with ⟨hnot, e, hserver⟩ |
    ⟨sq, m, hfree, hplayer, hauth, hsq, hserver, hm⟩
  -- what the server rejects the crate rejects too, if it is to make the move at all
  · have hcrate : pair.NamesMover (.move row col player) → ∃ e,
        pair.crate.game.execute (TttCommand.move row col player).toTTTMove auth md =
          .ok (pair.crate.game, .error e) := by
      intro hnames
      rcases h.crate.execute_cases (TttCommand.move row col player).toTTTMove auth md with
        ⟨-, hrejects⟩ | ⟨sq, t, hfree, hadmits, -⟩
      · exact hrejects
      · exact absurd ⟨sq, (h.namesMover_iff _).mp hnames, (h.admits_iff player).mp hadmits⟩ hnot
    refine .inl ⟨?_, ?_, ?_⟩
    · rintro ⟨m, rb, hm⟩
      cases hserver.symm.trans hm
    · rintro ⟨hnames, t, rb, ht⟩
      obtain ⟨e', hrejects⟩ := hcrate hnames
      cases hrejects.symm.trans ht
    · have hsame : pair.server.move (.move row col player) auth = pair.server := by
        simp only [TicTacToeEpisode.Node.move, hserver]
      simp only [step, hsame]
      split
      · rename_i hnames
        obtain ⟨e', hrejects⟩ := hcrate hnames
        simp only [TicTacToe.Node.step, hrejects]
      · rfl
  · have hnames : pair.NamesMover (.move row col player) := (h.namesMover_iff _).mpr hplayer
    have hadmits := (h.admits_iff player).mpr ⟨hauth, hsq, hfree⟩
    rcases h.crate.execute_cases (TttCommand.move row col player).toTTTMove auth md with
      ⟨hnone, -⟩ | ⟨sq', t, hfree', hadmits', hcrate, ht⟩
    · exact absurd hadmits (hnone _ sq)
    · obtain rfl : sq' = sq := Option.some.inj (hadmits'.onBoard.symm.trans hadmits.onBoard)
      refine .inr ⟨⟨m, _, hserver⟩, ⟨hnames, t, _, hcrate⟩, p.place sq' hfree, ?_⟩
      have hstep : pair.step (.move (.move row col player) auth md) =
          ⟨⟨t, ⟨⟨(TttCommand.move row col player).toTTTMove, p.leaving.map toMove,
              pair.crate.game.timestamp⟩, t⟩ :: pair.crate.stack⟩,
            ⟨m, ⟨row, col, (sidePlayer p.turn).number, removedOf p⟩ :: pair.server.stack⟩⟩ := by
        simp only [step, if_pos hnames, TicTacToe.Node.step, hcrate,
          TicTacToeEpisode.Node.move, hserver, h.server.current]
      rw [hstep]
      exact ⟨h.story.cons hadmits.onBoard rfl hsq, ht, hm⟩

theorem rollback (h : Together first second p pair) :
    ∃ p', Together first second p' (pair.step .rollback) := by
  obtain ⟨⟨t, records⟩, ⟨m, rollbacks⟩⟩ := pair
  obtain ⟨hstory, hcrate, hserver⟩ := h
  cases hstory with
  | nil => exact ⟨_, .nil, hcrate, hserver⟩
  | @cons records rollbacks q c row col hfree r hrest hmv hremoved hsq =>
    obtain ⟨m', hm, hm'⟩ := TicTacToeEpisode.Shows.rollback hserver hsq
    obtain ⟨t', ht, ht', -⟩ := TicTacToe.Shows.rollback hcrate hmv hremoved
    refine ⟨q, ?_⟩
    have hstep : step ⟨⟨t, r :: records⟩, ⟨m, ⟨row, col, (sidePlayer q.turn).number,
        removedOf q⟩ :: rollbacks⟩⟩ .rollback = ⟨⟨t', records⟩, ⟨m', rollbacks⟩⟩ := by
      simp only [step, TicTacToe.Node.step, TicTacToeEpisode.Node.rollback, ht, hm]
    rw [hstep]
    exact ⟨hrest, ht', hm'⟩

theorem step (h : Together first second p pair) (e : Event) :
    ∃ p', Together first second p' (pair.step e) := by
  cases e with
  | move cmd auth md =>
    rcases h.move_cases cmd auth md with ⟨-, -, hsame⟩ | ⟨-, -, hnext⟩
    · rw [hsame]
      exact ⟨p, h⟩
    · exact hnext
  | rollback => exact h.rollback

end Together

/-- After every run the two implementations hold the same game, and the server accepts a command
exactly when it names the side to move and the crate accepts the same move. -/
theorem implementations_agree (first second : PubKey) (md : PayloadMetadata)
    (events : List Event) :
    let pair := after step (start [first, second] md) events
    Corresponds pair.crate.game pair.server.episode ∧
      ∀ cmd auth md,
        (∃ m rb, pair.server.episode.execute cmd auth = .ok (m, .ok rb)) ↔
          pair.NamesMover cmd ∧
            ∃ t rb, pair.crate.game.execute cmd.toTTTMove auth md = .ok (t, .ok rb) := by
  intro pair
  have htogether : ∃ p, Together first second p pair := by
    induction events using List.reverseRecOn with
    | nil => exact ⟨_, Together.start md⟩
    | append_singleton events e ih =>
      obtain ⟨p, h⟩ := ih
      have hpair : pair = (after Pair.step (start [first, second] md) events).step e :=
        after_concat events e
      rw [hpair]
      exact h.step e
  obtain ⟨p, h⟩ := htogether
  refine ⟨h.server.corresponds h.crate, fun cmd auth md => ?_⟩
  rcases h.move_cases cmd auth md with ⟨hserver, hcrate, -⟩ | ⟨hserver, hcrate, -⟩
  · exact iff_of_false hserver hcrate
  · exact iff_of_true hserver hcrate

end Pair
end Kdapp
