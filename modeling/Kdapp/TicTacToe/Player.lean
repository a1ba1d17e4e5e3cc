import Kdapp.Auth
import Kdapp.CommentBoard
import Kdapp.Funding
import Kdapp.Library.Transition
import Kdapp.TicTacToe

/-! The task of a player (`play_ttt` of `tictactoe/src/main.rs`): it waits for its turn, reads a
move, and pays for each command with what the one before left over. -/

namespace Kdapp
open CommentBoard (isWhitespace)

namespace PlayTtt

def PATTERN : PatternType :=
  #v[(7, 0), (32, 1), (45, 0), (99, 1), (113, 0), (126, 1), (189, 0), (200, 1), (211, 0), (250, 1)]

def PREFIX : PrefixType := 858598618

def FEE : UInt64 := 5000

def trim (text : List Char) : List Char :=
  ((text.dropWhile isWhitespace).reverse.dropWhile isWhitespace).reverse

/-- Row and column with a comma between them; `none` is one of the panics. -/
def parseMove (input : String) : Option TTTMove :=
  match (trim input.toList).splitOn ',' with
  | [row, col] => do
    let row ← parseU64 (trim row)
    let col ← parseU64 (trim col)
    some { row, col }
  | _ => none

end PlayTtt

structure PlayTtt [Crypto] [AddressCrates] where
  kaspaSigner : Consensus.Keypair
  kaspaAddr : Consensus.Address
  sk : Crypto.SecretKey
  playerPk : PubKey
  opponentPk : Option PubKey

namespace PlayTtt
variable [Crypto] [AddressCrates]

inductive Phase where
  /-- It is expected to initiate the game. -/
  | opening (opponentPk : PubKey)
  /-- For the first message, which tells the episode. -/
  | joining
  /-- For its turn. -/
  | waiting (episodeId : EpisodeId)
  /-- For a line with a move. -/
  | toMove (episodeId : EpisodeId)
  /-- For a state with its own move. -/
  | placed (episodeId : EpisodeId) (cmd : TTTMove)
  | finished

structure Task where
  utxo : Utxo
  phase : Phase

/-- What comes from outside: a drawn id and the answer of the node, a message of the engine's
handler or the end of its channel, a line and the answer of the node. -/
inductive Event where
  | opens (episodeId : EpisodeId) (answer : Except String Unit)
  | received (id : EpisodeId) (state : TTTState)
  | closed
  | line (input : String) (answer : Except String Unit)

variable (self : PlayTtt)

def generator : TransactionGenerator where
  signer := self.kaspaSigner
  pattern := PATTERN
  prefixType := PREFIX

/-- The first UTXO or the last one, so that two players under one address do not collide. -/
def firstUtxo (entries : List Utxo) : Option Utxo :=
  if self.opponentPk.isSome then entries.head? else entries.getLast?

/-- `none` is the panic without an answer, or without UTXOs. -/
def start (entries : Except String (List Utxo)) : Option Task :=
  match entries with
  | .error _ => none
  | .ok entries => (self.firstUtxo entries).map fun utxo =>
    match self.opponentPk with
    | some opponentPk => { utxo, phase := .opening opponentPk }
    | none => { utxo, phase := .joining }

abbrev Outcome : Type := Option Task × List (Utxo × Tx)

def send (utxo : Utxo) (step : Option (EpisodeMessage TicTacToe)) (answer : Except String Unit)
    (next : Phase) : Outcome :=
  match step.bind fun step =>
    self.generator.buildCommandTransaction utxo self.kaspaAddr step FEE with
  | none => (none, [])
  | some tx =>
    match answer with
    | .error _ => (none, [(utxo, tx)])
    | .ok () => ((getFirstOutputUtxo tx).map fun utxo => { utxo, phase := next }, [(utxo, tx)])

/-- The head of the loop: a turn is awaited, has come, or the game is over. -/
def loopHead (episodeId receivedId : EpisodeId) (state : TTTState) : Phase :=
  match state.status with
  | .inProgress pk =>
    if receivedId = episodeId ∧ self.playerPk = pk then .toMove episodeId else .waiting episodeId
  | .winner _ => .finished
  | .draw => .finished

/-- Waits for the current move; `none` is the panic of an index into the board. -/
def settle (episodeId : EpisodeId) (cmd : TTTMove) (receivedId : EpisodeId) (state : TTTState) :
    Option Phase :=
  if receivedId ≠ episodeId then some (.placed episodeId cmd)
  else
    match state.board.index cmd.row.toNat cmd.col.toNat with
    | .error _ => none
    | .ok none => some (.placed episodeId cmd)
    | .ok (some _) => some (self.loopHead episodeId receivedId state)

/-- `none` for what the task does not wait for. -/
def step : Option Task → Event → Option Outcome
  | some ⟨utxo, .opening opponentPk⟩, .opens episodeId answer =>
    some (self.send utxo (some (.newEpisode episodeId [self.playerPk, opponentPk])) answer .joining)
  | some ⟨utxo, .joining⟩, .received id state => some (some ⟨utxo, self.loopHead id id state⟩, [])
  | some ⟨utxo, .waiting episodeId⟩, .received id state =>
    some (some ⟨utxo, self.loopHead episodeId id state⟩, [])
  | some ⟨utxo, .placed episodeId cmd⟩, .received id state =>
    some ((self.settle episodeId cmd id state).map fun phase => ⟨utxo, phase⟩, [])
  | some ⟨_, .joining⟩, .closed => some (none, [])
  | some ⟨_, .waiting _⟩, .closed => some (none, [])
  | some ⟨_, .placed _ _⟩, .closed => some (none, [])
  | some ⟨utxo, .toMove episodeId⟩, .line input answer =>
    match parseMove input with
    | none => some (none, [])
    | some cmd =>
      some (self.send utxo
        (EpisodeMessage.newSignedCommand episodeId cmd self.sk self.playerPk) answer
        (.placed episodeId cmd))
  | _, _ => none

abbrev Plays (self : PlayTtt) (entries : Except String (List Utxo)) (sent : List (Utxo × Tx))
    (task : Option Task) : Prop :=
  Transition.Run self.step (fun _ _ _ => True) (self.start entries) sent task

def Spends (utxo : Utxo) (tx : Tx) (left : Utxo) : Prop :=
  (∃ step, self.generator.buildCommandTransaction (G := TicTacToe) utxo self.kaspaAddr step FEE =
    some tx) ∧ getFirstOutputUtxo tx = some left

/-- Nothing is built and the UTXO stays, or it is spent and the task goes on with what it left. -/
inductive Pays (self : PlayTtt) (utxo : Utxo) : Outcome → Prop
  | kept (task : Option Task) (h : ∀ t ∈ task, t.utxo = utxo) : Pays self utxo (task, [])
  | spent (tx : Tx) (left : Utxo) (hspends : self.Spends utxo tx left) (task : Option Task)
    (h : ∀ t ∈ task, t.utxo = left) : Pays self utxo (task, [(utxo, tx)])

variable {self} {utxo : Utxo}

theorem send_pays (step : Option (EpisodeMessage TicTacToe)) (answer : Except String Unit)
    (next : Phase) : self.Pays utxo (self.send utxo step answer next) := by
  unfold send
  cases hbuilt : step.bind fun step =>
      self.generator.buildCommandTransaction utxo self.kaspaAddr step FEE with
  | none => exact .kept none (fun t ht => by cases ht)
  | some tx =>
    obtain ⟨step, -, htx⟩ := Option.bind_eq_some_iff.mp hbuilt
    obtain ⟨left, hleft, -⟩ := getFirstOutputUtxo_amount htx
    have hspends : self.Spends utxo tx left := ⟨⟨step, htx⟩, hleft⟩
    cases answer with
    | error msg => exact .spent tx left hspends none (fun t ht => by cases ht)
    | ok _ =>
      dsimp only
      rw [hleft]
      refine .spent tx left hspends _ (fun t ht => ?_)
      obtain rfl := Option.some.inj ht
      rfl

theorem step_pays {task : Task} {event : Event} {outcome : Outcome}
    (h : self.step (some task) event = some outcome) : self.Pays task.utxo outcome := by
  rcases task with ⟨utxo, phase⟩
  have hkept : ∀ phase, self.Pays utxo (some ⟨utxo, phase⟩, []) := by
    intro phase
    refine .kept _ (fun t ht => ?_)
    obtain rfl := Option.some.inj ht
    rfl
  have hpanic : self.Pays utxo (none, []) := .kept none (fun t ht => by cases ht)
  cases phase with
  | opening opponentPk =>
    cases event with
    | opens episodeId answer =>
      obtain rfl := Option.some.inj h
      exact send_pays _ answer _
    | _ => cases h
  | joining =>
    cases event with
    | received id state =>
      obtain rfl := Option.some.inj h
      exact hkept _
    | closed =>
      obtain rfl := Option.some.inj h
      exact hpanic
    | _ => cases h
  | waiting episodeId =>
    cases event with
    | received id state =>
      obtain rfl := Option.some.inj h
      exact hkept _
    | closed =>
      obtain rfl := Option.some.inj h
      exact hpanic
    | _ => cases h
  | toMove episodeId =>
    cases event with
    | line input answer =>
      unfold step at h
      dsimp only at h
      -- a line without a move is a panic
      split at h
      · obtain rfl := Option.some.inj h
        exact hpanic
      · obtain rfl := Option.some.inj h
        exact send_pays _ answer _
    | _ => cases h
  | placed episodeId cmd =>
    cases event with
    | received id state =>
      obtain rfl := Option.some.inj h
      cases self.settle episodeId cmd id state with
      | none => exact hpanic
      | some phase => exact hkept phase
    | closed =>
      obtain rfl := Option.some.inj h
      exact hpanic
    | _ => cases h
  | finished => cases h

theorem spends_exact :
    Change.Exact self.Spends (fun utxo => utxo.2.amount.toNat) FEE.toNat := by
  rintro utxo tx left ⟨⟨step, htx⟩, hleft⟩ hcovered
  obtain ⟨left', hleft', hamount⟩ := getFirstOutputUtxo_amount htx
  rw [hleft] at hleft'
  obtain rfl := Option.some.inj hleft'
  dsimp only
  rw [hamount]
  exact sub_add_toNat_iff.mpr hcovered

theorem Plays.chain {entries : Except String (List Utxo)} {first : Task}
    {sent : List (Utxo × Tx)} {ended : Option Task} (hfirst : self.start entries = some first)
    (h : self.Plays entries sent ended) :
    ∃ coin, Change.Chain self.Spends first.utxo coin sent := by
  -- the UTXO of a task that goes on is the end of the chain
  suffices hkeep : ∃ coin, Change.Chain self.Spends first.utxo coin sent ∧
      ∀ t ∈ ended, t.utxo = coin by
    obtain ⟨coin, hchain, -⟩ := hkeep
    exact ⟨coin, hchain⟩
  apply Transition.Run.invariant (P := fun sent task =>
    ∃ coin, Change.Chain self.Spends first.utxo coin sent ∧ ∀ t ∈ task, t.utxo = coin) _ _ h
  · refine ⟨first.utxo, .start, fun t ht => ?_⟩
    rw [hfirst] at ht
    obtain rfl := Option.some.inj ht
    rfl
  · rintro sent task event task' new ⟨coin, hchain, hcoin⟩ - hstep
    cases task with
    | none => cases hstep
    | some t =>
      obtain rfl := hcoin t rfl
      cases step_pays hstep with
      | kept _ hkept =>
        rw [List.append_nil]
        exact ⟨t.utxo, hchain, hkept⟩
      | spent tx left hspends _ hleft =>
        exact ⟨left, hchain.spend hspends, hleft⟩

theorem Plays.balanced_iff {entries : List Utxo} {first : Utxo} {sent : List (Utxo × Tx)}
    {ended : Option Task} (hfirst : self.firstUtxo entries = some first)
    (h : self.Plays (.ok entries) sent ended) :
    (∀ p ∈ sent, Balanced FEE p.1 p.2) ↔ sent.length * FEE.toNat ≤ first.2.amount.toNat := by
  have hstart : ∃ phase, self.start (.ok entries) = some ⟨first, phase⟩ := by
    unfold start
    dsimp only
    rw [hfirst, Option.map_some]
    cases self.opponentPk with
    | none => exact ⟨_, rfl⟩
    | some pk => exact ⟨_, rfl⟩
  obtain ⟨phase, hstart⟩ := hstart
  obtain ⟨coin, hchain⟩ := h.chain hstart
  rw [← hchain.covered_iff spends_exact]
  apply forall₂_congr
  intro p hp
  obtain ⟨left, ⟨step, htx⟩, -⟩ := hchain.spends p hp
  exact balanced_of_covered_iff htx

end PlayTtt
end Kdapp
