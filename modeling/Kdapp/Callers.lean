import Kdapp.CommentIt.Submission
import Kdapp.TicTacToe.Player
import Kdapp.TicTacToe.Tools

/-! Those who build command transactions, and when what they build balances. -/

namespace Kdapp
open CommentIt Tools
variable [Crypto] [RandChaCha] [AddressCrates]

/-- No caller compares the UTXO that it selects with the fee: what it builds balances if and only
if the UTXO covers the fee, and for a player the first one covers the fees of the whole game. -/
theorem command_balanced_iff (player : PlayTtt) (peer : AuthHttpPeer) (server : ServerState) :
    (∀ entries first sent ended, player.firstUtxo entries = some first →
      player.Plays (.ok entries) sent ended →
      ((∀ p ∈ sent, Balanced PlayTtt.FEE p.1 p.2) ↔
        sent.length * PlayTtt.FEE.toNat ≤ first.2.amount.toNat)) ∧
    (∀ episodeMessage utxoCache answer utxo tx,
      (peer.submitEpisodeMessageTransaction episodeMessage utxoCache answer).built =
        some (utxo, tx) →
      (∃ addr entries, utxoCache addr = .ok entries ∧ peer.selectUtxo entries = some utxo) ∧
        (Balanced CommentIt.FEE utxo tx ↔ CommentIt.FEE.toNat ≤ utxo.2.amount.toNat)) ∧
    (∀ episodeId command signer utxos answer delivered utxo tx,
      (server.executeCommand episodeId command signer utxos answer delivered).built =
        some (utxo, tx) →
      (∃ addr entries, utxos addr = .ok (utxo :: entries)) ∧
        (Balanced Tools.FEE utxo tx ↔ Tools.FEE.toNat ≤ utxo.2.amount.toNat)) ∧
    (∀ episodeId command signer utxos answer utxo tx,
      (server.submitCommandTx episodeId command signer utxos answer).built = some (utxo, tx) →
      (∃ addr entries, utxos addr = .ok (utxo :: entries)) ∧
        (Balanced Tools.FEE utxo tx ↔ Tools.FEE.toNat ≤ utxo.2.amount.toNat)) ∧
    ∀ dummyEpisodeId tx, server.generateTransaction dummyEpisodeId = some tx →
      Balanced Tools.FEE server.dummyUtxo tx := by
  refine ⟨?player, ?peer, ?execute, ?submit, ?generate⟩
  case player =>
    intro entries first sent ended hfirst hplays
    exact hplays.balanced_iff hfirst
  case peer =>
    intro episodeMessage utxoCache answer utxo tx hbuilt
    obtain ⟨pubkey, entries, -, hentries, hselected, -⟩ := AuthHttpPeer.submit_built hbuilt
    exact ⟨⟨_, entries, hentries, hselected⟩, AuthHttpPeer.submit_balanced_iff hbuilt⟩
  case execute =>
    intro episodeId command signer utxos answer delivered utxo tx hbuilt
    obtain ⟨⟨entries, hentries⟩, signed, htx⟩ := ServerState.executeCommand_built hbuilt
    exact ⟨⟨_, entries, hentries⟩, balanced_of_covered_iff htx⟩
  case submit =>
    intro episodeId command signer utxos answer utxo tx hbuilt
    obtain ⟨⟨entries, hentries⟩, signed, htx⟩ := ServerState.submitCommandTx_built hbuilt
    exact ⟨⟨_, entries, hentries⟩, balanced_of_covered_iff htx⟩
  case generate =>
    intro dummyEpisodeId tx hbuilt
    exact ServerState.generateTransaction_balanced hbuilt

end Kdapp

namespace Kdapp
attribute [local instance] idealCrypto seedRand matchingCrates

def initiator : PlayTtt where
  kaspaSigner := (7 : UInt8)
  kaspaAddr := ([7] : Borsh.Bytes)
  sk := (7 : UInt8)
  playerPk := (7 : UInt8)
  opponentPk := some (9 : UInt8)

def coinOf (amount : UInt64) : Utxo := (⟨Hash.filled 1, 0⟩, ⟨amount, ([] : Borsh.Bytes), 5, false⟩)

theorem initiator_opens (amount : UInt64) :
    ∃ tx ended, initiator.Plays (.ok [coinOf amount]) [(coinOf amount, tx)] ended := by
  have hpattern : checkPattern matchingId PlayTtt.PATTERN = true := by decide
  have hbuilt : ∃ tx, initiator.generator.buildCommandTransaction (G := TicTacToe) (coinOf amount)
      initiator.kaspaAddr (.newEpisode 1 [initiator.playerPk, (9 : UInt8)]) PlayTtt.FEE =
        some tx := by
    change ∃ tx, Option.map _ (TransactionGenerator.findNonce PlayTtt.PATTERN 0 _) = some tx
    rw [TransactionGenerator.findNonce, if_pos]
    · exact ⟨_, rfl⟩
    · exact hpattern
  obtain ⟨tx, htx⟩ := hbuilt
  obtain ⟨left, hleft, -⟩ := getFirstOutputUtxo_amount htx
  refine ⟨tx, some ⟨left, .joining⟩, ?_⟩
  have hstep : initiator.step (initiator.start (.ok [coinOf amount])) (.opens 1 (.ok ())) =
      some (some ⟨left, .joining⟩, [(coinOf amount, tx)]) := by
    change some (initiator.send (coinOf amount) _ _ _) = _
    unfold PlayTtt.send
    rw [Option.bind_some, htx]
    dsimp only
    rw [hleft]
    rfl
  exact Transition.Run.step .start trivial hstep

/-- A UTXO of 4000 does not cover the fee of the opening. -/
theorem small_utxo_wraps :
    ∃ entries first sent ended, initiator.firstUtxo entries = some first ∧
      initiator.Plays (.ok entries) sent ended ∧
      ¬ ∀ p ∈ sent, Balanced PlayTtt.FEE p.1 p.2 := by
  obtain ⟨tx, ended, hplays⟩ := initiator_opens 4000
  refine ⟨_, _, _, ended, rfl, hplays, ?_⟩
  rw [hplays.balanced_iff rfl]
  have hshort : ¬ 1 * PlayTtt.FEE.toNat ≤ (4000 : UInt64).toNat := by decide
  exact hshort

def server : Tools.ServerState := ⟨true, ⟨(7 : UInt8), false⟩, ⟨(9 : UInt8), false⟩⟩

def middle : Tools.Value :=
  .object [("type", .string "move"), ("row", .int 1), ("col", .int 1), ("player", .string "X")]

/-- One of 5000 covers the fee of the opening, and one of 1000 not that of the server. -/
theorem command_balanced_at :
    (∃ tx ended, initiator.Plays (.ok [coinOf 5000]) [(coinOf 5000, tx)] ended ∧
      Balanced PlayTtt.FEE (coinOf 5000) tx) ∧
    (∃ tx, (server.submitCommandTx "5" middle none (fun _ => .ok [coinOf 1000]) (.ok ())).built =
      some (coinOf 1000, tx) ∧ ¬ Balanced Tools.FEE (coinOf 1000) tx) ∧
    ∃ tx, server.generateTransaction 9 = some tx ∧ Balanced Tools.FEE server.dummyUtxo tx := by
  obtain ⟨hplayer, -, -, hsubmit, hgenerate⟩ :=
    command_balanced_iff initiator ⟨initiator.generator, true, []⟩ server
  refine ⟨?_, ?_, ?_⟩
  · obtain ⟨tx, ended, hplays⟩ := initiator_opens 5000
    have hcovered : 1 * PlayTtt.FEE.toNat ≤ (5000 : UInt64).toNat := by decide
    exact ⟨tx, ended, hplays,
      (hplayer _ _ _ _ rfl hplays).mpr hcovered _ (List.mem_singleton_self _)⟩
  · obtain ⟨⟨utxo, tx⟩, hbuilt⟩ := Option.isSome_iff_exists.mp
      (show (server.submitCommandTx "5" middle none (fun _ => .ok [coinOf 1000])
        (.ok ())).built.isSome = true by decide +kernel)
    obtain ⟨⟨addr, entries, hutxos⟩, hbalanced⟩ := hsubmit _ _ _ _ _ _ _ hbuilt
    obtain rfl : coinOf 1000 = utxo := (List.cons.inj (Except.ok.inj hutxos)).1
    have hshort : ¬ Tools.FEE.toNat ≤ (1000 : UInt64).toNat := by decide
    exact ⟨tx, hbuilt, fun h => hshort (hbalanced.mp h)⟩
  · obtain ⟨tx, htx⟩ := Option.isSome_iff_exists.mp
      (show (server.generateTransaction 9).isSome = true by decide +kernel)
    exact ⟨tx, htx, hgenerate 9 tx htx⟩

end Kdapp
