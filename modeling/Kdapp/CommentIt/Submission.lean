import Kdapp.CommentIt
import Kdapp.Funding

/-! The HTTP peer pays for the commands of its participants
(`submit_episode_message_transaction` of `api/http/blockchain_engine.rs`). -/

namespace Kdapp.CommentIt
open CommentBoard (displayHash)

variable [Crypto] [RandChaCha] [AddressCrates]

/-- What a submission uses of the peer and its state: there is a client if the node could be
reached. -/
structure AuthHttpPeer where
  transactionGenerator : TransactionGenerator
  kaspadClient : Bool
  usedUtxos : List String

def FEE : UInt64 := 5000

def utxoId (outpoint : TransactionOutpoint) : String :=
  displayHash outpoint.transactionId ++ ":" ++ outpoint.index.toNat.repr

/-- Who pays: the signer of a command, the first participant of a new episode. -/
def participantPubkey : EpisodeMessage AuthWithCommentsEpisode → Except String PubKey
  | .signedCommand _ _ pubkey _ => .ok pubkey
  | .newEpisode _ [] => .error "NewEpisode has no participants"
  | .newEpisode _ (creator :: _) => .ok creator
  | .unsignedCommand _ _ =>
    .error "Episode message variant not supported for transaction submission"
  | .revert _ => .error "Episode message variant not supported for transaction submission"

def participantAddr (pubkey : PubKey) : Consensus.Address :=
  AddressCrates.newAddress false (pubkey.serialize.drop 1)

/-- The peer afterwards, the transaction beside the UTXO it spends, and the answer; `none` is the
panic of the generator. -/
structure Submission where
  peer : AuthHttpPeer
  built : Option (Utxo × Tx)
  result : Option (Except String String)

namespace AuthHttpPeer
variable (self : AuthHttpPeer)

def failed (msg : String) : Submission where
  peer := self
  built := none
  result := some (.error msg)

def selectUtxo (entries : List Utxo) : Option Utxo :=
  entries.find? fun u => !self.usedUtxos.contains (utxoId u.1)

def reserve (utxo : Utxo) : AuthHttpPeer :=
  { self with usedUtxos := self.usedUtxos.insert (utxoId utxo.1) }

/-- At once if the node refuses the transaction, ten seconds after it took it else. -/
def release (id : String) : AuthHttpPeer :=
  { self with usedUtxos := self.usedUtxos.filter (· ≠ id) }

/-- `utxoCache` is what the cache or the node say of an address. -/
def submitEpisodeMessageTransaction (episodeMessage : EpisodeMessage AuthWithCommentsEpisode)
    (utxoCache : Consensus.Address → Except String (List Utxo)) (answer : Except String Unit) :
    Submission :=
  if self.kaspadClient = false then
    self.failed "Kaspad client not available for transaction submission."
  else
    match participantPubkey episodeMessage with
    | .error msg => self.failed msg
    | .ok pubkey =>
      match utxoCache (participantAddr pubkey) with
      | .error msg => self.failed msg
      | .ok [] =>
        self.failed "No UTXOs found for participant wallet. Please fund the wallet."
      | .ok (entry :: entries) =>
        match self.selectUtxo (entry :: entries) with
        | none =>
          self.failed
            "No unused UTXOs available. Please wait for previous transactions to confirm."
        | some utxo =>
          match self.transactionGenerator.buildCommandTransaction utxo (participantAddr pubkey)
            episodeMessage FEE with
          -- the generator panics with the UTXO reserved, and nobody releases it
          | none => { peer := self.reserve utxo, built := none, result := none }
          | some tx =>
            match answer with
            | .ok () =>
              { peer := self.reserve utxo
                built := some (utxo, tx)
                result := some (.ok (displayHash tx.id)) }
            | .error msg =>
              { peer := (self.reserve utxo).release (utxoId utxo.1)
                built := some (utxo, tx)
                result := some (.error msg) }

variable {self} {episodeMessage : EpisodeMessage AuthWithCommentsEpisode}
  {utxoCache : Consensus.Address → Except String (List Utxo)} {answer : Except String Unit}
  {utxo : Utxo} {tx : Tx}

theorem submit_built
    (h : (self.submitEpisodeMessageTransaction episodeMessage utxoCache answer).built =
      some (utxo, tx)) :
    ∃ pubkey entries, participantPubkey episodeMessage = .ok pubkey ∧
      utxoCache (participantAddr pubkey) = .ok entries ∧ self.selectUtxo entries = some utxo ∧
      self.transactionGenerator.buildCommandTransaction utxo (participantAddr pubkey)
        episodeMessage FEE = some tx := by
  unfold submitEpisodeMessageTransaction at h
  -- without a client, a participant and a free UTXO nothing is built
  split at h
  · cases h
  split at h
  · cases h
  rename_i pubkey hpubkey
  split at h
  · cases h
  · cases h
  rename_i entry entries hentries
  split at h
  · cases h
  rename_i selected hselected
  cases hbuilt : self.transactionGenerator.buildCommandTransaction selected
      (participantAddr pubkey) episodeMessage FEE with
  | none =>
    rw [hbuilt] at h
    cases h
  | some built =>
    rw [hbuilt] at h
    have hsame : some (selected, built) = some (utxo, tx) := by
      rw [← h]
      cases answer with
      | ok _ => rfl
      | error msg => rfl
    cases hsame
    exact ⟨pubkey, _, hpubkey, hentries, hselected, hbuilt⟩

omit [RandChaCha] in
theorem release_reserve (h : utxoId utxo.1 ∉ self.usedUtxos) :
    (self.reserve utxo).release (utxoId utxo.1) = self := by
  have hkept : self.usedUtxos.filter (· ≠ utxoId utxo.1) = self.usedUtxos := by
    apply List.filter_eq_self.mpr
    intro id hid
    exact decide_eq_true (fun heq => h (heq ▸ hid))
  unfold release reserve
  dsimp only
  rw [List.insert_of_not_mem h, List.filter_cons_of_neg (by simp), hkept]

theorem submit_failed {msg : String} :
    (self.submitEpisodeMessageTransaction episodeMessage utxoCache answer).result =
        some (.error msg) →
      (self.submitEpisodeMessageTransaction episodeMessage utxoCache answer).peer = self := by
  unfold submitEpisodeMessageTransaction
  split
  · exact fun _ => rfl
  split
  · exact fun _ => rfl
  split
  · exact fun _ => rfl
  · exact fun _ => rfl
  split
  · exact fun _ => rfl
  rename_i selected hselected
  have hfree : utxoId selected.1 ∉ self.usedUtxos := by
    have hfound := List.find?_some hselected
    simpa using hfound
  split
  · intro h
    cases h
  cases answer with
  | ok _ =>
    intro h
    cases h
  | error msg' => exact fun _ => release_reserve hfree

theorem submit_balanced_iff
    (h : (self.submitEpisodeMessageTransaction episodeMessage utxoCache answer).built =
      some (utxo, tx)) :
    Balanced FEE utxo tx ↔ FEE.toNat ≤ utxo.2.amount.toNat := by
  obtain ⟨pubkey, entries, -, -, -, hbuilt⟩ := submit_built h
  exact balanced_of_covered_iff hbuilt

end AuthHttpPeer
end Kdapp.CommentIt
