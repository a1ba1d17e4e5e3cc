import Kdapp.CommentBoard.Wallet

/-! What the transactions of the wallet spend and pay. -/

namespace Kdapp.CommentBoard
variable [Crypto] [WalletCrates]

def Built.outpoints (built : Built) : List TransactionOutpoint :=
  built.tx.inputs.map (·.previousOutpoint)

structure Built.Spends (built : Built) (inputs : List Utxo) : Prop where
  inputs_eq : built.inputs = inputs
  outpoints_eq : built.outpoints = inputs.map (·.1)

namespace UtxoLockManager
open Borsh

variable {self : UtxoLockManager} {built : Built} {inputs : List Utxo}

@[simp] theorem payToSelf_value (value : UInt64) : (self.payToSelf value).value = value := rfl

@[simp] theorem sign_outputs (tx : Tx) : (self.sign inputs tx).tx.outputs = tx.outputs :=
  WalletCrates.sign_outputs _ _ _

theorem sign_spends {tx : Tx} (h : tx.inputs = inputs.map transactionInput) :
    (self.sign inputs tx).Spends inputs where
  inputs_eq := rfl
  outpoints_eq := by
    unfold Built.outpoints sign
    rw [WalletCrates.sign_outpoints, h, List.map_map]
    rfl

theorem createBondTransaction_ok {commentId bondAmount : UInt64} {source : Utxo}
    (h : self.createBondTransaction commentId bondAmount source = .ok built) :
    FEE ≤ source.2.amount - FEE * 2 ∧ built.Spends [source] ∧
      built.tx.outputs =
        [self.payToSelf (FEE * 2), self.payToSelf (source.2.amount - FEE * 2)] := by
  unfold createBondTransaction at h
  dsimp only at h
  split at h
  · cases h
  · rename_i hfee
    obtain rfl := Except.ok.inj h
    exact ⟨UInt64.not_lt.mp hfee, sign_spends rfl, sign_outputs _⟩

theorem splitTransaction_ok {targetChunkSize : UInt64} {large : Utxo}
    (h : self.splitTransaction targetChunkSize large = .ok built) :
    targetChunkSize + 1000 < Saturating.sub large.2.amount FEE ∧ built.Spends [large] ∧
      built.tx.outputs = [self.payToSelf targetChunkSize,
        self.payToSelf (Saturating.sub large.2.amount FEE - targetChunkSize)] := by
  unfold splitTransaction at h
  dsimp only at h
  split at h
  · cases h
  · rename_i hsize
    obtain rfl := Except.ok.inj h
    exact ⟨UInt64.not_le.mp hsize, sign_spends rfl, sign_outputs _⟩

/-- A transaction that spends what the coin selection takes, and pays a bond and the change. -/
def PaysBond (self : UtxoLockManager) (bondOutput : TransactionOutput Consensus.ScriptPublicKey)
    (bondAmount : UInt64) (built : Built) : Prop :=
  ∃ inputs total, selectInputs (bondAmount + FEE) 0 (sortByAmount self.availableUtxos) =
      (inputs, total) ∧ bondAmount + FEE ≤ total ∧ built.Spends inputs ∧
    built.tx.outputs = self.bondOutputs bondOutput total bondAmount

theorem scriptBondTransaction_ok {commentId bondAmount : UInt64}
    {scriptPubkey : Consensus.ScriptPublicKey}
    (h : self.scriptBondTransaction commentId bondAmount scriptPubkey = .ok built) :
    self.PaysBond { value := bondAmount, scriptPublicKey := scriptPubkey } bondAmount built := by
  unfold scriptBondTransaction at h
  rcases hselect : selectInputs (bondAmount + FEE) 0 (sortByAmount self.availableUtxos)
    with ⟨selected, total⟩
  dsimp only at h
  rw [hselect] at h
  dsimp only at h
  split at h
  · cases h
  · rename_i htotal
    obtain rfl := Except.ok.inj h
    refine ⟨selected, total, hselect, UInt64.not_lt.mp htotal, sign_spends rfl, ?_⟩
    rw [sign_outputs, newNonFinalized]

theorem commentTransaction_ok {inner : Bytes} {bondAmount lockDurationSeconds now : UInt64}
    {pattern : PatternType} {prefixType : PrefixType} {useScriptBonds : Bool}
    (h : self.commentTransaction inner bondAmount lockDurationSeconds pattern prefixType
      useScriptBonds now = .ok built) :
    self.PaysBond (self.commentBondOutput bondAmount (now + lockDurationSeconds) useScriptBonds)
      bondAmount built := by
  unfold commentTransaction at h
  rcases hselect : selectInputs (bondAmount + FEE) 0 (sortByAmount self.availableUtxos)
    with ⟨selected, total⟩
  dsimp only at h
  rw [hselect] at h
  dsimp only at h
  split at h
  · cases h
  · rename_i htotal
    split at h
    · cases h
    · rename_i hnonce
      obtain rfl := Except.ok.inj h
      obtain ⟨hinputs, houtputs⟩ := TransactionGenerator.findNonce_keeps hnonce
      refine ⟨selected, total, hselect, UInt64.not_lt.mp htotal, sign_spends hinputs, ?_⟩
      rw [sign_outputs, houtputs, Transaction.finalize, newNonFinalized]

theorem PaysBond.first {bondOutput : TransactionOutput Consensus.ScriptPublicKey}
    {bondAmount : UInt64} (h : self.PaysBond bondOutput bondAmount built) :
    built.tx.outputs[0]? = some bondOutput := by
  obtain ⟨inputs, total, -, -, -, houtputs⟩ := h
  rw [houtputs]
  unfold bondOutputs
  dsimp only
  split
  · rfl
  · rfl

theorem commentBondOutput_script (bondAmount unlockTime : UInt64) :
    self.commentBondOutput bondAmount unlockTime true = {
      value := bondAmount
      scriptPublicKey := WalletCrates.scriptPublicKey 0
        (createBondTimelockScript unlockTime (WalletCrates.publicKey self.keypair)) } := rfl

end UtxoLockManager
end Kdapp.CommentBoard
