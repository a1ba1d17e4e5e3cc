import Kdapp.Generator
import Kdapp.Library.Change

/-! What a command transaction takes in and pays out. -/

namespace Kdapp
open Borsh TransactionGenerator

/-- The crates, with the keys of those who send commands and their addresses. `sign` leaves
everything but the signature scripts as it is. -/
class AddressCrates [Crypto] extends Consensus where
  secretKey : Keypair → Crypto.SecretKey
  publicKey : Keypair → PubKey
  /-- `Address::new` of a key without its first byte, on the main network or not. -/
  newAddress : Bool → Bytes → Address
  sign_outputs : ∀ tx entries kp, (sign tx entries kp).outputs = tx.outputs
  sign_outpoints : ∀ tx entries kp,
    (sign tx entries kp).inputs.map (·.previousOutpoint) = tx.inputs.map (·.previousOutpoint)

theorem sub_add_toNat_iff {amount fee : UInt64} :
    (amount - fee).toNat + fee.toNat = amount.toNat ↔ fee.toNat ≤ amount.toNat := by
  constructor
  · intro h
    omega
  · intro h
    rw [UInt64.toNat_sub_of_le _ _ (UInt64.le_iff_toNat_le.mpr h)]
    exact Nat.sub_add_cancel h

section
variable [Crypto] [AddressCrates] {self : TransactionGenerator} {utxo : Utxo}
  {recipient : Consensus.Address} {fee : UInt64} {tx : Tx}

/-- One UTXO is spent, and a single output and the fee are worth as much. Counted without a
bound, so that a difference that wrapped would show. -/
structure Balanced (fee : UInt64) (utxo : Utxo) (tx : Tx) : Prop where
  spends : tx.inputs.map (·.previousOutpoint) = [utxo.1]
  pays : ∃ output, tx.outputs = [output] ∧
    output.value.toNat + fee.toNat = utxo.2.amount.toNat

theorem buildTransaction_pays {utxos : List Utxo} {sendAmount numOuts : UInt64} {payload : Bytes}
    (h : self.buildTransaction utxos sendAmount numOuts recipient payload = some tx) :
    tx.inputs.map (·.previousOutpoint) = utxos.map (·.1) ∧
      tx.outputs = List.replicate numOuts.toNat {
        value := sendAmount / numOuts
        scriptPublicKey := Consensus.payToAddressScript recipient } := by
  obtain ⟨unsignedTx, hfind, rfl⟩ := Option.map_eq_some_iff.mp h
  obtain ⟨hinputs, houtputs⟩ := findNonce_keeps hfind
  rw [AddressCrates.sign_outpoints, AddressCrates.sign_outputs, hinputs, houtputs]
  refine ⟨?_, rfl⟩
  unfold Transaction.finalize
  rw [List.map_map]
  rfl

variable {G : Type} [Episode G] {cmd : EpisodeMessage G}

theorem buildCommandTransaction_pays
    (h : self.buildCommandTransaction utxo recipient cmd fee = some tx) :
    tx.inputs.map (·.previousOutpoint) = [utxo.1] ∧
      tx.outputs = [{
        value := utxo.2.amount - fee
        scriptPublicKey := Consensus.payToAddressScript recipient }] := by
  unfold buildCommandTransaction at h
  cases hs : EpisodeMessage.codec.serialize cmd with
  | none =>
    rw [hs] at h
    cases h
  | some payload =>
    rw [hs] at h
    obtain ⟨hinputs, houtputs⟩ := buildTransaction_pays h
    rw [UInt64.div_one] at houtputs
    exact ⟨hinputs, houtputs⟩

theorem balanced_of_covered_iff
    (h : self.buildCommandTransaction utxo recipient cmd fee = some tx) :
    Balanced fee utxo tx ↔ fee.toNat ≤ utxo.2.amount.toNat := by
  obtain ⟨hinputs, houtputs⟩ := buildCommandTransaction_pays h
  rw [← sub_add_toNat_iff]
  constructor
  · rintro ⟨-, output, houtput, hpays⟩
    rw [houtputs] at houtput
    obtain rfl := (List.cons.inj houtput).1
    exact hpays
  · intro hpays
    exact ⟨hinputs, _, houtputs, hpays⟩

theorem getFirstOutputUtxo_amount
    (h : self.buildCommandTransaction utxo recipient cmd fee = some tx) :
    ∃ left, getFirstOutputUtxo tx = some left ∧ left.2.amount = utxo.2.amount - fee := by
  refine ⟨(⟨tx.id, 0⟩, ⟨utxo.2.amount - fee, Consensus.payToAddressScript recipient, 0, false⟩),
    ?_, rfl⟩
  rw [getFirstOutputUtxo, (buildCommandTransaction_pays h).2]
  rfl

end
end Kdapp

namespace Kdapp
attribute [local instance] idealCrypto

def matchingId : Hash :=
  ⟨[0, 0, 0, 0, 1, 0, 0, 0, 0, 0, 0, 0, 8, 0, 0, 64,
    0, 0, 0, 0, 0, 0, 0, 0, 0, 1, 0, 0, 0, 0, 0, 4], rfl⟩

@[reducible] def matchingCrates : AddressCrates where
  Address := Borsh.Bytes
  Keypair := UInt8
  ScriptPublicKey := Borsh.Bytes
  txVersion := 0
  subnetworkIdNative := List.replicate 20 0
  payToAddressScript addr := addr
  txId _ := matchingId
  sign tx _ _ := { tx with inputs := tx.inputs.map fun i => { i with signatureScript := [65] } }
  sign_payload _ _ _ := rfl
  sign_id _ _ _ := rfl
  txId_id _ _ := rfl
  txId_sign _ _ _ := rfl
  secretKey kp := kp
  publicKey kp := kp
  newAddress _ key := key
  sign_outputs _ _ _ := rfl
  sign_outpoints tx _ _ := by
    rw [List.map_map]
    rfl

end Kdapp
