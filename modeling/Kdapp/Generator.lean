import Kdapp.Engine
import Kdapp.Library.Outcome

/-! Transactions that carry commands (`kdapp/src/generator.rs`). The nonce in the payload
is counted up until the transaction id matches the pattern. -/

namespace Kdapp
open Borsh

abbrev PatternType := Vector (UInt8 × UInt8) 10

abbrev PrefixType := UInt32

def checkPattern (txId : Hash) (pattern : PatternType) : Bool :=
  pattern.toList.all fun (pos, val) =>
    let word := txId.1.get ⟨pos.toNat / 8, by
      have hpos := pos.toNat_lt
      have hlen := txId.2
      omega⟩
    ((word >>> (pos % 8)) &&& 1) = val

namespace Payload

def withNonce (innerData : Bytes) (prefixType : PrefixType) (nonce : UInt32) : Bytes :=
  leBytes 4 prefixType.toNat ++ leBytes 4 nonce.toNat ++ innerData

def packHeader (innerData : Bytes) (prefixType : PrefixType) : Bytes :=
  withNonce innerData prefixType 0

def checkHeader (payload : Bytes) (prefixType : PrefixType) : Bool :=
  if payload.length < 8 then false else payload.take 4 = leBytes 4 prefixType.toNat

/-- `none` is the panic of a slice that is too short. -/
def setNonce (data : Bytes) (nonce : UInt32) : Option Bytes :=
  if data.length < 8 then none
  else some (data.take 4 ++ leBytes 4 nonce.toNat ++ data.drop 8)

def stripHeader (payload : Bytes) : Option Bytes :=
  if payload.length < 8 then none else some (payload.drop 8)

variable {innerData : Bytes} {prefixType : PrefixType} {nonce : UInt32}

theorem withNonce_length :
    (withNonce innerData prefixType nonce).length = 8 + innerData.length := by
  simp only [withNonce, List.length_append, leBytes_length]

theorem withNonce_take : (withNonce innerData prefixType nonce).take 4 =
    leBytes 4 prefixType.toNat := by
  unfold withNonce
  rw [List.append_assoc, List.take_left' (leBytes_length 4 _)]

theorem withNonce_drop : (withNonce innerData prefixType nonce).drop 8 = innerData := by
  have hlen : (leBytes 4 prefixType.toNat ++ leBytes 4 nonce.toNat).length = 8 := by
    rw [List.length_append, leBytes_length, leBytes_length]
  exact List.drop_left' hlen

theorem setNonce_withNonce (nonce' : UInt32) :
    setNonce (withNonce innerData prefixType nonce) nonce' =
      some (withNonce innerData prefixType nonce') := by
  unfold setNonce
  rw [if_neg (by rw [withNonce_length]; omega), withNonce_take, withNonce_drop]
  rfl

theorem stripHeader_withNonce :
    stripHeader (withNonce innerData prefixType nonce) = some innerData := by
  unfold stripHeader
  rw [if_neg (by rw [withNonce_length]; omega), withNonce_drop]

theorem stripHeader_of_checkHeader {payload : Bytes} (h : checkHeader payload prefixType = true) :
    stripHeader payload = some (payload.drop 8) := by
  unfold stripHeader
  by_cases hlen : payload.length < 8
  · simp [checkHeader, hlen] at h
  · rw [if_neg hlen]

theorem checkHeader_withNonce (q : PrefixType) :
    checkHeader (withNonce innerData prefixType nonce) q = decide (q = prefixType) := by
  unfold checkHeader
  rw [if_neg (by rw [withNonce_length]; omega), withNonce_take]
  have hinj : leBytes 4 prefixType.toNat = leBytes 4 q.toNat ↔ q = prefixType := by
    rw [leBytes_inj prefixType.toNat_lt q.toNat_lt, UInt32.toNat_inj]
    exact eq_comm
  exact decide_eq_decide.mpr hinj

end Payload

structure TransactionOutpoint where
  transactionId : Hash
  index : UInt32

structure UtxoEntry (S : Type) where
  amount : UInt64
  scriptPublicKey : S
  blockDaaScore : UInt64
  isCoinbase : Bool

structure TransactionInput where
  previousOutpoint : TransactionOutpoint
  signatureScript : Bytes
  sequence : UInt64
  sigOpCount : UInt8

structure TransactionOutput (S : Type) where
  value : UInt64
  scriptPublicKey : S

/-- `id` is the stored id, written by `finalize`. -/
structure Transaction (S : Type) where
  version : UInt16
  inputs : List TransactionInput
  outputs : List (TransactionOutput S)
  lockTime : UInt64
  subnetworkId : Bytes
  gas : UInt64
  payload : Bytes
  id : Hash

/-- The consensus crates. A transaction id is a hash of the transaction without its stored id
and its signature scripts, and `sign` fills in those scripts. -/
class Consensus where
  Address : Type
  Keypair : Type
  ScriptPublicKey : Type
  txVersion : UInt16
  subnetworkIdNative : Bytes
  payToAddressScript : Address → ScriptPublicKey
  txId : Transaction ScriptPublicKey → Hash
  sign : Transaction ScriptPublicKey → List (UtxoEntry ScriptPublicKey) → Keypair →
    Transaction ScriptPublicKey
  sign_payload : ∀ tx entries kp, (sign tx entries kp).payload = tx.payload
  sign_id : ∀ tx entries kp, (sign tx entries kp).id = tx.id
  txId_id : ∀ tx id, txId { tx with id := id } = txId tx
  txId_sign : ∀ tx entries kp, txId (sign tx entries kp) = txId tx

section
variable [Consensus]

abbrev Tx := Transaction Consensus.ScriptPublicKey
abbrev Utxo := TransactionOutpoint × UtxoEntry Consensus.ScriptPublicKey

def Transaction.finalize (tx : Tx) : Tx := { tx with id := Consensus.txId tx }

/-- What the sender of a transaction goes on with; `none` is the panic without outputs. -/
def getFirstOutputUtxo (tx : Tx) : Option Utxo :=
  tx.outputs[0]?.map fun output =>
    (⟨tx.id, 0⟩, ⟨output.value, output.scriptPublicKey, 0, false⟩)

structure TransactionGenerator where
  signer : Consensus.Keypair
  pattern : PatternType
  prefixType : PrefixType

namespace TransactionGenerator

/-- The nonce loop; `none` is the panic of `checked_add` at the last nonce. -/
def findNonce (pattern : PatternType) (nonce : UInt32) (unsignedTx : Tx) : Option Tx :=
  if checkPattern unsignedTx.id pattern then some unsignedTx
  else if nonce.toNat + 1 < UInt32.size then
    match Payload.setNonce unsignedTx.payload (nonce + 1) with
    | none => none
    | some payload => findNonce pattern (nonce + 1) { unsignedTx with payload }.finalize
  else none
termination_by UInt32.size - nonce.toNat
decreasing_by
  rw [UInt32.toNat_add]
  simp only [UInt32.toNat_one]
  unfold UInt32.size at *
  omega

def buildTransaction (self : TransactionGenerator) (utxos : List Utxo) (sendAmount numOuts : UInt64)
    (recipient : Consensus.Address) (payload : Bytes) : Option Tx :=
  let inputs := utxos.map fun u => {
    previousOutpoint := u.1
    signatureScript := []
    sequence := 0
    sigOpCount := 1 }
  let outputs := List.replicate numOuts.toNat {
    value := sendAmount / numOuts
    scriptPublicKey := Consensus.payToAddressScript recipient }
  let unsignedTx : Tx := {
    version := Consensus.txVersion
    inputs
    outputs
    lockTime := 0
    subnetworkId := Consensus.subnetworkIdNative
    gas := 0
    payload := Payload.packHeader payload self.prefixType
    id := Hash.filled 0 }
  (findNonce self.pattern 0 unsignedTx.finalize).map fun tx =>
    Consensus.sign tx (utxos.map (·.2)) self.signer

def buildCommandTransaction [Crypto] {G : Type} [Episode G] (self : TransactionGenerator)
    (utxo : Utxo) (recipient : Consensus.Address) (cmd : EpisodeMessage G) (fee : UInt64) :
    Option Tx :=
  match EpisodeMessage.codec.serialize cmd with
  | none => none
  | some payload => self.buildTransaction [utxo] (utxo.2.amount - fee) 1 recipient payload

theorem findNonce_some {pattern : PatternType} {nonce : UInt32} {unsignedTx tx : Tx}
    {innerData : Bytes} {prefixType : PrefixType}
    (hpayload : unsignedTx.payload = Payload.withNonce innerData prefixType nonce)
    (hid : unsignedTx.id = Consensus.txId unsignedTx)
    (h : findNonce pattern nonce unsignedTx = some tx) :
    checkPattern tx.id pattern = true ∧ tx.id = Consensus.txId tx ∧
      ∃ nonce', tx.payload = Payload.withNonce innerData prefixType nonce' := by
  fun_induction findNonce pattern nonce unsignedTx with
  | case1 nonce unsignedTx hmatch =>
    obtain rfl := Option.some.inj h
    exact ⟨hmatch, hid, nonce, hpayload⟩
  | case2 => cases h
  | case3 nonce unsignedTx hmatch hnonce payload hset ih =>
    rw [hpayload, Payload.setNonce_withNonce] at hset
    obtain rfl := Option.some.inj hset
    exact ih rfl (Consensus.txId_id _ _).symm h
  | case4 => cases h

theorem findNonce_keeps {pattern : PatternType} {nonce : UInt32} {unsignedTx tx : Tx}
    (h : findNonce pattern nonce unsignedTx = some tx) :
    tx.inputs = unsignedTx.inputs ∧ tx.outputs = unsignedTx.outputs := by
  fun_induction findNonce pattern nonce unsignedTx with
  | case1 =>
    obtain rfl := Option.some.inj h
    exact ⟨rfl, rfl⟩
  | case2 => cases h
  | case3 _ _ _ _ _ _ ih => exact ih h
  | case4 => cases h

theorem buildTransaction_some {self : TransactionGenerator} {utxos : List Utxo}
    {sendAmount numOuts : UInt64} {recipient : Consensus.Address} {innerData : Bytes} {tx : Tx}
    (h : self.buildTransaction utxos sendAmount numOuts recipient innerData = some tx) :
    checkPattern tx.id self.pattern = true ∧ tx.id = Consensus.txId tx ∧
      ∃ nonce, tx.payload = Payload.withNonce innerData self.prefixType nonce := by
  obtain ⟨unsignedTx, hfind, rfl⟩ := Option.map_eq_some_iff.mp h
  rw [Consensus.sign_id, Consensus.txId_sign, Consensus.sign_payload]
  exact findNonce_some rfl (Consensus.txId_id _ _).symm hfind

/-- What the builder sends is what the engine decodes: the payload is found under the
generator's prefix only, the id matches the pattern, and behind the header is the message. -/
theorem command_round_trip [Crypto] {G : Type} [Episode G]
    (hlawful : (Episode.codec (G := G)).Lawful) {self : TransactionGenerator} {utxo : Utxo}
    {recipient : Consensus.Address} {cmd : EpisodeMessage G} {fee : UInt64} {tx : Tx}
    (h : self.buildCommandTransaction utxo recipient cmd fee = some tx) :
    Payload.checkHeader tx.payload self.prefixType = true ∧
    (∀ q, q ≠ self.prefixType → Payload.checkHeader tx.payload q = false) ∧
    checkPattern tx.id self.pattern = true ∧ tx.id = Consensus.txId tx ∧
    ∃ innerData, Payload.stripHeader tx.payload = some innerData ∧
      (EpisodeMessage.codec (G := G)).deserialize innerData = some (cmd, []) ∧
      (EpisodeMessage.codec (G := G)).fromSlice innerData = some cmd := by
  unfold buildCommandTransaction at h
  cases hs : EpisodeMessage.codec.serialize cmd with
  | none =>
    rw [hs] at h
    cases h
  | some innerData =>
    rw [hs] at h
    obtain ⟨hpattern, hid, nonce, hpayload⟩ := buildTransaction_some h
    have hcodec := EpisodeMessage.codec_lawful hlawful
    rw [hpayload]
    refine ⟨?_, fun q hq => ?_, hpattern, hid, innerData, Payload.stripHeader_withNonce, ?_,
      hcodec.fromSlice hs⟩
    · rw [Payload.checkHeader_withNonce, decide_eq_true rfl]
    · rw [Payload.checkHeader_withNonce, decide_eq_false hq]
    · have hd := hcodec cmd innerData [] hs
      rwa [List.append_nil] at hd

end TransactionGenerator
end
end Kdapp

namespace Kdapp.TransactionGenerator
attribute [local instance] idealCrypto

@[reducible] def payloadConsensus : Consensus where
  Address := Unit
  Keypair := Unit
  ScriptPublicKey := Unit
  txVersion := 0
  subnetworkIdNative := List.replicate 20 0
  payToAddressScript _ := ()
  txId tx := ⟨(tx.payload ++ List.replicate 32 0).take 32, by simp⟩
  sign tx _ _ := { tx with inputs := tx.inputs.map fun i => { i with signatureScript := [1] } }
  sign_payload _ _ _ := rfl
  sign_id _ _ _ := rfl
  txId_id _ _ := rfl
  txId_sign _ _ _ := rfl

attribute [local instance] payloadConsensus

def oddNonce : TransactionGenerator where
  signer := ()
  pattern := Vector.replicate 10 (32, 1)
  prefixType := 11

def oneUtxo : Utxo := (⟨Hash.filled 7, 0⟩, ⟨100, (), 5, false⟩)

def create : EpisodeMessage Tally := .newEpisode 7 [(1 : UInt8)]

theorem oddNonce_create :
    (oddNonce.buildCommandTransaction oneUtxo () create 1).isSome = true := by
  change (Option.map _ (findNonce oddNonce.pattern 0 _)).isSome = true
  rw [findNonce, if_neg (by decide), if_pos (by decide)]
  change (Option.map _ (findNonce oddNonce.pattern 1 _)).isSome = true
  rw [findNonce, if_pos (by decide)]
  rfl

theorem command_round_trip_tally :
    ∃ tx, oddNonce.buildCommandTransaction oneUtxo () create 1 = some tx ∧
      Payload.checkHeader tx.payload oddNonce.prefixType = true ∧
      (∀ q, q ≠ oddNonce.prefixType → Payload.checkHeader tx.payload q = false) ∧
      checkPattern tx.id oddNonce.pattern = true ∧ tx.id = Consensus.txId tx ∧
      ∃ innerData, Payload.stripHeader tx.payload = some innerData ∧
        (EpisodeMessage.codec (G := Tally)).deserialize innerData = some (create, []) ∧
        (EpisodeMessage.codec (G := Tally)).fromSlice innerData = some create := by
  obtain ⟨tx, htx⟩ := Option.isSome_iff_exists.mp oddNonce_create
  exact ⟨tx, htx, command_round_trip Borsh.Codec.u8_lawful htx⟩

end Kdapp.TransactionGenerator
