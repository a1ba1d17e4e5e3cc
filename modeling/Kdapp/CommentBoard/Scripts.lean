import Kdapp.CommentBoard
import Kdapp.Proxy

/-! The scripts that lock a bond (`comment-board/src/wallet/kaspa_scripts.rs`), and what the
descriptor format reads in them. -/

namespace Kdapp.CommentBoard
open Borsh

/-- The crates behind the wallet: a script public key can be made of bytes and read, and `sign`
fills in signature scripts only. -/
class WalletCrates [Crypto] extends Consensus where
  scriptPublicKey : UInt16 → Bytes → ScriptPublicKey
  version : ScriptPublicKey → UInt16
  script : ScriptPublicKey → Bytes
  publicKey : Keypair → PubKey
  script_scriptPublicKey : ∀ v bytes, script (scriptPublicKey v bytes) = bytes
  /-- `OP_DATA_32`, `OP_DATA_33` and `OP_BLAKE2B`, for the three kinds of addresses. -/
  payToAddressScript_head : ∀ address,
    (script (payToAddressScript address)).head? ∈ [some 0x20, some 0x21, some 0xaa]
  sign_outputs : ∀ tx entries kp, (sign tx entries kp).outputs = tx.outputs
  sign_outpoints : ∀ tx entries kp,
    (sign tx entries kp).inputs.map (·.previousOutpoint) = tx.inputs.map (·.previousOutpoint)

section
attribute [local instance] idealCrypto

@[reducible] def plainCrates : WalletCrates where
  Address := Unit
  Keypair := UInt8
  ScriptPublicKey := Bytes
  txVersion := 0
  subnetworkIdNative := List.replicate 20 0
  payToAddressScript _ := 0x20 :: List.replicate 32 7 ++ [0xac]
  txId _ := Hash.filled 9
  sign tx _ _ := { tx with inputs := tx.inputs.map fun i => { i with signatureScript := [1] } }
  sign_payload _ _ _ := rfl
  sign_id _ _ _ := rfl
  txId_id _ _ := rfl
  txId_sign _ _ _ := rfl
  scriptPublicKey _ script := script
  version _ := 0
  script script := script
  publicKey kp := kp
  script_scriptPublicKey _ _ := rfl
  payToAddressScript_head _ := List.mem_cons_self
  sign_outputs _ _ _ := rfl
  sign_outpoints tx _ _ := by simp

end

inductive ScriptUnlockCondition [Crypto] where
  | timeLock (unlockTime : UInt64) (userPubkey : PubKey)
  | moderatorRelease (userPubkey : PubKey) (moderatorPubkeys : List PubKey)
    (requiredSignatures : UInt64)
  | timeOrModerator (unlockTime : UInt64) (userPubkey : PubKey) (moderatorPubkeys : List PubKey)
    (requiredSignatures : UInt64)

section Builders
variable [Crypto]

def createBondTimelockScript (unlockTime : UInt64) (userPubkey : PubKey) : Bytes :=
  leBytes 8 unlockTime.toNat ++ userPubkey.serialize ++ [0x01]

def createModeratorMultisigScript (userPubkey : PubKey) (moderatorPubkeys : List PubKey)
    (requiredSignatures : UInt64) : Except String Bytes :=
  if requiredSignatures.toNat > moderatorPubkeys.length then
    .error "Required signatures cannot exceed number of moderators"
  else
    .ok (UInt8.ofNat requiredSignatures.toNat :: userPubkey.serialize ++
      UInt8.ofNat moderatorPubkeys.length :: moderatorPubkeys.flatMap PubKey.serialize ++ [0x02])

def createCombinedUnlockScript (unlockTime : UInt64) (userPubkey : PubKey)
    (moderatorPubkeys : List PubKey) (requiredSignatures : UInt64) : Except String Bytes :=
  let timelock := createBondTimelockScript unlockTime userPubkey
  (createModeratorMultisigScript userPubkey moderatorPubkeys requiredSignatures).map
    fun multisig =>
      0x03 :: leBytes 4 timelock.length ++ timelock ++ leBytes 4 multisig.length ++ multisig

def createBondScript : ScriptUnlockCondition → Except String Bytes
  | .timeLock unlockTime userPubkey => .ok (createBondTimelockScript unlockTime userPubkey)
  | .moderatorRelease userPubkey moderatorPubkeys requiredSignatures =>
    createModeratorMultisigScript userPubkey moderatorPubkeys requiredSignatures
  | .timeOrModerator unlockTime userPubkey moderatorPubkeys requiredSignatures =>
    createCombinedUnlockScript unlockTime userPubkey moderatorPubkeys requiredSignatures

def createBondScriptPubkey [WalletCrates] (condition : ScriptUnlockCondition) :
    Except String Consensus.ScriptPublicKey :=
  (createBondScript condition).map (WalletCrates.scriptPublicKey 0)

def validateScriptConditions (condition : ScriptUnlockCondition) (currentTime : UInt64) :
    Except String Unit :=
  match condition with
  | .timeLock unlockTime _ =>
    if unlockTime ≤ currentTime then .error "Unlock time must be in the future"
    else if unlockTime > currentTime + 365 * 24 * 60 * 60 then
      .error "Unlock time cannot be more than 1 year in the future"
    else .ok ()
  | .moderatorRelease _ moderatorPubkeys requiredSignatures =>
    if moderatorPubkeys.isEmpty then .error "At least one moderator public key required"
    else if requiredSignatures = 0 then .error "At least one signature required"
    else if requiredSignatures.toNat > moderatorPubkeys.length then
      .error "Required signatures cannot exceed number of moderators"
    else .ok ()
  | .timeOrModerator unlockTime _ moderatorPubkeys requiredSignatures =>
    if unlockTime ≤ currentTime then .error "Unlock time must be in the future"
    else if moderatorPubkeys.isEmpty then .error "At least one moderator public key required"
    else if requiredSignatures.toNat > moderatorPubkeys.length then
      .error "Required signatures cannot exceed number of moderators"
    else .ok ()

section Valid
variable {pk : PubKey} {mods : List PubKey} {unlockTime required now : UInt64}

theorem validate_moderatorRelease
    (h : validateScriptConditions (.moderatorRelease pk mods required) now = .ok ()) :
    required ≠ 0 ∧ required.toNat ≤ mods.length := by
  unfold validateScriptConditions at h
  dsimp only at h
  split at h
  · cases h
  split at h
  · cases h
  split at h
  · cases h
  · rename_i hpos hle
    exact ⟨hpos, Nat.not_lt.mp hle⟩

theorem validate_timeOrModerator
    (h : validateScriptConditions (.timeOrModerator unlockTime pk mods required) now = .ok ()) :
    required.toNat ≤ mods.length := by
  unfold validateScriptConditions at h
  dsimp only at h
  split at h
  · cases h
  split at h
  · cases h
  split at h
  · cases h
  · rename_i hle
    exact Nat.not_lt.mp hle

theorem createModeratorMultisigScript_of_le (hle : required.toNat ≤ mods.length) :
    createModeratorMultisigScript pk mods required =
      .ok (UInt8.ofNat required.toNat :: (pk.serialize ++
        UInt8.ofNat mods.length :: (mods.flatMap PubKey.serialize ++ [0x02]))) := by
  unfold createModeratorMultisigScript
  rw [if_neg (Nat.not_lt.mpr hle)]
  simp only [List.cons_append, List.append_assoc]

end Valid

def moderatorKeys (moderatorPubkeys : Option (List PubKey)) (moderatorCount : UInt8) : Bytes :=
  match moderatorPubkeys with
  | some mks => (mks.take moderatorCount.toNat).flatMap PubKey.serialize
  | none => []

/-- `encode_bond_descriptor`. -/
def encodeBondDescriptor (descriptor : BondScriptKind) (userPubkey : PubKey)
    (moderatorPubkeys : Option (List PubKey)) : Bytes :=
  match descriptor with
  | .p2pk => 0x01 :: userPubkey.serialize
  | .timeLock unlockTime => 0x02 :: (leBytes 8 unlockTime.toNat ++ userPubkey.serialize)
  | .moderatorMultisig requiredSignatures moderatorCount =>
    0x03 :: requiredSignatures :: moderatorCount ::
      (moderatorKeys moderatorPubkeys moderatorCount ++ userPubkey.serialize)
  | .timeOrModerator unlockTime requiredSignatures moderatorCount =>
    0x04 :: (leBytes 8 unlockTime.toNat ++ requiredSignatures :: moderatorCount ::
      (moderatorKeys moderatorPubkeys moderatorCount ++ userPubkey.serialize))

theorem serialize_length {pk : PubKey} : pk.serialize.length = 33 := Crypto.serialize_length pk

theorem flatMap_serialize_length {mods : List PubKey} :
    (mods.flatMap PubKey.serialize).length = mods.length * 33 := by
  induction mods with
  | nil => rfl
  | cons pk mods ih =>
    have hlen : pk.serialize.length = 33 := serialize_length
    rw [List.flatMap_cons, List.length_append, ih, hlen, List.length_cons]
    omega

end Builders

section Decode
variable {bytes : Bytes}

theorem tag_eq_iff (n : ℕ) (tag : UInt8) : UInt8.ofNat n = tag ↔ n % 256 = tag.toNat := by
  rw [← UInt8.toNat_inj, UInt8.toNat_ofNat']

theorem skipBytes_bind {α : Type} (n : ℕ) (f : Bytes → Option α) :
    (skipBytes n bytes).bind f = if bytes.length < n then none else f (bytes.drop n) := by
  unfold skipBytes
  split
  · rfl
  · rfl

theorem u64_deserialize_append {time : Bytes} (h : time.length = 8) (rest : Bytes) :
    Codec.u64.deserialize (time ++ rest) = some (UInt64.ofNat (ofLeBytes time), rest) := by
  unfold Codec.u64 Codec.uint
  dsimp only
  rw [Codec.readExact_append h]
  rfl

theorem skipKeys_bind {α : Type} (n : ℕ) (a : α) :
    ((skipBytes n bytes).bind fun bytes => (skipPub bytes).bind fun _ => some a) =
      if bytes.length < n + 33 then none else some a := by
  have hdrop : (bytes.drop n).length = bytes.length - n := List.length_drop
  rw [skipBytes_bind, skipPub, skipBytes_bind, hdrop]
  by_cases hn : bytes.length < n
  · rw [if_pos hn, if_pos (by omega)]
  · rw [if_neg hn]
    apply if_congr _ rfl rfl
    omega

theorem decode_p2pk : decodeBondDescriptor (0x01 :: bytes) =
    if bytes.length < 33 then none else some .p2pk := by
  change (skipBytes 33 bytes).bind _ = _
  rw [skipBytes_bind]

theorem decode_timeLock {time : Bytes} (h : time.length = 8) :
    decodeBondDescriptor (0x02 :: (time ++ bytes)) =
      if bytes.length < 33 then none else some (.timeLock (UInt64.ofNat (ofLeBytes time))) := by
  change (Codec.u64.deserialize (time ++ bytes)).bind _ = _
  rw [u64_deserialize_append h]
  change (skipBytes 33 bytes).bind _ = _
  rw [skipBytes_bind]

theorem decode_moderatorMultisig (req cnt : UInt8) :
    decodeBondDescriptor (0x03 :: req :: cnt :: bytes) =
      if bytes.length < cnt.toNat * 33 + 33 then none else some (.moderatorMultisig req cnt) :=
  skipKeys_bind (cnt.toNat * 33) _

theorem decode_timeOrModerator {time : Bytes} (h : time.length = 8) (req cnt : UInt8) :
    decodeBondDescriptor (0x04 :: (time ++ req :: cnt :: bytes)) =
      if bytes.length < cnt.toNat * 33 + 33 then none
      else some (.timeOrModerator (UInt64.ofNat (ofLeBytes time)) req cnt) := by
  change (Codec.u64.deserialize (time ++ req :: cnt :: bytes)).bind _ = _
  rw [u64_deserialize_append h]
  exact skipKeys_bind (cnt.toNat * 33) _

theorem decode_other {tag : UInt8} (h : tag ∉ [0x01, 0x02, 0x03, 0x04]) :
    decodeBondDescriptor (tag :: bytes) = none := by
  simp only [List.mem_cons, List.not_mem_nil, or_false, not_or] at h
  obtain ⟨h1, h2, h3, h4⟩ := h
  unfold decodeBondDescriptor
  split <;> simp_all

end Decode
end Kdapp.CommentBoard
