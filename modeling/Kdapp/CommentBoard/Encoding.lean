import Kdapp.CommentBoard.Wallet.Steps

/-! What the wallet's scripts and descriptors say of moderators: the counts have a byte each, and
the keys are those that were given. -/

namespace Kdapp.CommentBoard
open Borsh

variable [Crypto]

def BondScriptKind.moderators : BondScriptKind → ℕ
  | .p2pk | .timeLock _ => 0
  | .moderatorMultisig _ moderatorCount | .timeOrModerator _ _ moderatorCount =>
    moderatorCount.toNat

section Descriptors
variable {userPubkey : PubKey} {moderatorPubkeys : Option (List PubKey)}

theorem moderatorKeys_length (moderatorCount : UInt8) :
    (moderatorKeys moderatorPubkeys moderatorCount).length =
      min moderatorCount.toNat (moderatorPubkeys.getD []).length * 33 := by
  cases moderatorPubkeys with
  | none => exact (Nat.mul_eq_zero.mpr (.inl (Nat.min_zero _))).symm
  | some mks =>
    change ((mks.take moderatorCount.toNat).flatMap PubKey.serialize).length = _
    rw [flatMap_serialize_length, List.length_take]
    rfl

theorem keys_missing_iff (moderatorCount : UInt8) :
    (moderatorKeys moderatorPubkeys moderatorCount ++ userPubkey.serialize).length <
        moderatorCount.toNat * 33 + 33 ↔
      (moderatorPubkeys.getD []).length < moderatorCount.toNat := by
  rw [List.length_append, moderatorKeys_length, serialize_length]
  omega

omit [Crypto] in
theorem ite_eq_some_iff {α : Type} {P : Prop} [Decidable P] {a : α} :
    (if P then none else some a) = some a ↔ ¬ P := by
  split
  · rename_i hP
    exact iff_of_false nofun (not_not_intro hP)
  · rename_i hP
    exact iff_of_true rfl hP

/-- A descriptor is read back if and only if as many moderator keys were given as it counts. -/
theorem descriptor_round_trip_iff (descriptor : BondScriptKind) (userPubkey : PubKey)
    (moderatorPubkeys : Option (List PubKey)) :
    decodeBondDescriptor (encodeBondDescriptor descriptor userPubkey moderatorPubkeys) =
        some descriptor ↔
      descriptor.moderators ≤ (moderatorPubkeys.getD []).length := by
  cases descriptor with
  | p2pk =>
    refine iff_of_true ?_ (Nat.zero_le _)
    rw [encodeBondDescriptor, decode_p2pk, if_neg (Nat.not_lt.mpr serialize_length.ge)]
  | timeLock unlockTime =>
    refine iff_of_true ?_ (Nat.zero_le _)
    rw [encodeBondDescriptor, decode_timeLock (leBytes_length 8 _), ofLeBytes_u64,
      if_neg (Nat.not_lt.mpr serialize_length.ge)]
  | moderatorMultisig requiredSignatures moderatorCount =>
    rw [encodeBondDescriptor, decode_moderatorMultisig, ite_eq_some_iff, keys_missing_iff]
    exact Nat.not_lt
  | timeOrModerator unlockTime requiredSignatures moderatorCount =>
    rw [encodeBondDescriptor, decode_timeOrModerator (leBytes_length 8 _), ofLeBytes_u64,
      ite_eq_some_iff, keys_missing_iff]
    exact Nat.not_lt

end Descriptors

section Scripts
variable {pk : PubKey} {mods : List PubKey} {required : UInt64}

/-- Threshold and count of a multisig script, with the keys behind the count. -/
structure DeclaresModerators (multisig : Bytes) (mods : List PubKey) (required : UInt64) :
    Prop where
  threshold : multisig[0]?.map UInt8.toNat = some required.toNat
  count : multisig[34]?.map UInt8.toNat = some mods.length
  keys : (multisig.drop 35).take (mods.length * 33) = mods.flatMap PubKey.serialize
  pos : 1 ≤ required.toNat
  le : required.toNat ≤ mods.length

/-- The script says what its condition declares; of two branches the second is a multisig, after
a marker, the first branch of 42 bytes and two lengths. -/
def Declares (script : Bytes) : ScriptUnlockCondition → Prop
  | .timeLock _ _ => True
  | .moderatorRelease _ mods required => DeclaresModerators script mods required
  | .timeOrModerator _ _ mods required => DeclaresModerators (script.drop 51) mods required

/-- The moderators can be counted with a byte, and at least one signature is asked for. -/
def ScriptUnlockCondition.Countable : ScriptUnlockCondition → Prop
  | .timeLock _ _ => True
  | .moderatorRelease _ mods _ => mods.length < 256
  | .timeOrModerator _ _ mods required => mods.length < 256 ∧ required ≠ 0

theorem declaresModerators_iff (hle : required.toNat ≤ mods.length) :
    DeclaresModerators (UInt8.ofNat required.toNat :: (pk.serialize ++
        UInt8.ofNat mods.length :: (mods.flatMap PubKey.serialize ++ [0x02]))) mods required ↔
      mods.length < 256 ∧ required ≠ 0 := by
  have hlen : pk.serialize.length = 33 := serialize_length
  have hcount : (pk.serialize ++ UInt8.ofNat mods.length ::
      (mods.flatMap PubKey.serialize ++ [0x02]))[33]? = some (UInt8.ofNat mods.length) := by
    rw [List.getElem?_append_right (Nat.le_of_eq hlen), hlen]
    rfl
  have hpos : required ≠ 0 ↔ 1 ≤ required.toNat := by
    rw [ne_eq, ← UInt64.toNat_inj]
    exact Nat.one_le_iff_ne_zero.symm
  rw [hpos]
  constructor
  · intro h
    have hbyte := h.count
    rw [List.getElem?_cons_succ, hcount, Option.map_some, UInt8.toNat_ofNat'] at hbyte
    have hmod : mods.length % 2 ^ 8 = mods.length := Option.some.inj hbyte
    exact ⟨by omega, h.pos⟩
  · rintro ⟨hsmall, hone⟩
    refine ⟨?_, ?_, ?_, hone, hle⟩
    · rw [List.getElem?_cons_zero, Option.map_some, UInt8.toNat_ofNat',
        Nat.mod_eq_of_lt (show required.toNat < 2 ^ 8 by omega)]
    · rw [List.getElem?_cons_succ, hcount, Option.map_some, UInt8.toNat_ofNat',
        Nat.mod_eq_of_lt hsmall]
    · have hdrop : (pk.serialize ++ UInt8.ofNat mods.length ::
          (mods.flatMap PubKey.serialize ++ [0x02])).drop 34 =
            mods.flatMap PubKey.serialize ++ [0x02] := by
        rw [← List.singleton_append, ← List.append_assoc]
        apply List.drop_left'
        rw [List.length_append, hlen]
        rfl
      rw [List.drop_succ_cons, hdrop]
      exact List.take_left' flatMap_serialize_length

variable [WalletCrates]

theorem exists_script_iff {script : Bytes} (P : Bytes → Prop) :
    (∃ spk, (Except.ok script : Except String Bytes).map (WalletCrates.scriptPublicKey 0) =
      .ok spk ∧ P (WalletCrates.script spk)) ↔ P script := by
  constructor
  · rintro ⟨spk, hspk, hP⟩
    obtain rfl := Except.ok.inj hspk
    rwa [WalletCrates.script_scriptPublicKey] at hP
  · intro hP
    refine ⟨WalletCrates.scriptPublicKey 0 script, rfl, ?_⟩
    rwa [WalletCrates.script_scriptPublicKey]

/-- For every condition that passes its validation, a script is made; it says what was declared if
and only if the moderators can be counted. -/
theorem declared_iff_countable {condition : ScriptUnlockCondition} {now : UInt64}
    (h : validateScriptConditions condition now = .ok ()) :
    (∃ spk, createBondScriptPubkey condition = .ok spk ∧
      Declares (WalletCrates.script spk) condition) ↔ condition.Countable := by
  unfold createBondScriptPubkey
  cases condition with
  | timeLock unlockTime pk => exact iff_of_true ⟨_, rfl, trivial⟩ trivial
  | moderatorRelease pk mods required =>
    obtain ⟨hpos, hle⟩ := validate_moderatorRelease h
    rw [createBondScript, createModeratorMultisigScript_of_le hle]
    refine (exists_script_iff fun script => DeclaresModerators script mods required).trans ?_
    exact (declaresModerators_iff hle).trans (and_iff_left hpos)
  | timeOrModerator unlockTime pk mods required =>
    have hle := validate_timeOrModerator h
    have htimelock : (createBondTimelockScript unlockTime pk).length = 42 := by
      rw [createBondTimelockScript, List.length_append, List.length_append, leBytes_length,
        serialize_length]
      rfl
    rw [createBondScript, createCombinedUnlockScript, createModeratorMultisigScript_of_le hle]
    refine (exists_script_iff fun script =>
      DeclaresModerators (script.drop 51) mods required).trans ?_
    rw [List.drop_left']
    · exact declaresModerators_iff hle
    · simp only [List.length_append, List.length_cons, leBytes_length, htimelock]

end Scripts
end Kdapp.CommentBoard

namespace Kdapp.CommentBoard
attribute [local instance] idealCrypto plainCrates

/-- Two moderators are counted, and no key is given for them. -/
theorem uncovered_count :
    ¬ ∀ (descriptor : BondScriptKind) (userPubkey : PubKey)
      (moderatorPubkeys : Option (List PubKey)),
      decodeBondDescriptor (encodeBondDescriptor descriptor userPubkey moderatorPubkeys) =
        some descriptor := by
  intro h
  have hback := h (.moderatorMultisig 1 2) (7 : UInt8) none
  revert hback
  decide

theorem declared_at :
    ∃ spk, createBondScriptPubkey
        (.timeOrModerator 20 (7 : UInt8) [(1 : UInt8), (2 : UInt8), (3 : UInt8)] 2) = .ok spk ∧
      Declares (WalletCrates.script spk)
        (.timeOrModerator 20 (7 : UInt8) [(1 : UInt8), (2 : UInt8), (3 : UInt8)] 2) := by
  refine (declared_iff_countable (show validateScriptConditions _ 10 = .ok () from rfl)).mpr ?_
  exact ⟨by decide, by decide⟩

def manyModerators : List PubKey := List.replicate 256 (1 : UInt8)

theorem manyModerators_length : manyModerators.length = 256 := List.length_replicate

/-- A lock that no moderator has to sign for, and 256 moderators who are counted as none. -/
theorem miscounted_moderators :
    (validateScriptConditions (.timeOrModerator 20 (7 : UInt8) [(1 : UInt8)] 0) 10 = .ok () ∧
      ¬ ∃ spk, createBondScriptPubkey (.timeOrModerator 20 (7 : UInt8) [(1 : UInt8)] 0) = .ok spk ∧
        Declares (WalletCrates.script spk) (.timeOrModerator 20 (7 : UInt8) [(1 : UInt8)] 0)) ∧
    (validateScriptConditions (.moderatorRelease (7 : UInt8) manyModerators 1) 10 = .ok () ∧
      ¬ ∃ spk, createBondScriptPubkey (.moderatorRelease (7 : UInt8) manyModerators 1) = .ok spk ∧
        Declares (WalletCrates.script spk) (.moderatorRelease (7 : UInt8) manyModerators 1)) := by
  have hle : (1 : UInt64).toNat ≤ manyModerators.length := by
    rw [manyModerators_length]
    decide
  refine ⟨⟨rfl, ?_⟩, ⟨?_, ?_⟩⟩
  · rintro ⟨spk, -, hdeclares⟩
    exact absurd hdeclares.pos (by decide)
  · have hsome : manyModerators.isEmpty = false := rfl
    unfold validateScriptConditions
    dsimp only
    rw [hsome, if_neg Bool.false_ne_true, if_neg (by decide), if_neg (Nat.not_lt.mpr hle)]
  · rintro ⟨spk, hspk, hdeclares⟩
    rw [createBondScriptPubkey, createBondScript, createModeratorMultisigScript_of_le hle] at hspk
    obtain rfl := Except.ok.inj hspk
    have hsmall := ((declaresModerators_iff hle).mp hdeclares).1
    rw [manyModerators_length] at hsmall
    exact absurd hsmall (by decide)

end Kdapp.CommentBoard
