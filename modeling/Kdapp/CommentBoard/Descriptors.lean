import Kdapp.CommentBoard.Wallet.Transactions

/-! What the board reads in the scripts that the wallet locks bonds with. -/

namespace Kdapp.CommentBoard
open Borsh

variable [Crypto]

def BondScriptKind.Describes : BondScriptKind → ScriptUnlockCondition → Prop
  | .timeLock time, .timeLock time' _ => time = time'
  | .moderatorMultisig req cnt, .moderatorRelease _ mods req' =>
    req.toNat = req'.toNat ∧ cnt.toNat = mods.length
  | .timeOrModerator time req cnt, .timeOrModerator time' _ mods req' =>
    time = time' ∧ req.toNat = req'.toNat ∧ cnt.toNat = mods.length
  | _, _ => False

def Agrees (script : Bytes) (condition : ScriptUnlockCondition) : Prop :=
  ∀ kind, decodeBondDescriptor script = some kind → kind.Describes condition

def keyByte (pk : PubKey) (i : ℕ) : UInt8 := pk.serialize.getD i 0

namespace ScriptUnlockCondition

/-- The first byte of the script is the low byte of the time or the threshold. It is no tag of
the format, or else what stands at the places of the fields does no harm. -/
def Separated : ScriptUnlockCondition → Prop
  | .timeLock unlockTime pk =>
    unlockTime % 256 ≠ 1 ∧
    (unlockTime % 256 = 2 → unlockTime = 0x0202020202020202 ∧ keyByte pk 0 = 2) ∧
    (unlockTime % 256 = 3 → unlockTime / 65536 % 256 ≠ 0)
  | .moderatorRelease pk mods required =>
    required ≠ 1 ∧ required ≠ 2 ∧
    (required = 3 → mods.length < (keyByte pk 1).toNat ∨
      keyByte pk 0 = 3 ∧ (keyByte pk 1).toNat = mods.length) ∧
    (required = 4 → mods.length ≤ (keyByte pk 9).toNat)
  | .timeOrModerator _ _ _ _ => False

def SmallThreshold : ScriptUnlockCondition → Prop
  | .timeLock _ _ => True
  | .moderatorRelease _ _ required => required.toNat < 256
  | .timeOrModerator _ _ _ required => required.toNat < 256

end ScriptUnlockCondition

section Agreement
variable {pk : PubKey} {mods : List PubKey} {time required : UInt64} {script : Bytes}
  {condition : ScriptUnlockCondition} {kind : BondScriptKind}

theorem agrees_of_none (h : decodeBondDescriptor script = none) : Agrees script condition := by
  intro kind hkind
  rw [h] at hkind
  cases hkind

theorem agrees_of_some (h : decodeBondDescriptor script = some kind) :
    Agrees script condition ↔ kind.Describes condition := by
  unfold Agrees
  rw [h]
  constructor
  · intro hagrees
    exact hagrees kind rfl
  · intro hkind kind' h'
    rwa [← Option.some.inj h']

theorem agrees_of_ite {P : Prop} [Decidable P]
    (h : decodeBondDescriptor script = if P then none else some kind) :
    Agrees script condition ↔ P ∨ kind.Describes condition := by
  split at h
  · rename_i hP
    exact iff_of_true (agrees_of_none h) (.inl hP)
  · rename_i hP
    rw [agrees_of_some h]
    exact (or_iff_right hP).symm

theorem serialize_split {i : ℕ} (h : i + 2 ≤ 33) :
    pk.serialize =
      pk.serialize.take i ++ keyByte pk i :: keyByte pk (i + 1) :: pk.serialize.drop (i + 2) := by
  have hlen : pk.serialize.length = 33 := serialize_length
  have h0 : i < pk.serialize.length := by omega
  have h1 : i + 1 < pk.serialize.length := by omega
  have hbyte : ∀ j (hj : j < pk.serialize.length), pk.serialize[j] = keyByte pk j := by
    intro j hj
    unfold keyByte
    rw [List.getD_eq_getElem?_getD, List.getElem?_eq_getElem hj, Option.getD_some]
  calc pk.serialize = pk.serialize.take i ++ pk.serialize.drop i := (List.take_append_drop _ _).symm
    _ = _ := by
      rw [List.drop_eq_getElem_cons h0, List.drop_eq_getElem_cons h1, hbyte i h0, hbyte (i + 1) h1]

omit [Crypto] in
theorem shifted_eq_iff {q r k : ℕ} (hr : r < 256) (hk : k < 256) :
    q + 256 ^ 7 * k = 256 * q + r ∧ r = 2 ↔ 256 * q + r = 0x0202020202020202 ∧ k = 2 := by
  constructor
  · rintro ⟨hshift, rfl⟩
    have hmultiple : 255 * q + 2 = 256 ^ 7 * k := by omega
    have hkey : k = 2 := by omega
    rw [hkey] at hmultiple
    exact ⟨by omega, hkey⟩
  · rintro ⟨hvalue, rfl⟩
    omega

theorem shifted_time_eq_iff (pk : PubKey) (time : UInt64) :
    UInt64.ofNat (ofLeBytes (leBytes 7 (time.toNat / 256) ++ [keyByte pk 0])) = time ∧
        time.toNat % 256 = 2 ↔ time = 0x0202020202020202 ∧ keyByte pk 0 = 2 := by
  have htime : time.toNat < 2 ^ 64 := time.toNat_lt
  have hbyte : (keyByte pk 0).toNat < 256 := (keyByte pk 0).toNat_lt
  have hvalue : ofLeBytes (leBytes 7 (time.toNat / 256) ++ [keyByte pk 0]) =
      time.toNat / 256 + 256 ^ 7 * (keyByte pk 0).toNat := by
    rw [ofLeBytes_append, ofLeBytes_leBytes, leBytes_length, Nat.mod_eq_of_lt (by omega)]
    rfl
  have hsplit : 256 * (time.toNat / 256) + time.toNat % 256 = time.toNat := Nat.div_add_mod _ _
  have hmod : (time.toNat / 256 + 256 ^ 7 * (keyByte pk 0).toNat) % 2 ^ 64 =
      time.toNat / 256 + 256 ^ 7 * (keyByte pk 0).toNat := Nat.mod_eq_of_lt (by omega)
  have hshift := shifted_eq_iff (q := time.toNat / 256) (Nat.mod_lt time.toNat (by decide)) hbyte
  rw [hsplit] at hshift
  rw [hvalue, ← UInt64.toNat_inj, ← UInt64.toNat_inj, ← UInt8.toNat_inj, UInt64.toNat_ofNat', hmod]
  exact hshift

omit [Crypto] in
theorem time_mod_eq_iff (k : UInt64) : time % 256 = k ↔ time.toNat % 256 = k.toNat := by
  rw [← UInt64.toNat_inj, UInt64.toNat_mod]
  rfl

omit [Crypto] in
theorem third_byte_toNat : (time / 65536).toNat % 256 = time.toNat / 256 / 256 % 256 := by
  rw [UInt64.toNat_div, Nat.div_div_eq_div_mul]
  rfl

theorem separated_timeLock_iff : (ScriptUnlockCondition.timeLock time pk).Separated ↔
    time.toNat % 256 ≠ 1 ∧
    (time.toNat % 256 = 2 → time = 0x0202020202020202 ∧ keyByte pk 0 = 2) ∧
    (time.toNat % 256 = 3 → time.toNat / 256 / 256 % 256 ≠ 0) := by
  simp only [ScriptUnlockCondition.Separated, time_mod_eq_iff, ne_eq, third_byte_toNat]
  rfl

theorem agrees_counts_iff {req cnt : UInt8} {rest : Bytes} (h : rest.length = 39) :
    Agrees (0x03 :: req :: cnt :: rest) (.timeLock time pk) ↔ cnt.toNat ≠ 0 := by
  rw [agrees_of_ite (decode_moderatorMultisig req cnt), h]
  constructor
  · rintro (hlen | hkind)
    · omega
    · exact hkind.elim
  · intro hne
    exact .inl (by omega)

theorem agrees_timelock : Agrees (createBondTimelockScript time pk) (.timeLock time pk) ↔
    (ScriptUnlockCondition.timeLock time pk).Separated := by
  have hfirst : pk.serialize.take 1 = [keyByte pk 0] := by
    conv_lhs => rw [serialize_split (i := 0) (by omega)]
    rfl
  have hend : (pk.serialize.drop 3 ++ [0x01]).length = 31 := by
    rw [List.length_append, List.length_drop, serialize_length]
    rfl
  have hscript : createBondTimelockScript time pk =
      UInt8.ofNat time.toNat :: ((leBytes 7 (time.toNat / 256) ++ [keyByte pk 0]) ++
        keyByte pk 1 :: keyByte pk 2 :: (pk.serialize.drop 3 ++ [0x01])) := by
    conv_lhs => rw [createBondTimelockScript, serialize_split (i := 1) (by omega), hfirst]
    simp only [leBytes, List.cons_append, List.nil_append]
  have htime : (leBytes 7 (time.toNat / 256) ++ [keyByte pk 0]).length = 8 := by
    rw [List.length_append, leBytes_length]
    rfl
  rw [hscript, separated_timeLock_iff]
  -- `decode_bond_descriptor` takes the low byte of the time for the tag of a script kind
  by_cases h1 : time.toNat % 256 = 1
  · rw [(tag_eq_iff _ 0x01).mpr h1, agrees_of_ite decode_p2pk]
    apply iff_of_false
    · rintro (hlen | hkind)
      · rw [List.length_append, htime, List.length_cons, List.length_cons, hend] at hlen
        omega
      · exact hkind
    · exact fun h => h.1 h1
  by_cases h2 : time.toNat % 256 = 2
  · rw [(tag_eq_iff _ 0x02).mpr h2, agrees_of_ite (decode_timeLock htime), List.length_cons,
      List.length_cons, hend]
    have hshift := shifted_time_eq_iff pk time
    constructor
    · rintro (hlen | hkind)
      · exact absurd hlen (lt_irrefl 33)
      · exact ⟨h1, fun _ => hshift.mp ⟨hkind, h2⟩, fun h3 => by omega⟩
    · rintro ⟨-, h, -⟩
      exact .inr (hshift.mpr (h h2)).1
  by_cases h3 : time.toNat % 256 = 3
  · -- the second and the third byte of the time are taken for the two counts
    have hcount : (UInt8.ofNat (time.toNat / 256 / 256)).toNat = time.toNat / 256 / 256 % 256 :=
      UInt8.toNat_ofNat'
    have hrest : (leBytes 5 (time.toNat / 256 / 256 / 256) ++ [keyByte pk 0] ++
        keyByte pk 1 :: keyByte pk 2 :: (pk.serialize.drop 3 ++ [0x01])).length = 39 := by
      simp only [List.length_append, leBytes_length, List.length_cons, List.length_nil,
        List.length_drop, serialize_length]
    rw [(tag_eq_iff _ 0x03).mpr h3]
    apply (agrees_counts_iff hrest).trans
    rw [hcount]
    constructor
    · intro hne
      exact ⟨h1, fun h => absurd h h2, fun _ => hne⟩
    · intro h
      exact h.2.2 h3
  by_cases h4 : time.toNat % 256 = 4
  · rw [(tag_eq_iff _ 0x04).mpr h4]
    refine iff_of_true ?_ ⟨h1, fun h => absurd h h2, fun h => absurd h h3⟩
    apply agrees_of_none
    -- too short for the last kind: nothing is decoded, so nothing disagrees
    rw [decode_timeOrModerator htime, hend, if_pos (by omega)]
  · apply iff_of_true
    · apply agrees_of_none
      apply decode_other
      simp only [List.mem_cons, List.not_mem_nil, or_false, not_or, tag_eq_iff]
      exact ⟨h1, h2, h3, h4⟩
    · exact ⟨h1, fun h => absurd h h2, fun h => absurd h h3⟩

theorem take_serialize_length : (pk.serialize.take 8).length = 8 := by
  rw [List.length_take, serialize_length]
  rfl

theorem agrees_multisig (hrequired : required.toNat < 256) (hpos : required ≠ 0)
    (hle : required.toNat ≤ mods.length)
    (h : createModeratorMultisigScript pk mods required = .ok script) :
    Agrees script (.moderatorRelease pk mods required) ↔
      (ScriptUnlockCondition.moderatorRelease pk mods required).Separated := by
  have htag : ∀ k : UInt8, UInt8.ofNat required.toNat = k ↔ required.toNat = k.toNat := by
    intro k
    rw [tag_eq_iff, Nat.mod_eq_of_lt hrequired]
  have hthreshold : ∀ k : UInt64, required = k ↔ required.toNat = k.toNat := fun k =>
    UInt64.toNat_inj.symm
  obtain ⟨tail, htail, hlen⟩ : ∃ tail : Bytes,
      createModeratorMultisigScript pk mods required =
        .ok (UInt8.ofNat required.toNat :: (pk.serialize ++ tail)) ∧
      tail.length = mods.length * 33 + 2 := by
    refine ⟨UInt8.ofNat mods.length :: (mods.flatMap PubKey.serialize ++ [0x02]), ?_, ?_⟩
    · exact createModeratorMultisigScript_of_le hle
    · rw [List.length_cons, List.length_append, flatMap_serialize_length]
      rfl
  rw [htail] at h
  obtain rfl := Except.ok.inj h
  have hkey : pk.serialize.length = 33 := serialize_length
  have hpos' : required.toNat ≠ 0 := fun h0 => hpos ((hthreshold 0).mpr h0)
  simp only [ScriptUnlockCondition.Separated, ne_eq, hthreshold]
  change _ ↔ ¬ required.toNat = 1 ∧ ¬ required.toNat = 2 ∧ (required.toNat = 3 → _) ∧
    (required.toNat = 4 → _)
  -- the threshold comes first in the script, and is taken for the tag
  by_cases h1 : required.toNat = 1
  · rw [(htag 0x01).mpr h1, agrees_of_ite decode_p2pk, List.length_append, hkey]
    apply iff_of_false
    · rintro (hshort | hkind)
      · omega
      · exact hkind
    · exact fun h => h.1 h1
  by_cases h2 : required.toNat = 2
  · have hsplit : pk.serialize ++ tail =
        pk.serialize.take 8 ++ (pk.serialize.drop 8 ++ tail) := by
      rw [← List.append_assoc, List.take_append_drop]
    rw [(htag 0x02).mpr h2, hsplit,
      agrees_of_ite (decode_timeLock take_serialize_length), List.length_append,
      List.length_drop, hkey, hlen]
    apply iff_of_false
    · rintro (hshort | hkind)
      · omega
      · exact hkind
    · exact fun h => h.2.1 h2
  by_cases h3 : required.toNat = 3
  · have hsplit : pk.serialize ++ tail =
        keyByte pk 0 :: keyByte pk 1 :: (pk.serialize.drop 2 ++ tail) := by
      conv_lhs => rw [serialize_split (i := 0) (by omega)]
      rfl
    rw [(htag 0x03).mpr h3, hsplit, agrees_of_ite (decode_moderatorMultisig _ _),
      List.length_append, List.length_drop, hkey, hlen]
    -- the bytes of the key are taken for the threshold and the count
    have hfirst : (keyByte pk 0).toNat = required.toNat ↔ keyByte pk 0 = 3 := by
      rw [h3, ← UInt8.toNat_inj]
      rfl
    have hshort : 33 - 2 + (mods.length * 33 + 2) < (keyByte pk 1).toNat * 33 + 33 ↔
        mods.length < (keyByte pk 1).toNat := by omega
    rw [hshort, BondScriptKind.Describes, hfirst]
    constructor
    · intro h
      exact ⟨h1, h2, fun _ => h, fun h4 => by omega⟩
    · intro h
      exact h.2.2.1 h3
  by_cases h4 : required.toNat = 4
  · have hsplit : pk.serialize ++ tail = pk.serialize.take 8 ++
        keyByte pk 8 :: keyByte pk 9 :: (pk.serialize.drop 10 ++ tail) := by
      conv_lhs => rw [serialize_split (i := 8) (by omega)]
      simp only [List.append_assoc, List.cons_append]
    rw [(htag 0x04).mpr h4, hsplit,
      agrees_of_ite (decode_timeOrModerator take_serialize_length _ _), List.length_append,
      List.length_drop, hkey, hlen]
    constructor
    · rintro (hshort | hkind)
      · exact ⟨h1, h2, fun h => absurd h h3, fun _ => by omega⟩
      · exact hkind.elim
    · intro h
      have hle := h.2.2.2 h4
      exact .inl (by omega)
  · apply iff_of_true
    · apply agrees_of_none
      apply decode_other
      simp only [List.mem_cons, List.not_mem_nil, or_false, not_or, htag]
      exact ⟨h1, h2, h3, h4⟩
    · exact ⟨h1, h2, fun h => absurd h h3, fun h => absurd h h4⟩

theorem not_agrees_combined (h : createCombinedUnlockScript time pk mods required = .ok script) :
    ¬ Agrees script (.timeOrModerator time pk mods required) := by
  have hkey : pk.serialize.length = 33 := serialize_length
  have htimelock : (createBondTimelockScript time pk).length = 42 := by
    rw [createBondTimelockScript, List.length_append, List.length_append, leBytes_length, hkey]
    rfl
  unfold createCombinedUnlockScript at h
  dsimp only at h
  cases hmultisig : createModeratorMultisigScript pk mods required with
  | error e =>
    rw [hmultisig] at h
    cases h
  | ok multisig =>
    rw [hmultisig, htimelock] at h
    obtain rfl := Except.ok.inj h
    intro hagrees
    have hdecode : decodeBondDescriptor (0x03 :: leBytes 4 42 ++
        createBondTimelockScript time pk ++ leBytes 4 multisig.length ++ multisig) =
          some (.moderatorMultisig 42 0) := by
      have hbytes : 0x03 :: leBytes 4 42 ++ createBondTimelockScript time pk ++
          leBytes 4 multisig.length ++ multisig = 0x03 :: 42 :: 0 :: ([0, 0] ++
            createBondTimelockScript time pk ++ leBytes 4 multisig.length ++ multisig) := rfl
      rw [hbytes, decode_moderatorMultisig, if_neg]
      simp only [List.length_append, htimelock]
      rw [UInt8.toNat_zero]
      omega
    exact hagrees _ hdecode

theorem agrees_iff_separated {now : UInt64}
    (hvalid : validateScriptConditions condition now = .ok ()) (hsmall : condition.SmallThreshold)
    (h : createBondScript condition = .ok script) :
    Agrees script condition ↔ condition.Separated := by
  cases condition with
  | timeLock unlockTime pk =>
    obtain rfl := Except.ok.inj h
    exact agrees_timelock
  | moderatorRelease pk mods required =>
    obtain ⟨hpos, hle⟩ := validate_moderatorRelease hvalid
    exact agrees_multisig hsmall hpos hle h
  | timeOrModerator unlockTime pk mods required =>
    exact iff_of_false (not_agrees_combined h) not_false

end Agreement

section Comments
variable [WalletCrates]

def Built.outputsInfo (built : Built) (txScriptBytes : Bool) : List TxOutputInfo :=
  Required.outputsInfo txScriptBytes {
    transactionId := some built.tx.id
    payload := built.tx.payload
    outputs := built.tx.outputs.map fun o => {
      value := o.value
      scriptVersion := WalletCrates.version o.scriptPublicKey
      script := WalletCrates.script o.scriptPublicKey } }

/-- What `commentBondOutput` locks the bond with. -/
def trueDescriptor (unlockTime : UInt64) (useScriptBonds : Bool) : BondScriptKind :=
  if useScriptBonds then .timeLock unlockTime else .p2pk

def descriptorMismatch : EpisodeError ContractError :=
  .invalidCommand (.invalidCommand "bond script descriptor mismatch")

/-- No board turns the comment down for the descriptor, whatever it carries besides. -/
def NeverMismatched (built : Built) (bondAmount : UInt64) (descriptor : BondScriptKind) : Prop :=
  ∀ (board : ContractCommentBoard) (participant text : String) (metadata : PayloadMetadata)
    (txScriptBytes : Bool),
    metadata.txOutputs = some (built.outputsInfo txScriptBytes) →
      (board.executeSubmitComment participant metadata text bondAmount (some 0)
        (some descriptor)).2 ≠ .error descriptorMismatch

def Misread (script : Bytes) (descriptor : BondScriptKind) : Prop :=
  ∃ kind, decodeBondDescriptor script = some kind ∧ kind ≠ descriptor

omit [Crypto] [WalletCrates] in
theorem checkOutputs_mismatch_iff {bondAmount : UInt64} {descriptor : BondScriptKind}
    {o : TxOutputInfo} {outputs : List TxOutputInfo} (ho : outputs[0]? = some o)
    (hvalue : o.value = bondAmount) :
    ContractCommentBoard.checkOutputs bondAmount (some 0) (some descriptor) outputs =
        some (.invalidCommand "bond script descriptor mismatch") ↔
      ∃ script, o.scriptBytes = some script ∧ Misread script descriptor := by
  unfold ContractCommentBoard.checkOutputs
  have hget : outputs[(0 : UInt32).toNat]? = some o := ho
  dsimp only
  rw [hget, Option.map_some, hvalue, if_neg (fun h => h rfl), Option.bind_some]
  cases hbytes : o.scriptBytes with
  | none => simp
  | some script =>
    cases hdecode : decodeBondDescriptor script with
    | none => simp [Misread, hdecode]
    | some kind => simp [Misread, hdecode]

omit [Crypto] [WalletCrates] in
theorem executeSubmitComment_mismatch_iff {board : ContractCommentBoard} {participant text : String}
    {metadata : PayloadMetadata} {bondAmount : UInt64} {index : Option UInt32}
    {descriptor : Option BondScriptKind} :
    (board.executeSubmitComment participant metadata text bondAmount index descriptor).2 =
        .error descriptorMismatch ↔
      blank text = false ∧ bondAmount ≠ 0 ∧ board.contract.roomRules.bondsEnabled = true ∧
      board.contract.roomRules.minBond ≤ bondAmount ∧
      ∃ outputs, metadata.txOutputs = some outputs ∧
        ContractCommentBoard.checkOutputs bondAmount index descriptor outputs =
          some (.invalidCommand "bond script descriptor mismatch") := by
  have hcheck : (board.executeSubmitComment participant metadata text bondAmount index
      descriptor).2 = .error descriptorMismatch ↔
      board.checkComment metadata text bondAmount index descriptor =
        some (.invalidCommand "bond script descriptor mismatch") := by
    unfold ContractCommentBoard.executeSubmitComment
    cases board.checkComment metadata text bondAmount index descriptor with
    | none => simp
    | some e => simp [ContractCommentBoard.reject, descriptorMismatch]
  rw [hcheck]
  unfold ContractCommentBoard.checkComment
  cases hblank : blank text with
  | true => simp
  | false =>
    by_cases hbond : bondAmount = 0
    · simp [hbond]
    by_cases henabled : board.contract.roomRules.bondsEnabled = false
    · simp [hbond, henabled]
    by_cases hmin : bondAmount < board.contract.roomRules.minBond
    · simp [hbond, henabled, hmin]
    · rw [if_neg (by decide), if_neg hbond, if_neg henabled, if_neg hmin]
      have hle := UInt64.not_lt.mp hmin
      cases houtputs : metadata.txOutputs with
      | none => simp
      | some outputs => simp [hbond, henabled, hle]

theorem outputsInfo_first {built : Built} {o : TransactionOutput Consensus.ScriptPublicKey}
    (h : built.tx.outputs[0]? = some o) (txScriptBytes : Bool) :
    (built.outputsInfo txScriptBytes)[0]? = some {
      value := o.value
      scriptVersion := WalletCrates.version o.scriptPublicKey
      scriptBytes :=
        if txScriptBytes then some (WalletCrates.script o.scriptPublicKey) else none } := by
  unfold Built.outputsInfo Required.outputsInfo
  dsimp only
  rw [List.getElem?_map, List.getElem?_map, h]
  rfl

theorem neverMismatched_iff {built : Built} {bondAmount : UInt64} {descriptor : BondScriptKind}
    {o : TransactionOutput Consensus.ScriptPublicKey} (h : built.tx.outputs[0]? = some o)
    (hvalue : o.value = bondAmount) :
    NeverMismatched built bondAmount descriptor ↔
      bondAmount = 0 ∨ ¬ Misread (WalletCrates.script o.scriptPublicKey) descriptor := by
  unfold NeverMismatched
  constructor
  · intro hnever
    by_contra hcon
    rw [not_or, not_not] at hcon
    let rules : RoomRules := {
      minBond := 0
      maxBond := 0
      bondsEnabled := true
      maxCommentLength := 0
      forbiddenWords := [] }
    let metadata : PayloadMetadata := {
      acceptingHash := Hash.filled 0
      acceptingDaa := 0
      acceptingTime := 0
      txId := Hash.filled 0
      txOutputs := some (built.outputsInfo true) }
    apply hnever (.new rules metadata) "" "a" metadata true rfl
    rw [executeSubmitComment_mismatch_iff]
    refine ⟨by decide, hcon.1, rfl, UInt64.zero_le, _, rfl, ?_⟩
    rw [checkOutputs_mismatch_iff (outputsInfo_first h true) hvalue]
    exact ⟨_, rfl, hcon.2⟩
  · intro hsafe board participant text metadata txScriptBytes houtputs hmismatch
    obtain ⟨-, hbond, -, -, outputs, houtputs', hcheck⟩ :=
      executeSubmitComment_mismatch_iff.mp hmismatch
    rw [houtputs] at houtputs'
    obtain rfl := Option.some.inj houtputs'
    rw [checkOutputs_mismatch_iff (outputsInfo_first h txScriptBytes) hvalue] at hcheck
    obtain ⟨script, hscript, hmisread⟩ := hcheck
    rcases hsafe with hzero | hsafe
    · exact hbond hzero
    · obtain ⟨-, hsame⟩ := Option.ite_none_right_eq_some.mp hscript
      rw [Option.some.inj hsame] at hsafe
      exact hsafe hmisread

theorem decode_payToAddressScript (address : Consensus.Address) :
    decodeBondDescriptor (WalletCrates.script (Consensus.payToAddressScript address)) = none := by
  have hhead := WalletCrates.payToAddressScript_head address
  cases hscript : WalletCrates.script (Consensus.payToAddressScript address) with
  | nil => rfl
  | cons tag bytes =>
    rw [hscript] at hhead
    apply decode_other
    intro htag
    simp only [List.head?_cons, List.mem_cons, Option.some.injEq, List.not_mem_nil,
      or_false] at hhead htag
    rcases hhead with rfl | rfl | rfl <;> revert htag <;> decide

omit [WalletCrates] in
theorem not_misread_timeLock_iff {script : Bytes} {time : UInt64} {pk : PubKey} :
    ¬ Misread script (.timeLock time) ↔ Agrees script (.timeLock time pk) := by
  have hdescribes : ∀ kind : BondScriptKind,
      kind.Describes (.timeLock time pk) ↔ kind = .timeLock time := by
    intro kind
    cases kind <;> simp [BondScriptKind.Describes]
  simp only [Misread, Agrees, hdescribes, not_exists, not_and, not_not]

theorem createBondScriptPubkey_ok {condition : ScriptUnlockCondition}
    {spk : Consensus.ScriptPublicKey} (h : createBondScriptPubkey condition = .ok spk) :
    createBondScript condition = .ok (WalletCrates.script spk) := by
  unfold createBondScriptPubkey at h
  cases hscript : createBondScript condition with
  | error e =>
    rw [hscript] at h
    cases h
  | ok script =>
    rw [hscript] at h
    obtain rfl := Except.ok.inj h
    rw [WalletCrates.script_scriptPublicKey]

/-- The board reads in the scripts of the wallet what they were made for, or nothing, exactly
where their first bytes stay clear of the tags of the descriptor format. -/
theorem bond_scripts_agree_iff :
    (∀ (condition : ScriptUnlockCondition) (currentTime : UInt64) spk,
      validateScriptConditions condition currentTime = .ok () → condition.SmallThreshold →
      createBondScriptPubkey condition = .ok spk →
        (Agrees (WalletCrates.script spk) condition ↔ condition.Separated)) ∧
    (∀ (manager : UtxoLockManager) inner bondAmount lockDurationSeconds pattern prefixType
      useScriptBonds now built,
      manager.commentTransaction inner bondAmount lockDurationSeconds pattern prefixType
        useScriptBonds now = .ok built →
      (NeverMismatched built bondAmount
          (trueDescriptor (now + lockDurationSeconds) useScriptBonds) ↔
        bondAmount = 0 ∨ useScriptBonds = false ∨
          (ScriptUnlockCondition.timeLock (now + lockDurationSeconds)
            (WalletCrates.publicKey manager.keypair)).Separated)) := by
  constructor
  · intro condition currentTime spk hvalid hsmall hspk
    exact agrees_iff_separated hvalid hsmall (createBondScriptPubkey_ok hspk)
  · intro manager inner bondAmount lockDurationSeconds pattern prefixType useScriptBonds now built
      hbuilt
    have hfirst := (UtxoLockManager.commentTransaction_ok hbuilt).first
    cases useScriptBonds with
    | false =>
      have hsafe : ¬ Misread (WalletCrates.script
          (Consensus.payToAddressScript manager.kaspaAddress)) .p2pk := by
        rintro ⟨kind, hkind, -⟩
        rw [decode_payToAddressScript] at hkind
        cases hkind
      exact iff_of_true ((neverMismatched_iff hfirst rfl).mpr (.inr hsafe)) (.inr (.inl rfl))
    | true =>
      rw [UtxoLockManager.commentBondOutput_script] at hfirst
      rw [neverMismatched_iff hfirst rfl, WalletCrates.script_scriptPublicKey, trueDescriptor,
        if_pos rfl, not_misread_timeLock_iff, agrees_timelock]
      apply or_congr_right
      exact (or_iff_right (by decide)).symm

end Comments

end Kdapp.CommentBoard

namespace Kdapp.CommentBoard
attribute [local instance] idealCrypto plainCrates

def filledPattern : PatternType := Vector.replicate 10 (0, 1)

def fundedManager : UtxoLockManager :=
  .new [(⟨Hash.filled 1, 0⟩, ⟨200010000, [], 5, false⟩)] () (7 : UInt8)

def honestComment (lockDurationSeconds : UInt64) : Except WalletError Built :=
  fundedManager.commentTransaction [] 100000000 lockDurationSeconds filledPattern 858598618 true
    1756000169

theorem honestComment_ok (lockDurationSeconds : UInt64) :
    ∃ built, honestComment lockDurationSeconds = .ok built := by
  have hselect : selectInputs (100000000 + FEE) 0 (sortByAmount fundedManager.availableUtxos) =
      (fundedManager.availableUtxos, 200010000) := rfl
  unfold honestComment UtxoLockManager.commentTransaction
  dsimp only
  rw [hselect]
  dsimp only
  have hpattern : checkPattern (Hash.filled 9) filledPattern = true := by decide
  rw [if_neg (by decide), TransactionGenerator.findNonce, if_pos]
  · exact ⟨_, rfl⟩
  · exact hpattern

/-- A bond locked until a second whose low byte is 1 is read as one under a plain key. -/
theorem timelock_misread :
    validateScriptConditions (.timeLock 1756000769 (7 : UInt8)) 1756000169 = .ok () ∧
    ¬ (∀ spk, createBondScriptPubkey (.timeLock 1756000769 (7 : UInt8)) = .ok spk →
      Agrees (WalletCrates.script spk) (.timeLock 1756000769 (7 : UInt8))) ∧
    ∃ built, honestComment 600 = .ok built ∧
      ¬ NeverMismatched built 100000000 (.timeLock 1756000769) := by
  have hp2pk : decodeBondDescriptor (createBondTimelockScript 1756000769 (7 : UInt8)) =
      some .p2pk := by decide +kernel
  refine ⟨rfl, fun hagrees => hagrees _ rfl .p2pk hp2pk, ?_⟩
  obtain ⟨built, hbuilt⟩ := honestComment_ok 600
  refine ⟨built, hbuilt, fun hnever => ?_⟩
  have hfirst := (UtxoLockManager.commentTransaction_ok hbuilt).first
  rw [UtxoLockManager.commentBondOutput_script] at hfirst
  rcases (neverMismatched_iff hfirst rfl).mp hnever with hzero | hsafe
  · revert hzero
    decide
  · exact hsafe ⟨.p2pk, hp2pk, by decide⟩

/-- Four seconds later the low byte is no tag. -/
theorem timelock_separated :
    (∃ spk, createBondScriptPubkey (.timeLock 1756000773 (7 : UInt8)) = .ok spk ∧
      Agrees (WalletCrates.script spk) (.timeLock 1756000773 (7 : UInt8))) ∧
    ∃ built, honestComment 604 = .ok built ∧
      NeverMismatched built 100000000 (.timeLock 1756000773) := by
  have hseparated : (ScriptUnlockCondition.timeLock 1756000773 (7 : UInt8)).Separated :=
    ⟨by decide, fun h => absurd h (by decide), fun h => absurd h (by decide)⟩
  have hiff := bond_scripts_agree_iff
  constructor
  · exact ⟨_, rfl,
      (hiff.1 (.timeLock 1756000773 (7 : UInt8)) 1756000169 _ rfl trivial rfl).mpr hseparated⟩
  · obtain ⟨built, hbuilt⟩ := honestComment_ok 604
    exact ⟨built, hbuilt, (hiff.2 _ _ _ _ _ _ _ _ _ hbuilt).mpr (.inr (.inr hseparated))⟩

end Kdapp.CommentBoard
