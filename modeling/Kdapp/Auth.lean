import Kdapp.CommentBoard
import Kdapp.Library.Text

/-! Challenges and signed answers, as `comment-it` and `kaspa-auth` have them
(`crypto/challenges.rs`, `crypto/signatures.rs`). The generator of `rand_chacha` is a parameter. -/

namespace Kdapp
open Borsh
open CommentBoard (hex)

def hexDigit (c : Char) : Option ℕ :=
  if 48 ≤ c.toNat ∧ c.toNat ≤ 57 then some (c.toNat - 48)
  else if 97 ≤ c.toNat ∧ c.toNat ≤ 102 then some (c.toNat - 87)
  else if 65 ≤ c.toNat ∧ c.toNat ≤ 70 then some (c.toNat - 55)
  else none

/-- `hex::decode`. -/
def hexDecode : List Char → Option Bytes
  | [] => some []
  | [_] => none
  | hi :: lo :: rest => do
    let h ← hexDigit hi
    let l ← hexDigit lo
    let bytes ← hexDecode rest
    some (UInt8.ofNat (16 * h + l) :: bytes)

theorem hexDigit_digitChar {n : ℕ} (h : n < 16) : hexDigit (Nat.digitChar n) = some n := by
  have hall : ∀ i : Fin 16, hexDigit (Nat.digitChar i) = some i.val := by decide
  exact hall ⟨n, h⟩

theorem hexDecode_hex (bytes : Bytes) : hexDecode (hex bytes).toList = some bytes := by
  unfold hex
  rw [String.toList_ofList]
  induction bytes with
  | nil => rfl
  | cons b bytes ih =>
    have hhi : b.toNat / 16 < 16 := Nat.div_lt_of_lt_mul b.toNat_lt
    have hlo : b.toNat % 16 < 16 := Nat.mod_lt _ (by decide)
    rw [List.flatMap_cons]
    simp only [List.cons_append, List.nil_append, hexDecode, hexDigit_digitChar hhi,
      hexDigit_digitChar hlo, ih, Option.bind_eq_bind, Option.bind_some, Nat.div_add_mod,
      UInt8.ofNat_toNat]

/-- `ChaCha8Rng::seed_from_u64`, and the first number it draws. -/
class RandChaCha where
  gen : UInt64 → UInt64

@[reducible] def seedRand : RandChaCha := ⟨id⟩

def asBytes (text : String) : Bytes := text.toByteArray.data.toList

theorem fromUTF8_asBytes (s : String) : String.fromUTF8? ⟨(asBytes s).toArray⟩ = some s := by
  have hdata : (⟨(asBytes s).toArray⟩ : ByteArray) = s.toByteArray := by
    simp only [asBytes, Array.toArray_toList]
  rw [hdata, String.fromUTF8?, dif_pos s.isValidUTF8]
  rfl

/-- `str::parse::<u64>`. -/
def parseU64 (text : List Char) : Option UInt64 := do
  let digits := match text with
    | '+' :: rest => rest
    | _ => text
  guard (digits ≠ [])
  let n ← digits.foldlM (fun n c => if c.isDigit then some (10 * n + (c.toNat - 48)) else none) 0
  if n < UInt64.size then some (UInt64.ofNat n) else none

theorem parseU64_toDigits (n : UInt64) : parseU64 (Nat.toDigits 10 n.toNat) = some n := by
  have hdigits := Text.foldlM_toDigits (n := n.toNat)
    (fun n c => if c.isDigit then some (10 * n + (c.toNat - 48)) else none)
    fun k c hc _ => if_pos hc
  unfold parseU64
  split
  · rename_i rest hplus
    refine absurd ?_ (Text.not_mem_toDigits (c := '+') rfl n.toNat)
    rw [hplus]
    exact List.mem_cons_self
  · simp only [guard, if_pos Nat.toDigits_ne_nil, hdigits]
    have hsize : n.toNat < UInt64.size := n.toNat_lt
    change (if n.toNat < UInt64.size then some (UInt64.ofNat n.toNat) else none) = some n
    rw [if_pos hsize, UInt64.ofNat_toNat]

def seedOf [Crypto] (bytes : Bytes) : UInt64 :=
  UInt64.ofNat (ofLeBytes ((Crypto.sha256 bytes).1.take 8))

namespace ChallengeGenerator

def challengeText (timestamp drawn : UInt64) : String :=
  "auth_" ++ timestamp.toNat.repr ++ "_" ++ drawn.toNat.repr

def generateWithProvidedTimestamp [RandChaCha] (timestamp : UInt64) : String :=
  challengeText timestamp (RandChaCha.gen timestamp)

def generateWithEntropy [Crypto] [RandChaCha] (timestamp : UInt64) (extra : Bytes) : String :=
  challengeText timestamp (RandChaCha.gen (seedOf (leBytes 8 timestamp.toNat ++ extra)))

/-- Against the clock of the machine, in seconds; a text without a timestamp does not expire. -/
def isValid (now : UInt64) (challenge : String) (maxAgeSeconds : UInt64) : Bool :=
  let text := challenge.toList
  if "auth_".toList.isPrefixOf text then
    match parseU64 ((text.drop 5).takeWhile fun c => decide (c ≠ '_')) with
    | some timestamp => decide (Saturating.sub now timestamp ≤ maxAgeSeconds)
    | none => true
  else true

end ChallengeGenerator

variable [Crypto]

/-- A key in hexadecimal: `hex::decode`, then `secp256k1::PublicKey::from_slice`. -/
def parsePublicKey (text : String) : Option PubKey := (hexDecode text.toList).bind Crypto.fromSlice

namespace SignatureVerifier

def decode (signature : String) : Option Sig := do
  let bytes ← hexDecode signature.toList
  Crypto.fromDer bytes

/-- The digest of a text; a text of 2^32 bytes, which no command can carry, would panic. -/
def digest (message : String) : Option Message := toMessage Codec.string message

def verify (pubkey : PubKey) (message signature : String) : Bool :=
  match decode signature, digest message with
  | some sig, some msg => verifySignature pubkey msg sig
  | _, _ => false

theorem verify_iff {pubkey : PubKey} {message signature : String} :
    verify pubkey message signature = true ↔
      ∃ sig msg, decode signature = some sig ∧ digest message = some msg ∧
        verifySignature pubkey msg sig = true := by
  unfold verify
  split
  · rename_i sig msg hsig hmsg
    constructor
    · intro h
      exact ⟨sig, msg, hsig, hmsg, h⟩
    · rintro ⟨sig', msg', hsig', hmsg', h⟩
      cases hsig.symm.trans hsig'
      cases hmsg.symm.trans hmsg'
      exact h
  · rename_i hnot
    refine iff_of_false nofun ?_
    rintro ⟨sig, msg, hsig, hmsg, -⟩
    exact hnot sig msg hsig hmsg

def signText (secretKey : Crypto.SecretKey) (message : String) : String :=
  match digest message with
  | some msg => hex (Crypto.serializeDer (signMessage secretKey msg))
  | none => ""

end SignatureVerifier

def metadataAt (acceptingTime : UInt64) : PayloadMetadata where
  acceptingHash := Hash.filled 1
  acceptingDaa := 1
  acceptingTime
  txId := Hash.filled 2
  txOutputs := none

/-- Ideal signatures: one is valid under a key for a single message. -/
def IdealSignatures : Prop :=
  ∀ (pk : PubKey) (m m' : Message) (sig : Sig), verifySignature pk m sig = true →
    verifySignature pk m' sig = true → m = m'

omit [Crypto] in
theorem idealSignatures_hold : @IdealSignatures idealCrypto := by
  intro pk m m' sig hm hm'
  have hpair : sig = (pk, m) := eq_of_beq (α := UInt8 × Message) hm
  have hpair' : sig = (pk, m') := eq_of_beq (α := UInt8 × Message) hm'
  exact (Prod.mk.inj (hpair.symm.trans hpair')).2

end Kdapp
