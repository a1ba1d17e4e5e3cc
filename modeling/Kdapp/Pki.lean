import Kdapp.Library.Borsh
import Mathlib.Tactic.Common

/-! Public key infrastructure (`kdapp/src/pki.rs`). The `secp256k1` and `sha2` crates are a
parameter, with the documented facts the code relies on as fields. -/

namespace Kdapp
open Borsh
open Std (TransCmp TransOrd LawfulEqOrd)

abbrev Hash := {bs : Bytes // bs.length = 32}

namespace Hash

instance : Ord Hash := ⟨fun a b => compare a.1 b.1⟩

instance : TransOrd Hash := inferInstanceAs (TransCmp (compareOn (fun a : Hash => a.1)))

instance : LawfulEqOrd Hash where
  eq_of_compare {_ _} h := Subtype.ext (LawfulEqOrd.eq_of_compare (α := Bytes) h)

def filled (b : UInt8) : Hash := ⟨List.replicate 32 b, List.length_replicate⟩

def codec : Codec Hash := Codec.array 32

theorem codec_lawful : codec.Lawful := Codec.array_lawful 32

end Hash

abbrev Message := Hash

class Crypto where
  PublicKey : Type
  SecretKey : Type
  Signature : Type
  decEqPublicKey : DecidableEq PublicKey
  decEqSignature : DecidableEq Signature
  serialize : PublicKey → Bytes
  fromSlice : Bytes → Option PublicKey
  serialize_length : ∀ k, (serialize k).length = 33
  fromSlice_serialize : ∀ k, fromSlice (serialize k) = some k
  serializeDer : Signature → Bytes
  fromDer : Bytes → Option Signature
  serializeDer_length : ∀ s, (serializeDer s).length ≤ 72
  fromDer_serializeDer : ∀ s, fromDer (serializeDer s) = some s
  fromSecretKey : SecretKey → PublicKey
  signEcdsa : Message → SecretKey → Signature
  verifyEcdsa : Message → Signature → PublicKey → Bool
  verifyEcdsa_signEcdsa : ∀ m sk, verifyEcdsa m (signEcdsa m sk) (fromSecretKey sk) = true
  sha256 : Bytes → Message

/-- Signatures that name their key and their message: the assumptions hold together. -/
@[reducible] def idealCrypto : Crypto where
  PublicKey := UInt8
  SecretKey := UInt8
  Signature := UInt8 × Message
  decEqPublicKey := inferInstance
  decEqSignature := inferInstance
  serialize k := 2 :: k :: List.replicate 31 0
  fromSlice
    | 2 :: k :: rest => if rest = List.replicate 31 0 then some k else none
    | _ => none
  serialize_length _ := rfl
  fromSlice_serialize _ := rfl
  serializeDer s := s.1 :: s.2.1
  fromDer
    | k :: m => if h : m.length = 32 then some (k, ⟨m, h⟩) else none
    | [] => none
  serializeDer_length s := by simp only [List.length_cons, s.2.2]; decide
  fromDer_serializeDer s := by simp only [s.2.2, dite_true]
  fromSecretKey sk := sk
  signEcdsa m sk := (sk, m)
  verifyEcdsa m s k := s == (k, m)
  verifyEcdsa_signEcdsa _ _ := beq_self_eq_true _
  sha256 bs := ⟨(bs ++ List.replicate 32 0).take 32, by simp⟩

variable [Crypto]

abbrev PubKey := Crypto.PublicKey
abbrev Sig := Crypto.Signature

instance : DecidableEq PubKey := Crypto.decEqPublicKey
instance : DecidableEq Sig := Crypto.decEqSignature

instance : LawfulBEq PubKey := inferInstance

namespace PubKey

def serialize (pk : PubKey) : Bytes := Crypto.serialize pk

theorem serialize_injective : Function.Injective serialize := by
  intro a b h
  have hs := congrArg Crypto.fromSlice (show Crypto.serialize a = Crypto.serialize b from h)
  rw [Crypto.fromSlice_serialize, Crypto.fromSlice_serialize] at hs
  exact Option.some.inj hs

instance : Ord PubKey := ⟨fun a b => compare (serialize a) (serialize b)⟩

instance : TransOrd PubKey := inferInstanceAs (TransCmp (compareOn serialize))

instance : LawfulEqOrd PubKey where
  eq_of_compare {_ _} h :=
    serialize_injective (LawfulEqOrd.eq_of_compare (α := Bytes) h)

def codec : Codec PubKey where
  serialize pk := some (serialize pk)
  deserialize bs := do
    let (buf, bs) ← Codec.readExact 33 bs
    let pk ← Crypto.fromSlice buf
    some (pk, bs)

theorem codec_lawful : codec.Lawful := by
  intro pk bs rest hs
  obtain rfl := Option.some.inj hs
  simp only [codec, serialize, Codec.readExact_append (Crypto.serialize_length pk),
    Crypto.fromSlice_serialize, Option.bind_eq_bind, Option.bind_some]

end PubKey

namespace Sig

/-- The DER encoding behind its length as a `u32`. -/
def codec : Codec Sig where
  serialize s :=
    let der := Crypto.serializeDer s
    some (leBytes 4 (UInt32.ofNat der.length).toNat ++ der)
  deserialize bs := do
    let (len, bs) ← Codec.u32.deserialize bs
    let (buf, bs) ← Codec.readExact len.toNat bs
    let s ← Crypto.fromDer buf
    some (s, bs)

theorem codec_lawful : codec.Lawful := by
  intro s bs rest hs
  obtain rfl := Option.some.inj hs
  have hlen : (UInt32.ofNat (Crypto.serializeDer s).length).toNat =
      (Crypto.serializeDer s).length :=
    UInt32.toNat_ofNat_of_lt
      (Nat.lt_of_le_of_lt (Crypto.serializeDer_length s) (by decide))
  simp only [codec, List.append_assoc,
    Codec.u32_lawful (UInt32.ofNat (Crypto.serializeDer s).length) _
      (Crypto.serializeDer s ++ rest) rfl,
    Codec.readExact_append hlen.symm, Crypto.fromDer_serializeDer, Option.bind_eq_bind,
    Option.bind_some]

end Sig

/-- Digest of the borsh encoding; `none` is the panic of its `expect`. -/
def toMessage {α : Type} (c : Codec α) (object : α) : Option Message :=
  (c.serialize object).map Crypto.sha256

def signMessage (secretKey : Crypto.SecretKey) (message : Message) : Sig :=
  Crypto.signEcdsa message secretKey

def verifySignature (publicKey : PubKey) (message : Message) (signature : Sig) : Bool :=
  Crypto.verifyEcdsa message signature publicKey

theorem verifySignature_signMessage (sk : Crypto.SecretKey) (m : Message) :
    verifySignature (Crypto.fromSecretKey sk) m (signMessage sk m) = true :=
  Crypto.verifyEcdsa_signEcdsa m sk

end Kdapp
