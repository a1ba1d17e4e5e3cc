import Kdapp.Pki

/-! TLV messages of the merchant (`kdapp-merchant/src/tlv.rs`). The `blake2` crate is a
parameter. -/

namespace Kdapp.Merchant
open Borsh

/-- `Blake2b512`, of which only the length of the digest is known. -/
class Blake2b where
  digest : Bytes → Bytes
  digest_length : ∀ bs, (digest bs).length = 64

@[reducible] def idealBlake2b : Blake2b where
  digest bs := (bs.reverse ++ List.replicate 64 0).take 64
  digest_length bs := by
    rw [List.length_take, List.length_append, List.length_replicate]
    omega

/-- `b"kdapp-demo-secret"` -/
def demoHmacKey : Bytes :=
  [0x6b, 0x64, 0x61, 0x70, 0x70, 0x2d, 0x64, 0x65, 0x6d, 0x6f, 0x2d, 0x73, 0x65, 0x63, 0x72, 0x65,
   0x74]

def tlvVersion : UInt8 := 1

inductive MsgType where
  | new
  | cmd
  | ack
  | close
  | ackClose
  | checkpoint
deriving DecidableEq

namespace MsgType

def toU8 : MsgType → UInt8
  | new => 0
  | cmd => 1
  | ack => 2
  | close => 3
  | ackClose => 4
  | checkpoint => 5

def fromU8 : UInt8 → Option MsgType
  | 0 => some new
  | 1 => some cmd
  | 2 => some ack
  | 3 => some close
  | 4 => some ackClose
  | 5 => some checkpoint
  | _ => none

end MsgType

/-- The bytes from `i` up to `j`. -/
def slice (bytes : Bytes) (i j : ℕ) : Bytes := (bytes.drop i).take (j - i)

theorem slice_length {bytes : Bytes} {i j : ℕ} (h : j ≤ bytes.length) :
    (slice bytes i j).length = j - i := by
  rw [slice, List.length_take, List.length_drop]
  omega

theorem slice_flatten (before : List Bytes) (piece : Bytes) (after : List Bytes) {i j : ℕ}
    (hi : before.flatten.length = i) (hj : i + piece.length = j) :
    slice (before ++ piece :: after).flatten i j = piece := by
  rw [slice, List.flatten_append, List.flatten_cons, List.drop_left' hi]
  apply List.take_left'
  omega

@[ext] structure TlvMsg where
  version : UInt8
  msgType : UInt8
  episodeId : UInt64
  seq : UInt64
  stateHash : Hash
  payload : Bytes
  auth : Hash
deriving DecidableEq

namespace TlvMsg
variable (self : TlvMsg)

def bytesForSign : Bytes :=
  self.version :: self.msgType :: (leBytes 8 self.episodeId.toNat ++ (leBytes 8 self.seq.toNat ++
    (self.stateHash.1 ++ (leBytes 2 (UInt16.ofNat self.payload.length).toNat ++ self.payload))))

def encode : Bytes := self.bytesForSign ++ self.auth.1

section Mac
variable [Blake2b]

def mac (key : Bytes) : Hash :=
  ⟨(Blake2b.digest (key ++ self.bytesForSign)).take 32, by
    rw [List.length_take, Blake2b.digest_length]
    rfl⟩

def sign (key : Bytes) : TlvMsg := { self with auth := self.mac key }

def verify (key : Bytes) : Bool := decide (self.auth = self.mac key)

theorem verify_sign (key : Bytes) : (self.sign key).verify key = true := decide_eq_true rfl

end Mac

def decode (bytes : Bytes) : Option TlvMsg :=
  if h : bytes.length < 1 + 1 + 8 + 8 + 32 + 2 + 32 then none
  else if bytes.getD 0 0 ≠ tlvVersion then none
  else if MsgType.fromU8 (bytes.getD 1 0) = none then none
  else
    let payloadLen := ofLeBytes (slice bytes 50 52)
    if h' : bytes.length < 52 + payloadLen + 32 then none
    else some {
      version := bytes.getD 0 0
      msgType := bytes.getD 1 0
      episodeId := UInt64.ofNat (ofLeBytes (slice bytes 2 10))
      seq := UInt64.ofNat (ofLeBytes (slice bytes 10 18))
      stateHash := ⟨slice bytes 18 50, slice_length (by omega)⟩
      payload := slice bytes 52 (52 + payloadLen)
      auth := ⟨slice bytes (52 + payloadLen) (52 + payloadLen + 32), by
        rw [slice_length (by omega)]
        omega⟩ }

variable {self}

theorem encode_length : self.encode.length = self.payload.length + 84 := by
  simp only [encode, bytesForSign, List.length_append, List.length_cons, leBytes_length,
    self.stateHash.2, self.auth.2]
  omega

def pieces (self : TlvMsg) (rest : Bytes) : List Bytes :=
  [[self.version, self.msgType], leBytes 8 self.episodeId.toNat, leBytes 8 self.seq.toNat,
    self.stateHash.1, leBytes 2 (UInt16.ofNat self.payload.length).toNat, self.payload,
    self.auth.1, rest]

theorem encode_pieces (rest : Bytes) : self.encode ++ rest = (self.pieces rest).flatten := by
  simp only [encode, bytesForSign, pieces, List.flatten_cons, List.flatten_nil, List.cons_append,
    List.nil_append, List.append_assoc, List.append_nil]

section Fields
variable (self : TlvMsg) (rest : Bytes)

theorem slice_episodeId :
    slice (self.encode ++ rest) 2 10 = leBytes 8 self.episodeId.toNat := by
  rw [encode_pieces]
  exact slice_flatten [_] _ _ rfl (by rw [leBytes_length])

theorem slice_seq : slice (self.encode ++ rest) 10 18 = leBytes 8 self.seq.toNat := by
  rw [encode_pieces]
  exact slice_flatten [_, _] _ _ (by simp) (by rw [leBytes_length])

theorem slice_stateHash : slice (self.encode ++ rest) 18 50 = self.stateHash.1 := by
  rw [encode_pieces]
  exact slice_flatten [_, _, _] _ _ (by simp) (by rw [self.stateHash.2])

theorem slice_payloadLen : slice (self.encode ++ rest) 50 52 =
    leBytes 2 (UInt16.ofNat self.payload.length).toNat := by
  rw [encode_pieces]
  exact slice_flatten [_, _, _, _] _ _ (by simp [self.stateHash.2]) (by rw [leBytes_length])

theorem slice_payload :
    slice (self.encode ++ rest) 52 (52 + self.payload.length) = self.payload := by
  rw [encode_pieces]
  exact slice_flatten [_, _, _, _, _] _ _ (by simp [self.stateHash.2]) rfl

theorem slice_auth : slice (self.encode ++ rest) (52 + self.payload.length)
    (52 + self.payload.length + 32) = self.auth.1 := by
  rw [encode_pieces]
  refine slice_flatten [_, _, _, _, _, _] _ _ ?_ (by rw [self.auth.2])
  simp only [List.flatten_cons, List.flatten_nil, List.length_append, List.length_cons,
    List.length_nil, leBytes_length, self.stateHash.2]
  omega

theorem payloadLen_eq (h : self.payload.length < 2 ^ 16) :
    ofLeBytes (slice (self.encode ++ rest) 50 52) = self.payload.length := by
  rw [slice_payloadLen, ofLeBytes_leBytes, UInt16.toNat_ofNat']
  omega

end Fields

theorem decode_encode (hversion : self.version = tlvVersion)
    (htype : MsgType.fromU8 self.msgType ≠ none) (hlen : self.payload.length < 2 ^ 16)
    (rest : Bytes) : decode (self.encode ++ rest) = some self := by
  have hlength : (self.encode ++ rest).length = self.payload.length + 84 + rest.length := by
    rw [List.length_append, encode_length]
  have hpayload := payloadLen_eq self rest hlen
  have hfirst : (self.encode ++ rest).getD 0 0 = self.version := rfl
  have hsecond : (self.encode ++ rest).getD 1 0 = self.msgType := rfl
  unfold decode
  rw [dif_neg (by omega), if_neg (by rw [hfirst, hversion]; exact not_not_intro rfl),
    if_neg (by rw [hsecond]; exact htype)]
  dsimp only
  rw [dif_neg (by omega)]
  apply congrArg some
  apply TlvMsg.ext
  · exact hfirst
  · exact hsecond
  · rw [slice_episodeId, ofLeBytes_u64]
  · rw [slice_seq, ofLeBytes_u64]
  · exact Subtype.ext (slice_stateHash self rest)
  · show slice _ _ _ = _
    rw [hpayload]
    exact slice_payload self rest
  · apply Subtype.ext
    show slice _ _ _ = _
    rw [hpayload]
    exact slice_auth self rest

end TlvMsg
end Kdapp.Merchant
