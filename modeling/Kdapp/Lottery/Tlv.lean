import Kdapp.Merchant.Tlv

/-! TLV messages of the lottery (`kas-draw/src/tlv.rs`): those of the merchant, which came after
them, without authentication. -/

namespace Kdapp.Lottery
open Borsh
open Merchant (slice slice_length slice_flatten)

abbrev tlvVersion : UInt8 := Merchant.tlvVersion

abbrev MsgType := Merchant.MsgType

theorem slice_take {bytes : Bytes} {i j n : ℕ} (h : j ≤ n) :
    slice (bytes.take n) i j = slice bytes i j := by
  rw [slice, slice, List.drop_take, List.take_take]
  congr 1
  omega

@[ext] structure TlvMsg where
  version : UInt8
  msgType : UInt8
  episodeId : UInt64
  seq : UInt64
  stateHash : Hash
  payload : Bytes
deriving DecidableEq

namespace TlvMsg
variable (self : TlvMsg)

def encode : Bytes :=
  self.version :: self.msgType :: (leBytes 8 self.episodeId.toNat ++ (leBytes 8 self.seq.toNat ++
    (self.stateHash.1 ++ (leBytes 2 (UInt16.ofNat self.payload.length).toNat ++ self.payload))))

def decode (bytes : Bytes) : Option TlvMsg :=
  if h : bytes.length < 1 + 1 + 8 + 8 + 32 + 2 then none
  else if bytes.getD 0 0 ≠ tlvVersion then none
  else if Merchant.MsgType.fromU8 (bytes.getD 1 0) = none then none
  else
    let payloadLen := ofLeBytes (slice bytes 50 52)
    if bytes.length < 52 + payloadLen then none
    else some {
      version := bytes.getD 0 0
      msgType := bytes.getD 1 0
      episodeId := UInt64.ofNat (ofLeBytes (slice bytes 2 10))
      seq := UInt64.ofNat (ofLeBytes (slice bytes 10 18))
      stateHash := ⟨slice bytes 18 50, slice_length (by omega)⟩
      payload := slice bytes 52 (52 + payloadLen) }

def pieces : List Bytes :=
  [[self.version, self.msgType], leBytes 8 self.episodeId.toNat, leBytes 8 self.seq.toNat,
    self.stateHash.1, leBytes 2 (UInt16.ofNat self.payload.length).toNat, self.payload]

theorem encode_pieces : self.encode = self.pieces.flatten := by
  simp only [encode, pieces, List.flatten_cons, List.flatten_nil, List.cons_append,
    List.nil_append, List.append_nil]

theorem encode_length : self.encode.length = self.payload.length + 52 := by
  simp only [encode, List.length_append, List.length_cons, leBytes_length, self.stateHash.2]
  omega

theorem slice_episodeId : slice self.encode 2 10 = leBytes 8 self.episodeId.toNat := by
  rw [encode_pieces]
  exact slice_flatten [_] _ _ rfl (by rw [leBytes_length])

theorem slice_seq : slice self.encode 10 18 = leBytes 8 self.seq.toNat := by
  rw [encode_pieces]
  exact slice_flatten [_, _] _ _ (by simp) (by rw [leBytes_length])

theorem slice_stateHash : slice self.encode 18 50 = self.stateHash.1 := by
  rw [encode_pieces]
  exact slice_flatten [_, _, _] _ _ (by simp) (by rw [self.stateHash.2])

theorem payloadLen_eq : ofLeBytes (slice self.encode 50 52) = self.payload.length % 2 ^ 16 := by
  have hslice : slice self.encode 50 52 =
      leBytes 2 (UInt16.ofNat self.payload.length).toNat := by
    rw [encode_pieces]
    exact slice_flatten [_, _, _, _] _ _ (by simp [self.stateHash.2]) (by rw [leBytes_length])
  rw [hslice, ofLeBytes_leBytes, UInt16.toNat_ofNat']
  omega

theorem slice_payload (n : ℕ) : slice self.encode 52 (52 + n) = self.payload.take n := by
  have hdrop : self.encode.drop 52 = self.payload := by
    have hfront : ([[self.version, self.msgType], leBytes 8 self.episodeId.toNat,
        leBytes 8 self.seq.toNat, self.stateHash.1,
        leBytes 2 (UInt16.ofNat self.payload.length).toNat].flatten).length = 52 := by
      simp [self.stateHash.2]
    have hsplit : self.encode = [[self.version, self.msgType], leBytes 8 self.episodeId.toNat,
        leBytes 8 self.seq.toNat, self.stateHash.1,
        leBytes 2 (UInt16.ofNat self.payload.length).toNat].flatten ++ self.payload := by
      simp [encode_pieces, pieces]
    rw [hsplit]
    exact List.drop_left' hfront
  rw [slice, hdrop, Nat.add_sub_cancel_left]

variable {self}

/-- A frame of this version with a known type, read from a buffer of `n` bytes: what the cut
length leaves of the payload, if that much arrived. -/
theorem decode_take (hversion : self.version = tlvVersion)
    (htype : Merchant.MsgType.fromU8 self.msgType ≠ none) {n : ℕ} (hn : 52 ≤ n) :
    decode (self.encode.take n) =
      if 52 + self.payload.length % 2 ^ 16 ≤ n then
        some { self with payload := self.payload.take (self.payload.length % 2 ^ 16) }
      else none := by
  have hlen : (self.encode.take n).length = min n (self.payload.length + 52) := by
    rw [List.length_take, encode_length]
  have hmod := Nat.mod_le self.payload.length (2 ^ 16)
  have hpayloadLen : ofLeBytes (slice (self.encode.take n) 50 52) =
      self.payload.length % 2 ^ 16 := by
    rw [slice_take hn, payloadLen_eq]
  obtain ⟨m, rfl⟩ : ∃ m, n = m + 2 := ⟨n - 2, by omega⟩
  have hfirst : (self.encode.take (m + 2)).getD 0 0 = self.version := rfl
  have hsecond : (self.encode.take (m + 2)).getD 1 0 = self.msgType := rfl
  unfold decode
  rw [dif_neg (by omega), if_neg (by rw [hfirst, hversion]; exact not_not_intro rfl),
    if_neg (by rw [hsecond]; exact htype)]
  dsimp only
  rw [hpayloadLen]
  by_cases hfits : 52 + self.payload.length % 2 ^ 16 ≤ m + 2
  · rw [if_neg (by omega), if_pos hfits]
    apply congrArg some
    apply TlvMsg.ext
    · exact hfirst
    · exact hsecond
    · dsimp only
      rw [slice_take (by omega), slice_episodeId, ofLeBytes_u64]
    · dsimp only
      rw [slice_take (by omega), slice_seq, ofLeBytes_u64]
    · apply Subtype.ext
      exact (slice_take (by omega)).trans (slice_stateHash self)
    · exact (slice_take hfits).trans (slice_payload self _)
  · rw [if_pos (by omega), if_neg hfits]

theorem decode_encode (hversion : self.version = tlvVersion)
    (htype : Merchant.MsgType.fromU8 self.msgType ≠ none) (hlen : self.payload.length < 2 ^ 16) :
    decode self.encode = some self := by
  have hmod : self.payload.length % 2 ^ 16 = self.payload.length := Nat.mod_eq_of_lt hlen
  have hle : 52 ≤ self.encode.length := by
    rw [encode_length]
    omega
  have htake := decode_take hversion htype hle
  rw [List.take_length, hmod, List.take_length, encode_length,
    if_pos (Nat.le_of_eq (Nat.add_comm _ _))] at htake
  exact htake

end TlvMsg
end Kdapp.Lottery
