import Kdapp.Merchant.Tlv

/-! Which datagrams are the encoding of the message they decode to: the decoder stops after the
MAC, and does not look at what follows. -/

namespace Kdapp.Merchant
open Borsh

theorem take_append_slice (bytes : Bytes) {i j : ℕ} (h : i ≤ j) :
    bytes.take i ++ slice bytes i j = bytes.take j := by
  have hj : j = i + (j - i) := (Nat.add_sub_of_le h).symm
  conv_rhs => rw [hj]
  rw [List.take_add]
  rfl

theorem leBytes_slice {bytes : Bytes} {i j w : ℕ} (hj : j ≤ bytes.length) (hw : j - i = w) :
    leBytes w (ofLeBytes (slice bytes i j)) = slice bytes i j := by
  have hback := leBytes_ofLeBytes (slice bytes i j)
  rwa [slice_length hj, hw] at hback

theorem ofLeBytes_slice_lt {bytes : Bytes} {i j : ℕ} (hj : j ≤ bytes.length) :
    ofLeBytes (slice bytes i j) < 256 ^ (j - i) := by
  have hlt := ofLeBytes_lt (slice bytes i j)
  rwa [slice_length hj] at hlt

theorem leBytes_u64_slice {bytes : Bytes} {i j : ℕ} (hj : j ≤ bytes.length) (hw : j - i = 8) :
    leBytes 8 (UInt64.ofNat (ofLeBytes (slice bytes i j))).toNat = slice bytes i j := by
  have hlt := ofLeBytes_slice_lt (i := i) hj
  rw [hw] at hlt
  rw [UInt64.toNat_ofNat', Nat.mod_eq_of_lt (show _ < 2 ^ 64 from hlt)]
  exact leBytes_slice hj hw

namespace TlvMsg
variable {bytes : Bytes} {m : TlvMsg}

/-- The length of the payload as the header of a datagram states it. -/
def statedLength (bytes : Bytes) : ℕ := ofLeBytes (slice bytes 50 52)

/-- What a datagram has to be in order to decode, and what it decodes to. -/
structure Decodes (bytes : Bytes) (m : TlvMsg) : Prop where
  whole : 52 + statedLength bytes + 32 ≤ bytes.length
  version : m.version = bytes.getD 0 0
  msgType : m.msgType = bytes.getD 1 0
  episodeId : m.episodeId = UInt64.ofNat (ofLeBytes (slice bytes 2 10))
  seq : m.seq = UInt64.ofNat (ofLeBytes (slice bytes 10 18))
  stateHash : m.stateHash.1 = slice bytes 18 50
  payload : m.payload = slice bytes 52 (52 + statedLength bytes)
  auth : m.auth.1 = slice bytes (52 + statedLength bytes) (52 + statedLength bytes + 32)

theorem decodes (h : decode bytes = some m) : Decodes bytes m := by
  unfold decode at h
  split at h
  · cases h
  split at h
  · cases h
  split at h
  · cases h
  dsimp only at h
  split at h
  · cases h
  · rename_i hwhole
    cases h
    exact ⟨Nat.le_of_not_lt hwhole, rfl, rfl, rfl, rfl, rfl, rfl, rfl⟩

namespace Decodes
variable (h : Decodes bytes m)
include h

theorem payload_length : m.payload.length = statedLength bytes := by
  rw [h.payload, slice_length (by have := h.whole; omega), Nat.add_sub_cancel_left]

theorem statedLength_lt : statedLength bytes < 2 ^ 16 :=
  ofLeBytes_slice_lt (by have := h.whole; omega)

theorem encode_eq : m.encode = bytes.take (52 + statedLength bytes + 32) := by
  have hwhole := h.whole
  have hhead : [m.version, m.msgType] = bytes.take 2 := by
    rw [h.version, h.msgType]
    match bytes, hwhole with
    | [], hwhole => cases hwhole
    | [_], hwhole => simp at hwhole
    | _ :: _ :: _, _ => rfl
  have hlength : leBytes 2 (UInt16.ofNat m.payload.length).toNat = slice bytes 50 52 := by
    rw [h.payload_length, UInt16.toNat_ofNat', Nat.mod_eq_of_lt h.statedLength_lt]
    exact leBytes_slice (by omega) rfl
  have hpieces : m.encode ++ [] = (m.pieces []).flatten := encode_pieces []
  rw [List.append_nil] at hpieces
  rw [hpieces]
  unfold pieces
  rw [hhead, h.episodeId, h.seq, h.stateHash, hlength, h.payload, h.auth,
    leBytes_u64_slice (by omega) rfl, leBytes_u64_slice (by omega) rfl]
  -- the pieces lie side by side
  simp only [List.flatten_cons, List.flatten_nil, List.append_nil, ← List.append_assoc]
  rw [take_append_slice bytes (show 2 ≤ 10 by omega),
    take_append_slice bytes (show 10 ≤ 18 by omega),
    take_append_slice bytes (show 18 ≤ 50 by omega),
    take_append_slice bytes (show 50 ≤ 52 by omega),
    take_append_slice bytes (Nat.le_add_right 52 _),
    take_append_slice bytes (Nat.le_add_right _ 32)]

end Decodes

/-- A datagram that decodes is the encoding of its message if and only if it ends with the MAC. -/
theorem canonical_iff (h : decode bytes = some m) :
    m.encode = bytes ↔ bytes.length = 52 + statedLength bytes + 32 := by
  have hdecodes := decodes h
  have hwhole := hdecodes.whole
  rw [hdecodes.encode_eq]
  constructor
  · intro hsame
    have hlen := congrArg List.length hsame
    rw [List.length_take] at hlen
    omega
  · intro hlen
    exact List.take_of_length_le (Nat.le_of_eq hlen)

end TlvMsg
end Kdapp.Merchant

namespace Kdapp.Merchant.TlvMsg
open Borsh

def ping : TlvMsg := ⟨tlvVersion, 1, 7, 3, Hash.filled 0, [9], Hash.filled 5⟩

theorem canonical_at : decode (ping.encode ++ [0]) = some ping ∧
    ping.encode ≠ ping.encode ++ [0] := by
  have hdecode : decode (ping.encode ++ [0]) = some ping :=
    decode_encode rfl (by decide) (by decide) [0]
  refine ⟨hdecode, fun hsame => ?_⟩
  exact absurd ((canonical_iff hdecode).mp hsame) (by decide +kernel)

/-- A byte after the MAC is not noticed. -/
theorem trailing_byte_accepted :
    ¬ ∀ (bytes : Bytes) (m : TlvMsg), decode bytes = some m → m.encode = bytes := by
  intro h
  have hdecode : decode (ping.encode ++ [0]) = some ping :=
    decode_encode rfl (by decide) (by decide) [0]
  have hlen := congrArg List.length (h _ _ hdecode)
  rw [List.length_append] at hlen
  cases hlen

end Kdapp.Merchant.TlvMsg
