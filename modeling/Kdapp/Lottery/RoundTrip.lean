import Kdapp.Lottery.Tlv
import Kdapp.Merchant.Canonical

/-! Which messages survive their frame, in both crates: the length of the payload has sixteen bits
there. -/

namespace Kdapp
open Borsh

namespace Merchant.TlvMsg
variable {m : TlvMsg}

theorem decode_encode_iff (hversion : m.version = tlvVersion)
    (htype : MsgType.fromU8 m.msgType ≠ none) :
    decode m.encode = some m ↔ m.payload.length < 2 ^ 16 := by
  constructor
  · intro h
    have hdecodes := decodes h
    rw [hdecodes.payload_length]
    exact hdecodes.statedLength_lt
  · intro hlen
    have hdecode := decode_encode hversion htype hlen []
    rwa [List.append_nil] at hdecode

end Merchant.TlvMsg

namespace Lottery.TlvMsg
variable {m : TlvMsg}

theorem decode_encode_iff (hversion : m.version = tlvVersion)
    (htype : Merchant.MsgType.fromU8 m.msgType ≠ none) :
    decode m.encode = some m ↔ m.payload.length < 2 ^ 16 := by
  constructor
  · intro h
    have hle : 52 ≤ m.encode.length := by
      rw [encode_length]
      omega
    have htake := decode_take hversion htype hle
    rw [List.take_length, h] at htake
    obtain ⟨-, hsame⟩ := Option.ite_none_right_eq_some.mp htake.symm
    have hpayload := congrArg (fun l : TlvMsg => l.payload.length) (Option.some.inj hsame)
    have hmod := Nat.mod_lt m.payload.length (show 0 < 2 ^ 16 by decide)
    simp only [List.length_take] at hpayload
    omega
  · exact decode_encode hversion htype

end Lottery.TlvMsg

variable [Merchant.Blake2b]

/-- A message of either crate comes back from its frame, and one that the merchant's side signed
verifies then, if and only if its payload is shorter than 2^16 bytes. -/
theorem frames_round_trip_iff {m : Merchant.TlvMsg} {l : Lottery.TlvMsg} (key : Bytes)
    (hversion : m.version = Merchant.tlvVersion)
    (htype : Merchant.MsgType.fromU8 m.msgType ≠ none)
    (hversion' : l.version = Lottery.tlvVersion)
    (htype' : Merchant.MsgType.fromU8 l.msgType ≠ none) :
    ((Merchant.TlvMsg.decode m.encode = some m ∧ ∃ received,
        Merchant.TlvMsg.decode (m.sign key).encode = some received ∧
        received = m.sign key ∧ received.verify key = true) ↔ m.payload.length < 2 ^ 16) ∧
    (Lottery.TlvMsg.decode l.encode = some l ↔ l.payload.length < 2 ^ 16) := by
  refine ⟨⟨fun h => ?_, fun hlen => ⟨?_, m.sign key, ?_, rfl, ?_⟩⟩, ?_⟩
  · exact (Merchant.TlvMsg.decode_encode_iff hversion htype).mp h.1
  · exact (Merchant.TlvMsg.decode_encode_iff hversion htype).mpr hlen
  · have hsigned : (m.sign key).payload.length < 2 ^ 16 := hlen
    exact (Merchant.TlvMsg.decode_encode_iff (m := m.sign key) hversion htype).mpr hsigned
  · exact m.verify_sign key
  · exact Lottery.TlvMsg.decode_encode_iff hversion' htype'

end Kdapp

namespace Kdapp
open Borsh
open Merchant.TlvMsg (ping)
attribute [local instance] Merchant.idealBlake2b

def draw : Lottery.TlvMsg := ⟨Lottery.tlvVersion, 1, 7, 3, Hash.filled 0, [9]⟩

theorem frames_round_trip_at :
    (Merchant.TlvMsg.decode ping.encode = some ping ∧ ∃ received,
        Merchant.TlvMsg.decode (ping.sign Merchant.demoHmacKey).encode = some received ∧
        received = ping.sign Merchant.demoHmacKey ∧
        received.verify Merchant.demoHmacKey = true) ∧
    Lottery.TlvMsg.decode draw.encode = some draw := by
  obtain ⟨hmerchant, hlottery⟩ :=
    frames_round_trip_iff (m := ping) (l := draw) Merchant.demoHmacKey rfl (by decide) rfl
      (by decide)
  exact ⟨hmerchant.mpr (by decide), hlottery.mpr (by decide)⟩

/-- A payload of 2^16 bytes is stated to have none. -/
theorem long_payload_lost :
    ¬ ∀ (m : Merchant.TlvMsg) (l : Lottery.TlvMsg), m.version = Merchant.tlvVersion →
      Merchant.MsgType.fromU8 m.msgType ≠ none → l.version = Lottery.tlvVersion →
      Merchant.MsgType.fromU8 l.msgType ≠ none →
      Merchant.TlvMsg.decode m.encode = some m ∧ Lottery.TlvMsg.decode l.encode = some l := by
  intro h
  have hboth := h { ping with payload := List.replicate 65536 0 } draw rfl (by decide) rfl
    (by decide)
  have hlen := (Merchant.TlvMsg.decodes hboth.1).payload_length
  have hlt := (Merchant.TlvMsg.decodes hboth.1).statedLength_lt
  rw [← hlen, List.length_replicate] at hlt
  omega

end Kdapp
