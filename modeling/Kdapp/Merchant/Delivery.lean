import Kdapp.Merchant.Router

/-! What the routers deliver and what they acknowledge. -/

namespace Kdapp.Merchant
open Borsh InOrder
open Std (ExtTreeMap)

variable [Blake2b]

section Steps
variable {moment : Moment} {lastSeq lastSeq' : LastSeq} {bytes : Bytes} {out : Handled}
  {mt : MsgType} {msg : TlvMsg}

theorem Handles.of_accepted (h : Handles moment lastSeq bytes out lastSeq')
    (hacc : out.accepted = some (mt, msg)) : authenticate bytes = some (mt, msg) ∧
      sequencing mt msg.seq lastSeq[msg.episodeId]? = .accept ∧
      out.delivered = (if mt = .checkpoint then none
        else moment.send (syntheticBlock msg.seq moment.now msg.payload)) ∧
      out.reply = some (ackFor mt msg).encode := by
  cases h with
  | forged | ackType | unopened | outOfOrder | repeated => cases hacc
  | accepted hauth hmt hnext =>
    cases hacc
    exact ⟨hauth, sequencing_of_next hmt hnext, rfl, rfl⟩

theorem Handles.of_repeated {info : AckState} (h : Handles moment lastSeq bytes out lastSeq')
    (hauth : authenticate bytes = some (mt, msg)) (hmt : mt ≠ .ack ∧ mt ≠ .ackClose)
    (hentry : lastSeq[msg.episodeId]? = some info) (hseq : msg.seq = info.seq) :
    out = ⟨none, none, some info.ack⟩ := by
  cases h with
  | forged hauth' =>
    rw [hauth] at hauth'
    cases hauth'
  | ackType hauth' hack =>
    rw [hauth] at hauth'
    cases hauth'
    exact absurd hack (not_or.mpr hmt)
  | unopened hauth' hnone =>
    rw [hauth] at hauth'
    cases hauth'
    rw [hentry] at hnone
    cases hnone
  | outOfOrder hauth' hentry' hne =>
    rw [hauth] at hauth'
    cases hauth'
    rw [hentry] at hentry'
    cases hentry'
    exact absurd hseq hne
  | repeated hauth' hentry' =>
    rw [hauth] at hauth'
    cases hauth'
    rw [hentry] at hentry'
    cases hentry'
    rfl
  | accepted hauth' hmt' hnext =>
    rw [hauth] at hauth'
    cases hauth'
    rw [hentry] at hnext
    rcases hnext with ⟨-, hnone, -⟩ | ⟨-, info', hsome, hsucc⟩
    · cases hnone
    · cases hsome
      -- no number is its own successor, not even the last one
      rw [hseq] at hsucc
      have hn := congrArg UInt64.toNat hsucc
      rw [UInt64.toNat_add] at hn
      have hlt := info.seq.toNat_lt
      have hone : (1 : UInt64).toNat = 1 := rfl
      omega

end Steps

omit [Blake2b] in
theorem exists_of_mem_take {handled : List Handled} {i : ℕ} {a : MsgType × TlvMsg}
    (h : a ∈ accepted (handled.take i)) :
    ∃ j out, j < i ∧ handled[j]? = some out ∧ out.accepted = some a := by
  obtain ⟨out, hout, hacc⟩ := List.mem_filterMap.mp h
  obtain ⟨j, hj⟩ := List.mem_iff_getElem?.mp hout
  rw [List.getElem?_take] at hj
  split at hj
  · exact ⟨j, out, ‹_›, hj, hacc⟩
  · cases hj

theorem handleAll_handles {arrivals : List (Moment × Bytes)} {i : ℕ} {moment : Moment}
    {bytes : Bytes} {out : Handled} (harr : arrivals[i]? = some (moment, bytes))
    (hout : (handleAll ∅ arrivals).1[i]? = some out) :
    ∃ lastSeq', Handles moment (handleAll ∅ (arrivals.take i)).2 bytes out lastSeq' := by
  rw [(handleAll_getElem? harr).1] at hout
  cases hout
  exact ⟨_, handles moment _ bytes⟩

theorem exists_arrival {arrivals : List (Moment × Bytes)} {i : ℕ} {out : Handled}
    (hout : (handleAll ∅ arrivals).1[i]? = some out) :
    ∃ moment bytes, arrivals[i]? = some (moment, bytes) := by
  have hlt : i < arrivals.length := by
    rw [← handleAll_length ∅ arrivals]
    exact (List.getElem?_eq_some_iff.mp hout).1
  exact ⟨_, _, List.getElem?_eq_getElem hlt⟩

theorem exists_last {arrivals : List (Moment × Bytes)} {i : ℕ} {ep : UInt64} {info : AckState}
    (hentry : (handleAll ∅ (arrivals.take i)).2[ep]? = some info) :
    ∃ last, (acceptedBy ep (handleAll ∅ (arrivals.take i)).1).getLast? = some last ∧
      info = ⟨last.2.seq, (ackFor last.1 last.2).encode⟩ := by
  have hep := (handleAll_tracks (arrivals.take i) Tracks.init Ordered.nil).1 ep
  rw [hentry] at hep
  obtain ⟨last, hlast, heq⟩ := Option.map_eq_some_iff.mp hep.symm
  exact ⟨last, hlast, heq.symm⟩

end Kdapp.Merchant

namespace Kdapp.Merchant
open Borsh
open Std (ExtTreeMap)

attribute [local instance] idealBlake2b

def session : List (Moment × Bytes) :=
  [(⟨10, true⟩, (tlvOf .new 5 0 [1]).encode), (⟨11, true⟩, [1, 2, 3]),
   (⟨12, true⟩, (tlvOf .cmd 5 1 [2]).encode), (⟨13, true⟩, (tlvOf .cmd 5 1 [2]).encode),
   (⟨14, true⟩, (tlvOf .checkpoint 5 2 []).encode),
   (⟨15, true⟩, (tlvOf .cmd 5 9 [3]).encode)]

end Kdapp.Merchant
