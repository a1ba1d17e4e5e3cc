import Kdapp.Merchant.Delivery
import Kdapp.Merchant.Framing

/-! When an acknowledgement of a router means what it says. -/

namespace Kdapp.Merchant
open Borsh InOrder
open Std (ExtTreeMap)

/-- One frame again, as far as an acknowledgement goes: the same payload under the same number
and type, and for a checkpoint the same state. -/
structure SameFrame (a b : MsgType × TlvMsg) : Prop where
  msgType : a.1 = b.1
  episodeId : a.2.episodeId = b.2.episodeId
  seq : a.2.seq = b.2.seq
  payload : a.2.payload = b.2.payload
  stateHash : b.1 = .checkpoint → a.2.stateHash = b.2.stateHash

theorem SameFrame.rfl {a : MsgType × TlvMsg} : SameFrame a a := ⟨.refl _, .refl _, .refl _, .refl _,
  fun _ => .refl _⟩

variable [Blake2b]

/-- Every reply answers a frame that was accepted, then or before, and whose payload reached
the engine unless it is a checkpoint. -/
def Honest (arrivals : List (Moment × Bytes)) (handled : List Handled) : Prop :=
  ∀ (i : ℕ) (moment : Moment) (bytes : Bytes) (out : Handled) (ack : Bytes),
    arrivals[i]? = some (moment, bytes) → handled[i]? = some out → out.reply = some ack →
      ∃ mt msg, authenticate bytes = some (mt, msg) ∧
        ∃ (j : ℕ) (out' : Handled) (a : MsgType × TlvMsg), j ≤ i ∧ handled[j]? = some out' ∧
          out'.accepted = some a ∧ SameFrame a (mt, msg) ∧ (mt ≠ .checkpoint →
            ∃ daa now, out'.delivered = some (syntheticBlock daa now msg.payload))

/-- What the senders and the engine must keep to: the channel is open when a frame that goes to
the engine is next in turn, and a frame with the number of the last one is that frame again. -/
structure Careful (arrivals : List (Moment × Bytes)) : Prop where
  channel : ∀ (i : ℕ) (moment : Moment) (bytes : Bytes) (mt : MsgType) (msg : TlvMsg),
    arrivals[i]? = some (moment, bytes) → authenticate bytes = some (mt, msg) → mt ≠ .checkpoint →
      sequencing mt msg.seq (handleAll ∅ (arrivals.take i)).2[msg.episodeId]? = .accept →
        moment.channelOpen = true
  repeats : ∀ (i : ℕ) (moment : Moment) (bytes : Bytes) (mt : MsgType) (msg : TlvMsg)
    (last : MsgType × TlvMsg), arrivals[i]? = some (moment, bytes) →
      authenticate bytes = some (mt, msg) → mt ≠ .ack ∧ mt ≠ .ackClose →
        (acceptedBy msg.episodeId (handleAll ∅ (arrivals.take i)).1).getLast? = some last →
          msg.seq = last.2.seq → SameFrame last (mt, msg)

theorem Handles.of_reply {moment : Moment} {lastSeq lastSeq' : LastSeq} {bytes ack : Bytes}
    {out : Handled} (h : Handles moment lastSeq bytes out lastSeq')
    (hreply : out.reply = some ack) : ∃ mt msg, authenticate bytes = some (mt, msg) ∧
      (mt ≠ .ack ∧ mt ≠ .ackClose) ∧ (out.accepted = some (mt, msg) ∨
        ∃ info, lastSeq[msg.episodeId]? = some info ∧ msg.seq = info.seq) := by
  cases h with
  | forged | ackType | unopened | outOfOrder => cases hreply
  | repeated hauth hentry hseq hmt => exact ⟨_, _, hauth, hmt, .inr ⟨_, hentry, hseq⟩⟩
  | accepted hauth hmt hnext => exact ⟨_, _, hauth, hmt, .inl rfl⟩

section Run
variable {arrivals : List (Moment × Bytes)}

theorem Careful.delivers (h : Careful arrivals) {i : ℕ} {moment : Moment} {bytes : Bytes}
    {out : Handled} {mt : MsgType} {msg : TlvMsg} (harr : arrivals[i]? = some (moment, bytes))
    (hout : (handleAll ∅ arrivals).1[i]? = some out) (hacc : out.accepted = some (mt, msg))
    (hmt : mt ≠ .checkpoint) :
    out.delivered = some (syntheticBlock msg.seq moment.now msg.payload) := by
  obtain ⟨table, hh⟩ := handleAll_handles harr hout
  obtain ⟨hauth, hturn, hdelivered, -⟩ := hh.of_accepted hacc
  rw [hdelivered, if_neg hmt, Moment.send,
    if_pos (h.channel i moment bytes mt msg harr hauth hmt hturn)]

theorem Careful.honest (h : Careful arrivals) : Honest arrivals (handleAll ∅ arrivals).1 := by
  intro i moment bytes out ack harr hout hreply
  obtain ⟨table, hh⟩ := handleAll_handles harr hout
  obtain ⟨mt, msg, hauth, hmt, hacc | ⟨info, hentry, hseq⟩⟩ := hh.of_reply hreply
  · exact ⟨mt, msg, hauth, i, out, (mt, msg), le_rfl, hout, hacc, .rfl,
      fun hne => ⟨_, _, h.delivers harr hout hacc hne⟩⟩
  · obtain ⟨last, hlast, rfl⟩ := exists_last hentry
    have hsame := h.repeats i moment bytes mt msg last harr hauth hmt hlast hseq
    have hmem : last ∈ accepted ((handleAll ∅ arrivals).1.take i) := by
      rw [(handleAll_getElem? harr).2]
      exact List.mem_of_mem_filter (List.mem_of_getLast? hlast)
    obtain ⟨j, out', hj, hout', hacc⟩ := exists_of_mem_take hmem
    obtain ⟨moment', bytes', harr'⟩ := exists_arrival hout'
    refine ⟨mt, msg, hauth, j, out', last, hj.le, hout', hacc, hsame, fun hne => ?_⟩
    have htype : last.1 = mt := hsame.msgType
    have hpayload : last.2.payload = msg.payload := hsame.payload
    rw [← hpayload]
    exact ⟨_, _, h.delivers harr' hout' hacc (htype ▸ hne)⟩

omit [Blake2b] in
theorem InSequence.unique {l : List (MsgType × TlvMsg)} (h : InSequence l)
    (hlen : l.length ≤ 2 ^ 64) {ep : UInt64} {i j : ℕ} {a b : MsgType × TlvMsg}
    (hi : (sentBy sender ep l)[i]? = some a) (hj : (sentBy sender ep l)[j]? = some b)
    (hseq : a.2.seq = b.2.seq) : i = j := by
  apply Ordered.index_unique h hi hj hseq
  intro p q hp hq heq
  have hn := congrArg UInt64.toNat heq
  rw [UInt64.toNat_ofNat', UInt64.toNat_ofNat', Nat.mod_eq_of_lt (hp.trans_le hlen),
    Nat.mod_eq_of_lt (hq.trans_le hlen)] at hn
  exact hn

omit [Blake2b] in
theorem accepted_length_le (handled : List Handled) :
    (accepted handled).length ≤ handled.length := List.length_filterMap_le _ _

theorem accepted_take_length (arrivals : List (Moment × Bytes)) (i : ℕ) :
    (accepted (handleAll ∅ (arrivals.take i)).1).length ≤ i := by
  apply (accepted_length_le _).trans
  rw [handleAll_length, List.length_take]
  exact Nat.min_le_left _ _

theorem exists_index {i j : ℕ} {moment : Moment} {bytes : Bytes} {out : Handled}
    {a : MsgType × TlvMsg} (harr : arrivals[i]? = some (moment, bytes)) (hj : j < i)
    (hout : (handleAll ∅ arrivals).1[j]? = some out) (hacc : out.accepted = some a) :
    ∃ p : ℕ,
      (sentBy sender (sender a) (accepted (handleAll ∅ (arrivals.take i)).1))[p]? = some a := by
  apply List.mem_iff_getElem?.mp
  rw [← (handleAll_getElem? harr).2]
  apply List.mem_filter.mpr
  refine ⟨List.mem_filterMap.mpr ⟨out, List.mem_iff_getElem?.mpr ⟨j, ?_⟩, hacc⟩, by simp⟩
  rw [List.getElem?_take_of_lt hj]
  exact hout

theorem handle_of_turn {lastSeq : LastSeq} {bytes : Bytes} {mt : MsgType} {msg : TlvMsg}
    (moment : Moment) (hauth : authenticate bytes = some (mt, msg))
    (hturn : sequencing mt msg.seq lastSeq[msg.episodeId]? = .accept) :
    (handle moment lastSeq bytes).1 = ⟨some (mt, msg), if mt = .checkpoint then none
      else moment.send (syntheticBlock msg.seq moment.now msg.payload),
      some (ackFor mt msg).encode⟩ := by
  unfold handle
  rw [hauth]
  dsimp only
  rw [hturn]

theorem not_used_of_turn {i j : ℕ} {moment : Moment} {bytes : Bytes} {mt : MsgType}
    {msg : TlvMsg} {out : Handled} {a : MsgType × TlvMsg} (hcount : arrivals.length < 2 ^ 64)
    (harr : arrivals[i]? = some (moment, bytes)) (hauth : authenticate bytes = some (mt, msg))
    (hturn : sequencing mt msg.seq (handleAll ∅ (arrivals.take i)).2[msg.episodeId]? = .accept)
    (hj : j < i) (hout : (handleAll ∅ arrivals).1[j]? = some out) (hacc : out.accepted = some a) :
    ¬ SameFrame a (mt, msg) := by
  intro hsame
  have hi : i < arrivals.length := (List.getElem?_eq_some_iff.mp harr).1
  have hep : sender a = msg.episodeId := hsame.episodeId
  obtain ⟨p, hp⟩ := exists_index harr hj hout hacc
  obtain ⟨ht, hl⟩ := handleAll_tracks (arrivals.take i) Tracks.init Ordered.nil
  obtain ⟨-, hl'⟩ := (handles moment (handleAll ∅ (arrivals.take i)).2 bytes).tracks ht hl
  rw [handle_of_turn moment hauth hturn, List.nil_append] at hl'
  -- in the sequence with this frame at its end, both would have the same number
  have hconcat : sentBy sender msg.episodeId
      (accepted (handleAll ∅ (arrivals.take i)).1 ++ [(mt, msg)]) =
        sentBy sender msg.episodeId (accepted (handleAll ∅ (arrivals.take i)).1) ++
          [(mt, msg)] :=
    sentBy_concat_self sender _ (mt, msg)
  rw [hep] at hp
  have hpn := (List.getElem?_eq_some_iff.mp hp).1
  have hfirst : (sentBy sender msg.episodeId (accepted (handleAll ∅ (arrivals.take i)).1 ++
      [(mt, msg)]))[p]? = some a := by
    rw [hconcat, List.getElem?_append_left hpn]
    exact hp
  have hsecond : (sentBy sender msg.episodeId (accepted (handleAll ∅ (arrivals.take i)).1 ++
      [(mt, msg)]))[(sentBy sender msg.episodeId
        (accepted (handleAll ∅ (arrivals.take i)).1)).length]? = some (mt, msg) := by
    rw [hconcat]
    exact List.getElem?_concat_length
  have hlen : (accepted (handleAll ∅ (arrivals.take i)).1 ++ [(mt, msg)]).length ≤ 2 ^ 64 := by
    have htaken := accepted_take_length arrivals i
    rw [List.length_append, List.length_singleton]
    omega
  have hindex := InSequence.unique hl' hlen hfirst hsecond hsame.seq
  omega

theorem Honest.channel (h : Honest arrivals (handleAll ∅ arrivals).1)
    (hcount : arrivals.length < 2 ^ 64) {i : ℕ} {moment : Moment} {bytes : Bytes} {mt : MsgType}
    {msg : TlvMsg} (harr : arrivals[i]? = some (moment, bytes))
    (hauth : authenticate bytes = some (mt, msg)) (hmt : mt ≠ .checkpoint)
    (hturn : sequencing mt msg.seq (handleAll ∅ (arrivals.take i)).2[msg.episodeId]? = .accept) :
    moment.channelOpen = true := by
  by_contra hclosed
  obtain ⟨hout, -⟩ := handleAll_getElem? harr
  have hrun := handle_of_turn moment hauth hturn
  obtain ⟨mt', msg', hauth', j, out', a, hj, hout', hacc, hsame, hdelivered⟩ :=
    h i moment bytes _ (ackFor mt msg).encode harr hout (by rw [hrun])
  rw [hauth] at hauth'
  cases hauth'
  rcases Nat.lt_or_eq_of_le hj with hlt | rfl
  · exact not_used_of_turn hcount harr hauth hturn hlt hout' hacc hsame
  · -- the answer is to the frame itself, which a closed channel does not deliver
    rw [hout'] at hout
    cases hout
    obtain ⟨daa, now, hsome⟩ := hdelivered hmt
    rw [hrun] at hsome
    rw [if_neg hmt, Moment.send, if_neg hclosed] at hsome
    cases hsome

theorem Honest.repeats (h : Honest arrivals (handleAll ∅ arrivals).1)
    (hcount : arrivals.length < 2 ^ 64) {i : ℕ} {moment : Moment} {bytes : Bytes} {mt : MsgType}
    {msg : TlvMsg} {last : MsgType × TlvMsg} (harr : arrivals[i]? = some (moment, bytes))
    (hauth : authenticate bytes = some (mt, msg)) (hmt : mt ≠ .ack ∧ mt ≠ .ackClose)
    (hlast : (acceptedBy msg.episodeId (handleAll ∅ (arrivals.take i)).1).getLast? = some last)
    (hseq : msg.seq = last.2.seq) : SameFrame last (mt, msg) := by
  obtain ⟨hout, -⟩ := handleAll_getElem? harr
  obtain ⟨ht, hl⟩ := handleAll_tracks (arrivals.take i) Tracks.init Ordered.nil
  rw [List.nil_append] at ht hl
  have hentry := ht msg.episodeId
  rw [show sentBy sender msg.episodeId _ = acceptedBy msg.episodeId _ from rfl, hlast] at hentry
  have hrun := (handles moment _ bytes).of_repeated hauth hmt hentry hseq
  obtain ⟨mt', msg', hauth', j, out', a, hj, hout', hacc, hsame, -⟩ :=
    h i moment bytes _ _ harr hout (by rw [hrun])
  rw [hauth] at hauth'
  cases hauth'
  rcases Nat.lt_or_eq_of_le hj with hlt | rfl
  · -- what was answered for has the number of `last`, and so is `last`
    obtain ⟨p, hp⟩ := exists_index harr hlt hout' hacc
    rw [show sender a = msg.episodeId from hsame.episodeId] at hp
    rw [acceptedBy, List.getLast?_eq_getElem?] at hlast
    have hlen : (accepted (handleAll ∅ (arrivals.take i)).1).length ≤ 2 ^ 64 := by
      have htaken := accepted_take_length arrivals i
      have hi := (List.getElem?_eq_some_iff.mp harr).1
      omega
    have hindex := InSequence.unique hl hlen hp hlast (hsame.seq.trans hseq)
    rw [hindex, hlast] at hp
    cases hp
    exact hsame
  · rw [hout', hrun] at hout
    cases hout
    cases hacc

theorem Honest.careful (h : Honest arrivals (handleAll ∅ arrivals).1)
    (hcount : arrivals.length < 2 ^ 64) : Careful arrivals where
  channel _ _ _ _ _ harr hauth hmt hturn := h.channel hcount harr hauth hmt hturn
  repeats _ _ _ _ _ _ harr hauth hmt hlast hseq := h.repeats hcount harr hauth hmt hlast hseq

/-- What a router made of what it received, from when it was started. -/
inductive RouterRun : List (Moment × Bytes) → List Handled → Prop
  | udp (datagrams : List (Moment × Bytes)) :
    RouterRun (UdpRouter.received datagrams) (UdpRouter.run ∅ datagrams).1
  | tcp (connections : List ((ℕ → Moment) × Bytes)) :
    RouterRun (TcpRouter.received connections) (TcpRouter.run ∅ connections).1

theorem RouterRun.eq {handled : List Handled} (h : RouterRun arrivals handled) :
    handled = (handleAll ∅ arrivals).1 := by
  cases h with
  | udp datagrams => rfl
  | tcp connections => rw [TcpRouter.run_eq]

/-- The acknowledgements of a router are honest when its peers and the engine are careful, and
only then (as long as no number is used twice). -/
theorem acks_honest_iff {handled : List Handled} (h : RouterRun arrivals handled) :
    (Careful arrivals → Honest arrivals handled) ∧
      (arrivals.length < 2 ^ 64 → Honest arrivals handled → Careful arrivals) := by
  obtain rfl := h.eq
  exact ⟨Careful.honest, fun hcount hhonest => hhonest.careful hcount⟩

end Run
end Kdapp.Merchant

namespace Kdapp.Merchant
open Borsh
open Std (ExtTreeMap)
attribute [local instance] idealBlake2b

def replaced : List (Moment × Bytes) :=
  [(⟨10, true⟩, (tlvOf .new 5 0 [1]).encode), (⟨11, true⟩, (tlvOf .cmd 5 1 [2]).encode),
   (⟨12, true⟩, (tlvOf .cmd 5 1 [3]).encode)]

def undelivered : List (Moment × Bytes) := [(⟨10, false⟩, (tlvOf .new 5 0 [1]).encode)]

/-- The second command of the first run is never delivered, and acknowledged; so is the only
frame of the second. -/
theorem acks_dishonest :
    ¬ Honest (UdpRouter.received replaced) (UdpRouter.run ∅ replaced).1 ∧
      ¬ Honest (UdpRouter.received undelivered) (UdpRouter.run ∅ undelivered).1 := by
  constructor
  · intro h
    have hcareful := Honest.careful h (by decide)
    have hsame := hcareful.repeats 2 ⟨12, true⟩ _ .cmd (tlvOf .cmd 5 1 [3])
      (.cmd, tlvOf .cmd 5 1 [2]) rfl (by decide) (by decide) (by decide) rfl
    exact absurd hsame.payload (by decide)
  · intro h
    have hcareful := Honest.careful h (by decide)
    exact absurd (hcareful.channel 0 ⟨10, false⟩ _ .new (tlvOf .new 5 0 [1]) rfl (by decide)
      (by decide) (by decide)) (by decide)

def repeated : List (Moment × Bytes) :=
  [(⟨10, true⟩, (tlvOf .new 5 0 [1]).encode), (⟨11, true⟩, (tlvOf .new 5 0 [1]).encode)]

theorem repeated_careful : Careful (UdpRouter.received repeated) where
  channel i moment bytes mt msg harr _ _ _ := by
    match i with
    | 0 | 1 =>
      cases harr
      rfl
    | i + 2 => cases harr
  repeats i moment bytes mt msg last harr hauth hmt hlast _ := by
    match i with
    | 0 =>
      cases harr
      cases hlast
    | 1 =>
      cases harr
      have hframe : authenticate (UdpRouter.recvFrom (tlvOf .new 5 0 [1]).encode) =
          some (.new, tlvOf .new 5 0 [1]) := by decide
      cases hframe.symm.trans hauth
      have hfirst : (acceptedBy (tlvOf .new 5 0 [1]).episodeId
          (handleAll ∅ ((UdpRouter.received repeated).take 1)).1).getLast? =
            some (.new, tlvOf .new 5 0 [1]) := by decide
      cases hfirst.symm.trans hlast
      exact ⟨rfl, rfl, rfl, rfl, nofun⟩
    | i + 2 => cases harr

/-- Both are acknowledged, and one is delivered. -/
theorem acks_honest_iff_delivered :
    (UdpRouter.run ∅ repeated).1.map (fun out => (out.reply.isSome, out.delivered.isSome)) =
        [(true, true), (true, false)] ∧
      Honest (UdpRouter.received repeated) (UdpRouter.run ∅ repeated).1 :=
  ⟨by decide, (acks_honest_iff (.udp repeated)).1 repeated_careful⟩

end Kdapp.Merchant
