import Kdapp.Lottery.OffChain

/-! Recovery from loss on the off-chain channel of the lottery. -/

namespace Kdapp.Lottery
open Borsh InOrder FiniteMap
open Merchant (Moment syntheticBlock)
open Std (ExtTreeMap)

namespace TlvMsg
variable {self msg : TlvMsg} {n : ℕ}

theorem of_decode_take (hn : 52 ≤ n) (h : decode (self.encode.take n) = some msg) :
    msg.version = tlvVersion ∧ msg.episodeId = self.episodeId ∧ msg.seq = self.seq := by
  have hversion : self.version = tlvVersion ∧ Merchant.MsgType.fromU8 self.msgType ≠ none := by
    obtain ⟨m, rfl⟩ : ∃ m, n = m + 2 := ⟨n - 2, by omega⟩
    unfold decode at h
    split at h
    · cases h
    split at h
    · cases h
    split at h
    · cases h
    exact ⟨not_not.mp ‹_›, ‹_›⟩
  rw [decode_take hversion.1 hversion.2 hn] at h
  split at h
  · cases h
    exact ⟨hversion.1, rfl, rfl⟩
  · cases h

end TlvMsg

theorem of_readMsg {bytes : Bytes} {mt : MsgType} {msg : TlvMsg}
    (h : readMsg bytes = some (mt, msg)) : TlvMsg.decode bytes = some msg ∧
      Merchant.MsgType.fromU8 msg.msgType = some mt := by
  unfold readMsg at h
  split at h
  · cases h
  rename_i msg' hdecode
  split at h
  · cases h
  obtain ⟨mt', htype, heq⟩ := Option.map_eq_some_iff.mp h
  cases heq
  exact ⟨hdecode, htype⟩

namespace Client
variable {tlv : TlvMsg} {expectCloseAck : Bool} {received : ℕ → Option Bytes}

theorem attempts_true {left attempt : ℕ} :
    (attempts tlv expectCloseAck received left attempt).2 = true ↔
      ∃ i, attempt ≤ i ∧ i < attempt + left ∧
        acknowledges tlv expectCloseAck (received i) = true := by
  induction left generalizing attempt with
  | zero =>
    refine iff_of_false Bool.false_ne_true ?_
    rintro ⟨i, hle, hlt, -⟩
    omega
  | succ left ih =>
    unfold attempts
    split
    · exact iff_of_true rfl ⟨attempt, Nat.le_refl _, by omega, ‹_›⟩
    · rename_i hnot
      rw [ih]
      constructor
      · rintro ⟨i, hle, hlt, hack⟩
        exact ⟨i, by omega, by omega, hack⟩
      · rintro ⟨i, hle, hlt, hack⟩
        have hne : i ≠ attempt := by
          rintro rfl
          exact hnot hack
        exact ⟨i, by omega, by omega, hack⟩

theorem sendWithAck_true : (sendWithAck tlv expectCloseAck true received).2 = true ↔
    ∃ attempt, attempt < 3 ∧ acknowledges tlv expectCloseAck (received attempt) = true := by
  have hattempts : (attempts tlv expectCloseAck received 3 0).2 = true ↔ _ := attempts_true
  simpa [sendWithAck] using hattempts

theorem acknowledges_ackFor {mt : MsgType} {msg : TlvMsg} (hep : msg.episodeId = tlv.episodeId)
    (hseq : msg.seq = tlv.seq) :
    acknowledges tlv (decide (mt = .close)) (some (ackFor mt msg).encode) = true := by
  have hlen : (ackFor mt msg).encode.length ≤ 1024 := by
    rw [TlvMsg.encode_length]
    exact (by decide : 0 + 52 ≤ 1024)
  have htype : Merchant.MsgType.fromU8 (ackFor mt msg).msgType ≠ none := by
    by_cases hclose : mt = .close <;> simp [ackFor, hclose] <;> decide
  have hread : TlvMsg.decode ((ackFor mt msg).encode.take 1024) = some (ackFor mt msg) := by
    rw [List.take_of_length_le hlen]
    exact TlvMsg.decode_encode rfl htype (by decide : 0 < 2 ^ 16)
  rw [acknowledges, Option.bind_some, hread]
  apply decide_eq_true
  refine ⟨?_, hep, hseq⟩
  by_cases hclose : mt = .close <;> simp [ackFor, hclose]

end Client

namespace OffchainRouter

/-- Acks and `Close` enabled. -/
def enabled : OffchainRouter := ⟨true, true⟩

def accepted (handled : List Handled) : List (MsgType × TlvMsg) := handled.filterMap (·.accepted)

def sender (a : MsgType × TlvMsg) : UInt64 := a.2.episodeId

/-- The table has the number of the last message of each episode, or nothing after a `Close`. -/
def Remembers (lastSeq : LastSeq) (l : List (MsgType × TlvMsg)) : Prop :=
  ∀ ep a, (sentBy sender ep l).getLast? = some a →
    lastSeq[ep]? = some a.2.seq ∨ a.1 = .close ∧ lastSeq[ep]? = none

variable [Crypto]

section Remembers
variable {self : OffchainRouter} {moment : Moment} {lastSeq lastSeq' : LastSeq} {bytes : Bytes}
  {out : Handled} {l : List (MsgType × TlvMsg)} {mt : MsgType} {msg : TlvMsg}

theorem Handles.of_accepted (h : Handles self moment lastSeq bytes out lastSeq')
    (hacc : out.accepted = some (mt, msg)) : readMsg bytes = some (mt, msg) ∧
      self.accepts mt msg.seq lastSeq[msg.episodeId]? = true := by
  cases h with
  | unread | rejected => cases hacc
  | failed hread haccepts | checkpoint hread haccepts | forwarded hread haccepts
  | closed hread haccepts =>
    cases hacc
    exact ⟨hread, haccepts⟩

theorem Handles.of_rejected (h : Handles self moment lastSeq bytes out lastSeq')
    (hread : readMsg bytes = some (mt, msg))
    (hacc : self.accepts mt msg.seq lastSeq[msg.episodeId]? = false) :
    out = .ignored ∧ lastSeq' = lastSeq := by
  cases h with
  | unread | rejected => exact ⟨rfl, rfl⟩
  | failed hread' haccepts | checkpoint hread' haccepts | forwarded hread' haccepts
  | closed hread' haccepts =>
    cases hread.symm.trans hread'
    cases hacc.symm.trans haccepts

omit [Crypto] in
theorem Remembers.concat (h : Remembers lastSeq l)
    (hself : lastSeq'[msg.episodeId]? = some msg.seq ∨
      mt = .close ∧ lastSeq'[msg.episodeId]? = none)
    (hother : ∀ ep, msg.episodeId ≠ ep → lastSeq'[ep]? = lastSeq[ep]?) :
    Remembers lastSeq' (l ++ [(mt, msg)]) := by
  intro ep a hlast
  by_cases hep : msg.episodeId = ep
  · subst hep
    have hnew : (sentBy sender msg.episodeId (l ++ [(mt, msg)])).getLast? = some (mt, msg) :=
      getLast?_concat_self sender l (mt, msg)
    cases hnew.symm.trans hlast
    exact hself
  · have hold : sentBy sender ep (l ++ [(mt, msg)]) = sentBy sender ep l :=
      sentBy_concat_of_ne sender l hep
    rw [hold] at hlast
    rw [hother ep hep]
    exact h ep a hlast

theorem Handles.remembers (h : Handles self moment lastSeq bytes out lastSeq')
    (hl : Remembers lastSeq l) : Remembers lastSeq' (l ++ out.accepted.toList) := by
  cases h with
  | unread | rejected =>
    rw [← List.append_nil l] at hl
    exact hl
  | failed | checkpoint | forwarded =>
    exact hl.concat (.inl ExtTreeMap.getElem?_insert_self)
      fun _ hep => getElem?_insert_of_ne hep _
  | closed =>
    exact hl.concat (.inr ⟨rfl, ExtTreeMap.getElem?_erase_self⟩)
      fun _ hep => (getElem?_erase_of_ne hep).trans (getElem?_insert_of_ne hep _)

theorem handleAll_remembers (arrivals : List (Moment × Bytes)) (hl : Remembers lastSeq l) :
    Remembers (self.handleAll lastSeq arrivals).2
      (l ++ accepted (self.handleAll lastSeq arrivals).1) := by
  induction arrivals generalizing lastSeq l with
  | nil =>
    rw [handleAll, accepted, List.filterMap_nil, List.append_nil]
    exact hl
  | cons arrival arrivals ih =>
    obtain ⟨moment, bytes⟩ := arrival
    have hrest := ih ((handles self moment lastSeq bytes).remembers hl)
    have hcons : accepted (self.handleAll lastSeq ((moment, bytes) :: arrivals)).1 =
        (self.handle moment lastSeq bytes).1.accepted.toList ++
          accepted (self.handleAll (self.handle moment lastSeq bytes).2 arrivals).1 := by
      rw [handleAll, accepted, List.filterMap_cons]
      cases (self.handle moment lastSeq bytes).1.accepted <;> rfl
    rw [hcons, ← List.append_assoc]
    exact hrest

theorem runUdp_remembers (datagrams : List (Moment × Bytes)) :
    Remembers (self.runUdp datagrams).2 (accepted (self.runUdp datagrams).1) := by
  have hinit : Remembers ∅ [] := fun ep a h => by cases h
  exact handleAll_remembers _ hinit

omit [Crypto] in
theorem Remembers.accepts_last (h : Remembers lastSeq l)
    (hlast : (sentBy sender msg.episodeId l).getLast? = some (mt, msg)) :
    self.accepts mt msg.seq lastSeq[msg.episodeId]? = false := by
  rcases h _ _ hlast with hentry | ⟨hclose, hentry⟩
  · rw [hentry]
    exact accepts_self
  · rw [hentry]
    apply accepts_none
    rw [show mt = .close from hclose]
    decide

end Remembers

variable (datagrams : List (Moment × Bytes))

/-- The last message of an episode that was accepted before the `j`-th datagram. -/
def lastAccepted (j : ℕ) (ep : UInt64) : Option (MsgType × TlvMsg) :=
  (sentBy sender ep (accepted (enabled.before datagrams j).1)).getLast?

/-- The `j`-th datagram brings once more the frame that was accepted last of its episode. -/
structure Retransmission (j : ℕ) (bytes : Bytes) (a : MsgType × TlvMsg) : Prop where
  again : ∃ moment, datagrams[j]? = some (moment, bytes)
  first : ∃ i < j, ∃ moment out, datagrams[i]? = some (moment, bytes) ∧
    (enabled.runUdp datagrams).1[i]? = some out ∧ out.accepted = some a ∧
    (a.1 = .checkpoint ∨ out.delivered ≠ none)
  last : lastAccepted datagrams j a.2.episodeId = some a

/-- Loss of frames and acks, and failures to forward, can be made up for. -/
structure Recovers : Prop where
  answered : ∀ j bytes a, Retransmission datagrams j bytes a →
    ∃ out, (enabled.runUdp datagrams).1[j]? = some out ∧
      out.reply = some (ackFor a.1 a.2).encode ∧ out.delivered = none
  reported : ∀ (tlv : TlvMsg) j a (received : ℕ → Option Bytes) attempt,
    Retransmission datagrams j tlv.encode a → attempt < 3 →
      (∃ out, (enabled.runUdp datagrams).1[j]? = some out ∧ received attempt = out.reply) →
        (Client.sendWithAck tlv (decide (a.1 = .close)) true received).2 = true
  unrecorded : ∀ i out mt msg, (enabled.runUdp datagrams).1[i]? = some out →
    out.accepted = some (mt, msg) → mt ≠ .checkpoint → out.delivered = none →
      (enabled.before datagrams (i + 1)).2[msg.episodeId]? =
        (enabled.before datagrams i).2[msg.episodeId]?

/-- No copy of the last frame of an episode arrives, and the engine listens whenever a message is
to be forwarded. -/
structure Undisturbed : Prop where
  once : ∀ j bytes a, ¬ Retransmission datagrams j bytes a
  listening : ∀ i moment bytes mt msg, datagrams[i]? = some (moment, bytes) →
    readMsg (recvFrom bytes) = some (mt, msg) → mt ≠ .checkpoint →
      enabled.accepts mt msg.seq (enabled.before datagrams i).2[msg.episodeId]? = true →
        moment.channelOpen = true

variable {datagrams} {i j : ℕ} {bytes : Bytes} {moment : Moment} {out : Handled}

theorem handles_at (h : datagrams[i]? = some (moment, bytes)) :
    ∃ out lastSeq', (enabled.runUdp datagrams).1[i]? = some out ∧
      (enabled.before datagrams (i + 1)).2 = lastSeq' ∧
      Handles enabled moment (enabled.before datagrams i).2 (recvFrom bytes) out lastSeq' := by
  refine ⟨_, _, (runUdp_getElem? h).1, ?_, handles enabled _ _ _⟩
  obtain ⟨hi, hget⟩ := List.getElem?_eq_some_iff.mp h
  have htake : datagrams.take (i + 1) = datagrams.take i ++ [(moment, bytes)] := by
    rw [← hget]
    exact (List.take_append_getElem hi).symm
  rw [before, runUdp, htake, List.map_append, handleAll_append]
  rfl

theorem arrival_of_handled (h : (enabled.runUdp datagrams).1[i]? = some out) :
    ∃ moment bytes, datagrams[i]? = some (moment, bytes) := by
  obtain ⟨hi, -⟩ := List.getElem?_eq_some_iff.mp h
  rw [runUdp, handleAll_length, List.length_map] at hi
  exact ⟨_, _, List.getElem?_eq_getElem hi⟩

theorem readMsg_of_accepted {a : MsgType × TlvMsg} (h : datagrams[i]? = some (moment, bytes))
    (hout : (enabled.runUdp datagrams).1[i]? = some out) (hacc : out.accepted = some a) :
    readMsg (recvFrom bytes) = some a := by
  obtain ⟨out', lastSeq', hout', -, hhandles⟩ := handles_at h
  cases hout.symm.trans hout'
  exact (hhandles.of_accepted hacc).1

theorem Retransmission.ignored {a : MsgType × TlvMsg} (h : Retransmission datagrams j bytes a) :
    (enabled.runUdp datagrams).1[j]? = some .ignored := by
  obtain ⟨⟨moment, hj⟩, ⟨i, hij, moment', first, hi, hfirst, hacc, -⟩, hlast⟩ := h
  obtain ⟨mt, msg⟩ := a
  have hread := readMsg_of_accepted hi hfirst hacc
  obtain ⟨out, lastSeq', hout, -, hhandles⟩ := handles_at hj
  have hremembers : Remembers (enabled.before datagrams j).2
    (accepted (enabled.before datagrams j).1) := runUdp_remembers _
  have hnot : enabled.accepts mt msg.seq (enabled.before datagrams j).2[msg.episodeId]? = false :=
    hremembers.accepts_last hlast
  rw [hout, (hhandles.of_rejected hread hnot).1]

theorem reported_of_answered {tlv : TlvMsg} {a : MsgType × TlvMsg} {received : ℕ → Option Bytes}
    {attempt : ℕ} (h : Retransmission datagrams j tlv.encode a) (hattempt : attempt < 3)
    (hreceived : received attempt = some (ackFor a.1 a.2).encode) :
    (Client.sendWithAck tlv (decide (a.1 = .close)) true received).2 = true := by
  obtain ⟨-, ⟨i, -, moment, first, hi, hfirst, hacc, -⟩, -⟩ := h
  have hread := readMsg_of_accepted hi hfirst hacc
  obtain ⟨-, hep, hseq⟩ := TlvMsg.of_decode_take (by decide) (of_readMsg hread).1
  refine Client.sendWithAck_true.mpr ⟨attempt, hattempt, ?_⟩
  rw [hreceived]
  exact Client.acknowledges_ackFor hep hseq

theorem recovers_of
    (hanswered : ∀ j bytes a, Retransmission datagrams j bytes a →
      ∃ out, (enabled.runUdp datagrams).1[j]? = some out ∧
        out.reply = some (ackFor a.1 a.2).encode ∧ out.delivered = none)
    (hunrecorded : ∀ i out mt msg, (enabled.runUdp datagrams).1[i]? = some out →
      out.accepted = some (mt, msg) → mt ≠ .checkpoint → out.delivered = none →
        (enabled.before datagrams (i + 1)).2[msg.episodeId]? =
          (enabled.before datagrams i).2[msg.episodeId]?) : Recovers datagrams := by
  refine ⟨hanswered, ?_, hunrecorded⟩
  rintro tlv j a received attempt hre hattempt ⟨out, hout, hreceived⟩
  obtain ⟨out', hout', hreply, -⟩ := hanswered j _ a hre
  cases hout.symm.trans hout'
  exact reported_of_answered hre hattempt (hreceived.trans hreply)

theorem recovers_iff_undisturbed : Recovers datagrams ↔ Undisturbed datagrams := by
  constructor
  · intro h
    constructor
    · intro j bytes a hre
      obtain ⟨out, hout, hreply, -⟩ := h.answered j bytes a hre
      cases hout.symm.trans hre.ignored
      -- a repeated frame is rejected, and a rejected frame gets no reply
      cases hreply
    · intro i moment bytes mt msg hi hread hmt hacc
      by_contra hclosed
      obtain ⟨out, lastSeq', hout, hnext, hhandles⟩ := handles_at hi
      cases hhandles with
      | unread hnone => cases hread.symm.trans hnone
      | rejected hread' hnot =>
        cases hread.symm.trans hread'
        cases hacc.symm.trans hnot
      | checkpoint hread' =>
        cases hread.symm.trans hread'
        exact hmt rfl
      | forwarded _ _ _ _ hopen | closed _ _ hopen => exact hclosed hopen
      | failed hread' =>
        cases hread.symm.trans hread'
        -- the table has the number, although the engine never got the message
        have hsame := h.unrecorded i _ mt msg hout rfl hmt rfl
        rw [hnext, ExtTreeMap.getElem?_insert_self] at hsame
        rw [← hsame, accepts_self] at hacc
        cases hacc
  · intro h
    refine recovers_of (fun j bytes a hre => absurd hre (h.once j bytes a)) ?_
    intro i out mt msg hout hacc hmt hdelivered
    obtain ⟨moment, bytes, hi⟩ := arrival_of_handled hout
    obtain ⟨out', lastSeq', hout', hnext, hhandles⟩ := handles_at hi
    cases hout.symm.trans hout'
    cases hhandles with
    | unread | rejected => cases hacc
    | checkpoint =>
      cases hacc
      exact absurd rfl hmt
    | forwarded | closed => cases hdelivered
    | failed hread haccepts hmt' hclosed =>
      have hopen := h.listening i moment bytes _ _ hi hread hmt' haccepts
      cases hclosed.symm.trans hopen

end OffchainRouter
end Kdapp.Lottery

namespace Kdapp.Lottery.OffchainRouter
open Borsh InOrder
open Merchant (Moment)
attribute [local instance] idealCrypto

def opening : TlvMsg := (Client.sendTlvNew 5 0 (.newEpisode 5 [])).get rfl

def thrice : List (Moment × Bytes) := List.replicate 3 (⟨9, true⟩, opening.encode)

def unheard : List (Moment × Bytes) := [(⟨9, false⟩, opening.encode)]

theorem runUdp_thrice : (enabled.runUdp thrice).1 =
    [⟨some (.new, opening), some (Merchant.syntheticBlock 0 9 opening.payload),
      some (ackFor .new opening).encode⟩, .ignored, .ignored] := by
  decide +kernel

/-- The ack of the first frame is lost, and the client never gets another. After a failure to
forward the frame is recorded all the same. -/
theorem retransmission_unanswered : ¬ Recovers thrice ∧ ¬ Recovers unheard := by
  constructor
  · intro h
    have hre : Retransmission thrice 2 opening.encode (.new, opening) := by
      have hfirst := congrArg (fun handled => handled[0]?) runUdp_thrice
      have hlast : lastAccepted thrice 2 5 = some (.new, opening) := by decide +kernel
      exact ⟨⟨_, rfl⟩, ⟨0, by decide, _, _, rfl, hfirst, rfl, .inr (Option.some_ne_none _)⟩, hlast⟩
    have hsecond := congrArg (fun handled => handled[2]?) runUdp_thrice
    have hclient := h.reported opening 2 (.new, opening) (fun _ => none) 2 hre (by decide)
      ⟨.ignored, hsecond, rfl⟩
    cases hclient
  · intro h
    have hout : (enabled.runUdp unheard).1[0]? = some ⟨some (.new, opening), none, none⟩ := by
      decide +kernel
    have hsame := h.unrecorded 0 _ .new opening hout rfl (by decide) rfl
    revert hsame
    decide +kernel

end Kdapp.Lottery.OffchainRouter
