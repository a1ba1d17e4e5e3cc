import Kdapp.Engine
import Kdapp.Library.InOrder
import Kdapp.Library.Outcome
import Kdapp.Merchant.Tlv

/-! The routers that take TLV messages off chain and pass their payloads to the engine
(`kdapp-merchant/src/udp_router.rs`, `tcp_router.rs`). -/

namespace Kdapp.Merchant
open Borsh InOrder
open Std (ExtTreeMap LawfulEqOrd)

/-- What a router finds when it handles a frame: the wall clock in seconds, and whether the
engine still holds the other end of the channel. -/
structure Moment where
  now : UInt64
  channelOpen : Bool

/-- `EngineChannel::send`: what arrives. -/
def Moment.send (moment : Moment) (msg : EngineMsg) : Option EngineMsg :=
  if moment.channelOpen then some msg else none

/-- `Hash::default()` -/
def Hash.default : Hash := Hash.filled 0

def syntheticBlock (daa now : UInt64) (payload : Bytes) : EngineMsg :=
  .blkAccepted {
    acceptingHash := Hash.default
    acceptingDaa := daa
    acceptingTime := now
    associatedTxs := [(Hash.default, payload, none)] }

structure AckState where
  seq : UInt64
  ack : Bytes

abbrev LastSeq := ExtTreeMap UInt64 AckState

/-- What becomes of a frame: the message it was accepted as, what reached the engine, and what
went back to its sender. -/
structure Handled where
  accepted : Option (MsgType × TlvMsg)
  delivered : Option EngineMsg
  reply : Option Bytes

def Handled.ignored : Handled := ⟨none, none, none⟩

inductive Sequencing where
  | accept
  | resend (ack : Bytes)
  | reject
deriving DecidableEq

def sequencing (mt : MsgType) (seq : UInt64) (entry : Option AckState) : Sequencing :=
  match mt with
  | .new =>
    match entry with
    | none => if seq = 0 then .accept else .reject
    | some info => if seq = info.seq then .resend info.ack else .reject
  | .cmd | .close | .checkpoint =>
    match entry with
    | some info =>
      if seq = info.seq + 1 then .accept
      else if seq = info.seq then .resend info.ack
      else .reject
    | none => .reject
  | .ack | .ackClose => .reject

variable [Blake2b]

def ackFor (mt : MsgType) (msg : TlvMsg) : TlvMsg :=
  let ack : TlvMsg := {
    version := tlvVersion
    msgType := (if mt = .close then MsgType.ackClose else MsgType.ack).toU8
    episodeId := msg.episodeId
    seq := msg.seq
    stateHash := msg.stateHash
    payload := []
    auth := Hash.default }
  ack.sign demoHmacKey

def tlvOf (mt : MsgType) (ep seq : UInt64) (payload : Bytes) : TlvMsg :=
  let msg : TlvMsg := {
    version := tlvVersion
    msgType := mt.toU8
    episodeId := ep
    seq := seq
    stateHash := Hash.default
    payload := payload
    auth := Hash.default }
  msg.sign demoHmacKey

def authenticate (bytes : Bytes) : Option (MsgType × TlvMsg) :=
  match TlvMsg.decode bytes with
  | none => none
  | some msg =>
    if msg.version ≠ tlvVersion then none
    else
      match MsgType.fromU8 msg.msgType with
      | none => none
      | some mt => if msg.verify demoHmacKey then some (mt, msg) else none

/-- One turn of the receive loop, which is the same in both routers. -/
def handle (moment : Moment) (lastSeq : LastSeq) (bytes : Bytes) : Handled × LastSeq :=
  match authenticate bytes with
  | none => (.ignored, lastSeq)
  | some (mt, msg) =>
    match sequencing mt msg.seq lastSeq[msg.episodeId]? with
    | .reject => (.ignored, lastSeq)
    | .resend ack => (⟨none, none, some ack⟩, lastSeq)
    | .accept =>
      let delivered :=
        if mt = .checkpoint then none
        else moment.send (syntheticBlock msg.seq moment.now msg.payload)
      -- the ack goes out, and the table moves on, whether or not the engine got the payload
      let ack := (ackFor mt msg).encode
      (⟨some (mt, msg), delivered, some ack⟩, lastSeq.insert msg.episodeId ⟨msg.seq, ack⟩)

def handleAll : LastSeq → List (Moment × Bytes) → List Handled × LastSeq
  | lastSeq, [] => ([], lastSeq)
  | lastSeq, (moment, bytes) :: rest =>
    let first := handle moment lastSeq bytes
    let others := handleAll first.2 rest
    (first.1 :: others.1, others.2)

namespace UdpRouter

/-- `recv_from` cuts a datagram to the size of the buffer. -/
def recvFrom (datagram : Bytes) : Bytes := datagram.take (64 * 1024)

def received (datagrams : List (Moment × Bytes)) : List (Moment × Bytes) :=
  datagrams.map fun d => (d.1, recvFrom d.2)

def run (lastSeq : LastSeq) (datagrams : List (Moment × Bytes)) : List Handled × LastSeq :=
  handleAll lastSeq (received datagrams)

end UdpRouter

namespace TcpRouter

/-- The two `read_exact` of the loop: the bytes of a frame and the rest of the stream. -/
def readFrame (stream : Bytes) : Option (Bytes × Bytes) :=
  if stream.length < 52 then none
  else
    let header := stream.take 52
    let payloadLen := ofLeBytes [header.getD 50 0, header.getD 51 0]
    let stream := stream.drop 52
    if stream.length < payloadLen + 32 then none
    else some (header ++ stream.take (payloadLen + 32), stream.drop (payloadLen + 32))

omit [Blake2b] in
theorem readFrame_length {stream frame rest : Bytes} (h : readFrame stream = some (frame, rest)) :
    rest.length < stream.length := by
  unfold readFrame at h
  split at h
  · cases h
  dsimp only at h
  split at h
  · cases h
  cases h
  simp only [List.length_drop]
  omega

/-- `moments` gives the moment of each frame of the connection. -/
def handleStream (moments : ℕ → Moment) (lastSeq : LastSeq) (stream : Bytes) :
    List Handled × LastSeq :=
  match h : readFrame stream with
  | none => ([], lastSeq)
  | some (frame, rest) =>
    let first := handle (moments 0) lastSeq frame
    let others := handleStream (fun i => moments (i + 1)) first.2 rest
    (first.1 :: others.1, others.2)
termination_by stream.length
decreasing_by exact readFrame_length h

def run : LastSeq → List ((ℕ → Moment) × Bytes) → List Handled × LastSeq
  | lastSeq, [] => ([], lastSeq)
  | lastSeq, (moments, stream) :: rest =>
    let first := handleStream moments lastSeq stream
    let others := run first.2 rest
    (first.1 ++ others.1, others.2)

end TcpRouter

inductive Handles (moment : Moment) (lastSeq : LastSeq) (bytes : Bytes) :
    Handled → LastSeq → Prop
  | forged (h : authenticate bytes = none) : Handles moment lastSeq bytes .ignored lastSeq
  | ackType {mt msg} (h : authenticate bytes = some (mt, msg)) (hmt : mt = .ack ∨ mt = .ackClose) :
    Handles moment lastSeq bytes .ignored lastSeq
  | unopened {mt msg} (h : authenticate bytes = some (mt, msg))
    (hentry : lastSeq[msg.episodeId]? = none) (hnot : ¬ (mt = .new ∧ msg.seq = 0)) :
    Handles moment lastSeq bytes .ignored lastSeq
  | outOfOrder {mt msg info} (h : authenticate bytes = some (mt, msg))
    (hentry : lastSeq[msg.episodeId]? = some info) (hseq : msg.seq ≠ info.seq)
    (hnext : mt = .new ∨ msg.seq ≠ info.seq + 1) :
    Handles moment lastSeq bytes .ignored lastSeq
  | repeated {mt msg info} (h : authenticate bytes = some (mt, msg))
    (hentry : lastSeq[msg.episodeId]? = some info) (hseq : msg.seq = info.seq)
    (hmt : mt ≠ .ack ∧ mt ≠ .ackClose) :
    Handles moment lastSeq bytes ⟨none, none, some info.ack⟩ lastSeq
  | accepted {mt msg} (h : authenticate bytes = some (mt, msg)) (hmt : mt ≠ .ack ∧ mt ≠ .ackClose)
    (hnext : mt = .new ∧ lastSeq[msg.episodeId]? = none ∧ msg.seq = 0 ∨
      mt ≠ .new ∧ ∃ info, lastSeq[msg.episodeId]? = some info ∧ msg.seq = info.seq + 1) :
    Handles moment lastSeq bytes
      ⟨some (mt, msg), if mt = .checkpoint then none
        else moment.send (syntheticBlock msg.seq moment.now msg.payload),
        some (ackFor mt msg).encode⟩
      (lastSeq.insert msg.episodeId ⟨msg.seq, (ackFor mt msg).encode⟩)

section Sequencing
variable {mt : MsgType} {seq : UInt64} {entry : Option AckState}

omit [Blake2b] in
theorem sequencing_accept (h : sequencing mt seq entry = .accept) :
    (mt ≠ .ack ∧ mt ≠ .ackClose) ∧ (mt = .new ∧ entry = none ∧ seq = 0 ∨
      mt ≠ .new ∧ ∃ info, entry = some info ∧ seq = info.seq + 1) := by
  unfold sequencing at h
  cases mt with
  | new =>
    refine ⟨by decide, .inl ⟨rfl, ?_⟩⟩
    cases entry with
    | none =>
      dsimp only at h
      split at h
      · exact ⟨rfl, ‹_›⟩
      · cases h
    | some info =>
      dsimp only at h
      split at h <;> cases h
  | cmd | close | checkpoint =>
    refine ⟨by decide, .inr ⟨by decide, ?_⟩⟩
    cases entry with
    | none => cases h
    | some info =>
      dsimp only at h
      split at h
      · exact ⟨info, rfl, ‹_›⟩
      · split at h <;> cases h
  | ack | ackClose => cases h

omit [Blake2b] in
theorem sequencing_resend {ack : Bytes} (h : sequencing mt seq entry = .resend ack) :
    (mt ≠ .ack ∧ mt ≠ .ackClose) ∧ ∃ info, entry = some info ∧ seq = info.seq ∧ ack = info.ack := by
  unfold sequencing at h
  cases mt with
  | new =>
    refine ⟨by decide, ?_⟩
    cases entry with
    | none =>
      dsimp only at h
      split at h <;> cases h
    | some info =>
      dsimp only at h
      split at h
      · cases h
        exact ⟨info, rfl, ‹_›, rfl⟩
      · cases h
  | cmd | close | checkpoint =>
    refine ⟨by decide, ?_⟩
    cases entry with
    | none => cases h
    | some info =>
      dsimp only at h
      split at h
      · cases h
      split at h
      · cases h
        exact ⟨info, rfl, ‹_›, rfl⟩
      · cases h
  | ack | ackClose => cases h

omit [Blake2b] in
theorem sequencing_reject (h : sequencing mt seq entry = .reject) :
    (mt = .ack ∨ mt = .ackClose) ∨ (entry = none ∧ ¬ (mt = .new ∧ seq = 0)) ∨
      ∃ info, entry = some info ∧ seq ≠ info.seq ∧ (mt = .new ∨ seq ≠ info.seq + 1) := by
  unfold sequencing at h
  cases mt with
  | new =>
    cases entry with
    | none =>
      dsimp only at h
      split at h
      · cases h
      · exact .inr (.inl ⟨rfl, fun hnew => absurd hnew.2 ‹_›⟩)
    | some info =>
      dsimp only at h
      split at h
      · cases h
      · exact .inr (.inr ⟨info, rfl, ‹_›, .inl rfl⟩)
  | cmd | close | checkpoint =>
    cases entry with
    | none => exact .inr (.inl ⟨rfl, fun hnew => by cases hnew.1⟩)
    | some info =>
      dsimp only at h
      split at h
      · cases h
      split at h
      · cases h
      · exact .inr (.inr ⟨info, rfl, ‹_›, .inr ‹_›⟩)
  | ack => exact .inl (.inl rfl)
  | ackClose => exact .inl (.inr rfl)

omit [Blake2b] in
theorem sequencing_of_next (hmt : mt ≠ .ack ∧ mt ≠ .ackClose)
    (hnext : mt = .new ∧ entry = none ∧ seq = 0 ∨
      mt ≠ .new ∧ ∃ info, entry = some info ∧ seq = info.seq + 1) :
    sequencing mt seq entry = .accept := by
  rcases hnext with ⟨rfl, rfl, rfl⟩ | ⟨hnew, info, rfl, rfl⟩
  · rfl
  · cases mt with
    | new => exact absurd rfl hnew
    | cmd | close | checkpoint => exact if_pos rfl
    | ack => exact absurd rfl hmt.1
    | ackClose => exact absurd rfl hmt.2

end Sequencing

theorem handles (moment : Moment) (lastSeq : LastSeq) (bytes : Bytes) :
    Handles moment lastSeq bytes (handle moment lastSeq bytes).1
      (handle moment lastSeq bytes).2 := by
  unfold handle
  cases hauth : authenticate bytes with
  | none => exact .forged hauth
  | some p =>
    obtain ⟨mt, msg⟩ := p
    dsimp only
    cases hs : sequencing mt msg.seq lastSeq[msg.episodeId]? with
    | accept =>
      obtain ⟨hmt, hnext⟩ := sequencing_accept hs
      exact .accepted hauth hmt hnext
    | resend ack =>
      obtain ⟨hmt, info, hentry, hseq, rfl⟩ := sequencing_resend hs
      exact .repeated hauth hentry hseq hmt
    | reject =>
      rcases sequencing_reject hs with hmt | ⟨hentry, hnot⟩ | ⟨info, hentry, hseq, hnext⟩
      · exact .ackType hauth hmt
      · exact .unopened hauth hentry hnot
      · exact .outOfOrder hauth hentry hseq hnext

section Run

def accepted (handled : List Handled) : List (MsgType × TlvMsg) := handled.filterMap (·.accepted)

def sender (a : MsgType × TlvMsg) : UInt64 := a.2.episodeId

def acceptedBy (ep : UInt64) (handled : List Handled) : List (MsgType × TlvMsg) :=
  sentBy sender ep (accepted handled)

/-- The table holds the last message of each episode, as its number and its ack. -/
def Tracks (lastSeq : LastSeq) (l : List (MsgType × TlvMsg)) : Prop :=
  ∀ ep : UInt64, lastSeq[ep]? = (sentBy sender ep l).getLast?.map
    fun a => ⟨a.2.seq, (ackFor a.1 a.2).encode⟩

/-- The messages of each episode are numbered from zero, and the first of them is a `New`. -/
def InSequence (l : List (MsgType × TlvMsg)) : Prop :=
  Ordered sender (fun a => a.2.seq) (fun a => a.1 = .new) UInt64.ofNat l

variable {moment : Moment} {lastSeq lastSeq' : LastSeq} {bytes : Bytes} {out : Handled}
  {l : List (MsgType × TlvMsg)}

theorem Tracks.init : Tracks ∅ [] := fun _ => ExtTreeMap.getElem?_empty

theorem Tracks.accept {mt : MsgType} {msg : TlvMsg} (h : Tracks lastSeq l) :
    Tracks (lastSeq.insert msg.episodeId ⟨msg.seq, (ackFor mt msg).encode⟩) (l ++ [(mt, msg)]) := by
  intro ep
  by_cases hep : msg.episodeId = ep
  · subst hep
    have hlast : (sentBy sender msg.episodeId (l ++ [(mt, msg)])).getLast? = some (mt, msg) :=
      getLast?_concat_self sender l (mt, msg)
    rw [ExtTreeMap.getElem?_insert_self, hlast, Option.map_some]
  · have hother : sentBy sender ep (l ++ [(mt, msg)]) = sentBy sender ep l :=
      sentBy_concat_of_ne sender l hep
    rw [FiniteMap.getElem?_insert_of_ne hep, h ep, hother]

theorem Handles.tracks (h : Handles moment lastSeq bytes out lastSeq') (ht : Tracks lastSeq l)
    (hl : InSequence l) : Tracks lastSeq' (l ++ out.accepted.toList) ∧
      InSequence (l ++ out.accepted.toList) := by
  cases h with
  | forged | ackType | unopened | outOfOrder | repeated =>
    rw [← List.append_nil l] at ht hl
    exact ⟨ht, hl⟩
  | @accepted mt msg hauth hmt hnext =>
    refine ⟨ht.accept, ?_⟩
    have hentry := ht msg.episodeId
    rcases hnext with ⟨rfl, hnone, hseq⟩ | ⟨hnew, info, hsome, hseq⟩
    · rw [hnone] at hentry
      exact Ordered.opened hl (Option.map_eq_none_iff.mp hentry.symm) hseq rfl
    · rw [hsome] at hentry
      obtain ⟨last, hlast, rfl⟩ := Option.map_eq_some_iff.mp hentry.symm
      have hsucc : ∀ i, UInt64.ofNat (i + 1) = UInt64.ofNat i + 1 := fun i => UInt64.ofNat_add i 1
      exact Ordered.next hl hlast (· + 1) hsucc hseq hnew

theorem handleAll_append (lastSeq : LastSeq) (arrivals others : List (Moment × Bytes)) :
    handleAll lastSeq (arrivals ++ others) =
      ((handleAll lastSeq arrivals).1 ++ (handleAll (handleAll lastSeq arrivals).2 others).1,
        (handleAll (handleAll lastSeq arrivals).2 others).2) := by
  induction arrivals generalizing lastSeq with
  | nil => rfl
  | cons arrival arrivals ih =>
    obtain ⟨moment, bytes⟩ := arrival
    simp only [List.cons_append, handleAll, ih]

theorem handleAll_length (lastSeq : LastSeq) (arrivals : List (Moment × Bytes)) :
    (handleAll lastSeq arrivals).1.length = arrivals.length := by
  induction arrivals generalizing lastSeq with
  | nil => rfl
  | cons arrival arrivals ih =>
    obtain ⟨moment, bytes⟩ := arrival
    simp only [handleAll, List.length_cons, ih]

theorem handleAll_tracks (arrivals : List (Moment × Bytes)) (ht : Tracks lastSeq l)
    (hl : InSequence l) :
    Tracks (handleAll lastSeq arrivals).2 (l ++ accepted (handleAll lastSeq arrivals).1) ∧
      InSequence (l ++ accepted (handleAll lastSeq arrivals).1) := by
  induction arrivals generalizing lastSeq l with
  | nil =>
    rw [handleAll, accepted, List.filterMap_nil, List.append_nil]
    exact ⟨ht, hl⟩
  | cons arrival arrivals ih =>
    obtain ⟨moment, bytes⟩ := arrival
    obtain ⟨ht', hl'⟩ := (handles moment lastSeq bytes).tracks ht hl
    have hrest := ih ht' hl'
    have hcons : accepted (handleAll lastSeq ((moment, bytes) :: arrivals)).1 =
        (handle moment lastSeq bytes).1.accepted.toList ++
          accepted (handleAll (handle moment lastSeq bytes).2 arrivals).1 := by
      rw [handleAll, accepted, List.filterMap_cons]
      cases (handle moment lastSeq bytes).1.accepted <;> rfl
    rw [hcons, ← List.append_assoc]
    exact hrest

theorem handleAll_getElem? {arrivals : List (Moment × Bytes)} {i : ℕ}
    (h : arrivals[i]? = some (moment, bytes)) :
    (handleAll ∅ arrivals).1[i]? = some (handle moment (handleAll ∅ (arrivals.take i)).2 bytes).1 ∧
      (handleAll ∅ arrivals).1.take i = (handleAll ∅ (arrivals.take i)).1 := by
  obtain ⟨hi, hget⟩ := List.getElem?_eq_some_iff.mp h
  have hsplit : arrivals = arrivals.take i ++ (moment, bytes) :: arrivals.drop (i + 1) := by
    rw [← hget, List.getElem_cons_drop, List.take_append_drop]
  have hlength : (handleAll ∅ (arrivals.take i)).1.length = i := by
    rw [handleAll_length, List.length_take, Nat.min_eq_left hi.le]
  have hrun := handleAll_append ∅ (arrivals.take i) ((moment, bytes) :: arrivals.drop (i + 1))
  rw [← hsplit] at hrun
  rw [hrun]
  constructor
  · rw [List.getElem?_append_right hlength.le, hlength, Nat.sub_self]
    rfl
  · exact List.take_left' hlength

end Run
end Kdapp.Merchant
