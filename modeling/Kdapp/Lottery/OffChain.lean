import Kdapp.Lottery
import Kdapp.Lottery.Tlv
import Kdapp.Merchant.Router

/-! The off-chain channel of the lottery: the router that passes the payloads of TLV messages to
the engine (`kas-draw/src/offchain.rs`) and the client that sends them
(`kas-draw/src/offchain_client.rs`). -/

namespace Kdapp.Lottery
open Borsh InOrder
open Merchant (Moment syntheticBlock)
open Std (ExtTreeMap)

/-- The switches of the router; its table and its channel are arguments. -/
structure OffchainRouter where
  ackEnabled : Bool
  closeEnabled : Bool

abbrev LastSeq := ExtTreeMap UInt64 UInt64

/-- What becomes of a frame: the message it was accepted as, what reached the engine, and what
went back to its sender. -/
structure Handled where
  accepted : Option (MsgType × TlvMsg)
  delivered : Option EngineMsg
  reply : Option Bytes
deriving DecidableEq

def Handled.ignored : Handled := ⟨none, none, none⟩

def readMsg (bytes : Bytes) : Option (MsgType × TlvMsg) :=
  match TlvMsg.decode bytes with
  | none => none
  | some msg =>
    if msg.version ≠ tlvVersion then none
    else (Merchant.MsgType.fromU8 msg.msgType).map fun mt => (mt, msg)

def ackFor (mt : MsgType) (msg : TlvMsg) : TlvMsg where
  version := tlvVersion
  msgType := (if mt = .close then Merchant.MsgType.ackClose else Merchant.MsgType.ack).toU8
  episodeId := msg.episodeId
  seq := msg.seq
  stateHash := msg.stateHash
  payload := []

section Payload
variable [Crypto]

/-- The command that a `Close` becomes: the id is cut to the width of the engine's. -/
def closeCommand (episodeId : UInt64) : EpisodeMessage LotteryEpisode :=
  .unsignedCommand episodeId.toUInt32 LotteryCommand.closeEpisode

def closePayload (episodeId : UInt64) : Bytes :=
  (EpisodeMessage.codec.serialize (closeCommand episodeId)).get rfl

/-- What is forwarded for a message; a checkpoint is for the watchers only. -/
def enginePayload (mt : MsgType) (msg : TlvMsg) : Bytes :=
  if mt = .close then closePayload msg.episodeId
  else if mt = .checkpoint then []
  else msg.payload

end Payload

namespace OffchainRouter

def accepts (self : OffchainRouter) (mt : MsgType) (seq : UInt64) (last : Option UInt64) : Bool :=
  match mt with
  | .new => decide (last = none ∧ seq = 0)
  | .cmd | .checkpoint =>
    match last with
    | some prev => decide (seq = prev + 1)
    | none => false
  | .close =>
    if self.closeEnabled = false then false
    else
      match last with
      | some prev => decide (seq = prev + 1)
      | none => false
  | .ack | .ackClose => false

/-- What follows once the engine has the message: the ack, and the end of a closed episode. -/
def finish (self : OffchainRouter) (mt : MsgType) (msg : TlvMsg) (delivered : Option EngineMsg)
    (lastSeq : LastSeq) : Handled × LastSeq :=
  (⟨some (mt, msg), delivered, if self.ackEnabled then some (ackFor mt msg).encode else none⟩,
    if mt = .close then lastSeq.erase msg.episodeId else lastSeq)

variable [Crypto]

/-- One turn of the receive loop of `run_udp`. -/
def handle (self : OffchainRouter) (moment : Moment) (lastSeq : LastSeq) (bytes : Bytes) :
    Handled × LastSeq :=
  match readMsg bytes with
  | none => (.ignored, lastSeq)
  | some (mt, msg) =>
    if self.accepts mt msg.seq lastSeq[msg.episodeId]? = false then (.ignored, lastSeq)
    else
      -- the table moves on before anything is forwarded
      let lastSeq := lastSeq.insert msg.episodeId msg.seq
      if mt = .checkpoint then self.finish mt msg none lastSeq
      else
        match moment.send (syntheticBlock msg.seq moment.now (enginePayload mt msg)) with
        | none => (⟨some (mt, msg), none, none⟩, lastSeq)
        | some event => self.finish mt msg (some event) lastSeq

def handleAll (self : OffchainRouter) : LastSeq → List (Moment × Bytes) → List Handled × LastSeq
  | lastSeq, [] => ([], lastSeq)
  | lastSeq, (moment, bytes) :: rest =>
    let first := self.handle moment lastSeq bytes
    let others := self.handleAll first.2 rest
    (first.1 :: others.1, others.2)

/-- `recv_from` cuts a datagram to the size of the buffer. -/
def recvFrom (datagram : Bytes) : Bytes := datagram.take (64 * 1024)

/-- `run_udp` on the datagrams that arrive, from an empty table. -/
def runUdp (self : OffchainRouter) (datagrams : List (Moment × Bytes)) :
    List Handled × LastSeq :=
  self.handleAll ∅ (datagrams.map fun d => (d.1, recvFrom d.2))

end OffchainRouter

namespace Client

/-- `auto_seq`, with the store it writes back. -/
def autoSeq (store : LastSeq) (episodeId : UInt64) (new : Bool) : UInt64 × LastSeq :=
  let next :=
    match store[episodeId]? with
    | some last => Saturating.add last 1
    | none => if new then 0 else 1
  (next, store.insert episodeId next)

def tlvOf (mt : MsgType) (episodeId seq : UInt64) (payload : Bytes) : TlvMsg where
  version := tlvVersion
  msgType := mt.toU8
  episodeId := episodeId
  seq := seq
  stateHash := Merchant.Hash.default
  payload := payload

section Send
variable [Crypto] (episodeId seq : UInt64) (msg : EpisodeMessage LotteryEpisode)

/-- `none` is the panic of `to_vec(..).unwrap()`. -/
def sendTlvCmd : Option TlvMsg :=
  (EpisodeMessage.codec.serialize msg).map fun payload => tlvOf .cmd episodeId seq payload

def sendTlvNew : Option TlvMsg :=
  (EpisodeMessage.codec.serialize msg).map fun payload => tlvOf .new episodeId seq payload

def sendTlvClose : TlvMsg := tlvOf .close episodeId seq []

end Send

def acknowledges (tlv : TlvMsg) (expectCloseAck : Bool) (received : Option Bytes) : Bool :=
  match received.bind fun bytes => TlvMsg.decode (bytes.take 1024) with
  | none => false
  | some ack =>
    let expectedType := if expectCloseAck then Merchant.MsgType.ackClose else Merchant.MsgType.ack
    decide (ack.msgType = expectedType.toU8 ∧ ack.episodeId = tlv.episodeId ∧ ack.seq = tlv.seq)

/-- The attempts that are left, from the one of number `attempt` on. -/
def attempts (tlv : TlvMsg) (expectCloseAck : Bool) (received : ℕ → Option Bytes) :
    ℕ → ℕ → ℕ × Bool
  | 0, attempt => (attempt, false)
  | left + 1, attempt =>
    if acknowledges tlv expectCloseAck (received attempt) then (attempt + 1, true)
    else attempts tlv expectCloseAck received left (attempt + 1)

/-- `send_with_ack`: the number of frames it sends and whether it reports an ack. `received` gives
what each attempt gets back. -/
def sendWithAck (tlv : TlvMsg) (expectCloseAck waitAck : Bool) (received : ℕ → Option Bytes) :
    ℕ × Bool :=
  if waitAck = false then (1, false) else attempts tlv expectCloseAck received 3 0

end Client

namespace OffchainRouter

section Accepts
variable {self : OffchainRouter} {mt : MsgType} {seq : UInt64} {last : Option UInt64}

theorem accepts_true (h : self.accepts mt seq last = true) :
    (mt = .new ∧ last = none ∧ seq = 0) ∨
      ((mt = .cmd ∨ mt = .checkpoint ∨ mt = .close ∧ self.closeEnabled = true) ∧
        ∃ prev, last = some prev ∧ seq = prev + 1) := by
  unfold accepts at h
  cases mt with
  | new => exact .inl ⟨rfl, of_decide_eq_true h⟩
  | cmd =>
    cases last with
    | none => cases h
    | some prev => exact .inr ⟨.inl rfl, prev, rfl, of_decide_eq_true h⟩
  | checkpoint =>
    cases last with
    | none => cases h
    | some prev => exact .inr ⟨.inr (.inl rfl), prev, rfl, of_decide_eq_true h⟩
  | close =>
    dsimp only at h
    split at h
    · cases h
    cases last with
    | none => cases h
    | some prev =>
      have hclose : self.closeEnabled = true := Bool.eq_true_of_not_eq_false ‹_›
      exact .inr ⟨.inr (.inr ⟨rfl, hclose⟩), prev, rfl, of_decide_eq_true h⟩
  | ack | ackClose => cases h

theorem accepts_next {prev : UInt64}
    (hmt : mt = .cmd ∨ mt = .checkpoint ∨ mt = .close ∧ self.closeEnabled = true) :
    self.accepts mt (prev + 1) (some prev) = true := by
  rcases hmt with rfl | rfl | ⟨rfl, hclose⟩
  · exact decide_eq_true rfl
  · exact decide_eq_true rfl
  · unfold accepts
    rw [hclose]
    exact decide_eq_true rfl

theorem accepts_self : self.accepts mt seq (some seq) = false := by
  rw [Bool.eq_false_iff]
  intro h
  rcases accepts_true h with ⟨-, hnone, -⟩ | ⟨-, prev, hprev, hseq⟩
  · cases hnone
  · -- no number is its own successor, not even the last one
    rw [← Option.some.inj hprev] at hseq
    have hn := congrArg UInt64.toNat hseq
    rw [UInt64.toNat_add] at hn
    have hlt := seq.toNat_lt
    have hone : (1 : UInt64).toNat = 1 := rfl
    omega

theorem accepts_none (hmt : mt ≠ .new) : self.accepts mt seq none = false := by
  rw [Bool.eq_false_iff]
  intro h
  rcases accepts_true h with ⟨hnew, -⟩ | ⟨-, prev, hprev, -⟩
  · exact hmt hnew
  · cases hprev

end Accepts

variable [Crypto]

inductive Handles (self : OffchainRouter) (moment : Moment) (lastSeq : LastSeq) (bytes : Bytes) :
    Handled → LastSeq → Prop
  | unread (h : readMsg bytes = none) : Handles self moment lastSeq bytes .ignored lastSeq
  | rejected {mt msg} (h : readMsg bytes = some (mt, msg))
    (hacc : self.accepts mt msg.seq lastSeq[msg.episodeId]? = false) :
    Handles self moment lastSeq bytes .ignored lastSeq
  | failed {mt msg} (h : readMsg bytes = some (mt, msg))
    (hacc : self.accepts mt msg.seq lastSeq[msg.episodeId]? = true) (hmt : mt ≠ .checkpoint)
    (hclosed : moment.channelOpen = false) :
    Handles self moment lastSeq bytes ⟨some (mt, msg), none, none⟩
      (lastSeq.insert msg.episodeId msg.seq)
  | checkpoint {msg} (h : readMsg bytes = some (.checkpoint, msg))
    (hacc : self.accepts .checkpoint msg.seq lastSeq[msg.episodeId]? = true) :
    Handles self moment lastSeq bytes
      ⟨some (.checkpoint, msg), none,
        if self.ackEnabled then some (ackFor .checkpoint msg).encode else none⟩
      (lastSeq.insert msg.episodeId msg.seq)
  | forwarded {mt msg} (h : readMsg bytes = some (mt, msg))
    (hacc : self.accepts mt msg.seq lastSeq[msg.episodeId]? = true) (hmt : mt ≠ .checkpoint)
    (hclose : mt ≠ .close) (hopen : moment.channelOpen = true) :
    Handles self moment lastSeq bytes
      ⟨some (mt, msg), some (syntheticBlock msg.seq moment.now (enginePayload mt msg)),
        if self.ackEnabled then some (ackFor mt msg).encode else none⟩
      (lastSeq.insert msg.episodeId msg.seq)
  | closed {msg} (h : readMsg bytes = some (.close, msg))
    (hacc : self.accepts .close msg.seq lastSeq[msg.episodeId]? = true)
    (hopen : moment.channelOpen = true) :
    Handles self moment lastSeq bytes
      ⟨some (.close, msg), some (syntheticBlock msg.seq moment.now (enginePayload .close msg)),
        if self.ackEnabled then some (ackFor .close msg).encode else none⟩
      ((lastSeq.insert msg.episodeId msg.seq).erase msg.episodeId)

theorem handles (self : OffchainRouter) (moment : Moment) (lastSeq : LastSeq) (bytes : Bytes) :
    Handles self moment lastSeq bytes (self.handle moment lastSeq bytes).1
      (self.handle moment lastSeq bytes).2 := by
  unfold handle
  cases hread : readMsg bytes with
  | none => exact .unread hread
  | some p =>
    obtain ⟨mt, msg⟩ := p
    dsimp only
    split
    · exact .rejected hread ‹_›
    have hacc : self.accepts mt msg.seq lastSeq[msg.episodeId]? = true :=
      Bool.eq_true_of_not_eq_false ‹_›
    split
    · rename_i hmt
      subst hmt
      exact .checkpoint hread hacc
    rename_i hmt
    unfold Moment.send
    cases hopen : moment.channelOpen with
    | false => exact .failed hread hacc hmt hopen
    | true =>
      by_cases hclose : mt = .close
      · subst hclose
        exact .closed hread hacc hopen
      · change Handles self moment lastSeq bytes _ (if mt = .close then _ else _)
        rw [if_neg hclose]
        exact .forwarded hread hacc hmt hclose hopen

section Run
variable (self : OffchainRouter) (lastSeq : LastSeq)

theorem handleAll_append (arrivals others : List (Moment × Bytes)) :
    self.handleAll lastSeq (arrivals ++ others) =
      ((self.handleAll lastSeq arrivals).1 ++
          (self.handleAll (self.handleAll lastSeq arrivals).2 others).1,
        (self.handleAll (self.handleAll lastSeq arrivals).2 others).2) := by
  induction arrivals generalizing lastSeq with
  | nil => rfl
  | cons arrival arrivals ih =>
    obtain ⟨moment, bytes⟩ := arrival
    simp only [List.cons_append, handleAll, ih]

theorem handleAll_length (arrivals : List (Moment × Bytes)) :
    (self.handleAll lastSeq arrivals).1.length = arrivals.length := by
  induction arrivals generalizing lastSeq with
  | nil => rfl
  | cons arrival arrivals ih =>
    obtain ⟨moment, bytes⟩ := arrival
    simp only [handleAll, List.length_cons, ih]

end Run

/-- The run before the `i`-th datagram. -/
def before (self : OffchainRouter) (datagrams : List (Moment × Bytes)) (i : ℕ) :
    List Handled × LastSeq :=
  self.runUdp (datagrams.take i)

theorem runUdp_getElem? {self : OffchainRouter} {datagrams : List (Moment × Bytes)} {i : ℕ}
    {moment : Moment} {bytes : Bytes} (h : datagrams[i]? = some (moment, bytes)) :
    (self.runUdp datagrams).1[i]? =
        some (self.handle moment (self.before datagrams i).2 (recvFrom bytes)).1 ∧
      (self.runUdp datagrams).1.take i = (self.before datagrams i).1 := by
  obtain ⟨hi, hget⟩ := List.getElem?_eq_some_iff.mp h
  have hsplit : datagrams = datagrams.take i ++ (moment, bytes) :: datagrams.drop (i + 1) := by
    rw [← hget, List.getElem_cons_drop, List.take_append_drop]
  have hlength : (self.before datagrams i).1.length = i := by
    rw [before, runUdp, handleAll_length, List.length_map, List.length_take, Nat.min_eq_left hi.le]
  have hrun : (self.runUdp datagrams).1 = (self.before datagrams i).1 ++
      (self.handle moment (self.before datagrams i).2 (recvFrom bytes)).1 ::
        (self.handleAll (self.handle moment (self.before datagrams i).2 (recvFrom bytes)).2
          ((datagrams.drop (i + 1)).map fun d => (d.1, recvFrom d.2))).1 := by
    conv_lhs => rw [hsplit]
    rw [runUdp, List.map_append, handleAll_append]
    rfl
  rw [hrun]
  constructor
  · rw [List.getElem?_append_right hlength.le, hlength, Nat.sub_self]
    rfl
  · exact List.take_left' hlength

end OffchainRouter
end Kdapp.Lottery
