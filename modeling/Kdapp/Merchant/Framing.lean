import Kdapp.Merchant.Router

/-! Frames cut out of a TCP stream, and the two routers compared on the same frames. -/

namespace Kdapp.Merchant
open Borsh

theorem getD_header {stream : Bytes} (h : 52 ≤ stream.length) :
    [(stream.take 52).getD 50 0, (stream.take 52).getD 51 0] = slice stream 50 52 := by
  have hfirst : (stream.take 52).getD 50 0 = stream[50] := by
    rw [List.getD_eq_getElem?_getD, List.getElem?_take_of_lt (by omega),
      List.getElem?_eq_getElem (by omega), Option.getD_some]
  have hsecond : (stream.take 52).getD 51 0 = stream[51] := by
    rw [List.getD_eq_getElem?_getD, List.getElem?_take_of_lt (by omega),
      List.getElem?_eq_getElem (by omega), Option.getD_some]
  rw [hfirst, hsecond, slice, List.drop_eq_getElem_cons (by omega),
    List.drop_eq_getElem_cons (show 50 + 1 < stream.length by omega)]
  rfl

theorem TcpRouter.readFrame_encode {msg : TlvMsg} (hlen : msg.payload.length < 2 ^ 16)
    (rest : Bytes) : readFrame (msg.encode ++ rest) = some (msg.encode, rest) := by
  have hlength : (msg.encode ++ rest).length = msg.payload.length + 84 + rest.length := by
    rw [List.length_append, TlvMsg.encode_length]
  have hheader : ofLeBytes [((msg.encode ++ rest).take 52).getD 50 0,
      ((msg.encode ++ rest).take 52).getD 51 0] = msg.payload.length := by
    rw [getD_header (by omega), TlvMsg.payloadLen_eq msg rest hlen]
  have hencode : 52 + (msg.payload.length + 32) = msg.encode.length := by
    rw [TlvMsg.encode_length]
    omega
  unfold readFrame
  rw [if_neg (by omega)]
  dsimp only
  rw [hheader, if_neg (by rw [List.length_drop]; omega), List.drop_drop, hencode, List.drop_left,
    ← List.take_add, hencode, List.take_left]

namespace TcpRouter

def frames (moments : ℕ → Moment) (stream : Bytes) : List (Moment × Bytes) :=
  match h : readFrame stream with
  | none => []
  | some (frame, rest) => (moments 0, frame) :: frames (fun i => moments (i + 1)) rest
termination_by stream.length
decreasing_by exact readFrame_length h

theorem frames_none {moments : ℕ → Moment} {stream : Bytes} (h : readFrame stream = none) :
    frames moments stream = [] := by
  rw [frames]
  split
  · rfl
  · rename_i hread
    rw [h] at hread
    cases hread

theorem frames_some {moments : ℕ → Moment} {stream frame rest : Bytes}
    (h : readFrame stream = some (frame, rest)) :
    frames moments stream = (moments 0, frame) :: frames (fun i => moments (i + 1)) rest := by
  rw [frames]
  split
  · rename_i hread
    rw [h] at hread
    cases hread
  · rename_i hread
    rw [h] at hread
    cases hread
    rfl

theorem frames_encode {msgs : List TlvMsg} (hlen : ∀ msg ∈ msgs, msg.payload.length < 2 ^ 16)
    (moments : ℕ → Moment) : frames moments (msgs.map TlvMsg.encode).flatten =
      (msgs.map TlvMsg.encode).mapIdx fun i frame => (moments i, frame) := by
  induction msgs generalizing moments with
  | nil => exact frames_none rfl
  | cons msg msgs ih =>
    have hmsg := List.forall_mem_cons.mp hlen
    rw [List.map_cons, List.flatten_cons, frames_some (readFrame_encode hmsg.1 _), ih hmsg.2,
      List.mapIdx_cons]

variable [Blake2b]

theorem handleStream_eq (moments : ℕ → Moment) (lastSeq : LastSeq) (stream : Bytes) :
    handleStream moments lastSeq stream = handleAll lastSeq (frames moments stream) := by
  fun_induction handleStream moments lastSeq stream with
  | case1 moments lastSeq stream h => rw [frames_none h, handleAll]
  | case2 moments lastSeq stream frame rest h first others ih =>
    rw [frames_some h, handleAll]
    rw [← ih]

def received (connections : List ((ℕ → Moment) × Bytes)) : List (Moment × Bytes) :=
  connections.flatMap fun connection => frames connection.1 connection.2

theorem run_eq (lastSeq : LastSeq) (connections : List ((ℕ → Moment) × Bytes)) :
    run lastSeq connections = handleAll lastSeq (received connections) := by
  induction connections generalizing lastSeq with
  | nil => rfl
  | cons connection connections ih =>
    obtain ⟨moments, stream⟩ := connection
    rw [run, received, List.flatMap_cons, handleAll_append, ← handleStream_eq, ih]
    rfl

end TcpRouter

def untimed : EngineMsg → EngineMsg
  | .blkAccepted blk => .blkAccepted { blk with acceptingTime := 0 }
  | msg => msg

def Handled.untimed (out : Handled) : Handled :=
  { out with delivered := out.delivered.map Merchant.untimed }

theorem UdpRouter.received_encode {msgs : List TlvMsg}
    (hlen : ∀ msg ∈ msgs, msg.payload.length < 65424) (moments : ℕ → Moment) :
    received (msgs.mapIdx fun i msg => (moments i, msg.encode)) =
      (msgs.map TlvMsg.encode).mapIdx fun i frame => (moments i, frame) := by
  apply List.ext_getElem?
  intro i
  rw [received, List.getElem?_map, List.getElem?_mapIdx, List.getElem?_mapIdx, List.getElem?_map]
  cases hmsg : msgs[i]? with
  | none => rfl
  | some msg =>
    have hwhole : recvFrom msg.encode = msg.encode := by
      have hshort := hlen msg (List.mem_of_getElem? hmsg)
      apply List.take_of_length_le
      rw [TlvMsg.encode_length]
      omega
    simp only [Option.map_some, hwhole]

variable [Blake2b]

theorem handle_untimed (clock clock' : UInt64) (channelOpen : Bool) (lastSeq : LastSeq)
    (bytes : Bytes) :
    (handle ⟨clock, channelOpen⟩ lastSeq bytes).1.untimed =
        (handle ⟨clock', channelOpen⟩ lastSeq bytes).1.untimed ∧
      (handle ⟨clock, channelOpen⟩ lastSeq bytes).2 =
        (handle ⟨clock', channelOpen⟩ lastSeq bytes).2 := by
  unfold handle
  cases authenticate bytes with
  | none => exact ⟨rfl, rfl⟩
  | some p =>
    obtain ⟨mt, msg⟩ := p
    dsimp only
    cases sequencing mt msg.seq lastSeq[msg.episodeId]? with
    | reject | resend => exact ⟨rfl, rfl⟩
    | accept =>
      refine ⟨?_, rfl⟩
      by_cases hmt : mt = .checkpoint
      · simp only [hmt, if_true]
      -- the clock goes nowhere but into the block that is sent
      · cases channelOpen <;> simp only [Handled.untimed, if_neg hmt] <;> rfl

theorem handleAll_untimed (clock clock' : ℕ → UInt64) (channelOpen : ℕ → Bool) (lastSeq : LastSeq)
    (frames : List Bytes) :
    (handleAll lastSeq (frames.mapIdx fun i f => (⟨clock i, channelOpen i⟩, f))).1.map
        Handled.untimed =
      (handleAll lastSeq (frames.mapIdx fun i f => (⟨clock' i, channelOpen i⟩, f))).1.map
        Handled.untimed ∧
    (handleAll lastSeq (frames.mapIdx fun i f => (⟨clock i, channelOpen i⟩, f))).2 =
      (handleAll lastSeq (frames.mapIdx fun i f => (⟨clock' i, channelOpen i⟩, f))).2 := by
  induction frames generalizing clock clock' channelOpen lastSeq with
  | nil => exact ⟨rfl, rfl⟩
  | cons frame frames ih =>
    obtain ⟨hfirst, htable⟩ := handle_untimed (clock 0) (clock' 0) (channelOpen 0) lastSeq frame
    obtain ⟨hrest, hfinal⟩ := ih (fun i => clock (i + 1)) (fun i => clock' (i + 1))
      (fun i => channelOpen (i + 1)) (handle ⟨clock 0, channelOpen 0⟩ lastSeq frame).2
    simp only [List.mapIdx_cons, handleAll, List.map_cons]
    rw [hfirst, ← htable]
    exact ⟨congrArg _ hrest, hfinal⟩

/-- On the frames of one stream the routers forward and answer the same. -/
theorem tcp_as_udp (msgs : List TlvMsg) (hlen : ∀ msg ∈ msgs, msg.payload.length < 65424)
    (lastSeq : LastSeq) (clock clock' : ℕ → UInt64) (channelOpen : ℕ → Bool) :
    (TcpRouter.handleStream (fun i => ⟨clock i, channelOpen i⟩) lastSeq
        (msgs.map TlvMsg.encode).flatten).1.map Handled.untimed =
      (UdpRouter.run lastSeq (msgs.mapIdx fun i msg =>
        (⟨clock' i, channelOpen i⟩, msg.encode))).1.map Handled.untimed ∧
    (TcpRouter.handleStream (fun i => ⟨clock i, channelOpen i⟩) lastSeq
        (msgs.map TlvMsg.encode).flatten).2 =
      (UdpRouter.run lastSeq (msgs.mapIdx fun i msg =>
        (⟨clock' i, channelOpen i⟩, msg.encode))).2 := by
  have hshort : ∀ msg ∈ msgs, msg.payload.length < 2 ^ 16 :=
    fun msg hmsg => (hlen msg hmsg).trans (by decide)
  rw [TcpRouter.handleStream_eq, TcpRouter.frames_encode hshort, UdpRouter.run,
    UdpRouter.received_encode hlen fun i => ⟨clock' i, channelOpen i⟩]
  exact handleAll_untimed clock clock' channelOpen lastSeq _

end Kdapp.Merchant

namespace Kdapp.Merchant
open Borsh
open Std (ExtTreeMap)
attribute [local instance] idealBlake2b

def mixed : List TlvMsg :=
  [⟨7, 0, 5, 0, Hash.default, [1, 2], Hash.default⟩, ⟨1, 0, 5, 0, Hash.default, [1], Hash.default⟩,
   ⟨1, 9, 5, 0, Hash.default, [], Hash.default⟩, tlvOf .new 5 0 [1], tlvOf .cmd 5 1 [2],
   tlvOf .close 5 2 []]

/-- The good ones are accepted and acknowledged on both ways. -/
theorem tcp_as_udp_mixed :
    (UdpRouter.run ∅ (mixed.mapIdx fun _ msg => (⟨77, true⟩, msg.encode))).1.map
        (fun out => (out.accepted.isSome, out.reply.isSome)) =
      [(false, false), (false, false), (false, false), (true, true), (true, true), (true, true)] ∧
    (TcpRouter.handleStream (fun i => ⟨UInt64.ofNat i, true⟩) ∅
        (mixed.map TlvMsg.encode).flatten).1.map Handled.untimed =
      (UdpRouter.run ∅ (mixed.mapIdx fun _ msg =>
        (⟨77, true⟩, msg.encode))).1.map Handled.untimed :=
  ⟨by decide +kernel,
    (tcp_as_udp mixed (by decide) ∅ UInt64.ofNat (fun _ => 77) fun _ => true).1⟩

end Kdapp.Merchant
