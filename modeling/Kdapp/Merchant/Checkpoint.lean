import Kdapp.Engine
import Kdapp.Library.Transition
import Kdapp.Merchant.Payments
import Kdapp.Merchant.Tlv

/-! Checkpoints of the merchant's state: the event handler emits them
(`kdapp-merchant/src/handler.rs`), a sender repeats them until they are acknowledged
(`client_sender.rs`), and a watcher anchors them on chain (`watcher.rs`). -/

namespace Kdapp.Merchant
open Borsh
open Std (ExtTreeMap ExtTreeSet)

section Handler
variable [Crypto]

/-- `borsh::to_vec` of an episode; its maps and its set are written in order. -/
def ReceiptEpisode.toVec (g : ReceiptEpisode) : Option Bytes := do
  let merchantKeys ← PubKey.codec.vec.serialize g.merchantKeys
  let invoices ← (Codec.u64.pair Invoice.codec).vec.serialize g.invoices.toList
  let subscriptions ← (Codec.u64.pair Subscription.codec).vec.serialize g.subscriptions.toList
  let customers ← (PubKey.codec.pair CustomerInfo.codec).vec.serialize g.customers.toList
  let usedCarrierTxs ← Hash.codec.vec.serialize g.usedCarrierTxs.toList
  some (merchantKeys ++ invoices ++ subscriptions ++ customers ++ usedCarrierTxs)

variable [Blake2b]

def hashState (bytes : Bytes) : Hash :=
  ⟨(Blake2b.digest bytes).take 32, by
    rw [List.length_take, Blake2b.digest_length]
    rfl⟩

/-- The two process-wide maps of the handler, `SEQS` and `LAST_CKPT`. -/
structure MerchantEventHandler where
  seqs : ExtTreeMap EpisodeId UInt64
  lastCkpt : ExtTreeMap EpisodeId UInt64

def checkpointIntervalSecs : UInt64 := 60

def checkpointMsg (episodeId : EpisodeId) (seq : UInt64) (stateHash : Hash) : TlvMsg :=
  let msg : TlvMsg := {
    version := tlvVersion
    msgType := MsgType.checkpoint.toU8
    episodeId := episodeId.toUInt64
    seq := seq
    stateHash := stateHash
    payload := []
    auth := Hash.filled 0 }
  msg.sign demoHmacKey

namespace MerchantEventHandler

def should (self : MerchantEventHandler) (now : UInt64) (episodeId : EpisodeId) (force : Bool) :
    Bool :=
  force || match self.lastCkpt[episodeId]? with
    | none => true
    | some t => decide (Engine.saturatingSub now t ≥ checkpointIntervalSecs)

def emitCheckpoint (self : MerchantEventHandler) (now : UInt64) (episodeId : EpisodeId)
    (episode : ReceiptEpisode) (force : Bool) : MerchantEventHandler × Option TlvMsg :=
  if self.should now episodeId force then
    let self := { self with lastCkpt := self.lastCkpt.insert episodeId now }
    match episode.toVec with
    | none => (self, none)
    | some bytes =>
      let seq := self.seqs[episodeId]?.getD 0 + 1
      ({ self with seqs := self.seqs.insert episodeId seq },
        some (checkpointMsg episodeId seq (hashState bytes)))
  else (self, none)

def handle (self : MerchantEventHandler) (now : UInt64) :
    HandlerCall ReceiptEpisode → MerchantEventHandler × Option TlvMsg
  | .onInitialize episodeId episode =>
    { self with seqs := self.seqs.insert episodeId 0 }.emitCheckpoint now episodeId episode true
  | .onCommand episodeId episode (MerchantCommand.ackReceipt _) _ _ =>
    self.emitCheckpoint now episodeId episode true
  | .onCommand episodeId episode _ _ _ => self.emitCheckpoint now episodeId episode false
  | .onRollback _ _ => (self, none)

end MerchantEventHandler
end Handler

section Sender
variable [Blake2b]

/-- Whether what came back is the acknowledgement that the sender waits for. -/
def acknowledges (tlv : TlvMsg) (expected : UInt8) (reply : Option Bytes) : Bool :=
  match reply.bind fun bytes => TlvMsg.decode (bytes.take 1024) with
  | none => false
  | some ack => decide (ack.msgType = expected ∧ ack.episodeId = tlv.episodeId ∧
      ack.seq = tlv.seq) && ack.verify demoHmacKey

/-- The loop over the attempts that are left; `replies` is what is received after each. -/
def attempts (bytes : Bytes) (acked : Option Bytes → Bool) :
    ℕ → (ℕ → Option Bytes) → List Bytes
  | 0, _ => []
  | n + 1, replies =>
    bytes :: if acked (replies 0) then [] else attempts bytes acked n fun i => replies (i + 1)

/-- `send_with_retry`: the datagrams that go out. -/
def sendWithRetry (tlv : TlvMsg) (expectCloseAck : Bool) (replies : ℕ → Option Bytes) :
    List Bytes :=
  let tlv := tlv.sign demoHmacKey
  let expected := if expectCloseAck then MsgType.ackClose else MsgType.ack
  attempts tlv.encode (acknowledges tlv expected.toU8) 3 replies

structure Anchor where
  episodeId : UInt64
  seq : UInt64
  root : Hash
deriving DecidableEq

/-- One turn of `watcher::run`: what it submits for a datagram. -/
def Watcher.receive (datagram : Bytes) : Option Anchor :=
  match TlvMsg.decode (datagram.take 1024) with
  | none => none
  | some msg =>
    if msg.msgType ≠ MsgType.checkpoint.toU8 ∨ msg.verify demoHmacKey = false then none
    else some ⟨msg.episodeId, msg.seq, msg.stateHash⟩

end Sender

section Datagrams
variable [Blake2b]

omit [Blake2b] in
theorem mem_attempts {bytes b : Bytes} {acked : Option Bytes → Bool} {n : ℕ}
    {replies : ℕ → Option Bytes} (h : b ∈ attempts bytes acked n replies) : b = bytes := by
  induction n generalizing replies with
  | zero => cases h
  | succ n ih =>
    rw [attempts] at h
    rcases List.mem_cons.mp h with rfl | h
    · rfl
    · split at h
      · cases h
      · exact ih h

theorem receive_checkpoint {episodeId : EpisodeId} {seq : UInt64} {stateHash : Hash}
    {expectCloseAck : Bool} {replies : ℕ → Option Bytes} {b : Bytes}
    (h : b ∈ sendWithRetry (checkpointMsg episodeId seq stateHash) expectCloseAck replies) :
    Watcher.receive b = some ⟨episodeId.toUInt64, seq, stateHash⟩ := by
  let tlv := (checkpointMsg episodeId seq stateHash).sign demoHmacKey
  have hb : b = tlv.encode := mem_attempts h
  have hlength : tlv.encode.length ≤ 1024 := by
    rw [TlvMsg.encode_length]
    exact show 0 + 84 ≤ 1024 by decide
  have hdecode : TlvMsg.decode tlv.encode = some tlv := by
    have htype : MsgType.fromU8 tlv.msgType ≠ none :=
      show MsgType.fromU8 MsgType.checkpoint.toU8 ≠ none by decide
    have hd := TlvMsg.decode_encode rfl htype (show 0 < 2 ^ 16 by decide) []
    rwa [List.append_nil] at hd
  have hverify : tlv.verify demoHmacKey = true := TlvMsg.verify_sign _ demoHmacKey
  unfold Watcher.receive
  rw [hb, List.take_of_length_le hlength, hdecode]
  dsimp only
  rw [hverify]
  rfl

end Datagrams

namespace MerchantEventHandler
variable [Crypto] [Blake2b]

def Emits (self : MerchantEventHandler) (episodeId : EpisodeId)
    (out : MerchantEventHandler × Option TlvMsg) : Prop :=
  out.2 = none ∧ out.1.seqs = self.seqs ∨
    ∃ stateHash,
      out.2 = some (checkpointMsg episodeId (self.seqs[episodeId]?.getD 0 + 1) stateHash) ∧
      out.1.seqs = self.seqs.insert episodeId (self.seqs[episodeId]?.getD 0 + 1)

theorem emitCheckpoint_emits (self : MerchantEventHandler) (now : UInt64) (episodeId : EpisodeId)
    (episode : ReceiptEpisode) (force : Bool) :
    self.Emits episodeId (self.emitCheckpoint now episodeId episode force) := by
  unfold emitCheckpoint
  split
  · split
    · exact .inl ⟨rfl, rfl⟩
    · exact .inr ⟨_, rfl, rfl⟩
  · exact .inl ⟨rfl, rfl⟩

end MerchantEventHandler

namespace Checkpoint
open Transition
variable [Crypto] [Blake2b]

/-- The handler and what was sent to the watcher, which remembers nothing. The numbers tell the
copies of one checkpoint from those of another; no party sees them. -/
structure System where
  handler : MerchantEventHandler
  emitted : ℕ
  sent : List (ℕ × Bytes)

def System.new : System := ⟨⟨∅, ∅⟩, 0, []⟩

inductive Act where
  /-- A callback of the engine, with what the sender receives after each attempt. -/
  | callback (now : UInt64) (call : HandlerCall ReceiptEpisode) (replies : ℕ → Option Bytes)
  /-- A datagram arrives, perhaps not for the first time; its transaction may fail. -/
  | arrive (i : ℕ) (submitted : Bool)

def System.send (s : System) (replies : ℕ → Option Bytes) :
    MerchantEventHandler × Option TlvMsg → System
  | (handler, none) => { s with handler }
  | (handler, some tlv) => {
      handler
      emitted := s.emitted + 1
      sent := s.sent ++ (sendWithRetry tlv false replies).map fun bytes => (s.emitted, bytes) }

def step (s : System) : Act → Option (System × List (ℕ × Anchor))
  | .callback now call replies => some (s.send replies (s.handler.handle now call), [])
  | .arrive i submitted =>
    match s.sent[i]? with
    | none => none
    | some (n, datagram) =>
      match Watcher.receive datagram with
      | none => some (s, [])
      | some anchor => some (s, if submitted then [(n, anchor)] else [])

def seqsOf (episodeId : UInt64) (anchored : List (ℕ × Anchor)) : List UInt64 :=
  (anchored.filter fun p => p.2.episodeId = episodeId).map fun p => p.2.seq

def StrictlyIncreasing (anchored : List (ℕ × Anchor)) : Prop :=
  ∀ episodeId, (seqsOf episodeId anchored).Pairwise (· < ·)

/-- No episode is initialised twice, no counter runs over, and no datagram is anchored unless all
that was anchored for its episode are earlier checkpoints. -/
def Orderly (anchored : List (ℕ × Anchor)) (s : System) : Act → Prop
  | .callback _ (.onInitialize episodeId _) _ => s.handler.seqs[episodeId]? = none
  | .callback _ (.onCommand episodeId _ _ _ _) _ =>
    s.handler.seqs[episodeId]? ≠ some (UInt64.ofNat (2 ^ 64 - 1))
  | .callback _ (.onRollback _ _) _ => True
  | .arrive i submitted => submitted = true → ∀ p ∈ s.sent[i]?, ∀ anchor ∈ Watcher.receive p.2,
      ∀ q ∈ anchored, q.2.episodeId = anchor.episodeId → q.1 < p.1

instance (anchored : List (ℕ × Anchor)) (s : System) (act : Act) :
    Decidable (Orderly anchored s act) :=
  match act with
  | .callback _ (.onInitialize episodeId _) _ =>
    inferInstanceAs (Decidable (s.handler.seqs[episodeId]? = none))
  | .callback _ (.onCommand episodeId _ _ _ _) _ =>
    inferInstanceAs (Decidable (s.handler.seqs[episodeId]? ≠ some (UInt64.ofNat (2 ^ 64 - 1))))
  | .callback _ (.onRollback _ _) _ => isTrue trivial
  | .arrive i submitted => inferInstanceAs (Decidable (submitted = true → ∀ p ∈ s.sent[i]?,
      ∀ anchor ∈ Watcher.receive p.2, ∀ q ∈ anchored,
        q.2.episodeId = anchor.episodeId → q.1 < p.1))

/-- The watcher reads this anchor from a datagram of the `n`th checkpoint. -/
def Sent (s : System) (n : ℕ) (a : Anchor) : Prop :=
  ∃ datagram, (n, datagram) ∈ s.sent ∧ Watcher.receive datagram = some a

/-- The numbers on the checkpoints of an episode follow the order in which they were emitted. -/
structure Inv (anchored : List (ℕ × Anchor)) (s : System) : Prop where
  numbered : ∀ n a, Sent s n a → n < s.emitted
  counted : ∀ n a, Sent s n a → ∃ (episodeId : EpisodeId) (last : UInt64),
    a.episodeId = episodeId.toUInt64 ∧ s.handler.seqs[episodeId]? = some last ∧ a.seq ≤ last
  increasing : ∀ n a m b, Sent s n a → Sent s m b → a.episodeId = b.episodeId → n < m →
    a.seq < b.seq
  sent : ∀ n a, (n, a) ∈ anchored → Sent s n a
  inOrder : StrictlyIncreasing anchored

section Steps
variable {s s' : System} {anchored new : List (ℕ × Anchor)}
  {handler : MerchantEventHandler} {episodeId : EpisodeId} {replies : ℕ → Option Bytes} {act : Act}

omit [Crypto] in
theorem Inv.init : Inv [] .new where
  numbered := by
    rintro n a ⟨d, hd, -⟩
    cases hd
  counted := by
    rintro n a ⟨d, hd, -⟩
    cases hd
  increasing := by
    rintro n a m b ⟨d, hd, -⟩
    cases hd
  sent := by
    intro n a h
    cases h
  inOrder := fun _ => List.Pairwise.nil

omit [Crypto] in
theorem Inv.reset (h : Inv anchored s) (hnew : s.handler.seqs[episodeId]? = none) :
    Inv anchored
      { s with handler := { s.handler with seqs := s.handler.seqs.insert episodeId 0 } } where
  numbered := h.numbered
  counted n a ha := by
    obtain ⟨id, last, hid, hlast, hle⟩ := h.counted n a ha
    refine ⟨id, last, hid, ?_, hle⟩
    have hne : episodeId ≠ id := fun he => by
      rw [he, hlast] at hnew
      cases hnew
    show (s.handler.seqs.insert episodeId 0)[id]? = some last
    rw [FiniteMap.getElem?_insert_of_ne hne, hlast]
  increasing := h.increasing
  sent := h.sent
  inOrder := h.inOrder

omit [Crypto] in
theorem send_handler (out : MerchantEventHandler × Option TlvMsg) :
    { s with handler }.send replies out = s.send replies out := by
  obtain ⟨handler', _ | tlv⟩ := out <;> rfl

omit [Crypto] in
theorem sent_send {seq : UInt64} {stateHash : Hash} {n : ℕ} {a : Anchor}
    (h : Sent (s.send replies (handler, some (checkpointMsg episodeId seq stateHash))) n a) :
    Sent s n a ∨ n = s.emitted ∧ a = ⟨episodeId.toUInt64, seq, stateHash⟩ := by
  obtain ⟨d, hd, hread⟩ := h
  rcases List.mem_append.mp hd with hd | hd
  · exact .inl ⟨d, hd, hread⟩
  · obtain ⟨b, hb, heq⟩ := List.mem_map.mp hd
    cases heq
    exact .inr ⟨rfl, Option.some.inj (hread.symm.trans (receive_checkpoint hb))⟩

omit [Crypto] [Blake2b] in
theorem lt_succ_of_le {q last : UInt64} (hle : q ≤ last) (hmax : last ≠ UInt64.ofNat (2 ^ 64 - 1)) :
    q < last + 1 := by
  have hne : last.toNat ≠ 2 ^ 64 - 1 := fun he => hmax (by rw [← he, UInt64.ofNat_toNat])
  have hlast : last.toNat < 2 ^ 64 := last.toNat_lt
  have hle' : q.toNat ≤ last.toNat := hle
  have hadd : (last + 1).toNat = last.toNat + 1 := by
    rw [UInt64.toNat_add]
    exact Nat.mod_eq_of_lt (show last.toNat + 1 < 2 ^ 64 by omega)
  rw [UInt64.lt_iff_toNat_lt, hadd]
  omega

omit [Crypto] in
theorem Inv.emit {out : MerchantEventHandler × Option TlvMsg} (h : Inv anchored s)
    (hemits : s.handler.Emits episodeId out)
    (hmax : s.handler.seqs[episodeId]? ≠ some (UInt64.ofNat (2 ^ 64 - 1))) :
    Inv anchored (s.send replies out) := by
  obtain ⟨handler, msg⟩ := out
  dsimp only [MerchantEventHandler.Emits] at hemits
  rcases hemits with ⟨rfl, hseqs⟩ | ⟨stateHash, rfl, hseqs⟩
  · refine { h with counted := fun n a ha => ?_ }
    obtain ⟨id, last, hid, hlast, hle⟩ := h.counted n a ha
    refine ⟨id, last, hid, ?_, hle⟩
    show handler.seqs[id]? = some last
    rw [hseqs, hlast]
  · -- all that was sent for this episode is below the new number
    have hbelow : ∀ n a, Sent s n a → a.episodeId = episodeId.toUInt64 →
        a.seq < s.handler.seqs[episodeId]?.getD 0 + 1 := by
      intro n a ha hid
      obtain ⟨id, last, hid', hlast, hle⟩ := h.counted n a ha
      obtain rfl : episodeId = id := UInt32.toUInt64_inj.mp (hid.symm.trans hid')
      rw [hlast] at hmax ⊢
      exact lt_succ_of_le hle fun he => hmax (congrArg some he)
    refine ⟨?_, ?_, ?_, ?_, h.inOrder⟩
    · intro n a ha
      show n < s.emitted + 1
      rcases sent_send ha with ha | ⟨rfl, -⟩
      · exact Nat.lt_succ_of_lt (h.numbered n a ha)
      · exact Nat.lt_succ_self _
    · intro n a ha
      show ∃ (id : EpisodeId) (last : UInt64), a.episodeId = id.toUInt64 ∧
        handler.seqs[id]? = some last ∧ a.seq ≤ last
      rw [hseqs]
      rcases sent_send ha with ha | ⟨-, rfl⟩
      · by_cases hid : a.episodeId = episodeId.toUInt64
        · have hle := UInt64.le_of_lt (hbelow n a ha hid)
          exact ⟨episodeId, _, hid, ExtTreeMap.getElem?_insert_self, hle⟩
        · obtain ⟨id, last, hid', hlast, hle⟩ := h.counted n a ha
          refine ⟨id, last, hid', ?_, hle⟩
          have hne : episodeId ≠ id := fun he => hid (he ▸ hid')
          rw [FiniteMap.getElem?_insert_of_ne hne, hlast]
      · exact ⟨episodeId, _, rfl, ExtTreeMap.getElem?_insert_self, UInt64.le_refl _⟩
    · intro n a m b ha hb hid hlt
      -- only an older checkpoint can have a smaller index than one that was sent before
      rcases sent_send hb with hb | ⟨rfl, rfl⟩
      · rcases sent_send ha with ha | ⟨rfl, rfl⟩
        · exact h.increasing n a m b ha hb hid hlt
        · exact absurd (h.numbered m b hb) (Nat.lt_asymm hlt)
      · rcases sent_send ha with ha | ⟨rfl, rfl⟩
        · exact hbelow n a ha hid
        · exact absurd hlt (Nat.lt_irrefl _)
    · intro n a ha
      obtain ⟨d, hd, hread⟩ := h.sent n a ha
      exact ⟨d, List.mem_append_left _ hd, hread⟩

omit [Crypto] [Blake2b] in
theorem seqsOf_concat (id : UInt64) (anchored : List (ℕ × Anchor)) (n : ℕ) (a : Anchor) :
    seqsOf id (anchored ++ [(n, a)]) =
      seqsOf id anchored ++ if a.episodeId = id then [a.seq] else [] := by
  unfold seqsOf
  rw [List.filter_append, List.map_append]
  by_cases hid : a.episodeId = id <;> simp [hid]

omit [Crypto] in
theorem Inv.anchor (h : Inv anchored s) {n : ℕ} {a : Anchor} (hsent : Sent s n a)
    (hlast : ∀ q ∈ anchored, q.2.episodeId = a.episodeId → q.1 < n) :
    Inv (anchored ++ [(n, a)]) s := by
  refine ⟨h.numbered, h.counted, h.increasing, ?_, fun id => ?_⟩
  · intro m b hb
    rcases List.mem_append.mp hb with hb | hb
    · exact h.sent m b hb
    · cases List.mem_singleton.mp hb
      exact hsent
  · rw [seqsOf_concat]
    split
    · rename_i hid
      refine List.pairwise_append.mpr ⟨h.inOrder id, List.pairwise_singleton _ _, ?_⟩
      intro q hq q' hq'
      rw [List.mem_singleton.mp hq']
      obtain ⟨⟨m, b⟩, hb, rfl⟩ := List.mem_map.mp hq
      obtain ⟨hb, hbid⟩ := List.mem_filter.mp hb
      have hsame : b.episodeId = a.episodeId := (of_decide_eq_true hbid).trans hid.symm
      exact h.increasing m b n a (h.sent m b hb) hsent hsame (hlast (m, b) hb hsame)
    · rw [List.append_nil]
      exact h.inOrder id

theorem Inv.step (h : Inv anchored s) (horderly : Orderly anchored s act)
    (hstep : step s act = some (s', new)) : Inv (anchored ++ new) s' := by
  cases act with
  | callback now call replies =>
    cases hstep
    rw [List.append_nil]
    cases call with
    | onInitialize id g =>
      -- `on_initialize` sets the counter to zero, which only a new episode may do
      have hreset := h.reset horderly
      have hmax : (s.handler.seqs.insert id 0)[id]? ≠ some (UInt64.ofNat (2 ^ 64 - 1)) := by
        rw [ExtTreeMap.getElem?_insert_self]
        decide
      have hemit : Inv anchored (System.send _ replies _) :=
        hreset.emit (MerchantEventHandler.emitCheckpoint_emits _ now id g true) hmax
      rwa [send_handler] at hemit
    | onCommand id g cmd auth metadata =>
      -- an ack forces a checkpoint, any other command leaves it to the period
      have hemits : ∃ force, s.handler.handle now (.onCommand id g cmd auth metadata) =
          s.handler.emitCheckpoint now id g force := by
        cases cmd with
        | ackReceipt => exact ⟨true, rfl⟩
        | _ => exact ⟨false, rfl⟩
      obtain ⟨force, hforce⟩ := hemits
      rw [hforce]
      exact h.emit (s.handler.emitCheckpoint_emits now id g force) horderly
    | onRollback id g => exact h
  | arrive i submitted =>
    unfold Checkpoint.step at hstep
    dsimp only at hstep
    split at hstep
    · cases hstep
    rename_i n datagram hsent
    split at hstep
    · cases hstep
      rw [List.append_nil]
      exact h
    rename_i anchor hread
    cases hstep
    split
    · exact h.anchor ⟨datagram, List.mem_of_getElem? hsent, hread⟩
        (horderly ‹_› (n, datagram) hsent anchor hread)
    · rw [List.append_nil]
      exact h

/-- In an orderly run the numbers that are anchored for an episode increase. -/
theorem anchored_in_order (h : Run step Orderly .new anchored s) : StrictlyIncreasing anchored := by
  have hinv : Inv anchored s := by
    refine Run.invariant (P := Inv) .init ?_ h
    intro anchored s act s' new hi ho hs
    exact hi.step ho hs
  exact hinv.inOrder

end Steps
end Checkpoint
end Kdapp.Merchant

namespace Kdapp.Merchant.ReceiptEpisode
open Checkpoint Transition
attribute [local instance] idealCrypto idealBlake2b

def initialised : Act := .callback 10 (.onInitialize 5 opened) fun _ => none

def acknowledged : Act :=
  .callback 20 (.onCommand 5 acked.1 (MerchantCommand.ackReceipt 7) none (blockAt 3 3 []))
    fun _ => none

/-- Every datagram arrives once, and in order: the checkpoint is anchored three times. -/
theorem anchored_thrice : ∃ s anchored, Run step (fun _ _ _ => True) .new anchored s ∧
    runActs step (fun _ _ _ => True) [] .new
      [initialised, .arrive 0 true, .arrive 1 true, .arrive 2 true] = some (s, anchored) ∧
    s.sent.length = 3 ∧ seqsOf 5 anchored = [1, 1, 1] ∧ ¬ StrictlyIncreasing anchored := by
  have hrun : (runActs step (fun _ _ _ => True) [] .new
      [initialised, .arrive 0 true, .arrive 1 true, .arrive 2 true]).map
        (fun p => (p.1.sent.length, seqsOf 5 p.2)) = some (3, [1, 1, 1]) := by
    decide +kernel
  obtain ⟨⟨s, anchored⟩, hs, hseqs⟩ := Option.map_eq_some_iff.mp hrun
  obtain ⟨hlength, hseqs⟩ := Prod.mk.inj hseqs
  refine ⟨s, anchored, Run.start.runActs hs, hs, hlength, hseqs, fun hinc => ?_⟩
  have hsorted := hinc 5
  rw [hseqs] at hsorted
  exact absurd hsorted (by decide)

/-- One copy of each of two checkpoints arrives. -/
theorem anchored_once_each : ∃ s anchored, Run step Orderly .new anchored s ∧
    seqsOf 5 anchored = [1, 2] ∧ StrictlyIncreasing anchored := by
  have hrun : (runActs step Orderly [] .new
      [initialised, .arrive 1 true, acknowledged, .arrive 3 true]).map
        (fun p => seqsOf 5 p.2) = some [1, 2] := by
    decide +kernel
  obtain ⟨⟨s, anchored⟩, hs, hseqs⟩ := Option.map_eq_some_iff.mp hrun
  have hreach := Run.start.runActs hs
  exact ⟨s, anchored, hreach, hseqs, anchored_in_order hreach⟩

end Kdapp.Merchant.ReceiptEpisode
