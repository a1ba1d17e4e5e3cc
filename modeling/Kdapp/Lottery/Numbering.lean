import Kdapp.Lottery.Recovery
import Mathlib.Data.List.Induction

/-! The numbers that the client gives its messages and those the router waits for. -/

namespace Kdapp.Lottery
open Borsh InOrder FiniteMap
open Merchant (Moment)
open Std (ExtTreeMap)

variable [Crypto]

inductive SendingKind where
  | new (msg : EpisodeMessage LotteryEpisode)
  | cmd (msg : EpisodeMessage LotteryEpisode)
  | close

/-- One call of `send_tlv_new`, `send_tlv_cmd` or `send_tlv_close` by the clock of the router. -/
structure Sending where
  now : UInt64
  episodeId : UInt64
  kind : SendingKind

namespace Sending

def msgType (s : Sending) : MsgType :=
  match s.kind with
  | .new _ => .new
  | .cmd _ => .cmd
  | .close => .close

def payload (s : Sending) : Option Bytes :=
  match s.kind with
  | .new msg | .cmd msg => EpisodeMessage.codec.serialize msg
  | .close => some []

def frame (s : Sending) (seq : UInt64) : Option TlvMsg :=
  match s.kind with
  | .new msg => Client.sendTlvNew s.episodeId seq msg
  | .cmd msg => Client.sendTlvCmd s.episodeId seq msg
  | .close => some (Client.sendTlvClose s.episodeId seq)

theorem frame_eq (s : Sending) (seq : UInt64) :
    s.frame seq = s.payload.map (Client.tlvOf s.msgType s.episodeId seq) := by
  obtain ⟨now, ep, kind⟩ := s
  cases kind <;> rfl

/-- The payload serializes, and its frame fits the buffer of the router. -/
def Fits (s : Sending) : Prop :=
  ∃ payload, s.payload = some payload ∧ payload.length + 52 ≤ 64 * 1024

end Sending

structure Link where
  store : LastSeq
  lastSeq : LastSeq

namespace Link

/-- One message on a channel that loses nothing, and whether the router accepted it. -/
def send (router : OffchainRouter) (link : Link) (s : Sending) : Bool × Link :=
  let (seq, store) := Client.autoSeq link.store s.episodeId (decide (s.msgType = .new))
  match s.frame seq with
  | none => (false, { link with store })
  | some tlv =>
    let (handled, lastSeq) :=
      router.handle ⟨s.now, true⟩ link.lastSeq (OffchainRouter.recvFrom tlv.encode)
    (decide (handled.accepted = some (s.msgType, tlv)), ⟨store, lastSeq⟩)

def after (router : OffchainRouter) (l : List Sending) : Link :=
  l.foldl (fun link s => (link.send router s).2) ⟨∅, ∅⟩

theorem after_concat (router : OffchainRouter) (l : List Sending) (s : Sending) :
    after router (l ++ [s]) = ((after router l).send router s).2 := by
  rw [after, List.foldl_append]
  rfl

end Link

def sentOf (ep : UInt64) (l : List Sending) : List Sending := sentBy Sending.episodeId ep l

/-- Each episode is opened by `New`, and again only after a `Close`. -/
def Lifecycle (l : List Sending) : Prop :=
  Throughout (fun earlier s => s.msgType = .new ↔
    ∀ last ∈ (sentOf s.episodeId earlier).getLast?, last.msgType = .close) l

def AllAccepted (router : OffchainRouter) (l : List Sending) : Prop :=
  Throughout (fun earlier s => ((Link.after router earlier).send router s).1 = true) l

/-- What the router can follow: one life for an episode, and numbers that do not run out. -/
structure Followed (earlier : List Sending) (s : Sending) : Prop where
  fits : s.Fits
  opensOnce : s.msgType = .new → sentOf s.episodeId earlier = []
  numbered : (sentOf s.episodeId earlier).length < 2 ^ 64

/-- Where all messages were accepted, the store has the number of the last one of each episode,
and so has the table unless it was a `Close`. -/
structure InStep (link : Link) (l : List Sending) : Prop where
  fresh : ∀ ep, sentOf ep l = [] → link.store[ep]? = none ∧ link.lastSeq[ep]? = none
  counted : ∀ ep last, (sentOf ep l).getLast? = some last →
    (sentOf ep l).length ≤ 2 ^ 64 ∧
    link.store[ep]? = some (UInt64.ofNat ((sentOf ep l).length - 1)) ∧
    link.lastSeq[ep]? = if last.msgType = .close then none
      else some (UInt64.ofNat ((sentOf ep l).length - 1))

namespace OffchainRouter
variable {self : OffchainRouter} {moment : Moment} {lastSeq lastSeq' : LastSeq} {bytes : Bytes}
  {out : Handled} {mt : MsgType} {msg : TlvMsg}

theorem handle_accepted :
    (self.handle moment lastSeq bytes).1.accepted = some (mt, msg) ↔
      readMsg bytes = some (mt, msg) ∧
        self.accepts mt msg.seq lastSeq[msg.episodeId]? = true := by
  have hhandles := handles self moment lastSeq bytes
  constructor
  · exact hhandles.of_accepted
  · rintro ⟨hread, hacc⟩
    generalize (self.handle moment lastSeq bytes).1 = out at hhandles
    generalize (self.handle moment lastSeq bytes).2 = lastSeq' at hhandles
    cases hhandles with
    | unread hnone => cases hread.symm.trans hnone
    | rejected hread' hnot =>
      cases hread.symm.trans hread'
      cases hacc.symm.trans hnot
    | failed hread' | checkpoint hread' | forwarded hread' | closed hread' =>
      exact hread'.symm.trans hread

theorem Handles.lastSeq_eq (h : Handles self moment lastSeq bytes out lastSeq')
    (hopen : moment.channelOpen = true) (hacc : out.accepted = some (mt, msg)) :
    lastSeq' = if mt = .close then (lastSeq.insert msg.episodeId msg.seq).erase msg.episodeId
      else lastSeq.insert msg.episodeId msg.seq := by
  cases h with
  | unread | rejected => cases hacc
  | failed _ _ _ hclosed => cases hclosed.symm.trans hopen
  | checkpoint =>
    cases hacc
    rfl
  | forwarded _ _ _ hclose =>
    cases hacc
    rw [if_neg hclose]
  | closed =>
    cases hacc
    rfl

omit [Crypto] in
theorem readMsg_tlvOf {ep seq : UInt64} {payload : Bytes} :
    readMsg (recvFrom (Client.tlvOf mt ep seq payload).encode) =
        some (mt, Client.tlvOf mt ep seq payload) ↔ payload.length + 52 ≤ 64 * 1024 := by
  have htype : Merchant.MsgType.fromU8 mt.toU8 = some mt := by cases mt <;> rfl
  have hknown : Merchant.MsgType.fromU8 mt.toU8 ≠ none := by
    rw [htype]
    exact Option.some_ne_none mt
  have hdecode : TlvMsg.decode (recvFrom (Client.tlvOf mt ep seq payload).encode) =
      if 52 + payload.length % 2 ^ 16 ≤ 64 * 1024 then
        some { Client.tlvOf mt ep seq payload with
          payload := payload.take (payload.length % 2 ^ 16) }
      else none := TlvMsg.decode_take rfl hknown (by decide)
  constructor
  · intro h
    have hmsg := (of_readMsg h).1
    rw [hdecode] at hmsg
    split at hmsg
    · have hpayload := congrArg (fun msg => msg.payload.length) (Option.some.inj hmsg)
      have hcut : (payload.take (payload.length % 2 ^ 16)).length = payload.length := hpayload
      rw [List.length_take] at hcut
      omega
    · cases hmsg
  · intro h
    have hmod : payload.length % 2 ^ 16 = payload.length := Nat.mod_eq_of_lt (by omega)
    rw [hmod, if_pos (by omega), List.take_length] at hdecode
    rw [readMsg, hdecode]
    refine (if_neg (not_not_intro rfl)).trans ?_
    change Option.map _ (Merchant.MsgType.fromU8 mt.toU8) = _
    rw [htype]
    rfl

end OffchainRouter

namespace Link
variable {router : OffchainRouter} {link : Link} {s : Sending} {l : List Sending}

/-- The number that `auto_seq` gives the message. -/
def numberOf (link : Link) (s : Sending) : UInt64 :=
  (Client.autoSeq link.store s.episodeId (decide (s.msgType = .new))).1

theorem send_store :
    (link.send router s).2.store = link.store.insert s.episodeId (link.numberOf s) := by
  unfold send
  cases hframe : s.frame (link.numberOf s) <;> simp only [numberOf] at hframe <;>
    simp only [hframe] <;> rfl

theorem send_of_payload (router : OffchainRouter) (link : Link) {payload : Bytes}
    (h : s.payload = some payload) :
    (link.send router s).1 = decide ((router.handle ⟨s.now, true⟩ link.lastSeq
        (OffchainRouter.recvFrom
          (Client.tlvOf s.msgType s.episodeId (link.numberOf s) payload).encode)).1.accepted =
        some (s.msgType, Client.tlvOf s.msgType s.episodeId (link.numberOf s) payload)) ∧
      (link.send router s).2.lastSeq = (router.handle ⟨s.now, true⟩ link.lastSeq
        (OffchainRouter.recvFrom
          (Client.tlvOf s.msgType s.episodeId (link.numberOf s) payload).encode)).2 := by
  have hframe : s.frame (link.numberOf s) =
      some (Client.tlvOf s.msgType s.episodeId (link.numberOf s) payload) := by
    rw [Sending.frame_eq, h]
    rfl
  unfold send
  simp only [numberOf] at hframe
  simp only [hframe]
  exact ⟨rfl, rfl⟩

theorem send_true : (link.send router s).1 = true ↔ s.Fits ∧
    router.accepts s.msgType (link.numberOf s) link.lastSeq[s.episodeId]? = true := by
  cases hpayload : s.payload with
  | none =>
    have hframe : s.frame (link.numberOf s) = none := by
      rw [Sending.frame_eq, hpayload]
      rfl
    have hnot : (link.send router s).1 = false := by
      unfold send
      simp only [numberOf] at hframe
      simp only [hframe]
    rw [hnot]
    refine iff_of_false Bool.false_ne_true ?_
    rintro ⟨⟨payload, hsome, -⟩, -⟩
    cases hpayload.symm.trans hsome
  | some payload =>
    have hfits : s.Fits ↔ payload.length + 52 ≤ 64 * 1024 := by
      constructor
      · rintro ⟨payload', hsome, hlen⟩
        cases hpayload.symm.trans hsome
        exact hlen
      · exact fun hlen => ⟨payload, hpayload, hlen⟩
    rw [(send_of_payload router link hpayload).1, decide_eq_true_eq, OffchainRouter.handle_accepted,
      OffchainRouter.readMsg_tlvOf, hfits]
    rfl

theorem send_lastSeq (h : (link.send router s).1 = true) :
    (link.send router s).2.lastSeq =
      if s.msgType = .close then
        (link.lastSeq.insert s.episodeId (link.numberOf s)).erase s.episodeId
      else link.lastSeq.insert s.episodeId (link.numberOf s) := by
  obtain ⟨⟨payload, hpayload, -⟩, -⟩ := send_true.mp h
  obtain ⟨hacc, hlast⟩ := send_of_payload router link hpayload
  rw [hlast]
  rw [h] at hacc
  exact (OffchainRouter.handles _ _ _ _).lastSeq_eq rfl (of_decide_eq_true hacc.symm)

end Link

section InStep
variable {router : OffchainRouter} {link : Link} {s : Sending} {l : List Sending}

theorem InStep.init : InStep ⟨∅, ∅⟩ [] :=
  ⟨fun _ _ => ⟨ExtTreeMap.getElem?_empty, ExtTreeMap.getElem?_empty⟩, fun ep last h => by cases h⟩

theorem InStep.concat (h : InStep link l) (hacc : (link.send router s).1 = true)
    (hlt : (sentOf s.episodeId l).length < 2 ^ 64)
    (hnumber : link.numberOf s = UInt64.ofNat (sentOf s.episodeId l).length) :
    InStep (link.send router s).2 (l ++ [s]) := by
  have hself : sentOf s.episodeId (l ++ [s]) = sentOf s.episodeId l ++ [s] :=
    sentBy_concat_self Sending.episodeId l s
  have hother : ∀ ep, s.episodeId ≠ ep → sentOf ep (l ++ [s]) = sentOf ep l ∧
      (link.send router s).2.store[ep]? = link.store[ep]? ∧
      (link.send router s).2.lastSeq[ep]? = link.lastSeq[ep]? := by
    intro ep hep
    refine ⟨sentBy_concat_of_ne Sending.episodeId l hep, ?_, ?_⟩
    · rw [Link.send_store, getElem?_insert_of_ne hep]
    · rw [Link.send_lastSeq hacc]
      split
      · exact (getElem?_erase_of_ne hep).trans (getElem?_insert_of_ne hep _)
      · exact getElem?_insert_of_ne hep _
  constructor
  · intro ep hnil
    by_cases hep : s.episodeId = ep
    · subst hep
      rw [hself] at hnil
      exact absurd hnil (List.append_ne_nil_of_right_ne_nil _ (List.cons_ne_nil _ _))
    · obtain ⟨hsent, hstore, hlast⟩ := hother ep hep
      rw [hsent] at hnil
      rw [hstore, hlast]
      exact h.fresh ep hnil
  · intro ep last hlast
    -- a `Close` leaves nothing in the table, anything else its own number
    by_cases hep : s.episodeId = ep
    · subst hep
      rw [hself, List.getLast?_concat] at hlast
      cases hlast
      rw [hself, List.length_append, List.length_singleton, Nat.add_sub_cancel]
      refine ⟨hlt, ?_, ?_⟩
      · rw [Link.send_store, ExtTreeMap.getElem?_insert_self, hnumber]
      · rw [Link.send_lastSeq hacc]
        split
        · exact ExtTreeMap.getElem?_erase_self
        · rw [ExtTreeMap.getElem?_insert_self, hnumber]
    · obtain ⟨hsent, hstore, hlastSeq⟩ := hother ep hep
      rw [hsent] at hlast
      rw [hsent, hstore, hlastSeq]
      exact h.counted ep last hlast

omit [Crypto] in
theorem next_number {n : ℕ} (hpos : 0 < n) (hle : n ≤ 2 ^ 64) :
    Saturating.add (UInt64.ofNat (n - 1)) 1 ≠ 0 ∧
      (Saturating.add (UInt64.ofNat (n - 1)) 1 = UInt64.ofNat (n - 1) + 1 ↔ n < 2 ^ 64) ∧
      (n < 2 ^ 64 → Saturating.add (UInt64.ofNat (n - 1)) 1 = UInt64.ofNat n) := by
  have hone : (1 : UInt64).toNat = 1 := rfl
  have hlast : (UInt64.ofNat (n - 1)).toNat = n - 1 := by
    rw [UInt64.toNat_ofNat']
    omega
  have hadd : (Saturating.add (UInt64.ofNat (n - 1)) 1).toNat = min n (2 ^ 64 - 1) := by
    rw [Saturating.add_toNat, hlast, hone]
    omega
  refine ⟨fun hzero => ?_, ?_, fun hlt => ?_⟩
  · rw [hzero, UInt64.toNat_zero] at hadd
    omega
  · rw [← UInt64.toNat_inj, hadd, UInt64.toNat_add, hlast, hone]
    omega
  · rw [← UInt64.toNat_inj, hadd, UInt64.toNat_ofNat']
    omega

theorem InStep.opening (h : InStep link l) (router : OffchainRouter)
    (hnil : sentOf s.episodeId l = []) (hnew : s.msgType = .new) :
    link.numberOf s = 0 ∧
      router.accepts s.msgType (link.numberOf s) link.lastSeq[s.episodeId]? = true := by
  obtain ⟨hstore, htable⟩ := h.fresh _ hnil
  have hnumber : link.numberOf s = 0 := by
    unfold Link.numberOf Client.autoSeq
    rw [hstore, hnew]
    rfl
  refine ⟨hnumber, ?_⟩
  rw [hnumber, hnew, htable]
  rfl

section Counted
variable {last : Sending} (hlast : (sentOf s.episodeId l).getLast? = some last)
include hlast

theorem length_pos_of_last : 0 < (sentOf s.episodeId l).length := by
  apply List.length_pos_of_ne_nil
  intro hnil
  rw [hnil] at hlast
  cases hlast

theorem InStep.numberOf_next (h : InStep link l) :
    link.numberOf s = Saturating.add (UInt64.ofNat ((sentOf s.episodeId l).length - 1)) 1 := by
  obtain ⟨-, hstore, -⟩ := h.counted _ last hlast
  unfold Link.numberOf Client.autoSeq
  rw [hstore]

theorem InStep.reopening (h : InStep link l) (hended : last.msgType = .close)
    (hnew : s.msgType = .new) :
    router.accepts s.msgType (link.numberOf s) link.lastSeq[s.episodeId]? ≠ true := by
  obtain ⟨hle, -, htable⟩ := h.counted _ last hlast
  rw [if_pos hended] at htable
  intro haccepts
  rw [hnew, htable, h.numberOf_next hlast] at haccepts
  exact (next_number (length_pos_of_last hlast) hle).1 (of_decide_eq_true haccepts).2

theorem InStep.following (h : InStep link l) (hclose : router.closeEnabled = true)
    (hended : last.msgType ≠ .close) (hnotNew : s.msgType ≠ .new) :
    router.accepts s.msgType (link.numberOf s) link.lastSeq[s.episodeId]? = true ↔
      (sentOf s.episodeId l).length < 2 ^ 64 := by
  obtain ⟨hle, -, htable⟩ := h.counted _ last hlast
  rw [if_neg hended] at htable
  rw [htable, h.numberOf_next hlast, ← (next_number (length_pos_of_last hlast) hle).2.1]
  constructor
  · intro hacc
    rcases OffchainRouter.accepts_true hacc with ⟨hnew, -⟩ | ⟨-, prev, hprev, hseq⟩
    · exact absurd hnew hnotNew
    · cases hprev
      exact hseq
  · intro hseq
    rw [hseq]
    apply OffchainRouter.accepts_next
    obtain ⟨now, ep, kind⟩ := s
    cases kind with
    | new msg => exact absurd rfl hnotNew
    | cmd msg => exact .inl rfl
    | close => exact .inr (.inr ⟨rfl, hclose⟩)

end Counted

theorem InStep.step (h : InStep link l) (hclose : router.closeEnabled = true)
    (hlife : s.msgType = .new ↔
      ∀ last ∈ (sentOf s.episodeId l).getLast?, last.msgType = .close) :
    ((link.send router s).1 = true ↔ Followed l s) ∧
      ((link.send router s).1 = true → InStep (link.send router s).2 (l ++ [s])) := by
  cases hlast : (sentOf s.episodeId l).getLast? with
  | none =>
    have hnil : sentOf s.episodeId l = [] := List.getLast?_eq_none_iff.mp hlast
    have hnew : s.msgType = .new := hlife.mpr fun last hmem => by
      rw [hlast] at hmem
      cases hmem
    have hlen : (sentOf s.episodeId l).length = 0 := by rw [hnil, List.length_nil]
    obtain ⟨hnumber, haccepts⟩ := h.opening router hnil hnew
    constructor
    · rw [Link.send_true]
      constructor
      · exact fun hsend => ⟨hsend.1, fun _ => hnil, by omega⟩
      · exact fun hfollowed => ⟨hfollowed.fits, haccepts⟩
    · intro hacc
      apply h.concat hacc (by omega)
      rw [hnumber, hlen]
      rfl
  | some last =>
    have hpos := length_pos_of_last hlast
    by_cases hended : last.msgType = .close
    · have hnew : s.msgType = .new := hlife.mpr fun last' hmem => by
        rw [hlast] at hmem
        cases hmem
        exact hended
      -- the store goes on counting after a `Close`, and a `New` is accepted as number zero only
      have hnot : ¬ (link.send router s).1 = true := fun hacc =>
        h.reopening hlast hended hnew (Link.send_true.mp hacc).2
      refine ⟨iff_of_false hnot fun hfollowed => ?_, fun hacc => absurd hacc hnot⟩
      exact List.ne_nil_of_length_pos hpos (hfollowed.opensOnce hnew)
    · have hnotNew : s.msgType ≠ .new := by
        intro hnew
        exact hended (hlife.mp hnew last (by rw [hlast]; rfl))
      have haccepts := h.following hlast hclose hended hnotNew
      constructor
      · rw [Link.send_true, haccepts]
        constructor
        · exact fun hsend => ⟨hsend.1, fun hnew => absurd hnew hnotNew, hsend.2⟩
        · exact fun hfollowed => ⟨hfollowed.fits, hfollowed.numbered⟩
      · intro hacc
        have hlt := haccepts.mp (Link.send_true.mp hacc).2
        obtain ⟨hle, -, -⟩ := h.counted _ last hlast
        exact h.concat hacc hlt ((h.numberOf_next hlast).trans ((next_number hpos hle).2.2 hlt))

/-- The router accepts a whole lifecycle exactly where it can follow each message. -/
theorem allAccepted_iff_followed (hclose : router.closeEnabled = true) (hlife : Lifecycle l) :
    AllAccepted router l ↔ Throughout Followed l := by
  have hboth : (AllAccepted router l ↔ Throughout Followed l) ∧
      (AllAccepted router l → InStep (Link.after router l) l) := by
    induction l using List.reverseRecOn with
    | nil =>
      exact ⟨iff_of_true Throughout.nil Throughout.nil, fun _ => InStep.init⟩
    | append_singleton l s ih =>
      obtain ⟨hearlier, hlast⟩ := Throughout.concat.mp hlife
      obtain ⟨hiff, hstep⟩ := ih hearlier
      unfold AllAccepted at hiff hstep ⊢
      rw [Throughout.concat, Throughout.concat, Link.after_concat, hiff]
      constructor
      · apply and_congr_right
        intro hfollowed
        exact ((hstep (hiff.mpr hfollowed)).step hclose hlast).1
      · rintro ⟨hfollowed, hacc⟩
        exact ((hstep (hiff.mpr hfollowed)).step hclose hlast).2 hacc
  exact hboth.1

end InStep
end Kdapp.Lottery

namespace Kdapp.Lottery
open InOrder
attribute [local instance] idealCrypto

def twoEpisodes : List Sending := [
  ⟨9, 5, .new (.newEpisode 5 [])⟩,
  ⟨9, 6, .new (.newEpisode 6 [])⟩,
  ⟨9, 5, .cmd (.unsignedCommand 5 (LotteryCommand.executeDraw "t"))⟩,
  ⟨9, 5, .close⟩]

theorem allAccepted_iff_followed_two :
    AllAccepted ⟨true, true⟩ twoEpisodes ∧ Throughout Followed twoEpisodes := by
  have hacc : AllAccepted ⟨true, true⟩ twoEpisodes := by
    unfold AllAccepted
    decide +kernel
  have hlife : Lifecycle twoEpisodes := by
    unfold Lifecycle
    decide +kernel
  exact ⟨hacc, (allAccepted_iff_followed rfl hlife).mp hacc⟩

/-- The same episode, opened again after its `Close`. -/
def reopened : List Sending := [
  ⟨9, 5, .new (.newEpisode 5 [])⟩,
  ⟨9, 5, .close⟩,
  ⟨9, 5, .new (.newEpisode 5 [])⟩]

theorem reopened_rejected : Lifecycle reopened ∧ ¬ AllAccepted ⟨true, true⟩ reopened := by
  unfold Lifecycle AllAccepted
  decide +kernel

end Kdapp.Lottery
