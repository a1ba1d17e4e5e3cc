import Kdapp.Lottery.Numbering
import Kdapp.Lottery.SeqStore

/-! The command `OffchainSend` (`kas-draw/src/main.rs`), process after process, with the router that
its messages go to. -/

namespace Kdapp.Lottery
open Borsh FiniteMap InOrder
open Merchant (Moment)
open Std (ExtTreeMap)

variable [Crypto]

structure OffchainSend where
  type : String
  episodeId : EpisodeId
  forceSeq : Option UInt64
  /-- The key that is found, if any; `some none` is a text that is no key. -/
  key : Option (Option Crypto.SecretKey)
  amount : Option UInt64
  numbers : Bytes
  entropy : Option String
  ticketId : Option UInt64
  round : Option UInt64
  stateRoot : Option String

namespace OffchainSend
variable (self : OffchainSend)

/-- `none` is an error of usage. -/
def msgType : Option MsgType :=
  if self.type = "new" then some .new
  else if self.type = "cmd" then some .cmd
  else if self.type = "close" then some .close
  else if self.type = "ckpt" then some .checkpoint
  else none

/-- `hex::decode_to_slice` into 32 bytes. -/
def decodeRoot (rootHex : String) : Option Hash := do
  let root ← hexDecode rootHex.toList
  if h : root.length = 32 then some ⟨root, h⟩ else none

def participants : Option (List PubKey) :=
  match self.key with
  | none => some []
  | some none => none
  | some (some sk) => some [Crypto.fromSecretKey sk]

def buyTicket (amount : UInt64) : Option (EpisodeMessage LotteryEpisode) :=
  if h : self.numbers.length = 5 then
    let cmd := LotteryCommand.buyTicket ⟨self.numbers, h⟩ amount
    match self.key with
    | none => some (.unsignedCommand self.episodeId cmd)
    | some none => none
    | some (some sk) =>
      EpisodeMessage.newSignedCommand self.episodeId cmd sk (Crypto.fromSecretKey sk)
  else none

def emsg : Option (EpisodeMessage LotteryEpisode) :=
  match self.amount, self.entropy, self.ticketId, self.round with
  | some a, _, _, _ => self.buyTicket a
  | none, some ent, _, _ =>
    some (.unsignedCommand self.episodeId (LotteryCommand.executeDraw ent))
  | none, none, some tid, some r =>
    some (.unsignedCommand self.episodeId (LotteryCommand.claimPrize tid r))
  | none, none, _, _ => none

/-- The message, unless the arguments are not enough; the number is drawn by then. -/
def frame (mt : MsgType) (seq : UInt64) : Option TlvMsg :=
  match mt with
  | .checkpoint => do
    let rootHex ← self.stateRoot
    let root ← decodeRoot rootHex
    some { Client.tlvOf .checkpoint self.episodeId.toUInt64 seq [] with stateHash := root }
  | .close => some (Client.sendTlvClose self.episodeId.toUInt64 seq)
  | .new => do
    let participants ← self.participants
    Client.sendTlvNew self.episodeId.toUInt64 seq (.newEpisode self.episodeId participants)
  | .cmd => do
    let msg ← self.emsg
    Client.sendTlvCmd self.episodeId.toUInt64 seq msg
  | .ack | .ackClose => none

end OffchainSend

/-- A run of the command, and when the copies of its frame that arrive reach the router. -/
structure Invocation extends OffchainSend where
  arrivals : List UInt64

structure Post where
  file : Option (List Char)
  lastSeq : LastSeq

namespace Post
variable (router : OffchainRouter)

/-- Whether the router, whose engine is running, accepts a message for any of the copies. -/
def deliver (lastSeq : LastSeq) (tlv : TlvMsg) (arrivals : List UInt64) : Bool × LastSeq :=
  let (handled, lastSeq) := router.handleAll lastSeq
    (arrivals.map fun now => (⟨now, true⟩, OffchainRouter.recvFrom tlv.encode))
  (handled.any fun out => out.accepted.isSome, lastSeq)

def draw (post : Post) (inv : Invocation) (mt : MsgType) : UInt64 × Option (List Char) :=
  match inv.forceSeq with
  | some s => (s, post.file)
  | none =>
    let (seq, text) := Client.autoSeqFile post.file inv.episodeId.toUInt64 (decide (mt = .new))
    (seq, some text)

def invoke (post : Post) (inv : Invocation) : Bool × Post :=
  match inv.msgType with
  | none => (false, post)
  | some mt =>
    -- the number is drawn and saved before the arguments are looked at
    let (seq, file) := post.draw inv mt
    match inv.frame mt seq with
    | none => (false, { post with file })
    | some tlv =>
      let (accepted, lastSeq) := deliver router post.lastSeq tlv inv.arrivals
      (accepted, ⟨file, lastSeq⟩)

def after (post : Post) (l : List Invocation) : Post :=
  l.foldl (fun post inv => (post.invoke router inv).2) post

theorem after_concat (post : Post) (l : List Invocation) (inv : Invocation) :
    post.after router (l ++ [inv]) = ((post.after router l).invoke router inv).2 := by
  rw [after, List.foldl_append]
  rfl

end Post

section Frame
variable {inv : OffchainSend} {mt : MsgType} {seq : UInt64} {tlv : TlvMsg}

theorem frame_seq (inv : OffchainSend) (mt : MsgType) (seq : UInt64) :
    inv.frame mt seq = (inv.frame mt 0).map fun tlv => { tlv with seq } := by
  have hsend : ∀ (mt : MsgType) (payload : Option Bytes),
      payload.map (Client.tlvOf mt inv.episodeId.toUInt64 seq) =
        (payload.map (Client.tlvOf mt inv.episodeId.toUInt64 0)).map
          fun tlv => { tlv with seq } := by
    intro mt payload
    cases payload <;> rfl
  cases mt with
  | new =>
    unfold OffchainSend.frame
    dsimp only
    cases inv.participants with
    | none => rfl
    | some participants => exact hsend .new _
  | cmd =>
    unfold OffchainSend.frame
    dsimp only
    cases inv.emsg with
    | none => rfl
    | some msg => exact hsend .cmd _
  | close => rfl
  | checkpoint =>
    unfold OffchainSend.frame
    dsimp only
    cases inv.stateRoot with
    | none => rfl
    | some rootHex =>
      change Option.bind (OffchainSend.decodeRoot rootHex) _ =
        Option.map _ (Option.bind (OffchainSend.decodeRoot rootHex) _)
      cases OffchainSend.decodeRoot rootHex <;> rfl
  | ack | ackClose => rfl

theorem of_frame (h : inv.frame mt seq = some tlv) :
    tlv.version = tlvVersion ∧ tlv.msgType = mt.toU8 ∧ tlv.episodeId = inv.episodeId.toUInt64 ∧
      tlv.seq = seq := by
  cases mt with
  | new =>
    obtain ⟨participants, -, hsend⟩ := Option.bind_eq_some_iff.mp h
    obtain ⟨payload, -, rfl⟩ := Option.map_eq_some_iff.mp hsend
    exact ⟨rfl, rfl, rfl, rfl⟩
  | cmd =>
    obtain ⟨msg, -, hsend⟩ := Option.bind_eq_some_iff.mp h
    obtain ⟨payload, -, rfl⟩ := Option.map_eq_some_iff.mp hsend
    exact ⟨rfl, rfl, rfl, rfl⟩
  | close =>
    obtain rfl := Option.some.inj h
    exact ⟨rfl, rfl, rfl, rfl⟩
  | checkpoint =>
    obtain ⟨rootHex, -, hroot⟩ := Option.bind_eq_some_iff.mp h
    obtain ⟨root, -, hsome⟩ := Option.bind_eq_some_iff.mp hroot
    obtain rfl := Option.some.inj hsome
    exact ⟨rfl, rfl, rfl, rfl⟩
  | ack | ackClose => cases h

omit [Crypto] in
theorem readMsg_encode (hversion : tlv.version = tlvVersion) (htype : tlv.msgType = mt.toU8) :
    readMsg (OffchainRouter.recvFrom tlv.encode) =
      if 52 + tlv.payload.length % 2 ^ 16 ≤ 64 * 1024 then
        some (mt, { tlv with payload := tlv.payload.take (tlv.payload.length % 2 ^ 16) })
      else none := by
  have hfrom : Merchant.MsgType.fromU8 mt.toU8 = some mt := by cases mt <;> rfl
  have hknown : Merchant.MsgType.fromU8 tlv.msgType ≠ none := by
    rw [htype, hfrom]
    exact Option.some_ne_none mt
  have hdecode := TlvMsg.decode_take hversion hknown (by decide : 52 ≤ 64 * 1024)
  rw [readMsg, OffchainRouter.recvFrom, hdecode]
  by_cases hfits : 52 + tlv.payload.length % 2 ^ 16 ≤ 64 * 1024
  · rw [if_pos hfits, if_pos hfits]
    dsimp only
    rw [if_neg (not_not_intro hversion), htype, hfrom]
    rfl
  · rw [if_neg hfits, if_neg hfits]

end Frame

section Deliver
variable {router : OffchainRouter} {lastSeq : LastSeq} {bytes : Bytes} {mt : MsgType} {msg : TlvMsg}

def LastSeq.moved (lastSeq : LastSeq) (mt : MsgType) (episodeId seq : UInt64) : LastSeq :=
  if mt = .close then (lastSeq.insert episodeId seq).erase episodeId
  else lastSeq.insert episodeId seq

omit [Crypto] in
theorem moved_other {ep ep' seq : UInt64} (h : ep ≠ ep') :
    (LastSeq.moved lastSeq mt ep seq)[ep']? = lastSeq[ep']? := by
  unfold LastSeq.moved
  split
  · rw [getElem?_erase_of_ne h, getElem?_insert_of_ne h]
  · exact getElem?_insert_of_ne h seq

omit [Crypto] in
theorem moved_self (ep seq : UInt64) :
    (LastSeq.moved lastSeq mt ep seq)[ep]? = if mt = .close then none else some seq := by
  unfold LastSeq.moved
  split
  · exact ExtTreeMap.getElem?_erase_self
  · exact ExtTreeMap.getElem?_insert_self

theorem handle_refused (moment : Moment)
    (h : ∀ mt msg, readMsg bytes = some (mt, msg) →
      router.accepts mt msg.seq lastSeq[msg.episodeId]? = false) :
    router.handle moment lastSeq bytes = (.ignored, lastSeq) := by
  unfold OffchainRouter.handle
  cases hread : readMsg bytes with
  | none => rfl
  | some p => exact if_pos (h p.1 p.2 hread)

theorem handleAll_refused (arrivals : List UInt64)
    (h : ∀ mt msg, readMsg bytes = some (mt, msg) →
      router.accepts mt msg.seq lastSeq[msg.episodeId]? = false) :
    ((router.handleAll lastSeq (arrivals.map fun now => (⟨now, true⟩, bytes))).1.any
        fun out => out.accepted.isSome) = false ∧
      (router.handleAll lastSeq (arrivals.map fun now => (⟨now, true⟩, bytes))).2 = lastSeq := by
  induction arrivals with
  | nil => exact ⟨rfl, rfl⟩
  | cons now arrivals ih =>
    simp only [List.map_cons, OffchainRouter.handleAll, handle_refused ⟨now, true⟩ h]
    exact ih

omit [Crypto] in
theorem accepts_moved (hread : readMsg bytes = some (mt, msg)) :
    ∀ mt' msg', readMsg bytes = some (mt', msg') →
      router.accepts mt' msg'.seq (LastSeq.moved lastSeq mt msg.episodeId msg.seq)[msg'.episodeId]?
        = false := by
  intro mt' msg' hread'
  obtain ⟨rfl, rfl⟩ := Prod.mk.inj (Option.some.inj (hread.symm.trans hread'))
  rw [moved_self]
  split
  · rename_i hclose
    apply OffchainRouter.accepts_none
    rw [hclose]
    exact Merchant.MsgType.noConfusion
  · exact OffchainRouter.accepts_self

theorem handleAll_accepted (now : UInt64) (arrivals : List UInt64)
    (hread : readMsg bytes = some (mt, msg))
    (hacc : router.accepts mt msg.seq lastSeq[msg.episodeId]? = true) :
    ((router.handleAll lastSeq ((now :: arrivals).map fun now => (⟨now, true⟩, bytes))).1.any
        fun out => out.accepted.isSome) = true ∧
      (router.handleAll lastSeq ((now :: arrivals).map fun now => (⟨now, true⟩, bytes))).2 =
        LastSeq.moved lastSeq mt msg.episodeId msg.seq := by
  have haccepted : (router.handle ⟨now, true⟩ lastSeq bytes).1.accepted = some (mt, msg) :=
    OffchainRouter.handle_accepted.mpr ⟨hread, hacc⟩
  have hmoved : (router.handle ⟨now, true⟩ lastSeq bytes).2 =
      LastSeq.moved lastSeq mt msg.episodeId msg.seq :=
    (OffchainRouter.handles router ⟨now, true⟩ lastSeq bytes).lastSeq_eq rfl haccepted
  have hcopies : ∀ mt' msg', readMsg bytes = some (mt', msg') → router.accepts mt' msg'.seq
      (LastSeq.moved lastSeq mt msg.episodeId msg.seq)[msg'.episodeId]? = false :=
    accepts_moved hread
  obtain ⟨-, hrest⟩ := handleAll_refused arrivals hcopies
  simp only [List.map_cons, OffchainRouter.handleAll, hmoved, List.any_cons, haccepted,
    Option.isSome_some, Bool.true_or, hrest, and_self]

theorem deliver_cases (router : OffchainRouter) (lastSeq : LastSeq) {tlv : TlvMsg}
    (hversion : tlv.version = tlvVersion) (htype : tlv.msgType = mt.toU8)
    (arrivals : List UInt64) :
    (Post.deliver router lastSeq tlv arrivals =
        (true, LastSeq.moved lastSeq mt tlv.episodeId tlv.seq) ∧
      (arrivals ≠ [] ∧ 52 + tlv.payload.length % 2 ^ 16 ≤ 64 * 1024) ∧
        router.accepts mt tlv.seq lastSeq[tlv.episodeId]? = true) ∨
    (Post.deliver router lastSeq tlv arrivals = (false, lastSeq) ∧
      ¬ ((arrivals ≠ [] ∧ 52 + tlv.payload.length % 2 ^ 16 ≤ 64 * 1024) ∧
        router.accepts mt tlv.seq lastSeq[tlv.episodeId]? = true)) := by
  have hread := readMsg_encode hversion htype
  by_cases htaken : (arrivals ≠ [] ∧ 52 + tlv.payload.length % 2 ^ 16 ≤ 64 * 1024) ∧
      router.accepts mt tlv.seq lastSeq[tlv.episodeId]? = true
  · left
    obtain ⟨now, arrivals, rfl⟩ := List.exists_cons_of_ne_nil htaken.1.1
    rw [if_pos htaken.1.2] at hread
    obtain ⟨haccepted, hmoved⟩ := handleAll_accepted now arrivals hread htaken.2
    exact ⟨Prod.ext haccepted hmoved, htaken⟩
  · right
    refine ⟨?_, htaken⟩
    by_cases harrives : arrivals = []
    · subst harrives
      rfl
    have hrefused : ∀ mt' msg', readMsg (OffchainRouter.recvFrom tlv.encode) = some (mt', msg') →
        router.accepts mt' msg'.seq lastSeq[msg'.episodeId]? = false := by
      intro mt' msg' hread'
      rw [hread] at hread'
      split at hread'
      · rename_i hfits
        obtain ⟨rfl, rfl⟩ := Prod.mk.inj (Option.some.inj hread')
        exact Bool.eq_false_iff.mpr fun hacc => htaken ⟨⟨harrives, hfits⟩, hacc⟩
      · cases hread'
    obtain ⟨hnone, hsame⟩ := handleAll_refused arrivals hrefused
    exact Prod.ext hnone hsame

end Deliver

section Invoke
variable {router : OffchainRouter} {post : Post} {inv : Invocation} {mt : MsgType}

def Invocation.Ready (inv : Invocation) (mt : MsgType) : Prop :=
  inv.arrivals ≠ [] ∧
    ∃ tlv, inv.frame mt 0 = some tlv ∧ 52 + tlv.payload.length % 2 ^ 16 ≤ 64 * 1024

theorem ready_iff {seq : UInt64} {tlv : TlvMsg} (h : inv.frame mt seq = some tlv) :
    inv.Ready mt ↔ inv.arrivals ≠ [] ∧ 52 + tlv.payload.length % 2 ^ 16 ≤ 64 * 1024 := by
  rw [frame_seq] at h
  obtain ⟨first, hfirst, rfl⟩ := Option.map_eq_some_iff.mp h
  apply and_congr_right
  intro _
  constructor
  · rintro ⟨tlv, htlv, hfits⟩
    obtain rfl := Option.some.inj (hfirst.symm.trans htlv)
    exact hfits
  · exact fun hfits => ⟨first, hfirst, hfits⟩

theorem invoke_cases (router : OffchainRouter) (post : Post) (hmt : inv.msgType = some mt) :
    (post.invoke router inv = (true, ⟨(post.draw inv mt).2,
        LastSeq.moved post.lastSeq mt inv.episodeId.toUInt64 (post.draw inv mt).1⟩) ∧
      inv.Ready mt ∧ router.accepts mt (post.draw inv mt).1
        post.lastSeq[inv.episodeId.toUInt64]? = true) ∨
    (post.invoke router inv = (false, ⟨(post.draw inv mt).2, post.lastSeq⟩) ∧
      ¬ (inv.Ready mt ∧ router.accepts mt (post.draw inv mt).1
        post.lastSeq[inv.episodeId.toUInt64]? = true)) := by
  unfold Post.invoke
  rw [hmt]
  dsimp only
  cases hframe : inv.frame mt (post.draw inv mt).1 with
  | none =>
    right
    refine ⟨rfl, ?_⟩
    rintro ⟨⟨-, tlv, htlv, -⟩, -⟩
    rw [frame_seq, htlv] at hframe
    cases hframe
  | some tlv =>
    obtain ⟨hversion, htype, hepisode, hseq⟩ := of_frame hframe
    rw [ready_iff hframe, ← hepisode, ← hseq]
    dsimp only
    rcases deliver_cases router post.lastSeq hversion htype inv.arrivals with
      ⟨hdeliver, htaken⟩ | ⟨hdeliver, hnot⟩
    · left
      rw [hdeliver]
      exact ⟨rfl, htaken⟩
    · right
      rw [hdeliver]
      exact ⟨rfl, hnot⟩

theorem msgType_known (h : inv.msgType = some mt) :
    mt = .new ∨ mt = .cmd ∨ mt = .close ∨ mt = .checkpoint := by
  unfold OffchainSend.msgType at h
  split at h
  · exact .inl (Option.some.inj h).symm
  split at h
  · exact .inr (.inl (Option.some.inj h).symm)
  split at h
  · exact .inr (.inr (.inl (Option.some.inj h).symm))
  split at h
  · exact .inr (.inr (.inr (Option.some.inj h).symm))
  · cases h

def Invocation.draws (inv : Invocation) : Option EpisodeId :=
  inv.msgType.map fun _ => inv.episodeId

theorem of_draws {ep : EpisodeId} (h : inv.draws = some ep) :
    ∃ mt, inv.msgType = some mt ∧ inv.episodeId = ep :=
  Option.map_eq_some_iff.mp h

theorem draw_auto (post : Post) (mt : MsgType) (h : inv.forceSeq = none) :
    (post.draw inv mt).1 = (Client.autoSeq (Client.readSeqStore post.file) inv.episodeId.toUInt64
        (decide (mt = .new))).1 ∧
      Client.readSeqStore (post.draw inv mt).2 =
        (Client.readSeqStore post.file).insert inv.episodeId.toUInt64 (post.draw inv mt).1 := by
  unfold Post.draw Client.autoSeqFile
  rw [h]
  dsimp only
  rw [Client.readSeqStore_writeSeqStore]
  exact ⟨rfl, rfl⟩

theorem invoke_other (router : OffchainRouter) (post : Post) {ep : EpisodeId}
    (h : inv.draws ≠ some ep) :
    (Client.readSeqStore (post.invoke router inv).2.file)[ep.toUInt64]? =
        (Client.readSeqStore post.file)[ep.toUInt64]? ∧
      (post.invoke router inv).2.lastSeq[ep.toUInt64]? = post.lastSeq[ep.toUInt64]? := by
  cases hmt : inv.msgType with
  | none =>
    have hsame : post.invoke router inv = (false, post) := by
      unfold Post.invoke
      rw [hmt]
    rw [hsame]
    exact ⟨rfl, rfl⟩
  | some mt =>
    have hne : inv.episodeId.toUInt64 ≠ ep.toUInt64 := by
      intro heq
      apply h
      rw [Invocation.draws, hmt, ← UInt32.toUInt64_inj.mp heq]
      rfl
    have hfile : (Client.readSeqStore (post.draw inv mt).2)[ep.toUInt64]? =
        (Client.readSeqStore post.file)[ep.toUInt64]? := by
      cases hforce : inv.forceSeq with
      | some s =>
        unfold Post.draw
        rw [hforce]
      | none => rw [(draw_auto post mt hforce).2, getElem?_insert_of_ne hne]
    rcases invoke_cases router post hmt with ⟨hinvoke, -⟩ | ⟨hinvoke, -⟩
    · rw [hinvoke]
      exact ⟨hfile, moved_other hne⟩
    · rw [hinvoke]
      exact ⟨hfile, rfl⟩

end Invoke

/-- What the router can follow: an episode that is opened once and not used after its `Close`, of
which no message is lost. -/
structure Invocation.Goes (router : OffchainRouter) (earlier : List Invocation)
    (inv : Invocation) : Prop where
  ready : ∀ mt, inv.msgType = some mt → inv.Ready mt
  closes : inv.msgType = some .close → router.closeEnabled = true
  opens : inv.msgType = some .new ↔ earlier = []
  unclosed : ∀ e ∈ earlier, e.msgType ≠ some .close

def Lively (router : OffchainRouter) (draws : List Invocation) : Prop :=
  Throughout (Invocation.Goes router) draws

def drawnFor (ep : EpisodeId) (l : List Invocation) : List Invocation :=
  sentBy Invocation.draws (some ep) l

/-- The file has the last number that was drawn, and so has the table as long as the router could
follow. From then on it is behind. -/
structure Counted (router : OffchainRouter) (post : Post) (ep : EpisodeId)
    (draws : List Invocation) : Prop where
  fresh : draws = [] → (Client.readSeqStore post.file)[ep.toUInt64]? = none ∧
    post.lastSeq[ep.toUInt64]? = none
  drawn : ∀ last ∈ draws.getLast?, ∃ n : UInt64,
    (Client.readSeqStore post.file)[ep.toUInt64]? = some n ∧ n.toNat ≤ draws.length ∧
    (Lively router draws → post.lastSeq[ep.toUInt64]? =
      if last.msgType = some .close then none else some n) ∧
    (¬ Lively router draws → ∀ r, post.lastSeq[ep.toUInt64]? = some r → r < n)

section Counted
variable {router : OffchainRouter} {post : Post} {ep : EpisodeId} {draws : List Invocation}
  {inv last : Invocation} {mt : MsgType}

theorem Counted.congr {post' : Post} (h : Counted router post ep draws)
    (hstore : (Client.readSeqStore post'.file)[ep.toUInt64]? =
      (Client.readSeqStore post.file)[ep.toUInt64]?)
    (htable : post'.lastSeq[ep.toUInt64]? = post.lastSeq[ep.toUInt64]?) :
    Counted router post' ep draws := by
  constructor
  · rw [hstore, htable]
    exact h.fresh
  · rw [hstore, htable]
    exact h.drawn

theorem Lively.unclosed (h : Lively router draws) (hlast : last ∈ draws.getLast?)
    (hopen : last.msgType ≠ some .close) : ∀ e ∈ draws, e.msgType ≠ some .close := by
  obtain ⟨front, rfl⟩ := List.getLast?_eq_some_iff.mp (Option.mem_def.mp hlast)
  obtain ⟨-, hgoes⟩ := Throughout.concat.mp h
  intro e he
  rcases List.mem_append.mp he with he | he
  · exact hgoes.unclosed e he
  · rw [List.mem_singleton.mp he]
    exact hopen

theorem Counted.first (h : Counted router post ep []) (hmt : inv.msgType = some mt)
    (hep : inv.episodeId = ep) (hauto : inv.forceSeq = none) :
    (post.draw inv mt).1.toNat ≤ 1 ∧
      (inv.Ready mt ∧ router.accepts mt (post.draw inv mt).1
        post.lastSeq[inv.episodeId.toUInt64]? = true ↔ inv.Goes router []) := by
  subst hep
  obtain ⟨hstore, htable⟩ := h.fresh rfl
  have hnumber : (post.draw inv mt).1 = if mt = .new then 0 else 1 := by
    rw [(draw_auto post mt hauto).1, Client.autoSeq, hstore]
    dsimp only
    by_cases hnew : mt = .new
    · rw [if_pos hnew, if_pos (decide_eq_true hnew)]
    · rw [if_neg hnew, if_neg (by rw [decide_eq_true_eq]; exact hnew)]
  rw [hnumber, htable]
  refine ⟨by split <;> decide, ?_⟩
  constructor
  · rintro ⟨hready, hacc⟩
    rcases OffchainRouter.accepts_true hacc with ⟨rfl, -⟩ | ⟨-, prev, hprev, -⟩
    · exact {
        ready := fun mt hmt' => (Option.some.inj (hmt.symm.trans hmt')) ▸ hready
        closes := fun hclose => nomatch hmt.symm.trans hclose
        opens := iff_of_true hmt rfl
        unclosed := fun e he => absurd he List.not_mem_nil }
    · cases hprev
  · intro hgoes
    obtain rfl := Option.some.inj (hmt.symm.trans (hgoes.opens.mpr rfl))
    exact ⟨hgoes.ready _ hmt, rfl⟩

theorem Counted.next (h : Counted router post ep draws) (mt : MsgType)
    (hlast : last ∈ draws.getLast?) (hep : inv.episodeId = ep) (hauto : inv.forceSeq = none)
    (hlen : draws.length + 1 < 2 ^ 64) :
    ∃ n : UInt64, (post.draw inv mt).1 = n + 1 ∧ (post.draw inv mt).1.toNat = n.toNat + 1 ∧
      n.toNat ≤ draws.length ∧
      (∀ r, post.lastSeq[ep.toUInt64]? = some r → r < (post.draw inv mt).1) ∧
      (Lively router draws → post.lastSeq[ep.toUInt64]? =
        if last.msgType = some .close then none else some n) ∧
      (post.lastSeq[ep.toUInt64]? = some n → Lively router draws) := by
  subst hep
  obtain ⟨n, hstore, hle, hlively, hbehind⟩ := h.drawn last hlast
  have hone : (1 : UInt64).toNat = 1 := rfl
  have hnumber : (post.draw inv mt).1 = Saturating.add n 1 := by
    rw [(draw_auto post mt hauto).1, Client.autoSeq, hstore]
  have hnext : (Saturating.add n 1).toNat = n.toNat + 1 := by
    rw [Saturating.add_toNat, hone]
    omega
  have hsucc : Saturating.add n 1 = n + 1 := by
    rw [← UInt64.toNat_inj, hnext, UInt64.toNat_add, hone]
    omega
  have hbelow : ∀ r, post.lastSeq[inv.episodeId.toUInt64]? = some r → r.toNat ≤ n.toNat := by
    intro r hr
    by_cases hlive : Lively router draws
    · rw [hlively hlive] at hr
      split at hr
      · cases hr
      · rw [Option.some.inj hr]
    · exact Nat.le_of_lt (UInt64.lt_iff_toNat_lt.mp (hbehind hlive r hr))
  rw [hnumber]
  refine ⟨n, hsucc, hnext, hle, ?_, hlively, ?_⟩
  · intro r hr
    have hr := hbelow r hr
    rw [UInt64.lt_iff_toNat_lt]
    omega
  · intro hn
    by_contra hnot
    exact Nat.lt_irrefl _ (UInt64.lt_iff_toNat_lt.mp (hbehind hnot n hn))

theorem Counted.later (h : Counted router post ep draws) (hlast : last ∈ draws.getLast?)
    (hmt : inv.msgType = some mt) (hep : inv.episodeId = ep) (hauto : inv.forceSeq = none)
    (hlen : draws.length + 1 < 2 ^ 64) :
    inv.Ready mt ∧ router.accepts mt (post.draw inv mt).1
        post.lastSeq[inv.episodeId.toUInt64]? = true ↔
      Lively router draws ∧ inv.Goes router draws := by
  subst hep
  obtain ⟨n, hsucc, hnext, -, -, hlively, hcaught⟩ := h.next mt hlast rfl hauto hlen
  have hne : draws ≠ [] := by
    rintro rfl
    cases hlast
  constructor
  · rintro ⟨hready, hacc⟩
    -- the number zero is drawn for the first run only
    rcases OffchainRouter.accepts_true hacc with ⟨-, -, hzero⟩ | ⟨hkind, prev, hprev, hseq⟩
    · rw [hzero, UInt64.toNat_zero] at hnext
      omega
    obtain rfl : prev = n := by
      rw [hsucc] at hseq
      exact (UInt64.add_left_inj 1).mp hseq.symm
    have hlive : Lively router draws := hcaught hprev
    -- after a `Close` the table has nothing, so there is no number to follow on
    have hopen : last.msgType ≠ some .close := by
      intro hclose
      rw [hlively hlive, if_pos hclose] at hprev
      cases hprev
    refine ⟨hlive, ?_⟩
    exact {
      ready := fun mt' hmt' => (Option.some.inj (hmt.symm.trans hmt')) ▸ hready
      closes := fun hclose => by
        obtain rfl := Option.some.inj (hmt.symm.trans hclose)
        rcases hkind with hkind | hkind | ⟨-, henabled⟩
        · cases hkind
        · cases hkind
        · exact henabled
      opens := by
        refine iff_of_false ?_ hne
        intro hnew
        obtain rfl := Option.some.inj (hmt.symm.trans hnew)
        rcases hkind with hkind | hkind | ⟨hkind, -⟩ <;> cases hkind
      unclosed := hlive.unclosed hlast hopen }
  · rintro ⟨hlive, hgoes⟩
    have hopen : last.msgType ≠ some .close := by
      apply hgoes.unclosed
      exact List.mem_of_getLast? (Option.mem_def.mp hlast)
    rw [hlively hlive, if_neg hopen, hsucc]
    refine ⟨hgoes.ready mt hmt, OffchainRouter.accepts_next ?_⟩
    rcases msgType_known hmt with rfl | rfl | rfl | rfl
    · exact absurd (hgoes.opens.mp hmt) hne
    · exact .inl rfl
    · exact .inr (.inr ⟨rfl, hgoes.closes hmt⟩)
    · exact .inr (.inl rfl)

theorem Counted.step (h : Counted router post ep draws) (hdraws : inv.draws = some ep)
    (hauto : inv.forceSeq = none) (hlen : draws.length + 1 < 2 ^ 64) :
    ((post.invoke router inv).1 = true ↔ Lively router (draws ++ [inv])) ∧
      Counted router (post.invoke router inv).2 ep (draws ++ [inv]) := by
  obtain ⟨mt, hmt, hep⟩ := of_draws hdraws
  have hnext : (post.draw inv mt).1.toNat ≤ draws.length + 1 ∧
      (∀ r, post.lastSeq[ep.toUInt64]? = some r → r < (post.draw inv mt).1) ∧
      (inv.Ready mt ∧ router.accepts mt (post.draw inv mt).1
        post.lastSeq[inv.episodeId.toUInt64]? = true ↔ Lively router (draws ++ [inv])) := by
    have hconcat : Lively router (draws ++ [inv]) ↔ Lively router draws ∧ inv.Goes router draws :=
      Throughout.concat
    rw [hconcat]
    cases hlast : draws.getLast? with
    | some last =>
      obtain ⟨n, -, hsucc, hle, hbelow, -, -⟩ := h.next mt hlast hep hauto hlen
      exact ⟨by omega, hbelow, h.later hlast hmt hep hauto hlen⟩
    | none =>
      obtain rfl := List.getLast?_eq_none_iff.mp hlast
      -- nothing was drawn before: the file knows no number, and the router has no episode
      obtain ⟨hle, hiff⟩ := h.first hmt hep hauto
      refine ⟨hle, ?_, hiff.trans (and_iff_right Throughout.nil).symm⟩
      intro r hr
      cases (h.fresh rfl).2.symm.trans hr
  obtain ⟨hle, hbelow, hiff⟩ := hnext
  have hstore : (Client.readSeqStore (post.draw inv mt).2)[ep.toUInt64]? =
      some (post.draw inv mt).1 := by
    rw [(draw_auto post mt hauto).2, hep]
    exact ExtTreeMap.getElem?_insert_self
  have hlength : (draws ++ [inv]).length = draws.length + 1 := List.length_append
  have hfresh : draws ++ [inv] ≠ [] :=
    List.append_ne_nil_of_right_ne_nil draws (List.cons_ne_nil inv [])
  have hnewest : ∀ last ∈ (draws ++ [inv]).getLast?, last = inv := by
    intro last hlast
    rw [List.getLast?_concat] at hlast
    exact (Option.some.inj (Option.mem_def.mp hlast)).symm
  rcases invoke_cases router post hmt with ⟨hinvoke, htaken⟩ | ⟨hinvoke, hnot⟩
  · rw [hinvoke]
    refine ⟨iff_of_true rfl (hiff.mp htaken), fun hnil => absurd hnil hfresh, ?_⟩
    intro last hlast
    obtain rfl := hnewest last hlast
    refine ⟨(post.draw last mt).1, hstore, hlength ▸ hle, ?_, fun hdead => ?_⟩
    · intro _
      have hclose : last.msgType = some .close ↔ mt = .close := by
        rw [hmt]
        exact Option.some_inj
      dsimp only
      rw [hep, moved_self]
      simp only [hclose]
    -- taken up, so the runs before were lively as well
    · exact absurd (hiff.mp htaken) hdead
  · rw [hinvoke]
    refine ⟨iff_of_false Bool.false_ne_true fun hlive => hnot (hiff.mpr hlive),
      fun hnil => absurd hnil hfresh, ?_⟩
    intro last hlast
    obtain rfl := hnewest last hlast
    refine ⟨(post.draw last mt).1, hstore, hlength ▸ hle, ?_, fun _ => hbelow⟩
    exact fun hlive => absurd (hiff.mpr hlive) hnot

theorem drawnFor_self (l : List Invocation) (hdraws : inv.draws = some ep) :
    drawnFor ep (l ++ [inv]) = drawnFor ep l ++ [inv] := by
  rw [drawnFor, ← hdraws, sentBy_concat_self Invocation.draws l inv, hdraws, drawnFor]

theorem counted_after (router : OffchainRouter)
    (hstore : (Client.readSeqStore post.file)[ep.toUInt64]? = none)
    (htable : post.lastSeq[ep.toUInt64]? = none) {l : List Invocation}
    (hauto : ∀ inv ∈ drawnFor ep l, inv.forceSeq = none)
    (hlen : (drawnFor ep l).length < 2 ^ 64) :
    Counted router (post.after router l) ep (drawnFor ep l) := by
  induction l using List.reverseRecOn with
  | nil =>
    refine ⟨fun _ => ⟨hstore, htable⟩, ?_⟩
    intro last hlast
    cases hlast
  | append_singleton l inv ih =>
    rw [Post.after_concat]
    by_cases hdraws : inv.draws = some ep
    · rw [drawnFor_self l hdraws] at hauto hlen ⊢
      rw [List.length_append, List.length_singleton] at hlen
      have hearlier := ih (fun e he => hauto e (List.mem_append_left _ he)) (by omega)
      have hself := hauto inv (List.mem_append_right _ (List.mem_singleton.mpr rfl))
      exact (hearlier.step hdraws hself hlen).2
    · have hother : drawnFor ep (l ++ [inv]) = drawnFor ep l :=
        sentBy_concat_of_ne Invocation.draws l hdraws
      rw [hother] at hauto hlen ⊢
      obtain ⟨hkept, hsame⟩ := invoke_other router (post.after router l) hdraws
      exact (ih hauto hlen).congr hkept hsame

/-- The router accepts what a process sends for an episode just as long as it could follow: one
invocation that fails or is lost, and no later message of the episode is accepted. -/
theorem accepted_iff_lively (router : OffchainRouter) {earlier : List Invocation}
    (hdraws : inv.draws = some ep)
    (hstore : (Client.readSeqStore post.file)[ep.toUInt64]? = none)
    (htable : post.lastSeq[ep.toUInt64]? = none)
    (hauto : ∀ e ∈ drawnFor ep (earlier ++ [inv]), e.forceSeq = none)
    (hlen : (drawnFor ep (earlier ++ [inv])).length < 2 ^ 64) :
    ((post.after router earlier).invoke router inv).1 = true ↔
      Lively router (drawnFor ep (earlier ++ [inv])) := by
  rw [drawnFor_self earlier hdraws] at hauto hlen ⊢
  rw [List.length_append, List.length_singleton] at hlen
  have hcounted := counted_after router hstore htable
    (fun e he => hauto e (List.mem_append_left _ he)) (by omega)
  have hself := hauto inv (List.mem_append_right _ (List.mem_singleton.mpr rfl))
  exact (hcounted.step hdraws hself hlen).1

end Counted
end Kdapp.Lottery

namespace Kdapp.Lottery
open Std (ExtTreeMap)
attribute [local instance] idealCrypto

def plain (type : String) (amount : Option UInt64) (entropy : Option String) : Invocation where
  type
  episodeId := 5
  forceSeq := none
  key := none
  amount
  numbers := []
  entropy
  ticketId := none
  round := none
  stateRoot := none
  arrivals := [9]

/-- The draw is accepted right after the episode was opened, and not if a purchase without numbers
was tried in between. -/
theorem accepted_iff_lively_wasted :
    Lively ⟨true, true⟩ (drawnFor 5 ([plain "new" none none] ++ [plain "cmd" none (some "t")])) ∧
      ((Post.after ⟨true, true⟩ ⟨none, ∅⟩ [plain "new" none none, plain "cmd" (some 7) none]).invoke
        ⟨true, true⟩ (plain "cmd" none (some "t"))).1 = false := by
  have haccepted : ((Post.after ⟨true, true⟩ ⟨none, ∅⟩ [plain "new" none none]).invoke
      ⟨true, true⟩ (plain "cmd" none (some "t"))).1 = true := by
    decide +kernel
  constructor
  · refine (accepted_iff_lively ⟨true, true⟩ rfl ?_ ExtTreeMap.getElem?_empty ?_ ?_).mp haccepted
    · exact ExtTreeMap.getElem?_empty
    · decide +kernel
    · decide +kernel
  · decide +kernel

end Kdapp.Lottery
