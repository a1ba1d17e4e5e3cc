import Kdapp.Engine.Signatures
import Kdapp.Merchant.Address
import Kdapp.Merchant.Framing

/-! The in-process router (`kdapp-merchant/src/sim_router.rs`), and payments that reach the engine
through any of the three routers. -/

namespace Kdapp.Merchant
open Borsh Outcome
open Std (ExtTreeMap ExtTreeSet)

variable [Crypto]

/-- `SimRouter::forward`, with what arrives at the engine; the outer `none` is the panic of
`to_vec`. -/
def SimRouter.forward {G : Type} [Episode G] (moment : Moment) (msg : EpisodeMessage G) :
    Option (Option EngineMsg) :=
  (EpisodeMessage.codec.serialize msg).map fun payload =>
    moment.send (syntheticBlock 0 moment.now payload)

theorem SimRouter.forward_some {G : Type} [Episode G] {moment : Moment} {msg : EpisodeMessage G}
    {e : EngineMsg} (h : forward moment msg = some (some e)) :
    ∃ payload, EpisodeMessage.codec.serialize msg = some payload ∧
      e = syntheticBlock 0 moment.now payload := by
  obtain ⟨payload, hser, hsend⟩ := Option.map_eq_some_iff.mp h
  unfold Moment.send at hsend
  split at hsend
  · cases hsend
    exact ⟨payload, hser, rfl⟩
  · cases hsend

theorem SimRouter.forward_delivered {G : Type} [Episode G] (hlaw : (Episode.codec (G := G)).Lawful)
    {moment : Moment} {msg : EpisodeMessage G} {sent : Option EngineMsg}
    (h : forward moment msg = some sent) :
    ∀ p ∈ (Engine.delivered sent.toList : List (EpisodeMessage G × PayloadMetadata)),
      p.1 = msg ∧ p.2.acceptingTime = moment.now ∧ ∀ id, msg ≠ .revert id := by
  intro p hp
  cases sent with
  | none => cases hp
  | some e =>
    obtain ⟨payload, hser, rfl⟩ := forward_some h
    obtain ⟨tx, htx, hact, hmetadata⟩ := Engine.mem_delivered_block.mp hp
    obtain rfl := List.mem_singleton.mp htx
    have hdec := (EpisodeMessage.codec_lawful hlaw).fromSlice hser
    have hread := (Engine.fromSlice_of_action hact).symm.trans hdec
    have htime := congrArg PayloadMetadata.acceptingTime hmetadata
    refine ⟨Option.some.inj hread, htime, fun id hid => ?_⟩
    exact Engine.action_ne_revert hact id ((Option.some.inj hread).trans hid)

variable [Blake2b]

inductive Routed : EngineMsg → Prop
  | sim {moment e} {msg : EpisodeMessage ReceiptEpisode}
    (h : SimRouter.forward moment msg = some (some e)) : Routed e
  | udp {lastSeq datagrams out e} (hout : out ∈ (UdpRouter.run lastSeq datagrams).1)
    (h : out.delivered = some e) : Routed e
  | tcp {lastSeq connections out e} (hout : out ∈ (TcpRouter.run lastSeq connections).1)
    (h : out.delivered = some e) : Routed e

omit [Crypto] in
theorem handleAll_delivered {lastSeq : LastSeq} {arrivals : List (Moment × Bytes)} {out : Handled}
    {e : EngineMsg} (hout : out ∈ (handleAll lastSeq arrivals).1) (h : out.delivered = some e) :
    ∃ daa now payload, e = syntheticBlock daa now payload := by
  induction arrivals generalizing lastSeq with
  | nil => cases hout
  | cons arrival arrivals ih =>
    obtain ⟨moment, bytes⟩ := arrival
    rcases List.mem_cons.mp hout with hhead | htail
    · have hh := handles moment lastSeq bytes
      generalize (handle moment lastSeq bytes).2 = lastSeq' at hh
      rw [← hhead] at hh
      cases hh with
      | forged | ackType | unopened | outOfOrder | repeated => cases h
      | accepted hauth hmt hnext =>
        dsimp only at h
        split at h
        · cases h
        unfold Moment.send at h
        split at h
        · cases h
          exact ⟨_, _, _, rfl⟩
        · cases h
    · exact ih htail

theorem Routed.synthetic {e : EngineMsg} (h : Routed e) :
    ∃ blk tx, e = .blkAccepted blk ∧ blk.associatedTxs = [tx] ∧ tx.1 = Hash.default := by
  have hblock : ∃ daa now payload, e = syntheticBlock daa now payload := by
    cases h with
    | sim h =>
      obtain ⟨payload, -, rfl⟩ := SimRouter.forward_some h
      exact ⟨_, _, payload, rfl⟩
    | udp hout h => exact handleAll_delivered hout h
    | tcp hout h =>
      rw [TcpRouter.run_eq] at hout
      exact handleAll_delivered hout h
  obtain ⟨daa, now, payload, rfl⟩ := hblock
  exact ⟨_, _, rfl, rfl, rfl⟩

def Opens (id : EpisodeId) (e : EngineMsg) : Prop :=
  ∃ blk tx participants, e = .blkAccepted blk ∧ tx ∈ blk.associatedTxs ∧
    Engine.action tx.2.1 = some (.newEpisode id participants : EpisodeMessage ReceiptEpisode)

/-- A callback for a `MarkPaid` that succeeded. -/
def Pays (id : EpisodeId) (calls : List (HandlerCall ReceiptEpisode)) (invoiceId : UInt64) : Prop :=
  ∃ g payer auth metadata,
    HandlerCall.onCommand id g (MerchantCommand.markPaid invoiceId payer) auth metadata ∈ calls

def paidIds (id : EpisodeId) (calls : List (HandlerCall ReceiptEpisode)) : List UInt64 :=
  calls.filterMap fun
    | .onCommand id' _ (MerchantCommand.markPaid invoiceId _) _ _ =>
      if id' = id then some invoiceId else none
    | _ => none

/-- The id that routers give transactions carries a payment of the episode. -/
def Spent (id : EpisodeId) (s : Engine ReceiptEpisode) : Prop :=
  ∀ w, s.episodes[id]? = some w → Hash.default ∈ w.episode.usedCarrierTxs

section Engine
variable {s s' : Engine ReceiptEpisode} {id : EpisodeId} {metadata : PayloadMetadata}
  {a : EpisodeMessage ReceiptEpisode} {out : Kdapp.Handled ReceiptEpisode}
  {calls : List (HandlerCall ReceiptEpisode)}

omit [Blake2b] in
theorem ReceiptEpisode.Accepts.used {g g' : ReceiptEpisode} {cmd : MerchantCommand}
    {auth : Option PubKey} {rb : MerchantRollback} (h : g.Accepts metadata cmd auth rb g')
    {tx : Hash} (htx : tx ∈ g.usedCarrierTxs) : tx ∈ g'.usedCarrierTxs := by
  cases h with
  | markPaid => exact ExtTreeSet.mem_insert.mpr (.inr htx)
  | _ => exact htx

omit [Blake2b] in
theorem spent_congr {t : Engine ReceiptEpisode} (ht : t.episodes = s.episodes) (hs : Spent id s) :
    Spent id t := by
  intro w hw
  rw [ht] at hw
  exact hs w hw

omit [Blake2b] in
theorem spent_insert {t : Engine ReceiptEpisode} {id' : EpisodeId}
    {w : EpisodeWrapper ReceiptEpisode} (ht : t.episodes = s.episodes.insert id' w)
    (hw : id' = id → Hash.default ∈ w.episode.usedCarrierTxs) (hs : Spent id s) : Spent id t := by
  intro w' hw'
  rw [ht, ExtTreeMap.getElem?_insert] at hw'
  split at hw'
  · cases hw'
    exact hw (Std.LawfulEqOrd.eq_of_compare ‹_›)
  · exact hs w' hw'

omit [Blake2b] in
theorem spent_filter (hs : Spent id s) (daa : UInt64) : Spent id (s.filterOldEpisodes daa) := by
  intro w hw
  by_cases hexp : s.Expires daa id
  · rw [(Engine.filterOldEpisodes_expired hexp).1] at hw
    cases hw
  · rw [(Engine.filterOldEpisodes_kept hexp).1] at hw
    exact hs w hw

omit [Blake2b] in
theorem spent_of_handles (h : s.Handles metadata a out) (hnew : ∀ ps, a ≠ .newEpisode id ps)
    (hrevert : ∀ id', a ≠ .revert id') (hs : Spent id s) : Spent id out.engine := by
  cases h with
  | known | missing | forged => exact hs
  | @created id' ps g world hnone hinit =>
    refine spent_insert rfl (fun hid => ?_) hs
    subst hid
    exact absurd rfl (hnew ps)
  | rejected hcmd hsig hw hexec =>
    obtain ⟨rfl, rfl⟩ := ReceiptEpisode.execute_rejected hexec
    refine spent_insert rfl (fun hid => ?_) hs
    subst hid
    exact hs _ hw
  | executed hcmd hsig hw hexec =>
    refine spent_insert rfl (fun hid => ?_) hs
    subst hid
    exact (ReceiptEpisode.execute_ok hexec).1.used (hs _ hw)
  | popped | deleted => exact absurd rfl (hrevert _)

omit [Blake2b] in
theorem spent_of_pays {invoiceId : UInt64} (h : s.Handles metadata a out)
    (htx : metadata.txId = Hash.default) (hpays : Pays id out.calls invoiceId) :
    ¬ Spent id s ∧ Spent id out.engine ∧
      ∀ invoiceId', Pays id out.calls invoiceId' → invoiceId' = invoiceId := by
  -- only an executed command has a callback `onCommand`
  obtain ⟨g, payer, auth, md, hmem⟩ := hpays
  cases h with
  | known | missing | forged | rejected => cases hmem
  | created | popped | deleted => cases List.mem_singleton.mp hmem
  | @executed a cmd auth' w g' r world hcmd hsig hw hexec =>
    have hcall := List.mem_singleton.mp hmem
    injection hcall with hid hg hc hauth hmd
    subst hid hc
    obtain ⟨hacc, -⟩ := ReceiptEpisode.execute_ok hexec
    cases hacc with
    | markPaid hunused =>
      rw [htx] at hunused
      refine ⟨fun hs => hunused (hs w hw), ?_, ?_⟩
      · intro w' hw'
        rw [ExtTreeMap.getElem?_insert_self] at hw'
        cases hw'
        rw [htx]
        exact ExtTreeSet.mem_insert_self
      · rintro invoiceId' ⟨g₂, payer₂, auth₂, md₂, hmem₂⟩
        have hcall₂ := List.mem_singleton.mp hmem₂
        injection hcall₂ with hid₂ hg₂ hc₂ hauth₂ hmd₂
        exact (MerchantCommand.markPaid.inj hc₂).1

omit [Blake2b] in
theorem not_pays_nil {invoiceId : UInt64} : ¬ Pays id [] invoiceId := by
  rintro ⟨g, payer, auth, md, hmem⟩
  cases hmem

theorem routed_step {e : EngineMsg} {es : List EngineMsg} (he : Routed e) (hnew : ¬ Opens id e)
    (h : Engine.start (e :: es) s = .ok (s', calls)) :
    ∃ t c c', Engine.start es t = .ok (s', c') ∧ calls = c ++ c' ∧ (Spent id s → Spent id t) ∧
      ∀ invoiceId, Pays id c invoiceId → ¬ Spent id s ∧ Spent id t ∧
        ∀ invoiceId', Pays id c invoiceId' → invoiceId' = invoiceId := by
  obtain ⟨blk, tx, rfl, htx, hid⟩ := he.synthetic
  obtain ⟨t, c, c', hblock, htail, rfl⟩ := Engine.start_blkAccepted_ok h
  refine ⟨t, c, c', htail, rfl, ?_⟩
  rcases Engine.acceptBlock_single htx hblock with
    ⟨-, rfl, hepisodes, -⟩ | ⟨a, out, ha, hout, rfl, hepisodes, -⟩
  · exact ⟨fun hs => spent_congr hepisodes (spent_filter hs _),
      fun _ hpays => absurd hpays not_pays_nil⟩
  · refine ⟨fun hs => ?_, fun invoiceId hpays => ?_⟩
    · refine spent_congr hepisodes (spent_of_handles hout (fun ps hps => hnew ?_)
        (fun id' => Engine.action_ne_revert ha id') (spent_filter hs _))
      have hmem : tx ∈ blk.associatedTxs := htx ▸ List.mem_singleton_self tx
      exact ⟨blk, tx, ps, rfl, hmem, ha.trans (congrArg some hps)⟩
    · obtain ⟨hunspent, hspent, hunique⟩ := spent_of_pays hout hid hpays
      exact ⟨fun hs => hunspent (spent_filter hs _), spent_congr hepisodes hspent, hunique⟩

omit [Blake2b] in
theorem mem_paidIds {invoiceId : UInt64} :
    invoiceId ∈ paidIds id calls ↔ Pays id calls invoiceId := by
  constructor
  · intro hmem
    obtain ⟨call, hcall, hid⟩ := List.mem_filterMap.mp hmem
    split at hid
    · split at hid
      · cases hid
        subst ‹_ = id›
        exact ⟨_, _, _, _, hcall⟩
      · cases hid
    · cases hid
  · rintro ⟨g, payer, auth, md, hcall⟩
    exact List.mem_filterMap.mpr ⟨_, hcall, if_pos rfl⟩

omit [Blake2b] in
theorem pays_append {calls' : List (HandlerCall ReceiptEpisode)} {invoiceId : UInt64}
    (h : Pays id (calls ++ calls') invoiceId) :
    Pays id calls invoiceId ∨ Pays id calls' invoiceId := by
  obtain ⟨g, payer, auth, md, hmem⟩ := h
  exact (List.mem_append.mp hmem).imp (fun hm => ⟨g, payer, auth, md, hm⟩)
    fun hm => ⟨g, payer, auth, md, hm⟩

theorem spent_run {events : List EngineMsg} (hrouted : ∀ e ∈ events, Routed e)
    (hnew : ∀ e ∈ events, ¬ Opens id e) (hs : Spent id s)
    (h : Engine.start events s = .ok (s', calls)) (invoiceId : UInt64) :
    ¬ Pays id calls invoiceId := by
  induction events generalizing s calls with
  | nil =>
    cases h
    exact not_pays_nil
  | cons e es ih =>
    obtain ⟨he, hes⟩ := List.forall_mem_cons.mp hrouted
    obtain ⟨hopen, hopens⟩ := List.forall_mem_cons.mp hnew
    obtain ⟨t, c, c', htail, rfl, hkeep, hpaid⟩ := routed_step he hopen h
    intro hpays
    rcases pays_append hpays with hpays | hpays
    · exact (hpaid invoiceId hpays).1 hs
    · exact ih hes hopens (hkeep hs) htail hpays

theorem pays_unique {events : List EngineMsg} {invoiceId invoiceId' : UInt64}
    (hrouted : ∀ e ∈ events, Routed e) (hnew : ∀ e ∈ events, ¬ Opens id e)
    (h : Engine.start events s = .ok (s', calls)) (hpays : Pays id calls invoiceId)
    (hpays' : Pays id calls invoiceId') : invoiceId' = invoiceId := by
  induction events generalizing s calls with
  | nil =>
    cases h
    exact absurd hpays not_pays_nil
  | cons e es ih =>
    obtain ⟨he, hes⟩ := List.forall_mem_cons.mp hrouted
    obtain ⟨hopen, hopens⟩ := List.forall_mem_cons.mp hnew
    obtain ⟨t, c, c', htail, rfl, hkeep, hpaid⟩ := routed_step he hopen h
    -- whichever is paid first spends the carrier, and nothing is paid after that
    rcases pays_append hpays with hfirst | hlater
    · obtain ⟨-, hspent, hunique⟩ := hpaid invoiceId hfirst
      rcases pays_append hpays' with hfirst' | hlater'
      · exact hunique invoiceId' hfirst'
      · exact absurd hlater' (spent_run hes hopens hspent htail invoiceId')
    · rcases pays_append hpays' with hfirst' | hlater'
      · exact absurd hlater (spent_run hes hopens (hpaid invoiceId' hfirst').2.1 htail invoiceId)
      · exact ih hes hopens htail hlater hlater'

theorem offChain_never_both {events : List EngineMsg} {invoiceId invoiceId' : UInt64}
    (hrouted : ∀ e ∈ events, Routed e) (hnew : ∀ e ∈ events, ¬ Opens id e)
    (hne : invoiceId ≠ invoiceId') :
    ¬ ∃ s' calls, Engine.start events s = .ok (s', calls) ∧
      Pays id calls invoiceId ∧ Pays id calls invoiceId' := by
  rintro ⟨s', calls, h, hpays, hpays'⟩
  exact hne (pays_unique hrouted hnew h hpays hpays').symm

end Engine
end Kdapp.Merchant

namespace Kdapp.Merchant.ReceiptEpisode
open Borsh
open Std (ExtTreeMap)
attribute [local instance] idealCrypto idealBlake2b

def payment (invoiceId : UInt64) : EpisodeMessage ReceiptEpisode :=
  let cmd := MerchantCommand.markPaid invoiceId (2 : UInt8)
  .signedCommand 5 cmd (2 : UInt8)
    (signMessage (2 : UInt8) ((toMessage MerchantCommand.codec cmd).getD (Crypto.sha256 [])))

/-- The payment as `SimRouter` forwards it, and in a transaction on chain. -/
def forwarded (invoiceId : UInt64) : EngineMsg :=
  syntheticBlock 0 9 ((EpisodeMessage.codec.serialize (payment invoiceId)).getD [])

def onChain (invoiceId : UInt64) (tx : UInt8) : EngineMsg :=
  .blkAccepted {
    acceptingHash := Hash.filled tx
    acceptingDaa := 0
    acceptingTime := 9
    associatedTxs := [(Hash.filled tx,
      (EpisodeMessage.codec.serialize (payment invoiceId)).getD [], none)] }

def twoOpen : ReceiptEpisode × Storage :=
  afterCommand created (some (1 : UInt8)) (blockAt 1 4 []) (.createInvoice 8 50 none)

def host : Engine ReceiptEpisode :=
  { Engine.new twoOpen.2 with
    episodes := (∅ : ExtTreeMap EpisodeId (EpisodeWrapper ReceiptEpisode)).insert 5 ⟨twoOpen.1, []⟩
    episodeCreationTimes := (∅ : ExtTreeMap EpisodeId UInt64).insert 5 0 }

def callsOf (events : List EngineMsg) : List (HandlerCall ReceiptEpisode) :=
  match Engine.start events host with
  | .ok (_, calls) => calls
  | .error _ => []

theorem payment_valid (invoiceId : UInt64) : (payment invoiceId).SignatureValid :=
  ⟨_, rfl, verifySignature_signMessage (2 : UInt8) _⟩

theorem forward_payment (invoiceId : UInt64) :
    SimRouter.forward ⟨9, true⟩ (payment invoiceId) = some (some (forwarded invoiceId)) := rfl

/-- Both payments are signed by their payer. The second is refused when `SimRouter` forwards them,
and accepted when they come in two transactions. -/
theorem second_refused :
    (∀ invoiceId ∈ [(7 : UInt64), 8], ∃ inv : Invoice, twoOpen.1.invoices[invoiceId]? = some inv ∧
      inv.status = .open) ∧
    (2 : UInt8) ∈ twoOpen.1.customers ∧
    (∀ invoiceId, (payment invoiceId).SignatureValid ∧
      SimRouter.forward ⟨9, true⟩ (payment invoiceId) = some (some (forwarded invoiceId))) ∧
    ¬ (Pays 5 (callsOf [forwarded 7, forwarded 8]) 7 ∧
      Pays 5 (callsOf [forwarded 7, forwarded 8]) 8) ∧
    Pays 5 (callsOf [onChain 7 2, onChain 8 3]) 7 ∧
      Pays 5 (callsOf [onChain 7 2, onChain 8 3]) 8 := by
  have hoff : paidIds 5 (callsOf [forwarded 7, forwarded 8]) = [7] := by decide +kernel
  have hon : paidIds 5 (callsOf [onChain 7 2, onChain 8 3]) = [7, 8] := by decide +kernel
  refine ⟨?_, by decide +kernel, fun i => ⟨payment_valid i, forward_payment i⟩, ?_, ?_⟩
  · rw [List.forall_mem_cons, List.forall_mem_singleton]
    exact ⟨⟨_, rfl, rfl⟩, ⟨_, rfl, rfl⟩⟩
  · simp only [← mem_paidIds, hoff]
    decide
  · simp only [← mem_paidIds, hon]
    decide

theorem forwarded_never_both : ¬ ∃ s' calls,
    Engine.start [forwarded 7, forwarded 8] host = .ok (s', calls) ∧
      Pays 5 calls 7 ∧ Pays 5 calls 8 := by
  have hopens : ∀ invoiceId, ¬ Opens 5 (forwarded invoiceId) := by
    rintro invoiceId ⟨blk, tx, participants, he, htx, hact⟩
    obtain ⟨payload, hser⟩ : ∃ payload, EpisodeMessage.codec.serialize (payment invoiceId) =
      some payload := ⟨_, rfl⟩
    rw [forwarded, hser] at he
    cases he
    cases List.mem_singleton.mp htx
    have hdec := (EpisodeMessage.codec_lawful MerchantCommand.codec_lawful).fromSlice hser
    have hpayment := Engine.action_of_fromSlice hdec (fun id' => nofun)
    cases hpayment.symm.trans hact
  refine offChain_never_both ?_ ?_ (by decide)
  · rw [List.forall_mem_cons, List.forall_mem_singleton]
    exact ⟨.sim (forward_payment 7), .sim (forward_payment 8)⟩
  · rw [List.forall_mem_cons, List.forall_mem_singleton]
    exact ⟨hopens 7, hopens 8⟩

end Kdapp.Merchant.ReceiptEpisode
