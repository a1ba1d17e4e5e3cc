import Kdapp.Merchant.Ledger

/-! The trees hold the episode at every step, so that it can be opened again from them. -/

namespace Kdapp.Merchant
open Borsh
open Std (ExtTreeMap ExtTreeSet)

variable [Crypto]

def Invoice.Formed (inv : Invoice) : Prop :=
  match inv.status with
  | .paid | .acked => inv.payer.isSome = true ∧ inv.carrierTx.isSome = true
  | .open | .canceled => inv.payer = none ∧ inv.carrierTx = none

theorem Invoice.formed_iff {inv : Invoice} :
    inv.Formed ↔ ∃ bill, inv.undated = Bill.toInvoice inv.id bill := by
  obtain ⟨id, amount, memo, createdAt, lastUpdate, status, payer, carrierTx⟩ := inv
  constructor
  · intro h
    have hstate : ∃ state : BillState, status = state.status ∧
        payer = state.payment.map (·.1) ∧ carrierTx = state.payment.map (·.2) := by
      cases status with
      | «open» => exact ⟨.open, rfl, h.1, h.2⟩
      | canceled => exact ⟨.canceled, rfl, h.1, h.2⟩
      | paid =>
        obtain ⟨⟨pk, rfl⟩, ⟨tx, rfl⟩⟩ :=
          h.imp Option.isSome_iff_exists.mp Option.isSome_iff_exists.mp
        exact ⟨.paid pk tx, rfl, rfl, rfl⟩
      | acked =>
        obtain ⟨⟨pk, rfl⟩, ⟨tx, rfl⟩⟩ :=
          h.imp Option.isSome_iff_exists.mp Option.isSome_iff_exists.mp
        exact ⟨.acked pk tx, rfl, rfl, rfl⟩
    obtain ⟨state, rfl, rfl, rfl⟩ := hstate
    exact ⟨⟨amount, memo, createdAt, state⟩, rfl⟩
  · rintro ⟨⟨amount', memo', createdAt', state⟩, heq⟩
    have hstatus : status = state.status := congrArg Invoice.status heq
    have hpayer : payer = state.payment.map (·.1) := congrArg Invoice.payer heq
    have hcarrier : carrierTx = state.payment.map (·.2) := congrArg Invoice.carrierTx heq
    subst hstatus hpayer hcarrier
    cases state <;> exact ⟨rfl, rfl⟩

/-- The trees hold nothing but records as they are written, under their own ids. -/
structure Storage.Sound (db : Storage) : Prop where
  mirrored : Storage.Mirrored db.loadInvoices db.loadSubscriptions db.loadCustomers db
  invoices : ∀ (id : UInt64) (inv : Invoice), db.loadInvoices[id]? = some inv →
    inv.id = id ∧ inv.Formed
  subscriptions : ∀ (id : UInt64) (sub : Subscription), db.loadSubscriptions[id]? = some sub →
    sub.id = id

namespace Storage.Sound
variable {db db' : Storage} {u : Unit}

theorem of_mirrored {invoices : ExtTreeMap UInt64 Invoice}
    {subscriptions : ExtTreeMap UInt64 Subscription} {customers : ExtTreeMap PubKey CustomerInfo}
    (hm : Storage.Mirrored invoices subscriptions customers db)
    (hinvoices : ∀ (id : UInt64) (inv : Invoice), invoices[id]? = some inv →
      inv.id = id ∧ inv.Formed)
    (hsubscriptions : ∀ (id : UInt64) (sub : Subscription), subscriptions[id]? = some sub →
      sub.id = id) : db.Sound := by
  obtain ⟨rfl, rfl, rfl⟩ := hm.loaded
  exact ⟨hm, hinvoices, hsubscriptions⟩

theorem init : Storage.init.Sound :=
  of_mirrored .init (fun id inv h => by rw [ExtTreeMap.getElem?_empty] at h; cases h)
    fun id sub h => by rw [ExtTreeMap.getElem?_empty] at h; cases h

theorem putCustomer (h : db.Sound) {pk : PubKey} {info : CustomerInfo}
    (hput : (putCustomer pk info).run db = .ok (u, db')) : db'.Sound :=
  of_mirrored (h.mirrored.putCustomer hput) h.invoices h.subscriptions

theorem register {pks : List PubKey} (h : db.Sound)
    (hregister : (ReceiptEpisode.register pks).run db = .ok (u, db')) : db'.Sound := by
  induction pks generalizing db with
  | nil =>
    cases hregister
    exact h
  | cons pk pks ih =>
    obtain ⟨u', db₁, hput, hrest⟩ := Outcome.run_bind_ok hregister
    exact ih (h.putCustomer hput) hrest

end Storage.Sound

namespace ReceiptEpisode
variable {merchantKeys : List PubKey} {g g₀ : ReceiptEpisode} {db db₀ db' : Storage}
  {log : List Record} {b : Bills} {p : Plans}

/-- The trees hold the episode, and the episode has bills and plans behind it. -/
def Persisted (g : ReceiptEpisode) (db : Storage) : Prop :=
  (∃ b p, ShowsBills g.merchantKeys g b ∧ ShowsPlans g p) ∧ g.Mirrored db

theorem initializeWith_sound {participants : List PubKey} {metadata : PayloadMetadata}
    (h : db.Sound) (hstart : (initializeWith participants metadata).run db = .ok (g₀, db₀)) :
    g₀.Persisted db₀ := by
  obtain ⟨rfl, -, hinvoices, hsubscriptions, hcustomers, hused⟩ := initializeWith_ok hstart
  have hbill : ∀ id : UInt64, ∃ bill? : Option Bill,
      (g₀.invoices[id]?).map Invoice.undated = bill?.map (Bill.toInvoice id) := by
    intro id
    cases hinv : g₀.invoices[id]? with
    | none => exact ⟨none, rfl⟩
    | some inv =>
      rw [hinvoices] at hinv
      obtain ⟨rfl, hformed⟩ := h.invoices id inv hinv
      obtain ⟨bill, heq⟩ := Invoice.formed_iff.mp hformed
      exact ⟨some bill, congrArg some heq⟩
  have hplan : ∀ id : UInt64, ∃ plan? : Option Plan,
      g₀.subscriptions[id]? = plan?.map (Plan.toSubscription id) := by
    intro id
    cases hsub : g₀.subscriptions[id]? with
    | none => exact ⟨none, rfl⟩
    | some sub =>
      rw [hsubscriptions] at hsub
      obtain rfl := h.subscriptions id sub hsub
      exact ⟨some ⟨sub.customer, sub.amount, sub.interval, sub.nextRun⟩, rfl⟩
  choose b hb using hbill
  choose p hp using hplan
  refine ⟨⟨b, p, ⟨rfl, hb, fun tx => (hused tx).trans (carries_iff hb tx).symm⟩, hp⟩, ?_⟩
  unfold Mirrored
  rw [hinvoices, hsubscriptions, hcustomers]
  exact h.mirrored

theorem ShowsBills.formed (h : ShowsBills merchantKeys g b) {id : UInt64} {inv : Invoice}
    (hinv : g.invoices[id]? = some inv) : inv.id = id ∧ inv.Formed := by
  obtain ⟨bill, -, heq⟩ := h.bill hinv
  obtain rfl : inv.id = id := congrArg Invoice.id heq
  exact ⟨rfl, Invoice.formed_iff.mpr ⟨bill, heq⟩⟩

theorem Persisted.sound (h : g.Persisted db) : db.Sound := by
  obtain ⟨⟨b, p, hb, hp⟩, hm⟩ := h
  exact .of_mirrored hm (fun id inv => hb.formed) fun id sub => (hb.keyed hp).subscriptions id sub

theorem Persisted.execute {cmd : MerchantCommand} {auth : Option PubKey}
    {metadata : PayloadMetadata} {rb : MerchantRollback} {g' : ReceiptEpisode} (h : g.Persisted db)
    (hexec : (g.execute auth metadata cmd).run db = .ok ((g', .ok rb), db')) :
    g'.Persisted db' := by
  obtain ⟨⟨b, p, hb, hp⟩, hm⟩ := h
  obtain ⟨hacc, hmirrored⟩ := execute_ok hexec
  obtain ⟨b', -, hb'⟩ := hb.accepts hacc
  obtain ⟨p', -, hp'⟩ := hp.accepts hacc
  rw [← hb'.merchantKeys] at hb'
  exact ⟨⟨b', p', hb', hp'⟩, hmirrored (hb.keyed hp) hm⟩

theorem Persisted.reachable {allowed : MerchantCommand → PayloadMetadata → Prop}
    (h₀ : g₀.Persisted db₀) (h : Reachable allowed g₀ db₀ log g db') : g.Persisted db' := by
  obtain ⟨⟨b₀, p₀, hb₀, hp₀⟩, hm₀⟩ := h₀
  obtain ⟨books, -, hb, hp, hm⟩ := h.entered hb₀ hp₀
  rw [← hb.merchantKeys] at hb
  exact ⟨⟨_, _, hb, hp⟩, hm hm₀⟩

theorem Persisted.reopened (h : g.Persisted db) (participants : List PubKey)
    (metadata : PayloadMetadata) :
    ∃ g', (initializeWith participants metadata).run db = .ok (g', db) ∧
      g'.invoices = g.invoices ∧ g'.subscriptions = g.subscriptions ∧
      g'.customers = g.customers ∧ g'.usedCarrierTxs = g.usedCarrierTxs := by
  obtain ⟨⟨b, p, hb, hp⟩, hm⟩ := h
  obtain ⟨hinvoices, hsubscriptions, hcustomers⟩ := Storage.Mirrored.loaded hm
  obtain ⟨g', hopen⟩ : ∃ g', (initializeWith participants metadata).run db = .ok (g', db) :=
    ⟨_, rfl⟩
  obtain ⟨-, -, hi, hs, hc, hused⟩ := initializeWith_ok hopen
  rw [hinvoices] at hi
  refine ⟨g', hopen, hi, hs.trans hsubscriptions, hc.trans hcustomers, ?_⟩
  -- the set of used transactions is not stored but collected from the invoices
  apply ExtTreeSet.ext_mem
  intro tx
  rw [hused tx, hb.used tx, carries_iff hb.entries tx, hi]

/-- The trees hold the episode at every step; an episode that is opened on them is the same. -/
theorem persistent {participants : List PubKey} {metadata : PayloadMetadata} (hsound : db.Sound)
    (hstart : (initializeWith participants metadata).run db = .ok (g₀, db₀))
    (h : Reachable (fun _ _ => True) g₀ db₀ log g db') :
    db'.loadInvoices = g.invoices ∧ db'.loadSubscriptions = g.subscriptions ∧
      db'.loadCustomers = g.customers ∧ db'.Sound ∧
      ∀ participants' metadata', ∃ g', (initializeWith participants' metadata').run db' =
        .ok (g', db') ∧ g'.invoices = g.invoices ∧ g'.subscriptions = g.subscriptions ∧
        g'.customers = g.customers ∧ g'.usedCarrierTxs = g.usedCarrierTxs := by
  have hg : g.Persisted db' := (initializeWith_sound hsound hstart).reachable h
  obtain ⟨hinvoices, hsubscriptions, hcustomers⟩ := Storage.Mirrored.loaded hg.2
  exact ⟨hinvoices, hsubscriptions, hcustomers, hg.sound, hg.reopened⟩

/-- Whatever a command is rejected for, no field of the episode and no tree has changed by then. -/
theorem errors_atomic {auth : Option PubKey} {metadata : PayloadMetadata} {cmd : MerchantCommand}
    {e : EpisodeError MerchantError} {g' : ReceiptEpisode}
    (h : (g.execute auth metadata cmd).run db = .ok ((g', .error e), db')) :
    (g'.merchantKeys = g.merchantKeys ∧ g'.invoices = g.invoices ∧
      g'.subscriptions = g.subscriptions ∧ g'.customers = g.customers ∧
      g'.usedCarrierTxs = g.usedCarrierTxs) ∧
    db'.invoices = db.invoices ∧ db'.customers = db.customers ∧
      db'.subscriptions = db.subscriptions := by
  obtain ⟨rfl, rfl⟩ := execute_rejected h
  exact ⟨⟨rfl, rfl, rfl, rfl, rfl⟩, rfl, rfl, rfl⟩

end ReceiptEpisode
end Kdapp.Merchant

namespace Kdapp.Merchant.ReceiptEpisode
attribute [local instance] idealCrypto

theorem persistent_acked : acked.2.loadInvoices = acked.1.invoices := by
  have hrun := acked_reachable (fun _ _ => True) (fun _ _ _ _ => trivial) trivial
    (fun _ _ => trivial)
  exact (persistent (Storage.Sound.init.register register_shop) (opened_shop payingBlock) hrun).1

/-- Invoice 7 cannot be paid with less than its amount. -/
theorem errors_atomic_unpaid : ∃ g' e db',
    (created.1.execute (some (2 : UInt8)) (blockAt 2 2 [⟨99, 0, none⟩])
      (.markPaid 7 (2 : UInt8))).run created.2 = .ok ((g', .error e), db') ∧
    (g'.merchantKeys = created.1.merchantKeys ∧ g'.invoices = created.1.invoices ∧
      g'.subscriptions = created.1.subscriptions ∧ g'.customers = created.1.customers ∧
      g'.usedCarrierTxs = created.1.usedCarrierTxs) ∧
    db'.invoices = created.2.invoices ∧ db'.customers = created.2.customers ∧
      db'.subscriptions = created.2.subscriptions := by
  have hrun : (created.1.execute (some (2 : UInt8)) (blockAt 2 2 [⟨99, 0, none⟩])
      (.markPaid 7 (2 : UInt8))).run created.2 =
        .ok ((created.1, .error (.invalidCommand .invalidAmount)), created.2) := rfl
  exact ⟨_, _, _, hrun, errors_atomic hrun⟩

end Kdapp.Merchant.ReceiptEpisode
