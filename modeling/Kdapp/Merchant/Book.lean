import Kdapp.Library.UndoLog
import Kdapp.Merchant.Steps
import Mathlib.Logic.Function.Basic

/-! The books behind the receipt episode. A bill is open, canceled, or paid by someone with a
transaction; a plan charges a customer again and again. The episode holds the same twice over:
ids beside the keys, used transactions, and the lists of the customers. -/

namespace Kdapp.Merchant
open Std (ExtTreeMap ExtTreeSet LawfulEqOrd ReflCmp)
open Function (update)

variable [Crypto]

/-- An accepted command and what `execute` returned for its rollback. -/
structure Record where
  cmd : MerchantCommand
  authorization : Option PubKey
  metadata : PayloadMetadata
  rollback : MerchantRollback

def MerchantRollback.onInvoices : MerchantRollback → Bool
  | .undoCreate _ | .undoPaid _ | .undoAck _ | .undoCancel _ => true
  | _ => false

inductive BillState where
  | open
  | paid (payer : PubKey) (carrierTx : Hash)
  | acked (payer : PubKey) (carrierTx : Hash)
  | canceled

namespace BillState

def status : BillState → InvoiceStatus
  | .open => .open
  | .paid _ _ => .paid
  | .acked _ _ => .acked
  | .canceled => .canceled

def payment : BillState → Option (PubKey × Hash)
  | .paid payer tx | .acked payer tx => some (payer, tx)
  | .open | .canceled => none

theorem eq_open {state : BillState} (h : state.status = .open) : state = .open := by
  cases state with
  | «open» => rfl
  | _ => cases h

theorem eq_paid {state : BillState} (h : state.status = .paid) :
    ∃ payer tx, state = .paid payer tx := by
  cases state with
  | paid payer tx => exact ⟨payer, tx, rfl⟩
  | _ => cases h

end BillState

structure Bill where
  amount : UInt64
  memo : Option String
  createdAt : UInt64
  state : BillState

def Bill.toInvoice (id : UInt64) (bill : Bill) : Invoice where
  id := id
  amount := bill.amount
  memo := bill.memo
  createdAt := bill.createdAt
  lastUpdate := 0
  status := bill.state.status
  payer := bill.state.payment.map (·.1)
  carrierTx := bill.state.payment.map (·.2)

def Invoice.undated (inv : Invoice) : Invoice := { inv with lastUpdate := 0 }

theorem Bill.undated_withStatus {id : UInt64} {inv : Invoice} {bill : Bill}
    (heq : inv.undated = bill.toInvoice id) (state : BillState)
    (hpay : state.payment = bill.state.payment) (time : UInt64) :
    Invoice.undated { inv with status := state.status, lastUpdate := time } =
      Bill.toInvoice id { bill with state := state } := by
  have hstatus := congrArg (fun i : Invoice => { i with status := state.status }) heq
  simp only [Bill.toInvoice, hpay]
  exact hstatus

structure Plan where
  customer : PubKey
  amount : UInt64
  interval : UInt64
  nextRun : UInt64

def Plan.toSubscription (id : UInt64) (plan : Plan) : Subscription where
  id := id
  customer := plan.customer
  amount := plan.amount
  interval := plan.interval
  nextRun := plan.nextRun

abbrev Bills := UInt64 → Option Bill
abbrev Plans := UInt64 → Option Plan

namespace Bills

def payments (b : Bills) : UInt64 → Option (PubKey × Hash) :=
  fun id => (b id).bind (·.state.payment)

def Carries (b : Bills) (tx : Hash) : Prop := ∃ id payer, b.payments id = some (payer, tx)

inductive Applies (merchantKeys : List PubKey) : Record → Bills → Bills → Prop
  | create {b : Bills} {id amount memo auth metadata} (hnew : b id = none) :
    Applies merchantKeys ⟨.createInvoice id amount memo, auth, metadata, .undoCreate id⟩ b
      (update b id (some ⟨amount, memo, metadata.acceptingTime, .open⟩))
  | pay {b : Bills} {id payer metadata bill} (hbill : b id = some bill)
    (hopen : bill.state = .open) (hfree : ¬ b.Carries metadata.txId)
    (houts : checkOutputs merchantKeys bill.amount metadata.txOutputs = .ok ()) :
    Applies merchantKeys ⟨.markPaid id payer, some payer, metadata, .undoPaid id⟩ b
      (update b id (some { bill with state := .paid payer metadata.txId }))
  | ack {b : Bills} {id auth metadata bill payer tx} (hbill : b id = some bill)
    (hpaid : bill.state = .paid payer tx) :
    Applies merchantKeys ⟨.ackReceipt id, auth, metadata, .undoAck id⟩ b
      (update b id (some { bill with state := .acked payer tx }))
  | cancel {b : Bills} {id auth metadata bill} (hbill : b id = some bill)
    (hopen : bill.state = .open) :
    Applies merchantKeys ⟨.cancelInvoice id, auth, metadata, .undoCancel id⟩ b
      (update b id (some { bill with state := .canceled }))
  | elsewhere {b : Bills} {r} (hr : r.rollback.onInvoices = false) : Applies merchantKeys r b b

theorem payments_update (b : Bills) (id : UInt64) (bill? : Option Bill) :
    payments (update b id bill?) = update b.payments id (bill?.bind (·.state.payment)) := by
  funext a
  by_cases ha : a = id
  · subst ha
    rw [Function.update_self, payments, Function.update_self]
  · rw [Function.update_of_ne ha, payments, Function.update_of_ne ha, payments]

theorem payments_of_some {b : Bills} {id : UInt64} {bill : Bill} (h : b id = some bill) :
    b.payments id = bill.state.payment := by
  rw [payments, h, Option.bind_some]

theorem payments_update_eq {b : Bills} {id : UInt64} {bill? : Option Bill}
    (h : bill?.bind (·.state.payment) = b.payments id) :
    payments (update b id bill?) = b.payments := by
  rw [payments_update, h, Function.update_eq_self]

theorem payments_update_some {b : Bills} {id : UInt64} {bill : Bill}
    (h : bill.state.payment = b.payments id) :
    payments (update b id (some bill)) = b.payments := payments_update_eq h

theorem carries_congr {b b' : Bills} (h : b.payments = b'.payments) (tx : Hash) :
    b.Carries tx ↔ b'.Carries tx := by
  unfold Carries
  rw [h]

theorem carries_pay {b : Bills} {id : UInt64} {bill? : Option Bill} {payer : PubKey} {t : Hash}
    (hunpaid : b.payments id = none) (hpaid : bill?.bind (·.state.payment) = some (payer, t))
    (tx : Hash) : Carries (update b id bill?) tx ↔ tx = t ∨ b.Carries tx := by
  unfold Carries
  rw [payments_update, hpaid]
  constructor
  · rintro ⟨a, p, ha⟩
    by_cases haid : a = id
    · subst haid
      rw [Function.update_self] at ha
      cases ha
      exact .inl rfl
    · rw [Function.update_of_ne haid] at ha
      exact .inr ⟨a, p, ha⟩
  · rintro (rfl | ⟨a, p, ha⟩)
    · exact ⟨id, payer, Function.update_self ..⟩
    · have haid : a ≠ id := by
        rintro rfl
        rw [hunpaid] at ha
        cases ha
      exact ⟨a, p, by rw [Function.update_of_ne haid, ha]⟩

end Bills

namespace Plans

inductive Applies : Record → Plans → Plans → Prop
  | create {p : Plans} {id customer amount interval auth metadata} (hnew : p id = none) :
    Applies ⟨.createSubscription id customer amount interval, auth, metadata,
        .undoCreateSubscription id⟩ p
      (update p id (some ⟨customer, amount, interval, metadata.acceptingTime + interval⟩))
  | process {p : Plans} {id auth metadata plan} (hplan : p id = some plan) :
    Applies ⟨.processSubscription id, auth, metadata, .undoProcessSubscription id plan.nextRun⟩ p
      (update p id (some { plan with nextRun := metadata.acceptingTime + plan.interval }))
  | cancel {p : Plans} {id auth metadata plan} (hplan : p id = some plan) :
    Applies ⟨.cancelSubscription id, auth, metadata,
        .undoCancelSubscription (plan.toSubscription id)⟩ p (update p id none)
  | elsewhere {p : Plans} {r} (hr : r.rollback.onInvoices = true) : Applies r p p

end Plans

namespace ReceiptEpisode

/-- The episode shows the bills: each as an invoice under its id, and the transactions that
carry them as used. -/
structure ShowsBills (merchantKeys : List PubKey) (g : ReceiptEpisode) (b : Bills) : Prop where
  merchantKeys : g.merchantKeys = merchantKeys
  entries : ∀ id : UInt64, (g.invoices[id]?).map Invoice.undated = (b id).map (Bill.toInvoice id)
  used : ∀ tx : Hash, tx ∈ g.usedCarrierTxs ↔ b.Carries tx

def ShowsPlans (g : ReceiptEpisode) (p : Plans) : Prop :=
  ∀ id : UInt64, g.subscriptions[id]? = (p id).map (Plan.toSubscription id)

variable {merchantKeys : List PubKey} {g g' : ReceiptEpisode} {b b' : Bills} {p p' : Plans}
  {cmd : MerchantCommand} {auth : Option PubKey} {metadata : PayloadMetadata}
  {rb : MerchantRollback} {res : Bool}

section Entries
variable {invoices : ExtTreeMap UInt64 Invoice} {id : UInt64}

theorem entries_insert
    (h : ∀ a : UInt64, (invoices[a]?).map Invoice.undated = (b a).map (Bill.toInvoice a))
    {inv : Invoice} {bill : Bill} (hinv : inv.undated = bill.toInvoice id) (a : UInt64) :
    ((invoices.insert id inv)[a]?).map Invoice.undated =
      (update b id (some bill) a).map (Bill.toInvoice a) := by
  by_cases ha : a = id
  · subst ha
    rw [ExtTreeMap.getElem?_insert_self, Function.update_self, Option.map_some, Option.map_some,
      hinv]
  · rw [Function.update_of_ne ha, FiniteMap.getElem?_insert_of_ne (Ne.symm ha), h a]

theorem entries_erase
    (h : ∀ a : UInt64, (invoices[a]?).map Invoice.undated = (b a).map (Bill.toInvoice a))
    (id a : UInt64) : ((invoices.erase id)[a]?).map Invoice.undated =
      (update b id none a).map (Bill.toInvoice a) := by
  by_cases ha : a = id
  · subst ha
    rw [ExtTreeMap.getElem?_erase_self, Function.update_self]
    rfl
  · rw [Function.update_of_ne ha, FiniteMap.getElem?_erase_of_ne (Ne.symm ha), h a]

end Entries

theorem ShowsBills.bill (h : ShowsBills merchantKeys g b) {id : UInt64} {inv : Invoice}
    (hinv : g.invoices[id]? = some inv) :
    ∃ bill, b id = some bill ∧ inv.undated = bill.toInvoice id := by
  have he := h.entries id
  rw [hinv, Option.map_some] at he
  obtain ⟨bill, hbill, heq⟩ := Option.map_eq_some_iff.mp he.symm
  exact ⟨bill, hbill, heq.symm⟩

theorem ShowsBills.invoice (h : ShowsBills merchantKeys g b) {id : UInt64} {bill : Bill}
    (hbill : b id = some bill) :
    ∃ inv, g.invoices[id]? = some inv ∧ inv.undated = bill.toInvoice id := by
  have he := h.entries id
  rw [hbill, Option.map_some] at he
  exact Option.map_eq_some_iff.mp he

theorem ShowsBills.absent (h : ShowsBills merchantKeys g b) {id : UInt64} :
    g.invoices[id]? = none ↔ b id = none := by
  rw [← Option.map_eq_none_iff (f := Invoice.undated), h.entries id, Option.map_eq_none_iff]

theorem carries_iff (h : ∀ id : UInt64, (g.invoices[id]?).map Invoice.undated =
    (b id).map (Bill.toInvoice id)) (tx : Hash) : b.Carries tx ↔
      ∃ (id : UInt64) (inv : Invoice), g.invoices[id]? = some inv ∧ inv.carrierTx = some tx := by
  have hcarrier : ∀ id : UInt64, ((g.invoices[id]?).bind Invoice.carrierTx) =
      (b.payments id).map (·.2) := by
    intro id
    have hid := congrArg (fun inv? : Option Invoice => inv?.bind Invoice.carrierTx) (h id)
    rw [Option.bind_map, Option.bind_map] at hid
    rw [Bills.payments, Option.map_bind]
    exact hid
  constructor
  · rintro ⟨id, payer, hpay⟩
    have hid := hcarrier id
    rw [hpay, Option.map_some] at hid
    exact ⟨id, Option.bind_eq_some_iff.mp hid⟩
  · rintro ⟨id, inv, hinv, htx⟩
    have hid := hcarrier id
    rw [hinv, Option.bind_some, htx] at hid
    obtain ⟨⟨payer, tx'⟩, hpay, rfl⟩ := Option.map_eq_some_iff.mp hid.symm
    exact ⟨id, payer, hpay⟩

theorem ShowsBills.write (h : ShowsBills merchantKeys g b) {id : UInt64} {inv : Invoice}
    {bill : Bill} (hinv : inv.undated = bill.toInvoice id)
    (hpay : bill.state.payment = b.payments id) :
    ShowsBills merchantKeys { g with invoices := g.invoices.insert id inv }
      (update b id (some bill)) where
  merchantKeys := h.merchantKeys
  entries := entries_insert h.entries hinv
  used tx := (h.used tx).trans (Bills.carries_congr (Bills.payments_update_some hpay) tx).symm

theorem ShowsBills.accepts (h : ShowsBills merchantKeys g b)
    (hacc : g.Accepts metadata cmd auth rb g') :
    ∃ b', Bills.Applies merchantKeys ⟨cmd, auth, metadata, rb⟩ b b' ∧
      ShowsBills merchantKeys g' b' := by
  cases hacc with
  | createInvoice hnew hamount hauth =>
    have hnone := h.absent.mp hnew
    refine ⟨_, .create hnone, h.write rfl ?_⟩
    rw [Bills.payments, hnone]
    rfl
  | @markPaid id payer inv info hunused hinv hopen hinfo houts =>
    obtain ⟨bill, hbill, heq⟩ := h.bill hinv
    have hstate : bill.state = .open :=
      BillState.eq_open ((congrArg Invoice.status heq).symm.trans hopen)
    -- an open bill carries no transaction yet, so paying it adds one and drops none
    have hunpaid : b.payments id = none := by
      rw [Bills.payments_of_some hbill, hstate]
      rfl
    have hfree : ¬ b.Carries metadata.txId := fun hc => hunused ((h.used _).mpr hc)
    have hamount : inv.amount = bill.amount := congrArg Invoice.amount heq
    rw [h.merchantKeys, hamount] at houts
    refine ⟨_, .pay hbill hstate hfree houts, h.merchantKeys, entries_insert h.entries ?_, ?_⟩
    · exact congrArg (fun i : Invoice => (i.markPaid payer metadata).undated) heq
    · intro tx
      rw [Bills.carries_pay hunpaid rfl tx, ← h.used tx, ExtTreeSet.mem_insert]
      exact or_congr_left ⟨fun he => (LawfulEqOrd.eq_of_compare he).symm,
        fun he => he ▸ ReflCmp.compare_self⟩
  | ackReceipt hinv hpaid =>
    obtain ⟨bill, hbill, heq⟩ := h.bill hinv
    obtain ⟨payer, t, hstate⟩ :=
      BillState.eq_paid ((congrArg Invoice.status heq).symm.trans hpaid)
    have hpay : (BillState.acked payer t).payment = bill.state.payment := by
      rw [hstate]
      rfl
    exact ⟨_, .ack hbill hstate, h.write (Bill.undated_withStatus heq _ hpay _)
      (hpay.trans (Bills.payments_of_some hbill).symm)⟩
  | cancelInvoice hinv hopen =>
    obtain ⟨bill, hbill, heq⟩ := h.bill hinv
    have hstate := BillState.eq_open ((congrArg Invoice.status heq).symm.trans hopen)
    have hpay : BillState.canceled.payment = bill.state.payment := by
      rw [hstate]
      rfl
    exact ⟨_, .cancel hbill hstate, h.write (Bill.undated_withStatus heq _ hpay _)
      (hpay.trans (Bills.payments_of_some hbill).symm)⟩
  -- the bills know nothing of subscriptions
  | createSubscription => exact ⟨b, .elsewhere rfl, h.merchantKeys, h.entries, h.used⟩
  | processSubscription => exact ⟨b, .elsewhere rfl, h.merchantKeys, h.entries, h.used⟩
  | cancelSubscription => exact ⟨b, .elsewhere rfl, h.merchantKeys, h.entries, h.used⟩

omit [Crypto] in
theorem update_restore {ν : Type} (b : UInt64 → Option ν) (id : UInt64) (x? : Option ν) :
    update (update b id x?) id (b id) = b := by
  rw [Function.update_idem, Function.update_eq_self]

theorem ShowsBills.restate {id : UInt64} {bill : Bill} {state : BillState} {inv : Invoice}
    (hbill : b id = some bill)
    (h : ShowsBills merchantKeys g (update b id (some { bill with state := state })))
    (hpay : bill.state.payment = state.payment) (hinv : g.invoices[id]? = some inv) :
    ShowsBills merchantKeys
      { g with invoices := g.invoices.insert id { inv with status := bill.state.status } } b := by
  obtain ⟨inv', hinv', heq⟩ := h.invoice (Function.update_self ..)
  obtain rfl := Option.some.inj (hinv'.symm.trans hinv)
  have hwrite := h.write (Bill.undated_withStatus heq bill.state hpay inv'.lastUpdate) (by
    rw [Bills.payments_of_some (Function.update_self ..)]
    exact hpay)
  have hb := update_restore b id (some { bill with state := state })
  rw [hbill] at hb
  rwa [hb] at hwrite

theorem ShowsBills.rollsBack {r : Record} (happlies : Bills.Applies merchantKeys r b b')
    (h : ShowsBills merchantKeys g b') (hroll : g.RollsBack r.rollback g' res) :
    ShowsBills merchantKeys g' b := by
  cases happlies with
  | @create _ id amount memo auth metadata hnew =>
    cases hroll with
    | undoCreate =>
      have hb := update_restore b id (some ⟨amount, memo, metadata.acceptingTime, .open⟩)
      have hentries := entries_erase h.entries id
      rw [← hnew, hb] at hentries
      refine ⟨h.merchantKeys, hentries, fun tx => (h.used tx).trans (Bills.carries_congr ?_ tx)⟩
      apply Bills.payments_update_some
      rw [Bills.payments, hnew]
      rfl
  | @pay _ id payer metadata bill hbill hopen hfree houts =>
    obtain ⟨inv, hinv, heq⟩ := h.invoice (Function.update_self ..)
    have hb := update_restore b id (some { bill with state := .paid payer metadata.txId })
    have hunpaid : b.payments id = none := by
      rw [Bills.payments_of_some hbill, hopen]
      rfl
    cases hroll with
    | paidMissing hnone =>
      rw [hinv] at hnone
      cases hnone
    | undoPaid hinv' =>
      obtain rfl := Option.some.inj (hinv.symm.trans hinv')
      have hpayer : inv.payer = some payer := congrArg Invoice.payer heq
      have hcarrier : inv.carrierTx = some metadata.txId := congrArg Invoice.carrierTx heq
      rw [hpayer, hcarrier]
      -- unmarked, the invoice is the open one again, but for its date
      have hundated : inv.unmarkPaid.undated = bill.toInvoice id := by
        have hunmarked := congrArg Invoice.unmarkPaid heq
        simp only [Bill.toInvoice, hopen]
        exact hunmarked
      have hentries := entries_insert h.entries hundated
      rw [← hbill, hb] at hentries
      refine ⟨h.merchantKeys, hentries, fun tx => ?_⟩
      rw [ExtTreeSet.mem_erase, h.used tx, Bills.carries_pay hunpaid rfl tx]
      constructor
      · rintro ⟨hne, rfl | hc⟩
        · exact absurd ReflCmp.compare_self hne
        · exact hc
      · intro hc
        exact ⟨fun he => hfree (LawfulEqOrd.eq_of_compare he ▸ hc), .inr hc⟩
  | @ack _ id auth metadata bill payer tx hbill hpaid =>
    obtain ⟨inv, hinv, -⟩ := h.invoice (Function.update_self ..)
    cases hroll with
    | ackMissing hnone =>
      rw [hinv] at hnone
      cases hnone
    | undoAck hinv' =>
      have hpay : bill.state.payment = (BillState.acked payer tx).payment := by
        rw [hpaid]
        rfl
      have hrestated := h.restate hbill hpay hinv'
      rwa [hpaid] at hrestated
  | @cancel _ id auth metadata bill hbill hopen =>
    obtain ⟨inv, hinv, -⟩ := h.invoice (Function.update_self ..)
    cases hroll with
    | cancelMissing hnone =>
      rw [hinv] at hnone
      cases hnone
    | undoCancel hinv' =>
      have hpay : bill.state.payment = BillState.canceled.payment := by
        rw [hopen]
        rfl
      have hrestated := h.restate hbill hpay hinv'
      rwa [hopen] at hrestated
  | elsewhere hr =>
    generalize r.rollback = rb at hr hroll
    cases hroll with
    | undoCreateSubscription | undoProcessSubscription | undoCancelSubscription | createMissing
      | processMissing => exact ⟨h.merchantKeys, h.entries, h.used⟩
    | _ => cases hr

theorem ShowsPlans.plan (h : ShowsPlans g p) {id : UInt64} {sub : Subscription}
    (hsub : g.subscriptions[id]? = some sub) :
    ∃ plan, p id = some plan ∧ sub = plan.toSubscription id := by
  have he := h id
  rw [hsub] at he
  obtain ⟨plan, hplan, heq⟩ := Option.map_eq_some_iff.mp he.symm
  exact ⟨plan, hplan, heq.symm⟩

theorem ShowsPlans.subscription (h : ShowsPlans g p) {id : UInt64} {plan : Plan}
    (hplan : p id = some plan) : g.subscriptions[id]? = some (plan.toSubscription id) := by
  rw [h id, hplan, Option.map_some]

theorem ShowsPlans.absent (h : ShowsPlans g p) {id : UInt64} :
    g.subscriptions[id]? = none ↔ p id = none := by
  rw [h id, Option.map_eq_none_iff]

section Entries
variable {subscriptions : ExtTreeMap UInt64 Subscription}

theorem subscriptions_insert
    (h : ∀ a : UInt64, subscriptions[a]? = (p a).map (Plan.toSubscription a)) (id : UInt64)
    (plan : Plan) (a : UInt64) : (subscriptions.insert id (plan.toSubscription id))[a]? =
      (update p id (some plan) a).map (Plan.toSubscription a) := by
  by_cases ha : a = id
  · subst ha
    rw [ExtTreeMap.getElem?_insert_self, Function.update_self, Option.map_some]
  · rw [Function.update_of_ne ha, FiniteMap.getElem?_insert_of_ne (Ne.symm ha), h a]

theorem subscriptions_erase
    (h : ∀ a : UInt64, subscriptions[a]? = (p a).map (Plan.toSubscription a)) (id a : UInt64) :
    (subscriptions.erase id)[a]? = (update p id none a).map (Plan.toSubscription a) := by
  by_cases ha : a = id
  · subst ha
    rw [ExtTreeMap.getElem?_erase_self, Function.update_self]
    rfl
  · rw [Function.update_of_ne ha, FiniteMap.getElem?_erase_of_ne (Ne.symm ha), h a]

end Entries

theorem ShowsPlans.accepts (h : ShowsPlans g p) (hacc : g.Accepts metadata cmd auth rb g') :
    ∃ p', Plans.Applies ⟨cmd, auth, metadata, rb⟩ p p' ∧ ShowsPlans g' p' := by
  cases hacc with
  | @createSubscription id customer amount interval pk info hnew hauth hinfo =>
    exact ⟨_, .create (h.absent.mp hnew), subscriptions_insert h id
      ⟨customer, amount, interval, metadata.acceptingTime + interval⟩⟩
  | processSubscription hsub =>
    obtain ⟨plan, hplan, rfl⟩ := h.plan hsub
    exact ⟨_, .process hplan, subscriptions_insert h _
      { plan with nextRun := metadata.acceptingTime + plan.interval }⟩
  | cancelSubscription hsub =>
    obtain ⟨plan, hplan, rfl⟩ := h.plan hsub
    exact ⟨_, .cancel hplan, subscriptions_erase h _⟩
  | createInvoice => exact ⟨p, .elsewhere rfl, h⟩
  | markPaid => exact ⟨p, .elsewhere rfl, h⟩
  | ackReceipt => exact ⟨p, .elsewhere rfl, h⟩
  | cancelInvoice => exact ⟨p, .elsewhere rfl, h⟩

theorem ShowsPlans.rollsBack {r : Record} (happlies : Plans.Applies r p p')
    (h : ShowsPlans g p') (hroll : g.RollsBack r.rollback g' res) : ShowsPlans g' p := by
  cases happlies with
  | @create _ id customer amount interval auth metadata hnew =>
    have hsub := h.subscription (Function.update_self ..)
    cases hroll with
    | createMissing hnone =>
      rw [hsub] at hnone
      cases hnone
    | undoCreateSubscription =>
      have hentries := subscriptions_erase h id
      rwa [← hnew, update_restore] at hentries
  | @process _ id auth metadata plan hplan =>
    have hsub := h.subscription (Function.update_self ..)
    cases hroll with
    | processMissing hnone =>
      rw [hsub] at hnone
      cases hnone
    | undoProcessSubscription hsub' =>
      obtain rfl := Option.some.inj (hsub.symm.trans hsub')
      have hentries := subscriptions_insert h id plan
      rwa [← hplan, update_restore] at hentries
  | @cancel _ id auth metadata plan hplan =>
    cases hroll with
    | undoCancelSubscription =>
      have hentries := subscriptions_insert h id plan
      rwa [← hplan, update_restore] at hentries
  | elsewhere hr =>
    generalize r.rollback = rb at hr hroll
    cases hroll with
    | undoCreate | undoPaid | undoAck | undoCancel | paidMissing | ackMissing | cancelMissing =>
      exact h
    | _ => cases hr

end ReceiptEpisode
end Kdapp.Merchant
