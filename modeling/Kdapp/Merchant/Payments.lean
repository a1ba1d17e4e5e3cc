import Kdapp.Merchant.Book

/-! Runs of the receipt episode, and what a paid invoice says about its carrier transaction. -/

namespace Kdapp.Merchant
open Borsh
open Std (ExtTreeMap ExtTreeSet)
open Function (update)

section Scan
variable {amount : UInt64} {allowedScripts : List Bytes}

theorem scanOutputs_scriptOk {outs : List TxOutputInfo} {flags : OutputScan}
    (h : (scanOutputs amount allowedScripts flags outs).scriptOk = true) :
    flags.scriptOk = true ∨
      ∃ o ∈ outs, amount ≤ o.value ∧ ∃ sb ∈ allowedScripts, o.scriptBytes = some sb := by
  fun_induction scanOutputs amount allowedScripts flags outs with
  | case1 flags => exact .inl h
  | case2 flags o outs hvalue sb hsb hallowed =>
    exact .inr ⟨o, List.mem_cons_self, hvalue, sb, hallowed, hsb⟩
  | case3 flags o outs hvalue sb hsb hallowed ih =>
    refine (ih h).imp_right ?_
    rintro ⟨o', ho', hrest⟩
    exact ⟨o', List.mem_cons_of_mem _ ho', hrest⟩
  | case4 flags o outs hvalue hsb ih =>
    refine (ih h).imp_right ?_
    rintro ⟨o', ho', hrest⟩
    exact ⟨o', List.mem_cons_of_mem _ ho', hrest⟩
  | case5 flags o outs hvalue ih =>
    refine (ih h).imp_right ?_
    rintro ⟨o', ho', hrest⟩
    exact ⟨o', List.mem_cons_of_mem _ ho', hrest⟩

theorem scanOutputs_scriptChecked {outs : List TxOutputInfo} {flags : OutputScan}
    (hscripts : ∀ o ∈ outs, o.scriptBytes.isSome = true)
    (hflags : flags.amountOk = true → flags.scriptChecked = true)
    (h : (scanOutputs amount allowedScripts flags outs).amountOk = true) :
    (scanOutputs amount allowedScripts flags outs).scriptChecked = true := by
  fun_induction scanOutputs amount allowedScripts flags outs with
  | case1 flags => exact hflags h
  | case2 flags o outs hvalue sb hsb hallowed => rfl
  | case3 flags o outs hvalue sb hsb hallowed ih =>
    exact ih (fun o' ho' => hscripts o' (List.mem_cons_of_mem _ ho')) (fun _ => rfl) h
  | case4 flags o outs hvalue hsb ih =>
    have hscript := hscripts o List.mem_cons_self
    rw [hsb] at hscript
    cases hscript
  | case5 flags o outs hvalue ih =>
    exact ih (fun o' ho' => hscripts o' (List.mem_cons_of_mem _ ho')) hflags h

end Scan

variable [Crypto]

theorem checkOutputs_ok {merchantKeys : List PubKey} {amount : UInt64} {outs : List TxOutputInfo}
    (hscripts : ∀ o ∈ outs, o.scriptBytes.isSome = true)
    (h : checkOutputs merchantKeys amount (some outs) = .ok ()) :
    ∃ o ∈ outs, amount ≤ o.value ∧ ∃ k ∈ merchantKeys, o.scriptBytes = some (allowedScript k) := by
  unfold checkOutputs at h
  dsimp only at h
  split at h
  · cases h
  rename_i hscript
  split at h
  · cases h
  rename_i hamount
  have hchecked := scanOutputs_scriptChecked hscripts (fun hf => by cases hf)
    (eq_true_of_ne_false hamount)
  have hok := eq_true_of_ne_false fun hf => hscript ⟨hchecked, hf⟩
  obtain hf | ⟨o, ho, hvalue, sb, hsb, hbytes⟩ := scanOutputs_scriptOk hok
  · cases hf
  obtain ⟨k, hk, rfl⟩ := List.mem_map.mp hsb
  exact ⟨o, ho, hvalue, k, hk, hbytes⟩

namespace Bills
variable {merchantKeys : List PubKey} {r : Record} {b b' : Bills}

def Distinct (b : Bills) : Prop :=
  ∀ id id' payer payer' tx, b.payments id = some (payer, tx) →
    b.payments id' = some (payer', tx) → id = id'

theorem Distinct.congr (h : b.Distinct) (heq : b'.payments = b.payments) : b'.Distinct := by
  unfold Distinct
  rw [heq]
  exact h

theorem Applies.distinct (h : Applies merchantKeys r b b') (hb : b.Distinct) : b'.Distinct := by
  cases h with
  | create hnew =>
    apply hb.congr
    apply payments_update_some
    rw [payments, hnew]
    rfl
  | @pay _ id payer metadata bill hbill hopen hfree houts =>
    intro a a' p p' tx ha ha'
    rw [payments_update] at ha ha'
    by_cases haid : a = id
    · subst haid
      by_cases haid' : a' = a
      · exact haid'.symm
      · rw [Function.update_self] at ha
        rw [Function.update_of_ne haid'] at ha'
        cases ha
        exact absurd ⟨a', p', ha'⟩ hfree
    · rw [Function.update_of_ne haid] at ha
      by_cases haid' : a' = id
      · subst haid'
        rw [Function.update_self] at ha'
        cases ha'
        exact absurd ⟨a, p, ha⟩ hfree
      · rw [Function.update_of_ne haid'] at ha'
        exact hb a a' p p' tx ha ha'
  | ack hbill hpaid =>
    apply hb.congr
    apply payments_update_some
    rw [payments_of_some hbill, hpaid]
    rfl
  | cancel hbill hopen =>
    apply hb.congr
    apply payments_update_some
    rw [payments_of_some hbill, hopen]
    rfl
  | elsewhere => exact hb

/-- A bill over `amount` is paid by `payer` with `tx`. -/
def Paid (b : Bills) (id amount : UInt64) (payer : PubKey) (tx : Hash) : Prop :=
  ∃ bill, b id = some bill ∧ bill.amount = amount ∧ bill.state.payment = some (payer, tx)

theorem Applies.paid {id amount : UInt64} {payer : PubKey} {tx : Hash}
    (h : Applies merchantKeys r b b') (hb : ¬ b.Paid id amount payer tx)
    (hb' : b'.Paid id amount payer tx) :
    r.cmd = .markPaid id payer ∧ r.authorization = some payer ∧ r.metadata.txId = tx ∧
      checkOutputs merchantKeys amount r.metadata.txOutputs = .ok () := by
  obtain ⟨bill', hbill', hamount, hpay⟩ := hb'
  -- a change of another bill brings nothing about for this one
  have hsame : ∀ (a : UInt64) (x? : Option Bill), b' = update b a x? → a = id := by
    rintro a x? rfl
    by_contra hne
    rw [Function.update_of_ne (Ne.symm hne)] at hbill'
    exact hb ⟨bill', hbill', hamount, hpay⟩
  cases h with
  | create hnew =>
    obtain rfl := hsame _ _ rfl
    rw [Function.update_self] at hbill'
    cases hbill'
    cases hpay
  | pay hbill hopen hfree houts =>
    obtain rfl := hsame _ _ rfl
    rw [Function.update_self] at hbill'
    cases hbill'
    cases hpay
    exact ⟨rfl, rfl, rfl, hamount ▸ houts⟩
  | ack hbill hpaid =>
    obtain rfl := hsame _ _ rfl
    rw [Function.update_self] at hbill'
    cases hbill'
    refine absurd ⟨_, hbill, hamount, ?_⟩ hb
    rw [hpaid]
    exact hpay
  | cancel hbill hopen =>
    obtain rfl := hsame _ _ rfl
    rw [Function.update_self] at hbill'
    cases hbill'
    cases hpay
  | elsewhere => exact absurd ⟨bill', hbill', hamount, hpay⟩ hb

end Bills

def Record.Accepted (merchantKeys : List PubKey) (r : Record) : Prop :=
  ∃ g g' : ReceiptEpisode, g.merchantKeys = merchantKeys ∧
    g.Accepts r.metadata r.cmd r.authorization r.rollback g'

structure Entered (merchantKeys : List PubKey) (r : Record) (books books' : Bills × Plans) :
    Prop where
  bills : Bills.Applies merchantKeys r books.1 books'.1
  plans : Plans.Applies r books.2 books'.2
  accepted : r.Accepted merchantKeys

namespace ReceiptEpisode

/-- Runs from one state: commands, some of them rejected, and rollbacks of the newest command
that has not been rolled back. The log holds what can still be rolled back. -/
inductive Reachable (allowed : MerchantCommand → PayloadMetadata → Prop) (g₀ : ReceiptEpisode)
    (db₀ : Storage) : List Record → ReceiptEpisode → Storage → Prop
  | start : Reachable allowed g₀ db₀ [] g₀ db₀
  | executed {log g db cmd auth metadata g' rb db'} (h : Reachable allowed g₀ db₀ log g db)
    (hallowed : allowed cmd metadata)
    (hexec : (g.execute auth metadata cmd).run db = .ok ((g', .ok rb), db')) :
    Reachable allowed g₀ db₀ (⟨cmd, auth, metadata, rb⟩ :: log) g' db'
  | rejected {log g db cmd auth metadata g' e db'} (h : Reachable allowed g₀ db₀ log g db)
    (hexec : (g.execute auth metadata cmd).run db = .ok ((g', .error e), db')) :
    Reachable allowed g₀ db₀ log g' db'
  | rolledBack {log r g db g' res db'} (h : Reachable allowed g₀ db₀ (r :: log) g db)
    (hroll : (g.rollback r.rollback).run db = .ok ((g', res), db')) :
    Reachable allowed g₀ db₀ log g' db'

def Exec (allowed : MerchantCommand → PayloadMetadata → Prop) (r : Record)
    (s s' : ReceiptEpisode × Storage) : Prop :=
  allowed r.cmd r.metadata ∧
    (s.1.execute r.authorization r.metadata r.cmd).run s.2 = .ok ((s'.1, .ok r.rollback), s'.2)

def Undo (r : Record) (s s' : ReceiptEpisode × Storage) : Prop :=
  ∃ res, (s.1.rollback r.rollback).run s.2 = .ok ((s'.1, res), s'.2)

variable {allowed : MerchantCommand → PayloadMetadata → Prop} {g₀ g : ReceiptEpisode}
  {db₀ db : Storage} {log : List Record}

theorem Reachable.run (h : Reachable allowed g₀ db₀ log g db) :
    UndoLog.Run (Exec allowed) Undo (g₀, db₀) log (g, db) := by
  induction h with
  | start => exact .start
  | executed h hallowed hexec ih => exact ih.exec ⟨hallowed, hexec⟩
  | rejected h hexec ih =>
    obtain ⟨rfl, rfl⟩ := execute_rejected hexec
    exact ih
  | rolledBack h hroll ih => exact ih.undo ⟨_, hroll⟩

theorem Reachable.allowed_of_mem (h : Reachable allowed g₀ db₀ log g db) :
    ∀ r ∈ log, allowed r.cmd r.metadata := by
  induction h with
  | start => exact fun r hr => absurd hr List.not_mem_nil
  | executed h hallowed hexec ih => exact List.forall_mem_cons.mpr ⟨hallowed, ih⟩
  | rejected h hexec ih => exact ih
  | rolledBack h hroll ih => exact (List.forall_mem_cons.mp ih).2

theorem Reachable.bills {b₀ : Bills} (h₀ : ShowsBills g₀.merchantKeys g₀ b₀)
    (h : Reachable allowed g₀ db₀ log g db) :
    ∃ b, UndoLog.Chain (Bills.Applies g₀.merchantKeys) b₀ log b ∧
      ShowsBills g₀.merchantKeys g b := by
  refine UndoLog.Run.simulates (Q := fun s b => ShowsBills g₀.merchantKeys s.1 b) h₀ ?_ ?_ h.run
  · rintro r s s' b hb ⟨-, hexec⟩
    exact hb.accepts (execute_ok hexec).1
  · rintro r s s' b b' happlies hb ⟨res, hroll⟩
    exact hb.rollsBack happlies (rollback_ok hroll).1

theorem ShowsBills.keyed {merchantKeys : List PubKey} {b : Bills} {p : Plans}
    (hb : ShowsBills merchantKeys g b) (hp : ShowsPlans g p) : g.Keyed where
  invoices id inv hinv := by
    obtain ⟨bill, -, heq⟩ := hb.bill hinv
    exact congrArg Invoice.id heq
  subscriptions id sub hsub := by
    obtain ⟨plan, -, rfl⟩ := hp.plan hsub
    rfl

theorem Reachable.entered {b₀ : Bills} {p₀ : Plans}
    (hbills : ShowsBills g₀.merchantKeys g₀ b₀) (hplans : ShowsPlans g₀ p₀)
    (h : Reachable allowed g₀ db₀ log g db) :
    ∃ books, UndoLog.Chain (Entered g₀.merchantKeys) (b₀, p₀) log books ∧
      ShowsBills g₀.merchantKeys g books.1 ∧ ShowsPlans g books.2 ∧
        (g₀.Mirrored db₀ → g.Mirrored db) := by
  refine UndoLog.Run.simulates (Q := fun (s : ReceiptEpisode × Storage) (books : Bills × Plans) =>
    ShowsBills g₀.merchantKeys s.1 books.1 ∧ ShowsPlans s.1 books.2 ∧
      (g₀.Mirrored db₀ → s.1.Mirrored s.2)) ⟨hbills, hplans, fun hm => hm⟩ ?_ ?_ h.run
  · rintro r s s' books ⟨hb, hp, hm⟩ ⟨-, hexec⟩
    obtain ⟨hacc, hmirrored⟩ := execute_ok hexec
    obtain ⟨b, happlies, hb'⟩ := hb.accepts hacc
    obtain ⟨p, happlies', hp'⟩ := hp.accepts hacc
    exact ⟨(b, p), ⟨happlies, happlies', s.1, s'.1, hb.merchantKeys, hacc⟩, hb', hp',
      fun hm₀ => hmirrored (hb.keyed hp) (hm hm₀)⟩
  · rintro r s s' books books' hr ⟨hb, hp, hm⟩ ⟨res, hroll⟩
    obtain ⟨hrolls, hmirrored⟩ := rollback_ok hroll
    exact ⟨hb.rollsBack hr.bills hrolls, hp.rollsBack hr.plans hrolls,
      fun hm₀ => hmirrored (hb.keyed hp) (hm hm₀)⟩

theorem initializeWith_ok {participants : List PubKey} {metadata : PayloadMetadata}
    (h : (initializeWith participants metadata).run db = .ok (g₀, db₀)) :
    db₀ = db ∧ g₀.merchantKeys = participants ∧ g₀.invoices = db.loadInvoices ∧
      g₀.subscriptions = db.loadSubscriptions ∧ g₀.customers = db.loadCustomers ∧
      ∀ tx : Hash, tx ∈ g₀.usedCarrierTxs ↔ ∃ (id : UInt64) (inv : Invoice),
        g₀.invoices[id]? = some inv ∧ inv.carrierTx = some tx := by
  cases h
  refine ⟨rfl, rfl, rfl, rfl, rfl, fun tx => ?_⟩
  rw [ExtTreeSet.mem_ofList, List.contains_iff_mem, List.mem_filterMap]
  constructor
  · rintro ⟨⟨id, inv⟩, hentry, hcarrier⟩
    exact ⟨id, inv, ExtTreeMap.mem_toList_iff_getElem?_eq_some.mp hentry, hcarrier⟩
  · rintro ⟨id, inv, hinv, hcarrier⟩
    exact ⟨(id, inv), ExtTreeMap.mem_toList_iff_getElem?_eq_some.mpr hinv, hcarrier⟩

theorem initializeWith_plans {participants : List PubKey} {metadata : PayloadMetadata}
    (hempty : db.loadSubscriptions = ∅)
    (h : (initializeWith participants metadata).run db = .ok (g₀, db₀)) :
    ShowsPlans g₀ fun _ => none := by
  obtain ⟨-, -, -, hsubscriptions, -, -⟩ := initializeWith_ok h
  intro id
  rw [hsubscriptions, hempty, ExtTreeMap.getElem?_empty]
  rfl

theorem initializeWith_bills {participants : List PubKey} {metadata : PayloadMetadata}
    (hempty : db.loadInvoices = ∅)
    (h : (initializeWith participants metadata).run db = .ok (g₀, db₀)) :
    ShowsBills g₀.merchantKeys g₀ fun _ => none := by
  obtain ⟨-, -, hinvoices, -, -, hused⟩ := initializeWith_ok h
  rw [hempty] at hinvoices
  refine ⟨rfl, fun id => ?_, fun tx => ?_⟩
  · rw [hinvoices, ExtTreeMap.getElem?_empty]
    rfl
  · rw [hused tx]
    apply iff_of_false
    · rintro ⟨id, inv, hinv, -⟩
      rw [hinvoices, ExtTreeMap.getElem?_empty] at hinv
      cases hinv
    · rintro ⟨id, payer, hpayment⟩
      cases hpayment

theorem ShowsBills.payment {merchantKeys : List PubKey} {b : Bills}
    (h : ShowsBills merchantKeys g b) {id : UInt64} {inv : Invoice}
    (hinv : g.invoices[id]? = some inv) :
    inv.payer = (b.payments id).map (·.1) ∧ inv.carrierTx = (b.payments id).map (·.2) ∧
      (inv.status = .paid ∨ inv.status = .acked ↔ (b.payments id).isSome = true) := by
  obtain ⟨bill, hbill, heq⟩ := h.bill hinv
  rw [Bills.payments_of_some hbill]
  refine ⟨congrArg Invoice.payer heq, congrArg Invoice.carrierTx heq, ?_⟩
  rw [show inv.status = bill.state.status from congrArg Invoice.status heq]
  cases bill.state <;> simp [BillState.status, BillState.payment]

theorem ShowsBills.unpaid {merchantKeys : List PubKey} {b : Bills}
    (h : ShowsBills merchantKeys g b) {id : UInt64} {inv : Invoice}
    (hinv : g.invoices[id]? = some inv) (hopen : inv.status = .open) :
    inv.payer = none ∧ inv.carrierTx = none := by
  obtain ⟨hpayer, hcarrier, hstatus⟩ := h.payment hinv
  have hnone : b.payments id = none := by
    rw [← Option.not_isSome_iff_eq_none, ← hstatus, hopen]
    rintro (hpaid | hacked)
    · cases hpaid
    · cases hacked
  rw [hpayer, hcarrier, hnone]
  exact ⟨rfl, rfl⟩

theorem ShowsBills.carrier_unique {merchantKeys : List PubKey} {b : Bills}
    (h : ShowsBills merchantKeys g b) (hdistinct : b.Distinct) {id id' : UInt64}
    {inv inv' : Invoice} {tx : Hash} (hinv : g.invoices[id]? = some inv)
    (hinv' : g.invoices[id']? = some inv') (htx : inv.carrierTx = some tx)
    (htx' : inv'.carrierTx = some tx) : id = id' := by
  rw [(h.payment hinv).2.1, Option.map_eq_some_iff] at htx
  rw [(h.payment hinv').2.1, Option.map_eq_some_iff] at htx'
  obtain ⟨⟨payer, t⟩, hpay, rfl⟩ := htx
  obtain ⟨⟨payer', t'⟩, hpay', rfl⟩ := htx'
  exact hdistinct id id' payer payer' _ hpay hpay'

/-- The metadata of a payment lists the outputs of its transaction with their scripts. -/
def Summarized : MerchantCommand → PayloadMetadata → Prop
  | .markPaid _ _, metadata =>
    ∃ outs, metadata.txOutputs = some outs ∧ ∀ o ∈ outs, o.scriptBytes.isSome = true
  | _, _ => True

/-- What a paid or acknowledged invoice stands for: a payment in the log, authorised by the
payer, one output of which has the amount and the script of a merchant. -/
def BackedBy (log : List Record) (merchantKeys : List PubKey) (id : UInt64) (inv : Invoice) :
    Prop :=
  ∃ tx payer, inv.carrierTx = some tx ∧ inv.payer = some payer ∧
    ∃ r ∈ log, r.cmd = .markPaid id payer ∧ r.authorization = some payer ∧
      r.metadata.txId = tx ∧ ∃ outs, r.metadata.txOutputs = some outs ∧
        ∃ o ∈ outs, inv.amount ≤ o.value ∧
          ∃ k ∈ merchantKeys, o.scriptBytes = some (allowedScript k)

theorem payment_sound {participants : List PubKey} {metadata : PayloadMetadata}
    {db' : Storage}
    (hempty : db.loadInvoices = ∅)
    (hstart : (initializeWith participants metadata).run db = .ok (g₀, db₀))
    (h : Reachable Summarized g₀ db₀ log g db') :
    (∀ (id : UInt64) (inv : Invoice), g.invoices[id]? = some inv →
      inv.status = .paid ∨ inv.status = .acked → BackedBy log g.merchantKeys id inv) ∧
    ∀ (id id' : UInt64) (inv inv' : Invoice) (tx : Hash), g.invoices[id]? = some inv →
      g.invoices[id']? = some inv' → inv.carrierTx = some tx → inv'.carrierTx = some tx →
        id = id' := by
  obtain ⟨b, hchain, hb⟩ := h.bills (initializeWith_bills hempty hstart)
  have hdistinct : b.Distinct :=
    hchain.invariant (fun _ _ _ _ _ hp => by cases hp) fun r b b' hr => hr.distinct
  refine ⟨fun id inv hinv hpaid => ?_, fun id id' inv inv' tx hinv hinv' =>
    hb.carrier_unique hdistinct hinv hinv'⟩
  obtain ⟨hpayer, hcarrier, hstatus⟩ := hb.payment hinv
  obtain ⟨⟨payer, tx⟩, hpay⟩ := Option.isSome_iff_exists.mp (hstatus.mp hpaid)
  obtain ⟨bill, hbill, heq⟩ := hb.bill hinv
  rw [hpay] at hpayer hcarrier
  rw [Bills.payments_of_some hbill] at hpay
  have hpaidNow : b.Paid id inv.amount payer tx :=
    ⟨bill, hbill, (congrArg Invoice.amount heq).symm, hpay⟩
  -- the payment was not there at the start: a command of the log made it
  obtain ⟨r, hr, log', b₁, b₂, -, happlies, hnot, hthen⟩ := hchain.exists_change
    (Q := fun b : Bills => b.Paid id inv.amount payer tx) (by rintro ⟨_, hnone, -⟩; cases hnone)
    hpaidNow
  obtain ⟨hcmd, hauth, htx, houts⟩ := happlies.paid hnot hthen
  have hsummarized := h.allowed_of_mem r hr
  rw [hcmd] at hsummarized
  obtain ⟨outs, hsome, hscripts⟩ := hsummarized
  rw [hsome] at houts
  refine ⟨tx, payer, hcarrier, hpayer, r, hr, hcmd, hauth, htx, outs, hsome, ?_⟩
  rw [hb.merchantKeys]
  exact checkOutputs_ok hscripts houts

end ReceiptEpisode
end Kdapp.Merchant

namespace Kdapp.Merchant.ReceiptEpisode
open Borsh
open Std (ExtTreeMap)
attribute [local instance] idealCrypto

def shop : Storage := { Storage.init with
  customers := Storage.init.customers.insert (PubKey.serialize (2 : UInt8))
    [0, 0, 0, 0, 0, 0, 0, 0] }

def opened : ReceiptEpisode where
  merchantKeys := [(1 : UInt8)]
  invoices := ∅
  subscriptions := ∅
  customers := (∅ : ExtTreeMap PubKey CustomerInfo).insert (2 : UInt8) ⟨[], []⟩
  usedCarrierTxs := ∅

def blockAt (time : UInt64) (tx : UInt8) (outs : List TxOutputInfo) : PayloadMetadata where
  acceptingHash := Hash.filled 0
  acceptingDaa := time
  acceptingTime := time
  txId := Hash.filled tx
  txOutputs := some outs

def afterCommand (s : ReceiptEpisode × Storage) (auth : Option PubKey)
    (metadata : PayloadMetadata) (cmd : MerchantCommand) : ReceiptEpisode × Storage :=
  match (s.1.execute auth metadata cmd).run s.2 with
  | .ok ((g', _), db') => (g', db')
  | .error _ => s

def created : ReceiptEpisode × Storage :=
  afterCommand (opened, shop) (some (1 : UInt8)) (blockAt 1 1 []) (.createInvoice 7 100 none)

def payingBlock : PayloadMetadata := blockAt 2 2 [⟨100, 0, some (allowedScript (1 : UInt8))⟩]

def paid : ReceiptEpisode × Storage :=
  afterCommand created (some (2 : UInt8)) payingBlock (.markPaid 7 (2 : UInt8))

def acked : ReceiptEpisode × Storage := afterCommand paid none (blockAt 3 3 []) (.ackReceipt 7)

theorem opened_shop (metadata : PayloadMetadata) :
    (initializeWith [(1 : UInt8)] metadata).run shop = .ok (opened, shop) := rfl

def createdLog : List Record :=
  [⟨.createInvoice 7 100 none, some (1 : UInt8), blockAt 1 1 [], .undoCreate 7⟩]

def ackedLog : List Record :=
  ⟨.ackReceipt 7, none, blockAt 3 3 [], .undoAck 7⟩ ::
  ⟨.markPaid 7 (2 : UInt8), some (2 : UInt8), payingBlock, .undoPaid 7⟩ :: createdLog

theorem created_reachable (allowed : MerchantCommand → PayloadMetadata → Prop)
    (h : ∀ id amount memo metadata, allowed (.createInvoice id amount memo) metadata) :
    Reachable allowed opened shop createdLog created.1 created.2 :=
  .executed .start (h 7 100 none (blockAt 1 1 []))
    (show (opened.execute (some (1 : UInt8)) _ _).run shop = .ok ((_, .ok (.undoCreate 7)), _)
      from rfl)

theorem acked_reachable (allowed : MerchantCommand → PayloadMetadata → Prop)
    (hcreate : ∀ id amount memo metadata, allowed (.createInvoice id amount memo) metadata)
    (hpay : allowed (.markPaid 7 (2 : UInt8)) payingBlock)
    (hack : ∀ id metadata, allowed (.ackReceipt id) metadata) :
    Reachable allowed opened shop ackedLog acked.1 acked.2 := by
  have hcreated := created_reachable allowed hcreate
  have hpaid := hcreated.executed hpay (show (created.1.execute (some (2 : UInt8)) _ _).run
    created.2 = .ok ((paid.1, .ok (.undoPaid 7)), paid.2) from rfl)
  exact hpaid.executed (hack 7 (blockAt 3 3 [])) (show (paid.1.execute none _ _).run
    paid.2 = .ok ((acked.1, .ok (.undoAck 7)), acked.2) from rfl)

theorem payment_sound_acked : ∃ (log : List Record) (inv : Invoice),
    acked.1.invoices[(7 : UInt64)]? = some inv ∧ inv.status = .acked ∧
      BackedBy log acked.1.merchantKeys 7 inv := by
  have hrun := acked_reachable Summarized (fun _ _ _ _ => trivial) ⟨_, rfl, by decide⟩
    (fun _ _ => trivial)
  obtain ⟨inv, hinv, hacked⟩ : ∃ inv : Invoice, acked.1.invoices[(7 : UInt64)]? = some inv ∧
    inv.status = .acked := ⟨_, rfl, rfl⟩
  have hempty : shop.loadInvoices = ∅ := by decide
  exact ⟨ackedLog, inv, hinv, hacked,
    (payment_sound hempty (opened_shop payingBlock) hrun).1 7 inv hinv (.inr hacked)⟩

end Kdapp.Merchant.ReceiptEpisode
