import Kdapp.Library.OwnerIndex
import Kdapp.Merchant.Payments

/-! The receipt episode as a ledger: its invoices, subscriptions, used transactions and the
lists of its customers agree in every reachable state, and the trees hold the same. -/

namespace Kdapp.Merchant
open Storage
open Std (ExtTreeMap ExtTreeSet LawfulEqOrd ReflCmp)
open Function (update)
open FiniteMap OwnerIndex

variable [Crypto]

namespace ReceiptEpisode

def payers (g : ReceiptEpisode) : UInt64 → Option PubKey := view Invoice.payer g.invoices

def subscribers (g : ReceiptEpisode) : UInt64 → Option PubKey :=
  view (fun sub : Subscription => some sub.customer) g.subscriptions

def invoiceLists (g : ReceiptEpisode) : PubKey → Option (List UInt64) :=
  view (fun info : CustomerInfo => some info.invoices) g.customers

def subscriptionLists (g : ReceiptEpisode) : PubKey → Option (List UInt64) :=
  view (fun info : CustomerInfo => some info.subscriptions) g.customers

/-- The lists of the customers name what they paid and what they subscribed to. -/
structure Lists (g : ReceiptEpisode) : Prop where
  invoices : Indexes g.payers g.invoiceLists
  subscriptions : Indexes g.subscribers g.subscriptionLists

variable {merchantKeys : List PubKey} {g g' : ReceiptEpisode} {b b' : Bills} {p p' : Plans}
  {cmd : MerchantCommand} {auth : Option PubKey} {metadata : PayloadMetadata}
  {rb : MerchantRollback} {res : Bool} {id : UInt64} {pk : PubKey} {info : CustomerInfo}

theorem payers_of_some {inv : Invoice} (hinv : g.invoices[id]? = some inv) :
    g.payers id = inv.payer := view_of_some hinv

theorem ShowsBills.payers (h : ShowsBills merchantKeys g b) (id : UInt64) :
    g.payers id = (b.payments id).map (·.1) := by
  unfold ReceiptEpisode.payers
  cases hinv : g.invoices[id]? with
  | none =>
    rw [view_of_none hinv, Bills.payments, h.absent.mp hinv]
    rfl
  | some inv => rw [view_of_some hinv, (h.payment hinv).1]

theorem Lists.linkInvoice (h : Lists g) {inv : Invoice} (hpayer : inv.payer = some pk)
    (hunpaid : g.payers id = none) (hinfo : g.customers[pk]? = some info) (used : ExtTreeSet Hash) :
    Lists { g with invoices := g.invoices.insert id inv
                   customers := g.customers.insert pk (info.pushInvoice id)
                   usedCarrierTxs := used } := by
  have hlist : g.invoiceLists pk = some info.invoices := view_of_some hinfo
  have hnot : id ∉ info.invoices := h.invoices.not_mem hlist hunpaid
  have hpush : info.pushInvoice id = { info with invoices := info.invoices ++ [id] } := if_neg hnot
  have hlink := h.invoices.link hunpaid hlist
  constructor
  · unfold payers invoiceLists at hlink ⊢
    rw [view_insert, view_insert, hpayer, hpush]
    exact hlink
  · have hsubs := h.subscriptions
    unfold subscribers subscriptionLists at hsubs ⊢
    rw [view_insert_same]
    · exact hsubs
    · rw [view_of_some hinfo, hpush]

theorem Lists.unlinkInvoice (h : Lists g) {inv : Invoice} (hpayer : inv.payer = none)
    (hpaid : g.payers id = some pk) (used : ExtTreeSet Hash) :
    Lists { g with invoices := g.invoices.insert id inv
                   customers := g.customers.modify pk (CustomerInfo.retainInvoices id)
                   usedCarrierTxs := used } := by
  obtain ⟨l, hlist⟩ := h.invoices.listed id pk hpaid
  obtain ⟨info, hinfo, hl⟩ := Option.bind_eq_some_iff.mp hlist
  cases hl
  have hunlink := h.invoices.unlink hpaid hlist
  constructor
  · unfold payers invoiceLists at hunlink ⊢
    rw [modify_of_some hinfo, view_insert, view_insert, hpayer]
    exact hunlink
  · have hsubs := h.subscriptions
    unfold subscribers subscriptionLists at hsubs ⊢
    rw [modify_of_some hinfo, view_insert_same]
    · exact hsubs
    · rw [view_of_some hinfo]
      rfl

theorem Lists.linkSubscription (h : Lists g) (sub : Subscription)
    (hnew : g.subscriptions[id]? = none) (hinfo : g.customers[sub.customer]? = some info) :
    Lists { g with customers := g.customers.insert sub.customer (info.pushSubscription id)
                   subscriptions := g.subscriptions.insert id sub } := by
  have hlist : g.subscriptionLists sub.customer = some info.subscriptions := view_of_some hinfo
  have hlink := h.subscriptions.link (view_of_none hnew) hlist
  constructor
  · have hinvoices := h.invoices
    unfold payers invoiceLists at hinvoices ⊢
    rw [view_insert_same]
    · exact hinvoices
    · rw [view_of_some hinfo]
      rfl
  · unfold subscribers subscriptionLists at hlink ⊢
    rw [view_insert, view_insert]
    exact hlink

theorem Lists.subscriber_known (h : Lists g) {sub : Subscription}
    (hsub : g.subscriptions[id]? = some sub) : ∃ info, g.customers[sub.customer]? = some info := by
  obtain ⟨l, hl⟩ := h.subscriptions.listed id sub.customer (view_of_some hsub)
  obtain ⟨info, hinfo, -⟩ := Option.bind_eq_some_iff.mp hl
  exact ⟨info, hinfo⟩

theorem Lists.unlinkSubscription (h : Lists g) {sub : Subscription}
    (hsub : g.subscriptions[id]? = some sub) :
    Lists { g with customers := g.customers.modify sub.customer
                     (CustomerInfo.retainSubscriptions id)
                   subscriptions := g.subscriptions.erase id } := by
  have howner : g.subscribers id = some sub.customer := view_of_some hsub
  obtain ⟨info, hinfo⟩ := h.subscriber_known hsub
  have hlist : g.subscriptionLists sub.customer = some info.subscriptions := view_of_some hinfo
  have hunlink := h.subscriptions.unlink howner hlist
  constructor
  · have hinvoices := h.invoices
    unfold payers invoiceLists at hinvoices ⊢
    rw [modify_of_some hinfo, view_insert_same]
    · exact hinvoices
    · rw [view_of_some hinfo]
      rfl
  · unfold subscribers subscriptionLists at hunlink ⊢
    rw [modify_of_some hinfo, view_insert, view_erase]
    exact hunlink

theorem Lists.writeInvoice (h : Lists g) {inv : Invoice} (hpayer : inv.payer = g.payers id) :
    Lists { g with invoices := g.invoices.insert id inv } := by
  refine ⟨?_, h.subscriptions⟩
  have hinvoices := h.invoices
  unfold payers at hinvoices hpayer ⊢
  rw [view_insert_same hpayer]
  exact hinvoices

theorem Lists.dropInvoice (h : Lists g) (hpayer : g.payers id = none) :
    Lists { g with invoices := g.invoices.erase id } := by
  refine ⟨?_, h.subscriptions⟩
  have hinvoices := h.invoices
  unfold payers at hinvoices hpayer ⊢
  rw [view_erase_same hpayer]
  exact hinvoices

theorem Lists.writeSubscription (h : Lists g) {sub sub' : Subscription}
    (hsub : g.subscriptions[id]? = some sub) (hcustomer : sub'.customer = sub.customer) :
    Lists { g with subscriptions := g.subscriptions.insert id sub' } := by
  refine ⟨h.invoices, ?_⟩
  have hsubs := h.subscriptions
  unfold subscribers at hsubs ⊢
  rw [view_insert_same]
  · exact hsubs
  · rw [view_of_some hsub, hcustomer]

theorem Lists.accepts (h : Lists g) (hb : ShowsBills merchantKeys g b)
    (hacc : g.Accepts metadata cmd auth rb g') : Lists g' := by
  cases hacc with
  | createInvoice hnew hamount hauth => exact h.writeInvoice (view_of_none hnew).symm
  | @markPaid id payer inv info hunused hinv hopen hinfo houts =>
    have hunpaid : g.payers id = none := (payers_of_some hinv).trans (hb.unpaid hinv hopen).1
    exact h.linkInvoice rfl hunpaid hinfo _
  | ackReceipt hinv hpaid => exact h.writeInvoice (payers_of_some hinv).symm
  | cancelInvoice hinv hopen => exact h.writeInvoice (payers_of_some hinv).symm
  | @createSubscription id customer amount interval pk info hnew hauth hinfo =>
    exact h.linkSubscription
      ⟨id, customer, amount, interval, metadata.acceptingTime + interval⟩ hnew hinfo
  | processSubscription hsub => exact h.writeSubscription hsub rfl
  | cancelSubscription hsub => exact h.unlinkSubscription hsub

theorem Accepts.canceled {sub : Subscription}
    (h : g.Accepts metadata cmd auth (.undoCancelSubscription sub) g') :
    ∃ id : UInt64, g.subscriptions[id]? = some sub := by
  cases h with
  | cancelSubscription hsub => exact ⟨_, hsub⟩

/-- The records whose rollback finds the customer of the subscription it brings back. -/
def Registered (registered : PubKey → Prop) (r : Record) : Prop :=
  ∀ sub, r.rollback = .undoCancelSubscription sub → registered sub.customer

theorem Lists.rollsBack {r : Record} (h : Lists g) (hb : ShowsBills merchantKeys g b')
    (hbills : Bills.Applies merchantKeys r b b') (hp : ShowsPlans g p')
    (hplans : Plans.Applies r p p') (hregistered : Registered (· ∈ g.customers) r)
    (hroll : g.RollsBack r.rollback g' res) : Lists g' := by
  obtain ⟨cmd, auth, metadata, rb⟩ := r
  cases hroll with
  | undoCreate =>
    cases hbills with
    | create hnew =>
      apply h.dropInvoice
      rw [hb.payers, Bills.payments_of_some (Function.update_self ..)]
      rfl
    | elsewhere hr => cases hr
  | @undoPaid id inv hinv =>
    cases hbills with
    | @pay _ _ payer metadata bill hbill hopen hfree houts =>
      obtain ⟨bill', hbill', heq⟩ := hb.bill hinv
      rw [Function.update_self] at hbill'
      cases hbill'
      have hpayer : inv.payer = some payer := congrArg Invoice.payer heq
      rw [hpayer]
      exact h.unlinkInvoice rfl ((payers_of_some hinv).trans hpayer) _
    | elsewhere hr => cases hr
  | undoAck hinv => exact h.writeInvoice (payers_of_some hinv).symm
  | undoCancel hinv => exact h.writeInvoice (payers_of_some hinv).symm
  | undoCreateSubscription hsub => exact h.unlinkSubscription hsub
  | undoProcessSubscription hsub => exact h.writeSubscription hsub rfl
  | @undoCancelSubscription sub =>
    cases hplans with
    | @cancel _ id auth metadata plan hplan =>
      -- the canceled subscription is in no list, so that it is put back at the end of one
      have hnew : g.subscriptions[id]? = none := by
        rw [hp.absent, Function.update_self]
      obtain ⟨info, hinfo⟩ := exists_of_mem (hregistered _ rfl)
      have hlist : g.subscriptionLists plan.customer = some info.subscriptions :=
        view_of_some hinfo
      have hnot : (plan.toSubscription id).id ∉ info.subscriptions :=
        h.subscriptions.not_mem hlist (view_of_none hnew)
      have hlinked := h.linkSubscription (plan.toSubscription id) hnew hinfo
      rw [modify_of_some hinfo, if_neg hnot]
      exact hlinked
    | elsewhere hr => cases hr
  | paidMissing | ackMissing | cancelMissing | createMissing | processMissing => exact h

theorem Accepts.mem_customers (h : g.Accepts metadata cmd auth rb g') (pk : PubKey) :
    pk ∈ g'.customers ↔ pk ∈ g.customers := by
  cases h with
  | markPaid hunused hinv hopen hinfo houts => exact mem_insert_of_some hinfo _ pk
  | createSubscription hnew hauth hinfo => exact mem_insert_of_some hinfo _ pk
  | cancelSubscription hsub => exact ExtTreeMap.mem_modify
  | createInvoice | ackReceipt | cancelInvoice | processSubscription => exact Iff.rfl

theorem RollsBack.mem_customers (h : g.RollsBack rb g' res) (pk : PubKey) :
    pk ∈ g'.customers ↔ pk ∈ g.customers := by
  cases h with
  | @undoPaid id inv hinv =>
    cases inv.payer with
    | none => exact Iff.rfl
    | some payer => exact ExtTreeMap.mem_modify
  | undoCreateSubscription hsub => exact ExtTreeMap.mem_modify
  | undoCancelSubscription => exact ExtTreeMap.mem_modify
  | undoCreate | undoAck | undoCancel | undoProcessSubscription | paidMissing | ackMissing
    | cancelMissing | createMissing | processMissing => exact Iff.rfl

/-- Everything the ledger says is in the episode, once or twice, and in the trees. -/
structure Shows (merchantKeys : List PubKey) (registered : PubKey → Prop)
    (s : ReceiptEpisode × Storage) (books : Bills × Plans) : Prop where
  bills : ShowsBills merchantKeys s.1 books.1
  plans : ShowsPlans s.1 books.2
  lists : Lists s.1
  customers : ∀ pk, pk ∈ s.1.customers ↔ registered pk
  mirrored : s.1.Mirrored s.2

theorem Shows.keyed {registered : PubKey → Prop} {s : ReceiptEpisode × Storage}
    {books : Bills × Plans} (h : Shows merchantKeys registered s books) : s.1.Keyed :=
  h.bills.keyed h.plans

def AppliesBoth (merchantKeys : List PubKey) (registered : PubKey → Prop) (r : Record)
    (books books' : Bills × Plans) : Prop :=
  Bills.Applies merchantKeys r books.1 books'.1 ∧ Plans.Applies r books.2 books'.2 ∧
    Registered registered r

variable {allowed : MerchantCommand → PayloadMetadata → Prop} {g₀ : ReceiptEpisode}
  {db₀ db : Storage} {log : List Record}

theorem Shows.exec {registered : PubKey → Prop} {r : Record} {s s' : ReceiptEpisode × Storage}
    {books : Bills × Plans} (h : Shows merchantKeys registered s books)
    (hexec : Exec allowed r s s') :
    ∃ books', AppliesBoth merchantKeys registered r books books' ∧
      Shows merchantKeys registered s' books' := by
  obtain ⟨hacc, hmirrored⟩ := execute_ok hexec.2
  obtain ⟨b', hbills, hb'⟩ := h.bills.accepts hacc
  obtain ⟨p', hplans, hp'⟩ := h.plans.accepts hacc
  have hregistered : Registered registered r := by
    intro sub hr
    rw [hr] at hacc
    obtain ⟨id, hsub⟩ := hacc.canceled
    obtain ⟨info, hinfo⟩ := h.lists.subscriber_known hsub
    exact (h.customers _).mp (mem_of_some hinfo)
  exact ⟨(b', p'), ⟨hbills, hplans, hregistered⟩, hb', hp', h.lists.accepts h.bills hacc,
    fun pk => (hacc.mem_customers pk).trans (h.customers pk), hmirrored h.keyed h.mirrored⟩

theorem Shows.undo {registered : PubKey → Prop} {r : Record} {s s' : ReceiptEpisode × Storage}
    {books books' : Bills × Plans} (happlies : AppliesBoth merchantKeys registered r books books')
    (h : Shows merchantKeys registered s books') (hundo : Undo r s s') :
    Shows merchantKeys registered s' books := by
  obtain ⟨hbills, hplans, hregistered⟩ := happlies
  obtain ⟨res, hroll⟩ := hundo
  obtain ⟨hrolls, hmirrored⟩ := rollback_ok hroll
  have hfound : Registered (· ∈ s.1.customers) r :=
    fun sub hr => (h.customers _).mpr (hregistered sub hr)
  exact ⟨h.bills.rollsBack hbills hrolls, h.plans.rollsBack hplans hrolls,
    h.lists.rollsBack h.bills hbills h.plans hplans hfound hrolls,
    fun pk => (hrolls.mem_customers pk).trans (h.customers pk), hmirrored h.keyed h.mirrored⟩

theorem Reachable.shows {books₀ : Bills × Plans}
    (h₀ : Shows g₀.merchantKeys (· ∈ g₀.customers) (g₀, db₀) books₀)
    (h : Reachable allowed g₀ db₀ log g db) :
    ∃ books, UndoLog.Chain (AppliesBoth g₀.merchantKeys (· ∈ g₀.customers)) books₀ log books ∧
      Shows g₀.merchantKeys (· ∈ g₀.customers) (g, db) books :=
  UndoLog.Run.simulates h₀ (fun _ _ _ _ => Shows.exec) (fun _ _ _ _ _ => Shows.undo) h.run

/-- A store on which customers are registered, with empty lists, and nothing else is kept. -/
def register (customers : List PubKey) : StorageM Unit :=
  customers.forM fun pk => putCustomer pk ⟨[], []⟩

theorem register_mirrored {pks : List PubKey} {customers : ExtTreeMap PubKey CustomerInfo}
    {db db' : Storage} {u : Unit} (hm : Storage.Mirrored ∅ ∅ customers db)
    (hempty : ∀ (pk : PubKey) (info : CustomerInfo), customers[pk]? = some info → info = ⟨[], []⟩)
    (h : (register pks).run db = .ok (u, db')) :
    ∃ customers', Storage.Mirrored ∅ ∅ customers' db' ∧
      ∀ (pk : PubKey) (info : CustomerInfo), customers'[pk]? = some info → info = ⟨[], []⟩ := by
  induction pks generalizing customers db with
  | nil =>
    cases h
    exact ⟨customers, hm, hempty⟩
  | cons pk pks ih =>
    obtain ⟨u', db₁, hput, hrest⟩ := Outcome.run_bind_ok h
    refine ih (hm.putCustomer hput) ?_ hrest
    intro q info hinfo
    by_cases hq : q = pk
    · subst hq
      rw [ExtTreeMap.getElem?_insert_self] at hinfo
      exact (Option.some.inj hinfo).symm
    · exact hempty q info (by grind)

theorem initializeWith_shows {customers participants : List PubKey} {metadata : PayloadMetadata}
    {u : Unit} (hregister : (register customers).run Storage.init = .ok (u, db))
    (hstart : (initializeWith participants metadata).run db = .ok (g₀, db₀)) :
    Shows g₀.merchantKeys (· ∈ g₀.customers) (g₀, db₀) (fun _ => none, fun _ => none) := by
  obtain ⟨known, hm, hempty⟩ := register_mirrored Storage.Mirrored.init
    (fun pk info hinfo => by rw [ExtTreeMap.getElem?_empty] at hinfo; cases hinfo) hregister
  obtain ⟨hinvoices, hsubscriptions, hcustomers⟩ := hm.loaded
  have hbills := initializeWith_bills hinvoices hstart
  obtain ⟨rfl, -, hi, hs, hc, -⟩ := initializeWith_ok hstart
  rw [hinvoices] at hi
  rw [hsubscriptions] at hs
  rw [hcustomers] at hc
  -- the customers are registered with empty lists, and the ledger begins empty
  have hlists : ∀ (f : CustomerInfo → List UInt64), f ⟨[], []⟩ = [] →
      ∀ {owner : UInt64 → Option PubKey}, (∀ id, owner id = none) →
        Indexes owner (view (fun info => some (f info)) g₀.customers) := by
    intro f hf owner howner
    have hnil : ∀ pk l, view (fun info => some (f info)) g₀.customers pk = some l → l = [] := by
      intro pk l hl
      obtain ⟨info, hinfo, heq⟩ := Option.bind_eq_some_iff.mp hl
      rw [hc] at hinfo
      cases heq
      rw [hempty pk info hinfo, hf]
    constructor
    · intro pk l hl
      rw [hnil pk l hl]
      exact List.nodup_nil
    · intro pk l id hl
      rw [hnil pk l hl, howner id]
      exact iff_of_false List.not_mem_nil (fun h => by cases h)
    · intro id pk hid
      rw [howner id] at hid
      cases hid
  refine ⟨hbills, fun id => ?_, ⟨hlists (·.invoices) rfl fun id => ?_,
    hlists (·.subscriptions) rfl fun id => ?_⟩, fun pk => Iff.rfl, ?_⟩
  · rw [hs, ExtTreeMap.getElem?_empty]
    rfl
  · exact view_of_none (by rw [hi, ExtTreeMap.getElem?_empty])
  · exact view_of_none (by rw [hs, ExtTreeMap.getElem?_empty])
  · unfold Mirrored
    rw [hi, hs, hc]
    exact hm

structure Balanced (g : ReceiptEpisode) : Prop where
  settled : ∀ (id : UInt64) (inv : Invoice), g.invoices[id]? = some inv →
    (inv.status = .paid ∨ inv.status = .acked ↔
      inv.payer.isSome = true ∧ inv.carrierTx.isSome = true)
  unsettled : ∀ (id : UInt64) (inv : Invoice), g.invoices[id]? = some inv →
    ¬ (inv.status = .paid ∨ inv.status = .acked) → inv.payer = none ∧ inv.carrierTx = none
  carriers : ∀ (id id' : UInt64) (inv inv' : Invoice) (tx : Hash), g.invoices[id]? = some inv →
    g.invoices[id']? = some inv' → inv.carrierTx = some tx → inv'.carrierTx = some tx → id = id'
  used : ∀ tx : Hash, tx ∈ g.usedCarrierTxs ↔
    ∃ (id : UInt64) (inv : Invoice), g.invoices[id]? = some inv ∧ inv.carrierTx = some tx
  invoicesOnce : ∀ (pk : PubKey) (info : CustomerInfo), g.customers[pk]? = some info →
    info.invoices.Nodup
  invoicesListed : ∀ (pk : PubKey) (info : CustomerInfo) (id : UInt64),
    g.customers[pk]? = some info → (id ∈ info.invoices ↔
      ∃ inv, g.invoices[id]? = some inv ∧ inv.payer = some pk)
  payersKnown : ∀ (id : UInt64) (inv : Invoice) (pk : PubKey), g.invoices[id]? = some inv →
    inv.payer = some pk → pk ∈ g.customers
  subscribed : ∀ (id : UInt64) (sub : Subscription), g.subscriptions[id]? = some sub →
    ∃ info, g.customers[sub.customer]? = some info ∧ info.subscriptions.count id = 1
  subscriptionsListed : ∀ (pk : PubKey) (info : CustomerInfo) (id : UInt64),
    g.customers[pk]? = some info → id ∈ info.subscriptions →
      ∃ sub, g.subscriptions[id]? = some sub ∧ sub.customer = pk

theorem Shows.balanced {registered : PubKey → Prop} {s : ReceiptEpisode × Storage}
    {books : Bills × Plans} (h : Shows merchantKeys registered s books)
    (hdistinct : books.1.Distinct) : s.1.Balanced where
  settled id inv hinv := by
    obtain ⟨hpayer, hcarrier, hstatus⟩ := h.bills.payment hinv
    rw [hstatus, hpayer, hcarrier, Option.isSome_map, Option.isSome_map, and_self]
  unsettled id inv hinv hnot := by
    obtain ⟨hpayer, hcarrier, hstatus⟩ := h.bills.payment hinv
    rw [hstatus, Option.not_isSome_iff_eq_none] at hnot
    rw [hpayer, hcarrier, hnot]
    exact ⟨rfl, rfl⟩
  carriers id id' inv inv' tx hinv hinv' := h.bills.carrier_unique hdistinct hinv hinv'
  used tx := (h.bills.used tx).trans (carries_iff h.bills.entries tx)
  invoicesOnce pk info hinfo := h.lists.invoices.nodup pk _ (view_of_some hinfo)
  invoicesListed pk info id hinfo := by
    rw [h.lists.invoices.mem_iff pk _ id (view_of_some hinfo)]
    exact Option.bind_eq_some_iff
  payersKnown id inv pk hinv hpayer := by
    obtain ⟨l, hl⟩ := h.lists.invoices.listed id pk ((payers_of_some hinv).trans hpayer)
    obtain ⟨info, hinfo, -⟩ := Option.bind_eq_some_iff.mp hl
    exact mem_of_some hinfo
  subscribed id sub hsub := by
    have howner : s.1.subscribers id = some sub.customer := view_of_some hsub
    obtain ⟨l, hl⟩ := h.lists.subscriptions.listed id _ howner
    obtain ⟨info, hinfo, heq⟩ := Option.bind_eq_some_iff.mp hl
    cases heq
    have hmem := (h.lists.subscriptions.mem_iff _ _ id hl).mpr howner
    exact ⟨info, hinfo, List.count_eq_one_of_mem (h.lists.subscriptions.nodup _ _ hl) hmem⟩
  subscriptionsListed pk info id hinfo hmem := by
    rw [h.lists.subscriptions.mem_iff pk _ id (view_of_some hinfo)] at hmem
    obtain ⟨sub, hsub, heq⟩ := Option.bind_eq_some_iff.mp hmem
    exact ⟨sub, hsub, Option.some.inj heq⟩

theorem ledger_balanced {customers participants : List PubKey} {metadata : PayloadMetadata}
    {u : Unit} {db' : Storage} (hregister : (register customers).run Storage.init = .ok (u, db))
    (hstart : (initializeWith participants metadata).run db = .ok (g₀, db₀))
    (h : Reachable (fun _ _ => True) g₀ db₀ log g db') : g.Balanced := by
  obtain ⟨books, hchain, hshows⟩ := h.shows (initializeWith_shows hregister hstart)
  have hdistinct : books.1.Distinct :=
    hchain.invariant (P := fun books : Bills × Plans => books.1.Distinct)
      (fun _ _ _ _ _ hp => by cases hp) fun r b b' hr => hr.1.distinct
  exact hshows.balanced hdistinct

end ReceiptEpisode
end Kdapp.Merchant

namespace Kdapp.Merchant.ReceiptEpisode
attribute [local instance] idealCrypto

theorem register_shop : (register [(2 : UInt8)]).run Storage.init = .ok ((), shop) := rfl

theorem ledger_balanced_acked : acked.1.Balanced := by
  have hrun := acked_reachable (fun _ _ => True) (fun _ _ _ _ => trivial) trivial
    (fun _ _ => trivial)
  exact ledger_balanced register_shop (opened_shop payingBlock) hrun

end Kdapp.Merchant.ReceiptEpisode
