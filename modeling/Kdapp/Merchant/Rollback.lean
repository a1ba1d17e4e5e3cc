import Kdapp.Merchant.Ledger

/-! What the rollback of a command leaves: the episode before the command, but for the time of
the last update of an invoice and the place of a subscription in its customer's list. -/

namespace Kdapp.Merchant
open Storage
open Std (ExtTreeMap ExtTreeSet LawfulEqOrd ReflCmp)
open FiniteMap OwnerIndex

theorem CustomerInfo.retainInvoices_pushInvoice {info : CustomerInfo} {id : UInt64}
    (h : id ∉ info.invoices) :
    (info.pushInvoice id).retainInvoices id = info := by
  have hpush : info.pushInvoice id = { info with invoices := info.invoices ++ [id] } := if_neg h
  have hlist := unlinked_linked h
  rw [hpush]
  exact congrArg (fun l => { info with invoices := l }) hlist

theorem CustomerInfo.retainSubscriptions_pushSubscription {info : CustomerInfo} {id : UInt64}
    (h : id ∉ info.subscriptions) :
    (info.pushSubscription id).retainSubscriptions id = info :=
  congrArg (fun l => { info with subscriptions := l }) (unlinked_linked h)

variable [Crypto]

namespace ReceiptEpisode

def redate (g : ReceiptEpisode) (id time : UInt64) : ReceiptEpisode :=
  { g with invoices := g.invoices.modify id fun inv => { inv with lastUpdate := time } }

def requeue (g : ReceiptEpisode) (id : UInt64) : ReceiptEpisode :=
  match g.subscriptions[id]? with
  | none => g
  | some sub =>
    { g with customers := g.customers.modify sub.customer fun info =>
              (info.retainSubscriptions id).pushSubscription id }

def undone (g : ReceiptEpisode) (metadata : PayloadMetadata) : MerchantCommand → ReceiptEpisode
  | .markPaid id _ => g.redate id metadata.acceptingTime
  | .ackReceipt id => g.redate id metadata.acceptingTime
  | .cancelInvoice id => g.redate id metadata.acceptingTime
  | .cancelSubscription id => g.requeue id
  | _ => g

variable {merchantKeys : List PubKey} {g g' : ReceiptEpisode} {b : Bills}
  {cmd : MerchantCommand} {auth : Option PubKey} {metadata : PayloadMetadata}
  {rb : MerchantRollback} {res : Bool} {id : UInt64} {pk : PubKey} {info : CustomerInfo}
  {db db' : Storage}

theorem redate_of_some {inv : Invoice} (hinv : g.invoices[id]? = some inv) (time : UInt64) :
    g.redate id time =
      { g with invoices := g.invoices.insert id { inv with lastUpdate := time } } := by
  unfold redate
  rw [modify_of_some hinv]

theorem requeue_of_some {sub : Subscription} (hsub : g.subscriptions[id]? = some sub)
    (hinfo : g.customers[sub.customer]? = some info) :
    g.requeue id = { g with customers := g.customers.insert sub.customer
                              ((info.retainSubscriptions id).pushSubscription id) } := by
  unfold requeue
  rw [hsub]
  dsimp only
  rw [modify_of_some hinfo]

theorem modify_insert {f : CustomerInfo → CustomerInfo} {info' : CustomerInfo}
    {customers : ExtTreeMap PubKey CustomerInfo} (hinfo : customers[pk]? = some info)
    (hf : f info' = info) : (customers.insert pk info').modify pk f = customers := by
  rw [modify_of_some ExtTreeMap.getElem?_insert_self, insert_insert, hf,
    insert_of_getElem? hinfo]

theorem Accepts.undone (hb : ShowsBills merchantKeys g b) (hkeyed : g.Keyed) (hl : Lists g)
    (hacc : g.Accepts metadata cmd auth rb g') :
    g'.RollsBack rb (g.undone metadata cmd) true := by
  cases hacc with
  | @createInvoice id amount memo pk hnew hamount hauth =>
    have hroll : RollsBack { g with
        invoices := g.invoices.insert id ⟨id, amount, memo, metadata.acceptingTime,
          metadata.acceptingTime, .open, none, none⟩ } (.undoCreate id) _ _ := .undoCreate
    dsimp only at hroll
    rw [erase_insert_of_fresh hnew, decide_eq_true ExtTreeMap.mem_insert_self] at hroll
    exact hroll
  | @markPaid id payer inv info hunused hinv hopen hinfo houts =>
    obtain ⟨hpayer, hcarrier⟩ := hb.unpaid hinv hopen
    have hunmarked : (inv.markPaid payer metadata).unmarkPaid =
        { inv with lastUpdate := metadata.acceptingTime } := by
      cases inv
      cases hopen
      cases hpayer
      cases hcarrier
      rfl
    have hlist : g.invoiceLists payer = some info.invoices := view_of_some hinfo
    -- an unpaid invoice is in no list, so that `retain` removes what was pushed and no more
    have hnot : id ∉ info.invoices :=
      hl.invoices.not_mem hlist ((payers_of_some hinv).trans hpayer)
    have hcustomers := modify_insert (f := CustomerInfo.retainInvoices id) hinfo
      (CustomerInfo.retainInvoices_pushInvoice hnot)
    have hused : (g.usedCarrierTxs.insert metadata.txId).erase metadata.txId =
        g.usedCarrierTxs := by
      apply ExtTreeSet.ext_mem
      grind
    have hroll := RollsBack.undoPaid (g := { g with
      invoices := g.invoices.insert id (inv.markPaid payer metadata)
      customers := g.customers.insert payer (info.pushInvoice id)
      usedCarrierTxs := g.usedCarrierTxs.insert metadata.txId })
      (ExtTreeMap.getElem?_insert_self)
    dsimp only [Invoice.markPaid] at hroll hcustomers hused hunmarked
    rw [insert_insert, hunmarked, hcustomers, hused] at hroll
    unfold ReceiptEpisode.undone
    dsimp only
    rw [redate_of_some hinv]
    exact hroll
  | @ackReceipt id auth inv hinv hpaid =>
    have hroll := RollsBack.undoAck (g := { g with
      invoices := g.invoices.insert id
        { inv with status := .acked, lastUpdate := metadata.acceptingTime } })
      ExtTreeMap.getElem?_insert_self
    dsimp only at hroll
    rw [insert_insert, ← hpaid] at hroll
    unfold ReceiptEpisode.undone
    dsimp only
    rw [redate_of_some hinv]
    exact hroll
  | @cancelInvoice id auth inv hinv hopen =>
    have hroll := RollsBack.undoCancel (g := { g with
      invoices := g.invoices.insert id
        { inv with status := .canceled, lastUpdate := metadata.acceptingTime } })
      ExtTreeMap.getElem?_insert_self
    dsimp only at hroll
    rw [insert_insert, ← hopen] at hroll
    unfold ReceiptEpisode.undone
    dsimp only
    rw [redate_of_some hinv]
    exact hroll
  | @createSubscription id customer amount interval pk info hnew hauth hinfo =>
    have hlist : g.subscriptionLists customer = some info.subscriptions := view_of_some hinfo
    have hnot : id ∉ info.subscriptions := hl.subscriptions.not_mem hlist (view_of_none hnew)
    have hcustomers := modify_insert (f := CustomerInfo.retainSubscriptions id) hinfo
      (CustomerInfo.retainSubscriptions_pushSubscription hnot)
    have hroll := RollsBack.undoCreateSubscription (g := { g with
      customers := g.customers.insert customer (info.pushSubscription id)
      subscriptions := g.subscriptions.insert id
        ⟨id, customer, amount, interval, metadata.acceptingTime + interval⟩ })
      ExtTreeMap.getElem?_insert_self
    dsimp only at hroll
    rw [erase_insert_of_fresh hnew, hcustomers] at hroll
    exact hroll
  | @processSubscription id auth sub hsub =>
    have hroll : RollsBack { g with
        subscriptions := g.subscriptions.insert id
          { sub with nextRun := metadata.acceptingTime + sub.interval } }
        (.undoProcessSubscription id sub.nextRun) _ _ :=
      .undoProcessSubscription ExtTreeMap.getElem?_insert_self
    dsimp only at hroll
    rw [insert_insert, insert_of_getElem? hsub] at hroll
    exact hroll
  | @cancelSubscription id auth sub hsub =>
    obtain rfl := hkeyed.subscriptions id sub hsub
    obtain ⟨info, hinfo⟩ := hl.subscriber_known hsub
    have hroll : RollsBack { g with
        customers := g.customers.modify sub.customer (CustomerInfo.retainSubscriptions sub.id)
        subscriptions := g.subscriptions.erase sub.id }
        (.undoCancelSubscription sub) _ _ := .undoCancelSubscription
    have hnot : sub.id ∉ (info.retainSubscriptions sub.id).subscriptions :=
      fun hm => (mem_unlinked.mp hm).2 rfl
    dsimp only at hroll
    rw [insert_erase_of_some hsub, modify_of_some hinfo,
      modify_of_some ExtTreeMap.getElem?_insert_self, insert_insert, if_neg hnot] at hroll
    change RollsBack _ _ (g.requeue sub.id) true
    rw [requeue_of_some hsub hinfo, modify_of_some hinfo]
    exact hroll

def RestoredBy (g : ReceiptEpisode) (metadata : PayloadMetadata) : MerchantCommand → Prop
  | .markPaid id _ | .ackReceipt id | .cancelInvoice id =>
    ∀ inv ∈ g.invoices[id]?, inv.lastUpdate = metadata.acceptingTime
  | .cancelSubscription id => ∀ sub ∈ g.subscriptions[id]?,
    ∀ info ∈ g.customers[sub.customer]?, info.subscriptions.getLast? = some id
  | _ => True

theorem redate_eq {inv : Invoice} (hinv : g.invoices[id]? = some inv) (time : UInt64) :
    g.redate id time = g ↔ inv.lastUpdate = time := by
  rw [redate_of_some hinv]
  constructor
  · intro h
    have hget := congrArg (fun g : ReceiptEpisode => g.invoices[id]?) h
    dsimp only at hget
    rw [ExtTreeMap.getElem?_insert_self, hinv] at hget
    exact (congrArg Invoice.lastUpdate (Option.some.inj hget)).symm
  · rintro rfl
    rw [insert_of_getElem? hinv]

theorem requeue_eq {sub : Subscription} (hl : Lists g) (hsub : g.subscriptions[id]? = some sub)
    (hinfo : g.customers[sub.customer]? = some info) :
    g.requeue id = g ↔ info.subscriptions.getLast? = some id := by
  have hlist : g.subscriptionLists sub.customer = some info.subscriptions := view_of_some hinfo
  have hnodup := hl.subscriptions.nodup _ _ hlist
  rw [requeue_of_some hsub hinfo, ← linked_unlinked hnodup]
  constructor
  · intro h
    have hget := congrArg (fun g : ReceiptEpisode => g.customers[sub.customer]?) h
    dsimp only at hget
    rw [ExtTreeMap.getElem?_insert_self, hinfo] at hget
    exact congrArg CustomerInfo.subscriptions (Option.some.inj hget)
  · intro h
    have hsame : (info.retainSubscriptions id).pushSubscription id = info :=
      congrArg (fun l => { info with subscriptions := l }) h
    rw [hsame, insert_of_getElem? hinfo]

theorem Accepts.undone_eq (hl : Lists g) (hacc : g.Accepts metadata cmd auth rb g') :
    g.undone metadata cmd = g ↔ g.RestoredBy metadata cmd := by
  cases hacc with
  | markPaid hunused hinv hopen hinfo houts =>
    refine (redate_eq hinv _).trans ?_
    simp [RestoredBy, hinv]
  | ackReceipt hinv hpaid =>
    refine (redate_eq hinv _).trans ?_
    simp [RestoredBy, hinv]
  | cancelInvoice hinv hopen =>
    refine (redate_eq hinv _).trans ?_
    simp [RestoredBy, hinv]
  | cancelSubscription hsub =>
    obtain ⟨info, hinfo⟩ := hl.subscriber_known hsub
    refine (requeue_eq hl hsub hinfo).trans ?_
    simp [RestoredBy, hsub, hinfo]
  | createInvoice | createSubscription | processSubscription => exact iff_of_true rfl trivial

structure Writable (g : ReceiptEpisode) : Prop where
  invoices : ∀ (id : UInt64) (inv : Invoice), g.invoices[id]? = some inv →
    (Invoice.codec.serialize inv).isSome = true
  customers : ∀ (pk : PubKey) (info : CustomerInfo), g.customers[pk]? = some info →
    (CustomerInfo.codec.serialize info).isSome = true

theorem Mirrored.writable (h : g.Mirrored db) : g.Writable where
  invoices := h.invoices.written
  customers := h.customers.written

theorem updateCustomer_total {customers : ExtTreeMap PubKey CustomerInfo}
    {f : CustomerInfo → CustomerInfo}
    (hw : ∀ info, (customers.modify pk f)[pk]? = some info →
      (CustomerInfo.codec.serialize info).isSome = true) (db : Storage) :
    ∃ db', (updateCustomer customers pk f).run db = .ok (customers.modify pk f, db') := by
  unfold updateCustomer
  split
  · rename_i hnone
    rw [modify_of_none hnone]
    exact ⟨db, rfl⟩
  · rename_i info hinfo
    have hwritten := hw (f info) (by
      rw [modify_of_some hinfo, ExtTreeMap.getElem?_insert_self])
    obtain ⟨db', hput⟩ := putCustomer_total hwritten pk db
    refine ⟨db', ?_⟩
    rw [Outcome.run_bind_of_ok _ hput, modify_of_some hinfo]
    rfl

theorem updatePayer_total (customers : ExtTreeMap PubKey CustomerInfo) (payer? : Option PubKey)
    (f : CustomerInfo → CustomerInfo) (db : Storage) :
    (∀ (pk : PubKey) (info : CustomerInfo), (match payer? with
        | none => customers
        | some payer => customers.modify payer f)[pk]? = some info →
      (CustomerInfo.codec.serialize info).isSome = true) →
    ∃ db', (match payer? with
        | none => return customers
        | some payer => updateCustomer customers payer f :
        StorageM (ExtTreeMap PubKey CustomerInfo)).run db = .ok (match payer? with
          | none => customers
          | some payer => customers.modify payer f, db') := by
  cases payer? with
  | none => exact fun _ => ⟨db, rfl⟩
  | some payer => exact fun hw => updateCustomer_total (hw payer) db

theorem RollsBack.total (h : g.RollsBack rb g' res) (hw : g'.Writable) (db : Storage) :
    ∃ db', (g.rollback rb).run db = .ok ((g', res), db') := by
  cases h with
  | undoCreate => exact ⟨_, rfl⟩
  | @undoPaid id inv hinv =>
    obtain ⟨db₁, hcustomers⟩ := updatePayer_total _ _ _ db hw.customers
    obtain ⟨db', hput⟩ := putInvoice_total (hw.invoices id _ ExtTreeMap.getElem?_insert_self) db₁
    refine ⟨db', ?_⟩
    unfold rollback
    dsimp only
    rw [hinv]
    exact (Outcome.run_bind_of_ok _ hcustomers).trans (Outcome.run_bind_of_ok _ hput)
  | @undoAck id inv hinv =>
    obtain ⟨db', hput⟩ := putInvoice_total (hw.invoices id _ ExtTreeMap.getElem?_insert_self) db
    refine ⟨db', ?_⟩
    unfold rollback
    dsimp only
    rw [hinv]
    exact Outcome.run_bind_of_ok _ hput
  | @undoCancel id inv hinv =>
    obtain ⟨db', hput⟩ := putInvoice_total (hw.invoices id _ ExtTreeMap.getElem?_insert_self) db
    refine ⟨db', ?_⟩
    unfold rollback
    dsimp only
    rw [hinv]
    exact Outcome.run_bind_of_ok _ hput
  | @undoCreateSubscription id sub hsub =>
    obtain ⟨db', hupdate⟩ := updateCustomer_total (hw.customers sub.customer)
      { db with subscriptions := db.subscriptions.erase (idKey id) }
    have hdelete : (deleteSubscription id).run db =
        .ok ((), { db with subscriptions := db.subscriptions.erase (idKey id) }) := rfl
    refine ⟨db', ?_⟩
    unfold rollback
    dsimp only
    rw [hsub]
    exact (Outcome.run_bind_of_ok _ hdelete).trans (Outcome.run_bind_of_ok _ hupdate)
  | @undoProcessSubscription id prev sub hsub =>
    obtain ⟨db', hput⟩ := putSubscription_total { sub with nextRun := prev } db
    refine ⟨db', ?_⟩
    unfold rollback
    dsimp only
    rw [hsub]
    exact Outcome.run_bind_of_ok _ hput
  | @undoCancelSubscription sub =>
    obtain ⟨db₁, hput⟩ := putSubscription_total sub db
    cases hinfo : g.customers[sub.customer]? with
    | none =>
      refine ⟨db₁, ?_⟩
      unfold rollback
      dsimp only
      rw [hinfo, modify_of_none hinfo]
      exact Outcome.run_bind_of_ok _ hput
    | some info =>
      -- a customer that lists the subscription is not written again
      by_cases hlisted : sub.id ∈ info.subscriptions
      · refine ⟨db₁, ?_⟩
        unfold rollback
        dsimp only
        rw [hinfo, modify_of_some hinfo]
        refine (Outcome.run_bind_of_ok _ hput).trans ?_
        dsimp only
        rw [if_pos hlisted, if_pos hlisted, insert_of_getElem? hinfo]
        rfl
      · have hwritten := hw.customers sub.customer (info.pushSubscription sub.id) (by
          dsimp only
          rw [modify_of_some hinfo, ExtTreeMap.getElem?_insert_self, if_neg hlisted])
        obtain ⟨db', hput'⟩ := putCustomer_total hwritten sub.customer db₁
        refine ⟨db', ?_⟩
        unfold rollback
        dsimp only
        rw [hinfo, modify_of_some hinfo]
        refine (Outcome.run_bind_of_ok _ hput).trans ?_
        dsimp only
        rw [if_neg hlisted, if_neg hlisted]
        exact Outcome.run_bind_of_ok _ hput'
  | paidMissing hinv | ackMissing hinv | cancelMissing hinv =>
    unfold rollback
    dsimp only
    rw [hinv]
    exact ⟨db, rfl⟩
  | processMissing hsub =>
    unfold rollback
    dsimp only
    rw [hsub]
    exact ⟨db, rfl⟩
  | @createMissing id hsub =>
    -- the deletion comes before the subscription is looked for
    refine ⟨{ db with subscriptions := db.subscriptions.erase (idKey id) }, ?_⟩
    unfold rollback
    dsimp only
    rw [hsub]
    rfl

theorem Writable.redate (h : g.Writable) (id time : UInt64) : (g.redate id time).Writable := by
  cases hinv : g.invoices[id]? with
  | none =>
    unfold ReceiptEpisode.redate
    rw [modify_of_none hinv]
    exact h
  | some inv =>
    rw [redate_of_some hinv]
    refine ⟨fun id' inv' hinv' => ?_, h.customers⟩
    by_cases hid : id' = id
    · subst hid
      rw [ExtTreeMap.getElem?_insert_self] at hinv'
      obtain rfl := Option.some.inj hinv'
      rw [Invoice.serialize_isSome, ← h.invoices id' inv hinv, Invoice.serialize_isSome]
    · exact h.invoices id' inv' (by grind)

theorem Writable.requeue (h : g.Writable) (hl : Lists g) (id : UInt64) :
    (g.requeue id).Writable := by
  cases hsub : g.subscriptions[id]? with
  | none =>
    unfold ReceiptEpisode.requeue
    rw [hsub]
    exact h
  | some sub =>
    obtain ⟨info, hinfo⟩ := hl.subscriber_known hsub
    have hlist : g.subscriptionLists sub.customer = some info.subscriptions := view_of_some hinfo
    have hmem := (hl.subscriptions.mem_iff _ _ id hlist).mpr (view_of_some hsub)
    rw [requeue_of_some hsub hinfo]
    refine ⟨h.invoices, fun pk info' hinfo' => ?_⟩
    by_cases hpk : pk = sub.customer
    · subst hpk
      dsimp only at hinfo'
      rw [ExtTreeMap.getElem?_insert_self] at hinfo'
      obtain rfl := Option.some.inj hinfo'
      have hwritten := h.customers _ info hinfo
      have hlength : ((info.retainSubscriptions id).pushSubscription id).subscriptions.length =
          info.subscriptions.length :=
        length_linked_unlinked (hl.subscriptions.nodup _ _ hlist) hmem
      rw [CustomerInfo.serialize_isSome] at hwritten ⊢
      rw [hlength]
      exact hwritten
    · exact h.customers pk info' (by grind)

theorem Writable.undone (h : g.Writable) (hl : Lists g) (metadata : PayloadMetadata)
    (cmd : MerchantCommand) : (g.undone metadata cmd).Writable := by
  cases cmd with
  | markPaid id payer => exact h.redate id _
  | ackReceipt id => exact h.redate id _
  | cancelInvoice id => exact h.redate id _
  | cancelSubscription id => exact h.requeue hl id
  | createInvoice | createSubscription | processSubscription => exact h

/-- The rollback of a command that was accepted in a reachable state never panics and returns
`true`. It restores the episode and the trees exactly when `RestoredBy` says so. -/
theorem rollback_restores_iff {customers participants : List PubKey} {md₀ : PayloadMetadata}
    {u : Unit} {g₀ : ReceiptEpisode} {dbs db₀ : Storage} {log : List Record}
    (hregister : (register customers).run Storage.init = .ok (u, dbs))
    (hstart : (initializeWith participants md₀).run dbs = .ok (g₀, db₀))
    (h : Reachable (fun _ _ => True) g₀ db₀ log g db)
    (hexec : (g.execute auth metadata cmd).run db = .ok ((g', .ok rb), db')) :
    (∃ g'' db'', (g'.rollback rb).run db' = .ok ((g'', true), db'')) ∧
      ((g'.rollback rb).run db' = .ok ((g, true), db) ↔ g.RestoredBy metadata cmd) := by
  have h₀ := initializeWith_shows hregister hstart
  obtain ⟨books, -, hshows⟩ := h.shows h₀
  obtain ⟨books', -, hshows'⟩ := (h.executed trivial hexec).shows h₀
  have hacc := (execute_ok hexec).1
  have hrolls := hacc.undone hshows.bills hshows.keyed hshows.lists
  have hwritable := (Mirrored.writable hshows.mirrored).undone hshows.lists metadata cmd
  obtain ⟨db'', hrun⟩ := hrolls.total hwritable db'
  have hmirrored := (rollback_ok hrun).2 hshows'.keyed hshows'.mirrored
  refine ⟨⟨_, db'', hrun⟩, ?_⟩
  rw [← hacc.undone_eq hshows.lists, hrun]
  constructor
  · intro heq
    exact congrArg (fun p => p.1.1) (Except.ok.inj heq)
  · intro heq
    rw [heq] at hmirrored ⊢
    rw [Storage.Mirrored.unique hmirrored hshows.mirrored]

end ReceiptEpisode
end Kdapp.Merchant

namespace Kdapp.Merchant.ReceiptEpisode
attribute [local instance] idealCrypto

/-- The invoice was created at time 1 and paid at time 2. The rollback of the payment leaves the
time of the payment on the open invoice. -/
theorem payment_time_stays :
    (register [(2 : UInt8)]).run Storage.init = .ok ((), shop) ∧
    (initializeWith [(1 : UInt8)] payingBlock).run shop = .ok (opened, shop) ∧
    (∃ log, Reachable (fun _ _ => True) opened shop log created.1 created.2) ∧
    (created.1.execute (some (2 : UInt8)) payingBlock (.markPaid 7 (2 : UInt8))).run created.2 =
      .ok ((paid.1, .ok (.undoPaid 7)), paid.2) ∧
    (∃ g db, (paid.1.rollback (.undoPaid 7)).run paid.2 = .ok ((g, true), db) ∧
      (created.1.invoices[(7 : UInt64)]?).map Invoice.lastUpdate = some 1 ∧
      (g.invoices[(7 : UInt64)]?).map Invoice.lastUpdate = some 2) ∧
    (paid.1.rollback (.undoPaid 7)).run paid.2 ≠ .ok ((created.1, true), created.2) := by
  refine ⟨register_shop, opened_shop payingBlock,
    ⟨_, created_reachable _ fun _ _ _ _ => trivial⟩, rfl, ⟨_, _, rfl, rfl, rfl⟩, ?_⟩
  intro h
  have hg : ((paid.1.rollback (.undoPaid 7)).run paid.2).toOption.map
      (fun p => (p.1.1.invoices[(7 : UInt64)]?).map Invoice.lastUpdate) = some (some 2) := rfl
  rw [h] at hg
  revert hg
  decide

def paidAtOnce : ReceiptEpisode × Storage :=
  afterCommand created (some (2 : UInt8)) { payingBlock with acceptingTime := 1 }
    (.markPaid 7 (2 : UInt8))

/-- A payment that is accepted at the time of the last update leaves nothing behind. -/
theorem rollback_restores_at_once :
    (paidAtOnce.1.rollback (.undoPaid 7)).run paidAtOnce.2 =
      .ok ((created.1, true), created.2) := by
  have hrun := created_reachable (fun _ _ => True) (fun _ _ _ _ => trivial)
  have hexec : (created.1.execute (some (2 : UInt8)) { payingBlock with acceptingTime := 1 }
      (.markPaid 7 (2 : UInt8))).run created.2 =
        .ok ((paidAtOnce.1, .ok (.undoPaid 7)), paidAtOnce.2) := rfl
  apply (rollback_restores_iff register_shop (opened_shop payingBlock) hrun hexec).2.mpr
  intro inv hinv
  cases hinv
  rfl

end Kdapp.Merchant.ReceiptEpisode
