import Kdapp.Library.Outcome
import Kdapp.Merchant.Receipt

/-! What a command and a rollback of the receipt episode can do: one lemma for each lists all
outcomes, and says that the trees follow the maps. -/

namespace Kdapp.Merchant
open Borsh Storage
open Std (ExtTreeMap ExtTreeSet LawfulEqOrd)

variable [Crypto]

namespace ReceiptEpisode

structure Keyed (g : ReceiptEpisode) : Prop where
  invoices : ∀ (id : UInt64) (inv : Invoice), g.invoices[id]? = some inv → inv.id = id
  subscriptions : ∀ (id : UInt64) (sub : Subscription), g.subscriptions[id]? = some sub →
    sub.id = id

def Mirrored (g : ReceiptEpisode) (db : Storage) : Prop :=
  Storage.Mirrored g.invoices g.subscriptions g.customers db

inductive Accepts (g : ReceiptEpisode) (metadata : PayloadMetadata) :
    MerchantCommand → Option PubKey → MerchantRollback → ReceiptEpisode → Prop
  | createInvoice {id amount memo pk} (hnew : g.invoices[id]? = none) (hamount : amount ≠ 0)
    (hauth : pk ∈ g.merchantKeys) :
    Accepts g metadata (.createInvoice id amount memo) (some pk) (.undoCreate id)
      { g with invoices := g.invoices.insert id
                { id, amount, memo, createdAt := metadata.acceptingTime,
                  lastUpdate := metadata.acceptingTime, status := .open, payer := none,
                  carrierTx := none } }
  | markPaid {id payer inv info} (hunused : metadata.txId ∉ g.usedCarrierTxs)
    (hinv : g.invoices[id]? = some inv) (hopen : inv.status = .open)
    (hinfo : g.customers[payer]? = some info)
    (houts : checkOutputs g.merchantKeys inv.amount metadata.txOutputs = .ok ()) :
    Accepts g metadata (.markPaid id payer) (some payer) (.undoPaid id)
      { g with invoices := g.invoices.insert id (inv.markPaid payer metadata)
               customers := g.customers.insert payer (info.pushInvoice id)
               usedCarrierTxs := g.usedCarrierTxs.insert metadata.txId }
  | ackReceipt {id auth inv} (hinv : g.invoices[id]? = some inv) (hpaid : inv.status = .paid) :
    Accepts g metadata (.ackReceipt id) auth (.undoAck id)
      { g with invoices := g.invoices.insert id
                { inv with status := .acked, lastUpdate := metadata.acceptingTime } }
  | cancelInvoice {id auth inv} (hinv : g.invoices[id]? = some inv) (hopen : inv.status = .open) :
    Accepts g metadata (.cancelInvoice id) auth (.undoCancel id)
      { g with invoices := g.invoices.insert id
                { inv with status := .canceled, lastUpdate := metadata.acceptingTime } }
  | createSubscription {id customer amount interval pk info} (hnew : g.subscriptions[id]? = none)
    (hauth : pk ∈ g.merchantKeys) (hinfo : g.customers[customer]? = some info) :
    Accepts g metadata (.createSubscription id customer amount interval) (some pk)
      (.undoCreateSubscription id)
      { g with customers := g.customers.insert customer (info.pushSubscription id)
               subscriptions := g.subscriptions.insert id
                { id, customer, amount, interval, nextRun := metadata.acceptingTime + interval } }
  | processSubscription {id auth sub} (hsub : g.subscriptions[id]? = some sub) :
    Accepts g metadata (.processSubscription id) auth (.undoProcessSubscription id sub.nextRun)
      { g with subscriptions := g.subscriptions.insert id
                { sub with nextRun := metadata.acceptingTime + sub.interval } }
  | cancelSubscription {id auth sub} (hsub : g.subscriptions[id]? = some sub) :
    Accepts g metadata (.cancelSubscription id) auth (.undoCancelSubscription sub)
      { g with customers := g.customers.modify sub.customer
                (CustomerInfo.retainSubscriptions id)
               subscriptions := g.subscriptions.erase id }

/-- What each rollback makes of an episode that holds what it is about, or does not. -/
inductive RollsBack (g : ReceiptEpisode) : MerchantRollback → ReceiptEpisode → Bool → Prop
  | undoCreate {id} :
    RollsBack g (.undoCreate id) { g with invoices := g.invoices.erase id }
      (decide (id ∈ g.invoices))
  | undoPaid {id inv} (hinv : g.invoices[id]? = some inv) :
    RollsBack g (.undoPaid id)
      { g with invoices := g.invoices.insert id inv.unmarkPaid
               customers := match inv.payer with
                | none => g.customers
                | some payer => g.customers.modify payer (CustomerInfo.retainInvoices id)
               usedCarrierTxs := match inv.carrierTx with
                | none => g.usedCarrierTxs
                | some tx => g.usedCarrierTxs.erase tx } true
  | undoAck {id inv} (hinv : g.invoices[id]? = some inv) :
    RollsBack g (.undoAck id)
      { g with invoices := g.invoices.insert id { inv with status := .paid } } true
  | undoCancel {id inv} (hinv : g.invoices[id]? = some inv) :
    RollsBack g (.undoCancel id)
      { g with invoices := g.invoices.insert id { inv with status := .open } } true
  | undoCreateSubscription {id sub} (hsub : g.subscriptions[id]? = some sub) :
    RollsBack g (.undoCreateSubscription id)
      { g with customers := g.customers.modify sub.customer
                (CustomerInfo.retainSubscriptions id)
               subscriptions := g.subscriptions.erase id } true
  | undoProcessSubscription {id prev sub} (hsub : g.subscriptions[id]? = some sub) :
    RollsBack g (.undoProcessSubscription id prev)
      { g with subscriptions := g.subscriptions.insert id { sub with nextRun := prev } } true
  | undoCancelSubscription {sub} :
    RollsBack g (.undoCancelSubscription sub)
      { g with subscriptions := g.subscriptions.insert sub.id sub
               customers := g.customers.modify sub.customer fun info =>
                if sub.id ∈ info.subscriptions then info else info.pushSubscription sub.id } true
  | paidMissing {id} (hinv : g.invoices[id]? = none) : RollsBack g (.undoPaid id) g false
  | ackMissing {id} (hinv : g.invoices[id]? = none) : RollsBack g (.undoAck id) g false
  | cancelMissing {id} (hinv : g.invoices[id]? = none) : RollsBack g (.undoCancel id) g false
  | createMissing {id} (hsub : g.subscriptions[id]? = none) :
    RollsBack g (.undoCreateSubscription id) g false
  | processMissing {id prev} (hsub : g.subscriptions[id]? = none) :
    RollsBack g (.undoProcessSubscription id prev) g false

variable {g g' : ReceiptEpisode} {auth : Option PubKey} {metadata : PayloadMetadata}
  {rb : MerchantRollback} {res : Bool} {db db' : Storage}

theorem of_guard {p : Prop} [Decidable p] {e : EpisodeError MerchantError}
    {x : StorageM Executed}
    (h : (if p then g.reject e else x).run db = .ok ((g', .ok rb), db')) :
    ¬ p ∧ x.run db = .ok ((g', .ok rb), db') := by
  split at h
  · cases h
  · exact ⟨‹_›, h⟩

theorem authorizedByMerchant_iff :
    g.authorizedByMerchant auth = true ↔ ∃ pk ∈ g.merchantKeys, auth = some pk := by
  cases auth with
  | none => simp [authorizedByMerchant]
  | some pk => simp [authorizedByMerchant]

theorem Mirrored.replaceInvoice {id : UInt64} {inv inv' : Invoice} {u : Unit} (hkeyed : g.Keyed)
    (hm : g.Mirrored db) (hinv : g.invoices[id]? = some inv) (hid : inv'.id = inv.id)
    (hput : (putInvoice inv').run db = .ok (u, db')) :
    Storage.Mirrored (g.invoices.insert id inv') g.subscriptions g.customers db' := by
  have hm' := Storage.Mirrored.putInvoice hm hput
  rwa [hid, hkeyed.invoices id inv hinv] at hm'

theorem Mirrored.replaceSubscription {id : UInt64} {sub sub' : Subscription} {u : Unit}
    (hkeyed : g.Keyed) (hm : g.Mirrored db) (hsub : g.subscriptions[id]? = some sub)
    (hid : sub'.id = sub.id) (hput : (putSubscription sub').run db = .ok (u, db')) :
    Storage.Mirrored g.invoices (g.subscriptions.insert id sub') g.customers db' := by
  have hm' := Storage.Mirrored.putSubscription hm hput
  rwa [hid, hkeyed.subscriptions id sub hsub] at hm'

theorem createInvoice_ok {id amount : UInt64} {memo : Option String}
    (h : (g.createInvoice auth metadata id amount memo).run db = .ok ((g', .ok rb), db')) :
    g.Accepts metadata (.createInvoice id amount memo) auth rb g' ∧
      (g.Keyed → g.Mirrored db → g'.Mirrored db') := by
  obtain ⟨hnew, h₁⟩ := of_guard h
  obtain ⟨hamount, h₂⟩ := of_guard h₁
  obtain ⟨hauth, h₃⟩ := of_guard h₂
  rw [Bool.not_eq_false, authorizedByMerchant_iff] at hauth
  obtain ⟨pk, hpk, rfl⟩ := hauth
  obtain ⟨u, db₁, hput, hret⟩ := Outcome.run_bind_ok h₃
  cases hret
  have hnone : g.invoices[id]? = none := by grind
  exact ⟨.createInvoice hnone hamount hpk, fun _ hm => hm.putInvoice hput⟩

theorem markPaid_ok {id : UInt64} {payer : PubKey}
    (h : (g.markPaid auth metadata id payer).run db = .ok ((g', .ok rb), db')) :
    g.Accepts metadata (.markPaid id payer) auth rb g' ∧
      (g.Keyed → g.Mirrored db → g'.Mirrored db') := by
  obtain ⟨hauth, h₁⟩ := of_guard h
  obtain rfl := Decidable.not_not.mp hauth
  obtain ⟨hunused, h₂⟩ := of_guard h₁
  split at h₂
  · cases h₂
  rename_i inv hinv
  obtain ⟨hcanceled, h₃⟩ := of_guard h₂
  obtain ⟨hpaid, h₄⟩ := of_guard h₃
  obtain ⟨hcustomer, h₅⟩ := of_guard h₄
  have hopen : inv.status = .open := by
    cases hs : inv.status <;> simp_all
  obtain ⟨info, hinfo⟩ : ∃ info, g.customers[payer]? = some info := by grind
  split at h₅
  · cases h₅
  rename_i houts
  obtain ⟨u, db₁, hput, h₆⟩ := Outcome.run_bind_ok h₅
  obtain ⟨u', db₂, hput', hret⟩ := Outcome.run_bind_ok h₆
  rw [hinfo, Option.getD_some] at hput' hret
  cases hret
  refine ⟨.markPaid hunused hinv hopen hinfo houts, fun hkeyed hm => ?_⟩
  have hid : (inv.markPaid payer metadata).id = inv.id := rfl
  exact (hm.replaceInvoice hkeyed hinv hid hput).putCustomer hput'

theorem ackReceipt_ok {id : UInt64}
    (h : (g.ackReceipt metadata id).run db = .ok ((g', .ok rb), db')) :
    g.Accepts metadata (.ackReceipt id) auth rb g' ∧
      (g.Keyed → g.Mirrored db → g'.Mirrored db') := by
  unfold ackReceipt at h
  split at h
  · cases h
  rename_i inv hinv
  obtain ⟨-, h₁⟩ := of_guard h
  obtain ⟨-, h₂⟩ := of_guard h₁
  obtain ⟨hpaid, h₃⟩ := of_guard h₂
  obtain ⟨u, db₁, hput, hret⟩ := Outcome.run_bind_ok h₃
  cases hret
  exact ⟨.ackReceipt hinv (Decidable.not_not.mp hpaid),
    fun hkeyed hm => hm.replaceInvoice hkeyed hinv rfl hput⟩

theorem cancelInvoice_ok {id : UInt64}
    (h : (g.cancelInvoice metadata id).run db = .ok ((g', .ok rb), db')) :
    g.Accepts metadata (.cancelInvoice id) auth rb g' ∧
      (g.Keyed → g.Mirrored db → g'.Mirrored db') := by
  unfold cancelInvoice at h
  split at h
  · cases h
  rename_i inv hinv
  obtain ⟨hcanceled, h₁⟩ := of_guard h
  obtain ⟨hpaid, h₂⟩ := of_guard h₁
  have hopen : inv.status = .open := by
    cases hs : inv.status <;> simp_all
  obtain ⟨u, db₁, hput, hret⟩ := Outcome.run_bind_ok h₂
  cases hret
  exact ⟨.cancelInvoice hinv hopen, fun hkeyed hm => hm.replaceInvoice hkeyed hinv rfl hput⟩

theorem createSubscription_ok {id amount interval : UInt64} {customer : PubKey}
    (h : (g.createSubscription auth metadata id customer amount interval).run db =
      .ok ((g', .ok rb), db')) :
    g.Accepts metadata (.createSubscription id customer amount interval) auth rb g' ∧
      (g.Keyed → g.Mirrored db → g'.Mirrored db') := by
  obtain ⟨hnew, h₁⟩ := of_guard h
  obtain ⟨-, h₂⟩ := of_guard h₁
  obtain ⟨hauth, h₃⟩ := of_guard h₂
  rw [Bool.not_eq_false, authorizedByMerchant_iff] at hauth
  obtain ⟨pk, hpk, rfl⟩ := hauth
  split at h₃
  · cases h₃
  rename_i info hinfo
  obtain ⟨u, db₁, hput, h₄⟩ := Outcome.run_bind_ok h₃
  obtain ⟨u', db₂, hput', hret⟩ := Outcome.run_bind_ok h₄
  cases hret
  have hnone : g.subscriptions[id]? = none := by grind
  refine ⟨.createSubscription hnone hpk hinfo, fun _ hm => ?_⟩
  exact (Storage.Mirrored.putCustomer hm hput).putSubscription hput'

theorem processSubscription_ok {id : UInt64}
    (h : (g.processSubscription metadata id).run db = .ok ((g', .ok rb), db')) :
    g.Accepts metadata (.processSubscription id) auth rb g' ∧
      (g.Keyed → g.Mirrored db → g'.Mirrored db') := by
  unfold processSubscription at h
  split at h
  · cases h
  rename_i sub hsub
  obtain ⟨u, db₁, hput, hret⟩ := Outcome.run_bind_ok h
  cases hret
  exact ⟨.processSubscription hsub, fun hkeyed hm => hm.replaceSubscription hkeyed hsub rfl hput⟩

theorem updateCustomer_eq {customers customers' : ExtTreeMap PubKey CustomerInfo} {pk : PubKey}
    {f : CustomerInfo → CustomerInfo}
    (h : (updateCustomer customers pk f).run db = .ok (customers', db')) :
    customers' = customers.modify pk f := by
  unfold updateCustomer at h
  split at h
  · rename_i hinfo
    cases h
    exact (FiniteMap.modify_of_none hinfo f).symm
  · rename_i info hinfo
    obtain ⟨u, db₁, hput, hret⟩ := Outcome.run_bind_ok h
    cases hret
    exact (FiniteMap.modify_of_some hinfo f).symm

theorem updateCustomer_mirrored {invoices : ExtTreeMap UInt64 Invoice}
    {subscriptions : ExtTreeMap UInt64 Subscription}
    {customers customers' : ExtTreeMap PubKey CustomerInfo} {pk : PubKey}
    {f : CustomerInfo → CustomerInfo}
    (h : (updateCustomer customers pk f).run db = .ok (customers', db'))
    (hm : Storage.Mirrored invoices subscriptions customers db) :
    Storage.Mirrored invoices subscriptions customers' db' := by
  unfold updateCustomer at h
  split at h
  · cases h
    exact hm
  · obtain ⟨u, db₁, hput, hret⟩ := Outcome.run_bind_ok h
    cases hret
    exact hm.putCustomer hput

theorem cancelSubscription_ok {id : UInt64}
    (h : (g.cancelSubscription id).run db = .ok ((g', .ok rb), db')) :
    g.Accepts metadata (.cancelSubscription id) auth rb g' ∧
      (g.Keyed → g.Mirrored db → g'.Mirrored db') := by
  unfold cancelSubscription at h
  split at h
  · cases h
  rename_i sub hsub
  obtain ⟨customers, db₁, hupdate, h₁⟩ := Outcome.run_bind_ok h
  obtain ⟨u, db₂, hdelete, hret⟩ := Outcome.run_bind_ok h₁
  cases hret
  obtain rfl := updateCustomer_eq hupdate
  exact ⟨.cancelSubscription hsub,
    fun _ hm => (updateCustomer_mirrored hupdate hm).deleteSubscription hdelete⟩

theorem execute_ok {cmd : MerchantCommand}
    (h : (g.execute auth metadata cmd).run db = .ok ((g', .ok rb), db')) :
    g.Accepts metadata cmd auth rb g' ∧ (g.Keyed → g.Mirrored db → g'.Mirrored db') := by
  cases cmd with
  | createInvoice id amount memo => exact createInvoice_ok h
  | markPaid id payer => exact markPaid_ok h
  | ackReceipt id => exact ackReceipt_ok h
  | cancelInvoice id => exact cancelInvoice_ok h
  | createSubscription id customer amount interval => exact createSubscription_ok h
  | processSubscription id => exact processSubscription_ok h
  | cancelSubscription id => exact cancelSubscription_ok h

section Rejection
variable {x : StorageM Executed}

def Succeeds (x : StorageM Executed) : Prop :=
  ∀ db g' e db', x.run db ≠ .ok ((g', .error e), db')

def Untouched (g : ReceiptEpisode) (x : StorageM Executed) : Prop :=
  ∀ db g' e db', x.run db = .ok ((g', .error e), db') → g' = g ∧ db' = db

theorem succeeds_return : Succeeds (return (g', .ok rb)) := by
  intro db g₁ e db' h
  cases h

theorem succeeds_bind {α : Type} {y : StorageM α} {f : α → StorageM Executed}
    (h : ∀ a, Succeeds (f a)) : Succeeds (y >>= f) := by
  intro db g₁ e db' hrun
  obtain ⟨a, db₁, -, hf⟩ := Outcome.run_bind_ok hrun
  exact h a db₁ g₁ e db' hf

theorem Succeeds.untouched (h : Succeeds x) : Untouched g x :=
  fun db g₁ e db' hrun => absurd hrun (h db g₁ e db')

theorem untouched_reject {e : EpisodeError MerchantError} : Untouched g (g.reject e) := by
  intro db g₁ e' db' h
  cases h
  exact ⟨rfl, rfl⟩

theorem untouched_guard {p : Prop} [Decidable p] {e : EpisodeError MerchantError}
    (h : Untouched g x) : Untouched g (if p then g.reject e else x) := by
  split
  · exact untouched_reject
  · exact h

theorem untouched_put {α : Type} {y : StorageM α} :
    Untouched g (y >>= fun _ => return (g', .ok rb)) :=
  (succeeds_bind fun _ => succeeds_return).untouched

theorem untouched_execute (cmd : MerchantCommand) :
    Untouched g (g.execute auth metadata cmd) := by
  cases cmd with
  | createInvoice id amount memo =>
    exact untouched_guard (untouched_guard (untouched_guard untouched_put))
  | markPaid id payer =>
    refine untouched_guard (untouched_guard ?_)
    split
    · exact untouched_reject
    refine untouched_guard (untouched_guard (untouched_guard ?_))
    split
    · exact untouched_reject
    · exact (succeeds_bind fun _ => succeeds_bind fun _ => succeeds_return).untouched
  | ackReceipt id =>
    change Untouched g (g.ackReceipt metadata id)
    unfold ackReceipt
    split
    · exact untouched_reject
    · exact untouched_guard (untouched_guard (untouched_guard untouched_put))
  | cancelInvoice id =>
    change Untouched g (g.cancelInvoice metadata id)
    unfold cancelInvoice
    split
    · exact untouched_reject
    · exact untouched_guard (untouched_guard untouched_put)
  | createSubscription id customer amount interval =>
    refine untouched_guard (untouched_guard (untouched_guard ?_))
    split
    · exact untouched_reject
    · exact (succeeds_bind fun _ => succeeds_bind fun _ => succeeds_return).untouched
  | processSubscription id =>
    change Untouched g (g.processSubscription metadata id)
    unfold processSubscription
    split
    · exact untouched_reject
    · exact untouched_put
  | cancelSubscription id =>
    change Untouched g (g.cancelSubscription id)
    unfold cancelSubscription
    split
    · exact untouched_reject
    · exact (succeeds_bind fun _ => succeeds_bind fun _ => succeeds_return).untouched

end Rejection

theorem execute_rejected {cmd : MerchantCommand} {e : EpisodeError MerchantError}
    (h : (g.execute auth metadata cmd).run db = .ok ((g', .error e), db')) :
    g' = g ∧ db' = db := untouched_execute cmd db g' e db' h

theorem rollback_ok (h : (g.rollback rb).run db = .ok ((g', res), db')) :
    g.RollsBack rb g' res ∧ (g.Keyed → g.Mirrored db → g'.Mirrored db') := by
  cases rb with
  | undoCreate id =>
    obtain ⟨u, db₁, hdelete, hret⟩ := Outcome.run_bind_ok h
    cases hret
    exact ⟨.undoCreate, fun _ hm => hm.deleteInvoice hdelete⟩
  | undoPaid id =>
    unfold rollback at h
    dsimp only at h
    split at h
    · cases h
      exact ⟨.paidMissing ‹_›, fun _ hm => hm⟩
    rename_i inv hinv
    obtain ⟨customers, db₁, hcustomers, h₁⟩ := Outcome.run_bind_ok h
    obtain ⟨u, db₂, hput, hret⟩ := Outcome.run_bind_ok h₁
    cases hret
    -- only an invoice that has a payer touches a customer
    have hupdated : (customers = match inv.payer with
          | none => g.customers
          | some payer => g.customers.modify payer (CustomerInfo.retainInvoices id)) ∧
        (g.Mirrored db → Storage.Mirrored g.invoices g.subscriptions customers db₁) := by
      cases hpayer : inv.payer with
      | none =>
        rw [hpayer] at hcustomers
        cases hcustomers
        exact ⟨rfl, fun hm => hm⟩
      | some payer =>
        rw [hpayer] at hcustomers
        exact ⟨updateCustomer_eq hcustomers, updateCustomer_mirrored hcustomers⟩
    obtain ⟨rfl, hm₁⟩ := hupdated
    refine ⟨.undoPaid hinv, fun hkeyed hm => ?_⟩
    have hm₂ := (hm₁ hm).putInvoice hput
    rwa [show inv.unmarkPaid.id = id from hkeyed.invoices id inv hinv] at hm₂
  | undoAck id =>
    unfold rollback at h
    dsimp only at h
    split at h
    · cases h
      exact ⟨.ackMissing ‹_›, fun _ hm => hm⟩
    rename_i inv hinv
    obtain ⟨u, db₁, hput, hret⟩ := Outcome.run_bind_ok h
    cases hret
    exact ⟨.undoAck hinv, fun hkeyed hm => hm.replaceInvoice hkeyed hinv rfl hput⟩
  | undoCancel id =>
    unfold rollback at h
    dsimp only at h
    split at h
    · cases h
      exact ⟨.cancelMissing ‹_›, fun _ hm => hm⟩
    rename_i inv hinv
    obtain ⟨u, db₁, hput, hret⟩ := Outcome.run_bind_ok h
    cases hret
    exact ⟨.undoCancel hinv, fun hkeyed hm => hm.replaceInvoice hkeyed hinv rfl hput⟩
  | undoCreateSubscription id =>
    obtain ⟨u, db₁, hdelete, h₁⟩ := Outcome.run_bind_ok h
    split at h₁
    · rename_i hnone
      cases h₁
      refine ⟨.createMissing hnone, fun _ hm => ?_⟩
      have hm₁ := Storage.Mirrored.deleteSubscription hm hdelete
      rwa [FiniteMap.erase_of_none hnone] at hm₁
    · rename_i sub hsub
      obtain ⟨customers, db₂, hupdate, hret⟩ := Outcome.run_bind_ok h₁
      cases hret
      obtain rfl := updateCustomer_eq hupdate
      exact ⟨.undoCreateSubscription hsub, fun _ hm =>
        updateCustomer_mirrored hupdate (Storage.Mirrored.deleteSubscription hm hdelete)⟩
  | undoProcessSubscription id prev =>
    unfold rollback at h
    dsimp only at h
    split at h
    · cases h
      exact ⟨.processMissing ‹_›, fun _ hm => hm⟩
    rename_i sub hsub
    obtain ⟨u, db₁, hput, hret⟩ := Outcome.run_bind_ok h
    cases hret
    exact ⟨.undoProcessSubscription hsub,
      fun hkeyed hm => hm.replaceSubscription hkeyed hsub rfl hput⟩
  | undoCancelSubscription sub =>
    obtain ⟨u, db₁, hput, h₁⟩ := Outcome.run_bind_ok h
    -- the subscription is put back before its customer is looked at
    have hm₁ : g.Mirrored db → Storage.Mirrored g.invoices (g.subscriptions.insert sub.id sub)
      g.customers db₁ := fun hm => Storage.Mirrored.putSubscription hm hput
    have hundo : ∀ customers', customers' = g.customers.modify sub.customer (fun info =>
        if sub.id ∈ info.subscriptions then info else info.pushSubscription sub.id) →
      g.RollsBack (.undoCancelSubscription sub)
        { g with subscriptions := g.subscriptions.insert sub.id sub
                 customers := customers' } true := by
      rintro customers' rfl
      exact .undoCancelSubscription
    split at h₁
    · rename_i hnone
      cases h₁
      exact ⟨hundo g.customers (FiniteMap.modify_of_none hnone _).symm, fun _ => hm₁⟩
    · rename_i info hinfo
      split at h₁
      -- listed already: nothing is written, and the entry is as it was
      · rename_i hlisted
        cases h₁
        refine ⟨hundo g.customers ?_, fun _ => hm₁⟩
        rw [FiniteMap.modify_of_some hinfo, if_pos hlisted, FiniteMap.insert_of_getElem? hinfo]
      · rename_i hnot
        obtain ⟨u', db₂, hput', hret⟩ := Outcome.run_bind_ok h₁
        cases hret
        refine ⟨hundo _ ?_, fun _ hm => (hm₁ hm).putCustomer hput'⟩
        rw [FiniteMap.modify_of_some hinfo, if_neg hnot]

end ReceiptEpisode
end Kdapp.Merchant
