import Kdapp.Library.Outcome
import Kdapp.Merchant.Receipt

/-! The receipt episode writes to the trees and never reads them back. -/

namespace Kdapp.Merchant
open Borsh Outcome
open Std (ExtTreeMap)

inductive Storage.Write : (Storage → Storage) → Prop
  | putInvoice (k val : Bytes) :
    Storage.Write fun db => { db with invoices := db.invoices.insert k val }
  | deleteInvoice (k : Bytes) :
    Storage.Write fun db => { db with invoices := db.invoices.erase k }
  | putCustomer (k val : Bytes) :
    Storage.Write fun db => { db with customers := db.customers.insert k val }
  | putSubscription (k val : Bytes) :
    Storage.Write fun db => { db with subscriptions := db.subscriptions.insert k val }
  | deleteSubscription (k : Bytes) :
    Storage.Write fun db => { db with subscriptions := db.subscriptions.erase k }

namespace Storage

theorem expect_writes (fault : Fault) (val? : Option Bytes) {f : Bytes → Storage → Storage}
    (hf : ∀ val, Write (f val)) : Writes Write (do
      let val ← expect fault val?
      modify (f val) : StorageM Unit) := by
  refine Writes.bind ?_ fun val => .modify (hf val)
  cases val? with
  | none => exact .throw fault
  | some val => exact .pure val

theorem deleteInvoice_writes (id : UInt64) : Writes Write (deleteInvoice id) :=
  .modify (.deleteInvoice (idKey id))

theorem deleteSubscription_writes (id : UInt64) : Writes Write (deleteSubscription id) :=
  .modify (.deleteSubscription (idKey id))

variable [Crypto]

theorem putInvoice_writes (inv : Invoice) : Writes Write (putInvoice inv) :=
  expect_writes _ _ fun val => .putInvoice (idKey inv.id) val

theorem putCustomer_writes (pk : PubKey) (info : CustomerInfo) :
    Writes Write (putCustomer pk info) :=
  expect_writes _ _ fun val => .putCustomer pk.serialize val

theorem putSubscription_writes (sub : Subscription) : Writes Write (putSubscription sub) :=
  expect_writes _ _ fun val => .putSubscription (idKey sub.id) val

end Storage

variable [Crypto]
open Storage

namespace ReceiptEpisode
variable (g : ReceiptEpisode) (auth : Option PubKey) (metadata : PayloadMetadata)

theorem updateCustomer_writes (customers : ExtTreeMap PubKey CustomerInfo) (pk : PubKey)
    (f : CustomerInfo → CustomerInfo) : Writes Write (updateCustomer customers pk f) := by
  unfold updateCustomer
  split
  · exact .pure customers
  · exact .bind (putCustomer_writes _ _) fun _ => .pure _

theorem execute_writes (cmd : MerchantCommand) : Writes Write (g.execute auth metadata cmd) := by
  have hwrite {x : StorageM Unit} (hx : Writes Write x) (e : Executed) :
      Writes Write (x >>= fun _ => pure e) := .bind hx fun _ => .pure e
  have hreject (e : EpisodeError MerchantError) : Writes Write (g.reject e) := .pure _
  cases cmd with
  | createInvoice id amount memo =>
    exact .ite (hreject _) (.ite (hreject _) (.ite (hreject _) (hwrite (putInvoice_writes _) _)))
  | markPaid id payer =>
    refine .ite (hreject _) (.ite (hreject _) ?_)
    split
    · exact hreject _
    · refine .ite (hreject _) (.ite (hreject _) (.ite (hreject _) ?_))
      split
      · exact hreject _
      · exact .bind (putInvoice_writes _) fun _ => hwrite (putCustomer_writes _ _) _
  | ackReceipt id =>
    change Writes Write (g.ackReceipt metadata id)
    unfold ackReceipt
    split
    · exact hreject _
    · exact .ite (hreject _) (.ite (hreject _) (.ite (hreject _)
        (hwrite (putInvoice_writes _) _)))
  | cancelInvoice id =>
    change Writes Write (g.cancelInvoice metadata id)
    unfold cancelInvoice
    split
    · exact hreject _
    · exact .ite (hreject _) (.ite (hreject _) (hwrite (putInvoice_writes _) _))
  | createSubscription id customer amount interval =>
    refine .ite (hreject _) (.ite (hreject _) (.ite (hreject _) ?_))
    split
    · exact hreject _
    · exact .bind (putCustomer_writes _ _) fun _ => hwrite (putSubscription_writes _) _
  | processSubscription id =>
    change Writes Write (g.processSubscription metadata id)
    unfold processSubscription
    split
    · exact hreject _
    · exact hwrite (putSubscription_writes _) _
  | cancelSubscription id =>
    change Writes Write (g.cancelSubscription id)
    unfold cancelSubscription
    split
    · exact hreject _
    · exact .bind (updateCustomer_writes _ _ _) fun _ =>
        hwrite (deleteSubscription_writes _) _

theorem rollback_writes (rb : MerchantRollback) : Writes Write (g.rollback rb) := by
  have hwrite {x : StorageM Unit} (hx : Writes Write x) (p : ReceiptEpisode × Bool) :
      Writes Write (x >>= fun _ => pure p) := .bind hx fun _ => .pure p
  cases rb with
  | undoCreate id => exact hwrite (deleteInvoice_writes _) _
  | undoPaid id =>
    rw [rollback]
    split
    · exact .pure _
    · refine Writes.bind ?_ fun _ => hwrite (putInvoice_writes _) _
      split
      · exact .pure _
      · exact updateCustomer_writes _ _ _
  | undoAck id | undoCancel id =>
    rw [rollback]
    split
    · exact .pure _
    · exact hwrite (putInvoice_writes _) _
  | undoProcessSubscription id prev =>
    rw [rollback]
    split
    · exact .pure _
    · exact hwrite (putSubscription_writes _) _
  | undoCreateSubscription id =>
    refine .bind (deleteSubscription_writes _) fun _ => ?_
    split
    · exact .pure _
    · exact .bind (updateCustomer_writes _ _ _) fun _ => .pure _
  | undoCancelSubscription sub =>
    refine .bind (putSubscription_writes _) fun _ => ?_
    split
    · exact .pure _
    · exact .ite (.pure _) (hwrite (putCustomer_writes _ _) _)

end ReceiptEpisode
end Kdapp.Merchant
