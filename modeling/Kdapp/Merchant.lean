import Kdapp.Episode
import Mathlib.Tactic.Common

/-! Invoices, subscriptions and customers of a merchant, and the commands on them
(`kdapp-merchant/src/episode.rs`). -/

namespace Kdapp.Merchant
open Borsh

inductive InvoiceStatus where
  | open
  | paid
  | acked
  | canceled
deriving DecidableEq

inductive MerchantError where
  | exists
  | notFound
  | invalidAmount
  | alreadyPaid
  | alreadyAcked
  | alreadyCanceled
  | unknownCustomer
  | invalidScript
  | duplicatePayment
  | subscriptionExists
  | subscriptionNotFound
deriving DecidableEq

structure CustomerInfo where
  invoices : List UInt64
  subscriptions : List UInt64
deriving DecidableEq, Inhabited

namespace InvoiceStatus

def toTag : InvoiceStatus → UInt8
  | .open => 0
  | .paid => 1
  | .acked => 2
  | .canceled => 3

def ofTag : UInt8 → Option InvoiceStatus
  | 0 => some .open
  | 1 => some .paid
  | 2 => some .acked
  | 3 => some .canceled
  | _ => none

def codec : Codec InvoiceStatus := Codec.u8.via toTag ofTag

theorem codec_lawful : codec.Lawful := by
  apply Codec.u8_lawful.via
  intro status
  cases status <;> rfl

end InvoiceStatus

namespace CustomerInfo

def codec : Codec CustomerInfo :=
  (Codec.u64.vec.pair Codec.u64.vec).via (fun info => (info.invoices, info.subscriptions))
    fun (invoices, subscriptions) => some { invoices, subscriptions }

theorem codec_lawful : codec.Lawful := by
  apply Codec.Lawful.via
  · exact Codec.u64_lawful.vec.pair Codec.u64_lawful.vec
  · intro info
    rfl

theorem ids_isSome (ids : List UInt64) :
    (Codec.u64.vec.serialize ids).isSome = true ↔ ids.length < 2 ^ 32 := by
  have hall : ∃ bs, Codec.u64.serializeAll ids = some bs := by
    induction ids with
    | nil => exact ⟨[], rfl⟩
    | cons id ids ih =>
      obtain ⟨bs, hbs⟩ := ih
      exact ⟨leBytes 8 id.toNat ++ bs, by rw [Codec.serializeAll, hbs]; rfl⟩
  obtain ⟨bs, hbs⟩ := hall
  by_cases hlen : ids.length < 2 ^ 32
  · have hcount : Codec.count ids.length = some (UInt32.ofNat ids.length) := if_pos hlen
    have hwritten : (Codec.u64.vec.serialize ids).isSome = true := by
      simp [Codec.vec, hcount, hbs, Codec.u32, Codec.uint]
    exact iff_of_true hwritten hlen
  · have hcount : Codec.count ids.length = none := if_neg hlen
    have hfailed : ¬ (Codec.u64.vec.serialize ids).isSome = true := by
      simp [Codec.vec, hcount]
    exact iff_of_false hfailed hlen

theorem serialize_isSome (info : CustomerInfo) : (codec.serialize info).isSome = true ↔
    info.invoices.length < 2 ^ 32 ∧ info.subscriptions.length < 2 ^ 32 := by
  rw [← ids_isSome info.invoices, ← ids_isSome info.subscriptions]
  cases hi : Codec.u64.vec.serialize info.invoices <;>
    cases hs : Codec.u64.vec.serialize info.subscriptions <;>
    simp [codec, Codec.via, Codec.pair, hi, hs]

end CustomerInfo

variable [Crypto]

inductive MerchantCommand where
  | createInvoice (invoiceId amount : UInt64) (memo : Option String)
  | markPaid (invoiceId : UInt64) (payer : PubKey)
  | ackReceipt (invoiceId : UInt64)
  | cancelInvoice (invoiceId : UInt64)
  | createSubscription (subscriptionId : UInt64) (customer : PubKey) (amount interval : UInt64)
  | processSubscription (subscriptionId : UInt64)
  | cancelSubscription (subscriptionId : UInt64)

structure Invoice where
  id : UInt64
  amount : UInt64
  memo : Option String
  createdAt : UInt64
  lastUpdate : UInt64
  status : InvoiceStatus
  payer : Option PubKey
  carrierTx : Option Hash
deriving DecidableEq

structure Subscription where
  id : UInt64
  customer : PubKey
  amount : UInt64
  interval : UInt64
  nextRun : UInt64
deriving DecidableEq

inductive MerchantRollback where
  | undoCreate (invoiceId : UInt64)
  | undoPaid (invoiceId : UInt64)
  | undoAck (invoiceId : UInt64)
  | undoCancel (invoiceId : UInt64)
  | undoCreateSubscription (subscriptionId : UInt64)
  | undoProcessSubscription (subscriptionId prevNextRun : UInt64)
  | undoCancelSubscription (subscription : Subscription)

namespace Invoice

def codec : Codec Invoice :=
  (Codec.u64.pair (Codec.u64.pair (Codec.string.option.pair (Codec.u64.pair (Codec.u64.pair
    (InvoiceStatus.codec.pair (PubKey.codec.option.pair Hash.codec.option))))))).via
    (fun inv => (inv.id, inv.amount, inv.memo, inv.createdAt, inv.lastUpdate, inv.status,
      inv.payer, inv.carrierTx))
    fun (id, amount, memo, createdAt, lastUpdate, status, payer, carrierTx) =>
      some { id, amount, memo, createdAt, lastUpdate, status, payer, carrierTx }

theorem codec_lawful : codec.Lawful := by
  apply Codec.Lawful.via
  · exact Codec.u64_lawful.pair (Codec.u64_lawful.pair (Codec.string_lawful.option.pair
      (Codec.u64_lawful.pair (Codec.u64_lawful.pair (InvoiceStatus.codec_lawful.pair
        (PubKey.codec_lawful.option.pair Hash.codec_lawful.option))))))
  · intro inv
    rfl

theorem serialize_isSome (inv : Invoice) :
    (codec.serialize inv).isSome = (Codec.string.option.serialize inv.memo).isSome := by
  have hpayer : ∃ bs, PubKey.codec.option.serialize inv.payer = some bs := by
    cases inv.payer <;> exact ⟨_, rfl⟩
  have hcarrier : ∃ bs, Hash.codec.option.serialize inv.carrierTx = some bs := by
    cases inv.carrierTx <;> exact ⟨_, rfl⟩
  obtain ⟨p, hp⟩ := hpayer
  obtain ⟨t, ht⟩ := hcarrier
  cases hmemo : Codec.string.option.serialize inv.memo <;>
    simp [codec, Codec.via, Codec.pair, hmemo, hp, ht, Codec.u64, Codec.uint, Codec.u8,
      InvoiceStatus.codec]

end Invoice

namespace Subscription

def codec : Codec Subscription :=
  (Codec.u64.pair (PubKey.codec.pair (Codec.u64.pair (Codec.u64.pair Codec.u64)))).via
    (fun sub => (sub.id, sub.customer, sub.amount, sub.interval, sub.nextRun))
    fun (id, customer, amount, interval, nextRun) =>
      some { id, customer, amount, interval, nextRun }

theorem codec_lawful : codec.Lawful := by
  apply Codec.Lawful.via
  · exact Codec.u64_lawful.pair (PubKey.codec_lawful.pair (Codec.u64_lawful.pair
      (Codec.u64_lawful.pair Codec.u64_lawful)))
  · intro sub
    rfl

theorem serialize_isSome (sub : Subscription) : (codec.serialize sub).isSome = true := rfl

end Subscription

namespace MerchantCommand

def createInvoiceFields : Codec (UInt64 × UInt64 × Option String) :=
  Codec.u64.pair (Codec.u64.pair Codec.string.option)

def markPaidFields : Codec (UInt64 × PubKey) := Codec.u64.pair PubKey.codec

def createSubscriptionFields : Codec (UInt64 × PubKey × UInt64 × UInt64) :=
  Codec.u64.pair (PubKey.codec.pair (Codec.u64.pair Codec.u64))

def codec : Codec MerchantCommand where
  serialize
    | .createInvoice id amount memo =>
      (createInvoiceFields.serialize (id, amount, memo)).map (0 :: ·)
    | .markPaid id payer => (markPaidFields.serialize (id, payer)).map (1 :: ·)
    | .ackReceipt id => (Codec.u64.serialize id).map (2 :: ·)
    | .cancelInvoice id => (Codec.u64.serialize id).map (3 :: ·)
    | .createSubscription id customer amount interval =>
      (createSubscriptionFields.serialize (id, customer, amount, interval)).map (4 :: ·)
    | .processSubscription id => (Codec.u64.serialize id).map (5 :: ·)
    | .cancelSubscription id => (Codec.u64.serialize id).map (6 :: ·)
  deserialize
    | 0 :: bs => (createInvoiceFields.deserialize bs).map fun ((id, amount, memo), bs) =>
      (.createInvoice id amount memo, bs)
    | 1 :: bs => (markPaidFields.deserialize bs).map fun ((id, payer), bs) =>
      (.markPaid id payer, bs)
    | 2 :: bs => (Codec.u64.deserialize bs).map fun (id, bs) => (.ackReceipt id, bs)
    | 3 :: bs => (Codec.u64.deserialize bs).map fun (id, bs) => (.cancelInvoice id, bs)
    | 4 :: bs => (createSubscriptionFields.deserialize bs).map
      fun ((id, customer, amount, interval), bs) =>
        (.createSubscription id customer amount interval, bs)
    | 5 :: bs => (Codec.u64.deserialize bs).map fun (id, bs) => (.processSubscription id, bs)
    | 6 :: bs => (Codec.u64.deserialize bs).map fun (id, bs) => (.cancelSubscription id, bs)
    | _ => none

theorem codec_lawful : codec.Lawful := by
  have hinvoice : createInvoiceFields.Lawful :=
    Codec.u64_lawful.pair (Codec.u64_lawful.pair Codec.string_lawful.option)
  have hpaid : markPaidFields.Lawful := Codec.u64_lawful.pair PubKey.codec_lawful
  have hsubscription : createSubscriptionFields.Lawful := Codec.u64_lawful.pair
    (PubKey.codec_lawful.pair (Codec.u64_lawful.pair Codec.u64_lawful))
  intro cmd bs rest hs
  cases cmd with
  | createInvoice =>
    obtain ⟨x, hbs, hx⟩ := hinvoice.tagged rest hs
    simp only [codec, hbs, hx, Option.map_some]
  | markPaid =>
    obtain ⟨x, hbs, hx⟩ := hpaid.tagged rest hs
    simp only [codec, hbs, hx, Option.map_some]
  | createSubscription =>
    obtain ⟨x, hbs, hx⟩ := hsubscription.tagged rest hs
    simp only [codec, hbs, hx, Option.map_some]
  | ackReceipt | cancelInvoice | processSubscription | cancelSubscription =>
    obtain ⟨x, hbs, hx⟩ := Codec.u64_lawful.tagged rest hs
    simp only [codec, hbs, hx, Option.map_some]

end MerchantCommand
end Kdapp.Merchant
