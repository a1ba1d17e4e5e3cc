import Kdapp.Library.WriteThrough
import Kdapp.Merchant

/-! The three persistent trees (`kdapp-merchant/src/storage.rs`). The `sled` database is a map
from byte strings to byte strings. -/

namespace Kdapp.Merchant
open Borsh
open Std (ExtTreeMap)
open WriteThrough

structure Storage where
  invoices : Tree
  customers : Tree
  subscriptions : Tree

def Storage.init : Storage := ⟨∅, ∅, ∅⟩

/-- The `expect`s that fail where a value does not serialize. -/
inductive Fault where
  | serializeInvoice
  | serializeCustomer
  | serializeSubscription
deriving DecidableEq

abbrev StorageM := StateT Storage (Except Fault)

def expect (fault : Fault) : Option Bytes → StorageM Bytes
  | some val => return val
  | none => throw fault

theorem expect_total {fault : Fault} {val? : Option Bytes} (h : val?.isSome = true)
    (f : Bytes → Storage → Storage) (db : Storage) :
    ∃ db', (do
      let val ← expect fault val?
      modify (f val) : StorageM Unit).run db = .ok ((), db') := by
  obtain ⟨val, rfl⟩ := Option.isSome_iff_exists.mp h
  exact ⟨f val db, rfl⟩

theorem expect_modify {fault : Fault} {val? : Option Bytes} {f : Bytes → Storage → Storage}
    {db db' : Storage} {u : Unit}
    (h : (do
      let val ← expect fault val?
      modify (f val) : StorageM Unit).run db = .ok (u, db')) :
    ∃ val, val? = some val ∧ db' = f val db := by
  cases val? with
  | none => cases h
  | some val =>
    cases h
    exact ⟨val, rfl, rfl⟩

def idKey (id : UInt64) : Bytes := (leBytes 8 id.toNat).reverse

def ofIdKey (k : Bytes) : Option UInt64 :=
  if k.length = 8 then some (UInt64.ofNat (ofLeBytes k.reverse)) else none

theorem ofIdKey_idKey (id : UInt64) : ofIdKey (idKey id) = some id := by
  have hlen : (idKey id).length = 8 := by rw [idKey, List.length_reverse, leBytes_length]
  have hid : ofLeBytes (idKey id).reverse = id.toNat := by
    rw [idKey, List.reverse_reverse, ofLeBytes_leBytes]
    exact Nat.mod_eq_of_lt id.toNat_lt
  rw [ofIdKey, if_pos hlen, hid, UInt64.ofNat_toNat]

theorem idKey_injective : Function.Injective idKey := by
  intro a b h
  have hk := ofIdKey_idKey a
  rw [h, ofIdKey_idKey b] at hk
  exact (Option.some.inj hk).symm

variable [Crypto]

def ofCustomerKey (k : Bytes) : Option PubKey :=
  if k.length = 33 then Crypto.fromSlice k else none

theorem ofCustomerKey_serialize (pk : PubKey) : ofCustomerKey pk.serialize = some pk := by
  have hlen : pk.serialize.length = 33 := Crypto.serialize_length pk
  rw [ofCustomerKey, if_pos hlen]
  exact Crypto.fromSlice_serialize pk

namespace Storage

def loadInvoices (db : Storage) : ExtTreeMap UInt64 Invoice :=
  load ofIdKey Invoice.codec.fromSlice db.invoices

def putInvoice (inv : Invoice) : StorageM Unit := do
  let val ← expect .serializeInvoice (Invoice.codec.serialize inv)
  modify fun db => { db with invoices := db.invoices.insert (idKey inv.id) val }

def deleteInvoice (id : UInt64) : StorageM Unit :=
  modify fun db => { db with invoices := db.invoices.erase (idKey id) }

def loadCustomers (db : Storage) : ExtTreeMap PubKey CustomerInfo :=
  load ofCustomerKey CustomerInfo.codec.fromSlice db.customers

def putCustomer (pk : PubKey) (info : CustomerInfo) : StorageM Unit := do
  let val ← expect .serializeCustomer (CustomerInfo.codec.serialize info)
  modify fun db => { db with customers := db.customers.insert pk.serialize val }

def loadSubscriptions (db : Storage) : ExtTreeMap UInt64 Subscription :=
  load ofIdKey Subscription.codec.fromSlice db.subscriptions

def putSubscription (sub : Subscription) : StorageM Unit := do
  let val ← expect .serializeSubscription (Subscription.codec.serialize sub)
  modify fun db => { db with subscriptions := db.subscriptions.insert (idKey sub.id) val }

def deleteSubscription (id : UInt64) : StorageM Unit :=
  modify fun db => { db with subscriptions := db.subscriptions.erase (idKey id) }

structure Mirrored (invoices : ExtTreeMap UInt64 Invoice)
    (subscriptions : ExtTreeMap UInt64 Subscription) (customers : ExtTreeMap PubKey CustomerInfo)
    (db : Storage) : Prop where
  invoices : Mirrors idKey Invoice.codec.serialize invoices db.invoices
  subscriptions : Mirrors idKey Subscription.codec.serialize subscriptions db.subscriptions
  customers : Mirrors PubKey.serialize CustomerInfo.codec.serialize customers db.customers

theorem putInvoice_total {inv : Invoice} (h : (Invoice.codec.serialize inv).isSome = true)
    (db : Storage) : ∃ db', (putInvoice inv).run db = .ok ((), db') := expect_total h _ db

theorem putCustomer_total {info : CustomerInfo}
    (h : (CustomerInfo.codec.serialize info).isSome = true) (pk : PubKey) (db : Storage) :
    ∃ db', (putCustomer pk info).run db = .ok ((), db') := expect_total h _ db

theorem putSubscription_total (sub : Subscription) (db : Storage) :
    ∃ db', (putSubscription sub).run db = .ok ((), db') :=
  expect_total (Subscription.serialize_isSome sub) _ db

namespace Mirrored
variable {invoices : ExtTreeMap UInt64 Invoice} {subscriptions : ExtTreeMap UInt64 Subscription}
  {customers : ExtTreeMap PubKey CustomerInfo} {db db' : Storage} {u : Unit}

theorem init : Mirrored (∅ : ExtTreeMap UInt64 Invoice) ∅ ∅ Storage.init :=
  ⟨.empty, .empty, .empty⟩

theorem unique (h : Mirrored invoices subscriptions customers db)
    (h' : Mirrored invoices subscriptions customers db') : db = db' := by
  have hi := h.invoices.unique h'.invoices
  have hc := h.customers.unique h'.customers
  have hs := h.subscriptions.unique h'.subscriptions
  cases db
  cases db'
  subst hi hc hs
  rfl

theorem loaded (h : Mirrored invoices subscriptions customers db) :
    db.loadInvoices = invoices ∧ db.loadSubscriptions = subscriptions ∧
      db.loadCustomers = customers := by
  refine ⟨h.invoices.load_eq ofIdKey_idKey ?_, h.subscriptions.load_eq ofIdKey_idKey ?_,
    h.customers.load_eq ofCustomerKey_serialize ?_⟩
  · exact fun inv bs hs => Invoice.codec_lawful.fromSlice hs
  · exact fun sub bs hs => Subscription.codec_lawful.fromSlice hs
  · exact fun info bs hs => CustomerInfo.codec_lawful.fromSlice hs

theorem putInvoice (h : Mirrored invoices subscriptions customers db) {inv : Invoice}
    (hput : (putInvoice inv).run db = .ok (u, db')) :
    Mirrored (invoices.insert inv.id inv) subscriptions customers db' := by
  obtain ⟨val, hval, rfl⟩ := expect_modify hput
  exact { h with invoices := h.invoices.insert idKey_injective hval }

theorem deleteInvoice (h : Mirrored invoices subscriptions customers db) {id : UInt64}
    (hdelete : (deleteInvoice id).run db = .ok (u, db')) :
    Mirrored (invoices.erase id) subscriptions customers db' := by
  cases hdelete
  exact { h with invoices := h.invoices.erase idKey_injective id }

theorem putCustomer (h : Mirrored invoices subscriptions customers db) {pk : PubKey}
    {info : CustomerInfo} (hput : (putCustomer pk info).run db = .ok (u, db')) :
    Mirrored invoices subscriptions (customers.insert pk info) db' := by
  obtain ⟨val, hval, rfl⟩ := expect_modify hput
  exact { h with customers := h.customers.insert PubKey.serialize_injective hval }

theorem putSubscription (h : Mirrored invoices subscriptions customers db) {sub : Subscription}
    (hput : (putSubscription sub).run db = .ok (u, db')) :
    Mirrored invoices (subscriptions.insert sub.id sub) customers db' := by
  obtain ⟨val, hval, rfl⟩ := expect_modify hput
  exact { h with subscriptions := h.subscriptions.insert idKey_injective hval }

theorem deleteSubscription (h : Mirrored invoices subscriptions customers db) {id : UInt64}
    (hdelete : (deleteSubscription id).run db = .ok (u, db')) :
    Mirrored invoices (subscriptions.erase id) customers db' := by
  cases hdelete
  exact { h with subscriptions := h.subscriptions.erase idKey_injective id }

end Mirrored
end Storage
end Kdapp.Merchant
