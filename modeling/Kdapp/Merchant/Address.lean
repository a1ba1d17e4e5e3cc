import Kdapp.Merchant.Payments

/-! The address at which a merchant is paid (`kdapp-merchant/src/main.rs`), beside the script that
the episode accepts. -/

namespace Kdapp
open Borsh

/-- `x_only_public_key().serialize()`: the compressed key without its parity byte. -/
def PubKey.xOnly [Crypto] (pk : PubKey) : Bytes := pk.serialize.tail

end Kdapp

namespace Kdapp.Merchant
open Borsh Storage

inductive AddrPrefix where
  | mainnet
  | testnet
deriving DecidableEq

inductive AddrVersion where
  | pubKey
deriving DecidableEq

structure Address where
  addrPrefix : AddrPrefix
  version : AddrVersion
  payload : Bytes
deriving DecidableEq

/-- `OP_DATA_32`, the x-only key, `OP_CHECKSIG`. -/
def payToAddressScript (addr : Address) : Bytes :=
  match addr.version with
  | .pubKey => 0x20 :: (addr.payload ++ [0xac])

variable [Crypto]

def addrForKeypair (keypair : Crypto.SecretKey) (mainnet : Bool) : Address where
  addrPrefix := if mainnet then .mainnet else .testnet
  version := .pubKey
  payload := PubKey.xOnly (Crypto.fromSecretKey keypair)

section Scan
variable {amount : UInt64} {merchantKeys : List PubKey} {outs : List TxOutputInfo}

omit [Crypto] in
theorem scanOutputs_of_allowed {allowedScripts : List Bytes} {flags : OutputScan}
    (h : ∃ o ∈ outs, amount ≤ o.value ∧ ∃ sb ∈ allowedScripts, o.scriptBytes = some sb) :
    scanOutputs amount allowedScripts flags outs = ⟨true, true, true⟩ := by
  obtain ⟨o, ho, hvalue, sb, hallowed, hsb⟩ := h
  fun_induction scanOutputs amount allowedScripts flags outs with
  | case1 flags => cases ho
  | case2 => rfl
  | case3 flags o' outs hvalue' sb' hsb' hnot ih =>
    apply ih
    rcases List.mem_cons.mp ho with rfl | ho
    · rw [hsb] at hsb'
      cases hsb'
      exact absurd hallowed hnot
    · exact ho
  | case4 flags o' outs hvalue' hsb' ih =>
    apply ih
    rcases List.mem_cons.mp ho with rfl | ho
    · rw [hsb] at hsb'
      cases hsb'
    · exact ho
  | case5 flags o' outs hvalue' ih =>
    apply ih
    rcases List.mem_cons.mp ho with rfl | ho
    · exact absurd hvalue hvalue'
    · exact ho

theorem checkOutputs_iff (hscripts : ∀ o ∈ outs, o.scriptBytes.isSome = true) :
    checkOutputs merchantKeys amount (some outs) = .ok () ↔
      ∃ o ∈ outs, amount ≤ o.value ∧
        ∃ k ∈ merchantKeys, o.scriptBytes = some (allowedScript k) := by
  constructor
  · exact checkOutputs_ok hscripts
  · rintro ⟨o, ho, hvalue, k, hk, hsb⟩
    have hscan : scanOutputs amount (merchantKeys.map allowedScript) ⟨false, false, false⟩ outs =
        ⟨true, true, true⟩ :=
      scanOutputs_of_allowed ⟨o, ho, hvalue, _, List.mem_map_of_mem hk, hsb⟩
    rw [checkOutputs, hscan]
    rfl

omit [Crypto] in
theorem scanOutputs_checked {allowedScripts : List Bytes} {flags : OutputScan}
    (hscripts : ∀ o ∈ outs, o.scriptBytes.isSome = true)
    (h : flags.scriptChecked = true ∨ ∃ o ∈ outs, amount ≤ o.value) :
    (scanOutputs amount allowedScripts flags outs).scriptChecked = true := by
  fun_induction scanOutputs amount allowedScripts flags outs with
  | case1 flags =>
    rcases h with h | ⟨o, ho, -⟩
    · exact h
    · cases ho
  | case2 => rfl
  | case3 flags o outs hvalue sb hsb hnot ih =>
    exact ih (List.forall_mem_cons.mp hscripts).2 (.inl rfl)
  | case4 flags o outs hvalue hsb ih =>
    have hscript := (List.forall_mem_cons.mp hscripts).1
    rw [hsb] at hscript
    cases hscript
  | case5 flags o outs hvalue ih =>
    apply ih (List.forall_mem_cons.mp hscripts).2
    refine h.imp_right ?_
    rintro ⟨o', ho', hvalue'⟩
    rcases List.mem_cons.mp ho' with rfl | ho'
    · exact absurd hvalue' hvalue
    · exact ⟨o', ho', hvalue'⟩

theorem checkOutputs_invalidScript (hscripts : ∀ o ∈ outs, o.scriptBytes.isSome = true)
    (hvalue : ∃ o ∈ outs, amount ≤ o.value)
    (hnone : ¬ ∃ o ∈ outs, amount ≤ o.value ∧
      ∃ k ∈ merchantKeys, o.scriptBytes = some (allowedScript k)) :
    checkOutputs merchantKeys amount (some outs) = .error .invalidScript := by
  have hchecked : (scanOutputs amount (merchantKeys.map allowedScript) ⟨false, false, false⟩
      outs).scriptChecked = true := scanOutputs_checked hscripts (.inr hvalue)
  have hnot : (scanOutputs amount (merchantKeys.map allowedScript) ⟨false, false, false⟩
      outs).scriptOk = false := by
    by_contra hok
    rcases scanOutputs_scriptOk (eq_true_of_ne_false hok) with hf | ⟨o, ho, hover, sb, hsb, hbytes⟩
    · cases hf
    · obtain ⟨k, hk, rfl⟩ := List.mem_map.mp hsb
      exact hnone ⟨o, ho, hover, k, hk, hbytes⟩
  unfold checkOutputs
  exact if_pos ⟨hchecked, hnot⟩

end Scan

/-- An output of at least the amount goes to the address of one of the merchants. -/
def PaysMerchant (merchantKeys : List PubKey) (amount : UInt64) (outs : List TxOutputInfo) : Prop :=
  ∃ o ∈ outs, amount ≤ o.value ∧ ∃ keypair mainnet, Crypto.fromSecretKey keypair ∈ merchantKeys ∧
    o.scriptBytes = some (payToAddressScript (addrForKeypair keypair mainnet))

namespace ReceiptEpisode
variable {g : ReceiptEpisode} {id : UInt64} {inv : Invoice} {payer : PubKey} {info : CustomerInfo}
  {metadata : PayloadMetadata} {db : Storage}

theorem markPaid_checked (hinv : g.invoices[id]? = some inv) (hopen : inv.status = .open)
    (hinfo : g.customers[payer]? = some info) (hfresh : metadata.txId ∉ g.usedCarrierTxs) :
    g.markPaid (some payer) metadata id payer =
      match checkOutputs g.merchantKeys inv.amount metadata.txOutputs with
      | .error e => g.refuse e
      | .ok () => do
        putInvoice (inv.markPaid payer metadata)
        putCustomer payer (info.pushInvoice id)
        return ({ g with
          invoices := g.invoices.insert id (inv.markPaid payer metadata)
          customers := g.customers.insert payer (info.pushInvoice id)
          usedCarrierTxs := g.usedCarrierTxs.insert metadata.txId }, .ok (.undoPaid id)) := by
  have hcanceled : inv.status ≠ .canceled := fun h => by rw [hopen] at h; cases h
  have hpaid : ¬ (inv.status = .acked ∨ inv.status = .paid) := by
    rw [hopen]
    rintro (h | h) <;> cases h
  have hknown : ¬ payer ∉ g.customers := not_not_intro (FiniteMap.mem_of_some hinfo)
  unfold markPaid
  rw [if_neg (not_not_intro rfl), if_neg hfresh, hinv, hinfo, Option.getD_some]
  dsimp only
  exact (if_neg hcanceled).trans ((if_neg hpaid).trans (if_neg hknown))

/-- A payment that passes every check but that of the outputs is accepted when they pass too
and what it writes can be written. -/
theorem markPaid_accepted_iff (hinv : g.invoices[id]? = some inv) (hopen : inv.status = .open)
    (hinfo : g.customers[payer]? = some info) (hfresh : metadata.txId ∉ g.usedCarrierTxs) :
    (∃ g' rb db', (g.execute (some payer) metadata (.markPaid id payer)).run db =
        .ok ((g', .ok rb), db')) ↔
      checkOutputs g.merchantKeys inv.amount metadata.txOutputs = .ok () ∧
        (Invoice.codec.serialize (inv.markPaid payer metadata)).isSome = true ∧
          (CustomerInfo.codec.serialize (info.pushInvoice id)).isSome = true := by
  show (∃ g' rb db', (g.markPaid (some payer) metadata id payer).run db = _) ↔ _
  rw [markPaid_checked hinv hopen hinfo hfresh]
  cases houts : checkOutputs g.merchantKeys inv.amount metadata.txOutputs with
  | error e =>
    constructor
    · rintro ⟨g', rb, db', hexec⟩
      cases hexec
    · rintro ⟨h, -⟩
      cases h
  | ok u =>
    constructor
    · rintro ⟨g', rb, db', hexec⟩
      obtain ⟨u₁, db₁, hput, hrest⟩ := Outcome.run_bind_ok hexec
      obtain ⟨u₂, db₂, hput', -⟩ := Outcome.run_bind_ok hrest
      obtain ⟨val, hval, -⟩ := expect_modify hput
      obtain ⟨val', hval', -⟩ := expect_modify hput'
      rw [hval, hval']
      exact ⟨rfl, rfl, rfl⟩
    · rintro ⟨-, hwrite, hwrite'⟩
      obtain ⟨db₁, hput⟩ := putInvoice_total hwrite db
      obtain ⟨db₂, hput'⟩ := putCustomer_total hwrite' payer db₁
      refine ⟨{ g with
        invoices := g.invoices.insert id (inv.markPaid payer metadata)
        customers := g.customers.insert payer (info.pushInvoice id)
        usedCarrierTxs := g.usedCarrierTxs.insert metadata.txId }, .undoPaid id, db₂, ?_⟩
      exact (Outcome.run_bind_of_ok _ hput).trans (Outcome.run_bind_of_ok _ hput')

/-- A payment to the address of a merchant is accepted exactly when the transaction has, beside
it, an output with the script that the episode builds. -/
theorem payment_complete_iff {outs : List TxOutputInfo}
    (hinv : g.invoices[id]? = some inv) (hopen : inv.status = .open)
    (hinfo : g.customers[payer]? = some info) (hfresh : metadata.txId ∉ g.usedCarrierTxs)
    (houts : metadata.txOutputs = some outs) (hscripts : ∀ o ∈ outs, o.scriptBytes.isSome = true)
    (hpays : PaysMerchant g.merchantKeys inv.amount outs) :
    ((∃ g' rb db', (g.execute (some payer) metadata (.markPaid id payer)).run db =
        .ok ((g', .ok rb), db')) ↔
      (∃ o ∈ outs, inv.amount ≤ o.value ∧
        ∃ k ∈ g.merchantKeys, o.scriptBytes = some (allowedScript k)) ∧
      (Codec.string.option.serialize inv.memo).isSome = true ∧
        (info.pushInvoice id).invoices.length < 2 ^ 32 ∧ info.subscriptions.length < 2 ^ 32) ∧
    ((¬ ∃ o ∈ outs, inv.amount ≤ o.value ∧
        ∃ k ∈ g.merchantKeys, o.scriptBytes = some (allowedScript k)) →
      (g.execute (some payer) metadata (.markPaid id payer)).run db =
        .ok ((g, .error (.invalidCommand .invalidScript)), db)) := by
  constructor
  · rw [markPaid_accepted_iff hinv hopen hinfo hfresh, houts, checkOutputs_iff hscripts,
      Invoice.serialize_isSome, CustomerInfo.serialize_isSome]
    have hmemo : (inv.markPaid payer metadata).memo = inv.memo := rfl
    have hsubscriptions : (info.pushInvoice id).subscriptions = info.subscriptions := by
      unfold CustomerInfo.pushInvoice
      split <;> rfl
    rw [hmemo, hsubscriptions]
  · intro hnone
    obtain ⟨o, ho, hvalue, -⟩ := hpays
    show (g.markPaid (some payer) metadata id payer).run db = _
    rw [markPaid_checked hinv hopen hinfo hfresh, houts,
      checkOutputs_invalidScript hscripts ⟨o, ho, hvalue⟩ hnone]
    rfl

end ReceiptEpisode
end Kdapp.Merchant

namespace Kdapp.Merchant.ReceiptEpisode
open Borsh
attribute [local instance] idealCrypto

def addressBlock : PayloadMetadata :=
  blockAt 2 2 [⟨100, 0, some (payToAddressScript (addrForKeypair (1 : UInt8) true))⟩]

theorem address_refused : PaysMerchant created.1.merchantKeys 100
      [⟨100, 0, some (payToAddressScript (addrForKeypair (1 : UInt8) true))⟩] ∧
    Reachable (fun _ _ => True) opened shop createdLog created.1 created.2 ∧
    (∃ inv, created.1.invoices[(7 : UInt64)]? = some inv ∧ inv.amount = 100 ∧ inv.status = .open) ∧
    (2 : UInt8) ∈ created.1.customers ∧ addressBlock.txId ∉ created.1.usedCarrierTxs ∧
    (created.1.execute (some (2 : UInt8)) addressBlock (.markPaid 7 (2 : UInt8))).run created.2 =
      .ok ((created.1, .error (.invalidCommand .invalidScript)), created.2) := by
  refine ⟨⟨_, List.mem_cons_self, by decide, (1 : UInt8), true, by decide, rfl⟩,
    created_reachable _ fun _ _ _ _ => trivial, ⟨_, rfl, rfl, rfl⟩, by decide, by decide, rfl⟩

/-- With a second output, to the script that the episode builds, the payment is accepted. -/
theorem both_accepted : ∃ g' rb db', (created.1.execute (some (2 : UInt8))
    (blockAt 2 2 [⟨100, 0, some (payToAddressScript (addrForKeypair (1 : UInt8) true))⟩,
      ⟨100, 0, some (allowedScript (1 : UInt8))⟩]) (.markPaid 7 (2 : UInt8))).run created.2 =
        .ok ((g', .ok rb), db') := by
  have hinfo : created.1.customers[(2 : UInt8)]? = some ⟨[], []⟩ := rfl
  obtain ⟨inv, hinv, hamount, hopen, hmemo⟩ : ∃ inv : Invoice,
    created.1.invoices[(7 : UInt64)]? = some inv ∧ inv.amount = 100 ∧ inv.status = .open ∧
      inv.memo = none := ⟨_, rfl, rfl, rfl, rfl⟩
  refine (payment_complete_iff hinv hopen hinfo (by decide) rfl (by decide) ?_).1.mpr ?_
  · rw [hamount]
    exact ⟨_, List.mem_cons_self, by decide, (1 : UInt8), true, by decide, rfl⟩
  · rw [hamount, hmemo]
    exact ⟨⟨_, List.mem_cons_of_mem _ List.mem_cons_self, by decide, (1 : UInt8), by decide, rfl⟩,
      by decide, by decide, by decide⟩

end Kdapp.Merchant.ReceiptEpisode
