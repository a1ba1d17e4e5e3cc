import Kdapp.Merchant.Storage

/-! The episode `ReceiptEpisode` (`kdapp-merchant/src/episode.rs`). It keeps its collections in
memory and writes every change through to the trees. -/

namespace Kdapp.Merchant
open Borsh Storage
open Std (ExtTreeMap ExtTreeSet)

namespace CustomerInfo

def pushInvoice (info : CustomerInfo) (invoiceId : UInt64) : CustomerInfo :=
  if invoiceId ∈ info.invoices then info
  else { info with invoices := info.invoices ++ [invoiceId] }

def retainInvoices (invoiceId : UInt64) (info : CustomerInfo) : CustomerInfo :=
  { info with invoices := info.invoices.filter fun id => decide (id ≠ invoiceId) }

def pushSubscription (info : CustomerInfo) (subscriptionId : UInt64) : CustomerInfo :=
  { info with subscriptions := info.subscriptions ++ [subscriptionId] }

def retainSubscriptions (subscriptionId : UInt64) (info : CustomerInfo) : CustomerInfo :=
  { info with subscriptions := info.subscriptions.filter fun id => decide (id ≠ subscriptionId) }

end CustomerInfo

/-- The flags of the loop over the outputs of the paying transaction. -/
structure OutputScan where
  amountOk : Bool
  scriptChecked : Bool
  scriptOk : Bool

def scanOutputs (amount : UInt64) (allowedScripts : List Bytes) :
    OutputScan → List TxOutputInfo → OutputScan
  | flags, [] => flags
  | flags, o :: outs =>
    if o.value ≥ amount then
      match o.scriptBytes with
      | some sb =>
        -- the only `break` of the loop
        if sb ∈ allowedScripts then ⟨true, true, true⟩
        else scanOutputs amount allowedScripts
          { flags with amountOk := true, scriptChecked := true } outs
      | none => scanOutputs amount allowedScripts { flags with amountOk := true } outs
    else scanOutputs amount allowedScripts flags outs

variable [Crypto]

/-- `OP_DATA_33`, the compressed key, `OP_CHECKSIG`. -/
def allowedScript (k : PubKey) : Bytes := 33 :: (k.serialize ++ [0xac])

/-- The policy on the outputs, where the proxy gave a summary of the transaction. -/
def checkOutputs (merchantKeys : List PubKey) (amount : UInt64) :
    Option (List TxOutputInfo) → Except MerchantError Unit
  | none => .ok ()
  | some outs =>
    let flags := scanOutputs amount (merchantKeys.map allowedScript) ⟨false, false, false⟩ outs
    if flags.scriptChecked = true ∧ flags.scriptOk = false then .error .invalidScript
    else if flags.amountOk = false then .error .invalidAmount
    else .ok ()

namespace Invoice

def markPaid (inv : Invoice) (payer : PubKey) (metadata : PayloadMetadata) : Invoice :=
  { inv with status := .paid, lastUpdate := metadata.acceptingTime, payer := some payer,
             carrierTx := some metadata.txId }

def unmarkPaid (inv : Invoice) : Invoice :=
  { inv with status := .open, payer := none, carrierTx := none }

end Invoice

structure ReceiptEpisode where
  merchantKeys : List PubKey
  invoices : ExtTreeMap UInt64 Invoice
  subscriptions : ExtTreeMap UInt64 Subscription
  customers : ExtTreeMap PubKey CustomerInfo
  usedCarrierTxs : ExtTreeSet Hash

namespace ReceiptEpisode

def initializeWith (participants : List PubKey) (_metadata : PayloadMetadata) :
    StorageM ReceiptEpisode := do
  let db ← get
  let invoices := db.loadInvoices
  return {
    merchantKeys := participants
    invoices := invoices
    subscriptions := db.loadSubscriptions
    customers := db.loadCustomers
    usedCarrierTxs := ExtTreeSet.ofList (invoices.toList.filterMap fun entry => entry.2.carrierTx) }

/-- The episode after an `execute` and what it returned. -/
abbrev Executed := ReceiptEpisode × Except (EpisodeError MerchantError) MerchantRollback

variable (self : ReceiptEpisode) (authorization : Option PubKey) (metadata : PayloadMetadata)

def reject (e : EpisodeError MerchantError) : StorageM Executed := return (self, .error e)

def refuse (e : MerchantError) : StorageM Executed := self.reject (.invalidCommand e)

def authorizedByMerchant : Bool :=
  match authorization with
  | some pk => decide (pk ∈ self.merchantKeys)
  | none => false

def createInvoice (invoiceId amount : UInt64) (memo : Option String) : StorageM Executed :=
  if invoiceId ∈ self.invoices then self.refuse .exists
  else if amount = 0 then self.refuse .invalidAmount
  else if self.authorizedByMerchant authorization = false then self.reject .unauthorized
  else do
    let created : Invoice := {
      id := invoiceId
      amount := amount
      memo := memo
      createdAt := metadata.acceptingTime
      lastUpdate := metadata.acceptingTime
      status := .open
      payer := none
      carrierTx := none }
    putInvoice created
    return ({ self with invoices := self.invoices.insert invoiceId created },
      .ok (.undoCreate invoiceId))

def markPaid (invoiceId : UInt64) (payer : PubKey) : StorageM Executed :=
  if authorization ≠ some payer then self.reject .unauthorized
  else if metadata.txId ∈ self.usedCarrierTxs then self.refuse .duplicatePayment
  else
    match self.invoices[invoiceId]? with
    | none => self.refuse .notFound
    | some inv =>
      if inv.status = .canceled then self.refuse .alreadyCanceled
      else if inv.status = .acked ∨ inv.status = .paid then self.refuse .alreadyPaid
      else if payer ∉ self.customers then self.refuse .unknownCustomer
      else
        match checkOutputs self.merchantKeys inv.amount metadata.txOutputs with
        | .error e => self.refuse e
        | .ok () => do
          let inv := inv.markPaid payer metadata
          let entry := (self.customers[payer]?.getD default).pushInvoice invoiceId
          putInvoice inv
          putCustomer payer entry
          return ({ self with
            invoices := self.invoices.insert invoiceId inv
            customers := self.customers.insert payer entry
            usedCarrierTxs := self.usedCarrierTxs.insert metadata.txId },
            .ok (.undoPaid invoiceId))

def ackReceipt (invoiceId : UInt64) : StorageM Executed :=
  match self.invoices[invoiceId]? with
  | none => self.refuse .notFound
  | some inv =>
    -- who sends the ack is not looked at
    if inv.status = .canceled then self.refuse .alreadyCanceled
    else if inv.status = .acked then self.refuse .alreadyAcked
    else if inv.status ≠ .paid then self.refuse .notFound
    else do
      let inv := { inv with status := .acked, lastUpdate := metadata.acceptingTime }
      putInvoice inv
      return ({ self with invoices := self.invoices.insert invoiceId inv },
        .ok (.undoAck invoiceId))

def cancelInvoice (invoiceId : UInt64) : StorageM Executed :=
  match self.invoices[invoiceId]? with
  | none => self.refuse .notFound
  | some inv =>
    -- who cancels is not looked at either
    if inv.status = .canceled then self.refuse .alreadyCanceled
    else if inv.status = .paid ∨ inv.status = .acked then self.refuse .alreadyPaid
    else do
      let inv := { inv with status := .canceled, lastUpdate := metadata.acceptingTime }
      putInvoice inv
      return ({ self with invoices := self.invoices.insert invoiceId inv },
        .ok (.undoCancel invoiceId))

def createSubscription (subscriptionId : UInt64) (customer : PubKey) (amount interval : UInt64) :
    StorageM Executed :=
  if subscriptionId ∈ self.subscriptions then self.refuse .subscriptionExists
  else if amount = 0 ∨ interval = 0 then self.refuse .invalidAmount
  else if self.authorizedByMerchant authorization = false then self.reject .unauthorized
  else
    match self.customers[customer]? with
    | none => self.refuse .unknownCustomer
    | some info => do
      let sub : Subscription := {
        id := subscriptionId
        customer := customer
        amount := amount
        interval := interval
        nextRun := metadata.acceptingTime + interval }
      let info := info.pushSubscription subscriptionId
      putCustomer customer info
      putSubscription sub
      return ({ self with
        customers := self.customers.insert customer info
        subscriptions := self.subscriptions.insert subscriptionId sub },
        .ok (.undoCreateSubscription subscriptionId))

def processSubscription (subscriptionId : UInt64) : StorageM Executed :=
  match self.subscriptions[subscriptionId]? with
  | none => self.refuse .subscriptionNotFound
  | some sub => do
    let prev := sub.nextRun
    let sub := { sub with nextRun := metadata.acceptingTime + sub.interval }
    putSubscription sub
    return ({ self with subscriptions := self.subscriptions.insert subscriptionId sub },
      .ok (.undoProcessSubscription subscriptionId prev))

/-- `get_mut`, a change of the entry and its `put_customer`, where the customer is known. -/
def updateCustomer (customers : ExtTreeMap PubKey CustomerInfo) (pk : PubKey)
    (f : CustomerInfo → CustomerInfo) : StorageM (ExtTreeMap PubKey CustomerInfo) :=
  match customers[pk]? with
  | none => return customers
  | some info => do
    putCustomer pk (f info)
    return customers.insert pk (f info)

def cancelSubscription (subscriptionId : UInt64) : StorageM Executed :=
  match self.subscriptions[subscriptionId]? with
  | none => self.refuse .subscriptionNotFound
  | some sub => do
    let customers ← updateCustomer self.customers sub.customer
      (CustomerInfo.retainSubscriptions subscriptionId)
    deleteSubscription subscriptionId
    return ({ self with
      customers := customers
      subscriptions := self.subscriptions.erase subscriptionId },
      .ok (.undoCancelSubscription sub))

def execute : MerchantCommand → StorageM Executed
  | .createInvoice invoiceId amount memo =>
    self.createInvoice authorization metadata invoiceId amount memo
  | .markPaid invoiceId payer => self.markPaid authorization metadata invoiceId payer
  | .ackReceipt invoiceId => self.ackReceipt metadata invoiceId
  | .cancelInvoice invoiceId => self.cancelInvoice metadata invoiceId
  | .createSubscription subscriptionId customer amount interval =>
    self.createSubscription authorization metadata subscriptionId customer amount interval
  | .processSubscription subscriptionId => self.processSubscription metadata subscriptionId
  | .cancelSubscription subscriptionId => self.cancelSubscription subscriptionId

def rollback : MerchantRollback → StorageM (ReceiptEpisode × Bool)
  | .undoCreate invoiceId => do
    deleteInvoice invoiceId
    return ({ self with invoices := self.invoices.erase invoiceId },
      decide (invoiceId ∈ self.invoices))
  | .undoPaid invoiceId =>
    match self.invoices[invoiceId]? with
    | none => return (self, false)
    | some inv => do
      let customers ← (match inv.payer with
        | none => return self.customers
        | some payer =>
          updateCustomer self.customers payer (CustomerInfo.retainInvoices invoiceId) :
        StorageM (ExtTreeMap PubKey CustomerInfo))
      let usedCarrierTxs := match inv.carrierTx with
        | none => self.usedCarrierTxs
        | some tx => self.usedCarrierTxs.erase tx
      -- `last_update` stays the time of the payment
      putInvoice inv.unmarkPaid
      return ({ self with
        invoices := self.invoices.insert invoiceId inv.unmarkPaid
        customers := customers
        usedCarrierTxs := usedCarrierTxs }, true)
  | .undoAck invoiceId =>
    match self.invoices[invoiceId]? with
    | none => return (self, false)
    | some inv => do
      let inv := { inv with status := .paid }
      putInvoice inv
      return ({ self with invoices := self.invoices.insert invoiceId inv }, true)
  | .undoCancel invoiceId =>
    match self.invoices[invoiceId]? with
    | none => return (self, false)
    | some inv => do
      let inv := { inv with status := .open }
      putInvoice inv
      return ({ self with invoices := self.invoices.insert invoiceId inv }, true)
  | .undoCreateSubscription subscriptionId => do
    deleteSubscription subscriptionId
    match self.subscriptions[subscriptionId]? with
    | none => return (self, false)
    | some sub => do
      let customers ← updateCustomer self.customers sub.customer
        (CustomerInfo.retainSubscriptions subscriptionId)
      return ({ self with
        customers := customers
        subscriptions := self.subscriptions.erase subscriptionId }, true)
  | .undoProcessSubscription subscriptionId prevNextRun =>
    match self.subscriptions[subscriptionId]? with
    | none => return (self, false)
    | some sub => do
      let sub := { sub with nextRun := prevNextRun }
      putSubscription sub
      return ({ self with subscriptions := self.subscriptions.insert subscriptionId sub }, true)
  | .undoCancelSubscription subscription => do
    putSubscription subscription
    let restored : ReceiptEpisode :=
      { self with subscriptions := self.subscriptions.insert subscription.id subscription }
    match self.customers[subscription.customer]? with
    | none => return (restored, true)
    | some info =>
      if subscription.id ∈ info.subscriptions then return (restored, true)
      else do
        let info := info.pushSubscription subscription.id
        putCustomer subscription.customer info
        return ({ restored with
          customers := self.customers.insert subscription.customer info }, true)

instance : Episode ReceiptEpisode where
  Command := MerchantCommand
  CommandRollback := MerchantRollback
  CommandError := MerchantError
  World := Storage
  Fault := Fault
  codec := MerchantCommand.codec
  initializeWith := initializeWith
  execute self cmd authorization metadata := self.execute authorization metadata cmd
  rollback := rollback

end ReceiptEpisode
end Kdapp.Merchant
