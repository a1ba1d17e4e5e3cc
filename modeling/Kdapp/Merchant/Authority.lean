import Kdapp.Merchant.Payments

/-! Who stands behind an invoice, an acknowledgement and a subscription. -/

namespace Kdapp.Merchant
open Borsh
open Std (ExtTreeMap)
open Function (update)

theorem eq_of_update {ν : Type} {b : UInt64 → Option ν} {Q : Option ν → Prop} {a id : UInt64}
    {x? : Option ν} (h : ¬ Q (b id)) (h' : Q (update b a x? id)) : a = id ∧ Q x? := by
  have ha : a = id := by
    by_contra hne
    rw [Function.update_of_ne (Ne.symm hne)] at h'
    exact h h'
  subst ha
  rw [Function.update_self] at h'
  exact ⟨rfl, h'⟩

variable [Crypto]

def Record.ByMerchant (merchantKeys : List PubKey) (r : Record) : Prop :=
  ∃ pk ∈ merchantKeys, r.authorization = some pk

namespace Record.Accepted
variable {merchantKeys : List PubKey} {r : Record}

theorem createInvoice {id amount : UInt64} {memo : Option String} (h : r.Accepted merchantKeys)
    (hcmd : r.cmd = .createInvoice id amount memo) : r.ByMerchant merchantKeys := by
  obtain ⟨g, g', rfl, hacc⟩ := h
  obtain ⟨cmd, auth, metadata, rb⟩ := r
  subst hcmd
  cases hacc with
  | createInvoice hnew hamount hauth => exact ⟨_, hauth, rfl⟩

theorem createSubscription {id amount interval : UInt64} {customer : PubKey}
    (h : r.Accepted merchantKeys) (hcmd : r.cmd = .createSubscription id customer amount interval) :
    r.ByMerchant merchantKeys := by
  obtain ⟨g, g', rfl, hacc⟩ := h
  obtain ⟨cmd, auth, metadata, rb⟩ := r
  subst hcmd
  cases hacc with
  | createSubscription hnew hauth hinfo => exact ⟨_, hauth, rfl⟩

theorem ackReceipt {id : UInt64} (h : r.Accepted merchantKeys) (hcmd : r.cmd = .ackReceipt id) :
    r.rollback = .undoAck id := by
  obtain ⟨g, g', -, hacc⟩ := h
  obtain ⟨cmd, auth, metadata, rb⟩ := r
  subst hcmd
  cases hacc with
  | ackReceipt hinv hpaid => rfl

end Record.Accepted

namespace Bills
variable {merchantKeys : List PubKey} {r : Record} {b b' : Bills} {id : UInt64}

def Acked (b : Bills) (id : UInt64) : Prop :=
  (b id).map (·.state.status) = some InvoiceStatus.acked

theorem Applies.created {amount : UInt64} {memo : Option String}
    (h : Applies merchantKeys r b b')
    (hb : (b id).map (fun bill => (bill.amount, bill.memo)) ≠ some (amount, memo))
    (hb' : (b' id).map (fun bill => (bill.amount, bill.memo)) = some (amount, memo)) :
    r.cmd = .createInvoice id amount memo := by
  cases h with
  | create hnew =>
    obtain ⟨rfl, hbill⟩ := eq_of_update
      (Q := fun x? : Option Bill => x?.map (fun bill => (bill.amount, bill.memo)) = _) hb hb'
    cases hbill
    rfl
  | pay hbill | ack hbill | cancel hbill =>
    obtain ⟨rfl, hsame⟩ := eq_of_update
      (Q := fun x? : Option Bill => x?.map (fun bill => (bill.amount, bill.memo)) = _) hb hb'
    rw [hbill] at hb
    exact absurd hsame hb
  | elsewhere => exact absurd hb' hb

theorem Applies.acked (h : Applies merchantKeys r b b') (hb : ¬ b.Acked id) (hb' : b'.Acked id) :
    r.cmd = .ackReceipt id := by
  cases h with
  | create | pay | cancel =>
    obtain ⟨-, hstatus⟩ := eq_of_update
      (Q := fun x? : Option Bill => x?.map (·.state.status) = some InvoiceStatus.acked) hb hb'
    cases hstatus
  | ack =>
    obtain ⟨rfl, -⟩ := eq_of_update
      (Q := fun x? : Option Bill => x?.map (·.state.status) = some InvoiceStatus.acked) hb hb'
    rfl
  | elsewhere => exact absurd hb' hb

theorem Applies.acked_mono (h : Applies merchantKeys r b b') (hb : b.Acked id) : b'.Acked id := by
  have hstay : ∀ {a : UInt64} (x? : Option Bill), ¬ b.Acked a → Acked (update b a x?) id := by
    intro a x? hnot
    have ha : id ≠ a := fun he => hnot (he ▸ hb)
    rw [Acked, Function.update_of_ne ha]
    exact hb
  cases h with
  | create hnew =>
    apply hstay
    rw [Acked, hnew]
    exact fun h => by cases h
  | pay hbill hstate | ack hbill hstate | cancel hbill hstate =>
    apply hstay
    rw [Acked, hbill, Option.map_some, hstate]
    exact fun h => by cases h
  | elsewhere => exact hb

theorem Applies.acknowledges (h : Applies merchantKeys r b b')
    (hroll : r.rollback = .undoAck id) : ¬ b.Acked id ∧ b'.Acked id := by
  cases h with
  | create | pay | cancel => cases hroll
  | ack hbill hpaid =>
    cases hroll
    rw [Acked, Acked, hbill, Option.map_some, hpaid, Function.update_self]
    exact ⟨fun h => (by cases h), rfl⟩
  | elsewhere hr =>
    rw [hroll] at hr
    cases hr

end Bills

theorem Plans.Applies.created {r : Record} {p p' : Plans} {id amount interval : UInt64}
    {customer : PubKey} (h : Plans.Applies r p p')
    (hp : (p id).map (fun plan => (plan.customer, plan.amount, plan.interval)) ≠
      some (customer, amount, interval))
    (hp' : (p' id).map (fun plan => (plan.customer, plan.amount, plan.interval)) =
      some (customer, amount, interval)) :
    r.cmd = .createSubscription id customer amount interval := by
  cases h with
  | create hnew =>
    obtain ⟨rfl, hplan⟩ := eq_of_update (Q := fun x? : Option Plan =>
      x?.map (fun plan => (plan.customer, plan.amount, plan.interval)) = _) hp hp'
    cases hplan
    rfl
  | process hplan =>
    obtain ⟨rfl, hsame⟩ := eq_of_update (Q := fun x? : Option Plan =>
      x?.map (fun plan => (plan.customer, plan.amount, plan.interval)) = _) hp hp'
    rw [hplan] at hp
    exact absurd hsame hp
  | cancel =>
    obtain ⟨rfl, hnone⟩ := eq_of_update (Q := fun x? : Option Plan =>
      x?.map (fun plan => (plan.customer, plan.amount, plan.interval)) = _) hp hp'
    cases hnone
  | elsewhere => exact absurd hp' hp

theorem ackReceipt_unique {merchantKeys : List PubKey} {books₀ books : Bills × Plans}
    {log : List Record} (h : UndoLog.Chain (Entered merchantKeys) books₀ log books)
    (id : UInt64) :
    ((∃ r ∈ log, r.cmd = .ackReceipt id) → books.1.Acked id) ∧
      ∀ r ∈ log, ∀ r' ∈ log, r.cmd = .ackReceipt id → r'.cmd = .ackReceipt id → r = r' := by
  induction h with
  | nil =>
    constructor
    · rintro ⟨r, hr, -⟩
      exact absurd hr List.not_mem_nil
    · exact fun r hr => absurd hr List.not_mem_nil
  | @cons log r b b' h hr ih =>
    obtain ⟨hacked, hunique⟩ := ih
    have hnew : r.cmd = .ackReceipt id → ¬ b.1.Acked id ∧ b'.1.Acked id :=
      fun hcmd => hr.bills.acknowledges (hr.accepted.ackReceipt hcmd)
    have hold : ∀ r' ∈ log, r'.cmd = .ackReceipt id → b.1.Acked id :=
      fun r' hr' hcmd => hacked ⟨r', hr', hcmd⟩
    constructor
    · rintro ⟨r', hr', hcmd⟩
      rcases List.mem_cons.mp hr' with rfl | hmem
      · exact (hnew hcmd).2
      · exact hr.bills.acked_mono (hold r' hmem hcmd)
    · intro r₁ hr₁ r₂ hr₂ hcmd₁ hcmd₂
      rcases List.mem_cons.mp hr₁ with rfl | hmem₁ <;> rcases List.mem_cons.mp hr₂ with rfl | hmem₂
      · rfl
      · exact absurd (hold r₂ hmem₂ hcmd₂) (hnew hcmd₁).1
      · exact absurd (hold r₁ hmem₁ hcmd₁) (hnew hcmd₂).1
      · exact hunique r₁ hmem₁ r₂ hmem₂ hcmd₁ hcmd₂

namespace ReceiptEpisode
variable {g₀ g : ReceiptEpisode} {db₀ db db' : Storage} {log : List Record}
  {allowed : MerchantCommand → PayloadMetadata → Prop}

/-- Every record that the episode holds goes back to a command of a merchant. -/
structure Authorised (log : List Record) (g : ReceiptEpisode) : Prop where
  created : ∀ (id : UInt64) (inv : Invoice), g.invoices[id]? = some inv →
    ∃ r ∈ log, r.cmd = .createInvoice id inv.amount inv.memo ∧ r.ByMerchant g.merchantKeys
  acknowledged : ∀ (id : UInt64) (inv : Invoice), g.invoices[id]? = some inv →
    inv.status = .acked → ∃ r ∈ log, r.cmd = .ackReceipt id ∧ r.ByMerchant g.merchantKeys
  subscribed : ∀ (id : UInt64) (sub : Subscription), g.subscriptions[id]? = some sub →
    ∃ r ∈ log, r.cmd = .createSubscription id sub.customer sub.amount sub.interval ∧
      r.ByMerchant g.merchantKeys

theorem ShowsBills.acked_iff {merchantKeys : List PubKey} {b : Bills}
    (h : ShowsBills merchantKeys g b) {id : UInt64} :
    b.Acked id ↔ ∃ inv, g.invoices[id]? = some inv ∧ inv.status = .acked := by
  have hstatus := congrArg (Option.map Invoice.status) (h.entries id)
  rw [Option.map_map, Option.map_map] at hstatus
  rw [Bills.Acked, ← Option.map_eq_some_iff]
  exact iff_of_eq (congrArg (· = some InvoiceStatus.acked) hstatus.symm)

/-- Creations are authorised; acknowledgements are as far as they were sent by a merchant. -/
theorem authority_iff {participants : List PubKey} {metadata : PayloadMetadata}
    (hinvoices : db.loadInvoices = ∅) (hsubscriptions : db.loadSubscriptions = ∅)
    (hstart : (initializeWith participants metadata).run db = .ok (g₀, db₀))
    (h : Reachable (fun _ _ => True) g₀ db₀ log g db') :
    g.Authorised log ↔
      ∀ r ∈ log, ∀ id, r.cmd = .ackReceipt id → r.ByMerchant g.merchantKeys := by
  obtain ⟨books, hchain, hb, hp, -⟩ := h.entered (initializeWith_bills hinvoices hstart)
    (initializeWith_plans hsubscriptions hstart)
  rw [hb.merchantKeys]
  constructor
  · -- an invoice is acknowledged once, so that the record found is the one asked about
    intro hauth r hr id hcmd
    obtain ⟨hacked, hunique⟩ := ackReceipt_unique hchain id
    obtain ⟨inv, hinv, hstatus⟩ := hb.acked_iff.mp (hacked ⟨r, hr, hcmd⟩)
    obtain ⟨r', hr', hcmd', hby⟩ := hauth.acknowledged id inv hinv hstatus
    rw [hunique r hr r' hr' hcmd hcmd', ← hb.merchantKeys]
    exact hby
  · intro hsigned
    constructor
    · intro id inv hinv
      obtain ⟨bill, hbill, heq⟩ := hb.bill hinv
      obtain ⟨r, hr, -, b₁, b₂, -, hentered, hnot, hthen⟩ := hchain.exists_change
        (Q := fun books : Bills × Plans => (books.1 id).map (fun bill => (bill.amount, bill.memo)) =
          some (bill.amount, bill.memo)) (fun h => by cases h) (by rw [hbill]; rfl)
      have hcmd := hentered.bills.created hnot hthen
      have hamount : inv.amount = bill.amount := congrArg Invoice.amount heq
      have hmemo : inv.memo = bill.memo := congrArg Invoice.memo heq
      rw [hamount, hmemo, hb.merchantKeys]
      exact ⟨r, hr, hcmd, hentered.accepted.createInvoice hcmd⟩
    · intro id inv hinv hstatus
      obtain ⟨r, hr, -, b₁, b₂, -, hentered, hnot, hthen⟩ := hchain.exists_change
        (Q := fun books : Bills × Plans => books.1.Acked id) (fun h => by cases h)
        (hb.acked_iff.mpr ⟨inv, hinv, hstatus⟩)
      have hcmd := hentered.bills.acked hnot hthen
      rw [hb.merchantKeys]
      exact ⟨r, hr, hcmd, hsigned r hr id hcmd⟩
    · intro id sub hsub
      obtain ⟨plan, hplan, rfl⟩ := hp.plan hsub
      obtain ⟨r, hr, -, b₁, b₂, -, hentered, hnot, hthen⟩ := hchain.exists_change
        (Q := fun books : Bills × Plans => (books.2 id).map
          (fun plan => (plan.customer, plan.amount, plan.interval)) =
            some (plan.customer, plan.amount, plan.interval))
        (fun h => by cases h) (by rw [hplan]; rfl)
      have hcmd := hentered.plans.created hnot hthen
      rw [hb.merchantKeys]
      exact ⟨r, hr, hcmd, hentered.accepted.createSubscription hcmd⟩

end ReceiptEpisode
end Kdapp.Merchant

namespace Kdapp.Merchant.ReceiptEpisode
attribute [local instance] idealCrypto

/-- Anyone acknowledges a paid invoice, without a signature. -/
theorem acknowledged_by_anyone : opened.invoices = ∅ ∧ opened.subscriptions = ∅ ∧
    Reachable (fun _ _ => True) opened shop ackedLog acked.1 acked.2 ∧
      ¬ acked.1.Authorised ackedLog := by
  have hrun := acked_reachable (fun _ _ => True) (fun _ _ _ _ => trivial) trivial
    (fun _ _ => trivial)
  obtain ⟨inv, hinv, hacked⟩ : ∃ inv : Invoice, acked.1.invoices[(7 : UInt64)]? = some inv ∧
    inv.status = .acked := ⟨_, rfl, rfl⟩
  refine ⟨rfl, rfl, hrun, fun hauth => ?_⟩
  obtain ⟨r, hr, hcmd, pk, -, hsigned⟩ := hauth.acknowledged 7 inv hinv hacked
  rcases List.mem_cons.mp hr with rfl | hr
  · cases hsigned
  rcases List.mem_cons.mp hr with rfl | hr
  · cases hcmd
  rcases List.mem_cons.mp hr with rfl | hr
  · cases hcmd
  · cases hr

/-- The log without the acknowledgement. -/
theorem authority_iff_created : created.1.Authorised createdLog := by
  have hrun := created_reachable (fun _ _ => True) (fun _ _ _ _ => trivial)
  refine (authority_iff (by decide) (by decide) (opened_shop payingBlock) hrun).mpr ?_
  intro r hr id hcmd
  rcases List.mem_cons.mp hr with rfl | hr
  · cases hcmd
  · cases hr

end Kdapp.Merchant.ReceiptEpisode
