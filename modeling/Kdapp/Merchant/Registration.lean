import Kdapp.Merchant.Persistence
import Kdapp.Merchant.Writes
import Mathlib.Data.List.Induction

/-! The life of a store: processes open it one after another and run the receipt episode, and
`register-customer` (`kdapp-merchant/src/main.rs`) writes to it beside them. Whoever paid or
subscribed stays listed, as long as no customer who did is registered again. -/

namespace Kdapp.Merchant
open Borsh Storage OwnerIndex FiniteMap WriteThrough
open Std (ExtTreeMap LawfulEqOrd)

variable [Crypto]

/-- A running episode, with what the engine keeps to roll its commands back. -/
structure Process where
  episode : ReceiptEpisode
  undos : List MerchantRollback

structure Shop where
  db : Storage
  process : Option Process

namespace Shop

def init : Shop := ⟨Storage.init, none⟩

inductive Event where
  | registerCustomer (pk : PubKey)
  | restart (participants : List PubKey) (metadata : PayloadMetadata)
  | command (cmd : MerchantCommand) (authorization : Option PubKey) (metadata : PayloadMetadata)
  | rollback

/-- The command line: whatever the store holds for this customer is overwritten. -/
def registerCustomer (pk : PubKey) : StorageM Unit := putCustomer pk ⟨[], []⟩

def step (s : Shop) : Event → Except Fault Shop
  | .registerCustomer pk => do
    let (_, db) ← (registerCustomer pk).run s.db
    return ⟨db, s.process⟩
  | .restart participants metadata => do
    let (g, db) ← (ReceiptEpisode.initializeWith participants metadata).run s.db
    return ⟨db, some ⟨g, []⟩⟩
  | .command cmd authorization metadata =>
    match s.process with
    | none => return s
    | some ⟨g, undos⟩ => do
      match ← (g.execute authorization metadata cmd).run s.db with
      | ((g, .ok rb), db) => return ⟨db, some ⟨g, rb :: undos⟩⟩
      | ((g, .error _), db) => return ⟨db, some ⟨g, undos⟩⟩
  | .rollback =>
    match s.process with
    | some ⟨g, rb :: undos⟩ => do
      let ((g, _), db) ← (g.rollback rb).run s.db
      return ⟨db, some ⟨g, undos⟩⟩
    | _ => return s

def run (evs : List Event) : Except Fault Shop := evs.foldlM step init

end Shop

theorem ReceiptEpisode.Lists.extend {g g' : ReceiptEpisode} (h : Lists g)
    (hinvoices : g'.invoices = g.invoices) (hsubscriptions : g'.subscriptions = g.subscriptions)
    (hcustomers : ∀ pk : PubKey, g'.customers[pk]? = g.customers[pk]? ∨
      g.customers[pk]? = none ∧ g'.customers[pk]? = some ⟨[], []⟩) : Lists g' := by
  have hextend (f : CustomerInfo → List UInt64) (hf : f ⟨[], []⟩ = []) (pk : PubKey) :
      view (fun info => some (f info)) g'.customers pk =
        view (fun info => some (f info)) g.customers pk ∨
      view (fun info => some (f info)) g.customers pk = none ∧
        view (fun info => some (f info)) g'.customers pk = some [] := by
    unfold view
    rcases hcustomers pk with heq | ⟨hnone, hblank⟩
    · rw [heq]
      exact .inl rfl
    · rw [hnone, hblank]
      exact .inr ⟨rfl, congrArg some hf⟩
  constructor
  · have hlists := h.invoices.extend (hextend (·.invoices) rfl)
    unfold payers at hlists ⊢
    rw [hinvoices]
    exact hlists
  · have hlists := h.subscriptions.extend (hextend (·.subscriptions) rfl)
    unfold subscribers at hlists ⊢
    rw [hsubscriptions]
    exact hlists

namespace Storage

/-- Every paid invoice is listed under its payer, every subscription under its customer. -/
structure Listed (db : Storage) : Prop where
  invoices : ∀ (id : UInt64) (inv : Invoice), db.loadInvoices[id]? = some inv →
    inv.status = .paid ∨ inv.status = .acked → ∃ payer info, inv.payer = some payer ∧
      db.loadCustomers[payer]? = some info ∧ id ∈ info.invoices
  subscriptions : ∀ (id : UInt64) (sub : Subscription), db.loadSubscriptions[id]? = some sub →
    ∃ info, db.loadCustomers[sub.customer]? = some info ∧ id ∈ info.subscriptions

structure Newcomer (db : Storage) (pk : PubKey) : Prop where
  invoices : ∀ (id : UInt64) (inv : Invoice), db.loadInvoices[id]? = some inv →
    inv.status = .paid ∨ inv.status = .acked → inv.payer ≠ some pk
  subscriptions : ∀ (id : UInt64) (sub : Subscription), db.loadSubscriptions[id]? = some sub →
    sub.customer ≠ pk

def opened (db : Storage) : ReceiptEpisode where
  merchantKeys := []
  invoices := db.loadInvoices
  subscriptions := db.loadSubscriptions
  customers := db.loadCustomers
  usedCarrierTxs := ∅

/-- Trees that an episode can be opened on, with lists that are in step. -/
structure Ordered (db : Storage) : Prop where
  sound : db.Sound
  lists : ReceiptEpisode.Lists db.opened

variable {db db' : Storage} {pk : PubKey} {u : Unit}

theorem Ordered.init : Storage.init.Ordered := by
  obtain ⟨hinvoices, hsubscriptions, hcustomers⟩ := Storage.Mirrored.init.loaded
  refine ⟨.init, ?_, ?_⟩
  · unfold ReceiptEpisode.payers ReceiptEpisode.invoiceLists opened
    rw [hinvoices, hcustomers]
    exact Indexes.empty
  · unfold ReceiptEpisode.subscribers ReceiptEpisode.subscriptionLists opened
    rw [hsubscriptions, hcustomers]
    exact Indexes.empty

theorem Ordered.listed (h : db.Ordered) : db.Listed where
  invoices id inv hinv hpaid := by
    have hformed := (h.sound.invoices id inv hinv).2
    have hpayer : inv.payer.isSome = true := by
      unfold Invoice.Formed at hformed
      rcases hpaid with hpaid | hpaid
      · rw [hpaid] at hformed
        exact hformed.1
      · rw [hpaid] at hformed
        exact hformed.1
    obtain ⟨payer, hpayer⟩ := Option.isSome_iff_exists.mp hpayer
    have howner : db.opened.payers id = some payer := (view_of_some hinv).trans hpayer
    obtain ⟨l, hl⟩ := h.lists.invoices.listed id payer howner
    obtain ⟨info, hinfo, heq⟩ := Option.bind_eq_some_iff.mp hl
    cases heq
    exact ⟨payer, info, hpayer, hinfo, (h.lists.invoices.mem_iff payer _ id hl).mpr howner⟩
  subscriptions id sub hsub := by
    have howner : db.opened.subscribers id = some sub.customer := view_of_some hsub
    obtain ⟨l, hl⟩ := h.lists.subscriptions.listed id _ howner
    obtain ⟨info, hinfo, heq⟩ := Option.bind_eq_some_iff.mp hl
    cases heq
    exact ⟨info, hinfo, (h.lists.subscriptions.mem_iff _ _ id hl).mpr howner⟩

theorem Ordered.blank (h : db.Ordered) (hpk : db.Newcomer pk) {info : CustomerInfo}
    (hinfo : db.loadCustomers[pk]? = some info) : info = ⟨[], []⟩ := by
  have hinvoices : info.invoices = [] := by
    refine List.eq_nil_iff_forall_not_mem.mpr fun id hid => ?_
    have howner := (h.lists.invoices.mem_iff pk _ id (view_of_some hinfo)).mp hid
    obtain ⟨inv, hinv, hpayer⟩ := Option.bind_eq_some_iff.mp howner
    have hformed := (h.sound.invoices id inv hinv).2
    have hpaid : inv.status = .paid ∨ inv.status = .acked := by
      unfold Invoice.Formed at hformed
      cases hstatus : inv.status with
      | paid => exact .inl rfl
      | acked => exact .inr rfl
      | _ =>
        rw [hstatus] at hformed
        exact absurd (hformed.1.symm.trans hpayer) nofun
    exact hpk.invoices id inv hinv hpaid hpayer
  have hsubscriptions : info.subscriptions = [] := by
    refine List.eq_nil_iff_forall_not_mem.mpr fun id hid => ?_
    have howner := (h.lists.subscriptions.mem_iff pk _ id (view_of_some hinfo)).mp hid
    obtain ⟨sub, hsub, hcustomer⟩ := Option.bind_eq_some_iff.mp howner
    exact hpk.subscriptions id sub hsub (Option.some.inj hcustomer)
  obtain ⟨invoices, subscriptions⟩ := info
  obtain rfl : invoices = [] := hinvoices
  obtain rfl : subscriptions = [] := hsubscriptions
  rfl

theorem registered_loads (h : db.Sound)
    (hput : (Shop.registerCustomer pk).run db = .ok (u, db')) :
    db'.loadInvoices = db.loadInvoices ∧ db'.loadSubscriptions = db.loadSubscriptions ∧
      db'.loadCustomers = db.loadCustomers.insert pk ⟨[], []⟩ :=
  (h.mirrored.putCustomer hput).loaded

theorem Ordered.register (h : db.Ordered) (hpk : db.Newcomer pk)
    (hput : (Shop.registerCustomer pk).run db = .ok (u, db')) : db'.Ordered := by
  obtain ⟨hinvoices, hsubscriptions, hcustomers⟩ := registered_loads h.sound hput
  refine ⟨h.sound.putCustomer hput, h.lists.extend hinvoices hsubscriptions fun c => ?_⟩
  unfold opened
  rw [hcustomers]
  by_cases hc : c = pk
  · subst hc
    rw [ExtTreeMap.getElem?_insert_self]
    cases hinfo : db.loadCustomers[c]? with
    | none => exact .inr ⟨rfl, rfl⟩
    | some info => exact .inl (congrArg some (h.blank hpk hinfo).symm)
  · rw [FiniteMap.getElem?_insert_of_ne (Ne.symm hc)]
    exact .inl rfl

theorem Ordered.newcomer (h : db.Ordered)
    (hput : (Shop.registerCustomer pk).run db = .ok (u, db')) (hlisted : db'.Listed) :
    db.Newcomer pk := by
  obtain ⟨hinvoices, hsubscriptions, hcustomers⟩ := registered_loads h.sound hput
  have hblank : ∀ info, db'.loadCustomers[pk]? = some info → info = ⟨[], []⟩ := by
    intro info hinfo
    rw [hcustomers, ExtTreeMap.getElem?_insert_self] at hinfo
    exact (Option.some.inj hinfo).symm
  constructor
  · intro id inv hinv hpaid hpayer
    rw [← hinvoices] at hinv
    obtain ⟨payer, info, hpayer', hinfo, hid⟩ := hlisted.invoices id inv hinv hpaid
    obtain rfl := Option.some.inj (hpayer.symm.trans hpayer')
    rw [hblank info hinfo] at hid
    cases hid
  · rintro id sub hsub rfl
    rw [← hsubscriptions] at hsub
    obtain ⟨info, hinfo, hid⟩ := hlisted.subscriptions id sub hsub
    rw [hblank info hinfo] at hid
    cases hid

/-- The first trees hold what the second do, and customers who were registered since. -/
structure Ahead (db db₂ : Storage) : Prop where
  invoices : db.invoices = db₂.invoices
  subscriptions : db.subscriptions = db₂.subscriptions
  customers : ∀ k, db.customers[k]? = db₂.customers[k]? ∨
    ∃ pk : PubKey, pk.serialize = k ∧ db₂.customers[k]? = none ∧
      db.customers[k]? = CustomerInfo.codec.serialize ⟨[], []⟩

theorem Ahead.refl (db : Storage) : Ahead db db := ⟨rfl, rfl, fun _ => .inl rfl⟩

theorem Ahead.write (f : Storage → Storage) (hf : Write f) (db db₂ : Storage) (h : Ahead db db₂) :
    Ahead (f db) (f db₂) := by
  cases hf with
  | putInvoice k val => exact { h with invoices := congrArg (·.insert k val) h.invoices }
  | deleteInvoice k => exact { h with invoices := congrArg (·.erase k) h.invoices }
  | putSubscription k val =>
    exact { h with subscriptions := congrArg (·.insert k val) h.subscriptions }
  | deleteSubscription k =>
    exact { h with subscriptions := congrArg (·.erase k) h.subscriptions }
  | putCustomer k val =>
    refine { h with customers := fun k' => ?_ }
    rw [ExtTreeMap.getElem?_insert, ExtTreeMap.getElem?_insert]
    split
    · exact .inl rfl
    · exact h.customers k'

omit [Crypto] in
theorem blank_isSome : (CustomerInfo.codec.serialize ⟨[], []⟩).isSome = true := rfl

omit [Crypto] in
theorem customers_decode (info : CustomerInfo) (bs : Bytes)
    (h : CustomerInfo.codec.serialize info = some bs) :
    CustomerInfo.codec.fromSlice bs = some info := CustomerInfo.codec_lawful.fromSlice h

theorem Ahead.ordered {merchantKeys : List PubKey} {registered : PubKey → Prop}
    {g : ReceiptEpisode} {db₂ : Storage} {books : Bills × Plans} (h : Ahead db db₂)
    (hshows : ReceiptEpisode.Shows merchantKeys registered (g, db₂) books) : db.Ordered := by
  have hm : Storage.Mirrored g.invoices g.subscriptions g.customers db₂ := hshows.mirrored
  have hstored : Storage.Mirrored g.invoices g.subscriptions db.loadCustomers db := by
    refine ⟨?_, ?_, mirrors_load ofCustomerKey_serialize customers_decode fun bs vb hvb => ?_⟩
    · rw [h.invoices]
      exact hm.invoices
    · rw [h.subscriptions]
      exact hm.subscriptions
    · rcases h.customers bs with heq | ⟨pk, hpk, -, hblank⟩
      · rw [heq] at hvb
        obtain ⟨pk, rfl⟩ := hm.customers.only bs (mem_of_some hvb)
        rw [hm.customers.entry pk] at hvb
        obtain ⟨info, -, hwritten⟩ := Option.bind_eq_some_iff.mp hvb
        exact ⟨pk, info, rfl, hwritten⟩
      · exact ⟨pk, _, hpk, hblank.symm.trans hvb⟩
  have hsound : db.Sound := .of_mirrored hstored (fun id inv => hshows.bills.formed)
    fun id sub => hshows.keyed.subscriptions id sub
  obtain ⟨hinvoices, hsubscriptions, -⟩ := hstored.loaded
  refine ⟨hsound, hshows.lists.extend hinvoices hsubscriptions fun pk => ?_⟩
  unfold opened
  rw [← hstored.customers.getElem?_bind_value customers_decode pk,
    ← hm.customers.getElem?_bind_value customers_decode pk]
  rcases h.customers pk.serialize with heq | ⟨-, -, hnone, hblank⟩
  · rw [heq]
    exact .inl rfl
  · obtain ⟨val, hval⟩ := Option.isSome_iff_exists.mp blank_isSome
    rw [hnone, hblank, hval]
    exact .inr ⟨rfl, customers_decode _ val hval⟩

theorem Ahead.register {merchantKeys : List PubKey} {registered : PubKey → Prop}
    {g : ReceiptEpisode} {db₂ : Storage} {books : Bills × Plans} (h : Ahead db db₂)
    (hshows : ReceiptEpisode.Shows merchantKeys registered (g, db₂) books)
    (hpk : db.Newcomer pk) (hput : (Shop.registerCustomer pk).run db = .ok (u, db')) :
    Ahead db' db₂ := by
  have hordered := h.ordered hshows
  obtain ⟨val, hval, rfl⟩ := expect_modify hput
  refine { h with customers := fun k => ?_ }
  dsimp only
  rw [ExtTreeMap.getElem?_insert]
  split
  · rename_i hk
    obtain rfl := LawfulEqOrd.eq_of_compare hk
    cases hold : db₂.customers[pk.serialize]? with
    | none => exact .inr ⟨pk, rfl, rfl, hval.symm⟩
    | some vb =>
      -- the record that is overwritten is as blank as the new one
      have hsame : db.customers[pk.serialize]? = some vb := by
        rcases h.customers pk.serialize with heq | ⟨-, -, hnone, -⟩
        · exact heq.trans hold
        · rw [hold] at hnone
          cases hnone
      rw [hordered.sound.mirrored.customers.entry pk] at hsame
      obtain ⟨info, hinfo, hwritten⟩ := Option.bind_eq_some_iff.mp hsame
      obtain rfl := hordered.blank hpk hinfo
      exact .inl (hval.symm.trans hwritten)
  · exact h.customers k

end Storage

open ReceiptEpisode in
theorem Storage.Ordered.shows {db db₀ : Storage} {participants : List PubKey}
    {metadata : PayloadMetadata} {g₀ : ReceiptEpisode} (h : db.Ordered)
    (hstart : (initializeWith participants metadata).run db = .ok (g₀, db₀)) :
    db₀ = db ∧ ∃ books, Shows g₀.merchantKeys (· ∈ g₀.customers) (g₀, db₀) books := by
  obtain ⟨⟨b, p, hb, hp⟩, hm⟩ := initializeWith_sound h.sound hstart
  obtain ⟨rfl, -, hinvoices, hsubscriptions, hcustomers, -⟩ := initializeWith_ok hstart
  have hlists : Lists g₀ := h.lists.extend hinvoices hsubscriptions fun pk => by
    rw [hcustomers]
    exact .inl rfl
  exact ⟨rfl, (b, p), hb, hp, hlists, fun _ => Iff.rfl, hm⟩

namespace Shop
open ReceiptEpisode

def Runs (db : Storage) (p : Process) : Prop :=
  ∃ g₀ db₀ books₀ log db₂, Shows g₀.merchantKeys (· ∈ g₀.customers) (g₀, db₀) books₀ ∧
    Reachable (fun _ _ => True) g₀ db₀ log p.episode db₂ ∧ p.undos = log.map (·.rollback) ∧
    db.Ahead db₂

structure Kept (s : Shop) : Prop where
  ordered : s.db.Ordered
  process : ∀ p, s.process = some p → Runs s.db p

theorem Runs.ordered {db : Storage} {p : Process} (h : Runs db p) : db.Ordered := by
  obtain ⟨g₀, db₀, books₀, log, db₂, hstart, hreach, -, hahead⟩ := h
  obtain ⟨books, -, hshows⟩ := hreach.shows hstart
  exact hahead.ordered hshows

theorem Runs.kept {db : Storage} {p : Process} (h : Runs db p) : Kept ⟨db, some p⟩ :=
  ⟨h.ordered, fun _ hp => Option.some.inj hp ▸ h⟩

theorem Runs.command {db db' : Storage} {g g' : ReceiptEpisode} {undos : List MerchantRollback}
    {cmd : MerchantCommand} {auth : Option PubKey} {metadata : PayloadMetadata}
    {res : Except (EpisodeError MerchantError) MerchantRollback} (h : Runs db ⟨g, undos⟩)
    (hexec : (g.execute auth metadata cmd).run db = .ok ((g', res), db')) :
    (∀ rb, res = .ok rb → Runs db' ⟨g', rb :: undos⟩) ∧
      ∀ e, res = .error e → Runs db' ⟨g', undos⟩ := by
  obtain ⟨g₀, db₀, books₀, log, db₂, hstart, hreach, rfl, hahead⟩ := h
  obtain ⟨db₂', hexec₂, hahead'⟩ := (execute_writes g auth metadata cmd).related Ahead.write
    hahead hexec
  constructor
  · rintro rb rfl
    exact ⟨g₀, db₀, books₀, _, db₂', hstart, hreach.executed trivial hexec₂, rfl, hahead'⟩
  · rintro e rfl
    exact ⟨g₀, db₀, books₀, _, db₂', hstart, hreach.rejected hexec₂, rfl, hahead'⟩

theorem Runs.rollback {db db' : Storage} {g g' : ReceiptEpisode} {undos : List MerchantRollback}
    {rb : MerchantRollback} {res : Bool} (h : Runs db ⟨g, rb :: undos⟩)
    (hroll : (g.rollback rb).run db = .ok ((g', res), db')) : Runs db' ⟨g', undos⟩ := by
  obtain ⟨g₀, db₀, books₀, log, db₂, hstart, hreach, hundos, hahead⟩ := h
  cases log with
  | nil => cases hundos
  | cons r log =>
    obtain ⟨rfl, rfl⟩ := List.cons.inj hundos
    obtain ⟨db₂', hroll₂, hahead'⟩ := (rollback_writes g r.rollback).related Ahead.write hahead
      hroll
    exact ⟨g₀, db₀, books₀, log, db₂', hstart, hreach.rolledBack hroll₂, rfl, hahead'⟩

theorem Runs.register {db db' : Storage} {p : Process} {pk : PubKey} {u : Unit} (h : Runs db p)
    (hpk : db.Newcomer pk) (hput : (registerCustomer pk).run db = .ok (u, db')) :
    Runs db' p := by
  obtain ⟨g₀, db₀, books₀, log, db₂, hstart, hreach, hundos, hahead⟩ := h
  obtain ⟨books, -, hshows⟩ := hreach.shows hstart
  exact ⟨g₀, db₀, books₀, log, db₂, hstart, hreach, hundos, hahead.register hshows hpk hput⟩

theorem Kept.step {s s' : Shop} {e : Event} (h : s.Kept)
    (hnew : ∀ pk, e = .registerCustomer pk → s.db.Newcomer pk) (hstep : s.step e = .ok s') :
    s'.Kept := by
  obtain ⟨db, process⟩ := s
  cases e with
  | registerCustomer pk =>
    obtain ⟨⟨u, db'⟩, hput, hret⟩ := Outcome.bind_ok hstep
    cases hret
    exact ⟨h.ordered.register (hnew pk rfl) hput,
      fun p hp => (h.process p hp).register (hnew pk rfl) hput⟩
  | restart participants metadata =>
    obtain ⟨⟨g, db'⟩, hstart, hret⟩ := Outcome.bind_ok hstep
    cases hret
    obtain ⟨rfl, books, hshows⟩ := h.ordered.shows hstart
    exact Runs.kept ⟨g, _, books, [], _, hshows, .start, rfl, .refl _⟩
  | command cmd auth metadata =>
    cases process with
    | none =>
      cases hstep
      exact h
    | some p =>
      obtain ⟨⟨⟨g', res⟩, db'⟩, hexec, hret⟩ := Outcome.bind_ok hstep
      obtain ⟨hok, herror⟩ := (h.process p rfl).command hexec
      cases res with
      | ok rb =>
        cases hret
        exact (hok rb rfl).kept
      | error e =>
        cases hret
        exact (herror e rfl).kept
  | rollback =>
    rcases process with - | ⟨g, - | ⟨rb, undos⟩⟩
    · cases hstep
      exact h
    · cases hstep
      exact h
    · obtain ⟨⟨⟨g', res⟩, db'⟩, hroll, hret⟩ := Outcome.bind_ok hstep
      cases hret
      exact ((h.process _ rfl).rollback hroll).kept

theorem run_concat (evs : List Event) (e : Event) :
    run (evs ++ [e]) = run evs >>= fun s => s.step e := by
  rw [run, List.foldlM_append]
  congr
  funext s
  exact bind_pure (s.step e)

def RegistersNewcomers (evs : List Event) : Prop :=
  ∀ pre pk s, pre ++ [.registerCustomer pk] <+: evs → run pre = .ok s → s.db.Newcomer pk

theorem RegistersNewcomers.mono {evs evs' : List Event} (h : RegistersNewcomers evs)
    (hpre : evs' <+: evs) : RegistersNewcomers evs' :=
  fun pre pk s hle => h pre pk s (hle.trans hpre)

theorem run_kept {evs : List Event} {s : Shop} (hnew : RegistersNewcomers evs)
    (h : run evs = .ok s) : s.Kept := by
  induction evs using List.reverseRecOn generalizing s with
  | nil =>
    cases h
    exact ⟨.init, fun p hp => by cases hp⟩
  | append_singleton evs e ih =>
    rw [run_concat] at h
    obtain ⟨s₁, hrun, hstep⟩ := Outcome.bind_ok h
    have hkept := ih (hnew.mono (List.prefix_append evs [e])) hrun
    refine hkept.step (fun pk he => ?_) hstep
    subst he
    exact hnew evs pk s₁ (List.prefix_refl _) hrun

/-- All that is paid or subscribed is listed in every state of a run exactly when every
registration of the run is of a newcomer. -/
theorem listed_iff_newcomers (evs : List Event) :
    (∀ pre s, pre <+: evs → run pre = .ok s → s.db.Listed) ↔
      ∀ pre pk s, pre ++ [.registerCustomer pk] <+: evs → run pre = .ok s →
        s.db.Newcomer pk := by
  constructor
  · intro hlisted pre
    -- the first registration that is not of a newcomer already leaves someone unlisted
    induction hn : pre.length using Nat.strong_induction_on generalizing pre with
    | _ n ih =>
      subst hn
      intro pk s hpre hrun
      have hnew : RegistersNewcomers pre := by
        intro pre' pk' s' hpre' hrun'
        have hlen := hpre'.length_le
        rw [List.length_append, List.length_singleton] at hlen
        exact ih pre'.length hlen pre' rfl pk' s'
          (hpre'.trans ((List.prefix_append pre _).trans hpre)) hrun'
      obtain ⟨db', hput⟩ := putCustomer_total blank_isSome pk s.db
      have hnext : run (pre ++ [.registerCustomer pk]) = .ok ⟨db', s.process⟩ := by
        rw [run_concat, Outcome.bind_of_ok _ hrun]
        exact Outcome.bind_of_ok _ hput
      exact (run_kept hnew hrun).ordered.newcomer hput (hlisted _ _ hpre hnext)
  · intro hnew pre s hpre hrun
    exact (run_kept (RegistersNewcomers.mono hnew hpre) hrun).ordered.listed

end Shop
end Kdapp.Merchant

namespace Kdapp.Merchant.Shop
attribute [local instance] idealCrypto

def registeredAgain : List Event :=
  [.registerCustomer (2 : UInt8), .restart [(1 : UInt8)] ReceiptEpisode.payingBlock,
    .command (.createInvoice 7 100 none) (some (1 : UInt8)) (ReceiptEpisode.blockAt 1 1 []),
    .command (.markPaid 7 (2 : UInt8)) (some (2 : UInt8)) ReceiptEpisode.payingBlock,
    .registerCustomer (2 : UInt8)]

theorem registeredAgain_unlisted : ∃ s, run registeredAgain = .ok s ∧ ¬ s.db.Listed := by
  have hrun : (run registeredAgain).toOption.bind (fun s =>
      (s.db.loadInvoices[(7 : UInt64)]?).map fun inv =>
        (inv.status, inv.payer, s.db.loadCustomers[(2 : UInt8)]?)) =
      some (.paid, some (2 : UInt8), some ⟨[], []⟩) := by decide +kernel
  obtain ⟨s, hs, hinv⟩ := Option.bind_eq_some_iff.mp hrun
  obtain ⟨inv, hinv, heq⟩ := Option.map_eq_some_iff.mp hinv
  refine ⟨s, Outcome.ok_of_toOption hs, fun hlisted => ?_⟩
  simp only [Prod.mk.injEq] at heq
  obtain ⟨hstatus, hpayer, hcustomer⟩ := heq
  obtain ⟨payer, info, hpayer', hinfo, hid⟩ := hlisted.invoices 7 inv hinv (.inl hstatus)
  obtain rfl := Option.some.inj (hpayer.symm.trans hpayer')
  obtain rfl := Option.some.inj (hcustomer.symm.trans hinfo)
  cases hid

end Kdapp.Merchant.Shop
