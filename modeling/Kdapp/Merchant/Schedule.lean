import Kdapp.Merchant.Payments

/-! When a subscription runs next: the interval is chosen once, and added to the time of each
later command without a check. -/

namespace Kdapp.Merchant
open Borsh
open Std (ExtTreeMap)

variable [Crypto]

namespace MerchantCommand

def schedules : MerchantCommand → Option UInt64
  | .createSubscription id _ _ _ | .processSubscription id => some id
  | _ => none

end MerchantCommand

namespace ReceiptEpisode
variable {g g' g₀ : ReceiptEpisode} {auth : Option PubKey} {metadata : PayloadMetadata}
  {cmd : MerchantCommand} {rb : MerchantRollback} {res : Bool} {db db' db₀ : Storage}
  {log : List Record} {allowed : MerchantCommand → PayloadMetadata → Prop}

/-- The next run lies one interval ahead: the sum is not reduced, and not in the past. -/
def Scheduled (g : ReceiptEpisode) (metadata : PayloadMetadata) (cmd : MerchantCommand) : Prop :=
  ∀ id ∈ cmd.schedules, ∀ sub, g.subscriptions[id]? = some sub →
    sub.nextRun.toNat = metadata.acceptingTime.toNat + sub.interval.toNat ∧
      metadata.acceptingTime < sub.nextRun

def Fits (g : ReceiptEpisode) (metadata : PayloadMetadata) : MerchantCommand → Prop
  | .createSubscription _ _ _ interval =>
    metadata.acceptingTime.toNat + interval.toNat < UInt64.size
  | .processSubscription id => ∀ sub, g.subscriptions[id]? = some sub →
    metadata.acceptingTime.toNat + sub.interval.toNat < UInt64.size
  | _ => True

omit [Crypto] in
theorem sum_ahead_iff {time interval : UInt64} (hinterval : interval ≠ 0) :
    ((time + interval).toNat = time.toNat + interval.toNat ∧ time < time + interval) ↔
      time.toNat + interval.toNat < UInt64.size := by
  have hsum : (time + interval).toNat = (time.toNat + interval.toNat) % UInt64.size :=
    UInt64.toNat_add time interval
  have hpos : 0 < interval.toNat := by
    apply Nat.pos_of_ne_zero
    intro hzero
    exact hinterval (UInt64.toNat_inj.mp hzero)
  rw [UInt64.lt_iff_toNat_lt, hsum]
  constructor
  · rintro ⟨hexact, -⟩
    rw [← hexact]
    exact Nat.mod_lt _ (by decide)
  · intro hfits
    rw [Nat.mod_eq_of_lt hfits]
    exact ⟨rfl, Nat.lt_add_of_pos_right hpos⟩

/-- Every subscription of the episode has such an interval, and so has every canceled one that a
rollback brings back. -/
structure Intervals (P : UInt64 → Prop) (g : ReceiptEpisode) (log : List Record) : Prop where
  stored : ∀ (id : UInt64) (sub : Subscription), g.subscriptions[id]? = some sub → P sub.interval
  canceled : ∀ r ∈ log, ∀ sub, r.rollback = .undoCancelSubscription sub → P sub.interval

theorem createSubscription_interval {id amount interval : UInt64} {customer : PubKey}
    (h : (g.execute auth metadata (.createSubscription id customer amount interval)).run db =
      .ok ((g', .ok rb), db')) : interval ≠ 0 := by
  obtain ⟨-, h₁⟩ := of_guard h
  obtain ⟨hzero, -⟩ := of_guard h₁
  exact fun hinterval => hzero (.inr hinterval)

section Invariant
variable {P : UInt64 → Prop}

theorem stored_insert {subscriptions : ExtTreeMap UInt64 Subscription} {id : UInt64}
    {sub : Subscription}
    (h : ∀ (a : UInt64) (s : Subscription), subscriptions[a]? = some s → P s.interval)
    (hsub : P sub.interval) (a : UInt64) (s : Subscription)
    (hs : (subscriptions.insert id sub)[a]? = some s) : P s.interval := by
  by_cases ha : a = id
  · subst ha
    rw [ExtTreeMap.getElem?_insert_self] at hs
    obtain rfl := Option.some.inj hs
    exact hsub
  · rw [FiniteMap.getElem?_insert_of_ne (Ne.symm ha)] at hs
    exact h a s hs

theorem stored_erase {subscriptions : ExtTreeMap UInt64 Subscription} {id : UInt64}
    (h : ∀ (a : UInt64) (s : Subscription), subscriptions[a]? = some s → P s.interval)
    (a : UInt64) (s : Subscription) (hs : (subscriptions.erase id)[a]? = some s) :
    P s.interval := by
  by_cases ha : a = id
  · subst ha
    rw [ExtTreeMap.getElem?_erase_self] at hs
    cases hs
  · rw [FiniteMap.getElem?_erase_of_ne (Ne.symm ha)] at hs
    exact h a s hs

theorem Intervals.accepts (h : g.Intervals P log) (hacc : g.Accepts metadata cmd auth rb g')
    (hcreate : ∀ id customer amount interval,
      cmd = .createSubscription id customer amount interval → P interval) :
    g'.Intervals P (⟨cmd, auth, metadata, rb⟩ :: log) := by
  have hlog : (∀ sub, rb = .undoCancelSubscription sub → P sub.interval) →
      ∀ r ∈ (⟨cmd, auth, metadata, rb⟩ : Record) :: log, ∀ sub,
        r.rollback = .undoCancelSubscription sub → P sub.interval := by
    intro hrb r hr
    rcases List.mem_cons.mp hr with rfl | hr
    · exact hrb
    · exact h.canceled r hr
  cases hacc with
  | createSubscription =>
    exact ⟨stored_insert h.stored (hcreate _ _ _ _ rfl), hlog nofun⟩
  | processSubscription hsub =>
    have hinterval := h.stored _ _ hsub
    exact ⟨stored_insert h.stored hinterval, hlog nofun⟩
  | cancelSubscription hsub =>
    refine ⟨stored_erase h.stored, hlog fun sub hsame => ?_⟩
    cases hsame
    exact h.stored _ _ hsub
  | createInvoice => exact ⟨h.stored, hlog nofun⟩
  | markPaid => exact ⟨h.stored, hlog nofun⟩
  | ackReceipt => exact ⟨h.stored, hlog nofun⟩
  | cancelInvoice => exact ⟨h.stored, hlog nofun⟩

theorem Intervals.rollsBack {r : Record} (h : g.Intervals P (r :: log))
    (hroll : g.RollsBack r.rollback g' res) : g'.Intervals P log := by
  refine ⟨?_, fun r' hr' => h.canceled r' (List.mem_cons_of_mem _ hr')⟩
  have hcanceled := h.canceled r List.mem_cons_self
  generalize r.rollback = rb at hroll hcanceled
  cases hroll with
  | undoCreateSubscription => exact stored_erase h.stored
  | undoProcessSubscription hsub =>
    have hinterval := h.stored _ _ hsub
    exact stored_insert h.stored hinterval
  | undoCancelSubscription => exact stored_insert h.stored (hcanceled _ rfl)
  | undoCreate => exact h.stored
  | undoPaid => exact h.stored
  | undoAck => exact h.stored
  | undoCancel => exact h.stored
  | paidMissing => exact h.stored
  | ackMissing => exact h.stored
  | cancelMissing => exact h.stored
  | createMissing => exact h.stored
  | processMissing => exact h.stored

theorem Reachable.intervals
    (h₀ : ∀ (id : UInt64) (sub : Subscription), g₀.subscriptions[id]? = some sub → P sub.interval)
    (hcreate : ∀ g db auth metadata id customer amount interval g' rb db',
      allowed (.createSubscription id customer amount interval) metadata →
      (execute g auth metadata (.createSubscription id customer amount interval)).run db =
        .ok ((g', .ok rb), db') → P interval)
    (h : Reachable allowed g₀ db₀ log g db) : g.Intervals P log := by
  induction h with
  | start => exact ⟨h₀, fun r hr => absurd hr List.not_mem_nil⟩
  | executed h hallowed hexec ih =>
    refine ih.accepts (execute_ok hexec).1 ?_
    rintro id customer amount interval rfl
    exact hcreate _ _ _ _ _ _ _ _ _ _ _ hallowed hexec
  | rejected h hexec ih =>
    obtain ⟨rfl, rfl⟩ := execute_rejected hexec
    exact ih
  | rolledBack h hroll ih => exact ih.rollsBack (rollback_ok hroll).1

end Invariant

theorem scheduled_of_get {id : UInt64} {sub : Subscription} (hid : cmd.schedules = some id)
    (hsub : g.subscriptions[id]? = some sub) :
    g.Scheduled metadata cmd ↔
      sub.nextRun.toNat = metadata.acceptingTime.toNat + sub.interval.toNat ∧
        metadata.acceptingTime < sub.nextRun := by
  constructor
  · intro h
    exact h id hid sub hsub
  · intro h id' hid' sub' hsub'
    obtain rfl := Option.some.inj (hid.symm.trans hid')
    obtain rfl := Option.some.inj (hsub.symm.trans hsub')
    exact h

theorem scheduled_of_other (hnone : cmd.schedules = none) : g.Scheduled metadata cmd := by
  intro id hid
  rw [hnone] at hid
  cases hid

theorem Accepts.scheduled_iff
    (hstored : ∀ (id : UInt64) (sub : Subscription), g.subscriptions[id]? = some sub →
      sub.interval ≠ 0)
    (hcreate : ∀ id customer amount interval,
      cmd = .createSubscription id customer amount interval → interval ≠ 0)
    (hacc : g.Accepts metadata cmd auth rb g') :
    g'.Scheduled metadata cmd ↔ g.Fits metadata cmd := by
  cases hacc with
  | @createSubscription id customer amount interval pk info hnew hauth hinfo =>
    rw [scheduled_of_get rfl ExtTreeMap.getElem?_insert_self]
    exact sum_ahead_iff (hcreate _ _ _ _ rfl)
  | @processSubscription id auth sub hsub =>
    have hfits : g.Fits metadata (.processSubscription id) ↔
        metadata.acceptingTime.toNat + sub.interval.toNat < UInt64.size := by
      constructor
      · intro h
        exact h sub hsub
      · intro h sub' hsub'
        obtain rfl := Option.some.inj (hsub.symm.trans hsub')
        exact h
    rw [hfits, scheduled_of_get rfl ExtTreeMap.getElem?_insert_self]
    exact sum_ahead_iff (hstored id sub hsub)
  | createInvoice => exact iff_of_true (scheduled_of_other rfl) trivial
  | markPaid => exact iff_of_true (scheduled_of_other rfl) trivial
  | ackReceipt => exact iff_of_true (scheduled_of_other rfl) trivial
  | cancelInvoice => exact iff_of_true (scheduled_of_other rfl) trivial
  | cancelSubscription => exact iff_of_true (scheduled_of_other rfl) trivial

/-- In every run on a store whose subscriptions passed the check on their interval, an accepted
command schedules its subscription ahead if and only if its time leaves room for the interval. -/
theorem scheduled_ahead_iff {participants : List PubKey} {md₀ : PayloadMetadata}
    {dbs : Storage}
    (hstore : ∀ (id : UInt64) (sub : Subscription), dbs.loadSubscriptions[id]? = some sub →
      sub.interval ≠ 0)
    (hstart : (initializeWith participants md₀).run dbs = .ok (g₀, db₀))
    (h : Reachable (fun _ _ => True) g₀ db₀ log g db)
    (hexec : (g.execute auth metadata cmd).run db = .ok ((g', .ok rb), db')) :
    g'.Scheduled metadata cmd ↔ g.Fits metadata cmd := by
  obtain ⟨-, -, -, hsubscriptions, -, -⟩ := initializeWith_ok hstart
  have hintervals : g.Intervals (· ≠ 0) log := by
    apply h.intervals
    · rw [hsubscriptions]
      exact hstore
    · intro g db auth metadata id customer amount interval g' rb db' _ hcreate
      exact createSubscription_interval hcreate
  apply (execute_ok hexec).1.scheduled_iff hintervals.stored
  rintro id customer amount interval rfl
  exact createSubscription_interval hexec

end ReceiptEpisode
end Kdapp.Merchant

namespace Kdapp.Merchant.ReceiptEpisode
attribute [local instance] idealCrypto

def endless : MerchantCommand :=
  .createSubscription 9 (2 : UInt8) 10 0xffffffffffffffff

def subscribed : ReceiptEpisode × Storage :=
  afterCommand (opened, shop) (some (1 : UInt8)) (blockAt 1 1 []) endless

theorem endless_accepted : (opened.execute (some (1 : UInt8)) (blockAt 1 1 []) endless).run shop =
    .ok ((subscribed.1, .ok (.undoCreateSubscription 9)), subscribed.2) := rfl

theorem shop_intervals (id : UInt64) (sub : Subscription)
    (h : shop.loadSubscriptions[id]? = some sub) : sub.interval ≠ 0 := by
  have hempty : shop.loadSubscriptions = ∅ := by decide
  rw [hempty, Std.ExtTreeMap.getElem?_empty] at h
  cases h

theorem scheduled_ahead_at :
    subscribed.1.Scheduled (blockAt 1 1 []) endless ↔ opened.Fits (blockAt 1 1 []) endless :=
  scheduled_ahead_iff shop_intervals (opened_shop payingBlock) .start endless_accepted

/-- Its first run is at time 0. -/
theorem scheduled_in_the_past :
    ¬ ∀ (participants : List PubKey) (md₀ : PayloadMetadata) (dbs : Storage) (g₀ g g' :
        ReceiptEpisode) (db₀ db db' : Storage) (log : List Record) (auth : Option PubKey)
      (metadata : PayloadMetadata) (cmd : MerchantCommand) (rb : MerchantRollback),
      dbs.loadSubscriptions = ∅ →
      (initializeWith participants md₀).run dbs = .ok (g₀, db₀) →
      Reachable (fun _ _ => True) g₀ db₀ log g db → metadata.acceptingTime.toNat < 2 ^ 63 →
      (g.execute auth metadata cmd).run db = .ok ((g', .ok rb), db') →
      g'.Scheduled metadata cmd := by
  intro h
  have hscheduled := h [(1 : UInt8)] payingBlock shop opened opened subscribed.1 shop shop
    subscribed.2 [] (some (1 : UInt8)) (blockAt 1 1 []) endless _ (by decide)
    (opened_shop payingBlock) .start (by decide) endless_accepted
  obtain ⟨-, hlater⟩ := hscheduled 9 rfl ⟨9, (2 : UInt8), 10, 0xffffffffffffffff, 0⟩ rfl
  exact absurd hlater (by decide)

end Kdapp.Merchant.ReceiptEpisode
