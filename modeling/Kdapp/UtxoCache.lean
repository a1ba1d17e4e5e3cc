import Kdapp.Library.Outcome
import Kdapp.Library.Transition

/-! The UTXOs of an address, as the node told them last (`kdapp/src/utils/utxo_cache.rs`). A call
of `get` looks the address up and, where nothing fresh is cached, asks the node without the lock,
while other calls go on. -/

namespace Kdapp
open FiniteMap InOrder Transition
open Std (ExtTreeMap)

abbrev Instant := ℕ

/-- By the text of the address; the entries `V` are what the node returns. -/
structure UtxoCache (V : Type) where
  ttlMs : UInt64
  inner : ExtTreeMap String (Instant × V)

namespace UtxoCache
variable {V : Type}

def new (ttlMs : UInt64) : UtxoCache V where
  ttlMs := max 100 (min ttlMs 2000)
  inner := ∅

variable (self : UtxoCache V)

/-- `now.duration_since(t).as_millis()` is below the TTL. -/
def fresh (now t : Instant) : Bool := decide ((now - t) / 1000000 < self.ttlMs.toNat)

/-- The first lock of `get`. -/
def lookup (now : Instant) (key : String) : Option V :=
  match self.inner[key]? with
  | some (t, cached) => if self.fresh now t then some cached else none
  | none => none

/-- The second lock of `get`: `now` is the time of its call. -/
def insert (key : String) (now : Instant) (fresh : V) : UtxoCache V :=
  { self with inner := self.inner.insert key (now, fresh) }

def invalidateAddress (key : String) : UtxoCache V :=
  { self with inner := self.inner.erase key }

variable {self} {key other : String} {now : Instant} {v : V}

theorem lookup_insert_self {called : Instant} :
    (self.insert key called v).lookup now key = if self.fresh now called then some v else none := by
  unfold lookup insert
  dsimp only
  rw [ExtTreeMap.getElem?_insert_self]
  rfl

theorem lookup_insert_of_ne {called : Instant} (h : key ≠ other) :
    (self.insert key called v).lookup now other = self.lookup now other := by
  unfold lookup insert
  dsimp only
  rw [getElem?_insert_of_ne h]
  rfl

theorem lookup_invalidate_self : (self.invalidateAddress key).lookup now key = none := by
  unfold lookup invalidateAddress
  dsimp only
  rw [ExtTreeMap.getElem?_erase_self]

theorem lookup_invalidate_of_ne (h : key ≠ other) :
    (self.invalidateAddress key).lookup now other = self.lookup now other := by
  unfold lookup invalidateAddress
  dsimp only
  rw [getElem?_erase_of_ne h]
  rfl

theorem fresh_mono {earlier t : Instant} (hle : earlier ≤ now) (h : self.fresh now t = true) :
    self.fresh earlier t = true := by
  unfold fresh at *
  rw [decide_eq_true_iff] at *
  have hsub : (earlier - t) / 1000000 ≤ (now - t) / 1000000 :=
    Nat.div_le_div_right (Nat.sub_le_sub_right hle t)
  exact Nat.lt_of_le_of_lt hsub h

theorem lookup_mono {earlier : Instant} (hle : earlier ≤ now) (h : self.lookup now key = some v) :
    self.lookup earlier key = some v := by
  unfold lookup at *
  split at h
  · obtain ⟨hfresh, hv⟩ := Option.ite_none_right_eq_some.mp h
    rw [if_pos (fresh_mono hle hfresh)]
    exact hv
  · cases h

end UtxoCache

structure Fetched (V : Type) where
  entries : V
  moment : ℕ
deriving DecidableEq

/-- A call of `get` that found nothing fresh. -/
structure Get (V : Type) where
  key : String
  now : Instant
  started : ℕ
  fetched : Option (Fetched V)

def Get.Recent {V : Type} (get : Get V) : Prop :=
  ∀ fetched, get.fetched = some fetched → get.started ≤ fetched.moment

/-- A cache and the calls on it. The moments number the steps; each address has the moment of its
last invalidation. -/
structure CacheSystem (V : Type) where
  cache : UtxoCache (Fetched V)
  clock : Instant
  moment : ℕ
  gets : ExtTreeMap ℕ (Get V)
  invalidated : ExtTreeMap String ℕ

inductive CacheStep (V : Type) where
  | tick (nanos : ℕ)
  | lookup (id : ℕ) (key : String)
  | fetch (id : ℕ) (entries : V)
  | fail (id : ℕ)
  | insert (id : ℕ)
  | invalidate (key : String)

namespace CacheSystem
variable {V : Type}

def new (ttlMs : UInt64) : CacheSystem V where
  cache := .new ttlMs
  clock := 0
  moment := 0
  gets := ∅
  invalidated := ∅

def step (s : CacheSystem V) : CacheStep V → CacheSystem V
  | .tick nanos => { s with clock := s.clock + nanos }
  | .lookup id key =>
    match s.gets[id]?, s.cache.lookup s.clock key with
    | some _, _ => s
    -- the call returns what is cached
    | none, some _ => { s with moment := s.moment + 1 }
    | none, none => { s with
        moment := s.moment + 1
        gets := s.gets.insert id ⟨key, s.clock, s.moment, none⟩ }
  | .fetch id entries =>
    match s.gets[id]? with
    | some ⟨key, now, started, none⟩ => { s with
        moment := s.moment + 1
        gets := s.gets.insert id ⟨key, now, started, some ⟨entries, s.moment⟩⟩ }
    | _ => s
  | .fail id => { s with gets := s.gets.erase id }
  | .insert id =>
    match s.gets[id]? with
    -- the call returns what was fetched
    | some ⟨key, now, _, some fetched⟩ => { s with
        cache := s.cache.insert key now fetched
        gets := s.gets.erase id }
    | _ => s
  | .invalidate key => { s with
      cache := s.cache.invalidateAddress key
      invalidated := s.invalidated.insert key s.moment
      moment := s.moment + 1 }

def Current (s : CacheSystem V) (key : String) (fetched : Fetched V) : Prop :=
  ∀ moment : ℕ, s.invalidated[key]? = some moment → moment ≤ fetched.moment

/-- A call that starts now returns nothing that was fetched before an invalidation of its address,
if it finds it in the cache; a call that asks the node returns what was fetched after its start. -/
structure Effective (s : CacheSystem V) : Prop where
  hits : ∀ key fetched, s.cache.lookup s.clock key = some fetched → s.Current key fetched
  misses : ∀ (id : ℕ) get, s.gets[id]? = some get → get.Recent

/-- What comes back from the node is still current, or the call was so long ago that it is not
cached any more. -/
def Timely (s : CacheSystem V) : CacheStep V → Prop
  | .insert id => ∀ get fetched, s.gets[id]? = some get → get.fetched = some fetched →
    s.Current get.key fetched ∨ s.cache.fresh s.clock get.now = false
  | .tick _ | .lookup _ _ | .fetch _ _ | .fail _ | .invalidate _ => True

def Dated (s : CacheSystem V) : Prop :=
  ∀ (id : ℕ) get, s.gets[id]? = some get → get.started ≤ s.moment

inductive Steps (s : CacheSystem V) : CacheStep V → CacheSystem V → Prop
  | ignored {e : CacheStep V} : Steps s e s
  | ticked {nanos : ℕ} : Steps s (.tick nanos) { s with clock := s.clock + nanos }
  | hit {id : ℕ} {key : String} : Steps s (.lookup id key) { s with moment := s.moment + 1 }
  | missed {id : ℕ} {key : String} : Steps s (.lookup id key) { s with
      moment := s.moment + 1
      gets := s.gets.insert id ⟨key, s.clock, s.moment, none⟩ }
  | fetched {id : ℕ} {key : String} {now started : ℕ} {entries : V}
    (h : s.gets[id]? = some ⟨key, now, started, none⟩) : Steps s (.fetch id entries) { s with
      moment := s.moment + 1
      gets := s.gets.insert id ⟨key, now, started, some ⟨entries, s.moment⟩⟩ }
  | failed {id : ℕ} : Steps s (.fail id) { s with gets := s.gets.erase id }
  | invalidated {key : String} : Steps s (.invalidate key) { s with
      cache := s.cache.invalidateAddress key
      invalidated := s.invalidated.insert key s.moment
      moment := s.moment + 1 }

variable {s : CacheSystem V} {id : ℕ} {get : Get V} {fetched : Fetched V}

theorem new_dated (ttlMs : UInt64) : Dated (new ttlMs : CacheSystem V) := by
  intro id get h
  cases (ExtTreeMap.getElem?_empty (a := id)).symm.trans h

theorem new_effective (ttlMs : UInt64) : Effective (new ttlMs : CacheSystem V) where
  hits key fetched h := by
    have hnone : (new ttlMs : CacheSystem V).cache.inner[key]? = none :=
      ExtTreeMap.getElem?_empty
    unfold UtxoCache.lookup at h
    rw [hnone] at h
    cases h
  misses id get h := by
    cases (ExtTreeMap.getElem?_empty (a := id)).symm.trans h

theorem gets_insert {P : Get V → Prop} (h : ∀ (i : ℕ) g, s.gets[i]? = some g → P g)
    (hnew : P get) : ∀ (i : ℕ) g, (s.gets.insert id get)[i]? = some g → P g := by
  intro i g hg
  by_cases hi : id = i
  · subst hi
    rw [ExtTreeMap.getElem?_insert_self] at hg
    obtain rfl := Option.some.inj hg
    exact hnew
  · rw [getElem?_insert_of_ne hi] at hg
    exact h i g hg

theorem gets_erase {P : Get V → Prop} (h : ∀ (i : ℕ) g, s.gets[i]? = some g → P g) :
    ∀ (i : ℕ) g, (s.gets.erase id)[i]? = some g → P g := by
  intro i g hg
  by_cases hi : id = i
  · subst hi
    cases ExtTreeMap.getElem?_erase_self.symm.trans hg
  · rw [getElem?_erase_of_ne hi] at hg
    exact h i g hg

theorem step_cases (s : CacheSystem V) (e : CacheStep V) :
    Steps s e (s.step e) ∧ (∀ id, e ≠ .insert id) ∨ ∃ id, e = .insert id := by
  cases e with
  | insert id => exact .inr ⟨id, rfl⟩
  | tick nanos => exact .inl ⟨.ticked, nofun⟩
  | fail id => exact .inl ⟨.failed, nofun⟩
  | invalidate key => exact .inl ⟨.invalidated, nofun⟩
  | lookup id key =>
    refine .inl ⟨?_, nofun⟩
    unfold step
    dsimp only
    split
    · exact .ignored
    · exact .hit
    · exact .missed
  | fetch id entries =>
    refine .inl ⟨?_, nofun⟩
    unfold step
    dsimp only
    split
    · rename_i h
      exact .fetched h
    · exact .ignored

theorem Dated.next (h : s.Dated) (e : CacheStep V) : (s.step e).Dated := by
  have hnext : ∀ (i : ℕ) g, s.gets[i]? = some g → g.started ≤ s.moment + 1 := fun i g hg =>
    Nat.le_succ_of_le (h i g hg)
  rcases s.step_cases e with ⟨hstep, -⟩ | ⟨id, rfl⟩
  · generalize s.step e = s' at hstep
    cases hstep with
    | ignored | ticked => exact h
    | hit | invalidated => exact hnext
    | missed => exact gets_insert hnext (Nat.le_succ _)
    | fetched hget =>
      have hstarted := hnext _ _ hget
      exact gets_insert hnext hstarted
    | failed => exact gets_erase h
  · unfold step
    dsimp only
    split
    · exact gets_erase h
    · exact h

theorem Effective.next {e : CacheStep V} {s' : CacheSystem V} (h : s.Effective) (hdated : s.Dated)
    (hstep : Steps s e s') : s'.Effective := by
  cases hstep with
  | ignored => exact h
  | ticked =>
    refine ⟨fun key fetched hlookup => ?_, h.misses⟩
    exact h.hits key fetched (UtxoCache.lookup_mono (Nat.le_add_right _ _) hlookup)
  | hit => exact ⟨h.hits, h.misses⟩
  | missed => exact ⟨h.hits, gets_insert h.misses fun fetched hnone => by cases hnone⟩
  | @fetched id key now started entries hget =>
    refine ⟨h.hits, gets_insert h.misses fun fetched hfetched => ?_⟩
    -- the node answers after the start of the call
    obtain rfl := Option.some.inj hfetched
    have hstarted := hdated id _ hget
    exact hstarted
  | failed => exact ⟨h.hits, gets_erase h.misses⟩
  | @invalidated key =>
    refine ⟨fun other fetched hlookup => ?_, h.misses⟩
    by_cases hkey : key = other
    · subst hkey
      cases UtxoCache.lookup_invalidate_self.symm.trans hlookup
    · rw [UtxoCache.lookup_invalidate_of_ne hkey] at hlookup
      intro moment hmoment
      rw [getElem?_insert_of_ne hkey] at hmoment
      exact h.hits other fetched hlookup moment hmoment

theorem Effective.insert_iff (h : s.Effective) (id : ℕ) :
    (s.step (.insert id)).Effective ↔ s.Timely (.insert id) := by
  unfold step Timely
  dsimp only
  split
  · rename_i key now started fetched hget
    constructor
    · intro hnext get fetched' hget' hfetched
      obtain rfl := Option.some.inj (hget.symm.trans hget')
      obtain rfl := Option.some.inj hfetched
      cases hfresh : s.cache.fresh s.clock now with
      | false => exact .inr rfl
      | true =>
        have hlookup : (s.cache.insert key now fetched).lookup s.clock key = some fetched := by
          rw [UtxoCache.lookup_insert_self, if_pos hfresh]
        exact .inl (hnext.hits key fetched hlookup)
    · intro htimely
      refine ⟨fun other found hlookup => ?_, gets_erase h.misses⟩
      by_cases hkey : key = other
      · subst hkey
        have hcached : (if s.cache.fresh s.clock now then some fetched else none) = some found :=
          UtxoCache.lookup_insert_self.symm.trans hlookup
        obtain ⟨hfresh, hfound⟩ := Option.ite_none_right_eq_some.mp hcached
        obtain rfl := Option.some.inj hfound
        rcases htimely _ fetched hget rfl with hcurrent | hold
        · exact hcurrent
        · cases hfresh.symm.trans hold
      · exact h.hits other found ((UtxoCache.lookup_insert_of_ne hkey).symm.trans hlookup)
  · rename_i hnone
    apply iff_of_true h
    rintro ⟨key, now, started, answered⟩ fetched hget hfetched
    obtain rfl : answered = some fetched := hfetched
    exact absurd hget (hnone key now started fetched)

theorem Effective.step_iff (h : s.Effective) (hdated : s.Dated) (e : CacheStep V) :
    (s.step e).Effective ↔ s.Timely e := by
  rcases s.step_cases e with ⟨hstep, hother⟩ | ⟨id, rfl⟩
  · apply iff_of_true (h.next hdated hstep)
    cases e with
    | insert id => exact absurd rfl (hother id)
    | tick | lookup | fetch | fail | invalidate => trivial
  · exact h.insert_iff id

end CacheSystem

/-- For every order of any number of calls and invalidations: no call returns what was fetched
before an invalidation that was over when it started, if and only if every answer of the node that
goes into the cache is still current then, or too old to be used. -/
theorem invalidation_effective_iff {V : Type} (ttlMs : UInt64) (steps : List (CacheStep V)) :
    Always CacheSystem.step (.new ttlMs) CacheSystem.Effective steps ↔
      Throughout (fun earlier e => (after CacheSystem.step (.new ttlMs) earlier).Timely e) steps :=
  always_iff_throughout (Q := CacheSystem.Dated) (CacheSystem.new_effective ttlMs)
    (CacheSystem.new_dated ttlMs) (fun _ e _ hdated _ => hdated.next e)
    (fun _ e heffective hdated => heffective.step_iff hdated e) steps

end Kdapp

namespace Kdapp
open Transition

/-- The answer of the node comes back after the address was invalidated. -/
def lateAnswer : List (CacheStep ℕ) := [.lookup 1 "a", .fetch 1 7, .invalidate "a", .insert 1]

/-- A call that starts then returns it. -/
theorem outdated_returned :
    ¬ ∀ (ttlMs : UInt64) (steps : List (CacheStep ℕ)),
      Always CacheSystem.step (.new ttlMs) CacheSystem.Effective steps := by
  intro h
  have heffective := h 500 lateAnswer 4
  have hlookup : (after CacheSystem.step (.new 500) lateAnswer).cache.lookup 0 "a" =
      some ⟨7, 1⟩ := by decide +kernel
  have hinvalidated : (after CacheSystem.step (.new 500) lateAnswer).invalidated["a"]? = some 2 :=
    by decide +kernel
  have hcurrent := heffective.hits "a" ⟨7, 1⟩ hlookup 2 hinvalidated
  exact absurd hcurrent (by decide)

end Kdapp
