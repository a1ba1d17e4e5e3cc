import Kdapp.Library.Outcome
import Kdapp.Library.WriteThrough
import Mathlib.Data.List.Sort

/-! Maps kept side by side in one ordered tree of byte strings. -/

namespace Keyspace
open Borsh FiniteMap
open Std (ExtTreeMap TransOrd LawfulEqOrd)
open WriteThrough (Tree)

/-! ### Keys -/

/-- The low `w` bytes of a number, the highest first. -/
def beBytes (w n : ℕ) : Bytes := (leBytes w n).reverse

@[simp] theorem beBytes_length (w n : ℕ) : (beBytes w n).length = w := by
  rw [beBytes, List.length_reverse, leBytes_length]

theorem beBytes_succ (w n : ℕ) : beBytes (w + 1) n = beBytes w (n / 256) ++ [UInt8.ofNat n] := by
  rw [beBytes, leBytes, List.reverse_cons]
  rfl

theorem compare_append {xs ys us vs : Bytes} (h : xs.length = ys.length) :
    compare (xs ++ us) (ys ++ vs) = (compare xs ys).then (compare us vs) := by
  induction xs generalizing ys with
  | nil =>
    obtain rfl : ys = [] := List.length_eq_zero_iff.mp h.symm
    rfl
  | cons x xs ih =>
    rcases ys with _ | ⟨y, ys⟩
    · cases h
    · have htail := ih (Nat.succ.inj h)
      change List.compareLex compare (x :: (xs ++ us)) (y :: (ys ++ vs)) =
        (List.compareLex compare (x :: xs) (y :: ys)).then _
      rw [List.compareLex_cons_cons, List.compareLex_cons_cons, Ordering.then_assoc]
      congr 1

theorem compare_self (xs : Bytes) : compare xs xs = .eq := Std.ReflOrd.compare_self

theorem beBytes_lt {w a b : ℕ} (hlt : a < b) (hb : b < 256 ^ w) :
    compare (beBytes w a) (beBytes w b) = .lt := by
  induction w generalizing a b with
  | zero =>
    rw [Nat.pow_zero] at hb
    omega
  | succ w ih =>
    have hlen : (beBytes w (a / 256)).length = (beBytes w (b / 256)).length := by
      rw [beBytes_length, beBytes_length]
    rw [beBytes_succ, beBytes_succ, compare_append hlen]
    have hhigh : b / 256 < 256 ^ w := by
      apply Nat.div_lt_of_lt_mul
      rwa [Nat.pow_succ, Nat.mul_comm] at hb
    rcases Nat.lt_or_ge (a / 256) (b / 256) with hdiv | hdiv
    · rw [ih hdiv hhigh]
      rfl
    · have heq : a / 256 = b / 256 :=
        Nat.le_antisymm (Nat.div_le_div_right (Nat.le_of_lt hlt)) hdiv
      rw [heq, compare_self]
      change compare [UInt8.ofNat a] [UInt8.ofNat b] = .lt
      change List.compareLex compare [UInt8.ofNat a] [UInt8.ofNat b] = .lt
      have hlow : UInt8.ofNat a < UInt8.ofNat b := by
        rw [UInt8.lt_iff_toNat_lt, UInt8.toNat_ofNat', UInt8.toNat_ofNat']
        omega
      rw [List.compareLex_cons_cons, Std.compare_eq_lt.mpr hlow]
      rfl

/-! ### Scans from a prefix -/

def passes (start k : Bytes) : Bool := compare start k = .lt && !start.isPrefixOf k

theorem compare_cons (x y : UInt8) (xs ys : Bytes) :
    compare (x :: xs) (y :: ys) = (compare x y).then (compare xs ys) :=
  List.compareLex_cons_cons ..

theorem isLE_of_prefix {start k : Bytes} (h : start <+: k) : (compare start k).isLE = true := by
  induction start generalizing k with
  | nil => cases k <;> rfl
  | cons x start ih =>
    obtain ⟨rest, rfl⟩ := h
    rw [List.cons_append, compare_cons, Std.ReflOrd.compare_self]
    exact ih (List.prefix_append start rest)

theorem isLE_eq (start k : Bytes) :
    (compare start k).isLE = (start.isPrefixOf k || passes start k) := by
  cases hprefix : start.isPrefixOf k with
  | true => exact isLE_of_prefix (List.isPrefixOf_iff_prefix.mp hprefix)
  | false =>
    rw [Bool.false_or, passes, hprefix]
    rcases hcmp : compare start k with _ | _ | _
    · rfl
    · have heq : start = k := LawfulEqOrd.eq_of_compare hcmp
      rw [heq, List.isPrefixOf_iff_prefix.mpr (List.prefix_refl k)] at hprefix
      cases hprefix
    · rfl

theorem lt_of_passes {start k : Bytes} (h : passes start k = true) (rest : Bytes) :
    compare (start ++ rest) k = .lt := by
  obtain ⟨hlt, hprefix⟩ := Bool.and_eq_true_iff.mp h
  replace hlt := of_decide_eq_true hlt
  induction start generalizing k with
  | nil => cases hprefix
  | cons x start ih =>
    rcases k with _ | ⟨y, k⟩
    · cases hlt
    · rw [compare_cons] at hlt
      rw [List.cons_append, compare_cons]
      rcases hxy : compare x y with _ | _ | _
      · rfl
      · obtain rfl : x = y := LawfulEqOrd.eq_of_compare hxy
        rw [hxy] at hlt
        have hrest : (!start.isPrefixOf k) = true := by
          simpa only [List.isPrefixOf, beq_self_eq_true, Bool.true_and] using hprefix
        exact ih (Bool.and_eq_true_iff.mpr ⟨decide_eq_true hlt, hrest⟩) hrest hlt
      · rw [hxy] at hlt
        cases hlt

theorem filter_or_eq_append {α : Type} {p q : α → Bool} {l : List α}
    (hboth : ∀ a, p a = true → q a = false)
    (horder : l.Pairwise fun a b => q a = true → p b = false) :
    (l.filter fun a => p a || q a) = l.filter p ++ l.filter q := by
  induction l with
  | nil => rfl
  | cons a l ih =>
    obtain ⟨hrest, horder⟩ := List.pairwise_cons.mp horder
    rw [List.filter_cons, List.filter_cons, List.filter_cons, ih horder]
    cases hp : p a with
    | true =>
      rw [hboth a hp]
      rfl
    | false =>
      cases hq : q a with
      | false => rfl
      | true =>
        have hnil : l.filter p = [] := List.filter_eq_nil_iff.mpr fun b hb => by
          rw [hrest b hb hq]
          exact Bool.false_ne_true
        rw [hnil]
        rfl

theorem filter_isLE (t : Tree) (start : Bytes) :
    (t.toList.filter fun kv => (compare start kv.1).isLE) =
      (t.toList.filter fun kv => start.isPrefixOf kv.1) ++
        t.toList.filter fun kv => passes start kv.1 := by
  simp only [isLE_eq]
  apply filter_or_eq_append
  · intro kv hprefix
    rw [passes, hprefix]
    exact Bool.and_false _
  · refine List.Pairwise.imp ?_ (ExtTreeMap.ordered_keys_toList (t := t))
    intro a b hab hpasses
    rw [Bool.eq_false_iff]
    intro hprefix
    obtain ⟨rest, hrest⟩ := List.isPrefixOf_iff_prefix.mp hprefix
    have hba := lt_of_passes hpasses rest
    rw [hrest] at hba
    rw [Std.OrientedCmp.gt_iff_lt.mpr hab] at hba
    cases hba

/-! ### Tables -/

def Ascends {κ : Type} [Ord κ] (key : κ → Bytes) : Prop :=
  ∀ a b, compare a b = .lt → compare (key a) (key b) = .lt

variable {κ ν : Type} [Ord κ] [TransOrd κ] [LawfulEqOrd κ]

theorem Ascends.injective {key : κ → Bytes} (h : Ascends key) : Function.Injective key := by
  intro a b hab
  rcases hcmp : compare a b with _ | _ | _
  · have hlt := h a b hcmp
    rw [hab, compare_self] at hlt
    cases hlt
  · exact LawfulEqOrd.eq_of_compare hcmp
  · have hlt := h b a (Std.OrientedCmp.gt_iff_lt.mp hcmp)
    rw [hab, compare_self] at hlt
    cases hlt

structure Kept (key : κ → Bytes) (value : ν → Option Bytes) (m : ExtTreeMap κ ν) (t : Tree) :
    Prop where
  entry : ∀ k : κ, t[key k]? = (m[k]?).bind value
  written : ∀ (k : κ) (v : ν), m[k]? = some v → (value v).isSome

def entryOf (key : κ → Bytes) (value : ν → Option Bytes) (e : κ × ν) : Option (Bytes × Bytes) :=
  (value e.2).map fun bs => (key e.1, bs)

namespace Kept
variable {key : κ → Bytes} {value : ν → Option Bytes} {m : ExtTreeMap κ ν} {t : Tree}

omit [LawfulEqOrd κ] in
theorem empty : Kept key value (∅ : ExtTreeMap κ ν) ∅ where
  entry k := by
    rw [ExtTreeMap.getElem?_empty, ExtTreeMap.getElem?_empty]
    rfl
  written k v h := by
    rw [ExtTreeMap.getElem?_empty] at h
    cases h

theorem insert (hkey : Function.Injective key) (h : Kept key value m t) {k : κ} {v : ν}
    {bs : Bytes} (hv : value v = some bs) :
    Kept key value (m.insert k v) (t.insert (key k) bs) where
  entry k' := by
    by_cases hk : k = k'
    · subst hk
      rw [ExtTreeMap.getElem?_insert_self, ExtTreeMap.getElem?_insert_self]
      exact hv.symm
    · rw [getElem?_insert_of_ne (fun he => hk (hkey he)), getElem?_insert_of_ne hk]
      exact h.entry k'
  written k' v' hk' := by
    by_cases hk : k = k'
    · subst hk
      rw [ExtTreeMap.getElem?_insert_self] at hk'
      obtain rfl := Option.some.inj hk'
      rw [hv]
      rfl
    · rw [getElem?_insert_of_ne hk] at hk'
      exact h.written k' v' hk'

omit [LawfulEqOrd κ] in
theorem insert_other (h : Kept key value m t) {other : Bytes} (hother : ∀ k, other ≠ key k)
    (bs : Bytes) : Kept key value m (t.insert other bs) where
  entry k := by
    rw [getElem?_insert_of_ne (hother k)]
    exact h.entry k
  written := h.written

theorem mem_entries (h : Kept key value m t) {sel : Bytes → Bool}
    (hmine : ∀ bs ∈ t, sel bs = true → ∃ k, key k = bs) (e : Bytes × Bytes) :
    e ∈ t.toList.filter (fun e => sel e.1) ↔
      e ∈ (m.toList.filter fun e => sel (key e.1)).filterMap (entryOf key value) := by
  obtain ⟨bs, val⟩ := e
  rw [List.mem_filter, List.mem_filterMap, ExtTreeMap.mem_toList_iff_getElem?_eq_some]
  constructor
  · rintro ⟨hget, hsel⟩
    obtain ⟨k, rfl⟩ := hmine bs (mem_of_some hget) hsel
    rw [h.entry] at hget
    obtain ⟨v, hv, hval⟩ := Option.bind_eq_some_iff.mp hget
    refine ⟨(k, v), List.mem_filter.mpr ⟨?_, hsel⟩, ?_⟩
    · exact ExtTreeMap.mem_toList_iff_getElem?_eq_some.mpr hv
    · rw [entryOf, hval]
      rfl
  · rintro ⟨⟨k, v⟩, hmem, hentry⟩
    obtain ⟨hkv, hsel⟩ := List.mem_filter.mp hmem
    have hv : m[k]? = some v := ExtTreeMap.mem_toList_iff_getElem?_eq_some.mp hkv
    obtain ⟨bs', hval, heq⟩ := Option.map_eq_some_iff.mp hentry
    cases heq
    refine ⟨?_, hsel⟩
    rw [h.entry, hv]
    exact hval

theorem nodup_entries (hkey : Function.Injective key) (m : ExtTreeMap κ ν)
    (keep : κ × ν → Bool) : ((m.toList.filter keep).filterMap (entryOf key value)).Nodup := by
  have hkeys : m.toList.Pairwise fun a b => compare a.1 b.1 = .lt :=
    ExtTreeMap.ordered_keys_toList
  refine List.Pairwise.filterMap _ ?_ (hkeys.filter keep)
  intro a b hab e he e' he' heq
  obtain ⟨bs, -, rfl⟩ := Option.map_eq_some_iff.mp he
  obtain ⟨bs', -, rfl⟩ := Option.map_eq_some_iff.mp he'
  have hk : a.1 = b.1 := hkey (congrArg Prod.fst heq)
  rw [hk, Std.ReflOrd.compare_self] at hab
  cases hab

theorem entries_perm (hkey : Function.Injective key) (h : Kept key value m t)
    {sel : Bytes → Bool} (hmine : ∀ bs ∈ t, sel bs = true → ∃ k, key k = bs) :
    (t.toList.filter fun e => sel e.1).Perm
      ((m.toList.filter fun e => sel (key e.1)).filterMap (entryOf key value)) := by
  have hnodup : t.toList.Nodup := by
    refine List.Pairwise.imp ?_ (ExtTreeMap.ordered_keys_toList (t := t))
    intro a b hab heq
    rw [heq, compare_self] at hab
    cases hab
  rw [List.perm_ext_iff_of_nodup (hnodup.filter _) (nodup_entries hkey m _)]
  exact h.mem_entries hmine

theorem entries_eq (hkey : Ascends key) (h : Kept key value m t) {sel : Bytes → Bool}
    (hmine : ∀ bs ∈ t, sel bs = true → ∃ k, key k = bs) :
    t.toList.filter (fun e => sel e.1) =
      (m.toList.filter fun e => sel (key e.1)).filterMap (entryOf key value) := by
  have hperm := h.entries_perm hkey.injective hmine
  have htree : (t.toList.filter fun e => sel e.1).Pairwise
      fun a b => compare a.1 b.1 = .lt := ExtTreeMap.ordered_keys_toList.filter _
  have hmap : ((m.toList.filter fun e => sel (key e.1)).filterMap (entryOf key value)).Pairwise
      fun a b => compare a.1 b.1 = .lt := by
    have hkeys : m.toList.Pairwise fun a b => compare a.1 b.1 = .lt :=
      ExtTreeMap.ordered_keys_toList
    refine List.Pairwise.filterMap _ ?_ (hkeys.filter _)
    intro a b hab e he e' he'
    obtain ⟨bs, -, rfl⟩ := Option.map_eq_some_iff.mp he
    obtain ⟨bs', -, rfl⟩ := Option.map_eq_some_iff.mp he'
    exact hkey a.1 b.1 hab
  refine hperm.eq_of_pairwise ?_ htree hmap
  intro a b _ _ hab hba
  have hirrefl := Std.OrientedCmp.gt_iff_lt.mpr hab
  rw [hba] at hirrefl
  cases hirrefl

theorem entries_forall₂ (hkey : Ascends key) (h : Kept key value m t) {sel : Bytes → Bool}
    (hmine : ∀ bs ∈ t, sel bs = true → ∃ k, key k = bs) :
    List.Forall₂ (fun kv e => kv.1 = key e.1 ∧ value e.2 = some kv.2)
      (t.toList.filter fun kv => sel kv.1) (m.toList.filter fun e => sel (key e.1)) := by
  rw [h.entries_eq hkey hmine]
  have hwritten : ∀ e ∈ m.toList.filter fun e => sel (key e.1), (value e.2).isSome = true := by
    intro e he
    have hmem : (e.1, e.2) ∈ m.toList := (List.mem_filter.mp he).1
    exact h.written e.1 e.2 (ExtTreeMap.mem_toList_iff_getElem?_eq_some.mp hmem)
  revert hwritten
  generalize m.toList.filter _ = entries
  intro hwritten
  induction entries with
  | nil => exact .nil
  | cons e entries ih =>
    obtain ⟨he, hentries⟩ := List.forall_mem_cons.mp hwritten
    obtain ⟨bs, hbs⟩ := Option.isSome_iff_exists.mp he
    have hentry : entryOf key value e = some (key e.1, bs) := by
      rw [entryOf, hbs]
      rfl
    rw [List.filterMap_cons_some hentry]
    exact .cons ⟨rfl, hbs⟩ (ih hentries)

omit [Ord κ] [TransOrd κ] [LawfulEqOrd κ] in
theorem filterMap_of_forall₂ {α β : Type} {f : α → Option β} {xs : List α} {ys : List β}
    (h : List.Forall₂ (fun x y => f x = some y) xs ys) : xs.filterMap f = ys := by
  induction h with
  | nil => rfl
  | cons hxy _ ih => rw [List.filterMap_cons_some hxy, ih]

theorem length_entries (hkey : Function.Injective key) (h : Kept key value m t)
    (sel : Bytes → Bool) (hmine : ∀ bs ∈ t, sel bs = true ↔ ∃ k, key k = bs) :
    (t.toList.filter fun e => sel e.1).length = m.size := by
  have hall : (m.toList.filter fun e => sel (key e.1)) = m.toList := by
    apply List.filter_eq_self.mpr
    intro e he
    have hv : m[e.1]? = some e.2 := ExtTreeMap.mem_toList_iff_getElem?_eq_some.mp he
    obtain ⟨bs, hbs⟩ := Option.isSome_iff_exists.mp (h.written e.1 e.2 hv)
    have hmem : key e.1 ∈ t := by
      apply mem_of_some (v := bs)
      rw [h.entry, hv]
      exact hbs
    exact (hmine _ hmem).mpr ⟨e.1, rfl⟩
  have hperm := h.entries_perm hkey fun bs hbs => (hmine bs hbs).mp
  rw [hperm.length_eq, hall, ← ExtTreeMap.length_toList, List.filterMap_length_eq_length]
  rintro ⟨k, v⟩ hmem
  have hv : m[k]? = some v := ExtTreeMap.mem_toList_iff_getElem?_eq_some.mp hmem
  obtain ⟨bs, hbs⟩ := Option.isSome_iff_exists.mp (h.written k v hv)
  rw [entryOf, hbs]
  rfl

end Kept

end Keyspace
