import Kdapp.Library.Outcome
import Mathlib.Algebra.GroupWithZero.Nat
import Mathlib.Algebra.Order.BigOperators.Group.List

/-! Sums over the entries of a finite map. -/

namespace FiniteMap
open Std (ExtTreeMap TransOrd LawfulEqOrd)

variable {κ ν : Type} [Ord κ] [TransOrd κ] [LawfulEqOrd κ] (f : ν → ℕ) (m : ExtTreeMap κ ν) (k : κ)

def total : ℕ := (m.toList.map fun e => f e.2).sum

def held : ℕ := (m[k]?.map f).getD 0

variable {f m k}

omit [LawfulEqOrd κ] in
theorem total_empty : total f (∅ : ExtTreeMap κ ν) = 0 := by
  rw [total, ExtTreeMap.toList_eq_nil_iff.mpr rfl]
  rfl

omit [LawfulEqOrd κ] in
theorem held_of_some {v : ν} (h : m[k]? = some v) : held f m k = f v := by
  rw [held, h]
  rfl

theorem nodup_toList : m.toList.Nodup := by
  apply (ExtTreeMap.distinct_keys_toList (t := m)).imp
  intro a b hab heq
  rw [heq] at hab
  exact hab Std.ReflCmp.compare_self

theorem toList_perm_erase {v : ν} (h : m[k]? = some v) :
    m.toList.Perm ((k, v) :: (m.erase k).toList) := by
  apply (List.perm_ext_iff_of_nodup nodup_toList _).mpr
  · rintro ⟨a, w⟩
    rw [List.mem_cons, ExtTreeMap.mem_toList_iff_getElem?_eq_some,
      ExtTreeMap.mem_toList_iff_getElem?_eq_some]
    by_cases hak : k = a
    · subst hak
      rw [h, ExtTreeMap.getElem?_erase_self]
      simp [eq_comm]
    · rw [getElem?_erase_of_ne hak]
      simp [Ne.symm hak]
  · apply List.nodup_cons.mpr
    refine ⟨?_, nodup_toList⟩
    rw [ExtTreeMap.mem_toList_iff_getElem?_eq_some, ExtTreeMap.getElem?_erase_self]
    exact nofun

theorem total_erase : total f (m.erase k) + held f m k = total f m := by
  cases h : m[k]? with
  | none =>
    have herase : m.erase k = m := by
      apply ExtTreeMap.ext_getElem?
      intro a
      by_cases hak : k = a
      · rw [← hak, ExtTreeMap.getElem?_erase_self, h]
      · rw [getElem?_erase_of_ne hak]
    rw [herase, held, h]
    rfl
  | some v =>
    have hperm := (toList_perm_erase h).map fun e => f e.2
    rw [held_of_some h, total, total, hperm.sum_eq, List.map_cons, List.sum_cons, Nat.add_comm]

theorem total_insert (v : ν) : total f (m.insert k v) + held f m k = total f m + f v := by
  have herase : (m.insert k v).erase k = m.erase k := by
    apply ExtTreeMap.ext_getElem?
    intro a
    by_cases hak : k = a
    · rw [← hak, ExtTreeMap.getElem?_erase_self, ExtTreeMap.getElem?_erase_self]
    · rw [getElem?_erase_of_ne hak, getElem?_erase_of_ne hak, getElem?_insert_of_ne hak]
  have hnew := total_erase (f := f) (m := m.insert k v) (k := k)
  have hold := total_erase (f := f) (m := m) (k := k)
  rw [herase, held_of_some ExtTreeMap.getElem?_insert_self] at hnew
  omega

theorem held_insert_of_ne {a : κ} {v : ν} (h : k ≠ a) :
    held f (m.insert k v) a = held f m a := by
  rw [held, held, getElem?_insert_of_ne h]

end FiniteMap
