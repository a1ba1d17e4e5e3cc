import Mathlib.Data.List.Basic
import Mathlib.Tactic.Common
import Std.Data.ExtTreeMap

/-! Hash maps are traversed in an order that nothing is known of. A search in one depends on that
order as soon as two of its entries would do. -/

open Std (ExtTreeMap TransOrd LawfulEqOrd)

variable {κ ν : Type} [Ord κ] [TransOrd κ] [LawfulEqOrd κ]

structure Traversal (κ ν : Type) [Ord κ] [TransOrd κ] [LawfulEqOrd κ] where
  entries : ExtTreeMap κ ν → List (κ × ν)
  perm : ∀ m, (entries m).Perm m.toList

namespace Traversal
variable {m : ExtTreeMap κ ν} {t t' : Traversal κ ν} {k : κ} {v : ν} {p : κ × ν → Bool}

theorem mem_entries : (k, v) ∈ t.entries m ↔ m[k]? = some v := by
  rw [(t.perm m).mem_iff, ExtTreeMap.mem_toList_iff_getElem?_eq_some]

def startingAt [DecidableEq κ] (k : κ) : Traversal κ ν where
  entries m := m.toList.filter (fun e => decide (e.1 = k)) ++
    m.toList.filter fun e => !decide (e.1 = k)
  perm _ := List.filter_append_perm _ _

theorem find_startingAt [DecidableEq κ] (h : m[k]? = some v)
    (hp : p (k, v) = true) : ((startingAt k).entries m).find? p = some (k, v) := by
  have hfirst : ∀ e ∈ m.toList.filter (fun e => decide (e.1 = k)), e = (k, v) := by
    rintro ⟨k', v'⟩ he
    obtain ⟨hmem, hkey⟩ := List.mem_filter.mp he
    obtain rfl : k' = k := of_decide_eq_true hkey
    have hv := ExtTreeMap.mem_toList_iff_getElem?_eq_some.mp hmem
    rw [Option.some.inj (hv.symm.trans h)]
  have hmem : (k, v) ∈ m.toList.filter fun e => decide (e.1 = k) :=
    List.mem_filter.mpr ⟨ExtTreeMap.mem_toList_iff_getElem?_eq_some.mpr h, decide_eq_true rfl⟩
  unfold startingAt
  dsimp only
  rw [List.find?_append]
  generalize m.toList.filter (fun e => decide (e.1 = k)) = firsts at hfirst hmem
  cases firsts with
  | nil => cases hmem
  | cons e es =>
    obtain rfl := hfirst e List.mem_cons_self
    rw [List.find?_cons_of_pos hp]
    rfl

theorem find_unique (hunique : ∀ k v k' v', m[k]? = some v → m[k']? = some v' →
    p (k, v) = true → p (k', v') = true → k = k') :
    (t.entries m).find? p = (t'.entries m).find? p := by
  have hsome : ∀ t t' : Traversal κ ν, ∀ e, (t.entries m).find? p = some e →
      (t'.entries m).find? p = some e := by
    rintro t t' ⟨k, v⟩ h
    have hk : m[k]? = some v := mem_entries.mp (List.mem_of_find?_eq_some h)
    have hp : p (k, v) = true := List.find?_some h
    have hfound : ((t'.entries m).find? p).isSome = true :=
      List.find?_isSome.mpr ⟨(k, v), mem_entries.mpr hk, hp⟩
    obtain ⟨⟨k', v'⟩, h'⟩ := Option.isSome_iff_exists.mp hfound
    have hk' : m[k']? = some v' := mem_entries.mp (List.mem_of_find?_eq_some h')
    obtain rfl := hunique k v k' v' hk hk' hp (List.find?_some h')
    rw [h', Option.some.inj (hk'.symm.trans hk)]
  cases h : (t.entries m).find? p with
  | some e => exact (hsome t t' e h).symm
  | none =>
    cases h' : (t'.entries m).find? p with
    | none => rfl
    | some e => cases h.symm.trans (hsome t' t e h')

end Traversal
