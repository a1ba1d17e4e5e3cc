import Mathlib.Algebra.GroupWithZero.Nat
import Mathlib.Algebra.Order.BigOperators.Group.List
import Mathlib.Order.Nat

/-! Taking items from the front of a list until their weights reach a target. -/

namespace Greedy
variable {α : Type} {weight : α → ℕ} {target start : ℕ} {a : α} {items chosen chosen' : List α}

structure Shortest (weight : α → ℕ) (target start : ℕ) (items chosen : List α) : Prop where
  front : chosen <+: items
  reaches : target ≤ start + (chosen.map weight).sum
  least : ∀ before, before <+: items → target ≤ start + (before.map weight).sum →
    chosen.length ≤ before.length

namespace Shortest

theorem singleton (hstart : start < target) (hlast : target ≤ start + weight a) :
    Shortest weight target start (a :: items) [a] where
  front := List.prefix_append [a] items
  reaches := by
    rw [List.map_singleton, List.sum_singleton]
    exact hlast
  least := by
    intro before hbefore hreaches
    rcases before with _ | ⟨b, before⟩
    · exact absurd hreaches (Nat.not_le.mpr hstart)
    · exact Nat.le_add_left 1 before.length

theorem cons (hshort : start + weight a < target)
    (h : Shortest weight target (start + weight a) items chosen) :
    Shortest weight target start (a :: items) (a :: chosen) where
  front := (List.prefix_cons_inj a).mpr h.front
  reaches := by
    rw [List.map_cons, List.sum_cons, ← Nat.add_assoc]
    exact h.reaches
  least := by
    intro before hbefore hreaches
    rcases List.prefix_cons_iff.mp hbefore with rfl | ⟨rest, rfl, hrest⟩
    · -- the start alone is short if the first item does not suffice
      have hstart : target ≤ start := hreaches
      exact absurd (hstart.trans (Nat.le_add_right start (weight a))) (Nat.not_le.mpr hshort)
    · rw [List.map_cons, List.sum_cons, ← Nat.add_assoc] at hreaches
      exact Nat.succ_le_succ (h.least rest hrest hreaches)

theorem unique (h : Shortest weight target start items chosen)
    (h' : Shortest weight target start items chosen') : chosen = chosen' := by
  have hlength : chosen.length = chosen'.length :=
    (h.least chosen' h'.front h'.reaches).antisymm (h'.least chosen h.front h.reaches)
  exact (List.prefix_of_prefix_length_le h.front h'.front hlength.le).eq_of_length hlength

end Shortest
end Greedy
