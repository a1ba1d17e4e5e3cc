import Mathlib.Data.List.Nodup
import Mathlib.Logic.Function.Basic
import Mathlib.Tactic.Common

/-! Lists kept with the owners of what a collection holds: every owner's list names what it
owns, each once. Links are pushed at the end, and unlinking filters. -/

namespace OwnerIndex
open Function (update)
variable {K C : Type} [DecidableEq K] [DecidableEq C]

structure Indexes (owner : K → Option C) (lists : C → Option (List K)) : Prop where
  nodup : ∀ c l, lists c = some l → l.Nodup
  mem_iff : ∀ c l k, lists c = some l → (k ∈ l ↔ owner k = some c)
  listed : ∀ k c, owner k = some c → ∃ l, lists c = some l

def unlinked (k : K) (l : List K) : List K := l.filter fun k' => decide (k' ≠ k)

omit [DecidableEq C] in
theorem mem_unlinked {k k' : K} {l : List K} : k' ∈ unlinked k l ↔ k' ∈ l ∧ k' ≠ k := by
  simp only [unlinked, List.mem_filter, decide_eq_true_eq]

theorem unlinked_of_not_mem {k : K} {l : List K} (h : k ∉ l) : unlinked k l = l := by
  apply List.filter_eq_self.mpr
  intro k' hk'
  exact decide_eq_true (ne_of_mem_of_not_mem hk' h)

theorem unlinked_append (k : K) (l m : List K) :
    unlinked k (l ++ m) = unlinked k l ++ unlinked k m := List.filter_append ..

theorem unlinked_singleton (k : K) : unlinked k [k] = [] := by
  simp only [unlinked, List.filter_cons, ne_eq, not_true_eq_false, decide_false, List.filter_nil,
    Bool.false_eq_true, if_false]

theorem unlinked_linked {k : K} {l : List K} (h : k ∉ l) : unlinked k (l ++ [k]) = l := by
  rw [unlinked_append, unlinked_of_not_mem h, unlinked_singleton, List.append_nil]

theorem linked_unlinked {k : K} {l : List K} (hl : l.Nodup) :
    unlinked k l ++ [k] = l ↔ l.getLast? = some k := by
  constructor
  · intro h
    rw [← h, List.getLast?_concat]
  · intro h
    obtain ⟨init, rfl⟩ := List.getLast?_eq_some_iff.mp h
    have hk : k ∉ init := fun hm => List.disjoint_of_nodup_append hl hm List.mem_cons_self
    rw [unlinked_linked hk]

theorem length_linked_unlinked {k : K} {l : List K} (hl : l.Nodup) (hk : k ∈ l) :
    (unlinked k l ++ [k]).length = l.length := by
  have herase : unlinked k l = l.erase k := by
    rw [hl.erase_eq_filter]
    apply List.filter_congr
    intro k' _
    by_cases h : k' = k <;> simp [h]
  have hpos := List.length_pos_of_mem hk
  rw [herase, List.length_append, List.length_erase_of_mem hk, List.length_singleton]
  omega

namespace Indexes
variable {owner : K → Option C} {lists : C → Option (List K)} {k : K} {c : C} {l : List K}

omit [DecidableEq K] [DecidableEq C] in
theorem not_mem (h : Indexes owner lists) (hl : lists c = some l) (hk : owner k = none) :
    k ∉ l := by
  intro hm
  rw [(h.mem_iff c l k hl).mp hm] at hk
  cases hk

omit [DecidableEq K] in
theorem relist (h : Indexes owner lists) {owner' : K → Option C} {l' : List K}
    (hothers : ∀ k c', c' ≠ c → (owner' k = some c' ↔ owner k = some c')) (hnodup : l'.Nodup)
    (hmem : ∀ k, k ∈ l' ↔ owner' k = some c) :
    Indexes owner' (update lists c (some l')) where
  nodup c₁ l₁ hl₁ := by
    by_cases hc : c₁ = c
    · subst hc
      rw [Function.update_self] at hl₁
      obtain rfl := Option.some.inj hl₁
      exact hnodup
    · rw [Function.update_of_ne hc] at hl₁
      exact h.nodup c₁ l₁ hl₁
  mem_iff c₁ l₁ k hl₁ := by
    by_cases hc : c₁ = c
    · subst hc
      rw [Function.update_self] at hl₁
      obtain rfl := Option.some.inj hl₁
      exact hmem k
    · rw [Function.update_of_ne hc] at hl₁
      rw [h.mem_iff c₁ l₁ k hl₁, hothers k c₁ hc]
  listed k c₁ ho := by
    by_cases hc : c₁ = c
    · exact ⟨_, by rw [hc, Function.update_self]⟩
    · rw [Function.update_of_ne hc]
      exact h.listed k c₁ ((hothers k c₁ hc).mp ho)

theorem link (h : Indexes owner lists) (hk : owner k = none) (hl : lists c = some l) :
    Indexes (update owner k (some c)) (update lists c (some (l ++ [k]))) := by
  apply h.relist
  · intro k' c' hc
    rw [Function.update_apply]
    by_cases hkk : k' = k
    · subst hkk
      simp [hk, Ne.symm hc]
    · simp [hkk]
  · have hnot := h.not_mem hl hk
    simpa only [List.nodup_append, List.nodup_singleton, List.mem_singleton, true_and,
      forall_eq] using ⟨h.nodup c l hl, fun a ha he => hnot (he ▸ ha)⟩
  · intro k'
    rw [List.mem_append, List.mem_singleton, h.mem_iff c l k' hl, Function.update_apply]
    by_cases hkk : k' = k <;> simp [hkk]

theorem unlink (h : Indexes owner lists) (hk : owner k = some c) (hl : lists c = some l) :
    Indexes (update owner k none) (update lists c (some (unlinked k l))) := by
  apply h.relist
  · intro k' c' hc
    rw [Function.update_apply]
    by_cases hkk : k' = k
    · subst hkk
      simp [hk, Ne.symm hc]
    · simp [hkk]
  · exact (h.nodup c l hl).filter _
  · intro k'
    rw [mem_unlinked, h.mem_iff c l k' hl, Function.update_apply]
    by_cases hkk : k' = k <;> simp [hkk]

omit [DecidableEq K] [DecidableEq C] in
theorem empty : Indexes (fun _ : K => (none : Option C)) fun _ => none where
  nodup _ _ h := by cases h
  mem_iff _ _ _ h := by cases h
  listed _ _ h := by cases h

omit [DecidableEq K] [DecidableEq C] in
theorem extend {lists' : C → Option (List K)} (h : Indexes owner lists)
    (hlists : ∀ c, lists' c = lists c ∨ lists c = none ∧ lists' c = some []) :
    Indexes owner lists' where
  nodup c l hl := by
    rcases hlists c with heq | ⟨-, heq⟩
    · exact h.nodup c l (heq.symm.trans hl)
    · rw [heq] at hl
      obtain rfl := Option.some.inj hl
      exact List.nodup_nil
  mem_iff c l k hl := by
    rcases hlists c with heq | ⟨hnone, heq⟩
    · exact h.mem_iff c l k (heq.symm.trans hl)
    · rw [heq] at hl
      obtain rfl := Option.some.inj hl
      refine iff_of_false List.not_mem_nil fun howner => ?_
      obtain ⟨l, hl⟩ := h.listed k c howner
      rw [hnone] at hl
      cases hl
  listed k c howner := by
    obtain ⟨l, hl⟩ := h.listed k c howner
    rcases hlists c with heq | ⟨-, heq⟩
    · exact ⟨l, heq.trans hl⟩
    · exact ⟨[], heq⟩

end Indexes
end OwnerIndex
