import Kdapp.CommentBoard.Wallet.Transactions
import Kdapp.Library.Greedy
import Mathlib.Algebra.Order.BigOperators.Group.List

/-! Which UTXOs the wallet picks. -/

namespace Kdapp.CommentBoard
open Borsh

variable [Crypto] [WalletCrates] {utxos : List Utxo} {required total : UInt64} {u : Utxo}

def amounts (utxos : List Utxo) : ℕ := (utxos.map fun u => u.2.amount.toNat).sum

theorem amounts_cons (u : Utxo) (utxos : List Utxo) :
    amounts (u :: utxos) = u.2.amount.toNat + amounts utxos := List.sum_cons

theorem amounts_sortByAmount : amounts (sortByAmount utxos) = amounts utxos :=
  ((List.perm_insertionSort _ utxos).map _).sum_eq

theorem sortByAmount_sorted :
    (sortByAmount utxos).Pairwise fun a b => a.2.amount ≤ b.2.amount := by
  have : IsTrans Utxo fun a b => a.2.amount ≤ b.2.amount :=
    ⟨fun _ _ _ hab hbc => UInt64.le_trans hab hbc⟩
  have : Std.Total fun a b : Utxo => a.2.amount ≤ b.2.amount :=
    ⟨fun a b => UInt64.le_total a.2.amount b.2.amount⟩
  exact List.pairwise_insertionSort _ utxos

section Smallest
variable {minRequired : UInt64}

theorem smallestSuitable_ge {best : Option Utxo} (hbest : ∀ b ∈ best, minRequired ≤ b.2.amount)
    (h : smallestSuitable minRequired best utxos = some u) : minRequired ≤ u.2.amount := by
  induction utxos generalizing best with
  | nil => exact hbest u h
  | cons v utxos ih =>
    unfold smallestSuitable at h
    split at h
    · rename_i hv
      split at h
      · apply ih _ h
        intro b hb
        obtain rfl := Option.some.inj hb
        exact hv
      · rename_i b
        apply ih _ h
        intro b' hb'
        obtain rfl := Option.some.inj hb'
        split
        · exact hv
        · exact hbest b rfl
    · exact ih hbest h

end Smallest

section Selection

theorem selectInputs_reaches_iff :
    required ≤ (selectInputs required total utxos).2 ↔
      required.toNat ≤ total.toNat + amounts utxos := by
  have hbound := required.toNat_lt
  induction utxos generalizing total with
  | nil => exact UInt64.le_iff_toNat_le
  | cons u utxos ih =>
    have hsum := Saturating.add_toNat total u.2.amount
    rw [amounts_cons]
    unfold selectInputs
    dsimp only
    split
    · rename_i hreached
      rw [ge_iff_le, UInt64.le_iff_toNat_le] at hreached
      exact iff_of_true (UInt64.le_iff_toNat_le.mpr hreached) (by omega)
    · rename_i hshort
      rw [ge_iff_le, UInt64.le_iff_toNat_le] at hshort
      apply ih.trans
      omega

theorem selectInputs_total (h : total.toNat + amounts utxos < 2 ^ 64) :
    (selectInputs required total utxos).2.toNat =
      total.toNat + amounts (selectInputs required total utxos).1 := by
  induction utxos generalizing total with
  | nil => rfl
  | cons u utxos ih =>
    have hsum := Saturating.add_toNat total u.2.amount
    rw [amounts_cons] at h
    unfold selectInputs
    dsimp only
    split
    · change (Saturating.add total u.2.amount).toNat = total.toNat + (u.2.amount.toNat + 0)
      omega
    · rw [amounts_cons, ih (by omega)]
      omega

theorem selectInputs_shortest (hstart : total.toNat < required.toNat)
    (hfunded : required.toNat ≤ total.toNat + amounts utxos) :
    Greedy.Shortest (fun u => u.2.amount.toNat) required.toNat total.toNat utxos
      (selectInputs required total utxos).1 := by
  have hbound := required.toNat_lt
  induction utxos generalizing total with
  | nil => exact absurd hfunded (Nat.not_le.mpr hstart)
  | cons u utxos ih =>
    have hsum := Saturating.add_toNat total u.2.amount
    rw [amounts_cons] at hfunded
    unfold selectInputs
    dsimp only
    split
    · rename_i hreached
      rw [ge_iff_le, UInt64.le_iff_toNat_le] at hreached
      exact .singleton hstart (by omega)
    · rename_i hshort
      rw [ge_iff_le, UInt64.le_iff_toNat_le] at hshort
      -- a sum that is still short has not saturated
      have hexact : (Saturating.add total u.2.amount).toNat = total.toNat + u.2.amount.toNat := by
        omega
      apply Greedy.Shortest.cons
      · omega
      · rw [← hexact]
        exact ih (by omega) (by omega)

/-- In the order they stand, others come before a marked one and reach what is required. -/
def ReachedBefore (marked : List TransactionOutpoint) (required start : ℕ) (utxos : List Utxo) :
    Prop :=
  ∀ before u rest, utxos = before ++ u :: rest → u.1 ∈ marked →
    before ≠ [] ∧ required ≤ start + amounts before

theorem selectInputs_avoids_iff {marked : List TransactionOutpoint} :
    (∀ u ∈ (selectInputs required total utxos).1, u.1 ∉ marked) ↔
      ReachedBefore marked required.toNat total.toNat utxos := by
  induction utxos generalizing total with
  | nil =>
    refine iff_of_true (fun u hu => by cases hu) ?_
    intro before u rest h
    cases before <;> cases h
  | cons v utxos ih =>
    -- the total saturates, but below `required` it is the sum
    have hbound := required.toNat_lt
    have hsum := Saturating.add_toNat total v.2.amount
    have hsplit : ReachedBefore marked required.toNat total.toNat (v :: utxos) ↔
        v.1 ∉ marked ∧ ∀ before u rest, utxos = before ++ u :: rest → u.1 ∈ marked →
          required.toNat ≤ total.toNat + (v.2.amount.toNat + amounts before) := by
      constructor
      · intro h
        refine ⟨fun hv => (h [] v utxos rfl hv).1 rfl, fun before u rest heq hu => ?_⟩
        have hreached := (h (v :: before) u rest (by rw [heq]; rfl) hu).2
        rwa [amounts_cons] at hreached
      · rintro ⟨hv, h⟩ before u rest heq hu
        cases before with
        | nil =>
          obtain ⟨rfl, -⟩ := List.cons.inj heq
          exact absurd hu hv
        | cons w before =>
          obtain ⟨rfl, htail⟩ := List.cons.inj heq
          rw [amounts_cons]
          exact ⟨List.cons_ne_nil _ _, h before u rest htail hu⟩
    rw [hsplit]
    unfold selectInputs
    dsimp only
    split
    · rename_i hreached
      rw [ge_iff_le, UInt64.le_iff_toNat_le] at hreached
      rw [List.forall_mem_singleton]
      refine (and_iff_left ?_).symm
      intro before u rest _ _
      omega
    · rename_i hshort
      rw [ge_iff_le, UInt64.le_iff_toNat_le] at hshort
      rw [List.forall_mem_cons, ih]
      apply and_congr_right
      intro _
      constructor
      · intro h before u rest heq hu
        have hreached := (h before u rest heq hu).2
        omega
      · intro h before u rest heq hu
        have hreached := h before u rest heq hu
        refine ⟨?_, by omega⟩
        -- with nothing before it the marked one is reached while the total is still short
        rintro rfl
        change _ ≤ _ + (_ + 0) at hreached
        omega

end Selection
end Kdapp.CommentBoard
