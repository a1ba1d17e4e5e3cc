import Mathlib.Algebra.Group.Nat.Defs
import Mathlib.Order.Basic
import Mathlib.Order.Nat

/-! Coins that are spent one behind the other: each transaction spends what the one before it
left over. -/

namespace Change
variable {Coin Tx : Type} {Spends : Coin → Tx → Coin → Prop} {first coin : Coin}
  {spent : List (Coin × Tx)} {worth : Coin → ℕ} {fee : ℕ}

inductive Chain (Spends : Coin → Tx → Coin → Prop) (first : Coin) :
    Coin → List (Coin × Tx) → Prop
  | start : Chain Spends first first []
  | spend {coin tx left spent} (h : Chain Spends first coin spent) (htx : Spends coin tx left) :
    Chain Spends first left (spent ++ [(coin, tx)])

def Exact (Spends : Coin → Tx → Coin → Prop) (worth : Coin → ℕ) (fee : ℕ) : Prop :=
  ∀ coin tx left, Spends coin tx left → fee ≤ worth coin → worth left + fee = worth coin

namespace Chain

theorem spends (h : Chain Spends first coin spent) : ∀ p ∈ spent, ∃ left, Spends p.1 p.2 left := by
  induction h with
  | start =>
    intro p hp
    cases hp
  | @spend coin tx left spent h htx ih =>
    rw [List.forall_mem_append, List.forall_mem_singleton]
    exact ⟨ih, left, htx⟩

theorem worth_left (hexact : Exact Spends worth fee) (h : Chain Spends first coin spent)
    (hcovered : ∀ p ∈ spent, fee ≤ worth p.1) :
    worth coin + spent.length * fee = worth first := by
  induction h with
  | start => rw [List.length_nil, Nat.zero_mul, Nat.add_zero]
  | @spend coin tx left spent h htx ih =>
    rw [List.forall_mem_append, List.forall_mem_singleton] at hcovered
    have hbefore := ih hcovered.1
    have hleft := hexact coin tx left htx hcovered.2
    rw [List.length_append, List.length_singleton, Nat.succ_mul]
    omega

theorem covered_iff (hexact : Exact Spends worth fee) (h : Chain Spends first coin spent) :
    (∀ p ∈ spent, fee ≤ worth p.1) ↔ spent.length * fee ≤ worth first := by
  induction h with
  | start => simp
  | @spend coin tx left spent h htx ih =>
    rw [List.forall_mem_append, List.forall_mem_singleton, List.length_append,
      List.length_singleton, Nat.succ_mul]
    constructor
    · intro ⟨hearlier, hlast⟩
      have hbefore := h.worth_left hexact hearlier
      have hlast : fee ≤ worth coin := hlast
      omega
    · intro hall
      -- what the earlier fees leave of the first coin is what the last coin is worth
      have hearlier := ih.mpr ((Nat.le_add_right _ _).trans hall)
      have hbefore := h.worth_left hexact hearlier
      refine ⟨hearlier, ?_⟩
      change fee ≤ worth coin
      omega

end Chain
end Change
