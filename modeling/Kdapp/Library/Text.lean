import Mathlib.Data.List.Basic
import Mathlib.Tactic.Common

/-! Numbers and rows written as text, and what reading them back gives. -/

namespace Text

theorem digitChar_toNat {d : ℕ} (h : d < 10) :
    (Nat.digitChar d).isDigit = true ∧ (Nat.digitChar d).toNat - 48 = d := by
  have hall : ∀ d < 10, (Nat.digitChar d).isDigit = true ∧ (Nat.digitChar d).toNat - 48 = d := by
    decide
  exact hall d h

theorem foldlM_toDigits {m : Type → Type} [Monad m] [LawfulMonad m] (addDigit : ℕ → Char → m ℕ)
    {n : ℕ} (hadd : ∀ k (c : Char), c.isDigit = true → 10 * k + (c.toNat - 48) ≤ n →
      addDigit k c = pure (10 * k + (c.toNat - 48))) :
    (Nat.toDigits 10 n).foldlM addDigit 0 = pure n := by
  induction n using Nat.strongRecOn with
  | ind n ih =>
    rcases Nat.lt_or_ge n 10 with hsmall | hlarge
    · obtain ⟨hchar, hvalue⟩ := digitChar_toNat hsmall
      have hstep := hadd 0 _ hchar (by omega)
      rw [hvalue, Nat.mul_zero, Nat.zero_add] at hstep
      rw [Nat.toDigits_of_lt_base hsmall, List.foldlM_cons, hstep, pure_bind, List.foldlM_nil]
    · obtain ⟨hchar, hvalue⟩ := digitChar_toNat (Nat.mod_lt n (by decide : 0 < 10))
      have hfirst : n / 10 < n := Nat.div_lt_self (by omega) (by decide)
      have hstep := hadd (n / 10) _ hchar (by omega)
      rw [hvalue, Nat.div_add_mod] at hstep
      have hfront := ih (n / 10) hfirst fun k c hc hle => hadd k c hc (by omega)
      rw [Nat.toDigits_of_base_le (by decide) hlarge, List.foldlM_append, hfront, pure_bind,
        List.foldlM_cons, hstep, pure_bind, List.foldlM_nil]

theorem not_mem_toDigits {c : Char} (hc : c.isDigit = false) (n : ℕ) :
    c ∉ Nat.toDigits 10 n := by
  intro hmem
  have hdigit := Nat.isDigit_of_mem_toDigits (by decide) (by decide) hmem
  exact Bool.false_ne_true (hc.symm.trans hdigit)

def withoutReturn (line : List Char) : List Char :=
  if line.getLast? = some '\r' then line.dropLast else line

def lines (text : List Char) : List (List Char) :=
  let parts := text.splitOn '\n'
  parts.dropLast.map withoutReturn ++ parts.getLast?.toList.filter fun line => line ≠ []

def unlines (rows : List (List Char)) : List Char := rows.flatMap fun row => row ++ ['\n']

theorem splitOn_unlines {rows : List (List Char)} (h : ∀ row ∈ rows, '\n' ∉ row) :
    (unlines rows).splitOn '\n' = rows ++ [[]] := by
  induction rows with
  | nil => rfl
  | cons row rows ih =>
    have hrow := h row List.mem_cons_self
    have hrows := ih fun row' hmem => h row' (List.mem_cons_of_mem row hmem)
    rw [unlines, List.flatMap_cons, List.append_assoc, List.singleton_append,
      List.splitOn_append_cons_self_of_not_mem hrow, ← unlines, hrows, List.cons_append]

theorem lines_unlines {rows : List (List Char)} (hend : ∀ row ∈ rows, '\n' ∉ row)
    (hreturn : ∀ row ∈ rows, '\r' ∉ row) : lines (unlines rows) = rows := by
  have hkept : rows.map withoutReturn = rows := by
    refine (List.map_congr_left fun row hrow => ?_).trans (List.map_id rows)
    apply if_neg
    intro hlast
    exact hreturn row hrow (List.mem_of_getLast? hlast)
  rw [lines, splitOn_unlines hend, List.dropLast_concat, hkept, List.getLast?_concat]
  exact List.append_nil rows

theorem splitOn_pair {c : Char} {a b : List Char} (ha : c ∉ a) (hb : c ∉ b) :
    (a ++ c :: b).splitOn c = [a, b] := by
  rw [List.splitOn_append_cons_self_of_not_mem ha, List.splitOn_eq_singleton hb]

end Text
