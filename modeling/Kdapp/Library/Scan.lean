import Mathlib.Data.List.Basic
import Mathlib.Tactic.Common

/-! Loops that push what they find and stop once a limit is reached. The length of what was
pushed is looked at inside the loop, not before it: a limit of zero still visits something. -/

namespace Scan
variable {α β : Type}

/-- `push` is what the body pushes for an element; `looks`, whether it looks at the length. -/
def run (push : α → Option β) (looks : α → Bool) (limit : ℕ) : List α → List β → List β
  | [], out => out
  | x :: xs, out =>
    let out := out ++ (push x).toList
    if looks x ∧ limit ≤ out.length then out else run push looks limit xs out

def collect (push : α → Option β) (looks : α → Bool) (limit : ℕ) (xs : List α) : List β :=
  run push looks limit xs []

def Attentive (push : α → Option β) (looks : α → Bool) : Prop :=
  ∀ x, looks x = false → push x = none

theorem attentive_always (push : α → Option β) : Attentive push fun _ => true := by
  intro x hx
  cases hx

variable {push : α → Option β} {looks : α → Bool} {limit : ℕ}

theorem collect_congr {γ : Type} {push' : γ → Option β} {looks' : γ → Bool} {xs : List α}
    {ys : List γ} (h : List.Forall₂ (fun x y => push x = push' y ∧ looks x = looks' y) xs ys)
    (limit : ℕ) : collect push looks limit xs = collect push' looks' limit ys := by
  unfold collect
  generalize ([] : List β) = out
  induction h generalizing out with
  | nil => rfl
  | cons hxy _ ih => rw [run, run, hxy.1, hxy.2, ih]

theorem collect_filter (h : Attentive push looks) (limit : ℕ) (xs : List α) :
    collect push looks limit xs = collect push looks limit (xs.filter looks) := by
  unfold collect
  generalize ([] : List β) = out
  induction xs generalizing out with
  | nil => rfl
  | cons x xs ih =>
    cases hx : looks x with
    | false =>
      rw [List.filter_cons_of_neg (by rw [hx]; exact Bool.false_ne_true), run, h x hx, hx, ← ih,
        Option.toList_none, List.append_nil]
      exact if_neg fun hstop => Bool.false_ne_true hstop.1
    | true => rw [List.filter_cons_of_pos hx, run, run, ih]

theorem run_eq (h : Attentive push looks) {xs : List α} {out : List β}
    (hout : out.length < limit) :
    run push looks limit xs out = (out ++ xs.filterMap push).take limit := by
  induction xs generalizing out with
  | nil =>
    rw [List.filterMap_nil, List.append_nil, List.take_of_length_le (Nat.le_of_lt hout)]
    rfl
  | cons x xs ih =>
    have hcons : out ++ (x :: xs).filterMap push =
        out ++ (push x).toList ++ xs.filterMap push := by
      rw [List.append_assoc]
      congr 1
      rcases hpush : push x with _ | b
      · rw [List.filterMap_cons_none hpush]
        rfl
      · rw [List.filterMap_cons_some hpush]
        rfl
    rw [hcons, run]
    split
    · rename_i hstop
      -- Only one element was pushed, so that the limit is just reached.
      have hlen : (out ++ (push x).toList).length = limit := by
        have hone : (push x).toList.length ≤ 1 := by
          cases push x <;> simp
        have hmin := hstop.2
        rw [List.length_append] at hmin ⊢
        omega
      rw [List.take_append_of_le_length (Nat.le_of_eq hlen.symm), ← hlen, List.take_length]
    · rename_i hgo
      apply ih
      by_contra hfull
      apply hgo
      refine ⟨?_, Nat.le_of_not_lt hfull⟩
      by_contra hquiet
      have hnone : push x = none := h x (Bool.eq_false_iff.mpr hquiet)
      rw [hnone] at hfull
      apply hfull
      rw [Option.toList_none, List.append_nil]
      exact hout

theorem collect_eq (h : Attentive push looks) (hlimit : 1 ≤ limit) (xs : List α) :
    collect push looks limit xs = (xs.filterMap push).take limit :=
  run_eq h hlimit

theorem collect_zero (h : Attentive push looks) (xs : List α) :
    collect push looks 0 xs = ((xs.filter looks).take 1).filterMap push := by
  unfold collect
  induction xs with
  | nil => rfl
  | cons x xs ih =>
    rw [run]
    cases hx : looks x with
    | false =>
      rw [List.filter_cons_of_neg (by rw [hx]; exact Bool.false_ne_true), ← ih, h x hx]
      rfl
    | true =>
      rw [List.filter_cons_of_pos hx, if_pos ⟨rfl, Nat.zero_le _⟩]
      cases hpush : push x <;> simp [hpush]

theorem collect_pushing (h : Attentive push looks) (limit : ℕ) {xs : List α}
    (hpush : ∀ x ∈ xs, looks x = true → (push x).isSome = true) :
    collect push looks limit xs = (xs.filterMap push).take (max limit 1) := by
  rcases Nat.eq_zero_or_pos limit with rfl | hlimit
  · rw [collect_zero h]
    induction xs with
    | nil => rfl
    | cons x xs ih =>
      obtain ⟨hx, hxs⟩ := List.forall_mem_cons.mp hpush
      cases hlooks : looks x with
      | false =>
        rw [List.filterMap_cons_none (h x hlooks), ← ih hxs]
        simp only [List.filter_cons, hlooks, Bool.false_eq_true, if_false]
      | true =>
        obtain ⟨b, hb⟩ := Option.isSome_iff_exists.mp (hx hlooks)
        rw [List.filterMap_cons_some hb]
        simp [hlooks, hb]
  · rw [collect_eq h hlimit, Nat.max_eq_left hlimit]

end Scan
