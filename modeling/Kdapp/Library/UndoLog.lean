import Mathlib.Tactic.Common

/-! Systems that log their changes and take the newest one back. A run of such a system is
compared with a book: what the changes still in the log, applied in order, lead to. -/

namespace UndoLog
variable {S R B : Type}

/-- The changes in the log, newest first, lead from the first book to `b`. -/
inductive Chain (Applies : R → B → B → Prop) (b₀ : B) : List R → B → Prop
  | nil : Chain Applies b₀ [] b₀
  | cons {log r b b'} (h : Chain Applies b₀ log b) (hr : Applies r b b') :
    Chain Applies b₀ (r :: log) b'

namespace Chain
variable {Applies : R → B → B → Prop} {b₀ b : B} {log : List R}

theorem invariant {P : B → Prop} (h₀ : P b₀) (hstep : ∀ r b b', Applies r b b' → P b → P b')
    (h : Chain Applies b₀ log b) : P b := by
  induction h with
  | nil => exact h₀
  | cons h hr ih => exact hstep _ _ _ hr ih

theorem mono {Applies' : R → B → B → Prop} (h : Chain Applies b₀ log b)
    (hmono : ∀ r b b', Applies r b b' → Applies' r b b') : Chain Applies' b₀ log b := by
  induction h with
  | nil => exact .nil
  | cons h hr ih => exact ih.cons (hmono _ _ _ hr)

theorem uncons {r : R} (h : Chain Applies b₀ (r :: log) b) :
    ∃ b', Chain Applies b₀ log b' ∧ Applies r b' b := by
  cases h with
  | cons h hr => exact ⟨_, h, hr⟩

theorem exists_change {Q : B → Prop} (h₀ : ¬ Q b₀) (h : Chain Applies b₀ log b) (hQ : Q b) :
    ∃ r ∈ log, ∃ log' b₁ b₂, Chain Applies b₀ log' b₁ ∧ Applies r b₁ b₂ ∧ ¬ Q b₁ ∧ Q b₂ := by
  induction h with
  | nil => exact absurd hQ h₀
  | @cons log r b b' h hr ih =>
    by_cases hb : Q b
    · obtain ⟨r', hr', hrest⟩ := ih hb
      exact ⟨r', List.mem_cons_of_mem _ hr', hrest⟩
    · exact ⟨r, List.mem_cons_self, log, b, b', h, hr, hb, hQ⟩

end Chain

inductive Run (exec undo : R → S → S → Prop) (s₀ : S) : List R → S → Prop
  | start : Run exec undo s₀ [] s₀
  | exec {log r s s'} (h : Run exec undo s₀ log s) (hr : exec r s s') :
    Run exec undo s₀ (r :: log) s'
  | undo {log r s s'} (h : Run exec undo s₀ (r :: log) s) (hr : undo r s s') :
    Run exec undo s₀ log s'

/-- Simulation: if every change of a related state is one of the book, and every undo takes
the book back, then a reachable state is related to the book its log leads to. -/
theorem Run.simulates {exec undo : R → S → S → Prop} {Applies : R → B → B → Prop}
    {Q : S → B → Prop} {s₀ s : S} {b₀ : B} {log : List R} (h₀ : Q s₀ b₀)
    (hexec : ∀ r s s' b, Q s b → exec r s s' → ∃ b', Applies r b b' ∧ Q s' b')
    (hundo : ∀ r s s' b b', Applies r b b' → Q s b' → undo r s s' → Q s' b)
    (h : Run exec undo s₀ log s) : ∃ b, Chain Applies b₀ log b ∧ Q s b := by
  induction h with
  | start => exact ⟨b₀, .nil, h₀⟩
  | exec h hr ih =>
    obtain ⟨b, hchain, hQ⟩ := ih
    obtain ⟨b', happlies, hQ'⟩ := hexec _ _ _ b hQ hr
    exact ⟨b', hchain.cons happlies, hQ'⟩
  | undo h hr ih =>
    obtain ⟨b, hchain, hQ⟩ := ih
    obtain ⟨b', hrest, happlies⟩ := hchain.uncons
    exact ⟨b', hrest, hundo _ _ _ b' b happlies hQ hr⟩

end UndoLog
