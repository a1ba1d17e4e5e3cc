import Kdapp.Library.InOrder
import Mathlib.Data.List.Induction
import Mathlib.Tactic.Common

/-! Runs of a system that takes steps and puts something out. Which steps are allowed may depend
on the state and on all that was put out before. -/

namespace Transition

variable {S A O : Type} {step : S → A → Option (S × List O)} {allowed : List O → S → A → Prop}
  {s₀ s s' : S} {outs outs' : List O}

inductive Run (step : S → A → Option (S × List O)) (allowed : List O → S → A → Prop) (s₀ : S) :
    List O → S → Prop
  | start : Run step allowed s₀ [] s₀
  | step {outs s act s' new} (h : Run step allowed s₀ outs s) (hallowed : allowed outs s act)
    (hstep : step s act = some (s', new)) : Run step allowed s₀ (outs ++ new) s'

theorem Run.invariant {P : List O → S → Prop} (h₀ : P [] s₀)
    (hkeep : ∀ outs s act s' new, P outs s → allowed outs s act → step s act = some (s', new) →
      P (outs ++ new) s')
    (h : Run step allowed s₀ outs s) : P outs s := by
  induction h with
  | start => exact h₀
  | step h hallowed hstep ih => exact hkeep _ _ _ _ _ ih hallowed hstep

/-- Carries on a run that has put out `outs`, as long as the steps are allowed. -/
def runActs (step : S → A → Option (S × List O)) (allowed : List O → S → A → Prop)
    [∀ outs s act, Decidable (allowed outs s act)] (outs : List O) (s : S) :
    List A → Option (S × List O)
  | [] => some (s, outs)
  | act :: acts =>
    if allowed outs s act then
      (step s act).bind fun p => runActs step allowed (outs ++ p.2) p.1 acts
    else none

theorem Run.runActs [∀ outs s act, Decidable (allowed outs s act)] {acts : List A}
    (h : Run step allowed s₀ outs s)
    (hacts : runActs step allowed outs s acts = some (s', outs')) :
    Run step allowed s₀ outs' s' := by
  induction acts generalizing outs s with
  | nil =>
    cases hacts
    exact h
  | cons act acts ih =>
    obtain ⟨hallowed, hrest⟩ := Option.ite_none_right_eq_some.mp hacts
    obtain ⟨⟨t, new⟩, hstep, htail⟩ := Option.bind_eq_some_iff.mp hrest
    exact ih (h.step hallowed hstep) htail

section Events
open InOrder

variable {E : Type} (next : S → E → S) (s₀ : S)

def after (events : List E) : S := events.foldl next s₀

def Always (P : S → Prop) (events : List E) : Prop := ∀ n, P (after next s₀ (events.take n))

variable {next s₀}

theorem after_concat (events : List E) (e : E) :
    after next s₀ (events ++ [e]) = next (after next s₀ events) e := by
  rw [after, List.foldl_append]
  rfl

theorem after_of_throughout {Q : S → Prop} {C : S → E → Prop} (h₀ : Q s₀)
    (hkeep : ∀ s e, Q s → C s e → Q (next s e)) {events : List E}
    (h : Throughout (fun earlier e => C (after next s₀ earlier) e) events) :
    Q (after next s₀ events) := by
  induction events using List.reverseRecOn with
  | nil => exact h₀
  | append_singleton events e ih =>
    obtain ⟨hearlier, hlast⟩ := Throughout.concat.mp h
    rw [after_concat]
    exact hkeep _ e (ih hearlier) hlast

theorem always_concat {P : S → Prop} {events : List E} {e : E} :
    Always next s₀ P (events ++ [e]) ↔
      Always next s₀ P events ∧ P (next (after next s₀ events) e) := by
  constructor
  · intro h
    constructor
    · intro n
      rcases Nat.le_total n events.length with hn | hn
      · have hP := h n
        rwa [List.take_append_of_le_length hn] at hP
      · have hP := h events.length
        rw [List.take_left' rfl] at hP
        rwa [List.take_of_length_le hn]
    · have hP := h (events.length + 1)
      rw [List.take_of_length_le (by rw [List.length_append]; exact Nat.le_refl _),
        after_concat] at hP
      exact hP
  · rintro ⟨h, hlast⟩ n
    rcases Nat.lt_or_ge events.length n with hn | hn
    · rw [List.take_of_length_le (by rw [List.length_append]; exact hn), after_concat]
      exact hlast
    · rw [List.take_append_of_le_length hn]
      exact h n

/-- Where an invariant says of each event that may happen (`M`) when it keeps `P`, these
conditions together are what it takes for `P` to hold all along. -/
theorem always_iff_of_possible {P Q : S → Prop} {M C : S → E → Prop} (hP₀ : P s₀)
    (hQ₀ : Q s₀) (hkeep : ∀ s e, P s → Q s → M s e → C s e → Q (next s e))
    (hiff : ∀ s e, P s → Q s → M s e → (P (next s e) ↔ C s e)) (events : List E)
    (hpossible : Throughout (fun earlier e => M (after next s₀ earlier) e) events) :
    Always next s₀ P events ↔
      Throughout (fun earlier e => C (after next s₀ earlier) e) events := by
  have hboth : (Always next s₀ P events ↔
        Throughout (fun earlier e => C (after next s₀ earlier) e) events) ∧
      (Always next s₀ P events → P (after next s₀ events) ∧ Q (after next s₀ events)) := by
    induction events using List.reverseRecOn with
    | nil =>
      refine ⟨iff_of_true (fun n => ?_) Throughout.nil, fun _ => ⟨hP₀, hQ₀⟩⟩
      rw [List.take_nil]
      exact hP₀
    | append_singleton events e ih =>
      obtain ⟨hearlier, he⟩ := Throughout.concat.mp hpossible
      obtain ⟨hcond, hstate⟩ := ih hearlier
      rw [always_concat, Throughout.concat, after_concat, hcond]
      constructor
      · apply and_congr_right
        intro h
        obtain ⟨hP, hQ⟩ := hstate (hcond.mpr h)
        exact hiff _ e hP hQ he
      · rintro ⟨h, hlast⟩
        obtain ⟨hP, hQ⟩ := hstate (hcond.mpr h)
        exact ⟨hlast, hkeep _ e hP hQ he ((hiff _ e hP hQ he).mp hlast)⟩
  exact hboth.1

theorem always_iff_throughout {P Q : S → Prop} {C : S → E → Prop} (hP₀ : P s₀) (hQ₀ : Q s₀)
    (hkeep : ∀ s e, P s → Q s → C s e → Q (next s e))
    (hiff : ∀ s e, P s → Q s → (P (next s e) ↔ C s e)) (events : List E) :
    Always next s₀ P events ↔
      Throughout (fun earlier e => C (after next s₀ earlier) e) events :=
  always_iff_of_possible (M := fun _ _ => True) hP₀ hQ₀ (fun s e hP hQ _ => hkeep s e hP hQ)
    (fun s e hP hQ _ => hiff s e hP hQ) events fun _ _ _ => trivial

end Events

end Transition
