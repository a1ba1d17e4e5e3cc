import Kdapp.Library.Transition
import Kdapp.Library.UndoLog

/-! Systems that execute commands and take the newest one back with the token that its execution
returned. The rollbacks of a run are exact as soon as each is exact right after its command. -/

namespace Rewind
open Transition InOrder UndoLog

variable {S C T B : Type}

structure Machine (S C T : Type) where
  execute : S → C → S × Option T
  rollback : S → T → S × Bool

structure Record (S C T : Type) where
  before : S
  command : C
  token : T

structure Node (S C T : Type) where
  state : S
  log : List (Record S C T)

inductive Event (C : Type) where
  | call (c : C)
  | rollback

namespace Machine
variable (M : Machine S C T)

def step (node : Node S C T) : Event C → Node S C T
  | .call c =>
    match M.execute node.state c with
    | (state, some token) => ⟨state, ⟨node.state, c, token⟩ :: node.log⟩
    | (state, none) => { node with state }
  | .rollback =>
    match node.log with
    | r :: log => ⟨(M.rollback node.state r.token).1, log⟩
    | [] => node

def run (s : S) (events : List (Event C)) : Node S C T := after M.step ⟨s, []⟩ events

def Atomic : Prop := ∀ s c s', M.execute s c = (s', none) → s' = s

def Executes (r : Record S C T) (s s' : S) : Prop :=
  r.before = s ∧ M.execute s r.command = (s', some r.token)

def Undoes (r : Record S C T) (s s' : S) : Prop := s' = (M.rollback s r.token).1

def Restores (node : Node S C T) : Prop :=
  ∀ r ∈ node.log.head?, M.rollback node.state r.token = (r.before, true)

def AllRestored (s : S) (events : List (Event C)) : Prop :=
  Throughout (fun earlier e => e = .rollback → M.Restores (M.run s earlier)) events

def AllUndoable (Undoable : S → C → Prop) (s : S) (events : List (Event C)) : Prop :=
  Throughout (fun earlier e => e = .rollback →
    ∀ r ∈ (M.run s earlier).log.head?, Undoable r.before r.command) events

variable {M} {s s₀ : S} {node : Node S C T} {events : List (Event C)}

theorem run_concat (s : S) (events : List (Event C)) (e : Event C) :
    M.run s (events ++ [e]) = M.step (M.run s events) e := after_concat events e

theorem step_rollback {r : Record S C T} {log : List (Record S C T)} (h : node.log = r :: log) :
    M.step node .rollback = ⟨(M.rollback node.state r.token).1, log⟩ := by
  simp only [step, h]

theorem step_rollback_nil (h : node.log = []) : M.step node .rollback = node := by
  simp only [step, h]

theorem step_call (hatomic : M.Atomic) (node : Node S C T) (c : C) :
    M.step node (.call c) = node ∨
      ∃ r : Record S C T, r.command = c ∧ M.Executes r node.state (M.step node (.call c)).state ∧
        (M.step node (.call c)).log = r :: node.log := by
  cases hexec : M.execute node.state c with
  | mk state token =>
    cases token with
    | none =>
      left
      have hsame : state = node.state := hatomic _ _ _ hexec
      simp only [step, hexec, hsame]
    | some token =>
      right
      refine ⟨⟨node.state, c, token⟩, rfl, ⟨rfl, ?_⟩, ?_⟩
      · simp only [step, hexec]
      · simp only [step, hexec]

theorem runs (hatomic : M.Atomic) (s : S) (events : List (Event C)) :
    Run M.Executes M.Undoes s (M.run s events).log (M.run s events).state := by
  induction events using List.reverseRecOn with
  | nil => exact .start
  | append_singleton events e ih =>
    rw [run_concat]
    cases e with
    | call c =>
      rcases step_call hatomic (M.run s events) c with hsame | ⟨r, -, hexec, hlog⟩
      · rw [hsame]
        exact ih
      · rw [hlog]
        exact ih.exec hexec
    | rollback =>
      cases hlog : (M.run s events).log with
      | nil =>
        rw [step_rollback_nil hlog]
        exact ih
      | cons r log =>
        rw [step_rollback hlog]
        rw [hlog] at ih
        exact ih.undo rfl

theorem allRestored_concat {e : Event C} : M.AllRestored s (events ++ [e]) ↔
    M.AllRestored s events ∧ (e = .rollback → M.Restores (M.run s events)) :=
  Throughout.concat

theorem allUndoable_concat {Undoable : S → C → Prop} {e : Event C} :
    M.AllUndoable Undoable s (events ++ [e]) ↔ M.AllUndoable Undoable s events ∧
      (e = .rollback → ∀ r ∈ (M.run s events).log.head?, Undoable r.before r.command) :=
  Throughout.concat

section Exactness

variable {Q : S → Prop} {Undoable : S → C → Prop} (hatomic : M.Atomic)
  (hkeep : ∀ s c s' t, Q s → M.execute s c = (s', some t) → Q s')
  (hiff : ∀ s c s' t, Q s → M.execute s c = (s', some t) →
    (M.rollback s' t = (s, true) ↔ Undoable s c))
include hkeep hiff

theorem restores_iff (hs : Q s) (h : Chain M.Executes s node.log node.state) :
    M.Restores node ↔ ∀ r ∈ node.log.head?, Undoable r.before r.command := by
  apply forall₂_congr
  intro r hr
  obtain ⟨log, hlog⟩ : ∃ log, node.log = r :: log := List.head?_eq_some_iff.mp hr
  rw [hlog] at h
  obtain ⟨b, hrest, hbefore, hexec⟩ := h.uncons
  have hb : Q b :=
    hrest.invariant hs fun r b b' hr hQ => hkeep b r.command b' r.token hQ hr.2
  rw [hbefore]
  exact hiff b r.command node.state r.token hb hexec

include hatomic

theorem allRestored_iff_allUndoable (hs : Q s) (events : List (Event C)) :
    M.AllRestored s events ↔ M.AllUndoable Undoable s events := by
  -- the log is needed beside the claim: as long as all was restored, it leads to the state
  have hboth : (M.AllRestored s events ↔ M.AllUndoable Undoable s events) ∧
      (M.AllRestored s events →
        Chain M.Executes s (M.run s events).log (M.run s events).state) := by
    induction events using List.reverseRecOn with
    | nil => exact ⟨iff_of_true Throughout.nil Throughout.nil, fun _ => .nil⟩
    | append_singleton events e ih =>
      obtain ⟨hsame, hchain⟩ := ih
      rw [allRestored_concat, allUndoable_concat, ← hsame, run_concat]
      constructor
      · apply and_congr_right
        intro hrestored
        rw [restores_iff hkeep hiff hs (hchain hrestored)]
      · rintro ⟨hrestored, hlast⟩
        have hrest := hchain hrestored
        cases e with
        | call c =>
          rcases step_call hatomic (M.run s events) c with hrefused | ⟨r, -, hexec, hlog⟩
          · rw [hrefused]
            exact hrest
          · rw [hlog]
            exact hrest.cons hexec
        | rollback =>
          cases hlog : (M.run s events).log with
          | nil =>
            rw [step_rollback_nil hlog]
            exact hrest
          | cons r log =>
            have hrestores : M.rollback (M.run s events).state r.token = (r.before, true) := by
              apply hlast rfl
              rw [hlog]
              rfl
            rw [hlog] at hrest
            obtain ⟨b, htail, hbefore, -⟩ := hrest.uncons
            rw [step_rollback hlog, hrestores, hbefore]
            exact htail
  exact hboth.1

end Exactness
end Machine
end Rewind
