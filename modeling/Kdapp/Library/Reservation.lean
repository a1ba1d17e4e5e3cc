import Mathlib.Data.Set.Insert
import Mathlib.Logic.Function.Basic
import Mathlib.Tactic.Common

/-! Resources that are found free in one step and taken in another: others may find the same one in
between. -/

namespace Reservation

variable {ι R : Type}

inductive Claim (R : Type) where
  | found (r : R)
  | held (r : R)

def Claim.resource : Claim R → R
  | .found r => r
  | .held r => r

structure State (ι R : Type) where
  taken : Set R
  claims : ι → Option (Claim R)

inductive Step [DecidableEq ι] (s : State ι R) : Option R → State ι R → Prop
  | stay : Step s none s
  | find {i : ι} {r : R} (h : s.claims i = none) (hfree : r ∉ s.taken) :
    Step s (some r) { s with claims := Function.update s.claims i (some (.found r)) }
  | take {i : ι} {r : R} (h : s.claims i = some (.found r)) :
    Step s none ⟨insert r s.taken, Function.update s.claims i (some (.held r))⟩
  | release {i : ι} {r : R} (h : s.claims i = some (.held r)) :
    Step s none ⟨s.taken \ {r}, Function.update s.claims i none⟩
  | lose {i : ι} : Step s none { s with claims := Function.update s.claims i none }

def Apart (claims : ι → Option (Claim R)) : Prop :=
  ∀ i j c d, claims i = some c → claims j = some d → c.resource = d.resource → i = j

structure State.Exclusive (s : State ι R) : Prop where
  apart : Apart s.claims
  taken : ∀ i r, s.claims i = some (.held r) → r ∈ s.taken

variable [DecidableEq ι] {claims : ι → Option (Claim R)} {s s' : State ι R} {i j : ι}

theorem claimed_of_update {x : Option (Claim R)} {c : Claim R}
    (h : Function.update claims i x j = some c) :
    i = j ∧ x = some c ∨ i ≠ j ∧ claims j = some c := by
  by_cases hj : j = i
  · subst hj
    rw [Function.update_self] at h
    exact .inl ⟨rfl, h⟩
  · rw [Function.update_of_ne hj] at h
    exact .inr ⟨Ne.symm hj, h⟩

theorem Apart.erase (h : Apart claims) (i : ι) : Apart (Function.update claims i none) := by
  intro j k c d hj hk
  rcases claimed_of_update hj with ⟨-, hnone⟩ | ⟨-, hj⟩
  · cases hnone
  rcases claimed_of_update hk with ⟨-, hnone⟩ | ⟨-, hk⟩
  · cases hnone
  exact h j k c d hj hk

theorem Apart.insert (h : Apart claims) {c : Claim R}
    (hnew : ∀ j d, claims j = some d → d.resource = c.resource → i = j) :
    Apart (Function.update claims i (some c)) := by
  intro j k d e hj hk hsame
  rcases claimed_of_update hj with ⟨rfl, hd⟩ | ⟨-, hj⟩
  · obtain rfl := Option.some.inj hd
    rcases claimed_of_update hk with ⟨rfl, -⟩ | ⟨-, hk⟩
    · rfl
    · exact hnew k e hk hsame.symm
  · rcases claimed_of_update hk with ⟨rfl, he⟩ | ⟨-, hk⟩
    · obtain rfl := Option.some.inj he
      exact (hnew j d hj hsame).symm
    · exact h j k d e hj hk hsame

theorem State.Exclusive.step {new : Option R} (h : s.Exclusive) (hstep : Step s new s')
    (halone : ∀ r, new = some r → ∀ j, s.claims j ≠ some (.found r)) : s'.Exclusive := by
  cases hstep with
  | stay => exact h
  | @find i r hnone hfree =>
    constructor
    · apply h.apart.insert
      intro j d hj hsame
      -- another may have found it but not taken it yet, which `halone` rules out
      cases d with
      | found r' =>
        obtain rfl : r' = r := hsame
        exact absurd hj (halone r' rfl j)
      | held r' =>
        obtain rfl : r' = r := hsame
        exact absurd (h.taken j r' hj) hfree
    · intro j r' hj
      rcases claimed_of_update hj with ⟨-, hheld⟩ | ⟨-, hj⟩
      · cases hheld
      · exact h.taken j r' hj
  | @take i r hi =>
    constructor
    · apply h.apart.insert
      intro j d hj hsame
      exact h.apart i j _ d hi hj hsame.symm
    · intro j r' hj
      rcases claimed_of_update hj with ⟨-, hheld⟩ | ⟨-, hj⟩
      · cases hheld
        exact Set.mem_insert r s.taken
      · exact Set.mem_insert_of_mem r (h.taken j r' hj)
  | @release i r hi =>
    refine ⟨h.apart.erase i, fun j r' hj => ?_⟩
    rcases claimed_of_update hj with ⟨-, hnone⟩ | ⟨hother, hj⟩
    · cases hnone
    -- what is released was held by nobody else
    refine ⟨h.taken j r' hj, fun hsame => hother ?_⟩
    exact h.apart i j _ _ hi hj (Set.mem_singleton_iff.mp hsame).symm
  | @lose i =>
    refine ⟨h.apart.erase i, fun j r' hj => ?_⟩
    rcases claimed_of_update hj with ⟨-, hnone⟩ | ⟨-, hj⟩
    · cases hnone
    · exact h.taken j r' hj

end Reservation
