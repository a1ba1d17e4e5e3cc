import Mathlib.Data.Set.Insert
import Mathlib.Logic.Function.Basic
import Mathlib.Tactic.Common

/-! Keys that stand in a set from the moment they are taken until they are given back, and the two
ways in which the set and the holders come apart. -/

namespace Guards

variable {ι K : Type}

structure State (ι K : Type) where
  pending : Set K
  holds : ι → Option K

/-- A step, and the key that slips in it: who leaves without a word leaves its key in the set, and
who removes a key twice takes it from its next holder. -/
inductive Step [DecidableEq ι] (s : State ι K) : Option K → State ι K → Prop
  | stay : Step s none s
  | take {i : ι} {k : K} (hidle : s.holds i = none) (hfree : k ∉ s.pending) :
    Step s none ⟨insert k s.pending, Function.update s.holds i (some k)⟩
  | release {i : ι} {k : K} (hi : s.holds i = some k) :
    Step s none ⟨s.pending \ {k}, Function.update s.holds i none⟩
  | lose {i : ι} {k : K} (hi : s.holds i = some k) :
    Step s (some k) ⟨s.pending, Function.update s.holds i none⟩
  | stray {k : K} (hk : k ∈ s.pending) : Step s (some k) ⟨s.pending \ {k}, s.holds⟩

structure State.Kept (s : State ι K) (k : K) : Prop where
  alone : ∀ i j, s.holds i = some k → s.holds j = some k → i = j
  pending : k ∈ s.pending ↔ ∃ i, s.holds i = some k

variable {s s' : State ι K} {i : ι} {k k' : K}

theorem State.Kept.empty : State.Kept (⟨∅, fun _ => none⟩ : State ι K) k where
  alone i j hi := by cases hi
  pending := by
    constructor
    · exact fun h => absurd h (Set.notMem_empty k)
    · rintro ⟨i, hi⟩
      cases hi

theorem State.Kept.congr (h : s.Kept k) (hpending : k ∈ s'.pending ↔ k ∈ s.pending)
    (hholds : ∀ j, s'.holds j = some k ↔ s.holds j = some k) : s'.Kept k where
  alone i j hi hj := h.alone i j ((hholds i).mp hi) ((hholds j).mp hj)
  pending := by
    rw [hpending, h.pending]
    simp only [hholds]

variable [DecidableEq ι]

theorem update_iff {holds : ι → Option K} {x : Option K} {j : ι} :
    Function.update holds i x j = some k ↔ i = j ∧ x = some k ∨ i ≠ j ∧ holds j = some k := by
  by_cases hj : j = i
  · subst hj
    rw [Function.update_self]
    simp
  · rw [Function.update_of_ne hj]
    simp [Ne.symm hj]

theorem update_none_iff {holds : ι → Option K} {j : ι} :
    Function.update holds i none j = some k ↔ i ≠ j ∧ holds j = some k := by
  rw [update_iff]
  simp

theorem update_other {x : Option K} (hx : x ≠ some k) (hi : s.holds i ≠ some k) (j : ι) :
    Function.update s.holds i x j = some k ↔ s.holds j = some k := by
  rw [update_iff]
  constructor
  · rintro (⟨-, hsame⟩ | ⟨-, hj⟩)
    · exact absurd hsame hx
    · exact hj
  · intro hj
    refine .inr ⟨?_, hj⟩
    rintro rfl
    exact hi hj

namespace State.Kept

theorem take (h : s.Kept k) (hidle : s.holds i = none) (hfree : k' ∉ s.pending) :
    State.Kept ⟨insert k' s.pending, Function.update s.holds i (some k')⟩ k := by
  by_cases hk : k' = k
  · subst hk
    have hnobody : ∀ j, s.holds j ≠ some k' := fun j hj => hfree (h.pending.mpr ⟨j, hj⟩)
    constructor
    · intro a b ha hb
      rcases update_iff.mp ha with ⟨rfl, -⟩ | ⟨-, ha⟩
      · rcases update_iff.mp hb with ⟨rfl, -⟩ | ⟨-, hb⟩
        · rfl
        · exact absurd hb (hnobody b)
      · exact absurd ha (hnobody a)
    · exact iff_of_true (Set.mem_insert k' s.pending) ⟨i, update_iff.mpr (.inl ⟨rfl, rfl⟩)⟩
  · have hother : s.holds i ≠ some k := by
      rw [hidle]
      exact nofun
    apply h.congr
    · exact Set.mem_insert_iff.trans (or_iff_right (Ne.symm hk))
    · exact update_other (fun hsame => hk (Option.some.inj hsame)) hother

theorem release (h : s.Kept k) (hi : s.holds i = some k') :
    State.Kept ⟨s.pending \ {k'}, Function.update s.holds i none⟩ k := by
  constructor
  · intro a b ha hb
    exact h.alone a b (update_none_iff.mp ha).2 (update_none_iff.mp hb).2
  · constructor
    · rintro ⟨hk, hne⟩
      obtain ⟨j, hj⟩ := h.pending.mp hk
      refine ⟨j, update_none_iff.mpr ⟨?_, hj⟩⟩
      rintro rfl
      rw [hi] at hj
      exact hne (Option.some.inj hj).symm
    · rintro ⟨j, hafter⟩
      obtain ⟨hij, hj⟩ := update_none_iff.mp hafter
      refine ⟨h.pending.mpr ⟨j, hj⟩, ?_⟩
      rintro rfl
      exact hij (h.alone i j hi hj)

theorem lose_iff (h : s.Kept k) (hi : s.holds i = some k') :
    State.Kept ⟨s.pending, Function.update s.holds i none⟩ k ↔ k' ≠ k := by
  constructor
  · rintro hlost rfl
    obtain ⟨j, hj⟩ := hlost.pending.mp (h.pending.mpr ⟨i, hi⟩)
    obtain ⟨hij, hj⟩ := update_none_iff.mp hj
    exact hij (h.alone i j hi hj)
  · intro hk
    have hother : s.holds i ≠ some k := by
      rw [hi]
      exact fun hsame => hk (Option.some.inj hsame)
    exact h.congr Iff.rfl (update_other nofun hother)

omit [DecidableEq ι] in
theorem stray_iff (h : s.Kept k) (hk : k' ∈ s.pending) :
    State.Kept ⟨s.pending \ {k'}, s.holds⟩ k ↔ k' ≠ k := by
  constructor
  · rintro hstray rfl
    exact (hstray.pending.mpr (h.pending.mp hk)).2 rfl
  · intro hne
    refine h.congr ?_ fun j => Iff.rfl
    exact and_iff_left (fun hsame => hne (Set.mem_singleton_iff.mp hsame).symm)

theorem step_iff {slip : Option K} (h : s.Kept k) (hstep : Step s slip s') :
    s'.Kept k ↔ slip ≠ some k := by
  cases hstep with
  | stay => exact iff_of_true h nofun
  | take hidle hfree => exact iff_of_true (h.take hidle hfree) nofun
  | release hi => exact iff_of_true (h.release hi) nofun
  | lose hi =>
    rw [h.lose_iff hi]
    exact not_congr (Option.some_inj).symm
  | stray hk =>
    rw [h.stray_iff hk]
    exact not_congr (Option.some_inj).symm

end State.Kept
end Guards
