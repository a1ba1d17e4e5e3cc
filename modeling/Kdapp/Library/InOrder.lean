import Mathlib.Data.List.Basic
import Mathlib.Tactic.Common

/-! Receivers that take the messages of each sender in order: the first message of a sender opens
its sequence, each later one carries the number after that of the one before. -/

namespace InOrder
variable {κ ν μ : Type} [DecidableEq κ] (key : μ → κ)

def sentBy (k : κ) (l : List μ) : List μ := l.filter fun m => decide (key m = k)

variable (number : μ → ν) (opens : μ → Prop) (nth : ℕ → ν)

/-- Each sender's messages are numbered along `nth`, and just the first opens the sequence. -/
def Ordered (l : List μ) : Prop :=
  ∀ (k : κ) (i : ℕ) (m : μ), (sentBy key k l)[i]? = some m → number m = nth i ∧ (opens m ↔ i = 0)

variable {key number opens nth} {l : List μ} {m last : μ} {k : κ}

section Last
variable (key l m)

theorem sentBy_concat_self : sentBy key (key m) (l ++ [m]) = sentBy key (key m) l ++ [m] := by
  have hkept : [m].filter (fun m' => decide (key m' = key m)) = [m] :=
    List.filter_cons_of_pos (decide_eq_true rfl)
  rw [sentBy, List.filter_append, hkept, sentBy]

theorem getLast?_concat_self : (sentBy key (key m) (l ++ [m])).getLast? = some m := by
  rw [sentBy_concat_self, List.getLast?_concat]

variable {m}

theorem sentBy_concat_of_ne (h : key m ≠ k) : sentBy key k (l ++ [m]) = sentBy key k l := by
  rw [sentBy, List.filter_append, List.filter_cons_of_neg (by simpa using h)]
  exact List.append_nil _

end Last

namespace Ordered

theorem nil : Ordered key number opens nth [] := fun _ _ _ h => by cases h

theorem concat (h : Ordered key number opens nth l)
    (hnumber : number m = nth (sentBy key (key m) l).length)
    (hopens : opens m ↔ (sentBy key (key m) l).length = 0) :
    Ordered key number opens nth (l ++ [m]) := by
  intro k i m' hm'
  by_cases hk : key m = k
  · subst hk
    rw [sentBy_concat_self] at hm'
    -- the new message stands right after those of its sender
    rcases Nat.lt_trichotomy i (sentBy key (key m) l).length with hi | hi | hi
    · rw [List.getElem?_append_left hi] at hm'
      exact h _ i m' hm'
    · rw [hi, List.getElem?_concat_length] at hm'
      obtain rfl := Option.some.inj hm'
      rw [hi]
      exact ⟨hnumber, hopens⟩
    · rw [List.getElem?_eq_none (by rw [List.length_append]; exact hi)] at hm'
      cases hm'
  · rw [sentBy_concat_of_ne key l hk] at hm'
    exact h k i m' hm'

theorem opened (h : Ordered key number opens nth l)
    (hlast : (sentBy key (key m) l).getLast? = none) (hnumber : number m = nth 0)
    (hopens : opens m) : Ordered key number opens nth (l ++ [m]) := by
  rw [List.getLast?_eq_none_iff] at hlast
  apply h.concat
  · rw [hlast]
    exact hnumber
  · rw [hlast]
    exact iff_of_true hopens rfl

theorem next (h : Ordered key number opens nth l)
    (hlast : (sentBy key (key m) l).getLast? = some last) (succ : ν → ν)
    (hsucc : ∀ i, nth (i + 1) = succ (nth i)) (hnumber : number m = succ (number last))
    (hopens : ¬ opens m) : Ordered key number opens nth (l ++ [m]) := by
  have hpos : 0 < (sentBy key (key m) l).length := by
    apply List.length_pos_of_ne_nil
    rintro hnil
    rw [hnil] at hlast
    cases hlast
  obtain ⟨n, hn⟩ := Nat.exists_eq_succ_of_ne_zero (Nat.ne_of_gt hpos)
  have hget : (sentBy key (key m) l)[n]? = some last := by
    rw [List.getLast?_eq_getElem?, hn] at hlast
    exact hlast
  apply h.concat
  · rw [hn, hsucc, ← (h _ n last hget).1, hnumber]
  · rw [hn]
    exact iff_of_false hopens (Nat.succ_ne_zero n)

theorem index_unique (h : Ordered key number opens nth l) {i j : ℕ} {m' : μ}
    (hi : (sentBy key k l)[i]? = some m) (hj : (sentBy key k l)[j]? = some m')
    (hnumber : number m = number m')
    (hnth : ∀ i j, i < l.length → j < l.length → nth i = nth j → i = j) : i = j := by
  have hlt : ∀ {a : ℕ} {b : μ}, (sentBy key k l)[a]? = some b → a < l.length := by
    intro a b ha
    exact Nat.lt_of_lt_of_le (List.getElem?_eq_some_iff.mp ha).1 (List.length_filter_le _ _)
  apply hnth i j (hlt hi) (hlt hj)
  rw [← (h k i m hi).1, ← (h k j m' hj).1, hnumber]

end Ordered

def Throughout {α : Type} (P : List α → α → Prop) (l : List α) : Prop :=
  ∀ (i : ℕ) (a : α), l[i]? = some a → P (l.take i) a

namespace Throughout
variable {α : Type} {P : List α → α → Prop}

theorem nil : Throughout P [] := fun _ _ h => by cases h

theorem congr {P' : List α → α → Prop} {l : List α}
    (h : ∀ earlier, ∀ a ∈ l, (P earlier a ↔ P' earlier a)) : Throughout P l ↔ Throughout P' l := by
  constructor
  · intro hP i a ha
    exact (h _ a (List.mem_of_getElem? ha)).mp (hP i a ha)
  · intro hP i a ha
    exact (h _ a (List.mem_of_getElem? ha)).mpr (hP i a ha)

theorem concat {l : List α} {a : α} : Throughout P (l ++ [a]) ↔ Throughout P l ∧ P l a := by
  constructor
  · intro h
    constructor
    · intro i b hb
      obtain ⟨hi, -⟩ := List.getElem?_eq_some_iff.mp hb
      have hP := h i b (by rw [List.getElem?_append_left hi, hb])
      rwa [List.take_append_of_le_length (Nat.le_of_lt hi)] at hP
    · have hP := h l.length a List.getElem?_concat_length
      rwa [List.take_left' rfl] at hP
  · rintro ⟨hl, ha⟩ i b hb
    rcases Nat.lt_trichotomy i l.length with hi | hi | hi
    · rw [List.getElem?_append_left hi] at hb
      rw [List.take_append_of_le_length (Nat.le_of_lt hi)]
      exact hl i b hb
    · rw [hi, List.getElem?_concat_length] at hb
      cases hb
      rw [List.take_left' hi.symm]
      exact ha
    · rw [List.getElem?_eq_none (by rw [List.length_append]; exact hi)] at hb
      cases hb

instance [∀ l a, Decidable (P l a)] (l : List α) : Decidable (Throughout P l) :=
  decidable_of_iff (∀ i : Fin l.length, P (l.take i) l[i])
    ⟨fun h i a ha => by
      obtain ⟨hi, rfl⟩ := List.getElem?_eq_some_iff.mp ha
      exact h ⟨i, hi⟩,
    fun h i => h i l[i] (List.getElem?_eq_getElem i.isLt)⟩

end Throughout
end InOrder
