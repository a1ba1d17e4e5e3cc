import Mathlib.Data.List.Basic
import Mathlib.Order.Basic
import Mathlib.Tactic.Common

/-! Counting what happened within a window before now. Of each list of times only those are kept
that were still within the window when the last one came in. -/

namespace SlidingWindow

variable {T : Type} [LE T] (recent : T → T → Bool)

def Shows (seen kept all : List T) : Prop :=
  ∀ now, (∀ t ∈ seen, t ≤ now) → kept.filter (recent now) = all.filter (recent now)

variable {recent} {seen kept all : List T}

theorem Shows.nil : Shows recent [] [] [] := fun _ _ => rfl

theorem Shows.seen_concat (h : Shows recent seen kept all) (t : T) :
    Shows recent (seen ++ [t]) kept all := by
  intro now hnow
  exact h now fun s hs => hnow s (List.mem_append_left _ hs)

theorem Shows.push (hmono : ∀ now later t, now ≤ later → recent later t = true →
    recent now t = true) (h : Shows recent seen kept all) (t : T) :
    Shows recent (seen ++ [t]) ((kept ++ [t]).filter (recent t)) (all ++ [t]) := by
  intro now hnow
  have ht : t ≤ now := hnow t (List.mem_append_right _ List.mem_cons_self)
  have hkept : ((kept ++ [t]).filter (recent t)).filter (recent now) =
      (kept ++ [t]).filter (recent now) := by
    rw [List.filter_filter]
    apply List.filter_congr
    intro s _
    apply Bool.eq_iff_iff.mpr
    rw [Bool.and_eq_true]
    constructor
    · intro hboth
      exact hboth.1
    · intro hrecent
      exact ⟨hrecent, hmono t now s ht hrecent⟩
  rw [hkept, List.filter_append, List.filter_append, h.seen_concat t now hnow]

end SlidingWindow
