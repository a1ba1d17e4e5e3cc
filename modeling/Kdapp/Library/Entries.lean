import Kdapp.Library.Outcome
import Std.Data.String.ToNat

/-! The entries of a finite map written out as a list, and keys that hold a decimal number. -/

namespace FiniteMap
open Std (ExtTreeMap TransOrd LawfulEqOrd)

variable {κ ν : Type} [Ord κ] [TransOrd κ]

structure Holds (m : ExtTreeMap κ ν) (entries : List (κ × ν)) : Prop where
  distinct : (entries.map Prod.fst).Nodup
  getElem?_iff : ∀ k v, m[k]? = some v ↔ (k, v) ∈ entries

namespace Holds
variable {m : ExtTreeMap κ ν} {entries : List (κ × ν)} {k : κ} {v : ν}

theorem empty : Holds (∅ : ExtTreeMap κ ν) [] where
  distinct := List.nodup_nil
  getElem?_iff k v := by
    rw [ExtTreeMap.getElem?_empty]
    exact iff_of_false (fun h => by cases h) List.not_mem_nil

theorem getElem?_eq_none (h : Holds m entries) (hk : k ∉ entries.map Prod.fst) :
    m[k]? = none := by
  cases hv : m[k]? with
  | none => rfl
  | some v => exact absurd (List.mem_map_of_mem ((h.getElem?_iff k v).mp hv)) hk

theorem mem_of_insert (h : Holds (m.insert k v) entries) : k ∈ entries.map Prod.fst :=
  List.mem_map_of_mem ((h.getElem?_iff k v).mp ExtTreeMap.getElem?_insert_self)

variable [LawfulEqOrd κ]

theorem insert (h : Holds m entries) (hk : k ∉ entries.map Prod.fst) (v : ν) :
    Holds (m.insert k v) (entries ++ [(k, v)]) where
  distinct := by
    rw [List.map_append, List.nodup_append]
    refine ⟨h.distinct, List.pairwise_singleton _ _, ?_⟩
    intro a ha b hb hab
    rw [List.map_singleton, List.mem_singleton] at hb
    rw [hab, hb] at ha
    exact hk ha
  getElem?_iff a w := by
    rw [List.mem_append, List.mem_singleton]
    by_cases hak : k = a
    · subst hak
      rw [ExtTreeMap.getElem?_insert_self]
      constructor
      · intro hw
        rw [Option.some.inj hw]
        exact .inr rfl
      · rintro (hmem | hlast)
        · exact absurd (List.mem_map_of_mem hmem) hk
        · rw [(Prod.mk.inj hlast).2]
    · rw [getElem?_insert_of_ne hak, h.getElem?_iff]
      constructor
      · exact .inl
      · rintro (hmem | hlast)
        · exact hmem
        · exact absurd (Prod.mk.inj hlast).1.symm hak

theorem erase_absent (h : Holds m entries) (hk : k ∉ entries.map Prod.fst) :
    Holds (m.erase k) entries where
  distinct := h.distinct
  getElem?_iff a w := by
    by_cases hak : k = a
    · subst hak
      rw [ExtTreeMap.getElem?_erase_self, ← h.getElem?_iff, h.getElem?_eq_none hk]
    · rw [getElem?_erase_of_ne hak, h.getElem?_iff]

theorem erase_last (h : Holds m (entries ++ [(k, v)])) : Holds (m.erase k) entries := by
  have hdistinct := h.distinct
  rw [List.map_append, List.nodup_append] at hdistinct
  obtain ⟨hentries, -, hdisjoint⟩ := hdistinct
  have hk : k ∉ entries.map Prod.fst := fun hmem =>
    hdisjoint k hmem k (List.mem_singleton_self k) rfl
  refine ⟨hentries, fun a w => ?_⟩
  by_cases hak : k = a
  · subst hak
    rw [ExtTreeMap.getElem?_erase_self]
    exact iff_of_false (fun h => by cases h) fun hmem => hk (List.mem_map_of_mem hmem)
  · rw [getElem?_erase_of_ne hak, h.getElem?_iff, List.mem_append, List.mem_singleton]
    constructor
    · rintro (hmem | hlast)
      · exact hmem
      · exact absurd (Prod.mk.inj hlast).1.symm hak
    · exact .inl

end Holds
end FiniteMap

namespace Decimal

theorem takeWhile_repr (n : ℕ) {c : Char} (hc : c.isDigit = false) (rest : List Char) :
    (n.repr.toList ++ c :: rest).takeWhile Char.isDigit = n.repr.toList := by
  have hdigits : ∀ d ∈ n.repr.toList, d.isDigit = true := by
    intro d hd
    rw [Nat.toList_repr] at hd
    exact Nat.isDigit_of_mem_toDigits (by decide) (by decide) hd
  rw [List.takeWhile_append_of_pos hdigits, List.takeWhile_cons_of_neg (by rw [hc]; decide),
    List.append_nil]

theorem repr_append_inj {n n' : ℕ} {c : Char} (hc : c.isDigit = false) {rest rest' : List Char}
    (h : n.repr.toList ++ c :: rest = n'.repr.toList ++ c :: rest') : n = n' := by
  have hdigits := congrArg (List.takeWhile Char.isDigit) h
  rw [takeWhile_repr n hc, takeWhile_repr n' hc] at hdigits
  exact Nat.repr_injective (String.toList_inj.mp hdigits)

end Decimal
