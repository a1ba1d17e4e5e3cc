import Mathlib.Algebra.GroupWithZero.Nat
import Mathlib.Data.List.Chain
import Mathlib.Data.List.Nodup
import Mathlib.Logic.Function.Basic
import Mathlib.Tactic.Common

/-! Two sides place pieces in turn, each on a square of its own. At most `limit` pieces stay:
the one placed first leaves as the next comes. -/

namespace Turns

inductive Side where
  | first
  | second
deriving DecidableEq

namespace Side

def other : Side → Side
  | first => second
  | second => first

@[simp] theorem other_other (s : Side) : s.other.other = s := by
  cases s <;> rfl

theorem other_ne (s : Side) : s.other ≠ s := by
  cases s <;> nofun

theorem eq_or_eq_other (s t : Side) : s = t ∨ s = t.other := by
  cases s <;> cases t <;> simp [other]

end Side

variable {κ : Type} [DecidableEq κ]

/-- Who placed the piece on a square, where `turn` is to move and `placed` lists the squares,
newest first. -/
def owner (turn : Side) : List κ → κ → Option Side
  | [], _ => none
  | c :: placed, d => if d = c then some turn.other else owner turn.other placed d

theorem owner_eq_none {turn : Side} {placed : List κ} {d : κ} :
    owner turn placed d = none ↔ d ∉ placed := by
  induction placed generalizing turn with
  | nil => simp [owner]
  | cons c placed ih =>
    rw [owner]
    split
    · rename_i h
      simp [h]
    · rename_i h
      rw [ih, List.mem_cons, not_or]
      simp [h]

theorem owner_append_of_mem {turn : Side} {placed : List κ} {d : κ} (rest : List κ)
    (h : d ∈ placed) : owner turn (placed ++ rest) d = owner turn placed d := by
  induction placed generalizing turn with
  | nil => cases h
  | cons c placed ih =>
    rw [List.cons_append, owner, owner]
    split
    · rfl
    · rename_i hne
      apply ih
      exact (List.mem_cons.mp h).resolve_left hne

theorem owner_append_of_not_mem {turn : Side} {placed : List κ} {d : κ} (rest : List κ)
    (h : d ∉ placed) :
    owner turn (placed ++ rest) d =
      owner (if placed.length % 2 = 0 then turn else turn.other) rest d := by
  induction placed generalizing turn with
  | nil => rfl
  | cons c placed ih =>
    obtain ⟨hne, hnot⟩ := not_or.mp (List.mem_cons.not.mp h)
    rw [List.cons_append, owner, if_neg hne, ih hnot, List.length_cons]
    rcases Nat.mod_two_eq_zero_or_one placed.length with hmod | hmod
    · rw [if_pos hmod, if_neg (by omega)]
    · rw [if_neg (by omega), if_pos (by omega), Side.other_other]

theorem owner_cons_of_mem {turn : Side} {placed : List κ} {c d : κ} (h : (c :: placed).Nodup)
    (hd : d ∈ placed) : owner turn (c :: placed) d = owner turn.other placed d := by
  rw [owner, if_neg]
  rintro rfl
  exact (List.nodup_cons.mp h).1 hd

theorem owner_isChain {turn : Side} {placed : List κ} (h : placed.Nodup) :
    placed.IsChain fun c d =>
      ∃ s, owner turn placed c = some s ∧ owner turn placed d = some s.other := by
  induction placed generalizing turn with
  | nil => exact List.isChain_nil
  | cons c placed ih =>
    have hrest := @ih turn.other (List.nodup_cons.mp h).2
    have hkept : placed.IsChain fun d e => ∃ s, owner turn (c :: placed) d = some s ∧
        owner turn (c :: placed) e = some s.other := by
      apply hrest.imp_of_mem_imp
      intro d e hd he howners
      rwa [owner_cons_of_mem h hd, owner_cons_of_mem h he]
    cases placed with
    | nil => exact List.isChain_singleton c
    | cons d placed =>
      refine List.isChain_cons_cons.mpr ⟨⟨turn.other, if_pos rfl, ?_⟩, hkept⟩
      rw [owner_cons_of_mem h List.mem_cons_self]
      exact if_pos rfl

theorem owned_count {turn : Side} {placed : List κ} (h : placed.Nodup) (s : Side) :
    placed.countP (fun d => owner turn placed d = some s) =
      if s = turn then placed.length / 2 else (placed.length + 1) / 2 := by
  induction placed generalizing turn with
  | nil => simp
  | cons c placed ih =>
    have hrest : placed.countP (fun d => owner turn (c :: placed) d = some s) =
        placed.countP (fun d => owner turn.other placed d = some s) := by
      apply List.countP_congr
      intro d hd
      rw [owner_cons_of_mem h hd]
    have hnewest : owner turn (c :: placed) c = some turn.other := if_pos rfl
    have hcount := @ih turn.other (List.nodup_cons.mp h).2
    rw [List.countP_cons, hrest, hcount, hnewest, List.length_cons]
    rcases Side.eq_or_eq_other s turn with rfl | rfl
    · have hne : s ≠ s.other := s.other_ne.symm
      simp [hne, hne.symm]
    · simp [turn.other_ne]
      omega

structure Play (κ : Type) (limit : ℕ) where
  turn : Side
  placed : List κ
  nodup : placed.Nodup
  length_le : placed.length ≤ limit

namespace Play
variable {limit : ℕ}

def opening : Play κ limit where
  turn := .first
  placed := []
  nodup := List.nodup_nil
  length_le := Nat.zero_le limit

variable (p : Play κ limit)

omit [DecidableEq κ] in
theorem ext {p q : Play κ limit} (hturn : p.turn = q.turn) (hplaced : p.placed = q.placed) :
    p = q := by
  cases p
  cases q
  cases hturn
  cases hplaced
  rfl

def owner (d : κ) : Option Side := Turns.owner p.turn p.placed d

def leaving : Option κ := if p.placed.length = limit then p.placed.getLast? else none

def kept : List κ := if p.placed.length = limit then p.placed.dropLast else p.placed

omit [DecidableEq κ] in
theorem kept_append_leaving : p.kept ++ p.leaving.toList = p.placed := by
  unfold kept leaving
  split
  · cases hlast : p.placed.getLast? with
    | none =>
      rw [List.getLast?_eq_none_iff.mp hlast]
      rfl
    | some d => exact List.dropLast_append_getLast? d hlast
  · exact List.append_nil _

omit [DecidableEq κ] in
theorem kept_sublist : p.kept.Sublist p.placed := by
  rw [← p.kept_append_leaving]
  exact List.sublist_append_left _ _

omit [DecidableEq κ] in
theorem mem_placed {d : κ} : d ∈ p.placed ↔ d ∈ p.kept ∨ p.leaving = some d := by
  rw [← p.kept_append_leaving, List.mem_append, Option.mem_toList]

omit [DecidableEq κ] in
theorem not_mem_kept {d : κ} (h : p.leaving = some d) : d ∉ p.kept := by
  have hnodup := p.nodup
  rw [← p.kept_append_leaving, h] at hnodup
  intro hmem
  exact (List.nodup_append.mp hnodup).2.2 d hmem d List.mem_cons_self rfl

omit [DecidableEq κ] in
theorem exists_leaving [NeZero limit] (h : p.placed.length = limit) : ∃ d, p.leaving = some d := by
  unfold leaving
  rw [if_pos h]
  apply Option.ne_none_iff_exists'.mp
  rw [ne_eq, List.getLast?_eq_none_iff]
  rintro hnil
  rw [hnil] at h
  exact NeZero.ne limit h.symm

theorem owner_eq_none {d : κ} : p.owner d = none ↔ d ∉ p.placed := Turns.owner_eq_none

omit [DecidableEq κ] in
theorem kept_length_lt [NeZero limit] : p.kept.length < limit := by
  have hpos : 0 < limit := Nat.pos_of_ne_zero (NeZero.ne limit)
  have hle := p.length_le
  unfold kept
  split
  · rw [List.length_dropLast]
    omega
  · omega

variable [NeZero limit]

def place (c : κ) (h : c ∉ p.placed) : Play κ limit where
  turn := p.turn.other
  placed := c :: p.kept
  nodup := List.nodup_cons.mpr
    ⟨fun hmem => h (p.kept_sublist.subset hmem), p.kept_sublist.nodup p.nodup⟩
  length_le := p.kept_length_lt

theorem owner_place {c : κ} (h : c ∉ p.placed) (d : κ) :
    (p.place c h).owner d =
      if d = c then some p.turn else if p.leaving = some d then none else p.owner d := by
  change (if d = c then some p.turn.other.other else Turns.owner p.turn.other.other p.kept d) = _
  rw [Side.other_other]
  apply if_congr Iff.rfl rfl
  split
  · rename_i hleaving
    exact Turns.owner_eq_none.mpr (p.not_mem_kept hleaving)
  · rename_i hstays
    by_cases hd : d ∈ p.kept
    · have hsame : Turns.owner p.turn (p.kept ++ p.leaving.toList) d =
          Turns.owner p.turn p.kept d := owner_append_of_mem _ hd
      rw [p.kept_append_leaving] at hsame
      exact hsame.symm
    · rw [Turns.owner_eq_none.mpr hd, eq_comm, owner_eq_none, mem_placed]
      exact not_or.mpr ⟨hd, hstays⟩

omit [NeZero limit] in
theorem owner_of_leaving (heven : limit % 2 = 0) {d : κ} (h : p.leaving = some d) :
    p.owner d = some p.turn := by
  have hlen : p.kept.length + 1 = limit := by
    have happend := congrArg List.length p.kept_append_leaving
    rw [h, List.length_append] at happend
    unfold leaving at h
    split at h
    · rename_i hfull
      exact happend.trans hfull
    · cases h
  unfold owner
  rw [← p.kept_append_leaving, h, owner_append_of_not_mem _ (p.not_mem_kept h), if_neg (by omega)]
  simp [Turns.owner]

theorem owner_of_place {c : κ} {h : c ∉ p.placed} {d : κ}
    (howner : (p.place c h).owner d = some p.turn.other) : p.owner d = some p.turn.other := by
  rw [owner_place] at howner
  split at howner
  · exact absurd (Option.some.inj howner).symm p.turn.other_ne
  · split at howner
    · cases howner
    · exact howner

section Boards
variable {α : Type} (mark : Option Side → α)

abbrev Painted (b : κ → α) : Prop := ∀ d, b d = mark (p.owner d)

abbrev Cleared (b : κ → α) : Prop :=
  ∀ d, b d = if p.leaving = some d then mark none else mark (p.owner d)

variable {p mark} {b : κ → α} {c : κ} {h : c ∉ p.placed}

omit [NeZero limit] in
theorem Painted.cleared_of_none (hb : p.Painted mark b) (hleaving : p.leaving = none) :
    p.Cleared mark b := by
  intro d
  rw [hb, hleaving, if_neg nofun]

omit [NeZero limit] in
theorem Painted.clear (hb : p.Painted mark b) (hleaving : p.leaving = some c) :
    p.Cleared mark (Function.update b c (mark none)) := by
  intro d
  rw [Function.update_apply, hb, hleaving]
  by_cases hd : d = c
  · rw [if_pos hd, if_pos (congrArg some hd.symm)]
  · rw [if_neg hd, if_neg fun heq => hd (Option.some.inj heq).symm]

theorem Cleared.place (hb : p.Cleared mark b) :
    (p.place c h).Painted mark (Function.update b c (mark (some p.turn))) := by
  intro d
  rw [Function.update_apply, hb, owner_place]
  split
  · rfl
  · split <;> rfl

theorem Painted.unplace (hb : (p.place c h).Painted mark b) :
    p.Cleared mark (Function.update b c (mark none)) := by
  have hnone : p.owner c = none := p.owner_eq_none.mpr h
  intro d
  rw [Function.update_apply, hb, owner_place]
  by_cases hd : d = c
  · rw [if_pos hd, hd, hnone, ite_self]
  · rw [if_neg hd, if_neg hd]
    split <;> rfl

omit [NeZero limit] in
theorem Cleared.painted_of_none (hb : p.Cleared mark b) (hleaving : p.leaving = none) :
    p.Painted mark b := by
  intro d
  rw [hb, hleaving, if_neg nofun]

omit [NeZero limit] in
theorem Cleared.restore (hb : p.Cleared mark b) (heven : limit % 2 = 0)
    (hleaving : p.leaving = some c) :
    p.Painted mark (Function.update b c (mark (some p.turn))) := by
  intro d
  rw [Function.update_apply, hb, hleaving]
  by_cases hd : d = c
  · rw [if_pos hd, hd, p.owner_of_leaving heven hleaving]
  · rw [if_neg hd, if_neg fun heq => hd (Option.some.inj heq).symm]

end Boards

end Play
end Turns
