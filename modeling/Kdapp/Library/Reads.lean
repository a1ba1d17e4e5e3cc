import Mathlib.Data.List.Basic
import Mathlib.Tactic.Common

/-! Receivers that take every read from a stream for one frame. Such a receiver gets all the
frames of a stream only where the reads are the frames. -/

namespace Reads
variable {α : Type} {accepts : List α → Bool} {d : ℕ}

def taken (accepts : List α → Bool) : List (List α) → ℕ
  | [] => 0
  | c :: chunks => if accepts c then taken accepts chunks + 1 else 0

/-- A read that starts inside a frame is accepted, if at all, right before the next frame, and
is longer than what it has left of its own. -/
structure Strict (accepts : List α → Bool) (d : ℕ) (f : List α) : Prop where
  whole : ∀ c rest, accepts c = true → c ++ rest = f → rest = []
  inside : ∀ s t c rest, f = s ++ t → s ≠ [] → accepts c = true → c <+: t ++ rest →
    t.length ≤ d

theorem taken_cons_of_accepts {c : List α} {chunks : List (List α)} (h : accepts c = true) :
    taken accepts (c :: chunks) = taken accepts chunks + 1 := if_pos h

theorem taken_cons_of_refuses {c : List α} {chunks : List (List α)} (h : ¬ accepts c = true) :
    taken accepts (c :: chunks) = 0 := if_neg h

theorem drop_flatten (frames : List (List α)) {n : ℕ} (hn : 0 < n)
    (hle : n ≤ frames.flatten.length) :
    ∃ f ∈ frames, ∃ s t later, f = s ++ t ∧ s ≠ [] ∧ later <:+ frames ∧
      later.length < frames.length ∧ frames.flatten.drop n = t ++ later.flatten := by
  induction frames generalizing n with
  | nil => exact absurd hle (Nat.not_le_of_lt hn)
  | cons f frames ih =>
    rw [List.flatten_cons, List.length_append] at hle
    rcases Nat.lt_or_ge f.length n with hlong | hshort
    · obtain ⟨f', hf', s, t, later, hsplit, hs, hsuffix, hlen, hdrop⟩ :=
        ih (n := n - f.length) (by omega) (by omega)
      refine ⟨f', List.mem_cons_of_mem _ hf', s, t, later, hsplit, hs,
        hsuffix.trans (List.suffix_cons f frames), Nat.lt_succ_of_lt hlen, ?_⟩
      rw [List.flatten_cons, List.drop_append, List.drop_of_length_le (Nat.le_of_lt hlong),
        List.nil_append]
      exact hdrop
    · refine ⟨f, List.mem_cons_self, f.take n, f.drop n, frames, (List.take_append_drop n f).symm,
        ?_, List.suffix_cons f frames, Nat.lt_succ_self _, ?_⟩
      · intro hnil
        have hlength := congrArg List.length hnil
        rw [List.length_take, Nat.min_eq_left hshort] at hlength
        exact absurd hlength (Nat.ne_of_gt hn)
      · rw [List.flatten_cons, List.drop_append_of_le_length hshort]

theorem taken_le {chunks frames : List (List α)} {f s t : List α}
    (hd : ∀ c, accepts c = true → d < c.length) (hf : Strict accepts d f)
    (hsplit : f = s ++ t) (hs : s ≠ []) (hframes : ∀ f ∈ frames, Strict accepts d f)
    (hchunks : chunks.flatten = t ++ frames.flatten) : taken accepts chunks ≤ frames.length := by
  induction chunks generalizing frames f s t with
  | nil => exact Nat.zero_le _
  | cons c chunks ih =>
    by_cases hc : accepts c = true
    · rw [List.flatten_cons] at hchunks
      have hleft : t.length ≤ d :=
        hf.inside s t c frames.flatten hsplit hs hc ⟨chunks.flatten, hchunks⟩
      have hlong : t.length < c.length := Nat.lt_of_le_of_lt hleft (hd c hc)
      -- the read reaches into the next frame
      have hrest : chunks.flatten = frames.flatten.drop (c.length - t.length) := by
        have hdrop := congrArg (List.drop c.length) hchunks
        rwa [List.drop_left, List.drop_append, List.drop_of_length_le (Nat.le_of_lt hlong),
          List.nil_append] at hdrop
      have hlength := congrArg List.length hchunks
      rw [List.length_append, List.length_append] at hlength
      obtain ⟨f', hf', s', t', later, hsplit', hs', hsuffix, hfewer, hdrop⟩ :=
        drop_flatten frames (n := c.length - t.length) (by omega) (by omega)
      have hle := ih (hframes f' hf') hsplit' hs' (fun f hmem => hframes f (hsuffix.subset hmem))
        (hrest.trans hdrop)
      rw [taken_cons_of_accepts hc]
      exact Nat.lt_of_le_of_lt hle hfewer
    · rw [taken_cons_of_refuses hc]
      exact Nat.zero_le _

theorem eq_of_taken {chunks frames : List (List α)}
    (hd : ∀ c, accepts c = true → d < c.length) (hframes : ∀ f ∈ frames, Strict accepts d f)
    (hnonempty : ∀ c ∈ chunks, c ≠ []) (hchunks : chunks.flatten = frames.flatten)
    (htaken : frames.length ≤ taken accepts chunks) : chunks = frames := by
  induction chunks generalizing frames with
  | nil => exact (List.length_eq_zero_iff.mp (Nat.le_zero.mp htaken)).symm
  | cons c chunks ih =>
    obtain ⟨hc, hothers⟩ := List.forall_mem_cons.mp hnonempty
    cases frames with
    | nil =>
      rw [List.flatten_cons] at hchunks
      exact absurd (List.append_eq_nil_iff.mp hchunks).1 hc
    | cons f frames =>
      obtain ⟨hf, hlater⟩ := List.forall_mem_cons.mp hframes
      -- an accepted read is the next frame; a refused one can never be made up for
      by_cases haccepts : accepts c = true
      · rw [taken_cons_of_accepts haccepts, List.length_cons, Nat.succ_le_succ_iff] at htaken
        rw [List.flatten_cons, List.flatten_cons] at hchunks
        rcases List.append_eq_append_iff.mp hchunks with ⟨r, hfr, hrest⟩ | ⟨r, hcr, hrest⟩
        · -- no more than the frame
          obtain rfl := hf.whole c r haccepts hfr.symm
          rw [List.append_nil] at hfr
          rw [hfr, ih hlater hothers hrest htaken]
        · by_cases hr : r = []
          · subst hr
            rw [List.append_nil] at hcr
            rw [hcr, ih hlater hothers hrest.symm htaken]
          · -- the read has lost the beginning of a later frame
            have hpos : 0 < r.length := List.length_pos_of_ne_nil hr
            have hlength := congrArg List.length hrest
            rw [List.length_append] at hlength
            obtain ⟨f', hf', s, t, later, hsplit, hs, hsuffix, hfewer, hdrop⟩ :=
              drop_flatten frames (n := r.length) hpos (by omega)
            have hleft : chunks.flatten = t ++ later.flatten := by
              rw [← hdrop, hrest, List.drop_left]
            have hle := taken_le hd (hlater f' hf') hsplit hs
              (fun f hmem => hlater f (hsuffix.subset hmem)) hleft
            omega
      · rw [taken_cons_of_refuses haccepts, List.length_cons] at htaken
        exact absurd htaken (Nat.not_succ_le_zero _)

end Reads
