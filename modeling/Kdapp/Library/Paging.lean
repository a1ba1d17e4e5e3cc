import Mathlib.Data.List.Basic
import Mathlib.Tactic.Common

/-! Reading a list page by page, each page from where the stamp of the last element before it left
off. Elements may share a stamp. -/

namespace Paging
variable {α τ : Type} [LE τ] [LT τ] [DecidableLT τ] (stamp : α → τ)

/-- Asks for pages until one is empty; `none` where a page fails or the fuel runs out. -/
def browse (page : τ → Option (List α)) : ℕ → τ → Option (List α)
  | 0, _ => none
  | fuel + 1, cursor => do
    let found ← page cursor
    match found.getLast? with
    | none => some []
    | some last => (browse page fuel (stamp last)).map (found ++ ·)

def Complete (page : τ → Option (List α)) (cursor : τ) (l : List α) : Prop :=
  ∃ fuel out, browse stamp page fuel cursor = some out ∧ out.Perm l

def beyond (limit : ℕ) (l : List α) (cursor : τ) : List α :=
  (l.filter fun a => decide (cursor < stamp a)).take limit

def fullCursor (limit : ℕ) (cursor : τ) (l : List α) : τ :=
  ((l.take (l.length / limit * limit)).getLast?.map stamp).getD cursor

def Aligned (limit : ℕ) (l : List α) : Prop :=
  ∀ (k : ℕ) (a b : α), 0 < k → l[k * limit - 1]? = some a → l[k * limit]? = some b →
    stamp a < stamp b

variable {stamp} {page : τ → Option (List α)} {cursor : τ} {limit : ℕ}
  {l foreign out out' : List α}

omit [LE τ] [LT τ] [DecidableLT τ] in
theorem browse_unique {fuel fuel' : ℕ} (h : browse stamp page fuel cursor = some out)
    (h' : browse stamp page fuel' cursor = some out') : out = out' := by
  induction fuel generalizing fuel' cursor out out' with
  | zero => cases h
  | succ fuel ih =>
    rcases fuel' with _ | fuel'
    · cases h'
    · obtain ⟨found, hfound, hrest⟩ := Option.bind_eq_some_iff.mp h
      obtain ⟨found', hfound', hrest'⟩ := Option.bind_eq_some_iff.mp h'
      obtain rfl := Option.some.inj (hfound.symm.trans hfound')
      cases hlast : found.getLast? with
      | none =>
        rw [hlast] at hrest hrest'
        exact Option.some.inj (hrest.symm.trans hrest')
      | some last =>
        rw [hlast] at hrest hrest'
        obtain ⟨more, hmore, rfl⟩ := Option.map_eq_some_iff.mp hrest
        obtain ⟨more', hmore', rfl⟩ := Option.map_eq_some_iff.mp hrest'
        rw [ih hmore hmore']

omit [LE τ] [LT τ] [DecidableLT τ] in
theorem browse_more {fuel : ℕ} {found : List α} {last : α} (hpage : page cursor = some found)
    (hlast : found.getLast? = some last) (hmore : browse stamp page fuel (stamp last) = some out) :
    browse stamp page (fuel + 1) cursor = some (found ++ out) := by
  rw [browse, hpage]
  simp only [Option.bind_eq_bind, Option.bind_some, hlast, hmore, Option.map_some]

omit [LE τ] [DecidableLT τ] in
theorem aligned_drop_iff (hlimit : 1 ≤ limit) :
    Aligned stamp limit l ↔
      (∀ a b, l[limit - 1]? = some a → l[limit]? = some b → stamp a < stamp b) ∧
        Aligned stamp limit (l.drop limit) := by
  constructor
  · intro h
    constructor
    · intro a b ha hb
      exact h 1 a b Nat.one_pos (by rwa [Nat.one_mul]) (by rwa [Nat.one_mul])
    · intro k a b hk ha hb
      rw [List.getElem?_drop] at ha hb
      have hpos : 1 ≤ k * limit := Nat.mul_pos hk hlimit
      apply h (k + 1) a b (Nat.succ_pos k)
      · rw [Nat.succ_mul, ← ha]
        congr 1
        omega
      · rw [Nat.succ_mul, ← hb]
        congr 1
        omega
  · rintro ⟨hfirst, hrest⟩ k a b hk ha hb
    rcases k with _ | _ | k
    · cases hk
    · rw [Nat.zero_add, Nat.one_mul] at ha hb
      exact hfirst a b ha hb
    · have hpos : 1 ≤ (k + 1) * limit := Nat.mul_pos (Nat.succ_pos k) hlimit
      apply hrest (k + 1) a b (Nat.succ_pos k)
      · rw [List.getElem?_drop, ← ha, Nat.succ_mul (k + 1)]
        congr 1
        omega
      · rw [List.getElem?_drop, ← hb, Nat.succ_mul (k + 1)]
        congr 1
        omega

omit [LE τ] [DecidableLT τ] in
theorem aligned_of_short (h : l.length < limit) : Aligned stamp limit l := by
  intro k a b hk _ hb
  have hend := (List.getElem?_eq_some_iff.mp hb).1
  have hpos := Nat.le_mul_of_pos_left limit hk
  omega

omit [LE τ] [LT τ] [DecidableLT τ] in
theorem fullCursor_of_short (h : l.length < limit) : fullCursor stamp limit cursor l = cursor := by
  rw [fullCursor, Nat.div_eq_of_lt h, Nat.zero_mul, List.take_zero]
  rfl

omit [LE τ] [LT τ] [DecidableLT τ] in
theorem fullCursor_drop (hlimit : 1 ≤ limit) (hfull : limit ≤ l.length) {last : α}
    (hlast : (l.take limit).getLast? = some last) :
    fullCursor stamp limit cursor l = fullCursor stamp limit (stamp last) (l.drop limit) := by
  have hpages : l.length / limit * limit = limit + (l.drop limit).length / limit * limit := by
    rw [List.length_drop, Nat.div_eq_sub_div hlimit hfull, Nat.succ_mul, Nat.add_comm]
  rw [fullCursor, fullCursor, hpages, List.take_add, List.getLast?_append, hlast]
  cases ((l.drop limit).take ((l.drop limit).length / limit * limit)).getLast? with
  | none => rfl
  | some a => rfl

section
variable [Std.IsLinearOrder τ] [Std.LawfulOrderLT τ]

omit [LE τ] [Std.IsLinearOrder τ] [Std.LawfulOrderLT τ] in
theorem filter_beyond (hbeyond : ∀ a ∈ l, cursor < stamp a) :
    (l.filter fun a => decide (cursor < stamp a)) = l :=
  List.filter_eq_self.mpr fun a ha => decide_eq_true (hbeyond a ha)

theorem filter_within (hwithin : ∀ a ∈ l, stamp a ≤ cursor) :
    (l.filter fun a => decide (cursor < stamp a)) = [] := by
  apply List.filter_eq_nil_iff.mpr
  intro a ha hlt
  exact Std.not_lt.mpr (hwithin a ha) (of_decide_eq_true hlt)

omit [LT τ] [DecidableLT τ] [Std.LawfulOrderLT τ] in
theorem le_last (hsorted : l.Pairwise fun a b => stamp a ≤ stamp b) {last : α}
    (hlast : l.getLast? = some last) {a : α} (ha : a ∈ l) : stamp a ≤ stamp last := by
  obtain ⟨earlier, rfl⟩ := List.getLast?_eq_some_iff.mp hlast
  rcases List.mem_append.mp ha with hin | hin
  · exact (List.pairwise_append.mp hsorted).2.2 a hin last List.mem_cons_self
  · rw [List.mem_singleton.mp hin]
    exact Std.le_refl (stamp last)

omit [DecidableLT τ] in
theorem drop_beyond_iff (hlimit : 1 ≤ limit)
    (hsorted : l.Pairwise fun a b => stamp a ≤ stamp b) {last : α}
    (hlast : (l.take limit).getLast? = some last) :
    (∀ c ∈ l.drop limit, stamp last < stamp c) ↔
      ∀ a b, l[limit - 1]? = some a → l[limit]? = some b → stamp a < stamp b := by
  have hend : ∀ a b, l[limit - 1]? = some a → l[limit]? = some b → a = last := by
    intro a b ha _
    rw [List.getLast?_take, if_neg (Nat.ne_of_gt hlimit), ha] at hlast
    exact Option.some.inj hlast
  constructor
  · intro hall a b ha hb
    rw [hend a b ha hb]
    apply hall b
    apply List.mem_of_getElem? (i := 0)
    rw [List.getElem?_drop]
    exact hb
  · intro hnext c hc
    have hdrop : (l.drop limit).Pairwise fun a b => stamp a ≤ stamp b :=
      hsorted.sublist (List.drop_sublist limit l)
    rcases hrest : l.drop limit with _ | ⟨b, rest⟩
    · rw [hrest] at hc
      cases hc
    · have hb : l[limit]? = some b := by
        have hget : (l.drop limit)[0]? = l[limit]? := List.getElem?_drop
        rw [hrest] at hget
        exact hget.symm
      have hsome : ∃ a, l[limit - 1]? = some a := by
        have hlen := (List.getElem?_eq_some_iff.mp hb).1
        exact ⟨_, List.getElem?_eq_getElem (by omega)⟩
      obtain ⟨a, ha⟩ := hsome
      have hlt := hnext a b ha hb
      rw [hend a b ha hb] at hlt
      rw [hrest] at hc hdrop
      rcases List.mem_cons.mp hc with rfl | hin
      · exact hlt
      · exact Std.lt_of_lt_of_le hlt (List.rel_of_pairwise_cons hdrop hin)

theorem browse_beyond {m : List α} {fuel : ℕ}
    (hpage : ∀ later, cursor ≤ later → page later = some (beyond stamp limit m later))
    (h : browse stamp page fuel cursor = some out) {a : α} (ha : a ∈ out) : cursor < stamp a := by
  induction fuel generalizing cursor out with
  | zero => cases h
  | succ fuel ih =>
    have hbeyond : ∀ b ∈ beyond stamp limit m cursor, cursor < stamp b := fun b hb =>
      of_decide_eq_true (List.mem_filter.mp (List.mem_of_mem_take hb)).2
    obtain ⟨found, hfound, hrest⟩ := Option.bind_eq_some_iff.mp h
    obtain rfl := Option.some.inj (hfound.symm.trans (hpage cursor (Std.le_refl cursor)))
    cases hlast : (beyond stamp limit m cursor).getLast? with
    | none =>
      rw [hlast] at hrest
      obtain rfl := Option.some.inj hrest
      cases ha
    | some last =>
      rw [hlast] at hrest
      obtain ⟨more, hmore, rfl⟩ := Option.map_eq_some_iff.mp hrest
      rcases List.mem_append.mp ha with hin | hin
      · exact hbeyond a hin
      · have hle : cursor < stamp last := hbeyond last (List.mem_of_getLast? hlast)
        have hlt : stamp last < stamp a :=
          ih (fun later hlater => hpage later (Std.le_trans (Std.le_of_lt hle) hlater)) hmore hin
        exact Std.lt_trans hle hlt

theorem complete_of_short (hlimit : l.length < limit)
    (hsorted : l.Pairwise fun a b => stamp a ≤ stamp b) (hcursor : ∀ a ∈ l, cursor < stamp a)
    (hpage : ∀ later, cursor ≤ later →
      page later = some (beyond stamp limit (l ++ foreign) later)) :
    Complete stamp page cursor l ↔ ∀ f ∈ foreign, stamp f ≤ cursor := by
  have hfirst := hpage cursor (Std.le_refl cursor)
  rw [beyond, List.filter_append, filter_beyond hcursor] at hfirst
  constructor
  · rintro ⟨fuel, out, hout, hperm⟩ f hf
    by_contra hlt
    have hin : f ∈ foreign.filter fun a => decide (cursor < stamp a) :=
      List.mem_filter.mpr ⟨hf, decide_eq_true (Std.not_le.mp hlt)⟩
    have hpos := List.length_pos_of_mem hin
    -- what is foreign and beyond the cursor comes with the first page, and is one too many
    have hmore : l.length < out.length := by
      rcases fuel with _ | fuel
      · cases hout
      · obtain ⟨found, hfound, hrest⟩ := Option.bind_eq_some_iff.mp hout
        obtain rfl := Option.some.inj (hfound.symm.trans hfirst)
        have hlen : l.length < ((l ++ foreign.filter fun a =>
            decide (cursor < stamp a)).take limit).length := by
          rw [List.length_take, List.length_append]
          omega
        cases hlast : ((l ++ foreign.filter fun a =>
            decide (cursor < stamp a)).take limit).getLast? with
        | none =>
          rw [List.getLast?_eq_none_iff.mp hlast] at hlen
          cases hlen
        | some last =>
          rw [hlast] at hrest
          obtain ⟨more, -, rfl⟩ := Option.map_eq_some_iff.mp hrest
          rw [List.length_append]
          omega
    exact absurd hperm.length_eq (Nat.ne_of_gt hmore)
  · intro hwithin
    rw [filter_within hwithin, List.append_nil,
      List.take_of_length_le (Nat.le_of_lt hlimit)] at hfirst
    cases hlast : l.getLast? with
    | none =>
      refine ⟨1, [], ?_, ?_⟩
      · rw [browse, hfirst]
        simp only [Option.bind_eq_bind, Option.bind_some, hlast]
      · rw [List.getLast?_eq_none_iff.mp hlast]
    | some last =>
      have hle : cursor ≤ stamp last := Std.le_of_lt (hcursor last (List.mem_of_getLast? hlast))
      -- the first page holds everything, and nothing is beyond its last element
      have hnext : page (stamp last) = some [] := by
        have hown : ∀ a ∈ l, stamp a ≤ stamp last := fun a ha => le_last hsorted hlast ha
        have hforeign : ∀ f ∈ foreign, stamp f ≤ stamp last :=
          fun f hf => Std.le_trans (hwithin f hf) hle
        rw [hpage (stamp last) hle, beyond, List.filter_append, filter_within hown,
          filter_within hforeign, List.append_nil, List.take_nil]
      have hend : browse stamp page 1 (stamp last) = some [] := by
        rw [browse, hnext]
        rfl
      refine ⟨2, l ++ [], browse_more hfirst hlast hend, ?_⟩
      rw [List.append_nil]

theorem complete_of_full (hfull : limit ≤ l.length)
    (hcursor : ∀ a ∈ l, cursor < stamp a)
    (hpage : ∀ later, cursor ≤ later →
      page later = some (beyond stamp limit (l ++ foreign) later))
    {last : α} (hlast : (l.take limit).getLast? = some last) :
    Complete stamp page cursor l ↔ (∀ a ∈ l.drop limit, stamp last < stamp a) ∧
      Complete stamp page (stamp last) (l.drop limit) := by
  have hfirst := hpage cursor (Std.le_refl cursor)
  rw [beyond, List.filter_append, filter_beyond hcursor, List.take_append_of_le_length hfull]
    at hfirst
  have hle : cursor ≤ stamp last :=
    Std.le_of_lt (hcursor last (List.mem_of_mem_take (List.mem_of_getLast? hlast)))
  have hlater : ∀ later, stamp last ≤ later →
      page later = some (beyond stamp limit (l ++ foreign) later) :=
    fun later h => hpage later (Std.le_trans hle h)
  constructor
  · rintro ⟨fuel, out, hout, hperm⟩
    rcases fuel with _ | fuel
    · cases hout
    · obtain ⟨found, hfound, hrest⟩ := Option.bind_eq_some_iff.mp hout
      obtain rfl := Option.some.inj (hfound.symm.trans hfirst)
      rw [hlast] at hrest
      obtain ⟨more, hmore, rfl⟩ := Option.map_eq_some_iff.mp hrest
      have hsame : more.Perm (l.drop limit) := by
        rw [← List.perm_append_left_iff (l.take limit), List.take_append_drop]
        exact hperm
      exact ⟨fun a ha => browse_beyond hlater hmore (hsame.mem_iff.mpr ha),
        fuel, more, hmore, hsame⟩
  · rintro ⟨-, fuel, more, hmore, hsame⟩
    refine ⟨fuel + 1, l.take limit ++ more, browse_more hfirst hlast hmore, ?_⟩
    have hall := hsame.append_left (l.take limit)
    rwa [List.take_append_drop] at hall

/-- A list in the order of its stamps, with foreign elements after it, is read completely and
alone if and only if its pages are aligned and nothing foreign is beyond the last page that the
list fills. -/
theorem complete_append_iff (hlimit : 1 ≤ limit)
    (hsorted : l.Pairwise fun a b => stamp a ≤ stamp b) (hcursor : ∀ a ∈ l, cursor < stamp a)
    (hpage : ∀ later, cursor ≤ later →
      page later = some (beyond stamp limit (l ++ foreign) later)) :
    Complete stamp page cursor l ↔ Aligned stamp limit l ∧
      ∀ f ∈ foreign, stamp f ≤ fullCursor stamp limit cursor l := by
  induction hlen : l.length using Nat.strongRecOn generalizing l cursor with
  | ind n ih =>
    rcases Nat.lt_or_ge l.length limit with hshort | hfull
    · rw [complete_of_short hshort hsorted hcursor hpage, fullCursor_of_short hshort]
      exact (and_iff_right (aligned_of_short hshort)).symm
    · have hsome : (l.take limit).getLast?.isSome := by
        have hpos : 0 < (l.take limit).length := by
          rw [List.length_take]
          omega
        exact List.getLast?_isSome.mpr (List.length_pos_iff.mp hpos)
      obtain ⟨last, hlast⟩ := Option.isSome_iff_exists.mp hsome
      rw [complete_of_full hfull hcursor hpage hlast, aligned_drop_iff hlimit,
        ← drop_beyond_iff hlimit hsorted hlast, fullCursor_drop hlimit hfull hlast, and_assoc]
      apply and_congr_right
      intro hbeyond
      have hmem := List.mem_of_getLast? hlast
      have hown : ∀ a ∈ l.take limit, stamp a ≤ stamp last := fun a ha =>
        le_last (hsorted.sublist (List.take_sublist limit l)) hlast ha
      -- The next pages are those of what follows the first one.
      have hnext : ∀ later, stamp last ≤ later →
          page later = some (beyond stamp limit (l.drop limit ++ foreign) later) := by
        intro later hlater
        have hle := Std.le_of_lt (hcursor last (List.mem_of_mem_take hmem))
        have hpassed : ∀ a ∈ l.take limit, stamp a ≤ later :=
          fun a ha => Std.le_trans (hown a ha) hlater
        have hsplit : l ++ foreign = l.take limit ++ (l.drop limit ++ foreign) := by
          rw [← List.append_assoc, List.take_append_drop]
        rw [hpage later (Std.le_trans hle hlater), beyond, beyond, hsplit, List.filter_append,
          filter_within hpassed, List.nil_append]
      refine ih (l.drop limit).length ?_ (hsorted.sublist (List.drop_sublist limit l)) hbeyond
        hnext rfl
      rw [List.length_drop]
      omega

theorem complete_iff (hlimit : 1 ≤ limit) (hsorted : l.Pairwise fun a b => stamp a ≤ stamp b)
    (hcursor : ∀ a ∈ l, cursor < stamp a)
    (hpage : ∀ later, cursor ≤ later → page later = some (beyond stamp limit l later)) :
    Complete stamp page cursor l ↔ Aligned stamp limit l := by
  have hall : ∀ later, cursor ≤ later →
      page later = some (beyond stamp limit (l ++ []) later) := by
    intro later hlater
    rw [List.append_nil]
    exact hpage later hlater
  rw [complete_append_iff hlimit hsorted hcursor hall]
  exact and_iff_left fun f hf => absurd hf List.not_mem_nil

end
end Paging
