import Kdapp.Indexer.Tables

/-! What the index holds after a sequence of calls. -/

namespace Kdapp.Indexer
open FiniteMap
open Std (ExtTreeMap)

attribute [local instance] lexOrd

theorem eq_of_sorted {α : Type} (key : α → UInt64) {l l' : List α}
    (hl : l.Pairwise fun a b => key a < key b) (hl' : l'.Pairwise fun a b => key a < key b)
    (h : ∀ a, a ∈ l ↔ a ∈ l') : l = l' := by
  have hne : ∀ a b : α, key a < key b → a ≠ b := by
    rintro a b hab rfl
    exact UInt64.lt_irrefl (key a) hab
  have hperm : l.Perm l' :=
    (List.perm_ext_iff_of_nodup (hl.imp (hne _ _)) (hl'.imp (hne _ _))).mpr h
  exact hperm.eq_of_pairwise
    (fun a b _ _ hab hba => absurd hab (UInt64.lt_asymm hba)) hl hl'

/-- The comment that a call writes under an episode and a comment id. -/
def rowUnder (id cid : UInt64) : Op → Option CommentRow
  | .addComment row => if row.episodeId = id ∧ row.commentId = cid then some row else none
  | _ => none

def lastRow (ops : List Op) (id cid : UInt64) : Option CommentRow :=
  ops.reverse.findSome? (rowUnder id cid)

theorem lastRow_concat (ops : List Op) (op : Op) (id cid : UInt64) :
    lastRow (ops ++ [op]) id cid = (rowUnder id cid op).or (lastRow ops id cid) := by
  rw [lastRow, List.reverse_append, List.reverse_singleton, List.singleton_append,
    List.findSome?_cons]
  cases rowUnder id cid op <;> rfl

theorem eq_of_rowUnder {id cid : UInt64} {op : Op} {row : CommentRow}
    (h : rowUnder id cid op = some row) :
    op = .addComment row ∧ row.episodeId = id ∧ row.commentId = cid := by
  cases op with
  | addComment row' =>
    obtain ⟨hkey, heq⟩ := Option.ite_none_right_eq_some.mp h
    cases heq
    exact ⟨rfl, hkey⟩
  | _ => cases h

theorem of_lastRow {ops : List Op} {id cid : UInt64} {row : CommentRow}
    (h : lastRow ops id cid = some row) :
    .addComment row ∈ ops ∧ row.episodeId = id ∧ row.commentId = cid := by
  obtain ⟨op, hop, hrow⟩ := List.exists_of_findSome?_eq_some h
  obtain ⟨rfl, hkey⟩ := eq_of_rowUnder hrow
  exact ⟨List.mem_reverse.mp hop, hkey⟩

theorem lastRow_isSome {ops : List Op} {row : CommentRow} (h : .addComment row ∈ ops) :
    ∃ row', lastRow ops row.episodeId row.commentId = some row' := by
  apply Option.isSome_iff_exists.mp
  apply List.findSome?_isSome_iff.mpr
  refine ⟨_, List.mem_reverse.mpr h, ?_⟩
  rw [rowUnder, if_pos ⟨rfl, rfl⟩]
  rfl

structure Written (ops : List Op) (idx : Index) : Prop where
  episode : ∀ (id : UInt64) (ep : EpisodeSnapshot), idx.episodes[id]? = some ep →
    .upsertEpisode ep ∈ ops ∧ ep.episodeId = id
  upserted : ∀ ep, .upsertEpisode ep ∈ ops → ep.episodeId ∈ idx.episodes
  recent : ∀ ts id, (ts, id) ∈ idx.recent ↔
    ∃ ep, .upsertEpisode ep ∈ ops ∧ ep.createdAt = ts ∧ ep.episodeId = id
  comment : ∀ id cid : UInt64, idx.comments[(id, cid)]? = lastRow ops id cid
  mine : ∀ pubkey id, id ∈ idx.mine pubkey ↔ .addMembership pubkey id ∈ ops

namespace Written
variable {ops : List Op} {idx : Index}

theorem nil : Written [] Index.empty where
  episode id ep h := by
    simp [Index.empty] at h
  upserted ep h := by cases h
  recent ts id := by
    simp [Index.empty]
  comment id cid := by
    simp [Index.empty, lastRow]
  mine pubkey id := by
    simp [Index.empty, Index.mine]

theorem upsertEpisode (h : Written ops idx) (ep : EpisodeSnapshot) :
    Written (ops ++ [.upsertEpisode ep]) (idx.write (.upsertEpisode ep)) where
  episode id ep' hep' := by
    by_cases hid : ep.episodeId = id
    · subst hid
      have hself : (idx.write (.upsertEpisode ep)).episodes[ep.episodeId]? = some ep :=
        ExtTreeMap.getElem?_insert_self
      obtain rfl := Option.some.inj (hself.symm.trans hep')
      exact ⟨List.mem_append_right _ List.mem_cons_self, rfl⟩
    · obtain ⟨hmem, heq⟩ := h.episode id ep' ((getElem?_insert_of_ne hid _).symm.trans hep')
      exact ⟨List.mem_append_left _ hmem, heq⟩
  upserted ep' hmem := by
    apply ExtTreeMap.mem_insert.mpr
    rcases List.mem_append.mp hmem with hbefore | hnew
    · exact .inr (h.upserted ep' hbefore)
    · obtain rfl : ep' = ep := by simpa using hnew
      exact .inl Std.ReflOrd.compare_self
  recent ts id := by
    have hinsert : (ts, id) ∈ (idx.write (.upsertEpisode ep)).recent ↔
        (ep.createdAt, ep.episodeId) = (ts, id) ∨ (ts, id) ∈ idx.recent := by
      rw [← Std.LawfulEqOrd.compare_eq_iff_eq]
      exact ExtTreeMap.mem_insert
    rw [hinsert, h.recent]
    simp only [List.mem_append, List.mem_singleton, Op.upsertEpisode.injEq, Prod.mk.injEq]
    constructor
    · rintro (heq | ⟨ep', hmem, heq⟩)
      · exact ⟨ep, .inr rfl, heq⟩
      · exact ⟨ep', .inl hmem, heq⟩
    · rintro ⟨ep', hmem | rfl, heq⟩
      · exact .inr ⟨ep', hmem, heq⟩
      · exact .inl heq
  comment id cid := by
    rw [lastRow_concat]
    exact h.comment id cid
  mine pubkey id := by
    have hmine := h.mine pubkey id
    simpa [Index.mine, Index.write] using hmine

theorem addComment (h : Written ops idx) (row : CommentRow) :
    Written (ops ++ [.addComment row]) (idx.write (.addComment row)) where
  episode id ep hep := by
    obtain ⟨hmem, heq⟩ := h.episode id ep hep
    exact ⟨List.mem_append_left _ hmem, heq⟩
  upserted ep hmem := h.upserted ep (by simpa using hmem)
  recent ts id := by
    have hrecent := h.recent ts id
    simpa [Index.write] using hrecent
  comment id cid := by
    rw [lastRow_concat, ← h.comment, rowUnder]
    by_cases hkey : row.episodeId = id ∧ row.commentId = cid
    · obtain ⟨rfl, rfl⟩ := hkey
      rw [if_pos ⟨rfl, rfl⟩, Option.some_or]
      exact ExtTreeMap.getElem?_insert_self
    · rw [if_neg hkey, Option.none_or]
      apply getElem?_insert_of_ne
      intro heq
      cases heq
      exact hkey ⟨rfl, rfl⟩
  mine pubkey id := by
    have hmine := h.mine pubkey id
    simpa [Index.mine, Index.write] using hmine

theorem addMembership (h : Written ops idx) (pubkey : String) (episodeId : UInt64) :
    Written (ops ++ [.addMembership pubkey episodeId])
      (idx.write (.addMembership pubkey episodeId)) where
  episode id ep hep := by
    obtain ⟨hmem, heq⟩ := h.episode id ep hep
    exact ⟨List.mem_append_left _ hmem, heq⟩
  upserted ep hmem := h.upserted ep (by simpa using hmem)
  recent ts id := by
    have hrecent := h.recent ts id
    simpa [Index.write] using hrecent
  comment id cid := by
    rw [lastRow_concat]
    exact h.comment id cid
  mine pubkey' id := by
    rw [List.mem_append, List.mem_singleton, ← h.mine]
    by_cases hkey : pubkey = pubkey'
    · subst hkey
      rw [Index.mine_self, Index.mem_joined]
      simp only [Op.addMembership.injEq, true_and]
      exact Or.comm
    · rw [Index.mine_other hkey]
      simp only [Op.addMembership.injEq, eq_comm (b := pubkey), hkey, false_and, or_false]

theorem after (ops : List Op) : Written ops (Index.after ops) := by
  induction ops using List.reverseRecOn with
  | nil => exact nil
  | append_singleton ops op ih =>
    rw [Index.after_concat]
    cases op with
    | upsertEpisode ep => exact ih.upsertEpisode ep
    | addComment row => exact ih.addComment row
    | addMembership pubkey episodeId => exact ih.addMembership pubkey episodeId

theorem known (h : Written ops idx) {ts id : UInt64} (hlisted : (ts, id) ∈ idx.recent) :
    (idx.episodes[id]?).isSome = true := by
  obtain ⟨ep, hep, -, rfl⟩ := (h.recent ts id).mp hlisted
  exact ExtTreeMap.mem_iff_isSome_getElem?.mp (h.upserted ep hep)

theorem entry_eq (h : Written ops idx) {e : (UInt64 × UInt64) × CommentRow}
    (he : e ∈ idx.comments.toList) :
    lastRow ops e.1.1 e.1.2 = some e.2 ∧ e.2.episodeId = e.1.1 ∧ e.2.commentId = e.1.2 := by
  have hget : idx.comments[e.1]? = some e.2 := ExtTreeMap.mem_toList_iff_getElem?_eq_some.mp he
  have hlast := (h.comment e.1.1 e.1.2).symm.trans hget
  exact ⟨hlast, (of_lastRow hlast).2⟩

theorem mem_rows (h : Written ops idx) {id : UInt64} {row : CommentRow} :
    row ∈ idx.rows id ↔ lastRow ops id row.commentId = some row := by
  rw [Index.rows, List.mem_map]
  constructor
  · rintro ⟨e, he, rfl⟩
    obtain ⟨hmem, hid⟩ := List.mem_filter.mp he
    obtain ⟨hlast, -, hcid⟩ := h.entry_eq hmem
    rw [hcid, ← of_decide_eq_true hid]
    exact hlast
  · intro hlast
    refine ⟨((id, row.commentId), row), List.mem_filter.mpr ⟨?_, decide_eq_true rfl⟩, rfl⟩
    apply ExtTreeMap.mem_toList_iff_getElem?_eq_some.mpr
    exact (h.comment id row.commentId).trans hlast

theorem rows_sorted (h : Written ops idx) (id : UInt64) :
    (idx.rows id).Pairwise fun a b => a.commentId < b.commentId := by
  have hkeys : idx.comments.toList.Pairwise fun a b => compare a.1 b.1 = .lt :=
    ExtTreeMap.ordered_keys_toList
  rw [Index.rows, List.pairwise_map]
  refine (hkeys.filter _).imp_of_mem ?_
  intro a b ha hb hab
  obtain ⟨ha, haid⟩ := List.mem_filter.mp ha
  obtain ⟨hb, hbid⟩ := List.mem_filter.mp hb
  rw [(h.entry_eq ha).2.2, (h.entry_eq hb).2.2]
  have hsame : compare a.1.1 b.1.1 = .eq := by
    rw [of_decide_eq_true haid, of_decide_eq_true hbid]
    exact Std.ReflOrd.compare_self
  change (compare a.1.1 b.1.1).then (compare a.1.2 b.1.2) = .lt at hab
  rw [hsame] at hab
  exact Std.compare_eq_lt.mp hab

end Written
end Kdapp.Indexer
