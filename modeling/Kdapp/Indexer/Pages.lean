import Kdapp.Indexer.Answers
import Kdapp.Indexer.SampleBincode
import Kdapp.Library.Paging

/-! Reading the comments of an episode page by page (`api.rs`, `episode_comments`): the cursor is
the time of the last comment of a page. -/

namespace Kdapp.Indexer
open Outcome Paging

attribute [local instance] lexOrd

def history (ops : List Op) (id : UInt64) : List CommentRow :=
  ops.filterMap fun
    | .addComment row => if row.episodeId = id then some row else none
    | _ => none

/-- Comments as a run of the engine leaves them: numbered upwards, and dated by their blocks. -/
structure Produced (rows : List CommentRow) : Prop where
  ids : rows.Pairwise fun a b => a.commentId < b.commentId
  times : rows.Pairwise fun a b => a.timestamp ≤ b.timestamp
  positive : ∀ row ∈ rows, 0 < row.timestamp

/-- One call for a page; `none` is an error. -/
def page {S : Type} [StoreTrait S] (store : S) (id : UInt64) (limit : ℕ) (afterTs : UInt64) :
    Option (List CommentRow) :=
  (StoreTrait.getCommentsAfter store id afterTs limit).toOption

def Rocks.behind [Bincode CommentRow] (self : Rocks) (id : UInt64) : List CommentRow :=
  (self.db.toList.filter fun kv => Keyspace.passes (Rocks.keyCommentPrefix id) kv.1).filterMap
    fun kv => Bincode.deserialize kv.2

section
variable {ops : List Op} {idx : Index} {id : UInt64}

theorem mem_history {row : CommentRow} :
    row ∈ history ops id ↔ .addComment row ∈ ops ∧ row.episodeId = id := by
  rw [history, List.mem_filterMap]
  constructor
  · rintro ⟨op, hop, hrow⟩
    cases op with
    | addComment row' =>
      obtain ⟨hid, heq⟩ := Option.ite_none_right_eq_some.mp hrow
      cases heq
      exact ⟨hop, hid⟩
    | _ => cases hrow
  · rintro ⟨hop, hid⟩
    exact ⟨.addComment row, hop, if_pos hid⟩

theorem eq_of_ids {rows : List CommentRow}
    (hids : rows.Pairwise fun a b => a.commentId < b.commentId) {a b : CommentRow} (ha : a ∈ rows)
    (hb : b ∈ rows) (h : a.commentId = b.commentId) : a = b := by
  refine List.inj_on_of_nodup_map ?_ ha hb h
  exact List.pairwise_map.mpr (hids.imp UInt64.ne_of_lt)

theorem rows_eq (h : Written ops idx)
    (hids : (history ops id).Pairwise fun a b => a.commentId < b.commentId) :
    idx.rows id = history ops id := by
  have hsame : ∀ row, row ∈ idx.rows id ↔ row ∈ history ops id := by
    intro row
    rw [h.mem_rows, mem_history]
    constructor
    · intro hlast
      obtain ⟨hop, hid, -⟩ := of_lastRow hlast
      exact ⟨hop, hid⟩
    · rintro ⟨hop, rfl⟩
      obtain ⟨row', hlast⟩ := lastRow_isSome hop
      obtain ⟨hop', hid', hcid⟩ := of_lastRow hlast
      obtain rfl : row = row' := eq_of_ids hids (mem_history.mpr ⟨hop, rfl⟩)
        (mem_history.mpr ⟨hop', hid'⟩) hcid.symm
      exact hlast
  exact eq_of_sorted CommentRow.commentId (h.rows_sorted id) hids hsame

theorem filterMap_later (rows : List CommentRow) (afterTs : UInt64) :
    rows.filterMap (later afterTs) = rows.filter fun row => decide (afterTs < row.timestamp) := by
  rw [← List.filterMap_eq_filter]
  apply List.filterMap_congr
  intro row _
  unfold later Option.guard
  simp only [decide_eq_true_eq]

theorem mem_page {mem : Mem} (h : Mem.Shows idx mem) {limit : ℕ} (hlimit : 1 ≤ limit)
    (afterTs : UInt64) :
    page mem id limit afterTs = some (beyond CommentRow.timestamp limit (idx.rows id) afterTs) := by
  change some (mem.getCommentsAfter id afterTs limit) = _
  rw [Mem.getCommentsAfter_eq h, filterMap_later, Nat.max_eq_left hlimit]
  rfl

variable [RocksDb] [Bincode EpisodeSnapshot] [Bincode CommentRow] [Bincode (List UInt64)]

theorem store_page (hrunsOn : RocksDb.RunsOn) (hrow : Bincode.Lawful CommentRow) {store : Rocks}
    (h : Rocks.Holds idx store.db) {limit : ℕ} (hlimit : 1 ≤ limit) (afterTs : UInt64) :
    page store id limit afterTs =
      some (beyond CommentRow.timestamp limit (idx.rows id ++ store.behind id) afterTs) := by
  have hrows : (RocksDb.prefixIterator store.db (Rocks.keyCommentPrefix id)).filterMap
      (fun kv => Bincode.deserialize kv.2) = idx.rows id ++ store.behind id := by
    rw [hrunsOn, Keyspace.filter_isLE, List.filterMap_append,
      Keyspace.Kept.filterMap_of_forall₂ (h.rows hrow id)]
    rfl
  change some (store.getCommentsAfter id afterTs limit) = _
  rw [Rocks.getCommentsAfter, Scan.collect_eq (Scan.attentive_always _) hlimit, beyond,
    ← filterMap_later, ← hrows, List.filterMap_filterMap]
  rfl

end

section
variable [RocksDb] [Bincode EpisodeSnapshot] [Bincode CommentRow] [Bincode (List UInt64)]

/-- The memory gives every comment of an episode once, page by page, if and only if no page ends
between two comments of one time. The database does if moreover no comment behind those of the
episode is later than the last page that they fill. -/
theorem pages_complete_iff (hrunsOn : RocksDb.RunsOn) (hep : Bincode.Lawful EpisodeSnapshot)
    (hrow : Bincode.Lawful CommentRow) (hids : Bincode.Lawful (List UInt64)) {ops : List Op}
    {id : UInt64} (hproduced : Produced (history ops id)) {limit : ℕ} (hlimit : 1 ≤ limit) :
    ∃ mem store, performAll ops Mem.init = .ok mem ∧
      performAll ops Rocks.openDefault = .ok store ∧
      (Complete CommentRow.timestamp (page mem id limit) 0 (history ops id) ↔
        Aligned CommentRow.timestamp limit (history ops id)) ∧
      (Complete CommentRow.timestamp (page store id limit) 0 (history ops id) ↔
        Aligned CommentRow.timestamp limit (history ops id) ∧ ∀ row ∈ store.behind id,
          row.timestamp ≤ fullCursor CommentRow.timestamp limit 0 (history ops id)) := by
  obtain ⟨mem, store, hmem, hstore, hshows, hholds⟩ := stores_keep hep hrow hids ops
  have hrows := rows_eq (Written.after ops) hproduced.ids
  refine ⟨mem, store, hmem, hstore, ?_, ?_⟩
  · apply complete_iff hlimit hproduced.times hproduced.positive
    intro afterTs _
    rw [mem_page hshows hlimit, hrows]
  · apply complete_append_iff hlimit hproduced.times hproduced.positive
    intro afterTs _
    rw [store_page hrunsOn hrow hholds hlimit, hrows]

end

namespace SampleBincode
attribute [local instance] runningOn snapshots rows lists

def crossed : List Op :=
  [.addComment ⟨1, 1, "a", "x", 5⟩, .addComment ⟨2, 1, "b", "y", 6⟩,
    .addComment ⟨1, 2, "a", "z", 7⟩]

theorem crossed_produced : Produced (history crossed 1) where
  ids := by decide
  times := by decide
  positive := by decide

/-- The database fills the first page of room 1 with the comment of room 2. -/
theorem pages_complete_iff_at :
    ∃ mem store, performAll crossed Mem.init = .ok mem ∧
      performAll crossed Rocks.openDefault = .ok store ∧
      Complete CommentRow.timestamp (page mem 1 3) 0 (history crossed 1) ∧
      ¬ Complete CommentRow.timestamp (page store 1 3) 0 (history crossed 1) := by
  have hbehind : (performAll crossed Rocks.openDefault).toOption.map
      (fun store => store.behind 1) = some [⟨2, 1, "b", "y", 6⟩] := by
    decide +kernel
  obtain ⟨mem, store, hmem, hstore, hinMemory, hinRocks⟩ :=
    pages_complete_iff runningOn_runsOn snapshots_lawful rows_lawful lists_lawful
      crossed_produced (show 1 ≤ 3 by decide)
  rw [hstore] at hbehind
  refine ⟨mem, store, hmem, hstore, hinMemory.mpr (aligned_of_short (by decide)), ?_⟩
  intro hcomplete
  have hforeign : (⟨2, 1, "b", "y", 6⟩ : CommentRow) ∈ store.behind 1 := by
    have heq : store.behind 1 = [⟨2, 1, "b", "y", 6⟩] := Option.some.inj hbehind
    rw [heq]
    exact List.mem_cons_self
  exact absurd ((hinRocks.mp hcomplete).2 _ hforeign) (by decide)

def pair : List Op := [.addComment ⟨1, 1, "a", "x", 5⟩, .addComment ⟨1, 2, "a", "y", 5⟩]

theorem pair_produced : Produced (history pair 1) where
  ids := by decide
  times := by decide
  positive := by decide

theorem not_complete {page : UInt64 → Option (List CommentRow)} {out : List CommentRow}
    (hout : browse CommentRow.timestamp page 3 0 = some out) (hlen : out.length = 1) :
    ¬ Complete CommentRow.timestamp page 0 (history pair 1) := by
  rintro ⟨fuel, out', hout', hperm⟩
  rw [← browse_unique hout hout'] at hperm
  have htwo := hperm.length_eq
  rw [hlen] at htwo
  cases htwo

/-- With pages of one comment, neither store ever gives the second one. -/
theorem second_lost : Produced (history pair 1) ∧ ∃ mem store,
    performAll pair Mem.init = .ok mem ∧ performAll pair Rocks.openDefault = .ok store ∧
      ¬ Complete CommentRow.timestamp (page mem 1 1) 0 (history pair 1) ∧
      ¬ Complete CommentRow.timestamp (page store 1 1) 0 (history pair 1) := by
  obtain ⟨mem, store, hmem, hstore, -⟩ :=
    stores_keep snapshots_lawful rows_lawful lists_lawful pair
  have hread : (performAll pair Mem.init).toOption.bind
        (fun mem => browse CommentRow.timestamp (page mem 1 1) 3 0) = some [⟨1, 1, "a", "x", 5⟩] ∧
      (performAll pair Rocks.openDefault).toOption.bind
        (fun store => browse CommentRow.timestamp (page store 1 1) 3 0) =
          some [⟨1, 1, "a", "x", 5⟩] := by
    decide +kernel
  rw [hmem, hstore] at hread
  exact ⟨pair_produced, mem, store, hmem, hstore, not_complete hread.1 rfl,
    not_complete hread.2 rfl⟩

end SampleBincode
end Kdapp.Indexer
