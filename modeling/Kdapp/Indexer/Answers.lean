import Kdapp.Indexer.History

/-! What each store answers, from the index it keeps. -/

namespace Kdapp.Indexer
open Borsh Keyspace FiniteMap
open Std (ExtTreeMap ExtTreeSet)

attribute [local instance] lexOrd

variable {ops : List Op} {idx : Index} {mem : Mem} {store : Rocks}

def later (afterTs : UInt64) (row : CommentRow) : Option CommentRow :=
  if row.timestamp > afterTs then some row else none

theorem rows_filterMap (idx : Index) (id : UInt64) {β : Type} (f : CommentRow → Option β) :
    (idx.rows id).filterMap f =
      idx.comments.toList.filterMap fun e => if e.1.1 = id then f e.2 else none := by
  rw [Index.rows, List.filterMap_map, List.filterMap_filter]
  simp only [decide_eq_true_eq, Function.comp_apply]

namespace Mem

theorem getEpisode_eq (h : Shows idx mem) (id : UInt64) (recent : ℕ) :
    mem.getEpisode id recent = (idx.episodes[id]?).map fun ep =>
      ⟨ep, (idx.rows id).reverse.take (max recent 1)⟩ := by
  have hrows := rows_filterMap idx id some
  rw [List.filterMap_some] at hrows
  rw [getEpisode, h.episodes, h.comments]
  cases idx.episodes[id]? with
  | none => rfl
  | some ep =>
    have hscan : Scan.collect (fun e => if e.1.1 = id then some e.2 else none)
        (fun e => decide (e.1.1 = id)) recent idx.comments.toList.reverse =
        (idx.rows id).reverse.take (max recent 1) := by
      rw [Scan.collect_pushing, List.filterMap_reverse, hrows]
      · intro e he
        exact if_neg (of_decide_eq_false he)
      · intro e _ he
        rw [if_pos (of_decide_eq_true he)]
        rfl
    exact congrArg (fun rows => some (EpisodeDetail.mk ep rows)) hscan

theorem getCommentsAfter_eq (h : Shows idx mem) (id afterTs : UInt64) (limit : ℕ) :
    mem.getCommentsAfter id afterTs limit =
      ((idx.rows id).filterMap (later afterTs)).take (max limit 1) := by
  rw [getCommentsAfter, h.comments, Scan.collect_pushing, rows_filterMap]
  · congr 1
    apply List.filterMap_congr
    intro e _
    unfold later
    split_ifs with hboth hid hts hid hts <;> tauto
  · intro e he
    exact if_neg (of_decide_eq_false he)
  · intro e _ he
    rw [if_pos (of_decide_eq_true he)]
    rfl

theorem getMyEpisodes_sorted (h : Shows idx mem) (pubkey : String) :
    ∃ list : List UInt64, (∀ limit, mem.getMyEpisodes pubkey limit = list.take limit) ∧
      list.Pairwise (· < ·) ∧ ∀ id, id ∈ list ↔ id ∈ idx.mine pubkey := by
  have hmem := h.mem_getD pubkey
  unfold getMyEpisodes
  cases hset : mem.memberships[pubkey]? with
  | none =>
    rw [hset] at hmem
    refine ⟨[], fun limit => List.take_nil.symm, .nil, fun id => ?_⟩
    rw [← hmem]
    exact iff_of_false List.not_mem_nil ExtTreeSet.not_mem_empty
  | some set =>
    rw [hset] at hmem
    refine ⟨set.toList, fun limit => rfl, ?_, fun id => ?_⟩
    · exact (ExtTreeSet.ordered_toList (t := set)).imp Std.compare_eq_lt.mp
    · rw [ExtTreeSet.mem_toList]
      exact hmem id

theorem getRecent_eq (h : Shows idx mem) (hwritten : Written ops idx) (limit : ℕ) :
    mem.getRecent limit = (mem.recentOrder.toList.reverse.filterMap fun e =>
      idx.episodes[e.2]?).take (max limit 1) := by
  rw [getRecent, h.episodes, Scan.collect_pushing (Scan.attentive_always _)]
  intro e he _
  have hget : mem.recentOrder[e.1]? = some e.2 :=
    ExtTreeMap.mem_toList_iff_getElem?_eq_some.mp (List.mem_reverse.mp he)
  exact hwritten.known (h.listed e.1 e.2 hget)

theorem stats_eq (h : Shows idx mem) :
    mem.stats = ⟨idx.episodes.size, idx.comments.size, idx.members.size⟩ := by
  rw [stats, h.episodes, h.comments, size_congr h.known]

end Mem

namespace Rocks
variable [Bincode EpisodeSnapshot] [Bincode CommentRow] [Bincode (List UInt64)]

theorem getEpisode_eq [RocksDb] (hexact : RocksDb.Exact) (hep : Bincode.Lawful EpisodeSnapshot)
    (hrow : Bincode.Lawful CommentRow) (h : Holds idx store.db) (hwritten : Written ops idx)
    (id : UInt64) (recent : ℕ) :
    store.getEpisode id recent = .ok ((idx.episodes[id]?).map fun ep =>
      ⟨ep, (idx.rows id).reverse.take recent⟩) := by
  have hrows : (RocksDb.prefixIterator store.db (keyCommentPrefix id)).filterMap
      (fun kv => Bincode.deserialize kv.2) = idx.rows id := by
    rw [hexact]
    exact Kept.filterMap_of_forall₂ (h.rows hrow id)
  have hsorted : (idx.rows id).mergeSort (fun a b => a.commentId ≤ b.commentId) = idx.rows id := by
    apply List.mergeSort_of_pairwise
    exact (hwritten.rows_sorted id).imp fun hab => decide_eq_true (UInt64.le_of_lt hab)
  unfold getEpisode
  rw [h.episodes.entry]
  cases hget : idx.episodes[id]? with
  | none => rfl
  | some ep =>
    obtain ⟨bytes, hbytes, hread⟩ := hep ep
    simp only [Option.bind_some, hbytes, hread, hrows, hsorted, Option.map_some]

theorem getCommentsAfter_eq [RocksDb] (hexact : RocksDb.Exact)
    (hrow : Bincode.Lawful CommentRow) (h : Holds idx store.db) (id afterTs : UInt64) (limit : ℕ) :
    store.getCommentsAfter id afterTs limit =
      Scan.collect (later afterTs) (fun _ => true) limit (idx.rows id) := by
  rw [getCommentsAfter, hexact]
  refine Scan.collect_congr ((h.rows hrow id).imp ?_) limit
  intro kv row hread
  rw [hread]
  exact ⟨rfl, rfl⟩

theorem getMyEpisodes_eq (hids : Bincode.Lawful (List UInt64)) (h : Holds idx store.db)
    (pubkey : String) (limit : ℕ) :
    store.getMyEpisodes pubkey limit = (idx.mine pubkey).take limit :=
  congrArg (List.take limit) (h.members_eq hids pubkey)

theorem getRecent_eq (hep : Bincode.Lawful EpisodeSnapshot) (h : Holds idx store.db)
    (hwritten : Written ops idx) (limit : ℕ) :
    store.getRecent limit = ((idx.recent.toList.map (·.1)).reverse.filterMap fun e =>
      idx.episodes[e.2]?).take (max limit 1) := by
  have hquiet : Scan.Attentive (fun kv : Bytes × Bytes => if isRecent kv.1 then
      (store.db[keyEp (recentId kv.1)]?).bind (Bincode.deserialize (T := EpisodeSnapshot)) else
      none) (fun kv => isRecent kv.1) := fun kv hkv => if_neg (Bool.eq_false_iff.mp hkv)
  have hlisted : List.Forall₂ (fun kv e => kv.1 = keyRecent e.1 e.2)
      (store.db.toList.reverse.filter fun kv => isRecent kv.1)
      (idx.recent.toList.map (·.1)).reverse := by
    rw [List.filter_reverse, List.forall₂_reverse_iff, List.forall₂_map_right_iff]
    exact h.recents
  have hscan : store.getRecent limit = Scan.collect (fun e => idx.episodes[e.2]?)
      (fun _ => true) limit (idx.recent.toList.map (·.1)).reverse := by
    rw [getRecent, Scan.collect_filter hquiet]
    refine Scan.collect_congr (hlisted.imp ?_) limit
    rintro kv e hkv
    rw [hkv, isRecent_keyRecent, recentId_keyRecent, h.episode_read hep]
    exact ⟨rfl, rfl⟩
  rw [hscan, Scan.collect_pushing (Scan.attentive_always _)]
  intro e he _
  obtain ⟨entry, hentry, rfl⟩ := List.mem_map.mp (List.mem_reverse.mp he)
  exact hwritten.known (mem_of_some (ExtTreeMap.mem_toList_iff_getElem?_eq_some.mp hentry))

theorem stats_eq (h : Holds idx store.db) :
    store.stats = ⟨idx.episodes.size, idx.comments.size, idx.members.size⟩ := by
  have hepisodes := h.episodes.length_entries keyEp_ascends.injective
    (fun k => decide (k.head? = some 101))
    fun k hk => decide_eq_true_iff.trans (h.only k hk).head_ep
  have hcomments := h.comments.length_entries keyComment_ascends.injective
    (fun k => decide (k.head? = some 99))
    fun k hk => decide_eq_true_iff.trans (h.only k hk).head_comment
  have hmembers := h.members.length_entries keyMembers_injective
    (fun k => decide (k.head? = some 109))
    fun k hk => decide_eq_true_iff.trans (h.only k hk).head_members
  rw [stats, List.countP_eq_length_filter, List.countP_eq_length_filter,
    List.countP_eq_length_filter, hepisodes, hcomments, hmembers]

end Rocks

end Kdapp.Indexer
