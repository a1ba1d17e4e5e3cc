import Kdapp.Indexer.Answers
import Kdapp.Indexer.SampleBincode
import Kdapp.Library.InOrder

/-! When the two stores answer every call alike. -/

namespace Kdapp.Indexer
open FiniteMap InOrder
open Std (ExtTreeMap)

attribute [local instance] lexOrd

/-! ### Where they differ -/

theorem take_inj {α : Type} {l l' : List α} (h : ∀ n, 1 ≤ n → l.take n = l'.take n) : l = l' := by
  have hall := h (max l.length l'.length + 1) (Nat.le_add_left 1 _)
  rwa [List.take_of_length_le (by omega), List.take_of_length_le (by omega)] at hall

theorem later_take_iff (rows : List CommentRow) :
    (∀ afterTs, (rows.filterMap (later afterTs)).take 1 =
        (rows.take 1).filterMap (later afterTs)) ↔
      ∀ first rest, rows = first :: rest → ∀ row ∈ rest, row.timestamp ≤ first.timestamp := by
  constructor
  · rintro h first rest rfl row hrow
    have hfirst := h first.timestamp
    have hnone : later first.timestamp first = none := if_neg (UInt64.lt_irrefl first.timestamp)
    rw [List.filterMap_cons_none hnone, List.take_succ_cons, List.take_zero,
      List.filterMap_cons_none hnone, List.filterMap_nil] at hfirst
    have hnil : rest.filterMap (later first.timestamp) = [] := by
      rcases List.take_eq_nil_iff.mp hfirst with hone | hnil
      · cases hone
      · exact hnil
    have hquiet := List.filterMap_eq_nil_iff.mp hnil row hrow
    apply UInt64.not_lt.mp
    intro hlt
    rw [later, if_pos hlt] at hquiet
    cases hquiet
  · intro h afterTs
    rcases rows with _ | ⟨first, rest⟩
    · rfl
    · by_cases hfirst : first.timestamp > afterTs
      · have hsome : later afterTs first = some first := if_pos hfirst
        simp [hsome]
      · have hnil : (first :: rest).filterMap (later afterTs) = [] := by
          apply List.filterMap_eq_nil_iff.mpr
          intro row hrow
          apply if_neg
          rcases List.mem_cons.mp hrow with rfl | hrest
          · exact hfirst
          · have hle := h first rest rfl row hrest
            exact UInt64.not_lt.mpr (UInt64.le_trans hle (UInt64.not_lt.mp hfirst))
        have hnone : later afterTs first = none := if_neg hfirst
        rw [hnil, List.take_nil, List.take_succ_cons, List.take_zero,
          List.filterMap_cons_none hnone, List.filterMap_nil]

section Compare
variable {ops : List Op} {idx : Index} {mem : Mem} {store : Rocks}

theorem mem_times {ts id : UInt64} :
    (ts, id) ∈ idx.recent.toList.map (·.1) ↔ (ts, id) ∈ idx.recent := by
  rw [List.mem_map]
  constructor
  · rintro ⟨entry, hentry, heq⟩
    rw [← heq]
    exact mem_of_some (ExtTreeMap.mem_toList_iff_getElem?_eq_some.mp hentry)
  · intro hmem
    obtain ⟨u, hu⟩ := exists_of_mem hmem
    exact ⟨((ts, id), u), ExtTreeMap.mem_toList_iff_getElem?_eq_some.mpr hu, rfl⟩

theorem times_sorted (idx : Index) :
    (idx.recent.toList.map (·.1)).Pairwise fun a b => compare a b = .lt := by
  rw [List.pairwise_map]
  exact ExtTreeMap.ordered_keys_toList

theorem recentOrder_sorted (mem : Mem) :
    mem.recentOrder.toList.Pairwise fun a b => compare a b = .lt := by
  refine (ExtTreeMap.ordered_keys_toList (t := mem.recentOrder)).imp ?_
  intro a b hab
  change (compare a.1 b.1).then (compare a.2 b.2) = .lt
  rw [hab]
  rfl

theorem nodup_of_ascending {l : List (UInt64 × UInt64)}
    (h : l.Pairwise fun a b => compare a b = .lt) : l.Nodup := by
  refine h.imp ?_
  intro a b hab heq
  rw [heq, Std.ReflOrd.compare_self] at hab
  cases hab

theorem recentOrder_subset (h : Mem.Shows idx mem) :
    mem.recentOrder.toList ⊆ idx.recent.toList.map (·.1) := by
  intro e he
  exact mem_times.mpr (h.listed e.1 e.2 (ExtTreeMap.mem_toList_iff_getElem?_eq_some.mp he))

theorem recentOrder_eq (h : Mem.Shows idx mem)
    (hapart : ∀ ts id id', (ts, id) ∈ idx.recent → (ts, id') ∈ idx.recent → id = id') :
    mem.recentOrder.toList = idx.recent.toList.map (·.1) := by
  have hperm : mem.recentOrder.toList.Perm (idx.recent.toList.map (·.1)) := by
    rw [List.perm_ext_iff_of_nodup (nodup_of_ascending (recentOrder_sorted mem))
      (nodup_of_ascending (times_sorted idx))]
    rintro ⟨ts, id⟩
    refine ⟨fun hmem => recentOrder_subset h hmem, fun hmem => ?_⟩
    have hlisted := mem_times.mp hmem
    obtain ⟨id', hid'⟩ := exists_of_mem (h.timed ts id hlisted)
    rw [hapart ts id id' hlisted (h.listed ts id' hid')]
    exact ExtTreeMap.mem_toList_iff_getElem?_eq_some.mpr hid'
  refine hperm.eq_of_pairwise ?_ (recentOrder_sorted mem) (times_sorted idx)
  intro a b _ _ hab hba
  rw [Std.OrientedCmp.gt_iff_lt.mpr hab] at hba
  cases hba

theorem apart_of_length (h : Mem.Shows idx mem)
    (hlen : mem.recentOrder.toList.length = (idx.recent.toList.map (·.1)).length)
    {ts id id' : UInt64}
    (hid : (ts, id) ∈ idx.recent) (hid' : (ts, id') ∈ idx.recent) : id = id' := by
  have hsub := List.subperm_of_subset (nodup_of_ascending (recentOrder_sorted mem))
    (recentOrder_subset h)
  have hperm := hsub.perm_of_length_le (Nat.le_of_eq hlen.symm)
  have hget : mem.recentOrder[ts]? = some id :=
    ExtTreeMap.mem_toList_iff_getElem?_eq_some.mp (hperm.mem_iff.mpr (mem_times.mpr hid))
  have hget' : mem.recentOrder[ts]? = some id' :=
    ExtTreeMap.mem_toList_iff_getElem?_eq_some.mp (hperm.mem_iff.mpr (mem_times.mpr hid'))
  exact Option.some.inj (hget.symm.trans hget')

theorem length_known (hwritten : Written ops idx) {es : List (UInt64 × UInt64)}
    (hes : es ⊆ idx.recent.toList.map (·.1)) :
    (es.filterMap fun e => idx.episodes[e.2]?).length = es.length := by
  rw [List.filterMap_length_eq_length]
  rintro ⟨ts, id⟩ he
  exact hwritten.known (mem_times.mp (hes he))

variable [RocksDb] [Bincode EpisodeSnapshot] [Bincode CommentRow] [Bincode (List UInt64)]

theorem alike_getEpisode_iff (hexact : RocksDb.Exact) (hep : Bincode.Lawful EpisodeSnapshot)
    (hrow : Bincode.Lawful CommentRow) (hmem : Mem.Shows idx mem)
    (hstore : Rocks.Holds idx store.db) (hwritten : Written ops idx) (id : UInt64) (recent : ℕ) :
    answer mem (.getEpisode id recent) = answer store (.getEpisode id recent) ↔
      1 ≤ recent ∨ idx.episodes[id]? = none ∨ idx.rows id = [] := by
  change .ok (.episode (mem.getEpisode id recent)) =
    Answer.episode <$> store.getEpisode id recent ↔ _
  rw [Mem.getEpisode_eq hmem, Rocks.getEpisode_eq hexact hep hrow hstore hwritten]
  cases hget : idx.episodes[id]? with
  | none => exact iff_of_true rfl (.inr (.inl rfl))
  | some ep =>
    change Except.ok (Answer.episode (some ⟨ep, _⟩)) = Except.ok (Answer.episode (some ⟨ep, _⟩)) ↔ _
    simp only [Except.ok.injEq, Answer.episode.injEq, Option.some.injEq, EpisodeDetail.mk.injEq,
      true_and, reduceCtorEq, false_or]
    rcases Nat.eq_zero_or_pos recent with rfl | hpos
    · simp
    · rw [Nat.max_eq_left hpos]
      exact iff_of_true rfl (.inl hpos)

theorem alike_getCommentsAfter_iff (hexact : RocksDb.Exact) (hrow : Bincode.Lawful CommentRow)
    (hmem : Mem.Shows idx mem) (hstore : Rocks.Holds idx store.db) (id afterTs : UInt64)
    (limit : ℕ) : answer mem (.getCommentsAfter id afterTs limit) =
        answer store (.getCommentsAfter id afterTs limit) ↔
      1 ≤ limit ∨ ((idx.rows id).filterMap (later afterTs)).take 1 =
        ((idx.rows id).take 1).filterMap (later afterTs) := by
  change Except.ok (Answer.comments (mem.getCommentsAfter id afterTs limit)) =
    Except.ok (Answer.comments (store.getCommentsAfter id afterTs limit)) ↔ _
  rw [Mem.getCommentsAfter_eq hmem, Rocks.getCommentsAfter_eq hexact hrow hstore,
    Except.ok.injEq, Answer.comments.injEq]
  rcases Nat.eq_zero_or_pos limit with rfl | hpos
  · rw [Scan.collect_zero (Scan.attentive_always _), List.filter_true]
    simp
  · rw [Scan.collect_eq (Scan.attentive_always _) hpos, Nat.max_eq_left hpos]
    exact iff_of_true rfl (.inl hpos)

theorem alike_getRecent (hep : Bincode.Lawful EpisodeSnapshot) (hmem : Mem.Shows idx mem)
    (hstore : Rocks.Holds idx store.db) (hwritten : Written ops idx)
    (hapart : ∀ ts id id', (ts, id) ∈ idx.recent → (ts, id') ∈ idx.recent → id = id')
    (limit : ℕ) : answer mem (.getRecent limit) = answer store (.getRecent limit) := by
  change Except.ok (Answer.recent _) = Except.ok (Answer.recent _)
  rw [Mem.getRecent_eq hmem hwritten, Rocks.getRecent_eq hep hstore hwritten,
    recentOrder_eq hmem hapart]

theorem apart_of_alike (hep : Bincode.Lawful EpisodeSnapshot) (hmem : Mem.Shows idx mem)
    (hstore : Rocks.Holds idx store.db) (hwritten : Written ops idx)
    (halike : ∀ limit, 1 ≤ limit → answer mem (.getRecent limit) = answer store (.getRecent limit))
    {ts id id' : UInt64} (hid : (ts, id) ∈ idx.recent) (hid' : (ts, id') ∈ idx.recent) :
    id = id' := by
  refine apart_of_length hmem ?_ hid hid'
  have hlists : mem.recentOrder.toList.reverse.filterMap (fun e => idx.episodes[e.2]?) =
      (idx.recent.toList.map (·.1)).reverse.filterMap fun e => idx.episodes[e.2]? := by
    apply take_inj
    intro limit hlimit
    have hrecent : mem.getRecent limit = store.getRecent limit :=
      Answer.recent.inj (Except.ok.inj (halike limit hlimit))
    rwa [Mem.getRecent_eq hmem hwritten, Rocks.getRecent_eq hep hstore hwritten,
      Nat.max_eq_left hlimit] at hrecent
  have hlen := congrArg List.length hlists
  rwa [length_known hwritten, length_known hwritten, List.length_reverse, List.length_reverse]
    at hlen
  · exact List.reverse_subset.mpr (List.Subset.refl _)
  · exact List.reverse_subset.mpr (recentOrder_subset hmem)

theorem alike_getMyEpisodes_iff (hids : Bincode.Lawful (List UInt64)) (hmem : Mem.Shows idx mem)
    (hstore : Rocks.Holds idx store.db) (pubkey : String) :
    ((∀ limit, 1 ≤ limit →
        answer mem (.getMyEpisodes pubkey limit) = answer store (.getMyEpisodes pubkey limit)) ↔
      (idx.mine pubkey).Pairwise (· < ·)) ∧
    ((idx.mine pubkey).Pairwise (· < ·) → ∀ limit,
        answer mem (.getMyEpisodes pubkey limit) = answer store (.getMyEpisodes pubkey limit)) := by
  obtain ⟨list, hlist, hsorted, hsame⟩ := Mem.getMyEpisodes_sorted hmem pubkey
  have halike : (idx.mine pubkey).Pairwise (· < ·) → ∀ limit,
      answer mem (.getMyEpisodes pubkey limit) = answer store (.getMyEpisodes pubkey limit) := by
    intro hmine limit
    change Except.ok (Answer.mine _) = Except.ok (Answer.mine _)
    rw [hlist, Rocks.getMyEpisodes_eq hids hstore, eq_of_sorted id hsorted hmine hsame]
  refine ⟨⟨fun h => ?_, fun hmine limit _ => halike hmine limit⟩, halike⟩
  have heq : list = idx.mine pubkey := by
    apply take_inj
    intro limit hlimit
    rw [← hlist, ← Rocks.getMyEpisodes_eq hids hstore]
    exact Answer.mine.inj (Except.ok.inj (h limit hlimit))
  rw [← heq]
  exact hsorted

theorem alike_stats (hmem : Mem.Shows idx mem) (hstore : Rocks.Holds idx store.db) :
    answer mem .stats = answer store .stats := by
  change Except.ok (Answer.stats _) = Except.ok (Answer.stats _)
  rw [Mem.stats_eq hmem, Rocks.stats_eq hstore]

end Compare

/-! ### What the calls must be -/

def Joins (earlier : List Op) (op : Op) : Prop :=
  ∀ pubkey id, op = .addMembership pubkey id → .addMembership pubkey id ∈ earlier ∨
    ∀ id', .addMembership pubkey id' ∈ earlier → id' < id

/-- No two episodes share a time of creation, and each key joins its episodes in order. -/
structure Orderly (ops : List Op) : Prop where
  apart : ∀ ep ep', .upsertEpisode ep ∈ ops → .upsertEpisode ep' ∈ ops →
    ep.createdAt = ep'.createdAt → ep.episodeId = ep'.episodeId
  joins : Throughout Joins ops

/-- What a limit of zero asks for besides: no comments where there is an episode, and elsewhere
no comment after the first. -/
structure Indistinct (ops : List Op) : Prop extends Orderly ops where
  bare : ∀ ep row, .upsertEpisode ep ∈ ops → .addComment row ∈ ops →
    row.episodeId ≠ ep.episodeId
  headed : ∀ id first row, lastRow ops id first.commentId = some first →
    (∀ other, lastRow ops id other.commentId = some other → first.commentId ≤ other.commentId) →
    lastRow ops id row.commentId = some row → row.timestamp ≤ first.timestamp

section Calls
variable {ops : List Op} {idx : Index}

theorem Written.apart_iff (h : Written ops idx) :
    (∀ ts id id', (ts, id) ∈ idx.recent → (ts, id') ∈ idx.recent → id = id') ↔
      ∀ ep ep', .upsertEpisode ep ∈ ops → .upsertEpisode ep' ∈ ops →
        ep.createdAt = ep'.createdAt → ep.episodeId = ep'.episodeId := by
  constructor
  · intro hapart ep ep' hep hep' hts
    apply hapart ep.createdAt
    · exact (h.recent _ _).mpr ⟨ep, hep, rfl, rfl⟩
    · exact (h.recent _ _).mpr ⟨ep', hep', hts.symm, rfl⟩
  · intro hapart ts id id' hid hid'
    obtain ⟨ep, hep, rfl, rfl⟩ := (h.recent _ _).mp hid
    obtain ⟨ep', hep', hts, rfl⟩ := (h.recent _ _).mp hid'
    exact hapart ep ep' hep hep' hts.symm

theorem joined_sorted_iff (h : Written ops idx) (pubkey : String) (id : UInt64) :
    (idx.joined pubkey id).Pairwise (· < ·) ↔
      (idx.mine pubkey).Pairwise (· < ·) ∧ Joins ops (.addMembership pubkey id) := by
  have hjoins : Joins ops (.addMembership pubkey id) ↔
      id ∈ idx.mine pubkey ∨ ∀ id' ∈ idx.mine pubkey, id' < id := by
    simp only [h.mine]
    constructor
    · intro hj
      exact hj pubkey id rfl
    · rintro hj _ _ ⟨rfl, rfl⟩
      exact hj
  rw [hjoins]
  unfold Index.joined
  split
  · rename_i hmem
    exact ⟨fun hs => ⟨hs, .inl hmem⟩, fun hs => hs.1⟩
  · rename_i hmem
    rw [List.pairwise_append]
    simp only [List.pairwise_singleton, List.mem_singleton, forall_eq, true_and, hmem, false_or]

theorem mine_sorted_iff (ops : List Op) :
    (∀ pubkey, ((Index.after ops).mine pubkey).Pairwise (· < ·)) ↔ Throughout Joins ops := by
  induction ops using List.reverseRecOn with
  | nil =>
    refine iff_of_true (fun pubkey => ?_) Throughout.nil
    simp [Index.after, Index.empty, Index.mine]
  | append_singleton ops op ih =>
    rw [Throughout.concat, ← ih, Index.after_concat]
    cases op with
    | addMembership pubkey id =>
      have hjoined := joined_sorted_iff (Written.after ops) pubkey id
      constructor
      · intro h
        obtain ⟨hself, hjoins⟩ := hjoined.mp (Index.mine_self _ pubkey id ▸ h pubkey)
        refine ⟨fun pubkey' => ?_, hjoins⟩
        by_cases hkey : pubkey = pubkey'
        · rw [← hkey]
          exact hself
        · rw [← Index.mine_other hkey]
          exact h pubkey'
      · rintro ⟨h, hjoins⟩ pubkey'
        by_cases hkey : pubkey = pubkey'
        · rw [← hkey, Index.mine_self]
          exact hjoined.mpr ⟨h pubkey, hjoins⟩
        · rw [Index.mine_other hkey]
          exact h pubkey'
    | _ =>
      refine ⟨fun h => ⟨h, ?_⟩, fun h => h.1⟩
      intro pubkey id hop
      cases hop

theorem Written.bare_iff (h : Written ops idx) :
    (∀ id, idx.episodes[id]? = none ∨ idx.rows id = []) ↔
      ∀ ep row, .upsertEpisode ep ∈ ops → .addComment row ∈ ops →
        row.episodeId ≠ ep.episodeId := by
  constructor
  · intro hbare ep row hep hrow heq
    obtain ⟨row', hlast⟩ := lastRow_isSome hrow
    obtain ⟨-, hid, hcid⟩ := of_lastRow hlast
    rcases hbare row.episodeId with hnone | hnil
    · rw [heq] at hnone
      have hmem := ExtTreeMap.mem_iff_isSome_getElem?.mp (h.upserted ep hep)
      rw [hnone] at hmem
      cases hmem
    · have hmem : row' ∈ idx.rows row.episodeId := by
        rw [h.mem_rows, hcid]
        exact hlast
      rw [hnil] at hmem
      cases hmem
  · intro hbare id
    cases hget : idx.episodes[id]? with
    | none => exact .inl rfl
    | some ep =>
      obtain ⟨hep, rfl⟩ := h.episode id ep hget
      refine .inr (List.eq_nil_iff_forall_not_mem.mpr fun row hrow => ?_)
      obtain ⟨hmem, hid, -⟩ := of_lastRow (h.mem_rows.mp hrow)
      exact hbare ep row hep hmem hid

theorem Written.headed_iff (h : Written ops idx) (id : UInt64) :
    (∀ first rest, idx.rows id = first :: rest → ∀ row ∈ rest, row.timestamp ≤ first.timestamp) ↔
      ∀ first row, lastRow ops id first.commentId = some first →
        (∀ other, lastRow ops id other.commentId = some other →
          first.commentId ≤ other.commentId) →
        lastRow ops id row.commentId = some row → row.timestamp ≤ first.timestamp := by
  have hsorted := h.rows_sorted id
  simp only [← h.mem_rows]
  constructor
  · intro hheaded first row hfirst hleast hrow
    rcases hrows : idx.rows id with _ | ⟨head, rest⟩
    · rw [hrows] at hrow
      cases hrow
    · rw [hrows] at hsorted hfirst hrow
      have hmem : head ∈ idx.rows id := by
        rw [hrows]
        exact List.mem_cons_self
      obtain rfl : first = head := by
        rcases List.mem_cons.mp hfirst with heq | hin
        · exact heq
        · have hlt := List.rel_of_pairwise_cons hsorted hin
          exact absurd hlt (UInt64.not_lt.mpr (hleast head hmem))
      rcases List.mem_cons.mp hrow with rfl | hin
      · exact UInt64.le_refl _
      · exact hheaded first rest hrows row hin
  · intro hheaded first rest hrows row hrow
    rw [hrows] at hheaded hsorted
    refine hheaded first row List.mem_cons_self (fun other hother => ?_)
      (List.mem_cons_of_mem _ hrow)
    rcases List.mem_cons.mp hother with rfl | hin
    · exact UInt64.le_refl _
    · exact UInt64.le_of_lt (List.rel_of_pairwise_cons hsorted hin)

end Calls

def Query.limit : Query → Option ℕ
  | .getEpisode _ recent => some recent
  | .getCommentsAfter _ _ limit => some limit
  | .getRecent limit => some limit
  | .getMyEpisodes _ limit => some limit
  | .stats => none

section Stores
variable [RocksDb] [Bincode EpisodeSnapshot] [Bincode CommentRow] [Bincode (List UInt64)]

/-- After these calls both stores answer alike whatever `asked` allows to ask. -/
def AlikeAfter (asked : Query → Prop) (ops : List Op) : Prop :=
  ∃ mem store, performAll ops Mem.init = .ok mem ∧ performAll ops Rocks.openDefault = .ok store ∧
    ∀ q, asked q → answer mem q = answer store q

variable (hexact : RocksDb.Exact) (hep : Bincode.Lawful EpisodeSnapshot)
  (hrow : Bincode.Lawful CommentRow) (hids : Bincode.Lawful (List UInt64))
include hexact hep hrow hids

omit hexact hep hrow hids in
theorem alikeAfter_iff {asked : Query → Prop} {ops : List Op} {mem : Mem} {store : Rocks}
    (hmem : performAll ops Mem.init = .ok mem)
    (hstore : performAll ops Rocks.openDefault = .ok store) :
    AlikeAfter asked ops ↔ ∀ q, asked q → answer mem q = answer store q := by
  constructor
  · rintro ⟨mem', store', hmem', hstore', h⟩
    rw [hmem] at hmem'
    rw [hstore] at hstore'
    cases hmem'
    cases hstore'
    exact h
  · intro h
    exact ⟨mem, store, hmem, hstore, h⟩

omit hexact hrow in
theorem alike_of_orderly {ops : List Op} {mem : Mem} {store : Rocks}
    (hshows : Mem.Shows (Index.after ops) mem) (hholds : Rocks.Holds (Index.after ops) store.db)
    (h : Orderly ops) {asked : Query → Prop}
    (hepisode : ∀ id recent, asked (.getEpisode id recent) →
      answer mem (.getEpisode id recent) = answer store (.getEpisode id recent))
    (hcomments : ∀ id afterTs limit, asked (.getCommentsAfter id afterTs limit) →
      answer mem (.getCommentsAfter id afterTs limit) =
        answer store (.getCommentsAfter id afterTs limit)) :
    ∀ q, asked q → answer mem q = answer store q := by
  have hwritten := Written.after ops
  intro q hq
  cases q with
  | getEpisode id recent => exact hepisode id recent hq
  | getCommentsAfter id afterTs limit => exact hcomments id afterTs limit hq
  | getRecent limit =>
    exact alike_getRecent hep hshows hholds hwritten (hwritten.apart_iff.mpr h.apart) limit
  | getMyEpisodes pubkey limit =>
    exact (alike_getMyEpisodes_iff hids hshows hholds pubkey).2
      ((mine_sorted_iff ops).mpr h.joins pubkey) limit
  | stats => exact alike_stats hshows hholds

theorem alike_above_zero_iff (ops : List Op) :
    AlikeAfter (fun q => ∀ n, q.limit = some n → 1 ≤ n) ops ↔ Orderly ops := by
  obtain ⟨mem, store, hmem, hstore, hshows, hholds⟩ := stores_keep hep hrow hids ops
  have hwritten := Written.after ops
  rw [alikeAfter_iff hmem hstore]
  constructor
  · intro h
    refine ⟨hwritten.apart_iff.mp fun ts id id' => ?_, (mine_sorted_iff ops).mp fun pubkey => ?_⟩
    · exact apart_of_alike hep hshows hholds hwritten
        fun limit hlimit => h _ fun n hn => Option.some.inj hn ▸ hlimit
    · exact (alike_getMyEpisodes_iff hids hshows hholds pubkey).1.mp
        fun limit hlimit => h _ fun n hn => Option.some.inj hn ▸ hlimit
  · intro h
    apply alike_of_orderly hep hids hshows hholds h
    · intro id recent hasked
      exact (alike_getEpisode_iff hexact hep hrow hshows hholds hwritten id recent).mpr
        (.inl (hasked recent rfl))
    · intro id afterTs limit hasked
      exact (alike_getCommentsAfter_iff hexact hrow hshows hholds id afterTs limit).mpr
        (.inl (hasked limit rfl))

/-- With any limits, if and only if they were indistinct. -/
theorem interchangeable_iff (ops : List Op) : AlikeAfter (fun _ => True) ops ↔ Indistinct ops := by
  obtain ⟨mem, store, hmem, hstore, hshows, hholds⟩ := stores_keep hep hrow hids ops
  have hwritten := Written.after ops
  have hpositive := alike_above_zero_iff hexact hep hrow hids ops
  rw [alikeAfter_iff hmem hstore] at hpositive ⊢
  constructor
  · intro h
    refine ⟨hpositive.mp fun q _ => h q trivial, hwritten.bare_iff.mp fun id => ?_, fun id => ?_⟩
    · have hzero :=
        (alike_getEpisode_iff hexact hep hrow hshows hholds hwritten id 0).mp (h _ trivial)
      exact hzero.resolve_left (Nat.not_succ_le_zero 0)
    · refine (hwritten.headed_iff id).mp ((later_take_iff _).mp fun afterTs => ?_)
      have hzero :=
        (alike_getCommentsAfter_iff hexact hrow hshows hholds id afterTs 0).mp (h _ trivial)
      exact hzero.resolve_left (Nat.not_succ_le_zero 0)
  · intro h
    apply alike_of_orderly hep hids hshows hholds h.toOrderly
    · intro id recent _
      exact (alike_getEpisode_iff hexact hep hrow hshows hholds hwritten id recent).mpr
        (.inr (hwritten.bare_iff.mpr h.bare id))
    · intro id afterTs limit _
      refine (alike_getCommentsAfter_iff hexact hrow hshows hholds id afterTs limit).mpr (.inr ?_)
      exact (later_take_iff _).mpr ((hwritten.headed_iff id).mpr (h.headed id)) afterTs

end Stores

namespace SampleBincode

attribute [local instance] heldToPrefix snapshots rows lists

def twins : List Op :=
  [.upsertEpisode ⟨1, none, 5, 0⟩, .upsertEpisode ⟨2, none, 5, 0⟩]

def neighbours : List Op :=
  [.upsertEpisode ⟨1, none, 5, 0⟩, .upsertEpisode ⟨2, none, 6, 0⟩, .addMembership "k" 1,
    .addMembership "k" 2]

theorem neighbours_join : Throughout Joins neighbours := by
  intro n op hop
  match n with
  | 0 | 1 =>
    cases hop
    exact fun _ _ h => nomatch h
  | 2 =>
    cases hop
    rintro pubkey id ⟨⟩
    refine .inr fun id' hid' => ?_
    have hearlier : Op.addMembership "k" id' ∈ neighbours.take 2 := hid'
    simp [neighbours] at hearlier
  | 3 =>
    cases hop
    rintro pubkey id ⟨⟩
    refine .inr fun id' hid' => ?_
    have hearlier : Op.addMembership "k" id' ∈ neighbours.take 3 := hid'
    obtain rfl : id' = 1 := by simpa [neighbours] using hearlier
    decide
  | n + 4 => cases hop

theorem interchangeable_iff_at : AlikeAfter (fun _ => True) neighbours := by
  refine (interchangeable_iff heldToPrefix_exact snapshots_lawful rows_lawful lists_lawful
    neighbours).mpr ⟨⟨?_, neighbours_join⟩, ?_, ?_⟩
  · intro ep ep' hep hep' htime
    simp only [neighbours, List.mem_cons, Op.upsertEpisode.injEq, reduceCtorEq, List.not_mem_nil,
      or_false] at hep hep'
    rcases hep with rfl | rfl <;> rcases hep' with rfl | rfl <;> first | rfl | cases htime
  · intro ep row _ hrow
    simp [neighbours] at hrow
  · intro id first row hfirst
    cases hfirst

/-- The memory lists one of them, the database both. -/
theorem twin_dropped : ¬ AlikeAfter (fun _ => True) twins := by
  rintro ⟨mem, store, hmem, hstore, halike⟩
  have hdiffer : (performAll twins Mem.init).toOption.map
        (fun mem => (answer mem (.getRecent 50)).toOption) ≠
      (performAll twins Rocks.openDefault).toOption.map
        fun store => (answer store (.getRecent 50)).toOption := by
    decide +kernel
  apply hdiffer
  have hrecent := halike (.getRecent 50) trivial
  simp only [hmem, hstore, hrecent, Except.toOption, Option.map_some]

end SampleBincode
end Kdapp.Indexer
