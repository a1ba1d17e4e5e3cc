import Kdapp.Indexer

/-! What an index holds, whichever store it is in, and the keys under which the database keeps
it. -/

namespace Kdapp.Indexer
open Borsh Keyspace Outcome FiniteMap
open Std (ExtTreeMap)
open WriteThrough (Tree)

attribute [local instance] lexOrd

structure Index where
  episodes : ExtTreeMap UInt64 EpisodeSnapshot
  /-- The times of creation, each with the episodes that were written with it. -/
  recent : ExtTreeMap (UInt64 × UInt64) Unit
  comments : ExtTreeMap (UInt64 × UInt64) CommentRow
  /-- In the order of the first writes. -/
  members : ExtTreeMap String (List UInt64)

namespace Index

def empty : Index := ⟨∅, ∅, ∅, ∅⟩

def mine (self : Index) (pubkey : String) : List UInt64 := (self.members[pubkey]?).getD []

def joined (self : Index) (pubkey : String) (episodeId : UInt64) : List UInt64 :=
  if episodeId ∈ self.mine pubkey then self.mine pubkey else self.mine pubkey ++ [episodeId]

def rows (self : Index) (id : UInt64) : List CommentRow :=
  (self.comments.toList.filter fun e => e.1.1 = id).map (·.2)

def write (self : Index) : Op → Index
  | .upsertEpisode ep =>
    { self with
      episodes := self.episodes.insert ep.episodeId ep
      recent := self.recent.insert (ep.createdAt, ep.episodeId) () }
  | .addComment row =>
    { self with comments := self.comments.insert (row.episodeId, row.commentId) row }
  | .addMembership pubkey episodeId =>
    { self with members := self.members.insert pubkey (self.joined pubkey episodeId) }

theorem mem_joined {self : Index} {pubkey : String} {episodeId id : UInt64} :
    id ∈ self.joined pubkey episodeId ↔ id = episodeId ∨ id ∈ self.mine pubkey := by
  unfold joined
  split
  · rename_i hmem
    refine ⟨.inr, ?_⟩
    rintro (rfl | hid)
    · exact hmem
    · exact hid
  · rw [List.mem_append, List.mem_singleton]
    exact Or.comm

theorem mine_self (self : Index) (pubkey : String) (episodeId : UInt64) :
    (self.write (.addMembership pubkey episodeId)).mine pubkey = self.joined pubkey episodeId := by
  simp only [mine, write, ExtTreeMap.getElem?_insert_self, Option.getD_some]

theorem mine_other {self : Index} {pubkey pubkey' : String} (h : pubkey ≠ pubkey')
    {episodeId : UInt64} :
    (self.write (.addMembership pubkey episodeId)).mine pubkey' = self.mine pubkey' := by
  simp only [mine, write, getElem?_insert_of_ne h]

def after (ops : List Op) : Index := ops.foldl write empty

theorem after_concat (ops : List Op) (op : Op) : after (ops ++ [op]) = (after ops).write op := by
  rw [after, List.foldl_append]
  rfl

end Index

theorem performAll_keeps {S : Type} [StoreTrait S] {P : Index → S → Prop}
    (hstep : ∀ idx store op, P idx store → ∃ next, perform store op = .ok next ∧
      P (idx.write op) next)
    {idx : Index} {store : S} (h : P idx store) (ops : List Op) :
    ∃ last, performAll ops store = .ok last ∧ P (ops.foldl Index.write idx) last := by
  induction ops generalizing idx store with
  | nil => exact ⟨store, rfl, h⟩
  | cons op ops ih =>
    obtain ⟨next, hop, hnext⟩ := hstep idx store op h
    obtain ⟨last, hops, hlast⟩ := ih hnext
    exact ⟨last, (bind_of_ok _ hop).trans hops, hlast⟩

namespace Rocks

/-! ### Keys -/

theorem beBytes_compare {a b : UInt64} (h : compare a b = .lt) :
    compare (beBytes 8 a.toNat) (beBytes 8 b.toNat) = .lt :=
  beBytes_lt (UInt64.lt_iff_toNat_lt.mp (Std.compare_eq_lt.mp h)) b.toNat_lt

theorem cons_compare (tag : UInt8) (xs ys : Bytes) :
    compare (tag :: xs) (tag :: ys) = compare xs ys := by
  change List.compareLex compare (tag :: xs) (tag :: ys) = _
  rw [List.compareLex_cons_cons, Std.ReflOrd.compare_self]
  rfl

theorem keyEp_ascends : Ascends keyEp := by
  intro a b h
  rw [keyEp, keyEp, cons_compare]
  exact beBytes_compare h

theorem beBytes_inj {a b : UInt64} (h : beBytes 8 a.toNat = beBytes 8 b.toNat) : a = b :=
  keyEp_ascends.injective (congrArg (101 :: ·) h)

theorem pair_ascends (tag : UInt8) : Ascends fun k : UInt64 × UInt64 =>
    tag :: (beBytes 8 k.1.toNat ++ beBytes 8 k.2.toNat) := by
  rintro ⟨a, c⟩ ⟨b, d⟩ h
  have hlen : (beBytes 8 a.toNat).length = (beBytes 8 b.toNat).length := by
    rw [beBytes_length, beBytes_length]
  rw [cons_compare, compare_append hlen]
  change (compare a b).then (compare c d) = .lt at h
  rcases Ordering.then_eq_lt.mp h with hfst | ⟨hfst, hsnd⟩
  · rw [beBytes_compare hfst]
    rfl
  · obtain rfl := Std.LawfulEqOrd.eq_of_compare hfst
    rw [compare_self]
    exact beBytes_compare hsnd

theorem keyRecent_ascends : Ascends fun k : UInt64 × UInt64 => keyRecent k.1 k.2 :=
  pair_ascends 114

theorem keyComment_ascends : Ascends fun k : UInt64 × UInt64 => keyComment k.1 k.2 :=
  pair_ascends 99

theorem asBytes_injective : Function.Injective asBytes := by
  intro a b h
  apply String.toByteArray_inj.mp
  exact ByteArray.ext (Array.toList_inj.mp h)

theorem keyMembers_injective : Function.Injective keyMembers := by
  intro a b h
  exact asBytes_injective (List.cons.inj h).2

theorem cons_ne {tag tag' : UInt8} (h : tag ≠ tag') (xs ys : Bytes) : tag :: xs ≠ tag' :: ys := by
  intro heq
  exact h (List.cons.inj heq).1

inductive IsKey : Bytes → Prop
  | ep (id) : IsKey (keyEp id)
  | recent (ts id) : IsKey (keyRecent ts id)
  | comment (id cid) : IsKey (keyComment id cid)
  | members (pubkey) : IsKey (keyMembers pubkey)

namespace IsKey
variable {k : Bytes}

theorem other {K : Type} {tag tag' : UInt8} (h : tag ≠ tag') (ys : K → Bytes) (xs : Bytes) :
    (tag' :: xs).head? = some tag ↔ ∃ k, tag :: ys k = tag' :: xs := by
  apply iff_of_false
  · intro hhead
    exact h (Option.some.inj hhead).symm
  · rintro ⟨k, hk⟩
    exact cons_ne h _ _ hk

theorem head_ep (h : IsKey k) : k.head? = some 101 ↔ ∃ id, keyEp id = k := by
  cases h with
  | ep id => exact iff_of_true rfl ⟨id, rfl⟩
  | _ => exact other (by decide) _ _

theorem head_recent (h : IsKey k) :
    k.head? = some 114 ↔ ∃ key : UInt64 × UInt64, keyRecent key.1 key.2 = k := by
  cases h with
  | recent ts id => exact iff_of_true rfl ⟨(ts, id), rfl⟩
  | _ => exact other (by decide) _ _

theorem head_comment (h : IsKey k) :
    k.head? = some 99 ↔ ∃ key : UInt64 × UInt64, keyComment key.1 key.2 = k := by
  cases h with
  | comment id cid => exact iff_of_true rfl ⟨(id, cid), rfl⟩
  | _ => exact other (by decide) _ _

theorem head_members (h : IsKey k) : k.head? = some 109 ↔ ∃ pubkey, keyMembers pubkey = k := by
  cases h with
  | members pubkey => exact iff_of_true rfl ⟨pubkey, rfl⟩
  | _ => exact other (by decide) _ _

end IsKey

@[simp] theorem isRecent_keyRecent (ts id : UInt64) : isRecent (keyRecent ts id) = true := by
  simp [isRecent, keyRecent]

theorem IsKey.isRecent_iff {k : Bytes} (h : IsKey k) :
    isRecent k = true ↔ ∃ key : UInt64 × UInt64, keyRecent key.1 key.2 = k := by
  constructor
  · intro hrecent
    exact h.head_recent.mp (of_decide_eq_true hrecent).1
  · rintro ⟨key, rfl⟩
    exact isRecent_keyRecent key.1 key.2

@[simp] theorem recentId_keyRecent (ts id : UInt64) : recentId (keyRecent ts id) = id := by
  have hdrop : (keyRecent ts id).drop 9 = beBytes 8 id.toNat :=
    List.drop_left' (beBytes_length 8 ts.toNat)
  have hsmall : id.toNat % 256 ^ 8 = id.toNat := Nat.mod_eq_of_lt id.toNat_lt
  rw [recentId, hdrop, beBytes, List.reverse_reverse, ofLeBytes_leBytes, hsmall,
    UInt64.ofNat_toNat]

theorem isPrefixOf_keyComment (id : UInt64) (key : UInt64 × UInt64) :
    (keyCommentPrefix id).isPrefixOf (keyComment key.1 key.2) = decide (key.1 = id) := by
  have hkey : keyComment key.1 key.2 = keyCommentPrefix key.1 ++ beBytes 8 key.2.toNat := rfl
  rw [Bool.eq_iff_iff, List.isPrefixOf_iff_prefix, decide_eq_true_eq, hkey]
  constructor
  · intro hpre
    have hlen : (keyCommentPrefix id).length = (keyCommentPrefix key.1).length := by
      simp [keyCommentPrefix]
    have heq := (List.prefix_of_prefix_length_le hpre (List.prefix_append _ _)
      (Nat.le_of_eq hlen)).eq_of_length hlen
    exact beBytes_inj (List.cons.inj heq).2.symm
  · rintro rfl
    exact List.prefix_append _ _

/-! ### The database -/

section
variable [Bincode EpisodeSnapshot] [Bincode CommentRow] [Bincode (List UInt64)]

structure Holds (idx : Index) (db : Tree) : Prop where
  episodes : Kept keyEp Bincode.serialize idx.episodes db
  recent : Kept (fun k : UInt64 × UInt64 => keyRecent k.1 k.2) (fun _ : Unit => some [])
    idx.recent db
  comments : Kept (fun k : UInt64 × UInt64 => keyComment k.1 k.2) Bincode.serialize idx.comments db
  members : Kept keyMembers Bincode.serialize idx.members db
  only : ∀ k ∈ db, IsKey k

namespace Holds
variable {idx : Index} {db : Tree}

theorem empty : Holds Index.empty openDefault.db where
  episodes := .empty
  recent := .empty
  comments := .empty
  members := .empty
  only _ h := absurd h ExtTreeMap.not_mem_empty

theorem only_insert (h : Holds idx db) {k : Bytes} (hk : IsKey k) (v : Bytes) :
    ∀ k' ∈ db.insert k v, IsKey k' := by
  intro k' hk'
  rcases ExtTreeMap.mem_insert.mp hk' with heq | hmem
  · rwa [← Std.LawfulEqOrd.eq_of_compare heq]
  · exact h.only k' hmem

theorem upsertEpisode (h : Holds idx db) {ep : EpisodeSnapshot} {v : Bytes}
    (hv : Bincode.serialize ep = some v) :
    Holds (idx.write (.upsertEpisode ep))
      ((db.insert (keyEp ep.episodeId) v).insert (keyRecent ep.createdAt ep.episodeId) []) := by
  have hep : Holds { idx with episodes := idx.episodes.insert ep.episodeId ep }
      (db.insert (keyEp ep.episodeId) v) :=
    ⟨h.episodes.insert keyEp_ascends.injective hv,
      h.recent.insert_other (fun _ => cons_ne (by decide) _ _) v,
      h.comments.insert_other (fun _ => cons_ne (by decide) _ _) v,
      h.members.insert_other (fun _ => cons_ne (by decide) _ _) v, h.only_insert (.ep _) v⟩
  exact ⟨hep.episodes.insert_other (fun _ => cons_ne (by decide) _ _) [],
    hep.recent.insert (k := (ep.createdAt, ep.episodeId)) keyRecent_ascends.injective rfl,
    hep.comments.insert_other (fun _ => cons_ne (by decide) _ _) [],
    hep.members.insert_other (fun _ => cons_ne (by decide) _ _) [],
    hep.only_insert (.recent _ _) []⟩

theorem addComment (h : Holds idx db) {row : CommentRow} {v : Bytes}
    (hv : Bincode.serialize row = some v) :
    Holds (idx.write (.addComment row)) (db.insert (keyComment row.episodeId row.commentId) v) :=
  ⟨h.episodes.insert_other (fun _ => cons_ne (by decide) _ _) v,
    h.recent.insert_other (fun _ => cons_ne (by decide) _ _) v,
    h.comments.insert (k := (row.episodeId, row.commentId)) keyComment_ascends.injective hv,
    h.members.insert_other (fun _ => cons_ne (by decide) _ _) v, h.only_insert (.comment _ _) v⟩

theorem members_eq (hids : Bincode.Lawful (List UInt64)) (h : Holds idx db) (pubkey : String) :
    Rocks.members ⟨db⟩ pubkey = idx.mine pubkey := by
  unfold Rocks.members Index.mine
  dsimp only
  rw [h.members.entry]
  cases hlist : idx.members[pubkey]? with
  | none => rfl
  | some list =>
    obtain ⟨bytes, hbytes, hread⟩ := hids list
    simp only [Option.bind_some, hbytes, hread, Option.getD_some]

theorem addMembership (h : Holds idx db) {pubkey : String} {episodeId : UInt64} {v : Bytes}
    (hv : Bincode.serialize (idx.joined pubkey episodeId) = some v) :
    Holds (idx.write (.addMembership pubkey episodeId)) (db.insert (keyMembers pubkey) v) :=
  ⟨h.episodes.insert_other (fun _ => cons_ne (by decide) _ _) v,
    h.recent.insert_other (fun _ => cons_ne (by decide) _ _) v,
    h.comments.insert_other (fun _ => cons_ne (by decide) _ _) v,
    h.members.insert keyMembers_injective hv, h.only_insert (.members _) v⟩

theorem rows (hrow : Bincode.Lawful CommentRow) (h : Holds idx db) (id : UInt64) :
    List.Forall₂ (fun kv row => Bincode.deserialize kv.2 = some row)
      (db.toList.filter fun kv => (keyCommentPrefix id).isPrefixOf kv.1) (idx.rows id) := by
  have hmine : ∀ k ∈ db, (keyCommentPrefix id).isPrefixOf k = true →
      ∃ key : UInt64 × UInt64, keyComment key.1 key.2 = k := by
    intro k hk hpre
    obtain ⟨rest, rfl⟩ := List.isPrefixOf_iff_prefix.mp hpre
    exact (h.only _ hk).head_comment.mp rfl
  have hfilter : (idx.comments.toList.filter fun e => decide (e.1.1 = id)) =
      idx.comments.toList.filter fun e =>
        (keyCommentPrefix id).isPrefixOf (keyComment e.1.1 e.1.2) := by
    simp only [isPrefixOf_keyComment]
  rw [Index.rows, List.forall₂_map_right_iff, hfilter]
  refine List.Forall₂.imp ?_ (h.comments.entries_forall₂ keyComment_ascends hmine)
  rintro kv e ⟨-, hwritten⟩
  exact hrow.read hwritten

theorem episode_read (hep : Bincode.Lawful EpisodeSnapshot) (h : Holds idx db) (id : UInt64) :
    (db[keyEp id]?).bind Bincode.deserialize = idx.episodes[id]? := by
  rw [h.episodes.entry]
  cases idx.episodes[id]? with
  | none => rfl
  | some ep =>
    obtain ⟨bytes, hbytes, hread⟩ := hep ep
    rw [Option.bind_some, hbytes, Option.bind_some, hread]

theorem recents (h : Holds idx db) :
    List.Forall₂ (fun kv e => kv.1 = keyRecent e.1.1 e.1.2)
      (db.toList.filter fun kv => isRecent kv.1) idx.recent.toList := by
  have hentries := h.recent.entries_forall₂ keyRecent_ascends
    fun k hk hrecent => (h.only k hk).isRecent_iff.mp hrecent
  have hall : (idx.recent.toList.filter fun e => isRecent (keyRecent e.1.1 e.1.2)) =
      idx.recent.toList :=
    List.filter_eq_self.mpr fun e _ => isRecent_keyRecent e.1.1 e.1.2
  rw [hall] at hentries
  exact hentries.imp fun kv e he => he.1

theorem perform [RocksDb] (hep : Bincode.Lawful EpisodeSnapshot) (hrow : Bincode.Lawful CommentRow)
    (hids : Bincode.Lawful (List UInt64)) {store : Rocks} (h : Holds idx store.db) (op : Op) :
    ∃ r : Rocks, perform store op = .ok r ∧ Holds (idx.write op) r.db := by
  cases op with
  | upsertEpisode ep =>
    obtain ⟨v, hv, -⟩ := hep ep
    refine ⟨_, ?_, h.upsertEpisode hv⟩
    change store.upsertEpisode ep = _
    rw [Rocks.upsertEpisode, serialized, hv]
    rfl
  | addComment row =>
    obtain ⟨v, hv, -⟩ := hrow row
    refine ⟨_, ?_, h.addComment hv⟩
    change store.addComment row = _
    rw [Rocks.addComment, serialized, hv]
    rfl
  | addMembership pubkey episodeId =>
    obtain ⟨v, hv, -⟩ := hids (idx.joined pubkey episodeId)
    refine ⟨_, ?_, h.addMembership hv⟩
    change store.addMembership pubkey episodeId = _
    have hmembers : store.members pubkey = idx.mine pubkey := h.members_eq hids pubkey
    rw [Rocks.addMembership, hmembers]
    change (do let v ← serialized (idx.joined pubkey episodeId); _) = _
    rw [serialized, hv]
    rfl

end Holds
end
end Rocks

/-! ### The maps in memory -/

namespace Mem

/-- The maps show an index, but for the order of memberships and for the episodes that share a
time of creation. -/
structure Shows (idx : Index) (mem : Mem) : Prop where
  episodes : mem.episodes = idx.episodes
  comments : mem.comments = idx.comments
  known : ∀ pubkey, pubkey ∈ mem.memberships ↔ pubkey ∈ idx.members
  mine : ∀ pubkey set, mem.memberships[pubkey]? = some set →
    ∀ id, id ∈ set ↔ id ∈ idx.mine pubkey
  listed : ∀ (ts id : UInt64), mem.recentOrder[ts]? = some id → (ts, id) ∈ idx.recent
  timed : ∀ ts id, (ts, id) ∈ idx.recent → ts ∈ mem.recentOrder

namespace Shows
variable {idx : Index} {mem : Mem}

theorem init : Shows Index.empty Mem.init where
  episodes := rfl
  comments := rfl
  known _ := iff_of_false ExtTreeMap.not_mem_empty ExtTreeMap.not_mem_empty
  mine pubkey set h := by
    simp [Mem.init] at h
  listed ts id h := by
    simp [Mem.init] at h
  timed ts id h := absurd h ExtTreeMap.not_mem_empty

theorem upsertEpisode (h : Shows idx mem) (ep : EpisodeSnapshot) :
    Shows (idx.write (.upsertEpisode ep)) (mem.upsertEpisode ep) where
  episodes := congrArg (·.insert ep.episodeId ep) h.episodes
  comments := h.comments
  known := h.known
  mine := h.mine
  listed ts id hid := by
    apply ExtTreeMap.mem_insert.mpr
    by_cases hts : ep.createdAt = ts
    · subst hts
      rw [show (mem.upsertEpisode ep).recentOrder[ep.createdAt]? = some ep.episodeId from
        ExtTreeMap.getElem?_insert_self] at hid
      obtain rfl := Option.some.inj hid
      exact .inl Std.ReflOrd.compare_self
    · exact .inr (h.listed ts id ((getElem?_insert_of_ne hts _).symm.trans hid))
  timed ts id hid := by
    apply ExtTreeMap.mem_insert.mpr
    rcases ExtTreeMap.mem_insert.mp hid with heq | hmem
    · exact .inl (Std.LawfulEqOrd.compare_eq_iff_eq.mpr
        (congrArg Prod.fst (Std.LawfulEqOrd.eq_of_compare heq)))
    · exact .inr (h.timed ts id hmem)

theorem addComment (h : Shows idx mem) (row : CommentRow) :
    Shows (idx.write (.addComment row)) (mem.addComment row) :=
  { h with comments := congrArg (·.insert (row.episodeId, row.commentId) row) h.comments }

theorem mem_getD (h : Shows idx mem) (pubkey : String) (id : UInt64) :
    id ∈ (mem.memberships[pubkey]?).getD ∅ ↔ id ∈ idx.mine pubkey := by
  cases hset : mem.memberships[pubkey]? with
  | none =>
    have hidx : idx.members[pubkey]? = none := by
      have hknown := h.known pubkey
      grind
    apply iff_of_false
    · exact Std.ExtTreeSet.not_mem_empty
    · rw [Index.mine, hidx]
      exact List.not_mem_nil
  | some set => exact h.mine pubkey set hset id

theorem addMembership (h : Shows idx mem) (pubkey : String) (episodeId : UInt64) :
    Shows (idx.write (.addMembership pubkey episodeId)) (mem.addMembership pubkey episodeId) where
  episodes := h.episodes
  comments := h.comments
  known pubkey' := by
    simp only [Mem.addMembership, Index.write, ExtTreeMap.mem_insert, h.known]
  mine pubkey' set hset id := by
    by_cases hkey : pubkey = pubkey'
    · subst hkey
      have hinserted : (mem.addMembership pubkey episodeId).memberships[pubkey]? =
          some (((mem.memberships[pubkey]?).getD ∅).insert episodeId) :=
        ExtTreeMap.getElem?_insert_self
      obtain rfl := Option.some.inj (hinserted.symm.trans hset)
      rw [Std.ExtTreeSet.mem_insert, h.mem_getD, Index.mine_self, Index.mem_joined,
        Std.LawfulEqOrd.compare_eq_iff_eq, eq_comm]
    · rw [Index.mine_other hkey]
      exact h.mine pubkey' set ((getElem?_insert_of_ne hkey _).symm.trans hset) id
  listed := h.listed
  timed := h.timed

theorem perform (h : Shows idx mem) (op : Op) :
    ∃ m : Mem, perform mem op = .ok m ∧ Shows (idx.write op) m := by
  cases op with
  | upsertEpisode ep => exact ⟨_, rfl, h.upsertEpisode ep⟩
  | addComment row => exact ⟨_, rfl, h.addComment row⟩
  | addMembership pubkey episodeId => exact ⟨_, rfl, h.addMembership pubkey episodeId⟩

end Shows
end Mem
theorem stores_keep [RocksDb] [Bincode EpisodeSnapshot] [Bincode CommentRow]
    [Bincode (List UInt64)]
    (hep : Bincode.Lawful EpisodeSnapshot) (hrow : Bincode.Lawful CommentRow)
    (hids : Bincode.Lawful (List UInt64)) (ops : List Op) :
    ∃ mem store, performAll ops Mem.init = .ok mem ∧
      performAll ops Rocks.openDefault = .ok store ∧ Mem.Shows (Index.after ops) mem ∧
      Rocks.Holds (Index.after ops) store.db := by
  obtain ⟨mem, hmem, hshows⟩ :=
    performAll_keeps (P := Mem.Shows) (fun idx mem op h => h.perform op) Mem.Shows.init ops
  obtain ⟨store, hstore, hholds⟩ :=
    performAll_keeps (P := fun idx (store : Rocks) => Rocks.Holds idx store.db)
      (fun idx store op h => h.perform hep hrow hids op) Rocks.Holds.empty ops
  exact ⟨mem, store, hmem, hstore, hshows, hholds⟩

end Kdapp.Indexer
