import Kdapp.CommentIt.BlockchainEngine
import Kdapp.Indexer.Pages

/-! What the indexer writes for the callbacks of its engine (`kdapp-indexer/src/listener.rs`), and
when its comments and the rooms of the HTTP peer are those of the engine. -/

namespace Kdapp.Indexer
open Outcome FiniteMap
open Std (ExtTreeMap)
open CommentBoard (displayKey)
open CommentIt (AuthWithCommentsEpisode Comment UnifiedCommand Shared)

attribute [local instance] lexOrd

variable [Crypto]

namespace IndexerHandler
variable (episodeId : EpisodeId) (episode : AuthWithCommentsEpisode)

def snapshot : EpisodeSnapshot where
  episodeId := episodeId.toUInt64
  creatorPubkey := episode.creator.map displayKey
  createdAt := episode.createdAt
  authenticatedCount := UInt64.ofNat episode.authenticatedParticipants.size

omit [Crypto] in
def commentRow (newComment : Comment) : CommentRow where
  episodeId := episodeId.toUInt64
  commentId := UInt64.ofNat newComment.id
  author := newComment.author
  text := newComment.text
  timestamp := newComment.timestamp

def onInitialize : List Op := [.upsertEpisode (snapshot episodeId episode)]

def onCommand (cmd : UnifiedCommand) (authorization : Option PubKey)
    (metadata : PayloadMetadata) : List Op :=
  match cmd with
  | .submitResponse _ _ =>
    match authorization with
    | some pk =>
      [.addMembership (displayKey pk) episodeId.toUInt64,
        .upsertEpisode (snapshot episodeId episode)]
    | none => []
  | .submitComment text _ =>
    match episode.comments.getLast? with
    | some newComment => [.addComment (commentRow episodeId newComment)]
    | none =>
      match authorization with
      | some pk =>
        [.addComment {
          episodeId := episodeId.toUInt64
          commentId := 0
          author := displayKey pk
          text
          timestamp := metadata.acceptingTime }]
      | none => []
  | .requestChallenge | .revokeSession _ _ => [.upsertEpisode (snapshot episodeId episode)]

def onRollback (_episodeId : EpisodeId) (_episode : AuthWithCommentsEpisode) : List Op := []

def ops [RandChaCha] : HandlerCall AuthWithCommentsEpisode → List Op
  | .onInitialize id episode => onInitialize id episode
  | .onCommand id episode cmd authorization metadata =>
    onCommand id episode cmd authorization metadata
  | .onRollback id episode => onRollback id episode

omit [Crypto] in
def attempt {S : Type} [StoreTrait S] (store : S) (op : Op) : S :=
  match perform store op with
  | .ok store => store
  | .error _ => store

def after [RandChaCha] {S : Type} [StoreTrait S] (store : S)
    (calls : List (HandlerCall AuthWithCommentsEpisode)) : S :=
  (calls.flatMap ops).foldl attempt store

omit [Crypto] in
theorem foldl_attempt {S : Type} [StoreTrait S] {ops : List Op} {store last : S}
    (h : performAll ops store = .ok last) : ops.foldl attempt store = last := by
  induction ops generalizing store with
  | nil =>
    cases h
    rfl
  | cons op ops ih =>
    obtain ⟨next, hop, hrest⟩ := bind_ok h
    have hnext : attempt store op = next := by
      unfold attempt
      rw [hop]
    rw [List.foldl_cons, hnext]
    exact ih hrest

end IndexerHandler

omit [Crypto] in
def Mem.held (self : Mem) (id : UInt64) : List CommentRow :=
  (self.comments.toList.filter fun e => e.1.1 = id).map (·.2)

omit [Crypto] in
def Rocks.held [Bincode CommentRow] (self : Rocks) (id : UInt64) : List CommentRow :=
  (self.db.toList.filter fun kv => (keyCommentPrefix id).isPrefixOf kv.1).filterMap
    fun kv => Bincode.deserialize kv.2

/-! ### Rooms and their comments -/

open IndexerHandler

omit [Crypto] in
theorem history_append (ops ops' : List Op) (id : UInt64) :
    history (ops ++ ops') id = history ops id ++ history ops' id := List.filterMap_append

omit [Crypto] in
theorem history_addComment (row : CommentRow) (id : UInt64) :
    history [.addComment row] id = if row.episodeId = id then [row] else [] := by
  by_cases hid : row.episodeId = id
  · simp [history, hid]
  · simp [history, hid]

def added (g : AuthWithCommentsEpisode) (pk : PubKey) (md : PayloadMetadata) :
    UnifiedCommand → List Comment
  | .submitComment text _ => [⟨g.nextCommentId, text, displayKey pk, md.acceptingTime⟩]
  | _ => []

variable [RandChaCha]
  {episodes : ExtTreeMap EpisodeId (EpisodeWrapper AuthWithCommentsEpisode)}
  {ew : EpisodeWrapper AuthWithCommentsEpisode} {id : EpisodeId} {ops : List Op}

theorem applied_comments (g : AuthWithCommentsEpisode) (pk : PubKey) (md : PayloadMetadata)
    (cmd : UnifiedCommand) :
    (g.applied pk md cmd).comments = g.comments ++ added g pk md cmd := by
  cases cmd with
  | submitComment text sessionToken => rfl
  | _ => exact (List.append_nil _).symm

theorem history_onCommand (g : AuthWithCommentsEpisode) (pk : PubKey) (md : PayloadMetadata)
    (cmd : UnifiedCommand) (id id' : EpisodeId) :
    history (onCommand id (g.applied pk md cmd) cmd (some pk) md) id'.toUInt64 =
      if id = id' then (added g pk md cmd).map (commentRow id) else [] := by
  cases cmd with
  | submitComment text sessionToken =>
    have hlast : (g.applied pk md (.submitComment text sessionToken)).comments.getLast? =
        some ⟨g.nextCommentId, text, displayKey pk, md.acceptingTime⟩ := by
      rw [applied_comments]
      exact List.getLast?_concat
    have hkey : id.toUInt64 = id'.toUInt64 ↔ id = id' := UInt32.toUInt64_inj
    simp only [onCommand, hlast, history_addComment]
    exact if_congr hkey rfl rfl
  | _ => split_ifs <;> rfl

/-- The comments that were written for each live room are its own; there are none for others. -/
structure Chronicled (episodes : ExtTreeMap EpisodeId (EpisodeWrapper AuthWithCommentsEpisode))
    (ops : List Op) : Prop where
  numbered : ∀ (id : EpisodeId) ew, episodes[id]? = some ew → ew.episode.book.Numbered
  live : ∀ (id : EpisodeId) ew, episodes[id]? = some ew →
    history ops id.toUInt64 = ew.episode.comments.map (commentRow id)
  absent : ∀ id : EpisodeId, episodes[id]? = none → history ops id.toUInt64 = []

namespace Chronicled

theorem nil : Chronicled ∅ [] where
  numbered id ew hew := by
    rw [ExtTreeMap.getElem?_empty] at hew
    cases hew
  live id ew hew := by
    rw [ExtTreeMap.getElem?_empty] at hew
    cases hew
  absent id hnone := rfl

theorem insert (h : Chronicled episodes ops) {ops' : List Op}
    (hnumbered : ew.episode.book.Numbered)
    (hself : history (ops ++ ops') id.toUInt64 = ew.episode.comments.map (commentRow id))
    (hother : ∀ id', id ≠ id' → history ops' id'.toUInt64 = []) :
    Chronicled (episodes.insert id ew) (ops ++ ops') where
  numbered id' ew' hew' := by
    by_cases hid : id = id'
    · subst hid
      rw [ExtTreeMap.getElem?_insert_self] at hew'
      cases hew'
      exact hnumbered
    · rw [getElem?_insert_of_ne hid] at hew'
      exact h.numbered id' ew' hew'
  live id' ew' hew' := by
    by_cases hid : id = id'
    · subst hid
      rw [ExtTreeMap.getElem?_insert_self] at hew'
      cases hew'
      exact hself
    · rw [getElem?_insert_of_ne hid] at hew'
      rw [history_append, hother id' hid, List.append_nil]
      exact h.live id' ew' hew'
  absent id' hnone := by
    by_cases hid : id = id'
    · subst hid
      rw [ExtTreeMap.getElem?_insert_self] at hnone
      cases hnone
    · rw [getElem?_insert_of_ne hid] at hnone
      rw [history_append, hother id' hid, List.append_nil]
      exact h.absent id' hnone

theorem created (h : Chronicled episodes ops) (hnew : id ∉ episodes)
    (participants : List PubKey) (md : PayloadMetadata) :
    Chronicled (episodes.insert id ⟨.create participants md, []⟩)
      (ops ++ onInitialize id (.create participants md)) := by
  apply h.insert
  · exact ⟨rfl, rfl⟩
  · rw [history_append, h.absent id (ExtTreeMap.getElem?_eq_none hnew)]
    rfl
  · exact fun _ _ => rfl

theorem rejected (h : Chronicled episodes ops) (hew : episodes[id]? = some ew) :
    Chronicled (episodes.insert id ⟨ew.episode, ew.rollbackStack⟩) ops := by
  rw [insert_of_getElem? hew]
  exact h

theorem executed (h : Chronicled episodes ops) (hew : episodes[id]? = some ew) (pk : PubKey)
    (md : PayloadMetadata) (cmd : UnifiedCommand) (rollbackStack : List CommentIt.UnifiedRollback) :
    Chronicled (episodes.insert id ⟨ew.episode.applied pk md cmd, rollbackStack⟩)
      (ops ++ onCommand id (ew.episode.applied pk md cmd) cmd (some pk) md) := by
  apply h.insert
  · exact (ew.episode.applied_changes pk ⟨cmd, some pk, md⟩).numbered (h.numbered id ew hew)
  · rw [history_append, h.live id ew hew, history_onCommand, if_pos rfl, applied_comments,
      List.map_append]
  · intro id' hid
    rw [history_onCommand, if_neg hid]

theorem told : Engine.Told fun episodes (calls : List (HandlerCall AuthWithCommentsEpisode)) =>
    Chronicled episodes (calls.flatMap IndexerHandler.ops) where
  created ps md w g w' episodes calls id hinit hnew h := by
    rw [AuthWithCommentsEpisode.run_initialize hinit, List.flatMap_append, List.flatMap_singleton]
    exact h.created hnew ps md
  rejected ew cmd auth md w g e w' episodes calls id hexec hew h := by
    rw [AuthWithCommentsEpisode.run_error hexec]
    exact h.rejected hew
  executed ew cmd auth md w g rb w' episodes calls id hexec hew h := by
    obtain ⟨pk, hadmits, rfl⟩ := AuthWithCommentsEpisode.run_ok hexec
    obtain rfl := hadmits.signed
    rw [List.flatMap_append, List.flatMap_singleton]
    exact h.executed hew pk md cmd (rb :: ew.rollbackStack)

end Chronicled

omit [Crypto] [RandChaCha] in
theorem commentRows_ids {comments : List Comment}
    (hids : comments.map (·.id) = List.range' 1 comments.length)
    (hfits : comments.length < 2 ^ 64) :
    (comments.map (commentRow id)).Pairwise fun a b => a.commentId < b.commentId := by
  have hsorted : comments.Pairwise fun a b => a.id < b.id := by
    rw [← List.pairwise_map, hids]
    exact List.pairwise_lt_range'
  have hsmall : ∀ c ∈ comments, (UInt64.ofNat c.id).toNat = c.id := by
    intro c hc
    have hmem : c.id ∈ comments.map (·.id) := List.mem_map_of_mem hc
    rw [hids, List.mem_range'_1] at hmem
    apply UInt64.toNat_ofNat_of_lt
    change c.id < 2 ^ 64
    omega
  rw [List.pairwise_map]
  refine hsorted.imp_of_mem fun ha hb hab => ?_
  apply UInt64.lt_iff_toNat_lt.mpr
  change (UInt64.ofNat _).toNat < (UInt64.ofNat _).toNat
  rw [hsmall _ ha, hsmall _ hb]
  exact hab

variable [RocksDb] [Bincode EpisodeSnapshot] [Bincode CommentRow] [Bincode (List UInt64)]

/-- The peer's rooms and the indexer's comments, in whichever store, are those of the engine. -/
structure Mirrored (s : Engine AuthWithCommentsEpisode)
    (calls : List (HandlerCall AuthWithCommentsEpisode)) : Prop where
  rooms : Shared s.episodes (CommentIt.HttpAuthHandler.after calls)
  inMemory : ∀ (id : EpisodeId) ew, s.episodes[id]? = some ew →
    (IndexerHandler.after Mem.init calls).held id.toUInt64 =
      ew.episode.comments.map (commentRow id)
  inRocks : ∀ (id : EpisodeId) ew, s.episodes[id]? = some ew →
    (IndexerHandler.after Rocks.openDefault calls).held id.toUInt64 =
      ew.episode.comments.map (commentRow id)

omit [Crypto] [RandChaCha] in
theorem held_eq (hep : Bincode.Lawful EpisodeSnapshot) (hrow : Bincode.Lawful CommentRow)
    (hlist : Bincode.Lawful (List UInt64)) (ops : List Op) (id : UInt64) :
    (ops.foldl attempt Mem.init).held id = (Index.after ops).rows id ∧
      (ops.foldl attempt Rocks.openDefault).held id = (Index.after ops).rows id := by
  obtain ⟨mem, store, hmem, hstore, hshows, hholds⟩ := stores_keep hep hrow hlist ops
  rw [foldl_attempt hmem, foldl_attempt hstore]
  constructor
  · rw [Mem.held, hshows.comments]
    rfl
  · exact Keyspace.Kept.filterMap_of_forall₂ (hholds.rows hrow id)

/-- After every message of a run that takes no live episode back or away, both handlers have what
the engine has. No `Vec` of comments has 2^64 of them. -/
theorem mirrors_follow (hep : Bincode.Lawful EpisodeSnapshot) (hrow : Bincode.Lawful CommentRow)
    (hlist : Bincode.Lawful (List UInt64)) {msgs pre : List EngineMsg}
    {s : Engine AuthWithCommentsEpisode} {calls : List (HandlerCall AuthWithCommentsEpisode)}
    (hquiet : Engine.Undisturbed msgs (Engine.new () : Engine AuthWithCommentsEpisode))
    (hpre : pre <+: msgs) (hrun : Engine.start pre (Engine.new ()) = .ok (s, calls))
    (hfits : ∀ (id : EpisodeId) ew, s.episodes[id]? = some ew →
      ew.episode.comments.length < 2 ^ 64) : Mirrored s calls := by
  have hrooms : Shared s.episodes (CommentIt.HttpAuthHandler.after calls) :=
    Shared.told.reached hquiet hpre hrun Shared.empty
  have hwritten : Chronicled s.episodes (calls.flatMap IndexerHandler.ops) :=
    Chronicled.told.reached hquiet hpre hrun Chronicled.nil
  -- what was written is what is held, as no comment was written over another
  have hheld : ∀ (id : EpisodeId) ew, s.episodes[id]? = some ew →
      (Index.after (calls.flatMap IndexerHandler.ops)).rows id.toUInt64 =
        ew.episode.comments.map (commentRow id) := by
    intro id ew hew
    have hids : (ew.episode.comments.map (commentRow id)).Pairwise
        fun a b => a.commentId < b.commentId :=
      commentRows_ids (hwritten.numbered id ew hew).ids (hfits id ew hew)
    rw [← hwritten.live id ew hew] at hids ⊢
    exact rows_eq (Written.after _) hids
  refine ⟨hrooms, fun id ew hew => ?_, fun id ew hew => ?_⟩
  · rw [← hheld id ew hew]
    exact (held_eq hep hrow hlist _ _).1
  · rw [← hheld id ew hew]
    exact (held_eq hep hrow hlist _ _).2

end Kdapp.Indexer

namespace Kdapp.Indexer.SampleBincode
open Outcome IndexerHandler
open Std (ExtTreeMap)
open CommentIt (AuthWithCommentsEpisode UnifiedCommand HttpAuthHandler.after)
open SignatureVerifier (signText)
attribute [local instance] idealCrypto seedRand runningOn snapshots rows lists lexOrd

def carried (a : EpisodeMessage AuthWithCommentsEpisode) : Borsh.Bytes :=
  ((EpisodeMessage.codec (G := AuthWithCommentsEpisode)).serialize a).getD []

def signed (cmd : UnifiedCommand) : Borsh.Bytes :=
  let message : Option (EpisodeMessage AuthWithCommentsEpisode) :=
    EpisodeMessage.newSignedCommand 5 cmd (1 : UInt8) (1 : UInt8)
  (message.map carried).getD []

def opening : BlkAccepted where
  acceptingHash := Hash.filled 1
  acceptingDaa := 1
  acceptingTime := 10
  associatedTxs := [(Hash.filled 2, carried (.newEpisode 5 [(1 : UInt8)]), none),
    (Hash.filled 3, signed (.submitResponse (signText (1 : UInt8) "n") "n"), none)]

def remark : BlkAccepted where
  acceptingHash := Hash.filled 4
  acceptingDaa := 2
  acceptingTime := 11
  associatedTxs := [(Hash.filled 5, signed (.submitComment "hi" ""), none)]

def quiet : List EngineMsg := [.blkAccepted opening, .blkAccepted remark]

theorem quiet_undisturbed :
    Engine.Undisturbed quiet (Engine.new () : Engine AuthWithCommentsEpisode) := by
  refine ⟨fun id hid => absurd hid ExtTreeMap.not_mem_empty, fun t calls ht => ⟨?_, ?_⟩⟩
  · intro id hid hexpires
    have hnext : t.nextFiltering = 0 := by
      rw [Engine.acceptBlock_nextFiltering ht, Engine.filterOldEpisodes_not_due (by decide)]
      rfl
    have hdue := hexpires.1
    unfold Engine.filteringDue at hdue
    rw [hnext] at hdue
    exact absurd hdue (by decide)
  · exact fun _ _ _ => trivial

/-- After both blocks the room has its comment everywhere. -/
theorem mirrors_follow_quiet : ∃ s calls, Engine.start quiet
    (Engine.new () : Engine AuthWithCommentsEpisode) = .ok (s, calls) ∧ Mirrored s calls := by
  have hone : (Engine.start quiet (Engine.new () : Engine AuthWithCommentsEpisode)).toOption.map
      (fun p => p.1.episodes.toList.map fun e => e.2.episode.comments.length) = some [1] := by
    decide +kernel
  obtain ⟨⟨s, calls⟩, hrun, hlengths⟩ := exists_of_map hone
  refine ⟨s, calls, hrun, mirrors_follow snapshots_lawful rows_lawful lists_lawful
    quiet_undisturbed (List.prefix_refl quiet) hrun ?_⟩
  intro id ew hew
  have hmem : ew.episode.comments.length ∈
      s.episodes.toList.map fun e => e.2.episode.comments.length :=
    List.mem_map_of_mem (ExtTreeMap.mem_toList_iff_getElem?_eq_some.mpr hew)
  have hlength := List.mem_singleton.mp (hlengths ▸ hmem)
  rw [hlength]
  omega

/-- A comment that is taken back is gone from the room, but from neither the peer nor the
indexer. -/
theorem remark_outlives : ∃ s calls ew,
    Engine.start (quiet ++ [.blkReverted remark.acceptingHash])
      (Engine.new () : Engine AuthWithCommentsEpisode) = .ok (s, calls) ∧
      s.episodes[(5 : UInt32)]? = some ew ∧ ew.episode.comments = [] ∧
      ((HttpAuthHandler.after calls)[(5 : UInt64)]?).map (·.comments.length) = some 1 ∧
      ((after Mem.init calls).held 5).length = 1 ∧
      ((after Rocks.openDefault calls).held 5).length = 1 ∧ ¬ Mirrored s calls := by
  have hread : (Engine.start (quiet ++ [.blkReverted remark.acceptingHash])
      (Engine.new () : Engine AuthWithCommentsEpisode)).toOption.map (fun p =>
        ((p.1.episodes[(5 : UInt32)]?).map (·.episode.comments),
          ((HttpAuthHandler.after p.2)[(5 : UInt64)]?).map (·.comments.length),
          ((after Mem.init p.2).held 5).length, ((after Rocks.openDefault p.2).held 5).length)) =
        some (some [], some 1, 1, 1) := by
    decide +kernel
  obtain ⟨⟨s, calls⟩, hrun, hvalues⟩ := exists_of_map hread
  obtain ⟨hroom, hrest⟩ := Prod.mk.inj hvalues
  obtain ⟨hshared, hstores⟩ := Prod.mk.inj hrest
  obtain ⟨hmem, hrocks⟩ := Prod.mk.inj hstores
  obtain ⟨ew, hew, hcomments⟩ := Option.map_eq_some_iff.mp hroom
  refine ⟨s, calls, ew, hrun, hew, hcomments, hshared, hmem, hrocks, fun hmirrored => ?_⟩
  have hheld : (after Mem.init calls).held 5 = ew.episode.comments.map (commentRow 5) :=
    hmirrored.inMemory 5 ew hew
  rw [hheld, hcomments] at hmem
  cases hmem

end Kdapp.Indexer.SampleBincode
