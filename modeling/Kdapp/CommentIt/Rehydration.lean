import Kdapp.Engine.Lockstep
import Kdapp.Engine.Observers
import Kdapp.Engine.Totality
import Kdapp.Indexer.Listener

/-! A restarted HTTP peer asks the indexer for the rooms it had (`rehydrate_from_indexer` of
`api/http/blockchain_engine.rs`) and sends its engine a made-up block for each. -/

namespace Kdapp.CommentIt
open FiniteMap Outcome
open Std (ExtTreeMap)
open CommentBoard (displayKey hex)
open Indexer (EpisodeSnapshot)

variable [Crypto]

/-- What the getters find in an element of `episodes`. -/
structure Listed where
  episodeId : Option UInt64
  creatorPubkey : Option String
  createdAt : Option UInt64

def Listed.ofSnapshot (snapshot : EpisodeSnapshot) : Listed where
  episodeId := some snapshot.episodeId
  creatorPubkey := snapshot.creatorPubkey
  createdAt := some snapshot.createdAt

/-- `PublicKey(..)` around the digits is accepted. -/
def hexStr (creator : String) : String :=
  if "PublicKey(".toList <+: creator.toList ∧ creator.toList.getLast? = some ')' then
    String.ofList ((creator.toList.drop 10).dropLast)
  else creator

structure Comeback where
  id : EpisodeId
  creator : PubKey
  createdAt : UInt64

/-- One turn of the loop; `none` for each `continue`. -/
def Listed.comeback (existing : SharedEpisodeState) (ep : Listed) : Option Comeback :=
  match ep.episodeId with
  | none => none
  | some id =>
    if id ∈ existing then none
    else
      match ep.creatorPubkey with
      | none => none
      | some creator =>
        if creator = "" then none
        else
          match parsePublicKey (hexStr creator) with
          | none => none
          | some pk =>
            if id.toNat < 2 ^ 32 then some ⟨id.toUInt32, pk, ep.createdAt.getD 0⟩ else none

namespace Comeback
variable [RandChaCha] (room : Comeback) (currentDaa : UInt64)

def action : EpisodeMessage AuthWithCommentsEpisode := .newEpisode room.id [room.creator]

def block : BlkAccepted where
  acceptingHash := Hash.filled 0
  acceptingDaa := if currentDaa > 0 then currentDaa else 1
  acceptingTime := room.createdAt
  associatedTxs := [(Hash.filled 0, (EpisodeMessage.codec.serialize room.action).getD [], none)]

end Comeback

/-- The messages of `rehydrate_from_indexer`; no DAA score where the node does not answer. -/
def rehydrateFromIndexer [RandChaCha] (blockchainEpisodes : SharedEpisodeState)
    (virtualDaaScore : Option UInt64) (episodes : List Listed) : List BlkAccepted :=
  (episodes.filterMap (Listed.comeback blockchainEpisodes)).map
    fun room => room.block (virtualDaaScore.getD 0)

/-! ### One listed room -/

section Listing
variable {existing : SharedEpisodeState} {pk : PubKey} {id : EpisodeId}

theorem parsePublicKey_displayKey (pk : PubKey) : parsePublicKey (displayKey pk) = some pk := by
  unfold parsePublicKey displayKey
  rw [hexDecode_hex, Option.bind_some]
  exact Crypto.fromSlice_serialize pk

theorem displayKey_ne_empty (pk : PubKey) : displayKey pk ≠ "" := by
  intro hempty
  have hdecoded := hexDecode_hex pk.serialize
  have hnil : (hex pk.serialize).toList = [] := congrArg String.toList hempty
  rw [hnil] at hdecoded
  have hlength := congrArg List.length (Option.some.inj hdecoded)
  rw [PubKey.serialize, Crypto.serialize_length] at hlength
  cases hlength

theorem hexStr_displayKey (pk : PubKey) : hexStr (displayKey pk) = displayKey pk := by
  unfold hexStr
  apply if_neg
  rintro ⟨⟨rest, hrest⟩, -⟩
  have hdecoded := hexDecode_hex pk.serialize
  rw [show hex pk.serialize = displayKey pk from rfl, ← hrest] at hdecoded
  cases hdecoded

theorem comeback_ofSnapshot {snapshot : EpisodeSnapshot}
    (hid : snapshot.episodeId = id.toUInt64) {creator : Option PubKey}
    (hcreator : snapshot.creatorPubkey = creator.map displayKey) :
    (Listed.ofSnapshot snapshot).comeback ∅ =
      creator.map fun pk => ⟨id, pk, snapshot.createdAt⟩ := by
  have hfits : snapshot.episodeId.toNat < 2 ^ 32 := by
    rw [hid]
    exact id.toNat_lt
  have hback : snapshot.episodeId.toUInt32 = id := by
    rw [hid]
    exact UInt32.toUInt32_toUInt64 id
  unfold Listed.comeback Listed.ofSnapshot
  dsimp only
  rw [if_neg ExtTreeMap.not_mem_empty, hcreator]
  cases creator with
  | none => rfl
  | some pk =>
    dsimp only [Option.map_some]
    rw [if_neg (displayKey_ne_empty pk), hexStr_displayKey, parsePublicKey_displayKey]
    dsimp only
    rw [if_pos hfits, hback]
    rfl

theorem id_of_comeback {ep : Listed} {room : Comeback} (h : ep.comeback existing = some room) :
    ep.episodeId = some room.id.toUInt64 := by
  unfold Listed.comeback at h
  split at h
  · cases h
  rename_i id hid
  rw [hid]
  split at h
  · cases h
  split at h
  · cases h
  split at h
  · cases h
  split at h
  · cases h
  split at h
  · rename_i hfits
    obtain rfl := Option.some.inj h
    have hback : id.toUInt32.toUInt64 = id := by
      apply UInt64.toNat_inj.mp
      rw [UInt32.toNat_toUInt64, UInt64.toNat_toUInt32, Nat.mod_eq_of_lt hfits]
    exact congrArg some hback.symm
  · cases h

end Listing

/-! ### Its block -/

section Engine
variable [RandChaCha] {room : Comeback} {t : Engine AuthWithCommentsEpisode} {daa : UInt64}

theorem Comeback.action_read (room : Comeback) : ∃ payload,
    EpisodeMessage.codec.serialize room.action = some payload ∧
      Engine.action payload = some room.action := by
  obtain ⟨payload, hpayload⟩ : ∃ payload,
      EpisodeMessage.codec.serialize room.action = some payload := ⟨_, rfl⟩
  have hread := (EpisodeMessage.codec_lawful UnifiedCommand.codec_lawful).fromSlice hpayload
  exact ⟨payload, hpayload, Engine.action_of_fromSlice hread fun _ => nofun⟩

def reopening (daa : UInt64) : UInt64 := if daa > 0 then daa else 1

def Comeback.episode (self : Comeback) (daa : UInt64) : AuthWithCommentsEpisode :=
  .create [self.creator] ((self.block daa).metadata (Hash.filled 0) none)

/-- The engine holds the first of the rooms under each id, all opened at one score. -/
structure Reopened (daa : UInt64) (rooms : List Comeback) (t : Engine AuthWithCommentsEpisode) :
    Prop where
  held : ∀ id : EpisodeId, t.episodes[id]? =
    (rooms.find? fun room => decide (room.id = id)).map fun room => ⟨room.episode daa, []⟩
  since : ∀ id : EpisodeId, t.episodeCreationTimes[id]? =
    (rooms.find? fun room => decide (room.id = id)).map fun _ => reopening daa

theorem Reopened.empty (daa : UInt64) : Reopened daa [] (Engine.new ()) where
  held _ := ExtTreeMap.getElem?_empty
  since _ := ExtTreeMap.getElem?_empty

variable {rooms : List Comeback}

theorem Reopened.sinceOf (h : Reopened daa rooms t) {id : EpisodeId}
    {ew : EpisodeWrapper AuthWithCommentsEpisode} (hew : t.episodes[id]? = some ew) :
    t.episodeCreationTimes[id]? = some (reopening daa) := by
  rw [h.held id] at hew
  obtain ⟨room, hroom, -⟩ := Option.map_eq_some_iff.mp hew
  rw [h.since id, hroom]
  rfl

theorem Reopened.filter (h : Reopened daa rooms t) :
    Reopened daa rooms (t.filterOldEpisodes (reopening daa)) := by
  have hkept : ∀ id : EpisodeId, ¬ t.Expires (reopening daa) id := by
    rintro id ⟨-, hmem⟩
    obtain ⟨created, hcreated, hold⟩ := Engine.mem_removeIds.mp hmem
    obtain ⟨room, -, rfl⟩ := Option.map_eq_some_iff.mp ((h.since id).symm.trans hcreated)
    have hage := (Engine.lt_saturatingSub_iff _ _).mp hold
    omega
  refine ⟨fun id => ?_, fun id => ?_⟩
  · rw [(Engine.filterOldEpisodes_kept (hkept id)).1]
    exact h.held id
  · rw [(Engine.filterOldEpisodes_kept (hkept id)).2]
    exact h.since id

omit [RandChaCha] in
theorem find?_concat (rooms : List Comeback) (room : Comeback) (id : EpisodeId) :
    ((rooms ++ [room]).find? fun room => decide (room.id = id)) =
      (rooms.find? fun room => decide (room.id = id)).or
        (if room.id = id then some room else none) := by
  rw [List.find?_append, List.find?_singleton]
  simp only [decide_eq_true_eq]

theorem handle_known (hheld : room.id ∈ t.episodes) (md : PayloadMetadata) :
    t.handleMessage room.action md = .ok ⟨t, none, []⟩ := by
  have hcontains : t.episodes.contains room.id = true := ExtTreeMap.mem_iff_contains.mp hheld
  simp only [Comeback.action, Engine.handleMessage, hcontains, if_true]
  rfl

theorem handle_new (hnew : room.id ∉ t.episodes) (md : PayloadMetadata) :
    ∃ revert calls, t.handleMessage room.action md = .ok ⟨{ t with
      episodes := t.episodes.insert room.id ⟨.create [room.creator] md, []⟩
      episodeCreationTimes := t.episodeCreationTimes.insert room.id md.acceptingDaa },
        revert, calls⟩ := by
  have hcontains : t.episodes.contains room.id = false :=
    Bool.eq_false_iff.mpr fun h => hnew (ExtTreeMap.mem_iff_contains.mpr h)
  refine ⟨some (room.id, md), [.onInitialize room.id (.create [room.creator] md)], ?_⟩
  simp only [Comeback.action, Engine.handleMessage, hcontains]
  rfl

theorem Reopened.handle (h : Reopened daa rooms t) (room : Comeback) :
    ∃ out, t.handleMessage room.action ((room.block daa).metadata (Hash.filled 0) none) = .ok out ∧
      Reopened daa (rooms ++ [room]) out.engine := by
  by_cases hheld : room.id ∈ t.episodes
  -- a room that is held under the id came first, and goes on being the first
  · have hsome : ∃ other, (rooms.find? fun other => decide (other.id = room.id)) = some other := by
      cases hfind : rooms.find? fun other => decide (other.id = room.id) with
      | some other => exact ⟨other, rfl⟩
      | none =>
        have hnone := h.held room.id
        rw [hfind] at hnone
        exact absurd hheld (Engine.not_mem_of_getElem? hnone)
    have hfirst : ∀ id : EpisodeId,
        ((rooms ++ [room]).find? fun room => decide (room.id = id)) =
          rooms.find? fun room => decide (room.id = id) := by
      intro id
      rw [find?_concat]
      by_cases hid : room.id = id
      · subst hid
        obtain ⟨other, hother⟩ := hsome
        rw [hother]
        rfl
      · rw [if_neg hid, Option.or_none]
    refine ⟨_, handle_known hheld _, fun id => ?_, fun id => ?_⟩
    · rw [hfirst]
      exact h.held id
    · rw [hfirst]
      exact h.since id
  · obtain ⟨revert, calls, hout⟩ :=
      handle_new hheld ((room.block daa).metadata (Hash.filled 0) none)
    -- no room before had the id, so this one is the first
    have hnone : (rooms.find? fun other => decide (other.id = room.id)) = none := by
      cases hfind : rooms.find? fun other => decide (other.id = room.id) with
      | none => rfl
      | some other =>
        have hsome := h.held room.id
        rw [hfind] at hsome
        exact absurd (Engine.mem_of_getElem? hsome) hheld
    refine ⟨_, hout, fun id => ?_, fun id => ?_⟩
    · rw [find?_concat]
      by_cases hid : room.id = id
      · subst hid
        rw [hnone, if_pos rfl]
        exact ExtTreeMap.getElem?_insert_self
      · rw [if_neg hid, Option.or_none, getElem?_insert_of_ne hid]
        exact h.held id
    · rw [find?_concat]
      by_cases hid : room.id = id
      · subst hid
        rw [hnone, if_pos rfl]
        exact ExtTreeMap.getElem?_insert_self
      · rw [if_neg hid, Option.or_none, getElem?_insert_of_ne hid]
        exact h.since id

theorem Reopened.acceptBlock (h : Reopened daa rooms t) (room : Comeback) :
    ∃ t' calls, t.acceptBlock (room.block daa) = .ok (t', calls) ∧
      Reopened daa (rooms ++ [room]) t' := by
  obtain ⟨payload, hpayload, haction⟩ := room.action_read
  have hassociated : (room.block daa).associatedTxs = [(Hash.filled 0, payload, none)] := by
    unfold Comeback.block
    rw [hpayload]
    rfl
  obtain ⟨out, hout, hreopened⟩ := h.filter.handle room
  have htail : Engine.acceptTxs (room.block daa) [] out.engine = .ok (out.engine, [], []) := rfl
  have htxs : Engine.acceptTxs (room.block daa) (room.block daa).associatedTxs
      (t.filterOldEpisodes (room.block daa).acceptingDaa) =
        .ok (out.engine, out.revert.toList ++ [], out.calls ++ []) := by
    rw [hassociated]
    exact Engine.acceptTxs_cons_of_ok haction hout htail
  exact ⟨_, _, bind_of_ok _ htxs, hreopened.held, hreopened.since⟩

theorem Reopened.start (h : Reopened daa rooms t) (more : List Comeback) :
    ∃ t' calls, Engine.start ((more.map fun room => room.block daa).map .blkAccepted) t =
      .ok (t', calls) ∧ Reopened daa (rooms ++ more) t' := by
  induction more generalizing rooms t with
  | nil =>
    refine ⟨t, [], rfl, ?_⟩
    rw [List.append_nil]
    exact h
  | cons room more ih =>
    obtain ⟨t₁, c, hblock, hnext⟩ := h.acceptBlock room
    obtain ⟨t', c', hrest, hend⟩ := ih hnext
    rw [List.append_assoc] at hend
    refine ⟨t', c ++ c', ?_, hend⟩
    exact (bind_of_ok _ hblock).trans (bind_of_ok _ hrest)

end Engine

/-! ### What the indexer lists -/

namespace AuthWithCommentsEpisode
variable [RandChaCha] {g g' : AuthWithCommentsEpisode} {md : PayloadMetadata}

def origin (g : AuthWithCommentsEpisode) : Option PubKey × UInt64 := (g.creator, g.createdAt)

theorem origin_of_run {cmd : UnifiedCommand} {auth : Option PubKey}
    {res : Except (EpisodeError AuthError) UnifiedRollback} {w w' : Unit}
    (h : (Episode.execute g cmd auth md).run w = .ok ((g', res), w')) : g'.origin = g.origin := by
  cases res with
  | error e => rw [run_error h]
  | ok rb =>
    obtain ⟨pk, -, rfl⟩ := run_ok h
    cases cmd <;> rfl

theorem origin_of_rollback {rb : UnifiedRollback} {b : Bool} {w w' : Unit}
    (h : (Episode.rollback g rb).run w = .ok ((g', b), w')) : g'.origin = g.origin := by
  have hback : g' = (g.rollback rb).1 := by
    change Except.ok (g.rollback rb, w) = _ at h
    rw [(Prod.mk.inj (Except.ok.inj h)).1]
  rw [hback]
  cases rb with
  | commentAdded commentId =>
    unfold rollback
    dsimp only
    split <;> rfl
  | _ => rfl

end AuthWithCommentsEpisode

section Catalogue
open Indexer Indexer.IndexerHandler
variable [RandChaCha] {s : Engine AuthWithCommentsEpisode}
  {calls : List (HandlerCall AuthWithCommentsEpisode)}

structure Catalogued (s : Engine AuthWithCommentsEpisode)
    (calls : List (HandlerCall AuthWithCommentsEpisode)) : Prop where
  live : ∀ (id : EpisodeId) ew, s.episodes[id]? = some ew → ∃ snap,
    (after Mem.init calls).episodes[id.toUInt64]? = some snap ∧
      snap.creatorPubkey = ew.episode.creator.map displayKey ∧
        snap.createdAt = ew.episode.createdAt
  own : ∀ (key : UInt64) snap, (after Mem.init calls).episodes[key]? = some snap →
    snap.episodeId = key

theorem after_concat (calls : List (HandlerCall AuthWithCommentsEpisode))
    (call : HandlerCall AuthWithCommentsEpisode) :
    after Mem.init (calls ++ [call]) = (ops call).foldl attempt (after Mem.init calls) := by
  rw [after, List.flatMap_append, List.flatMap_singleton, List.foldl_append]
  rfl

theorem snapshots_onCommand (mem : Mem) (id : EpisodeId) (g : AuthWithCommentsEpisode)
    (cmd : UnifiedCommand) (auth : Option PubKey) (md : PayloadMetadata) :
    ((ops (.onCommand id g cmd auth md)).foldl attempt mem).episodes = mem.episodes ∨
      ((ops (.onCommand id g cmd auth md)).foldl attempt mem).episodes =
        mem.episodes.insert id.toUInt64 (snapshot id g) := by
  cases cmd with
  | requestChallenge | revokeSession => exact .inr rfl
  | submitResponse =>
    cases auth with
    | none => exact .inl rfl
    | some pk => exact .inr rfl
  | submitComment text =>
    left
    dsimp only [ops, onCommand]
    split
    · rfl
    · split <;> rfl

namespace Catalogued
variable {t : Engine AuthWithCommentsEpisode} {id : EpisodeId} {g : AuthWithCommentsEpisode}
  {stack : List UnifiedRollback} {call : HandlerCall AuthWithCommentsEpisode}

theorem upsert (h : Catalogued s calls)
    (hmem : (after Mem.init (calls ++ [call])).episodes =
      (after Mem.init calls).episodes.insert id.toUInt64 (snapshot id g))
    (ht : t.episodes = s.episodes.insert id ⟨g, stack⟩) : Catalogued t (calls ++ [call]) := by
  refine ⟨fun id' ew hew => ?_, fun key snap hsnap => ?_⟩
  · rw [ht] at hew
    rw [hmem]
    by_cases hid : id = id'
    · subst hid
      obtain rfl := Option.some.inj (ExtTreeMap.getElem?_insert_self.symm.trans hew)
      exact ⟨_, ExtTreeMap.getElem?_insert_self, rfl, rfl⟩
    · have hkey : id.toUInt64 ≠ id'.toUInt64 := fun heq => hid (UInt32.toUInt64_inj.mp heq)
      rw [getElem?_insert_of_ne hid] at hew
      rw [getElem?_insert_of_ne hkey]
      exact h.live id' ew hew
  · rw [hmem] at hsnap
    by_cases hkey : id.toUInt64 = key
    · subst hkey
      rw [← Option.some.inj (ExtTreeMap.getElem?_insert_self.symm.trans hsnap)]
      rfl
    · rw [getElem?_insert_of_ne hkey] at hsnap
      exact h.own key snap hsnap

theorem keep (h : Catalogued s calls) {ew : EpisodeWrapper AuthWithCommentsEpisode}
    (hew : s.episodes[id]? = some ew) (horigin : g.origin = ew.episode.origin)
    {more : List (HandlerCall AuthWithCommentsEpisode)}
    (hmem : (after Mem.init (calls ++ more)).episodes = (after Mem.init calls).episodes)
    (ht : t.episodes = s.episodes.insert id ⟨g, stack⟩) : Catalogued t (calls ++ more) := by
  refine ⟨fun id' ew' hew' => ?_, fun key snap hsnap => ?_⟩
  · rw [ht] at hew'
    rw [hmem]
    by_cases hid : id = id'
    · subst hid
      obtain rfl := Option.some.inj (ExtTreeMap.getElem?_insert_self.symm.trans hew')
      obtain ⟨snap, hsnap, hcreator, hcreated⟩ := h.live id ew hew
      obtain ⟨hsame, htime⟩ := Prod.mk.inj horigin
      exact ⟨snap, hsnap, by rw [hcreator, hsame], hcreated.trans htime.symm⟩
    · rw [getElem?_insert_of_ne hid] at hew'
      exact h.live id' ew' hew'
  · rw [hmem] at hsnap
    exact h.own key snap hsnap

theorem nothing (calls : List (HandlerCall AuthWithCommentsEpisode)) :
    (after Mem.init (calls ++ [])).episodes = (after Mem.init calls).episodes := by
  rw [List.append_nil]

theorem observed : Engine.Observed Catalogued where
  filter s daaScore calls h := by
    refine ⟨fun id ew hew => ?_, h.own⟩
    by_cases hexpires : s.Expires daaScore id
    · rw [(Engine.filterOldEpisodes_expired hexpires).1] at hew
      cases hew
    · rw [(Engine.filterOldEpisodes_kept hexpires).1] at hew
      exact h.live id ew hew
  handle s md a out calls hhandles h := by
    have hquiet : Catalogued s (calls ++ []) := by
      rw [List.append_nil]
      exact h
    cases hhandles with
    | known | missing | forged => exact hquiet
    | @created id ps g world hnew hinit =>
      have hmem : (after Mem.init (calls ++ [.onInitialize id g])).episodes =
          (after Mem.init calls).episodes.insert id.toUInt64 (snapshot id g) := by
        rw [after_concat]
        rfl
      exact h.upsert hmem rfl
    | @rejected _ cmd auth w g e world hcmd hsig hw hexec =>
      exact h.keep hw (AuthWithCommentsEpisode.origin_of_run hexec) (nothing calls) rfl
    | @executed _ cmd auth w g r world hcmd hsig hw hexec =>
      have horigin := AuthWithCommentsEpisode.origin_of_run hexec
      rcases snapshots_onCommand (after Mem.init calls) a.episodeId g cmd auth md with hmem | hmem
      · rw [← after_concat] at hmem
        exact h.keep hw horigin hmem rfl
      · rw [← after_concat] at hmem
        exact h.upsert hmem rfl
    | @popped id w r rs g b world hw hstack hroll =>
      have hmem : (after Mem.init (calls ++ [.onRollback id g])).episodes =
          (after Mem.init calls).episodes := by
        rw [after_concat]
        rfl
      exact h.keep hw (AuthWithCommentsEpisode.origin_of_rollback hroll) hmem rfl
    | @deleted id w hw hstack =>
      have hmem : after Mem.init (calls ++ [.onRollback id w.episode]) = after Mem.init calls :=
        after_concat _ _
      refine ⟨fun id' ew' hew' => ?_, fun key snap hsnap => ?_⟩
      · have hew' : (s.episodes.erase id)[id']? = some ew' := hew'
        have hid : id ≠ id' := by
          rintro rfl
          cases ExtTreeMap.getElem?_erase_self.symm.trans hew'
        rw [getElem?_erase_of_ne hid] at hew'
        rw [hmem]
        exact h.live id' ew' hew'
      · rw [hmem] at hsnap
        exact h.own key snap hsnap
  revertMap s m calls h := ⟨h.live, h.own⟩

theorem empty : Catalogued (Engine.new ()) [] where
  live id ew hew := by cases ExtTreeMap.getElem?_empty.symm.trans hew
  own key snap hsnap := by cases ExtTreeMap.getElem?_empty.symm.trans hsnap

end Catalogued

/-- The rooms that the indexer lists for `limit=200`, as the peer reads them. -/
def recents (mem : Mem) : List Listed := (mem.getRecent 200).map Listed.ofSnapshot

def AuthWithCommentsEpisode.reopened (g : AuthWithCommentsEpisode) : AuthWithCommentsEpisode where
  creator := g.creator
  createdAt := g.createdAt
  authenticatedParticipants := ∅
  rateLimits := ∅
  authorizedParticipants := g.creator.toList
  activeChallenges := ∅
  comments := []
  nextCommentId := 1

omit [Crypto] [RandChaCha] in
theorem mem_getRecent {mem : Mem} {snap : EpisodeSnapshot} (h : snap ∈ mem.getRecent 200) :
    ∃ key : UInt64, mem.episodes[key]? = some snap := by
  unfold Mem.getRecent at h
  rw [Scan.collect_eq (Scan.attentive_always _) (by decide)] at h
  obtain ⟨e, -, he⟩ := List.mem_filterMap.mp (List.mem_of_mem_take h)
  exact ⟨e.2, he⟩

theorem Catalogued.listed (h : Catalogued s calls) {id : EpisodeId}
    {ew : EpisodeWrapper AuthWithCommentsEpisode} (hew : s.episodes[id]? = some ew)
    {snap : EpisodeSnapshot} (hsnap : snap ∈ (after Mem.init calls).getRecent 200)
    (hid : snap.episodeId = id.toUInt64) :
    (Listed.ofSnapshot snap).comeback ∅ =
      ew.episode.creator.map fun pk => ⟨id, pk, ew.episode.createdAt⟩ := by
  obtain ⟨live, hlive, hcreator, hcreated⟩ := h.live id ew hew
  obtain ⟨key, hkey⟩ := mem_getRecent hsnap
  obtain rfl : key = id.toUInt64 := (h.own key snap hkey).symm.trans hid
  obtain rfl := Option.some.inj (hkey.symm.trans hlive)
  rw [comeback_ofSnapshot hid hcreator, hcreated]

theorem Reopened.reopens {daa : UInt64} {t : Engine AuthWithCommentsEpisode}
    (h : Catalogued s calls)
    (ht : Reopened daa ((recents (after Mem.init calls)).filterMap (Listed.comeback ∅)) t)
    {id : EpisodeId} {ew : EpisodeWrapper AuthWithCommentsEpisode}
    (hew : s.episodes[id]? = some ew) :
    t.episodes[id]? = if ew.episode.creator ≠ none ∧
      id.toUInt64 ∈ ((after Mem.init calls).getRecent 200).map (·.episodeId) then
        some ⟨ew.episode.reopened, []⟩ else none := by
  rw [ht.held id]
  cases hfind : ((recents (after Mem.init calls)).filterMap (Listed.comeback ∅)).find?
      fun room => decide (room.id = id) with
  | none =>
    rw [if_neg, Option.map_none]
    rintro ⟨hcreator, hlisted⟩
    obtain ⟨snap, hsnap, hid⟩ := List.mem_map.mp hlisted
    obtain ⟨pk, hpk⟩ := Option.ne_none_iff_exists'.mp hcreator
    have hback := h.listed hew hsnap hid
    rw [hpk] at hback
    have hmem := List.mem_filterMap.mpr ⟨_, List.mem_map_of_mem hsnap, hback⟩
    exact List.find?_eq_none.mp hfind _ hmem (decide_eq_true rfl)
  | some room =>
    have hfound := List.find?_some hfind
    have hid : room.id = id := of_decide_eq_true hfound
    obtain ⟨ep, hep, hback⟩ := List.mem_filterMap.mp (List.mem_of_find?_eq_some hfind)
    obtain ⟨snap, hsnap, rfl⟩ := List.mem_map.mp hep
    have hkey : snap.episodeId = id.toUInt64 := by
      rw [← hid]
      exact Option.some.inj (id_of_comeback hback)
    rw [h.listed hew hsnap hkey] at hback
    obtain ⟨pk, hpk, rfl⟩ := Option.map_eq_some_iff.mp hback
    have hcreator : ew.episode.creator ≠ none := by
      rw [hpk]
      exact Option.some_ne_none pk
    rw [if_pos ⟨hcreator, List.mem_map.mpr ⟨snap, hsnap, hkey⟩⟩]
    unfold AuthWithCommentsEpisode.reopened
    rw [hpk]
    rfl

/-- After a restart the peer has, of the rooms that live at the indexer's engine, exactly those
that the indexer lists and that someone opened, each with its creator as the only participant and
without anything that happened in it. -/
theorem rehydrated_rooms (earlier : List EngineMsg)
    (hrun : Engine.start earlier (Engine.new ()) = .ok (s, calls))
    (virtualDaaScore : Option UInt64) :
    ∃ t tcalls, Engine.start ((rehydrateFromIndexer ∅ virtualDaaScore
        (recents (after Mem.init calls))).map .blkAccepted) (Engine.new ()) = .ok (t, tcalls) ∧
      ∀ (id : EpisodeId) ew, s.episodes[id]? = some ew →
        t.episodes[id]? = if ew.episode.creator ≠ none ∧
          id.toUInt64 ∈ ((after Mem.init calls).getRecent 200).map (·.episodeId) then
            some ⟨ew.episode.reopened, []⟩ else none := by
  have hcatalogued := Catalogued.observed.start Catalogued.empty hrun
  obtain ⟨t, tcalls, ht, hreopened⟩ := (Reopened.empty (virtualDaaScore.getD 0)).start
    ((recents (after Mem.init calls)).filterMap (Listed.comeback ∅))
  exact ⟨t, tcalls, ht, fun id ew hew => hreopened.reopens hcatalogued hew⟩

end Catalogue
end Kdapp.CommentIt

namespace Kdapp.CommentIt
open Outcome
open Indexer Indexer.IndexerHandler
attribute [local instance] idealCrypto seedRand

def lively : EngineMsg := .blkAccepted {
  acceptingHash := Hash.filled 1
  acceptingDaa := 1
  acceptingTime := 10
  associatedTxs :=
    [(Hash.filled 2, ((EpisodeMessage.codec (G := AuthWithCommentsEpisode)).serialize
      (.newEpisode 5 [(1 : UInt8), (2 : UInt8)])).getD [], none),
    (Hash.filled 3, ((EpisodeMessage.newSignedCommand 5 UnifiedCommand.requestChallenge (1 : UInt8)
      (1 : UInt8) : Option (EpisodeMessage AuthWithCommentsEpisode)).bind
        EpisodeMessage.codec.serialize).getD [], none)] }

theorem rehydrated_rooms_lively : ∃ s calls ew t tcalls,
    Engine.start [lively] (Engine.new () : Engine AuthWithCommentsEpisode) = .ok (s, calls) ∧
      s.episodes[(5 : EpisodeId)]? = some ew ∧
      Engine.start ((rehydrateFromIndexer ∅ none (recents (after Mem.init calls))).map
        .blkAccepted) (Engine.new ()) = .ok (t, tcalls) ∧
      t.episodes[(5 : EpisodeId)]? = some ⟨ew.episode.reopened, []⟩ := by
  have hread : (Engine.start [lively] (Engine.new () : Engine AuthWithCommentsEpisode)).toOption.map
      (fun p => ((p.1.episodes[(5 : EpisodeId)]?).map fun ew => ew.episode.creator.isSome,
        (((after Mem.init p.2).getRecent 200).map (·.episodeId)))) = some (some true, [5]) := by
    decide +kernel
  obtain ⟨⟨s, calls⟩, hrun, hvalues⟩ := exists_of_map hread
  obtain ⟨hroom, hlist⟩ := Prod.mk.inj hvalues
  obtain ⟨ew, hew, hcreator⟩ := Option.map_eq_some_iff.mp hroom
  obtain ⟨t, tcalls, ht, hrooms⟩ := rehydrated_rooms [lively] hrun none
  refine ⟨s, calls, ew, t, tcalls, hrun, hew, ht, ?_⟩
  rw [hrooms 5 ew hew, if_pos]
  refine ⟨?_, ?_⟩
  · intro hnone
    rw [hnone] at hcreator
    cases hcreator
  · dsimp only at hlist
    rw [hlist]
    exact List.mem_singleton.mpr rfl

end Kdapp.CommentIt
