import Kdapp.CommentIt.Rollback
import Kdapp.Engine.Callbacks

/-! The rooms that the HTTP peer shares with its requests (`api/http/blockchain_engine.rs`): the
engine's callbacks write them. -/

namespace Kdapp.CommentIt
open FiniteMap
open Std (ExtTreeMap)

variable [Crypto] [RandChaCha]

abbrev SharedEpisodeState := ExtTreeMap UInt64 AuthWithCommentsEpisode

namespace HttpAuthHandler
variable (blockchainEpisodes : SharedEpisodeState)

def onInitialize (episodeId : EpisodeId) (episode : AuthWithCommentsEpisode) :
    SharedEpisodeState :=
  blockchainEpisodes.insert episodeId.toUInt64 episode

def onCommand (episodeId : EpisodeId) (episode : AuthWithCommentsEpisode) : SharedEpisodeState :=
  blockchainEpisodes.insert episodeId.toUInt64 episode

def onRollback (_episodeId : EpisodeId) (_episode : AuthWithCommentsEpisode) :
    SharedEpisodeState :=
  blockchainEpisodes

def handle : HandlerCall AuthWithCommentsEpisode → SharedEpisodeState
  | .onInitialize id episode => onInitialize blockchainEpisodes id episode
  | .onCommand id episode _ _ _ => onCommand blockchainEpisodes id episode
  | .onRollback id episode => onRollback blockchainEpisodes id episode

def after (calls : List (HandlerCall AuthWithCommentsEpisode)) : SharedEpisodeState :=
  calls.foldl handle ∅

theorem after_concat (calls : List (HandlerCall AuthWithCommentsEpisode))
    (call : HandlerCall AuthWithCommentsEpisode) :
    after (calls ++ [call]) = handle (after calls) call := by
  rw [after, List.foldl_append]
  rfl

end HttpAuthHandler

namespace AuthWithCommentsEpisode
variable {g g' : AuthWithCommentsEpisode} {cmd : UnifiedCommand} {auth : Option PubKey}
  {md : PayloadMetadata} {w w' : Unit}

theorem run_error {e : EpisodeError AuthError}
    (h : (Episode.execute g cmd auth md).run w = .ok ((g', .error e), w')) : g' = g := by
  change Except.ok (g.execute md cmd auth, w) = _ at h
  rcases g.execute_cases md cmd auth with ⟨-, e', hrejects⟩ | ⟨pk, -, haccepts⟩
  · rw [hrejects] at h
    cases h
    rfl
  · rw [haccepts] at h
    cases h

theorem run_ok {rb : UnifiedRollback}
    (h : (Episode.execute g cmd auth md).run w = .ok ((g', .ok rb), w')) :
    ∃ pk, g.Admits auth cmd pk ∧ g' = g.applied pk md cmd := by
  change Except.ok (g.execute md cmd auth, w) = _ at h
  rcases g.execute_cases md cmd auth with ⟨-, e', hrejects⟩ | ⟨pk, hadmits, haccepts⟩
  · rw [hrejects] at h
    cases h
  · rw [haccepts] at h
    cases h
    exact ⟨pk, hadmits, rfl⟩

theorem run_initialize {participants : List PubKey}
    (h : (Episode.initializeWith participants md).run w = .ok (g, w')) :
    g = create participants md := by
  cases h
  rfl

end AuthWithCommentsEpisode

structure Shared (episodes : ExtTreeMap EpisodeId (EpisodeWrapper AuthWithCommentsEpisode))
    (blockchainEpisodes : SharedEpisodeState) : Prop where
  same : ∀ id : EpisodeId, blockchainEpisodes[id.toUInt64]? = (episodes[id]?).map (·.episode)
  only : ∀ key ∈ blockchainEpisodes, ∃ id : EpisodeId, id.toUInt64 = key

namespace Shared
variable {episodes : ExtTreeMap EpisodeId (EpisodeWrapper AuthWithCommentsEpisode)}
  {blockchainEpisodes : SharedEpisodeState} {ew : EpisodeWrapper AuthWithCommentsEpisode}
  {id : EpisodeId}

theorem empty : Shared ∅ ∅ where
  same id := by
    rw [ExtTreeMap.getElem?_empty, ExtTreeMap.getElem?_empty]
    rfl
  only key hkey := absurd hkey ExtTreeMap.not_mem_empty

theorem insert (h : Shared episodes blockchainEpisodes) :
    Shared (episodes.insert id ew) (blockchainEpisodes.insert id.toUInt64 ew.episode) where
  same id' := by
    by_cases hid : id = id'
    · subst hid
      rw [ExtTreeMap.getElem?_insert_self, ExtTreeMap.getElem?_insert_self]
      rfl
    · have hkey : id.toUInt64 ≠ id'.toUInt64 := fun heq => hid (UInt32.toUInt64_inj.mp heq)
      rw [getElem?_insert_of_ne hid, getElem?_insert_of_ne hkey]
      exact h.same id'
  only key hkey := by
    rcases ExtTreeMap.mem_insert.mp hkey with heq | hbefore
    · exact ⟨id, Std.LawfulEqOrd.eq_of_compare heq⟩
    · exact h.only key hbefore

theorem sameRoom (h : Shared episodes blockchainEpisodes) (hew : episodes[id]? = some ew)
    (rollbackStack : List UnifiedRollback) :
    Shared (episodes.insert id ⟨ew.episode, rollbackStack⟩) blockchainEpisodes where
  same id' := by
    rw [h.same id']
    by_cases hid : id = id'
    · subst hid
      rw [ExtTreeMap.getElem?_insert_self, hew]
      rfl
    · rw [getElem?_insert_of_ne hid]
  only := h.only

theorem told : Engine.Told fun episodes calls =>
    Shared episodes (HttpAuthHandler.after calls) where
  created ps md w g w' episodes calls id hinit hnew h := by
    rw [HttpAuthHandler.after_concat]
    exact h.insert
  rejected ew cmd auth md w g e w' episodes calls id hexec hew h := by
    rw [AuthWithCommentsEpisode.run_error hexec]
    exact h.sameRoom hew ew.rollbackStack
  executed ew cmd auth md w g rb w' episodes calls id hexec hew h := by
    rw [HttpAuthHandler.after_concat]
    exact h.insert

end Shared
end Kdapp.CommentIt
