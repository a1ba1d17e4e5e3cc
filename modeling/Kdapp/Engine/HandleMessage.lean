import Kdapp.Engine
import Kdapp.Library.Outcome

/-! Everything one call of `handle_message` can do, and the invariant that the episodes and
their creation times have the same keys. -/

namespace Kdapp
open Outcome FiniteMap
open Std (ExtTreeMap)

variable [Crypto] {G : Type} [Episode G]

namespace EpisodeMessage

/-- The command a message carries, with the authorization it runs under. -/
def command : EpisodeMessage G → Option (Episode.Command G × Option PubKey)
  | .signedCommand _ cmd pubkey _ => some (cmd, some pubkey)
  | .unsignedCommand _ cmd => some (cmd, none)
  | _ => none

def SignatureValid : EpisodeMessage G → Prop
  | .signedCommand _ cmd pubkey sig =>
    ∃ m, toMessage (Episode.codec (G := G)) cmd = some m ∧ verifySignature pubkey m sig = true
  | _ => True

end EpisodeMessage

theorem EngineM.ofEpisode_ok {α : Type}
    {x : StateT (Episode.World G) (Except (Episode.Fault G)) α} {w : Episode.World G}
    {b : α × Episode.World G} (h : EngineM.ofEpisode x w = .ok b) : x.run w = .ok b := by
  change (x w).mapError Panic.episode = .ok b at h
  change x w = .ok b
  cases hx : x w with
  | error e =>
    rw [hx] at h
    cases h
  | ok a =>
    rw [hx] at h
    cases h
    rfl

theorem EngineM.ofEpisode_of_ok {α : Type}
    {x : StateT (Episode.World G) (Except (Episode.Fault G)) α} {w : Episode.World G}
    {b : α × Episode.World G} (h : x.run w = .ok b) : EngineM.ofEpisode x w = .ok b := by
  unfold EngineM.ofEpisode
  rw [show x w = .ok b from h]
  rfl

namespace EpisodeWrapper

theorem initializeWith_ok {ps : List PubKey} {md : PayloadMetadata} {w : Episode.World G}
    {ew : EpisodeWrapper G} {w' : Episode.World G}
    (h : initializeWith ps md w = .ok (ew, w')) :
    (Episode.initializeWith ps md).run w = .ok (ew.episode, w') ∧ ew.rollbackStack = [] := by
  obtain ⟨⟨g, w₁⟩, hx, hr⟩ := bind_ok h
  cases hr
  exact ⟨EngineM.ofEpisode_ok hx, rfl⟩

theorem execute_ok {self : EpisodeWrapper G} {cmd : Episode.Command G} {auth : Option PubKey}
    {md : PayloadMetadata} {w w' : Episode.World G} {ew : EpisodeWrapper G}
    {res : Except (EpisodeError (Episode.CommandError G)) Unit}
    (h : self.execute cmd auth md w = .ok ((ew, res), w')) :
    (∃ r, (Episode.execute self.episode cmd auth md).run w = .ok ((ew.episode, .ok r), w') ∧
      ew.rollbackStack = r :: self.rollbackStack ∧ res = .ok ()) ∨
    (∃ e, (Episode.execute self.episode cmd auth md).run w = .ok ((ew.episode, .error e), w') ∧
      ew.rollbackStack = self.rollbackStack ∧ res = .error e) := by
  obtain ⟨⟨⟨g, out⟩, w₁⟩, hx, hr⟩ := bind_ok h
  have hrun := EngineM.ofEpisode_ok hx
  cases out with
  | ok r =>
    cases hr
    exact .inl ⟨r, hrun, rfl, rfl⟩
  | error e =>
    cases hr
    exact .inr ⟨e, hrun, rfl, rfl⟩

theorem executeSigned_ok {self : EpisodeWrapper G} {cmd : Episode.Command G} {pk : PubKey}
    {sig : Sig} {md : PayloadMetadata} {w w' : Episode.World G} {ew : EpisodeWrapper G}
    {res : Except (EpisodeError (Episode.CommandError G)) Unit}
    (h : self.executeSigned cmd pk sig md w = .ok ((ew, res), w')) :
    (∃ m, toMessage (Episode.codec (G := G)) cmd = some m ∧ verifySignature pk m sig = true ∧
      self.execute cmd (some pk) md w = .ok ((ew, res), w')) ∨
    (ew = self ∧ w' = w ∧ res = .error .invalidSignature) := by
  unfold executeSigned at h
  cases hm : toMessage (Episode.codec (G := G)) cmd with
  | none =>
    rw [hm] at h
    cases h
  | some m =>
    rw [hm] at h
    by_cases hv : verifySignature pk m sig = true
    · simp only [hv, if_true] at h
      exact .inl ⟨m, rfl, hv, h⟩
    · simp only [hv] at h
      cases h
      exact .inr ⟨rfl, rfl, rfl⟩

theorem rollback_ok {self : EpisodeWrapper G} {w w' : Episode.World G} {ew : EpisodeWrapper G}
    {res : Except (EpisodeError (Episode.CommandError G)) Unit}
    (h : self.rollback w = .ok ((ew, res), w')) :
    (∃ r b, self.rollbackStack = r :: ew.rollbackStack ∧
      (Episode.rollback self.episode r).run w = .ok ((ew.episode, b), w') ∧ res = .ok ()) ∨
    (self.rollbackStack = [] ∧ ew = self ∧ w' = w ∧ res = .error .deleteEpisode) := by
  unfold rollback at h
  cases hstack : self.rollbackStack with
  | nil =>
    rw [hstack] at h
    cases h
    exact .inr ⟨rfl, rfl, rfl, rfl⟩
  | cons r rs =>
    rw [hstack] at h
    obtain ⟨⟨⟨g, b⟩, w₁⟩, hx, hr⟩ := bind_ok h
    cases hr
    exact .inl ⟨r, b, rfl, EngineM.ofEpisode_ok hx, rfl⟩

end EpisodeWrapper

namespace Engine

/-- What `handle_message` did, one constructor for each way through it. -/
inductive Handles (s : Engine G) (md : PayloadMetadata) :
    EpisodeMessage G → Handled G → Prop
  | known {id ps} (h : id ∈ s.episodes) :
    Handles s md (.newEpisode id ps) ⟨s, none, []⟩
  | created {id ps g world} (h : id ∉ s.episodes)
    (hinit : (Episode.initializeWith ps md).run s.world = .ok (g, world)) :
    Handles s md (.newEpisode id ps)
      ⟨{ s with
          episodes := s.episodes.insert id ⟨g, []⟩
          episodeCreationTimes := s.episodeCreationTimes.insert id md.acceptingDaa
          world }, some (id, md), [.onInitialize id g]⟩
  | missing {a} (hnew : ∀ ps, a ≠ .newEpisode a.episodeId ps) (h : a.episodeId ∉ s.episodes) :
    Handles s md a ⟨s, none, []⟩
  | forged {id cmd pk sig} (h : id ∈ s.episodes) :
    Handles s md (.signedCommand id cmd pk sig) ⟨s, none, []⟩
  | rejected {a cmd auth w g e world} (hcmd : a.command = some (cmd, auth))
    (hsig : a.SignatureValid) (h : s.episodes[a.episodeId]? = some w)
    (hexec : (Episode.execute w.episode cmd auth md).run s.world = .ok ((g, .error e), world)) :
    Handles s md a
      ⟨{ s with episodes := s.episodes.insert a.episodeId ⟨g, w.rollbackStack⟩, world }, none, []⟩
  | executed {a cmd auth w g r world} (hcmd : a.command = some (cmd, auth))
    (hsig : a.SignatureValid) (h : s.episodes[a.episodeId]? = some w)
    (hexec : (Episode.execute w.episode cmd auth md).run s.world = .ok ((g, .ok r), world)) :
    Handles s md a
      ⟨{ s with episodes := s.episodes.insert a.episodeId ⟨g, r :: w.rollbackStack⟩, world },
        some (a.episodeId, md), [.onCommand a.episodeId g cmd auth md]⟩
  | popped {id w r rs g b world} (h : s.episodes[id]? = some w) (hstack : w.rollbackStack = r :: rs)
    (hroll : (Episode.rollback w.episode r).run s.world = .ok ((g, b), world)) :
    Handles s md (.revert id)
      ⟨{ s with episodes := s.episodes.insert id ⟨g, rs⟩, world }, none, [.onRollback id g]⟩
  | deleted {id w} (h : s.episodes[id]? = some w) (hstack : w.rollbackStack = []) :
    Handles s md (.revert id)
      ⟨{ s with
          episodes := s.episodes.erase id
          episodeCreationTimes := s.episodeCreationTimes.erase id }, none,
        [.onRollback id w.episode]⟩

theorem mem_of_getElem? {s : Engine G} {id : EpisodeId} {w : EpisodeWrapper G}
    (h : s.episodes[id]? = some w) : id ∈ s.episodes := by
  grind

theorem not_mem_of_getElem? {s : Engine G} {id : EpisodeId}
    (h : s.episodes[id]? = none) : id ∉ s.episodes := by
  grind

theorem handleCommand_ok {s : Engine G} {a : EpisodeMessage G} {cmd : Episode.Command G}
    {auth : Option PubKey} {md : PayloadMetadata} {out : Handled G}
    {exec : EpisodeWrapper G →
      EngineM G (EpisodeWrapper G × Except (EpisodeError (Episode.CommandError G)) Unit)}
    (hcmd : a.command = some (cmd, auth))
    (hexec : ∀ w ew res world, exec w s.world = .ok ((ew, res), world) →
      a.SignatureValid ∧ w.execute cmd auth md s.world = .ok ((ew, res), world) ∨
        (∃ id cmd pk sig, a = .signedCommand id cmd pk sig) ∧ ew = w ∧ world = s.world ∧
          res = .error .invalidSignature)
    (h : s.handleCommand a.episodeId cmd auth md exec = .ok out) : s.Handles md a out := by
  unfold handleCommand at h
  split at h
  · rename_i w hw
    obtain ⟨⟨⟨ew, res⟩, world⟩, hx, hr⟩ := bind_ok h
    rcases hexec w ew res world hx with ⟨hsig, hrun⟩ | ⟨⟨id, c, pk, sig, rfl⟩, rfl, rfl, rfl⟩
    · rcases EpisodeWrapper.execute_ok hrun with ⟨r, hepisode, hstack, rfl⟩ |
        ⟨e, hepisode, hstack, rfl⟩
      · cases hr
        obtain ⟨g, rs⟩ := ew
        obtain rfl : rs = r :: w.rollbackStack := hstack
        exact .executed hcmd hsig hw hepisode
      · cases hr
        obtain ⟨g, rs⟩ := ew
        obtain rfl : rs = w.rollbackStack := hstack
        exact .rejected hcmd hsig hw hepisode
    · cases hr
      have hsame : s.episodes.insert id ew = s.episodes := insert_of_getElem? hw
      simp only [EpisodeMessage.episodeId, hsame]
      exact .forged (mem_of_getElem? hw)
  · cases h
    refine .missing (fun ps hps => ?_) (not_mem_of_getElem? ‹_›)
    rw [hps] at hcmd
    cases hcmd

theorem handleMessage_ok {s : Engine G} {a : EpisodeMessage G} {md : PayloadMetadata}
    {out : Handled G} (h : s.handleMessage a md = .ok out) : s.Handles md a out := by
  cases a with
  | newEpisode id ps =>
    simp only [handleMessage] at h
    split at h
    · cases h
      exact .known (by grind)
    · obtain ⟨⟨ew, world⟩, hx, hr⟩ := bind_ok h
      obtain ⟨hinit, hstack⟩ := EpisodeWrapper.initializeWith_ok hx
      cases hr
      obtain ⟨g, rs⟩ := ew
      obtain rfl : rs = [] := hstack
      exact .created (by grind) hinit
  | signedCommand id cmd pk sig =>
    refine handleCommand_ok (a := .signedCommand id cmd pk sig) rfl ?_ h
    intro w ew res world hx
    rcases EpisodeWrapper.executeSigned_ok hx with ⟨m, hm, hv, hrun⟩ | ⟨rfl, rfl, rfl⟩
    · exact .inl ⟨⟨m, hm, hv⟩, hrun⟩
    · exact .inr ⟨⟨id, cmd, pk, sig, rfl⟩, rfl, rfl, rfl⟩
  | unsignedCommand id cmd =>
    exact handleCommand_ok (a := .unsignedCommand id cmd) rfl
      (fun w ew res world hx => .inl ⟨trivial, hx⟩) h
  | revert id =>
    simp only [handleMessage] at h
    split at h
    · rename_i w hw
      obtain ⟨⟨⟨ew, res⟩, world⟩, hx, hr⟩ := bind_ok h
      rcases EpisodeWrapper.rollback_ok hx with ⟨r, b, hstack, hroll, rfl⟩ | ⟨hstack, rfl, rfl, rfl⟩
      · cases hr
        exact .popped hw hstack hroll
      · cases hr
        have herase : (s.episodes.insert id ew).erase id = s.episodes.erase id := by
          apply ExtTreeMap.ext_getElem?
          grind
        simp only [herase]
        exact .deleted hw hstack
    · cases h
      exact .missing (fun ps hps => by cases hps) (not_mem_of_getElem? ‹_›)

theorem handleMessage_popped {s : Engine G} {id : EpisodeId} {w : EpisodeWrapper G}
    {r : Episode.CommandRollback G} {rs : List (Episode.CommandRollback G)} {g : G} {b : Bool}
    {world : Episode.World G} (md : PayloadMetadata) (h : s.episodes[id]? = some w)
    (hstack : w.rollbackStack = r :: rs)
    (hroll : (Episode.rollback w.episode r).run s.world = .ok ((g, b), world)) :
    s.handleMessage (.revert id) md =
      .ok ⟨{ s with episodes := s.episodes.insert id ⟨g, rs⟩, world }, none,
        [.onRollback id g]⟩ := by
  have hwrap : w.rollback s.world = .ok ((⟨g, rs⟩, .ok ()), world) := by
    unfold EpisodeWrapper.rollback
    rw [hstack]
    exact bind_of_ok _ (EngineM.ofEpisode_of_ok hroll)
  simp only [handleMessage, h]
  rw [bind_of_ok _ hwrap]
  rfl

theorem handleMessage_deleted {s : Engine G} {id : EpisodeId} {w : EpisodeWrapper G}
    (md : PayloadMetadata) (h : s.episodes[id]? = some w) (hstack : w.rollbackStack = []) :
    ∃ calls, s.handleMessage (.revert id) md =
      .ok ⟨{ s with
        episodes := s.episodes.erase id
        episodeCreationTimes := s.episodeCreationTimes.erase id }, none, calls⟩ := by
  have hwrap : w.rollback s.world = .ok ((w, .error .deleteEpisode), s.world) := by
    unfold EpisodeWrapper.rollback
    rw [hstack]
    rfl
  have herase : (s.episodes.insert id w).erase id = s.episodes.erase id := by
    rw [insert_of_getElem? h]
  refine ⟨[.onRollback id w.episode], ?_⟩
  simp only [handleMessage, h]
  rw [bind_of_ok _ hwrap]
  simp only [herase]
  rfl

theorem Handles.frame {s : Engine G} {md : PayloadMetadata} {a : EpisodeMessage G}
    {out : Handled G} (h : s.Handles md a out) :
    out.engine.revertMap = s.revertMap ∧ out.engine.nextFiltering = s.nextFiltering := by
  cases h <;> exact ⟨rfl, rfl⟩

theorem Handles.revert_none {s : Engine G} {md : PayloadMetadata} {id : EpisodeId}
    {out : Handled G} (h : s.Handles md (.revert id) out) : out.revert = none := by
  generalize ha : (EpisodeMessage.revert id : EpisodeMessage G) = a at h
  cases h with
  | created => cases ha
  | executed hcmd => subst ha; cases hcmd
  | _ => rfl

def SameKeys (s : Engine G) : Prop :=
  ∀ id, id ∈ s.episodes ↔ id ∈ s.episodeCreationTimes

theorem Handles.sameKeys {s : Engine G} {md : PayloadMetadata} {a : EpisodeMessage G}
    {out : Handled G} (h : s.Handles md a out) (hs : s.SameKeys) : out.engine.SameKeys := by
  intro id
  have hid := hs id
  cases h with
  | known => exact hid
  | missing => exact hid
  | forged => exact hid
  | created => grind
  | rejected hcmd hsig hw => grind
  | executed hcmd hsig hw => grind
  | popped hw => grind
  | deleted hw => grind

theorem mem_removeIds {s : Engine G} {daaScore : UInt64} {id : EpisodeId} :
    id ∈ s.removeIds daaScore ↔
      ∃ t, s.episodeCreationTimes[id]? = some t ∧ t < saturatingSub daaScore episodeLifetime := by
  simp only [removeIds, List.mem_map, List.mem_filter, decide_eq_true_eq, Prod.exists,
    exists_and_right, exists_eq_right, ExtTreeMap.mem_toList_iff_getElem?_eq_some]

def Expires (s : Engine G) (daaScore : UInt64) (id : EpisodeId) : Prop :=
  s.filteringDue daaScore ∧ id ∈ s.removeIds daaScore

theorem filterOldEpisodes_not_due {s : Engine G} {daaScore : UInt64}
    (h : ¬ s.filteringDue daaScore) : s.filterOldEpisodes daaScore = s := by
  unfold filterOldEpisodes
  rw [if_neg h]

theorem filterOldEpisodes_due {s : Engine G} {daaScore : UInt64} (h : s.filteringDue daaScore) :
    s.filterOldEpisodes daaScore =
      { s with
        episodes := (s.removeIds daaScore).foldl (·.erase ·) s.episodes
        episodeCreationTimes :=
          (s.removeIds daaScore).foldl (·.erase ·) s.episodeCreationTimes
        nextFiltering := daaScore } := by
  unfold filterOldEpisodes
  rw [if_pos h]

theorem filterOldEpisodes_expired {s : Engine G} {daaScore : UInt64} {id : EpisodeId}
    (h : s.Expires daaScore id) :
    (s.filterOldEpisodes daaScore).episodes[id]? = none ∧
      (s.filterOldEpisodes daaScore).episodeCreationTimes[id]? = none := by
  obtain ⟨hdue, hmem⟩ := h
  rw [filterOldEpisodes_due hdue, getElem?_eraseAll, getElem?_eraseAll, if_pos hmem, if_pos hmem]
  exact ⟨rfl, rfl⟩

theorem filterOldEpisodes_kept {s : Engine G} {daaScore : UInt64} {id : EpisodeId}
    (h : ¬ s.Expires daaScore id) :
    (s.filterOldEpisodes daaScore).episodes[id]? = s.episodes[id]? ∧
      (s.filterOldEpisodes daaScore).episodeCreationTimes[id]? = s.episodeCreationTimes[id]? := by
  by_cases hdue : s.filteringDue daaScore
  · have hmem : id ∉ s.removeIds daaScore := fun hm => h ⟨hdue, hm⟩
    rw [filterOldEpisodes_due hdue, getElem?_eraseAll, getElem?_eraseAll, if_neg hmem, if_neg hmem]
    exact ⟨rfl, rfl⟩
  · rw [filterOldEpisodes_not_due hdue]
    exact ⟨rfl, rfl⟩

theorem filterOldEpisodes_frame (s : Engine G) (daaScore : UInt64) :
    (s.filterOldEpisodes daaScore).revertMap = s.revertMap ∧
      (s.filterOldEpisodes daaScore).world = s.world := by
  unfold filterOldEpisodes
  split <;> exact ⟨rfl, rfl⟩

theorem SameKeys.filterOldEpisodes {s : Engine G} (h : s.SameKeys) (daaScore : UInt64) :
    (s.filterOldEpisodes daaScore).SameKeys := by
  intro id
  have hid := h id
  by_cases hexp : s.Expires daaScore id
  · obtain ⟨he, hc⟩ := filterOldEpisodes_expired hexp
    grind
  · obtain ⟨he, hc⟩ := filterOldEpisodes_kept hexp
    grind

end Engine
end Kdapp
