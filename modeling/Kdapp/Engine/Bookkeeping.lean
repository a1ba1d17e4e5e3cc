import Kdapp.Engine.Journal

/-! The journal describes the engine in every last-in-first-out run: each entry of the revert
map stands for one object on one stack, or for the creation of a live episode. -/

namespace Kdapp
open Outcome FiniteMap
open Std (ExtTreeMap)

variable [Crypto] {G : Type} [Episode G]

namespace Journal

/-- The records of an episode from its latest creation on, newest first. -/
def sinceCreation (j : Journal G) (records : List (Record G)) (id : EpisodeId) :
    List (Record G) :=
  records.filter fun r => r.episodeId = id ∧ j.created id ≤ r.serial

theorem sinceCreation_cons_pos {j : Journal G} {r : Record G} (records : List (Record G))
    (h : j.created r.episodeId ≤ r.serial) :
    j.sinceCreation (r :: records) r.episodeId = r :: j.sinceCreation records r.episodeId :=
  List.filter_cons_of_pos (by simpa using h)

theorem sinceCreation_cons_ne {j : Journal G} {r : Record G} (records : List (Record G))
    {id : EpisodeId} (h : r.episodeId ≠ id) :
    j.sinceCreation (r :: records) id = j.sinceCreation records id :=
  List.filter_cons_of_neg (by simp [h])

theorem sinceCreation_eq_nil {j : Journal G} {records : List (Record G)} {id : EpisodeId}
    (h : ∀ r ∈ records, r.serial < j.created id) : j.sinceCreation records id = [] := by
  apply List.filter_eq_nil_iff.mpr
  intro r hr hmem
  have hlt := h r hr
  simp only [decide_eq_true_eq] at hmem
  omega

theorem sinceCreation_congr {j j' : Journal G} (records : List (Record G)) {id : EpisodeId}
    (h : j'.created id = j.created id) :
    j'.sinceCreation records id = j.sinceCreation records id := by
  simp only [sinceCreation, h]

/-- The journal knows which record pushed each of the objects on the stack of a live episode: its
records since its latest creation, that creation last. -/
structure Tracks (j : Journal G) (records : List (Record G)) (id : EpisodeId)
    (stack : List (Episode.CommandRollback G)) : Prop where
  created_lt : j.created id < j.next
  length_pushed : (j.pushed id).length = stack.length
  serials : (j.sinceCreation records id).map Record.serial = j.pushed id ++ [j.created id]
  objects : (j.sinceCreation records id).map Record.object = stack.map some ++ [none]
  incarnation : ∀ r ∈ j.sinceCreation records id, r.incarnation = j.created id

theorem Tracks.congr {j j' : Journal G} {records records' : List (Record G)} {id : EpisodeId}
    {stack : List (Episode.CommandRollback G)} (h : j.Tracks records id stack)
    (hsame : j'.sinceCreation records' id = j.sinceCreation records id)
    (hnext : j.next ≤ j'.next) (hcreated : j'.created id = j.created id)
    (hpushed : j'.pushed id = j.pushed id) : j'.Tracks records' id stack := by
  refine ⟨?_, ?_, ?_, ?_, ?_⟩
  · rw [hcreated]
    exact Nat.lt_of_lt_of_le h.created_lt hnext
  · rw [hpushed]
    exact h.length_pushed
  · rw [hsame, hpushed, hcreated]
    exact h.serials
  · rw [hsame]
    exact h.objects
  · rw [hsame, hcreated]
    exact h.incarnation

theorem Tracks.other {j j' : Journal G} {records : List (Record G)} {id : EpisodeId}
    {stack : List (Episode.CommandRollback G)} {r : Record G}
    (h : j.Tracks records id stack) (hr : r.episodeId ≠ id)
    (hnext : j.next ≤ j'.next) (hcreated : j'.created id = j.created id)
    (hpushed : j'.pushed id = j.pushed id) : j'.Tracks (r :: records) id stack := by
  have hsame : j'.sinceCreation (r :: records) id = j.sinceCreation records id :=
    (sinceCreation_cons_ne records hr).trans (sinceCreation_congr records hcreated)
  exact h.congr hsame hnext hcreated hpushed

theorem Tracks.of_other {j j' : Journal G} {records : List (Record G)} {id : EpisodeId}
    {stack : List (Episode.CommandRollback G)} {r : Record G}
    (h : j.Tracks (r :: records) id stack) (hr : r.episodeId ≠ id)
    (hnext : j.next ≤ j'.next) (hcreated : j'.created id = j.created id)
    (hpushed : j'.pushed id = j.pushed id) : j'.Tracks records id stack := by
  have hsame : j'.sinceCreation records id = j.sinceCreation (r :: records) id :=
    (sinceCreation_congr records hcreated).trans (sinceCreation_cons_ne records hr).symm
  exact h.congr hsame hnext hcreated hpushed

theorem Tracks.fresh {j : Journal G} {records : List (Record G)} {r : Record G}
    (hold : ∀ r' ∈ records, r'.serial < r.serial) (hnext : r.serial < j.next)
    (hcreated : j.created r.episodeId = r.serial) (hpushed : j.pushed r.episodeId = [])
    (hobject : r.object = none) (hincarnation : r.incarnation = r.serial) :
    j.Tracks (r :: records) r.episodeId [] := by
  have hnil : j.sinceCreation records r.episodeId = [] :=
    sinceCreation_eq_nil fun r' hr' => hcreated ▸ hold r' hr'
  have hone : j.sinceCreation (r :: records) r.episodeId = [r] := by
    rw [sinceCreation_cons_pos records hcreated.le, hnil]
  refine ⟨?_, ?_, ?_, ?_, ?_⟩
  · rw [hcreated]
    exact hnext
  · rw [hpushed]
    rfl
  · rw [hone, hpushed, hcreated]
    rfl
  · rw [hone, List.map_singleton, hobject]
    rfl
  · rw [hone, hcreated]
    rintro r' hr'
    obtain rfl := List.mem_singleton.mp hr'
    exact hincarnation

theorem Tracks.push {j j' : Journal G} {records : List (Record G)} {r : Record G}
    {stack : List (Episode.CommandRollback G)}
    (h : j.Tracks records r.episodeId stack) (hserial : r.serial = j.next)
    (hnext : j.next < j'.next) (hcreated : j'.created r.episodeId = j.created r.episodeId)
    (hpushed : j'.pushed r.episodeId = r.serial :: j.pushed r.episodeId)
    {object : Episode.CommandRollback G} (hobject : r.object = some object)
    (hincarnation : r.incarnation = j.created r.episodeId) :
    j'.Tracks (r :: records) r.episodeId (object :: stack) := by
  have hle : j'.created r.episodeId ≤ r.serial := by
    rw [hcreated, hserial]
    exact h.created_lt.le
  have hcons : j'.sinceCreation (r :: records) r.episodeId =
      r :: j.sinceCreation records r.episodeId := by
    rw [sinceCreation_cons_pos records hle, sinceCreation_congr records hcreated]
  refine ⟨?_, ?_, ?_, ?_, ?_⟩
  · rw [hcreated]
    exact h.created_lt.trans hnext
  · rw [hpushed, List.length_cons, List.length_cons, h.length_pushed]
  · rw [hcons, hpushed, hcreated, List.map_cons, h.serials, List.cons_append]
  · rw [hcons, List.map_cons, h.objects, hobject]
    rfl
  · rw [hcons, hcreated]
    rintro r' hr'
    rcases List.mem_cons.mp hr' with rfl | hr'
    · exact hincarnation
    · exact h.incarnation r' hr'

theorem Tracks.newest {j : Journal G} {records : List (Record G)} {r : Record G}
    {stack : List (Episode.CommandRollback G)}
    (h : j.Tracks (r :: records) r.episodeId stack)
    (hold : ∀ r' ∈ records, r'.serial < r.serial) :
    j.created r.episodeId ≤ r.serial ∧ r.incarnation = j.created r.episodeId ∧
      r.serial :: (j.sinceCreation records r.episodeId).map Record.serial =
        j.pushed r.episodeId ++ [j.created r.episodeId] ∧
      r.object :: (j.sinceCreation records r.episodeId).map Record.object =
        stack.map some ++ [none] := by
  have hle : j.created r.episodeId ≤ r.serial := by
    have hmem : j.created r.episodeId ∈
        (j.sinceCreation (r :: records) r.episodeId).map Record.serial := by
      rw [h.serials]
      exact List.mem_append_right _ List.mem_cons_self
    obtain ⟨r', hr', hserial⟩ := List.mem_map.mp hmem
    have hmem' : r' ∈ r :: records := List.mem_of_mem_filter hr'
    rw [← hserial]
    rcases List.mem_cons.mp hmem' with rfl | hr'
    · exact le_rfl
    · exact (hold r' hr').le
  have hcons := sinceCreation_cons_pos records hle
  have hserials := h.serials
  have hobjects := h.objects
  rw [hcons, List.map_cons] at hserials hobjects
  exact ⟨hle, h.incarnation r (hcons ▸ List.mem_cons_self), hserials, hobjects⟩

theorem Tracks.pop {j j' : Journal G} {records : List (Record G)} {r : Record G}
    {object : Episode.CommandRollback G} {stack : List (Episode.CommandRollback G)}
    (h : j.Tracks (r :: records) r.episodeId (object :: stack))
    (hold : ∀ r' ∈ records, r'.serial < r.serial) (hnext : j'.next = j.next)
    (hcreated : j'.created r.episodeId = j.created r.episodeId)
    (hpushed : j'.pushed r.episodeId = (j.pushed r.episodeId).tail) :
    (j.pushed r.episodeId).head? = some r.serial ∧ r.object = some object ∧
      j'.Tracks records r.episodeId stack := by
  obtain ⟨hle, -, hserials, hobjects⟩ := h.newest hold
  obtain ⟨hobject, hothers⟩ := List.cons.inj hobjects
  have hlen := h.length_pushed
  cases hp : j.pushed r.episodeId with
  | nil =>
    rw [hp] at hlen
    cases hlen
  | cons p ps =>
    rw [hp] at hlen hserials hpushed
    obtain ⟨hhead, htail⟩ := List.cons.inj hserials
    refine ⟨congrArg some hhead.symm, hobject, ?_, ?_, ?_, ?_, ?_⟩
    · rw [hcreated, hnext]
      exact h.created_lt
    · rw [hpushed]
      exact Nat.succ.inj hlen
    · rw [sinceCreation_congr records hcreated, hpushed, hcreated]
      exact htail
    · rw [sinceCreation_congr records hcreated]
      exact hothers
    · rw [sinceCreation_congr records hcreated, hcreated]
      intro r' hr'
      refine h.incarnation r' ?_
      rw [sinceCreation_cons_pos records hle]
      exact List.mem_cons_of_mem _ hr'

/-- The journal describes the engine, where `records` are all records not reverted, newest
first, those of a block in progress included. -/
structure Describes (j : Journal G) (s : Engine G) (records : List (Record G)) : Prop where
  sameKeys : s.SameKeys
  lt_next : ∀ r ∈ records, r.serial < j.next
  sorted : records.Pairwise fun a b => b.serial < a.serial
  live : ∀ (id : EpisodeId) (w : EpisodeWrapper G), s.episodes[id]? = some w →
    j.Tracks records id w.rollbackStack

theorem describes_new (world : Episode.World G) : (new : Journal G).Describes (.new world) [] where
  sameKeys := Engine.sameKeys_new world
  lt_next _ hr := absurd hr List.not_mem_nil
  sorted := .nil
  live id w hw := by
    have hid := Engine.mem_of_getElem? hw
    simp only [Engine.new, ExtTreeMap.not_mem_empty] at hid

theorem Describes.filterOldEpisodes {j : Journal G} {s : Engine G} {records : List (Record G)}
    (h : j.Describes s records) (daaScore : UInt64) :
    j.Describes (s.filterOldEpisodes daaScore) records where
  sameKeys := h.sameKeys.filterOldEpisodes daaScore
  lt_next := h.lt_next
  sorted := h.sorted
  live id w hw := by
    by_cases hexp : s.Expires daaScore id
    · rw [(Engine.filterOldEpisodes_expired hexp).1] at hw
      cases hw
    · rw [(Engine.filterOldEpisodes_kept hexp).1] at hw
      exact h.live id w hw

theorem Describes.revertMap {j : Journal G} {s : Engine G} {records : List (Record G)}
    (h : j.Describes s records) (m : ExtTreeMap Hash (List Reversion)) :
    j.Describes { s with revertMap := m } records := ⟨h.sameKeys, h.lt_next, h.sorted, h.live⟩

theorem Describes.setFrames {j : Journal G} {s : Engine G} {records : List (Record G)}
    (h : j.Describes s records) (frames : List (Hash × List (Record G))) :
    ({ j with frames } : Journal G).Describes s records :=
  ⟨h.sameKeys, h.lt_next, h.sorted, fun id w hw =>
    have hl := h.live id w hw
    ⟨hl.created_lt, hl.length_pushed, hl.serials, hl.objects, hl.incarnation⟩⟩

theorem Describes.of_lookup {j : Journal G} {s t : Engine G} {records : List (Record G)}
    (h : j.Describes s records) (hkeys : t.SameKeys)
    (hlookup : ∀ (id : EpisodeId) (w : EpisodeWrapper G), t.episodes[id]? = some w →
      ∃ w₀ : EpisodeWrapper G, s.episodes[id]? = some w₀ ∧
        w₀.rollbackStack = w.rollbackStack) :
    j.Describes t records where
  sameKeys := hkeys
  lt_next := h.lt_next
  sorted := h.sorted
  live id w hw := by
    obtain ⟨w₀, hw₀, hstack⟩ := hlookup id w hw
    exact hstack ▸ h.live id w₀ hw₀

theorem Describes.note {j : Journal G} {s : Engine G} {records : List (Record G)}
    {a : EpisodeMessage G} {md : PayloadMetadata} {out : Handled G} (h : j.Describes s records)
    (hrevert : ∀ id, a ≠ .revert id) (hout : s.Handles md a out) :
    (j.note s a md out.revert).1.Describes out.engine
      ((j.note s a md out.revert).2 ++ records) := by
  have hkeys := hout.sameKeys h.sameKeys
  have hlt {r : Record G} (hr : r.serial = j.next) :
      ∀ r' ∈ r :: records, r'.serial < j.next + 1 := by
    intro r' hr'
    rcases List.mem_cons.mp hr' with rfl | hr'
    · omega
    · exact Nat.lt_succ_of_lt (h.lt_next r' hr')
  have hsorted {r : Record G} (hr : r.serial = j.next) :
      (r :: records).Pairwise fun a b => b.serial < a.serial :=
    List.pairwise_cons.mpr ⟨fun r' hr' => hr ▸ h.lt_next r' hr', h.sorted⟩
  cases hout with
  | known => exact h
  | missing => exact h
  | forged => exact h
  | @rejected a cmd auth w g e world hcmd hsig hw hexec =>
    refine h.of_lookup hkeys fun id w' hw' => ?_
    -- a rejected command may change the episode, but not its stack
    by_cases hid : a.episodeId = id
    · subst hid
      rw [ExtTreeMap.getElem?_insert_self] at hw'
      obtain rfl := Option.some.inj hw'
      exact ⟨w, hw, rfl⟩
    · exact ⟨w', by grind, rfl⟩
  | @created id ps g world hfresh hinit =>
    refine ⟨hkeys, hlt rfl, hsorted rfl, fun i w hw => ?_⟩
    by_cases hid : id = i
    · subst hid
      rw [ExtTreeMap.getElem?_insert_self] at hw
      obtain rfl := Option.some.inj hw
      -- a creation starts a stack: whatever the id was recorded for before is of no account
      exact Tracks.fresh (r := ⟨j.next, .newEpisode id ps, md, none, j.next⟩) h.lt_next
        (Nat.lt_succ_self _) (Function.update_self ..) (Function.update_self ..) rfl rfl
    · exact (h.live i w (by grind)).other hid (Nat.le_succ _)
        (Function.update_of_ne (Ne.symm hid) ..) (Function.update_of_ne (Ne.symm hid) ..)
  | @executed a cmd auth w g r world hcmd hsig hw hexec =>
    have hreturned : returned s a md = some r := by
      simp only [returned, hcmd, hw, hexec]
    have hnote : j.note s a md (some (a.episodeId, md)) =
        ({ j with
            next := j.next + 1
            pushed := Function.update j.pushed a.episodeId (j.next :: j.pushed a.episodeId) },
          [⟨j.next, a, md, some r, j.created a.episodeId⟩]) := by
      rw [← hreturned]
      cases a with
      | newEpisode => cases hcmd
      | _ => rfl
    rw [hnote]
    refine ⟨hkeys, hlt rfl, hsorted rfl, fun i w' hw' => ?_⟩
    by_cases hid : a.episodeId = i
    · subst hid
      rw [ExtTreeMap.getElem?_insert_self] at hw'
      obtain rfl := Option.some.inj hw'
      -- the new record is pushed on both sides, and stays the newest since the creation
      let j' : Journal G := { j with
        next := j.next + 1
        pushed := Function.update j.pushed a.episodeId (j.next :: j.pushed a.episodeId) }
      let new : Record G := ⟨j.next, a, md, some r, j.created a.episodeId⟩
      have hold : j.Tracks records new.episodeId w.rollbackStack := h.live _ w hw
      have hcreated : j'.created new.episodeId = j.created new.episodeId := rfl
      have hpushed : j'.pushed new.episodeId = new.serial :: j.pushed new.episodeId :=
        Function.update_self ..
      have htracks : j'.Tracks (new :: records) new.episodeId (r :: w.rollbackStack) :=
        hold.push rfl (Nat.lt_succ_self _) hcreated hpushed rfl rfl
      exact htracks
    · exact (h.live i w' (by grind)).other hid (Nat.le_succ _) rfl
        (Function.update_of_ne (Ne.symm hid) ..)
  | popped => exact absurd rfl (hrevert _)
  | deleted => exact absurd rfl (hrevert _)

theorem Describes.unnote {j : Journal G} {s : Engine G} {records : List (Record G)}
    {r : Record G} {md : PayloadMetadata} {out : Handled G} (h : j.Describes s (r :: records))
    (hout : s.Handles md (.revert r.episodeId) out) :
    (j.unnote s out.engine r).1.Describes out.engine records ∧
      (j.unnote s out.engine r).2.Exact := by
  have hkeys := hout.sameKeys h.sameKeys
  obtain ⟨hold, hsorted⟩ := List.pairwise_cons.mp h.sorted
  have hlt : ∀ r' ∈ records, r'.serial < j.next :=
    fun r' hr' => h.lt_next r' (List.mem_cons_of_mem _ hr')
  have hother {t : Engine G} {i : EpisodeId} {w : EpisodeWrapper G} (hi : r.episodeId ≠ i)
      (ht : t.episodes[i]? = s.episodes[i]?) (hw : t.episodes[i]? = some w) :
      j.Tracks records i w.rollbackStack :=
    (h.live i w (ht ▸ hw)).of_other hi le_rfl rfl rfl
  generalize ha : (EpisodeMessage.revert r.episodeId : EpisodeMessage G) = a at hout
  cases hout with
  | known => cases ha
  | created => cases ha
  | forged => cases ha
  | rejected hcmd =>
    subst ha
    cases hcmd
  | executed hcmd =>
    subst ha
    cases hcmd
  | missing hnew hmiss =>
    subst ha
    have hnone : s.episodes[r.episodeId]? = none := by grind [EpisodeMessage.episodeId]
    simp only [Journal.unnote, hnone]
    refine ⟨⟨hkeys, hlt, hsorted, fun i w hw => ?_⟩, trivial⟩
    have hi : r.episodeId ≠ i := by
      rintro rfl
      rw [hnone] at hw
      cases hw
    exact hother hi rfl hw
  | @popped id w x xs g b world hw hstack hroll =>
    obtain rfl : r.episodeId = id := EpisodeMessage.revert.inj ha
    have hlive := h.live _ w hw
    rw [hstack] at hlive
    obtain ⟨-, hincarnation, -⟩ := hlive.newest hold
    have hw' : (s.episodes.insert r.episodeId ⟨g, xs⟩)[r.episodeId]? = some ⟨g, xs⟩ :=
      ExtTreeMap.getElem?_insert_self
    simp only [Journal.unnote, hw, hw']
    let j' : Journal G := { j with
      pushed := Function.update j.pushed r.episodeId (j.pushed r.episodeId).tail }
    have hpushed : j'.pushed r.episodeId = (j.pushed r.episodeId).tail :=
      Function.update_self ..
    obtain ⟨hhead, hobject, htracks⟩ : (j.pushed r.episodeId).head? = some r.serial ∧
        r.object = some x ∧ j'.Tracks records r.episodeId xs := hlive.pop hold rfl rfl hpushed
    refine ⟨⟨hkeys, hlt, hsorted, fun i w' hw' => ?_⟩, hhead,
      ⟨x, hobject, hstack, s.world, world, b, hroll⟩, hincarnation.symm⟩
    by_cases hid : r.episodeId = i
    · subst hid
      rw [ExtTreeMap.getElem?_insert_self] at hw'
      obtain rfl := Option.some.inj hw'
      exact htracks
    · have hold' := h.live i w' (by grind)
      exact hold'.of_other hid le_rfl rfl (Function.update_of_ne (Ne.symm hid) ..)
  | @deleted id w hw hstack =>
    -- an empty stack: the newest record of the episode is its creation
    obtain rfl : r.episodeId = id := EpisodeMessage.revert.inj ha
    have hlive := h.live _ w hw
    rw [hstack] at hlive
    obtain ⟨-, hincarnation, hserials, hobjects⟩ := hlive.newest hold
    have hpushed : j.pushed r.episodeId = [] := List.length_eq_zero_iff.mp hlive.length_pushed
    rw [hpushed] at hserials
    obtain ⟨hserial, -⟩ := List.cons.inj hserials
    have hgone : (s.episodes.erase r.episodeId)[r.episodeId]? = none :=
      ExtTreeMap.getElem?_erase_self
    simp only [Journal.unnote, hw, hgone]
    refine ⟨⟨hkeys, hlt, hsorted, fun i w' hw' => ?_⟩, (List.cons.inj hobjects).1, hserial.symm,
      hincarnation.symm⟩
    have hid : r.episodeId ≠ i := by
      rintro rfl
      grind
    exact (h.live i w' (by grind)).of_other hid le_rfl rfl rfl

theorem note_entries {j : Journal G} {s : Engine G} {a : EpisodeMessage G} {md : PayloadMetadata}
    {out : Handled G} (hout : s.Handles md a out) :
    (j.note s a md out.revert).2.reverse.map Record.entry = out.revert.toList := by
  cases hout with
  | executed =>
    cases a <;> rfl
  | _ => rfl

theorem note_frames (j : Journal G) (s : Engine G) (a : EpisodeMessage G) (md : PayloadMetadata)
    (revert : Option Reversion) : (j.note s a md revert).1.frames = j.frames := by
  cases revert with
  | none => rfl
  | some e => cases a <;> rfl

theorem unnote_frames (j : Journal G) (s t : Engine G) (r : Record G) :
    (j.unnote s t r).1.frames = j.frames := by
  unfold Journal.unnote
  split <;> rfl

end Journal

namespace Traced
open Engine (actions acceptTxs revertEntries)

theorem handleAll_ok {blk : BlkAccepted}
    {txs : List (Hash × Borsh.Bytes × Option (List TxOutputInfo))} {s s' : Engine G}
    {revertVec : List Reversion} {calls : List (HandlerCall G)} {j : Journal G}
    {records : List (Record G)} (hj : j.Describes s records)
    (h : acceptTxs blk txs s = .ok (s', revertVec, calls)) :
    ∃ j' new, handleAll (actions blk txs) s j = .ok (s', j', new) ∧
      revertVec = new.reverse.map Record.entry ∧ j'.Describes s' (new ++ records) ∧
      j'.frames = j.frames := by
  induction txs generalizing s revertVec calls j records with
  | nil =>
    cases h
    exact ⟨j, [], rfl, rfl, hj, rfl⟩
  | cons tx txs ih =>
    rcases Engine.acceptTxs_cons_ok h with ⟨hnone, hskip⟩ | ⟨a, out, rv, cs, ha, hout, htail, rfl⟩
    · rw [Engine.actions_cons_none hnone]
      exact ih hj hskip
    · have hhandled := Engine.handleMessage_ok hout
      obtain ⟨j', new, hall, rfl, hdesc, hframes⟩ :=
        ih (hj.note (Engine.action_ne_revert ha) hhandled) htail
      refine ⟨j', new ++ (j.note s a (blk.metadata tx.1 tx.2.2) out.revert).2, ?_, ?_, ?_, ?_⟩
      · rw [Engine.actions_cons_some ha, handleAll, bind_of_ok _ hout, bind_of_ok _ hall]
        rfl
      · rw [List.reverse_append, List.map_append, Journal.note_entries hhandled]
      · rw [List.append_assoc]
        exact hdesc
      · exact hframes.trans (Journal.note_frames ..)

/-- The loop over the entries of a reverted block with the journal kept is the engine's
loop, and every reversion is exact. -/
theorem undoAll_ok {hash : Hash} {undone records : List (Record G)} {s s' : Engine G}
    {calls : List (HandlerCall G)} {j : Journal G} (hj : j.Describes s (undone ++ records))
    (h : revertEntries hash (undone.map Record.entry) s = .ok (s', calls)) :
    ∃ j' events, undoAll hash undone s j = .ok (s', j', events) ∧ j'.Describes s' records ∧
      j'.frames = j.frames ∧ ∀ e ∈ events, e.Exact := by
  induction undone generalizing s calls j with
  | nil =>
    cases h
    exact ⟨j, [], rfl, hj, rfl, fun e he => absurd he List.not_mem_nil⟩
  | cons r undone ih =>
    obtain ⟨t, c, c', hout, htail, -⟩ := Engine.revertEntries_cons_ok h
    obtain ⟨hdesc, hexact⟩ := hj.unnote (Engine.handleMessage_ok hout)
    obtain ⟨j', events, hall, hdesc', hframes, hevents⟩ := ih hdesc htail
    refine ⟨j', (j.unnote s t r).2 :: events, ?_, hdesc', ?_, ?_⟩
    · have hone : s.handleMessage (.revert r.episodeId) { r.metadata with acceptingHash := hash } =
          .ok ⟨t, none, c⟩ := hout
      rw [undoAll, bind_of_ok _ hone, bind_of_ok _ hall]
      rfl
    · exact hframes.trans (Journal.unnote_frames ..)
    · intro e he
      rcases List.mem_cons.mp he with rfl | he
      · exact hexact
      · exact hevents e he

/-- The frames are the revert map, and the journal describes the engine. -/
structure Consistent (t : Traced G) : Prop where
  describes : t.journal.Describes t.engine t.journal.records
  nodup : (t.journal.frames.map (·.1)).Nodup
  entries : ∀ hash : Hash, t.engine.revertMap[hash]? =
    (t.journal.frames.lookup hash).map fun records => records.reverse.map Record.entry
  exact : ∀ e ∈ t.events, e.Exact

theorem consistent_new (world : Episode.World G) : (new world).Consistent where
  describes := Journal.describes_new world
  nodup := .nil
  entries _ := ExtTreeMap.getElem?_empty
  exact _ he := absurd he List.not_mem_nil

theorem Consistent.mem_revertMap {t : Traced G} (ht : t.Consistent) (hash : Hash) :
    hash ∈ t.engine.revertMap ↔ hash ∈ t.journal.frames.map (·.1) := by
  rw [← ExtTreeMap.isSome_getElem?_iff_mem, ht.entries hash, Option.isSome_map]
  induction t.journal.frames with
  | nil => simp only [List.lookup_nil, Option.isSome_none, List.map_nil, List.not_mem_nil,
      Bool.false_eq_true]
  | cons f fs ih =>
    rw [List.lookup_cons, List.map_cons, List.mem_cons]
    by_cases hf : hash = f.1
    · simp only [hf, beq_self_eq_true, Option.isSome_some, true_or]
    · simp only [beq_eq_false_iff_ne.mpr hf, hf, false_or]
      exact ih

theorem Consistent.accept {t : Traced G} {blk : BlkAccepted} {s' : Engine G}
    {calls : List (HandlerCall G)} (ht : t.Consistent)
    (hfresh : blk.acceptingHash ∉ t.engine.revertMap)
    (h : t.engine.acceptBlock blk = .ok (s', calls)) :
    ∃ t', t.accept blk = .ok t' ∧ t'.engine = s' ∧ t'.Consistent ∧
      t'.journal.frames.map (·.1) = blk.acceptingHash :: t.journal.frames.map (·.1) := by
  obtain ⟨s₁, revertVec, htxs, rfl⟩ := Engine.acceptBlock_ok h
  obtain ⟨j', new, hall, rfl, hdesc, hframes⟩ :=
    handleAll_ok (ht.describes.filterOldEpisodes blk.acceptingDaa) htxs
  have hmap : s₁.revertMap = t.engine.revertMap :=
    (Engine.acceptTxs_frame htxs).1.trans (Engine.filterOldEpisodes_frame _ _).1
  refine ⟨_, bind_of_ok _ hall, rfl, ⟨?_, ?_, fun hash => ?_, ht.exact⟩, ?_⟩
  · have hrecords :
        ({ j' with frames := (blk.acceptingHash, new) :: j'.frames } : Journal G).records =
          new ++ t.journal.records := by
      simp only [Journal.records, List.flatMap_cons, hframes]
    rw [hrecords]
    exact (hdesc.revertMap _).setFrames _
  · change (blk.acceptingHash :: j'.frames.map (·.1)).Nodup
    rw [hframes]
    exact List.nodup_cons.mpr ⟨fun hm => hfresh ((ht.mem_revertMap _).mpr hm), ht.nodup⟩
  · change (s₁.revertMap.insert _ _)[hash]? = (List.lookup hash (_ :: j'.frames)).map _
    rw [List.lookup_cons, hframes, hmap]
    by_cases hf : hash = blk.acceptingHash
    · subst hf
      rw [ExtTreeMap.getElem?_insert_self, beq_self_eq_true]
      rfl
    · rw [beq_eq_false_iff_ne.mpr hf, ← ht.entries hash]
      grind
  · change blk.acceptingHash :: j'.frames.map (·.1) = _
    rw [hframes]

theorem Consistent.revertTop {t : Traced G} {hash : Hash} {rest : List Hash} {s' : Engine G}
    {calls : List (HandlerCall G)} (ht : t.Consistent)
    (htop : t.journal.frames.map (·.1) = hash :: rest)
    (h : t.engine.revertBlock hash = .ok (s', calls)) :
    ∃ t', t.revertTop = .ok t' ∧ t'.engine = s' ∧ t'.Consistent ∧
      t'.journal.frames.map (·.1) = rest := by
  cases hframes : t.journal.frames with
  | nil =>
    rw [hframes] at htop
    cases htop
  | cons f fs =>
    obtain ⟨hash', records⟩ := f
    rw [hframes] at htop
    obtain ⟨rfl, rfl⟩ := List.cons.inj htop
    have hnodup := ht.nodup
    rw [hframes] at hnodup
    obtain ⟨hnotin, hnodup⟩ := List.nodup_cons.mp hnodup
    -- the entry of the block is its frame, oldest first
    have hentry : t.engine.revertMap[hash']? = some (records.reverse.map Record.entry) := by
      rw [ht.entries hash', hframes, List.lookup_cons, beq_self_eq_true]
      rfl
    unfold Engine.revertBlock at h
    rw [hentry] at h
    simp only [← List.map_reverse, List.reverse_reverse] at h
    have hrecords : t.journal.records = records ++ ({ t.journal with frames := fs }).records := by
      simp only [Journal.records, hframes, List.flatMap_cons]
    have hdesc := ht.describes
    rw [hrecords] at hdesc
    obtain ⟨j', events, hall, hdesc', hframes', hevents⟩ :=
      undoAll_ok ((hdesc.revertMap _).setFrames fs) h
    have hrun : t.revertTop = .ok ⟨s', j', t.events ++ events⟩ := by
      unfold Traced.revertTop
      rw [hframes]
      exact bind_of_ok _ hall
    refine ⟨_, hrun, rfl, ⟨?_, ?_, fun hash => ?_, fun e he => ?_⟩, ?_⟩
    · have hsame : j'.records = ({ t.journal with frames := fs }).records := by
        simp only [Journal.records, hframes']
      rw [hsame]
      exact hdesc'
    · rw [hframes']
      exact hnodup
    · have hmap := Engine.revertEntries_frame h
      rw [hframes', hmap]
      by_cases hf : hash = hash'
      · subst hf
        have hnone : List.lookup hash fs = none := List.lookup_eq_none_iff.mpr fun p hp => by
          refine bne_iff_ne.mpr fun he => hnotin ?_
          exact List.mem_map.mpr ⟨p, hp, he.symm⟩
        rw [hnone]
        exact ExtTreeMap.getElem?_erase_self
      · have hsame := ht.entries hash
        rw [hframes, List.lookup_cons, beq_eq_false_iff_ne.mpr hf] at hsame
        rw [← hsame]
        grind
    · rcases List.mem_append.mp he with he | he
      · exact ht.exact e he
      · exact hevents e he
    · rw [hframes']

end Traced

namespace Engine

/-- Every accepted block has a hash that is not in the revert map, and every reverted block
is the newest of the accepted and not reverted blocks `recent`, or unknown. -/
def Lifo : List Hash → List EngineMsg → Engine G → Prop
  | _, [], _ => True
  | recent, .blkAccepted blk :: msgs, s =>
    blk.acceptingHash ∉ s.revertMap ∧
      ∀ s' calls, s.acceptBlock blk = .ok (s', calls) → Lifo (blk.acceptingHash :: recent) msgs s'
  | recent, .blkReverted hash :: msgs, s =>
    (∃ rest, recent = hash :: rest ∧
      ∀ s' calls, s.revertBlock hash = .ok (s', calls) → Lifo rest msgs s') ∨
    (hash ∉ s.revertMap ∧ Lifo recent msgs s)
  | _, .exit :: _, _ => True

theorem traced_start {recent : List Hash} {msgs : List EngineMsg} {t : Traced G} {s' : Engine G}
    {calls : List (HandlerCall G)} (ht : t.Consistent)
    (hrecent : t.journal.frames.map (·.1) = recent) (hlifo : Lifo recent msgs t.engine)
    (h : start msgs t.engine = .ok (s', calls)) :
    ∃ t', Traced.start msgs t = .ok t' ∧ t'.engine = s' ∧ t'.Consistent := by
  induction msgs generalizing recent t calls with
  | nil =>
    cases h
    exact ⟨t, rfl, rfl, ht⟩
  | cons m msgs ih =>
    rcases start_cons_ok h with ⟨blk, u, c, c', rfl, hx, hy⟩ | ⟨hash, u, c, c', rfl, hx, hy⟩ |
      ⟨rfl, rfl⟩
    · obtain ⟨hfresh, hnext⟩ := hlifo
      obtain ⟨t₁, hrun, rfl, hcons, hframes⟩ := ht.accept hfresh hx
      rw [hrecent] at hframes
      obtain ⟨t', hrun', heng, hcons'⟩ := ih hcons hframes (hnext _ _ hx) hy
      refine ⟨t', ?_, heng, hcons'⟩
      rw [Traced.start, bind_of_ok _ hrun]
      exact hrun'
    · have hhead : t.journal.frames.head?.map (·.1) = recent.head? := by
        rw [← hrecent, List.head?_map]
      rcases hlifo with ⟨rest, rfl, hnext⟩ | ⟨hunknown, hnext⟩
      · obtain ⟨t₁, hrun, rfl, hcons, hframes⟩ := ht.revertTop hrecent hx
        obtain ⟨t', hrun', heng, hcons'⟩ := ih hcons hframes (hnext _ _ hx) hy
        refine ⟨t', ?_, heng, hcons'⟩
        rw [Traced.start, hhead, List.head?_cons, if_pos rfl, bind_of_ok _ hrun]
        exact hrun'
        -- a block that is not in the revert map changes nothing on either side
      · have hu : u = t.engine := by
          have hnone : t.engine.revertMap[hash]? = none := by grind
          unfold revertBlock at hx
          rw [hnone] at hx
          cases hx
          rfl
        subst hu
        obtain ⟨t', hrun', heng, hcons'⟩ := ih ht hrecent hnext hy
        refine ⟨t', ?_, heng, hcons'⟩
        have hne : recent.head? ≠ some hash := by
          intro hh
          refine hunknown ((ht.mem_revertMap hash).mpr ?_)
          rw [hrecent]
          exact List.mem_of_mem_head? hh
        rw [Traced.start, hhead, if_neg hne]
        exact hrun'
    · exact ⟨t, rfl, rfl, ht⟩

/-- In every last-in-first-out run the journal accounts for the revert map entry by entry: a
live episode has one entry for each object on its stack and one for its creation, and
every reversion that finds a live episode takes back what its entry was recorded for. -/
theorem lifo_bookkeeping {world : Episode.World G} {msgs : List EngineMsg}
    (hlifo : Lifo [] msgs (new world : Engine G)) :
    start msgs (new world : Engine G) ≠ .error .assertEq ∧
    ∀ s calls, start msgs (new world : Engine G) = .ok (s, calls) →
      (∀ id, id ∈ s.episodes ↔ id ∈ s.episodeCreationTimes) ∧
      ∃ t : Traced G, Traced.start msgs (.new world) = .ok t ∧ t.engine = s ∧
        (∀ hash : Hash, s.revertMap[hash]? =
          (t.journal.frames.lookup hash).map fun records => records.reverse.map Record.entry) ∧
        (∀ (id : EpisodeId) (w : EpisodeWrapper G), s.episodes[id]? = some w →
          (t.journal.sinceCreation t.journal.records id).length = w.rollbackStack.length + 1 ∧
          (t.journal.sinceCreation t.journal.records id).map Record.object =
            w.rollbackStack.map some ++ [none]) ∧
        ∀ e ∈ t.events, e.Exact := by
  refine ⟨start_ne_assertEq msgs _, fun s calls h => ?_⟩
  obtain ⟨t, hrun, rfl, ht⟩ :=
    traced_start (t := .new world) (Traced.consistent_new world) rfl hlifo h
  refine ⟨ht.describes.sameKeys, t, hrun, rfl, ht.entries, fun id w hw => ?_, ht.exact⟩
  have hobjects := (ht.describes.live id w hw).objects
  have hlen := congrArg List.length hobjects
  rw [List.length_map, List.length_append, List.length_map] at hlen
  exact ⟨hlen, hobjects⟩

end Engine
end Kdapp

namespace Kdapp.Engine
attribute [local instance] idealCrypto

/-- A block accepted, reverted and accepted again, and a revert of an unknown block. -/
theorem lifo_bookkeeping_tally :
    let msgs := [.blkAccepted tallyBlock, .blkReverted tallyBlock.acceptingHash,
      .blkReverted tallyBlock.acceptingHash, .blkAccepted tallyBlock]
    start msgs (new () : Engine Tally) ≠ .error .assertEq ∧
    ∀ s calls, start msgs (new () : Engine Tally) = .ok (s, calls) →
      (∀ id, id ∈ s.episodes ↔ id ∈ s.episodeCreationTimes) ∧
      ∃ t : Traced Tally, Traced.start msgs (.new ()) = .ok t ∧ t.engine = s ∧
        (∀ hash : Hash, s.revertMap[hash]? =
          (t.journal.frames.lookup hash).map fun records => records.reverse.map Record.entry) ∧
        (∀ (id : EpisodeId) (w : EpisodeWrapper Tally), s.episodes[id]? = some w →
          (t.journal.sinceCreation t.journal.records id).length = w.rollbackStack.length + 1 ∧
          (t.journal.sinceCreation t.journal.records id).map Record.object =
            w.rollbackStack.map some ++ [none]) ∧
        ∀ e ∈ t.events, e.Exact := by
  refine lifo_bookkeeping ⟨by decide, fun s₁ c₁ h₁ => .inl ⟨[], rfl, fun s₂ c₂ h₂ => ?_⟩⟩
  have hfresh : tallyBlock.acceptingHash ∉ s₂.revertMap := by
    rw [revertBlock_revertMap h₂]
    grind
  exact .inr ⟨hfresh, hfresh, fun _ _ _ => trivial⟩

end Kdapp.Engine
