import Kdapp.Engine.Isolation
import Mathlib.Data.List.Induction

/-! What handlers know of the episodes: relations between the engine and the callbacks made so far,
in any run. -/

namespace Kdapp.Engine
open FiniteMap
open Std (ExtTreeMap)

variable [Crypto] {G : Type} [Episode G]

/-- A relation that each part of the loop body keeps, with the callbacks it makes. -/
structure Observed (R : Engine G → List (HandlerCall G) → Prop) : Prop where
  filter : ∀ s daaScore calls, R s calls → R (s.filterOldEpisodes daaScore) calls
  handle : ∀ s md a out calls, s.Handles md a out → R s calls → R out.engine (calls ++ out.calls)
  revertMap : ∀ s m calls, R s calls → R { s with revertMap := m } calls

namespace Observed
variable {R : Engine G → List (HandlerCall G) → Prop} (hR : Observed R) {s s' : Engine G}
  {before calls : List (HandlerCall G)}
include hR

theorem acceptTxs {blk : BlkAccepted}
    {txs : List (Hash × Borsh.Bytes × Option (List TxOutputInfo))} {revertVec : List Reversion}
    (hs : R s before) (h : Engine.acceptTxs blk txs s = .ok (s', revertVec, calls)) :
    R s' (before ++ calls) := by
  induction txs generalizing s before revertVec calls with
  | nil =>
    cases h
    rw [List.append_nil]
    exact hs
  | cons tx txs ih =>
    cases ha : (action tx.2.1 : Option (EpisodeMessage G)) with
    | none =>
      rw [acceptTxs_skip txs s ha] at h
      exact ih hs h
    | some a =>
      obtain ⟨out, rv, cs, hout, htail, -, rfl⟩ := acceptTxs_action ha h
      have hnext := hR.handle s _ a out before (handleMessage_ok hout) hs
      rw [← List.append_assoc]
      exact ih hnext htail

theorem acceptBlock {blk : BlkAccepted} (hs : R s before)
    (h : s.acceptBlock blk = .ok (s', calls)) : R s' (before ++ calls) := by
  obtain ⟨s₁, revertVec, htxs, rfl⟩ := acceptBlock_ok h
  exact hR.revertMap _ _ _ (hR.acceptTxs (hR.filter s _ _ hs) htxs)

theorem revertEntries {hash : Hash} {es : List Reversion} (hs : R s before)
    (h : Engine.revertEntries hash es s = .ok (s', calls)) : R s' (before ++ calls) := by
  induction es generalizing s before calls with
  | nil =>
    cases h
    rw [List.append_nil]
    exact hs
  | cons e es ih =>
    obtain ⟨t, c, c', hhead, htail, rfl⟩ := revertEntries_cons_ok h
    have hnext := hR.handle s _ _ _ before (handleMessage_ok hhead) hs
    rw [← List.append_assoc]
    exact ih hnext htail

theorem revertBlock {hash : Hash} (hs : R s before)
    (h : s.revertBlock hash = .ok (s', calls)) : R s' (before ++ calls) := by
  unfold Engine.revertBlock at h
  split at h
  · exact hR.revertEntries (hR.revertMap _ _ _ hs) h
  · cases h
    rw [List.append_nil]
    exact hs

theorem start {msgs : List EngineMsg} (hs : R s before)
    (h : Engine.start msgs s = .ok (s', calls)) : R s' (before ++ calls) := by
  induction msgs generalizing s before calls with
  | nil =>
    cases h
    rw [List.append_nil]
    exact hs
  | cons m msgs ih =>
    cases m with
    | blkAccepted blk =>
      obtain ⟨t, c, c', hx, hy, rfl⟩ := start_blkAccepted_ok h
      rw [← List.append_assoc]
      exact ih (hR.acceptBlock hs hx) hy
    | blkReverted hash =>
      obtain ⟨t, c, c', hx, hy, rfl⟩ := start_blkReverted_ok h
      rw [← List.append_assoc]
      exact ih (hR.revertBlock hs hx) hy
    | exit =>
      cases h
      rw [List.append_nil]
      exact hs

end Observed

theorem calls_prefix {pre msgs : List EngineMsg} {s t s' : Engine G}
    {calls calls' : List (HandlerCall G)} (hpre : pre <+: msgs)
    (hfirst : start pre s = .ok (t, calls)) (h : start msgs s = .ok (s', calls')) :
    calls <+: calls' := by
  induction pre generalizing s msgs calls calls' with
  | nil =>
    cases hfirst
    exact List.nil_prefix
  | cons m pre ih =>
    obtain ⟨rest, rfl⟩ := hpre
    cases m with
    | blkAccepted blk =>
      obtain ⟨u, c, c₁, hx, hy, rfl⟩ := start_blkAccepted_ok hfirst
      obtain ⟨u', d, d₁, hx', hy', rfl⟩ := start_blkAccepted_ok h
      cases hx.symm.trans hx'
      exact (List.prefix_append_right_inj c).mpr (ih (List.prefix_append pre rest) hy hy')
    | blkReverted hash =>
      obtain ⟨u, c, c₁, hx, hy, rfl⟩ := start_blkReverted_ok hfirst
      obtain ⟨u', d, d₁, hx', hy', rfl⟩ := start_blkReverted_ok h
      cases hx.symm.trans hx'
      exact (List.prefix_append_right_inj c).mpr (ih (List.prefix_append pre rest) hy hy')
    | exit =>
      cases hfirst
      exact List.nil_prefix

theorem Handles.mem {s : Engine G} {md : PayloadMetadata} {a : EpisodeMessage G} {out : Handled G}
    (h : s.Handles md a out) (ha : ∀ id, a ≠ .revert id) {id : EpisodeId} (hid : id ∈ s.episodes) :
    id ∈ out.engine.episodes := by
  cases h with
  | known | missing | forged => exact hid
  | created hnew hinit => exact ExtTreeMap.mem_insert.mpr (.inr hid)
  | rejected hcmd hsig hw hexec => exact ExtTreeMap.mem_insert.mpr (.inr hid)
  | executed hcmd hsig hw hexec => exact ExtTreeMap.mem_insert.mpr (.inr hid)
  | popped => exact absurd rfl (ha _)
  | deleted => exact absurd rfl (ha _)

theorem Handles.live {s : Engine G} {md : PayloadMetadata} {a : EpisodeMessage G} {out : Handled G}
    (h : s.Handles md a out) (ha : ∀ id, a ≠ .revert id) {call : HandlerCall G}
    (hcall : call ∈ out.calls) : call.episodeId ∈ out.engine.episodes := by
  cases h with
  | known | missing | forged | rejected => exact absurd hcall List.not_mem_nil
  | created hnew hinit =>
    obtain rfl := List.mem_singleton.mp hcall
    exact ExtTreeMap.mem_insert_self
  | executed hcmd hsig hw hexec =>
    obtain rfl := List.mem_singleton.mp hcall
    exact ExtTreeMap.mem_insert_self
  | popped => exact absurd rfl (ha _)
  | deleted => exact absurd rfl (ha _)

section Mirror
variable {V : Type} (record : HandlerCall G → V)

def observe (out : ExtTreeMap EpisodeId V) (call : HandlerCall G) : ExtTreeMap EpisodeId V :=
  out.insert call.episodeId (record call)

def observed (out : ExtTreeMap EpisodeId V) (calls : List (HandlerCall G)) :
    ExtTreeMap EpisodeId V :=
  calls.foldl (observe record) out

variable {record} {out : ExtTreeMap EpisodeId V} {id : EpisodeId}
  {calls : List (HandlerCall G)} {call : HandlerCall G}

theorem observed_concat :
    observed record out (calls ++ [call]) = observe record (observed record out calls) call := by
  rw [observed, List.foldl_append]
  rfl

theorem observed_concat_self (h : call.episodeId = id) :
    (observed record out (calls ++ [call]))[id]? = some (record call) := by
  rw [observed_concat, observe, h]
  exact ExtTreeMap.getElem?_insert_self

theorem observed_concat_of_ne (h : call.episodeId ≠ id) :
    (observed record out (calls ++ [call]))[id]? = (observed record out calls)[id]? := by
  rw [observed_concat, observe, getElem?_insert_of_ne h]

theorem observed_of_callsOf (h : callsOf id calls = []) :
    (observed record out calls)[id]? = out[id]? := by
  induction calls using List.reverseRecOn with
  | nil => rfl
  | append_singleton calls call ih =>
    rw [callsOf_append, List.append_eq_nil_iff] at h
    have hother : call.episodeId ≠ id := by
      intro hid
      have hcalls := List.filter_eq_nil_iff.mp h.2 call List.mem_cons_self
      exact hcalls (decide_eq_true hid)
    rw [observed_concat_of_ne hother]
    exact ih h.1

/-- What is put down for an episode shows its state, by `snap`. -/
structure Reports (record : HandlerCall G → V) (snap : G → V) : Prop where
  created : ∀ ps md w (g : G) w' id, (Episode.initializeWith ps md).run w = .ok (g, w') →
    record (.onInitialize id g) = snap g
  executed : ∀ id (g : G) cmd auth md, record (.onCommand id g cmd auth md) = snap g
  reverted : ∀ id (g : G), record (.onRollback id g) = snap g

def Mirrors (snap : G → V) (s : Engine G) (out : ExtTreeMap EpisodeId V) : Prop :=
  ∀ (id : EpisodeId) ew, s.episodes[id]? = some ew → out[id]? = some (snap ew.episode)

variable {snap : G → V} {s : Engine G}

theorem Mirrors.insert (h : Mirrors snap s (observed record out calls)) (ew : EpisodeWrapper G)
    (hcall : call.episodeId = id) (hrecord : record call = snap ew.episode) {t : Engine G}
    (ht : t.episodes = s.episodes.insert id ew) :
    Mirrors snap t (observed record out (calls ++ [call])) := by
  intro id' ew' hew
  rw [ht] at hew
  by_cases hid : id = id'
  · subst hid
    obtain rfl := Option.some.inj (ExtTreeMap.getElem?_insert_self.symm.trans hew)
    rw [observed_concat_self hcall, hrecord]
  · rw [getElem?_insert_of_ne hid] at hew
    rw [observed_concat_of_ne (hcall.trans_ne hid)]
    exact h id' ew' hew

/-- Where a rejected command leaves the episode as it was, the entries of the live episodes show
their states in every run. -/
theorem Reports.mirrors (hatomic : Episode.ErrorAtomic G) (h : Reports record snap)
    (out : ExtTreeMap EpisodeId V) :
    Observed fun s calls => Mirrors snap s (observed record out calls) where
  filter s daaScore calls hs id ew hew := by
    by_cases hexpires : s.Expires daaScore id
    · rw [(filterOldEpisodes_expired hexpires).1] at hew
      cases hew
    · rw [(filterOldEpisodes_kept hexpires).1] at hew
      exact hs id ew hew
  handle s md a handled calls hhandles hs := by
    have hquiet : Mirrors snap s (observed record out (calls ++ [])) := by
      rw [List.append_nil]
      exact hs
    cases hhandles with
    | known => exact hquiet
    | missing => exact hquiet
    | forged => exact hquiet
    | @created id ps g world hnew hinit =>
      exact hs.insert ⟨g, []⟩ rfl (h.created ps md _ g _ id hinit) rfl
    | @rejected _ cmd auth w g e world hcmd hsig hw hexec =>
      -- no callback is made for a rejected command, so the episode has to be as it was
      obtain rfl := hatomic _ _ _ _ _ _ _ _ hexec
      intro id' ew' hew
      have hsame : s.episodes.insert a.episodeId ⟨w.episode, w.rollbackStack⟩ = s.episodes :=
        insert_of_getElem? hw
      rw [List.append_nil]
      apply hs id' ew'
      rw [← hsame]
      exact hew
    | @executed _ cmd auth w g r world hcmd hsig hw hexec =>
      exact hs.insert ⟨g, r :: w.rollbackStack⟩ rfl (h.executed _ g cmd auth md) rfl
    | @popped id w r rs g b world hw hstack hroll =>
      exact hs.insert ⟨g, rs⟩ rfl (h.reverted id g) rfl
    | @deleted id w hw hstack =>
      intro id' ew' hew
      have hew : (s.episodes.erase id)[id']? = some ew' := hew
      have hid : id ≠ id' := by
        rintro rfl
        cases ExtTreeMap.getElem?_erase_self.symm.trans hew
      rw [getElem?_erase_of_ne hid] at hew
      have hother : (HandlerCall.onRollback id w.episode : HandlerCall G).episodeId ≠ id' := hid
      rw [observed_concat_of_ne hother]
      exact hs id' ew' hew
  revertMap s m calls hs := hs

end Mirror
end Kdapp.Engine
