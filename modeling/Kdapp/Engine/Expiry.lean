import Kdapp.Engine.Run
import Kdapp.Library.Saturating

/-! How old a live episode can be when `filter_old_episodes` has run, and which it spares. -/

namespace Kdapp.Engine
open FiniteMap
open Std (ExtTreeMap)

variable [Crypto] {G : Type} [Episode G]

def scores (msgs : List EngineMsg) : List UInt64 :=
  msgs.filterMap fun
    | .blkAccepted blk => some blk.acceptingDaa
    | _ => none

structure Ascending (daaScores : List UInt64) : Prop where
  sorted : daaScores.Pairwise (· ≤ ·)
  small : ∀ daaScore ∈ daaScores, daaScore.toNat < 2 ^ 63

omit [Crypto] in
theorem Ascending.tail {daaScore : UInt64} {daaScores : List UInt64}
    (h : Ascending (daaScore :: daaScores)) : Ascending daaScores where
  sorted := h.sorted.tail
  small later hlater := h.small later (List.mem_cons_of_mem _ hlater)

theorem filteringDue_iff {s : Engine G} (hsmall : s.nextFiltering.toNat < 2 ^ 63)
    (daaScore : UInt64) :
    s.filteringDue daaScore ↔
      s.nextFiltering.toNat + sampleRemovalTime.toNat < daaScore.toNat := by
  have hsum : (s.nextFiltering + sampleRemovalTime).toNat =
      s.nextFiltering.toNat + sampleRemovalTime.toNat := by
    rw [UInt64.toNat_add]
    apply Nat.mod_eq_of_lt
    have hremoval : sampleRemovalTime.toNat = 432000 := rfl
    omega
  rw [← hsum, ← UInt64.lt_iff_toNat_lt]
  rfl

omit [Crypto] in
theorem lt_saturatingSub_iff (created daaScore : UInt64) :
    created < saturatingSub daaScore episodeLifetime ↔
      created.toNat + episodeLifetime.toNat < daaScore.toNat := by
  have hsub : (saturatingSub daaScore episodeLifetime).toNat =
      daaScore.toNat - episodeLifetime.toNat := Saturating.sub_toNat _ _
  rw [UInt64.lt_iff_toNat_lt, hsub]
  omega

theorem filterOldEpisodes_spares {s : Engine G} {daaScore created : UInt64} {id : EpisodeId}
    (hcreated : s.episodeCreationTimes[id]? = some created)
    (hyoung : daaScore.toNat ≤ created.toNat + episodeLifetime.toNat) :
    (s.filterOldEpisodes daaScore).episodes[id]? = s.episodes[id]? := by
  have hkept : ¬ s.Expires daaScore id := by
    rintro ⟨-, hmem⟩
    obtain ⟨t, ht, hold⟩ := mem_removeIds.mp hmem
    obtain rfl : t = created := Option.some.inj (ht.symm.trans hcreated)
    have hage := (lt_saturatingSub_iff t daaScore).mp hold
    omega
  exact (filterOldEpisodes_kept hkept).1

theorem filterOldEpisodes_creationTimes {s : Engine G} {daaScore created : UInt64}
    {id : EpisodeId}
    (h : (s.filterOldEpisodes daaScore).episodeCreationTimes[id]? = some created) :
    ¬ s.Expires daaScore id ∧ s.episodeCreationTimes[id]? = some created := by
  have hkept : ¬ s.Expires daaScore id := by
    intro hexpires
    rw [(filterOldEpisodes_expired hexpires).2] at h
    cases h
  exact ⟨hkept, (filterOldEpisodes_kept hkept).2.symm.trans h⟩

/-- Whatever is there was no older than a lifetime when the filter last ran; `last` is the score
of the last accepted block. -/
structure Windowed (s : Engine G) (last : UInt64) : Prop where
  sameKeys : s.SameKeys
  filtered : s.nextFiltering ≤ last
  young : ∀ (id : EpisodeId) (created : UInt64), s.episodeCreationTimes[id]? = some created →
    s.nextFiltering.toNat ≤ created.toNat + episodeLifetime.toNat

theorem Handles.creationTimes {s : Engine G} {md : PayloadMetadata} {a : EpisodeMessage G}
    {out : Handled G} (h : s.Handles md a out) {id : EpisodeId} {created : UInt64}
    (hcreated : out.engine.episodeCreationTimes[id]? = some created) :
    s.episodeCreationTimes[id]? = some created ∨
      created = md.acceptingDaa ∧ ∃ ps, a = .newEpisode id ps := by
  cases h with
  | @created newId ps g world hnew hinit =>
    by_cases hid : newId = id
    · subst hid
      rw [ExtTreeMap.getElem?_insert_self] at hcreated
      exact .inr ⟨(Option.some.inj hcreated).symm, ps, rfl⟩
    · rw [getElem?_insert_of_ne hid] at hcreated
      exact .inl hcreated
  | deleted hw hstack => grind
  | _ => exact .inl hcreated

namespace Windowed

theorem init (world : Episode.World G) (last : UInt64) : (new world).Windowed last where
  sameKeys := sameKeys_new world
  filtered := UInt64.zero_le
  young id created hcreated := by
    have hnone : (new world : Engine G).episodeCreationTimes[id]? = none := by
      simp only [new, ExtTreeMap.getElem?_empty]
    rw [hnone] at hcreated
    cases hcreated

theorem mono {s : Engine G} {last later : UInt64} (h : s.Windowed last) (hle : last ≤ later) :
    s.Windowed later where
  sameKeys := h.sameKeys
  filtered := UInt64.le_trans h.filtered hle
  young := h.young

theorem revertMap {s : Engine G} {last : UInt64} (h : s.Windowed last)
    (m : ExtTreeMap Hash (List Reversion)) :
    ({ s with revertMap := m } : Engine G).Windowed last :=
  ⟨h.sameKeys, h.filtered, h.young⟩

theorem filterOldEpisodes {s : Engine G} {last : UInt64} (h : s.Windowed last) :
    (s.filterOldEpisodes last).Windowed last := by
  by_cases hdue : s.filteringDue last
  · have hnext : (s.filterOldEpisodes last).nextFiltering = last := by
      rw [filterOldEpisodes_due hdue]
    refine ⟨h.sameKeys.filterOldEpisodes last, ?_, fun id created hcreated => ?_⟩
    · rw [hnext]
      exact UInt64.le_refl last
    · rw [hnext]
      obtain ⟨hkept, hbefore⟩ := filterOldEpisodes_creationTimes hcreated
      by_contra hold
      apply hkept
      refine ⟨hdue, mem_removeIds.mpr ⟨created, hbefore, ?_⟩⟩
      exact (lt_saturatingSub_iff created last).mpr (Nat.lt_of_not_le hold)
  · rw [filterOldEpisodes_not_due hdue]
    exact h

theorem handles {s : Engine G} {last : UInt64} {md : PayloadMetadata} {a : EpisodeMessage G}
    {out : Handled G} (h : s.Windowed last) (hout : s.Handles md a out)
    (hdated : ∀ id ps, a = .newEpisode id ps → md.acceptingDaa = last) :
    out.engine.Windowed last := by
  obtain ⟨-, hnext⟩ := hout.frame
  refine ⟨hout.sameKeys h.sameKeys, ?_, fun id created hcreated => ?_⟩
  · rw [hnext]
    exact h.filtered
  · rw [hnext]
    rcases hout.creationTimes hcreated with hbefore | ⟨rfl, ps, rfl⟩
    · exact h.young id created hbefore
    · have hfiltered := UInt64.le_iff_toNat_le.mp h.filtered
      rw [hdated id ps rfl]
      exact Nat.le_add_right_of_le hfiltered

theorem acceptTxs {blk : BlkAccepted}
    {txs : List (Hash × Borsh.Bytes × Option (List TxOutputInfo))} {s s' : Engine G}
    {revertVec : List Reversion} {calls : List (HandlerCall G)}
    (h : s.Windowed blk.acceptingDaa)
    (htxs : Engine.acceptTxs blk txs s = .ok (s', revertVec, calls)) :
    s'.Windowed blk.acceptingDaa := by
  induction txs generalizing s revertVec calls with
  | nil =>
    cases htxs
    exact h
  | cons tx txs ih =>
    rcases acceptTxs_cons_ok htxs with ⟨-, hskip⟩ | ⟨a, out, rv, cs, -, hout, htail, -⟩
    · exact ih h hskip
    · exact ih (h.handles (handleMessage_ok hout) fun _ _ _ => rfl) htail

theorem acceptBlock {blk : BlkAccepted} {s s' : Engine G} {calls : List (HandlerCall G)}
    (h : s.Windowed blk.acceptingDaa) (hblk : s.acceptBlock blk = .ok (s', calls)) :
    s'.Windowed blk.acceptingDaa := by
  obtain ⟨s₁, revertVec, htxs, rfl⟩ := acceptBlock_ok hblk
  exact (h.filterOldEpisodes.acceptTxs htxs).revertMap _

theorem revertEntries {hash : Hash} {es : List Reversion} {last : UInt64} {s s' : Engine G}
    {calls : List (HandlerCall G)} (h : s.Windowed last)
    (hes : Engine.revertEntries hash es s = .ok (s', calls)) : s'.Windowed last := by
  induction es generalizing s calls with
  | nil =>
    cases hes
    exact h
  | cons e es ih =>
    obtain ⟨t, c, c', hhead, htail, -⟩ := revertEntries_cons_ok hes
    refine ih (h.handles (handleMessage_ok hhead) fun id ps hps => ?_) htail
    cases hps

theorem revertBlock {hash : Hash} {last : UInt64} {s s' : Engine G}
    {calls : List (HandlerCall G)} (h : s.Windowed last)
    (hblk : s.revertBlock hash = .ok (s', calls)) : s'.Windowed last := by
  unfold Engine.revertBlock at hblk
  split at hblk
  · exact (h.revertMap _).revertEntries hblk
  · cases hblk
    exact h

theorem start {msgs : List EngineMsg} {last daaScore : UInt64} {s s' : Engine G}
    {calls : List (HandlerCall G)} (h : s.Windowed last)
    (hscores : Ascending (last :: (scores msgs ++ [daaScore])))
    (hrun : Engine.start msgs s = .ok (s', calls)) : s'.Windowed daaScore := by
  induction msgs generalizing s last calls with
  | nil =>
    cases hrun
    exact h.mono (List.rel_of_pairwise_cons hscores.sorted (List.mem_singleton.mpr rfl))
  | cons m msgs ih =>
    rcases start_cons_ok hrun with ⟨blk, t, c, c', rfl, hx, hy⟩ | ⟨hash, t, c, c', rfl, hx, hy⟩ |
      ⟨rfl, rfl⟩
    · have hle : last ≤ blk.acceptingDaa :=
        List.rel_of_pairwise_cons hscores.sorted List.mem_cons_self
      exact ih ((h.mono hle).acceptBlock hx) hscores.tail hy
    · exact ih (h.revertBlock hx) hscores hy
    · refine h.mono (List.rel_of_pairwise_cons hscores.sorted ?_)
      exact List.mem_append_right _ (List.mem_singleton.mpr rfl)

theorem within {s : Engine G} {last : UInt64} (h : s.Windowed last) (hsmall : last.toNat < 2 ^ 63)
    {id : EpisodeId} (hid : id ∈ (s.filterOldEpisodes last).episodes) :
    ∃ created, (s.filterOldEpisodes last).episodeCreationTimes[id]? = some created ∧
      last.toNat ≤ created.toNat + episodeLifetime.toNat + sampleRemovalTime.toNat := by
  have hfiltered := h.filterOldEpisodes
  obtain ⟨created, hcreated⟩ := exists_of_mem ((hfiltered.sameKeys id).mp hid)
  refine ⟨created, hcreated, ?_⟩
  have hyoung := hfiltered.young id created hcreated
  by_cases hdue : s.filteringDue last
  · rw [filterOldEpisodes_due hdue] at hyoung
    exact Nat.le_add_right_of_le hyoung
  · rw [filterOldEpisodes_not_due hdue] at hyoung
    have hnext : s.nextFiltering.toNat < 2 ^ 63 :=
      Nat.lt_of_le_of_lt (UInt64.le_iff_toNat_le.mp h.filtered) hsmall
    rw [filteringDue_iff hnext] at hdue
    omega

end Windowed

/-- Right after the filter ran for an accepted block, no live episode is older than a lifetime
and the removal time together, and none was removed within its lifetime. -/
theorem expiry_window {world : Episode.World G} {msgs : List EngineMsg} {blk : BlkAccepted}
    {s : Engine G} {calls : List (HandlerCall G)}
    (hscores : Ascending (scores (msgs ++ [.blkAccepted blk])))
    (hrun : start msgs (new world) = .ok (s, calls)) :
    (∀ id ∈ (s.filterOldEpisodes blk.acceptingDaa).episodes,
      ∃ created, (s.filterOldEpisodes blk.acceptingDaa).episodeCreationTimes[id]? = some created ∧
        blk.acceptingDaa.toNat ≤
          created.toNat + episodeLifetime.toNat + sampleRemovalTime.toNat) ∧
      ∀ id ∈ s.episodes, ∃ created, s.episodeCreationTimes[id]? = some created ∧
        (blk.acceptingDaa.toNat ≤ created.toNat + episodeLifetime.toNat →
          (s.filterOldEpisodes blk.acceptingDaa).episodes[id]? = s.episodes[id]?) := by
  have happend : scores (msgs ++ [.blkAccepted blk]) = scores msgs ++ [blk.acceptingDaa] :=
    List.filterMap_append
  rw [happend] at hscores
  have hfrom : Ascending (0 :: (scores msgs ++ [blk.acceptingDaa])) := by
    refine ⟨List.pairwise_cons.mpr ⟨fun _ _ => UInt64.zero_le, hscores.sorted⟩, ?_⟩
    exact List.forall_mem_cons.mpr ⟨by decide, hscores.small⟩
  have hwindow : s.Windowed blk.acceptingDaa := (Windowed.init world 0).start hfrom hrun
  have hsmall : blk.acceptingDaa.toNat < 2 ^ 63 :=
    hscores.small _ (List.mem_append_right _ (List.mem_singleton.mpr rfl))
  constructor
  · intro id hid
    exact hwindow.within hsmall hid
  · intro id hid
    obtain ⟨created, hcreated⟩ := exists_of_mem ((hwindow.sameKeys id).mp hid)
    exact ⟨created, hcreated, filterOldEpisodes_spares hcreated⟩

end Kdapp.Engine

namespace Kdapp.Engine
open Outcome
attribute [local instance] idealCrypto

/-- A block that fires the filter when the episode of `tallyBlock` is over. -/
def lateBlock : BlkAccepted := { tallyBlock with acceptingDaa := 3000000 }

theorem expiry_window_tally :
    ∃ s calls, start [.blkAccepted tallyBlock] (new () : Engine Tally) = .ok (s, calls) ∧
      (∀ id ∈ (s.filterOldEpisodes lateBlock.acceptingDaa).episodes, ∃ created,
        (s.filterOldEpisodes lateBlock.acceptingDaa).episodeCreationTimes[id]? = some created ∧
          lateBlock.acceptingDaa.toNat ≤
            created.toNat + episodeLifetime.toNat + sampleRemovalTime.toNat) ∧
      ∀ id ∈ s.episodes, ∃ created, s.episodeCreationTimes[id]? = some created ∧
        (lateBlock.acceptingDaa.toNat ≤ created.toNat + episodeLifetime.toNat →
          (s.filterOldEpisodes lateBlock.acceptingDaa).episodes[id]? = s.episodes[id]?) := by
  obtain ⟨⟨s, calls⟩, hrun⟩ := exists_of_isOk
    (show (start [.blkAccepted tallyBlock] (new () : Engine Tally)).isOk = true by decide)
  have hscores : Ascending (scores ([.blkAccepted tallyBlock] ++ [.blkAccepted lateBlock])) := by
    refine ⟨by decide, fun daaScore hmem => ?_⟩
    have htwo : daaScore = 1 ∨ daaScore = 3000000 := by
      rcases List.mem_cons.mp hmem with hfirst | hlast
      · exact .inl hfirst
      · exact .inr (List.mem_singleton.mp hlast)
    have hone : (1 : UInt64).toNat = 1 := rfl
    have hlate : (3000000 : UInt64).toNat = 3000000 := rfl
    rcases htwo with rfl | rfl
    · omega
    · omega
  exact ⟨s, calls, hrun, expiry_window hscores hrun⟩

end Kdapp.Engine
