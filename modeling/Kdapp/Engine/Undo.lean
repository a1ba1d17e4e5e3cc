import Kdapp.Engine.Run

/-! Reverting accepted blocks in the opposite order gives back the engine that accepted
them, as long as no episode expired in between. -/

namespace Kdapp
open Outcome FiniteMap
open Std (ExtTreeMap)

variable [Crypto] {G : Type} [Episode G]

namespace Engine

/-- Two engines with the same live episodes, in worlds related by `E`. -/
structure SameUpTo (E : Episode.World G → Episode.World G → Prop) (s t : Engine G) : Prop where
  episodes : s.episodes = t.episodes
  creationTimes : s.episodeCreationTimes = t.episodeCreationTimes
  world : E s.world t.world

variable {E : Episode.World G → Episode.World G → Prop}

/-- `t` reverts these entries without a panic and has the episodes of `s` again; a
reversion touches neither the revert map nor the time of the next filtering. -/
def Undoes (E : Episode.World G → Episode.World G → Prop) (hash : Hash) (es : List Reversion)
    (t s : Engine G) : Prop :=
  ∃ t' calls, revertEntries hash es t = .ok (t', calls) ∧ SameUpTo E t' s ∧
    t'.revertMap = t.revertMap ∧ t'.nextFiltering = t.nextFiltering

theorem Undoes.nil {hash : Hash} {s t : Engine G} (h : SameUpTo E t s) :
    Undoes E hash [] t s := ⟨t, [], rfl, h, rfl, rfl⟩

theorem Undoes.append {hash : Hash} {es fs : List Reversion} {s t u : Engine G}
    (hes : Undoes E hash es t u) (hfs : ∀ v, SameUpTo E v u → Undoes E hash fs v s) :
    Undoes E hash (es ++ fs) t s := by
  obtain ⟨t₁, c₁, hrun₁, hsame₁, hmap₁, hnext₁⟩ := hes
  obtain ⟨t₂, c₂, hrun₂, hsame₂, hmap₂, hnext₂⟩ := hfs t₁ hsame₁
  exact ⟨t₂, c₁ ++ c₂, revertEntries_append_of_ok hrun₁ hrun₂, hsame₂, hmap₂.trans hmap₁,
    hnext₂.trans hnext₁⟩

section
variable (hexact : Episode.UndoneUpTo G E)
include hexact

theorem Handles.undoes {s : Engine G} {md : PayloadMetadata} {a : EpisodeMessage G}
    {out : Handled G} (hkeys : s.SameKeys) (hrevert : ∀ id, a ≠ .revert id)
    (h : s.Handles md a out) (hash : Hash) (t : Engine G) (ht : SameUpTo E t out.engine) :
    Undoes E hash out.revert.toList t s := by
  obtain ⟨hepisodes, htimes, hworld⟩ := ht
  cases h with
  | known => exact .nil ⟨hepisodes, htimes, hworld⟩
  | missing => exact .nil ⟨hepisodes, htimes, hworld⟩
  | forged => exact .nil ⟨hepisodes, htimes, hworld⟩
  | rejected hcmd hsig hw hexec =>
    obtain ⟨rfl, hback⟩ := hexact.rejected _ _ _ _ _ _ _ _ _ hexec hworld
    exact .nil ⟨hepisodes.trans (insert_of_getElem? hw), htimes, hback⟩
  | @executed a cmd auth w g r world hcmd hsig hw hexec =>
    obtain ⟨res, world', hroll, hworld'⟩ := hexact.executed _ _ _ _ _ _ _ _ _ hexec hworld
    have hlive : t.episodes[a.episodeId]? = some ⟨g, r :: w.rollbackStack⟩ := by
      rw [hepisodes]
      exact ExtTreeMap.getElem?_insert_self
    have hone := handleMessage_popped { md with acceptingHash := hash } hlive rfl hroll
    -- the stack goes back to what it was with the rollback object popped
    have hback : (t.episodes.insert a.episodeId ⟨w.episode, w.rollbackStack⟩) = s.episodes := by
      rw [hepisodes, insert_insert]
      exact insert_of_getElem? hw
    exact ⟨_, _, revertEntries_cons_of_ok hone rfl, ⟨hback, htimes, hworld'⟩, rfl, rfl⟩
  | @created id ps g world hfresh hinit =>
    -- an empty stack tells a creation: its reversion deletes the episode
    have hlive : t.episodes[id]? = some ⟨g, []⟩ := by
      rw [hepisodes]
      exact ExtTreeMap.getElem?_insert_self
    obtain ⟨calls, hone⟩ := handleMessage_deleted { md with acceptingHash := hash } hlive rfl
    have hback : t.episodes.erase id = s.episodes := by
      rw [hepisodes]
      exact erase_insert_of_fresh (by grind) _
    have hbackTimes : t.episodeCreationTimes.erase id = s.episodeCreationTimes := by
      rw [htimes]
      have hnone := mt (hkeys id).mpr hfresh
      exact erase_insert_of_fresh (by grind) _
    have hworld' := hexact.created _ _ _ _ _ _ hinit hworld
    exact ⟨_, _, revertEntries_cons_of_ok hone rfl, ⟨hback, hbackTimes, hworld'⟩, rfl, rfl⟩
  | popped => exact absurd rfl (hrevert _)
  | deleted => exact absurd rfl (hrevert _)

theorem acceptTxs_undoes {blk : BlkAccepted}
    {txs : List (Hash × Borsh.Bytes × Option (List TxOutputInfo))} {s s' : Engine G}
    {revertVec : List Reversion} {calls : List (HandlerCall G)} (hkeys : s.SameKeys)
    (h : acceptTxs blk txs s = .ok (s', revertVec, calls)) (hash : Hash) (t : Engine G)
    (ht : SameUpTo E t s') : Undoes E hash revertVec.reverse t s := by
  induction txs generalizing s revertVec calls with
  | nil =>
    cases h
    exact .nil ht
  | cons tx txs ih =>
    rcases acceptTxs_cons_ok h with ⟨-, hskip⟩ | ⟨a, out, rv, cs, ha, hout, htail, rfl⟩
    · exact ih hkeys hskip
    · have hhandled := handleMessage_ok hout
      have hrest := ih (hhandled.sameKeys hkeys) htail
      have hone : out.revert.toList.reverse = out.revert.toList := by
        cases out.revert <;> rfl
      rw [List.reverse_append, hone]
      exact hrest.append fun v hv =>
        hhandled.undoes hexact hkeys (action_ne_revert ha) hash v hv

theorem acceptBlock_undoes {s s' : Engine G} {blk : BlkAccepted} {calls : List (HandlerCall G)}
    (hkeys : s.SameKeys) (hfresh : blk.acceptingHash ∉ s.revertMap)
    (h : s.acceptBlock blk = .ok (s', calls)) (t : Engine G) (ht : SameUpTo E t s')
    (hmap : t.revertMap = s'.revertMap) :
    ∃ t' calls', t.revertBlock blk.acceptingHash = .ok (t', calls') ∧
      SameUpTo E t' (s.filterOldEpisodes blk.acceptingDaa) ∧
      t'.revertMap = s.revertMap ∧ t'.nextFiltering = t.nextFiltering := by
  obtain ⟨s₁, revertVec, htxs, rfl⟩ := acceptBlock_ok h
  have hentry : t.revertMap[blk.acceptingHash]? = some revertVec := by
    rw [hmap]
    exact ExtTreeMap.getElem?_insert_self
  have hmap₀ : s₁.revertMap = s.revertMap :=
    (acceptTxs_frame htxs).1.trans (filterOldEpisodes_frame s _).1
  have hback : t.revertMap.erase blk.acceptingHash = s.revertMap := by
    rw [hmap]
    change (s₁.revertMap.insert _ _).erase _ = _
    rw [hmap₀]
    exact erase_insert_of_fresh (by grind) _
  obtain ⟨t', calls', hrun, hsame, hmap', hnext'⟩ :=
    acceptTxs_undoes hexact (hkeys.filterOldEpisodes _) htxs blk.acceptingHash
      { t with revertMap := t.revertMap.erase blk.acceptingHash }
      ⟨ht.episodes, ht.creationTimes, ht.world⟩
  refine ⟨t', calls', ?_, hsame, hmap'.trans hback, hnext'⟩
  unfold revertBlock
  rw [hentry]
  exact hrun

end

/-- No episode expires when these blocks come in one after the other. -/
def FilterKeeps : List BlkAccepted → Engine G → Prop
  | [], _ => True
  | blk :: blks, s =>
    (s.filterOldEpisodes blk.acceptingDaa).episodes = s.episodes ∧
      ∀ s' calls, s.acceptBlock blk = .ok (s', calls) → FilterKeeps blks s'

theorem SameKeys.creationTimes_filter {s : Engine G} {daaScore : UInt64} (hkeys : s.SameKeys)
    (h : (s.filterOldEpisodes daaScore).episodes = s.episodes) :
    (s.filterOldEpisodes daaScore).episodeCreationTimes = s.episodeCreationTimes := by
  apply ExtTreeMap.ext_getElem?
  intro id
  by_cases hexp : s.Expires daaScore id
  · obtain ⟨he, hc⟩ := filterOldEpisodes_expired hexp
    rw [h] at he
    have hnone := mt (hkeys id).mpr (not_mem_of_getElem? he)
    grind
  · exact (filterOldEpisodes_kept hexp).2

def reversions (blks : List BlkAccepted) : List EngineMsg :=
  (blks.map fun blk => .blkReverted blk.acceptingHash).reverse

omit [Crypto] in
theorem exit_not_mem_reversions (blks : List BlkAccepted) :
    EngineMsg.exit ∉ reversions blks := by
  simp only [reversions, List.mem_reverse, List.mem_map, reduceCtorEq, and_false, exists_false,
    not_false_eq_true]

/-- The induction over the blocks. The engine that reverts need not be the one that
accepted: only its episodes and its revert map matter. -/
theorem start_reversions (hexact : Episode.UndoneUpTo G fun _ _ => True)
    {blks : List BlkAccepted} {s s' : Engine G} {calls : List (HandlerCall G)}
    (hkeys : s.SameKeys) (hnodup : (blks.map (·.acceptingHash)).Nodup)
    (hfresh : ∀ blk ∈ blks, blk.acceptingHash ∉ s.revertMap) (hkeep : FilterKeeps blks s)
    (h : start (blks.map .blkAccepted) s = .ok (s', calls)) (t : Engine G)
    (ht : SameUpTo (fun _ _ => True) t s') (hmap : t.revertMap = s'.revertMap) :
    ∃ t' calls', start (reversions blks) t = .ok (t', calls') ∧
      SameUpTo (fun _ _ => True) t' s ∧ t'.revertMap = s.revertMap := by
  induction blks generalizing s calls t with
  | nil =>
    cases h
    exact ⟨t, [], rfl, ht, hmap⟩
  | cons blk blks ih =>
    obtain ⟨⟨s₁, c⟩, hblk, hrest⟩ := bind_ok h
    obtain ⟨⟨s₂, c'⟩, htail, hr⟩ := bind_ok hrest
    cases hr
    obtain ⟨hkeepBlk, hkeepTail⟩ := hkeep
    obtain ⟨hhead, hnodupTail⟩ := List.nodup_cons.mp hnodup
    obtain ⟨revertVec, hmap₁⟩ := acceptBlock_revertMap hblk
    have hfreshTail : ∀ b ∈ blks, b.acceptingHash ∉ s₁.revertMap := by
      intro b hb
      have hne : b.acceptingHash ≠ blk.acceptingHash :=
        fun he => hhead (List.mem_map.mpr ⟨b, hb, he⟩)
      have hold := hfresh b (List.mem_cons_of_mem _ hb)
      rw [hmap₁]
      grind
    -- the later blocks are undone first, and leave the engine that accepted `blk`
    obtain ⟨t₁, c₁, hrun₁, hsame₁, hmap₂⟩ :=
      ih (sameKeys_preserved.acceptBlock hkeys hblk) hnodupTail hfreshTail
        (hkeepTail s₁ c hblk) htail t ht hmap
    obtain ⟨t₂, c₂, hrun₂, hsame₂, hmap₃, -⟩ :=
      acceptBlock_undoes hexact hkeys (hfresh blk List.mem_cons_self) hblk t₁ hsame₁ hmap₂
    have hback : SameUpTo (fun _ _ => True) t₂ s :=
      ⟨hsame₂.episodes.trans hkeepBlk,
        hsame₂.creationTimes.trans (hkeys.creationTimes_filter hkeepBlk), trivial⟩
    have hlast : start [.blkReverted blk.acceptingHash] t₁ = .ok (t₂, c₂ ++ []) := by
      rw [start, bind_of_ok _ hrun₂]
      rfl
    obtain ⟨c₃, hall⟩ := start_append_of_ok (exit_not_mem_reversions blks) hrun₁ hlast
    refine ⟨t₂, c₃, ?_, hback, hmap₃⟩
    simpa only [reversions, List.map_cons, List.reverse_cons] using hall

/-- Accepting blocks and reverting them again, the last first, restores the episodes with
their rollback stacks, the creation times and the revert map. -/
theorem reorg_restores (hatomic : Episode.ErrorAtomic G) (hexact : Episode.ExactRollback G)
    {s s' : Engine G} {blks : List BlkAccepted} {calls : List (HandlerCall G)}
    (hs : s.Reachable) (hnodup : (blks.map (·.acceptingHash)).Nodup)
    (hfresh : ∀ blk ∈ blks, blk.acceptingHash ∉ s.revertMap) (hkeep : FilterKeeps blks s)
    (h : start (blks.map .blkAccepted) s = .ok (s', calls)) :
    ∃ t calls', start (reversions blks) s' = .ok (t, calls') ∧ t.episodes = s.episodes ∧
      t.episodeCreationTimes = s.episodeCreationTimes ∧ t.revertMap = s.revertMap := by
  have hundone := hatomic.undoneUpTo hexact fun _ _ => trivial
  obtain ⟨t, calls', hrun, hsame, hmap⟩ :=
    start_reversions hundone hs.sameKeys hnodup hfresh hkeep h s' ⟨rfl, rfl, trivial⟩ rfl
  exact ⟨t, calls', hrun, hsame.episodes, hsame.creationTimes, hmap⟩

end Engine
end Kdapp

namespace Kdapp.Engine
open Outcome
attribute [local instance] idealCrypto

/-- One block that creates an episode and runs a command in it, accepted and reverted. -/
theorem reorg_restores_tally :
    ∃ s' calls, start ([tallyBlock].map .blkAccepted) (new () : Engine Tally) = .ok (s', calls) ∧
      ∃ t calls', start (reversions [tallyBlock]) s' = .ok (t, calls') ∧
        t.episodes = (new () : Engine Tally).episodes ∧
        t.episodeCreationTimes = (new () : Engine Tally).episodeCreationTimes ∧
        t.revertMap = (new () : Engine Tally).revertMap := by
  obtain ⟨⟨s', calls⟩, hrun⟩ := exists_of_isOk
    (show (start ([tallyBlock].map .blkAccepted) (new () : Engine Tally)).isOk = true by decide)
  exact ⟨s', calls, hrun, reorg_restores Tally.errorAtomic Tally.exactRollback
    ⟨(), [], [], rfl⟩ (by decide) (by decide) ⟨rfl, fun _ _ _ => trivial⟩ hrun⟩

end Kdapp.Engine
