import Kdapp.Engine.Undo

/-! Two engines that saw different side branches and end on the same chain. As long as no
abandoned block fired the filter of old episodes, both are the engine that accepted that
chain and nothing else. -/

namespace Kdapp
open Outcome

variable [Crypto] {G : Type} [Episode G]

namespace Engine

/-- The messages accept blocks and revert the newest, which takes the blocks that are
accepted and not reverted (newest first) from `chain` to `chain'`. Every accepted hash is
fresh and the DAA scores increase along the chain. -/
inductive History : List Hash → List BlkAccepted → List EngineMsg → List BlkAccepted → Prop
  | nil {seen chain} : History seen chain [] chain
  | exit {seen chain msgs} : History seen chain (.exit :: msgs) chain
  | accept {seen chain blk msgs chain'} (hfresh : blk.acceptingHash ∉ seen)
    (hdaa : ∀ b ∈ chain.head?, b.acceptingDaa < blk.acceptingDaa)
    (h : History (blk.acceptingHash :: seen) (blk :: chain) msgs chain') :
    History seen chain (.blkAccepted blk :: msgs) chain'
  | revert {seen chain blk msgs chain'} (h : History seen chain msgs chain') :
    History seen (blk :: chain) (.blkReverted blk.acceptingHash :: msgs) chain'

/-- No block is reverted that was accepted when a filtering was due. `next` is the time of
the last filtering, `due` says which of the blocks not reverted fired one. -/
def RevertsQuietly : UInt64 → List Bool → List EngineMsg → Prop
  | next, due, .blkAccepted blk :: msgs =>
    if blk.acceptingDaa > next + sampleRemovalTime then
      RevertsQuietly blk.acceptingDaa (true :: due) msgs
    else RevertsQuietly next (false :: due) msgs
  | next, due, .blkReverted _ :: msgs =>
    due.head? = some false ∧ RevertsQuietly next due.tail msgs
  | _, _, _ => True

instance decidableRevertsQuietly : ∀ (next : UInt64) (due : List Bool) (msgs : List EngineMsg),
    Decidable (RevertsQuietly next due msgs)
  | next, due, .blkAccepted blk :: msgs =>
    have := decidableRevertsQuietly blk.acceptingDaa (true :: due) msgs
    have := decidableRevertsQuietly next (false :: due) msgs
    inferInstanceAs (Decidable (if blk.acceptingDaa > next + sampleRemovalTime then
      RevertsQuietly blk.acceptingDaa (true :: due) msgs
      else RevertsQuietly next (false :: due) msgs))
  | next, due, .blkReverted _ :: msgs =>
    have := decidableRevertsQuietly next due.tail msgs
    inferInstanceAs (Decidable (_ ∧ _))
  | _, _, [] => isTrue trivial
  | _, _, .exit :: _ => isTrue trivial

/-- `s` accepted the blocks of `chain`, the last of the list first, and nothing else. -/
inductive Accepted (world : Episode.World G) : List BlkAccepted → List Bool → Engine G → Prop
  | nil : Accepted world [] [] (new world)
  | cons {blk chain due s s' calls} (h : Accepted world chain due s)
    (hfresh : blk.acceptingHash ∉ s.revertMap) (hblk : s.acceptBlock blk = .ok (s', calls)) :
    Accepted world (blk :: chain) (decide (s.filteringDue blk.acceptingDaa) :: due) s'

namespace Accepted
variable {world : Episode.World G} {chain : List BlkAccepted} {due : List Bool} {s s' : Engine G}

theorem sameKeys (h : Accepted world chain due s) : s.SameKeys := by
  induction h with
  | nil => exact sameKeys_new world
  | cons h hfresh hblk ih => exact sameKeys_preserved.acceptBlock ih hblk

theorem mem_revertMap (h : Accepted world chain due s) {hash : Hash} (hm : hash ∈ s.revertMap) :
    hash ∈ chain.map (·.acceptingHash) := by
  induction h with
  | nil => exact absurd hm Std.ExtTreeMap.not_mem_empty
  | @cons blk chain due s s' calls h hfresh hblk ih =>
    obtain ⟨revertVec, hmap⟩ := acceptBlock_revertMap hblk
    rw [hmap, Std.ExtTreeMap.mem_insert] at hm
    rcases hm with heq | hm
    · have heq : blk.acceptingHash = hash := Std.LawfulEqOrd.eq_of_compare heq
      exact List.mem_cons.mpr (.inl heq.symm)
    · exact List.mem_cons_of_mem _ (ih hm)

theorem unique {due' : List Bool} (h : Accepted world chain due s)
    (h' : Accepted world chain due' s') : s = s' := by
  induction h generalizing due' s' with
  | nil =>
    cases h'
    rfl
  | cons h hfresh hblk ih =>
    cases h' with
    | cons h₁ hfresh₁ hblk₁ =>
      obtain rfl := ih h₁
      rw [hblk] at hblk₁
      exact congrArg Prod.fst (Except.ok.inj hblk₁)

theorem revert (hexact : Episode.UndoneUpTo G Eq) {blk : BlkAccepted}
    (h : Accepted world (blk :: chain) (false :: due) s') :
    ∃ s calls, s'.revertBlock blk.acceptingHash = .ok (s, calls) ∧
      Accepted world chain due s ∧ s.nextFiltering = s'.nextFiltering := by
  generalize hd : false :: due = due' at h
  cases h with
  | @cons _ _ due'' s _ calls h hfresh hblk =>
    obtain ⟨hdue, rfl⟩ := List.cons.inj hd
    have hdue : ¬ s.filteringDue blk.acceptingDaa := of_decide_eq_false hdue.symm
    obtain ⟨t, calls', hrun, hsame, hmap, hnext⟩ :=
      acceptBlock_undoes hexact h.sameKeys hfresh hblk s' ⟨rfl, rfl, rfl⟩ rfl
    rw [filterOldEpisodes_not_due hdue] at hsame
    have hnext' : s'.nextFiltering = s.nextFiltering := by
      rw [acceptBlock_nextFiltering hblk, filterOldEpisodes_not_due hdue]
    have ht : t = s := by
      obtain ⟨hepisodes, htimes, hworld⟩ := hsame
      cases t
      cases s
      simp_all only
    rw [ht] at hrun
    exact ⟨s, calls', hrun, h, hnext'.symm⟩

end Accepted

theorem accepted_start (hexact : Episode.UndoneUpTo G Eq) {world : Episode.World G}
    {seen : List Hash} {chain chain' : List BlkAccepted} {due : List Bool}
    {msgs : List EngineMsg} {s s' : Engine G} {calls : List (HandlerCall G)}
    (hs : Accepted world chain due s) (hseen : ∀ b ∈ chain, b.acceptingHash ∈ seen)
    (hhist : History seen chain msgs chain') (hquiet : RevertsQuietly s.nextFiltering due msgs)
    (h : start msgs s = .ok (s', calls)) : ∃ due', Accepted world chain' due' s' := by
  induction hhist generalizing s due calls with
  | nil =>
    cases h
    exact ⟨due, hs⟩
  | exit =>
    cases h
    exact ⟨due, hs⟩
  | @accept seen chain blk msgs chain' hfresh hdaa hhist ih =>
    obtain ⟨⟨s₁, c⟩, hblk, hrest⟩ := bind_ok h
    obtain ⟨⟨s₂, c'⟩, htail, hr⟩ := bind_ok hrest
    cases hr
    -- the revert map holds hashes of the chain only, and this one is new
    have hnot : blk.acceptingHash ∉ s.revertMap := by
      intro hm
      obtain ⟨b, hb, heq⟩ := List.mem_map.mp (hs.mem_revertMap hm)
      exact hfresh (heq ▸ hseen b hb)
    refine ih (hs.cons hnot hblk) ?_ ?_ htail
    · intro b hb
      rcases List.mem_cons.mp hb with rfl | hb
      · exact List.mem_cons_self
      · exact List.mem_cons_of_mem _ (hseen b hb)
    · rw [acceptBlock_nextFiltering hblk]
      unfold RevertsQuietly at hquiet
      by_cases hdue : s.filteringDue blk.acceptingDaa
      · have hgt : blk.acceptingDaa > s.nextFiltering + sampleRemovalTime := hdue
        rw [if_pos hgt] at hquiet
        rw [decide_eq_true hdue, filterOldEpisodes_due hdue]
        exact hquiet
      · have hle : ¬ blk.acceptingDaa > s.nextFiltering + sampleRemovalTime := hdue
        rw [if_neg hle] at hquiet
        rw [decide_eq_false hdue, filterOldEpisodes_not_due hdue]
        exact hquiet
  | @revert seen chain blk msgs chain' hhist ih =>
    obtain ⟨⟨s₁, c⟩, hblk, hrest⟩ := bind_ok h
    obtain ⟨⟨s₂, c'⟩, htail, hr⟩ := bind_ok hrest
    cases hr
    obtain ⟨hhead, hquiet⟩ := hquiet
    cases due with
    | nil => cases hhead
    | cons d due =>
      obtain rfl := Option.some.inj hhead
      obtain ⟨t, c₁, hrun, ht, hnext⟩ := hs.revert hexact
      rw [hblk] at hrun
      obtain rfl : s₁ = t := congrArg Prod.fst (Except.ok.inj hrun)
      refine ih ht (fun b hb => hseen b (List.mem_cons_of_mem _ hb)) ?_ htail
      rw [hnext]
      exact hquiet

/-- Two runs that end on the same chain, and revert no block that fired a filtering, end
in engines that no continuation tells apart. -/
theorem reorg_converges (hexact : Episode.UndoneUpTo G Eq) {world : Episode.World G}
    {chain : List BlkAccepted} {msgs₁ msgs₂ : List EngineMsg} {s₁ s₂ : Engine G}
    {calls₁ calls₂ : List (HandlerCall G)} (hhist₁ : History [] [] msgs₁ chain)
    (hhist₂ : History [] [] msgs₂ chain) (hquiet₁ : RevertsQuietly 0 [] msgs₁)
    (hquiet₂ : RevertsQuietly 0 [] msgs₂) (h₁ : start msgs₁ (new world) = .ok (s₁, calls₁))
    (h₂ : start msgs₂ (new world) = .ok (s₂, calls₂)) :
    s₁.episodes = s₂.episodes ∧ ∀ msgs, start msgs s₁ = start msgs s₂ := by
  obtain ⟨due₁, ha₁⟩ := accepted_start hexact .nil (fun _ hb => absurd hb List.not_mem_nil)
    hhist₁ hquiet₁ h₁
  obtain ⟨due₂, ha₂⟩ := accepted_start hexact .nil (fun _ hb => absurd hb List.not_mem_nil)
    hhist₂ hquiet₂ h₂
  obtain rfl := ha₁.unique ha₂
  exact ⟨rfl, fun msgs => rfl⟩

end Engine
end Kdapp

namespace Kdapp.Engine
open Outcome
attribute [local instance] idealCrypto

def sideHash : Hash := Hash.filled 9

def sideBlock (acceptingDaa : UInt64) : BlkAccepted where
  acceptingHash := sideHash
  acceptingDaa := acceptingDaa
  acceptingTime := 1
  associatedTxs := []

/-- A run that stays on the chain of `tallyBlock`, and one that leaves it for a block. -/
def straight : List EngineMsg := [.blkAccepted tallyBlock]

def detour (acceptingDaa : UInt64) : List EngineMsg :=
  [.blkAccepted tallyBlock, .blkAccepted (sideBlock acceptingDaa),
    .blkReverted (sideBlock acceptingDaa).acceptingHash]

theorem history_straight : History [] [] straight [tallyBlock] :=
  .accept (by decide) (by decide) .nil

theorem history_detour {acceptingDaa : UInt64} (h : 1 < acceptingDaa) :
    History [] [] (detour acceptingDaa) [tallyBlock] := by
  refine .accept (by decide) (by decide) (.accept ?_ ?_ (.revert .nil))
  · change sideHash ∉ [tallyBlock.acceptingHash]
    decide
  · intro b hb
    obtain rfl := Option.some.inj hb
    exact h

theorem tally_undone : Episode.UndoneUpTo Tally Eq :=
  Tally.errorAtomic.undoneUpTo Tally.exactRollback fun _ _ => rfl

/-- A side branch that does not fire the filter leaves no trace. -/
theorem reorg_converges_tally :
    ∃ s₁ s₂ calls₁ calls₂, start (detour 2) (new () : Engine Tally) = .ok (s₁, calls₁) ∧
      start straight (new () : Engine Tally) = .ok (s₂, calls₂) ∧
      s₁.episodes = s₂.episodes ∧ ∀ msgs, start msgs s₁ = start msgs s₂ := by
  obtain ⟨⟨s₁, calls₁⟩, h₁⟩ := exists_of_isOk
    (show (start (detour 2) (new () : Engine Tally)).isOk = true by decide)
  obtain ⟨⟨s₂, calls₂⟩, h₂⟩ := exists_of_isOk
    (show (start straight (new () : Engine Tally)).isOk = true by decide)
  exact ⟨s₁, s₂, calls₁, calls₂, h₁, h₂, reorg_converges tally_undone
    (history_detour (by decide)) history_straight (by decide) (by decide) h₁ h₂⟩

/-- A side branch that fires the filter takes the episode with it: reverting the branch does
not bring it back. -/
theorem side_branch_expires :
    Episode.ErrorAtomic Tally ∧ Episode.ExactRollback Tally ∧ ∃ chain msgs₁ msgs₂,
      History [] [] msgs₁ chain ∧ History [] [] msgs₂ chain ∧
      ∃ s₁ s₂ calls₁ calls₂, start msgs₁ (new () : Engine Tally) = .ok (s₁, calls₁) ∧
        start msgs₂ (new () : Engine Tally) = .ok (s₂, calls₂) ∧ s₁.episodes ≠ s₂.episodes := by
  refine ⟨Tally.errorAtomic, Tally.exactRollback, [tallyBlock], detour 3000000, straight,
    history_detour (by decide), history_straight, ?_⟩
  have hgone : (start (detour 3000000) (new () : Engine Tally)).toOption.map
      (fun r => r.1.episodes.contains 7) = some false := by decide
  have hlive : (start straight (new () : Engine Tally)).toOption.map
      (fun r => r.1.episodes.contains 7) = some true := by decide
  obtain ⟨⟨s₁, calls₁⟩, h₁, hgone⟩ := exists_of_map hgone
  obtain ⟨⟨s₂, calls₂⟩, h₂, hlive⟩ := exists_of_map hlive
  refine ⟨s₁, s₂, calls₁, calls₂, h₁, h₂, fun he => ?_⟩
  have hgone : s₁.episodes.contains 7 = false := hgone
  have hlive : s₂.episodes.contains 7 = true := hlive
  rw [he, hlive] at hgone
  exact Bool.noConfusion hgone

end Kdapp.Engine
