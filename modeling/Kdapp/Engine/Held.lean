import Kdapp.Engine.Converge

/-! A run in which any block may come back: reversions of blocks the engine never saw change
nothing, and those of the newest blocks leave the engine that accepted the others. -/

namespace Kdapp.Engine
open Std (ExtTreeMap)

/-- The blocks held, the newest first, each with whether a filtering was due on it. -/
structure Holding where
  next : UInt64
  held : List (Hash × Bool)

namespace Holding

def step (h : Holding) : EngineMsg → Holding
  | .blkAccepted blk =>
    if blk.acceptingDaa > h.next + sampleRemovalTime then
      ⟨blk.acceptingDaa, (blk.acceptingHash, true) :: h.held⟩
    else ⟨h.next, (blk.acceptingHash, false) :: h.held⟩
  | .blkReverted hash => ⟨h.next, h.held.filter fun b => b.1 ≠ hash⟩
  | .exit => h

def Allows (h : Holding) : EngineMsg → Prop
  | .blkReverted hash => (hash, true) ∉ h.held
  | _ => True

def Quiet : Holding → List EngineMsg → Prop
  | _, [] => True
  | h, m :: msgs => h.Allows m ∧ Quiet (h.step m) msgs

instance (h : Holding) : ∀ m, Decidable (h.Allows m)
  | .blkReverted hash => inferInstanceAs (Decidable ((hash, true) ∉ h.held))
  | .blkAccepted _ => isTrue trivial
  | .exit => isTrue trivial

instance decidableQuiet : ∀ (h : Holding) (msgs : List EngineMsg), Decidable (h.Quiet msgs)
  | _, [] => isTrue trivial
  | h, m :: msgs =>
    have := decidableQuiet (h.step m) msgs
    inferInstanceAs (Decidable (_ ∧ _))

def after (h : Holding) (msgs : List EngineMsg) : Holding := msgs.foldl step h

theorem step_due {h : Holding} {blk : BlkAccepted}
    (hdue : blk.acceptingDaa > h.next + sampleRemovalTime) :
    h.step (.blkAccepted blk) = ⟨blk.acceptingDaa, (blk.acceptingHash, true) :: h.held⟩ :=
  if_pos hdue

theorem step_not_due {h : Holding} {blk : BlkAccepted}
    (hdue : ¬ blk.acceptingDaa > h.next + sampleRemovalTime) :
    h.step (.blkAccepted blk) = ⟨h.next, (blk.acceptingHash, false) :: h.held⟩ := if_neg hdue

theorem quiet_append {h : Holding} {msgs msgs' : List EngineMsg} :
    h.Quiet (msgs ++ msgs') ↔ h.Quiet msgs ∧ (h.after msgs).Quiet msgs' := by
  induction msgs generalizing h with
  | nil => exact (and_iff_right trivial).symm
  | cons m msgs ih =>
    have hcons : ∀ l, h.Quiet (m :: l) ↔ h.Allows m ∧ (h.step m).Quiet l := fun l => Iff.rfl
    rw [List.cons_append, hcons, hcons, ih, and_assoc]
    rfl

theorem after_append (h : Holding) (msgs msgs' : List EngineMsg) :
    h.after (msgs ++ msgs') = (h.after msgs).after msgs' := List.foldl_append

end Holding

variable [Crypto] {G : Type} [Episode G]

theorem start_append_split {msgs msgs' : List EngineMsg} {s s' : Engine G}
    {calls : List (HandlerCall G)} (hexit : EngineMsg.exit ∉ msgs)
    (h : start (msgs ++ msgs') s = .ok (s', calls)) :
    ∃ t c c', start msgs s = .ok (t, c) ∧ start msgs' t = .ok (s', c') := by
  induction msgs generalizing s calls with
  | nil => exact ⟨s, [], calls, rfl, h⟩
  | cons m msgs ih =>
    have htail : EngineMsg.exit ∉ msgs := fun hm => hexit (List.mem_cons_of_mem _ hm)
    cases m with
    | blkAccepted blk =>
      obtain ⟨u, c, c', hx, hy, -⟩ := start_blkAccepted_ok h
      obtain ⟨t, d, d', hd, hd'⟩ := ih htail hy
      refine ⟨t, c ++ d, d', ?_, hd'⟩
      rw [start, Outcome.bind_of_ok _ hx]
      exact Outcome.bind_of_ok _ hd
    | blkReverted hash =>
      obtain ⟨u, c, c', hx, hy, -⟩ := start_blkReverted_ok h
      obtain ⟨t, d, d', hd, hd'⟩ := ih htail hy
      refine ⟨t, c ++ d, d', ?_, hd'⟩
      rw [start, Outcome.bind_of_ok _ hx]
      exact Outcome.bind_of_ok _ hd
    | exit => exact absurd List.mem_cons_self hexit

theorem revertBlock_unknown {s s' : Engine G} {hash : Hash} {calls : List (HandlerCall G)}
    (hnot : hash ∉ s.revertMap) (h : s.revertBlock hash = .ok (s', calls)) : s' = s := by
  unfold revertBlock at h
  rw [ExtTreeMap.getElem?_eq_none hnot] at h
  cases h
  rfl

namespace Accepted
variable {world : Episode.World G} {chain : List BlkAccepted} {due : List Bool} {s : Engine G}

theorem mem_revertMap_iff (h : Accepted world chain due s) {hash : Hash} :
    hash ∈ s.revertMap ↔ hash ∈ chain.map (·.acceptingHash) := by
  refine ⟨h.mem_revertMap, fun hmem => ?_⟩
  induction h with
  | nil => cases hmem
  | @cons blk chain due s s' calls h hfresh hblk ih =>
    obtain ⟨revertVec, hmap⟩ := acceptBlock_revertMap hblk
    rw [hmap, ExtTreeMap.mem_insert]
    rcases List.mem_cons.mp hmem with rfl | hmem
    · exact .inl Std.ReflCmp.compare_self
    · exact .inr (ih hmem)

theorem nodup (h : Accepted world chain due s) : (chain.map (·.acceptingHash)).Nodup := by
  induction h with
  | nil => exact List.nodup_nil
  | cons h hfresh hblk ih =>
    rw [List.map_cons, List.nodup_cons]
    exact ⟨fun hmem => hfresh (h.mem_revertMap_iff.mpr hmem), ih⟩

theorem start (h : Accepted world chain due s) :
    ∃ calls, Engine.start (chain.reverse.map .blkAccepted) (new world) = .ok (s, calls) := by
  induction h with
  | nil => exact ⟨[], rfl⟩
  | @cons blk chain due s s' calls h hfresh hblk ih =>
    obtain ⟨before, hbefore⟩ := ih
    have hexit : EngineMsg.exit ∉ chain.reverse.map .blkAccepted := by
      rw [List.mem_map]
      rintro ⟨b, -, hb⟩
      cases hb
    have hlast : Engine.start [.blkAccepted blk] s = .ok (s', calls ++ []) := by
      rw [Engine.start, Outcome.bind_of_ok _ hblk]
      rfl
    obtain ⟨c, hall⟩ := start_append_of_ok hexit hbefore hlast
    refine ⟨c, ?_⟩
    rw [List.reverse_cons, List.map_append]
    exact hall

end Accepted

structure Holds (world : Episode.World G) (h : Holding) (chain : List BlkAccepted)
    (s : Engine G) : Prop where
  accepted : Accepted world chain (h.held.map (·.2)) s
  hashes : h.held.map (·.1) = chain.map (·.acceptingHash)
  next : h.next = s.nextFiltering

namespace Holds
variable {world : Episode.World G} {h : Holding} {blk : BlkAccepted} {chain : List BlkAccepted}
  {s s' : Engine G} {hash : Hash} {calls : List (HandlerCall G)}

theorem nil : Holds world ⟨0, []⟩ [] (new world) where
  accepted := .nil
  hashes := rfl
  next := rfl

theorem not_mem_held (hs : Holds world h chain s) (hnot : hash ∉ chain.map (·.acceptingHash)) :
    h.held.filter (fun b => b.1 ≠ hash) = h.held := by
  rw [List.filter_eq_self]
  intro b hb
  rw [decide_eq_true_eq]
  rintro rfl
  apply hnot
  rw [← hs.hashes]
  exact List.mem_map_of_mem hb

theorem accept (hs : Holds world h chain s)
    (hfresh : blk.acceptingHash ∉ chain.map (·.acceptingHash))
    (hblk : s.acceptBlock blk = .ok (s', calls)) :
    Holds world (h.step (.blkAccepted blk)) (blk :: chain) s' := by
  have hnot : blk.acceptingHash ∉ s.revertMap :=
    fun hmem => hfresh (hs.accepted.mem_revertMap_iff.mp hmem)
  have haccepted := hs.accepted.cons hnot hblk
  have hnext := acceptBlock_nextFiltering hblk
  by_cases hdue : s.filteringDue blk.acceptingDaa
  · rw [decide_eq_true hdue] at haccepted
    rw [filterOldEpisodes_due hdue] at hnext
    have hgt : blk.acceptingDaa > h.next + sampleRemovalTime := by
      rw [hs.next]
      exact hdue
    rw [Holding.step_due hgt]
    refine ⟨haccepted, ?_, hnext.symm⟩
    rw [List.map_cons, List.map_cons, hs.hashes]
  · rw [decide_eq_false hdue] at haccepted
    rw [filterOldEpisodes_not_due hdue] at hnext
    have hgt : ¬ blk.acceptingDaa > h.next + sampleRemovalTime := by
      rw [hs.next]
      exact hdue
    rw [Holding.step_not_due hgt]
    refine ⟨haccepted, ?_, hs.next.trans hnext.symm⟩
    rw [List.map_cons, List.map_cons, hs.hashes]

theorem revert_unknown (hs : Holds world h chain s)
    (hnot : hash ∉ chain.map (·.acceptingHash)) (hrun : s.revertBlock hash = .ok (s', calls)) :
    Holds world (h.step (.blkReverted hash)) chain s' := by
  have hmap : hash ∉ s.revertMap := fun hmem => hnot (hs.accepted.mem_revertMap_iff.mp hmem)
  obtain rfl := revertBlock_unknown hmap hrun
  have hheld := hs.not_mem_held hnot
  unfold Holding.step
  dsimp only
  rw [hheld]
  exact hs

theorem revert_newest (hexact : Episode.UndoneUpTo G Eq) (hs : Holds world h (blk :: chain) s)
    (hallows : h.Allows (.blkReverted blk.acceptingHash))
    (hrun : s.revertBlock blk.acceptingHash = .ok (s', calls)) :
    Holds world (h.step (.blkReverted blk.acceptingHash)) chain s' := by
  obtain ⟨next, held⟩ := h
  cases held with
  | nil => cases hs.hashes
  | cons b held =>
    obtain ⟨hash, due⟩ := b
    have hhashes : hash :: held.map (·.1) =
      blk.acceptingHash :: chain.map (·.acceptingHash) := hs.hashes
    obtain ⟨rfl, hheld⟩ := List.cons.inj hhashes
    -- reverting a block that a filtering came with would not bring back what expired
    have hquiet : due = false := by
      by_contra hdue
      rw [Bool.not_eq_false] at hdue
      apply hallows
      rw [hdue]
      exact List.mem_cons_self
    have haccepted : Accepted world (blk :: chain) (false :: held.map (·.2)) s := by
      rw [← hquiet]
      exact hs.accepted
    obtain ⟨t, calls', hback, ht, hnext⟩ := haccepted.revert hexact
    rw [hrun] at hback
    obtain rfl : s' = t := congrArg Prod.fst (Except.ok.inj hback)
    have hnodup := hs.accepted.nodup
    rw [List.map_cons, List.nodup_cons, ← hheld] at hnodup
    have hkept : held.filter (fun b => b.1 ≠ blk.acceptingHash) = held := by
      rw [List.filter_eq_self]
      intro b hb
      rw [decide_eq_true_eq]
      rintro hb'
      apply hnodup.1
      rw [← hb']
      exact List.mem_map_of_mem hb
    have hstep : Holding.step ⟨next, (blk.acceptingHash, due) :: held⟩
        (.blkReverted blk.acceptingHash) = ⟨next, held⟩ := by
      change Holding.mk next (((blk.acceptingHash, due) :: held).filter _) = _
      rw [List.filter_cons_of_neg (by simp), hkept]
    rw [hstep]
    exact ⟨ht, hheld, hs.next.trans hnext.symm⟩

theorem reverts (hexact : Episode.UndoneUpTo G Eq) {removed : List Hash}
    {above below : List BlkAccepted} (hs : Holds world h (above ++ below) s)
    (hsub : (above.map (·.acceptingHash)).Sublist removed) (hnodup : removed.Nodup)
    (hbelow : ∀ b ∈ below, b.acceptingHash ∉ removed)
    (hquiet : h.Quiet (removed.map .blkReverted))
    (hrun : start (removed.map .blkReverted) s = .ok (s', calls)) :
    Holds world (h.after (removed.map .blkReverted)) below s' := by
  induction removed generalizing h above s calls with
  | nil =>
    obtain rfl : above = [] := List.map_eq_nil_iff.mp (List.sublist_nil.mp hsub)
    cases hrun
    exact hs
  | cons hash removed ih =>
    obtain ⟨t, c, c', hblk, hrest, -⟩ := start_blkReverted_ok hrun
    obtain ⟨hhash, hlater⟩ := List.nodup_cons.mp hnodup
    obtain ⟨hallows, hquiet⟩ := hquiet
    have hbelow' : ∀ b ∈ below, b.acceptingHash ∉ removed := by
      intro b hb hmem
      exact hbelow b hb (List.mem_cons_of_mem _ hmem)
    rcases List.sublist_cons_iff.mp hsub with hsub | ⟨hashes, habove, hsub⟩
    · have hnot : hash ∉ (above ++ below).map (·.acceptingHash) := by
        rw [List.map_append, List.mem_append]
        rintro (hmem | hmem)
        · exact hhash (hsub.subset hmem)
        · obtain ⟨b, hb, hb'⟩ := List.mem_map.mp hmem
          exact hbelow b hb (hb' ▸ List.mem_cons_self)
      exact ih (hs.revert_unknown hnot hblk) hsub hlater hbelow' hquiet hrest
    · obtain ⟨blk, above, rfl, rfl, rfl⟩ := List.map_eq_cons_iff.mp habove
      exact ih (revert_newest hexact hs hallows hblk) hsub hlater hbelow' hquiet hrest

theorem accepts {blks : List BlkAccepted} (hs : Holds world h chain s)
    (hnodup : (blks.map (·.acceptingHash)).Nodup)
    (hfresh : ∀ b ∈ blks, b.acceptingHash ∉ chain.map (·.acceptingHash))
    (hrun : start (blks.map .blkAccepted) s = .ok (s', calls)) :
    Holds world (h.after (blks.map .blkAccepted)) (blks.reverse ++ chain) s' := by
  induction blks generalizing h chain s calls with
  | nil =>
    cases hrun
    exact hs
  | cons blk blks ih =>
    obtain ⟨t, c, c', hblk, hrest, -⟩ := start_blkAccepted_ok hrun
    rw [List.map_cons, List.nodup_cons] at hnodup
    have hnext := hs.accept (hfresh blk List.mem_cons_self) hblk
    rw [List.reverse_cons, List.append_assoc]
    refine ih hnext hnodup.2 ?_ hrest
    intro b hb hmem
    rcases List.mem_cons.mp hmem with hsame | hmem
    · apply hnodup.1
      exact List.mem_map.mpr ⟨b, hb, hsame⟩
    · exact hfresh b (List.mem_cons_of_mem _ hb) hmem

end Holds
end Kdapp.Engine
