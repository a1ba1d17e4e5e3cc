import Kdapp.Engine.Held
import Kdapp.Proxy.Listener

/-! The listener and an engine behind it: whatever the chain went through, the engine is the one
that was handed the blocks of the present chain, one after the other. -/

namespace Kdapp
open Engine

def sentTo (p : PrefixType) (sent : List Sent) : List EngineMsg :=
  sent.filterMap fun m => if m.1 = p then some m.2 else none

theorem sentTo_append (p : PrefixType) (sent sent' : List Sent) :
    sentTo p (sent ++ sent') = sentTo p sent ++ sentTo p sent' := List.filterMap_append

theorem replayFrom_sentTo (p : PrefixType) (live : List BlkAccepted) (sent : List Sent) :
    replayFrom p live sent = replayFrom p live ((sentTo p sent).map fun m => (p, m)) := by
  induction sent generalizing live with
  | nil => rfl
  | cons m sent ih =>
    obtain ⟨q, msg⟩ := m
    rw [replayFrom_cons, ih]
    by_cases hq : q = p
    · subst hq
      have hsent : sentTo q ((q, msg) :: sent) = msg :: sentTo q sent := by
        unfold sentTo
        rw [List.filterMap_cons, if_pos rfl]
      rw [hsent, List.map_cons, ← replayFrom_cons]
    · have hsent : sentTo p ((q, msg) :: sent) = sentTo p sent := by
        unfold sentTo
        rw [List.filterMap_cons, if_neg hq]
      rw [hsent, replayFrom_other hq]

theorem replayFrom_accepted_all (p : PrefixType) (live blks : List BlkAccepted) :
    replayFrom p live (blks.map fun blk => (p, .blkAccepted blk)) = live ++ blks := by
  induction blks generalizing live with
  | nil => exact (List.append_nil live).symm
  | cons blk blks ih =>
    rw [List.map_cons, replayFrom_cons, replayFrom_accepted, ih, List.append_assoc,
      List.singleton_append]

theorem sentTo_each {p : PrefixType} {pattern : PatternType}
    (f : PrefixType × PatternType → Option EngineMsg) {es : List (PrefixType × PatternType)}
    (hnodup : (es.map (·.1)).Nodup) (hmem : (p, pattern) ∈ es) :
    sentTo p (es.filterMap fun e => (f e).map fun msg => (e.1, msg)) =
      (f (p, pattern)).toList := by
  -- the prefixes are distinct, so at most one of the pairs is for `p`
  have hothers : ∀ {es : List (PrefixType × PatternType)}, p ∉ es.map (·.1) →
      sentTo p (es.filterMap fun e => (f e).map fun msg => (e.1, msg)) = [] := by
    intro es hnot
    unfold sentTo
    rw [List.filterMap_filterMap, List.filterMap_eq_nil_iff]
    intro e he
    have hne : e.1 ≠ p := fun h => hnot (List.mem_map.mpr ⟨e, he, h⟩)
    cases f e with
    | none => rfl
    | some msg => exact if_neg hne
  induction es with
  | nil => cases hmem
  | cons e es ih =>
    obtain ⟨he, htail⟩ := List.nodup_cons.mp hnodup
    have hcons : sentTo p ((e :: es).filterMap fun e => (f e).map fun msg => (e.1, msg)) =
        sentTo p ((f e).map fun msg => (e.1, msg)).toList ++
          sentTo p (es.filterMap fun e => (f e).map fun msg => (e.1, msg)) := by
      rw [← sentTo_append]
      cases hf : f e with
      | none =>
        rw [List.filterMap_cons, hf]
        rfl
      | some msg =>
        rw [List.filterMap_cons, hf]
        rfl
    rw [hcons]
    rcases List.mem_cons.mp hmem with rfl | hmem
    · rw [hothers he, List.append_nil]
      cases f (p, pattern) with
      | none => rfl
      | some msg =>
        change sentTo p [(p, msg)] = [msg]
        unfold sentTo
        rw [List.filterMap_cons, if_pos rfl]
        rfl
    · have hne : e.1 ≠ p := fun h => he (List.mem_map.mpr ⟨_, hmem, h.symm⟩)
      rw [ih htail hmem]
      cases f e with
      | none => rfl
      | some msg =>
        have hnone : sentTo p [(e.1, msg)] = [] := by
          unfold sentTo
          rw [List.filterMap_cons, if_neg hne]
          rfl
        change sentTo p [(e.1, msg)] ++ _ = _
        rw [hnone, List.nil_append]

theorem sentTo_blocksReverted {engines : EngineMap} {e : PrefixType × PatternType}
    (he : e ∈ engines.entries) (removed : List Hash) :
    sentTo e.1 (blocksReverted engines removed) = removed.map .blkReverted := by
  induction removed with
  | nil => rfl
  | cons hash removed ih =>
    have hcons : blocksReverted engines (hash :: removed) =
        (engines.entries.map fun e => (e.1, .blkReverted hash)) ++
          blocksReverted engines removed := List.flatMap_cons
    have heach := sentTo_each (fun _ => some (.blkReverted hash)) engines.nodup he
    rw [Option.toList_some] at heach
    rw [hcons, sentTo_append, ih, List.map_cons, ← List.singleton_append, ← heach]
    congr 2
    have hmap : ∀ g : PrefixType × PatternType → Sent, List.filterMap (fun e => some (g e)) =
        List.map g := fun g => List.filterMap_eq_map'
    exact (congrFun (hmap fun e => (e.1, .blkReverted hash)) engines.entries).symm

namespace Node
variable {node : Node} {engines : EngineMap} {sink : Hash} {answers : Answers}

theorem dueAll_hashes (e : PrefixType × PatternType) (skipped bs : List Hash) :
    ((node.dueAll engines e skipped bs).map (·.acceptingHash)).Sublist bs := by
  induction bs with
  | nil => exact List.Sublist.slnil
  | cons b bs ih =>
    unfold dueAll at ih ⊢
    rw [List.filterMap_cons]
    by_cases hskip : b ∈ skipped
    · rw [if_pos hskip]
      exact ih.cons b
    · rw [if_neg hskip]
      cases hdue : node.due engines e b with
      | none => exact ih.cons b
      | some blk =>
        rw [List.map_cons, node.due_hash hdue]
        exact ih.cons_cons b

section Moved
variable [Crypto] {G : Type} [Episode G] {world : Episode.World G} {e : PrefixType × PatternType}
  {skipped fresh : List Hash} {c d : List Hash} {m n k : ℕ} {h : Holding} {g g₁ g₂ : Engine G}
  {calls₁ calls₂ : List (HandlerCall G)}

omit [Crypto] in
theorem mem_of_dueAll {skipped bs : List Hash} {blk : BlkAccepted}
    (h : blk ∈ node.dueAll engines e skipped bs) : blk.acceptingHash ∈ bs :=
  (node.dueAll_hashes e skipped bs).subset (List.mem_map.mpr ⟨blk, h, rfl⟩)

theorem holds_moved (hexact : Episode.UndoneUpTo G Eq) (hc : c.Nodup) (hd : d.Nodup)
    (hcommon : c.take n = d.take n)
    (hs : Holds world h (node.dueAll engines e skipped (c.drop m)).reverse g)
    (hquiet : h.Quiet ((c.drop n).reverse.map .blkReverted))
    (hreverts : Engine.start ((c.drop n).reverse.map .blkReverted) g = .ok (g₁, calls₁))
    (haccepts : Engine.start ((node.dueAll engines e fresh ((d.drop n).take k)).map .blkAccepted)
      g₁ = .ok (g₂, calls₂)) :
    Holds world ((h.after ((c.drop n).reverse.map .blkReverted)).after
        ((node.dueAll engines e fresh ((d.drop n).take k)).map .blkAccepted))
      (node.dueAll engines e skipped ((c.take n).drop m) ++
        node.dueAll engines e fresh ((d.drop n).take k)).reverse g₂ := by
  have hsplit : node.dueAll engines e skipped (c.drop m) =
      node.dueAll engines e skipped ((c.take n).drop m) ++
        node.dueAll engines e skipped ((c.drop n).drop (m - (c.take n).length)) := by
    unfold dueAll
    rw [← List.filterMap_append, ← List.drop_append, List.take_append_drop]
  have hlow : ∀ blk ∈ node.dueAll engines e skipped ((c.take n).drop m),
      blk.acceptingHash ∈ c.take n :=
    fun blk hblk => List.mem_of_mem_drop (mem_of_dueAll hblk)
  -- below and above the fork a chain has no block in common
  have hapart : ∀ {l : List Hash}, l.Nodup → (l.take n).Disjoint (l.drop n) := by
    intro l hl
    apply List.disjoint_of_nodup_append
    rwa [List.take_append_drop]
  rw [hsplit, List.reverse_append] at hs
  have hremoved : (c.drop n).reverse.Nodup :=
    List.nodup_reverse.mpr (hc.sublist (List.drop_sublist n c))
  -- first the blocks above the fork are reverted, the newest first
  have hreverted := hs.reverts hexact ?_ hremoved ?_ hquiet hreverts
  · rw [List.reverse_append]
    refine hreverted.accepts ?_ ?_ haccepts
    · have hnew : ((d.drop n).take k).Nodup :=
        hd.sublist ((List.take_sublist _ _).trans (List.drop_sublist _ _))
      exact hnew.sublist (node.dueAll_hashes e fresh _)
    · intro blk hblk hmem
      obtain ⟨b, hb, hsame⟩ := List.mem_map.mp hmem
      have hlower := hlow b (List.mem_reverse.mp hb)
      rw [hsame, hcommon] at hlower
      exact hapart hd hlower (List.mem_of_mem_take (mem_of_dueAll hblk))
  · rw [List.map_reverse]
    apply List.Sublist.reverse
    exact (node.dueAll_hashes e skipped _).trans (List.drop_sublist _ _)
  · intro blk hblk hmem
    exact hapart hc (hlow blk (List.mem_reverse.mp hblk)) (List.mem_reverse.mp hmem)

end Moved
end Node

namespace Session
variable {engines : EngineMap} {node : Node}

variable [Crypto] {G : Type} [Episode G] {world : Episode.World G}
  {e : PrefixType × PatternType} {s s' : Session} {base skipped : List Hash}

/-- The session follows the chain, and as long as no filtering is taken back, the engine holds
the blocks that were sent to it and not reverted. -/
structure Drives (engines : EngineMap) (node : Node) (world : Episode.World G)
    (e : PrefixType × PatternType) (s : Session) (base skipped : List Hash) : Prop
    extends Follows engines node s base skipped where
  unended : EngineMsg.exit ∉ sentTo e.1 s.sent
  holds : ∀ (g : Engine G) calls, Holding.Quiet ⟨0, []⟩ (sentTo e.1 s.sent) →
    Engine.start (sentTo e.1 s.sent) (new world) = .ok (g, calls) →
      Holds world (Holding.after ⟨0, []⟩ (sentTo e.1 s.sent)) (replay e.1 s.sent).reverse g

theorem Drives.advance (hexact : Episode.UndoneUpTo G Eq) (he : e ∈ engines.entries)
    {v b : Hash} {n k : ℕ} {accepted : List Sent} {fresh : List Hash} {failed : Hash → Prop}
    (h : Drives engines node world e s base skipped)
    (hcommon : (node.chain s.sink).take n = (node.chain v).take n)
    (hlast : (((node.chain v).drop n).take k).getLast? = some b)
    (hfresh : ∀ b ∈ fresh, failed b ∧ b ∈ ((node.chain v).drop n).take k)
    (hsent : ∀ e ∈ engines.entries, sentTo e.1 accepted =
      (node.dueAll engines e fresh (((node.chain v).drop n).take k)).map .blkAccepted) :
    Drives engines node world e ⟨b, s.origin,
        s.sent ++ (blocksReverted engines ((node.chain s.sink).drop n).reverse ++ accepted),
        fun b => s.failed b ∨ failed b⟩ (base.take n)
      (skipped.filter (fun b => b ∉ ((node.chain v).drop n).take k) ++ fresh) := by
  have hreplay : ∀ e ∈ engines.entries, ∀ live, replayFrom e.1 live accepted =
      live ++ node.dueAll engines e fresh (((node.chain v).drop n).take k) := by
    intro e he live
    rw [replayFrom_sentTo, hsent e he, List.map_map]
    exact replayFrom_accepted_all e.1 live _
  have hfollows := h.toFollows.advance hcommon hlast failed (fun b hb => (hfresh b hb).1)
    (fun b hb => (hfresh b hb).2) hreplay
  have hmsgs : sentTo e.1 (s.sent ++
      (blocksReverted engines ((node.chain s.sink).drop n).reverse ++ accepted)) =
        sentTo e.1 s.sent ++ (((node.chain s.sink).drop n).reverse.map .blkReverted ++
          (node.dueAll engines e fresh (((node.chain v).drop n).take k)).map .blkAccepted) := by
    rw [sentTo_append, sentTo_append, sentTo_blocksReverted he, hsent e he]
  have hexit : EngineMsg.exit ∉ (((node.chain s.sink).drop n).reverse.map .blkReverted) := by
    rw [List.mem_map]
    rintro ⟨b, -, hb⟩
    cases hb
  refine ⟨hfollows, ?_, ?_⟩
  · rw [hmsgs, List.mem_append, List.mem_append]
    rintro (hm | hm | hm)
    · exact h.unended hm
    · exact hexit hm
    · obtain ⟨b, -, hb⟩ := List.mem_map.mp hm
      cases hb
  · intro g calls hquiet hrun
    rw [hmsgs] at hquiet hrun ⊢
    -- the run falls into what was sent before, the reverted blocks and the accepted ones
    obtain ⟨g₁, c₁, c, hrun₁, hrun⟩ := start_append_split h.unended hrun
    obtain ⟨g₂, c₂, c₃, hrun₂, hrun₃⟩ := start_append_split hexit hrun
    obtain ⟨hquiet₁, hquiet⟩ := Holding.quiet_append.mp hquiet
    obtain ⟨hquiet₂, -⟩ := Holding.quiet_append.mp hquiet
    have hholds := h.holds g₁ c₁ hquiet₁ hrun₁
    rw [h.sent e he] at hholds
    have hnow : replay e.1 (s.sent ++
        (blocksReverted engines ((node.chain s.sink).drop n).reverse ++ accepted)) =
          node.dueAll engines e skipped (((node.chain s.sink).take n).drop base.length) ++
            node.dueAll engines e fresh (((node.chain v).drop n).take k) := by
      have hall : replay e.1 (s.sent ++
          (blocksReverted engines ((node.chain s.sink).drop n).reverse ++ accepted)) =
            replayFrom e.1 (replay e.1 s.sent)
              (blocksReverted engines ((node.chain s.sink).drop n).reverse ++ accepted) :=
        replayFrom_append e.1 [] _ _
      rw [hall, replayFrom_append, replayFrom_blocksReverted he, h.sent e he,
        filter_dueAll (node.chain_nodup s.sink) base.length n, hreplay e he]
    rw [hnow, Holding.after_append, Holding.after_append]
    exact Node.holds_moved hexact (node.chain_nodup s.sink) (node.chain_nodup v) hcommon hholds
      hquiet₂ hrun₂ hrun₃

end Session
end Kdapp

namespace Kdapp
open Engine Outcome
attribute [local instance] idealCrypto

end Kdapp
