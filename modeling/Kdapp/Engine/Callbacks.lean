import Kdapp.Engine.Run

/-! Runs that take no live episode back or away, and what they tell the handlers. -/

namespace Kdapp.Engine
open Outcome
open Std (ExtTreeMap)

variable [Crypto] {G : Type} [Episode G]

/-- No accepted block lets a live episode expire, and no reverted block holds an entry of one. -/
def Undisturbed : List EngineMsg → Engine G → Prop
  | [], _ => True
  | .blkAccepted blk :: msgs, s =>
    (∀ id ∈ s.episodes, ¬ s.Expires blk.acceptingDaa id) ∧
      ∀ t calls, s.acceptBlock blk = .ok (t, calls) → Undisturbed msgs t
  | .blkReverted hash :: msgs, s =>
    (∀ revertVec, s.revertMap[hash]? = some revertVec → ∀ e ∈ revertVec, e.1 ∉ s.episodes) ∧
      ∀ t calls, s.revertBlock hash = .ok (t, calls) → Undisturbed msgs t
  | .exit :: _, _ => True

theorem Undisturbed.mono {pre msgs : List EngineMsg} {s : Engine G} (h : Undisturbed msgs s)
    (hpre : pre <+: msgs) : Undisturbed pre s := by
  induction pre generalizing msgs s with
  | nil => exact trivial
  | cons m pre ih =>
    obtain ⟨post, rfl⟩ := hpre
    have hrest : pre <+: pre ++ post := List.prefix_append pre post
    cases m with
    | blkAccepted blk => exact ⟨h.1, fun t calls hx => ih (h.2 t calls hx) hrest⟩
    | blkReverted hash => exact ⟨h.1, fun t calls hx => ih (h.2 t calls hx) hrest⟩
    | exit => exact trivial

theorem filterOldEpisodes_same {s : Engine G} {daaScore : UInt64}
    (h : ∀ id ∈ s.episodes, ¬ s.Expires daaScore id) :
    (s.filterOldEpisodes daaScore).episodes = s.episodes := by
  apply ExtTreeMap.ext_getElem?
  intro id
  by_cases hexpires : s.Expires daaScore id
  · have hnone : s.episodes[id]? = none := by
      by_contra hsome
      exact h id (ExtTreeMap.mem_iff_isSome_getElem?.mpr (Option.isSome_iff_ne_none.mpr hsome))
        hexpires
    rw [(filterOldEpisodes_expired hexpires).1, hnone]
  · exact (filterOldEpisodes_kept hexpires).1

theorem handleMessage_revert_missing {s : Engine G} {id : EpisodeId} (h : id ∉ s.episodes)
    (md : PayloadMetadata) : s.handleMessage (.revert id) md = .ok ⟨s, none, []⟩ := by
  simp only [handleMessage, ExtTreeMap.getElem?_eq_none h]
  rfl

theorem revertEntries_missing {hash : Hash} {es : List Reversion} {s : Engine G}
    (h : ∀ e ∈ es, e.1 ∉ s.episodes) : revertEntries hash es s = .ok (s, []) := by
  induction es with
  | nil => rfl
  | cons e es ih =>
    have hhead := handleMessage_revert_missing (h e List.mem_cons_self)
      { e.2 with acceptingHash := hash }
    have htail := ih fun e' he' => h e' (List.mem_cons_of_mem _ he')
    exact revertEntries_cons_of_ok hhead htail

theorem revertBlock_missing {s s' : Engine G} {hash : Hash} {calls : List (HandlerCall G)}
    (h : ∀ revertVec, s.revertMap[hash]? = some revertVec → ∀ e ∈ revertVec, e.1 ∉ s.episodes)
    (hblk : s.revertBlock hash = .ok (s', calls)) : s'.episodes = s.episodes ∧ calls = [] := by
  unfold revertBlock at hblk
  split at hblk
  · rename_i revertVec hentry
    have hentries : ∀ e ∈ revertVec.reverse, e.1 ∉ s.episodes := by
      intro e he
      exact h revertVec hentry e (List.mem_reverse.mp he)
    have hmissing : revertEntries hash revertVec.reverse
        { s with revertMap := s.revertMap.erase hash } =
          .ok ({ s with revertMap := s.revertMap.erase hash }, []) := revertEntries_missing hentries
    cases hmissing.symm.trans hblk
    exact ⟨rfl, rfl⟩
  · cases hblk
    exact ⟨rfl, rfl⟩

/-- What the episodes and the callbacks made so far have to do with each other, kept wherever
an episode is created or takes a command. -/
structure Told (R : ExtTreeMap EpisodeId (EpisodeWrapper G) → List (HandlerCall G) → Prop) :
    Prop where
  created : ∀ ps md w (g : G) w' episodes calls id,
    (Episode.initializeWith ps md).run w = .ok (g, w') → id ∉ episodes → R episodes calls →
      R (episodes.insert id ⟨g, []⟩) (calls ++ [.onInitialize id g])
  rejected : ∀ (ew : EpisodeWrapper G) cmd auth md w g e w' episodes calls (id : EpisodeId),
    (Episode.execute ew.episode cmd auth md).run w = .ok ((g, .error e), w') →
      episodes[id]? = some ew → R episodes calls →
        R (episodes.insert id ⟨g, ew.rollbackStack⟩) calls
  executed : ∀ (ew : EpisodeWrapper G) cmd auth md w g r w' episodes calls (id : EpisodeId),
    (Episode.execute ew.episode cmd auth md).run w = .ok ((g, .ok r), w') →
      episodes[id]? = some ew → R episodes calls →
        R (episodes.insert id ⟨g, r :: ew.rollbackStack⟩)
          (calls ++ [.onCommand id g cmd auth md])

namespace Told
variable {R : ExtTreeMap EpisodeId (EpisodeWrapper G) → List (HandlerCall G) → Prop}
  (hR : Told R) {s s' : Engine G} {before calls : List (HandlerCall G)}
include hR

theorem handles {md : PayloadMetadata} {a : EpisodeMessage G} {out : Handled G}
    (h : s.Handles md a out) (ha : ∀ id, a ≠ .revert id) (hs : R s.episodes before) :
    R out.engine.episodes (before ++ out.calls) := by
  have hquiet : R s.episodes (before ++ []) := by
    rw [List.append_nil]
    exact hs
  cases h with
  | known => exact hquiet
  | missing => exact hquiet
  | forged => exact hquiet
  | created hnew hinit => exact hR.created _ _ _ _ _ _ _ _ hinit hnew hs
  | rejected hcmd hsig hw hexec =>
    have hrejected := hR.rejected _ _ _ _ _ _ _ _ _ _ _ hexec hw hs
    rw [List.append_nil]
    exact hrejected
  | executed hcmd hsig hw hexec => exact hR.executed _ _ _ _ _ _ _ _ _ _ _ hexec hw hs
  | popped => exact absurd rfl (ha _)
  | deleted => exact absurd rfl (ha _)

theorem acceptTxs {blk : BlkAccepted}
    {txs : List (Hash × Borsh.Bytes × Option (List TxOutputInfo))} {revertVec : List Reversion}
    (h : Engine.acceptTxs blk txs s = .ok (s', revertVec, calls)) (hs : R s.episodes before) :
    R s'.episodes (before ++ calls) := by
  induction txs generalizing s before revertVec calls with
  | nil =>
    cases h
    rw [List.append_nil]
    exact hs
  | cons tx txs ih =>
    cases ha : (action tx.2.1 : Option (EpisodeMessage G)) with
    | none =>
      rw [acceptTxs_skip txs s ha] at h
      exact ih h hs
    | some a =>
      obtain ⟨out, rv, cs, hout, htail, -, rfl⟩ := acceptTxs_action ha h
      have hnext := hR.handles (handleMessage_ok hout) (action_ne_revert ha) hs
      rw [← List.append_assoc]
      exact ih htail hnext

theorem acceptBlock {blk : BlkAccepted} (hkept : ∀ id ∈ s.episodes, ¬ s.Expires blk.acceptingDaa id)
    (h : s.acceptBlock blk = .ok (s', calls)) (hs : R s.episodes before) :
    R s'.episodes (before ++ calls) := by
  obtain ⟨s₁, revertVec, htxs, rfl⟩ := acceptBlock_ok h
  rw [← filterOldEpisodes_same hkept] at hs
  have hnext : R s₁.episodes (before ++ calls) := hR.acceptTxs htxs hs
  exact hnext

theorem start {msgs : List EngineMsg} (hquiet : Undisturbed msgs s)
    (h : Engine.start msgs s = .ok (s', calls)) (hs : R s.episodes before) :
    R s'.episodes (before ++ calls) := by
  induction msgs generalizing s before calls with
  | nil =>
    cases h
    rw [List.append_nil]
    exact hs
  | cons m msgs ih =>
    cases m with
    | blkAccepted blk =>
      obtain ⟨t, c, c', hx, hy, rfl⟩ := start_blkAccepted_ok h
      rw [← List.append_assoc]
      exact ih (hquiet.2 t c hx) hy (hR.acceptBlock hquiet.1 hx hs)
    | blkReverted hash =>
      obtain ⟨t, c, c', hx, hy, rfl⟩ := start_blkReverted_ok h
      obtain ⟨hsame, rfl⟩ := revertBlock_missing hquiet.1 hx
      rw [← hsame] at hs
      rw [List.nil_append]
      exact ih (hquiet.2 t [] hx) hy hs
    | exit =>
      cases h
      rw [List.append_nil]
      exact hs

theorem reached {msgs pre : List EngineMsg} {world : Episode.World G}
    (hquiet : Undisturbed msgs (new world)) (hpre : pre <+: msgs)
    (h : Engine.start pre (new world) = .ok (s, calls)) (hinit : R ∅ []) :
    R s.episodes calls := by
  have hrun : R s.episodes ([] ++ calls) := hR.start (hquiet.mono hpre) h hinit
  exact hrun

end Told
end Kdapp.Engine
