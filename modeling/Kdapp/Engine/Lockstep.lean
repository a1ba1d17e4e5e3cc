import Kdapp.Engine.Expiry
import Kdapp.Engine.Isolation

/-! Two engines that accept the same blocks: relations between them that each part of the loop body
keeps, and what both do with a message to an episode that they hold. -/

namespace Kdapp
open Outcome FiniteMap
open Std (ExtTreeMap)

variable [Crypto] {G : Type} [Episode G]

theorem EpisodeWrapper.executeSigned_of_valid {self : EpisodeWrapper G} {cmd : Episode.Command G}
    {pk : PubKey} {sig : Sig} {m : Message} (md : PayloadMetadata)
    (hm : toMessage (Episode.codec (G := G)) cmd = some m) (hv : verifySignature pk m sig = true) :
    self.executeSigned cmd pk sig md = self.execute cmd (some pk) md := by
  unfold executeSigned
  rw [hm]
  exact if_pos hv

namespace Engine

/-- Kept by the filter, by each message of a block that meets `C`, and whatever is noted for
reversion. -/
structure Lockstep (C : BlkAccepted → Prop) (R : Engine G → Engine G → Prop) : Prop where
  filter : ∀ s t blk, C blk → R s t →
    R (s.filterOldEpisodes blk.acceptingDaa) (t.filterOldEpisodes blk.acceptingDaa)
  handle : ∀ s t blk txId outputs a out out', C blk → (∀ id, a ≠ .revert id) → R s t →
    s.handleMessage a (blk.metadata txId outputs) = .ok out →
      t.handleMessage a (blk.metadata txId outputs) = .ok out' → R out.engine out'.engine
  revertMap : ∀ s t m m', R s t → R { s with revertMap := m } { t with revertMap := m' }

namespace Lockstep
variable {C : BlkAccepted → Prop} {R : Engine G → Engine G → Prop} (hR : Lockstep C R)
  {s s' t t' : Engine G} {calls calls' : List (HandlerCall G)}
include hR

theorem acceptTxs {blk : BlkAccepted} (hC : C blk)
    {txs : List (Hash × Borsh.Bytes × Option (List TxOutputInfo))} {rv rv' : List Reversion}
    (hst : R s t) (h : Engine.acceptTxs blk txs s = .ok (s', rv, calls))
    (h' : Engine.acceptTxs blk txs t = .ok (t', rv', calls')) : R s' t' := by
  induction txs generalizing s t rv rv' calls calls' with
  | nil =>
    cases h
    cases h'
    exact hst
  | cons tx txs ih =>
    cases ha : (action tx.2.1 : Option (EpisodeMessage G)) with
    | none =>
      rw [acceptTxs_skip txs _ ha] at h h'
      exact ih hst h h'
    | some a =>
      obtain ⟨out, _, _, hout, htail, -, -⟩ := acceptTxs_action ha h
      obtain ⟨out', _, _, hout', htail', -, -⟩ := acceptTxs_action ha h'
      have hnext := hR.handle s t blk tx.1 tx.2.2 a out out' hC (action_ne_revert ha) hst hout hout'
      exact ih hnext htail htail'

theorem acceptBlock {blk : BlkAccepted} (hC : C blk) (hst : R s t)
    (h : s.acceptBlock blk = .ok (s', calls)) (h' : t.acceptBlock blk = .ok (t', calls')) :
    R s' t' := by
  obtain ⟨s₁, rv, htxs, rfl⟩ := acceptBlock_ok h
  obtain ⟨t₁, rv', htxs', rfl⟩ := acceptBlock_ok h'
  apply hR.revertMap
  exact hR.acceptTxs hC (hR.filter s t blk hC hst) htxs htxs'

theorem start {blks : List BlkAccepted} (hC : ∀ blk ∈ blks, C blk) (hst : R s t)
    (h : Engine.start (blks.map .blkAccepted) s = .ok (s', calls))
    (h' : Engine.start (blks.map .blkAccepted) t = .ok (t', calls')) : R s' t' := by
  induction blks generalizing s t calls calls' with
  | nil =>
    cases h
    cases h'
    exact hst
  | cons blk blks ih =>
    obtain ⟨s₁, c, c₁, hblk, hrest, -⟩ := start_blkAccepted_ok h
    obtain ⟨t₁, c', c₁', hblk', hrest', -⟩ := start_blkAccepted_ok h'
    have hnext := hR.acceptBlock (hC blk List.mem_cons_self) hst hblk hblk'
    exact ih (fun b hb => hC b (List.mem_cons_of_mem _ hb)) hnext hrest hrest'

end Lockstep

/-- What a message of a transaction does to an episode that the engine holds. -/
inductive Tells (s : Engine G) (md : PayloadMetadata) (w : EpisodeWrapper G) :
    EpisodeMessage G → Engine G → Prop
  | ignored {a : EpisodeMessage G} (h : a.command = none ∨ ¬ a.SignatureValid) : Tells s md w a s
  | executed {a cmd auth g res world stack} (hcmd : a.command = some (cmd, auth))
    (hsig : a.SignatureValid)
    (hexec : (Episode.execute w.episode cmd auth md).run s.world = .ok ((g, res), world)) :
    Tells s md w a { s with episodes := s.episodes.insert a.episodeId ⟨g, stack⟩, world }

section Held
variable {s : Engine G} {a : EpisodeMessage G} {md : PayloadMetadata} {out : Handled G}
  {w : EpisodeWrapper G}

theorem handleCommand_tells {cmd : Episode.Command G} {auth : Option PubKey}
    (hcmd : a.command = some (cmd, auth)) (hsig : a.SignatureValid)
    (hw : s.episodes[a.episodeId]? = some w)
    (h : s.handleCommand a.episodeId cmd auth md (fun w => w.execute cmd auth md) = .ok out) :
    s.Tells md w a out.engine := by
  unfold handleCommand at h
  rw [hw] at h
  obtain ⟨⟨⟨⟨g, stack⟩, res⟩, world⟩, hx, hr⟩ := bind_ok h
  have hengine : out.engine =
      { s with episodes := s.episodes.insert a.episodeId ⟨g, stack⟩, world } := by
    cases res with
    | ok u =>
      cases hr
      rfl
    | error e =>
      cases hr
      rfl
  rw [hengine]
  rcases EpisodeWrapper.execute_ok hx with ⟨r, hexec, -, -⟩ | ⟨e, hexec, -, -⟩
  · exact .executed hcmd hsig hexec
  · exact .executed hcmd hsig hexec

theorem handleMessage_tells (ha : ∀ id, a ≠ .revert id) (hw : s.episodes[a.episodeId]? = some w)
    (h : s.handleMessage a md = .ok out) : s.Tells md w a out.engine := by
  cases a with
  | revert id => exact absurd rfl (ha id)
  | newEpisode id ps =>
    have hknown : s.episodes.contains id = true := ExtTreeMap.mem_iff_contains.mp
      (mem_of_getElem? hw)
    simp only [handleMessage, hknown, if_true] at h
    cases h
    exact .ignored (.inl rfl)
  | unsignedCommand id cmd =>
    exact handleCommand_tells (a := .unsignedCommand id cmd) rfl trivial hw h
  | signedCommand id cmd pk sig =>
    by_cases hsig : (EpisodeMessage.signedCommand id cmd pk sig : EpisodeMessage G).SignatureValid
    · obtain ⟨m, hm, hv⟩ := hsig
      have hexec : ∀ w : EpisodeWrapper G, w.executeSigned cmd pk sig md =
          w.execute cmd (some pk) md :=
        fun w => EpisodeWrapper.executeSigned_of_valid md hm hv
      simp only [handleMessage, hexec] at h
      exact handleCommand_tells (a := .signedCommand id cmd pk sig) rfl ⟨m, hm, hv⟩ hw h
    · have hhandles := handleMessage_ok h
      cases hhandles with
      | missing hnew hmissing => exact absurd (mem_of_getElem? hw) hmissing
      | forged hheld => exact .ignored (.inr hsig)
      | rejected hcmd hvalid => exact absurd hvalid hsig
      | executed hcmd hvalid => exact absurd hvalid hsig

end Held

section BothHold
variable {T : G → G → Prop} {id : EpisodeId} {created created' : UInt64} {s t : Engine G}

/-- Both engines hold the episode, and what one holds is related to what the other does. -/
structure BothHold (T : G → G → Prop) (id : EpisodeId) (created created' : UInt64)
    (s t : Engine G) : Prop where
  held : ∃ ew ew', s.episodes[id]? = some ew ∧ t.episodes[id]? = some ew' ∧
    T ew.episode ew'.episode
  since : s.episodeCreationTimes[id]? = some created
  since' : t.episodeCreationTimes[id]? = some created'

def Young (created created' : UInt64) (blk : BlkAccepted) : Prop :=
  blk.acceptingDaa.toNat ≤ created.toNat + episodeLifetime.toNat ∧
    blk.acceptingDaa.toNat ≤ created'.toNat + episodeLifetime.toNat

theorem filterOldEpisodes_young {w : EpisodeWrapper G} {daaScore : UInt64}
    (hw : s.episodes[id]? = some w) (hcreated : s.episodeCreationTimes[id]? = some created)
    (hyoung : daaScore.toNat ≤ created.toNat + episodeLifetime.toNat) :
    (s.filterOldEpisodes daaScore).episodes[id]? = some w ∧
      (s.filterOldEpisodes daaScore).episodeCreationTimes[id]? = some created := by
  have hspared := (filterOldEpisodes_spares hcreated hyoung).trans hw
  refine ⟨hspared, ?_⟩
  by_cases hexpires : s.Expires daaScore id
  · rw [(filterOldEpisodes_expired hexpires).1] at hspared
    cases hspared
  · exact (filterOldEpisodes_kept hexpires).2.trans hcreated

theorem BothHold.handle {a : EpisodeMessage G} {md : PayloadMetadata} {out out' : Handled G}
    (hT : ∀ g g' cmd auth md w w' h h' res res' v v', T g g' →
      (Episode.execute g cmd auth md).run w = .ok ((h, res), v) →
        (Episode.execute g' cmd auth md).run w' = .ok ((h', res'), v') → T h h')
    (h : BothHold T id created created' s t) (ha : ∀ id, a ≠ .revert id)
    (hs : s.handleMessage a md = .ok out) (ht : t.handleMessage a md = .ok out') :
    BothHold T id created created' out.engine out'.engine := by
  obtain ⟨ew, ew', hew, hew', hrelated⟩ := h.held
  by_cases hid : a.episodeId = id
  · subst hid
    have hstep := handleMessage_tells ha hew hs
    have hstep' := handleMessage_tells ha hew' ht
    generalize out.engine = s' at hstep
    generalize out'.engine = t' at hstep'
    -- whether a message is ignored does not depend on the episode
    cases hstep with
    | ignored hquiet =>
      cases hstep' with
      | ignored => exact h
      | executed hcmd hsig =>
        rcases hquiet with hnone | hforged
        · cases hnone.symm.trans hcmd
        · exact absurd hsig hforged
    | executed hcmd hsig hexec =>
      cases hstep' with
      | ignored hquiet =>
        rcases hquiet with hnone | hforged
        · cases hnone.symm.trans hcmd
        · exact absurd hsig hforged
      | executed hcmd' hsig' hexec' =>
        obtain ⟨rfl, rfl⟩ := Prod.mk.inj (Option.some.inj (hcmd'.symm.trans hcmd))
        refine ⟨⟨_, _, ExtTreeMap.getElem?_insert_self, ExtTreeMap.getElem?_insert_self, ?_⟩,
          h.since, h.since'⟩
        exact hT _ _ _ _ _ _ _ _ _ _ _ _ _ hrelated hexec hexec'
  · have hs := ((handleMessage_ok hs).other hid).1
    have ht := ((handleMessage_ok ht).other hid).1
    exact ⟨⟨ew, ew', hs.episode.symm.trans hew, ht.episode.symm.trans hew', hrelated⟩,
      hs.creationTime.symm.trans h.since, ht.creationTime.symm.trans h.since'⟩

theorem bothHold_lockstep
    (hT : ∀ g g' cmd auth md w w' h h' res res' v v', T g g' →
      (Episode.execute g cmd auth md).run w = .ok ((h, res), v) →
        (Episode.execute g' cmd auth md).run w' = .ok ((h', res'), v') → T h h') :
    Lockstep (Young created created') (BothHold T id created created') where
  filter s t blk hyoung h := by
    obtain ⟨ew, ew', hew, hew', hrelated⟩ := h.held
    obtain ⟨hkept, hsince⟩ := filterOldEpisodes_young hew h.since hyoung.1
    obtain ⟨hkept', hsince'⟩ := filterOldEpisodes_young hew' h.since' hyoung.2
    exact ⟨⟨ew, ew', hkept, hkept', hrelated⟩, hsince, hsince'⟩
  handle s t blk txId outputs a out out' _ ha h hs ht := h.handle hT ha hs ht
  revertMap s t m m' h := ⟨h.held, h.since, h.since'⟩

end BothHold
end Engine
end Kdapp
