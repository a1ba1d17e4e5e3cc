import Kdapp.Engine.Run

/-! Runs of `start` as a whole: what holds of every episode and every callback, and when a run
comes to its end. -/

namespace Kdapp
open Outcome

variable [Crypto] {G : Type} [Episode G]

namespace Engine

/-! ### What holds of every live episode, and of every callback -/

def Each (P : EpisodeWrapper G → Prop) (s : Engine G) : Prop :=
  ∀ (id : EpisodeId) w, s.episodes[id]? = some w → P w

/-- A property of an episode and its stack that the methods of the episode keep. -/
structure Kept (P : EpisodeWrapper G → Prop) : Prop where
  created : ∀ ps md w (g : G) w',
    (Episode.initializeWith ps md).run w = .ok (g, w') → P ⟨g, []⟩
  rejected : ∀ (ew : EpisodeWrapper G) cmd auth md w g e w', P ew →
    (Episode.execute ew.episode cmd auth md).run w = .ok ((g, .error e), w') →
      P ⟨g, ew.rollbackStack⟩
  executed : ∀ (ew : EpisodeWrapper G) cmd auth md w g r w', P ew →
    (Episode.execute ew.episode cmd auth md).run w = .ok ((g, .ok r), w') →
      P ⟨g, r :: ew.rollbackStack⟩
  popped : ∀ (ew : EpisodeWrapper G) r rs w g b w', P ew → ew.rollbackStack = r :: rs →
    (Episode.rollback ew.episode r).run w = .ok ((g, b), w') → P ⟨g, rs⟩

section Each
variable {P : EpisodeWrapper G → Prop} {s t : Engine G}

theorem Each.insert (hs : s.Each P) {ew : EpisodeWrapper G} (h : P ew) {id : EpisodeId}
    (ht : t.episodes = s.episodes.insert id ew) : t.Each P := by
  intro id' w hw
  rw [ht, Std.ExtTreeMap.getElem?_insert] at hw
  split at hw
  · cases hw
    exact h
  · exact hs id' w hw

theorem Kept.preserved (hP : Kept P) : Preserved (Each P) where
  filter s daaScore hs id w hw := by
    by_cases h : s.Expires daaScore id
    · rw [(filterOldEpisodes_expired h).1] at hw
      cases hw
    · rw [(filterOldEpisodes_kept h).1] at hw
      exact hs id w hw
  handle s md a out h hs := by
    cases h with
    | known => exact hs
    | missing => exact hs
    | forged => exact hs
    | created h hinit => exact hs.insert (hP.created _ _ _ _ _ hinit) rfl
    | rejected hcmd hsig hw hexec =>
      exact hs.insert (hP.rejected _ _ _ _ _ _ _ _ (hs _ _ hw) hexec) rfl
    | executed hcmd hsig hw hexec =>
      exact hs.insert (hP.executed _ _ _ _ _ _ _ _ (hs _ _ hw) hexec) rfl
    | popped hw hstack hroll =>
      exact hs.insert (hP.popped _ _ _ _ _ _ _ (hs _ _ hw) hstack hroll) rfl
    | deleted hw hstack =>
      intro id' w' hw'
      change (s.episodes.erase _)[id']? = some w' at hw'
      rw [Std.ExtTreeMap.getElem?_erase] at hw'
      split at hw'
      · cases hw'
      · exact hs id' w' hw'
  revertMap s m hs := hs

theorem each_new (world : Episode.World G) : Each P (new world) := by
  intro id w hw
  cases hw

end Each

section Calls
variable {I : Engine G → Prop} {Q : HandlerCall G → Prop} (hI : Preserved I)
  (hQ : ∀ s md a out, I s → s.Handles md a out → ∀ c ∈ out.calls, Q c)
include hI hQ

theorem acceptTxs_calls {blk : BlkAccepted}
    {txs : List (Hash × Borsh.Bytes × Option (List TxOutputInfo))} {s t : Engine G}
    {revertVec : List Reversion} {calls : List (HandlerCall G)} (hs : I s)
    (h : acceptTxs blk txs s = .ok (t, revertVec, calls)) : ∀ c ∈ calls, Q c := by
  induction txs generalizing s revertVec calls with
  | nil =>
    cases h
    nofun
  | cons tx txs ih =>
    cases ha : (action tx.2.1 : Option (EpisodeMessage G)) with
    | none =>
      rw [acceptTxs_skip txs s ha] at h
      exact ih hs h
    | some a =>
      obtain ⟨out, rv, cs, hout, htail, -, rfl⟩ := acceptTxs_action ha h
      have hhandles := handleMessage_ok hout
      intro c hc
      rcases List.mem_append.mp hc with hc | hc
      · exact hQ s _ a out hs hhandles c hc
      · exact ih (hI.handle s _ a out hhandles hs) htail c hc

theorem revertEntries_calls {hash : Hash} {es : List Reversion} {s t : Engine G}
    {calls : List (HandlerCall G)} (hs : I s) (h : revertEntries hash es s = .ok (t, calls)) :
    ∀ c ∈ calls, Q c := by
  induction es generalizing s calls with
  | nil =>
    cases h
    nofun
  | cons e es ih =>
    obtain ⟨u, c₁, c₂, hhead, htail, rfl⟩ := revertEntries_cons_ok h
    have hhandles := handleMessage_ok hhead
    intro c hc
    rcases List.mem_append.mp hc with hc | hc
    · exact hQ s _ _ _ hs hhandles c hc
    · exact ih (hI.handle s _ _ _ hhandles hs) htail c hc

theorem start_calls {msgs : List EngineMsg} {s t : Engine G} {calls : List (HandlerCall G)}
    (hs : I s) (h : start msgs s = .ok (t, calls)) : ∀ c ∈ calls, Q c := by
  induction msgs generalizing s calls with
  | nil =>
    cases h
    nofun
  | cons m msgs ih =>
    cases m with
    | blkAccepted blk =>
      obtain ⟨u, c₁, c₂, hblock, hrest, rfl⟩ := start_blkAccepted_ok h
      obtain ⟨s₁, rv, htxs, -⟩ := acceptBlock_ok hblock
      intro c hc
      rcases List.mem_append.mp hc with hc | hc
      · exact acceptTxs_calls hI hQ (hI.filter s _ hs) htxs c hc
      · exact ih (hI.acceptBlock hs hblock) hrest c hc
    | blkReverted hash =>
      obtain ⟨u, c₁, c₂, hblock, hrest, rfl⟩ := start_blkReverted_ok h
      have hnext := hI.revertBlock hs hblock
      intro c hc
      rcases List.mem_append.mp hc with hc | hc
      · unfold revertBlock at hblock
        split at hblock
        · exact revertEntries_calls hI hQ (hI.revertMap s _ hs) hblock c hc
        · cases hblock
          cases hc
      · exact ih hnext hrest c hc
    | exit =>
      cases h
      nofun

end Calls

/-! ### Messages that are handled -/

theorem ofEpisode_isOk_iff {α : Type}
    {x : StateT (Episode.World G) (Except (Episode.Fault G)) α} {w : Episode.World G} :
    (∃ out, EngineM.ofEpisode x w = .ok out) ↔ ∃ out, x.run w = .ok out :=
  ⟨fun ⟨out, h⟩ => ⟨out, EngineM.ofEpisode_ok h⟩, fun ⟨out, h⟩ => ⟨out, EngineM.ofEpisode_of_ok h⟩⟩

theorem execute_isOk_iff {ew : EpisodeWrapper G} {cmd : Episode.Command G} {auth : Option PubKey}
    {md : PayloadMetadata} {w : Episode.World G} :
    (∃ out, ew.execute cmd auth md w = .ok out) ↔
      ∃ out, (Episode.execute ew.episode cmd auth md).run w = .ok out := by
  rw [← ofEpisode_isOk_iff]
  apply bind_isOk_iff
  rintro ⟨⟨g, res⟩, w'⟩
  cases res <;> exact ⟨_, rfl⟩

theorem executeSigned_isOk_iff {ew : EpisodeWrapper G} {cmd : Episode.Command G} {pk : PubKey}
    {sig : Sig} {md : PayloadMetadata} {w : Episode.World G} :
    (∃ out, ew.executeSigned cmd pk sig md w = .ok out) ↔
      ∃ m, toMessage (Episode.codec (G := G)) cmd = some m ∧ (verifySignature pk m sig = true →
        ∃ out, (Episode.execute ew.episode cmd (some pk) md).run w = .ok out) := by
  unfold EpisodeWrapper.executeSigned
  cases toMessage (Episode.codec (G := G)) cmd with
  | none => exact iff_of_false (fun ⟨out, h⟩ => nomatch h) (fun ⟨m, h, _⟩ => nomatch h)
  | some m =>
    rw [← execute_isOk_iff]
    by_cases hv : verifySignature pk m sig = true
    · simp only [hv, if_true]
      exact ⟨fun h => ⟨m, rfl, fun _ => h⟩, fun ⟨m', hm, h⟩ => by cases hm; exact h hv⟩
    · simp only [hv]
      exact iff_of_true ⟨_, rfl⟩ ⟨m, rfl, fun h => absurd h hv⟩

theorem rollback_isOk_iff {ew : EpisodeWrapper G} {w : Episode.World G} :
    (∃ out, ew.rollback w = .ok out) ↔
      ∀ r rs, ew.rollbackStack = r :: rs →
        ∃ out, (Episode.rollback ew.episode r).run w = .ok out := by
  unfold EpisodeWrapper.rollback
  cases ew.rollbackStack with
  | nil =>
    refine iff_of_true ⟨_, rfl⟩ ?_
    intro r rs h
    cases h
  | cons r rs =>
    have hroll : (∃ out, EngineM.ofEpisode (Episode.rollback ew.episode r) w = .ok out) ↔
        ∃ out, (Episode.rollback ew.episode r).run w = .ok out := ofEpisode_isOk_iff
    constructor
    · intro h r' rs' heq
      cases heq
      exact hroll.mp ((bind_isOk_iff fun _ => ⟨_, rfl⟩).mp h)
    · intro h
      exact (bind_isOk_iff fun _ => ⟨_, rfl⟩).mpr (hroll.mpr (h r rs rfl))

def Runs (s : Engine G) (md : PayloadMetadata) : EpisodeMessage G → Prop
  | .newEpisode id ps => id ∉ s.episodes →
    ∃ out, (Episode.initializeWith (G := G) ps md).run s.world = .ok out
  | .signedCommand id cmd pk sig => ∀ w, s.episodes[id]? = some w →
    ∃ m, toMessage (Episode.codec (G := G)) cmd = some m ∧ (verifySignature pk m sig = true →
      ∃ out, (Episode.execute w.episode cmd (some pk) md).run s.world = .ok out)
  | .unsignedCommand id cmd => ∀ w, s.episodes[id]? = some w →
    ∃ out, (Episode.execute w.episode cmd none md).run s.world = .ok out
  | .revert id => ∀ w, s.episodes[id]? = some w → ∀ r rs, w.rollbackStack = r :: rs →
    ∃ out, (Episode.rollback w.episode r).run s.world = .ok out

theorem handleCommand_isOk_iff {s : Engine G} {id : EpisodeId} {cmd : Episode.Command G}
    {auth : Option PubKey} {md : PayloadMetadata}
    {exec : EpisodeWrapper G →
      EngineM G (EpisodeWrapper G × Except (EpisodeError (Episode.CommandError G)) Unit)} :
    (∃ out, s.handleCommand id cmd auth md exec = .ok out) ↔
      ∀ w, s.episodes[id]? = some w → ∃ out, exec w s.world = .ok out := by
  unfold handleCommand
  cases s.episodes[id]? with
  | none => exact iff_of_true ⟨_, rfl⟩ (fun w h => nomatch h)
  | some w =>
    dsimp only
    rw [bind_isOk_iff]
    · exact ⟨fun h w' heq => by cases heq; exact h, fun h => h w rfl⟩
    · rintro ⟨⟨ew, res⟩, w'⟩
      cases res <;> exact ⟨_, rfl⟩

theorem handleMessage_isOk_iff {s : Engine G} {a : EpisodeMessage G} {md : PayloadMetadata} :
    (∃ out, s.handleMessage a md = .ok out) ↔ s.Runs md a := by
  cases a with
  | newEpisode id ps =>
    simp only [handleMessage, Runs]
    split
    · rename_i h
      exact iff_of_true ⟨_, rfl⟩ (fun hnot => absurd (by simpa using h) hnot)
    · rename_i h
      have hnot : id ∉ s.episodes := by simpa using h
      have hinit : (∃ out, EpisodeWrapper.initializeWith (G := G) ps md s.world = .ok out) ↔
          ∃ out, (Episode.initializeWith (G := G) ps md).run s.world = .ok out := by
        rw [← ofEpisode_isOk_iff]
        exact bind_isOk_iff fun _ => ⟨_, rfl⟩
      rw [bind_isOk_iff, hinit]
      · exact ⟨fun h _ => h, fun h => h hnot⟩
      · exact fun _ => ⟨_, rfl⟩
  | signedCommand id cmd pk sig =>
    simp only [handleMessage, Runs, handleCommand_isOk_iff, executeSigned_isOk_iff]
  | unsignedCommand id cmd =>
    simp only [handleMessage, Runs, handleCommand_isOk_iff, EpisodeWrapper.executeUnsigned,
      execute_isOk_iff]
  | revert id =>
    simp only [handleMessage, Runs]
    cases s.episodes[id]? with
    | none =>
      refine iff_of_true ⟨_, rfl⟩ ?_
      intro w h
      cases h
    | some w =>
      dsimp only
      rw [bind_isOk_iff, rollback_isOk_iff]
      · exact ⟨fun h w' heq => by cases heq; exact h, fun h => h w rfl⟩
      · rintro ⟨⟨ew, res⟩, w'⟩
        rcases res with (_ | _ | _ | _) | _ <;> exact ⟨_, rfl⟩

/-! ### Runs that come to their end -/

/-- In the run of `msgs` from `s₀`, a transaction of an accepted block carries the message `a`,
and `s` is the engine that handles it. -/
inductive Meets (s₀ : Engine G) (msgs : List EngineMsg) (s : Engine G) (a : EpisodeMessage G)
    (md : PayloadMetadata) : Prop
  | intro {before later blk s₁ calls txs tx txs' revertVec calls'}
    (hmsgs : msgs = before ++ .blkAccepted blk :: later) (hexit : EngineMsg.exit ∉ before)
    (hbefore : start before s₀ = .ok (s₁, calls)) (htxs : blk.associatedTxs = txs ++ tx :: txs')
    (hearlier : acceptTxs blk txs (s₁.filterOldEpisodes blk.acceptingDaa) =
      .ok (s, revertVec, calls'))
    (haction : action tx.2.1 = some a) (hmd : md = blk.metadata tx.1 tx.2.2)

variable {blk : BlkAccepted} {tx : Hash × Borsh.Bytes × Option (List TxOutputInfo)}
  {txs txs' : List (Hash × Borsh.Bytes × Option (List TxOutputInfo))} {a : EpisodeMessage G}
  {s t : Engine G}

theorem acceptTxs_cons_of_ok {out : Handled G} {revertVec : List Reversion}
    {calls : List (HandlerCall G)} (ha : action tx.2.1 = some a)
    (hout : s.handleMessage a (blk.metadata tx.1 tx.2.2) = .ok out)
    (htail : acceptTxs blk txs out.engine = .ok (t, revertVec, calls)) :
    acceptTxs blk (tx :: txs) s =
      .ok (t, out.revert.toList ++ revertVec, out.calls ++ calls) := by
  obtain ⟨txId, payload, txOutputs⟩ := tx
  rw [acceptTxs, fromSlice_of_action ha]
  cases a with
  | revert id => exact absurd rfl (action_ne_revert ha id)
  | _ =>
    dsimp only
    rw [bind_of_ok _ hout, bind_of_ok _ htail]
    rfl

theorem acceptTxs_append_ok {revertVec : List Reversion} {calls : List (HandlerCall G)}
    {out : Engine G × List Reversion × List (HandlerCall G)}
    (htxs : acceptTxs blk txs s = .ok (t, revertVec, calls))
    (h : acceptTxs blk (txs ++ txs') s = .ok out) : ∃ out', acceptTxs blk txs' t = .ok out' := by
  induction txs generalizing s revertVec calls out with
  | nil =>
    cases htxs
    exact ⟨out, h⟩
  | cons tx txs ih =>
    cases ha : (action tx.2.1 : Option (EpisodeMessage G)) with
    | none =>
      rw [acceptTxs_skip txs s ha] at htxs
      rw [List.cons_append, acceptTxs_skip _ s ha] at h
      exact ih htxs h
    | some a =>
      obtain ⟨out₁, rv, cs, hout₁, htail₁, -⟩ := acceptTxs_action ha htxs
      obtain ⟨out₂, rv', cs', hout₂, htail₂, -⟩ := acceptTxs_action ha h
      cases hout₁.symm.trans hout₂
      exact ih htail₁ htail₂

theorem start_append_ok {before later : List EngineMsg} {calls : List (HandlerCall G)}
    {out : Engine G × List (HandlerCall G)} (hexit : EngineMsg.exit ∉ before)
    (hbefore : start before s = .ok (t, calls)) (h : start (before ++ later) s = .ok out) :
    ∃ out', start later t = .ok out' := by
  induction before generalizing s calls out with
  | nil =>
    cases hbefore
    exact ⟨out, h⟩
  | cons m before ih =>
    have htail : EngineMsg.exit ∉ before := fun hm => hexit (List.mem_cons_of_mem m hm)
    obtain ⟨v, ds⟩ := out
    cases m with
    | blkAccepted blk =>
      obtain ⟨u, c, c', hx, hy, -⟩ := start_blkAccepted_ok hbefore
      obtain ⟨u', d, d', hx', hy', -⟩ := start_blkAccepted_ok h
      cases hx.symm.trans hx'
      exact ih htail hy hy'
    | blkReverted hash =>
      obtain ⟨u, c, c', hx, hy, -⟩ := start_blkReverted_ok hbefore
      obtain ⟨u', d, d', hx', hy', -⟩ := start_blkReverted_ok h
      cases hx.symm.trans hx'
      exact ih htail hy hy'
    | exit => exact absurd List.mem_cons_self hexit

theorem start_blkAccepted_of_ok {msgs : List EngineMsg} {u : Engine G}
    {calls calls' : List (HandlerCall G)} (hblock : s.acceptBlock blk = .ok (t, calls))
    (h : start msgs t = .ok (u, calls')) :
    start (.blkAccepted blk :: msgs) s = .ok (u, calls ++ calls') := by
  rw [start, bind_of_ok _ hblock]
  exact bind_of_ok _ h

theorem start_blkReverted_of_ok {hash : Hash} {msgs : List EngineMsg} {u : Engine G}
    {calls calls' : List (HandlerCall G)} (hblock : s.revertBlock hash = .ok (t, calls))
    (h : start msgs t = .ok (u, calls')) :
    start (.blkReverted hash :: msgs) s = .ok (u, calls ++ calls') := by
  rw [start, bind_of_ok _ hblock]
  exact bind_of_ok _ h

namespace Meets
variable {s₀ : Engine G} {msgs : List EngineMsg} {md : PayloadMetadata}

theorem handled (hmeets : Meets s₀ msgs s a md) {out : Engine G × List (HandlerCall G)}
    (h : start msgs s₀ = .ok out) : ∃ out', s.handleMessage a md = .ok out' := by
  obtain ⟨hmsgs, hexit, hbefore, htxs, hearlier, haction, rfl⟩ := hmeets
  rw [hmsgs] at h
  obtain ⟨⟨s₂, calls₂⟩, hlater⟩ := start_append_ok hexit hbefore h
  obtain ⟨u, c, c', hblock, -⟩ := start_blkAccepted_ok hlater
  obtain ⟨s₃, revertVec, hall, -⟩ := acceptBlock_ok hblock
  rw [htxs] at hall
  obtain ⟨⟨s₄, rv, cs⟩, hrest⟩ := acceptTxs_append_ok hearlier hall
  obtain ⟨out', -, -, hout', -⟩ := acceptTxs_action haction hrest
  exact ⟨out', hout'⟩

theorem invariant {I : Engine G → Prop} (hI : Preserved I) (hs₀ : I s₀)
    (hmeets : Meets s₀ msgs s a md) : I s := by
  obtain ⟨-, -, hbefore, -, hearlier, -, -⟩ := hmeets
  exact hI.acceptTxs (hI.filter _ _ (hI.start hs₀ hbefore)) hearlier

theorem head {revertVec : List Reversion} {calls : List (HandlerCall G)}
    (htxs : blk.associatedTxs = txs ++ tx :: txs')
    (hearlier : acceptTxs blk txs (s₀.filterOldEpisodes blk.acceptingDaa) =
      .ok (s, revertVec, calls)) (haction : action tx.2.1 = some a) :
    Meets s₀ (.blkAccepted blk :: msgs) s a (blk.metadata tx.1 tx.2.2) :=
  .intro (List.nil_append _).symm List.not_mem_nil rfl htxs hearlier haction rfl

theorem blkAccepted {calls : List (HandlerCall G)} (hblock : s₀.acceptBlock blk = .ok (t, calls))
    (hmeets : Meets t msgs s a md) : Meets s₀ (.blkAccepted blk :: msgs) s a md := by
  obtain ⟨hmsgs, hexit, hbefore, htxs, hearlier, haction, hmd⟩ := hmeets
  refine .intro (congrArg (List.cons (.blkAccepted blk)) hmsgs) ?_
    (start_blkAccepted_of_ok hblock hbefore) htxs hearlier haction hmd
  simpa using hexit

theorem blkReverted {hash : Hash} {calls : List (HandlerCall G)}
    (hblock : s₀.revertBlock hash = .ok (t, calls)) (hmeets : Meets t msgs s a md) :
    Meets s₀ (.blkReverted hash :: msgs) s a md := by
  obtain ⟨hmsgs, hexit, hbefore, htxs, hearlier, haction, hmd⟩ := hmeets
  refine .intro (congrArg (List.cons (.blkReverted hash)) hmsgs) ?_
    (start_blkReverted_of_ok hblock hbefore) htxs hearlier haction hmd
  simpa using hexit

end Meets

section Total
variable {I : Engine G → Prop} {C : Engine G → EpisodeMessage G → PayloadMetadata → Prop}
  (hI : Preserved I)
  (hhandle : ∀ s a md, I s → C s a md → ∃ out, s.handleMessage a md = .ok out)
  (hrevert : ∀ (s : Engine G) id md, I s → ∃ out, s.handleMessage (.revert id) md = .ok out)

include hI

include hhandle in
theorem acceptTxs_total (hs : I s)
    (hC : ∀ done tx rest t revertVec calls a, txs = done ++ tx :: rest →
      acceptTxs blk done s = .ok (t, revertVec, calls) → action tx.2.1 = some a →
        C t a (blk.metadata tx.1 tx.2.2)) :
    ∃ out, acceptTxs blk txs s = .ok out := by
  induction txs generalizing s with
  | nil => exact ⟨_, rfl⟩
  | cons tx txs ih =>
    cases ha : (action tx.2.1 : Option (EpisodeMessage G)) with
    | none =>
      rw [acceptTxs_skip txs s ha]
      refine ih hs fun done tx' rest t rv cs a' heq hrun => ?_
      apply hC (tx :: done) tx' rest t rv cs a' (congrArg (List.cons tx) heq)
      rw [acceptTxs_skip done s ha]
      exact hrun
    | some a =>
      have hfirst := hC [] tx txs s [] [] a rfl rfl ha
      obtain ⟨out, hout⟩ := hhandle s a _ hs hfirst
      have hnext := hI.handle s _ a out (handleMessage_ok hout) hs
      obtain ⟨⟨u, rv, cs⟩, htail⟩ := ih hnext fun done tx' rest t rv cs a' heq hrun =>
        hC (tx :: done) tx' rest t _ _ a' (congrArg (List.cons tx) heq)
          (acceptTxs_cons_of_ok ha hout hrun)
      exact ⟨_, acceptTxs_cons_of_ok ha hout htail⟩

include hrevert in
theorem revertEntries_total {hash : Hash} {es : List Reversion} (hs : I s) :
    ∃ out, revertEntries hash es s = .ok out := by
  induction es generalizing s with
  | nil => exact ⟨_, rfl⟩
  | cons e es ih =>
    obtain ⟨⟨t, revert, calls⟩, hout⟩ := hrevert s e.1 { e.2 with acceptingHash := hash } hs
    have hhandles := handleMessage_ok hout
    obtain rfl : revert = none := hhandles.revert_none
    obtain ⟨⟨u, calls'⟩, htail⟩ := ih (hI.handle s _ _ _ hhandles hs)
    exact ⟨_, revertEntries_cons_of_ok hout htail⟩

include hrevert in
theorem revertBlock_total (hash : Hash) (hs : I s) : ∃ out, s.revertBlock hash = .ok out := by
  unfold revertBlock
  split
  · exact revertEntries_total hI hrevert (hI.revertMap s _ hs)
  · exact ⟨_, rfl⟩

include hhandle hrevert in
theorem start_total {msgs : List EngineMsg} (hs : I s)
    (hC : ∀ t a md, Meets s msgs t a md → C t a md) : ∃ out, start msgs s = .ok out := by
  induction msgs generalizing s with
  | nil => exact ⟨_, rfl⟩
  | cons m msgs ih =>
    cases m with
    | blkAccepted blk =>
      have htxs : ∃ out, acceptTxs blk blk.associatedTxs (s.filterOldEpisodes blk.acceptingDaa) =
          .ok out :=
        acceptTxs_total hI hhandle (hI.filter s _ hs) fun done tx rest t rv cs a heq hrun ha =>
          hC t a _ (.head heq hrun ha)
      obtain ⟨⟨s₁, rv, cs⟩, htxs⟩ := htxs
      have hblock : s.acceptBlock blk =
          .ok ({ s₁ with revertMap := s₁.revertMap.insert blk.acceptingHash rv }, cs) :=
        bind_of_ok _ htxs
      obtain ⟨⟨u, cs'⟩, hrest⟩ := ih (hI.acceptBlock hs hblock) fun t a md hmeets =>
        hC t a md (hmeets.blkAccepted hblock)
      exact ⟨_, start_blkAccepted_of_ok hblock hrest⟩
    | blkReverted hash =>
      obtain ⟨⟨s₁, cs⟩, hblock⟩ := revertBlock_total hI hrevert hash hs
      obtain ⟨⟨u, cs'⟩, hrest⟩ := ih (hI.revertBlock hs hblock) fun t a md hmeets =>
        hC t a md (hmeets.blkReverted hblock)
      exact ⟨_, start_blkReverted_of_ok hblock hrest⟩
    | exit => exact ⟨_, rfl⟩

end Total

theorem start_ok_iff {I : Engine G → Prop}
    {C : Engine G → EpisodeMessage G → PayloadMetadata → Prop} (hI : Preserved I)
    (hiff : ∀ s a md, I s → ((∃ out, s.handleMessage a md = .ok out) ↔ C s a md))
    (hrevert : ∀ (s : Engine G) id md, C s (.revert id) md) (hs : I s) (msgs : List EngineMsg) :
    (∃ out, start msgs s = .ok out) ↔ ∀ t a md, Meets s msgs t a md → C t a md := by
  constructor
  · rintro ⟨out, hrun⟩ t a md hmeets
    exact (hiff t a md (hmeets.invariant hI hs)).mp (hmeets.handled hrun)
  · apply start_total hI (fun t a md ht hC => (hiff t a md ht).mpr hC) ?_ hs
    intro t id md ht
    exact (hiff t _ md ht).mpr (hrevert t id md)

end Engine
end Kdapp
