import Kdapp.Engine.HandleMessage

/-! Runs of `start`: sequences of messages, reachable engines and invariants over them. -/

namespace Kdapp
open Outcome

variable [Crypto] {G : Type} [Episode G]

namespace Engine

/-- The engines `start` can leave or pass through, from an empty one. -/
def Reachable (s : Engine G) : Prop :=
  ∃ world msgs calls, start msgs (new world) = .ok (s, calls)

/-- The message of a transaction that `start` hands to `handle_message`. -/
def action (payload : Borsh.Bytes) : Option (EpisodeMessage G) :=
  match (EpisodeMessage.codec (G := G)).fromSlice payload with
  | none => none
  | some (.revert _) => none
  | some episodeAction => some episodeAction

/-- The messages of a block that `start` hands to `handle_message`. -/
def actions (blk : BlkAccepted) (txs : List (Hash × Borsh.Bytes × Option (List TxOutputInfo))) :
    List (EpisodeMessage G × PayloadMetadata) :=
  txs.filterMap fun tx => (action tx.2.1).map fun a => (a, blk.metadata tx.1 tx.2.2)

theorem actions_cons_none {blk : BlkAccepted}
    {tx : Hash × Borsh.Bytes × Option (List TxOutputInfo)}
    {txs : List (Hash × Borsh.Bytes × Option (List TxOutputInfo))}
    (h : (action tx.2.1 : Option (EpisodeMessage G)) = none) :
    (actions blk (tx :: txs) : List (EpisodeMessage G × _)) = actions blk txs := by
  simp only [actions, List.filterMap_cons, h, Option.map_none]

theorem actions_cons_some {blk : BlkAccepted}
    {tx : Hash × Borsh.Bytes × Option (List TxOutputInfo)}
    {txs : List (Hash × Borsh.Bytes × Option (List TxOutputInfo))} {a : EpisodeMessage G}
    (h : action tx.2.1 = some a) :
    actions blk (tx :: txs) = (a, blk.metadata tx.1 tx.2.2) :: actions blk txs := by
  simp only [actions, List.filterMap_cons, h, Option.map_some]

theorem action_ne_revert {payload : Borsh.Bytes} {a : EpisodeMessage G}
    (h : action payload = some a) (id : EpisodeId) : a ≠ .revert id := by
  unfold action at h
  split at h
  · cases h
  · cases h
  · rename_i hnot hdec
    obtain rfl := Option.some.inj h
    exact hnot id

theorem fromSlice_of_action {payload : Borsh.Bytes} {a : EpisodeMessage G}
    (h : action payload = some a) : (EpisodeMessage.codec (G := G)).fromSlice payload = some a := by
  unfold action at h
  split at h
  · cases h
  · cases h
  · rename_i hdec
    rw [hdec]
    exact h

theorem action_of_fromSlice {payload : Borsh.Bytes} {a : EpisodeMessage G}
    (h : (EpisodeMessage.codec (G := G)).fromSlice payload = some a)
    (hrevert : ∀ id, a ≠ .revert id) :
    action payload = some a := by
  unfold action
  rw [h]
  cases a with
  | revert id => exact absurd rfl (hrevert id)
  | _ => rfl

theorem acceptTxs_skip {blk : BlkAccepted} {tx : Hash × Borsh.Bytes × Option (List TxOutputInfo)}
    (txs : List (Hash × Borsh.Bytes × Option (List TxOutputInfo))) (s : Engine G)
    (h : (action tx.2.1 : Option (EpisodeMessage G)) = none) :
    acceptTxs blk (tx :: txs) s = acceptTxs blk txs s := by
  obtain ⟨txId, payload, txOutputs⟩ := tx
  unfold action at h
  rw [acceptTxs]
  split at h
  · rename_i hdec
    rw [hdec]
  · rename_i hdec
    rw [hdec]
  · cases h

theorem acceptTxs_action {blk : BlkAccepted}
    {tx : Hash × Borsh.Bytes × Option (List TxOutputInfo)}
    {txs : List (Hash × Borsh.Bytes × Option (List TxOutputInfo))} {a : EpisodeMessage G}
    {s s' : Engine G} {revertVec : List Reversion} {calls : List (HandlerCall G)}
    (ha : action tx.2.1 = some a)
    (h : acceptTxs blk (tx :: txs) s = .ok (s', revertVec, calls)) :
    ∃ out revertVec' calls', s.handleMessage a (blk.metadata tx.1 tx.2.2) = .ok out ∧
      acceptTxs blk txs out.engine = .ok (s', revertVec', calls') ∧
      revertVec = out.revert.toList ++ revertVec' ∧ calls = out.calls ++ calls' := by
  obtain ⟨txId, payload, txOutputs⟩ := tx
  have hdec := fromSlice_of_action ha
  rw [acceptTxs, hdec] at h
  cases a with
  | revert id => exact absurd rfl (action_ne_revert ha id)
  | _ =>
    obtain ⟨out, hout, hrest⟩ := bind_ok h
    obtain ⟨⟨s₁, revertVec', calls'⟩, htail, hr⟩ := bind_ok hrest
    cases hr
    exact ⟨out, revertVec', calls', hout, htail, rfl, rfl⟩

theorem acceptTxs_cons_ok {blk : BlkAccepted} {tx : Hash × Borsh.Bytes × Option (List TxOutputInfo)}
    {txs : List (Hash × Borsh.Bytes × Option (List TxOutputInfo))} {s s' : Engine G}
    {revertVec : List Reversion} {calls : List (HandlerCall G)}
    (h : acceptTxs blk (tx :: txs) s = .ok (s', revertVec, calls)) :
    (action tx.2.1 : Option (EpisodeMessage G)) = none ∧
        acceptTxs blk txs s = .ok (s', revertVec, calls) ∨
    ∃ a out revertVec' calls', action tx.2.1 = some a ∧
      s.handleMessage a (blk.metadata tx.1 tx.2.2) = .ok out ∧
      acceptTxs blk txs out.engine = .ok (s', revertVec', calls') ∧
      revertVec = out.revert.toList ++ revertVec' := by
  cases ha : (action tx.2.1 : Option (EpisodeMessage G)) with
  | none => exact .inl ⟨rfl, (acceptTxs_skip txs s ha).symm.trans h⟩
  | some a =>
    obtain ⟨out, rv, cs, hout, htail, hrv, -⟩ := acceptTxs_action ha h
    exact .inr ⟨a, out, rv, cs, rfl, hout, htail, hrv⟩

theorem acceptBlock_ok {s s' : Engine G} {blk : BlkAccepted} {calls : List (HandlerCall G)}
    (h : s.acceptBlock blk = .ok (s', calls)) :
    ∃ s₁ revertVec, acceptTxs blk blk.associatedTxs (s.filterOldEpisodes blk.acceptingDaa) =
        .ok (s₁, revertVec, calls) ∧
      s' = { s₁ with revertMap := s₁.revertMap.insert blk.acceptingHash revertVec } := by
  obtain ⟨⟨s₁, revertVec, calls₁⟩, hx, hr⟩ := bind_ok h
  cases hr
  exact ⟨s₁, revertVec, hx, rfl⟩

theorem acceptBlock_single {s s' : Engine G} {blk : BlkAccepted}
    {tx : Hash × Borsh.Bytes × Option (List TxOutputInfo)} {calls : List (HandlerCall G)}
    (htx : blk.associatedTxs = [tx]) (h : s.acceptBlock blk = .ok (s', calls)) :
    (action tx.2.1 : Option (EpisodeMessage G)) = none ∧ calls = [] ∧
        s'.episodes = (s.filterOldEpisodes blk.acceptingDaa).episodes ∧ s'.world = s.world ∨
      ∃ a out, action tx.2.1 = some a ∧
        (s.filterOldEpisodes blk.acceptingDaa).Handles (blk.metadata tx.1 tx.2.2) a out ∧
        calls = out.calls ∧ s'.episodes = out.engine.episodes ∧ s'.world = out.engine.world := by
  obtain ⟨s₁, revertVec, htxs, hs'⟩ := acceptBlock_ok h
  have hframe : s'.episodes = s₁.episodes ∧ s'.world = s₁.world := by
    rw [hs']
    exact ⟨rfl, rfl⟩
  rw [htx] at htxs
  cases ha : (action tx.2.1 : Option (EpisodeMessage G)) with
  | none =>
    rw [acceptTxs_skip [] _ ha] at htxs
    cases htxs
    exact .inl ⟨rfl, rfl, hframe.1, hframe.2.trans (filterOldEpisodes_frame s _).2⟩
  | some a =>
    obtain ⟨out, rv, cs, hout, htail, -, hcalls⟩ := acceptTxs_action ha htxs
    cases htail
    rw [List.append_nil] at hcalls
    exact .inr ⟨a, out, rfl, handleMessage_ok hout, hcalls, hframe⟩

theorem acceptTxs_frame {blk : BlkAccepted}
    {txs : List (Hash × Borsh.Bytes × Option (List TxOutputInfo))} {s s' : Engine G}
    {revertVec : List Reversion} {calls : List (HandlerCall G)}
    (h : acceptTxs blk txs s = .ok (s', revertVec, calls)) :
    s'.revertMap = s.revertMap ∧ s'.nextFiltering = s.nextFiltering := by
  induction txs generalizing s revertVec calls with
  | nil =>
    cases h
    exact ⟨rfl, rfl⟩
  | cons tx txs ih =>
    rcases acceptTxs_cons_ok h with ⟨-, hskip⟩ | ⟨a, out, rv, cs, -, hout, htail, -⟩
    · exact ih hskip
    · obtain ⟨hmap, hnext⟩ := ih htail
      obtain ⟨hmap₁, hnext₁⟩ := (handleMessage_ok hout).frame
      exact ⟨hmap.trans hmap₁, hnext.trans hnext₁⟩

theorem acceptBlock_revertMap {s s' : Engine G} {blk : BlkAccepted}
    {calls : List (HandlerCall G)} (h : s.acceptBlock blk = .ok (s', calls)) :
    ∃ revertVec, s'.revertMap = s.revertMap.insert blk.acceptingHash revertVec := by
  obtain ⟨s₁, revertVec, htxs, rfl⟩ := acceptBlock_ok h
  refine ⟨revertVec, ?_⟩
  change s₁.revertMap.insert _ _ = _
  rw [(acceptTxs_frame htxs).1, (filterOldEpisodes_frame s _).1]

theorem acceptBlock_nextFiltering {s s' : Engine G} {blk : BlkAccepted}
    {calls : List (HandlerCall G)} (h : s.acceptBlock blk = .ok (s', calls)) :
    s'.nextFiltering = (s.filterOldEpisodes blk.acceptingDaa).nextFiltering := by
  obtain ⟨s₁, revertVec, htxs, rfl⟩ := acceptBlock_ok h
  exact (acceptTxs_frame htxs).2

theorem revertEntries_cons_ok {hash : Hash} {e : Reversion} {es : List Reversion}
    {s s' : Engine G} {calls : List (HandlerCall G)}
    (h : revertEntries hash (e :: es) s = .ok (s', calls)) :
    ∃ t c c', s.handleMessage (.revert e.1) { e.2 with acceptingHash := hash } =
        .ok ⟨t, none, c⟩ ∧
      revertEntries hash es t = .ok (s', c') ∧ calls = c ++ c' := by
  obtain ⟨⟨t, revert, c⟩, hout, hrest⟩ := bind_ok h
  obtain rfl : revert = none := (handleMessage_ok hout).revert_none
  simp only [Option.isSome_none, Bool.false_eq_true, if_false] at hrest
  obtain ⟨⟨s₁, c'⟩, htail, hr⟩ := bind_ok hrest
  cases hr
  exact ⟨t, c, c', hout, htail, rfl⟩

theorem revertEntries_cons_of_ok {hash : Hash} {e : Reversion} {es : List Reversion}
    {s t s' : Engine G} {calls calls' : List (HandlerCall G)}
    (hhead : s.handleMessage (.revert e.1) { e.2 with acceptingHash := hash } =
      .ok ⟨t, none, calls⟩)
    (htail : revertEntries hash es t = .ok (s', calls')) :
    revertEntries hash (e :: es) s = .ok (s', calls ++ calls') := by
  unfold revertEntries
  rw [bind_of_ok _ hhead]
  simp only [Option.isSome_none, Bool.false_eq_true, if_false]
  rw [bind_of_ok _ htail]
  rfl

theorem revertEntries_append_of_ok {hash : Hash} {es fs : List Reversion}
    {s t s' : Engine G} {calls calls' : List (HandlerCall G)}
    (hes : revertEntries hash es s = .ok (t, calls))
    (hfs : revertEntries hash fs t = .ok (s', calls')) :
    revertEntries hash (es ++ fs) s = .ok (s', calls ++ calls') := by
  induction es generalizing s calls with
  | nil =>
    cases hes
    exact hfs
  | cons e es ih =>
    obtain ⟨u, c, c', hhead, htail, rfl⟩ := revertEntries_cons_ok hes
    rw [List.append_assoc]
    exact revertEntries_cons_of_ok hhead (ih htail)

theorem revertEntries_frame {hash : Hash} {es : List Reversion} {s s' : Engine G}
    {calls : List (HandlerCall G)} (h : revertEntries hash es s = .ok (s', calls)) :
    s'.revertMap = s.revertMap := by
  induction es generalizing s calls with
  | nil =>
    cases h
    rfl
  | cons e es ih =>
    obtain ⟨t, c, c', hhead, htail, -⟩ := revertEntries_cons_ok h
    exact (ih htail).trans (handleMessage_ok hhead).frame.1

theorem revertBlock_revertMap {s s' : Engine G} {hash : Hash} {calls : List (HandlerCall G)}
    (h : s.revertBlock hash = .ok (s', calls)) : s'.revertMap = s.revertMap.erase hash := by
  unfold revertBlock at h
  split at h
  · exact revertEntries_frame h
  · cases h
    have hnone : s.revertMap[hash]? = none := by assumption
    apply Std.ExtTreeMap.ext_getElem?
    grind

theorem start_blkAccepted_ok {blk : BlkAccepted} {ms : List EngineMsg} {s s' : Engine G}
    {calls : List (HandlerCall G)} (h : start (.blkAccepted blk :: ms) s = .ok (s', calls)) :
    ∃ t c c', s.acceptBlock blk = .ok (t, c) ∧ start ms t = .ok (s', c') ∧ calls = c ++ c' := by
  obtain ⟨⟨t, c⟩, hx, hrest⟩ := bind_ok h
  obtain ⟨⟨u, c'⟩, hy, hr⟩ := bind_ok hrest
  cases hr
  exact ⟨t, c, c', hx, hy, rfl⟩

theorem start_blkReverted_ok {hash : Hash} {ms : List EngineMsg} {s s' : Engine G}
    {calls : List (HandlerCall G)} (h : start (.blkReverted hash :: ms) s = .ok (s', calls)) :
    ∃ t c c', s.revertBlock hash = .ok (t, c) ∧ start ms t = .ok (s', c') ∧ calls = c ++ c' := by
  obtain ⟨⟨t, c⟩, hx, hrest⟩ := bind_ok h
  obtain ⟨⟨u, c'⟩, hy, hr⟩ := bind_ok hrest
  cases hr
  exact ⟨t, c, c', hx, hy, rfl⟩

theorem start_cons_ok {m : EngineMsg} {ms : List EngineMsg} {s s' : Engine G}
    {calls : List (HandlerCall G)} (h : start (m :: ms) s = .ok (s', calls)) :
    (∃ blk t c c', m = .blkAccepted blk ∧ s.acceptBlock blk = .ok (t, c) ∧
      start ms t = .ok (s', c')) ∨
    (∃ hash t c c', m = .blkReverted hash ∧ s.revertBlock hash = .ok (t, c) ∧
      start ms t = .ok (s', c')) ∨
    (m = .exit ∧ s' = s) := by
  cases m with
  | blkAccepted blk =>
    obtain ⟨t, c, c', hx, hy, -⟩ := start_blkAccepted_ok h
    exact .inl ⟨blk, t, c, c', rfl, hx, hy⟩
  | blkReverted hash =>
    obtain ⟨t, c, c', hx, hy, -⟩ := start_blkReverted_ok h
    exact .inr (.inl ⟨hash, t, c, c', rfl, hx, hy⟩)
  | exit =>
    cases h
    exact .inr (.inr ⟨rfl, rfl⟩)

theorem start_append_of_ok {ms ms' : List EngineMsg} {s t s' : Engine G}
    {calls calls' : List (HandlerCall G)} (hexit : EngineMsg.exit ∉ ms)
    (hms : start ms s = .ok (t, calls)) (hms' : start ms' t = .ok (s', calls')) :
    ∃ c, start (ms ++ ms') s = .ok (s', c) := by
  induction ms generalizing s calls with
  | nil =>
    cases hms
    exact ⟨calls', hms'⟩
  | cons m ms ih =>
    have htail : EngineMsg.exit ∉ ms := fun hm => hexit (List.mem_cons_of_mem _ hm)
    rcases start_cons_ok hms with ⟨blk, u, c, c', rfl, hx, hy⟩ | ⟨hash, u, c, c', rfl, hx, hy⟩ |
      ⟨rfl, -⟩
    · obtain ⟨d, hd⟩ := ih htail hy
      refine ⟨c ++ d, ?_⟩
      rw [List.cons_append, start, bind_of_ok _ hx]
      exact bind_of_ok _ hd
    · obtain ⟨d, hd⟩ := ih htail hy
      refine ⟨c ++ d, ?_⟩
      rw [List.cons_append, start, bind_of_ok _ hx]
      exact bind_of_ok _ hd
    · exact absurd List.mem_cons_self hexit

/-! ### The assertion of `start` holds -/

theorem ofEpisode_ne_assertEq {α : Type}
    (x : StateT (Episode.World G) (Except (Episode.Fault G)) α) (w : Episode.World G) :
    EngineM.ofEpisode x w ≠ .error .assertEq := by
  change (x w).mapError Panic.episode ≠ _
  cases x w <;> simp [Except.mapError]

theorem execute_ne_assertEq (ew : EpisodeWrapper G) (cmd : Episode.Command G)
    (auth : Option PubKey) (md : PayloadMetadata) (w : Episode.World G) :
    ew.execute cmd auth md w ≠ .error .assertEq := by
  refine bind_ne_error (ofEpisode_ne_assertEq _ w) fun a _ => ?_
  obtain ⟨⟨g, res⟩, w'⟩ := a
  cases res <;> exact ok_ne_error _ _

theorem handleCommand_ne_assertEq {s : Engine G} {id : EpisodeId} {cmd : Episode.Command G}
    {auth : Option PubKey} {md : PayloadMetadata}
    {exec : EpisodeWrapper G →
      EngineM G (EpisodeWrapper G × Except (EpisodeError (Episode.CommandError G)) Unit)}
    (hexec : ∀ ew w, exec ew w ≠ .error .assertEq) :
    s.handleCommand id cmd auth md exec ≠ .error .assertEq := by
  unfold handleCommand
  split
  · refine bind_ne_error (hexec _ _) fun a _ => ?_
    obtain ⟨⟨ew, res⟩, w'⟩ := a
    cases res <;> exact ok_ne_error _ _
  · exact ok_ne_error _ _

theorem handleMessage_ne_assertEq (s : Engine G) (a : EpisodeMessage G) (md : PayloadMetadata) :
    s.handleMessage a md ≠ .error .assertEq := by
  cases a with
  | newEpisode id ps =>
    rw [handleMessage]
    split
    · exact ok_ne_error _ _
    · refine bind_ne_error ?_ fun _ _ => ok_ne_error _ _
      exact bind_ne_error (ofEpisode_ne_assertEq _ _) fun _ _ => ok_ne_error _ _
  | signedCommand id cmd pk sig =>
    refine handleCommand_ne_assertEq fun ew w => ?_
    unfold EpisodeWrapper.executeSigned
    cases toMessage (Episode.codec (G := G)) cmd with
    | none =>
      intro h
      cases h
    | some m =>
      cases hv : verifySignature pk m sig with
      | true =>
        simp only [hv, if_true]
        exact execute_ne_assertEq ew cmd (some pk) md w
      | false =>
        simp only [hv, Bool.false_eq_true, if_false]
        exact ok_ne_error _ _
  | unsignedCommand id cmd =>
    exact handleCommand_ne_assertEq fun ew w => execute_ne_assertEq ew cmd none md w
  | revert id =>
    rw [handleMessage]
    split
    · rename_i wrapper hwrapper
      refine bind_ne_error ?_ fun a _ => ?_
      · unfold EpisodeWrapper.rollback
        cases wrapper.rollbackStack with
        | nil => exact ok_ne_error _ _
        | cons r rs => exact bind_ne_error (ofEpisode_ne_assertEq _ _) fun _ _ => ok_ne_error _ _
      · obtain ⟨⟨ew, res⟩, w'⟩ := a
        rcases res with (_ | _ | _ | _) | _ <;> exact ok_ne_error _ _
    · exact ok_ne_error _ _

theorem acceptTxs_ne_assertEq (blk : BlkAccepted)
    (txs : List (Hash × Borsh.Bytes × Option (List TxOutputInfo))) (s : Engine G) :
    acceptTxs blk txs s ≠ .error .assertEq := by
  induction txs generalizing s with
  | nil => exact ok_ne_error _ _
  | cons tx txs ih =>
    rw [acceptTxs]
    split
    · exact ih s
    · exact ih s
    · exact bind_ne_error (handleMessage_ne_assertEq s _ _) fun out _ =>
        bind_ne_error (ih out.engine) fun _ _ => ok_ne_error _ _

theorem revertEntries_ne_assertEq (hash : Hash) (es : List Reversion) (s : Engine G) :
    revertEntries hash es s ≠ .error .assertEq := by
  induction es generalizing s with
  | nil => exact ok_ne_error _ _
  | cons e es ih =>
    refine bind_ne_error (handleMessage_ne_assertEq s _ _) fun out hout => ?_
    have hnone := (handleMessage_ok hout).revert_none
    simp only [hnone, Option.isSome_none, Bool.false_eq_true, if_false]
    exact bind_ne_error (ih out.engine) fun _ _ => ok_ne_error _ _

theorem start_ne_assertEq (msgs : List EngineMsg) (s : Engine G) :
    start msgs s ≠ .error .assertEq := by
  induction msgs generalizing s with
  | nil => exact ok_ne_error _ _
  | cons m msgs ih =>
    cases m with
    | blkAccepted blk =>
      refine bind_ne_error ?_ fun a _ => bind_ne_error (ih a.1) fun _ _ => ok_ne_error _ _
      exact bind_ne_error (acceptTxs_ne_assertEq _ _ _) fun _ _ => ok_ne_error _ _
    | blkReverted hash =>
      refine bind_ne_error ?_ fun a _ => bind_ne_error (ih a.1) fun _ _ => ok_ne_error _ _
      unfold revertBlock
      split
      · exact revertEntries_ne_assertEq _ _ _
      · exact ok_ne_error _ _
    | exit => exact ok_ne_error _ _

/-! ### Invariants -/

structure Preserved (P : Engine G → Prop) : Prop where
  filter : ∀ s daaScore, P s → P (s.filterOldEpisodes daaScore)
  handle : ∀ s md a out, s.Handles md a out → P s → P out.engine
  revertMap : ∀ s m, P s → P { s with revertMap := m }

namespace Preserved
variable {P : Engine G → Prop}

theorem acceptTxs (hP : Preserved P) {blk : BlkAccepted}
    {txs : List (Hash × Borsh.Bytes × Option (List TxOutputInfo))} {s s' : Engine G}
    {revertVec : List Reversion} {calls : List (HandlerCall G)} (hs : P s)
    (h : acceptTxs blk txs s = .ok (s', revertVec, calls)) : P s' := by
  induction txs generalizing s revertVec calls with
  | nil =>
    cases h
    exact hs
  | cons tx txs ih =>
    rcases acceptTxs_cons_ok h with ⟨-, hskip⟩ | ⟨a, out, rv, cs, -, hout, htail, -⟩
    · exact ih hs hskip
    · exact ih (hP.handle s _ _ out (handleMessage_ok hout) hs) htail

theorem acceptBlock (hP : Preserved P) {s s' : Engine G} {blk : BlkAccepted}
    {calls : List (HandlerCall G)} (hs : P s) (h : s.acceptBlock blk = .ok (s', calls)) :
    P s' := by
  obtain ⟨s₁, revertVec, htxs, rfl⟩ := acceptBlock_ok h
  exact hP.revertMap _ _ (hP.acceptTxs (hP.filter s _ hs) htxs)

theorem revertEntries (hP : Preserved P) {hash : Hash} {es : List Reversion} {s s' : Engine G}
    {calls : List (HandlerCall G)} (hs : P s) (h : revertEntries hash es s = .ok (s', calls)) :
    P s' := by
  induction es generalizing s calls with
  | nil =>
    cases h
    exact hs
  | cons e es ih =>
    obtain ⟨t, c, c', hhead, htail, -⟩ := revertEntries_cons_ok h
    exact ih (hP.handle s _ _ _ (handleMessage_ok hhead) hs) htail

theorem revertBlock (hP : Preserved P) {s s' : Engine G} {hash : Hash}
    {calls : List (HandlerCall G)} (hs : P s) (h : s.revertBlock hash = .ok (s', calls)) :
    P s' := by
  unfold Engine.revertBlock at h
  split at h
  · exact hP.revertEntries (hP.revertMap _ _ hs) h
  · cases h
    exact hs

theorem start (hP : Preserved P) {msgs : List EngineMsg} {s s' : Engine G}
    {calls : List (HandlerCall G)} (hs : P s) (h : start msgs s = .ok (s', calls)) : P s' := by
  induction msgs generalizing s calls with
  | nil =>
    cases h
    exact hs
  | cons m msgs ih =>
    rcases start_cons_ok h with ⟨blk, t, c, c', rfl, hx, hy⟩ | ⟨hash, t, c, c', rfl, hx, hy⟩ |
      ⟨rfl, rfl⟩
    · exact ih (hP.acceptBlock hs hx) hy
    · exact ih (hP.revertBlock hs hx) hy
    · exact hs

end Preserved

theorem sameKeys_preserved : Preserved (SameKeys : Engine G → Prop) where
  filter _ daaScore hs := hs.filterOldEpisodes daaScore
  handle _ _ _ _ h hs := h.sameKeys hs
  revertMap _ _ hs := hs

theorem sameKeys_new (world : Episode.World G) : (new world : Engine G).SameKeys := by
  intro id
  simp only [new, Std.ExtTreeMap.not_mem_empty]

theorem Reachable.sameKeys {s : Engine G} (h : s.Reachable) : s.SameKeys := by
  obtain ⟨world, msgs, calls, hrun⟩ := h
  exact sameKeys_preserved.start (sameKeys_new world) hrun

def tallyBlock : BlkAccepted where
  acceptingHash := Hash.filled 1
  acceptingDaa := 1
  acceptingTime := 1
  associatedTxs := [(Hash.filled 2, [0, 7, 0, 0, 0, 0, 0, 0, 0], none),
    (Hash.filled 3, [2, 7, 0, 0, 0, 5], none)]

end Engine
end Kdapp
