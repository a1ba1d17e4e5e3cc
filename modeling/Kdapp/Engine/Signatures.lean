import Kdapp.Engine.Run

/-! What a signature authorises: the executions of a run, traced back to the delivered
messages and to the calls of `new_signed_command` that signed them. -/

namespace Kdapp
open Outcome

variable [Crypto] {G : Type} [Episode G]

def HandlerCall.execution :
    HandlerCall G → Option (EpisodeId × (Episode.Command G × Option PubKey) × PayloadMetadata)
  | .onCommand id _ cmd auth md => some (id, (cmd, auth), md)
  | _ => none

/-- A call of `new_signed_command` by the owner of `sk`. -/
structure Issued (G : Type) [Episode G] where
  episodeId : EpisodeId
  cmd : Episode.Command G
  sk : Crypto.SecretKey

def Issued.message (i : Issued G) : Option (EpisodeMessage G) :=
  EpisodeMessage.newSignedCommand i.episodeId i.cmd i.sk (Crypto.fromSecretKey i.sk)

/-- `i` produced the signature `sig` of the key `pk`, over the digest of `cmd`. -/
def Issued.Signs (i : Issued G) (pk : PubKey) (sig : Sig) (cmd : Episode.Command G) : Prop :=
  i.message = some (.signedCommand i.episodeId i.cmd pk sig) ∧
    toMessage (Episode.codec (G := G)) i.cmd = toMessage (Episode.codec (G := G)) cmd

namespace Engine

/-- The messages of all accepted blocks, in the order in which they are handled. -/
def delivered : List EngineMsg → List (EpisodeMessage G × PayloadMetadata)
  | .blkAccepted blk :: msgs => actions blk blk.associatedTxs ++ delivered msgs
  | .blkReverted _ :: msgs => delivered msgs
  | _ => []

theorem delivered_block (blk : BlkAccepted) :
    (delivered [.blkAccepted blk] : List (EpisodeMessage G × PayloadMetadata)) =
      actions blk blk.associatedTxs := List.append_nil _

theorem mem_delivered_block {blk : BlkAccepted} {p : EpisodeMessage G × PayloadMetadata} :
    p ∈ delivered [.blkAccepted blk] ↔ ∃ tx ∈ blk.associatedTxs, action tx.2.1 = some p.1 ∧
      p.2 = blk.metadata tx.1 tx.2.2 := by
  rw [delivered_block, actions, List.mem_filterMap]
  constructor
  · rintro ⟨tx, htx, hp⟩
    obtain ⟨a, ha, rfl⟩ := Option.map_eq_some_iff.mp hp
    exact ⟨tx, htx, ha, rfl⟩
  · rintro ⟨tx, htx, ha, hmetadata⟩
    exact ⟨tx, htx, Option.map_eq_some_iff.mpr ⟨p.1, ha, by rw [← hmetadata]⟩⟩

/-- Every signature in the run that verifies comes from one of the issued commands. -/
def Ideal (issued : List (Issued G)) (msgs : List EngineMsg) : Prop :=
  ∀ id cmd pk sig md, (.signedCommand id cmd pk sig, md) ∈ delivered msgs →
    EpisodeMessage.SignatureValid (.signedCommand id cmd pk sig : EpisodeMessage G) →
      ∃ i ∈ issued, i.Signs pk sig cmd

/-- The executions that `calls` report are those of some of the messages, in order, one
for each message, and all of them carry valid signatures. -/
def ExecutesSome (messages : List (EpisodeMessage G × PayloadMetadata))
    (calls : List (HandlerCall G)) : Prop :=
  ∃ executed : List (EpisodeMessage G × PayloadMetadata), executed.Sublist messages ∧
    (calls.filterMap HandlerCall.execution).map some =
      executed.map (fun p => p.1.command.map fun c => (p.1.episodeId, c, p.2)) ∧
    ∀ p ∈ executed, p.1.SignatureValid

theorem ExecutesSome.nil (messages : List (EpisodeMessage G × PayloadMetadata)) :
    ExecutesSome messages [] :=
  ⟨[], List.nil_sublist _, rfl, fun _ hp => absurd hp List.not_mem_nil⟩

theorem ExecutesSome.append {ms ms' : List (EpisodeMessage G × PayloadMetadata)}
    {calls calls' : List (HandlerCall G)} (h : ExecutesSome ms calls)
    (h' : ExecutesSome ms' calls') : ExecutesSome (ms ++ ms') (calls ++ calls') := by
  obtain ⟨executed, hsub, heq, hvalid⟩ := h
  obtain ⟨executed', hsub', heq', hvalid'⟩ := h'
  refine ⟨executed ++ executed', hsub.append hsub', ?_, fun p hp => ?_⟩
  · rw [List.filterMap_append, List.map_append, List.map_append, heq, heq']
  · rcases List.mem_append.mp hp with hp | hp
    · exact hvalid p hp
    · exact hvalid' p hp

theorem Handles.executesSome {s : Engine G} {md : PayloadMetadata} {a : EpisodeMessage G}
    {out : Handled G} (h : s.Handles md a out) : ExecutesSome [(a, md)] out.calls := by
  have hskip : ∀ calls : List (HandlerCall G), calls.filterMap HandlerCall.execution = [] →
      ExecutesSome [(a, md)] calls := by
    intro calls hnone
    refine ⟨[], List.nil_sublist _, ?_, fun p hp => absurd hp List.not_mem_nil⟩
    rw [hnone]
    rfl
  cases h with
  | executed hcmd hsig hw hexec =>
    refine ⟨[(a, md)], List.Sublist.refl _, ?_, fun p hp => ?_⟩
    · simp [HandlerCall.execution, hcmd]
    · obtain rfl := List.mem_singleton.mp hp
      exact hsig
  | _ => exact hskip _ rfl

theorem Handles.revert_executions {s : Engine G} {md : PayloadMetadata} {id : EpisodeId}
    {out : Handled G} (h : s.Handles md (.revert id) out) :
    out.calls.filterMap HandlerCall.execution = [] := by
  cases h with
  | rejected hcmd => cases hcmd
  | executed hcmd => cases hcmd
  | _ => rfl

theorem acceptTxs_executesSome {blk : BlkAccepted}
    {txs : List (Hash × Borsh.Bytes × Option (List TxOutputInfo))} {s s' : Engine G}
    {revertVec : List Reversion} {calls : List (HandlerCall G)}
    (h : acceptTxs blk txs s = .ok (s', revertVec, calls)) :
    ExecutesSome (actions blk txs) calls := by
  induction txs generalizing s revertVec calls with
  | nil =>
    cases h
    exact .nil _
  | cons tx txs ih =>
    cases ha : (action tx.2.1 : Option (EpisodeMessage G)) with
    | none =>
      rw [actions_cons_none ha]
      rw [acceptTxs_skip txs s ha] at h
      exact ih h
    | some a =>
      obtain ⟨out, rv, calls', hout, htail, -, rfl⟩ := acceptTxs_action ha h
      rw [actions_cons_some ha]
      have hone := (handleMessage_ok hout).executesSome
      exact hone.append (ih htail)

theorem revertEntries_executions {hash : Hash} {es : List Reversion} {s s' : Engine G}
    {calls : List (HandlerCall G)} (h : revertEntries hash es s = .ok (s', calls)) :
    calls.filterMap HandlerCall.execution = [] := by
  induction es generalizing s calls with
  | nil =>
    cases h
    rfl
  | cons e es ih =>
    obtain ⟨t, c, c', hhead, htail, rfl⟩ := revertEntries_cons_ok h
    have hone := (handleMessage_ok hhead).revert_executions
    rw [List.filterMap_append, hone, ih htail]
    rfl

theorem revertBlock_executesSome {s s' : Engine G} {hash : Hash} {calls : List (HandlerCall G)}
    (h : s.revertBlock hash = .ok (s', calls)) : ExecutesSome [] calls := by
  refine ⟨[], List.Sublist.refl _, ?_, fun p hp => absurd hp List.not_mem_nil⟩
  unfold revertBlock at h
  split at h
  · rw [revertEntries_executions h]
    rfl
  · cases h
    rfl

theorem start_executesSome {msgs : List EngineMsg} {s s' : Engine G}
    {calls : List (HandlerCall G)} (h : start msgs s = .ok (s', calls)) :
    ExecutesSome (delivered msgs) calls := by
  induction msgs generalizing s calls with
  | nil =>
    cases h
    exact .nil _
  | cons m msgs ih =>
    cases m with
    | blkAccepted blk =>
      obtain ⟨⟨t, c⟩, hblk, hrest⟩ := bind_ok h
      obtain ⟨⟨u, c'⟩, htail, hr⟩ := bind_ok hrest
      cases hr
      obtain ⟨s₁, revertVec, htxs, -⟩ := acceptBlock_ok hblk
      exact (acceptTxs_executesSome htxs).append (ih htail)
    | blkReverted hash =>
      obtain ⟨⟨t, c⟩, hblk, hrest⟩ := bind_ok h
      obtain ⟨⟨u, c'⟩, htail, hr⟩ := bind_ok hrest
      cases hr
      exact (revertBlock_executesSome hblk).append (ih htail)
    | exit =>
      cases h
      exact .nil _

/-- The messages that carry the signature `sig`. -/
def carries (sig : Sig) : EpisodeMessage G → Bool
  | .signedCommand _ _ _ sig' => sig' = sig
  | _ => false

/-- Under ideal signatures the executions of a run are those of some of the delivered
messages, at most one for each message, so a signature executes at most as often as it is
delivered; each runs in the episode its message names, and a signed one runs a command
whose digest the owner of the key signed. -/
theorem signature_authorises {issued : List (Issued G)} {world : Episode.World G}
    {msgs : List EngineMsg} {s : Engine G} {calls : List (HandlerCall G)}
    (hideal : Ideal issued msgs) (h : start msgs (new world) = .ok (s, calls)) :
    ∃ executed : List (EpisodeMessage G × PayloadMetadata), executed.Sublist (delivered msgs) ∧
      (calls.filterMap HandlerCall.execution).map some =
        executed.map (fun p => p.1.command.map fun c => (p.1.episodeId, c, p.2)) ∧
      (∀ sig, executed.countP (fun p => carries sig p.1) ≤
        (delivered msgs).countP fun p : EpisodeMessage G × _ => carries sig p.1) ∧
      ∀ id cmd pk sig md, (.signedCommand id cmd pk sig, md) ∈ executed →
        ∃ i ∈ issued, i.Signs pk sig cmd := by
  obtain ⟨executed, hsub, heq, hvalid⟩ := start_executesSome h
  refine ⟨executed, hsub, heq, fun sig => hsub.countP_le, fun id cmd pk sig md hm => ?_⟩
  exact hideal id cmd pk sig md (hsub.subset hm) (hvalid _ hm)

end Engine
end Kdapp

namespace Kdapp.Engine
open Outcome
attribute [local instance] idealCrypto

def fiveForSeven : Issued Tally := ⟨7, (5 : UInt8), (1 : UInt8)⟩

def copyOfFive (id : EpisodeId) : EpisodeMessage Tally :=
  .signedCommand id (5 : UInt8) (1 : UInt8) (signMessage (1 : UInt8) (Crypto.sha256 [5]))

def payload (m : EpisodeMessage Tally) : Borsh.Bytes :=
  (EpisodeMessage.codec.serialize m).getD []

def txOf (m : EpisodeMessage Tally) : Hash × Borsh.Bytes × Option (List TxOutputInfo) :=
  (Hash.filled 2, payload m, none)

/-- Creates two episodes and carries the signed command to the first twice, to the second once. -/
def replayBlock : BlkAccepted where
  acceptingHash := Hash.filled 1
  acceptingDaa := 1
  acceptingTime := 1
  associatedTxs := [.newEpisode 7 [], .newEpisode 8 [], copyOfFive 7, copyOfFive 7,
    copyOfFive 8].map txOf

theorem delivered_replayBlock : delivered [.blkAccepted replayBlock] =
    [.newEpisode 7 [], .newEpisode 8 [], copyOfFive 7, copyOfFive 7, copyOfFive 8].map
      fun m : EpisodeMessage Tally => (m, replayBlock.metadata (txOf m).1 none) := by
  rfl

theorem ideal_replayBlock : Ideal [fiveForSeven] [.blkAccepted replayBlock] := by
  intro id cmd pk sig md hm hvalid
  refine ⟨fiveForSeven, List.mem_singleton_self _, ?_⟩
  rw [delivered_replayBlock] at hm
  simp only [List.map_cons, List.map_nil, List.mem_cons, List.not_mem_nil, or_false] at hm
  rcases hm with hm | hm | hm | hm | hm <;> cases hm <;> exact ⟨rfl, rfl⟩

/-- The replayed command under the theorem. -/
theorem signature_authorises_tally :
    ∃ s calls, start [.blkAccepted replayBlock] (new () : Engine Tally) = .ok (s, calls) ∧
    ∃ executed : List (EpisodeMessage Tally × PayloadMetadata),
      executed.Sublist (delivered [.blkAccepted replayBlock]) ∧
      (calls.filterMap HandlerCall.execution).map some =
        executed.map (fun p => p.1.command.map fun c => (p.1.episodeId, c, p.2)) ∧
      (∀ sig, executed.countP (fun p => carries sig p.1) ≤
        (delivered [.blkAccepted replayBlock]).countP
          fun p : EpisodeMessage Tally × _ => carries sig p.1) ∧
      ∀ id cmd pk sig md, (.signedCommand id cmd pk sig, md) ∈ executed →
        ∃ i ∈ [fiveForSeven], i.Signs pk sig cmd := by
  obtain ⟨⟨s, calls⟩, h⟩ := exists_of_isOk
    (show (start [.blkAccepted replayBlock] (new () : Engine Tally)).isOk = true by decide)
  exact ⟨s, calls, h, signature_authorises ideal_replayBlock h⟩

/-- The one signature executes twice in its own episode and once in another, and nothing is
rolled back. -/
theorem signature_replayed :
    Ideal [fiveForSeven] [.blkAccepted replayBlock] ∧
    ∃ s calls, start [.blkAccepted replayBlock] (new () : Engine Tally) = .ok (s, calls) ∧
      (calls.filterMap HandlerCall.execution).map (fun e => (e.1, e.2.1)) =
        [(7, (5 : UInt8), some (1 : UInt8)), (7, (5 : UInt8), some (1 : UInt8)),
          (8, (5 : UInt8), some (1 : UInt8))] ∧
      s.episodes[(7 : EpisodeId)]? = some ⟨⟨10⟩, [(5 : ℕ), (0 : ℕ)]⟩ ∧
      s.episodes[(8 : EpisodeId)]? = some ⟨⟨5⟩, [(0 : ℕ)]⟩ := by
  exact ⟨ideal_replayBlock, _, _, rfl, rfl, rfl, rfl⟩

end Kdapp.Engine
