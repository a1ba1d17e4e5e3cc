import Kdapp.CommentIt.Steps

/-! When signing in is fresh: the nonce that a participant signs is its own choice, so each
response has to answer the active challenge of its own accord. -/

namespace Kdapp.CommentIt
open SignatureVerifier (verify decode digest)
open CommentBoard (displayKey)
open Transition InOrder

variable [Crypto]

namespace Record

/-- The participant `key` revoked its session. -/
def Revokes (r : Record) (key : String) : Prop :=
  ∃ pk sessionToken signature, r.call.authorization = some pk ∧ displayKey pk = key ∧
    r.call.cmd = .revokeSession sessionToken signature

def Responds (r : Record) (pk : PubKey) (signature : String) : Prop :=
  r.call.authorization = some pk ∧ ∃ nonce, r.call.cmd = .submitResponse signature nonce

/-- The response is a signature over the challenge that was active for its signer. -/
def Answers (r : Record) (pk : PubKey) (challenge signature : String) : Prop :=
  r.Responds pk signature ∧ r.before.activeChallenges[displayKey pk]? = some challenge ∧
    verify pk challenge signature = true

def accepted (r : Record) : Option (PubKey × Sig) :=
  match r.call.authorization, r.call.cmd with
  | some pk, .submitResponse signature _ => (decode signature).map (pk, ·)
  | _, _ => none

variable {r : Record} {pk : PubKey} {sig : Sig} {signature : String}

theorem Responds.accepted (h : r.Responds pk signature) :
    r.accepted = (decode signature).map (pk, ·) := by
  obtain ⟨hauth, nonce, hcmd⟩ := h
  unfold Record.accepted
  rw [hauth, hcmd]

theorem exists_of_accepted (h : r.accepted = some (pk, sig)) :
    ∃ signature, r.Responds pk signature ∧ decode signature = some sig := by
  unfold Record.accepted at h
  split at h
  · rename_i pk' signature nonce hauth hcmd
    obtain ⟨sig', hsig, hpair⟩ := Option.map_eq_some_iff.mp h
    cases hpair
    exact ⟨signature, ⟨hauth, nonce, hcmd⟩, hsig⟩
  · cases h

end Record

/-- Something of the kind was accepted, and `key` has not revoked its session since. -/
def Since (P : Record → Prop) (key : String) : List Record → Prop
  | [] => False
  | r :: log => P r ∨ ¬ r.Revokes key ∧ Since P key log

theorem Since.mono {P P' : Record → Prop} {key : String} {log : List Record}
    (h : ∀ r ∈ log, P r → P' r) (hsince : Since P key log) : Since P' key log := by
  induction log with
  | nil => exact hsince
  | cons r log ih =>
    rcases hsince with hr | ⟨hrevokes, hrest⟩
    · exact .inl (h r List.mem_cons_self hr)
    · exact .inr ⟨hrevokes, ih (fun r' hr' => h r' (List.mem_cons_of_mem _ hr')) hrest⟩

/-- A participant that is signed in has answered its challenge since it last revoked its session,
and no signature let the same participant in twice. -/
structure Authentic (node : Node) : Prop where
  fresh : ∀ key ∈ node.room.authenticatedParticipants, Since (fun r =>
    ∃ pk challenge signature, displayKey pk = key ∧ r.Answers pk challenge signature) key node.log
  once : (node.log.filterMap Record.accepted).Nodup

/-- A response that passes the checks of the code answers the active challenge of its signer;
and where the signer answered the same challenge before, it was with another signature. -/
def AnswersActive (node : Node) (c : Call) : Prop :=
  ∀ pk signature nonce, c.cmd = .submitResponse signature nonce →
    node.room.Admits c.authorization c.cmd pk →
    ∃ challenge, node.room.activeChallenges[displayKey pk]? = some challenge ∧
      verify pk challenge signature = true ∧
      ∀ r ∈ node.log, ∀ challenge' signature', r.Answers pk challenge' signature' →
        digest challenge' = digest challenge → decode signature' ≠ decode signature

/-- Who responded since its last revocation is signed in, and every response that was let in
answered the challenge then active. -/
structure Tracked (node : Node) : Prop where
  signedIn : ∀ key, Since (fun r => ∃ pk signature, displayKey pk = key ∧
    r.Responds pk signature) key node.log → key ∈ node.room.authenticatedParticipants
  answered : ∀ r ∈ node.log, ∀ pk signature, r.Responds pk signature →
    ∃ challenge, r.Answers pk challenge signature

theorem start_authentic (participants : List PubKey) (md : PayloadMetadata) :
    Authentic (.start participants md) where
  fresh _ hkey := absurd hkey Std.ExtTreeSet.not_mem_empty
  once := List.nodup_nil

theorem start_tracked (participants : List PubKey) (md : PayloadMetadata) :
    Tracked (.start participants md) where
  signedIn _ h := h.elim
  answered _ hr := absurd hr List.not_mem_nil

namespace Node
variable {node : Node} {c : Call} {pk pk' : PubKey} {key signature : String}

def newest (node : Node) (c : Call) (pk : PubKey) : Record :=
  ⟨node.room, c, node.room.token pk c.cmd⟩

theorem newest_revokes (hadmits : node.room.Admits c.authorization c.cmd pk) :
    (node.newest c pk).Revokes key ↔ displayKey pk = key ∧
      ∃ sessionToken signature, c.cmd = .revokeSession sessionToken signature := by
  constructor
  · rintro ⟨pk', sessionToken, signature, hauth, hkey, hcmd⟩
    obtain rfl := Option.some.inj (hauth.symm.trans hadmits.signed)
    exact ⟨hkey, sessionToken, signature, hcmd⟩
  · rintro ⟨hkey, sessionToken, signature, hcmd⟩
    exact ⟨pk, sessionToken, signature, hadmits.signed, hkey, hcmd⟩

theorem newest_responds (hadmits : node.room.Admits c.authorization c.cmd pk)
    (h : (node.newest c pk).Responds pk' signature) :
    pk' = pk ∧ ∃ nonce, c.cmd = .submitResponse signature nonce := by
  obtain ⟨hauth, hcmd⟩ := h
  exact ⟨Option.some.inj (hauth.symm.trans hadmits.signed), hcmd⟩

variable [RandChaCha]

section Quiet
variable (hadmits : node.room.Admits c.authorization c.cmd pk)
  (hquiet : ∀ signature nonce, c.cmd ≠ .submitResponse signature nonce)
include hadmits hquiet

theorem mem_accepted_quiet :
    key ∈ (node.accepted c pk).room.authenticatedParticipants ↔
      key ∈ node.room.authenticatedParticipants ∧ ¬ (node.newest c pk).Revokes key := by
  rw [newest_revokes hadmits]
  unfold accepted
  cases hcmd : c.cmd with
  | submitResponse signature nonce => exact absurd hcmd (hquiet signature nonce)
  | revokeSession sessionToken signature =>
    have hany : ∃ t s, UnifiedCommand.revokeSession sessionToken signature = .revokeSession t s :=
      ⟨_, _, rfl⟩
    simp only [AuthWithCommentsEpisode.applied, FiniteSet.mem_erase, and_iff_left hany, ne_eq,
      and_comm]
  | requestChallenge => simp [AuthWithCommentsEpisode.applied]
  | submitComment text sessionToken => simp [AuthWithCommentsEpisode.applied]

omit [RandChaCha] in
theorem newest_not_responds (pk' : PubKey) (signature : String) :
    ¬ (node.newest c pk).Responds pk' signature := by
  intro h
  obtain ⟨-, nonce, hcmd⟩ := newest_responds hadmits h
  exact hquiet signature nonce hcmd

theorem authentic_quiet (h : Authentic node) : Authentic (node.accepted c pk) where
  fresh key hkey := by
    obtain ⟨hbefore, hrevokes⟩ := (mem_accepted_quiet hadmits hquiet).mp hkey
    exact .inr ⟨hrevokes, h.fresh key hbefore⟩
  once := by
    have hnone : (node.newest c pk).accepted = none := by
      rw [Option.eq_none_iff_forall_ne_some]
      rintro ⟨pk', sig⟩ haccepted
      obtain ⟨signature, hresponds, -⟩ := Record.exists_of_accepted haccepted
      exact newest_not_responds hadmits hquiet pk' signature hresponds
    exact (List.filterMap_cons_none hnone).symm ▸ h.once

theorem tracked_quiet (h : Tracked node) : Tracked (node.accepted c pk) where
  signedIn key hsince := by
    rcases hsince with ⟨pk', signature, -, hresponds⟩ | ⟨hrevokes, hsince⟩
    · exact absurd hresponds (newest_not_responds hadmits hquiet pk' signature)
    · exact (mem_accepted_quiet hadmits hquiet).mpr ⟨h.signedIn key hsince, hrevokes⟩
  answered r hr pk' signature hresponds := by
    rcases List.mem_cons.mp hr with rfl | hr
    · exact absurd hresponds (newest_not_responds hadmits hquiet pk' signature)
    · exact h.answered r hr pk' signature hresponds

end Quiet

section Response
variable {nonce : String} (hadmits : node.room.Admits c.authorization c.cmd pk)
  (hcmd : c.cmd = .submitResponse signature nonce)
include hadmits hcmd

omit hadmits in
theorem mem_accepted_response :
    key ∈ (node.accepted c pk).room.authenticatedParticipants ↔
      displayKey pk = key ∨ key ∈ node.room.authenticatedParticipants := by
  unfold accepted
  rw [hcmd]
  exact FiniteSet.mem_insert _ _ _

omit [RandChaCha] in
theorem response_not_revokes : ¬ (node.newest c pk).Revokes key := by
  rw [newest_revokes hadmits, hcmd]
  rintro ⟨-, _, _, h⟩
  cases h

omit [RandChaCha] in
theorem response_responds : (node.newest c pk).Responds pk signature :=
  ⟨hadmits.signed, nonce, hcmd⟩

omit [RandChaCha] in
theorem response_checked :
    displayKey pk ∉ node.room.authenticatedParticipants ∧ verify pk nonce signature = true := by
  have hallowed := hadmits.allowed
  rw [hcmd] at hallowed
  exact hallowed

theorem tracked_response {challenge : String} (h : Tracked node)
    (hanswers : (node.newest c pk).Answers pk challenge signature) :
    Tracked (node.accepted c pk) where
  signedIn key hsince := by
    rw [mem_accepted_response hcmd]
    rcases hsince with ⟨pk', signature', hkey, hresponds⟩ | ⟨-, hsince⟩
    · obtain ⟨rfl, -⟩ := newest_responds hadmits hresponds
      exact .inl hkey
    · exact .inr (h.signedIn key hsince)
  answered r hr pk' signature' hresponds := by
    rcases List.mem_cons.mp hr with rfl | hr
    · obtain ⟨rfl, nonce', hcmd'⟩ := newest_responds hadmits hresponds
      cases hcmd.symm.trans hcmd'
      exact ⟨challenge, hanswers⟩
    · exact h.answered r hr pk' signature' hresponds

theorem authentic_response_iff (hideal : IdealSignatures) (h : Authentic node)
    (htracked : Tracked node) :
    Authentic (node.accepted c pk) ↔ ∃ challenge,
      node.room.activeChallenges[displayKey pk]? = some challenge ∧
        verify pk challenge signature = true ∧
        ∀ r ∈ node.log, ∀ challenge' signature', r.Answers pk challenge' signature' →
          digest challenge' = digest challenge → decode signature' ≠ decode signature := by
  obtain ⟨hnew, hverify⟩ := response_checked hadmits hcmd
  obtain ⟨sig, msg, hsig, hmsg, -⟩ := SignatureVerifier.verify_iff.mp hverify
  have haccepted : (node.newest c pk).accepted = some (pk, sig) := by
    rw [(response_responds hadmits hcmd).accepted, hsig]
    rfl
  have honce : ((node.accepted c pk).log.filterMap Record.accepted).Nodup ↔
      (pk, sig) ∉ node.log.filterMap Record.accepted := by
    have hcons : (node.accepted c pk).log.filterMap Record.accepted =
        (pk, sig) :: node.log.filterMap Record.accepted := List.filterMap_cons_some haccepted
    rw [hcons, List.nodup_cons, and_iff_left h.once]
  constructor
  · rintro ⟨hfresh, hnodup⟩
    rw [honce] at hnodup
    have hkey := hfresh _ ((mem_accepted_response hcmd).mpr (.inl rfl))
    rcases hkey with ⟨pk', challenge, signature', -, hresponds, hactive, hanswer⟩ | ⟨-, hsince⟩
    · obtain ⟨rfl, nonce', hcmd'⟩ := newest_responds hadmits hresponds
      cases hcmd.symm.trans hcmd'
      refine ⟨challenge, hactive, hanswer, ?_⟩
      intro r hr challenge' signature' hanswers' _ hsame
      apply hnodup
      refine List.mem_filterMap.mpr ⟨r, hr, ?_⟩
      rw [hanswers'.1.accepted, hsame, hsig]
      rfl
    · -- an earlier answer would have left the participant signed in
      refine absurd (htracked.signedIn _ (hsince.mono ?_)) hnew
      rintro r - ⟨pk', challenge, signature', hkey, hanswers⟩
      exact ⟨pk', signature', hkey, hanswers.1⟩
  · rintro ⟨challenge, hactive, hanswer, hother⟩
    refine ⟨fun key hkey => ?_, honce.mpr fun hmem => ?_⟩
    · rcases (mem_accepted_response hcmd).mp hkey with hkey | hkey
      · exact .inl ⟨pk, challenge, signature, hkey, response_responds hadmits hcmd, hactive,
          hanswer⟩
      · exact .inr ⟨response_not_revokes hadmits hcmd, h.fresh key hkey⟩
    · -- the same signature answered a challenge before, and it is valid for one message only
      obtain ⟨r, hr, hr_accepted⟩ := List.mem_filterMap.mp hmem
      obtain ⟨signature', hresponds, hsig'⟩ := Record.exists_of_accepted hr_accepted
      obtain ⟨challenge', hanswers'⟩ := htracked.answered r hr pk signature' hresponds
      obtain ⟨s, m, hs, hm, hvalid⟩ := SignatureVerifier.verify_iff.mp hanswer
      obtain ⟨s', m', hs', hm', hvalid'⟩ := SignatureVerifier.verify_iff.mp hanswers'.2.2
      cases hs.symm.trans hsig
      cases hs'.symm.trans hsig'
      have hdigest : m' = m := hideal pk m' m _ hvalid' hvalid
      apply hother r hr challenge' signature' hanswers'
      · rw [hm', hm, hdigest]
      · rw [hsig', hsig]

end Response

theorem tracked_step (h : Tracked node) (hactive : AnswersActive node c) :
    Tracked (node.call c) := by
  rcases node.call_cases c with ⟨-, hsame⟩ | ⟨pk, hadmits, haccepts⟩
  · rw [hsame]
    exact h
  rw [haccepts]
  by_cases hresponse : ∃ signature nonce, c.cmd = .submitResponse signature nonce
  · obtain ⟨signature, nonce, hcmd⟩ := hresponse
    obtain ⟨challenge, hchallenge, hverify, -⟩ := hactive pk signature nonce hcmd hadmits
    exact tracked_response hadmits hcmd h
      ⟨response_responds hadmits hcmd, hchallenge, hverify⟩
  · exact tracked_quiet hadmits (fun signature nonce h => hresponse ⟨signature, nonce, h⟩) h

theorem authentic_step_iff (hideal : IdealSignatures) (h : Authentic node)
    (htracked : Tracked node) : Authentic (node.call c) ↔ AnswersActive node c := by
  rcases node.call_cases c with ⟨hnot, hsame⟩ | ⟨pk, hadmits, haccepts⟩
  · rw [hsame]
    exact iff_of_true h fun pk _ _ _ hadmits => absurd hadmits (hnot pk)
  rw [haccepts]
  by_cases hresponse : ∃ signature nonce, c.cmd = .submitResponse signature nonce
  · obtain ⟨signature, nonce, hcmd⟩ := hresponse
    rw [authentic_response_iff hadmits hcmd hideal h htracked]
    constructor
    · intro hanswers pk' signature' nonce' hcmd' hadmits'
      cases hcmd.symm.trans hcmd'
      obtain rfl := hadmits.unique hadmits'
      exact hanswers
    · intro hactive
      exact hactive pk signature nonce hcmd hadmits
  · have hquiet : ∀ signature nonce, c.cmd ≠ .submitResponse signature nonce :=
      fun signature nonce h => hresponse ⟨signature, nonce, h⟩
    exact iff_of_true (authentic_quiet hadmits hquiet h)
      fun pk' signature nonce hcmd => absurd hcmd (hquiet signature nonce)

end Node

variable [RandChaCha]

/-- In every run of commands, signing in is fresh if and only if each response that is let in
answers the active challenge. -/
theorem freshness_iff (hideal : IdealSignatures) (participants : List PubKey)
    (md : PayloadMetadata) (calls : List Call) :
    Always Node.call (.start participants md) Authentic calls ↔
      Throughout (fun earlier c =>
        AnswersActive (after Node.call (.start participants md) earlier) c) calls :=
  always_iff_throughout (start_authentic participants md) (start_tracked participants md)
    (fun _ _ _ htracked hactive => Node.tracked_step htracked hactive)
    (fun _ _ h htracked => Node.authentic_step_iff hideal h htracked) calls

end Kdapp.CommentIt

namespace Kdapp.CommentIt
open Transition
open SignatureVerifier (signText)
attribute [local instance] idealCrypto seedRand

def callOf (pk : UInt8) (acceptingTime : UInt64) (cmd : UnifiedCommand) : Call :=
  ⟨cmd, some (pk : PubKey), metadataAt acceptingTime⟩

/-- Key 1 signs in, revokes its session, requests another challenge and sends the first response
again. -/
def replay : List Call :=
  let response := UnifiedCommand.submitResponse (signText (1 : UInt8) "auth_10_10") "auth_10_10"
  [callOf 1 10 .requestChallenge, callOf 1 11 response,
    callOf 1 12 (.revokeSession "session" (signText (1 : UInt8) "session")),
    callOf 1 20 .requestChallenge, callOf 1 21 response]

theorem replay_unauthentic :
    ¬ Always Node.call (.start [(1 : UInt8)] (metadataAt 1)) Authentic replay := by
  intro h
  have htwice : ¬ ((after Node.call (.start [(1 : UInt8)] (metadataAt 1))
      (replay.take 5)).log.filterMap Record.accepted).Nodup := by decide +kernel
  exact htwice (h 5).once

theorem freshness_at :
    (¬ Always Node.call (.start [(1 : UInt8)] (metadataAt 1)) Authentic replay) ∧
    ¬ InOrder.Throughout (fun earlier c =>
      AnswersActive (after Node.call (.start [(1 : UInt8)] (metadataAt 1)) earlier) c) replay :=
  ⟨replay_unauthentic, fun h => replay_unauthentic
    ((freshness_iff idealSignatures_hold [(1 : UInt8)] (metadataAt 1) replay).mpr h)⟩

theorem replayed_response :
    ¬ ∀ (participants : List PubKey) (md : PayloadMetadata) (calls : List Call), IdealSignatures →
      Always Node.call (.start participants md) Authentic calls :=
  fun h => replay_unauthentic (h [(1 : UInt8)] (metadataAt 1) replay idealSignatures_hold)

end Kdapp.CommentIt
