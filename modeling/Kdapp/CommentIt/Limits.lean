import Kdapp.CommentIt.Steps

/-! How often a participant may ask for a challenge: the fifth one that is issued can not be
answered any more, as the limit is checked ahead of every command. -/

namespace Kdapp.CommentIt
open Outcome FiniteMap
open SignatureVerifier (verify)
open CommentBoard (displayKey)
open Transition
open Std (ExtTreeMap)

variable [Crypto]

/-- The record of a challenge request by a participant with this key. -/
abbrev Record.Requests (r : Record) (key : String) : Prop :=
  r.call.cmd = .requestChallenge ∧ r.call.authorization.map displayKey = some key

def requests (log : List Record) (key : String) : ℕ := log.countP fun r => r.Requests key

namespace AuthWithCommentsEpisode
variable {g : AuthWithCommentsEpisode} {pk : PubKey}

theorem isRateLimited_eq_false :
    g.isRateLimited pk = false ↔ (g.rateLimits[displayKey pk]?).getD 0 < 5 := by
  unfold isRateLimited
  cases g.rateLimits[displayKey pk]? with
  | none => simp
  | some attempts => simp

theorem getD_incrementRateLimit (key : String) :
    ((g.incrementRateLimit pk)[key]?).getD 0 =
      (g.rateLimits[key]?).getD 0 + if displayKey pk = key then 1 else 0 := by
  unfold incrementRateLimit
  by_cases hkey : displayKey pk = key
  · subst hkey
    rw [ExtTreeMap.getElem?_insert_self, if_pos rfl]
    rfl
  · rw [getElem?_insert_of_ne hkey, if_neg hkey]
    rfl

end AuthWithCommentsEpisode

/-- The attempts of each participant are its accepted requests, and it takes one to have a
challenge. -/
structure Counted (node : Node) : Prop where
  attempts : ∀ key, (node.room.rateLimits[key]?).getD 0 = requests node.log key
  issued : ∀ key challenge, node.room.activeChallenges[key]? = some challenge →
    0 < requests node.log key

namespace Counted

theorem start (participants : List PubKey) (md : PayloadMetadata) :
    Counted (.start participants md) where
  attempts key := by
    have hnone : (AuthWithCommentsEpisode.create participants md).rateLimits[key]? = none :=
      ExtTreeMap.getElem?_empty
    change ((AuthWithCommentsEpisode.create participants md).rateLimits[key]?).getD 0 = 0
    rw [hnone]
    rfl
  issued key challenge h := by
    cases (ExtTreeMap.getElem?_empty (a := key)).symm.trans h

variable [RandChaCha] {node : Node} {c : Call} {pk : PubKey}

theorem requests_accepted (node : Node) (hsigned : c.authorization = some pk) (key : String) :
    requests (node.accepted c pk).log key =
      requests node.log key +
        if c.cmd = .requestChallenge ∧ displayKey pk = key then 1 else 0 := by
  unfold requests Node.accepted
  rw [List.countP_cons]
  simp only [Record.Requests, hsigned, Option.map_some, Option.some.injEq, decide_eq_true_eq]

theorem accepted (h : Counted node) (hsigned : c.authorization = some pk) :
    Counted (node.accepted c pk) := by
  have hcount := requests_accepted node hsigned
  obtain ⟨cmd, auth, md⟩ := c
  cases cmd with
  | requestChallenge =>
    refine ⟨fun key => ?_, fun key challenge hkey => ?_⟩
    · rw [hcount, ← h.attempts]
      simp only [true_and]
      exact AuthWithCommentsEpisode.getD_incrementRateLimit key
    · rw [hcount]
      simp only [true_and]
      by_cases hsame : displayKey pk = key
      · rw [if_pos hsame]
        exact Nat.succ_pos _
      · rw [if_neg hsame]
        apply h.issued key challenge
        -- the challenge of another key was there before, and its count is the same
        rw [← getElem?_insert_of_ne hsame]
        exact hkey
  | submitResponse signature nonce =>
    refine ⟨fun key => ?_, fun key challenge hkey => ?_⟩
    · rw [hcount]
      exact h.attempts key
    · rw [hcount]
      apply h.issued key challenge
      by_cases hsame : displayKey pk = key
      · subst hsame
        cases ExtTreeMap.getElem?_erase_self.symm.trans hkey
      · rw [← getElem?_erase_of_ne hsame]
        exact hkey
  | revokeSession sessionToken signature =>
    refine ⟨fun key => ?_, fun key challenge hkey => ?_⟩
    · rw [hcount]
      exact h.attempts key
    · rw [hcount]
      exact h.issued key challenge hkey
  | submitComment text sessionToken =>
    refine ⟨fun key => ?_, fun key challenge hkey => ?_⟩
    · rw [hcount]
      exact h.attempts key
    · rw [hcount]
      exact h.issued key challenge hkey

theorem call (h : Counted node) (c : Call) : Counted (node.call c) := by
  rcases node.call_cases c with ⟨-, hsame⟩ | ⟨pk, hadmits, haccepts⟩
  · rw [hsame]
    exact h
  · rw [haccepts]
    exact h.accepted hadmits.signed

end Counted

variable [RandChaCha]

theorem counted_after (participants : List PubKey) (md : PayloadMetadata) (calls : List Call) :
    Counted (after Node.call (.start participants md) calls) := by
  induction calls using List.reverseRecOn with
  | nil => exact .start participants md
  | append_singleton calls c ih =>
    rw [after_concat]
    exact ih.call c

/-- In every state that commands lead to, a participant with a challenge has asked for one before,
and its answer is accepted if and only if it has asked less than five times. -/
theorem challenge_answered_iff (participants : List PubKey) (created : PayloadMetadata)
    (calls : List Call) {pk : PubKey} {challenge signature : String} (md : PayloadMetadata)
    (hauthorized : pk ∈
      (after Node.call (.start participants created) calls).room.authorizedParticipants)
    (hnew : displayKey pk ∉
      (after Node.call (.start participants created) calls).room.authenticatedParticipants)
    (hchallenge : (after Node.call (.start participants created) calls).room.activeChallenges[
      displayKey pk]? = some challenge)
    (hverify : verify pk challenge signature = true) :
    0 < requests (after Node.call (.start participants created) calls).log (displayKey pk) ∧
    ((∃ room rb, (after Node.call (.start participants created) calls).room.execute md
        (.submitResponse signature challenge) (some pk) = (room, .ok rb)) ↔
      requests (after Node.call (.start participants created) calls).log (displayKey pk) < 5) := by
  have hcounted := counted_after participants created calls
  refine ⟨hcounted.issued _ _ hchallenge, ?_⟩
  rw [← hcounted.attempts, ← AuthWithCommentsEpisode.isRateLimited_eq_false]
  rcases AuthWithCommentsEpisode.execute_cases _ md (.submitResponse signature challenge)
    (some pk) with ⟨hnot, e, hrejects⟩ | ⟨pk', hadmits, haccepts⟩
  · rw [hrejects]
    refine iff_of_false ?_ fun hunlimited => hnot pk ?_
    · rintro ⟨room, rb, haccepts⟩
      cases haccepts
    · exact ⟨rfl, hauthorized, hunlimited, hnew, hverify⟩
  · rw [haccepts]
    refine iff_of_true ⟨_, _, rfl⟩ ?_
    obtain rfl := Option.some.inj hadmits.signed
    exact hadmits.unlimited

end Kdapp.CommentIt

namespace Kdapp.CommentIt
open Transition
open CommentBoard (displayKey)
open SignatureVerifier (signText)
attribute [local instance] idealCrypto seedRand

def ask (acceptingTime : UInt64) : Call :=
  ⟨.requestChallenge, some (1 : UInt8), metadataAt acceptingTime⟩

theorem challenge_answered_at :
    0 < requests (after Node.call (.start [(1 : UInt8)] (metadataAt 1)) [ask 10, ask 11]).log
      (displayKey (1 : UInt8)) ∧
    ((∃ room rb, (after Node.call (.start [(1 : UInt8)] (metadataAt 1))
        [ask 10, ask 11]).room.execute (metadataAt 12)
        (.submitResponse (signText (1 : UInt8) "auth_11_11") "auth_11_11")
        (some (1 : UInt8)) = (room, .ok rb)) ↔
      requests (after Node.call (.start [(1 : UInt8)] (metadataAt 1)) [ask 10, ask 11]).log
        (displayKey (1 : UInt8)) < 5) :=
  challenge_answered_iff [(1 : UInt8)] (metadataAt 1) [ask 10, ask 11] (metadataAt 12)
    List.mem_cons_self (by decide +kernel) (by decide +kernel) (by decide +kernel)

/-- The fifth challenge is issued, and its answer is rejected. -/
theorem fifth_challenge_unanswered :
    ¬ ∀ (participants : List PubKey) (created : PayloadMetadata) (calls : List Call) (pk : PubKey)
      (challenge signature : String) (md : PayloadMetadata),
      pk ∈ (after Node.call (.start participants created) calls).room.authorizedParticipants →
      displayKey pk ∉
        (after Node.call (.start participants created) calls).room.authenticatedParticipants →
      (after Node.call (.start participants created) calls).room.activeChallenges[
        displayKey pk]? = some challenge →
      SignatureVerifier.verify pk challenge signature = true →
      ∃ room rb, (after Node.call (.start participants created) calls).room.execute md
        (.submitResponse signature challenge) (some pk) = (room, .ok rb) := by
  intro h
  obtain ⟨room, rb, haccepts⟩ := h [(1 : UInt8)] (metadataAt 1)
    [ask 10, ask 11, ask 12, ask 13, ask 14] (1 : UInt8) "auth_14_14"
    (signText (1 : UInt8) "auth_14_14") (metadataAt 15) List.mem_cons_self (by decide +kernel)
    (by decide +kernel) (by decide +kernel)
  have hrejects : ((after Node.call (.start [(1 : UInt8)] (metadataAt 1))
      [ask 10, ask 11, ask 12, ask 13, ask 14]).room.execute (metadataAt 15)
      (.submitResponse (signText (1 : UInt8) "auth_14_14") "auth_14_14")
      (some (1 : UInt8))).2.isOk = false := by decide +kernel
  rw [haccepts] at hrejects
  cases hrejects

end Kdapp.CommentIt
