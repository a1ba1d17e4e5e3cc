import Kdapp.CommentIt.Handlers
import Kdapp.Library.Entries
import Kdapp.Library.Guards
import Kdapp.Library.Outcome
import Kdapp.Library.Transition

/-! Requests that are in progress (`pending_requests` of the HTTP peer): the locked sections of
`request_challenge` and `verify_auth`, for any number of requests in any order. -/

namespace Kdapp.CommentIt
open FiniteMap InOrder Transition
open Std (ExtTreeMap)

def challengeKey (episodeId : UInt64) : String := "challenge_" ++ episodeId.toNat.repr

def verifyKey (episodeId : UInt64) : String := "verify_" ++ episodeId.toNat.repr

theorem challengeKey_injective : Function.Injective challengeKey := by
  intro a b h
  exact UInt64.toNat_inj.mp (Nat.repr_injective (String.append_right_inj _ |>.mp h))

theorem challengeKey_ne_verifyKey (a b : UInt64) : challengeKey a ≠ verifyKey b := by
  intro h
  have hhead := congrArg (fun key => key.toList.head?) h
  unfold challengeKey verifyKey at hhead
  simp at hhead

variable [Crypto] [RandChaCha]

/-- A request that has put its key in the set. All but the first of the stages have a guard, which
removes the key when it is dropped; `challengeCleaned` has removed it before. -/
inductive Stage where
  | challengeEntered (req : ChallengeRequest)
  | challengeGuarded (req : ChallengeRequest) (participantPubkey : PubKey)
  | challengeSent (req : ChallengeRequest) (participantPubkey : PubKey)
  | challengeWaiting (req : ChallengeRequest) (participantPubkey : PubKey)
      (transactionId status : String) (attempts : ℕ)
  | challengeCleaned (req : ChallengeRequest) (response : ChallengeResponse)
  | verifyGuarded (req : VerifyRequest)
  | verifySent (req : VerifyRequest)
      (response : Except String String → Except StatusCode VerifyResponse)

inductive Answer where
  | challenge (response : Except StatusCode ChallengeResponse)
  | verify (response : Except StatusCode VerifyResponse)
  | panicked

structure Requests where
  pendingRequests : List String
  running : ExtTreeMap ℕ Stage
  submitted : List (ℕ × EpisodeMessage AuthWithCommentsEpisode)
  answers : List (ℕ × Answer)

inductive RequestStep where
  /-- The body is no challenge request. -/
  | malformed (id : ℕ)
  | enterChallenge (id : ℕ) (req : ChallengeRequest)
  | enterVerify (id : ℕ) (req : VerifyRequest)
  | resolve (id : ℕ) (blockchainEpisodes : SharedEpisodeState)
  | send (id : ℕ) (blockchainEpisodes : SharedEpisodeState) (wallet : Option Crypto.SecretKey)
  | submission (id : ℕ) (result : Except String String)
  | poll (id : ℕ) (blockchainEpisodes : SharedEpisodeState)
  | drop (id : ℕ)
  /-- The client closes the connection at an `await`. -/
  | cancel (id : ℕ)

def Stage.key : Stage → String
  | .challengeEntered req | .challengeGuarded req _ | .challengeSent req _
  | .challengeWaiting req _ _ _ _ | .challengeCleaned req _ => challengeKey req.episodeId
  | .verifyGuarded req | .verifySent req _ => verifyKey req.episodeId

def Stage.inProgress : Stage → Bool
  | .challengeCleaned _ _ => false
  | _ => true

def Stage.holds (stage : Stage) : Option String :=
  if stage.inProgress then some stage.key else none

def maxAttempts : ℕ := 30

namespace Requests
variable (s : Requests) (id : ℕ)

def new : Requests := ⟨[], ∅, [], []⟩

def answer (a : Answer) : Requests := { s with answers := s.answers ++ [(id, a)] }

def enter (stage : Stage) : Requests :=
  { s with
    pendingRequests := s.pendingRequests.insert stage.key
    running := s.running.insert id stage }

def advance (stage : Stage) : Requests := { s with running := s.running.insert id stage }

def leave : Requests := { s with running := s.running.erase id }

def release (key : String) : Requests :=
  { s with
    pendingRequests := s.pendingRequests.filter (· ≠ key)
    running := s.running.erase id }

def cleanup (stage : Stage) : Requests :=
  { s with
    pendingRequests := s.pendingRequests.filter (· ≠ stage.key)
    running := s.running.insert id stage }

def submit (message : EpisodeMessage AuthWithCommentsEpisode) : Requests :=
  { s with submitted := s.submitted ++ [(id, message)] }

def duplicateChallenge (req : ChallengeRequest) : Answer :=
  .challenge (.ok ⟨req.episodeId, "request_in_progress", none, "request_in_progress"⟩)

def duplicateVerify (req : VerifyRequest) : Answer :=
  .verify (.ok ⟨req.episodeId, false, "request_in_progress", none⟩)

def sendChallenge (req : ChallengeRequest) (participantPubkey : PubKey)
    (wallet : Option Crypto.SecretKey) : Requests :=
  match wallet with
  | none =>
    (s.release id (challengeKey req.episodeId)).answer id
      (.challenge (.error .internalServerError))
  | some secretKey =>
    match requestChallengeMessage req participantPubkey secretKey with
    | none => (s.release id (challengeKey req.episodeId)).answer id .panicked
    | some message => (s.advance id (.challengeSent req participantPubkey)).submit id message

def sendVerify (req : VerifyRequest) (blockchainEpisodes : SharedEpisodeState)
    (wallet : Option Crypto.SecretKey) : Requests :=
  match verifyAuth blockchainEpisodes wallet req with
  | .refuse code =>
    (s.release id (verifyKey req.episodeId)).answer id (.verify (.error code))
  | .respond response =>
    (s.release id (verifyKey req.episodeId)).answer id (.verify (.ok response))
  | .panic => (s.release id (verifyKey req.episodeId)).answer id .panicked
  | .submit message response => (s.advance id (.verifySent req response)).submit id message

def look (req : ChallengeRequest) (participantPubkey : PubKey) (transactionId status : String)
    (attempts : ℕ) (blockchainEpisodes : SharedEpisodeState) : Requests :=
  match blockchainEpisodes[req.episodeId]?.bind
      (·.getChallengeForParticipant participantPubkey) with
  | some nonce =>
    if nonce.isEmpty then
      (s.release id (challengeKey req.episodeId)).answer id (.challenge (.error .requestTimeout))
    else
      s.cleanup id
        (.challengeCleaned req ⟨req.episodeId, nonce, some transactionId, status⟩)
  | none =>
    if attempts + 1 < maxAttempts then
      s.advance id (.challengeWaiting req participantPubkey transactionId status (attempts + 1))
    else
      (s.release id (challengeKey req.episodeId)).answer id (.challenge (.error .requestTimeout))

def step : RequestStep → Requests
  | .malformed id => s.answer id (.challenge (.ok ⟨0, "pending", none, "request_in_progress"⟩))
  | .enterChallenge id req =>
    match s.running[id]? with
    | some _ => s
    | none =>
      if challengeKey req.episodeId ∈ s.pendingRequests then s.answer id (duplicateChallenge req)
      else s.enter id (.challengeEntered req)
  | .enterVerify id req =>
    match s.running[id]? with
    | some _ => s
    | none =>
      if verifyKey req.episodeId ∈ s.pendingRequests then s.answer id (duplicateVerify req)
      else s.enter id (.verifyGuarded req)
  | .resolve id blockchainEpisodes =>
    match s.running[id]? with
    | some (.challengeEntered req) =>
      match req.participantPubkey blockchainEpisodes with
      -- the key stays, as there is no guard yet
      | none => (s.leave id).answer id (.challenge (.error .badRequest))
      | some participantPubkey => s.advance id (.challengeGuarded req participantPubkey)
    | _ => s
  | .send id blockchainEpisodes wallet =>
    match s.running[id]? with
    | some (.challengeGuarded req participantPubkey) =>
      s.sendChallenge id req participantPubkey wallet
    | some (.verifyGuarded req) => s.sendVerify id req blockchainEpisodes wallet
    | _ => s
  | .submission id result =>
    match s.running[id]? with
    | some (.challengeSent req participantPubkey) =>
      let (transactionId, status) := challengeSubmitted result
      s.advance id (.challengeWaiting req participantPubkey transactionId status 0)
    | some (.verifySent req response) =>
      (s.release id (verifyKey req.episodeId)).answer id (.verify (response result))
    | _ => s
  | .poll id blockchainEpisodes =>
    match s.running[id]? with
    | some (.challengeWaiting req participantPubkey transactionId status attempts) =>
      s.look id req participantPubkey transactionId status attempts blockchainEpisodes
    | _ => s
  | .drop id =>
    match s.running[id]? with
    | some (.challengeCleaned req response) =>
      (s.release id (challengeKey req.episodeId)).answer id (.challenge (.ok response))
    | _ => s
  | .cancel id =>
    match s.running[id]? with
    | some (.challengeSent req _) | some (.challengeWaiting req _ _ _ _) =>
      s.release id (challengeKey req.episodeId)
    | some (.verifySent req _) => s.release id (verifyKey req.episodeId)
    | _ => s

/-- The room whose challenge key slips: a request that is turned down before it has a guard leaves
the key, and the guard of an answered one removes it again. -/
def slips : RequestStep → Option UInt64
  | .resolve id blockchainEpisodes =>
    match s.running[id]? with
    | some (.challengeEntered req) =>
      if req.participantPubkey blockchainEpisodes = none then some req.episodeId else none
    | _ => none
  | .drop id =>
    match s.running[id]? with
    | some (.challengeCleaned req _) =>
      if challengeKey req.episodeId ∈ s.pendingRequests then some req.episodeId else none
    | _ => none
  | _ => none

end Requests

section Keys
open Guards

def Requests.guards (s : Requests) : State ℕ String where
  pending := {key | key ∈ s.pendingRequests}
  holds := view Stage.holds s.running

namespace Requests
variable {s : Requests} {id : ℕ}

theorem taken_insert (key : String) :
    {k | k ∈ s.pendingRequests.insert key} = insert key {k | k ∈ s.pendingRequests} := by
  ext k
  exact List.mem_insert_iff

theorem taken_filter (key : String) :
    {k | k ∈ s.pendingRequests.filter (· ≠ key)} = {k | k ∈ s.pendingRequests} \ {key} := by
  ext k
  rw [Set.mem_ofPred_eq, List.mem_filter, decide_eq_true_iff]
  rfl

theorem guards_enter {stage : Stage} (hnew : s.running[id]? = none)
    (hfree : stage.key ∉ s.pendingRequests) (hstage : stage.inProgress = true) :
    Step s.guards none (s.enter id stage).guards := by
  have hnext : (s.enter id stage).guards =
      ⟨insert stage.key s.guards.pending,
        Function.update s.guards.holds id (some stage.key)⟩ := by
    unfold guards enter
    dsimp only
    rw [taken_insert, view_insert, Stage.holds, if_pos hstage]
  rw [hnext]
  exact .take (view_of_none hnew) hfree

theorem guards_advance {before stage : Stage} (hid : s.running[id]? = some before)
    (hsame : stage.holds = before.holds) : Step s.guards none (s.advance id stage).guards := by
  have hnext : (s.advance id stage).guards = s.guards := by
    unfold guards advance
    dsimp only
    rw [view_insert_same (hsame.trans (view_of_some hid).symm)]
  rw [hnext]
  exact .stay

theorem guards_release {stage : Stage} (hid : s.running[id]? = some stage)
    (hstage : stage.inProgress = true) :
    Step s.guards none (s.release id stage.key).guards := by
  have hnext : (s.release id stage.key).guards =
      ⟨s.guards.pending \ {stage.key}, Function.update s.guards.holds id none⟩ := by
    unfold guards release
    dsimp only
    rw [taken_filter, view_erase]
  have hholds : s.guards.holds id = some stage.key := by
    refine (view_of_some hid).trans ?_
    rw [Stage.holds, if_pos hstage]
  rw [hnext]
  exact .release hholds

theorem guards_cleanup {before stage : Stage} (hid : s.running[id]? = some before)
    (hbefore : before.inProgress = true) (hkey : stage.key = before.key)
    (hstage : stage.inProgress = false) :
    Step s.guards none (s.cleanup id stage).guards := by
  have hnext : (s.cleanup id stage).guards =
      ⟨s.guards.pending \ {before.key}, Function.update s.guards.holds id none⟩ := by
    unfold guards cleanup
    dsimp only
    rw [hkey, taken_filter, view_insert, Stage.holds, hstage]
    rfl
  have hholds : s.guards.holds id = some before.key := by
    refine (view_of_some hid).trans ?_
    rw [Stage.holds, if_pos hbefore]
  rw [hnext]
  exact .release hholds

theorem guards_leave {stage : Stage} (hid : s.running[id]? = some stage)
    (hstage : stage.inProgress = true) :
    Step s.guards (some stage.key) (s.leave id).guards := by
  have hnext : (s.leave id).guards =
      ⟨s.guards.pending, Function.update s.guards.holds id none⟩ := by
    unfold guards leave
    dsimp only
    rw [view_erase]
  have hholds : s.guards.holds id = some stage.key := by
    refine (view_of_some hid).trans ?_
    rw [Stage.holds, if_pos hstage]
  rw [hnext]
  exact .lose hholds

theorem guards_drop {stage : Stage} (hid : s.running[id]? = some stage)
    (hstage : stage.inProgress = false) :
    Step s.guards (if stage.key ∈ s.pendingRequests then some stage.key else none)
      (s.release id stage.key).guards := by
  have hholds : view Stage.holds s.running id = none := by
    rw [view_of_some hid, Stage.holds, hstage]
    rfl
  have hnext : (s.release id stage.key).guards =
      ⟨s.guards.pending \ {stage.key}, s.guards.holds⟩ := by
    unfold guards release
    dsimp only
    rw [taken_filter, view_erase_same hholds]
  rw [hnext]
  split
  · rename_i hkey
    exact .stray hkey
  · rename_i hkey
    have hsame : s.guards.pending \ {stage.key} = s.guards.pending :=
      Set.sdiff_singleton_eq_self hkey
    rw [hsame]
    exact .stay

theorem guards_sendChallenge {req : ChallengeRequest} {participantPubkey : PubKey}
    (hid : s.running[id]? = some (.challengeGuarded req participantPubkey))
    (wallet : Option Crypto.SecretKey) :
    Step s.guards none (s.sendChallenge id req participantPubkey wallet).guards := by
  unfold sendChallenge
  split
  · exact guards_release hid rfl
  split
  · exact guards_release hid rfl
  · exact guards_advance hid rfl

theorem guards_sendVerify {req : VerifyRequest}
    (hid : s.running[id]? = some (.verifyGuarded req))
    (blockchainEpisodes : SharedEpisodeState) (wallet : Option Crypto.SecretKey) :
    Step s.guards none (s.sendVerify id req blockchainEpisodes wallet).guards := by
  unfold sendVerify
  split
  · exact guards_release hid rfl
  · exact guards_release hid rfl
  · exact guards_release hid rfl
  · exact guards_advance hid rfl

theorem guards_look {req : ChallengeRequest} {participantPubkey : PubKey}
    {transactionId status : String} {attempts : ℕ}
    (hid : s.running[id]? =
      some (.challengeWaiting req participantPubkey transactionId status attempts))
    (blockchainEpisodes : SharedEpisodeState) :
    Step s.guards none
      (s.look id req participantPubkey transactionId status attempts
        blockchainEpisodes).guards := by
  unfold look
  split
  · split
    · exact guards_release hid rfl
    · exact guards_cleanup hid rfl rfl rfl
  · split
    · exact guards_advance hid rfl
    · exact guards_release hid rfl

theorem guards_step (s : Requests) (e : RequestStep) :
    Step s.guards ((s.slips e).map challengeKey) (s.step e).guards := by
  cases e with
  | malformed id => exact .stay
  | enterChallenge id req =>
    unfold step slips
    dsimp only
    split
    · exact .stay
    rename_i hnew
    split
    · exact .stay
    -- `insert` says that the key was not there: from here on the key is the request's own
    · rename_i hfree
      exact guards_enter hnew hfree rfl
  | enterVerify id req =>
    unfold step slips
    dsimp only
    split
    · exact .stay
    rename_i hnew
    split
    · exact .stay
    · rename_i hfree
      exact guards_enter hnew hfree rfl
  | resolve id blockchainEpisodes =>
    unfold step slips
    dsimp only
    split
    · rename_i req hid
      -- turned down before its guard exists, a request leaves its key behind
      cases hpk : req.participantPubkey blockchainEpisodes with
      | none => exact guards_leave hid rfl
      | some pk => exact guards_advance hid rfl
    · exact .stay
  | send id blockchainEpisodes wallet =>
    unfold step slips
    dsimp only
    split
    · rename_i hid
      exact guards_sendChallenge hid wallet
    · rename_i hid
      exact guards_sendVerify hid blockchainEpisodes wallet
    · exact .stay
  | submission id result =>
    unfold step slips
    dsimp only
    split
    · rename_i hid
      exact guards_advance hid rfl
    · rename_i hid
      exact guards_release hid rfl
    · exact .stay
  | poll id blockchainEpisodes =>
    unfold step slips
    dsimp only
    split
    · rename_i hid
      exact guards_look hid blockchainEpisodes
    · exact .stay
  | drop id =>
    unfold step slips
    dsimp only
    split
    · rename_i req response hid
      -- an answered request removed its key before: its guard may remove the key of another
      have hdrop := guards_drop hid rfl
      rw [apply_ite (Option.map challengeKey)]
      exact hdrop
    · exact .stay
  | cancel id =>
    unfold step slips
    dsimp only
    split
    · rename_i hid
      exact guards_release hid rfl
    · rename_i hid
      exact guards_release hid rfl
    · rename_i hid
      exact guards_release hid rfl
    · exact .stay

/-- The key is in the set as long as one request is in progress with it, and there is one at
most. -/
def Kept (key : String) (s : Requests) : Prop := s.guards.Kept key

theorem kept_new (key : String) : (new : Requests).Kept key := by
  have hempty : (new : Requests).guards = ⟨∅, fun _ => none⟩ := by
    unfold guards new
    congr 1
    ext key
    exact iff_of_false List.not_mem_nil (Set.notMem_empty key)
  unfold Kept
  rw [hempty]
  exact .empty

theorem kept_step_iff {key : String} (h : s.Kept key) (e : RequestStep) :
    (s.step e).Kept key ↔ (s.slips e).map challengeKey ≠ some key :=
  State.Kept.step_iff h (s.guards_step e)

theorem kept_verify_step {episodeId : UInt64} (h : s.Kept (verifyKey episodeId))
    (e : RequestStep) : (s.step e).Kept (verifyKey episodeId) := by
  apply (kept_step_iff h e).mpr
  intro hslip
  obtain ⟨other, -, hkey⟩ := Option.map_eq_some_iff.mp hslip
  exact challengeKey_ne_verifyKey other episodeId hkey

theorem kept_challenge_step_iff {episodeId : UInt64} (h : s.Kept (challengeKey episodeId))
    (e : RequestStep) :
    (s.step e).Kept (challengeKey episodeId) ↔ s.slips e ≠ some episodeId := by
  rw [kept_step_iff h e, not_iff_not, Option.map_eq_some_iff]
  constructor
  · rintro ⟨other, hslip, hkey⟩
    rw [hslip, challengeKey_injective hkey]
  · intro hslip
    exact ⟨episodeId, hslip, rfl⟩

end Requests
end Keys

/-- For every order of the sections of any number of requests and every room: the verifications of
the room are in progress one at a time, and so are its challenge requests as long as none is turned
down for its key and the guard of none is dropped when another one has taken the key again. -/
theorem pending_kept_iff (steps : List RequestStep) (episodeId : UInt64) :
    Always Requests.step Requests.new (Requests.Kept (verifyKey episodeId)) steps ∧
      (Always Requests.step Requests.new (Requests.Kept (challengeKey episodeId)) steps ↔
        Throughout (fun earlier e =>
          (after Requests.step Requests.new earlier).slips e ≠ some episodeId) steps) := by
  constructor
  · have hnone : Throughout (fun _ _ => True) steps := fun _ _ _ => trivial
    refine (always_iff_throughout (Q := fun _ => True) (C := fun _ _ => True)
      (Requests.kept_new _) trivial (fun _ _ _ _ _ => trivial) ?_ steps).mpr hnone
    intro s e h _
    exact iff_of_true (Requests.kept_verify_step h e) trivial
  · refine always_iff_throughout (Q := fun _ => True)
      (C := fun s e => Requests.slips s e ≠ some episodeId)
      (Requests.kept_new _) trivial (fun _ _ _ _ _ => trivial) ?_ steps
    intro s e h _
    exact Requests.kept_challenge_step_iff h e

namespace Requests
variable {s : Requests} {id : ℕ} {key : String}

/-- The key is in the set, and nobody is there who could remove it. -/
structure Stuck (key : String) (s : Requests) : Prop where
  pending : key ∈ s.pendingRequests
  nobody : ∀ (id : ℕ) stage, s.running[id]? = some stage → stage.key ≠ key

namespace Stuck

theorem insert (h : s.Stuck key) {stage : Stage} (hkey : stage.key ≠ key) (j : ℕ) (other : Stage)
    (hj : (s.running.insert id stage)[j]? = some other) : other.key ≠ key := by
  by_cases hid : id = j
  · subst hid
    obtain rfl := Option.some.inj (ExtTreeMap.getElem?_insert_self.symm.trans hj)
    exact hkey
  · rw [getElem?_insert_of_ne hid] at hj
    exact h.nobody j other hj

theorem erase (h : s.Stuck key) (j : ℕ) (other : Stage)
    (hj : (s.running.erase id)[j]? = some other) : other.key ≠ key := by
  by_cases hid : id = j
  · subst hid
    cases ExtTreeMap.getElem?_erase_self.symm.trans hj
  · rw [getElem?_erase_of_ne hid] at hj
    exact h.nobody j other hj

theorem filter (h : s.Stuck key) {other : String} (hkey : other ≠ key) :
    key ∈ s.pendingRequests.filter (· ≠ other) :=
  List.mem_filter.mpr ⟨h.pending, decide_eq_true hkey.symm⟩

theorem enter (h : s.Stuck key) {stage : Stage} (hfree : stage.key ∉ s.pendingRequests) :
    (s.enter id stage).Stuck key where
  pending := List.mem_insert_of_mem h.pending
  nobody := h.insert fun hkey => hfree (hkey ▸ h.pending)

theorem advance (h : s.Stuck key) {before stage : Stage} (hid : s.running[id]? = some before)
    (hkey : stage.key = before.key) : (s.advance id stage).Stuck key where
  pending := h.pending
  nobody := by
    apply h.insert
    rw [hkey]
    exact h.nobody id before hid

theorem leave (h : s.Stuck key) : (s.leave id).Stuck key where
  pending := h.pending
  nobody := h.erase

theorem release (h : s.Stuck key) {stage : Stage} (hid : s.running[id]? = some stage) :
    (s.release id stage.key).Stuck key where
  pending := h.filter (h.nobody id stage hid)
  nobody := h.erase

theorem cleanup (h : s.Stuck key) {before stage : Stage} (hid : s.running[id]? = some before)
    (hkey : stage.key = before.key) : (s.cleanup id stage).Stuck key := by
  have hother : stage.key ≠ key := by
    rw [hkey]
    exact h.nobody id before hid
  exact ⟨h.filter hother, h.insert hother⟩

theorem answer (h : s.Stuck key) (a : Answer) : (s.answer id a).Stuck key := ⟨h.pending, h.nobody⟩

theorem submit (h : s.Stuck key) (message : EpisodeMessage AuthWithCommentsEpisode) :
    (s.submit id message).Stuck key := ⟨h.pending, h.nobody⟩

end Stuck

def Asks (episodeId : UInt64) (message : EpisodeMessage AuthWithCommentsEpisode) : Prop :=
  message.episodeId.toUInt64 = episodeId ∧
    ∃ id pubkey sig, message = .signedCommand id UnifiedCommand.requestChallenge pubkey sig

def Silent (episodeId : UInt64) (s s' : Requests) : Prop :=
  ∃ new, s'.submitted = s.submitted ++ new ∧ ∀ x ∈ new, ¬ Asks episodeId x.2

theorem silent_of_same {episodeId : UInt64} {s s' : Requests} (h : s'.submitted = s.submitted) :
    Silent episodeId s s' :=
  ⟨[], by rw [h, List.append_nil], fun _ hx => absurd hx List.not_mem_nil⟩

theorem Silent.trans {episodeId : UInt64} {s s' s'' : Requests} (h : Silent episodeId s s')
    (h' : Silent episodeId s' s'') : Silent episodeId s s'' := by
  obtain ⟨new, hnew, hsilent⟩ := h
  obtain ⟨new', hnew', hsilent'⟩ := h'
  refine ⟨new ++ new', by rw [hnew', hnew, List.append_assoc], ?_⟩
  intro x hx
  rcases List.mem_append.mp hx with hx | hx
  · exact hsilent x hx
  · exact hsilent' x hx

section
variable {episodeId : UInt64} (h : s.Stuck (challengeKey episodeId))
include h

theorem Stuck.sendChallenge {req : ChallengeRequest} {participantPubkey : PubKey}
    (hid : s.running[id]? = some (.challengeGuarded req participantPubkey))
    (wallet : Option Crypto.SecretKey) :
    (s.sendChallenge id req participantPubkey wallet).Stuck (challengeKey episodeId) ∧
      Silent episodeId s (s.sendChallenge id req participantPubkey wallet) := by
  unfold Requests.sendChallenge
  split
  · exact ⟨(h.release hid).answer _, silent_of_same rfl⟩
  split
  · exact ⟨(h.release hid).answer _, silent_of_same rfl⟩
  · rename_i message hmessage
    have hsent : (s.advance id (.challengeSent req participantPubkey)).Stuck
        (challengeKey episodeId) := h.advance hid rfl
    refine ⟨hsent.submit message, [(id, message)], rfl, ?_⟩
    intro x hx hasks
    obtain rfl := List.mem_singleton.mp hx
    -- the message is for the room of the request, and that is another one
    have hroom := (requestChallengeMessage_room hmessage).symm.trans hasks.1
    exact h.nobody id _ hid (congrArg challengeKey hroom)

theorem Stuck.sendVerify {req : VerifyRequest}
    (hid : s.running[id]? = some (.verifyGuarded req))
    (blockchainEpisodes : SharedEpisodeState) (wallet : Option Crypto.SecretKey) :
    (s.sendVerify id req blockchainEpisodes wallet).Stuck (challengeKey episodeId) ∧
      Silent episodeId s (s.sendVerify id req blockchainEpisodes wallet) := by
  unfold Requests.sendVerify
  split
  · exact ⟨(h.release hid).answer _, silent_of_same rfl⟩
  · exact ⟨(h.release hid).answer _, silent_of_same rfl⟩
  · exact ⟨(h.release hid).answer _, silent_of_same rfl⟩
  · rename_i message response hverify
    have hsent : (s.advance id (.verifySent req response)).Stuck (challengeKey episodeId) :=
      h.advance hid rfl
    refine ⟨hsent.submit message, [(id, message)], rfl, ?_⟩
    intro x hx hasks
    obtain rfl := List.mem_singleton.mp hx
    obtain ⟨id', pk, sig, -, rfl⟩ := verifyAuth_message hverify
    obtain ⟨-, id'', pk', sig', hsame⟩ := hasks
    cases hsame

theorem Stuck.look {req : ChallengeRequest} {participantPubkey : PubKey}
    {transactionId status : String} {attempts : ℕ}
    (hid : s.running[id]? =
      some (.challengeWaiting req participantPubkey transactionId status attempts))
    (blockchainEpisodes : SharedEpisodeState) :
    (s.look id req participantPubkey transactionId status attempts blockchainEpisodes).Stuck
        (challengeKey episodeId) ∧
      Silent episodeId s
        (s.look id req participantPubkey transactionId status attempts blockchainEpisodes) := by
  unfold Requests.look
  split
  · split
    · exact ⟨(h.release hid).answer _, silent_of_same rfl⟩
    · exact ⟨h.cleanup hid rfl, silent_of_same rfl⟩
  · split
    · exact ⟨h.advance hid rfl, silent_of_same rfl⟩
    · exact ⟨(h.release hid).answer _, silent_of_same rfl⟩

theorem Stuck.step (e : RequestStep) :
    (s.step e).Stuck (challengeKey episodeId) ∧ Silent episodeId s (s.step e) := by
  have hstay : s.Stuck (challengeKey episodeId) ∧ Silent episodeId s s := ⟨h, silent_of_same rfl⟩
  unfold Requests.step
  cases e with
  | malformed id => exact ⟨h.answer _, silent_of_same rfl⟩
  | enterChallenge id req =>
    dsimp only
    split
    · exact hstay
    split
    · exact ⟨h.answer _, silent_of_same rfl⟩
    · rename_i hfree
      exact ⟨h.enter hfree, silent_of_same rfl⟩
  | enterVerify id req =>
    dsimp only
    split
    · exact hstay
    split
    · exact ⟨h.answer _, silent_of_same rfl⟩
    · rename_i hfree
      exact ⟨h.enter hfree, silent_of_same rfl⟩
  | resolve id blockchainEpisodes =>
    dsimp only
    split
    · rename_i hid
      split
      -- turned down for its key: the request is gone, the set as it was
      · exact ⟨h.leave.answer _, silent_of_same rfl⟩
      · exact ⟨h.advance hid rfl, silent_of_same rfl⟩
    · exact hstay
  | send id blockchainEpisodes wallet =>
    dsimp only
    split
    · rename_i hid
      exact h.sendChallenge hid wallet
    · rename_i hid
      exact h.sendVerify hid blockchainEpisodes wallet
    · exact hstay
  | submission id result =>
    dsimp only
    split
    · rename_i hid
      exact ⟨h.advance hid rfl, silent_of_same rfl⟩
    · rename_i hid
      exact ⟨(h.release hid).answer _, silent_of_same rfl⟩
    · exact hstay
  | poll id blockchainEpisodes =>
    dsimp only
    split
    · rename_i hid
      exact h.look hid blockchainEpisodes
    · exact hstay
  | drop id =>
    dsimp only
    split
    · rename_i hid
      exact ⟨(h.release hid).answer _, silent_of_same rfl⟩
    · exact hstay
  | cancel id =>
    dsimp only
    split
    · rename_i hid
      exact ⟨h.release hid, silent_of_same rfl⟩
    · rename_i hid
      exact ⟨h.release hid, silent_of_same rfl⟩
    · rename_i hid
      exact ⟨h.release hid, silent_of_same rfl⟩
    · exact hstay

theorem Stuck.after (steps : List RequestStep) :
    (after Requests.step s steps).Stuck (challengeKey episodeId) ∧
      Silent episodeId s (after Requests.step s steps) := by
  induction steps using List.reverseRecOn with
  | nil => exact ⟨h, silent_of_same rfl⟩
  | append_singleton steps e ih =>
    obtain ⟨hstuck, hsilent⟩ := ih
    rw [after_concat]
    exact ⟨(hstuck.step e).1, hsilent.trans (hstuck.step e).2⟩

end

end Requests

end Kdapp.CommentIt

namespace Kdapp.CommentIt
open Transition
attribute [local instance] idealCrypto seedRand

end Kdapp.CommentIt
