import Kdapp.KaspaAuth.Rollback
import Kdapp.Library.SlidingWindow

/-! When a participant is rate limited: the attempts that are kept tell how often it asked for a
challenge within the window, also after rollbacks. -/

namespace Kdapp.KaspaAuth
open FiniteMap SlidingWindow Transition
open Std (ExtTreeMap)

variable [Crypto]

def callTimes (events : List Event) : List UInt64 :=
  events.filterMap fun e => match e with
    | .call c => some c.metadata.acceptingTime
    | .rollback => none

def requestTimes (pk : PubKey) (requests : List (PubKey × UInt64)) : List UInt64 :=
  (requests.filter fun r => decide (r.1 = pk)).map (·.2)

theorem callTimes_concat (events : List Event) (e : Event) :
    callTimes (events ++ [e]) = callTimes events ++ callTimes [e] :=
  List.filterMap_append

theorem requestTimes_append (pk : PubKey) (l l' : List (PubKey × UInt64)) :
    requestTimes pk (l ++ l') = requestTimes pk l ++ requestTimes pk l' := by
  unfold requestTimes
  rw [List.filter_append, List.map_append]

namespace SimpleAuth
variable (g : SimpleAuth) (pk : PubKey)

def attempts : List UInt64 := (g.rateLimits[pk.serialize]?).getD []

theorem isRateLimited_iff (now : UInt64) : g.isRateLimited pk now = true ↔
    maxAttempts ≤ ((g.attempts pk).filter (recent now)).length := by
  unfold isRateLimited attempts
  cases g.rateLimits[pk.serialize]? with
  | none => exact iff_of_false Bool.false_ne_true (Nat.not_succ_le_zero 4)
  | some attempts => exact decide_eq_true_iff

theorem attempts_increment (now : UInt64) (pk' : PubKey) :
    ({ g with rateLimits := g.incrementRateLimit pk now } : SimpleAuth).attempts pk' =
      if pk = pk' then (g.attempts pk ++ [now]).filter (recent now) else g.attempts pk' := by
  unfold attempts incrementRateLimit
  split
  · rename_i hsame
    subst hsame
    rw [ExtTreeMap.getElem?_insert_self]
    rfl
  · rename_i hne
    have hkey : pk.serialize ≠ pk'.serialize := fun hkey => hne (PubKey.serialize_injective hkey)
    rw [getElem?_insert_of_ne hkey]

omit [Crypto] in
theorem recent_mono (now later t : UInt64) (h : now ≤ later) (hrecent : recent later t = true) :
    recent now t = true := by
  have hle : (Saturating.sub later t).toNat ≤ windowSecs.toNat :=
    UInt64.le_iff_toNat_le.mp (of_decide_eq_true hrecent)
  have hnow : now.toNat ≤ later.toNat := UInt64.le_iff_toNat_le.mp h
  apply decide_eq_true
  rw [UInt64.le_iff_toNat_le]
  rw [Saturating.sub_toNat] at hle ⊢
  omega

omit [Crypto] in
theorem recent_iff {now t : UInt64} :
    recent now t = true ↔ now.toNat ≤ t.toNat + 300 := by
  have hwindow : windowSecs.toNat = 300 := by decide
  unfold recent
  rw [decide_eq_true_iff, UInt64.le_iff_toNat_le, Saturating.sub_toNat, hwindow]
  omega

end SimpleAuth

variable [RandChaCha]

/-- The sender and the time of the event if it is a request that is accepted. -/
def Node.requested (node : Node) : Event → List (PubKey × UInt64)
  | .call c =>
    match c.cmd, c.authorization with
    | .requestChallenge, some pk =>
      if (node.episode.execute c.now c.metadata c.cmd c.authorization).2.isOk then
        [(pk, c.metadata.acceptingTime)]
      else []
    | _, _ => []
  | .rollback => []

/-- The requests that are accepted in a run, whether they are rolled back later or not. -/
def Node.requests (node : Node) : List Event → List (PubKey × UInt64)
  | [] => []
  | e :: events => node.requested e ++ (node.step e).requests events

namespace Node

theorem requests_concat (node : Node) (events : List Event) (e : Event) :
    node.requests (events ++ [e]) =
      node.requests events ++ (after Node.step node events).requested e := by
  induction events generalizing node with
  | nil => exact List.append_nil _
  | cons first events ih =>
    rw [List.cons_append, Node.requests, Node.requests, ih, List.append_assoc]
    rfl

variable {node : Node} {c : Call} {pk : PubKey}

theorem requested_of_accepted (hadmits : node.episode.Admits c pk) :
    node.requested (.call c) =
      if c.cmd = .requestChallenge then [(pk, c.metadata.acceptingTime)] else [] := by
  have hok : (node.episode.execute c.now c.metadata c.cmd c.authorization).2.isOk = true := by
    rcases node.episode.execute_cases c with ⟨hnot, -⟩ | ⟨pk', -, haccepts⟩
    · exact absurd hadmits (hnot pk)
    · rw [haccepts]
      rfl
  unfold requested
  dsimp only
  rw [hok, hadmits.signed]
  cases c.cmd with
  | requestChallenge => rfl
  | submitResponse signature nonce => rfl
  | revokeSession sessionToken signature => rfl

theorem requested_of_rejected (hnot : ∀ pk, ¬ node.episode.Admits c pk) :
    node.requested (.call c) = [] := by
  have herror : (node.episode.execute c.now c.metadata c.cmd c.authorization).2.isOk = false := by
    rcases node.episode.execute_cases c with ⟨-, e, hrejects⟩ | ⟨pk, hadmits, -⟩
    · rw [hrejects]
      rfl
    · exact absurd hadmits (hnot pk)
  unfold requested
  dsimp only
  rw [herror]
  split <;> rfl

/-- What is kept of the attempts shows, from now on, all the requests there were. -/
def Tracks (node : Node) (times : List UInt64) (requests : List (PubKey × UInt64)) : Prop :=
  ∀ pk, Shows SimpleAuth.recent times (node.episode.attempts pk) (requestTimes pk requests)

theorem Tracks.call {times : List UInt64} {requests : List (PubKey × UInt64)}
    (h : node.Tracks times requests) (c : Call) :
    (node.call c).Tracks (times ++ [c.metadata.acceptingTime])
      (requests ++ node.requested (.call c)) := by
  intro pk
  rcases node.call_cases c with ⟨hnot, hsame⟩ | ⟨sender, hadmits, haccepts⟩
  · rw [hsame, requested_of_rejected hnot, List.append_nil]
    exact (h pk).seen_concat _
  · rw [haccepts, requested_of_accepted hadmits, requestTimes_append]
    unfold accepted
    cases hcmd : c.cmd with
    | requestChallenge =>
      -- attempts are dropped when they leave the window, and never come back into one
      have hattempts : (node.episode.applied sender c.metadata .requestChallenge).attempts pk =
          if sender = pk then
            (node.episode.attempts sender ++ [c.metadata.acceptingTime]).filter
              (SimpleAuth.recent c.metadata.acceptingTime)
          else node.episode.attempts pk :=
        node.episode.attempts_increment sender c.metadata.acceptingTime pk
      dsimp only
      rw [hattempts]
      by_cases hsender : sender = pk
      · subst hsender
        have hnew : requestTimes sender [(sender, c.metadata.acceptingTime)] =
            [c.metadata.acceptingTime] := by simp [requestTimes]
        rw [if_pos rfl, if_pos rfl, hnew]
        exact (h sender).push SimpleAuth.recent_mono _
      · have hnone : requestTimes pk [(sender, c.metadata.acceptingTime)] = [] := by
          simp [requestTimes, hsender]
        rw [if_neg hsender, if_pos rfl, hnone, List.append_nil]
        exact (h pk).seen_concat _
    | submitResponse signature nonce =>
      have hnone : requestTimes pk [] = [] := rfl
      rw [if_neg nofun, hnone, List.append_nil]
      exact (h pk).seen_concat _
    | revokeSession sessionToken signature =>
      have hnone : requestTimes pk [] = [] := rfl
      rw [if_neg nofun, hnone, List.append_nil]
      exact (h pk).seen_concat _

omit [RandChaCha] in
theorem undo_attempts (node : Node) (pk : PubKey) :
    node.undo.episode.attempts pk = node.episode.attempts pk := by
  unfold undo
  split
  · rename_i rb log hlog
    cases rb with
    | challenge previousChallenge previousTimestamp => rfl
    | authentication previousAuthStatus previousSessionToken => rfl
    | sessionRevoked previousToken wasAuthenticated => rfl
  · rfl

theorem tracks_after (participants : List PubKey) (md : PayloadMetadata) (events : List Event) :
    (after Node.step (.start participants md) events).Tracks (callTimes events)
      ((start participants md).requests events) := by
  induction events using List.reverseRecOn with
  | nil =>
    intro pk
    have hnone : (start participants md).episode.attempts pk = [] := by
      unfold SimpleAuth.attempts
      have hempty : (start participants md).episode.rateLimits[pk.serialize]? = none :=
        ExtTreeMap.getElem?_empty
      rw [hempty]
      rfl
    rw [after, List.foldl_nil, hnone]
    exact .nil
  | append_singleton events e ih =>
    rw [after_concat, requests_concat, callTimes_concat]
    cases e with
    | call c => exact ih.call c
    | rollback =>
      intro pk
      have hkept := undo_attempts (after Node.step (.start participants md) events) pk
      have htimes : callTimes [.rollback] = [] := rfl
      have hrequested : (after Node.step (.start participants md) events).requested .rollback =
          [] := rfl
      rw [htimes, hrequested, List.append_nil, List.append_nil]
      dsimp only [Node.step]
      rw [hkept]
      exact ih pk

theorem requests_times (node : Node) (events : List Event) :
    ∀ r ∈ node.requests events, r.2 ∈ callTimes events := by
  induction events using List.reverseRecOn with
  | nil =>
    intro r hr
    cases hr
  | append_singleton events e ih =>
    intro r hr
    rw [requests_concat] at hr
    rw [callTimes_concat]
    rcases List.mem_append.mp hr with hold | hnew
    · exact List.mem_append_left _ (ih r hold)
    · apply List.mem_append_right
      cases e with
      | rollback => cases hnew
      | call c =>
        have htime : r.2 = c.metadata.acceptingTime := by
          rcases (after Node.step node events).episode.execute_cases c with
            ⟨hnot, -⟩ | ⟨pk, hadmits, -⟩
          · rw [requested_of_rejected hnot] at hnew
            cases hnew
          · rw [requested_of_accepted hadmits] at hnew
            split at hnew
            · rw [List.mem_singleton.mp hnew]
            · cases hnew
        rw [htime]
        exact List.mem_cons_self

end Node

section Limited
variable {g : SimpleAuth} {c : Call} {pk : PubKey}

theorem SimpleAuth.execute_rateLimited_iff (hsigned : c.authorization = some pk)
    (hauthorized : pk ∈ g.authorizedParticipants) :
    (g.execute c.now c.metadata c.cmd c.authorization).2 =
        .error (.invalidCommand .rateLimited) ↔
      g.isRateLimited pk c.metadata.acceptingTime = true := by
  rw [hsigned]
  unfold execute
  dsimp only
  rw [if_neg (not_not.mpr hauthorized)]
  constructor
  · intro h
    by_contra hunlimited
    rw [if_neg hunlimited] at h
    -- past the check of the limit, no branch of any command ends in `rateLimited`
    cases hcmd : c.cmd with
    | requestChallenge =>
      rw [hcmd] at h
      cases h
    | submitResponse signature nonce =>
      rw [hcmd] at h
      dsimp only at h
      unfold executeSubmitResponse at h
      split at h
      · cases h
      split at h
      · cases h
      split at h
      · cases h
      split at h
      · cases h
      split at h <;> cases h
    | revokeSession sessionToken signature =>
      rw [hcmd] at h
      dsimp only at h
      unfold executeRevokeSession at h
      split at h
      · cases h
      split at h
      · cases h
      split at h
      · cases h
      split at h <;> cases h
  · intro hlimited
    rw [if_pos hlimited]
    rfl

end Limited

/-- In every run whose accepting times do not decrease, a command of an authorised participant is
rate limited if and only if five requests of that participant were accepted in the 300 seconds up to
it. -/
theorem rateLimited_iff (participants : List PubKey) (created : PayloadMetadata)
    (events : List Event) (c : Call) {pk : PubKey}
    (hordered : (callTimes (events ++ [.call c])).Pairwise (· ≤ ·))
    (hsigned : c.authorization = some pk)
    (hauthorized : pk ∈
      (after Node.step (.start participants created) events).episode.authorizedParticipants) :
    ((after Node.step (.start participants created) events).episode.execute c.now c.metadata
        c.cmd c.authorization).2 = .error (.invalidCommand .rateLimited) ↔
      5 ≤ ((Node.start participants created).requests events).countP fun r =>
        decide (r.1 = pk ∧ r.2.toNat ≤ c.metadata.acceptingTime.toNat ∧
          c.metadata.acceptingTime.toNat ≤ r.2.toNat + 300) := by
  have hlast : ∀ t ∈ callTimes events, t ≤ c.metadata.acceptingTime := by
    rw [callTimes_concat] at hordered
    intro t ht
    exact (List.pairwise_append.mp hordered).2.2 t ht _ List.mem_cons_self
  have htracks := Node.tracks_after participants created events pk c.metadata.acceptingTime hlast
  rw [SimpleAuth.execute_rateLimited_iff hsigned hauthorized, SimpleAuth.isRateLimited_iff, htracks,
    ← List.countP_eq_length_filter]
  unfold requestTimes
  rw [List.countP_map, List.countP_filter]
  have hcount : ((Node.start participants created).requests events).countP
      (fun r => (SimpleAuth.recent c.metadata.acceptingTime ∘ fun r => r.2) r &&
        decide (r.1 = pk)) =
      ((Node.start participants created).requests events).countP fun r =>
        decide (r.1 = pk ∧ r.2.toNat ≤ c.metadata.acceptingTime.toNat ∧
          c.metadata.acceptingTime.toNat ≤ r.2.toNat + 300) := by
    apply List.countP_congr
    intro r hr
    have htime : r.2.toNat ≤ c.metadata.acceptingTime.toNat :=
      UInt64.le_iff_toNat_le.mp (hlast _ (Node.requests_times _ events r hr))
    rw [Bool.and_eq_true, decide_eq_true_iff, decide_eq_true_iff, Function.comp_apply,
      SimpleAuth.recent_iff, and_iff_right htime, and_comm]
  rw [hcount]
  rfl

end Kdapp.KaspaAuth

namespace Kdapp.KaspaAuth
open Transition
attribute [local instance] idealCrypto seedRand

def asks (acceptingTime : UInt64) : Call :=
  ⟨.requestChallenge, some (1 : UInt8), metadataAt acceptingTime, 0⟩

def fiveRequests : List Event :=
  [.call (asks 100), .call (asks 200), .rollback, .call (asks 200), .call (asks 300),
    .call (asks 399)]

theorem rateLimited_at :
    ((after Node.step (.start [(1 : UInt8)] (metadataAt 1)) fiveRequests).episode.execute 0
        (metadataAt 400) .requestChallenge (some (1 : UInt8))).2 =
          .error (.invalidCommand .rateLimited) ↔
      5 ≤ ((Node.start [(1 : UInt8)] (metadataAt 1)).requests fiveRequests).countP fun r =>
        decide (r.1 = (1 : UInt8) ∧ r.2.toNat ≤ (metadataAt 400).acceptingTime.toNat ∧
          (metadataAt 400).acceptingTime.toNat ≤ r.2.toNat + 300) :=
  rateLimited_iff [(1 : UInt8)] (metadataAt 1) fiveRequests (asks 400) (by decide) rfl
    List.mem_cons_self

end Kdapp.KaspaAuth
