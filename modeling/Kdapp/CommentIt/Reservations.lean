import Kdapp.CommentIt.Submission
import Kdapp.Library.Outcome
import Kdapp.Library.Reservation
import Kdapp.Library.Transition

/-! Many submissions at once: the sections of `submit_episode_message_transaction` that hold the
lock on the used UTXOs, and the cleanups, in any order. -/

namespace Kdapp.CommentIt
open FiniteMap InOrder Transition
open Std (ExtTreeMap)

variable [Crypto] [RandChaCha] [AddressCrates]

inductive Phase where
  | selected
  | reserved
  | accepted
deriving DecidableEq

/-- A submission from its selection on, to its failure or the cleanup. -/
structure Submitting where
  phase : Phase
  episodeMessage : EpisodeMessage AuthWithCommentsEpisode
  pubkey : PubKey
  utxo : Utxo

structure Submissions where
  peer : AuthHttpPeer
  running : ExtTreeMap ℕ Submitting

inductive SubmissionStep where
  | select (id : ℕ) (episodeMessage : EpisodeMessage AuthWithCommentsEpisode)
    (utxoCache : Consensus.Address → Except String (List Utxo))
  | reserve (id : ℕ)
  | answer (id : ℕ) (answer : Except String Unit)
  | cleanup (id : ℕ)

/-- Who pays, and with what; there is nothing else to do where the submission fails before. -/
def AuthHttpPeer.select (self : AuthHttpPeer)
    (episodeMessage : EpisodeMessage AuthWithCommentsEpisode)
    (utxoCache : Consensus.Address → Except String (List Utxo)) : Option (PubKey × Utxo) :=
  if self.kaspadClient = false then none
  else
    match participantPubkey episodeMessage with
    | .error _ => none
    | .ok pubkey =>
      match utxoCache (participantAddr pubkey) with
      | .error _ => none
      | .ok entries => (self.selectUtxo entries).map fun utxo => (pubkey, utxo)

theorem AuthHttpPeer.submit_peer (self : AuthHttpPeer)
    (episodeMessage : EpisodeMessage AuthWithCommentsEpisode)
    (utxoCache : Consensus.Address → Except String (List Utxo)) (answer : Except String Unit) :
    (self.submitEpisodeMessageTransaction episodeMessage utxoCache answer).peer =
      match self.select episodeMessage utxoCache with
      | none => self
      | some (pubkey, utxo) =>
        match self.transactionGenerator.buildCommandTransaction utxo (participantAddr pubkey)
          episodeMessage FEE, answer with
        | none, _ => self.reserve utxo
        | some _, .ok () => self.reserve utxo
        | some _, .error _ => (self.reserve utxo).release (utxoId utxo.1) := by
  unfold submitEpisodeMessageTransaction select
  split
  · rfl
  cases participantPubkey episodeMessage with
  | error msg => rfl
  | ok pubkey =>
    dsimp only
    cases utxoCache (participantAddr pubkey) with
    | error msg => rfl
    | ok entries =>
      cases entries with
      | nil => rfl
      | cons entry entries =>
        dsimp only
        cases self.selectUtxo (entry :: entries) with
        | none => rfl
        | some utxo =>
          dsimp only [Option.map_some]
          cases self.transactionGenerator.buildCommandTransaction utxo (participantAddr pubkey)
              episodeMessage FEE with
          | none => rfl
          | some tx =>
            cases answer with
            | ok _ => rfl
            | error msg => rfl

namespace Submissions

/-- One locked section. Between them a submission only reads what is its own. -/
def step (s : Submissions) : SubmissionStep → Submissions
  | .select id episodeMessage utxoCache =>
    match s.running[id]?, s.peer.select episodeMessage utxoCache with
    | none, some (pubkey, utxo) =>
      { s with running := s.running.insert id ⟨.selected, episodeMessage, pubkey, utxo⟩ }
    | _, _ => s
  | .reserve id =>
    match s.running[id]? with
    | some ⟨.selected, episodeMessage, pubkey, utxo⟩ => {
        peer := s.peer.reserve utxo
        running := s.running.insert id ⟨.reserved, episodeMessage, pubkey, utxo⟩ }
    | _ => s
  | .answer id answer =>
    match s.running[id]? with
    | some ⟨.reserved, episodeMessage, pubkey, utxo⟩ =>
      match s.peer.transactionGenerator.buildCommandTransaction utxo (participantAddr pubkey)
        episodeMessage FEE, answer with
      -- the generator panics, and nothing is released
      | none, _ => { s with running := s.running.erase id }
      | some _, .ok () =>
        { s with running := s.running.insert id ⟨.accepted, episodeMessage, pubkey, utxo⟩ }
      | some _, .error _ => {
          peer := s.peer.release (utxoId utxo.1)
          running := s.running.erase id }
    | _ => s
  | .cleanup id =>
    match s.running[id]? with
    | some ⟨.accepted, _, _, utxo⟩ => {
        peer := s.peer.release (utxoId utxo.1)
        running := s.running.erase id }
    | _ => s

theorem uninterrupted {s : Submissions} {id : ℕ} (hid : s.running[id]? = none)
    (episodeMessage : EpisodeMessage AuthWithCommentsEpisode)
    (utxoCache : Consensus.Address → Except String (List Utxo)) (answer : Except String Unit) :
    (after step s [.select id episodeMessage utxoCache, .reserve id, .answer id answer]).peer =
      (s.peer.submitEpisodeMessageTransaction episodeMessage utxoCache answer).peer := by
  rw [AuthHttpPeer.submit_peer]
  change (((s.step (.select id episodeMessage utxoCache)).step (.reserve id)).step
    (.answer id answer)).peer = _
  cases hselect : s.peer.select episodeMessage utxoCache with
  | none =>
    have hselected : s.step (.select id episodeMessage utxoCache) = s := by
      unfold step
      simp only [hid, hselect]
    have hreserved : s.step (.reserve id) = s := by
      unfold step
      simp only [hid]
    rw [hselected, hreserved]
    unfold step
    simp only [hid]
  | some selected =>
    obtain ⟨pubkey, utxo⟩ := selected
    have hselected : s.step (.select id episodeMessage utxoCache) =
        { s with running := s.running.insert id ⟨.selected, episodeMessage, pubkey, utxo⟩ } := by
      unfold step
      simp only [hid, hselect]
    rw [hselected]
    unfold step
    simp only [ExtTreeMap.getElem?_insert_self]
    have hgenerator : (s.peer.reserve utxo).transactionGenerator = s.peer.transactionGenerator :=
      rfl
    rw [hgenerator]
    cases s.peer.transactionGenerator.buildCommandTransaction utxo (participantAddr pubkey)
        episodeMessage FEE with
    | none => rfl
    | some tx =>
      cases answer with
      | ok _ => rfl
      | error msg => rfl

/-- No two submissions use the same UTXO between their selection and their result, and what a
submission has reserved is there until the submission or its own cleanup removes it. -/
structure Exclusive (s : Submissions) : Prop where
  apart : ∀ (i j : ℕ) a b, s.running[i]? = some a → s.running[j]? = some b →
    a.phase ≠ .accepted → b.phase ≠ .accepted → utxoId a.utxo.1 = utxoId b.utxo.1 → i = j
  reserved : ∀ (i : ℕ) a, s.running[i]? = some a → a.phase ≠ .selected →
    utxoId a.utxo.1 ∈ s.peer.usedUtxos

def selects (s : Submissions) : SubmissionStep → Option Utxo
  | .select id episodeMessage utxoCache =>
    match s.running[id]? with
    | none => (s.peer.select episodeMessage utxoCache).map Prod.snd
    | some _ => none
  | .reserve _ | .answer _ _ | .cleanup _ => none

/-- The UTXO that is selected, if one is, is not what another submission has selected and not
reserved yet. -/
def Unselected (s : Submissions) (e : SubmissionStep) : Prop :=
  ∀ utxo, s.selects e = some utxo → ∀ (j : ℕ) b, s.running[j]? = some b → b.phase = .selected →
    utxoId b.utxo.1 ≠ utxoId utxo.1

end Submissions

section Claims
open Reservation

def Submitting.claim (a : Submitting) : Claim String :=
  match a.phase with
  | .selected => .found (utxoId a.utxo.1)
  | .reserved | .accepted => .held (utxoId a.utxo.1)

def Submissions.reservations (s : Submissions) : State ℕ String where
  taken := {id | id ∈ s.peer.usedUtxos}
  claims := view (fun a : Submitting => some a.claim) s.running

variable {s : Submissions} {id : ℕ} {a : Submitting}

theorem Submitting.claim_resource (a : Submitting) : a.claim.resource = utxoId a.utxo.1 := by
  obtain ⟨phase, episodeMessage, pubkey, utxo⟩ := a
  cases phase with
  | selected | reserved | accepted => rfl

theorem Submitting.claim_held (h : a.phase ≠ .selected) : a.claim = .held (utxoId a.utxo.1) := by
  unfold claim
  cases hphase : a.phase with
  | selected => exact absurd hphase h
  | reserved | accepted => rfl

theorem Submitting.selected_of_found {r : String} (h : a.claim = .found r) :
    a.phase = .selected ∧ utxoId a.utxo.1 = r := by
  constructor
  · by_contra hphase
    cases (claim_held hphase).symm.trans h
  · rw [← a.claim_resource, h]
    rfl

theorem Submissions.claimed_iff {c : Claim String} :
    s.reservations.claims id = some c ↔ ∃ a, s.running[id]? = some a ∧ a.claim = c := by
  unfold reservations view
  dsimp only
  rw [Option.bind_eq_some_iff]
  constructor
  · rintro ⟨a, ha, hc⟩
    exact ⟨a, ha, Option.some.inj hc⟩
  · rintro ⟨a, ha, rfl⟩
    exact ⟨a, ha, rfl⟩

omit [RandChaCha] in
theorem AuthHttpPeer.taken_reserve (peer : AuthHttpPeer) (utxo : Utxo) :
    {id | id ∈ (peer.reserve utxo).usedUtxos} =
      insert (utxoId utxo.1) {id | id ∈ peer.usedUtxos} := by
  ext id
  exact List.mem_insert_iff

omit [RandChaCha] in
theorem AuthHttpPeer.taken_release (peer : AuthHttpPeer) (released : String) :
    {id | id ∈ (peer.release released).usedUtxos} = {id | id ∈ peer.usedUtxos} \ {released} := by
  ext id
  unfold release
  rw [Set.mem_ofPred_eq, List.mem_filter, decide_eq_true_iff]
  rfl

theorem AuthHttpPeer.not_mem_of_select {peer : AuthHttpPeer}
    {episodeMessage : EpisodeMessage AuthWithCommentsEpisode}
    {utxoCache : Consensus.Address → Except String (List Utxo)} {pubkey : PubKey} {utxo : Utxo}
    (h : peer.select episodeMessage utxoCache = some (pubkey, utxo)) :
    utxoId utxo.1 ∉ peer.usedUtxos := by
  unfold select at h
  split at h
  · cases h
  split at h
  · cases h
  split at h
  · cases h
  obtain ⟨found, hfound, hsame⟩ := Option.map_eq_some_iff.mp h
  obtain rfl : found = utxo := congrArg Prod.snd hsame
  simpa using List.find?_some hfound

namespace Submissions

theorem reservations_insert (peer : AuthHttpPeer) :
    reservations ⟨peer, s.running.insert id a⟩ =
      ⟨{id | id ∈ peer.usedUtxos}, Function.update s.reservations.claims id (some a.claim)⟩ :=
  congrArg (State.mk _) (view_insert a)

theorem reservations_erase (peer : AuthHttpPeer) :
    reservations ⟨peer, s.running.erase id⟩ =
      ⟨{id | id ∈ peer.usedUtxos}, Function.update s.reservations.claims id none⟩ :=
  congrArg (State.mk _) view_erase

theorem reservations_step (s : Submissions) (e : SubmissionStep) :
    Step s.reservations ((s.selects e).map fun utxo => utxoId utxo.1)
      (s.step e).reservations := by
  have hclaim : ∀ (id : ℕ) a, s.running[id]? = some a →
      s.reservations.claims id = some a.claim := fun _ a ha => claimed_iff.mpr ⟨a, ha, rfl⟩
  unfold step selects
  cases e with
  -- each locked section is one step of the abstract reservations, or none
  | select id episodeMessage utxoCache =>
    cases hid : s.running[id]? with
    | some a =>
      simp only [hid]
      exact .stay
    | none =>
      cases hselect : s.peer.select episodeMessage utxoCache with
      | none =>
        simp only [hid, hselect]
        exact .stay
      | some selected =>
        simp only [hid, hselect]
        rw [reservations_insert]
        exact .find (view_of_none hid) (AuthHttpPeer.not_mem_of_select hselect)
  | reserve id =>
    dsimp only
    split
    · rename_i hid
      rw [reservations_insert, AuthHttpPeer.taken_reserve]
      exact .take (hclaim id _ hid)
    · exact .stay
  | answer id answer =>
    dsimp only
    split
    · rename_i episodeMessage pubkey utxo hid
      split
      · rw [reservations_erase]
        exact .lose
      -- between the result and the cleanup the claim stands
      · have hsame : (reservations { s with
            running := s.running.insert id ⟨.accepted, episodeMessage, pubkey, utxo⟩ }) =
            s.reservations := by
          rw [reservations_insert]
          exact congrArg (State.mk _) (Function.update_eq_self_iff.mpr (hclaim id _ hid).symm)
        rw [hsame]
        exact .stay
      · rw [reservations_erase, AuthHttpPeer.taken_release]
        exact .release (hclaim id _ hid)
    · exact .stay
  | cleanup id =>
    dsimp only
    split
    · rename_i hid
      rw [reservations_erase, AuthHttpPeer.taken_release]
      exact .release (hclaim id _ hid)
    · exact .stay

theorem exclusive_of_reservations (h : s.reservations.Exclusive) : s.Exclusive where
  apart i j a b hi hj _ _ hsame := by
    apply h.apart i j a.claim b.claim (claimed_iff.mpr ⟨a, hi, rfl⟩) (claimed_iff.mpr ⟨b, hj, rfl⟩)
    rw [Submitting.claim_resource, Submitting.claim_resource]
    exact hsame
  reserved i a hi hphase := by
    apply h.taken i
    exact claimed_iff.mpr ⟨a, hi, Submitting.claim_held hphase⟩

theorem alone_of_unselected {e : SubmissionStep} (h : s.Unselected e) :
    ∀ r, (s.selects e).map (fun utxo => utxoId utxo.1) = some r →
      ∀ j, s.reservations.claims j ≠ some (.found r) := by
  intro r hr j hj
  obtain ⟨utxo, hselects, rfl⟩ := Option.map_eq_some_iff.mp hr
  obtain ⟨b, hb, hclaim⟩ := claimed_iff.mp hj
  obtain ⟨hphase, hsame⟩ := Submitting.selected_of_found hclaim
  exact h utxo hselects j b hb hphase hsame

theorem step_of_selects {e : SubmissionStep} {utxo : Utxo} (h : s.selects e = some utxo) :
    ∃ id a, s.running[id]? = none ∧ a.phase = .selected ∧ a.utxo = utxo ∧
      s.step e = { s with running := s.running.insert id a } := by
  unfold selects at h
  cases e with
  | reserve | answer | cleanup => cases h
  | select id episodeMessage utxoCache =>
    cases hid : s.running[id]? with
    | some a =>
      simp only [hid] at h
      cases h
    | none =>
      simp only [hid] at h
      obtain ⟨⟨pubkey, selected⟩, hselect, rfl⟩ := Option.map_eq_some_iff.mp h
      refine ⟨id, ⟨.selected, episodeMessage, pubkey, selected⟩, hid, rfl, rfl, ?_⟩
      unfold step
      simp only [hid, hselect]

theorem exclusive_step_iff (h : s.reservations.Exclusive) (e : SubmissionStep) :
    (s.step e).Exclusive ↔ s.Unselected e := by
  constructor
  · intro hnext utxo hselects j b hb hphase hsame
    obtain ⟨id, a, hid, haphase, rfl, hstep⟩ := step_of_selects hselects
    rw [hstep] at hnext
    have hne : id ≠ j := fun heq => by
      rw [← heq, hid] at hb
      cases hb
    have hselected : (s.running.insert id a)[id]? = some a := ExtTreeMap.getElem?_insert_self
    have hother : (s.running.insert id a)[j]? = some b := (getElem?_insert_of_ne hne _).trans hb
    have ha : a.phase ≠ .accepted := by
      rw [haphase]
      exact nofun
    have hb : b.phase ≠ .accepted := by
      rw [hphase]
      exact nofun
    exact hne (hnext.apart id j a b hselected hother ha hb hsame.symm)
  · intro hunselected
    exact exclusive_of_reservations
      (h.step (s.reservations_step e) (alone_of_unselected hunselected))

end Submissions

end Claims

/-- For every order of the sections of any number of submissions: the reservations are exclusive all
along if and only if no submission selects a UTXO between the selection of another one and its
reservation of the same UTXO. -/
theorem reservations_exclusive_iff (peer : AuthHttpPeer) (steps : List SubmissionStep) :
    Always Submissions.step ⟨peer, ∅⟩ Submissions.Exclusive steps ↔
      Throughout (fun earlier e => (after Submissions.step ⟨peer, ∅⟩ earlier).Unselected e)
        steps := by
  have hnew : (Submissions.reservations ⟨peer, ∅⟩).Exclusive := by
    have hnone : ∀ (i : ℕ) c, (Submissions.reservations ⟨peer, ∅⟩).claims i ≠ some c := by
      intro i c hc
      obtain ⟨a, ha, -⟩ := Submissions.claimed_iff.mp hc
      cases (ExtTreeMap.getElem?_empty (a := i)).symm.trans ha
    exact ⟨fun i j c d hi => absurd hi (hnone i c), fun i r hi => absurd hi (hnone i _)⟩
  refine always_iff_throughout (Q := fun s => s.reservations.Exclusive)
    (Submissions.exclusive_of_reservations hnew) hnew ?_ ?_ steps
  · intro s e _ h hunselected
    exact h.step (s.reservations_step e) (Submissions.alone_of_unselected hunselected)
  · intro s e _ h
    exact Submissions.exclusive_step_iff h e

end Kdapp.CommentIt

namespace Kdapp.CommentIt
open Transition
attribute [local instance] idealCrypto seedRand matchingCrates

def oneCoin : Utxo := (⟨Hash.filled 1, 0⟩, ⟨10000, ([] : Borsh.Bytes), 5, false⟩)

def openPeer : AuthHttpPeer where
  transactionGenerator := ⟨(7 : UInt8), Vector.replicate 10 (0, 0), 11⟩
  kaspadClient := true
  usedUtxos := []

def opening (id : ℕ) : SubmissionStep :=
  .select id (.newEpisode 1 [(7 : UInt8)]) fun _ => .ok [oneCoin]

/-- Two submissions select the only UTXO before either reserves it. -/
theorem selected_twice :
    ¬ ∀ (peer : AuthHttpPeer) (steps : List SubmissionStep),
      Always Submissions.step ⟨peer, ∅⟩ Submissions.Exclusive steps := by
  intro h
  have hexclusive := h openPeer [opening 1, opening 2] 2
  have hsame := hexclusive.apart 1 2 _ _ rfl rfl nofun nofun rfl
  exact absurd hsame (by decide)

end Kdapp.CommentIt
