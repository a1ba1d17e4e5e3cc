import Kdapp.KaspaAuth.Organizer

/-! The session that a participant is told of is its own, whatever others send. -/

namespace Kdapp.KaspaAuth
open InOrder Transition
open Std (ExtTreeMap)

variable [Crypto] [RandChaCha]

/-! ### Where the participant and its episode stand -/

namespace SimpleAuth
variable (pk : PubKey) (g : SimpleAuth)

/-- The participant is the owner, and nobody else may send commands. -/
structure Belongs : Prop where
  owner : g.owner = some pk
  authorizedParticipants : g.authorizedParticipants = [pk]

structure Opened : Prop extends Belongs pk g where
  challenge : g.challenge = none
  isAuthenticated : g.isAuthenticated = false
  sessionToken : g.sessionToken = none
  attempts : g.attempts pk = []

structure Challenged (challenge : String) : Prop extends Belongs pk g where
  challenge : g.challenge = some challenge
  isAuthenticated : g.isAuthenticated = false
  sessionToken : g.sessionToken = none
  attempts : (g.attempts pk).length ≤ 1

structure SignedIn (token : String) : Prop extends Belongs pk g where
  isAuthenticated : g.isAuthenticated = true
  sessionToken : g.sessionToken = some token
  nonempty : token ≠ ""

variable {pk} {g}

omit [RandChaCha] in
theorem create_opened (md : PayloadMetadata) : (create [pk] md).Opened pk where
  owner := rfl
  authorizedParticipants := rfl
  challenge := rfl
  isAuthenticated := rfl
  sessionToken := rfl
  attempts := rfl

omit [RandChaCha] in
theorem not_rateLimited (h : (g.attempts pk).length ≤ 1) (now : UInt64) :
    g.isRateLimited pk now = false := by
  apply Bool.eq_false_of_not_eq_true
  rw [isRateLimited_iff]
  have hfilter := (List.length_filter_le (recent now) (g.attempts pk)).trans h
  unfold maxAttempts
  omega

theorem Opened.request (h : g.Opened pk) (md : PayloadMetadata) (now : UInt64) :
    ∃ g' rb, g.execute now md .requestChallenge (some pk) = (g', .ok rb) ∧
      g'.Challenged pk (challengeFor pk md) := by
  have hlimit : (g.attempts pk).length ≤ 1 := by
    rw [h.attempts]
    exact Nat.zero_le 1
  have hadmits : g.Admits ⟨.requestChallenge, some pk, md, now⟩ pk := by
    refine ⟨rfl, ?_, not_rateLimited hlimit _, trivial⟩
    rw [h.authorizedParticipants]
    exact List.mem_singleton_self pk
  have hattempts : ((g.applied pk md .requestChallenge).attempts pk).length ≤ 1 := by
    have hincrement := g.attempts_increment pk md.acceptingTime pk
    rw [if_pos rfl, h.attempts, List.nil_append] at hincrement
    refine le_trans (le_of_eq (congrArg List.length hincrement)) ?_
    exact List.length_filter_le _ [md.acceptingTime]
  rcases g.execute_cases ⟨.requestChallenge, some pk, md, now⟩ with
    ⟨hnot, -⟩ | ⟨pk', h', hexec⟩
  · exact absurd hadmits (hnot pk)
  · obtain rfl := hadmits.unique h'
    exact ⟨_, _, hexec, ⟨⟨rfl, h.authorizedParticipants⟩, rfl, h.isAuthenticated, h.sessionToken,
      hattempts⟩⟩

theorem Challenged.respond {challenge signature : String} (h : g.Challenged pk challenge)
    (hsignature : SignatureVerifier.verify pk challenge signature = true) (md : PayloadMetadata)
    (now : UInt64) :
    if ChallengeGenerator.isValid now challenge 3600 = true then
      ∃ g' rb token, g.execute now md (.submitResponse signature challenge) (some pk) =
        (g', .ok rb) ∧ g'.SignedIn pk token
    else ∃ e, g.execute now md (.submitResponse signature challenge) (some pk) = (g, .error e) := by
  have hlimit := not_rateLimited h.attempts md.acceptingTime
  have hauthorized : pk ∈ g.authorizedParticipants := by
    rw [h.authorizedParticipants]
    exact List.mem_singleton_self pk
  have htoken : g.generateSessionToken ≠ "" := by
    intro hempty
    have hchars := congrArg String.toList hempty
    unfold generateSessionToken at hchars
    rw [String.toList_append] at hchars
    cases hchars
  rcases g.execute_cases ⟨.submitResponse signature challenge, some pk, md, now⟩ with
    ⟨hnot, e, hexec⟩ | ⟨pk', h', hexec⟩
  · rw [if_neg]
    · exact ⟨e, hexec⟩
    · intro hvalid
      exact hnot pk ⟨rfl, hauthorized, hlimit, h.isAuthenticated, h.challenge, hvalid, hsignature⟩
  · rw [if_pos h'.allowed.2.2.1]
    exact ⟨_, _, _, hexec, ⟨⟨h.owner, h.authorizedParticipants⟩, rfl, rfl, htoken⟩⟩

end SimpleAuth

namespace P2pFlow
open Engine (callsOf revertsOf)
open CommentBoard (hex)

variable [AddressCrates] (self : P2pFlow)

def Carries (tx : Tx) (a : EpisodeMessage SimpleAuth) : Prop :=
  Engine.action (tx.payload.drop 8) = some a

/-- How many transactions the participant has sent, which of them are in no block, and what the
organizer holds. A response is refused only if it may be `late`. -/
inductive Position (late : Prop) : ℕ → List Tx → Option SimpleAuth → Prop
  | unsent : Position late 0 [] none
  | opening {t} (ht : Carries t self.newEpisodeMsg) : Position late 1 [t] none
  | opened {g} (hg : g.Opened self.participantPubkey) : Position late 1 [] (some g)
  | preparing {t t' a} (ht : Carries t self.newEpisodeMsg)
    (ha : self.signed .requestChallenge = some a) (ht' : Carries t' a) :
    Position late 2 [t, t'] none
  | requesting {t a g} (hg : g.Opened self.participantPubkey)
    (ha : self.signed .requestChallenge = some a) (ht : Carries t a) : Position late 2 [t] (some g)
  | challenged {g c} (hg : g.Challenged self.participantPubkey c) : Position late 2 [] (some g)
  | responding {t a g c} (hg : g.Challenged self.participantPubkey c)
    (ha : (self.response c).bind self.signed = some a) (ht : Carries t a) :
    Position late 3 [t] (some g)
  | signedIn {g token} (hg : g.SignedIn self.participantPubkey token) : Position late 3 [] (some g)
  | refused {g c} (hlate : late) (hg : g.Challenged self.participantPubkey c) :
    Position late 3 [] (some g)

variable {self} {late : Prop} {n : ℕ} {pending : List Tx} {g : SimpleAuth}
  {s : Engine SimpleAuth} {m : SharedEpisodeState} {md : PayloadMetadata}
  {a : EpisodeMessage SimpleAuth} {out : Handled SimpleAuth} {tx : Tx}

theorem Position.belongs (h : self.Position late n pending (some g)) :
    g.Belongs self.participantPubkey := by
  cases h with
  | opened hg => exact hg.toBelongs
  | requesting hg => exact hg.toBelongs
  | challenged hg => exact hg.toBelongs
  | responding hg => exact hg.toBelongs
  | signedIn hg => exact hg.toBelongs
  | refused hlate hg => exact hg.toBelongs

theorem Position.unasked {held : Option SimpleAuth} (h : self.Position late n (tx :: pending) held)
    (h' : self.Position late n pending (some g)) (hpending : pending ≠ []) :
    g.challenge = none := by
  cases h with
  | opening ht => exact absurd rfl hpending
  | preparing ht ha ht' =>
    cases h' with
    | requesting hg ha ht => exact hg.challenge
  | requesting hg ha ht => exact absurd rfl hpending
  | responding hg ha ht => exact absurd rfl hpending

theorem Position.carries {held : Option SimpleAuth}
    (h : self.Position late n (tx :: pending) held) : ∃ a, Carries tx a := by
  cases h with
  | opening ht => exact ⟨_, ht⟩
  | preparing ht => exact ⟨_, ht⟩
  | requesting hg ha ht => exact ⟨_, ht⟩
  | responding hg ha ht => exact ⟨_, ht⟩

theorem signed_eq {cmd : AuthCommand} (h : self.signed cmd = some a) :
    ∃ msg, toMessage AuthCommand.codec cmd = some msg ∧
      a = .signedCommand self.episodeId cmd self.participantPubkey
        (signMessage (AddressCrates.secretKey self.keypair) msg) := by
  obtain ⟨msg, hmsg, heq⟩ := Option.map_eq_some_iff.mp h
  exact ⟨msg, hmsg, heq.symm⟩

omit [RandChaCha] in
theorem response_eq {c : String} {cmd : AuthCommand} (h : self.response c = some cmd) :
    ∃ msg, SignatureVerifier.digest c = some msg ∧
      cmd = .submitResponse (hex (Crypto.serializeDer
        (signMessage (AddressCrates.secretKey self.keypair) msg))) c := by
  obtain ⟨msg, hmsg, heq⟩ := Option.map_eq_some_iff.mp h
  exact ⟨msg, hmsg, heq.symm⟩

section Signed
variable (hkey : self.participantPubkey =
  Crypto.fromSecretKey (AddressCrates.secretKey self.keypair))
include hkey

omit [RandChaCha] in
theorem response_verifies {c : String} {msg : Message}
    (hmsg : SignatureVerifier.digest c = some msg) :
    SignatureVerifier.verify self.participantPubkey c (hex (Crypto.serializeDer
      (signMessage (AddressCrates.secretKey self.keypair) msg))) = true := by
  refine SignatureVerifier.verify_iff.mpr
    ⟨signMessage (AddressCrates.secretKey self.keypair) msg, msg, ?_, hmsg, ?_⟩
  · unfold SignatureVerifier.decode
    rw [hexDecode_hex]
    exact Crypto.fromDer_serializeDer _
  · rw [hkey]
    exact verifySignature_signMessage _ msg

theorem Position.own (h : self.Position late n (tx :: pending) m[self.episodeId]?)
    (hshows : Shows self.episodeId s m) (ha : Carries tx a) (hout : s.handleMessage a md = .ok out)
    (hvalid : ∀ g c, m[self.episodeId]? = some g → g.challenge = some c →
      late ∨ ChallengeGenerator.isValid s.world c 3600 = true) :
    let m' := out.calls.foldl HttpAuthHandler.record m
    Shows self.episodeId out.engine m' ∧ self.Position late n pending m'[self.episodeId]? := by
  -- the first transaction: the id is free, so the episode is created for the participant
  have hopen : Carries tx self.newEpisodeMsg → m[self.episodeId]? = none →
      ∃ g : SimpleAuth, g.Opened self.participantPubkey ∧
        Shows self.episodeId out.engine (out.calls.foldl HttpAuthHandler.record m) ∧
        (out.calls.foldl HttpAuthHandler.record m)[self.episodeId]? = some g := by
    intro ht hnone
    obtain rfl := Option.some.inj (ha.symm.trans ht)
    have hfree : s.episodes[self.episodeId]? = none := by
      unfold Shows at hshows
      rw [hnone] at hshows
      exact Option.map_eq_none_iff.mp hshows
    have hhandles := Engine.handleMessage_ok hout
    unfold newEpisodeMsg at hhandles
    cases hhandles with
    | known hmem => exact absurd hmem (Engine.not_mem_of_getElem? hfree)
    | @created _ _ g world hmem hinit =>
      obtain rfl : SimpleAuth.create [self.participantPubkey] md = g :=
        (Prod.mk.inj (Except.ok.inj hinit)).1
      exact ⟨_, SimpleAuth.create_opened md, Shows.inserted s m ⟨_, []⟩,
        ExtTreeMap.getElem?_insert_self⟩
    | missing hnew => exact absurd rfl (hnew _)
    | rejected hcmd => cases hcmd
    | executed hcmd => cases hcmd
  -- the second: the owner asks for the challenge of an opened episode
  have hrequest : ∀ a' g, self.signed .requestChallenge = some a' → Carries tx a' →
      m[self.episodeId]? = some g → g.Opened self.participantPubkey →
      ∃ (g' : SimpleAuth) (c : String), g'.Challenged self.participantPubkey c ∧
        Shows self.episodeId out.engine (out.calls.foldl HttpAuthHandler.record m) ∧
        (out.calls.foldl HttpAuthHandler.record m)[self.episodeId]? = some g' := by
    intro a' g hsigned ht hsome hg
    obtain rfl := Option.some.inj (ha.symm.trans ht)
    obtain ⟨msg, hmsg, rfl⟩ := signed_eq hsigned
    unfold Shows at hshows
    rw [hsome] at hshows
    obtain ⟨ew, hew, rfl⟩ := Option.map_eq_some_iff.mp hshows
    obtain ⟨g', rb, hexec, hchallenged⟩ := hg.request md s.world
    have hsig : verifySignature self.participantPubkey msg
        (signMessage (AddressCrates.secretKey self.keypair) msg) = true := by
      rw [hkey]
      exact verifySignature_signMessage _ msg
    cases ((handleMessage_signed hew hmsg hsig).1 g' rb hexec).symm.trans hout
    exact ⟨g', _, hchallenged, Shows.inserted s m ⟨g', rb :: ew.rollbackStack⟩,
      ExtTreeMap.getElem?_insert_self⟩
  generalize hg : m[self.episodeId]? = held at h
  cases h with
  | opening ht =>
    obtain ⟨g, hopened, hshows', hsome⟩ := hopen ht hg
    refine ⟨hshows', ?_⟩
    rw [hsome]
    exact .opened hopened
  | preparing ht ha' ht' =>
    obtain ⟨g, hopened, hshows', hsome⟩ := hopen ht hg
    refine ⟨hshows', ?_⟩
    rw [hsome]
    exact .requesting hopened ha' ht'
  | requesting hopened ha' ht =>
    obtain ⟨g', c, hchallenged, hshows', hsome⟩ := hrequest _ _ ha' ht hg hopened
    refine ⟨hshows', ?_⟩
    rw [hsome]
    exact .challenged hchallenged
  | @responding _ a' g c hchallenged ha' ht =>
    obtain rfl := Option.some.inj (ha.symm.trans ht)
    obtain ⟨cmd, hcmd, hsigned⟩ := Option.bind_eq_some_iff.mp ha'
    obtain ⟨digest, hdigest, rfl⟩ := response_eq hcmd
    obtain ⟨msg, hmsg, rfl⟩ := signed_eq hsigned
    have hverifies := response_verifies hkey hdigest
    have hsig : verifySignature self.participantPubkey msg
        (signMessage (AddressCrates.secretKey self.keypair) msg) = true := by
      rw [hkey]
      exact verifySignature_signMessage _ msg
    have hheld := hshows
    unfold Shows at hheld
    rw [hg] at hheld
    obtain ⟨ew, hew, rfl⟩ := Option.map_eq_some_iff.mp hheld
    have hrespond := hchallenged.respond hverifies md s.world
    split at hrespond
    · obtain ⟨g', rb, token, hexec, hin⟩ := hrespond
      cases ((handleMessage_signed hew hmsg hsig).1 g' rb hexec).symm.trans hout
      refine ⟨Shows.inserted s m ⟨g', rb :: ew.rollbackStack⟩, ?_⟩
      have hsome : (m.insert self.episodeId g')[self.episodeId]? = some g' :=
        ExtTreeMap.getElem?_insert_self
      change self.Position late 3 [] (m.insert self.episodeId g')[self.episodeId]?
      rw [hsome]
      exact .signedIn hin
    · rename_i hexpired
      obtain ⟨e, hexec⟩ := hrespond
      -- refused: the only check of a response left to fail is the age of the challenge
      have hlate : late := (hvalid _ _ hg hchallenged.challenge).resolve_right hexpired
      cases ((handleMessage_signed hew hmsg hsig).2 _ e hexec).symm.trans hout
      refine ⟨(congrArg _ ExtTreeMap.getElem?_insert_self).trans hg.symm, ?_⟩
      change self.Position late 3 [] m[self.episodeId]?
      rw [hg]
      exact .refused hlate hchallenged

theorem Position.accepted {blk : BlkAccepted} {carried : List Carried} {t : Engine SimpleAuth}
    {revertVec : List Reversion} {calls : List (HandlerCall SimpleAuth)}
    (h : self.Position late n pending m[self.episodeId]?) (hshows : Shows self.episodeId s m)
    (hforeign : ∀ tx, .other tx ∈ carried → ∀ a, Engine.action tx.2.1 = some a →
      Foreign self.episodeId self.participantPubkey a)
    (hvalid : ∀ g c, m[self.episodeId]? = some g → g.challenge = some c → pending ≠ [] →
      late ∨ ChallengeGenerator.isValid s.world c 3600 = true)
    (hrun : Engine.acceptTxs blk (carry carried pending).1 s = .ok (t, revertVec, calls)) :
    let m' := calls.foldl HttpAuthHandler.record m
    Shows self.episodeId t m' ∧
      self.Position late n (carry carried pending).2 m'[self.episodeId]? ∧
      (pending = [] → m'[self.episodeId]? = m[self.episodeId]?) := by
  induction carried generalizing pending s m revertVec calls with
  | nil =>
    cases hrun
    exact ⟨hshows, h, fun _ => rfl⟩
  | cons c carried ih =>
    have hrest : ∀ tx, .other tx ∈ carried → ∀ a, Engine.action tx.2.1 = some a →
        Foreign self.episodeId self.participantPubkey a :=
      fun tx htx => hforeign tx (List.mem_cons_of_mem c htx)
    cases c with
    | other tx =>
      change Engine.acceptTxs blk (tx :: (carry carried pending).1) s = _ at hrun
      cases ha : (Engine.action tx.2.1 : Option (EpisodeMessage SimpleAuth)) with
      | none =>
        rw [Engine.acceptTxs_skip _ s ha] at hrun
        exact ih h hshows hrest hvalid hrun
      | some a =>
        obtain ⟨out, rv, cs, hout, htail, -, rfl⟩ := Engine.acceptTxs_action ha hrun
        have hhandles := Engine.handleMessage_ok hout
        obtain ⟨hshows', hsame⟩ := hshows.foreign hhandles (Engine.action_ne_revert ha)
          (hforeign tx List.mem_cons_self a ha) fun g hg => by
            rw [hg] at h
            exact h.belongs.authorizedParticipants
        rw [List.foldl_append]
        -- nobody else's transaction changes what is shown of the episode
        rw [← hsame] at h hvalid ⊢
        rw [← handles_world hhandles] at hvalid
        exact ih h hshows' hrest hvalid htail
    | own txOutputs =>
      cases pending with
      -- none of the participant's own is left to carry
      | nil => exact ih h hshows hrest hvalid hrun
      | cons tx pending =>
        change Engine.acceptTxs blk ((tx.id, tx.payload.drop 8, txOutputs) ::
          (carry carried pending).1) s = _ at hrun
        obtain ⟨a, ha⟩ := h.carries
        have haction : Engine.action (tx.id, tx.payload.drop 8, txOutputs).2.1 = some a := ha
        obtain ⟨out, rv, cs, hout, htail, -, rfl⟩ := Engine.acceptTxs_action haction hrun
        obtain ⟨hshows', hnext⟩ := h.own hkey hshows ha hout fun g c hg hc =>
          hvalid g c hg hc (List.cons_ne_nil tx pending)
        -- with transactions still to come, the block has not brought the challenge yet
        have hunasked : ∀ g c,
            (out.calls.foldl HttpAuthHandler.record m)[self.episodeId]? = some g →
            g.challenge = some c → pending ≠ [] →
              late ∨ ChallengeGenerator.isValid out.engine.world c 3600 = true := by
          intro g c hg hc hpending
          rw [hg] at hnext
          cases (h.unasked hnext hpending).symm.trans hc
        obtain ⟨hfinal, hposition, -⟩ := ih hnext hshows' hrest hunasked htail
        rw [List.foldl_append]
        exact ⟨hfinal, hposition, fun hnil => absurd hnil (List.cons_ne_nil tx pending)⟩

end Signed

theorem carries_of_build {utxo : Utxo} (h : self.generator.buildCommandTransaction utxo
    self.kaspaAddr a 5000 = some tx) (hrevert : ∀ id, a ≠ .revert id) : Carries tx a := by
  obtain ⟨-, -, -, -, innerData, hstrip, -, hslice⟩ :=
    TransactionGenerator.command_round_trip AuthCommand.codec_lawful h
  have hdrop : tx.payload.drop 8 = innerData := by
    unfold Payload.stripHeader at hstrip
    exact Option.some.inj (Option.ite_none_left_eq_some.mp hstrip).2
  unfold Carries
  rw [hdrop]
  exact Engine.action_of_fromSlice hslice hrevert

/-! ### Every run -/

variable (self) in
def Fits : Phase → ℕ → Option SimpleAuth → Prop
  | .connecting, n, _ => n = 0
  | .requesting _, n, _ => n = 1
  | .awaitingChallenge _ _, n, _ => n = 2
  | .answering _ challenge, n, held =>
    n = 2 ∧ ∃ g : SimpleAuth, held = some g ∧ g.challenge = some challenge
  | .awaitingToken _, n, _ => n = 3
  | .returned (.ok token), _, held =>
    ∃ g : SimpleAuth, held = some g ∧ g.SignedIn self.participantPubkey token
  | .returned (.error _), _, _ => True
  | .panicked, _, _ => True

theorem Fits.kept {phase : Phase} {held held' : Option SimpleAuth} (h : self.Fits phase n held)
    (hposition : self.Position late n pending held) (hsame : pending = [] → held' = held) :
    self.Fits phase n held' := by
  cases phase with
  | answering utxo challenge =>
    obtain ⟨hn, g, hheld, hchallenge⟩ := h
    subst hn hheld
    have hpending : pending = [] := by
      cases hposition with
      | challenged hg => rfl
      | requesting hg ha ht => cases hg.challenge.symm.trans hchallenge
    exact ⟨rfl, g, hsame hpending, hchallenge⟩
  | returned result =>
    cases result with
    | error e => trivial
    | ok token =>
      obtain ⟨g, hheld, hg⟩ := h
      subst hheld
      have hpending : pending = [] := by
        cases hposition with
        | opened hg' => rfl
        | challenged hg' => rfl
        | signedIn hg' => rfl
        | refused hlate hg' => rfl
        | requesting hg' ha ht => cases hg'.isAuthenticated.symm.trans hg.isAuthenticated
        | responding hg' ha ht => cases hg'.isAuthenticated.symm.trans hg.isAuthenticated
      exact ⟨g, hsame hpending, hg⟩
  | _ => exact h

structure Coupled (flow : P2pFlow) (late : Prop) (st : State) : Prop where
  shows : Shows flow.episodeId st.engine st.blockchainEpisodes
  position : ∃ n, flow.Position late n st.pending st.blockchainEpisodes[flow.episodeId]? ∧
    flow.Fits st.phase n st.blockchainEpisodes[flow.episodeId]?

variable (self) in
def Undisturbed (st : State) : Event → Prop
  | .accepts blk carried => ¬ st.engine.Expires blk.acceptingDaa self.episodeId ∧
    ∀ tx, .other tx ∈ carried → ∀ a, Engine.action tx.2.1 = some a →
      Foreign self.episodeId self.participantPubkey a
  | .reverts acceptingHash => ∀ entries, st.engine.revertMap[acceptingHash]? = some entries →
    revertsOf self.episodeId entries = []
  | _ => True

variable (self) in
/-- While transactions of the participant are in no block, the challenge does not expire. -/
def InTime (st : State) : Event → Prop
  | .accepts _ _ => st.pending ≠ [] → ∀ g c, st.blockchainEpisodes[self.episodeId]? = some g →
    g.challenge = some c → ChallengeGenerator.isValid st.engine.world c 3600 = true
  | _ => True

section Step
variable {st : State}

theorem Coupled.submit {utxo : Utxo} {msg : Option (EpisodeMessage SimpleAuth)}
    {answer : Except String Unit} {next : Tx → Phase} {m : ℕ}
    (hshows : Shows self.episodeId st.engine st.blockchainEpisodes)
    (hposition : self.Position late n st.pending st.blockchainEpisodes[self.episodeId]?)
    (hrevert : ∀ a, msg = some a → ∀ id, a ≠ .revert id)
    (hsent : ∀ a tx, msg = some a → Carries tx a →
      self.Position late m (st.pending ++ [tx]) st.blockchainEpisodes[self.episodeId]?)
    (hnext : ∀ tx, self.Fits (next tx) m st.blockchainEpisodes[self.episodeId]?) :
    self.Coupled late (self.submit st utxo msg answer next) := by
  unfold P2pFlow.submit
  split
  · exact ⟨hshows, n, hposition, trivial⟩
  · rename_i tx hbuilt
    obtain ⟨a, hmsg, htx⟩ := Option.bind_eq_some_iff.mp hbuilt
    refine ⟨hshows, m, hsent a tx hmsg (carries_of_build htx (hrevert a hmsg)), ?_⟩
    cases answer with
    | error e => trivial
    | ok u => exact hnext tx

omit [RandChaCha] in
theorem fits_goOn {next : Utxo → Phase} {held : Option SimpleAuth}
    (h : ∀ utxo, self.Fits (next utxo) n held) (tx : Tx) : self.Fits (goOn next tx) n held := by
  unfold goOn
  cases getFirstOutputUtxo tx with
  | none => trivial
  | some utxo => exact h utxo

theorem signed_ne_revert {cmd : AuthCommand} {a : EpisodeMessage SimpleAuth}
    (h : self.signed cmd = some a) (id : EpisodeId) : a ≠ .revert id := by
  obtain ⟨msg, -, rfl⟩ := signed_eq h
  exact fun heq => by cases heq

theorem statusOf_eq {reached : Bool} {status : AuthStatus}
    (h : self.statusOf st reached = some status) :
    (∀ c, status.challenge = some c → ∃ g : SimpleAuth,
      st.blockchainEpisodes[self.episodeId]? = some g ∧ g.challenge = some c) ∧
      ∀ token, status.sessionToken = some token → ∃ g : SimpleAuth,
        st.blockchainEpisodes[self.episodeId]? = some g ∧ g.sessionToken = some token := by
  obtain ⟨-, heq⟩ := Option.ite_none_right_eq_some.mp h
  obtain rfl := Option.some.inj heq
  unfold getStatus
  cases st.blockchainEpisodes[self.episodeId]? with
  | none => exact ⟨fun c hc => absurd hc (Option.some_ne_none c).symm,
      fun token htoken => absurd htoken (Option.some_ne_none token).symm⟩
  | some g => exact ⟨fun c hc => ⟨g, rfl, hc⟩, fun token htoken => ⟨g, rfl, htoken⟩⟩

theorem Coupled.act (h : self.Coupled late st) (e : Event) :
    self.Coupled late (self.act st st.phase e) := by
  obtain ⟨hshows, n, hposition, hfits⟩ := h
  have hidle : self.Coupled late st := ⟨hshows, n, hposition, hfits⟩
  have hfailed : ∀ error, self.Coupled late { st with phase := .returned (.error error) } :=
    fun error => ⟨hshows, n, hposition, trivial⟩
  cases hphase : st.phase with
  | connecting =>
    rw [hphase] at hfits
    obtain rfl : n = 0 := hfits
    cases e with
    | connects entries answer =>
      -- the episode is sent for only when the node has a UTXO to spend
      match entries with
      | .error e => exact hfailed (.node e)
      | .ok [] => exact hfailed .noUtxos
      | .ok (utxo :: _) =>
        refine Coupled.submit (m := 1) hshows hposition ?_ ?_ (fits_goOn fun utxo => rfl)
        · intro a ha id
          obtain rfl := Option.some.inj ha
          exact fun heq => by cases heq
        · intro a tx ha htx
          obtain rfl := Option.some.inj ha
          generalize st.blockchainEpisodes[self.episodeId]? = held at hposition
          generalize st.pending = pending at hposition
          cases hposition with
          | unsent => exact .opening htx
    | _ => exact hidle
  | requesting utxo =>
    rw [hphase] at hfits
    obtain rfl : n = 1 := hfits
    cases e with
    | requests answer =>
      refine Coupled.submit (m := 2) hshows hposition (fun a ha => signed_ne_revert ha) ?_
        (fits_goOn fun utxo => rfl)
      intro a tx ha htx
      generalize st.blockchainEpisodes[self.episodeId]? = held at hposition
      generalize st.pending = pending at hposition
      cases hposition with
      | opening ht => exact .preparing ht ha htx
      | opened hg => exact .requesting hg ha htx
    | _ => exact hidle
  | awaitingChallenge utxo left =>
    rw [hphase] at hfits
    obtain rfl : n = 2 := hfits
    cases e with
    | polls reached =>
      refine ⟨hshows, 2, hposition, ?_⟩
      change self.Fits (pollChallenge utxo left (self.statusOf st reached)) 2 _
      unfold pollChallenge
      split
      · rename_i challenge hstatus
        split
        · trivial
        · obtain ⟨status, hstatus, hchallenge⟩ := Option.bind_eq_some_iff.mp hstatus
          exact ⟨rfl, (statusOf_eq hstatus).1 challenge hchallenge⟩
      · trivial
      · rfl
    | _ => exact hidle
  | answering utxo challenge =>
    rw [hphase] at hfits
    obtain ⟨rfl, g, hg, hchallenge⟩ := hfits
    cases e with
    | responds answer =>
      refine Coupled.submit (m := 3) hshows hposition ?_ ?_ fun tx => rfl
      · intro a ha
        obtain ⟨cmd, -, hsigned⟩ := Option.bind_eq_some_iff.mp ha
        exact signed_ne_revert hsigned
      · intro a tx ha htx
        rw [hg] at hposition ⊢
        generalize st.pending = pending at hposition
        cases hposition with
        -- a challenge that was polled is there: the request cannot be on its way still
        | requesting hg' ha' ht => cases hg'.challenge.symm.trans hchallenge
        | challenged hg' =>
          obtain rfl := Option.some.inj (hg'.challenge.symm.trans hchallenge)
          exact .responding hg' ha htx
    | _ => exact hidle
  | awaitingToken left =>
    rw [hphase] at hfits
    obtain rfl : n = 3 := hfits
    cases e with
    | polls reached =>
      refine ⟨hshows, 3, hposition, ?_⟩
      change self.Fits (pollToken left (self.statusOf st reached)) 3 _
      unfold pollToken
      split
      · rename_i token hfilter
        obtain ⟨hstatus, -⟩ := Option.filter_eq_some_iff.mp hfilter
        obtain ⟨status, hstatus, htoken⟩ := Option.bind_eq_some_iff.mp hstatus
        obtain ⟨g, hg, hsession⟩ := (statusOf_eq hstatus).2 token htoken
        refine ⟨g, hg, ?_⟩
        rw [hg] at hposition
        generalize st.pending = pending at hposition
        cases hposition with
        -- a token that was polled is there: the response is in a block, and was not refused
        | responding hg' ha ht => cases hg'.sessionToken.symm.trans hsession
        | refused hlate hg' => cases hg'.sessionToken.symm.trans hsession
        | signedIn hg' =>
          obtain rfl := Option.some.inj (hg'.sessionToken.symm.trans hsession)
          exact hg'
      · trivial
      · rfl
    | _ => exact hidle
  | returned result => exact hidle
  | panicked => exact hidle

theorem Coupled.step (hkey : self.participantPubkey =
      Crypto.fromSecretKey (AddressCrates.secretKey self.keypair))
    (h : self.Coupled late st) (e : Event) (hundisturbed : self.Undisturbed st e)
    (htime : late ∨ self.InTime st e) : self.Coupled late (self.step st e) := by
  cases e with
  | accepts blk carried =>
    obtain ⟨hkept, hforeign⟩ := hundisturbed
    obtain ⟨hshows, n, hposition, hfits⟩ := h
    obtain ⟨⟨t, calls⟩, hblock⟩ :=
      acceptBlock_total st.engine { blk with associatedTxs := (carry carried st.pending).1 }
    obtain ⟨s₁, revertVec, htxs, rfl⟩ := Engine.acceptBlock_ok hblock
    -- the filter runs before the transactions, and keeps the episode
    have hfiltered : Shows self.episodeId (st.engine.filterOldEpisodes blk.acceptingDaa)
        st.blockchainEpisodes := by
      unfold Shows
      rw [(Engine.filterOldEpisodes_kept hkept).1]
      exact hshows
    have hvalid : ∀ g c, st.blockchainEpisodes[self.episodeId]? = some g → g.challenge = some c →
        st.pending ≠ [] → late ∨ ChallengeGenerator.isValid
          (st.engine.filterOldEpisodes blk.acceptingDaa).world c 3600 = true := by
      intro g c hg hc hpending
      rw [(Engine.filterOldEpisodes_frame st.engine blk.acceptingDaa).2]
      exact htime.imp_right fun htime => htime hpending g c hg hc
    obtain ⟨hshows', hposition', hsame⟩ := hposition.accepted hkey hfiltered hforeign hvalid htxs
    have hstep : self.step st (.accepts blk carried) = { st with
        pending := (carry carried st.pending).2
        engine := { s₁ with revertMap := s₁.revertMap.insert blk.acceptingHash revertVec }
        blockchainEpisodes := calls.foldl HttpAuthHandler.record st.blockchainEpisodes } := by
      change State.told _ _ = _
      rw [hblock]
      rfl
    rw [hstep]
    exact ⟨hshows', n, hposition', hfits.kept hposition hsame⟩
  | reverts acceptingHash =>
    obtain ⟨hshows, n, hposition, hfits⟩ := h
    obtain ⟨⟨t, calls⟩, hblock⟩ := revertBlock_total st.engine acceptingHash
    obtain ⟨hshows', hsame⟩ := hshows.reverted hundisturbed hblock
    have hstep : self.step st (.reverts acceptingHash) = { st with
        engine := t
        blockchainEpisodes := calls.foldl HttpAuthHandler.record st.blockchainEpisodes } := by
      change State.told _ _ = _
      rw [hblock]
      rfl
    rw [hstep]
    refine ⟨hshows', n, ?_, ?_⟩
    · rw [hsame]
      exact hposition
    · rw [hsame]
      exact hfits
  | clock now => exact ⟨h.shows, h.position⟩
  | connects entries answer => exact h.act (.connects entries answer)
  | requests answer => exact h.act (.requests answer)
  | polls reached => exact h.act (.polls reached)
  | responds answer => exact h.act (.responds answer)

end Step

theorem start_coupled {engine : Engine SimpleAuth} {blockchainEpisodes : SharedEpisodeState}
    (hfree : engine.episodes[self.episodeId]? = none)
    (hunknown : blockchainEpisodes[self.episodeId]? = none) :
    self.Coupled late ⟨.connecting, [], engine, blockchainEpisodes⟩ := by
  refine ⟨?_, 0, ?_, rfl⟩
  · unfold Shows
    rw [hfree, hunknown]
    rfl
  · change self.Position late 0 [] blockchainEpisodes[self.episodeId]?
    rw [hunknown]
    exact .unsent

/-- The session with this token is the participant's own, at the organizer too. -/
structure OwnSession (flow : P2pFlow) (st : State) (token : String)
    (ew : EpisodeWrapper SimpleAuth) : Prop
    extends ew.episode.SignedIn flow.participantPubkey token where
  held : st.engine.episodes[flow.episodeId]? = some ew
  shown : st.blockchainEpisodes[flow.episodeId]? = some ew.episode

theorem Coupled.ownSession {st : State} {token : String} (h : self.Coupled late st)
    (hg : st.blockchainEpisodes[self.episodeId]? = some g)
    (hin : g.SignedIn self.participantPubkey token) : ∃ ew, self.OwnSession st token ew := by
  have hshows := h.shows
  unfold Shows at hshows
  rw [hg] at hshows
  obtain ⟨ew, hew, rfl⟩ := Option.map_eq_some_iff.mp hshows
  exact ⟨ew, hin, hew, hg⟩

/-- The session that a flow returns is the participant's own, whatever others put into the blocks
and however the blocks fall between its steps. If its transactions are accepted before the
challenge expires, the next status that it reads ends the flow with that session. -/
theorem own_session_returned (self : P2pFlow) (engine : Engine SimpleAuth)
    (blockchainEpisodes : SharedEpisodeState) (events : List Event)
    (hkey : self.participantPubkey =
      Crypto.fromSecretKey (AddressCrates.secretKey self.keypair))
    (hfree : engine.episodes[self.episodeId]? = none)
    (hunknown : blockchainEpisodes[self.episodeId]? = none)
    (hundisturbed : Throughout (fun earlier e =>
      self.Undisturbed (self.run engine blockchainEpisodes earlier) e) events) :
    (∀ token, (self.run engine blockchainEpisodes events).phase = .returned (.ok token) →
      ∃ ew, self.OwnSession (self.run engine blockchainEpisodes events) token ew) ∧
    (Throughout (fun earlier e =>
        self.InTime (self.run engine blockchainEpisodes earlier) e) events →
      ∀ left, (self.run engine blockchainEpisodes events).phase = .awaitingToken left →
        (self.run engine blockchainEpisodes events).pending = [] →
        ∃ token ew, self.OwnSession (self.run engine blockchainEpisodes events) token ew ∧
          (self.run engine blockchainEpisodes (events ++ [.polls true])).phase =
            .returned (.ok token)) := by
  constructor
  -- the token that was shown is in the organizer's episode, in time or not
  · intro token hreturned
    have hcoupled : self.Coupled True (self.run engine blockchainEpisodes events) :=
      after_of_throughout (start_coupled hfree hunknown)
        (fun st e h hcond => h.step hkey e hcond (.inl trivial)) hundisturbed
    obtain ⟨n, hposition, hfits⟩ := hcoupled.position
    rw [hreturned] at hfits
    obtain ⟨g, hg, hin⟩ := hfits
    exact hcoupled.ownSession hg hin
  · intro htime left hphase hpending
    have hboth : Throughout (fun earlier e =>
        self.Undisturbed (self.run engine blockchainEpisodes earlier) e ∧
          self.InTime (self.run engine blockchainEpisodes earlier) e) events :=
      fun n e he => ⟨hundisturbed n e he, htime n e he⟩
    have hcoupled : self.Coupled False (self.run engine blockchainEpisodes events) :=
      after_of_throughout (C := fun st e => self.Undisturbed st e ∧ self.InTime st e)
        (start_coupled hfree hunknown)
        (fun st e h hcond => h.step hkey e hcond.1 (.inr hcond.2)) hboth
    obtain ⟨n, hposition, hfits⟩ := hcoupled.position
    rw [hphase] at hfits
    obtain rfl : n = 3 := hfits
    rw [hpending] at hposition
    generalize hg : (self.run engine blockchainEpisodes
      events).blockchainEpisodes[self.episodeId]? = held at hposition
    -- nothing is pending: the response was refused, which takes an expired challenge, or accepted
    cases hposition with
    | refused hlate hg' => exact hlate.elim
    | @signedIn g token hin =>
      obtain ⟨ew, hown⟩ := hcoupled.ownSession hg hin
      refine ⟨token, ew, hown, ?_⟩
      unfold run
      rw [after_concat]
      change (self.act _ (self.run engine blockchainEpisodes events).phase (.polls true)).phase = _
      rw [hphase]
      change pollToken left (some (getStatus
        (self.run engine blockchainEpisodes events).blockchainEpisodes self.episodeId)) = _
      unfold getStatus pollToken
      rw [hg]
      dsimp only [Option.bind_some]
      rw [hin.sessionToken, Option.filter_some, if_pos (decide_eq_true hin.nonempty)]

end P2pFlow
end Kdapp.KaspaAuth

namespace Kdapp.KaspaAuth.P2pFlow
open InOrder
attribute [local instance] idealCrypto seedRand matchingCrates

def seven : P2pFlow := ⟨(7 : UInt8), 5⟩

def unsignedRequest : EpisodeMessage SimpleAuth := .unsignedCommand 5 .requestChallenge

def block (hash : UInt8) : BlkAccepted := ⟨Hash.filled hash, 1, 10, []⟩

def signing : List Event :=
  [.connects (.ok [(⟨Hash.filled 1, 0⟩, ⟨100000, ([] : Borsh.Bytes), 5, false⟩)]) (.ok ()),
    .requests (.ok ()),
    .accepts (block 1) [.own none,
      .other (Hash.filled 3, (EpisodeMessage.codec.serialize unsignedRequest).getD [], none),
      .own none],
    .polls false, .polls true, .responds (.ok ()), .accepts (block 2) [.own none]]

theorem signing_undisturbed : Throughout (fun earlier e =>
    seven.Undisturbed (seven.run (.new (11 : UInt64)) ∅ earlier) e) signing := by
  have hkept : ∀ (earlier : List Event) (hash : UInt8),
      (seven.run (.new (11 : UInt64)) ∅ earlier).engine.nextFiltering = 0 →
      ¬ (seven.run (.new (11 : UInt64)) ∅ earlier).engine.Expires (block hash).acceptingDaa 5 := by
    rintro earlier hash hnext ⟨hdue, -⟩
    unfold Engine.filteringDue at hdue
    rw [hnext] at hdue
    have hearly : ¬ (1 : UInt64) > 0 + sampleRemovalTime := by decide
    exact hearly hdue
  intro n e he
  match n with
  | 0 | 1 | 3 | 4 | 5 =>
    cases he
    trivial
  | 2 =>
    cases he
    refine ⟨hkept _ 1 (by decide +kernel), fun tx htx a ha => ?_⟩
    simp only [List.mem_cons, List.not_mem_nil, or_false, reduceCtorEq, false_or] at htx
    cases htx
    have haction : Engine.action ((EpisodeMessage.codec.serialize unsignedRequest).getD []) =
      some unsignedRequest := rfl
    obtain rfl := Option.some.inj (haction.symm.trans ha)
    exact ⟨fun ps heq => (by cases heq), fun cmd sig heq => (by cases heq)⟩
  | 6 =>
    cases he
    refine ⟨hkept _ 2 (by decide +kernel), fun tx htx => ?_⟩
    cases List.mem_singleton.mp htx
  | n + 7 => cases he

theorem signing_inTime : Throughout (fun earlier e =>
    seven.InTime (seven.run (.new (11 : UInt64)) ∅ earlier) e) signing := by
  have hvalid : ∀ earlier : List Event,
      (((seven.run (.new (11 : UInt64)) ∅ earlier).blockchainEpisodes[(5 : UInt32)]?).bind
        (·.challenge)).all (fun c => ChallengeGenerator.isValid
          (seven.run (.new (11 : UInt64)) ∅ earlier).engine.world c 3600) = true →
      ∀ e, seven.InTime (seven.run (.new (11 : UInt64)) ∅ earlier) e := by
    intro earlier hall e
    cases e with
    | accepts blk carried =>
      intro _ g c hg hc
      have hg' : (seven.run (.new (11 : UInt64)) ∅ earlier).blockchainEpisodes[(5 : UInt32)]? =
        some g := hg
      rw [hg', Option.bind_some, hc] at hall
      exact hall
    | _ => trivial
  intro n e he
  match n with
  | 0 | 1 | 3 | 4 | 5 =>
    cases he
    trivial
  | 2 => exact hvalid _ (by decide +kernel) e
  | 6 => exact hvalid _ (by decide +kernel) e
  | n + 7 => cases he

def Phase.token : Phase → Option String
  | .returned (.ok token) => some token
  | _ => none

def Phase.left : Phase → Option ℕ
  | .awaitingToken left => some left
  | _ => none

theorem Phase.of_token {phase : Phase} {token : String} (h : phase.token = some token) :
    phase = .returned (.ok token) := by
  unfold Phase.token at h
  split at h
  · rw [Option.some.inj h]
  · cases h

theorem Phase.of_left {phase : Phase} {left : ℕ} (h : phase.left = some left) :
    phase = .awaitingToken left := by
  unfold Phase.left at h
  split at h
  · rw [Option.some.inj h]
  · cases h

/-- Key 7 reads the status, and is told of its own session. -/
theorem own_session_seven :
    (∃ ew, seven.OwnSession (seven.run (.new (11 : UInt64)) ∅ (signing ++ [.polls true]))
      "sess_10" ew) ∧
    ∃ token ew, seven.OwnSession (seven.run (.new (11 : UInt64)) ∅ signing) token ew ∧
      (seven.run (.new (11 : UInt64)) ∅ (signing ++ [.polls true])).phase =
        .returned (.ok token) := by
  have hphase : (seven.run (.new (11 : UInt64)) ∅ (signing ++ [.polls true])).phase =
      .returned (.ok "sess_10") := Phase.of_token (by decide +kernel)
  have hwaiting : (seven.run (.new (11 : UInt64)) ∅ signing).phase = .awaitingToken 9 :=
    Phase.of_left (by decide +kernel)
  have hpending : (seven.run (.new (11 : UInt64)) ∅ signing).pending = [] := by
    apply List.length_eq_zero_iff.mp
    decide +kernel
  have hpoll : seven.Undisturbed (seven.run (.new (11 : UInt64)) ∅ signing) (.polls true) := trivial
  constructor
  · exact (own_session_returned seven (.new (11 : UInt64)) ∅ (signing ++ [.polls true]) rfl rfl rfl
      (Throughout.concat.mpr ⟨signing_undisturbed, hpoll⟩)).1 "sess_10" hphase
  · exact (own_session_returned seven (.new (11 : UInt64)) ∅ signing rfl rfl rfl
      signing_undisturbed).2 signing_inTime 9 hwaiting hpending

end Kdapp.KaspaAuth.P2pFlow
