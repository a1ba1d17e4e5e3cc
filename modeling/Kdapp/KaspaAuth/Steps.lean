import Kdapp.KaspaAuth
import Kdapp.Library.Outcome

/-! What a command can do to an authentication episode. -/

namespace Kdapp.KaspaAuth
open SignatureVerifier (verify)

variable [Crypto]

/-- A command as the engine hands it to the episode, and the clock of the machine then. -/
structure Call where
  cmd : AuthCommand
  authorization : Option PubKey
  metadata : PayloadMetadata
  now : UInt64

namespace SimpleAuth

def Allows (g : SimpleAuth) (now : UInt64) (pk : PubKey) : AuthCommand → Prop
  | .requestChallenge => True
  | .submitResponse signature nonce =>
    g.isAuthenticated = false ∧ g.challenge = some nonce ∧
      ChallengeGenerator.isValid now nonce 3600 = true ∧ verify pk nonce signature = true
  | .revokeSession sessionToken signature =>
    g.sessionToken = some sessionToken ∧ g.isAuthenticated = true ∧
      verify pk sessionToken signature = true

structure Admits (g : SimpleAuth) (c : Call) (pk : PubKey) : Prop where
  signed : c.authorization = some pk
  authorized : pk ∈ g.authorizedParticipants
  unlimited : g.isRateLimited pk c.metadata.acceptingTime = false
  allowed : g.Allows c.now pk c.cmd

def applied [RandChaCha] (g : SimpleAuth) (pk : PubKey) (md : PayloadMetadata) :
    AuthCommand → SimpleAuth
  | .requestChallenge => { g with
      challenge := some (challengeFor pk md)
      challengeTimestamp := md.acceptingTime
      owner := some pk
      rateLimits := g.incrementRateLimit pk md.acceptingTime }
  | .submitResponse _ _ => { g with
      isAuthenticated := true
      sessionToken := some g.generateSessionToken }
  | .revokeSession _ _ => { g with
      isAuthenticated := false
      sessionToken := none }

def token (g : SimpleAuth) : AuthCommand → AuthRollback
  | .requestChallenge => .challenge g.challenge g.challengeTimestamp
  | .submitResponse _ _ => .authentication false g.sessionToken
  | .revokeSession sessionToken _ => .sessionRevoked sessionToken true

variable [RandChaCha] {g : SimpleAuth} {c : Call} {pk pk' : PubKey}

omit [RandChaCha] in
theorem Admits.unique (h : g.Admits c pk) (h' : g.Admits c pk') : pk' = pk :=
  Option.some.inj (h'.signed.symm.trans h.signed)

theorem execute_checked (g : SimpleAuth) (now : UInt64) (md : PayloadMetadata) (cmd : AuthCommand)
    (pk : PubKey) :
    Checked (g.Admits ⟨cmd, some pk, md, now⟩ pk) g (g.applied pk md cmd, .ok (g.token cmd))
      (g.execute now md cmd (some pk)) := by
  unfold execute
  apply Checked.check
  · intro hnot h
    exact hnot h.authorized
  intro hauthorized
  apply Checked.check
  · intro hlimited h
    cases hlimited.symm.trans h.unlimited
  intro hunlimited
  -- past the checks on the signer
  have hadmits : g.Admits ⟨cmd, some pk, md, now⟩ pk ↔ g.Allows now pk cmd := by
    constructor
    · intro h
      exact h.allowed
    · intro h
      exact ⟨rfl, not_not.mp hauthorized, Bool.eq_false_of_not_eq_true hunlimited, h⟩
  rw [hadmits]
  cases cmd with
  | requestChallenge => exact .passed trivial
  | submitResponse signature nonce =>
    apply Checked.check
    · intro hauth h
      cases hauth.symm.trans h.1
    intro hauth
    have hfalse : g.isAuthenticated = false := Bool.eq_false_of_not_eq_true hauth
    cases hchallenge : g.challenge with
    | none =>
      apply Checked.refused
      intro h
      cases hchallenge.symm.trans h.2.1
    | some currentChallenge =>
      apply Checked.check
      · intro hne h
        exact hne (Option.some.inj (h.2.1.symm.trans hchallenge))
      intro hsame
      obtain rfl := not_not.mp hsame
      apply Checked.check
      · intro hexpired h
        cases hexpired.symm.trans h.2.2.1
      intro hvalid
      apply Checked.check
      · intro hverify h
        cases hverify.symm.trans h.2.2.2
      · intro hverify
        rw [hfalse, ← hchallenge]
        exact .passed ⟨hfalse, hchallenge, Bool.eq_true_of_not_eq_false hvalid,
          Bool.eq_true_of_not_eq_false hverify⟩
  | revokeSession sessionToken signature =>
    dsimp only [executeRevokeSession]
    cases htoken : g.sessionToken with
    | none =>
      apply Checked.refused
      intro h
      cases htoken.symm.trans h.1
    | some currentToken =>
      apply Checked.check
      · intro hne h
        exact hne (Option.some.inj (h.1.symm.trans htoken))
      intro hsame
      obtain rfl := not_not.mp hsame
      apply Checked.check
      · intro hrevoked h
        cases hrevoked.symm.trans h.2.1
      intro hauth
      have htrue : g.isAuthenticated = true := Bool.eq_true_of_not_eq_false hauth
      apply Checked.check
      · intro hverify h
        cases hverify.symm.trans h.2.2
      · intro hverify
        rw [htrue]
        exact .passed ⟨htoken, htrue, Bool.eq_true_of_not_eq_false hverify⟩

theorem execute_cases (g : SimpleAuth) (c : Call) :
    ((∀ pk, ¬ g.Admits c pk) ∧
      ∃ e, g.execute c.now c.metadata c.cmd c.authorization = (g, .error e)) ∨
      ∃ pk, g.Admits c pk ∧ g.execute c.now c.metadata c.cmd c.authorization =
        (g.applied pk c.metadata c.cmd, .ok (g.token c.cmd)) := by
  obtain ⟨cmd, auth, md, now⟩ := c
  cases auth with
  | none => exact .inl ⟨fun pk h => absurd h.signed.symm (Option.some_ne_none pk), _, rfl⟩
  | some pk =>
    rcases g.execute_checked now md cmd pk with ⟨hnot, hrejects⟩ | ⟨hadmits, haccepts⟩
    · refine .inl ⟨fun pk' h => hnot ?_, hrejects⟩
      obtain rfl := Option.some.inj h.signed
      exact h
    · exact .inr ⟨pk, hadmits, haccepts⟩

end SimpleAuth
end Kdapp.KaspaAuth
