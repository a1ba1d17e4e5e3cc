import Kdapp.CommentIt
import Kdapp.Library.Outcome
import Kdapp.Library.Transition

/-! What a command can do to a comment room, and runs of commands and rollbacks. -/

namespace Kdapp.CommentIt
open SignatureVerifier (verify)
open CommentBoard (blank displayKey)

variable [Crypto]

namespace AuthWithCommentsEpisode

def Allows (g : AuthWithCommentsEpisode) (pk : PubKey) : UnifiedCommand → Prop
  | .requestChallenge => displayKey pk ∉ g.authenticatedParticipants
  | .submitResponse signature nonce =>
    displayKey pk ∉ g.authenticatedParticipants ∧ verify pk nonce signature = true
  | .revokeSession sessionToken signature =>
    displayKey pk ∈ g.authenticatedParticipants ∧ verify pk sessionToken signature = true
  | .submitComment text _ =>
    blank text = false ∧ text.utf8ByteSize ≤ 2000 ∧ displayKey pk ∈ g.authenticatedParticipants

structure Admits (g : AuthWithCommentsEpisode) (auth : Option PubKey) (cmd : UnifiedCommand)
    (pk : PubKey) : Prop where
  signed : auth = some pk
  authorized : pk ∈ g.authorizedParticipants
  unlimited : g.isRateLimited pk = false
  allowed : g.Allows pk cmd

def applied [RandChaCha] (g : AuthWithCommentsEpisode) (pk : PubKey) (md : PayloadMetadata) :
    UnifiedCommand → AuthWithCommentsEpisode
  | .requestChallenge => { g with
      activeChallenges := g.activeChallenges.insert (displayKey pk)
        (ChallengeGenerator.generateWithProvidedTimestamp md.acceptingTime)
      rateLimits := g.incrementRateLimit pk }
  | .submitResponse _ _ => { g with
      authenticatedParticipants := g.authenticatedParticipants.insert (displayKey pk)
      activeChallenges := g.activeChallenges.erase (displayKey pk) }
  | .revokeSession _ _ => { g with
      authenticatedParticipants := g.authenticatedParticipants.erase (displayKey pk) }
  | .submitComment text _ => { g with
      comments := g.comments ++ [⟨g.nextCommentId, text, displayKey pk, md.acceptingTime⟩]
      nextCommentId := g.nextCommentId + 1 }

def token (g : AuthWithCommentsEpisode) (pk : PubKey) : UnifiedCommand → UnifiedRollback
  | .requestChallenge => .challenge (displayKey pk) none
  | .submitResponse _ _ => .authentication (displayKey pk) false
  | .revokeSession _ _ => .sessionRevoked (displayKey pk) true
  | .submitComment _ _ => .commentAdded g.nextCommentId

variable [RandChaCha] {g g' : AuthWithCommentsEpisode} {md : PayloadMetadata}
  {auth : Option PubKey} {cmd : UnifiedCommand} {pk pk' : PubKey}

omit [RandChaCha] in
theorem Admits.unique (h : g.Admits auth cmd pk) (h' : g.Admits auth cmd pk') : pk' = pk :=
  Option.some.inj (h'.signed.symm.trans h.signed)

theorem execute_checked (g : AuthWithCommentsEpisode) (md : PayloadMetadata)
    (cmd : UnifiedCommand) (pk : PubKey) :
    Checked (g.Admits (some pk) cmd pk) g (g.applied pk md cmd, .ok (g.token pk cmd))
      (g.execute md cmd (some pk)) := by
  unfold execute
  apply Checked.check
  · intro hnot h
    exact hnot h.authorized
  intro hauthorized
  apply Checked.check
  · intro hlimited h
    cases hlimited.symm.trans h.unlimited
  intro hunlimited
  -- past the checks on the signer
  have hadmits : g.Admits (some pk) cmd pk ↔ g.Allows pk cmd := by
    constructor
    · intro h
      exact h.allowed
    · intro h
      exact ⟨rfl, not_not.mp hauthorized, Bool.eq_false_of_not_eq_true hunlimited, h⟩
  rw [hadmits]
  cases cmd with
  | requestChallenge =>
    apply Checked.check
    · intro hauth h
      exact h hauth
    · exact fun hauth => .passed hauth
  | submitResponse signature nonce =>
    apply Checked.check
    · intro hauth h
      exact h.1 hauth
    intro hauth
    apply Checked.check
    · intro hverify h
      cases hverify.symm.trans h.2
    · intro hverify
      have hnew : g.authenticatedParticipants.contains (displayKey pk) = false :=
        Bool.eq_false_iff.mpr hauth
      rw [hnew]
      exact .passed ⟨hauth, Bool.eq_true_of_not_eq_false hverify⟩
  | revokeSession sessionToken signature =>
    apply Checked.check
    · intro hauth h
      exact hauth h.1
    intro hauth
    apply Checked.check
    · intro hverify h
      cases hverify.symm.trans h.2
    · intro hverify
      have hold : g.authenticatedParticipants.contains (displayKey pk) = true := not_not.mp hauth
      rw [hold]
      exact .passed ⟨hold, Bool.eq_true_of_not_eq_false hverify⟩
  | submitComment text sessionToken =>
    apply Checked.check
    · intro hblank h
      cases hblank.symm.trans h.1
    intro hblank
    apply Checked.check
    · intro hlong h
      exact Nat.not_le_of_lt hlong h.2.1
    intro hlong
    apply Checked.check
    · intro hauth h
      exact hauth h.2.2
    · intro hauth
      exact .passed ⟨Bool.eq_false_of_not_eq_true hblank, Nat.le_of_not_lt hlong, not_not.mp hauth⟩

theorem execute_cases (g : AuthWithCommentsEpisode) (md : PayloadMetadata) (cmd : UnifiedCommand)
    (auth : Option PubKey) :
    ((∀ pk, ¬ g.Admits auth cmd pk) ∧ ∃ e, g.execute md cmd auth = (g, .error e)) ∨
      ∃ pk, g.Admits auth cmd pk ∧
        g.execute md cmd auth = (g.applied pk md cmd, .ok (g.token pk cmd)) := by
  cases auth with
  | none => exact .inl ⟨fun pk h => absurd h.signed.symm (Option.some_ne_none pk), _, rfl⟩
  | some pk =>
    rcases g.execute_checked md cmd pk with ⟨hnot, hrejects⟩ | ⟨hadmits, haccepts⟩
    · refine .inl ⟨fun pk' h => hnot ?_, hrejects⟩
      obtain rfl := Option.some.inj h.signed
      exact h
    · exact .inr ⟨pk, hadmits, haccepts⟩

end AuthWithCommentsEpisode

structure Call where
  cmd : UnifiedCommand
  authorization : Option PubKey
  metadata : PayloadMetadata

/-- An accepted command, the room it met and what `execute` returned for its rollback. -/
structure Record where
  before : AuthWithCommentsEpisode
  call : Call
  rollback : UnifiedRollback

structure Node where
  room : AuthWithCommentsEpisode
  log : List Record

namespace Node

def start (participants : List PubKey) (md : PayloadMetadata) : Node :=
  ⟨.create participants md, []⟩

variable [RandChaCha]

def call (self : Node) (c : Call) : Node :=
  match self.room.execute c.metadata c.cmd c.authorization with
  | (room, .ok rollback) => ⟨room, ⟨self.room, c, rollback⟩ :: self.log⟩
  | (room, .error _) => { self with room }

omit [RandChaCha] in
def undo (self : Node) : Node :=
  match self.log with
  | record :: log => ⟨(self.room.rollback record.rollback).1, log⟩
  | [] => self

/-- The node after an admitted command of `pk`. -/
def accepted (self : Node) (c : Call) (pk : PubKey) : Node :=
  ⟨self.room.applied pk c.metadata c.cmd, ⟨self.room, c, self.room.token pk c.cmd⟩ :: self.log⟩

theorem call_cases (node : Node) (c : Call) :
    ((∀ pk, ¬ node.room.Admits c.authorization c.cmd pk) ∧ node.call c = node) ∨
      ∃ pk, node.room.Admits c.authorization c.cmd pk ∧ node.call c = node.accepted c pk := by
  unfold call
  rcases node.room.execute_cases c.metadata c.cmd c.authorization with
    ⟨hnot, e, hrejects⟩ | ⟨pk, hadmits, haccepts⟩
  · rw [hrejects]
    exact .inl ⟨hnot, rfl⟩
  · rw [haccepts]
    exact .inr ⟨pk, hadmits, rfl⟩

end Node

inductive Event where
  | call (c : Call)
  | rollback

def Node.step [RandChaCha] (self : Node) : Event → Node
  | .call c => self.call c
  | .rollback => self.undo

end Kdapp.CommentIt
