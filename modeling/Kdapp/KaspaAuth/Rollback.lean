import Kdapp.KaspaAuth.Steps
import Kdapp.Library.Transition

/-! What a rollback restores of an authentication: all but the owner that a request replaced. -/

namespace Kdapp.KaspaAuth
open Transition

variable [Crypto]

/-- What the rollback of a command is to restore; the attempts are kept. -/
structure Session where
  owner : Option PubKey
  challenge : Option String
  challengeTimestamp : UInt64
  isAuthenticated : Bool
  sessionToken : Option String

structure Node where
  episode : SimpleAuth
  log : List AuthRollback

inductive Event where
  | call (c : Call)
  | rollback

namespace SimpleAuth

def session (g : SimpleAuth) : Session :=
  ⟨g.owner, g.challenge, g.challengeTimestamp, g.isAuthenticated, g.sessionToken⟩

def Requests (g : SimpleAuth) (authorization : Option PubKey) : AuthCommand → Prop
  | .requestChallenge => authorization = g.owner
  | .submitResponse _ _ | .revokeSession _ _ => True

variable {g : SimpleAuth} {c : Call} {pk : PubKey}

theorem rollback_true (rb : AuthRollback) : (g.rollback rb).2 = true := by
  cases rb with
  | challenge previousChallenge previousTimestamp => rfl
  | authentication previousAuthStatus previousSessionToken => rfl
  | sessionRevoked previousToken wasAuthenticated => rfl

variable [RandChaCha]

theorem rollback_applied_session_iff (h : g.Admits c pk) :
    ((g.applied pk c.metadata c.cmd).rollback (g.token c.cmd)).1.session = g.session ↔
      g.Requests c.authorization c.cmd := by
  have hallowed := h.allowed
  cases hcmd : c.cmd with
  | requestChallenge =>
    unfold Requests
    dsimp only
    rw [h.signed]
    constructor
    · intro hsession
      exact congrArg Session.owner hsession
    · intro howner
      simp only [applied, token, rollback, session, howner]
  | submitResponse signature nonce =>
    rw [hcmd] at hallowed
    refine iff_of_true ?_ trivial
    simp only [applied, token, rollback, session, hallowed.1]
  | revokeSession sessionToken signature =>
    rw [hcmd] at hallowed
    refine iff_of_true ?_ trivial
    simp only [applied, token, rollback, session, hallowed.1, hallowed.2.1]

end SimpleAuth

namespace Node

def start (participants : List PubKey) (md : PayloadMetadata) : Node :=
  ⟨.create participants md, []⟩

variable [RandChaCha]

def call (self : Node) (c : Call) : Node :=
  match self.episode.execute c.now c.metadata c.cmd c.authorization with
  | (episode, .ok rollback) => ⟨episode, rollback :: self.log⟩
  | (episode, .error _) => { self with episode }

omit [RandChaCha] in
def undo (self : Node) : Node :=
  match self.log with
  | rollback :: log => ⟨(self.episode.rollback rollback).1, log⟩
  | [] => self

def step (self : Node) : Event → Node
  | .call c => self.call c
  | .rollback => self.undo

/-- The node after an admitted command of `pk`. -/
def accepted (self : Node) (c : Call) (pk : PubKey) : Node :=
  ⟨self.episode.applied pk c.metadata c.cmd, self.episode.token c.cmd :: self.log⟩

theorem call_cases (node : Node) (c : Call) :
    ((∀ pk, ¬ node.episode.Admits c pk) ∧ node.call c = node) ∨
      ∃ pk, node.episode.Admits c pk ∧ node.call c = node.accepted c pk := by
  unfold call
  rcases node.episode.execute_cases c with ⟨hnot, e, hrejects⟩ | ⟨pk, hadmits, haccepts⟩
  · rw [hrejects]
    exact .inl ⟨hnot, rfl⟩
  · rw [haccepts]
    exact .inr ⟨pk, hadmits, rfl⟩

end Node

variable [RandChaCha]

/-- In every state that commands and rollbacks lead to, the rollback of an accepted command
restores the session if and only if it is no request of another than the owner. -/
theorem session_restored_iff (participants : List PubKey) (md : PayloadMetadata)
    (events : List Event) (c : Call) {g : SimpleAuth} {rb : AuthRollback}
    (h : (after Node.step (.start participants md) events).episode.execute c.now c.metadata c.cmd
      c.authorization = (g, .ok rb)) :
    ((g.rollback rb).2 = true ∧ (g.rollback rb).1.session =
      (after Node.step (.start participants md) events).episode.session) ↔
      (after Node.step (.start participants md) events).episode.Requests c.authorization
        c.cmd := by
  rcases (after Node.step (.start participants md) events).episode.execute_cases c with
    ⟨-, e, hrejects⟩ | ⟨pk, hadmits, haccepts⟩
  · cases h.symm.trans hrejects
  · cases h.symm.trans haccepts
    rw [SimpleAuth.rollback_applied_session_iff hadmits, and_iff_right (SimpleAuth.rollback_true _)]

end Kdapp.KaspaAuth

namespace Kdapp.KaspaAuth
open Transition
attribute [local instance] idealCrypto seedRand

def takeover : Call := ⟨.requestChallenge, some (2 : UInt8), metadataAt 10, 10⟩

def pair : Node := .start [(1 : UInt8), (2 : UInt8)] (metadataAt 1)

theorem takeover_accepted : (after Node.step pair []).episode.execute takeover.now
    takeover.metadata takeover.cmd takeover.authorization =
      (pair.episode.applied (2 : UInt8) takeover.metadata takeover.cmd,
        .ok (pair.episode.token takeover.cmd)) := by
  have hadmits : pair.episode.Admits takeover (2 : UInt8) :=
    ⟨rfl, List.mem_cons_of_mem _ List.mem_cons_self, by decide +kernel, trivial⟩
  rcases pair.episode.execute_cases takeover with ⟨hnot, -⟩ | ⟨pk, h, haccepts⟩
  · exact absurd hadmits (hnot _)
  · obtain rfl := hadmits.unique h
    exact haccepts

theorem session_restored_at :
    ((pair.episode.applied (2 : UInt8) takeover.metadata takeover.cmd).rollback
        (pair.episode.token takeover.cmd)).1.session ≠ pair.episode.session := by
  intro hsession
  have howner := (session_restored_iff [(1 : UInt8), (2 : UInt8)] (metadataAt 1) [] takeover
    takeover_accepted).mp ⟨SimpleAuth.rollback_true _, hsession⟩
  have hkeys : some (2 : UInt8) = some (1 : UInt8) := howner
  exact absurd hkeys (by decide)

/-- The rollback of a request leaves the episode to its sender. -/
theorem owner_not_restored :
    ¬ ∀ (participants : List PubKey) (md : PayloadMetadata) (events : List Event) (c : Call)
      (g : SimpleAuth) (rb : AuthRollback),
      (after Node.step (.start participants md) events).episode.execute c.now c.metadata c.cmd
        c.authorization = (g, .ok rb) →
      (g.rollback rb).2 = true ∧ (g.rollback rb).1.session =
        (after Node.step (.start participants md) events).episode.session := by
  intro h
  obtain ⟨-, hsession⟩ := h [(1 : UInt8), (2 : UInt8)] (metadataAt 1) [] takeover _ _
    takeover_accepted
  have howner : some (2 : UInt8) = some (1 : UInt8) := congrArg Session.owner hsession
  exact absurd howner (by decide)

end Kdapp.KaspaAuth
