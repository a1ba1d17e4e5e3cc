import Kdapp.KaspaAuth.Steps
import Kdapp.Library.Transition

/-! Two machines that execute the same commands at different times: the age of a challenge is
read off the clock of the machine. -/

namespace Kdapp.KaspaAuth
open SignatureVerifier (verify)
open Transition InOrder

variable [Crypto]

/-- A command that two machines execute, and the clock of each then. -/
structure Heard where
  cmd : AuthCommand
  authorization : Option PubKey
  metadata : PayloadMetadata
  live : UInt64
  late : UInt64

namespace Heard

def on (e : Heard) (now : UInt64) : Call := ⟨e.cmd, e.authorization, e.metadata, now⟩

def onLive (e : Heard) : Call := e.on e.live

def onLate (e : Heard) : Call := e.on e.late

end Heard

/-- An episode on one machine, and which commands were accepted there. -/
structure Replica where
  episode : SimpleAuth
  verdicts : List Bool

namespace Replica
variable [RandChaCha]

def step (self : Replica) (c : Call) : Replica :=
  match self.episode.execute c.now c.metadata c.cmd c.authorization with
  | (episode, .ok _) => ⟨episode, self.verdicts ++ [true]⟩
  | (episode, .error _) => ⟨episode, self.verdicts ++ [false]⟩

def replay (g : SimpleAuth) (calls : List Call) : Replica := after step ⟨g, []⟩ calls

theorem replay_concat (g : SimpleAuth) (calls : List Call) (c : Call) :
    replay g (calls ++ [c]) = (replay g calls).step c := after_concat calls c

theorem step_cases (r : Replica) (c : Call) :
    ((∀ pk, ¬ r.episode.Admits c pk) ∧ r.step c = ⟨r.episode, r.verdicts ++ [false]⟩) ∨
      ∃ pk, r.episode.Admits c pk ∧
        r.step c = ⟨r.episode.applied pk c.metadata c.cmd, r.verdicts ++ [true]⟩ := by
  unfold step
  rcases r.episode.execute_cases c with ⟨hnot, e, hrejects⟩ | ⟨pk, hadmits, haccepts⟩
  · rw [hrejects]
    exact .inl ⟨hnot, rfl⟩
  · rw [haccepts]
    exact .inr ⟨pk, hadmits, rfl⟩

end Replica

namespace SimpleAuth

/-- A response passes every check but that on the age of its challenge. -/
structure Answers (g : SimpleAuth) (e : Heard) (pk : PubKey) (signature nonce : String) : Prop where
  cmd : e.cmd = .submitResponse signature nonce
  signed : e.authorization = some pk
  authorized : pk ∈ g.authorizedParticipants
  unlimited : g.isRateLimited pk e.metadata.acceptingTime = false
  unauthenticated : g.isAuthenticated = false
  challenge : g.challenge = some nonce
  verified : verify pk nonce signature = true

/-- Such a response finds its challenge valid on both machines or on none. -/
def SameAge (g : SimpleAuth) (e : Heard) : Prop :=
  ∀ pk signature nonce, g.Answers e pk signature nonce →
    ChallengeGenerator.isValid e.live nonce 3600 = ChallengeGenerator.isValid e.late nonce 3600

variable {g : SimpleAuth} {e : Heard} {pk : PubKey} {signature nonce : String}

theorem Answers.admits_iff (h : g.Answers e pk signature nonce) (now : UInt64) :
    g.Admits (e.on now) pk ↔ ChallengeGenerator.isValid now nonce 3600 = true := by
  have hallows : g.Allows now pk e.cmd ↔ ChallengeGenerator.isValid now nonce 3600 = true := by
    rw [h.cmd]
    constructor
    · rintro ⟨-, -, hvalid, -⟩
      exact hvalid
    · intro hvalid
      exact ⟨h.unauthenticated, h.challenge, hvalid, h.verified⟩
  rw [← hallows]
  constructor
  · intro hadmits
    exact hadmits.allowed
  · intro hallowed
    exact ⟨h.signed, h.authorized, h.unlimited, hallowed⟩

theorem Admits.of_age {now now' : UInt64}
    (hage : ∀ signature nonce, g.Answers e pk signature nonce →
      ChallengeGenerator.isValid now nonce 3600 = true →
      ChallengeGenerator.isValid now' nonce 3600 = true)
    (h : g.Admits (e.on now) pk) : g.Admits (e.on now') pk := by
  have hallowed : g.Allows now pk e.cmd := h.allowed
  cases hcmd : e.cmd with
  | requestChallenge =>
    refine ⟨h.signed, h.authorized, h.unlimited, ?_⟩
    have hgoal : g.Allows now' pk e.cmd := by
      rw [hcmd]
      trivial
    exact hgoal
  | submitResponse signature nonce =>
    rw [hcmd] at hallowed
    obtain ⟨hauth, hchallenge, hvalid, hverify⟩ := hallowed
    have hanswers : g.Answers e pk signature nonce :=
      ⟨hcmd, h.signed, h.authorized, h.unlimited, hauth, hchallenge, hverify⟩
    exact (hanswers.admits_iff now').mpr (hage signature nonce hanswers hvalid)
  | revokeSession sessionToken signature =>
    refine ⟨h.signed, h.authorized, h.unlimited, ?_⟩
    have hgoal : g.Allows now' pk e.cmd := by
      rw [hcmd] at hallowed ⊢
      exact hallowed
    exact hgoal

theorem sameAge_iff :
    g.SameAge e ↔ ∀ pk, (g.Admits e.onLive pk ↔ g.Admits e.onLate pk) := by
  constructor
  · intro h pk
    constructor
    · apply Admits.of_age
      intro signature nonce hanswers hvalid
      exact (h pk signature nonce hanswers).symm.trans hvalid
    · apply Admits.of_age
      intro signature nonce hanswers hvalid
      exact (h pk signature nonce hanswers).trans hvalid
  · intro h pk signature nonce hanswers
    apply Bool.eq_iff_iff.mpr
    rw [← hanswers.admits_iff, ← hanswers.admits_iff]
    exact h pk

end SimpleAuth

variable [RandChaCha]

namespace Replica

/-- Either both machines accept the command and have the same episode then, or none does, unless
they disagree on the age of the challenge. -/
theorem step_alike (r : Replica) (e : Heard) :
    (r.episode.SameAge e ∧ r.step e.onLive = r.step e.onLate) ∨
      (¬ r.episode.SameAge e ∧ ∃ verdict, (r.step e.onLive).verdicts = r.verdicts ++ [verdict] ∧
        (r.step e.onLate).verdicts = r.verdicts ++ [!verdict]) := by
  rw [SimpleAuth.sameAge_iff]
  rcases r.step_cases e.onLive with ⟨hnot, hlive⟩ | ⟨pk, hadmits, hlive⟩
  · rcases r.step_cases e.onLate with ⟨hnot', hlate⟩ | ⟨pk', hadmits', hlate⟩
    · exact .inl ⟨fun pk => iff_of_false (hnot pk) (hnot' pk), hlive.trans hlate.symm⟩
    · refine .inr ⟨fun h => hnot pk' ((h pk').mpr hadmits'), false, ?_, ?_⟩
      · rw [hlive]
      · rw [hlate]
        rfl
  · rcases r.step_cases e.onLate with ⟨hnot', hlate⟩ | ⟨pk', hadmits', hlate⟩
    · refine .inr ⟨fun h => hnot' pk ((h pk).mp hadmits), true, ?_, ?_⟩
      · rw [hlive]
      · rw [hlate]
        rfl
    · have hsigned : pk' = pk := Option.some.inj (hadmits'.signed.symm.trans hadmits.signed)
      subst hsigned
      refine .inl ⟨fun pk => ?_, hlive.trans hlate.symm⟩
      constructor
      · intro h
        obtain rfl := hadmits.unique h
        exact hadmits'
      · intro h
        obtain rfl := hadmits'.unique h
        exact hadmits

theorem step_verdicts (r : Replica) (c : Call) :
    ∃ verdict, (r.step c).verdicts = r.verdicts ++ [verdict] := by
  rcases r.step_cases c with ⟨-, hstep⟩ | ⟨pk, -, hstep⟩
  · exact ⟨false, congrArg verdicts hstep⟩
  · exact ⟨true, congrArg verdicts hstep⟩

theorem step_verdicts_inj {r r' : Replica} {c c' : Call}
    (h : (r.step c).verdicts = (r'.step c').verdicts) : r.verdicts = r'.verdicts := by
  obtain ⟨v, hv⟩ := r.step_verdicts c
  obtain ⟨v', hv'⟩ := r'.step_verdicts c'
  exact (List.append_inj' (hv.symm.trans (h.trans hv')) rfl).1

end Replica

theorem verdicts_alike (g : SimpleAuth) (heard : List Heard)
    (h : (Replica.replay g (heard.map Heard.onLive)).verdicts =
      (Replica.replay g (heard.map Heard.onLate)).verdicts) :
    Replica.replay g (heard.map Heard.onLive) = Replica.replay g (heard.map Heard.onLate) ∧
      Throughout (fun earlier e =>
        (Replica.replay g (earlier.map Heard.onLive)).episode.SameAge e) heard := by
  induction heard using List.reverseRecOn with
  | nil => exact ⟨rfl, Throughout.nil⟩
  | append_singleton heard e ih =>
    rw [List.map_append, List.map_append] at h ⊢
    simp only [List.map_cons, List.map_nil, Replica.replay_concat] at h ⊢
    obtain ⟨hsame, hearlier⟩ := ih (Replica.step_verdicts_inj h)
    rw [← hsame] at h ⊢
    rw [Throughout.concat]
    rcases (Replica.replay g (heard.map Heard.onLive)).step_alike e with
      ⟨hage, hstep⟩ | ⟨-, verdict, hlive, hlate⟩
    · exact ⟨hstep, hearlier, hage⟩
    · -- the last verdicts differ
      have hlast := (List.append_inj' (hlive.symm.trans (h.trans hlate)) rfl).2
      cases verdict with
      | false => cases hlast
      | true => cases hlast

/-- Two machines accept the same commands and reach the same episode if and only if at every
response the challenge is valid on both or on none. -/
theorem replays_alike_iff (g : SimpleAuth) (heard : List Heard) :
    Replica.replay g (heard.map Heard.onLive) = Replica.replay g (heard.map Heard.onLate) ↔
      Throughout (fun earlier e =>
        (Replica.replay g (earlier.map Heard.onLive)).episode.SameAge e) heard := by
  constructor
  · intro h
    exact (verdicts_alike g heard (congrArg Replica.verdicts h)).2
  · intro h
    induction heard using List.reverseRecOn with
    | nil => rfl
    | append_singleton heard e ih =>
      obtain ⟨hearlier, hage⟩ := Throughout.concat.mp h
      rw [List.map_append, List.map_append]
      simp only [List.map_cons, List.map_nil, Replica.replay_concat]
      rw [← ih hearlier]
      rcases (Replica.replay g (heard.map Heard.onLive)).step_alike e with
        ⟨-, hstep⟩ | ⟨hnot, -⟩
      · exact hstep
      · exact absurd hage hnot

end Kdapp.KaspaAuth

namespace Kdapp.KaspaAuth
open SignatureVerifier (signText)
attribute [local instance] idealCrypto seedRand

def signIn : List Heard :=
  [⟨.requestChallenge, some (1 : UInt8), metadataAt 10, 10, 3611⟩,
    ⟨.submitResponse (signText (1 : UInt8) (SimpleAuth.challengeFor (1 : UInt8) (metadataAt 10)))
      (SimpleAuth.challengeFor (1 : UInt8) (metadataAt 10)), some (1 : UInt8), metadataAt 11, 11,
      3611⟩]

/-- The machine that catches up finds the challenge expired. -/
theorem caught_up_apart :
    ¬ ∀ (g : SimpleAuth) (heard : List Heard),
      Replica.replay g (heard.map Heard.onLive) = Replica.replay g (heard.map Heard.onLate) := by
  intro h
  have hsame := h (.create [(1 : UInt8)] (metadataAt 1)) signIn
  have hlive : (Replica.replay (.create [(1 : UInt8)] (metadataAt 1))
      (signIn.map Heard.onLive)).verdicts = [true, true] := by decide +kernel
  have hlate : (Replica.replay (.create [(1 : UInt8)] (metadataAt 1))
      (signIn.map Heard.onLate)).verdicts = [true, false] := by decide +kernel
  have hverdicts := congrArg Replica.verdicts hsame
  rw [hlive, hlate] at hverdicts
  exact absurd hverdicts (by decide)

end Kdapp.KaspaAuth
