import Kdapp.KaspaAuth.Steps
import Kdapp.Library.Transition

/-! Whose signature an authentication stands for: any participant may answer the challenge, and
the next to request one becomes the owner of what is there. -/

namespace Kdapp.KaspaAuth
open SignatureVerifier (verify)
open Transition InOrder

variable [Crypto]

structure World where
  episode : SimpleAuth
  signed : List (PubKey × String)

/-- The holders of the keys sign texts, and the engine hands commands to the episode. -/
inductive Act where
  | sign (pk : PubKey) (text : String)
  | call (c : Call)

namespace World

def start (participants : List PubKey) (md : PayloadMetadata) : World :=
  ⟨.create participants md, []⟩

def step [RandChaCha] (self : World) : Act → World
  | .sign pk text => { self with signed := (pk, text) :: self.signed }
  | .call c => { self with
      episode := (self.episode.execute c.now c.metadata c.cmd c.authorization).1 }

/-- Ideal signatures: who responds with a valid signature has signed the nonce. -/
def Unforged (w : World) : Act → Prop
  | .sign _ _ => True
  | .call c => ∀ pk signature nonce, c.authorization = some pk →
    c.cmd = .submitResponse signature nonce → verify pk nonce signature = true →
      (pk, nonce) ∈ w.signed

/-- An authentication stands for the signature of the owner over the stored challenge. -/
def OwnerSigned (w : World) : Prop :=
  w.episode.isAuthenticated = true → ∃ owner challenge, w.episode.owner = some owner ∧
    w.episode.challenge = some challenge ∧ (owner, challenge) ∈ w.signed

/-- Nobody but the owner answers the challenge, and nobody requests one while the owner is
authenticated, unless the owner afterwards has signed the same text. -/
def KeepsOwner [RandChaCha] (w : World) : Act → Prop
  | .sign _ _ => True
  | .call c => ∀ pk, w.episode.Admits c pk →
    match c.cmd with
    | .requestChallenge => w.episode.isAuthenticated = true →
      (pk, SimpleAuth.challengeFor pk c.metadata) ∈ w.signed
    | .submitResponse _ nonce => ∀ owner, w.episode.owner = some owner →
      owner = pk ∨ (owner, nonce) ∈ w.signed
    | .revokeSession _ _ => True

def Owned (w : World) : Prop := w.episode.challenge ≠ none → w.episode.owner ≠ none

theorem start_ownerSigned (participants : List PubKey) (md : PayloadMetadata) :
    OwnerSigned (.start participants md) := nofun

theorem start_owned (participants : List PubKey) (md : PayloadMetadata) :
    Owned (.start participants md) := fun h => absurd rfl h

variable [RandChaCha] {w : World} {c : Call} {pk : PubKey}

/-- The episode after an admitted command of `pk`. -/
def accepted (w : World) (c : Call) (pk : PubKey) : World :=
  { w with episode := w.episode.applied pk c.metadata c.cmd }

theorem call_cases (w : World) (c : Call) :
    ((∀ pk, ¬ w.episode.Admits c pk) ∧ w.step (.call c) = w) ∨
      ∃ pk, w.episode.Admits c pk ∧ w.step (.call c) = w.accepted c pk := by
  unfold step
  dsimp only
  rcases w.episode.execute_cases c with ⟨hnot, e, hrejects⟩ | ⟨pk, hadmits, haccepts⟩
  · rw [hrejects]
    exact .inl ⟨hnot, rfl⟩
  · rw [haccepts]
    exact .inr ⟨pk, hadmits, rfl⟩

theorem accepted_owned (h : Owned w) : Owned (w.accepted c pk) := by
  unfold accepted Owned
  cases c.cmd with
  | requestChallenge => exact fun _ => Option.some_ne_none pk
  | submitResponse signature nonce => exact h
  | revokeSession sessionToken signature => exact h

theorem step_owned (h : Owned w) (act : Act) : Owned (w.step act) := by
  cases act with
  | sign pk text => exact h
  | call c =>
    rcases w.call_cases c with ⟨-, hsame⟩ | ⟨pk, -, haccepts⟩
    · rw [hsame]
      exact h
    · rw [haccepts]
      exact accepted_owned h

theorem accepted_ownerSigned_iff (howned : Owned w) (hadmits : w.episode.Admits c pk)
    (hideal : w.Unforged (.call c)) :
    OwnerSigned (w.accepted c pk) ↔
      match c.cmd with
      | .requestChallenge => w.episode.isAuthenticated = true →
        (pk, SimpleAuth.challengeFor pk c.metadata) ∈ w.signed
      | .submitResponse _ nonce => ∀ owner, w.episode.owner = some owner →
        owner = pk ∨ (owner, nonce) ∈ w.signed
      | .revokeSession _ _ => True := by
  have hallowed := hadmits.allowed
  unfold accepted OwnerSigned
  cases hcmd : c.cmd with
  | requestChallenge =>
    constructor
    · intro h hauth
      obtain ⟨owner, challenge, howner, hchallenge, hmem⟩ := h hauth
      cases howner
      cases hchallenge
      exact hmem
    · intro h hauth
      exact ⟨pk, _, rfl, rfl, h hauth⟩
  | submitResponse signature nonce =>
    rw [hcmd] at hallowed
    obtain ⟨-, hchallenge, -, hverify⟩ := hallowed
    constructor
    · intro h owner howner
      obtain ⟨owner', challenge', howner', hchallenge', hmem⟩ := h rfl
      cases howner.symm.trans howner'
      cases hchallenge.symm.trans hchallenge'
      exact .inr hmem
    · intro h _
      -- a challenge that is set was requested, and whoever requested it became the owner
      have hsome : w.episode.owner ≠ none := by
        apply howned
        rw [hchallenge]
        exact Option.some_ne_none nonce
      obtain ⟨owner, howner⟩ := Option.ne_none_iff_exists'.mp hsome
      refine ⟨owner, nonce, howner, hchallenge, ?_⟩
      rcases h owner howner with rfl | hmem
      · exact hideal owner signature nonce hadmits.signed hcmd hverify
      · exact hmem
  | revokeSession sessionToken signature => exact iff_of_true nofun trivial

theorem step_ownerSigned_iff (howned : Owned w) (hsigned : OwnerSigned w) (act : Act)
    (hideal : w.Unforged act) : OwnerSigned (w.step act) ↔ w.KeepsOwner act := by
  cases act with
  | sign pk text =>
    refine iff_of_true (fun hauth => ?_) trivial
    obtain ⟨owner, challenge, howner, hchallenge, hmem⟩ := hsigned hauth
    exact ⟨owner, challenge, howner, hchallenge, List.mem_cons_of_mem _ hmem⟩
  | call c =>
    rcases w.call_cases c with ⟨hnot, hsame⟩ | ⟨pk, hadmits, haccepts⟩
    · rw [hsame]
      exact iff_of_true hsigned fun pk hadmits => absurd hadmits (hnot pk)
    · rw [haccepts, accepted_ownerSigned_iff howned hadmits hideal]
      constructor
      · intro h pk' hadmits'
        obtain rfl := hadmits.unique hadmits'
        exact h
      · intro h
        exact h pk hadmits

end World

open World
variable [RandChaCha]

/-- In every run with ideal signatures, an authentication stands for the signature of the owner
if and only if every command keeps the owner. -/
theorem owner_signed_iff (participants : List PubKey) (md : PayloadMetadata) (acts : List Act)
    (hideal : Throughout (fun earlier act =>
      Unforged (after World.step (.start participants md) earlier) act) acts) :
    Always World.step (.start participants md) OwnerSigned acts ↔
      Throughout (fun earlier act =>
        KeepsOwner (after World.step (.start participants md) earlier) act) acts :=
  always_iff_of_possible (start_ownerSigned participants md) (start_owned participants md)
    (fun _ act _ howned _ _ => step_owned howned act)
    (fun _ act hsigned howned hunforged => step_ownerSigned_iff howned hsigned act hunforged)
    acts hideal

end Kdapp.KaspaAuth

namespace Kdapp.KaspaAuth
open Transition InOrder World
open SignatureVerifier (signText)
attribute [local instance] idealCrypto seedRand

def issued : String := SimpleAuth.challengeFor (1 : UInt8) (metadataAt 10)

def response : AuthCommand := .submitResponse (signText (2 : UInt8) issued) issued

def hijack : List Act :=
  [.call ⟨.requestChallenge, some (1 : UInt8), metadataAt 10, 10⟩, .sign (2 : UInt8) issued,
    .call ⟨response, some (2 : UInt8), metadataAt 11, 11⟩]

theorem hijack_unforged : Throughout (fun earlier act =>
    Unforged (after World.step (.start [(1 : UInt8), (2 : UInt8)] (metadataAt 1)) earlier) act)
    hijack := by
  have hrequest : ∀ w : World,
      Unforged w (.call ⟨.requestChallenge, some (1 : UInt8), metadataAt 10, 10⟩) :=
    fun _ _ _ _ _ => nofun
  have hresponse : ∀ w : World, ((2 : UInt8), issued) ∈ w.signed →
      Unforged w (.call ⟨response, some (2 : UInt8), metadataAt 11, 11⟩) := by
    intro w hmem pk signature nonce hauth hcmd _
    cases hauth
    cases hcmd
    exact hmem
  refine Throughout.concat (l := [_, _]).mpr ⟨?_, hresponse _ List.mem_cons_self⟩
  refine Throughout.concat (l := [_]).mpr ⟨?_, trivial⟩
  exact Throughout.concat (l := []).mpr ⟨.nil, hrequest _⟩

theorem hijack_unsigned :
    ¬ Always World.step (.start [(1 : UInt8), (2 : UInt8)] (metadataAt 1)) OwnerSigned hijack := by
  intro h
  have hauth : (after World.step (.start [(1 : UInt8), (2 : UInt8)] (metadataAt 1))
      (hijack.take 3)).episode.isAuthenticated = true := by decide +kernel
  obtain ⟨owner, challenge, howner, -, hmem⟩ := h 3 hauth
  have hone : (after World.step (.start [(1 : UInt8), (2 : UInt8)] (metadataAt 1))
      (hijack.take 3)).episode.owner = some (1 : UInt8) := by decide +kernel
  cases howner.symm.trans hone
  have hsigned : (after World.step (.start [(1 : UInt8), (2 : UInt8)] (metadataAt 1))
      (hijack.take 3)).signed = [((2 : UInt8), issued)] := rfl
  rw [hsigned, List.mem_singleton, Prod.mk.injEq] at hmem
  exact absurd hmem.1 (by decide)

theorem owner_signed_at :
    (¬ Always World.step (.start [(1 : UInt8), (2 : UInt8)] (metadataAt 1)) OwnerSigned hijack) ∧
    ¬ Throughout (fun earlier act => KeepsOwner
      (after World.step (.start [(1 : UInt8), (2 : UInt8)] (metadataAt 1)) earlier) act) hijack :=
  ⟨hijack_unsigned, fun h => hijack_unsigned
    ((owner_signed_iff [(1 : UInt8), (2 : UInt8)] (metadataAt 1) hijack hijack_unforged).mpr h)⟩

theorem owner_never_signed :
    ¬ ∀ (participants : List PubKey) (md : PayloadMetadata) (acts : List Act),
      Throughout (fun earlier act =>
        Unforged (after World.step (.start participants md) earlier) act) acts →
      Always World.step (.start participants md) OwnerSigned acts :=
  fun h => hijack_unsigned (h [(1 : UInt8), (2 : UInt8)] (metadataAt 1) hijack hijack_unforged)

end Kdapp.KaspaAuth
