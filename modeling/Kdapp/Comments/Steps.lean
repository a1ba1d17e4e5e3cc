import Kdapp.Comments
import Kdapp.Library.Outcome
import Kdapp.Library.Rewind

/-! What a command can do to a comment board, and the board as a system with rollbacks. -/

namespace Kdapp.Comments
open Kdapp.CommentBoard (blank displayKey challengeFor)

variable [Crypto] [Lowercase]

/-- A command as the engine hands it to the episode, and the number that is drawn then. -/
structure Call where
  cmd : CommentCommand
  authorization : Option PubKey
  metadata : PayloadMetadata
  drawn : UInt64

namespace CommentBoard

/-- What a command of `pk` is checked for. -/
def Allows (g : CommentBoard) (pk : PubKey) : CommentCommand → Prop
  | .requestChallenge | .joinRoom => True
  | .submitResponse signature nonce => g.challenge = some nonce ∧ signature ≠ ""
  | .submitComment text _ =>
    displayKey pk ∈ g.authenticatedUsers ∧ displayKey pk ∈ g.roomMembers ∧
      blank text = false ∧ text.utf8ByteSize ≤ 500 ∧ g.hasForbiddenWord text = false
  | .setForbiddenWords _ => g.creator = some pk

structure Admits (g : CommentBoard) (c : Call) (pk : PubKey) : Prop where
  signed : c.authorization = some pk
  allowed : g.Allows pk c.cmd

variable (g : CommentBoard) (pk : PubKey)

omit [Lowercase] in
/-- The comment that a call of `pk` posts. -/
def posted (metadata : PayloadMetadata) (text : String) (bondAmount : UInt64) : Comment :=
  ⟨g.nextCommentId, text, displayKey pk, metadata.acceptingTime, bondAmount⟩

omit [Lowercase] in
def pushed (c : Comment) : CommentBoard :=
  { g with comments := g.comments ++ [c], commentHistory := g.commentHistory ++ [c.id] }

omit [Lowercase] in
/-- The board after an admitted command of `pk`, but for the time. -/
def changed (c : Call) : CommentBoard :=
  match c.cmd with
  | .requestChallenge =>
    { g with challenge := some (g.challenge.getD (challengeFor c.metadata)) }
  | .submitResponse _ _ => { g with
      authenticatedUsers := g.authenticatedUsers.insert (displayKey pk)
      sessionTokens := g.sessionTokens.insert (displayKey pk) ("sess_" ++ c.drawn.toNat.repr)
      challenge := none }
  | .joinRoom => { g with roomMembers := g.roomMembers.insert (displayKey pk) }
  | .submitComment text bondAmount =>
    { (g.pushed (g.posted pk c.metadata text bondAmount)).evict with
      nextCommentId := g.nextCommentId + 1 }
  | .setForbiddenWords words => { g with forbiddenWords := words }

omit [Lowercase] in
def applied (c : Call) : CommentBoard :=
  { g.changed pk c with timestamp := c.metadata.acceptingTime }

omit [Lowercase] in
def token : CommentCommand → CommentRollback
  | .requestChallenge | .submitResponse _ _ | .setForbiddenWords _ => .newJoin false g.timestamp
  | .joinRoom => .newJoin (g.roomMembers.contains (displayKey pk)) g.timestamp
  | .submitComment _ _ => .newComment g.nextCommentId g.timestamp

theorem execute_checked (c : Call) :
    Checked (g.Admits { c with authorization := some pk } pk) g
      (g.applied pk c, .ok (g.token pk c.cmd)) (g.execute c.metadata c.drawn c.cmd (some pk)) := by
  have hadmits : g.Admits { c with authorization := some pk } pk ↔ g.Allows pk c.cmd := by
    constructor
    · intro h
      exact h.allowed
    · intro h
      exact ⟨rfl, h⟩
  rw [hadmits]
  obtain ⟨cmd, auth, md, drawn⟩ := c
  cases cmd with
  | requestChallenge =>
    refine .inr ⟨trivial, ?_⟩
    unfold execute executeRequestChallenge applied changed
    cases hchallenge : g.challenge with
    | none => rfl
    | some challenge => simp [hchallenge, token]
  | submitResponse signature nonce =>
    unfold execute executeSubmitResponse
    dsimp only
    cases hchallenge : g.challenge with
    | none =>
      apply Checked.refused
      rintro ⟨hsome, -⟩
      cases hchallenge.symm.trans hsome
    | some challenge =>
      apply Checked.check
      · rintro hnot ⟨hsome, hsignature⟩
        exact hnot ⟨Option.some.inj (hsome.symm.trans hchallenge), hsignature⟩
      intro hboth
      obtain ⟨rfl, hsignature⟩ := not_not.mp hboth
      exact .passed ⟨hchallenge, hsignature⟩
  | joinRoom => exact .passed trivial
  | submitComment text bondAmount =>
    unfold execute executeSubmitComment
    -- the checks in the order of the source, each with the conjunct that it decides
    apply Checked.check
    · intro hauth h
      exact hauth h.1
    intro hauth
    apply Checked.check
    · intro hmember h
      exact hmember h.2.1
    intro hmember
    apply Checked.check
    · intro hblank h
      cases hblank.symm.trans h.2.2.1
    intro hblank
    apply Checked.check
    · intro hlong h
      exact Nat.not_le_of_lt hlong h.2.2.2.1
    intro hlong
    apply Checked.check
    · intro hword h
      cases hword.symm.trans h.2.2.2.2
    · intro hword
      exact .passed ⟨not_not.mp hauth, not_not.mp hmember, Bool.eq_false_of_not_eq_true hblank,
        Nat.le_of_not_lt hlong, Bool.eq_false_of_not_eq_true hword⟩
  | setForbiddenWords words =>
    unfold execute executeSetForbiddenWords
    apply Checked.check
    · intro hcreator h
      exact hcreator h
    · intro hcreator
      exact .passed (not_not.mp hcreator)

theorem execute_cases (c : Call) :
    ((∀ pk, ¬ g.Admits c pk) ∧
      ∃ e, g.execute c.metadata c.drawn c.cmd c.authorization = (g, .error e)) ∨
      ∃ pk, g.Admits c pk ∧ g.execute c.metadata c.drawn c.cmd c.authorization =
        (g.applied pk c, .ok (g.token pk c.cmd)) := by
  cases hauth : c.authorization with
  | none =>
    left
    refine ⟨fun pk h => ?_, _, rfl⟩
    cases hauth.symm.trans h.signed
  | some pk =>
    have hcall : { c with authorization := some pk } = c := by rw [← hauth]
    rcases g.execute_checked pk c with ⟨hnot, hrejects⟩ | ⟨hadmits, haccepts⟩
    · left
      refine ⟨fun pk' h => hnot ?_, hrejects⟩
      obtain rfl := Option.some.inj (hauth.symm.trans h.signed)
      rw [hcall]
      exact h
    · right
      rw [hcall] at hadmits
      exact ⟨pk, hadmits, haccepts⟩

end CommentBoard

def board : Rewind.Machine CommentBoard Call CommentRollback where
  execute g c :=
    let (g', result) := g.execute c.metadata c.drawn c.cmd c.authorization
    (g', result.toOption)
  rollback g rb := g.rollback rb

variable {g g' : CommentBoard} {c : Call} {rb : CommentRollback}

theorem board_execute (h : board.execute g c = (g', some rb)) :
    ∃ pk, g.Admits c pk ∧ g' = g.applied pk c ∧ rb = g.token pk c.cmd := by
  have hexec : ((g.execute c.metadata c.drawn c.cmd c.authorization).1,
      (g.execute c.metadata c.drawn c.cmd c.authorization).2.toOption) = (g', some rb) := h
  rcases g.execute_cases c with ⟨-, e, hrejects⟩ | ⟨pk, hadmits, haccepts⟩
  · rw [hrejects] at hexec
    cases hexec
  · rw [haccepts] at hexec
    cases hexec
    exact ⟨pk, hadmits, rfl, rfl⟩

theorem board_atomic : board.Atomic := by
  intro g c g' h
  have hexec : ((g.execute c.metadata c.drawn c.cmd c.authorization).1,
      (g.execute c.metadata c.drawn c.cmd c.authorization).2.toOption) = (g', none) := h
  rcases g.execute_cases c with ⟨-, e, hrejects⟩ | ⟨pk, -, haccepts⟩
  · rw [hrejects] at hexec
    cases hexec
    rfl
  · rw [haccepts] at hexec
    cases hexec

end Kdapp.Comments
