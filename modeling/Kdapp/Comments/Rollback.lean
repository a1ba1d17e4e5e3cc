import Kdapp.Comments.Window

/-! Which commands of a comment board a rollback takes back: its token knows the time and the id of
a comment, and nothing else. -/

namespace Kdapp.Comments
open Kdapp.CommentBoard (displayKey challengeFor)
open Rewind

variable [Crypto]

namespace CommentBoard

/-- The commands that leave nothing but the time and one more comment. -/
def Undoable (g : CommentBoard) (c : Call) : Prop :=
  match c.cmd with
  | .requestChallenge => g.challenge ≠ none
  | .submitResponse _ _ => False
  | .joinRoom => ∀ pk, c.authorization = some pk → displayKey pk ∈ g.roomMembers
  | .submitComment _ _ => g.comments.length < 50
  | .setForbiddenWords words => words = g.forbiddenWords

variable {g : CommentBoard} {pk : PubKey} {c : Call}

theorem rollback_applied_newJoin {was : Bool}
    (htoken : g.token pk c.cmd = .newJoin was g.timestamp) :
    (g.applied pk c).rollback (g.token pk c.cmd) = (g, true) ↔
      { g.changed pk c with timestamp := g.timestamp } = g := by
  rw [htoken, rollback_newJoin, Prod.mk.injEq]
  exact and_iff_left rfl

theorem rollback_pushed (h : WindowInvariant g) (hfew : g.comments.length < 50) (new : Comment)
    (hid : new.id = g.nextCommentId) (time : UInt64) :
    ({ (g.pushed new).evict with
      nextCommentId := g.nextCommentId + 1
      timestamp := time } : CommentBoard).rollback
        (.newComment g.nextCommentId g.timestamp) = (g, true) := by
  have hkept : (g.pushed new).evict = g.pushed new := by
    rcases (g.pushed new).evict_cases with ⟨-, hsame⟩ | ⟨x, history, hhistory, hlong, -⟩
    · exact hsame
    · have hlength : (g.pushed new).commentHistory.length = g.commentHistory.length + 1 :=
        List.length_append
      rw [hhistory, List.length_cons, ← h.length_eq] at hlength
      omega
  have hcomments : (g.pushed new).comments.filter (fun c => decide (c.id ≠ g.nextCommentId)) =
      g.comments := by
    have hold : g.comments.filter (fun c => decide (c.id ≠ g.nextCommentId)) = g.comments :=
      List.filter_eq_self.mpr fun c hc => decide_eq_true (h.fresh c hc)
    have hnew : [new].filter (fun c => decide (c.id ≠ g.nextCommentId)) = [] :=
      List.filter_cons_of_neg (by simp [hid])
    unfold pushed
    rw [List.filter_append, hold, hnew, List.append_nil]
  have hhistory : (g.pushed new).commentHistory.filter
      (fun x => decide (x ≠ g.nextCommentId)) = g.commentHistory := by
    have hold : g.commentHistory.filter (fun x => decide (x ≠ g.nextCommentId)) =
        g.commentHistory :=
      List.filter_eq_self.mpr fun x hx => decide_eq_true (Nat.ne_of_lt (h.range x hx).2)
    have hnew : [new.id].filter (fun x => decide (x ≠ g.nextCommentId)) = [] :=
      List.filter_cons_of_neg (by simp [hid])
    unfold pushed
    rw [List.filter_append, hold, hnew, List.append_nil]
  have hnext : g.nextCommentId + 1 > 1 := Nat.lt_succ_of_le h.next
  have hremoved : g.comments.length < (g.pushed new).comments.length := by
    unfold pushed
    rw [List.length_append]
    exact Nat.lt_succ_self _
  rw [rollback_newComment, hkept]
  dsimp only
  rw [hcomments, hhistory, if_pos hnext, decide_eq_true hremoved]
  rfl

theorem rollback_evicted (h : WindowInvariant g) (hfull : ¬ g.comments.length < 50)
    (new : Comment) (time : UInt64) :
    (({ (g.pushed new).evict with
      nextCommentId := g.nextCommentId + 1
      timestamp := time } : CommentBoard).rollback
        (.newComment g.nextCommentId g.timestamp)).1 ≠ g := by
  intro hsame
  rw [rollback_newComment] at hsame
  have hcomments : (g.pushed new).evict.comments.filter
      (fun c => decide (c.id ≠ g.nextCommentId)) = g.comments :=
    congrArg CommentBoard.comments hsame
  rcases (g.pushed new).evict_cases with ⟨hshort, -⟩ | ⟨x, history, hhistory, -, hevict⟩
  · have hlength : (g.pushed new).commentHistory.length = g.commentHistory.length + 1 :=
      List.length_append
    rw [hlength, ← h.length_eq] at hshort
    exact hfull hshort
  · rw [hevict] at hcomments
    dsimp only at hcomments
    -- the oldest comment of the board was dropped
    have hx : x ∈ g.commentHistory := by
      cases hold : g.commentHistory with
      | nil =>
        rw [h.length_eq, hold] at hfull
        exact absurd (by decide) hfull
      | cons y ys =>
        have hcons : y :: (ys ++ [new.id]) = x :: history := by
          rw [← hhistory]
          unfold pushed
          rw [hold, List.cons_append]
        rw [(List.cons.inj hcons).1]
        exact List.mem_cons_self
    rw [← h.ids] at hx
    obtain ⟨c, hc, hid⟩ := List.mem_map.mp hx
    rw [← hcomments] at hc
    have hkept := (List.mem_filter.mp (List.mem_filter.mp hc).1).2
    exact of_decide_eq_true hkept hid

theorem rollback_applied_iff [Lowercase] (h : WindowInvariant g) (hadmits : g.Admits c pk) :
    (g.applied pk c).rollback (g.token pk c.cmd) = (g, true) ↔ g.Undoable c := by
  obtain ⟨hsigned, hallowed⟩ := hadmits
  obtain ⟨cmd, authorization, metadata, drawn⟩ := c
  unfold Undoable
  dsimp only at hsigned
  cases cmd with
  | requestChallenge =>
    rw [rollback_applied_newJoin rfl]
    unfold changed
    cases hchallenge : g.challenge with
    | none =>
      refine iff_of_false (fun hsame => ?_) (fun hne => hne rfl)
      have hsome := congrArg CommentBoard.challenge hsame
      rw [hchallenge] at hsome
      cases hsome
    | some challenge =>
      refine iff_of_true ?_ (Option.some_ne_none challenge)
      have hkept : some ((some challenge).getD (challengeFor metadata)) = g.challenge :=
        hchallenge.symm
      dsimp only
      rw [hkept]
  | submitResponse signature nonce =>
    rw [rollback_applied_newJoin rfl]
    unfold changed
    refine iff_of_false (fun hsame => ?_) id
    -- the token does not know the challenge that the answer has used up
    have hnone : none = g.challenge := congrArg CommentBoard.challenge hsame
    cases hnone.trans hallowed.1
  | joinRoom =>
    rw [rollback_applied_newJoin rfl]
    unfold changed
    constructor
    · intro hsame pk' hsigned'
      obtain rfl := Option.some.inj (hsigned'.symm.trans hsigned)
      have hmembers : g.roomMembers.insert (displayKey pk') = g.roomMembers :=
        congrArg CommentBoard.roomMembers hsame
      rw [← hmembers]
      exact (FiniteSet.mem_insert _ _ _).mpr (.inl rfl)
    · intro hmember
      have hmembers : g.roomMembers.insert (displayKey pk) = g.roomMembers :=
        FiniteSet.insert_of_mem (hmember pk hsigned)
      dsimp only
      rw [hmembers]
  | submitComment text bondAmount =>
    have happlied : g.applied pk ⟨.submitComment text bondAmount, authorization, metadata, drawn⟩ =
        { (g.pushed (g.posted pk metadata text bondAmount)).evict with
          nextCommentId := g.nextCommentId + 1
          timestamp := metadata.acceptingTime } := rfl
    rw [happlied]
    dsimp only [token]
    constructor
    · intro hsame
      -- with the window full, the comment that was dropped does not come back
      by_contra hfull
      exact rollback_evicted h hfull _ _ (congrArg Prod.fst hsame)
    · intro hfew
      exact rollback_pushed h hfew _ rfl _
  | setForbiddenWords words =>
    rw [rollback_applied_newJoin rfl]
    unfold changed
    constructor
    · intro hsame
      exact congrArg CommentBoard.forbiddenWords hsame
    · intro hwords
      dsimp only
      rw [hwords]

end CommentBoard

/-- From every state that commands and rollbacks lead to: the rollbacks of any further run succeed
and restore the whole board if and only if the commands that are taken back are undoable. -/
theorem rollbacks_exact_iff [Lowercase] (participants : List PubKey) (md : PayloadMetadata)
    (events more : List (Event Call)) :
    board.AllRestored (board.run (.create participants md) events).state more ↔
      board.AllUndoable CommentBoard.Undoable
        (board.run (.create participants md) events).state more := by
  apply Machine.allRestored_iff_allUndoable (Q := WindowInvariant) board_atomic
  · intro g c g' rb h hexec
    obtain ⟨pk, hadmits, rfl, -⟩ := board_execute hexec
    exact h.applied hadmits
  · intro g c g' rb h hexec
    obtain ⟨pk, hadmits, rfl, rfl⟩ := board_execute hexec
    exact CommentBoard.rollback_applied_iff h hadmits
  · exact window_after participants md events

end Kdapp.Comments

namespace Kdapp.Comments
open Kdapp.CommentBoard (displayKey challengeFor)
open Rewind

@[reducible] def asciiLowercase : Lowercase := ⟨String.toLower⟩

attribute [local instance] idealCrypto asciiLowercase

def arrival : PayloadMetadata := ⟨Hash.filled 1, 1, 1000, Hash.filled 2, none⟩

def request : Event Call := .call ⟨.requestChallenge, some (1 : UInt8), arrival, 0⟩

def answer : Call :=
  ⟨.submitResponse "sig" (challengeFor arrival), some (1 : UInt8), arrival, 7⟩

/-- Whoever answers the challenge stays signed in when the answer is rolled back, and nobody gets
the challenge back. -/
theorem answer_stays :
    ¬ ∀ (participants : List PubKey) (md : PayloadMetadata) (events : List (Event Call))
      (c : Call) (g : CommentBoard) (rb : CommentRollback),
      board.execute (board.run (.create participants md) events).state c = (g, some rb) →
      board.rollback g rb = ((board.run (.create participants md) events).state, true) := by
  intro h
  have hadmits : (board.run (.create [(1 : UInt8)] arrival) [request]).state.Admits answer
      (1 : UInt8) := ⟨rfl, rfl, by decide⟩
  have hwindow := window_after [(1 : UInt8)] arrival [request]
  have hrestored := h [(1 : UInt8)] arrival [request] answer _ _ rfl
  exact (CommentBoard.rollback_applied_iff hwindow hadmits).mp hrestored

end Kdapp.Comments
