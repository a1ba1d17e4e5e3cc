import Kdapp.Comments.Steps

/-! The window of the last fifty comments: the comments and the history list the same ids, in the
order in which they were given out. -/

namespace Kdapp.Comments
open Kdapp.CommentBoard (blank displayKey)
open Rewind UndoLog

variable [Crypto]

structure WindowInvariant (g : CommentBoard) : Prop where
  ids : g.comments.map (·.id) = g.commentHistory
  increasing : g.commentHistory.Pairwise (· < ·)
  bounded : g.commentHistory.length ≤ 50
  range : ∀ id ∈ g.commentHistory, 1 ≤ id ∧ id < g.nextCommentId
  next : 1 ≤ g.nextCommentId
  stored : ∀ c ∈ g.comments, blank c.text = false ∧ c.text.utf8ByteSize ≤ 500 ∧
    c.author ∈ g.roomMembers ∧ c.author ∈ g.authenticatedUsers

omit [Crypto] in
theorem filter_ne_head {l : List ℕ} {x : ℕ} (h : (x :: l).Pairwise (· < ·)) :
    (x :: l).filter (fun y => decide (y ≠ x)) = l := by
  rw [List.filter_cons_of_neg (by simp), List.filter_eq_self]
  intro y hy
  have hlt : x < y := List.rel_of_pairwise_cons h hy
  simpa using Nat.ne_of_gt hlt

namespace WindowInvariant
variable {g : CommentBoard} (h : WindowInvariant g)
include h

theorem ids_filter (x : ℕ) :
    (g.comments.filter fun c => decide (c.id ≠ x)).map (·.id) =
      g.commentHistory.filter fun id => decide (id ≠ x) := by
  rw [← h.ids, List.filter_map]
  rfl

theorem fresh : ∀ c ∈ g.comments, c.id ≠ g.nextCommentId := by
  intro c hc
  have hmem : c.id ∈ g.commentHistory := by
    rw [← h.ids]
    exact List.mem_map_of_mem hc
  exact Nat.ne_of_lt (h.range _ hmem).2

theorem length_eq : g.comments.length = g.commentHistory.length := by
  rw [← h.ids, List.length_map]

end WindowInvariant

section Keep
variable {g : CommentBoard}

theorem WindowInvariant.dropped (h : WindowInvariant g) {g' : CommentBoard} {x : ℕ}
    (hcomments : g'.comments = g.comments.filter fun c => decide (c.id ≠ x))
    (hhistory : g'.commentHistory = g.commentHistory.filter fun id => decide (id ≠ x))
    (hrange : ∀ id ∈ g.commentHistory, id ≠ x → id < g'.nextCommentId)
    (hnext : 1 ≤ g'.nextCommentId) (hmembers : g'.roomMembers = g.roomMembers)
    (husers : g'.authenticatedUsers = g.authenticatedUsers) : WindowInvariant g' where
  ids := by rw [hcomments, hhistory, h.ids_filter]
  increasing := by
    rw [hhistory]
    exact h.increasing.filter _
  bounded := by
    rw [hhistory]
    exact (List.length_filter_le _ _).trans h.bounded
  range id hid := by
    rw [hhistory] at hid
    obtain ⟨hmem, hne⟩ := List.mem_filter.mp hid
    exact ⟨(h.range id hmem).1, hrange id hmem (of_decide_eq_true hne)⟩
  next := hnext
  stored c hc := by
    rw [hcomments] at hc
    rw [hmembers, husers]
    exact h.stored c (List.mem_of_mem_filter hc)

theorem WindowInvariant.congr (h : WindowInvariant g) {g' : CommentBoard}
    (hcomments : g'.comments = g.comments) (hhistory : g'.commentHistory = g.commentHistory)
    (hnext : g'.nextCommentId = g.nextCommentId)
    (hmembers : ∀ key ∈ g.roomMembers, key ∈ g'.roomMembers)
    (husers : ∀ key ∈ g.authenticatedUsers, key ∈ g'.authenticatedUsers) :
    WindowInvariant g' where
  ids := by rw [hcomments, hhistory, h.ids]
  increasing := by
    rw [hhistory]
    exact h.increasing
  bounded := by
    rw [hhistory]
    exact h.bounded
  range := by
    rw [hhistory, hnext]
    exact h.range
  next := by
    rw [hnext]
    exact h.next
  stored c hc := by
    rw [hcomments] at hc
    obtain ⟨hblank, hlong, hmember, huser⟩ := h.stored c hc
    exact ⟨hblank, hlong, hmembers _ hmember, husers _ huser⟩

theorem CommentBoard.evict_cases (g : CommentBoard) :
    (g.commentHistory.length ≤ 50 ∧ g.evict = g) ∨
      ∃ x commentHistory, g.commentHistory = x :: commentHistory ∧ 50 ≤ commentHistory.length ∧
        g.evict = { g with
          commentHistory
          comments := g.comments.filter fun c => decide (c.id ≠ x) } := by
  unfold evict
  split
  · rename_i hlong
    right
    split
    · rename_i x commentHistory hhistory
      refine ⟨x, commentHistory, hhistory, ?_, rfl⟩
      rw [hhistory, List.length_cons] at hlong
      exact Nat.le_of_lt_succ hlong
    · rename_i hhistory
      rw [hhistory] at hlong
      cases hlong
  · rename_i hshort
    exact .inl ⟨Nat.le_of_not_lt hshort, rfl⟩

theorem WindowInvariant.submitted (h : WindowInvariant g) {c : Comment}
    (hid : c.id = g.nextCommentId)
    (hc : blank c.text = false ∧ c.text.utf8ByteSize ≤ 500 ∧ c.author ∈ g.roomMembers ∧
      c.author ∈ g.authenticatedUsers) :
    WindowInvariant { (g.pushed c).evict with nextCommentId := g.nextCommentId + 1 } := by
  have hids : (g.pushed c).comments.map (·.id) = (g.pushed c).commentHistory := by
    have hold := h.ids
    simp only [CommentBoard.pushed, List.map_append, hold, List.map_cons, List.map_nil]
  have hincreasing : (g.pushed c).commentHistory.Pairwise (· < ·) := by
    apply List.pairwise_append.mpr
    refine ⟨h.increasing, List.pairwise_singleton _ _, fun id hid' y hy => ?_⟩
    rw [List.mem_singleton.mp hy, hid]
    exact (h.range id hid').2
  have hrange : ∀ id ∈ (g.pushed c).commentHistory, 1 ≤ id ∧ id < g.nextCommentId + 1 := by
    intro id hmem
    rcases List.mem_append.mp hmem with hold | hnew
    · obtain ⟨hpos, hlt⟩ := h.range id hold
      exact ⟨hpos, Nat.lt_succ_of_lt hlt⟩
    · rw [List.mem_singleton.mp hnew, hid]
      exact ⟨h.next, Nat.lt_succ_self _⟩
  have hstored : ∀ c' ∈ (g.pushed c).comments, blank c'.text = false ∧
      c'.text.utf8ByteSize ≤ 500 ∧ c'.author ∈ g.roomMembers ∧
        c'.author ∈ g.authenticatedUsers := by
    intro c' hmem
    rcases List.mem_append.mp hmem with hold | hnew
    · exact h.stored c' hold
    · rw [List.mem_singleton.mp hnew]
      exact hc
  have hnext : 1 ≤ g.nextCommentId + 1 := Nat.le_add_left 1 _
  -- one comment more is one too many at most: the oldest goes, from both lists
  rcases (g.pushed c).evict_cases with ⟨hshort, hsame⟩ | ⟨x, history, hhistory, -, hevict⟩
  · rw [hsame]
    exact ⟨hids, hincreasing, hshort, hrange, hnext, hstored⟩
  · rw [hevict]
    have htail : ∀ id ∈ history, id ∈ (g.pushed c).commentHistory := by
      intro id hmem
      rw [hhistory]
      exact List.mem_cons_of_mem _ hmem
    rw [hhistory] at hids hincreasing
    refine ⟨?_, hincreasing.of_cons, ?_, fun id hmem => hrange id (htail id hmem), hnext,
      fun c' hmem => hstored c' (List.mem_of_mem_filter hmem)⟩
    · have hfilter : ((g.pushed c).comments.filter fun c' => decide (c'.id ≠ x)).map (·.id) =
          (x :: history).filter fun id => decide (id ≠ x) := by
        rw [← hids, List.filter_map]
        rfl
      exact hfilter.trans (filter_ne_head hincreasing)
    · have hlength : (g.pushed c).commentHistory.length = g.commentHistory.length + 1 :=
        List.length_append
      rw [hhistory, List.length_cons] at hlength
      rw [Nat.succ.inj hlength]
      exact h.bounded

end Keep

/-- A token that takes the count of the ids from the first number to the second. -/
inductive Numbers (rb : CommentRollback) : ℕ → ℕ → Prop
  | comment {n : ℕ} {time : UInt64} (h : rb = .newComment n time) : Numbers rb n (n + 1)
  | join {n : ℕ} {was : Bool} {time : UInt64} (h : rb = .newJoin was time) : Numbers rb n n

section Steps
variable {g : CommentBoard} {pk : PubKey} {c : Call} {rb : CommentRollback}

theorem WindowInvariant.applied [Lowercase] (h : WindowInvariant g) (hadmits : g.Admits c pk) :
    WindowInvariant (g.applied pk c) := by
  have hallowed := hadmits.allowed
  have hsame : ∀ {g' : CommentBoard}, WindowInvariant g' →
      WindowInvariant { g' with timestamp := c.metadata.acceptingTime } := fun h' =>
    h'.congr rfl rfl rfl (fun _ hkey => hkey) (fun _ hkey => hkey)
  unfold CommentBoard.applied
  apply hsame
  unfold CommentBoard.changed
  cases hcmd : c.cmd with
  | requestChallenge => exact h.congr rfl rfl rfl (fun _ hkey => hkey) (fun _ hkey => hkey)
  | submitResponse signature nonce =>
    refine h.congr rfl rfl rfl (fun _ hkey => hkey) (fun key hkey => ?_)
    exact (FiniteSet.mem_insert _ _ _).mpr (.inr hkey)
  | joinRoom =>
    refine h.congr rfl rfl rfl (fun key hkey => ?_) (fun _ hkey => hkey)
    exact (FiniteSet.mem_insert _ _ _).mpr (.inr hkey)
  | submitComment text bondAmount =>
    rw [hcmd] at hallowed
    obtain ⟨huser, hmember, hblank, hlong, -⟩ := hallowed
    exact h.submitted rfl ⟨hblank, hlong, hmember, huser⟩
  | setForbiddenWords words => exact h.congr rfl rfl rfl (fun _ hkey => hkey) (fun _ hkey => hkey)

theorem applied_numbers (g : CommentBoard) (pk : PubKey) (c : Call) :
    Numbers (g.token pk c.cmd) g.nextCommentId (g.applied pk c).nextCommentId := by
  unfold CommentBoard.applied CommentBoard.changed
  cases c.cmd with
  | submitComment text bondAmount => exact .comment rfl
  | requestChallenge => exact .join rfl
  | submitResponse signature nonce => exact .join rfl
  | joinRoom => exact .join rfl
  | setForbiddenWords words => exact .join rfl

theorem rollback_newJoin (g : CommentBoard) (was : Bool) (time : UInt64) :
    g.rollback (.newJoin was time) = ({ g with timestamp := time }, true) := if_pos rfl

theorem rollback_newComment (g : CommentBoard) (id : ℕ) (time : UInt64) :
    g.rollback (.newComment id time) = ({ g with
      timestamp := time
      comments := g.comments.filter fun c => decide (c.id ≠ id)
      commentHistory := g.commentHistory.filter fun x => decide (x ≠ id)
      nextCommentId := if g.nextCommentId > 1 then id else g.nextCommentId },
      decide ((g.comments.filter fun c => decide (c.id ≠ id)).length < g.comments.length)) := by
  have htype : (CommentRollback.newComment id time).commandType = "comment" := rfl
  have hne : "comment" ≠ "join" := by decide
  unfold CommentBoard.rollback
  rw [htype, if_neg hne, if_pos rfl]
  rfl

theorem WindowInvariant.rollback {n : ℕ} (h : WindowInvariant g)
    (hnumbers : Numbers rb n g.nextCommentId) (hn : 1 ≤ n) :
    WindowInvariant (g.rollback rb).1 ∧ (g.rollback rb).1.nextCommentId = n := by
  generalize hnext : g.nextCommentId = n' at hnumbers
  cases hnumbers with
  | @join was time htoken =>
    rw [htoken, rollback_newJoin]
    exact ⟨h.congr rfl rfl rfl (fun _ hkey => hkey) (fun _ hkey => hkey), hnext⟩
  | @comment time htoken =>
    rw [htoken, rollback_newComment]
    have hback : (if g.nextCommentId > 1 then n else g.nextCommentId) = n :=
      if_pos (by rw [hnext]; exact Nat.lt_succ_of_le hn)
    refine ⟨h.dropped rfl rfl (fun id hid hne => ?_) ?_ rfl rfl, hback⟩
    · have hlt := (h.range id hid).2
      dsimp only
      rw [hback]
      rw [hnext] at hlt
      exact Nat.lt_of_le_of_ne (Nat.le_of_lt_succ hlt) hne
    · dsimp only
      rw [hback]
      exact hn

end Steps

theorem create_window (participants : List PubKey) (md : PayloadMetadata) :
    WindowInvariant (.create participants md) where
  ids := rfl
  increasing := .nil
  bounded := Nat.zero_le 50
  range _ h := by cases h
  next := Nat.le_refl 1
  stored _ h := by cases h

section Runs
variable [Lowercase] (participants : List PubKey) (md : PayloadMetadata)
  (events : List (Event Call))

theorem numbered_after : ∃ n,
    Chain (fun r n n' => Numbers r.token n n' ∧ 1 ≤ n) 1
      (board.run (.create participants md) events).log n ∧
    WindowInvariant (board.run (.create participants md) events).state ∧
    (board.run (.create participants md) events).state.nextCommentId = n := by
  have hruns := Machine.runs board_atomic (.create participants md) events
  apply hruns.simulates (Q := fun g n => WindowInvariant g ∧ g.nextCommentId = n)
  · exact ⟨create_window participants md, rfl⟩
  · rintro r g g' n ⟨hwindow, rfl⟩ ⟨-, hexec⟩
    obtain ⟨pk, hadmits, rfl, htoken⟩ := board_execute hexec
    refine ⟨_, ⟨?_, hwindow.next⟩, hwindow.applied hadmits, rfl⟩
    rw [htoken]
    exact applied_numbers g pk r.command
  · rintro r g g' n n' ⟨hnumbers, hn⟩ ⟨hwindow, rfl⟩ rfl
    exact hwindow.rollback hnumbers hn

theorem nextCommentId_le_log :
    (board.run (.create participants md) events).state.nextCommentId ≤
      (board.run (.create participants md) events).log.length + 1 := by
  obtain ⟨n, hchain, -, hn⟩ := numbered_after participants md events
  rw [hn]
  clear hn
  generalize (board.run (.create participants md) events).log = log at hchain
  induction hchain with
  | nil => exact Nat.le_refl 1
  | cons h hr ih =>
    rw [List.length_cons]
    cases hr.1 with
    | comment => exact Nat.succ_le_succ ih
    | join => exact Nat.le_succ_of_le ih

theorem window_after :
    WindowInvariant (board.run (.create participants md) events).state := by
  obtain ⟨n, -, hwindow, -⟩ := numbered_after participants md events
  exact hwindow

/-- In every state that commands and rollbacks lead to. -/
theorem window_invariant :
    WindowInvariant (board.run (.create participants md) events).state ∧
      (board.run (.create participants md) events).state.comments.length ≤ 50 := by
  have h := window_after participants md events
  refine ⟨h, ?_⟩
  rw [h.length_eq]
  exact h.bounded

end Runs
end Kdapp.Comments
