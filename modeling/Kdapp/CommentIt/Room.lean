import Kdapp.CommentIt.Rollback

/-! What holds of the comments in every room: each one is there because a participant posted it
while signed in, and that command has not been rolled back. -/

namespace Kdapp.CommentIt
open CommentBoard (blank displayKey)
open Transition UndoLog

variable [Crypto]

/-- The command by which one of the participants posted the comment. -/
structure Record.Posts (participants : List PubKey) (r : Record) (c : Comment) : Prop where
  rollback : r.rollback = .commentAdded c.id
  command : ∃ sessionToken, r.call.cmd = .submitComment c.text sessionToken
  author : ∃ pk ∈ participants, r.call.authorization = some pk ∧ displayKey pk = c.author
  signedIn : c.author ∈ r.before.authenticatedParticipants
  notBlank : blank c.text = false
  notLong : c.text.utf8ByteSize ≤ 2000

/-- The comments of a room are numbered from 1 without gaps, and each was posted, while signed in,
by a participant whose command is still in the log. -/
structure RoomInvariant (participants : List PubKey) (node : Node) : Prop where
  authorized : node.room.authorizedParticipants = participants
  ids : node.room.comments.map (·.id) = List.range' 1 node.room.comments.length
  next : node.room.nextCommentId = node.room.comments.length + 1
  unique : (node.room.comments.map (·.id)).Nodup
  text : ∀ c ∈ node.room.comments, blank c.text = false ∧ c.text.utf8ByteSize ≤ 2000
  posted : ∀ c ∈ node.room.comments, ∃ r ∈ node.log, r.Posts participants c

/-- What a record tells of the comments before and after its command. -/
inductive Tells (participants : List PubKey) (r : Record) : Book → Book → Prop
  | posted {b : Book} {c : Comment} (hid : c.id = b.nextCommentId) (h : r.Posts participants c) :
    Tells participants r b ⟨b.comments ++ [c], b.nextCommentId + 1⟩
  | other {b : Book} (h : ∀ id, r.rollback ≠ .commentAdded id) : Tells participants r b b

variable {participants : List PubKey} {node : Node} {r : Record} {b b' : Book} {c : Comment}

theorem Tells.changes (h : Tells participants r b b') : Book.Changes r b b' := by
  cases h with
  | other hother => exact .other hother
  | @posted c hid hposts =>
    have hcomment : c = ⟨b.nextCommentId, c.text, c.author, c.timestamp⟩ := by rw [← hid]
    rw [hcomment]
    exact .commented (hposts.rollback.trans (congrArg _ hid))

theorem Tells.posts (h : Tells participants r b b') (hnew : c ∉ b.comments)
    (hc : c ∈ b'.comments) : r.Posts participants c := by
  cases h with
  | other => exact absurd hc hnew
  | posted hid hposts =>
    rcases List.mem_append.mp hc with hold | hlast
    · exact absurd hold hnew
    · obtain rfl := List.mem_singleton.mp hlast
      exact hposts

section Step
variable [RandChaCha]

theorem applied_tells (hauthorized : node.room.authorizedParticipants = participants) (c : Call)
    {pk : PubKey} (hadmits : node.room.Admits c.authorization c.cmd pk) :
    Tells participants ⟨node.room, c, node.room.token pk c.cmd⟩ node.room.book
      (node.room.applied pk c.metadata c.cmd).book := by
  obtain ⟨cmd, auth, md⟩ := c
  cases cmd with
  | submitComment text sessionToken =>
    obtain ⟨hblank, hlong, hsignedIn⟩ := hadmits.allowed
    refine .posted rfl ⟨rfl, ⟨sessionToken, rfl⟩, ⟨pk, ?_, hadmits.signed, rfl⟩, hsignedIn, hblank,
      hlong⟩
    rw [← hauthorized]
    exact hadmits.authorized
  | requestChallenge => exact .other nofun
  | submitResponse signature nonce => exact .other nofun
  | revokeSession sessionToken signature => exact .other nofun

omit [RandChaCha] in
theorem rollback_authorized (g : AuthWithCommentsEpisode) (rb : UnifiedRollback) :
    (g.rollback rb).1.authorizedParticipants = g.authorizedParticipants := by
  cases rb with
  | commentAdded commentId =>
    unfold AuthWithCommentsEpisode.rollback
    dsimp only
    split <;> rfl
  | challenge key previous => rfl
  | authentication key was => rfl
  | sessionRevoked key was => rfl

theorem applied_authorized (g : AuthWithCommentsEpisode) (pk : PubKey) (md : PayloadMetadata)
    (cmd : UnifiedCommand) :
    (g.applied pk md cmd).authorizedParticipants = g.authorizedParticipants := by
  cases cmd <;> rfl

theorem step_authorized (node : Node) (e : Event) :
    (node.step e).room.authorizedParticipants = node.room.authorizedParticipants := by
  cases e with
  | call c =>
    dsimp only [Node.step]
    rcases node.call_cases c with ⟨-, hsame⟩ | ⟨pk, -, haccepts⟩
    · rw [hsame]
    · rw [haccepts]
      exact applied_authorized node.room pk c.metadata c.cmd
  | rollback =>
    dsimp only [Node.step]
    unfold Node.undo
    split
    · exact rollback_authorized node.room _
    · rfl

end Step

/-- The records in the log tell how the comments of the room came about. -/
structure Told (participants : List PubKey) (node : Node) : Prop where
  authorized : node.room.authorizedParticipants = participants
  chain : Chain (Tells participants) ⟨[], 1⟩ node.log node.room.book

namespace Told

theorem step [RandChaCha] (h : Told participants node) (e : Event) :
    Told participants (node.step e) where
  authorized := (step_authorized node e).trans h.authorized
  chain := chain_step (fun _ _ _ htells => htells.changes)
    (fun c _ hadmits => applied_tells h.authorized c hadmits) h.chain e

theorem posted (h : Told participants node) (hc : c ∈ node.room.comments) :
    ∃ r ∈ node.log, r.Posts participants c := by
  have hnone : c ∉ (⟨[], 1⟩ : Book).comments := List.not_mem_nil
  obtain ⟨r, hr, -, b₁, b₂, -, htells, hnew, hafter⟩ :=
    Chain.exists_change (Q := fun b => c ∈ b.comments) hnone h.chain hc
  exact ⟨r, hr, htells.posts hnew hafter⟩

theorem roomInvariant (h : Told participants node) : RoomInvariant participants node := by
  have hnumbered := numbered_of_chain (fun _ _ _ htells => htells.changes) h.chain
  refine ⟨h.authorized, hnumbered.ids, hnumbered.next, ?_, fun c hc => ?_, fun c hc => h.posted hc⟩
  · have hids : node.room.comments.map (·.id) = List.range' 1 node.room.comments.length :=
      hnumbered.ids
    rw [hids]
    exact List.nodup_range'
  · obtain ⟨r, -, hposts⟩ := h.posted hc
    exact ⟨hposts.notBlank, hposts.notLong⟩

end Told

/-- In every state that commands and rollbacks lead to. -/
theorem room_invariant [RandChaCha] (participants : List PubKey) (md : PayloadMetadata)
    (events : List Event) :
    RoomInvariant participants (after Node.step (.start participants md) events) := by
  apply Told.roomInvariant
  induction events using List.reverseRecOn with
  | nil => exact ⟨rfl, .nil⟩
  | append_singleton events e ih =>
    rw [after_concat]
    exact ih.step e

end Kdapp.CommentIt
