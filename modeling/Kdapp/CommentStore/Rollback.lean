import Kdapp.CommentStore.Attribution
import Kdapp.Library.Rewind

/-! The rollbacks of the episode for comments. The token of a registration says neither what session
was there before nor that the episode for authentication was unknown. -/

namespace Kdapp.CommentStore
open FiniteMap InOrder Transition Rewind
open Std (ExtTreeMap)

variable [Crypto]

def episode : Machine CommentEpisode Call CommentRollback where
  execute g c :=
    let (g', result) := g.call c
    (g', result.toOption)
  rollback g rb := g.rollback rb

namespace CommentEpisode
variable {g g' : CommentEpisode} {c : Call} {pk : PubKey} {rb : CommentRollback}

/-- A registration can be taken back if the key had no session, and the episode for authentication
was known. -/
def Undoable (g : CommentEpisode) (c : Call) : Prop :=
  match c.cmd with
  | .registerSession publicKey _ _ =>
    g.validSessions[publicKey]? = none ∧ g.authEpisodeId.isSome
  | _ => True

def Numbered (g : CommentEpisode) : Prop :=
  g.comments.map (·.id) = List.range' 1 g.comments.length ∧ g.nextId = g.comments.length + 1

theorem Numbered.submitted (h : g.Numbered) (comment : Comment) (hid : comment.id = g.nextId) :
    Numbered { g with comments := g.comments ++ [comment], nextId := g.nextId + 1 } := by
  obtain ⟨hids, hnext⟩ := h
  constructor
  · dsimp only
    rw [List.map_append, hids, List.length_append, List.length_singleton, List.range'_concat,
      List.map_singleton, hid, hnext, Nat.one_mul, Nat.add_comm 1]
  · dsimp only
    rw [hnext, List.length_append, List.length_singleton]

theorem Accepts.numbered (h : g.Accepts c pk g' rb) (hg : g.Numbered) : g'.Numbered := by
  cases h with
  | submitted => exact hg.submitted _ rfl
  | queried => exact hg
  | registered => exact hg
  | revoked => exact hg

theorem Numbered.rollback_last (h : g.Numbered) {comments : List Comment} {last : Comment}
    (hcomments : g.comments = comments ++ [last]) :
    g.rollback (.commentSubmitted last.id) =
      ({ g with comments, nextId := last.id }, true) ∧
      last.id = comments.length + 1 ∧
      Numbered { g with comments, nextId := last.id } := by
  obtain ⟨hids, -⟩ := h
  rw [hcomments, List.map_append, List.length_append, List.length_singleton, List.range'_concat,
    List.map_singleton, Nat.one_mul, Nat.add_comm 1] at hids
  obtain ⟨hids, hlast⟩ := List.append_inj' hids rfl
  have hid : last.id = comments.length + 1 := (List.cons.inj hlast).1
  have hnone : comments.findIdx? (fun c => decide (c.id = last.id)) = none := by
    apply List.findIdx?_eq_none_iff.mpr
    intro c hc
    have hmem := List.mem_map_of_mem (f := (·.id)) hc
    rw [hids, List.mem_range'] at hmem
    apply decide_eq_false
    omega
  have hfind : g.comments.findIdx? (fun c => decide (c.id = last.id)) = some comments.length := by
    rw [hcomments, List.findIdx?_append, hnone, List.findIdx?_singleton]
    simp
  have herase : g.comments.eraseIdx comments.length = comments := by
    rw [hcomments, List.eraseIdx_append_of_length_le (Nat.le_refl _), Nat.sub_self]
    exact List.append_nil comments
  refine ⟨?_, hid, hids, hid⟩
  simp only [rollback, hfind, herase]

theorem rollback_accepted_iff (h : g.Numbered) (haccepts : g.Accepts c pk g' rb) :
    g'.rollback rb = (g, true) ↔ g.Undoable c := by
  unfold Undoable
  have hnumbered := haccepts.numbered h
  cases haccepts with
  | @submitted text author token signature hcmd =>
    rw [hcmd]
    refine iff_of_true ?_ trivial
    exact (hnumbered.rollback_last rfl).1
  | queried hcmd hother hrevoke =>
    refine iff_of_true rfl ?_
    split
    · exact absurd ‹_› (hother _ _ _)
    · trivial
  | @registered key token ep hcmd =>
    rw [hcmd]
    dsimp only [rollback]
    constructor
    · intro hsame
      have hrest := congrArg Prod.fst hsame
      have hsessions := congrArg CommentEpisode.validSessions hrest
      have hauth := congrArg CommentEpisode.authEpisodeId hrest
      dsimp only at hsessions hauth
      constructor
      · rw [← hsessions]
        exact ExtTreeMap.getElem?_erase_self
      · rw [← hauth]
        split <;> rfl
    · rintro ⟨hfresh, hsome⟩
      obtain ⟨id, hid⟩ := Option.isSome_iff_exists.mp hsome
      rw [erase_insert_of_fresh hfresh, hid]
      dsimp only
      rw [← hid]
  | @revoked key token hcmd hholder =>
    rw [hcmd]
    refine iff_of_true ?_ trivial
    dsimp only [rollback]
    rw [insert_erase_of_some (holder_some hholder).2]

end CommentEpisode

variable {g g' : CommentEpisode} {c : Call} {rb : CommentRollback}

theorem episode_execute (h : episode.execute g c = (g', some rb)) :
    ∃ pk, g.Accepts c pk g' rb := by
  have hexec : ((g.call c).1, (g.call c).2.toOption) = (g', some rb) := h
  rcases g.call_cases c with ⟨e, hrejects⟩ | ⟨pk, g'', rb', -, -, haccepts, hcall⟩
  · rw [hrejects] at hexec
    cases hexec
  · rw [hcall] at hexec
    cases hexec
    exact ⟨pk, haccepts⟩

theorem episode_atomic : episode.Atomic := by
  intro g c g' h
  have hexec : ((g.call c).1, (g.call c).2.toOption) = (g', none) := h
  rcases g.call_cases c with ⟨e, hrejects⟩ | ⟨pk, g'', rb', -, -, -, hcall⟩
  · rw [hrejects] at hexec
    cases hexec
    rfl
  · rw [hcall] at hexec
    cases hexec

def submitted (r : Rewind.Record CommentEpisode Call CommentRollback) : Option ℕ :=
  match r.token with
  | .commentSubmitted id => some id
  | _ => none

/-- What can be rolled back are the comments that are there, the last one first. -/
structure Counted (node : Rewind.Node CommentEpisode Call CommentRollback) : Prop where
  numbered : node.state.Numbered
  log : node.log.filterMap submitted = (List.range' 1 node.state.comments.length).reverse

variable {node : Rewind.Node CommentEpisode Call CommentRollback}

theorem start_counted (participants : List PubKey) (md : PayloadMetadata) :
    Counted ⟨.create participants md, []⟩ where
  numbered := ⟨rfl, rfl⟩
  log := rfl

theorem Counted.call (h : Counted node) (c : Call) : Counted (episode.step node (.call c)) := by
  rcases Machine.step_call episode_atomic node c with hsame | ⟨r, hcmd, ⟨-, hexec⟩, hlog⟩
  · rw [hsame]
    exact h
  obtain ⟨pk, haccepts⟩ := episode_execute hexec
  refine ⟨haccepts.numbered h.numbered, ?_⟩
  rw [hlog, List.filterMap_cons]
  have hnext := h.numbered.2
  generalize hr : r.token = token at haccepts
  generalize (episode.step node (.call c)).state = state at haccepts
  unfold submitted
  rw [hr]
  cases haccepts with
  | submitted hcmd hblank hlong hsession =>
    dsimp only
    rw [List.length_append, List.length_singleton, List.range'_concat, List.reverse_append, hnext,
      Nat.one_mul, Nat.add_comm 1]
    exact congrArg _ h.log
  | queried => exact h.log
  | registered => exact h.log
  | revoked => exact h.log

theorem Counted.undo (h : Counted node) : Counted (episode.step node .rollback) := by
  cases hlog : node.log with
  | nil =>
    rw [Machine.step_rollback_nil hlog]
    exact h
  | cons r log =>
    rw [Machine.step_rollback hlog]
    have hcount := h.log
    rw [hlog, List.filterMap_cons] at hcount
    unfold submitted at hcount
    change Counted ⟨(node.state.rollback r.token).1, log⟩
    cases hr : r.token with
    | commentSubmitted id =>
      rw [hr] at hcount
      dsimp only at hcount
      -- the record is that of the last comment
      rcases List.eq_nil_or_concat node.state.comments with hnil | ⟨comments, last, hcomments⟩
      · rw [hnil] at hcount
        cases hcount
      · rw [List.concat_eq_append] at hcomments
        obtain ⟨hroll, hid, hnumbered⟩ := h.numbered.rollback_last hcomments
        rw [hcomments, List.length_append, List.length_singleton, List.range'_concat,
          List.reverse_append] at hcount
        obtain ⟨hhead, htail⟩ := List.cons.inj hcount
        have hlast : id = last.id := by omega
        rw [hlast, hroll]
        exact ⟨hnumbered, htail⟩
    | commentsQueried =>
      rw [hr] at hcount
      exact ⟨h.numbered, hcount⟩
    | sessionRegistered key =>
      rw [hr] at hcount
      exact ⟨h.numbered, hcount⟩
    | sessionRevoked key token =>
      rw [hr] at hcount
      exact ⟨h.numbered, hcount⟩

theorem counted_after (participants : List PubKey) (md : PayloadMetadata)
    (events : List (Rewind.Event Call)) :
    Counted (episode.run (.create participants md) events) := by
  induction events using List.reverseRecOn with
  | nil => exact start_counted participants md
  | append_singleton events e ih =>
    rw [Machine.run_concat]
    cases e with
    | call c => exact ih.call c
    | rollback => exact ih.undo

/-- From every state that commands and rollbacks lead to: the rollbacks of any further run succeed
and restore the whole episode if and only if each registration that is taken back was for a key
without a session, with the episode for authentication known. -/
theorem store_rollbacks_exact_iff (participants : List PubKey) (md : PayloadMetadata)
    (events more : List (Rewind.Event Call)) :
    episode.AllRestored (episode.run (.create participants md) events).state more ↔
      episode.AllUndoable CommentEpisode.Undoable
        (episode.run (.create participants md) events).state more := by
  apply Machine.allRestored_iff_allUndoable (Q := CommentEpisode.Numbered) episode_atomic
  · intro g c g' rb h hexec
    obtain ⟨pk, haccepts⟩ := episode_execute hexec
    exact haccepts.numbered h
  · intro g c g' rb h hexec
    obtain ⟨pk, haccepts⟩ := episode_execute hexec
    exact CommentEpisode.rollback_accepted_iff h haccepts
  · exact (counted_after participants md events).numbered

end Kdapp.CommentStore
