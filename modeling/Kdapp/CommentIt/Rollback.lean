import Kdapp.CommentIt.Steps
import Kdapp.Library.UndoLog
import Kdapp.Library.Outcome

/-! Which commands of a comment room a rollback takes back. -/

namespace Kdapp.CommentIt
open CommentBoard (displayKey)
open Transition
open Std (ExtTreeMap)

structure Book where
  comments : List Comment
  nextCommentId : ℕ

namespace Book

structure Numbered (b : Book) : Prop where
  ids : b.comments.map (·.id) = List.range' 1 b.comments.length
  next : b.nextCommentId = b.comments.length + 1

theorem Numbered.fresh {b : Book} (h : b.Numbered) : ∀ c ∈ b.comments, c.id ≠ b.nextCommentId := by
  intro c hc hid
  have hmem : c.id ∈ b.comments.map (·.id) := List.mem_map_of_mem hc
  rw [h.ids, hid, h.next, List.mem_range'_1] at hmem
  omega

variable [Crypto]

inductive Changes (r : Record) : Book → Book → Prop
  | commented {b text author timestamp} (h : r.rollback = .commentAdded b.nextCommentId) :
    Changes r b ⟨b.comments ++ [⟨b.nextCommentId, text, author, timestamp⟩], b.nextCommentId + 1⟩
  | other {b} (h : ∀ id, r.rollback ≠ .commentAdded id) : Changes r b b

theorem Changes.numbered {r : Record} {b b' : Book} (h : Changes r b b') (hb : b.Numbered) :
    b'.Numbered := by
  cases h with
  | other h => exact hb
  | commented h =>
    constructor
    · rw [List.map_append, List.length_append, hb.ids]
      simp only [List.map_cons, List.map_nil, List.length_cons, List.length_nil, hb.next]
      rw [List.range'_1_concat, Nat.add_comm 1]
    · rw [List.length_append, hb.next]
      rfl

end Book

variable [Crypto]

namespace AuthWithCommentsEpisode

def book (g : AuthWithCommentsEpisode) : Book := ⟨g.comments, g.nextCommentId⟩

theorem rollback_newest {g : AuthWithCommentsEpisode} {comments : List Comment} {c : Comment}
    (hg : g.comments = comments ++ [c]) (hfresh : ∀ c' ∈ comments, c'.id ≠ c.id) :
    g.rollback (.commentAdded c.id) = ({ g with comments, nextCommentId := c.id }, true) := by
  have hfind : g.comments.findIdx? (fun c' => decide (c'.id = c.id)) = some comments.length := by
    have hnone : comments.findIdx? (fun c' => decide (c'.id = c.id)) = none := by
      simpa using hfresh
    rw [hg, List.findIdx?_append, hnone, List.findIdx?_singleton]
    simp
  have herase : g.comments.eraseIdx comments.length = comments := by
    rw [hg, List.eraseIdx_append_of_length_le (Nat.le_refl _), Nat.sub_self]
    exact List.append_nil _
  unfold rollback
  dsimp only
  rw [hfind]
  dsimp only
  rw [herase]

theorem rollback_book {g : AuthWithCommentsEpisode} {rb : UnifiedRollback}
    (h : ∀ id, rb ≠ .commentAdded id) : (g.rollback rb).1.book = g.book := by
  cases rb with
  | commentAdded id => exact absurd rfl (h id)
  | challenge key previous => rfl
  | authentication key was => rfl
  | sessionRevoked key was => rfl

theorem applied_changes [RandChaCha] (g : AuthWithCommentsEpisode) (pk : PubKey) (c : Call) :
    Book.Changes ⟨g, c, g.token pk c.cmd⟩ g.book (g.applied pk c.metadata c.cmd).book := by
  obtain ⟨cmd, auth, md⟩ := c
  cases cmd with
  | submitComment text sessionToken => exact .commented rfl
  | requestChallenge => exact .other nofun
  | submitResponse signature nonce => exact .other nofun
  | revokeSession sessionToken signature => exact .other nofun

theorem rollback_changes {g : AuthWithCommentsEpisode} {r : Record} {b : Book} (hb : b.Numbered)
    (h : Book.Changes r b g.book) : (g.rollback r.rollback).1.book = b := by
  generalize hbook : g.book = b' at h
  cases h with
  | other hother => exact (rollback_book hother).trans hbook
  | @commented text author timestamp htoken =>
    have hcomments : g.comments = b.comments ++ [⟨b.nextCommentId, text, author, timestamp⟩] :=
      congrArg Book.comments hbook
    rw [htoken, rollback_newest hcomments hb.fresh]
    rfl

/-- The commands that the rollback of `execute` takes back exactly: it knows neither the attempts
nor the challenge from before. -/
def Undoable (g : AuthWithCommentsEpisode) (authorization : Option PubKey) :
    UnifiedCommand → Prop
  | .requestChallenge => False
  | .submitResponse _ _ =>
    ∀ pk, authorization = some pk → g.activeChallenges[displayKey pk]? = none
  | .revokeSession _ _ | .submitComment _ _ => True

variable {g : AuthWithCommentsEpisode} {pk : PubKey}

theorem incrementRateLimit_ne : g.incrementRateLimit pk ≠ g.rateLimits := by
  intro hsame
  have hget : g.rateLimits[displayKey pk]? =
      some ((g.rateLimits[displayKey pk]?).getD 0 + 1) := by
    conv_lhs => rw [← hsame]
    exact ExtTreeMap.getElem?_insert_self
  rw [hget] at hget
  simp at hget

theorem rollback_applied_iff [RandChaCha] {auth : Option PubKey} {cmd : UnifiedCommand}
    (md : PayloadMetadata) (hb : g.book.Numbered) (h : g.Admits auth cmd pk) :
    (g.applied pk md cmd).rollback (g.token pk cmd) = (g, true) ↔ g.Undoable auth cmd := by
  have hallowed := h.allowed
  cases cmd with
  | requestChallenge =>
    refine iff_of_false (fun hroll => ?_) id
    exact incrementRateLimit_ne (congrArg (fun p => p.1.rateLimits) hroll)
  | submitResponse signature nonce =>
    have hset : (g.authenticatedParticipants.insert (displayKey pk)).erase (displayKey pk) =
        g.authenticatedParticipants := FiniteSet.erase_insert_of_not_mem hallowed.1
    have hroll : (g.applied pk md (.submitResponse signature nonce)).rollback
        (g.token pk (.submitResponse signature nonce)) =
        ({ g with activeChallenges := g.activeChallenges.erase (displayKey pk) }, true) := by
      dsimp only [applied, token, rollback]
      rw [if_neg Bool.false_ne_true, hset]
    rw [hroll]
    constructor
    · intro hsame pk' hauth
      obtain rfl := Option.some.inj (hauth.symm.trans h.signed)
      have hchallenges : g.activeChallenges.erase (displayKey pk') = g.activeChallenges :=
        congrArg (fun p => p.1.activeChallenges) hsame
      rw [← hchallenges]
      exact ExtTreeMap.getElem?_erase_self
    · intro hundoable
      have hchallenges : g.activeChallenges.erase (displayKey pk) = g.activeChallenges :=
        FiniteMap.erase_of_none (hundoable pk h.signed)
      rw [hchallenges]
  | revokeSession sessionToken signature =>
    have hset : (g.authenticatedParticipants.erase (displayKey pk)).insert (displayKey pk) =
        g.authenticatedParticipants := FiniteSet.insert_erase_of_mem hallowed.1
    refine iff_of_true ?_ trivial
    dsimp only [applied, token, rollback]
    rw [if_pos rfl, hset]
  | submitComment text sessionToken =>
    have hfresh : ∀ c ∈ g.comments, c.id ≠ g.nextCommentId := hb.fresh
    refine iff_of_true ?_ trivial
    exact rollback_newest (c := ⟨g.nextCommentId, text, displayKey pk, md.acceptingTime⟩) rfl hfresh

end AuthWithCommentsEpisode

section Chains
open Book (Changes)

variable {Applies : Record → Book → Book → Prop}
  (hfine : ∀ r b b', Applies r b b' → Changes r b b')
include hfine

theorem numbered_of_chain {log : List Record} {b : Book}
    (h : UndoLog.Chain Applies ⟨[], 1⟩ log b) : b.Numbered :=
  h.invariant ⟨rfl, rfl⟩ fun r b b' happlies hb => (hfine r b b' happlies).numbered hb

theorem chain_step [RandChaCha] {node : Node}
    (hcall : ∀ c pk, node.room.Admits c.authorization c.cmd pk →
      Applies ⟨node.room, c, node.room.token pk c.cmd⟩ node.room.book
        (node.room.applied pk c.metadata c.cmd).book)
    (h : UndoLog.Chain Applies ⟨[], 1⟩ node.log node.room.book) (e : Event) :
    UndoLog.Chain Applies ⟨[], 1⟩ (node.step e).log (node.step e).room.book := by
  cases e with
  | call c =>
    dsimp only [Node.step]
    rcases node.call_cases c with ⟨-, hsame⟩ | ⟨pk, hadmits, haccepts⟩
    · rw [hsame]
      exact h
    · rw [haccepts]
      exact h.cons (hcall c pk hadmits)
  | rollback =>
    dsimp only [Node.step]
    unfold Node.undo
    split
    · rename_i record log hlog
      rw [hlog] at h
      obtain ⟨b, hrest, happlies⟩ := h.uncons
      have hb : b.Numbered := numbered_of_chain hfine hrest
      dsimp only
      rw [AuthWithCommentsEpisode.rollback_changes hb (hfine _ _ _ happlies)]
      exact hrest
    · exact h

end Chains

def Node.Logged (node : Node) : Prop :=
  UndoLog.Chain Book.Changes ⟨[], 1⟩ node.log node.room.book

namespace Node.Logged

theorem start (participants : List PubKey) (md : PayloadMetadata) :
    Logged (.start participants md) := .nil

variable {node : Node} (h : Logged node)
include h

theorem numbered : node.room.book.Numbered := numbered_of_chain (fun _ _ _ hc => hc) h

theorem step [RandChaCha] (e : Event) : Logged (node.step e) :=
  chain_step (fun _ _ _ hc => hc) (fun c pk _ => node.room.applied_changes pk c) h e

end Node.Logged

variable [RandChaCha]

theorem logged_after (participants : List PubKey) (md : PayloadMetadata) (events : List Event) :
    Node.Logged (after Node.step (.start participants md) events) := by
  induction events using List.reverseRecOn with
  | nil => exact .start participants md
  | append_singleton events e ih =>
    rw [after_concat]
    exact ih.step e

/-- In every state that commands and rollbacks lead to, the rollback of an accepted command
restores the room if and only if the command is undoable. -/
theorem undone_iff_undoable (participants : List PubKey) (md : PayloadMetadata)
    (events : List Event) (c : Call) {room : AuthWithCommentsEpisode} {rb : UnifiedRollback}
    (h : (after Node.step (.start participants md) events).room.execute c.metadata c.cmd
      c.authorization = (room, .ok rb)) :
    room.rollback rb = ((after Node.step (.start participants md) events).room, true) ↔
      (after Node.step (.start participants md) events).room.Undoable c.authorization c.cmd := by
  have hnumbered := (logged_after participants md events).numbered
  rcases AuthWithCommentsEpisode.execute_cases _ c.metadata c.cmd c.authorization with
    ⟨-, e, hrejects⟩ | ⟨pk, hadmits, haccepts⟩
  · cases h.symm.trans hrejects
  · cases h.symm.trans haccepts
    exact AuthWithCommentsEpisode.rollback_applied_iff c.metadata hnumbered hadmits

end Kdapp.CommentIt

namespace Kdapp.CommentIt
open Transition
open CommentBoard (displayKey)
open SignatureVerifier (signText)
attribute [local instance] idealCrypto seedRand

def alone : Node := .start [(1 : UInt8)] (metadataAt 1)

def request : Event := .call ⟨.requestChallenge, some (1 : UInt8), metadataAt 10⟩

def response : Call :=
  ⟨.submitResponse (signText (1 : UInt8) "auth_10_10") "auth_10_10", some (1 : UInt8),
    metadataAt 11⟩

def signedIn : AuthWithCommentsEpisode :=
  (after Node.step alone [request]).room.applied (1 : UInt8) response.metadata response.cmd

theorem response_accepted : (after Node.step alone [request]).room.execute response.metadata
    response.cmd response.authorization =
      (signedIn, .ok (.authentication (displayKey (1 : UInt8)) false)) := by
  have hadmits : (after Node.step alone [request]).room.Admits response.authorization response.cmd
      (1 : UInt8) :=
    ⟨rfl, List.mem_cons_self, by decide +kernel, by decide +kernel, by decide +kernel⟩
  rcases AuthWithCommentsEpisode.execute_cases (after Node.step alone [request]).room
    response.metadata response.cmd response.authorization with ⟨hnot, -⟩ | ⟨pk, h, haccepts⟩
  · exact absurd hadmits (hnot _)
  · obtain rfl := hadmits.unique h
    exact haccepts

theorem signedIn_not_undone : signedIn.rollback (.authentication (displayKey (1 : UInt8)) false) ≠
    ((after Node.step alone [request]).room, true) := by
  intro hroll
  have hchallenge := congrArg (fun p => p.1.activeChallenges[displayKey (1 : UInt8)]?) hroll
  have hbefore : (after Node.step alone [request]).room.activeChallenges[displayKey (1 : UInt8)]? =
      some "auth_10_10" := by decide +kernel
  have hafter : (signedIn.rollback
      (.authentication (displayKey (1 : UInt8)) false)).1.activeChallenges[
        displayKey (1 : UInt8)]? = none := by decide +kernel
  cases hafter.symm.trans (hchallenge.trans hbefore)

theorem undone_iff_undoable_at :
    (signedIn.rollback (.authentication (displayKey (1 : UInt8)) false) ≠
      ((after Node.step alone [request]).room, true)) ∧
    ¬ (after Node.step alone [request]).room.Undoable response.authorization response.cmd :=
  ⟨signedIn_not_undone, fun h => signedIn_not_undone
    ((undone_iff_undoable [(1 : UInt8)] (metadataAt 1) [request] response
      response_accepted).mpr h)⟩

theorem consumed_challenge :
    ¬ ∀ (participants : List PubKey) (md : PayloadMetadata) (events : List Event) (c : Call)
      (room : AuthWithCommentsEpisode) (rb : UnifiedRollback),
      (after Node.step (.start participants md) events).room.execute c.metadata c.cmd
        c.authorization = (room, .ok rb) →
      room.rollback rb = ((after Node.step (.start participants md) events).room, true) :=
  fun h => signedIn_not_undone
    (h [(1 : UInt8)] (metadataAt 1) [request] response _ _ response_accepted)

end Kdapp.CommentIt
