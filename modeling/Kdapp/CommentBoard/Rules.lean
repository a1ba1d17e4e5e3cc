import Kdapp.CommentBoard.Rollback
import Mathlib.Data.List.Forall2

/-! Whether the comments of a room keep its rules. -/

namespace Kdapp.CommentBoard
open InOrder Transition
open Std (ExtTreeMap)

theorem forall₂_concat_iff {α β : Type} {R : α → β → Prop} {l : List α} {l' : List β} {a : α}
    {b : β} : List.Forall₂ R (l ++ [a]) (l' ++ [b]) ↔ List.Forall₂ R l l' ∧ R a b := by
  rw [← List.forall₂_reverse_iff, List.reverse_concat, List.reverse_concat, List.forall₂_cons,
    List.forall₂_reverse_iff]
  exact And.comm

variable [Crypto]

/-- A node, with the records of the commands whose comments it stores. -/
structure Archive where
  node : Node
  origins : List Record

def Archive.step (self : Archive) (e : Event) : Archive where
  node := self.node.step e
  origins :=
    match e with
    | .command cmd authorization metadata =>
      match (self.node.board.execute metadata authorization cmd).2 with
      | .ok rb =>
        if rb.commentId.isSome then
          self.origins ++ [⟨self.node.board, cmd, authorization, metadata, rb⟩]
        else self.origins
      | .error _ => self.origins
    | .rollback =>
      match self.node.log with
      | r :: _ =>
        self.origins.filter fun o => decide (o.rollback.commentId ≠ r.rollback.commentId)
      | [] => self.origins

section Ruled
variable (toLowercase : String → String) (length : String → ℕ) (rules : RoomRules)

/-- A stored comment, and the command that it came with: the rules that they keep. -/
structure Posted (c : EconomicComment) (o : Record) : Prop where
  id : o.rollback.commentId = some c.id
  command : ∃ bondOutputIndex bondScript,
    o.cmd = .submitComment c.text c.bondAmount bondOutputIndex bondScript
  author : ∃ pk, o.authorization = some pk ∧ c.author = displayKey pk
  room : o.before.contract.roomRules = rules
  member : c.author ∈ o.before.contract.roomMembers
  authenticated : c.author ∈ o.before.contract.authenticatedUsers
  text : blank c.text = false
  size : length c.text ≤ rules.maxCommentLength.toNat
  words : o.before.contract.containsForbiddenWords toLowercase c.text = none
  bond : c.bondAmount ≠ 0 →
    rules.bondsEnabled = true ∧ rules.minBond ≤ c.bondAmount ∧ c.bondAmount ≤ rules.maxBond

def Enforced (self : Archive) : Prop :=
  List.Forall₂ (Posted toLowercase length rules) self.node.board.contract.comments self.origins

/-- An admitted comment keeps the rules that `execute` does not look at. -/
def Compliant (node : Node) : Event → Prop
  | .command (.submitComment text bondAmount bondOutputIndex bondScript) (some pk) metadata =>
    node.board.Admits metadata (some pk)
        (.submitComment text bondAmount bondOutputIndex bondScript) →
      displayKey pk ∈ node.board.contract.roomMembers ∧
      displayKey pk ∈ node.board.contract.authenticatedUsers ∧
      length text ≤ rules.maxCommentLength.toNat ∧
      node.board.contract.containsForbiddenWords toLowercase text = none ∧
      (bondAmount ≠ 0 → bondAmount ≤ rules.maxBond)
  | _ => True

structure Ruled (archive : Archive) : Prop where
  recorded : archive.node.Recorded
  room : archive.node.board.contract.roomRules = rules

end Ruled

section Steps
variable {toLowercase : String → String} {length : String → ℕ} {rules : RoomRules}

theorem Ruled.step {self : Archive} (h : Ruled rules self) (e : Event) :
    Ruled rules (self.step e) := by
  have hsteps := self.node.steps e
  refine ⟨hsteps.recorded h.recorded, ?_⟩
  have hrules := h.room
  dsimp only [Archive.step]
  generalize self.node.step e = node' at hsteps
  cases hsteps with
  | rejected | exhausted => exact hrules
  | accepted hadmits hacc => cases hacc <;> exact hrules
  | rolledBack hlog =>
    rw [(self.node.board.rollback_untouched _).roomRules]
    exact hrules

omit [Crypto] in
theorem bond_of_checkComment {g : ContractCommentBoard} {metadata : PayloadMetadata}
    {text : String} {bond : UInt64} {idx : Option UInt32} {script : Option BondScriptKind}
    (h : g.checkComment metadata text bond idx script = none) :
    blank text = false ∧ (bond ≠ 0 → g.contract.roomRules.bondsEnabled = true ∧
      g.contract.roomRules.minBond ≤ bond) := by
  unfold ContractCommentBoard.checkComment at h
  split at h
  · cases h
  rename_i hblank
  refine ⟨Bool.eq_false_iff.mpr hblank, fun hbond => ?_⟩
  rw [if_neg hbond] at h
  split at h
  · cases h
  rename_i henabled
  split at h
  · cases h
  rename_i hmin
  exact ⟨Bool.eq_true_of_not_eq_false henabled, UInt64.not_lt.mp hmin⟩

theorem posted_iff {node : Node} (hrules : node.board.contract.roomRules = rules)
    {metadata : PayloadMetadata} {pk : PubKey} {text : String} {bond : UInt64}
    {idx : Option UInt32} {script : Option BondScriptKind} {rb : ContractRollback}
    (hadmits : node.board.Admits metadata (some pk) (.submitComment text bond idx script))
    (hid : rb.commentId = some node.board.nextCommentId) :
    Posted toLowercase length rules
        ⟨node.board.nextCommentId, text, displayKey pk, metadata.acceptingTime, bond⟩
        ⟨node.board, .submitComment text bond idx script, some pk, metadata, rb⟩ ↔
      Compliant toLowercase length rules node
        (.command (.submitComment text bond idx script) (some pk) metadata) := by
  obtain ⟨hblank, hbond⟩ := bond_of_checkComment hadmits.2.2
  rw [hrules] at hbond
  constructor
  · intro h _
    exact ⟨h.member, h.authenticated, h.size, h.words, fun hne => (h.bond hne).2.2⟩
  · intro h
    obtain ⟨hmember, hauthenticated, hlength, hwords, hmax⟩ := h hadmits
    exact {
      id := hid
      command := ⟨idx, script, rfl⟩
      author := ⟨pk, rfl, rfl⟩
      room := hrules
      member := hmember
      authenticated := hauthenticated
      text := hblank
      size := hlength
      words := hwords
      bond := fun hne => ⟨(hbond hne).1, (hbond hne).2, hmax hne⟩ }

theorem Enforced.filter {comments : List EconomicComment} {origins : List Record}
    (h : List.Forall₂ (Posted toLowercase length rules) comments origins) (id : UInt64) :
    List.Forall₂ (Posted toLowercase length rules)
      (comments.filter fun c => decide (c.id ≠ id))
      (origins.filter fun o => decide (o.rollback.commentId ≠ some id)) := by
  apply List.rel_filter _ h
  intro c o hposted
  dsimp only
  rw [hposted.id, decide_eq_true_iff, decide_eq_true_iff]
  exact not_congr (Option.some_inj).symm

theorem filter_none {comments : List EconomicComment} {origins : List Record}
    (h : List.Forall₂ (Posted toLowercase length rules) comments origins) :
    origins.filter (fun o => decide (o.rollback.commentId ≠ none)) = origins := by
  induction h with
  | nil => rfl
  | cons hposted _ ih =>
    rw [List.filter_cons_of_pos, ih]
    apply decide_eq_true
    rw [hposted.id]
    exact Option.some_ne_none _

theorem Enforced.rolledBack {self : Archive} (h : Enforced toLowercase length rules self)
    (hruled : Ruled rules self) : Enforced toLowercase length rules (self.step .rollback) := by
  unfold Enforced Archive.step Node.step
  cases hlog : self.node.log with
  | nil => exact h
  | cons r log =>
    obtain ⟨pk, g', hacc⟩ := hruled.recorded.top hlog
    dsimp only
    rw [hacc.rollback_eq]
    obtain ⟨before, cmd, authorization, metadata, rb⟩ := r
    dsimp only at hacc ⊢
    cases hacc with
    | joinRoom | requestChallenge | submitResponse =>
      dsimp only
      rw [filter_none h]
      exact h
    | submitComment => exact Enforced.filter h before.nextCommentId

theorem enforced_step_iff {self : Archive} (h : Enforced toLowercase length rules self)
    (hruled : Ruled rules self) (e : Event) :
    Enforced toLowercase length rules (self.step e) ↔
      Compliant toLowercase length rules self.node e := by
  cases e with
  | rollback => exact iff_of_true (h.rolledBack hruled) trivial
  | command cmd authorization metadata =>
    dsimp only [Enforced, Archive.step, Node.step]
    rcases self.node.board.execute_cases metadata authorization cmd with
      ⟨hnot, e, he⟩ | ⟨hadmits, pk, rb, g', rfl, hok, hacc⟩
    · rw [he]
      refine iff_of_true h ?_
      cases cmd with
      | joinRoom | requestChallenge | submitResponse => exact trivial
      | submitComment =>
        cases authorization with
        | none => exact trivial
        | some pk => exact fun hadmits => absurd hadmits hnot
    · rw [hok]
      cases hacc with
      | joinRoom | requestChallenge | submitResponse => exact iff_of_true h trivial
      | submitComment hcheck =>
        dsimp only
        rw [if_pos (by rfl), forall₂_concat_iff, posted_iff hruled.room hadmits rfl]
        exact and_iff_right h

end Steps

/-- The comments of a room keep its rules all along if and only if each comment that is admitted
does, and its author. -/
theorem enforced_iff_compliant (toLowercase : String → String) (length : String → ℕ)
    (rules : RoomRules) (metadata : PayloadMetadata) (events : List Event) :
    Always Archive.step ⟨Node.start rules metadata, []⟩ (Enforced toLowercase length rules)
        events ↔
      Throughout (fun earlier e => Compliant toLowercase length rules
        (after Archive.step ⟨Node.start rules metadata, []⟩ earlier).node e) events := by
  apply always_iff_throughout (Q := Ruled rules)
    (C := fun archive e => Compliant toLowercase length rules archive.node e)
  · exact List.Forall₂.nil
  · exact ⟨fun r hr => absurd hr List.not_mem_nil, rfl⟩
  · exact fun self e _ hruled _ => hruled.step e
  · exact fun self e h hruled => enforced_step_iff h hruled e

end Kdapp.CommentBoard

namespace Kdapp.CommentBoard
open Transition
attribute [local instance] idealCrypto

def stranger : Event := .command (.submitComment "hi" 0 none none) (some (1 : UInt8)) (txAt 101 1)

theorem not_enforced :
    ¬ Always Archive.step ⟨Node.start .default (txAt 100 0), []⟩
      (Enforced String.toLower String.utf8ByteSize .default) [stranger] := by
  intro h
  have hposted := h 1
  rcases hposted with _ | ⟨hposted, -⟩
  exact absurd hposted.member List.not_mem_nil

end Kdapp.CommentBoard
