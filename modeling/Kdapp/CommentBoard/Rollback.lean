import Kdapp.CommentBoard.Steps
import Kdapp.Library.UndoLog

/-! Which commands of the comment board a rollback takes back. -/

namespace Kdapp.CommentBoard
open Borsh InOrder Transition
open Std (ExtTreeMap)

namespace ContractCommentBoard

section Frame
variable (g : ContractCommentBoard) (rb : ContractRollback)

structure Untouched (g g' : ContractCommentBoard) : Prop where
  roomRules : g'.contract.roomRules = g.contract.roomRules
  roomMembers : g'.contract.roomMembers = g.contract.roomMembers
  authenticatedUsers : g'.contract.authenticatedUsers = g.contract.authenticatedUsers
  currentChallenge : g'.contract.currentChallenge = g.contract.currentChallenge
  nextCommentId : g'.nextCommentId = g.nextCommentId
  contractExpiresAt : g'.contractExpiresAt = g.contractExpiresAt

theorem unlockValue_untouched (bond : Option UInt64) : Untouched g (g.unlockValue bond) := by
  cases bond with
  | none => exact ⟨rfl, rfl, rfl, rfl, rfl, rfl⟩
  | some bond => exact ⟨rfl, rfl, rfl, rfl, rfl, rfl⟩

theorem rollback_untouched : Untouched g (g.rollback rb).1 := by
  unfold rollback
  dsimp only
  split
  · split
    · rename_i commentId _
      have h := unlockValue_untouched
        ({ g with lockedUtxos := rb.utxoChanges.foldl reverseUtxo g.lockedUtxos }.removeComment
          commentId) rb.bondAmount
      exact ⟨h.1, h.2, h.3, h.4, h.5, h.6⟩
    · exact ⟨rfl, rfl, rfl, rfl, rfl, rfl⟩
  · split
    · have h := unlockValue_untouched
        { g with lockedUtxos := rb.utxoChanges.foldl reverseUtxo g.lockedUtxos } rb.bondAmount
      exact ⟨h.1, h.2, h.3, h.4, h.5, h.6⟩
    · exact ⟨rfl, rfl, rfl, rfl, rfl, rfl⟩

end Frame

/-- The one command that can be undone: asking for the challenge that is set already. -/
def Restorable (g : ContractCommentBoard) (metadata : PayloadMetadata) : ContractCommand → Prop
  | .requestChallenge => g.contract.currentChallenge = some (challengeFor metadata)
  | _ => False

variable [Crypto] {g g' : ContractCommentBoard} {metadata : PayloadMetadata} {pk : PubKey}
  {cmd : ContractCommand} {rb : ContractRollback}

theorem Accepts.rollback_eq (h : g.Accepts metadata pk cmd rb g') (board : ContractCommentBoard) :
    (board.rollback rb).1 = match cmd with
      | .joinRoom bondAmount =>
        ({ board with
          lockedUtxos := reverseUtxo board.lockedUtxos
            (joinBondId (displayKey pk), bondAmount) }).unlockValue (some bondAmount)
      | .submitComment _ bondAmount _ _ =>
        (({ board with
          lockedUtxos := reverseUtxo board.lockedUtxos
            (commentBondId g.nextCommentId metadata.txId, bondAmount) }).removeComment
              g.nextCommentId).unlockValue (some bondAmount)
      | _ => board := by
  cases h <;> rfl

theorem Accepts.rollback_iff (h : g.Accepts metadata pk cmd rb g') :
    g'.rollback rb = (g, true) ↔ g.Restorable metadata cmd := by
  have huntouched := rollback_untouched g' rb
  cases h with
  | joinRoom =>
    refine iff_of_false (fun hroll => ?_) id
    rw [hroll] at huntouched
    have hmember := List.self_eq_append_right.mp huntouched.roomMembers
    exact absurd hmember (List.cons_ne_nil _ _)
  | submitResponse =>
    refine iff_of_false (fun hroll => ?_) id
    rw [hroll] at huntouched
    have huser := List.self_eq_append_right.mp huntouched.authenticatedUsers
    exact absurd huser (List.cons_ne_nil _ _)
  | submitComment =>
    -- the next id stays one ahead
    refine iff_of_false (fun hroll => ?_) id
    rw [hroll] at huntouched
    have hid : g.nextCommentId = g.nextCommentId + 1 := huntouched.nextCommentId
    simp at hid
  | requestChallenge =>
    constructor
    · intro hroll
      rw [hroll] at huntouched
      exact huntouched.currentChallenge
    · intro hchallenge
      have hsame : { g with contract.currentChallenge := some (challengeFor metadata) } = g := by
        rw [← show g.contract.currentChallenge = _ from hchallenge]
      rw [hsame]
      rfl

end ContractCommentBoard

/-- The commands of a log, one after another, as a node takes them that sees no other. -/
abbrev Replays [Crypto] : ContractCommentBoard → List Record → ContractCommentBoard → Prop :=
  UndoLog.Chain fun r g g' =>
    g.execute r.metadata r.authorization r.cmd = (g', .ok r.rollback)

def OnlyRestorable [Crypto] (node : Node) : Event → Prop
  | .command cmd authorization metadata =>
    node.board.Admits metadata authorization cmd → node.board.Restorable metadata cmd
  | .rollback => True

variable [Crypto]

theorem replays_of_restorable {node₀ : Node} (hlog : node₀.log = []) {events : List Event}
    (h : Throughout (fun earlier e => OnlyRestorable (after Node.step node₀ earlier) e) events) :
    Replays node₀.board (after Node.step node₀ events).log
      (after Node.step node₀ events).board := by
  have hchain : UndoLog.Chain (fun r g g' => g.Restorable r.metadata r.cmd ∧
        g.execute r.metadata r.authorization r.cmd = (g', .ok r.rollback)) node₀.board
      (after Node.step node₀ events).log (after Node.step node₀ events).board := by
    refine after_of_throughout (Q := fun node => UndoLog.Chain _ node₀.board node.log node.board)
      ?_ ?_ h
    · rw [hlog]
      exact .nil
    · intro node e hnode hallowed
      have hsteps := node.steps e
      generalize node.step e = node' at hsteps
      cases hsteps with
      | rejected | exhausted => exact hnode
      | @accepted cmd pk metadata rb board hadmits hacc =>
        refine hnode.cons ⟨hallowed hadmits, ?_⟩
        rcases node.board.execute_cases metadata (some pk) cmd with
          ⟨hnot, -⟩ | ⟨-, pk', rb', g', hauth, hok, hacc'⟩
        · exact absurd hadmits hnot
        · cases hauth
          cases hacc <;> cases hacc' <;> exact hok
      | @rolledBack r log hr =>
        rw [hr] at hnode
        obtain ⟨b, hrest, hrestorable, hexec⟩ := hnode.uncons
        obtain ⟨pk, -, hacc⟩ := ContractCommentBoard.execute_ok hexec
        rw [hacc.rollback_iff.mpr hrestorable]
        exact hrest
  exact hchain.mono fun r b b' hr => hr.2

theorem undo_exact_iff :
    (∀ (g g' : ContractCommentBoard) cmd auth metadata rb,
      g.execute metadata auth cmd = (g', .ok rb) →
        (g'.rollback rb = (g, true) ↔ g.Restorable metadata cmd)) ∧
    ∀ (g₀ : ContractCommentBoard) (events : List Event),
      Throughout (fun earlier e => OnlyRestorable (after Node.step ⟨g₀, []⟩ earlier) e) events →
        Replays g₀ (after Node.step ⟨g₀, []⟩ events).log
          (after Node.step ⟨g₀, []⟩ events).board := by
  refine ⟨fun g g' cmd auth metadata rb hexec => ?_,
    fun g₀ events h => replays_of_restorable rfl h⟩
  obtain ⟨pk, -, hacc⟩ := ContractCommentBoard.execute_ok hexec
  exact hacc.rollback_iff

end Kdapp.CommentBoard

namespace Kdapp.CommentBoard
open Transition
attribute [local instance] idealCrypto

def txAt (time : UInt64) (tx : UInt8) : PayloadMetadata where
  acceptingHash := Hash.filled 0
  acceptingDaa := time
  acceptingTime := time
  txId := Hash.filled tx
  txOutputs := none

def opened : ContractCommentBoard := ContractCommentBoard.initializeWith [(1 : UInt8)] (txAt 100 0)

def challenged : ContractCommentBoard :=
  (opened.execute (txAt 101 1) (some (1 : UInt8)) .requestChallenge).1

def challengedAgain : List Event :=
  [.command .requestChallenge (some (1 : UInt8)) (txAt 102 1), .rollback,
    .command .requestChallenge (some (1 : UInt8)) (txAt 103 1)]

theorem undo_exact_iff_challenge :
    ∃ rb r, challenged.execute (txAt 102 1) (some (1 : UInt8)) .requestChallenge =
        (challenged, .ok rb) ∧ challenged.rollback rb = (challenged, true) ∧
      (after Node.step ⟨challenged, []⟩ challengedAgain).log = [r] ∧
      Replays challenged [r] (after Node.step ⟨challenged, []⟩ challengedAgain).board := by
  obtain ⟨rb, hexec⟩ : ∃ rb, challenged.execute (txAt 102 1) (some (1 : UInt8)) .requestChallenge =
      (challenged, .ok rb) := ⟨_, rfl⟩
  obtain ⟨r, hlog⟩ : ∃ r, (after Node.step ⟨challenged, []⟩ challengedAgain).log = [r] := ⟨_, rfl⟩
  have hreplays := undo_exact_iff.2 challenged challengedAgain fun i e he => by
    match i with
    | 0 | 2 =>
      cases he
      exact fun _ => show _ = _ from rfl
    | 1 =>
      cases he
      exact trivial
    | i + 3 => cases he
  rw [hlog] at hreplays
  refine ⟨rb, r, hexec, ?_, hlog, hreplays⟩
  exact (undo_exact_iff.1 _ _ _ _ _ _ hexec).mpr (show _ = _ from rfl)

/-- A member joins and the join is rolled back; the member stays. -/
theorem undo_keeps_member :
    ∃ g rb, opened.execute (txAt 101 1) (some (1 : UInt8)) (.joinRoom 5) = (g, .ok rb) ∧
      g.rollback rb ≠ (opened, true) ∧ opened.contract.roomMembers = [] ∧
      (g.rollback rb).1.contract.roomMembers = [displayKey (1 : UInt8)] := by
  refine ⟨_, _, rfl, fun hback => ?_, rfl, rfl⟩
  have hmembers := congrArg
    (fun p : ContractCommentBoard × Bool => p.1.contract.roomMembers) hback
  cases hmembers

end Kdapp.CommentBoard
