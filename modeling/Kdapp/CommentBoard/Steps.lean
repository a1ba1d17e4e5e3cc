import Kdapp.CommentBoard
import Kdapp.Library.Transition

/-! What a command of the comment board can do, and runs of commands and rollbacks. -/

namespace Kdapp.CommentBoard
open Borsh
open Std (ExtTreeMap)

variable [Crypto]

def ContractCommand.bond : ContractCommand → UInt64
  | .joinRoom bondAmount => bondAmount
  | .submitComment _ bondAmount _ _ => bondAmount
  | _ => 0

namespace ContractCommentBoard

def Admits (g : ContractCommentBoard) (metadata : PayloadMetadata)
    (authorization : Option PubKey) (cmd : ContractCommand) : Prop :=
  authorization ≠ none ∧ metadata.acceptingTime ≤ g.contractExpiresAt ∧
    match cmd with
    | .joinRoom _ | .requestChallenge => True
    | .submitResponse signature nonce =>
      g.contract.currentChallenge = some nonce ∧ signature ≠ ""
    | .submitComment text bondAmount bondOutputIndex bondScript =>
      g.checkComment metadata text bondAmount bondOutputIndex bondScript = none

instance (g : ContractCommentBoard) (metadata : PayloadMetadata) (authorization : Option PubKey)
    (cmd : ContractCommand) : Decidable (g.Admits metadata authorization cmd) := by
  cases cmd <;> unfold Admits <;> infer_instance

inductive Accepts (g : ContractCommentBoard) (metadata : PayloadMetadata) (pk : PubKey) :
    ContractCommand → ContractRollback → ContractCommentBoard → Prop
  | joinRoom {bondAmount} :
    Accepts g metadata pk (.joinRoom bondAmount)
      ⟨"join_room", none, some bondAmount, metadata.acceptingTime,
        [(joinBondId (displayKey pk), bondAmount)]⟩
      { g with
        contract.roomMembers := g.contract.roomMembers ++ [displayKey pk]
        contract.totalLockedValue := g.contract.totalLockedValue + bondAmount }
  | requestChallenge :
    Accepts g metadata pk .requestChallenge
      ⟨"request_challenge", none, none, metadata.acceptingTime, []⟩
      { g with contract.currentChallenge := some (challengeFor metadata) }
  | submitResponse {signature nonce} (hnonce : g.contract.currentChallenge = some nonce)
    (hsignature : signature ≠ "") :
    Accepts g metadata pk (.submitResponse signature nonce)
      ⟨"authenticate", none, none, metadata.acceptingTime, []⟩
      { g with
        contract.authenticatedUsers := g.contract.authenticatedUsers ++ [displayKey pk]
        contract.currentChallenge := none }
  | submitComment {text bondAmount idx script}
    (hcheck : g.checkComment metadata text bondAmount idx script = none) :
    Accepts g metadata pk (.submitComment text bondAmount idx script)
      ⟨"submit_comment", some g.nextCommentId, some bondAmount, metadata.acceptingTime,
        [(commentBondId g.nextCommentId metadata.txId, bondAmount)]⟩
      { g with
        lockedUtxos := g.lockedUtxos.insert (commentBondId g.nextCommentId metadata.txId) bondAmount
        contract.comments := g.contract.comments ++
          [⟨g.nextCommentId, text, displayKey pk, metadata.acceptingTime, bondAmount⟩]
        contract.totalComments := g.contract.totalComments + 1
        contract.totalLockedValue := g.contract.totalLockedValue + bondAmount
        nextCommentId := g.nextCommentId + 1 }

variable {g g' : ContractCommentBoard} {metadata : PayloadMetadata} {auth : Option PubKey}
  {cmd : ContractCommand} {rb : ContractRollback}

theorem execute_cases (g : ContractCommentBoard) (metadata : PayloadMetadata)
    (auth : Option PubKey) (cmd : ContractCommand) :
    (¬ g.Admits metadata auth cmd ∧ ∃ e, g.execute metadata auth cmd = (g, .error e)) ∨
      g.Admits metadata auth cmd ∧ ∃ pk rb g', auth = some pk ∧
        g.execute metadata auth cmd = (g', .ok rb) ∧ g.Accepts metadata pk cmd rb g' := by
  cases auth with
  | none => exact .inl ⟨fun h => h.1 rfl, _, rfl⟩
  | some pk =>
    unfold execute
    dsimp only
    split
    · rename_i hexpired
      refine .inl ⟨fun h => ?_, _, rfl⟩
      exact absurd h.2.1 (UInt64.not_le.mpr hexpired)
    rename_i hexpired
    -- the time is the one check that all commands share
    have htime : metadata.acceptingTime ≤ g.contractExpiresAt := UInt64.not_lt.mp hexpired
    have hadmits : g.Admits metadata (some pk) cmd ↔
        match cmd with
        | .joinRoom _ | .requestChallenge => True
        | .submitResponse signature nonce =>
          g.contract.currentChallenge = some nonce ∧ signature ≠ ""
        | .submitComment text bondAmount bondOutputIndex bondScript =>
          g.checkComment metadata text bondAmount bondOutputIndex bondScript = none :=
      ⟨fun h => h.2.2, fun h => ⟨Option.some_ne_none pk, htime, h⟩⟩
    rw [hadmits]
    cases cmd with
    | joinRoom bondAmount => exact .inr ⟨trivial, pk, _, _, rfl, rfl, .joinRoom⟩
    | requestChallenge => exact .inr ⟨trivial, pk, _, _, rfl, rfl, .requestChallenge⟩
    | submitResponse signature nonce =>
      dsimp only [executeSubmitResponse]
      cases hchallenge : g.contract.currentChallenge with
      | none => exact .inl ⟨fun h => absurd h.1.symm (Option.some_ne_none nonce), _, rfl⟩
      | some challenge =>
        dsimp only
        split
        · rename_i h
          obtain ⟨rfl, hsignature⟩ := h
          exact .inr ⟨⟨rfl, hsignature⟩, pk, _, _, rfl, rfl,
            .submitResponse hchallenge hsignature⟩
        · rename_i h
          refine .inl ⟨fun hboth => h ⟨?_, hboth.2⟩, _, rfl⟩
          exact (Option.some.inj hboth.1).symm
    | submitComment text bondAmount idx script =>
      dsimp only [executeSubmitComment]
      cases hcheck : g.checkComment metadata text bondAmount idx script with
      | some e => exact .inl ⟨fun h => absurd h (Option.some_ne_none e), _, rfl⟩
      | none => exact .inr ⟨rfl, pk, _, _, rfl, rfl, .submitComment hcheck⟩

theorem execute_ok (h : g.execute metadata auth cmd = (g', .ok rb)) :
    ∃ pk, auth = some pk ∧ g.Accepts metadata pk cmd rb g' := by
  rcases g.execute_cases metadata auth cmd with ⟨-, e, he⟩ | ⟨-, pk, rb', g'', hauth, hok, hacc⟩
  · cases h.symm.trans he
  · cases h.symm.trans hok
    exact ⟨pk, hauth, hacc⟩

end ContractCommentBoard

/-- An accepted command, the board it met and what `execute` returned for its rollback. -/
structure Record where
  before : ContractCommentBoard
  cmd : ContractCommand
  authorization : Option PubKey
  metadata : PayloadMetadata
  rollback : ContractRollback

structure Node where
  board : ContractCommentBoard
  log : List Record

inductive Event where
  | command (cmd : ContractCommand) (authorization : Option PubKey) (metadata : PayloadMetadata)
  | rollback

namespace Node

def step (node : Node) : Event → Node
  | .command cmd authorization metadata =>
    match node.board.execute metadata authorization cmd with
    | (board, .ok rb) => ⟨board, ⟨node.board, cmd, authorization, metadata, rb⟩ :: node.log⟩
    | (board, .error _) => { node with board }
  | .rollback =>
    match node.log with
    | r :: log => ⟨(node.board.rollback r.rollback).1, log⟩
    | [] => node

def start (rules : RoomRules) (metadata : PayloadMetadata) : Node := ⟨.new rules metadata, []⟩

inductive Steps (node : Node) : Event → Node → Prop
  | rejected {cmd auth metadata} (h : ¬ node.board.Admits metadata auth cmd) :
    Steps node (.command cmd auth metadata) node
  | accepted {cmd pk metadata rb board} (hadmits : node.board.Admits metadata (some pk) cmd)
    (h : node.board.Accepts metadata pk cmd rb board) :
    Steps node (.command cmd (some pk) metadata)
      ⟨board, ⟨node.board, cmd, some pk, metadata, rb⟩ :: node.log⟩
  | exhausted (h : node.log = []) : Steps node .rollback node
  | rolledBack {r log} (h : node.log = r :: log) :
    Steps node .rollback ⟨(node.board.rollback r.rollback).1, log⟩

theorem steps (node : Node) (e : Event) : node.Steps e (node.step e) := by
  unfold step
  cases e with
  | rollback =>
    dsimp only
    split
    · exact .rolledBack ‹_›
    · exact .exhausted ‹_›
  | command cmd auth metadata =>
    dsimp only
    rcases node.board.execute_cases metadata auth cmd with
      ⟨hnot, e, he⟩ | ⟨hadmits, pk, rb, g', rfl, hok, hacc⟩
    · rw [he]
      exact .rejected hnot
    · rw [hok]
      exact .accepted hadmits hacc

def Recorded (node : Node) : Prop :=
  ∀ r ∈ node.log, ∃ pk g', r.authorization = some pk ∧
    r.before.Accepts r.metadata pk r.cmd r.rollback g'

theorem Recorded.top {node : Node} {r : Record} {log : List Record} (h : node.Recorded)
    (hlog : node.log = r :: log) :
    ∃ pk g', r.before.Accepts r.metadata pk r.cmd r.rollback g' := by
  have hmem : r ∈ node.log := by
    rw [hlog]
    exact List.mem_cons_self
  obtain ⟨pk, g', -, hacc⟩ := h r hmem
  exact ⟨pk, g', hacc⟩

theorem Steps.recorded {node node' : Node} {e : Event} (h : node.Steps e node')
    (hr : node.Recorded) : node'.Recorded := by
  cases h with
  | rejected | exhausted => exact hr
  | accepted hadmits hacc => exact List.forall_mem_cons.mpr ⟨⟨_, _, rfl, hacc⟩, hr⟩
  | rolledBack hlog =>
    intro r hmem
    apply hr
    rw [hlog]
    exact List.mem_cons_of_mem _ hmem

end Node
end Kdapp.CommentBoard
