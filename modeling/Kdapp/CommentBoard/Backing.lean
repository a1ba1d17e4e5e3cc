import Kdapp.CommentBoard.Rollback
import Mathlib.Algebra.Order.BigOperators.Group.List

/-! What the locked value of the comment board is backed by: the outputs of the transactions that
carried the commands. -/

namespace Kdapp.CommentBoard
open InOrder Transition
open Std (ExtTreeMap)

def outputsSum (outputs : List TxOutputInfo) : ℕ := (outputs.map fun o => o.value.toNat).sum

/-- What the transaction of a command pays, as far as the metadata show it. -/
def paid (metadata : PayloadMetadata) : ℕ := outputsSum (metadata.txOutputs.getD [])

section Outputs
variable {outputs : List TxOutputInfo}

theorem value_le_outputsSum {o : TxOutputInfo} (h : o ∈ outputs) :
    o.value.toNat ≤ outputsSum outputs := by
  apply List.single_le_sum
  · exact fun _ _ => Nat.zero_le _
  · exact List.mem_map_of_mem h

theorem le_outputsSum_of_checkOutputs {bond : UInt64} {idx : Option UInt32}
    {script : Option BondScriptKind}
    (h : ContractCommentBoard.checkOutputs bond idx script outputs = none) :
    bond.toNat ≤ outputsSum outputs := by
  unfold ContractCommentBoard.checkOutputs at h
  cases idx with
  | some idx =>
    dsimp only at h
    split at h
    · cases h
    · rename_i hvalue
      rw [not_not] at hvalue
      obtain ⟨o, ho, rfl⟩ := Option.map_eq_some_iff.mp hvalue
      exact value_le_outputsSum (List.mem_of_getElem? ho)
  | none =>
    dsimp only at h
    split at h
    · rename_i hany
      obtain ⟨o, ho, hvalue⟩ := List.any_eq_true.mp hany
      have hle : bond ≤ o.value := of_decide_eq_true hvalue
      exact Nat.le_trans (UInt64.le_iff_toNat_le.mp hle) (value_le_outputsSum ho)
    · cases h

theorem le_paid_of_checkComment {g : ContractCommentBoard} {metadata : PayloadMetadata}
    {text : String} {bond : UInt64} {idx : Option UInt32} {script : Option BondScriptKind}
    (houtputs : metadata.txOutputs = some outputs)
    (h : g.checkComment metadata text bond idx script = none) : bond.toNat ≤ paid metadata := by
  have hpaid : paid metadata = outputsSum outputs := by
    rw [paid, houtputs, Option.getD_some]
  rw [hpaid]
  unfold ContractCommentBoard.checkComment at h
  split at h
  · cases h
  split at h
  · rename_i hzero
    rw [hzero]
    exact Nat.zero_le _
  split at h
  · cases h
  split at h
  · cases h
  rw [houtputs] at h
  exact le_outputsSum_of_checkOutputs h

end Outputs

variable [Crypto]

def lockedBonds (log : List Record) : ℕ := (log.map fun r => r.cmd.bond.toNat).sum

/-- The locked value is paid for by the transactions of the commands in the log, and each bond by
its own. -/
structure Backed (node : Node) : Prop where
  total : node.board.contract.totalLockedValue.toNat ≤
    (node.log.map fun r => paid r.metadata).sum
  each : ∀ r ∈ node.log, r.cmd.bond.toNat ≤ paid r.metadata

/-- The locked value never exceeds the bonds in the log, even where it wraps around. -/
structure Capped (node : Node) : Prop where
  recorded : node.Recorded
  total : node.board.contract.totalLockedValue.toNat ≤ lockedBonds node.log

theorem Capped.step {node : Node} (h : Capped node) (e : Event) : Capped (node.step e) := by
  have hsteps := node.steps e
  refine ⟨hsteps.recorded h.recorded, ?_⟩
  have htotal := h.total
  generalize node.step e = node' at hsteps
  cases hsteps with
  | rejected | exhausted => exact htotal
  | @accepted cmd pk metadata rb board hadmits hacc =>
    have hadded : board.contract.totalLockedValue.toNat ≤
        cmd.bond.toNat + node.board.contract.totalLockedValue.toNat := by
      cases hacc with
      | joinRoom | submitComment =>
        dsimp only [ContractCommand.bond]
        rw [UInt64.toNat_add, Nat.add_comm]
        exact Nat.mod_le _ _
      | requestChallenge | submitResponse => exact Nat.le_add_left _ _
    rw [lockedBonds, List.map_cons, List.sum_cons]
    exact Nat.le_trans hadded (Nat.add_le_add_left htotal _)
  | @rolledBack r log hlog =>
    obtain ⟨pk, g', hacc⟩ := h.recorded.top hlog
    rw [hlog, lockedBonds, List.map_cons, List.sum_cons] at htotal
    rw [hacc.rollback_eq]
    obtain ⟨before, cmd, authorization, metadata, rb⟩ := r
    have hsub : node.board.contract.totalLockedValue.toNat - cmd.bond.toNat ≤ lockedBonds log :=
      Nat.sub_le_iff_le_add'.mpr htotal
    cases cmd with
    | joinRoom | submitComment =>
      dsimp only [ContractCommentBoard.unlockValue, ContractCommentBoard.removeComment]
      rw [Saturating.sub_toNat]
      exact hsub
    | requestChallenge | submitResponse => exact hsub

theorem Capped.backed_iff {node : Node} (h : Capped node) :
    Backed node ↔ ∀ r ∈ node.log, r.cmd.bond.toNat ≤ paid r.metadata := by
  constructor
  · exact fun hbacked => hbacked.each
  · intro heach
    exact ⟨Nat.le_trans h.total (List.sum_le_sum heach), heach⟩

def Paid (node : Node) : Event → Prop
  | .command cmd authorization metadata =>
    node.board.Admits metadata authorization cmd → cmd.bond.toNat ≤ paid metadata
  | .rollback => True

def JoinPaid (node : Node) : Event → Prop
  | .command (.joinRoom bondAmount) authorization metadata =>
    node.board.Admits metadata authorization (.joinRoom bondAmount) →
      bondAmount.toNat ≤ paid metadata
  | _ => True

/-- The metadata of a command come with the outputs of its transaction. -/
def Event.Carried : Event → Prop
  | .command _ _ metadata => ∃ outputs, metadata.txOutputs = some outputs
  | .rollback => True

theorem backed_iff_paid {node₀ : Node} (hlog : node₀.log = [])
    (htotal : node₀.board.contract.totalLockedValue = 0) (events : List Event) :
    Always Node.step node₀ Backed events ↔
      Throughout (fun earlier e => Paid (after Node.step node₀ earlier) e) events := by
  have hcapped : Capped node₀ := by
    refine ⟨fun r hr => ?_, ?_⟩
    · rw [hlog] at hr
      cases hr
    · rw [htotal]
      exact Nat.zero_le _
  have hbacked : Backed node₀ := by
    rw [hcapped.backed_iff, hlog]
    exact fun r hr => by cases hr
  refine always_iff_throughout hbacked hcapped (fun node e _ h _ => h.step e) ?_ events
  intro node e hnode h
  rw [(h.step e).backed_iff]
  have hsteps := node.steps e
  generalize node.step e = node' at hsteps
  cases hsteps with
  | rejected hnot => exact iff_of_true hnode.each fun hadmits => absurd hadmits hnot
  | accepted hadmits hacc =>
    rw [List.forall_mem_cons]
    exact ⟨fun hall _ => hall.1, fun hpaid => ⟨hpaid hadmits, hnode.each⟩⟩
  | exhausted => exact iff_of_true hnode.each trivial
  | rolledBack hlog =>
    refine iff_of_true (fun r hr => hnode.each r ?_) trivial
    rw [hlog]
    exact List.mem_cons_of_mem _ hr

theorem paid_iff_joinPaid {node : Node} {e : Event} (hcarried : e.Carried) :
    Paid node e ↔ JoinPaid node e := by
  cases e with
  | rollback => exact Iff.rfl
  | command cmd authorization metadata =>
    obtain ⟨outputs, houtputs⟩ := hcarried
    cases cmd with
    | joinRoom => exact Iff.rfl
    | requestChallenge | submitResponse => exact iff_of_true (fun _ => Nat.zero_le _) trivial
    | submitComment =>
      exact iff_of_true (fun hadmits => le_paid_of_checkComment houtputs hadmits.2.2) trivial

/-- Where the outputs of the transactions are known, the locked value is backed all along if and
only if every join pays its bond. -/
theorem backed_iff_joinPaid (rules : RoomRules) (metadata : PayloadMetadata)
    (events : List Event) (hcarried : ∀ e ∈ events, e.Carried) :
    Always Node.step (Node.start rules metadata) Backed events ↔
      Throughout (fun earlier e =>
        JoinPaid (after Node.step (Node.start rules metadata) earlier) e) events := by
  rw [backed_iff_paid rfl rfl]
  exact Throughout.congr fun earlier e he => paid_iff_joinPaid (hcarried e he)

end Kdapp.CommentBoard

namespace Kdapp.CommentBoard
open InOrder Transition
attribute [local instance] idealCrypto

def paying (value : UInt64) : PayloadMetadata where
  __ := txAt 101 1
  txOutputs := some [⟨value, 0, none⟩]

def joining (value : UInt64) : Event := .command (.joinRoom 5) (some (1 : UInt8)) (paying value)

theorem joining_carried (value : UInt64) : (joining value).Carried := ⟨_, rfl⟩

def joiningTwo : List Event :=
  [joining 7, .command (.joinRoom 6) (some (2 : UInt8)) (paying 6), .rollback]

theorem backed_iff_joinPaid_once :
    Always Node.step (Node.start .default (txAt 100 0)) Backed joiningTwo := by
  refine (backed_iff_joinPaid _ _ _ ?_).mpr fun i e he => ?_
  · intro e he
    simp only [joiningTwo, List.mem_cons, List.not_mem_nil, or_false] at he
    rcases he with rfl | rfl | rfl
    · exact joining_carried 7
    · exact ⟨_, rfl⟩
    · exact trivial
  · match i with
    | 0 | 1 =>
      cases he
      intro _
      decide +kernel
    | 2 =>
      cases he
      exact trivial
    | i + 3 => cases he

/-- A bond of 5 in a transaction that pays 1. -/
theorem join_unbacked : (∀ e ∈ [joining 1], e.Carried) ∧
    ¬ Always Node.step (Node.start .default (txAt 100 0)) Backed [joining 1] := by
  refine ⟨fun e he => ?_, fun h => ?_⟩
  · obtain rfl := List.mem_singleton.mp he
    exact joining_carried 1
  exact absurd (h 1).total (by decide +kernel)

end Kdapp.CommentBoard
