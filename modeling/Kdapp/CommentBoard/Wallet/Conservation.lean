import Kdapp.CommentBoard.Wallet.Steps

/-! What the transactions of the wallet take in, pay out and leave to the miners. -/

namespace Kdapp.CommentBoard
variable [Crypto] [WalletCrates] {manager : UtxoLockManager} {built : Built}
  {bondAmount : UInt64}

def outputsValue (built : Built) : ℕ := (built.tx.outputs.map fun o => o.value.toNat).sum

/-- Counted without a bound, so that a difference that wrapped would show. -/
def Built.Conserves (built : Built) : Prop :=
  amounts built.inputs = outputsValue built + FEE.toNat

def Payable (amount : UInt64) : Prop := amount.toNat + FEE.toNat < 2 ^ 64

/-- The amounts of an operation can be paid, and what a refresh brings can be added up. -/
def UtxoLockManager.Fits (manager : UtxoLockManager) : Operation → Prop
  | .lockUtxoForComment _ bondAmount _ _ _ => Payable bondAmount
  | .createScriptBasedBond _ bondAmount _ _ _ _ _ => Payable bondAmount
  | .submitCommentWithBondPayload _ bondAmount _ _ _ _ _ _ _ _ refreshAnswer =>
    Payable bondAmount ∧ ∀ entries, refreshAnswer = .ok entries → amounts entries < 2 ^ 64
  | .upgradeBondToScriptBased commentId _ _ _ _ _ =>
    ∀ existing, manager.lockedUtxos[commentId]? = some existing → Payable existing.bondAmount
  | .splitLargeUtxo _ targetChunkSize _ => Payable targetChunkSize
  | .unlockBond _ _ | .forfeitBond _ | .refreshUtxos _ => True

/-- `lock_utxo_for_comment`, where it gets as far as the proof of a bond. -/
def UtxoLockManager.Proves (manager : UtxoLockManager) : Operation → Prop
  | .lockUtxoForComment _ bondAmount _ _ _ => ∃ u, manager.CanProve bondAmount u
  | _ => False

omit [Crypto] in
theorem payable_toNat (h : Payable bondAmount) :
    (bondAmount + FEE).toNat = bondAmount.toNat + FEE.toNat := by
  rw [UInt64.toNat_add, Nat.mod_eq_of_lt h]

theorem UtxoLockManager.PaysBond.change
    {bondOutput : TransactionOutput Consensus.ScriptPublicKey}
    (h : manager.PaysBond bondOutput bondAmount built) (hvalue : bondOutput.value = bondAmount)
    (htotal : amounts manager.availableUtxos < 2 ^ 64) (hfits : Payable bondAmount) :
    ∃ change, amounts built.inputs = bondAmount.toNat + change + FEE.toNat ∧
      (built.tx.outputs.map fun o => o.value.toNat) =
        if 0 < change then [bondAmount.toNat, change] else [bondAmount.toNat] := by
  obtain ⟨inputs, total, hselect, hreached, hspends, houtputs⟩ := h
  have hsum : total.toNat = amounts inputs := by
    have hloop : (selectInputs (bondAmount + FEE) 0
        (sortByAmount manager.availableUtxos)).2.toNat = _ := selectInputs_total (by
      rw [amounts_sortByAmount, UInt64.toNat_zero, Nat.zero_add]
      exact htotal)
    rw [hselect, UInt64.toNat_zero, Nat.zero_add] at hloop
    exact hloop
  have hrequired := payable_toNat hfits
  have hle : bondAmount.toNat + FEE.toNat ≤ total.toNat := by
    rw [← hrequired]
    exact UInt64.le_iff_toNat_le.mp hreached
  have hchange := Saturating.sub_toNat total (bondAmount + FEE)
  have hpositive : Saturating.sub total (bondAmount + FEE) > 0 ↔
      0 < (Saturating.sub total (bondAmount + FEE)).toNat := UInt64.lt_iff_toNat_lt
  refine ⟨(Saturating.sub total (bondAmount + FEE)).toNat, ?_, ?_⟩
  · rw [hspends.inputs_eq, ← hsum, hchange, hrequired]
    omega
  · rw [houtputs]
    unfold UtxoLockManager.bondOutputs
    dsimp only
    by_cases hpaid : 0 < (Saturating.sub total (bondAmount + FEE)).toNat
    · rw [if_pos hpaid, if_pos (hpositive.mpr hpaid), List.map_cons,
        List.map_singleton, hvalue, UtxoLockManager.payToSelf_value]
    · rw [if_neg hpaid, if_neg (mt hpositive.mp hpaid),
        List.map_singleton, hvalue]

theorem UtxoLockManager.PaysBond.conserves
    {bondOutput : TransactionOutput Consensus.ScriptPublicKey}
    (h : manager.PaysBond bondOutput bondAmount built) (hvalue : bondOutput.value = bondAmount)
    (htotal : amounts manager.availableUtxos < 2 ^ 64) (hfits : Payable bondAmount) :
    built.Conserves := by
  obtain ⟨change, hinputs, houtputs⟩ := h.change hvalue htotal hfits
  unfold Built.Conserves outputsValue
  rw [hinputs, houtputs]
  by_cases hpaid : 0 < change
  · rw [if_pos hpaid, List.sum_cons, List.sum_singleton]
  · rw [if_neg hpaid, List.sum_singleton, Nat.eq_zero_of_not_pos hpaid]
    rfl

theorem commentBondOutput_value (unlockTime : UInt64) (useScriptBonds : Bool) :
    (manager.commentBondOutput bondAmount unlockTime useScriptBonds).value = bondAmount := by
  cases useScriptBonds with
  | true => rfl
  | false => rfl

theorem sum_two_values (a b : TransactionOutput Consensus.ScriptPublicKey) :
    ([a, b].map fun o => o.value.toNat).sum = a.value.toNat + b.value.toNat := by
  rw [List.map_cons, List.sum_cons, List.map_singleton, List.sum_singleton]

theorem amounts_singleton (u : Utxo) : amounts [u] = u.2.amount.toNat := by
  rw [amounts, List.map_singleton, List.sum_singleton]

theorem UtxoLockManager.ProofTransaction.pays_all {u : Utxo}
    (h : manager.ProofTransaction u built) (hprove : manager.CanProve bondAmount u) :
    outputsValue built = amounts built.inputs := by
  obtain ⟨hspends, houtputs⟩ := h
  have hlarge := hprove.large
  have hproof : (FEE * 2).toNat = 10000 := by decide
  have hle : FEE * 2 ≤ u.2.amount := by
    rw [UInt64.le_iff_toNat_le, hproof]
    omega
  have hchange := UInt64.toNat_sub_of_le _ _ hle
  rw [hspends.inputs_eq, amounts_singleton, outputsValue, houtputs, sum_two_values,
    UtxoLockManager.payToSelf_value, UtxoLockManager.payToSelf_value, hchange, hproof]
  omega

theorem split_conserves {targetChunkSize : UInt64} {large : Utxo} (hspends : built.Spends [large])
    (houtputs : built.tx.outputs = [manager.payToSelf targetChunkSize,
      manager.payToSelf (Saturating.sub large.2.amount FEE - targetChunkSize)])
    (hsize : targetChunkSize + 1000 < Saturating.sub large.2.amount FEE)
    (hfits : Payable targetChunkSize) : built.Conserves := by
  have hfee : FEE.toNat = 5000 := by decide
  have hsum : (targetChunkSize + 1000).toNat = targetChunkSize.toNat + 1000 := by
    unfold Payable at hfits
    rw [UInt64.toNat_add]
    apply Nat.mod_eq_of_lt
    change _ + 1000 < _
    omega
  rw [UInt64.lt_iff_toNat_lt, hsum, Saturating.sub_toNat, hfee] at hsize
  have hle : targetChunkSize ≤ Saturating.sub large.2.amount FEE := by
    rw [UInt64.le_iff_toNat_le, Saturating.sub_toNat, hfee]
    omega
  have hchange := UInt64.toNat_sub_of_le _ _ hle
  rw [Saturating.sub_toNat, hfee] at hchange
  unfold Built.Conserves
  rw [hspends.inputs_eq, amounts_singleton, outputsValue, houtputs, sum_two_values,
    UtxoLockManager.payToSelf_value, UtxoLockManager.payToSelf_value, hchange, hfee]
  omega

def UtxoLockManager.AllConserve (manager : UtxoLockManager) (op : Operation) : Prop :=
  ∀ built result, .submitted built result ∈ (manager.perform op).2 → built.Conserves

theorem allConserve_of_none {op : Operation} {manager' : UtxoLockManager}
    (h : manager.perform op = (manager', [])) : manager.AllConserve op := by
  intro built result hmem
  rw [h] at hmem
  cases hmem

theorem allConserve_iff_of_one {op : Operation} {manager' : UtxoLockManager}
    {answer : Except String Unit}
    (h : manager.perform op = (manager', [.submitted built answer])) :
    manager.AllConserve op ↔ built.Conserves := by
  unfold UtxoLockManager.AllConserve
  rw [h]
  constructor
  · intro hall
    exact hall built answer (List.mem_singleton_self _)
  · intro hbuilt built' result hmem
    obtain ⟨rfl, -⟩ := NodeEvent.submitted.inj (List.mem_singleton.mp hmem)
    exact hbuilt

theorem refreshed_total {refreshAnswer : Except String (List Utxo)}
    (htotal : amounts manager.availableUtxos < 2 ^ 64)
    (hrefresh : ∀ entries, refreshAnswer = .ok entries → amounts entries < 2 ^ 64) :
    amounts (manager.refreshUtxos refreshAnswer).1.availableUtxos < 2 ^ 64 := by
  cases refreshAnswer with
  | error msg => exact htotal
  | ok entries => exact hrefresh entries rfl

theorem comment_conserves (episodeMsg : EpisodeMessage ContractCommentBoard)
    (bondAmount lockDurationSeconds : UInt64) (pattern : PatternType) (prefixType : PrefixType)
    (useScriptBonds : Bool) (now now' : UInt64) (answers answers' : Answers)
    (refreshAnswer : Except String (List Utxo)) (htotal : amounts manager.availableUtxos < 2 ^ 64)
    (hfits : Payable bondAmount)
    (hrefresh : ∀ entries, refreshAnswer = .ok entries → amounts entries < 2 ^ 64) :
    manager.AllConserve (.submitCommentWithBondPayload episodeMsg bondAmount lockDurationSeconds
      pattern prefixType useScriptBonds now now' answers answers' refreshAnswer) := by
  intro built result hmem
  rcases UtxoLockManager.submitted_canComment hmem with hbuilt | hbuilt
  · exact hbuilt.paysBond.conserves (commentBondOutput_value _ _) htotal hfits
  · exact hbuilt.paysBond.conserves (commentBondOutput_value _ _)
      (refreshed_total htotal hrefresh) hfits

/-- Inputs, outputs and fee of every transaction add up, but for the proof of a bond, which
leaves no fee. -/
theorem transactions_conserve_iff (manager : UtxoLockManager) (op : Operation)
    (htotal : amounts manager.availableUtxos < 2 ^ 64) (hfits : manager.Fits op) :
    manager.AllConserve op ↔ ¬ manager.Proves op := by
  cases op with
  | lockUtxoForComment commentId bondAmount lockDurationSeconds now answers =>
    rcases UtxoLockManager.lockUtxoForComment_cases commentId bondAmount lockDurationSeconds now
        answers with
      ⟨hcannot, hnone⟩ | ⟨u, built, manager', events, hprove, hproof, hposting, hone⟩
    · exact iff_of_true (allConserve_of_none hnone) (fun ⟨u, hu⟩ => hcannot u hu)
    · rw [hposting.events_eq] at hone
      rw [allConserve_iff_of_one hone]
      refine iff_of_false ?_ (fun h => h ⟨u, hprove⟩)
      unfold Built.Conserves
      rw [hproof.pays_all hprove]
      exact (Nat.lt_add_of_pos_right (by decide)).ne
  | createScriptBasedBond commentId bondAmount lockDurationSeconds mods required now answer =>
    refine iff_of_true ?_ not_false
    rcases UtxoLockManager.performScriptBond_cases commentId bondAmount lockDurationSeconds mods
        required now answer with
      ⟨-, hnone⟩ | ⟨spk, built, manager', events, -, hpays, hposting, hone⟩
    · exact allConserve_of_none hnone
    · rw [hposting.events_eq] at hone
      rw [allConserve_iff_of_one hone]
      exact hpays.conserves rfl htotal hfits
  | submitCommentWithBondPayload episodeMsg bondAmount lockDurationSeconds pattern prefixType
      useScriptBonds now now' answers answers' refreshAnswer =>
    exact iff_of_true (comment_conserves _ _ _ _ _ _ _ _ _ _ _ htotal hfits.1 hfits.2) not_false
  | unlockBond commentId now =>
    refine iff_of_true ?_ not_false
    rcases UtxoLockManager.releases_cases (.inl ⟨now, rfl⟩) with hnone | ⟨_, -, hnone⟩ <;>
      exact allConserve_of_none hnone
  | forfeitBond commentId =>
    refine iff_of_true ?_ not_false
    rcases UtxoLockManager.releases_cases (.inr rfl) with hnone | ⟨_, -, hnone⟩ <;>
      exact allConserve_of_none hnone
  | upgradeBondToScriptBased commentId mods required now now' answer =>
    refine iff_of_true ?_ not_false
    rcases UtxoLockManager.upgradeBondToScriptBased_cases commentId mods required now now' answer
      with ⟨-, hnone⟩ |
        ⟨existing, spk, built, manager', events, hupgrade, hpays, hposting, hone⟩
    · exact allConserve_of_none hnone
    · rw [hposting.events_eq] at hone
      rw [allConserve_iff_of_one hone]
      exact hpays.conserves rfl htotal (hfits existing hupgrade.locked)
  | splitLargeUtxo maxUtxoSize targetChunkSize answers =>
    refine iff_of_true ?_ not_false
    rcases UtxoLockManager.splitLargeUtxo_cases maxUtxoSize targetChunkSize answers with
      ⟨-, hnone⟩ | ⟨large, built, hsplit, hspends, houtputs, hone⟩
    · exact allConserve_of_none hnone
    · rw [allConserve_iff_of_one hone]
      exact split_conserves hspends houtputs hsplit.2 hfits
  | refreshUtxos answer =>
    refine iff_of_true ?_ not_false
    intro built result hmem
    cases answer with
    | error msg => cases hmem
    | ok entries => cases List.mem_singleton.mp hmem

end Kdapp.CommentBoard

namespace Kdapp.CommentBoard
attribute [local instance] idealCrypto plainCrates

def singleUtxo (amount : UInt64) : UtxoLockManager :=
  .new [(⟨Hash.filled 1, 0⟩, ⟨amount, [], 5, false⟩)] () (7 : UInt8)

def accepted : Answers := fun _ => .ok ()

/-- Ten thousand for the proof and all the rest as change. -/
theorem proof_leaves_no_fee :
    amounts (singleUtxo 50000).availableUtxos < 2 ^ 64 ∧
    (singleUtxo 50000).Fits (.lockUtxoForComment 1 20000 600 1756000000 accepted) ∧
    ¬ (singleUtxo 50000).AllConserve (.lockUtxoForComment 1 20000 600 1756000000 accepted) := by
  refine ⟨by decide, by unfold UtxoLockManager.Fits Payable; decide, fun h => ?_⟩
  have hbuilt := h _ _ (List.mem_singleton_self _)
  revert hbuilt
  unfold Built.Conserves
  decide

theorem split_conserves_at :
    (singleUtxo 200000).AllConserve (.splitLargeUtxo 100000 50000 accepted) := by
  apply (transactions_conserve_iff (singleUtxo 200000) (.splitLargeUtxo 100000 50000 accepted)
    (by decide) _).mpr not_false
  unfold UtxoLockManager.Fits Payable
  decide

end Kdapp.CommentBoard
