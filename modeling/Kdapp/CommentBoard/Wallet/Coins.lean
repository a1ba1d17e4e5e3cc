import Kdapp.CommentBoard.Wallet.Conservation

/-! The coin selection of the bonds: what it takes, what is paid and what comes back. -/

namespace Kdapp.CommentBoard
variable [Crypto] [WalletCrates] {manager : UtxoLockManager} {built : Built}
  {bondAmount : UInt64}

/-- The smallest UTXOs are spent, as many as it takes to reach the bond and the fee. The bond is
paid first, and what is left over comes back if it is anything. -/
structure UtxoLockManager.Selects (manager : UtxoLockManager) (bondAmount : UInt64)
    (built : Built) : Prop where
  shortest : Greedy.Shortest (fun u => u.2.amount.toNat) (bondAmount.toNat + FEE.toNat) 0
    (sortByAmount manager.availableUtxos) built.inputs
  spends : built.outpoints = built.inputs.map (·.1)
  bond : (built.tx.outputs[0]?).map (·.value) = some bondAmount
  change : ∃ change, amounts built.inputs = bondAmount.toNat + change + FEE.toNat ∧
    (built.tx.outputs.map fun o => o.value.toNat) =
      if 0 < change then [bondAmount.toNat, change] else [bondAmount.toNat]

def UtxoLockManager.Short (manager : UtxoLockManager) (bondAmount : UInt64) : Prop :=
  amounts manager.availableUtxos < bondAmount.toNat + FEE.toNat

theorem UtxoLockManager.PaysBond.selects
    {bondOutput : TransactionOutput Consensus.ScriptPublicKey}
    (h : manager.PaysBond bondOutput bondAmount built) (hvalue : bondOutput.value = bondAmount)
    (htotal : amounts manager.availableUtxos < 2 ^ 64) (hfits : Payable bondAmount) :
    manager.Selects bondAmount built where
  shortest := by
    have hrequired := payable_toNat hfits
    have hfunded := h.funded
    obtain ⟨inputs, total, hselect, -, hspends, -⟩ := h
    have hfee : FEE.toNat = 5000 := by decide
    -- the fee alone is more than nothing, so that something has to be taken
    have hpositive : 0 < (bondAmount + FEE).toNat := by omega
    have hloop : Greedy.Shortest (fun u => u.2.amount.toNat) (bondAmount + FEE).toNat
        (0 : UInt64).toNat (sortByAmount manager.availableUtxos)
        (selectInputs (bondAmount + FEE) 0 (sortByAmount manager.availableUtxos)).1 := by
      apply selectInputs_shortest
      · exact hpositive
      · rw [amounts_sortByAmount]
        exact hfunded.trans (Nat.le_add_left _ _)
    rw [hselect, hrequired] at hloop
    rw [hspends.inputs_eq]
    exact hloop
  spends := by
    obtain ⟨inputs, total, -, -, hspends, -⟩ := h
    rw [hspends.inputs_eq]
    exact hspends.outpoints_eq
  bond := by
    rw [h.first, Option.map_some, hvalue]
  change := h.change hvalue htotal hfits

theorem UtxoLockManager.short_iff (hfits : Payable bondAmount) :
    manager.Short bondAmount ↔ amounts manager.availableUtxos < (bondAmount + FEE).toNat := by
  rw [payable_toNat hfits]
  exact Iff.rfl

section Selections
variable (htotal : amounts manager.availableUtxos < 2 ^ 64) (hfits : Payable bondAmount)
include htotal hfits

theorem scriptBond_selection (commentId : UInt64) (scriptPubkey : Consensus.ScriptPublicKey) :
    (manager.scriptBondTransaction commentId bondAmount scriptPubkey = .error .noUtxosForBond ↔
      manager.Short bondAmount) ∧
    (¬ manager.Short bondAmount → ∃ built,
      manager.scriptBondTransaction commentId bondAmount scriptPubkey = .ok built ∧
        manager.Selects bondAmount built) := by
  rw [UtxoLockManager.short_iff hfits]
  rcases manager.scriptBondTransaction_cases commentId bondAmount scriptPubkey with
    ⟨hless, herror⟩ | ⟨hfunded, built, hok⟩
  · exact ⟨iff_of_true herror hless, fun h => absurd hless h⟩
  · rw [hok]
    refine ⟨iff_of_false (fun h => by cases h) (Nat.not_lt.mpr hfunded), fun _ => ?_⟩
    exact ⟨built, rfl, (UtxoLockManager.scriptBondTransaction_ok hok).selects rfl htotal hfits⟩

theorem comment_selection (inner : Borsh.Bytes) (lockDurationSeconds : UInt64)
    (pattern : PatternType) (prefixType : PrefixType) (useScriptBonds : Bool) (now : UInt64) :
    (manager.commentTransaction inner bondAmount lockDurationSeconds pattern prefixType
        useScriptBonds now = .error .noUtxosForComment ↔ manager.Short bondAmount) ∧
    (¬ manager.Short bondAmount →
      manager.commentTransaction inner bondAmount lockDurationSeconds pattern prefixType
          useScriptBonds now = .error .nonceOverflow ∨
      ∃ built, manager.commentTransaction inner bondAmount lockDurationSeconds pattern prefixType
          useScriptBonds now = .ok built ∧ manager.Selects bondAmount built) := by
  rw [UtxoLockManager.short_iff hfits]
  rcases manager.commentTransaction_cases inner bondAmount lockDurationSeconds pattern prefixType
      useScriptBonds now with ⟨hless, herror⟩ | ⟨hfunded, hoverflow | ⟨built, hok⟩⟩
  · exact ⟨iff_of_true herror hless, fun h => absurd hless h⟩
  · rw [hoverflow]
    exact ⟨iff_of_false (fun h => by cases h) (Nat.not_lt.mpr hfunded), fun _ => .inl rfl⟩
  · rw [hok]
    refine ⟨iff_of_false (fun h => by cases h) (Nat.not_lt.mpr hfunded), fun _ => .inr ?_⟩
    exact ⟨built, rfl, (UtxoLockManager.commentTransaction_ok hok).selects
      (commentBondOutput_value _ _) htotal hfits⟩

end Selections

/-- The selection of `create_script_based_bond` and that of `submit_comment_with_bond_payload`
are one: each fails when all UTXOs together are not enough, and else takes the shortest piece of
the sorted ones. -/
theorem coin_selection (manager : UtxoLockManager) (bondAmount : UInt64)
    (htotal : amounts manager.availableUtxos < 2 ^ 64) (hfits : Payable bondAmount) :
    ((sortByAmount manager.availableUtxos).Perm manager.availableUtxos ∧
      (sortByAmount manager.availableUtxos).Pairwise fun a b => a.2.amount ≤ b.2.amount) ∧
    (∀ commentId scriptPubkey,
      (manager.scriptBondTransaction commentId bondAmount scriptPubkey = .error .noUtxosForBond ↔
        manager.Short bondAmount) ∧
      (¬ manager.Short bondAmount → ∃ built,
        manager.scriptBondTransaction commentId bondAmount scriptPubkey = .ok built ∧
          manager.Selects bondAmount built)) ∧
    (∀ inner lockDurationSeconds pattern prefixType useScriptBonds now,
      (manager.commentTransaction inner bondAmount lockDurationSeconds pattern prefixType
          useScriptBonds now = .error .noUtxosForComment ↔ manager.Short bondAmount) ∧
      (¬ manager.Short bondAmount →
        manager.commentTransaction inner bondAmount lockDurationSeconds pattern prefixType
            useScriptBonds now = .error .nonceOverflow ∨
        ∃ built, manager.commentTransaction inner bondAmount lockDurationSeconds pattern
            prefixType useScriptBonds now = .ok built ∧ manager.Selects bondAmount built)) ∧
    (∀ built built', manager.Selects bondAmount built → manager.Selects bondAmount built' →
      built.inputs = built'.inputs) ∧
    (∀ commentId lockDurationSeconds moderatorPubkeys requiredModeratorSignatures now answer
      built result, .submitted built result ∈ (manager.perform (.createScriptBasedBond commentId
        bondAmount lockDurationSeconds moderatorPubkeys requiredModeratorSignatures now
        answer)).2 → manager.Selects bondAmount built) ∧
    ∀ episodeMsg lockDurationSeconds pattern prefixType useScriptBonds now now' answers answers'
      refreshAnswer built result, .submitted built result ∈ (manager.perform
        (.submitCommentWithBondPayload episodeMsg bondAmount lockDurationSeconds pattern prefixType
          useScriptBonds now now' answers answers' refreshAnswer)).2 →
      (∀ entries, refreshAnswer = .ok entries → amounts entries < 2 ^ 64) →
      manager.Selects bondAmount built ∨
        (manager.refreshUtxos refreshAnswer).1.Selects bondAmount built := by
  refine ⟨⟨List.perm_insertionSort _ _, sortByAmount_sorted⟩, scriptBond_selection htotal hfits,
    comment_selection htotal hfits, fun _ _ h h' => h.shortest.unique h'.shortest, ?bonds,
    ?comments⟩
  case bonds =>
    intro commentId lockDurationSeconds moderatorPubkeys requiredModeratorSignatures now answer
      built result hmem
    rcases UtxoLockManager.performScriptBond_cases commentId bondAmount lockDurationSeconds
        moderatorPubkeys requiredModeratorSignatures now answer with
      ⟨-, hnone⟩ | ⟨spk, built', manager', events, -, hpays, hposting, hone⟩
    · rw [hnone] at hmem
      cases hmem
    · rw [hone, hposting.events_eq] at hmem
      obtain ⟨rfl, -⟩ := NodeEvent.submitted.inj (List.mem_singleton.mp hmem)
      exact hpays.selects rfl htotal hfits
  case comments =>
    intro episodeMsg lockDurationSeconds pattern prefixType useScriptBonds now now' answers
      answers' refreshAnswer built result hmem hrefresh
    rcases UtxoLockManager.submitted_canComment hmem with hbuilt | hbuilt
    -- from the coins at hand, or after a refresh from those that it brought
    · exact .inl (hbuilt.paysBond.selects (commentBondOutput_value _ _) htotal hfits)
    · exact .inr (hbuilt.paysBond.selects (commentBondOutput_value _ _)
        (refreshed_total htotal hrefresh) hfits)

end Kdapp.CommentBoard

namespace Kdapp.CommentBoard
attribute [local instance] idealCrypto plainCrates

def twoUtxos : UtxoLockManager :=
  .new [(⟨Hash.filled 1, 0⟩, ⟨70000, [], 5, false⟩), (⟨Hash.filled 1, 1⟩, ⟨40000, [], 5, false⟩)]
    () (7 : UInt8)

/-- Both are spent for a bond of 100000, and no bond of 110000 can be paid. -/
theorem coin_selection_at :
    (∃ built, twoUtxos.scriptBondTransaction 1 100000 (WalletCrates.scriptPublicKey 0 []) =
        .ok built ∧ twoUtxos.Selects 100000 built) ∧
    twoUtxos.scriptBondTransaction 1 110000 (WalletCrates.scriptPublicKey 0 []) =
      .error .noUtxosForBond := by
  have htotal : amounts twoUtxos.availableUtxos < 2 ^ 64 := by decide
  constructor
  · apply ((coin_selection twoUtxos 100000 htotal (by unfold Payable; decide)).2.1 1 _).2
    unfold UtxoLockManager.Short
    decide
  · apply ((coin_selection twoUtxos 110000 htotal (by unfold Payable; decide)).2.1 1 _).1.mpr
    unfold UtxoLockManager.Short
    decide

end Kdapp.CommentBoard
