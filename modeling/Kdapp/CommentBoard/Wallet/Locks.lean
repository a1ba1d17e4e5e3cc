import Kdapp.CommentBoard.Wallet.Steps
import Kdapp.Library.Totals
import Kdapp.Library.Transition

/-! The locked balance against the bonds on the books, over any sequence of operations. -/

namespace Kdapp.CommentBoard
open FiniteMap InOrder Transition

variable [Crypto] [WalletCrates]

namespace UtxoLockManager
variable (manager : UtxoLockManager)

def lockedTotal : ℕ := total (fun l => l.bondAmount.toNat) manager.lockedUtxos

def lockedFor (commentId : UInt64) : ℕ :=
  held (fun l => l.bondAmount.toNat) manager.lockedUtxos commentId

/-- The running total is the sum of the bonds, and leaves no debt in what is available. -/
def Balanced : Prop :=
  manager.totalLockedBalance.toNat = manager.lockedTotal ∧
    manager.totalLockedBalance ≤ manager.totalAvailableBalance

/-- No bond with an amount is overwritten or replaced, and a refresh finds what is locked. -/
def KeepsBalance : Operation → Prop
  | .lockUtxoForComment commentId bondAmount _ _ answers =>
    ∀ u, manager.CanProve bondAmount u → submitWithRetry answers = .ok () →
      manager.lockedFor commentId = 0
  | .createScriptBasedBond commentId bondAmount lockDurationSeconds moderatorPubkeys
      requiredModeratorSignatures now answer =>
    manager.CanScript bondAmount lockDurationSeconds moderatorPubkeys requiredModeratorSignatures
      now → answer = .ok () → manager.availableUtxos ≠ [] → manager.lockedFor commentId = 0
  | .submitCommentWithBondPayload episodeMsg bondAmount lockDurationSeconds pattern prefixType
      useScriptBonds now _ answers _ refreshAnswer =>
    ∀ built, manager.CanComment episodeMsg bondAmount lockDurationSeconds pattern prefixType
      useScriptBonds now built → Orphaned answers → ∀ entries, refreshAnswer = .ok entries →
        manager.totalLockedBalance ≤ amountsTotal entries
  | .upgradeBondToScriptBased commentId moderatorPubkeys requiredModeratorSignatures now now'
      answer =>
    ∀ existing, manager.CanUpgrade commentId moderatorPubkeys requiredModeratorSignatures now now'
      existing → answer = .ok () → manager.availableUtxos ≠ [] →
        existing.bondAmount = 0 ∧ manager.lockedFor (commentId + 1000000) = 0
  | .refreshUtxos answer => ∀ entries, answer = .ok entries →
      manager.totalLockedBalance ≤ amountsTotal entries
  | .unlockBond _ _ | .forfeitBond _ | .splitLargeUtxo _ _ _ => True

variable {manager} {built : Built} {bondAmount : UInt64}

theorem selectInputs_eq_nil_iff {required total : UInt64} {utxos : List Utxo} :
    (selectInputs required total utxos).1 = [] ↔ utxos = [] := by
  cases utxos with
  | nil => exact iff_of_true rfl rfl
  | cons u utxos =>
    unfold selectInputs
    dsimp only
    split
    · exact iff_of_false (List.cons_ne_nil _ _) (List.cons_ne_nil _ _)
    · exact iff_of_false (List.cons_ne_nil _ _) (List.cons_ne_nil _ _)

theorem PaysBond.inputs_eq_nil_iff {bondOutput : TransactionOutput Consensus.ScriptPublicKey}
    (h : manager.PaysBond bondOutput bondAmount built) :
    built.inputs = [] ↔ manager.availableUtxos = [] := by
  obtain ⟨inputs, total, hselect, -, hspends, -⟩ := h
  have hnil : (selectInputs (bondAmount + FEE) 0
      (sortByAmount manager.availableUtxos)).1 = [] ↔ _ := selectInputs_eq_nil_iff
  rw [hselect] at hnil
  rw [hspends.inputs_eq, hnil, ← List.length_eq_zero_iff, ← List.length_eq_zero_iff, sortByAmount,
    List.length_insertionSort]

theorem Balanced.affordable (h : manager.Balanced)
    (hafford : manager.canAffordBond bondAmount = true) :
    manager.totalLockedBalance.toNat + bondAmount.toNat ≤ manager.totalAvailableBalance.toNat := by
  have hle : bondAmount ≤ manager.totalAvailableBalance - manager.totalLockedBalance :=
    of_decide_eq_true hafford
  rw [UInt64.le_iff_toNat_le, UInt64.toNat_sub_of_le _ _ h.2] at hle
  have hdebt := UInt64.le_iff_toNat_le.mp h.2
  omega

theorem Balanced.locked_add (h : manager.Balanced)
    (hafford : manager.canAffordBond bondAmount = true) :
    (manager.totalLockedBalance + bondAmount).toNat =
      manager.lockedTotal + bondAmount.toNat := by
  have hle := h.affordable hafford
  have hlt := manager.totalAvailableBalance.toNat_lt
  rw [UInt64.toNat_add, Nat.mod_eq_of_lt (by omega), h.1]

theorem Balanced.addBond_iff (h : manager.Balanced) {lockedUtxo : LockedUtxo}
    (hafford : manager.canAffordBond lockedUtxo.bondAmount = true) :
    (manager.addBond lockedUtxo).Balanced ↔ manager.lockedFor lockedUtxo.commentId = 0 := by
  have hle := h.affordable hafford
  have hsum := h.locked_add hafford
  have htotal : (manager.addBond lockedUtxo).lockedTotal +
      manager.lockedFor lockedUtxo.commentId =
        manager.lockedTotal + lockedUtxo.bondAmount.toNat := total_insert lockedUtxo
  have hdebt : (manager.addBond lockedUtxo).totalLockedBalance ≤
      (manager.addBond lockedUtxo).totalAvailableBalance := by
    rw [UInt64.le_iff_toNat_le]
    exact hsum.trans_le (h.1 ▸ hle)
  unfold Balanced
  rw [and_iff_left hdebt]
  change (manager.totalLockedBalance + lockedUtxo.bondAmount).toNat = _ ↔ _
  omega

theorem Balanced.upgrade_iff (h : manager.Balanced) {commentId : UInt64}
    {existing lockedUtxo : LockedUtxo} (hexisting : manager.lockedUtxos[commentId]? = some existing)
    (hid : lockedUtxo.commentId = commentId + 1000000)
    (hbond : lockedUtxo.bondAmount = existing.bondAmount)
    (hafford : manager.canAffordBond existing.bondAmount = true) :
    ((manager.addBond lockedUtxo).dropBond commentId).Balanced ↔
      existing.bondAmount = 0 ∧ manager.lockedFor (commentId + 1000000) = 0 := by
  rw [← hbond] at hafford
  have hle := h.affordable hafford
  have hsum := h.locked_add hafford
  have hne : lockedUtxo.commentId ≠ commentId := by
    rw [hid]
    intro heq
    have hnat := congrArg UInt64.toNat heq
    rw [UInt64.toNat_add] at hnat
    have hlt := commentId.toNat_lt
    change (commentId.toNat + 1000000) % 2 ^ 64 = _ at hnat
    omega
  have hadd : (manager.addBond lockedUtxo).lockedTotal + manager.lockedFor (commentId + 1000000) =
      manager.lockedTotal + existing.bondAmount.toNat := by
    rw [← hid, ← hbond]
    exact total_insert lockedUtxo
  have hdrop : ((manager.addBond lockedUtxo).dropBond commentId).lockedTotal +
      existing.bondAmount.toNat = (manager.addBond lockedUtxo).lockedTotal := by
    have hheld : (manager.addBond lockedUtxo).lockedFor commentId = existing.bondAmount.toNat :=
      (held_insert_of_ne hne).trans (held_of_some hexisting)
    rw [← hheld]
    exact total_erase
  have hdebt : ((manager.addBond lockedUtxo).dropBond commentId).totalLockedBalance ≤
      ((manager.addBond lockedUtxo).dropBond commentId).totalAvailableBalance := by
    rw [UInt64.le_iff_toNat_le]
    exact hsum.trans_le (h.1 ▸ hle)
  unfold Balanced
  rw [and_iff_left hdebt, ← UInt64.toNat_inj, UInt64.toNat_zero]
  change (manager.totalLockedBalance + lockedUtxo.bondAmount).toNat = _ ↔ _
  rw [hbond] at hsum ⊢
  omega

theorem Balanced.release (h : manager.Balanced) {commentId : UInt64} {lockedUtxo : LockedUtxo}
    (hlocked : manager.lockedUtxos[commentId]? = some lockedUtxo) :
    (manager.release lockedUtxo commentId).Balanced := by
  have hheld : manager.lockedFor commentId = lockedUtxo.bondAmount.toNat := held_of_some hlocked
  have htotal : (manager.release lockedUtxo commentId).lockedTotal +
      manager.lockedFor commentId = manager.lockedTotal := total_erase
  have hle : lockedUtxo.bondAmount ≤ manager.totalLockedBalance := by
    rw [UInt64.le_iff_toNat_le, h.1]
    omega
  have hsub := UInt64.toNat_sub_of_le _ _ hle
  have hdebt := UInt64.le_iff_toNat_le.mp h.2
  have htotalNat := h.1
  constructor
  · change (manager.totalLockedBalance - lockedUtxo.bondAmount).toNat = _
    omega
  · change manager.totalLockedBalance - lockedUtxo.bondAmount ≤ manager.totalAvailableBalance
    rw [UInt64.le_iff_toNat_le]
    omega

theorem Balanced.releases (h : manager.Balanced) {op : Operation} {commentId : UInt64}
    (hop : (∃ now, op = .unlockBond commentId now) ∨ op = .forfeitBond commentId) :
    (manager.perform op).1.Balanced := by
  rcases releases_cases hop with hperform | ⟨lockedUtxo, hlocked, hperform⟩
  · rw [hperform]
    exact h
  · rw [hperform]
    exact h.release hlocked

theorem balanced_refresh_iff (h : manager.Balanced) (answer : Except String (List Utxo)) :
    (manager.refreshUtxos answer).1.Balanced ↔
      ∀ entries, answer = .ok entries → manager.totalLockedBalance ≤ amountsTotal entries := by
  cases answer with
  | error msg => exact iff_of_true h (fun entries heq => by cases heq)
  | ok entries =>
    change (manager.totalLockedBalance.toNat = manager.lockedTotal ∧
      manager.totalLockedBalance ≤ amountsTotal entries) ↔ _
    rw [and_iff_right h.1]
    constructor
    · intro hle entries' heq
      obtain rfl := Except.ok.inj heq
      exact hle
    · intro hall
      exact hall entries rfl

theorem Posting.balanced_iff {commentId : UInt64} {answer : Except String Unit}
    {manager' : UtxoLockManager} {events : List NodeEvent}
    (hposting : manager.Posting commentId bondAmount built answer manager' events)
    (h : manager.Balanced) (hafford : manager.canAffordBond bondAmount = true) :
    manager'.Balanced ↔
      (answer = .ok () → built.inputs ≠ [] → manager.lockedFor commentId = 0) := by
  cases hposting with
  | refused msg => exact iff_of_true h (fun hok => by cases hok)
  | recorded lockedUtxo hid hbond hinputs =>
    rw [← hbond] at hafford
    rw [h.addBond_iff hafford, hid]
    exact ⟨fun hzero _ _ => hzero, fun hall => hall rfl hinputs⟩
  | lost hinputs => exact iff_of_true h (fun _ hne => absurd hinputs hne)

theorem Posting.upgraded_iff {commentId : UInt64} {existing : LockedUtxo}
    {answer : Except String Unit} {manager' : UtxoLockManager} {events : List NodeEvent}
    (hposting : manager.Posting (commentId + 1000000) existing.bondAmount built answer manager'
      events)
    (h : manager.Balanced) (hexisting : manager.lockedUtxos[commentId]? = some existing)
    (hafford : manager.canAffordBond existing.bondAmount = true) :
    (if answer = .ok () ∧ built.inputs ≠ [] then manager'.dropBond commentId
      else manager').Balanced ↔
      (answer = .ok () → built.inputs ≠ [] →
        existing.bondAmount = 0 ∧ manager.lockedFor (commentId + 1000000) = 0) := by
  cases hposting with
  | refused msg =>
    rw [if_neg (fun hok => by cases hok.1)]
    exact iff_of_true h (fun hok => by cases hok)
  | recorded lockedUtxo hid hbond hinputs =>
    rw [if_pos ⟨rfl, hinputs⟩, h.upgrade_iff hexisting hid hbond hafford]
    exact ⟨fun hzero _ _ => hzero, fun hzero => hzero rfl hinputs⟩
  | lost hinputs =>
    rw [if_neg (fun hok => hok.2 hinputs)]
    exact iff_of_true h (fun _ hne => absurd hinputs hne)

theorem balanced_perform_iff (op : Operation) (h : manager.Balanced) :
    (manager.perform op).1.Balanced ↔ manager.KeepsBalance op := by
  cases op with
  | lockUtxoForComment commentId bondAmount lockDurationSeconds now answers =>
    rcases lockUtxoForComment_cases commentId bondAmount lockDurationSeconds now answers with
      ⟨hcannot, hperform⟩ | ⟨u, built, manager', events, hprove, hproof, hposting, hperform⟩
    · rw [hperform]
      exact iff_of_true h (fun u hu => absurd hu (hcannot u))
    · have hinputs : built.inputs ≠ [] := by
        rw [hproof.1.inputs_eq]
        exact List.cons_ne_nil _ _
      rw [hperform, hposting.balanced_iff h hprove.affordable]
      constructor
      · intro hall _ _ hok
        exact hall hok hinputs
      · intro hall hok _
        exact hall u hprove hok
  | createScriptBasedBond commentId bondAmount lockDurationSeconds mods required now answer =>
    rcases performScriptBond_cases commentId bondAmount lockDurationSeconds mods required now
        answer with
      ⟨hcannot, hperform⟩ | ⟨spk, built, manager', events, hscript, hpays, hposting, hperform⟩
    · rw [hperform]
      exact iff_of_true h (fun hscript => absurd hscript hcannot)
    · rw [hperform, hposting.balanced_iff h hscript.affordable, ne_eq, hpays.inputs_eq_nil_iff]
      exact ⟨fun hall _ => hall, fun hall => hall hscript⟩
  | submitCommentWithBondPayload episodeMsg bondAmount lockDurationSeconds pattern prefixType
      useScriptBonds now now' answers answers' refreshAnswer =>
    rcases submitComment_cases manager episodeMsg bondAmount lockDurationSeconds pattern prefixType
        useScriptBonds now now' answers answers' refreshAnswer with
      ⟨hcannot, hperform⟩ |
      ⟨built, hcomment, ⟨hanswered, hperform⟩ | ⟨msg, tail, -, horphaned, hperform, -⟩⟩
    · rw [hperform]
      exact iff_of_true h (fun built hbuilt => absurd hbuilt (hcannot built))
    · rw [hperform]
      exact iff_of_true h (fun _ _ horphaned => absurd horphaned hanswered)
    -- answered with an orphan, a comment refreshes the UTXOs; no bond is recorded either way
    · rw [hperform, balanced_refresh_iff h]
      exact ⟨fun hall _ _ _ => hall, fun hall => hall built hcomment horphaned⟩
  | unlockBond commentId now => exact iff_of_true (h.releases (.inl ⟨now, rfl⟩)) trivial
  | forfeitBond commentId => exact iff_of_true (h.releases (.inr rfl)) trivial
  | upgradeBondToScriptBased commentId mods required now now' answer =>
    rcases upgradeBondToScriptBased_cases commentId mods required now now' answer with
      ⟨hcannot, hperform⟩ |
      ⟨existing, spk, built, manager', events, hupgrade, hpays, hposting, hperform⟩
    · rw [hperform]
      exact iff_of_true h (fun existing hexisting => absurd hexisting (hcannot existing))
    -- the condition speaks of whatever bond is under the id: there is one
    · have hall : manager.KeepsBalance (.upgradeBondToScriptBased commentId mods required now now'
          answer) ↔ (answer = .ok () → built.inputs ≠ [] →
            existing.bondAmount = 0 ∧ manager.lockedFor (commentId + 1000000) = 0) := by
        rw [ne_eq, hpays.inputs_eq_nil_iff]
        constructor
        · intro hkeeps
          exact hkeeps existing hupgrade
        · intro hkeeps existing' hupgrade'
          rw [hupgrade'.unique hupgrade.locked]
          exact hkeeps
      rw [hperform, hall]
      exact hposting.upgraded_iff h hupgrade.locked hupgrade.scriptable.affordable
  | splitLargeUtxo maxUtxoSize targetChunkSize answers =>
    refine iff_of_true ?_ trivial
    rcases splitLargeUtxo_cases maxUtxoSize targetChunkSize answers with
      ⟨-, hperform⟩ | ⟨large, built, -, -, -, hperform⟩
    · rw [hperform]
      exact h
    · rw [hperform]
      dsimp only
      split
      · exact h
      · exact h
  | refreshUtxos answer => exact balanced_refresh_iff h answer

end UtxoLockManager

/-- The locked balance is the sum of the bonds and never exceeds what is available, all through a
sequence of operations, exactly if none of them overwrites or replaces a bond with an amount and
no refresh finds less than is locked. -/
theorem lock_accounting_iff (entries : List Utxo) (kaspaAddress : Consensus.Address)
    (keypair : Consensus.Keypair) (ops : List Operation) :
    Always (fun manager op => (manager.perform op).1) (.new entries kaspaAddress keypair)
        UtxoLockManager.Balanced ops ↔
      Throughout (fun earlier op => UtxoLockManager.KeepsBalance
        (after (fun manager op => (manager.perform op).1) (.new entries kaspaAddress keypair)
          earlier) op) ops := by
  have hnew : (UtxoLockManager.new entries kaspaAddress keypair).Balanced := by
    constructor
    · exact total_empty.symm
    · exact UInt64.zero_le
  exact always_iff_throughout (Q := fun _ => True) hnew trivial (fun _ _ _ _ _ => trivial)
    (fun manager op h _ => UtxoLockManager.balanced_perform_iff op h) ops

end Kdapp.CommentBoard

namespace Kdapp.CommentBoard
open Transition
attribute [local instance] idealCrypto plainCrates

def walletUtxo (index : UInt32) (amount : UInt64) : Utxo :=
  (⟨Hash.filled 9, index⟩, ⟨amount, [], 5, false⟩)

/-- A bond is locked, the node reports proof and change, and the bond is upgraded. Then the node
reports the change that is left. -/
def upgradeRun : List Operation := [
  .lockUtxoForComment 1 20000 600 1756000000 fun _ => .ok (),
  .refreshUtxos (.ok [walletUtxo 0 10000, walletUtxo 1 40000]),
  .upgradeBondToScriptBased 1 none none 1756000010 1756000010 (.ok ()),
  .refreshUtxos (.ok [walletUtxo 2 25000])]

def upgradeWallet : UtxoLockManager := .new [walletUtxo 7 50000] () (7 : UInt8)

/-- The bond is counted twice, and the balance that is left goes below zero. -/
theorem upgrade_counts_twice :
    ¬ Always (fun (manager : UtxoLockManager) op => (manager.perform op).1) upgradeWallet
        UtxoLockManager.Balanced upgradeRun ∧
    let final := after (fun (manager : UtxoLockManager) op => (manager.perform op).1) upgradeWallet
      upgradeRun
    final.totalLockedBalance = 40000 ∧ final.lockedTotal = 20000 ∧
      final.totalAvailableBalance = 25000 := by
  have hfinal : (after (fun (manager : UtxoLockManager) op => (manager.perform op).1) upgradeWallet
      upgradeRun).totalLockedBalance = 40000 := by decide +kernel
  have htotal : (after (fun (manager : UtxoLockManager) op => (manager.perform op).1) upgradeWallet
      upgradeRun).lockedTotal = 20000 := by decide +kernel
  have havailable : (after (fun (manager : UtxoLockManager) op => (manager.perform op).1)
      upgradeWallet upgradeRun).totalAvailableBalance = 25000 := by decide +kernel
  refine ⟨fun h => ?_, hfinal, htotal, havailable⟩
  have hbalanced := (h upgradeRun.length).1
  rw [List.take_length, hfinal, htotal] at hbalanced
  revert hbalanced
  decide

end Kdapp.CommentBoard
