import Kdapp.CommentBoard.Wallet.Steps
import Kdapp.Library.Transition

/-! The inputs of the wallet's transactions, over any sequence of operations. -/

namespace Kdapp.CommentBoard
open InOrder Transition

variable [Crypto] [WalletCrates]

/-- The inputs of the transactions that were taken since the last refresh. -/
def spentAfter (spent : List TransactionOutpoint) : NodeEvent → List TransactionOutpoint
  | .submitted built (.ok ()) => spent ++ built.outpoints
  | .submitted _ (.error _) => spent
  | .refreshed _ => []

def spent (trace : List NodeEvent) : List TransactionOutpoint := trace.foldl spentAfter []

/-- No transaction is built on an input that was spent before, up to a refresh. -/
def FreshInputs (trace : List NodeEvent) : Prop :=
  Throughout (fun earlier event => ∀ built result, event = .submitted built result →
    ∀ outpoint ∈ built.outpoints, outpoint ∉ spent earlier) trace

abbrev Traced := UtxoLockManager × List NodeEvent

def Traced.perform (traced : Traced) (op : Operation) : Traced :=
  let (manager, events) := traced.1.perform op
  (manager, traced.2 ++ events)

/-- In the order of their amounts, others reach the bond and the fee before one that is spent. -/
def Traced.ReachesUnspent (traced : Traced) (bondAmount : UInt64) : Prop :=
  ReachedBefore (spent traced.2) (bondAmount + FEE).toNat 0
    (sortByAmount traced.1.availableUtxos)

/-- Where an operation gets to a transaction, it does not come upon a spent UTXO first. -/
def Traced.PicksUnspent (traced : Traced) : Operation → Prop
  | .lockUtxoForComment _ bondAmount _ _ _ =>
    ∀ u, traced.1.CanProve bondAmount u → u.1 ∉ spent traced.2
  | .createScriptBasedBond _ bondAmount lockDurationSeconds moderatorPubkeys
      requiredModeratorSignatures now _ =>
    traced.1.CanScript bondAmount lockDurationSeconds moderatorPubkeys requiredModeratorSignatures
      now → traced.ReachesUnspent bondAmount
  | .submitCommentWithBondPayload episodeMsg bondAmount lockDurationSeconds pattern prefixType
      useScriptBonds now _ _ _ _ =>
    ∀ built, traced.1.CanComment episodeMsg bondAmount lockDurationSeconds pattern prefixType
      useScriptBonds now built → traced.ReachesUnspent bondAmount
  | .upgradeBondToScriptBased commentId moderatorPubkeys requiredModeratorSignatures now now' _ =>
    ∀ existing, traced.1.CanUpgrade commentId moderatorPubkeys requiredModeratorSignatures now now'
      existing → traced.ReachesUnspent existing.bondAmount
  | .splitLargeUtxo maxUtxoSize targetChunkSize _ =>
    ∀ large, traced.1.CanSplit maxUtxoSize targetChunkSize large → large.1 ∉ spent traced.2
  | .unlockBond _ _ | .forfeitBond _ | .refreshUtxos _ => True

section Trace
variable {trace : List NodeEvent} {built : Built} {result : Except String Unit}

theorem spent_concat (event : NodeEvent) :
    spent (trace ++ [event]) = spentAfter (spent trace) event := by
  rw [spent, List.foldl_append]
  rfl

theorem freshInputs_submitted :
    FreshInputs (trace ++ [.submitted built result]) ↔
      FreshInputs trace ∧ ∀ outpoint ∈ built.outpoints, outpoint ∉ spent trace := by
  unfold FreshInputs
  rw [Throughout.concat]
  apply and_congr_right
  intro _
  constructor
  · intro h
    exact h built result rfl
  · intro h built' result' heq
    obtain ⟨rfl, -⟩ := NodeEvent.submitted.inj heq
    exact h

theorem freshInputs_refreshed {entries : List Utxo} :
    FreshInputs (trace ++ [.refreshed entries]) ↔ FreshInputs trace := by
  unfold FreshInputs
  rw [Throughout.concat]
  apply and_iff_left
  intro built result heq
  cases heq

end Trace

section Step
variable {traced : Traced} {built : Built} {manager : UtxoLockManager} {op : Operation}

theorem fresh_of_none (hfresh : FreshInputs traced.2) (h : traced.1.perform op = (manager, [])) :
    FreshInputs (traced.perform op).2 := by
  unfold Traced.perform
  rw [h]
  dsimp only
  rw [List.append_nil]
  exact hfresh

theorem fresh_iff_of_one (hfresh : FreshInputs traced.2) {answer : Except String Unit}
    (h : traced.1.perform op = (manager, [.submitted built answer])) :
    FreshInputs (traced.perform op).2 ↔
      ∀ outpoint ∈ built.outpoints, outpoint ∉ spent traced.2 := by
  unfold Traced.perform
  rw [h]
  exact freshInputs_submitted.trans (and_iff_right hfresh)

theorem fresh_singleton_iff {u : Utxo} (h : built.Spends [u]) {marked : List TransactionOutpoint} :
    (∀ outpoint ∈ built.outpoints, outpoint ∉ marked) ↔ u.1 ∉ marked := by
  rw [h.outpoints_eq, List.map_singleton, List.forall_mem_singleton]

theorem fresh_refused_iff {msg : String} {bondAmount : UInt64}
    {bondOutput : TransactionOutput Consensus.ScriptPublicKey} (hfresh : FreshInputs traced.2)
    (answer : Except String (List Utxo)) (hpays : traced.1.PaysBond bondOutput bondAmount built) :
    FreshInputs (traced.2 ++ [.submitted built (.error msg)] ++
        (traced.1.refreshUtxos answer).2.2) ↔ traced.ReachesUnspent bondAmount := by
  have hfirst : FreshInputs (traced.2 ++ [.submitted built (.error msg)]) ↔
      traced.ReachesUnspent bondAmount := by
    rw [freshInputs_submitted, and_iff_right hfresh]
    exact hpays.avoids_iff
  rw [← hfirst]
  cases answer with
  | error _ => exact iff_of_eq (congrArg FreshInputs (List.append_nil _))
  | ok entries => exact freshInputs_refreshed

theorem fresh_retry_iff {built' : Built} {result : Except String Unit} {msg : String}
    {bondAmount : UInt64} {bondOutput bondOutput' : TransactionOutput Consensus.ScriptPublicKey}
    (hfresh : FreshInputs traced.2) (answer : Except String (List Utxo))
    (hpays : traced.1.PaysBond bondOutput bondAmount built)
    (hpays' : (traced.1.refreshUtxos answer).1.PaysBond bondOutput' bondAmount built') :
    FreshInputs (traced.2 ++ [.submitted built (.error msg)] ++
        (traced.1.refreshUtxos answer).2.2 ++ [.submitted built' result]) ↔
      traced.ReachesUnspent bondAmount := by
  rw [freshInputs_submitted, fresh_refused_iff hfresh answer hpays]
  apply and_iff_left_of_imp
  intro hreaches
  cases answer with
  | error _ =>
    have hspent : spent (traced.2 ++ [.submitted built (.error msg)] ++ []) = spent traced.2 := by
      rw [List.append_nil, spent_concat]
      rfl
    change ∀ outpoint ∈ built'.outpoints,
      outpoint ∉ spent (traced.2 ++ [.submitted built (.error msg)] ++ [])
    rw [hspent]
    exact hpays'.avoids_iff.mpr hreaches
  | ok entries =>
    have hspent : spent (traced.2 ++ [.submitted built (.error msg)] ++ [.refreshed entries]) =
        [] := spent_concat _
    change ∀ outpoint ∈ built'.outpoints,
      outpoint ∉ spent (traced.2 ++ [.submitted built (.error msg)] ++ [.refreshed entries])
    rw [hspent]
    exact fun _ _ => List.not_mem_nil

theorem fresh_perform_iff (op : Operation) (hfresh : FreshInputs traced.2) :
    FreshInputs (traced.perform op).2 ↔ traced.PicksUnspent op := by
  cases op with
  | lockUtxoForComment commentId bondAmount lockDurationSeconds now answers =>
    rcases UtxoLockManager.lockUtxoForComment_cases commentId bondAmount lockDurationSeconds now
        answers with
      ⟨hcannot, hperform⟩ | ⟨u, built, manager', events, hprove, hproof, hposting, hperform⟩
    · exact iff_of_true (fresh_of_none hfresh hperform) (fun u hu => absurd hu (hcannot u))
    · rw [hposting.events_eq] at hperform
      rw [fresh_iff_of_one hfresh hperform, fresh_singleton_iff hproof.1]
      constructor
      · intro hu u' hu'
        have hsmallest := hu'.smallest
        rw [hprove.smallest] at hsmallest
        rwa [← Option.some.inj hsmallest]
      · intro hall
        exact hall u hprove
  | createScriptBasedBond commentId bondAmount lockDurationSeconds mods required now answer =>
    rcases UtxoLockManager.performScriptBond_cases commentId bondAmount lockDurationSeconds mods
        required now answer with
      ⟨hcannot, hperform⟩ | ⟨spk, built, manager', events, hscript, hpays, hposting, hperform⟩
    · exact iff_of_true (fresh_of_none hfresh hperform) (fun hscript => absurd hscript hcannot)
    · rw [hposting.events_eq] at hperform
      rw [fresh_iff_of_one hfresh hperform, hpays.avoids_iff]
      exact ⟨fun hreaches _ => hreaches, fun hall => hall hscript⟩
  | submitCommentWithBondPayload episodeMsg bondAmount lockDurationSeconds pattern prefixType
      useScriptBonds now now' answers answers' refreshAnswer =>
    rcases UtxoLockManager.submitComment_cases traced.1 episodeMsg bondAmount lockDurationSeconds
        pattern prefixType useScriptBonds now now' answers answers' refreshAnswer with
      ⟨hcannot, hperform⟩ |
      ⟨built, hcomment, ⟨-, hperform⟩ | ⟨msg, tail, -, -, hperform, htail⟩⟩
    · exact iff_of_true (fresh_of_none hfresh hperform)
        (fun built hbuilt => absurd hbuilt (hcannot built))
    -- what is asked of the coins does not depend on the transaction that comes out
    all_goals
      have hall : traced.PicksUnspent (.submitCommentWithBondPayload episodeMsg bondAmount
          lockDurationSeconds pattern prefixType useScriptBonds now now' answers answers'
          refreshAnswer) ↔ traced.ReachesUnspent bondAmount :=
        ⟨fun hall => hall built hcomment, fun hreaches _ _ => hreaches⟩
    · rw [fresh_iff_of_one hfresh hperform, hcomment.paysBond.avoids_iff, hall]
      rfl
    · rw [hall]
      unfold Traced.perform
      rw [hperform]
      dsimp only
      rw [List.append_cons, ← List.append_assoc]
      -- an orphan: the refresh ends what was spent, and the second attempt starts anew
      rcases htail with rfl | ⟨built', result, rfl, hcomment'⟩
      · rw [List.append_nil]
        exact fresh_refused_iff hfresh refreshAnswer hcomment.paysBond
      · exact fresh_retry_iff hfresh refreshAnswer hcomment.paysBond hcomment'.paysBond
  | unlockBond commentId now =>
    refine iff_of_true ?_ trivial
    rcases UtxoLockManager.releases_cases (.inl ⟨now, rfl⟩) with hperform | ⟨_, -, hperform⟩ <;>
      exact fresh_of_none hfresh hperform
  | forfeitBond commentId =>
    refine iff_of_true ?_ trivial
    rcases UtxoLockManager.releases_cases (.inr rfl) with hperform | ⟨_, -, hperform⟩ <;>
      exact fresh_of_none hfresh hperform
  | upgradeBondToScriptBased commentId mods required now now' answer =>
    rcases UtxoLockManager.upgradeBondToScriptBased_cases commentId mods required now now' answer
      with ⟨hcannot, hperform⟩ |
        ⟨existing, spk, built, manager', events, hupgrade, hpays, hposting, hperform⟩
    · exact iff_of_true (fresh_of_none hfresh hperform)
        (fun existing hexisting => absurd hexisting (hcannot existing))
    · rw [hposting.events_eq] at hperform
      rw [fresh_iff_of_one hfresh hperform, hpays.avoids_iff]
      constructor
      · intro hreaches existing' hupgrade'
        -- there is one bond under the id
        rw [hupgrade'.unique hupgrade.locked]
        exact hreaches
      · intro hall
        exact hall existing hupgrade
  | splitLargeUtxo maxUtxoSize targetChunkSize answers =>
    rcases UtxoLockManager.splitLargeUtxo_cases maxUtxoSize targetChunkSize answers with
      ⟨hcannot, hperform⟩ | ⟨large, built, hsplit, hspends, -, hperform⟩
    · exact iff_of_true (fresh_of_none hfresh hperform)
        (fun large hlarge => absurd hlarge (hcannot large))
    · rw [fresh_iff_of_one hfresh hperform, fresh_singleton_iff hspends]
      constructor
      · intro hlarge large' hsplit'
        have hfound := hsplit'.1
        rw [hsplit.1] at hfound
        rwa [← Option.some.inj hfound]
      · intro hall
        exact hall large hsplit
  | refreshUtxos answer =>
    refine iff_of_true ?_ trivial
    cases answer with
    | error msg => exact fresh_of_none hfresh rfl
    | ok entries => exact freshInputs_refreshed.mpr hfresh

end Step

/-- No spent input is picked again before a refresh, all through a sequence of operations, exactly
if none of them comes upon a spent UTXO first. -/
theorem spent_not_reselected_iff (entries : List Utxo) (kaspaAddress : Consensus.Address)
    (keypair : Consensus.Keypair) (ops : List Operation) :
    Always Traced.perform (.new entries kaspaAddress keypair, [])
        (fun traced => FreshInputs traced.2) ops ↔
      Throughout (fun earlier op => Traced.PicksUnspent
        (after Traced.perform (.new entries kaspaAddress keypair, []) earlier) op) ops := by
  have hnew : FreshInputs (UtxoLockManager.new entries kaspaAddress keypair, []).2 :=
    Throughout.nil
  exact always_iff_throughout (P := fun traced : Traced => FreshInputs traced.2)
    (Q := fun _ => True) hnew trivial (fun _ _ _ _ _ => trivial)
    (fun _ op h _ => fresh_perform_iff op h) ops

end Kdapp.CommentBoard

namespace Kdapp.CommentBoard
open Transition
attribute [local instance] idealCrypto plainCrates

def doubleRun : List Operation := [
  .lockUtxoForComment 1 20000 600 1756000000 fun _ => .ok (),
  .lockUtxoForComment 2 20000 600 1756000001 fun _ => .ok ()]

def doubleWallet : UtxoLockManager :=
  .new [(⟨Hash.filled 1, 0⟩, ⟨50000, [], 5, false⟩)] () (7 : UInt8)

theorem proof_input_reselected :
    ¬ Always Traced.perform (doubleWallet, []) (fun traced => FreshInputs traced.2) doubleRun := by
  intro h
  have hfresh := h 2 1 _ rfl _ _ rfl ⟨Hash.filled 1, 0⟩ List.mem_cons_self
  revert hfresh
  decide +kernel

end Kdapp.CommentBoard
