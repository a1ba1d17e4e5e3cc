import Kdapp.CommentBoard.Wallet.Selection

/-! The operations of the wallet as steps: when one gets to a transaction, and what it leaves. -/

namespace Kdapp.CommentBoard
open Std (ExtTreeMap)

variable [Crypto] [WalletCrates]

/-- A method with its arguments and with what the clock and the node tell it. -/
inductive Operation where
  | lockUtxoForComment (commentId bondAmount lockDurationSeconds now : UInt64) (answers : Answers)
  | createScriptBasedBond (commentId bondAmount lockDurationSeconds : UInt64)
    (moderatorPubkeys : Option (List PubKey)) (requiredModeratorSignatures : Option UInt64)
    (now : UInt64) (answer : Except String Unit)
  | submitCommentWithBondPayload (episodeMsg : EpisodeMessage ContractCommentBoard)
    (bondAmount lockDurationSeconds : UInt64) (pattern : PatternType) (prefixType : PrefixType)
    (useScriptBonds : Bool) (now now' : UInt64) (answers answers' : Answers)
    (refreshAnswer : Except String (List Utxo))
  | unlockBond (commentId now : UInt64)
  | forfeitBond (commentId : UInt64)
  | upgradeBondToScriptBased (commentId : UInt64) (moderatorPubkeys : Option (List PubKey))
    (requiredModeratorSignatures : Option UInt64) (now now' : UInt64)
    (answer : Except String Unit)
  | splitLargeUtxo (maxUtxoSize targetChunkSize : UInt64) (answers : Answers)
  | refreshUtxos (answer : Except String (List Utxo))

namespace UtxoLockManager
variable (self : UtxoLockManager)

/-- The manager afterwards, and what passed between it and the node. -/
def Outcome.settled {α : Type} (outcome : Outcome α) : UtxoLockManager × List NodeEvent :=
  (outcome.1, outcome.2.2)

def perform : Operation → UtxoLockManager × List NodeEvent
  | .lockUtxoForComment commentId bondAmount lockDurationSeconds now answers =>
    (self.lockUtxoForComment commentId bondAmount lockDurationSeconds now answers).settled
  | .createScriptBasedBond commentId bondAmount lockDurationSeconds moderatorPubkeys
      requiredModeratorSignatures now answer =>
    (self.createScriptBasedBond commentId bondAmount lockDurationSeconds moderatorPubkeys
      requiredModeratorSignatures now answer).settled
  | .submitCommentWithBondPayload episodeMsg bondAmount lockDurationSeconds pattern prefixType
      useScriptBonds now now' answers answers' refreshAnswer =>
    (self.submitCommentWithBondPayload episodeMsg bondAmount lockDurationSeconds pattern prefixType
      useScriptBonds now now' answers answers' refreshAnswer).settled
  | .unlockBond commentId now => (self.unlockBond commentId now).settled
  | .forfeitBond commentId => (self.forfeitBond commentId).settled
  | .upgradeBondToScriptBased commentId moderatorPubkeys requiredModeratorSignatures now now'
      answer =>
    (self.upgradeBondToScriptBased commentId moderatorPubkeys requiredModeratorSignatures now now'
      answer).settled
  | .splitLargeUtxo maxUtxoSize targetChunkSize answers =>
    (self.splitLargeUtxo maxUtxoSize targetChunkSize answers).settled
  | .refreshUtxos answer => (self.refreshUtxos answer).settled

def addBond (lockedUtxo : LockedUtxo) : UtxoLockManager :=
  { self with
    pendingBonds :=
      self.pendingBonds.insert lockedUtxo.commentId lockedUtxo.bondTransactionId
    lockedUtxos := self.lockedUtxos.insert lockedUtxo.commentId lockedUtxo
    totalLockedBalance := self.totalLockedBalance + lockedUtxo.bondAmount }

/-- `lock_utxo_for_comment` spends this UTXO: the smallest one that suffices leaves a fee behind
the proof and is below the limit of the mass. -/
structure CanProve (manager : UtxoLockManager) (bondAmount : UInt64) (u : Utxo) : Prop where
  affordable : manager.canAffordBond bondAmount = true
  smallest : smallestSuitable (FEE * 2 + 1000) none manager.availableUtxos = some u
  large : 15000 ≤ u.2.amount.toNat
  small : u.2.amount.toNat ≤ 100000

/-- `create_script_based_bond` gets to a transaction. -/
structure CanScript (manager : UtxoLockManager) (bondAmount lockDurationSeconds : UInt64)
    (moderatorPubkeys : Option (List PubKey)) (requiredModeratorSignatures : Option UInt64)
    (now : UInt64) : Prop where
  affordable : manager.canAffordBond bondAmount = true
  valid : validateScriptConditions (manager.scriptCondition (now + lockDurationSeconds)
    moderatorPubkeys requiredModeratorSignatures) now = .ok ()
  funded : (bondAmount + FEE).toNat ≤ amounts manager.availableUtxos

/-- A transaction that backs a bond is submitted; the bond is recorded if the node takes it, and
it spends anything. -/
inductive Posting (commentId bondAmount : UInt64) (built : Built) :
    Except String Unit → UtxoLockManager → List NodeEvent → Prop
  | refused (msg : String) :
    Posting commentId bondAmount built (.error msg) self [.submitted built (.error msg)]
  | recorded (lockedUtxo : LockedUtxo) (hid : lockedUtxo.commentId = commentId)
    (hbond : lockedUtxo.bondAmount = bondAmount) (hinputs : built.inputs ≠ []) :
    Posting commentId bondAmount built (.ok ()) (self.addBond lockedUtxo)
      [.submitted built (.ok ())]
  | lost (hinputs : built.inputs = []) :
    Posting commentId bondAmount built (.ok ()) self [.submitted built (.ok ())]

/-- The bond is taken off the books, its amount stays in the total. -/
def dropBond (commentId : UInt64) : UtxoLockManager :=
  { self with
    lockedUtxos := self.lockedUtxos.erase commentId
    pendingBonds := self.pendingBonds.erase commentId }

/-- The bond is taken off the books and its amount out of the total. -/
def release (lockedUtxo : LockedUtxo) (commentId : UInt64) : UtxoLockManager :=
  { self with
    lockedUtxos := self.lockedUtxos.erase commentId
    totalLockedBalance := self.totalLockedBalance - lockedUtxo.bondAmount }

/-- `upgrade_bond_to_script_based` gets to a transaction. -/
structure CanUpgrade (manager : UtxoLockManager) (commentId : UInt64)
    (moderatorPubkeys : Option (List PubKey)) (requiredModeratorSignatures : Option UInt64)
    (now now' : UInt64) (existing : LockedUtxo) : Prop where
  locked : manager.lockedUtxos[commentId]? = some existing
  applicationLayer : ∃ proof, existing.enforcementLevel = .applicationLayer proof
  scriptable : manager.CanScript existing.bondAmount
    (remainingLockTime existing.unlockConditions now) moderatorPubkeys
    requiredModeratorSignatures now'

/-- `submit_comment_with_bond_payload` gets to this transaction. -/
def CanComment (episodeMsg : EpisodeMessage ContractCommentBoard)
    (bondAmount lockDurationSeconds : UInt64) (pattern : PatternType) (prefixType : PrefixType)
    (useScriptBonds : Bool) (now : UInt64) (built : Built) : Prop :=
  ∃ inner, EpisodeMessage.codec.serialize episodeMsg = some inner ∧
    self.commentTransaction inner bondAmount lockDurationSeconds pattern prefixType useScriptBonds
      now = .ok built

/-- `split_large_utxo` spends this UTXO. -/
def CanSplit (maxUtxoSize targetChunkSize : UInt64) (large : Utxo) : Prop :=
  (self.availableUtxos.find? fun u => decide (u.2.amount > maxUtxoSize)) = some large ∧
    targetChunkSize + 1000 < Saturating.sub large.2.amount FEE

/-- The node reports an orphan, which is answered with a refresh and a second attempt. -/
def Orphaned (answers : Answers) : Prop :=
  ∃ msg, submitWithRetry answers = .error msg ∧ contains msg "orphan" = true

variable {self} {built : Built}

theorem Posting.events_eq {commentId bondAmount : UInt64} {answer : Except String Unit}
    {self' : UtxoLockManager} {events : List NodeEvent}
    (h : self.Posting commentId bondAmount built answer self' events) :
    events = [.submitted built answer] := by
  cases h <;> rfl

section Selection
variable {bondOutput : TransactionOutput Consensus.ScriptPublicKey} {bondAmount : UInt64}

theorem selection_funded_iff : bondAmount + FEE ≤
      (selectInputs (bondAmount + FEE) 0 (sortByAmount self.availableUtxos)).2 ↔
    (bondAmount + FEE).toNat ≤ amounts self.availableUtxos := by
  rw [selectInputs_reaches_iff, amounts_sortByAmount, UInt64.toNat_zero, Nat.zero_add]

theorem scriptBondTransaction_cases (self : UtxoLockManager) (commentId bondAmount : UInt64)
    (scriptPubkey : Consensus.ScriptPublicKey) :
    (amounts self.availableUtxos < (bondAmount + FEE).toNat ∧
      self.scriptBondTransaction commentId bondAmount scriptPubkey = .error .noUtxosForBond) ∨
    ((bondAmount + FEE).toNat ≤ amounts self.availableUtxos ∧
      ∃ built, self.scriptBondTransaction commentId bondAmount scriptPubkey = .ok built) := by
  rw [← Nat.not_le, ← selection_funded_iff]
  unfold scriptBondTransaction
  rcases hselect : selectInputs (bondAmount + FEE) 0 (sortByAmount self.availableUtxos)
    with ⟨selected, total⟩
  dsimp only
  rw [hselect]
  by_cases hshort : total < bondAmount + FEE
  · exact .inl ⟨UInt64.not_le.mpr hshort, if_pos hshort⟩
  · exact .inr ⟨UInt64.not_lt.mp hshort, _, if_neg hshort⟩

theorem commentTransaction_cases (self : UtxoLockManager) (inner : Borsh.Bytes)
    (bondAmount lockDurationSeconds : UInt64) (pattern : PatternType) (prefixType : PrefixType)
    (useScriptBonds : Bool) (now : UInt64) :
    (amounts self.availableUtxos < (bondAmount + FEE).toNat ∧
      self.commentTransaction inner bondAmount lockDurationSeconds pattern prefixType
        useScriptBonds now = .error .noUtxosForComment) ∨
    ((bondAmount + FEE).toNat ≤ amounts self.availableUtxos ∧
      (self.commentTransaction inner bondAmount lockDurationSeconds pattern prefixType
          useScriptBonds now = .error .nonceOverflow ∨
        ∃ built, self.commentTransaction inner bondAmount lockDurationSeconds pattern prefixType
          useScriptBonds now = .ok built)) := by
  rw [← Nat.not_le, ← selection_funded_iff]
  unfold commentTransaction
  rcases hselect : selectInputs (bondAmount + FEE) 0 (sortByAmount self.availableUtxos)
    with ⟨selected, total⟩
  dsimp only
  rw [hselect]
  dsimp only
  by_cases hshort : total < bondAmount + FEE
  · exact .inl ⟨UInt64.not_le.mpr hshort, if_pos hshort⟩
  · refine .inr ⟨UInt64.not_lt.mp hshort, ?_⟩
    rw [if_neg hshort]
    split
    · exact .inl rfl
    · exact .inr ⟨_, rfl⟩

theorem PaysBond.funded (h : self.PaysBond bondOutput bondAmount built) :
    (bondAmount + FEE).toNat ≤ amounts self.availableUtxos := by
  obtain ⟨inputs, total, hselect, htotal, -, -⟩ := h
  rw [← selection_funded_iff, hselect]
  exact htotal

theorem PaysBond.avoids_iff {marked : List TransactionOutpoint}
    (h : self.PaysBond bondOutput bondAmount built) :
    (∀ op ∈ built.outpoints, op ∉ marked) ↔
      ReachedBefore marked (bondAmount + FEE).toNat 0 (sortByAmount self.availableUtxos) := by
  obtain ⟨inputs, total, hselect, -, hspends, -⟩ := h
  have hiff : (∀ u ∈ (selectInputs (bondAmount + FEE) 0
      (sortByAmount self.availableUtxos)).1, u.1 ∉ marked) ↔ _ := selectInputs_avoids_iff
  rw [hselect] at hiff
  rw [hspends.outpoints_eq, List.forall_mem_map]
  exact hiff

end Selection

theorem createBondScriptPubkey_of_valid {condition : ScriptUnlockCondition} {now : UInt64}
    (h : validateScriptConditions condition now = .ok ()) :
    ∃ spk, createBondScriptPubkey condition = .ok spk := by
  unfold createBondScriptPubkey
  cases condition with
  | timeLock time pk => exact ⟨_, rfl⟩
  | moderatorRelease pk mods required =>
    have hle := (validate_moderatorRelease h).2
    rw [createBondScript, createModeratorMultisigScript_of_le hle]
    exact ⟨_, rfl⟩
  | timeOrModerator time pk mods required =>
    have hle := validate_timeOrModerator h
    rw [createBondScript, createCombinedUnlockScript, createModeratorMultisigScript_of_le hle]
    exact ⟨_, rfl⟩

omit [Crypto] [WalletCrates] in
theorem fee_le_change_iff {amount : UInt64} (h : FEE * 2 + 1000 ≤ amount) :
    FEE ≤ amount - FEE * 2 ↔ 15000 ≤ amount.toNat := by
  have hmin : 11000 ≤ amount.toNat := UInt64.le_iff_toNat_le.mp h
  have hproof : FEE * 2 ≤ amount := UInt64.le_iff_toNat_le.mpr (show 10000 ≤ amount.toNat by omega)
  rw [UInt64.le_iff_toNat_le, UInt64.toNat_sub_of_le _ _ hproof]
  change 5000 ≤ amount.toNat - 10000 ↔ _
  omega

/-- The transaction that `lock_utxo_for_comment` submits. -/
def ProofTransaction (self : UtxoLockManager) (u : Utxo) (built : Built) : Prop :=
  built.Spends [u] ∧
    built.tx.outputs = [self.payToSelf (FEE * 2), self.payToSelf (u.2.amount - FEE * 2)]

theorem lockUtxoForComment_cases
    (commentId bondAmount lockDurationSeconds now : UInt64) (answers : Answers) :
    ((∀ u, ¬ self.CanProve bondAmount u) ∧ self.perform (.lockUtxoForComment commentId bondAmount
        lockDurationSeconds now answers) = (self, [])) ∨
    ∃ u built self' events, self.CanProve bondAmount u ∧ self.ProofTransaction u built ∧
      self.Posting commentId bondAmount built (submitWithRetry answers) self' events ∧
      self.perform (.lockUtxoForComment commentId bondAmount lockDurationSeconds now answers) =
        (self', events) := by
  unfold perform lockUtxoForComment
  dsimp only
  by_cases hafford : self.canAffordBond bondAmount = false
  · rw [if_pos hafford]
    refine .inl ⟨fun u hu => ?_, rfl⟩
    rw [hu.affordable] at hafford
    cases hafford
  rw [if_neg hafford]
  cases hsmallest : smallestSuitable (FEE * 2 + 1000) none self.availableUtxos with
  | none =>
    refine .inl ⟨fun u hu => ?_, rfl⟩
    have hsome := hu.smallest
    rw [hsmallest] at hsome
    cases hsome
  | some u =>
    -- the choice of the UTXO is a function of what is available: there is no other candidate
    have hunique : ∀ u', self.CanProve bondAmount u' → u' = u := by
      intro u' hu'
      have hsome := hu'.smallest
      rw [hsmallest] at hsome
      exact (Option.some.inj hsome).symm
    -- keeps the subtraction of the fee from wrapping
    have hmin : FEE * 2 + 1000 ≤ u.2.amount :=
      smallestSuitable_ge (fun b hb => by cases hb) hsmallest
    dsimp only
    by_cases hmass : u.2.amount > 100000
    · rw [if_pos hmass]
      refine .inl ⟨fun u' hu' => ?_, rfl⟩
      obtain rfl := hunique u' hu'
      have hlarge : 100000 < u'.2.amount.toNat := UInt64.lt_iff_toNat_lt.mp hmass
      have hsmall := hu'.small
      omega
    rw [if_neg hmass]
    have hsmall : u.2.amount.toNat ≤ 100000 := UInt64.le_iff_toNat_le.mp (UInt64.not_lt.mp hmass)
    cases hbuilt : self.createBondTransaction commentId bondAmount u with
    | error e =>
      refine .inl ⟨fun u' hu' => ?_, rfl⟩
      obtain rfl := hunique u' hu'
      have hfee := (fee_le_change_iff hmin).mpr hu'.large
      unfold createBondTransaction at hbuilt
      dsimp only at hbuilt
      rw [if_neg (UInt64.not_lt.mpr hfee)] at hbuilt
      cases hbuilt
    | ok built =>
      obtain ⟨hfee, hspends, houtputs⟩ := createBondTransaction_ok hbuilt
      have hprove : self.CanProve bondAmount u :=
        ⟨Bool.eq_true_of_not_eq_false hafford, hsmallest, (fee_le_change_iff hmin).mp hfee, hsmall⟩
      refine .inr ⟨u, built, _, _, hprove, ⟨hspends, houtputs⟩, ?_, rfl⟩
      dsimp only
      cases submitWithRetry answers with
      | error msg => exact .refused msg
      | ok _ =>
        have hinputs : built.inputs ≠ [] := by
          rw [hspends.inputs_eq]
          exact List.cons_ne_nil _ _
        exact .recorded (self.provenBond commentId bondAmount now (now + lockDurationSeconds) u _)
          rfl rfl hinputs

theorem createScriptBasedBond_cases (self : UtxoLockManager)
    (commentId bondAmount lockDurationSeconds : UInt64)
    (moderatorPubkeys : Option (List PubKey)) (requiredModeratorSignatures : Option UInt64)
    (now : UInt64) (answer : Except String Unit) :
    (¬ self.CanScript bondAmount lockDurationSeconds moderatorPubkeys requiredModeratorSignatures
        now ∧ ∃ e, self.createScriptBasedBond commentId bondAmount lockDurationSeconds
          moderatorPubkeys requiredModeratorSignatures now answer = (self, .error e, [])) ∨
    ∃ spk built self' result events,
      self.CanScript bondAmount lockDurationSeconds moderatorPubkeys requiredModeratorSignatures
        now ∧
      self.PaysBond { value := bondAmount, scriptPublicKey := spk } bondAmount built ∧
      self.Posting commentId bondAmount built answer self' events ∧
      (result.isOk = true ↔ answer = .ok () ∧ built.inputs ≠ []) ∧
      self.createScriptBasedBond commentId bondAmount lockDurationSeconds moderatorPubkeys
        requiredModeratorSignatures now answer = (self', result, events) := by
  unfold createScriptBasedBond
  by_cases hafford : self.canAffordBond bondAmount = false
  · rw [if_pos hafford]
    refine .inl ⟨fun h => ?_, _, rfl⟩
    rw [h.affordable] at hafford
    cases hafford
  rw [if_neg hafford]
  dsimp only
  cases hvalid : validateScriptConditions (self.scriptCondition (now + lockDurationSeconds)
      moderatorPubkeys requiredModeratorSignatures) now with
  | error reason =>
    refine .inl ⟨fun h => ?_, _, rfl⟩
    rw [h.valid] at hvalid
    cases hvalid
  | ok _ =>
    obtain ⟨spk, hspk⟩ := createBondScriptPubkey_of_valid hvalid
    rw [hspk]
    dsimp only
    cases hbuilt : self.scriptBondTransaction commentId bondAmount spk with
    | error e =>
      refine .inl ⟨fun h => ?_, _, rfl⟩
      rcases self.scriptBondTransaction_cases commentId bondAmount spk with
        ⟨hshort, -⟩ | ⟨-, built, hok⟩
      · exact Nat.not_lt.mpr h.funded hshort
      · rw [hok] at hbuilt
        cases hbuilt
    | ok built =>
      have hpays := scriptBondTransaction_ok hbuilt
      have hscript : self.CanScript bondAmount lockDurationSeconds moderatorPubkeys
          requiredModeratorSignatures now :=
        ⟨Bool.eq_true_of_not_eq_false hafford, hvalid, hpays.funded⟩
      refine .inr ⟨spk, built, _, _, _, hscript, hpays, ?_, ?_, rfl⟩
      · cases answer with
        | error msg => exact .refused msg
        | ok _ =>
          split
          · rename_i first rest _ hinputs
            exact .recorded (self.scriptBond commentId bondAmount now (now + lockDurationSeconds)
              first _ spk _) rfl rfl (by rw [hinputs]; exact List.cons_ne_nil _ _)
          · rename_i hanswer
            cases hanswer
          · rename_i hinputs
            exact .lost hinputs
      · cases answer with
        | error msg => exact iff_of_false Bool.false_ne_true (fun h => by cases h.1)
        | ok _ =>
          split
          · rename_i first rest _ hinputs
            exact iff_of_true rfl ⟨rfl, by rw [hinputs]; exact List.cons_ne_nil _ _⟩
          · rename_i hanswer
            cases hanswer
          · rename_i hinputs
            exact iff_of_false Bool.false_ne_true (fun h => h.2 hinputs)

theorem performScriptBond_cases (commentId bondAmount lockDurationSeconds : UInt64)
    (moderatorPubkeys : Option (List PubKey)) (requiredModeratorSignatures : Option UInt64)
    (now : UInt64) (answer : Except String Unit) :
    (¬ self.CanScript bondAmount lockDurationSeconds moderatorPubkeys requiredModeratorSignatures
        now ∧ self.perform (.createScriptBasedBond commentId bondAmount lockDurationSeconds
          moderatorPubkeys requiredModeratorSignatures now answer) = (self, [])) ∨
    ∃ spk built self' events,
      self.CanScript bondAmount lockDurationSeconds moderatorPubkeys requiredModeratorSignatures
        now ∧
      self.PaysBond { value := bondAmount, scriptPublicKey := spk } bondAmount built ∧
      self.Posting commentId bondAmount built answer self' events ∧
      self.perform (.createScriptBasedBond commentId bondAmount lockDurationSeconds
        moderatorPubkeys requiredModeratorSignatures now answer) = (self', events) := by
  rcases createScriptBasedBond_cases self commentId bondAmount lockDurationSeconds
      moderatorPubkeys requiredModeratorSignatures now answer with
    ⟨hcannot, e, hcreate⟩ |
    ⟨spk, built, self', result, events, hscript, hpays, hposting, -, hcreate⟩
  · exact .inl ⟨hcannot, congrArg Outcome.settled hcreate⟩
  · exact .inr ⟨spk, built, self', events, hscript, hpays, hposting,
      congrArg Outcome.settled hcreate⟩

theorem CanUpgrade.unique {commentId now now' : UInt64} {moderatorPubkeys : Option (List PubKey)}
    {requiredModeratorSignatures : Option UInt64} {existing existing' : LockedUtxo}
    (h : self.CanUpgrade commentId moderatorPubkeys requiredModeratorSignatures now now' existing)
    (hlocked : self.lockedUtxos[commentId]? = some existing') : existing = existing' := by
  have hsome := h.locked
  rw [hlocked] at hsome
  exact (Option.some.inj hsome).symm

theorem upgradeBondToScriptBased_cases (commentId : UInt64)
    (moderatorPubkeys : Option (List PubKey)) (requiredModeratorSignatures : Option UInt64)
    (now now' : UInt64) (answer : Except String Unit) :
    ((∀ existing, ¬ self.CanUpgrade commentId moderatorPubkeys requiredModeratorSignatures now now'
        existing) ∧ self.perform (.upgradeBondToScriptBased commentId moderatorPubkeys
          requiredModeratorSignatures now now' answer) = (self, [])) ∨
    ∃ existing spk built self' events,
      self.CanUpgrade commentId moderatorPubkeys requiredModeratorSignatures now now' existing ∧
      self.PaysBond { value := existing.bondAmount, scriptPublicKey := spk } existing.bondAmount
        built ∧
      self.Posting (commentId + 1000000) existing.bondAmount built answer self' events ∧
      self.perform (.upgradeBondToScriptBased commentId moderatorPubkeys
          requiredModeratorSignatures now now' answer) =
        (if answer = .ok () ∧ built.inputs ≠ [] then self'.dropBond commentId else self',
          events) := by
  unfold perform upgradeBondToScriptBased
  dsimp only
  cases hlocked : self.lockedUtxos[commentId]? with
  | none =>
    refine .inl ⟨fun existing h => ?_, rfl⟩
    have hsome := h.locked
    rw [hlocked] at hsome
    cases hsome
  | some existing =>
    dsimp only
    cases hlevel : existing.enforcementLevel with
    | scriptBased spk condition =>
      refine .inl ⟨fun existing' h => ?_, rfl⟩
      obtain ⟨proof, hproof⟩ := h.applicationLayer
      rw [h.unique hlocked, hlevel] at hproof
      cases hproof
    | applicationLayer proof =>
      rcases createScriptBasedBond_cases self (commentId + 1000000) existing.bondAmount
          (remainingLockTime existing.unlockConditions now) moderatorPubkeys
          requiredModeratorSignatures now' answer with
        ⟨hcannot, e, hcreate⟩ |
        ⟨spk, built, self', result, events, hscript, hpays, hposting, hresult, hcreate⟩
      · rw [hcreate]
        refine .inl ⟨fun existing' h => ?_, rfl⟩
        have hscriptable := h.scriptable
        rw [h.unique hlocked] at hscriptable
        exact hcannot hscriptable
      · rw [hcreate]
        refine .inr ⟨existing, spk, built, self', events, ⟨hlocked, ⟨proof, hlevel⟩, hscript⟩,
          hpays, hposting, ?_⟩
        cases result with
        | error e =>
          rw [if_neg fun h => Bool.false_ne_true (hresult.mpr h)]
          rfl
        | ok txId =>
          rw [if_pos (hresult.mp rfl)]
          rfl

theorem splitLargeUtxo_cases (maxUtxoSize targetChunkSize : UInt64) (answers : Answers) :
    ((∀ large, ¬ self.CanSplit maxUtxoSize targetChunkSize large) ∧
      self.perform (.splitLargeUtxo maxUtxoSize targetChunkSize answers) = (self, [])) ∨
    ∃ large built, self.CanSplit maxUtxoSize targetChunkSize large ∧ built.Spends [large] ∧
      built.tx.outputs = [self.payToSelf targetChunkSize,
        self.payToSelf (Saturating.sub large.2.amount FEE - targetChunkSize)] ∧
      self.perform (.splitLargeUtxo maxUtxoSize targetChunkSize answers) =
        (if submitWithRetry answers = .ok () then
          { self with
            availableUtxos := self.availableUtxos.filter fun u => decide (u.1 ≠ large.1) }
        else self, [.submitted built (submitWithRetry answers)]) := by
  unfold perform splitLargeUtxo
  dsimp only
  cases hlarge : self.availableUtxos.find? fun u => decide (u.2.amount > maxUtxoSize) with
  | none =>
    refine .inl ⟨fun large h => ?_, rfl⟩
    have hsome := h.1
    rw [hlarge] at hsome
    cases hsome
  | some large =>
    dsimp only
    cases hbuilt : self.splitTransaction targetChunkSize large with
    | error e =>
      refine .inl ⟨fun large' h => ?_, rfl⟩
      have hsome := h.1
      rw [hlarge] at hsome
      obtain rfl := Option.some.inj hsome
      unfold splitTransaction at hbuilt
      dsimp only at hbuilt
      rw [if_neg (UInt64.not_le.mpr h.2)] at hbuilt
      cases hbuilt
    | ok built =>
      obtain ⟨hsize, hspends, houtputs⟩ := splitTransaction_ok hbuilt
      refine .inr ⟨large, built, ⟨hlarge, hsize⟩, hspends, houtputs, ?_⟩
      cases submitWithRetry answers with
      | error msg => rfl
      | ok _ => rfl

theorem CanComment.paysBond {episodeMsg : EpisodeMessage ContractCommentBoard}
    {bondAmount lockDurationSeconds : UInt64} {pattern : PatternType} {prefixType : PrefixType}
    {useScriptBonds : Bool} {now : UInt64}
    (h : self.CanComment episodeMsg bondAmount lockDurationSeconds pattern prefixType
      useScriptBonds now built) :
    self.PaysBond (self.commentBondOutput bondAmount (now + lockDurationSeconds) useScriptBonds)
      bondAmount built := by
  obtain ⟨inner, -, hbuilt⟩ := h
  exact commentTransaction_ok hbuilt

theorem retryComment_cases (self : UtxoLockManager)
    (transaction : UtxoLockManager → Except WalletError Built) (answers : Answers)
    (refreshAnswer : Except String (List Utxo)) :
    ∃ tail, (self.retryComment transaction answers refreshAnswer).settled =
        ((self.refreshUtxos refreshAnswer).1, (self.refreshUtxos refreshAnswer).2.2 ++ tail) ∧
      (tail = [] ∨ ∃ built result, tail = [.submitted built result] ∧
        transaction (self.refreshUtxos refreshAnswer).1 = .ok built) := by
  unfold retryComment
  rcases hrefresh : self.refreshUtxos refreshAnswer with ⟨manager, result, events⟩
  dsimp only
  cases hbuilt : transaction manager with
  | error e =>
    refine ⟨[], ?_, .inl rfl⟩
    rw [List.append_nil]
    rfl
  | ok built =>
    refine ⟨[.submitted built (submitWithRetry answers)], ?_, .inr ⟨built, _, rfl, rfl⟩⟩
    dsimp only
    cases submitWithRetry answers with
    | error msg => rfl
    | ok _ => rfl

theorem submitComment_cases (self : UtxoLockManager)
    (episodeMsg : EpisodeMessage ContractCommentBoard) (bondAmount lockDurationSeconds : UInt64)
    (pattern : PatternType) (prefixType : PrefixType) (useScriptBonds : Bool) (now now' : UInt64)
    (answers answers' : Answers) (refreshAnswer : Except String (List Utxo)) :
    ((∀ built, ¬ self.CanComment episodeMsg bondAmount lockDurationSeconds pattern prefixType
        useScriptBonds now built) ∧
      self.perform (.submitCommentWithBondPayload episodeMsg bondAmount lockDurationSeconds pattern
        prefixType useScriptBonds now now' answers answers' refreshAnswer) = (self, [])) ∨
    ∃ built, self.CanComment episodeMsg bondAmount lockDurationSeconds pattern prefixType
        useScriptBonds now built ∧
      (¬ Orphaned answers ∧
        self.perform (.submitCommentWithBondPayload episodeMsg bondAmount lockDurationSeconds
          pattern prefixType useScriptBonds now now' answers answers' refreshAnswer) =
            (self, [.submitted built (submitWithRetry answers)]) ∨
      ∃ msg tail, submitWithRetry answers = .error msg ∧ Orphaned answers ∧
        self.perform (.submitCommentWithBondPayload episodeMsg bondAmount lockDurationSeconds
          pattern prefixType useScriptBonds now now' answers answers' refreshAnswer) =
            ((self.refreshUtxos refreshAnswer).1,
              .submitted built (.error msg) :: ((self.refreshUtxos refreshAnswer).2.2 ++ tail)) ∧
        (tail = [] ∨ ∃ built' result, tail = [.submitted built' result] ∧
          (self.refreshUtxos refreshAnswer).1.CanComment episodeMsg bondAmount
            lockDurationSeconds pattern prefixType useScriptBonds now' built')) := by
  unfold perform submitCommentWithBondPayload
  dsimp only
  cases hserialize : EpisodeMessage.codec.serialize episodeMsg with
  | none =>
    refine .inl ⟨fun built h => ?_, rfl⟩
    obtain ⟨inner, hinner, -⟩ := h
    rw [hserialize] at hinner
    cases hinner
  | some inner =>
    dsimp only
    cases hbuilt : self.commentTransaction inner bondAmount lockDurationSeconds pattern prefixType
        useScriptBonds now with
    | error e =>
      refine .inl ⟨fun built h => ?_, rfl⟩
      obtain ⟨inner', hinner, hok⟩ := h
      rw [hserialize] at hinner
      obtain rfl := Option.some.inj hinner
      rw [hbuilt] at hok
      cases hok
    | ok built =>
      refine .inr ⟨built, ⟨inner, hserialize, hbuilt⟩, ?_⟩
      dsimp only
      cases hsubmit : submitWithRetry answers with
      | ok _ =>
        refine .inl ⟨?_, rfl⟩
        rintro ⟨msg, hmsg, -⟩
        rw [hsubmit] at hmsg
        cases hmsg
      | error msg =>
        dsimp only
        by_cases horphan : contains msg "orphan" = true
        · rw [if_pos horphan]
          -- the second attempt: a refresh, and the same transaction built of what it brings
          obtain ⟨tail, hretry, htail⟩ := retryComment_cases self
            (fun manager => manager.commentTransaction inner bondAmount lockDurationSeconds pattern
              prefixType useScriptBonds now') answers' refreshAnswer
          refine .inr ⟨msg, tail, rfl, ⟨msg, hsubmit, horphan⟩, ?_, ?_⟩
          · rcases hcall : self.retryComment (fun manager => manager.commentTransaction inner
              bondAmount lockDurationSeconds pattern prefixType useScriptBonds now') answers'
              refreshAnswer with ⟨manager, result, events⟩
            rw [hcall] at hretry
            obtain ⟨hmanager, hevents⟩ := Prod.mk.inj hretry
            dsimp only at hmanager hevents
            rw [← hmanager, ← hevents]
            rfl
          · rcases htail with hnil | ⟨built', result, hone, hbuilt'⟩
            · exact .inl hnil
            · exact .inr ⟨built', result, hone, inner, hserialize, hbuilt'⟩
        · rw [if_neg horphan]
          refine .inl ⟨?_, rfl⟩
          rintro ⟨msg', hmsg, hcontains⟩
          rw [hsubmit] at hmsg
          obtain rfl := Except.error.inj hmsg
          exact horphan hcontains

theorem submitted_canComment {episodeMsg : EpisodeMessage ContractCommentBoard}
    {bondAmount lockDurationSeconds : UInt64} {pattern : PatternType} {prefixType : PrefixType}
    {useScriptBonds : Bool} {now now' : UInt64} {answers answers' : Answers}
    {refreshAnswer : Except String (List Utxo)} {result : Except String Unit}
    (hmem : .submitted built result ∈ (self.perform (.submitCommentWithBondPayload episodeMsg
      bondAmount lockDurationSeconds pattern prefixType useScriptBonds now now' answers answers'
      refreshAnswer)).2) :
    self.CanComment episodeMsg bondAmount lockDurationSeconds pattern prefixType useScriptBonds now
        built ∨
      (self.refreshUtxos refreshAnswer).1.CanComment episodeMsg bondAmount lockDurationSeconds
        pattern prefixType useScriptBonds now' built := by
  rcases submitComment_cases self episodeMsg bondAmount lockDurationSeconds pattern prefixType
      useScriptBonds now now' answers answers' refreshAnswer with
    ⟨-, hnone⟩ | ⟨built₁, hcomment, ⟨-, hone⟩ | ⟨msg, tail, -, -, htwo, htail⟩⟩
  · rw [hnone] at hmem
    cases hmem
  · rw [hone] at hmem
    obtain ⟨rfl, -⟩ := NodeEvent.submitted.inj (List.mem_singleton.mp hmem)
    exact .inl hcomment
  · rw [htwo] at hmem
    rcases List.mem_cons.mp hmem with hfirst | hmem
    · obtain ⟨rfl, -⟩ := NodeEvent.submitted.inj hfirst
      exact .inl hcomment
    rcases List.mem_append.mp hmem with hevent | hsecond
    · cases refreshAnswer with
      | error msg => cases hevent
      | ok entries => cases List.mem_singleton.mp hevent
    · rcases htail with rfl | ⟨built₂, result₂, rfl, hbuilt₂⟩
      · cases hsecond
      · obtain ⟨rfl, -⟩ := NodeEvent.submitted.inj (List.mem_singleton.mp hsecond)
        exact .inr hbuilt₂

theorem removeBond_cases (commentId : UInt64) :
    (self.removeBond commentId).settled = (self, []) ∨
    ∃ lockedUtxo, self.lockedUtxos[commentId]? = some lockedUtxo ∧
      (self.removeBond commentId).settled = (self.release lockedUtxo commentId, []) := by
  unfold removeBond
  cases hlocked : self.lockedUtxos[commentId]? with
  | none => exact .inl rfl
  | some lockedUtxo => exact .inr ⟨lockedUtxo, rfl, rfl⟩

theorem releases_cases {op : Operation} {commentId : UInt64}
    (h : (∃ now, op = .unlockBond commentId now) ∨ op = .forfeitBond commentId) :
    self.perform op = (self, []) ∨
    ∃ lockedUtxo, self.lockedUtxos[commentId]? = some lockedUtxo ∧
      self.perform op = (self.release lockedUtxo commentId, []) := by
  rcases h with ⟨now, rfl⟩ | rfl
  · unfold perform unlockBond
    dsimp only
    split
    · exact .inl rfl
    · exact removeBond_cases commentId
  · exact removeBond_cases commentId

end UtxoLockManager
end Kdapp.CommentBoard
