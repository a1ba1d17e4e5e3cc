import Kdapp.Proxy.Dispatch

/-! The listener against a node that answers truthfully or fails: what has been sent to an
engine since `sink` was last read from the node, and the node's virtual chain up to `sink`. -/

namespace Chain
variable {α : Type} {l l₁ l₂ : List α} {a : α}

theorem prefix_eq_of_getLast (hnodup : l.Nodup) (h₁ : l₁ <+: l) (h₂ : l₂ <+: l)
    (ha₁ : l₁.getLast? = some a) (ha₂ : l₂.getLast? = some a) : l₁ = l₂ := by
  have key : ∀ {k k' : List α}, k <+: k' → k' <+: l → k.getLast? = some a →
      k'.getLast? = some a → k = k' := by
    intro k k' hk hk' ha ha'
    obtain ⟨t, rfl⟩ := hk
    cases ht : t.getLast? with
    | none =>
      rw [List.getLast?_eq_none_iff.mp ht, List.append_nil]
    | some b =>
      have hb : (k ++ t).getLast? = some b := by rw [List.getLast?_append, ht, Option.some_or]
      obtain rfl : a = b := Option.some.inj (ha'.symm.trans hb)
      have hdisjoint := List.disjoint_of_nodup_append (hnodup.sublist hk'.sublist)
      exact absurd (List.mem_of_getLast? ht) (hdisjoint (List.mem_of_getLast? ha))
  rcases List.prefix_or_prefix_of_prefix h₁ h₂ with h | h
  · exact key h h₂ ha₁ ha₂
  · exact (key h h₁ ha₂ ha₁).symm

theorem filter_not_mem_drop [DecidableEq α] (hnodup : l.Nodup) (m n : ℕ) :
    (l.drop m).filter (fun a => a ∉ l.drop n) = (l.take n).drop m := by
  have hsplit : l.drop m = (l.take n).drop m ++ (l.drop n).drop (m - (l.take n).length) := by
    rw [← List.drop_append, List.take_append_drop]
  have hdisjoint : (l.take n).Disjoint (l.drop n) := by
    refine List.disjoint_of_nodup_append ?_
    rwa [List.take_append_drop]
  have hleft : ((l.take n).drop m).filter (fun a => a ∉ l.drop n) = (l.take n).drop m := by
    refine List.filter_eq_self.mpr fun a ha => decide_eq_true fun hdrop => ?_
    exact hdisjoint (List.mem_of_mem_drop ha) hdrop
  have hright : ((l.drop n).drop (m - (l.take n).length)).filter (fun a => a ∉ l.drop n) = [] := by
    refine List.filter_eq_nil_iff.mpr fun a ha hnot => ?_
    exact of_decide_eq_true hnot (List.mem_of_mem_drop ha)
  rw [hsplit, List.filter_append, hleft, hright, List.append_nil]

end Chain

namespace Kdapp

theorem mem_fetchedTxs {blocks : List (Option RpcBlock)} {t : RpcTransaction} :
    t ∈ fetchedTxs blocks ↔ ∃ block, some block ∈ blocks ∧ t ∈ block.transactions.drop 1 := by
  unfold fetchedTxs
  rw [List.mem_flatMap]
  constructor
  · rintro ⟨_ | block, hb, ht⟩
    · cases ht
    · exact ⟨block, hb, ht⟩
  · rintro ⟨block, hb, ht⟩
    exact ⟨some block, hb, ht⟩

/-- The blocks an engine holds accepted and not reverted after these messages. -/
def replayFrom (p : PrefixType) (live : List BlkAccepted) (sent : List Sent) : List BlkAccepted :=
  sent.foldl (fun live m =>
    if m.1 = p then
      match m.2 with
      | .blkAccepted blk => live ++ [blk]
      | .blkReverted acceptingHash => live.filter fun blk => blk.acceptingHash ≠ acceptingHash
      | .exit => live
    else live) live

def replay (p : PrefixType) (sent : List Sent) : List BlkAccepted := replayFrom p [] sent

theorem replayFrom_append (p : PrefixType) (live : List BlkAccepted) (sent sent' : List Sent) :
    replayFrom p live (sent ++ sent') = replayFrom p (replayFrom p live sent) sent' :=
  List.foldl_append

theorem replayFrom_cons (p : PrefixType) (live : List BlkAccepted) (m : Sent) (sent : List Sent) :
    replayFrom p live (m :: sent) = replayFrom p (replayFrom p live [m]) sent := rfl

theorem replayFrom_other {p : PrefixType} {live : List BlkAccepted} {m : Sent} (h : m.1 ≠ p) :
    replayFrom p live [m] = live := if_neg h

theorem replayFrom_reverted (p : PrefixType) (live : List BlkAccepted) (hash : Hash) :
    replayFrom p live [(p, .blkReverted hash)] =
      live.filter fun blk => blk.acceptingHash ≠ hash := if_pos rfl

theorem replayFrom_accepted (p : PrefixType) (live : List BlkAccepted) (blk : BlkAccepted) :
    replayFrom p live [(p, .blkAccepted blk)] = live ++ [blk] := if_pos rfl

theorem replayFrom_revertAll (p : PrefixType) (hash : Hash)
    (es : List (PrefixType × PatternType)) (live : List BlkAccepted) :
    replayFrom p live (es.map fun e => (e.1, .blkReverted hash)) =
      if p ∈ es.map (·.1) then live.filter (fun blk => blk.acceptingHash ≠ hash) else live := by
  induction es generalizing live with
  | nil => rfl
  | cons e es ih =>
    rw [List.map_cons, replayFrom_cons, ih, List.map_cons]
    by_cases he : e.1 = p
    · subst he
      rw [replayFrom_reverted, if_pos List.mem_cons_self, List.filter_filter]
      simp only [Bool.and_self, ite_self]
    · have hne : ¬ p = e.1 := fun h => he h.symm
      rw [replayFrom_other he]
      simp only [List.mem_cons, hne, false_or]

theorem replayFrom_blocksReverted {engines : EngineMap} {e : PrefixType × PatternType}
    (he : e ∈ engines.entries) (removed : List Hash) (live : List BlkAccepted) :
    replayFrom e.1 live (blocksReverted engines removed) =
      live.filter fun blk => blk.acceptingHash ∉ removed := by
  induction removed generalizing live with
  | nil => exact (List.filter_eq_self.mpr fun _ _ => by simp).symm
  | cons hash removed ih =>
    have hmem : e.1 ∈ engines.entries.map (·.1) := List.mem_map.mpr ⟨e, he, rfl⟩
    have hcons : blocksReverted engines (hash :: removed) =
        (engines.entries.map fun e => (e.1, .blkReverted hash)) ++
          blocksReverted engines removed := List.flatMap_cons
    rw [hcons, replayFrom_append, replayFrom_revertAll, if_pos hmem, ih, List.filter_filter]
    refine List.filter_congr fun blk _ => ?_
    simp [not_or, Bool.and_comm]

theorem replayFrom_messages {p : PrefixType} {pattern : PatternType}
    (f : PrefixType × PatternType → Option BlkAccepted) {es : List (PrefixType × PatternType)}
    (hnodup : (es.map (·.1)).Nodup) (live : List BlkAccepted) :
    (p ∉ es.map (·.1) → replayFrom p live
      (es.filterMap fun e => (f e).map fun blk => (e.1, .blkAccepted blk)) = live) ∧
    ((p, pattern) ∈ es → replayFrom p live
      (es.filterMap fun e => (f e).map fun blk => (e.1, .blkAccepted blk)) =
        live ++ (f (p, pattern)).toList) := by
  induction es generalizing live with
  | nil => exact ⟨fun _ => rfl, fun h => absurd h List.not_mem_nil⟩
  | cons e es ih =>
    obtain ⟨he, htail⟩ := List.nodup_cons.mp hnodup
    have hskip : e.1 ≠ p → replayFrom p live
        ((e :: es).filterMap fun e => (f e).map fun blk => (e.1, .blkAccepted blk)) =
          replayFrom p live
            (es.filterMap fun e => (f e).map fun blk => (e.1, .blkAccepted blk)) := by
      intro hne
      cases hf : f e with
      | none => rw [List.filterMap_cons, hf, Option.map_none]
      | some blk =>
        rw [List.filterMap_cons, hf, Option.map_some, replayFrom_cons, replayFrom_other hne]
    constructor
    · intro hp
      have hne : e.1 ≠ p := fun h => hp (List.mem_cons.mpr (.inl h.symm))
      rw [hskip hne]
      exact (ih htail live).1 fun h => hp (List.mem_cons_of_mem _ h)
    · intro hp
      rcases List.mem_cons.mp hp with rfl | hp
      · cases hf : f (p, pattern) with
        | none =>
          rw [List.filterMap_cons, hf, Option.map_none, Option.toList_none, List.append_nil]
          exact (ih htail live).1 he
        | some blk =>
          rw [List.filterMap_cons, hf, Option.map_some, replayFrom_cons, replayFrom_accepted]
          exact (ih htail _).1 he
      · have hne : e.1 ≠ p := fun h => he (List.mem_map.mpr ⟨_, hp, h.symm⟩)
        rw [hskip hne]
        exact (ih htail live).2 hp

/-- A node: for each block its selected chain (genesis first), the ids it accepts as a chain
block, and its content. A merge set contains the accepted transactions, and a
transaction id determines the transaction. -/
structure Node where
  chain : Hash → List Hash
  accepted : Hash → List Hash
  block : Hash → RpcBlock
  verbose : Hash → RpcBlockVerboseData
  tx : Hash → RpcTransaction
  chain_last : ∀ h, (chain h).getLast? = some h
  chain_prefix : ∀ h, ∀ b ∈ chain h, chain b <+: chain h
  chain_nodup : ∀ h, (chain h).Nodup
  accepted_nodup : ∀ h, (accepted h).Nodup
  block_verbose : ∀ h, (block h).verboseData = some (verbose h)
  block_tx : ∀ h, ∀ t ∈ (block h).transactions, ∀ id, t.transactionId = some id → t = tx id
  merged : ∀ h, ∀ id ∈ (accepted h).drop 1, ∃ m ∈ (verbose h).mergeSet,
    ∃ t ∈ (block m).transactions.drop 1, t.transactionId = some id

namespace Node
variable (node : Node)

/-- `get_virtual_chain_from_block`, while the virtual chain ends in `v`: the blocks above the
common part in downward order, and (the first of) the new blocks with the ids they accept. -/
def VirtualChainFrom (sink : Hash) (vc : VirtualChain) : Prop :=
  ∃ v n k, (node.chain sink).take n = (node.chain v).take n ∧
    (∀ b ∈ (node.chain sink).drop n, b ∉ node.chain v) ∧
    vc.removedChainBlockHashes = ((node.chain sink).drop n).reverse ∧
    vc.acceptedTransactionIds =
      (((node.chain v).drop n).take k).map fun b => ⟨b, node.accepted b⟩

structure Truthful (sink : Hash) (answers : Answers) : Prop where
  virtualChain : ∀ vc, answers.virtualChain = some vc → node.VirtualChainFrom sink vc
  acceptingBlock : ∀ i h block, answers.acceptingBlock i h = some block →
    block = { node.block h with transactions := [] }
  mergedBlock : ∀ i j h block, answers.mergedBlock i j h = some block → block = node.block h

/-- A `get_block` call made for the `i`th new chain block `h` fails. -/
def Fails (answers : Answers) (i : ℕ) (h : Hash) : Prop :=
  answers.acceptingBlock i h = none ∨
    none ∈ (node.verbose h).mergeSet.mapIdx (answers.mergedBlock i)

/-- The chain block `h` as the engine `e` is due it. -/
def due (engines : EngineMap) (e : PrefixType × PatternType) (h : Hash) : Option BlkAccepted :=
  Kdapp.due engines.txScriptBytes (fun id => some (node.tx id)) h (node.block h)
    ((node.accepted h).drop 1) e

theorem due_hash {engines : EngineMap} {e : PrefixType × PatternType} {h : Hash}
    {blk : BlkAccepted} (hdue : node.due engines e h = some blk) : blk.acceptingHash = h := by
  unfold due Kdapp.due at hdue
  split at hdue
  · cases hdue
  · obtain rfl := Option.some.inj hdue
    rfl

variable {node} {engines : EngineMap} {sink : Hash} {answers : Answers}

theorem firstTx_fetched (ht : node.Truthful sink answers) {i : ℕ} {h id : Hash}
    {t : RpcTransaction} (hfirst : firstTx (fetchedTxs
      ((node.verbose h).mergeSet.mapIdx (answers.mergedBlock i))) id = some t) :
    t = node.tx id := by
  unfold firstTx at hfirst
  have hfound := List.find?_some hfirst
  have hid : t.transactionId = some id := of_decide_eq_true hfound
  obtain ⟨block, hblock, hmem⟩ := mem_fetchedTxs.mp (List.mem_of_find?_eq_some hfirst)
  obtain ⟨j, hj, hm⟩ := List.mem_mapIdx.mp hblock
  obtain rfl := ht.mergedBlock _ _ _ _ hm
  exact node.block_tx _ t (List.mem_of_mem_drop hmem) id hid

theorem fails_of_not_reached (ht : node.Truthful sink answers) {i : ℕ} {h : Hash}
    (hnot : ¬ Reached (requiredTxs engines (node.accepted h))
      ((node.verbose h).mergeSet.mapIdx (answers.mergedBlock i))) : node.Fails answers i h := by
  by_contra hok
  refine hnot fun id hid => ?_
  obtain ⟨m, hm, t, ht', hid'⟩ := node.merged h id (List.mem_of_mem_filter hid)
  obtain ⟨j, hj, rfl⟩ := List.mem_iff_getElem.mp hm
  have hblock : answers.mergedBlock i j (node.verbose h).mergeSet[j] ∈
      (node.verbose h).mergeSet.mapIdx (answers.mergedBlock i) :=
    List.mem_mapIdx.mpr ⟨j, hj, rfl⟩
  cases hfetch : answers.mergedBlock i j (node.verbose h).mergeSet[j] with
  | none =>
    rw [hfetch] at hblock
    exact absurd (.inr hblock) hok
  | some block =>
    rw [hfetch] at hblock
    obtain rfl := ht.mergedBlock _ _ _ _ hfetch
    exact List.find?_isSome.mpr ⟨t, mem_fetchedTxs.mpr ⟨_, hblock, ht'⟩, decide_eq_true hid'⟩

theorem due_of_reached (ht : node.Truthful sink answers) {i : ℕ} {h : Hash}
    (hreached : Reached (requiredTxs engines (node.accepted h))
      ((node.verbose h).mergeSet.mapIdx (answers.mergedBlock i)))
    {e : PrefixType × PatternType} (he : e ∈ engines.entries) :
    Kdapp.due engines.txScriptBytes (firstTx (fetchedTxs
        ((node.verbose h).mergeSet.mapIdx (answers.mergedBlock i)))) h (node.block h)
      ((node.accepted h).drop 1) e = node.due engines e h := by
  have hsame : ((node.accepted h).drop 1).filterMap (delivery engines.txScriptBytes
      (firstTx (fetchedTxs ((node.verbose h).mergeSet.mapIdx (answers.mergedBlock i)))) e) =
      ((node.accepted h).drop 1).filterMap
        (delivery engines.txScriptBytes (fun id => some (node.tx id)) e) := by
    refine List.filterMap_congr fun id hid => ?_
    unfold delivery
    by_cases hpattern : checkPattern id e.2 = true
    · have hrequired : id ∈ requiredTxs engines (node.accepted h) :=
        List.mem_filter.mpr ⟨hid, List.any_eq_true.mpr ⟨e, he, hpattern⟩⟩
      obtain ⟨t, hfirst⟩ := Option.isSome_iff_exists.mp (hreached id hrequired)
      rw [hfirst, firstTx_fetched ht hfirst]
    · rw [if_neg hpattern, if_neg hpattern]
  unfold due Kdapp.due
  rw [hsame]

variable (engines) in
theorem newChainBlock_node (ht : node.Truthful sink answers) (i : ℕ) (h : Hash) :
    ∃ msgs, newChainBlock engines ⟨h, node.accepted h⟩ (answers.acceptingBlock i h)
        (answers.mergedBlock i) = some msgs ∧
      (msgs = engines.entries.filterMap (fun e =>
          (node.due engines e h).map fun blk => (e.1, .blkAccepted blk)) ∨
        msgs = [] ∧ node.Fails answers i h) := by
  cases hacc : answers.acceptingBlock i h with
  | none =>
    refine ⟨[], ?_, .inr ⟨rfl, .inl hacc⟩⟩
    unfold newChainBlock
    exact ite_self _
  | some block =>
    obtain rfl := ht.acceptingBlock _ _ _ hacc
    let ncb : RpcAcceptedTransactionIds := ⟨h, node.accepted h⟩
    let block : RpcBlock := { node.block h with transactions := [] }
    have hnodup : ncb.acceptedTransactionIds.Nodup := node.accepted_nodup h
    have hverbose : block.verboseData = some (node.verbose h) := node.block_verbose h
    obtain ⟨msgs, hrun, hreached, hnot⟩ := newChainBlock_fetched hnodup hverbose
    refine ⟨msgs, hrun, ?_⟩
    by_cases hr : Reached (requiredTxs engines (node.accepted h))
        ((node.verbose h).mergeSet.mapIdx (answers.mergedBlock i))
    · left
      rw [hreached hr]
      refine List.filterMap_congr fun e he => ?_
      exact congrArg (Option.map _) (due_of_reached ht hr he)
    · exact .inr ⟨hnot hr, fails_of_not_reached ht hr⟩

def dueAll (node : Node) (engines : EngineMap) (e : PrefixType × PatternType)
    (skipped bs : List Hash) : List BlkAccepted :=
  bs.filterMap fun b => if b ∈ skipped then none else node.due engines e b

theorem dueAll_congr {e : PrefixType × PatternType} {skipped skipped' bs : List Hash}
    (h : ∀ b ∈ bs, b ∈ skipped' ↔ b ∈ skipped) :
    node.dueAll engines e skipped' bs = node.dueAll engines e skipped bs := by
  refine List.filterMap_congr fun b hb => ?_
  simp only [h b hb]

variable (engines) in
theorem newChainBlocks_node (ht : node.Truthful sink answers) {bs : List Hash}
    (hnodup : bs.Nodup) (i : ℕ) :
    ∃ msgs skipped,
      newChainBlocks engines answers i (bs.map fun b => ⟨b, node.accepted b⟩) = some msgs ∧
      (∀ b ∈ skipped, ∃ j, bs[j]? = some b ∧ node.Fails answers (i + j) b) ∧
      ∀ e ∈ engines.entries, ∀ live,
        replayFrom e.1 live msgs = live ++ node.dueAll engines e skipped bs := by
  induction bs generalizing i with
  | nil => exact ⟨[], [], rfl, fun b hb => absurd hb List.not_mem_nil, fun e he live =>
      (List.append_nil live).symm⟩
  | cons b bs ih =>
    obtain ⟨hb, hnodup⟩ := List.nodup_cons.mp hnodup
    obtain ⟨msgs₁, hrun₁, hmsgs₁⟩ := newChainBlock_node engines ht i b
    obtain ⟨msgs₂, skipped, hrun₂, hskipped, hreplay⟩ := ih hnodup (i + 1)
    have hrun : newChainBlocks engines answers i
        ((b :: bs).map fun b => ⟨b, node.accepted b⟩) = some (msgs₁ ++ msgs₂) := by
      rw [List.map_cons, newChainBlocks]
      simp only [hrun₁, hrun₂, Option.bind_eq_bind, Option.bind_some]
    have hlater : ∀ b' ∈ skipped, b' ∈ bs ∧ ∃ j, (b :: bs)[j]? = some b' ∧
        node.Fails answers (i + j) b' := by
      intro b' hb'
      obtain ⟨j, hj, hfails⟩ := hskipped b' hb'
      refine ⟨List.mem_of_getElem? hj, j + 1, hj, ?_⟩
      rwa [show i + (j + 1) = i + 1 + j by omega]
    rcases hmsgs₁ with rfl | ⟨rfl, hfails⟩
    · refine ⟨_, skipped, hrun, fun b' hb' => (hlater b' hb').2, fun e he live => ?_⟩
      have hnot : b ∉ skipped := fun hm => hb (hlater b hm).1
      rw [replayFrom_append, (replayFrom_messages _ engines.nodup live).2 he, hreplay e he,
        List.append_assoc]
      unfold dueAll
      rw [List.filterMap_cons, if_neg hnot]
      cases node.due engines e b <;> rfl
    · refine ⟨_, b :: skipped, hrun, fun b' hb' => ?_, fun e he live => ?_⟩
      · rcases List.mem_cons.mp hb' with rfl | hb'
        · exact ⟨0, rfl, hfails⟩
        · exact (hlater b' hb').2
      · have hsame : node.dueAll engines e (b :: skipped) (b :: bs) =
            node.dueAll engines e (b :: skipped) bs := by
          unfold dueAll
          rw [List.filterMap_cons, if_pos List.mem_cons_self]
        have hcongr : node.dueAll engines e (b :: skipped) bs =
            node.dueAll engines e skipped bs := by
          refine dueAll_congr fun b' hb' => ?_
          have hne : b' ≠ b := fun h => hb (h ▸ hb')
          simp [hne]
        rw [List.nil_append, hreplay e he, hsame, hcongr]

end Node

/-- The listener between two iterations, with what the proofs look back on: `origin` is
`sink` as it was last read from `get_block_dag_info`, `sent` the messages sent since, and
`failed` the chain blocks for which a `get_block` call failed since. -/
structure Session where
  sink : Hash
  origin : Hash
  sent : List Sent
  failed : Hash → Prop

namespace Session

def start (sink : Hash) : Session := ⟨sink, sink, [], fun _ => False⟩

def failedIn (node : Node) (answers : Answers) (h : Hash) : Prop :=
  ∃ vc i, answers.virtualChain = some vc ∧
    (vc.acceptedTransactionIds[i]?).map (·.acceptingBlockHash) = some h ∧
    node.Fails answers i h

/-- One iteration of the loop. It starts a new session when `get_virtual_chain_from_block`
fails and the reconnect and `get_block_dag_info` after it succeed. -/
inductive Step (engines : EngineMap) (node : Node) : Session → Session → Prop
  | refreshed {s answers sink} (ht : node.Truthful s.sink answers)
    (hvc : answers.virtualChain = none) (hconnect : answers.connect = true)
    (hsink : answers.sink = some sink) (hpoll : poll engines answers s.sink = some (sink, [])) :
    Step engines node s (start sink)
  | polled {s answers sink msgs} (ht : node.Truthful s.sink answers)
    (hkeep : answers.virtualChain = none → answers.connect = true → answers.sink = none)
    (hpoll : poll engines answers s.sink = some (sink, msgs)) :
    Step engines node s ⟨sink, s.origin, s.sent ++ msgs,
      fun h => s.failed h ∨ failedIn node answers h⟩

inductive Reachable (engines : EngineMap) (node : Node) : Session → Prop
  | start {info connect infoAgain sink} (h : firstSink info connect infoAgain = some sink) :
    Reachable engines node (start sink)
  | step {s s'} (hs : Reachable engines node s) (h : Step engines node s s') :
    Reachable engines node s'

/-- Replaying what was sent to an engine gives the virtual chain above `base` as that engine is
due it, less the skipped blocks, each of which has a failed call. -/
structure Follows (engines : EngineMap) (node : Node) (s : Session) (base skipped : List Hash) :
    Prop where
  below : base <+: node.chain s.origin
  onChain : base <+: node.chain s.sink
  failing : ∀ b ∈ skipped, s.failed b
  sent : ∀ e ∈ engines.entries, replay e.1 s.sent =
    node.dueAll engines e skipped ((node.chain s.sink).drop base.length)

theorem follows_start (engines : EngineMap) (node : Node) (sink : Hash) :
    Follows engines node (start sink) (node.chain sink) [] where
  below := List.prefix_refl _
  onChain := List.prefix_refl _
  failing b hb := absurd hb List.not_mem_nil
  sent e _ := by
    change [] = _
    rw [show (start sink).sink = sink from rfl, List.drop_length]
    rfl

variable {engines : EngineMap} {node : Node}

theorem chain_of_last {v b : Hash} {n k : ℕ}
    (h : (((node.chain v).drop n).take k).getLast? = some b) :
    node.chain b = (node.chain v).take n ++ ((node.chain v).drop n).take k := by
  have hprefix : (node.chain v).take n ++ ((node.chain v).drop n).take k <+: node.chain v := by
    rw [← List.take_add]
    exact List.take_prefix _ _
  have hmem : b ∈ node.chain v :=
    List.mem_of_mem_drop (List.mem_of_mem_take (List.mem_of_getLast? h))
  have hlast : ((node.chain v).take n ++ ((node.chain v).drop n).take k).getLast? = some b := by
    rw [List.getLast?_append, h, Option.some_or]
  exact Chain.prefix_eq_of_getLast (node.chain_nodup v) (node.chain_prefix v b hmem) hprefix
    (node.chain_last b) hlast

theorem filter_dueAll {e : PrefixType × PatternType} {skipped : List Hash} {c : List Hash}
    (hnodup : c.Nodup) (m n : ℕ) :
    (node.dueAll engines e skipped (c.drop m)).filter
        (fun blk => blk.acceptingHash ∉ (c.drop n).reverse) =
      node.dueAll engines e skipped ((c.take n).drop m) := by
  rw [← Chain.filter_not_mem_drop hnodup m n]
  unfold Node.dueAll
  rw [List.filter_filterMap, List.filterMap_filter]
  refine List.filterMap_congr fun b _ => ?_
  by_cases hskip : b ∈ skipped
  · simp [hskip]
  · cases hdue : node.due engines e b with
    | none => simp [hskip]
    | some blk =>
      have hhash := node.due_hash hdue
      by_cases hgone : b ∈ c.drop n <;> simp [hskip, hhash, hgone]

theorem Follows.advance {s : Session} {base skipped : List Hash} {v b : Hash} {n k : ℕ}
    {accepted : List Sent} {fresh : List Hash}
    (h : Follows engines node s base skipped)
    (hcommon : (node.chain s.sink).take n = (node.chain v).take n)
    (hlast : (((node.chain v).drop n).take k).getLast? = some b)
    (hfailed : Hash → Prop) (hfresh : ∀ b ∈ fresh, hfailed b)
    (hmem : ∀ b ∈ fresh, b ∈ ((node.chain v).drop n).take k)
    (haccepted : ∀ e ∈ engines.entries, ∀ live, replayFrom e.1 live accepted =
      live ++ node.dueAll engines e fresh (((node.chain v).drop n).take k)) :
    Follows engines node ⟨b, s.origin,
        s.sent ++ (blocksReverted engines ((node.chain s.sink).drop n).reverse ++ accepted),
        fun h => s.failed h ∨ hfailed h⟩ (base.take n)
      (skipped.filter (fun b => b ∉ ((node.chain v).drop n).take k) ++ fresh) := by
  have hchain := chain_of_last hlast
  have hnodup : (node.chain b).Nodup := node.chain_nodup b
  rw [hchain] at hnodup
  have hdisjoint := List.disjoint_of_nodup_append hnodup
  -- some block is new, so the common part is not the whole chain
  have hlong : n ≤ (node.chain v).length := by
    by_contra hlt
    rw [List.drop_eq_nil_of_le (by omega), List.take_nil] at hlast
    cases hlast
  have hlen : ((node.chain v).take n).length = n := List.length_take_of_le hlong
  refine ⟨?_, ?_, fun b' hb' => ?_, fun e he => ?_⟩
  · exact (List.take_prefix n base).trans h.below
  · change base.take n <+: node.chain b
    have hprefix : base.take n <+: (node.chain s.sink).take n := by
      refine List.prefix_take_iff.mpr ⟨(List.take_prefix n base).trans h.onChain, ?_⟩
      exact List.length_take_le n base
    rw [hcommon] at hprefix
    rw [hchain]
    exact hprefix.trans (List.prefix_append _ _)
  · rcases List.mem_append.mp hb' with hold | hnew
    · exact .inl (h.failing b' (List.mem_of_mem_filter hold))
    · exact .inr (hfresh b' hnew)
  · -- the chain since `base` is what was followed before and what came now
    have hsplit : (node.chain b).drop (base.take n).length =
        ((node.chain v).take n).drop base.length ++ ((node.chain v).drop n).take k := by
      rw [hchain, List.length_take, List.drop_append_of_le_length (by omega)]
      by_cases hle : base.length ≤ n
      · rw [Nat.min_eq_right hle]
      · have hgone : ((node.chain v).take n).drop base.length = [] :=
          List.drop_eq_nil_of_le (by omega)
        rw [Nat.min_eq_left (by omega), List.drop_eq_nil_of_le (Nat.le_of_eq hlen), hgone]
    -- below the fork the skips are the old ones, above it those of this iteration
    have hleft : node.dueAll engines e
        (skipped.filter (fun b => b ∉ ((node.chain v).drop n).take k) ++ fresh)
          (((node.chain v).take n).drop base.length) =
        node.dueAll engines e skipped (((node.chain v).take n).drop base.length) := by
      refine Node.dueAll_congr fun b' hb' => ?_
      have hnot : b' ∉ ((node.chain v).drop n).take k := hdisjoint (List.mem_of_mem_drop hb')
      have hnotFresh : b' ∉ fresh := fun hm => hnot (hmem b' hm)
      rw [List.mem_append, List.mem_filter]
      simp only [hnot, hnotFresh, not_false_eq_true, decide_true, and_true, or_false]
    have hright : node.dueAll engines e
        (skipped.filter (fun b => b ∉ ((node.chain v).drop n).take k) ++ fresh)
          (((node.chain v).drop n).take k) =
        node.dueAll engines e fresh (((node.chain v).drop n).take k) := by
      refine Node.dueAll_congr fun b' hb' => ?_
      rw [List.mem_append, List.mem_filter]
      simp only [hb', not_true_eq_false, decide_false, Bool.false_eq_true, and_false, false_or]
    have happend : ∀ sk l₁ l₂, node.dueAll engines e sk (l₁ ++ l₂) =
        node.dueAll engines e sk l₁ ++ node.dueAll engines e sk l₂ :=
      fun sk l₁ l₂ => List.filterMap_append
    change replayFrom e.1 [] (s.sent ++ _) = node.dueAll engines e _ ((node.chain b).drop _)
    rw [hsplit, happend, hleft, hright, replayFrom_append, replayFrom_append,
      replayFrom_blocksReverted he, haccepted e he, ← hcommon]
    have hsent : replayFrom e.1 [] s.sent = _ := h.sent e he
    rw [hsent, filter_dueAll (node.chain_nodup s.sink)]

theorem Step.follows {s s' : Session} (hstep : Step engines node s s')
    {base skipped : List Hash} (h : Follows engines node s base skipped) :
    ∃ base' skipped', Follows engines node s' base' skipped' := by
  cases hstep with
  | @refreshed answers sink ht hvc hconnect hsink hpoll =>
    exact ⟨_, _, follows_start engines node sink⟩
  | @polled answers sink msgs ht hkeep hpoll =>
    -- where nothing was learned, the session is as it was
    have hstay : sink = s.sink → msgs = [] → ∃ base' skipped', Follows engines node
        ⟨sink, s.origin, s.sent ++ msgs, fun h => s.failed h ∨ failedIn node answers h⟩
          base' skipped' := by
      rintro rfl rfl
      refine ⟨base, skipped, h.below, h.onChain, fun b hb => .inl (h.failing b hb), ?_⟩
      intro e he
      rw [List.append_nil]
      exact h.sent e he
    unfold poll at hpoll
    cases hvc : answers.virtualChain with
    | none =>
      rw [hvc] at hpoll
      by_cases hconnect : answers.connect = true
      · simp only [hconnect, if_true, hkeep hvc hconnect, Option.getD_none, Option.some.injEq,
          Prod.mk.injEq] at hpoll
        exact hstay hpoll.1.symm hpoll.2.symm
      · simp only [hconnect, Bool.false_eq_true, if_false, Option.some.injEq,
          Prod.mk.injEq] at hpoll
        exact hstay hpoll.1.symm hpoll.2.symm
    | some vc =>
      rw [hvc] at hpoll
      obtain ⟨v, n, k, hcommon, -, hremoved, hnew⟩ := ht.virtualChain vc hvc
      cases hlast : (((node.chain v).drop n).take k).getLast? with
      | none =>
        have hnone : vc.acceptedTransactionIds.getLast? = none := by
          rw [hnew, List.getLast?_map, hlast, Option.map_none]
        simp only [hnone, Option.some.injEq, Prod.mk.injEq] at hpoll
        exact hstay hpoll.1.symm hpoll.2.symm
      | some b =>
        have hsome : vc.acceptedTransactionIds.getLast? = some ⟨b, node.accepted b⟩ := by
          rw [hnew, List.getLast?_map, hlast, Option.map_some]
        have hnodup : (((node.chain v).drop n).take k).Nodup :=
          (node.chain_nodup v).sublist ((List.take_sublist _ _).trans (List.drop_sublist _ _))
        obtain ⟨accepted, fresh, hrun, hfresh, hreplay⟩ :=
          Node.newChainBlocks_node engines ht hnodup 0
        rw [← hnew] at hrun
        simp only [hsome, hrun, hremoved, Option.bind_eq_bind, Option.bind_some,
          Option.some.injEq, Prod.mk.injEq] at hpoll
        obtain ⟨rfl, rfl⟩ := hpoll
        refine ⟨_, _, h.advance hcommon hlast (failedIn node answers) (fun b' hb' => ?_)
          (fun b' hb' => ?_) hreplay⟩
        · obtain ⟨j, hj, hfails⟩ := hfresh b' hb'
          rw [Nat.zero_add] at hfails
          refine ⟨vc, j, hvc, ?_, hfails⟩
          rw [hnew, List.getElem?_map, hj]
          rfl
        · obtain ⟨j, hj, -⟩ := hfresh b' hb'
          exact List.mem_of_getElem? hj

/-- Whenever the loop is about to poll, replaying what was sent to an engine since `sink` was
last read from the node gives the node's virtual chain up to `sink`, from a part of
the chain the session started with, less blocks for which a `get_block` call failed. -/
theorem listener_follows {s : Session} (hs : Reachable engines node s) :
    ∃ base skipped : List Hash, base <+: node.chain s.origin ∧ base <+: node.chain s.sink ∧
      (∀ b ∈ skipped, s.failed b) ∧
      ∀ e ∈ engines.entries, Kdapp.replay e.1 s.sent =
        ((node.chain s.sink).drop base.length).filterMap fun b =>
          if b ∈ skipped then none else node.due engines e b := by
  have hfollows : ∃ base skipped, Follows engines node s base skipped := by
    induction hs with
    | start h => exact ⟨_, _, follows_start engines node _⟩
    | step hs h ih =>
      obtain ⟨base, skipped, hfollows⟩ := ih
      exact h.follows hfollows
  obtain ⟨base, skipped, hfollows⟩ := hfollows
  exact ⟨base, skipped, hfollows.below, hfollows.onChain, hfollows.failing, hfollows.sent⟩

end Session
end Kdapp

namespace Kdapp

/-- A node with one chain block above a genesis, which is also the merged block. -/
def smallNode : Node where
  chain h := if h = mergedHash then [mergedHash] else [mergedHash, h]
  accepted h := if h = chainHash then [coinbaseId, txId] else []
  verbose h := ⟨mergedHash, if h = chainHash then [mergedHash] else [], []⟩
  block h := { blockOf (if h = mergedHash then [coinbaseTx, commandTx] else []) [] with
    verboseData := some ⟨mergedHash, if h = chainHash then [mergedHash] else [], []⟩ }
  tx id := if id = txId then commandTx else coinbaseTx
  chain_last h := by
    by_cases hh : h = mergedHash
    · simp [hh]
    · simp [hh]
  chain_prefix h b hb := by
    by_cases hh : h = mergedHash
    · simp_all
    · simp only [hh, if_false, List.mem_cons, List.not_mem_nil, or_false] at hb
      rcases hb with rfl | rfl
      · simp [hh]
      · simp [hh]
  chain_nodup h := by
    by_cases hh : h = mergedHash
    · simp [hh]
    · simp [hh, Ne.symm hh]
  accepted_nodup h := by
    by_cases hh : h = chainHash
    · simp only [hh, if_true]
      decide
    · simp [hh]
  block_verbose _ := rfl
  block_tx h t ht id hid := by
    by_cases hh : h = mergedHash
    · simp only [hh, if_true, blockOf, List.mem_cons, List.not_mem_nil, or_false] at ht
      rcases ht with rfl | rfl
      · obtain rfl := Option.some.inj hid
        rfl
      · obtain rfl := Option.some.inj hid
        rfl
    · simp [hh, blockOf] at ht
  merged h id hid := by
    by_cases hh : h = chainHash
    · simp only [hh, if_true, List.drop_succ_cons, List.drop_zero, List.mem_singleton] at hid
      subst hid
      refine ⟨mergedHash, ?_, commandTx, ?_, rfl⟩
      · simp [hh, RpcBlockVerboseData.mergeSet]
      · simp [blockOf]
    · simp [hh] at hid

/-- The chain block arrives; `fetch` says whether the calls for it succeed. -/
def oneBlock (fetch : Bool) : Answers where
  virtualChain := some ⟨[], [⟨chainHash, [coinbaseId, txId]⟩]⟩
  connect := true
  sink := none
  acceptingBlock _ h := if fetch then some { smallNode.block h with transactions := [] } else none
  mergedBlock _ _ h := some (smallNode.block h)

theorem truthful_oneBlock (fetch : Bool) : smallNode.Truthful mergedHash (oneBlock fetch) where
  virtualChain vc hvc := by
    obtain rfl := Option.some.inj hvc
    exact ⟨chainHash, 1, 1, by decide, by decide, by decide, rfl⟩
  acceptingBlock i h block hblock := by
    cases fetch with
    | true => exact (Option.some.inj hblock).symm
    | false => cases hblock
  mergedBlock i j h block hblock := (Option.some.inj hblock).symm

theorem reachable_oneBlock (fetch : Bool) {sent : List Sent}
    (hpoll : poll twoEngines (oneBlock fetch) mergedHash = some (chainHash, sent)) :
    Session.Reachable twoEngines smallNode
      ⟨chainHash, mergedHash, [] ++ sent, fun h => False ∨
        Session.failedIn smallNode (oneBlock fetch) h⟩ := by
  have hstart : Session.Reachable twoEngines smallNode (.start mergedHash) :=
    .start (show firstSink (some mergedHash) true none = some mergedHash from rfl)
  exact hstart.step (.polled (truthful_oneBlock fetch) nofun hpoll)

/-- The block is fetched, so the first engine holds it. -/
theorem listener_follows_oneBlock :
    ∃ sent, poll twoEngines (oneBlock true) mergedHash = some (chainHash, sent) ∧
    ∃ base skipped : List Hash, base <+: smallNode.chain mergedHash ∧
      base <+: smallNode.chain chainHash ∧
      (∀ b ∈ skipped, False ∨ Session.failedIn smallNode (oneBlock true) b) ∧
      ∀ e ∈ twoEngines.entries, replay e.1 ([] ++ sent) =
        ((smallNode.chain chainHash).drop base.length).filterMap fun b =>
          if b ∈ skipped then none else smallNode.due twoEngines e b := by
  have hpoll : ∃ sent, poll twoEngines (oneBlock true) mergedHash = some (chainHash, sent) :=
    ⟨_, rfl⟩
  obtain ⟨sent, hpoll⟩ := hpoll
  exact ⟨sent, hpoll, Session.listener_follows (reachable_oneBlock true hpoll)⟩

/-- The one `get_block` call fails: `sink` is at a chain block above the initial one that
accepts a transaction of the first engine, and nothing was sent. -/
theorem listener_skips : ∃ s, Session.Reachable twoEngines smallNode s ∧
    s.origin = mergedHash ∧ smallNode.chain s.sink = smallNode.chain s.origin ++ [chainHash] ∧
    (smallNode.due twoEngines (11, oddId) chainHash).isSome ∧ s.sent = [] := by
  have hpoll : poll twoEngines (oneBlock false) mergedHash = some (chainHash, []) := rfl
  exact ⟨_, reachable_oneBlock false hpoll, rfl, by decide, by decide, rfl⟩

end Kdapp
