import Kdapp.CommentBoard.Rollback
import Kdapp.Library.Entries
import Mathlib.Data.List.Perm.Subperm

/-! The books of the comment board: its counters, the locked value and the locked bonds. -/

namespace Kdapp.CommentBoard
open InOrder Transition FiniteMap
open Std (ExtTreeMap)

section Keys

theorem commentBondId_toList (id : UInt64) (tx : Hash) :
    (commentBondId id tx).toList = "comment_bond_".toList ++
      (id.toNat.repr.toList ++ ("_".toList ++ (displayHash tx).toList)) := by
  have hparts : commentBondId id tx =
    "comment_bond_" ++ id.toNat.repr ++ "_" ++ displayHash tx := rfl
  rw [hparts]
  simp only [String.toList_append, List.append_assoc]

theorem commentBondId_inj {id id' : UInt64} {tx tx' : Hash}
    (h : commentBondId id tx = commentBondId id' tx') : id = id' := by
  have hchars := congrArg String.toList h
  rw [commentBondId_toList, commentBondId_toList] at hchars
  have hrest := List.append_cancel_left hchars
  exact UInt64.toNat_inj.mp (Decimal.repr_append_inj (c := '_') (by decide) hrest)

theorem joinBondId_ne_commentBondId (participant : String) (id : UInt64) (tx : Hash) :
    joinBondId participant ≠ commentBondId id tx := by
  intro h
  have hjoin : (joinBondId participant).toList.head? = some 'j' := by
    rw [joinBondId, String.toList_append]
    rfl
  have hcomment : (commentBondId id tx).toList.head? = some 'c' := by
    rw [commentBondId_toList]
    rfl
  rw [h, hcomment] at hjoin
  exact absurd hjoin (by decide)

def EconomicComment.entry (txOf : UInt64 → Hash) (c : EconomicComment) : String × UInt64 :=
  (commentBondId c.id (txOf c.id), c.bondAmount)

variable {comments : List EconomicComment} {txOf : UInt64 → Hash}

theorem id_of_key_mem {id : UInt64} {tx : Hash}
    (h : commentBondId id tx ∈ (comments.map (EconomicComment.entry txOf)).map Prod.fst) :
    ∃ c ∈ comments, c.id = id := by
  rw [List.map_map] at h
  obtain ⟨c, hc, hkey⟩ := List.mem_map.mp h
  exact ⟨c, hc, commentBondId_inj hkey⟩

theorem joinBondId_not_mem (participant : String) :
    joinBondId participant ∉ (comments.map (EconomicComment.entry txOf)).map Prod.fst := by
  intro h
  rw [List.map_map] at h
  obtain ⟨c, hc, hkey⟩ := List.mem_map.mp h
  exact joinBondId_ne_commentBondId _ _ _ hkey.symm

theorem entries_update (txOf : UInt64 → Hash) {id : UInt64} (h : ∀ c ∈ comments, c.id ≠ id)
    (tx : Hash) :
    comments.map (EconomicComment.entry (Function.update txOf id tx)) =
      comments.map (EconomicComment.entry txOf) := by
  apply List.map_congr_left
  intro c hc
  rw [EconomicComment.entry, EconomicComment.entry, Function.update_of_ne (h c hc)]

end Keys

section Reverse
variable (lockedUtxos : ExtTreeMap String UInt64) (key : String) {amount : UInt64}

theorem reverseUtxo_pos (h : 0 < amount) :
    ContractCommentBoard.reverseUtxo lockedUtxos (key, amount) = lockedUtxos.erase key :=
  if_pos h

end Reverse

def ContractCommand.Bonding : ContractCommand → Prop
  | .joinRoom _ | .submitComment .. => True
  | _ => False

variable [Crypto]

def Record.stored (r : Record) : Option (UInt64 × UInt64) :=
  r.rollback.commentId.map fun id => (id, r.cmd.bond)

/-- The counters count, the locked value is the sum of the bonds, and each comment has one lock,
of its bond, under the id of its own transaction. -/
structure Accounts (node : Node) : Prop where
  totalComments :
    node.board.contract.totalComments.toNat = node.board.contract.comments.length
  increasing : node.board.contract.comments.Pairwise fun c c' => c.id < c'.id
  below : ∀ c ∈ node.board.contract.comments, c.id < node.board.nextCommentId
  totalLockedValue : node.board.contract.totalLockedValue.toNat =
    (node.log.map fun r => r.cmd.bond.toNat).sum
  lockedUtxos : ∃ txOf : UInt64 → Hash,
    (∀ r ∈ node.log, ∀ id, r.rollback.commentId = some id → txOf id = r.metadata.txId) ∧
      Holds node.board.lockedUtxos
        (node.board.contract.comments.map (EconomicComment.entry txOf))

/-- A command that is admitted leaves room in the counters; what is rolled back had a bond, if
it was a command that takes one. -/
def Bookable (node : Node) : Event → Prop
  | .command cmd authorization metadata => node.board.Admits metadata authorization cmd →
    node.board.contract.totalLockedValue.toNat + cmd.bond.toNat < 2 ^ 64 ∧
      ((∃ text bond idx script, cmd = .submitComment text bond idx script) →
        node.board.nextCommentId.toNat + 1 < 2 ^ 64)
  | .rollback => ∀ r log, node.log = r :: log → r.cmd.Bonding → 0 < r.cmd.bond

structure Booked (node : Node) : Prop where
  recorded : node.Recorded
  comments : node.board.contract.comments.map (fun c => (c.id, c.bondAmount)) =
    (node.log.filterMap Record.stored).reverse

omit [Crypto] in
theorem length_le_of_increasing {ids : List UInt64} {n : UInt64}
    (h : ids.Pairwise (· < ·)) (hn : ∀ id ∈ ids, id < n) : ids.length ≤ n.toNat := by
  have hdistinct : (ids.map UInt64.toNat).Nodup := by
    apply List.Pairwise.map _ _ h
    intro a b hab
    exact Nat.ne_of_lt (UInt64.lt_iff_toNat_lt.mp hab)
  have hbelow : ids.map UInt64.toNat ⊆ List.range n.toNat := by
    intro a ha
    obtain ⟨id, hid, rfl⟩ := List.mem_map.mp ha
    exact List.mem_range.mpr (UInt64.lt_iff_toNat_lt.mp (hn id hid))
  have hle := (List.subperm_of_subset hdistinct hbelow).length_le
  rwa [List.length_map, List.length_range] at hle

namespace Accounts
variable {node : Node}

theorem length_le (h : Accounts node) :
    node.board.contract.comments.length ≤ node.board.nextCommentId.toNat := by
  rw [← List.length_map (f := EconomicComment.id)]
  apply length_le_of_increasing
  · exact List.pairwise_map.mpr h.increasing
  · intro id hid
    obtain ⟨c, hc, rfl⟩ := List.mem_map.mp hid
    exact h.below c hc

theorem uncommented {board : ContractCommentBoard} {r : Record} (h : Accounts node)
    (hcomments : board.contract.comments = node.board.contract.comments)
    (hcount : board.contract.totalComments = node.board.contract.totalComments)
    (hnext : board.nextCommentId = node.board.nextCommentId)
    (hlocked : board.lockedUtxos = node.board.lockedUtxos)
    (hr : r.rollback.commentId = none)
    (htotal : board.contract.totalLockedValue.toNat =
      r.cmd.bond.toNat + node.board.contract.totalLockedValue.toNat) :
    Accounts ⟨board, r :: node.log⟩ := by
  obtain ⟨txOf, htx, hholds⟩ := h.lockedUtxos
  refine ⟨?_, ?_, ?_, ?_, txOf, ?_, ?_⟩
  · rw [hcount, hcomments]
    exact h.totalComments
  · rw [hcomments]
    exact h.increasing
  · rw [hcomments, hnext]
    exact h.below
  · rw [htotal, h.totalLockedValue, List.map_cons, List.sum_cons]
  · refine List.forall_mem_cons.mpr ⟨fun id hid => ?_, htx⟩
    rw [hr] at hid
    cases hid
  · rw [hlocked, hcomments]
    exact hholds

end Accounts

omit [Crypto] in
theorem add_toNat_iff {a b : UInt64} :
    (a + b).toNat = b.toNat + a.toNat ↔ a.toNat + b.toNat < 2 ^ 64 := by
  have hlt := (a + b).toNat_lt
  rw [UInt64.toNat_add] at hlt ⊢
  omega

section Accepted
variable {node : Node} {metadata : PayloadMetadata} {pk : PubKey} {text : String}
  {bond : UInt64} {idx : Option UInt32} {script : Option BondScriptKind}

theorem Booked.id_lt (hP : Accounts node) (hQ : Booked node) {r : Record} (hr : r ∈ node.log)
    {id : UInt64} (hid : r.rollback.commentId = some id) : id < node.board.nextCommentId := by
  have hstored : (id, r.cmd.bond) ∈ (node.log.filterMap Record.stored).reverse := by
    rw [List.mem_reverse]
    refine List.mem_filterMap.mpr ⟨r, hr, ?_⟩
    rw [Record.stored, hid, Option.map_some]
  rw [← hQ.comments] at hstored
  obtain ⟨c, hc, hpair⟩ := List.mem_map.mp hstored
  rw [← (Prod.mk.inj hpair).1]
  exact hP.below c hc

theorem submitComment_accounts_iff (hP : Accounts node) (hQ : Booked node)
    {board : ContractCommentBoard} {rb : ContractRollback}
    (hacc : node.board.Accepts metadata pk (.submitComment text bond idx script) rb board) :
    Accounts ⟨board, ⟨node.board, .submitComment text bond idx script, some pk, metadata, rb⟩ ::
        node.log⟩ ↔
      node.board.contract.totalLockedValue.toNat + bond.toNat < 2 ^ 64 ∧
        node.board.nextCommentId.toNat + 1 < 2 ^ 64 := by
  have hone : (1 : UInt64).toNat = 1 := rfl
  have hlength := hP.length_le
  cases hacc with
  | submitComment hcheck =>
    constructor
    · intro h
      constructor
      · have htotal := h.totalLockedValue
        rw [List.map_cons, List.sum_cons, ← hP.totalLockedValue] at htotal
        exact add_toNat_iff.mp htotal
      · -- the new id is below the next one only if that one did not wrap around
        have hid := UInt64.lt_iff_toNat_lt.mp
          (h.below _ (List.mem_append_right _ (List.mem_singleton_self _)))
        have hlt := node.board.nextCommentId.toNat_lt
        dsimp only at hid
        rw [UInt64.toNat_add, hone] at hid
        omega
    · rintro ⟨hroom, hids⟩
      obtain ⟨txOf, htx, hholds⟩ := hP.lockedUtxos
      -- no stored comment has the new id, so its lock replaces no other
      have hfresh : ∀ c ∈ node.board.contract.comments, c.id ≠ node.board.nextCommentId :=
        fun c hc => UInt64.ne_of_lt (hP.below c hc)
      have hnext : node.board.nextCommentId < node.board.nextCommentId + 1 := by
        rw [UInt64.lt_iff_toNat_lt, UInt64.toNat_add, hone, Nat.mod_eq_of_lt hids]
        exact Nat.lt_succ_self _
      refine ⟨?_, ?_, ?_, ?_, Function.update txOf node.board.nextCommentId metadata.txId, ?_, ?_⟩
      · have hcount := hP.totalComments
        dsimp only
        rw [UInt64.toNat_add, hone, List.length_append, List.length_singleton, hcount]
        apply Nat.mod_eq_of_lt
        omega
      · refine List.pairwise_append.mpr ⟨hP.increasing, List.pairwise_singleton _ _, ?_⟩
        intro c hc c' hc'
        obtain rfl := List.mem_singleton.mp hc'
        exact hP.below c hc
      · intro c hc
        rcases List.mem_append.mp hc with hold | hnew
        · exact UInt64.lt_trans (hP.below c hold) hnext
        · obtain rfl := List.mem_singleton.mp hnew
          exact hnext
      · dsimp only
        rw [List.map_cons, List.sum_cons, ← hP.totalLockedValue]
        exact add_toNat_iff.mpr hroom
      · refine List.forall_mem_cons.mpr ⟨fun id hid => ?_, fun r hr id hid => ?_⟩
        · obtain rfl := Option.some.inj hid
          exact Function.update_self ..
        · rw [Function.update_of_ne (UInt64.ne_of_lt (hQ.id_lt hP hr hid))]
          exact htx r hr id hid
      · have hentries := entries_update txOf hfresh metadata.txId
        dsimp only
        rw [List.map_append, hentries, List.map_singleton, EconomicComment.entry,
          Function.update_self]
        apply hholds.insert
        intro hkey
        obtain ⟨c, hc, hid⟩ := id_of_key_mem hkey
        exact hfresh c hc hid

theorem accepted_accounts_iff (hP : Accounts node) (hQ : Booked node) {cmd : ContractCommand}
    {board : ContractCommentBoard} {rb : ContractRollback}
    (hacc : node.board.Accepts metadata pk cmd rb board) :
    Accounts ⟨board, ⟨node.board, cmd, some pk, metadata, rb⟩ :: node.log⟩ ↔
      node.board.contract.totalLockedValue.toNat + cmd.bond.toNat < 2 ^ 64 ∧
        ((∃ text bond idx script, cmd = .submitComment text bond idx script) →
          node.board.nextCommentId.toNat + 1 < 2 ^ 64) := by
  have hlt := node.board.contract.totalLockedValue.toNat_lt
  cases hacc with
  | joinRoom =>
    constructor
    · intro h
      refine ⟨?_, fun ⟨_, _, _, _, hcomment⟩ => by cases hcomment⟩
      have htotal := h.totalLockedValue
      rw [List.map_cons, List.sum_cons, ← hP.totalLockedValue] at htotal
      exact add_toNat_iff.mp htotal
    · rintro ⟨hroom, -⟩
      exact hP.uncommented rfl rfl rfl rfl rfl (add_toNat_iff.mpr hroom)
  | requestChallenge | submitResponse =>
    exact iff_of_true (hP.uncommented rfl rfl rfl rfl rfl (Nat.zero_add _).symm)
      ⟨hlt, fun ⟨_, _, _, _, hcomment⟩ => by cases hcomment⟩
  | submitComment hcheck =>
    rw [submitComment_accounts_iff hP hQ (.submitComment hcheck)]
    exact and_congr_right fun _ => ⟨fun h _ => h, fun h => h ⟨_, _, _, _, rfl⟩⟩

end Accepted

section RolledBack
variable {node : Node} {r : Record} {log : List Record}

omit [Crypto] in
theorem filter_last {comments : List EconomicComment} {c : EconomicComment}
    (h : (comments ++ [c]).Pairwise fun c c' => c.id < c'.id) :
    ((comments ++ [c]).filter fun c' => decide (c'.id ≠ c.id)) = comments := by
  have hbelow := (List.pairwise_append.mp h).2.2
  have hlast : [c].filter (fun c' => decide (c'.id ≠ c.id)) = [] :=
    List.filter_cons_of_neg (by simp)
  rw [List.filter_append, hlast, List.append_nil, List.filter_eq_self]
  intro c' hc'
  exact decide_eq_true (UInt64.ne_of_lt (hbelow c' hc' c (List.mem_singleton_self c)))

omit [Crypto] in
theorem removeComment_last (g : ContractCommentBoard) {comments : List EconomicComment}
    {c : EconomicComment} (hcomments : g.contract.comments = comments ++ [c])
    (hcount : g.contract.totalComments.toNat = g.contract.comments.length)
    (hincreasing : g.contract.comments.Pairwise fun c c' => c.id < c'.id) :
    g.removeComment c.id =
      { g with
        contract.comments := comments
        contract.totalComments := g.contract.totalComments - 1 } := by
  have hlength : g.contract.comments.length = comments.length + 1 := by
    rw [hcomments, List.length_append, List.length_singleton]
  rw [hcomments] at hincreasing
  have hpos : g.contract.totalComments > 0 := by
    rw [gt_iff_lt, UInt64.lt_iff_toNat_lt, hcount, hlength]
    exact Nat.succ_pos _
  have hshorter : comments.length < (comments ++ [c]).length := by
    rw [List.length_append]
    exact Nat.lt_succ_self _
  rw [ContractCommentBoard.removeComment]
  dsimp only
  rw [hcomments, filter_last hincreasing, if_pos ⟨hpos, hshorter⟩]

theorem Booked.last (hP : Accounts node) (hQ : Booked node) (hlog : node.log = r :: log)
    {id : UInt64} (hid : r.rollback.commentId = some id) :
    ∃ comments c, node.board.contract.comments = comments ++ [c] ∧ c.id = id ∧
      comments.map (fun c => (c.id, c.bondAmount)) =
        (log.filterMap Record.stored).reverse ∧
      ∀ lockedUtxos, ({ node.board with lockedUtxos }).removeComment id =
        { node.board with
          lockedUtxos
          contract.comments := comments
          contract.totalComments := node.board.contract.totalComments - 1 } := by
  have hstored : r.stored = some (id, r.cmd.bond) := by
    rw [Record.stored, hid, Option.map_some]
  have hcomments := hQ.comments
  rw [hlog, List.filterMap_cons_some hstored, List.reverse_cons,
    List.map_eq_append_iff] at hcomments
  obtain ⟨comments, rest, hboth, hearlier, hlast⟩ := hcomments
  obtain ⟨c, rfl, hc⟩ := List.map_eq_singleton_iff.mp hlast
  have hid : c.id = id := (Prod.mk.inj hc).1
  refine ⟨comments, c, hboth, hid, hearlier, fun lockedUtxos => ?_⟩
  rw [← hid]
  exact removeComment_last { node.board with lockedUtxos } hboth hP.totalComments hP.increasing

theorem Accounts.unlocked (hP : Accounts node) (hlog : node.log = r :: log) :
    (Saturating.sub node.board.contract.totalLockedValue r.cmd.bond).toNat =
      (log.map fun r => r.cmd.bond.toNat).sum := by
  rw [Saturating.sub_toNat, hP.totalLockedValue, hlog, List.map_cons, List.sum_cons,
    Nat.add_sub_cancel_left]

theorem Accounts.earlier_txOf {txOf : UInt64 → Hash} (hlog : node.log = r :: log)
    (htx : ∀ r ∈ node.log, ∀ id, r.rollback.commentId = some id → txOf id = r.metadata.txId) :
    (∀ id, r.rollback.commentId = some id → txOf id = r.metadata.txId) ∧
      ∀ r ∈ log, ∀ id, r.rollback.commentId = some id → txOf id = r.metadata.txId := by
  rw [hlog] at htx
  exact List.forall_mem_cons.mp htx

theorem Accounts.bond_pos (h : Accounts node) {lockedUtxos : ExtTreeMap String UInt64}
    {key : String} {bond : UInt64}
    (hlocked : node.board.lockedUtxos =
      ContractCommentBoard.reverseUtxo lockedUtxos (key, bond))
    (hkey : ∀ txOf,
      key ∉ (node.board.contract.comments.map (EconomicComment.entry txOf)).map Prod.fst) :
    0 < bond := by
  apply UInt64.pos_iff_ne_zero.mpr
  rintro rfl
  obtain ⟨txOf, -, hholds⟩ := h.lockedUtxos
  rw [hlocked] at hholds
  exact absurd hholds.mem_of_insert (hkey txOf)

theorem rolledBack_join_iff (hP : Accounts node) (hlog : node.log = r :: log)
    (participant : String) :
    Accounts ⟨({ node.board with
        lockedUtxos := ContractCommentBoard.reverseUtxo node.board.lockedUtxos
          (joinBondId participant, r.cmd.bond) }).unlockValue (some r.cmd.bond), log⟩ ↔
      0 < r.cmd.bond := by
  constructor
  · intro h
    exact h.bond_pos rfl fun _ => joinBondId_not_mem _
  · intro hpos
    obtain ⟨txOf, htx, hholds⟩ := hP.lockedUtxos
    refine ⟨hP.totalComments, hP.increasing, hP.below, hP.unlocked hlog, txOf,
      (Accounts.earlier_txOf hlog htx).2, ?_⟩
    dsimp only [ContractCommentBoard.unlockValue]
    rw [reverseUtxo_pos _ _ hpos]
    exact hholds.erase_absent (joinBondId_not_mem _)

theorem rolledBack_comment_iff (hP : Accounts node) (hQ : Booked node)
    (hlog : node.log = r :: log) {id : UInt64} (hid : r.rollback.commentId = some id) :
    Accounts ⟨(({ node.board with
        lockedUtxos := ContractCommentBoard.reverseUtxo node.board.lockedUtxos
          (commentBondId id r.metadata.txId, r.cmd.bond) }).removeComment id).unlockValue
            (some r.cmd.bond), log⟩ ↔
      0 < r.cmd.bond := by
  obtain ⟨comments, c, hcomments, rfl, -, hremoved⟩ := hQ.last hP hlog hid
  have hincreasing := hP.increasing
  rw [hcomments, List.pairwise_append] at hincreasing
  have hbelow : ∀ c' ∈ comments, c'.id < c.id := fun c' hc' =>
    hincreasing.2.2 c' hc' c (List.mem_singleton_self c)
  rw [hremoved]
  constructor
  · intro h
    refine h.bond_pos rfl fun txOf hkey => ?_
    -- the comment of this key is gone
    obtain ⟨c', hc', hsame⟩ := id_of_key_mem hkey
    exact absurd hsame (UInt64.ne_of_lt (hbelow c' hc'))
  · intro hpos
    obtain ⟨txOf, htx, hholds⟩ := hP.lockedUtxos
    obtain ⟨htxc, htxLog⟩ := Accounts.earlier_txOf hlog htx
    refine ⟨?_, hincreasing.1, ?_, hP.unlocked hlog, txOf, htxLog, ?_⟩
    · have hcount := hP.totalComments
      rw [hcomments, List.length_append, List.length_singleton] at hcount
      have hone : (1 : UInt64).toNat = 1 := rfl
      have hle : 1 ≤ node.board.contract.totalComments := by
        rw [UInt64.le_iff_toNat_le, hcount, hone]
        exact Nat.le_add_left _ _
      dsimp only [ContractCommentBoard.unlockValue]
      rw [UInt64.toNat_sub_of_le _ _ hle, hcount, hone, Nat.add_sub_cancel]
    · intro c' hc'
      apply hP.below
      rw [hcomments]
      exact List.mem_append_left _ hc'
    · dsimp only [ContractCommentBoard.unlockValue]
      rw [reverseUtxo_pos _ _ hpos]
      rw [hcomments, List.map_append, List.map_singleton, EconomicComment.entry,
        htxc c.id hid] at hholds
      exact hholds.erase_last

theorem rolledBack_accounts_iff (hP : Accounts node) (hQ : Booked node)
    (hlog : node.log = r :: log) :
    Accounts ⟨(node.board.rollback r.rollback).1, log⟩ ↔ (r.cmd.Bonding → 0 < r.cmd.bond) := by
  obtain ⟨pk, g', hacc⟩ := hQ.recorded.top hlog
  have hjoin := rolledBack_join_iff hP hlog (displayKey pk)
  have hcomment := fun (id : UInt64) (hid : r.rollback.commentId = some id) =>
    rolledBack_comment_iff hP hQ hlog hid
  obtain ⟨txOf, htx, hholds⟩ := hP.lockedUtxos
  have htxLog := (Accounts.earlier_txOf hlog htx).2
  have htotal := hP.totalLockedValue
  rw [hlog, List.map_cons, List.sum_cons] at htotal
  rw [hacc.rollback_eq]
  obtain ⟨before, cmd, authorization, metadata, rb⟩ := r
  dsimp only at hacc
  cases hacc with
  | joinRoom => exact hjoin.trans ⟨fun h _ => h, fun h => h trivial⟩
  | requestChallenge | submitResponse =>
    refine iff_of_true ⟨hP.totalComments, hP.increasing, hP.below, ?_, txOf, htxLog, hholds⟩ ?_
    · rw [htotal]
      exact Nat.zero_add _
    · exact False.elim
  | submitComment => exact (hcomment _ rfl).trans ⟨fun h _ => h, fun h => h trivial⟩

end RolledBack

theorem Booked.step {node : Node} (hP : Accounts node) (hQ : Booked node) (e : Event) :
    Booked (node.step e) := by
  have hsteps := node.steps e
  refine ⟨hsteps.recorded hQ.recorded, ?_⟩
  generalize node.step e = node' at hsteps
  cases hsteps with
  | rejected | exhausted => exact hQ.comments
  | accepted hadmits hacc =>
    cases hacc with
    | joinRoom | requestChallenge | submitResponse => exact hQ.comments
    | submitComment hcheck =>
      dsimp only
      rw [List.map_append, hQ.comments, List.filterMap_cons_some (by rfl), List.reverse_cons]
      rfl
  | @rolledBack r log hlog =>
    have hcomments := hQ.comments
    obtain ⟨pk, g', hacc⟩ := hQ.recorded.top hlog
    rw [hlog] at hcomments
    rw [hacc.rollback_eq]
    obtain ⟨before, cmd, authorization, metadata, rb⟩ := r
    dsimp only at hacc
    cases cmd with
    | joinRoom | requestChallenge | submitResponse =>
      cases hacc
      exact hcomments
    | submitComment text bondAmount idx script =>
      obtain ⟨comments, c, -, -, hearlier, hremoved⟩ := hQ.last hP hlog
        (show rb.commentId = some before.nextCommentId by cases hacc; rfl)
      dsimp only
      rw [hremoved]
      exact hearlier

/-- The books of a room are right all along where no counter overflows and nothing is rolled
back that took a bond of zero. -/
theorem accounts_iff_bookable (participants : List PubKey) (metadata : PayloadMetadata)
    (events : List Event) :
    Always Node.step ⟨.initializeWith participants metadata, []⟩ Accounts events ↔
      Throughout (fun earlier e => Bookable
        (after Node.step ⟨.initializeWith participants metadata, []⟩ earlier) e) events := by
  apply always_iff_throughout (Q := Booked)
  · exact ⟨rfl, List.Pairwise.nil, fun c hc => absurd hc List.not_mem_nil, rfl,
      fun _ => metadata.txId, fun r hr => absurd hr List.not_mem_nil, Holds.empty⟩
  · exact ⟨fun r hr => absurd hr List.not_mem_nil, rfl⟩
  · exact fun node e hP hQ _ => hQ.step hP e
  · intro node e hP hQ
    have hsteps := node.steps e
    generalize node.step e = node' at hsteps
    cases hsteps with
    | rejected hnot => exact iff_of_true hP fun hadmits => absurd hadmits hnot
    | accepted hadmits hacc =>
      rw [accepted_accounts_iff hP hQ hacc]
      exact ⟨fun h _ => h, fun h => h hadmits⟩
    | exhausted hlog =>
      refine iff_of_true hP fun r log hr => ?_
      rw [hlog] at hr
      cases hr
    | rolledBack hlog =>
      rw [rolledBack_accounts_iff hP hQ hlog]
      constructor
      · intro h r log hr
        rw [hlog] at hr
        cases hr
        exact h
      · exact fun h => h _ _ hlog

end Kdapp.CommentBoard

namespace Kdapp.CommentBoard
open Transition
attribute [local instance] idealCrypto

def unbonded : List Event :=
  [.command (.submitComment "hi" 0 none none) (some (1 : UInt8)) (txAt 101 1), .rollback]

def overfull : List Event :=
  [.command (.joinRoom 0x8000000000000000) (some (1 : UInt8)) (txAt 101 1),
    .command (.joinRoom 0x8000000000000000) (some (2 : UInt8)) (txAt 102 2)]

/-- A lock of nothing stays behind, for no comment; and the locked value wraps around. -/
theorem accounts_broken :
    ¬ Always Node.step ⟨opened, []⟩ Accounts unbonded ∧
      ¬ Always Node.step ⟨opened, []⟩ Accounts overfull := by
  constructor
  · intro h
    obtain ⟨txOf, -, hholds⟩ := (h 2).lockedUtxos
    have hkey : commentBondId 1 (Hash.filled 1) ∈ ([] : List String) :=
      FiniteMap.Holds.mem_of_insert hholds
    exact absurd hkey List.not_mem_nil
  · intro h
    exact absurd (h 2).totalLockedValue (by decide +kernel)

end Kdapp.CommentBoard
