import Kdapp.Proxy
import Mathlib.Data.List.Nodup

/-! One accepting block: the merge set scan finds the first copy of every required transaction,
and the dispatch loop gives each of them to the one engine it matches. -/

namespace Kdapp
open Borsh
open Std (ExtTreeMap)

def fetchedTxs (blocks : List (Option RpcBlock)) : List RpcTransaction :=
  blocks.flatMap fun block => (block.map fun b => b.transactions.drop 1).getD []

def firstTx (txs : List RpcTransaction) (id : Hash) : Option RpcTransaction :=
  txs.find? fun tx => tx.transactionId = some id

namespace Required
variable {b : Bool} {ids : List Hash}

/-- The entries of the maps: those of the ids in `live`, filled in as far as `found` says. -/
structure Entries (b : Bool) (live : Hash → Prop) (found : Hash → Option RpcTransaction)
    (r : Required) : Prop where
  payload : ∀ id, live id → r.payloads[id]? = some ((found id).map (·.payload))
  output : ∀ id, live id → r.outputs[id]? = some ((found id).map (outputsInfo b))
  gone : ∀ id, ¬ live id → r.payloads[id]? = none

def missing (ids : List Hash) (found : Hash → Option RpcTransaction) : List Hash :=
  ids.filter fun id => (found id).isNone

/-- The state of the scan: `required_num` counts the entries that are not filled in. -/
structure Scanned (b : Bool) (ids : List Hash) (found : Hash → Option RpcTransaction)
    (r : Required) : Prop extends Entries b (· ∈ ids) found r where
  num : r.num = (missing ids found).length

theorem absent_get {α : Type} (ids : List Hash) (m : ExtTreeMap Hash (Option α)) (id : Hash) :
    (ids.foldl (fun m id => m.insert id none) m)[id]? = if id ∈ ids then some none else m[id]? := by
  induction ids generalizing m with
  | nil => simp only [List.foldl_nil, List.not_mem_nil, if_false]
  | cons a ids ih =>
    rw [List.foldl_cons, ih]
    grind

theorem absent_size {α : Type} (hnodup : ids.Nodup) (m : ExtTreeMap Hash (Option α))
    (hfresh : ∀ id ∈ ids, id ∉ m) :
    (ids.foldl (fun m id => m.insert id none) m).size = m.size + ids.length := by
  induction ids generalizing m with
  | nil => rfl
  | cons a ids ih =>
    obtain ⟨ha, hnodup⟩ := List.nodup_cons.mp hnodup
    have hstep : (m.insert a none).size = m.size + 1 := by
      have hcontains := mt ExtTreeMap.contains_iff_mem.mp (hfresh a List.mem_cons_self)
      rw [ExtTreeMap.size_insert, if_neg hcontains]
    rw [List.foldl_cons, ih hnodup, hstep, List.length_cons]
    · omega
    · intro id hid
      have hne : a ≠ id := fun h => ha (h ▸ hid)
      have hold := hfresh id (List.mem_cons_of_mem _ hid)
      grind

theorem scanned_new (b : Bool) (hnodup : ids.Nodup) : (new ids).Scanned b ids fun _ => none where
  payload id hid := (absent_get ids ∅ id).trans (if_pos hid)
  output id hid := (absent_get ids ∅ id).trans (if_pos hid)
  gone id hid := (absent_get ids ∅ id).trans ((if_neg hid).trans ExtTreeMap.getElem?_empty)
  num := by
    have hsize := absent_size (α := Bytes) hnodup ∅ fun id _ => ExtTreeMap.not_mem_empty
    have hall : missing ids (fun _ => none) = ids := List.filter_eq_self.mpr fun _ _ => rfl
    rw [hall]
    exact hsize.trans (by simp)

def seen (found : Hash → Option RpcTransaction) (txs : List RpcTransaction) (id : Hash) :
    Option RpcTransaction := (found id).or (firstTx txs id)

theorem seen_append (found : Hash → Option RpcTransaction) (txs txs' : List RpcTransaction) :
    seen (seen found txs) txs' = seen found (txs ++ txs') := by
  funext id
  simp only [seen, firstTx, List.find?_append, Option.or_assoc]

theorem seen_nil (found : Hash → Option RpcTransaction) : seen found [] = found := by
  funext id
  simp only [seen, firstTx, List.find?_nil, Option.or_none]

theorem Scanned.congr {found found' : Hash → Option RpcTransaction} {r : Required}
    (h : r.Scanned b ids found) (heq : ∀ id ∈ ids, found' id = found id) :
    r.Scanned b ids found' where
  payload id hid := by
    rw [heq id hid]
    exact h.payload id hid
  output id hid := by
    rw [heq id hid]
    exact h.output id hid
  gone := h.gone
  num := by
    have hsame : missing ids found' = missing ids found :=
      List.filter_congr fun id hid => by rw [heq id hid]
    rw [hsame]
    exact h.num

theorem Scanned.all_found {found : Hash → Option RpcTransaction} {r : Required}
    (h : r.Scanned b ids found) (hnum : r.num = 0) : ∀ id ∈ ids, (found id).isSome := by
  intro id hid
  have hnil : missing ids found = [] := List.length_eq_zero_iff.mp (h.num.symm.trans hnum)
  have hnot := List.filter_eq_nil_iff.mp hnil id hid
  exact Option.isSome_iff_ne_none.mpr fun hnone => hnot (Option.isNone_iff_eq_none.mpr hnone)

theorem Scanned.seen_of_num {found : Hash → Option RpcTransaction} {r : Required}
    (h : r.Scanned b ids found) (hnum : r.num = 0) (txs : List RpcTransaction) :
    r.Scanned b ids (seen found txs) := by
  refine h.congr fun id hid => ?_
  obtain ⟨tx, htx⟩ := Option.isSome_iff_exists.mp (h.all_found hnum id hid)
  simp only [seen, htx, Option.some_or]

theorem Scanned.skip {found : Hash → Option RpcTransaction} {r : Required} {tx : RpcTransaction}
    (h : r.Scanned b ids found)
    (hskip : ∀ id ∈ ids, tx.transactionId = some id → (found id).isSome) :
    r.Scanned b ids (seen found [tx]) := by
  refine h.congr fun id hid => ?_
  by_cases htx : tx.transactionId = some id
  · obtain ⟨tx', htx'⟩ := Option.isSome_iff_exists.mp (hskip id hid htx)
    simp only [seen, htx', Option.some_or]
  · simp only [seen, firstTx, List.find?_cons, List.find?_nil, decide_eq_false htx, Option.or_none]

theorem missing_seen {found : Hash → Option RpcTransaction} {tx : RpcTransaction} {id : Hash}
    (hnodup : ids.Nodup) (hid : id ∈ ids) (hnone : found id = none)
    (htx : tx.transactionId = some id) :
    (missing ids (seen found [tx])).length + 1 = (missing ids found).length := by
  have hmem : id ∈ missing ids found := by
    simp [missing, hid, hnone]
  have herase : missing ids (seen found [tx]) = (missing ids found).erase id := by
    unfold missing
    rw [List.Nodup.erase_eq_filter (hnodup.filter _), List.filter_filter]
    refine List.filter_congr fun id' hid' => ?_
    by_cases heq : id' = id
    · subst heq
      simp [seen, firstTx, hnone, htx]
    · have hne : ¬ id = id' := fun h => heq h.symm
      simp [seen, firstTx, htx, hne, heq]
  have hpos := List.length_pos_of_mem hmem
  rw [herase, List.length_erase_of_mem hmem]
  omega

theorem Scanned.fill {found : Hash → Option RpcTransaction} {r : Required} {tx : RpcTransaction}
    {id : Hash} (h : r.Scanned b ids found) (hnodup : ids.Nodup) (hid : id ∈ ids)
    (hnone : found id = none) (htx : tx.transactionId = some id) :
    0 < r.num ∧ Scanned b ids (seen found [tx])
      ⟨r.payloads.insert id (some tx.payload),
        r.outputs.insert id (some (outputsInfo b tx)), r.num - 1⟩ := by
  have hlen := missing_seen hnodup hid hnone htx
  have hnum := h.num
  have hseen : ∀ id', id' ≠ id → seen found [tx] id' = found id' := by
    intro id' hne
    have hne' : ¬ id = id' := fun h => hne h.symm
    simp [seen, firstTx, htx, hne']
  have hseen_id : seen found [tx] id = some tx := by
    simp [seen, firstTx, hnone, htx]
  refine ⟨by omega, ⟨⟨fun id' hid' => ?_, fun id' hid' => ?_, fun id' hid' => ?_⟩, ?_⟩⟩
  · by_cases heq : id' = id
    · subst heq
      rw [hseen_id]
      exact ExtTreeMap.getElem?_insert_self
    · rw [hseen id' heq]
      have hold := h.payload id' hid'
      grind
  · by_cases heq : id' = id
    · subst heq
      rw [hseen_id]
      exact ExtTreeMap.getElem?_insert_self
    · rw [hseen id' heq]
      have hold := h.output id' hid'
      grind
  · have hne : id ≠ id' := fun h => hid' (h ▸ hid)
    have hold := h.gone id' hid'
    grind
  · change r.num - 1 = _
    omega

theorem collectTxs_scanned {found : Hash → Option RpcTransaction} {r : Required}
    (hnodup : ids.Nodup) (txs : List RpcTransaction) (h : r.Scanned b ids found) :
    ∃ r' done, collectTxs b txs r = some (r', done) ∧ r'.Scanned b ids (seen found txs) ∧
      (done = true → r'.num = 0) := by
  induction txs generalizing found r with
  | nil =>
    rw [seen_nil]
    exact ⟨r, false, rfl, h, fun hd => absurd hd Bool.false_ne_true⟩
  | cons tx txs ih =>
    have happend : seen found (tx :: txs) = seen (seen found [tx]) txs :=
      (seen_append found [tx] txs).symm
    rw [happend]
    unfold collectTxs
    cases htx : tx.transactionId with
    | none =>
      refine ih (h.skip fun id hid htx' => ?_)
      rw [htx] at htx'
      cases htx'
    | some id =>
      by_cases hid : id ∈ ids
      -- a transaction that was found before is looked at once more, and not counted again
      · cases hfound : found id with
        | some tx' =>
          have hentry : r.payloads[id]? = some (some tx'.payload) := by
            rw [h.payload id hid, hfound]
            rfl
          simp only [hentry]
          refine ih (h.skip fun id' hid' htx' => ?_)
          obtain rfl : id = id' := Option.some.inj (htx.symm.trans htx')
          rw [hfound]
          rfl
        | none =>
          have hentry : r.payloads[id]? = some none := by
            rw [h.payload id hid, hfound]
            rfl
          have hslot : id ∈ r.outputs := by
            have hout := h.output id hid
            grind
          obtain ⟨hpos, hfill⟩ := h.fill hnodup hid hfound htx
          simp only [hentry]
          rw [if_pos hslot, if_neg (Nat.pos_iff_ne_zero.mp hpos)]
          -- the `break 'outer` loses nothing: every entry is filled in by then
          by_cases hlast : r.num - 1 = 0
          · rw [if_pos hlast]
            exact ⟨_, true, rfl, hfill.seen_of_num hlast txs, fun _ => hlast⟩
          · rw [if_neg hlast]
            exact ih hfill
      · have hentry : r.payloads[id]? = none := h.gone id hid
        simp only [hentry]
        refine ih (h.skip fun id' hid' htx' => ?_)
        obtain rfl : id = id' := Option.some.inj (htx.symm.trans htx')
        exact absurd hid' hid

theorem collectBlocks_scanned {found : Hash → Option RpcTransaction} {r : Required}
    (hnodup : ids.Nodup) (blocks : List (Option RpcBlock)) (h : r.Scanned b ids found) :
    ∃ r', collectBlocks b blocks r = some r' ∧
      r'.Scanned b ids (seen found (fetchedTxs blocks)) := by
  induction blocks generalizing found r with
  | nil => exact ⟨r, rfl, h.congr fun id _ => by rw [fetchedTxs, List.flatMap_nil, seen_nil]⟩
  | cons block blocks ih =>
    cases block with
    | none => exact ih h
    | some block =>
      obtain ⟨r₁, done, hrun, hscan, hdone⟩ :=
        collectTxs_scanned hnodup (block.transactions.drop 1) h
      have happend : seen found (fetchedTxs (some block :: blocks)) =
          seen (seen found (block.transactions.drop 1)) (fetchedTxs blocks) :=
        (seen_append found _ _).symm
      rw [happend]
      unfold collectBlocks
      rw [hrun]
      cases done with
      | true => exact ⟨r₁, rfl, hscan.seen_of_num (hdone rfl) _⟩
      | false => exact ih hscan

end Required

/-- The transaction `id` as the engine `e` gets it: its id matches the pattern and its payload
starts with the prefix. -/
def delivery (b : Bool) (found : Hash → Option RpcTransaction) (e : PrefixType × PatternType)
    (id : Hash) : Option (Hash × Bytes × Option (List TxOutputInfo)) :=
  if checkPattern id e.2 then
    match found id with
    | some tx =>
      if Payload.checkHeader tx.payload e.1 then
        some (id, tx.payload.drop 8, some (Required.outputsInfo b tx))
      else none
    | none => none
  else none

theorem checkHeader_unique {payload : Bytes} {p q : PrefixType}
    (hp : Payload.checkHeader payload p = true) (hq : Payload.checkHeader payload q = true) :
    p = q := by
  unfold Payload.checkHeader at hp hq
  by_cases hlen : payload.length < 8
  · rw [if_pos hlen] at hp
    cases hp
  · rw [if_neg hlen] at hp hq
    have hp' := of_decide_eq_true hp
    have hq' := of_decide_eq_true hq
    rw [hp'] at hq'
    exact UInt32.toNat_inj.mp ((leBytes_inj p.toNat_lt q.toNat_lt).mp hq')

theorem delivery_some {b : Bool} {found : Hash → Option RpcTransaction}
    {e : PrefixType × PatternType} {id : Hash}
    {x : Hash × Bytes × Option (List TxOutputInfo)} (h : delivery b found e id = some x) :
    checkPattern id e.2 = true ∧ ∃ tx, found id = some tx ∧
      Payload.checkHeader tx.payload e.1 = true ∧
      x = (id, tx.payload.drop 8, some (Required.outputsInfo b tx)) := by
  unfold delivery at h
  by_cases hpattern : checkPattern id e.2 = true
  · rw [if_pos hpattern] at h
    cases hfound : found id with
    | none => simp [hfound] at h
    | some tx =>
      by_cases hheader : Payload.checkHeader tx.payload e.1 = true
      · simp only [hfound, if_pos hheader] at h
        exact ⟨hpattern, tx, rfl, hheader, (Option.some.inj h).symm⟩
      · simp [hfound, hheader] at h
  · rw [if_neg hpattern] at h
    cases h

theorem delivery_unique {b : Bool} {found : Hash → Option RpcTransaction}
    {e e' : PrefixType × PatternType} {id : Hash} (h : (delivery b found e id).isSome)
    (h' : (delivery b found e' id).isSome) : e.1 = e'.1 := by
  obtain ⟨x, hx⟩ := Option.isSome_iff_exists.mp h
  obtain ⟨x', hx'⟩ := Option.isSome_iff_exists.mp h'
  obtain ⟨-, tx, htx, hheader, -⟩ := delivery_some hx
  obtain ⟨-, tx', htx', hheader', -⟩ := delivery_some hx'
  obtain rfl := Option.some.inj (htx.symm.trans htx')
  exact checkHeader_unique hheader hheader'

namespace Required
variable {b : Bool} {ids : List Hash} {found : Hash → Option RpcTransaction}

theorem Entries.congr {live live' : Hash → Prop} {r : Required} (h : r.Entries b live found)
    (heq : ∀ id, live' id ↔ live id) : r.Entries b live' found where
  payload id hid := h.payload id ((heq id).mp hid)
  output id hid := h.output id ((heq id).mp hid)
  gone id hid := h.gone id (mt (heq id).mpr hid)

theorem Entries.erase {live : Hash → Prop} {r : Required} (h : r.Entries b live found)
    (id : Hash) :
    Entries b (fun id' => live id' ∧ id' ≠ id) found
      { r with payloads := r.payloads.erase id, outputs := r.outputs.erase id } where
  payload id' hid' := by
    have hold := h.payload id' hid'.1
    have hne := hid'.2
    grind
  output id' hid' := by
    have hold := h.output id' hid'.1
    have hne := hid'.2
    grind
  gone id' hid' := by
    by_cases heq : id' = id
    · grind
    · have hold := h.gone id' fun hl => hid' ⟨hl, heq⟩
      grind

theorem consume_skip {live : Hash → Prop} {r : Required} {e : PrefixType × PatternType} {id : Hash}
    (h : r.Entries b live found) (hskip : ¬ (live id ∧ (delivery b found e id).isSome)) :
    consume e.1 e.2 (id :: ids) r = consume e.1 e.2 ids r := by
  rw [consume]
  by_cases hpattern : checkPattern id e.2 = true
  · rw [if_pos hpattern]
    by_cases hlive : live id
    · rw [h.payload id hlive]
      cases hfound : found id with
      | none => rfl
      | some tx =>
        have hheader : ¬ Payload.checkHeader tx.payload e.1 = true := fun hheader =>
          hskip ⟨hlive, by simp [delivery, hpattern, hfound, hheader]⟩
        simp only [Option.map_some, if_neg hheader]
    · rw [h.gone id hlive]
  · rw [if_neg hpattern]

theorem consume_take {live : Hash → Prop} {r r' : Required} {e : PrefixType × PatternType}
    {id : Hash} {x : Hash × Bytes × Option (List TxOutputInfo)}
    {txs : List (Hash × Bytes × Option (List TxOutputInfo))} (h : r.Entries b live found)
    (hlive : live id) (hx : delivery b found e id = some x)
    (hrest : consume e.1 e.2 ids { r with
      payloads := r.payloads.erase id, outputs := r.outputs.erase id } = some (txs, r')) :
    consume e.1 e.2 (id :: ids) r = some (x :: txs, r') := by
  obtain ⟨hpattern, tx, hfound, hheader, rfl⟩ := delivery_some hx
  rw [consume, if_pos hpattern, h.payload id hlive, h.output id hlive, hfound]
  simp only [Option.map_some, if_pos hheader, Payload.stripHeader_of_checkHeader hheader,
    Option.bind_eq_bind, Option.bind_some, hrest, Option.join_some]

theorem consume_entries {live : Hash → Prop} [DecidablePred live] {r : Required}
    {e : PrefixType × PatternType} (hnodup : ids.Nodup) (h : r.Entries b live found) :
    ∃ r', consume e.1 e.2 ids r =
        some (ids.filterMap fun id => if live id then delivery b found e id else none, r') ∧
      r'.Entries b (fun id => live id ∧ ¬ (id ∈ ids ∧ (delivery b found e id).isSome)) found := by
  induction ids generalizing live r with
  | nil =>
    refine ⟨r, rfl, h.congr fun id => ?_⟩
    simp
  | cons id ids ih =>
    obtain ⟨hid, hnodup⟩ := List.nodup_cons.mp hnodup
    -- an entry is taken out of the maps, or it stays as it was; the rest is the induction
    by_cases htake : live id ∧ (delivery b found e id).isSome
    · obtain ⟨hlive, hsome⟩ := htake
      obtain ⟨x, hx⟩ := Option.isSome_iff_exists.mp hsome
      obtain ⟨r', hrun, hentries⟩ := ih hnodup (h.erase id)
      refine ⟨r', ?_, hentries.congr fun id' => ?_⟩
      · rw [consume_take h hlive hx hrun, List.filterMap_cons, if_pos hlive, hx]
        have hsame : ids.filterMap (fun id' => if live id' ∧ id' ≠ id then delivery b found e id'
            else none) = ids.filterMap fun id' => if live id' then delivery b found e id'
            else none := by
          refine List.filterMap_congr fun id' hid' => ?_
          have hne : id' ≠ id := fun heq => hid (heq ▸ hid')
          simp only [hne, ne_eq, not_false_eq_true, and_true]
        rw [hsame]
      · by_cases heq : id' = id
        · subst heq
          simp [hsome]
        · simp [heq]
    · obtain ⟨r', hrun, hentries⟩ := ih hnodup h
      refine ⟨r', ?_, hentries.congr fun id' => ?_⟩
      · have hnone : (if live id then delivery b found e id else none) = none := by
          by_cases hlive : live id
          · rw [if_pos hlive]
            exact Option.not_isSome_iff_eq_none.mp fun hsome => htake ⟨hlive, hsome⟩
          · rw [if_neg hlive]
        rw [consume_skip h htake, hrun, List.filterMap_cons, hnone]
      · by_cases heq : id' = id
        · subst heq
          grind
        · simp [heq]

end Required

/-- The accepting block as one engine is due it, if it has a transaction for that engine. -/
def due (b : Bool) (found : Hash → Option RpcTransaction) (acceptingHash : Hash)
    (acceptingBlock : RpcBlock) (ids : List Hash) (e : PrefixType × PatternType) :
    Option BlkAccepted :=
  if ids.filterMap (delivery b found e) = [] then none
  else some {
    acceptingHash
    acceptingDaa := acceptingBlock.daaScore
    acceptingTime := acceptingBlock.timestamp / 1000
    associatedTxs := ids.filterMap (delivery b found e) }

def message (b : Bool) (found : Hash → Option RpcTransaction) (acceptingHash : Hash)
    (acceptingBlock : RpcBlock) (ids : List Hash) (e : PrefixType × PatternType) : Option Sent :=
  (due b found acceptingHash acceptingBlock ids e).map fun blk => (e.1, .blkAccepted blk)

section
variable {b : Bool} {found : Hash → Option RpcTransaction} {ids : List Hash}
  {acceptingHash : Hash} {acceptingBlock : RpcBlock}

theorem consumed_length {live : Hash → Prop} [DecidablePred live] {e : PrefixType × PatternType}
    (hlive : ∀ id ∈ ids, (delivery b found e id).isSome → live id) :
    (ids.filterMap (delivery b found e)).length +
      (ids.filter fun id => live id ∧ ¬ (delivery b found e id).isSome).length =
        (ids.filter fun id => live id).length := by
  induction ids with
  | nil => rfl
  | cons id ids ih =>
    have htail := ih fun id' hid' => hlive id' (List.mem_cons_of_mem _ hid')
    have hhead := hlive id List.mem_cons_self
    cases hd : delivery b found e id with
    | some x =>
      have hl : live id := hhead (by rw [hd]; rfl)
      simp only [List.filterMap_cons, hd, List.filter_cons, hl, decide_true, if_true,
        List.length_cons, Option.isSome_some, not_true, and_false, decide_false,
        Bool.false_eq_true, if_false]
      omega
    | none =>
      by_cases hl : live id
      · simp only [List.filterMap_cons, hd, List.filter_cons, hl, decide_true, if_true,
          List.length_cons, Option.isSome_none, Bool.false_eq_true, not_false_eq_true, and_true]
        omega
      · simp only [List.filterMap_cons, hd, List.filter_cons, hl, decide_false, false_and,
          Bool.false_eq_true, if_false]
        exact htail

theorem dispatch_eq {live : Hash → Prop} [DecidablePred live] {r : Required} {consumedTxs : ℕ}
    {engines : List (PrefixType × PatternType)} (hids : ids.Nodup)
    (hengines : (engines.map (·.1)).Nodup) (h : r.Entries b live found)
    (hlive : ∀ e ∈ engines, ∀ id ∈ ids, (delivery b found e id).isSome → live id)
    (hcount : consumedTxs + (ids.filter fun id => live id).length = ids.length) :
    dispatch acceptingHash acceptingBlock ids engines consumedTxs r =
      some (engines.filterMap (message b found acceptingHash acceptingBlock ids)) := by
  induction engines generalizing live r consumedTxs with
  | nil => rfl
  | cons e engines ih =>
    obtain ⟨he, hengines⟩ := List.nodup_cons.mp hengines
    obtain ⟨r', hrun, hentries⟩ := Required.consume_entries (e := e) hids h
    have htxs : (ids.filterMap fun id => if live id then delivery b found e id else none) =
        ids.filterMap (delivery b found e) := by
      refine List.filterMap_congr fun id hid => ?_
      by_cases hl : live id
      · rw [if_pos hl]
      · have hnone := mt (hlive e List.mem_cons_self id hid) hl
        rw [if_neg hl, Option.not_isSome_iff_eq_none.mp hnone]
    rw [htxs] at hrun
    have hleft : (ids.filter fun id => live id ∧ ¬ (id ∈ ids ∧ (delivery b found e id).isSome)) =
        ids.filter fun id => live id ∧ ¬ (delivery b found e id).isSome := by
      refine List.filter_congr fun id hid => ?_
      simp only [hid, true_and]
    have hlen := consumed_length (hlive e List.mem_cons_self)
    -- an engine further on has another prefix, so what it matches is still there
    have hlive' : ∀ e' ∈ engines, ∀ id ∈ ids, (delivery b found e' id).isSome →
        live id ∧ ¬ (id ∈ ids ∧ (delivery b found e id).isSome) := by
      intro e' he' id hid hsome
      refine ⟨hlive e' (List.mem_cons_of_mem _ he') id hid hsome, fun ⟨_, htaken⟩ => he ?_⟩
      exact List.mem_map.mpr ⟨e', he', (delivery_unique htaken hsome).symm⟩
    have hcount' : consumedTxs + (ids.filterMap (delivery b found e)).length +
        (ids.filter fun id =>
          live id ∧ ¬ (id ∈ ids ∧ (delivery b found e id).isSome)).length = ids.length := by
      rw [hleft]
      omega
    have hrest := ih hengines hentries hlive' hcount'
    rw [dispatch, hrun, List.filterMap_cons]
    simp only [Option.bind_eq_bind, Option.bind_some]
    by_cases hall : consumedTxs + (ids.filterMap (delivery b found e)).length = ids.length
    · -- the loop ends early: nothing is left for the engines further on
      rw [if_pos hall]
      have hempty : (ids.filter fun id => live id ∧ ¬ (delivery b found e id).isSome) = [] :=
        List.length_eq_zero_iff.mp (by omega)
      have hnone : engines.filterMap (message b found acceptingHash acceptingBlock ids) = [] := by
        refine List.filterMap_eq_nil_iff.mpr fun e' he' => Option.map_eq_none_iff.mpr (if_pos ?_)
        refine List.filterMap_eq_nil_iff.mpr fun id hid => ?_
        refine Option.not_isSome_iff_eq_none.mp fun hsome => ?_
        obtain ⟨hl, hnot⟩ := hlive' e' he' id hid hsome
        have hnotmem := List.filter_eq_nil_iff.mp hempty id hid
        exact hnotmem (decide_eq_true ⟨hl, fun htaken => hnot ⟨hid, htaken⟩⟩)
      rw [hnone]
      by_cases hnil : ids.filterMap (delivery b found e) = []
      · simp only [message, due, hnil, if_true, Option.map_none]
      · simp only [message, due, hnil, if_false, Option.map_some]
    · rw [if_neg hall, hrest]
      by_cases hnil : ids.filterMap (delivery b found e) = []
      · simp only [message, due, hnil, if_true, Option.map_none, Option.bind_some, List.nil_append]
      · simp only [message, due, hnil, if_false, Option.map_some, Option.bind_some,
          List.singleton_append]

/-- Every required transaction is in one of the merged blocks that were fetched. -/
def Reached (ids : List Hash) (blocks : List (Option RpcBlock)) : Prop :=
  ∀ id ∈ ids, (firstTx (fetchedTxs blocks) id).isSome

theorem message_requiredTxs {engines : EngineMap} {e : PrefixType × PatternType}
    (he : e ∈ engines.entries) (acceptedIds : List Hash) :
    message b found acceptingHash acceptingBlock (requiredTxs engines acceptedIds) e =
      message b found acceptingHash acceptingBlock (acceptedIds.drop 1) e := by
  have hsame : (requiredTxs engines acceptedIds).filterMap (delivery b found e) =
      (acceptedIds.drop 1).filterMap (delivery b found e) := by
    unfold requiredTxs
    rw [List.filterMap_filter]
    refine List.filterMap_congr fun id _ => ?_
    by_cases hany : (engines.entries.any fun e => checkPattern id e.2) = true
    · rw [if_pos hany]
    · have hpattern : ¬ checkPattern id e.2 = true := fun hp =>
        hany (List.any_eq_true.mpr ⟨e, he, hp⟩)
      rw [if_neg hany, delivery, if_neg hpattern]
  unfold message due
  rw [hsame]

theorem newChainBlock_fetched {engines : EngineMap} {ncb : RpcAcceptedTransactionIds}
    {verbose : RpcBlockVerboseData} {mergedBlock : ℕ → Hash → Option RpcBlock}
    (hnodup : ncb.acceptedTransactionIds.Nodup)
    (hverbose : acceptingBlock.verboseData = some verbose) :
    ∃ msgs, newChainBlock engines ncb (some acceptingBlock) mergedBlock = some msgs ∧
      (Reached (requiredTxs engines ncb.acceptedTransactionIds)
          (verbose.mergeSet.mapIdx mergedBlock) →
        msgs = engines.entries.filterMap (message engines.txScriptBytes
          (firstTx (fetchedTxs (verbose.mergeSet.mapIdx mergedBlock))) ncb.acceptingBlockHash
          acceptingBlock (ncb.acceptedTransactionIds.drop 1))) ∧
      (¬ Reached (requiredTxs engines ncb.acceptedTransactionIds)
          (verbose.mergeSet.mapIdx mergedBlock) → msgs = []) := by
  have hids : (requiredTxs engines ncb.acceptedTransactionIds).Nodup :=
    (hnodup.sublist (List.drop_sublist 1 _)).filter _
  have hnew := Required.scanned_new engines.txScriptBytes hids
  obtain ⟨r, hrun, hscan⟩ :=
    Required.collectBlocks_scanned hids (verbose.mergeSet.mapIdx mergedBlock) hnew
  have hfound : Required.seen (fun _ => none) (fetchedTxs (verbose.mergeSet.mapIdx mergedBlock)) =
      firstTx (fetchedTxs (verbose.mergeSet.mapIdx mergedBlock)) := by
    funext id
    exact Option.none_or
  rw [hfound] at hscan
  have hmessages : engines.entries.filterMap (message engines.txScriptBytes
        (firstTx (fetchedTxs (verbose.mergeSet.mapIdx mergedBlock))) ncb.acceptingBlockHash
        acceptingBlock (requiredTxs engines ncb.acceptedTransactionIds)) =
      engines.entries.filterMap (message engines.txScriptBytes
        (firstTx (fetchedTxs (verbose.mergeSet.mapIdx mergedBlock))) ncb.acceptingBlockHash
        acceptingBlock (ncb.acceptedTransactionIds.drop 1)) :=
    List.filterMap_congr fun e he => message_requiredTxs he ncb.acceptedTransactionIds
  unfold newChainBlock
  -- nothing is required: the source does not fetch the merged blocks at all
  by_cases hzero : (Required.new (requiredTxs engines ncb.acceptedTransactionIds)).num = 0
  · have hnil : requiredTxs engines ncb.acceptedTransactionIds = [] := by
      refine List.eq_nil_iff_forall_not_mem.mpr fun id hid => ?_
      have hsome := hnew.all_found hzero id hid
      cases hsome
    refine ⟨[], by simp only [hzero, if_true], fun _ => ?_, fun _ => rfl⟩
    rw [← hmessages, hnil]
    exact (List.filterMap_eq_nil_iff.mpr fun e _ => rfl).symm
  · simp only [hzero, if_false, hverbose, hrun, Option.bind_eq_bind, Option.bind_some]
    -- the counter is zero if and only if every required transaction was found
    by_cases hnum : r.num = 0
    · have hreached : Reached (requiredTxs engines ncb.acceptedTransactionIds)
          (verbose.mergeSet.mapIdx mergedBlock) := hscan.all_found hnum
      have hcount : 0 + ((requiredTxs engines ncb.acceptedTransactionIds).filter fun id =>
          id ∈ requiredTxs engines ncb.acceptedTransactionIds).length =
            (requiredTxs engines ncb.acceptedTransactionIds).length := by
        simp
      rw [if_neg (not_not.mpr hnum), dispatch_eq hids engines.nodup hscan.toEntries
        (fun _ _ _ hid _ => hid) hcount, hmessages]
      exact ⟨_, rfl, fun _ => rfl, fun hnot => absurd hreached hnot⟩
    · rw [if_pos hnum]
      refine ⟨[], rfl, fun hreached => absurd ?_ hnum, fun _ => rfl⟩
      have hnil : Required.missing (requiredTxs engines ncb.acceptedTransactionIds)
          (firstTx (fetchedTxs (verbose.mergeSet.mapIdx mergedBlock))) = [] := by
        refine List.filter_eq_nil_iff.mpr fun id hid hnone => ?_
        exact Option.isSome_iff_ne_none.mp (hreached id hid) (Option.isNone_iff_eq_none.mp hnone)
      rw [hscan.num, hnil]
      rfl

/-- An accepting block never makes the counters underflow. When all its required
transactions are found, every engine gets one message with exactly its transactions, in
acceptance order, and no transaction goes to two engines; otherwise nothing is sent. -/
theorem newChainBlock_exact (engines : EngineMap) (ncb : RpcAcceptedTransactionIds)
    (hnodup : ncb.acceptedTransactionIds.Nodup) (acceptingBlock : Option RpcBlock)
    (mergedBlock : ℕ → Hash → Option RpcBlock) :
    ∃ msgs, newChainBlock engines ncb acceptingBlock mergedBlock = some msgs ∧
      ∀ block verbose, acceptingBlock = some block → block.verboseData = some verbose →
        let blocks := verbose.mergeSet.mapIdx mergedBlock
        let found := firstTx (fetchedTxs blocks)
        (Reached (requiredTxs engines ncb.acceptedTransactionIds) blocks →
          msgs = engines.entries.filterMap (message engines.txScriptBytes found
            ncb.acceptingBlockHash block (ncb.acceptedTransactionIds.drop 1))) ∧
        (¬ Reached (requiredTxs engines ncb.acceptedTransactionIds) blocks → msgs = []) ∧
        ∀ e ∈ engines.entries, ∀ e' ∈ engines.entries, ∀ id,
          (delivery engines.txScriptBytes found e id).isSome →
            (delivery engines.txScriptBytes found e' id).isSome → e = e' := by
  have hunique : ∀ found : Hash → Option RpcTransaction, ∀ e ∈ engines.entries,
      ∀ e' ∈ engines.entries, ∀ id, (delivery engines.txScriptBytes found e id).isSome →
        (delivery engines.txScriptBytes found e' id).isSome → e = e' := by
    intro found e he e' he' id h h'
    exact List.inj_on_of_nodup_map engines.nodup he he' (delivery_unique h h')
  cases acceptingBlock with
  | none =>
    refine ⟨[], ?_, fun _ _ h => by cases h⟩
    unfold newChainBlock
    exact ite_self _
  | some block =>
    cases hverbose : block.verboseData with
    | none =>
      refine ⟨[], ?_, fun block' verbose h h' => ?_⟩
      · unfold newChainBlock
        simp only [hverbose, ite_self]
      · obtain rfl := Option.some.inj h
        rw [hverbose] at h'
        cases h'
    | some verbose =>
      obtain ⟨msgs, hrun, hreached, hnot⟩ :=
        newChainBlock_fetched hnodup hverbose
      refine ⟨msgs, hrun, fun block' verbose' h h' => ?_⟩
      obtain rfl := Option.some.inj h
      obtain rfl := Option.some.inj (hverbose.symm.trans h')
      exact ⟨hreached, hnot, hunique _⟩

end
end Kdapp

namespace Kdapp

def coinbaseId : Hash := Hash.filled 2
def txId : Hash := Hash.filled 1
def mergedHash : Hash := Hash.filled 8
def chainHash : Hash := Hash.filled 9

def oddId : PatternType := Vector.replicate 10 (0, 1)

def twoEngines : EngineMap := ⟨[(11, oddId), (12, oddId)], by decide, true⟩

def commandTx : RpcTransaction := ⟨some txId, Payload.packHeader [5] 11, []⟩

def coinbaseTx : RpcTransaction := ⟨some coinbaseId, [], []⟩

def blockOf (transactions : List RpcTransaction) (mergeSet : List Hash) : RpcBlock where
  daaScore := 1
  timestamp := 1000
  transactions := transactions
  verboseData := some ⟨mergedHash, mergeSet, []⟩

def accepted : RpcAcceptedTransactionIds := ⟨chainHash, [coinbaseId, txId]⟩

/-- Both merged blocks hold the transaction; the first engine gets it, once. -/
theorem newChainBlock_exact_two :
    let merged := fun (_ : ℕ) (_ : Hash) => some (blockOf [coinbaseTx, commandTx] [])
    let block := blockOf [] [mergedHash, coinbaseId]
    ∃ msgs, newChainBlock twoEngines accepted (some block) merged = some msgs ∧
      msgs = twoEngines.entries.filterMap (message true
        (firstTx (fetchedTxs ([mergedHash, coinbaseId].mapIdx merged))) chainHash block
        [txId]) := by
  intro merged block
  obtain ⟨msgs, hrun, hall⟩ :=
    newChainBlock_exact twoEngines accepted (by decide) (some block) merged
  refine ⟨msgs, hrun, (hall block _ rfl rfl).1 ?_⟩
  unfold Reached
  decide

end Kdapp
