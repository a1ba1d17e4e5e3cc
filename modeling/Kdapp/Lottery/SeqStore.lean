import Kdapp.Library.Outcome
import Kdapp.Lottery.OffChain
import Kdapp.TicTacToe.Player

/-! The file that keeps the numbers of the client from one process to the next
(`read_seq_store` and `write_seq_store` of `kas-draw/src/offchain_client.rs`). -/

namespace Kdapp.Lottery.Client
open FiniteMap Text
open CommentBoard (isWhitespace)
open PlayTtt (trim)
open Std (ExtTreeMap)

def readLine (m : LastSeq) (line : List Char) : LastSeq :=
  match (trim line).splitOn ',' with
  | [eid, seq] =>
    match parseU64 eid, parseU64 seq with
    | some eid, some seq => m.insert eid seq
    | _, _ => m
  | _ => m

/-- `none` is a file that is not there or cannot be read. -/
def readSeqStore : Option (List Char) → LastSeq
  | some s => (lines s).foldl readLine ∅
  | none => ∅

def seqRow (k v : UInt64) : List Char := k.toNat.repr.toList ++ ',' :: v.toNat.repr.toList

def writeSeqStore (m : LastSeq) : List Char := unlines (m.toList.map fun e => seqRow e.1 e.2)

/-- `auto_seq`: the next number, and the file with it. -/
def autoSeqFile (file : Option (List Char)) (episodeId : UInt64) (new : Bool) :
    UInt64 × List Char :=
  let (next, store) := autoSeq (readSeqStore file) episodeId new
  (next, writeSeqStore store)

section RoundTrip

theorem isWhitespace_of_isDigit {c : Char} (h : c.isDigit = true) : isWhitespace c = false := by
  have hdigit : 48 ≤ c.toNat ∧ c.toNat ≤ 57 := by
    rw [Char.isDigit, Bool.and_eq_true, decide_eq_true_eq, decide_eq_true_eq] at h
    exact h
  have hnone : ∀ n < 58, 48 ≤ n →
      [0x20, 0x85, 0xa0, 0x1680, 0x2028, 0x2029, 0x202f, 0x205f, 0x3000].contains n = false := by
    decide
  rw [isWhitespace, hnone c.toNat (by omega) hdigit.1, Bool.or_false, decide_eq_false_iff_not]
  omega

theorem trim_of_not_blank {text : List Char} (h : ∀ c ∈ text, isWhitespace c = false) :
    trim text = text := by
  have hkept : ∀ l : List Char, (∀ c ∈ l, isWhitespace c = false) →
      l.dropWhile isWhitespace = l := by
    intro l hl
    cases l with
    | nil => rfl
    | cons c l => exact List.dropWhile_cons_of_neg (ne_true_of_eq_false (hl c List.mem_cons_self))
  rw [trim, hkept text h, hkept _ fun c hc => h c (List.mem_reverse.mp hc), List.reverse_reverse]

theorem mem_seqRow {k v : UInt64} {c : Char} (h : c ∈ seqRow k v) : c.isDigit = true ∨ c = ',' := by
  have hdigit : ∀ n : UInt64, c ∈ n.toNat.repr.toList → c.isDigit = true := by
    intro n hn
    rw [Nat.toList_repr] at hn
    exact Nat.isDigit_of_mem_toDigits (by decide) (by decide) hn
  rcases List.mem_append.mp h with hkey | hrest
  · exact .inl (hdigit k hkey)
  · rcases List.mem_cons.mp hrest with hcomma | hvalue
    · exact .inr hcomma
    · exact .inl (hdigit v hvalue)

theorem readLine_seqRow (m : LastSeq) (k v : UInt64) : readLine m (seqRow k v) = m.insert k v := by
  have htrim : trim (seqRow k v) = seqRow k v := by
    apply trim_of_not_blank
    intro c hc
    rcases mem_seqRow hc with hdigit | rfl
    · exact isWhitespace_of_isDigit hdigit
    · rfl
  have hcomma : ∀ n : UInt64, ',' ∉ Nat.toDigits 10 n.toNat := fun n =>
    not_mem_toDigits rfl n.toNat
  have hsplit : (seqRow k v).splitOn ',' = [Nat.toDigits 10 k.toNat, Nat.toDigits 10 v.toNat] := by
    rw [seqRow, Nat.toList_repr, Nat.toList_repr]
    exact splitOn_pair (hcomma k) (hcomma v)
  rw [readLine, htrim, hsplit]
  dsimp only
  rw [parseU64_toDigits, parseU64_toDigits]

theorem foldl_insert_toList (m : LastSeq) :
    m.toList.foldl (fun m e => m.insert e.1 e.2) ∅ = m := by
  rw [← ExtTreeMap.insertMany_list_eq_foldl]
  apply ExtTreeMap.ext_getElem?
  intro k
  cases hk : m[k]? with
  | some v =>
    exact ExtTreeMap.getElem?_insertMany_list_of_mem Std.ReflCmp.compare_self
      ExtTreeMap.distinct_keys_toList (ExtTreeMap.mem_toList_iff_getElem?_eq_some.mpr hk)
  | none =>
    have habsent : (m.toList.map Prod.fst).contains k = false := by
      rw [ExtTreeMap.map_fst_toList_eq_keys, Bool.eq_false_iff]
      intro hmem
      rw [List.contains_iff_mem, ExtTreeMap.mem_keys] at hmem
      obtain ⟨v, hv⟩ := exists_of_mem hmem
      cases hk.symm.trans hv
    rw [ExtTreeMap.getElem?_insertMany_list_of_contains_eq_false habsent]
    exact ExtTreeMap.getElem?_empty

theorem readSeqStore_writeSeqStore (m : LastSeq) : readSeqStore (some (writeSeqStore m)) = m := by
  have hmissing : ∀ c : Char, c.isDigit = false → c ≠ ',' →
      ∀ row ∈ m.toList.map fun e => seqRow e.1 e.2, c ∉ row := by
    intro c hdigit hcomma row hrow hc
    obtain ⟨e, -, rfl⟩ := List.mem_map.mp hrow
    rcases mem_seqRow hc with h | h
    · exact Bool.false_ne_true (hdigit.symm.trans h)
    · exact hcomma h
  have hlines := lines_unlines (hmissing '\n' rfl (by decide)) (hmissing '\r' rfl (by decide))
  rw [writeSeqStore, readSeqStore, hlines, List.foldl_map]
  simp only [readLine_seqRow]
  exact foldl_insert_toList m

end RoundTrip
end Kdapp.Lottery.Client
