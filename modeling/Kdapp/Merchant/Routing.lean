import Kdapp.Auth
import Kdapp.Generator

/-! The routing identifiers of a merchant (`kdapp-merchant/src/program_id.rs` and the arguments
of `main.rs`), and which patterns a transaction id can match at all. -/

namespace Kdapp.Merchant
open Borsh

def prefixOf (digest : Hash) : PrefixType := UInt32.ofNat (ofLeBytes (digest.1.take 4))

def byteAt (digest : Hash) (i : ℕ) (h : i < 32) : UInt8 :=
  digest.1.get ⟨i, by
    rw [digest.2]
    exact h⟩

/-- A position from bytes 4 to 13 of a digest, a bit from bytes 14 to 23. -/
def pairAt (digest : Hash) (i : Fin 10) : UInt8 × UInt8 :=
  (byteAt digest (4 + i) (by omega), byteAt digest (14 + i) (by omega) &&& 1)

def patternOf (digest : Hash) : PatternType := Vector.ofFn (pairAt digest)

def deriveRoutingIds [Crypto] (merchant : PubKey) : PrefixType × PatternType :=
  let digest := Crypto.sha256 (asBytes "onlyKAS:routing" ++ merchant.serialize)
  (prefixOf digest, patternOf digest)

/-- `str::parse::<u8>`. -/
def parseU8 (text : List Char) : Option UInt8 := do
  let digits := match text with
    | '+' :: rest => rest
    | _ => text
  guard (digits ≠ [])
  let n ← digits.foldlM (fun n c => if c.isDigit then some (10 * n + (c.toNat - 48)) else none) 0
  if n < UInt8.size then some (UInt8.ofNat n) else none

def parsePair (part : List Char) : Option (UInt8 × UInt8) :=
  match part.dropWhile fun c => decide (c ≠ ':') with
  | [] => none
  | _ :: b => do
    let pos ← parseU8 (part.takeWhile fun c => decide (c ≠ ':'))
    let bit ← parseU8 b
    some (pos, bit)

def parsePattern (s : String) : Option PatternType := do
  let parts := s.toList.splitOn ','
  guard (parts.length = 10)
  let out ← parts.mapM parsePair
  if h : out.length = 10 then some ⟨out.toArray, h⟩ else none

def routingIds [Crypto] (prefixArg : Option PrefixType) (patternArg : Option String)
    (merchant : PubKey) : PrefixType × PatternType :=
  match prefixArg, patternArg.bind parsePattern with
  | some pref, some pat => (pref, pat)
  | _, _ => deriveRoutingIds merchant

def generatorOf [Crypto] [Consensus] (prefixArg : Option PrefixType) (patternArg : Option String)
    (merchant : PubKey) (signer : Consensus.Keypair) : TransactionGenerator where
  signer
  pattern := (routingIds prefixArg patternArg merchant).2
  prefixType := (routingIds prefixArg patternArg merchant).1

/-- The bit of a transaction id that a position of a pattern stands for. -/
def bitAt (txId : Hash) (pos : UInt8) : Bool :=
  (byteAt txId (pos.toNat / 8) (by
    have hpos := pos.toNat_lt
    omega)).toNat.testBit (pos.toNat % 8)

theorem checkPattern_iff {txId : Hash} {pattern : PatternType} :
    checkPattern txId pattern = true ↔
      ∀ p ∈ pattern.toList, p.2.toNat = (bitAt txId p.1).toNat := by
  unfold checkPattern
  rw [List.all_eq_true]
  apply forall₂_congr
  rintro ⟨pos, val⟩ -
  dsimp only
  rw [decide_eq_true_eq, ← UInt8.toNat_inj, UInt8.toNat_and, UInt8.toNat_shiftRight,
    UInt8.toNat_mod, UInt8.toNat_one, Nat.and_one_is_mod, Nat.shiftRight_eq_div_pow]
  unfold bitAt
  have height : pos.toNat % UInt8.toNat 8 % 8 = pos.toNat % 8 := Nat.mod_mod _ _
  rw [Nat.toNat_testBit, height]
  exact eq_comm

def Consistent (pattern : PatternType) : Prop :=
  ∀ p ∈ pattern.toList, p.2 ≤ 1 ∧ ∀ q ∈ pattern.toList, p.1 = q.1 → p.2 = q.2

instance (pattern : PatternType) : Decidable (Consistent pattern) :=
  inferInstanceAs (Decidable (∀ p ∈ pattern.toList, p.2 ≤ 1 ∧
    ∀ q ∈ pattern.toList, p.1 = q.1 → p.2 = q.2))

section
variable (pattern : PatternType)

def wantsOne (n : ℕ) : Bool := pattern.toList.any fun p => decide (p.1.toNat = n ∧ p.2 = 1)

def matchingId : Hash :=
  ⟨(List.range 32).map fun i =>
      UInt8.ofNat (Nat.ofBits fun b : Fin 8 => wantsOne pattern (8 * i + b)), by simp⟩

theorem bitAt_matchingId (pos : UInt8) :
    bitAt (matchingId pattern) pos = wantsOne pattern pos.toNat := by
  have hlt : pos.toNat % 8 < 8 := Nat.mod_lt _ (by decide)
  have hbyte : byteAt (matchingId pattern) (pos.toNat / 8) (by
      have hpos := pos.toNat_lt
      omega) = UInt8.ofNat (Nat.ofBits fun b : Fin 8 =>
        wantsOne pattern (8 * (pos.toNat / 8) + b)) := by
    unfold byteAt matchingId
    simp only [List.get_eq_getElem, List.getElem_map, List.getElem_range]
  unfold bitAt
  rw [hbyte, UInt8.toNat_ofNat_of_lt' (Nat.ofBits_lt_two_pow _), Nat.testBit_ofBits_lt _ _ hlt,
    Nat.div_add_mod]

end

theorem satisfiable_iff_consistent (pattern : PatternType) :
    (∃ txId, checkPattern txId pattern = true) ↔ Consistent pattern := by
  constructor
  · rintro ⟨txId, hmatch⟩ p hp
    rw [checkPattern_iff] at hmatch
    constructor
    · rw [UInt8.le_iff_toNat_le, hmatch p hp]
      exact Bool.toNat_le _
    · intro q hq hpos
      rw [← UInt8.toNat_inj, hmatch p hp, hmatch q hq, hpos]
  · intro h
    refine ⟨matchingId pattern, checkPattern_iff.mpr fun p hp => ?_⟩
    obtain ⟨hbit, hsame⟩ := h p hp
    rw [bitAt_matchingId]
    by_cases hone : p.2 = 1
    · have hwants : wantsOne pattern p.1.toNat = true :=
        List.any_eq_true.mpr ⟨p, hp, decide_eq_true ⟨rfl, hone⟩⟩
      rw [hwants, hone]
      rfl
    · -- no other pair asks for a one at this position
      have hwants : wantsOne pattern p.1.toNat = false := by
        rw [wantsOne, List.any_eq_false]
        intro q hq hwant
        obtain ⟨hpos, hval⟩ := of_decide_eq_true hwant
        exact hone ((hsame q hq (UInt8.toNat_inj.mp hpos.symm)).trans hval)
      have hzero : p.2.toNat ≠ 1 := fun hval => hone (UInt8.toNat_inj.mp hval)
      have hle : p.2.toNat ≤ 1 := UInt8.le_iff_toNat_le.mp hbit
      rw [hwants]
      exact Nat.lt_one_iff.mp (Nat.lt_of_le_of_ne hle hzero)

theorem buildTransaction_panics [Consensus] {self : TransactionGenerator}
    (h : ¬ Consistent self.pattern) (utxos : List Utxo) (sendAmount numOuts : UInt64)
    (recipient : Consensus.Address) (payload : Bytes) :
    self.buildTransaction utxos sendAmount numOuts recipient payload = none := by
  apply Option.eq_none_iff_forall_ne_some.mpr
  intro tx hbuild
  have hmatch := (TransactionGenerator.buildTransaction_some hbuild).1
  exact h ((satisfiable_iff_consistent self.pattern).mp ⟨tx.id, hmatch⟩)

theorem mem_patternOf {digest : Hash} {p : UInt8 × UInt8} :
    p ∈ (patternOf digest).toList ↔ ∃ i, pairAt digest i = p := by
  unfold patternOf
  rw [Vector.toList_ofFn, List.mem_ofFn]

theorem consistent_patternOf (digest : Hash) :
    Consistent (patternOf digest) ↔
      ∀ i j, (pairAt digest i).1 = (pairAt digest j).1 →
        (pairAt digest i).2 = (pairAt digest j).2 := by
  have hbit : ∀ b : UInt8, b &&& 1 ≤ 1 := by
    intro b
    rw [UInt8.le_iff_toNat_le, UInt8.toNat_and]
    exact Nat.and_le_right
  constructor
  · intro h i j
    exact (h _ (mem_patternOf.mpr ⟨i, rfl⟩)).2 _ (mem_patternOf.mpr ⟨j, rfl⟩)
  · intro h p hp
    obtain ⟨i, rfl⟩ := mem_patternOf.mp hp
    refine ⟨hbit _, fun q hq => ?_⟩
    obtain ⟨j, rfl⟩ := mem_patternOf.mp hq
    exact h i j

/-- A digest gives a pattern that some transaction id matches if and only if equal positions come
with equal bits; a pattern from the arguments, if and only if in addition its values are bits. With
any other pattern no transaction is ever built. -/
theorem routing_satisfiable_iff (digest : Hash) (s : String) :
    ((∃ txId, checkPattern txId (patternOf digest) = true) ↔
      ∀ i j, (pairAt digest i).1 = (pairAt digest j).1 →
        (pairAt digest i).2 = (pairAt digest j).2) ∧
    (∀ pattern : PatternType, parsePattern s = some pattern →
      ((∃ txId, checkPattern txId pattern = true) ↔ Consistent pattern)) ∧
    ∀ [Crypto] [Consensus] (prefixArg : Option PrefixType) (merchant : PubKey)
      (signer : Consensus.Keypair),
      ¬ Consistent (generatorOf prefixArg (some s) merchant signer).pattern →
        ∀ (utxos : List Utxo) (sendAmount numOuts : UInt64) (recipient : Consensus.Address)
          (payload : Bytes), (generatorOf prefixArg (some s) merchant signer).buildTransaction
            utxos sendAmount numOuts recipient payload = none := by
  refine ⟨?_, fun pattern _ => satisfiable_iff_consistent pattern, ?_⟩
  · exact (satisfiable_iff_consistent _).trans (consistent_patternOf digest)
  · intro _ _ prefixArg merchant signer h utxos sendAmount numOuts recipient payload
    exact buildTransaction_panics h utxos sendAmount numOuts recipient payload

def twos : String := "0:2,0:2,0:2,0:2,0:2,0:2,0:2,0:2,0:2,0:2"

theorem twos_parsed : parsePattern twos = some (Vector.replicate 10 (0, 2)) := by decide +kernel

/-- Ten times position 0, nine times with bit 0 and once with bit 1. -/
def contradictory : Hash := ⟨List.replicate 14 0 ++ 1 :: List.replicate 17 0, rfl⟩

theorem routing_satisfiable_at :
    (¬ ∃ txId, checkPattern txId (patternOf contradictory) = true) ∧
    ¬ ∃ txId, checkPattern txId (Vector.replicate 10 (0, 2)) = true := by
  obtain ⟨hdigest, htext, -⟩ := routing_satisfiable_iff contradictory twos
  constructor
  · intro h
    exact absurd (hdigest.mp h 0 1 (by decide)) (by decide)
  · intro h
    exact absurd ((htext _ twos_parsed).mp h) (by decide +kernel)

theorem unmatched_patterns :
    (¬ ∀ digest : Hash, ∃ txId, checkPattern txId (patternOf digest) = true) ∧
    ¬ ∀ (s : String) (pattern : PatternType), parsePattern s = some pattern →
      ∃ txId, checkPattern txId pattern = true := by
  constructor
  · intro h
    have hconsistent := (satisfiable_iff_consistent _).mp (h contradictory)
    exact absurd hconsistent (by decide +kernel)
  · intro h
    have hconsistent := (satisfiable_iff_consistent _).mp (h twos _ twos_parsed)
    exact absurd hconsistent (by decide +kernel)

end Kdapp.Merchant
