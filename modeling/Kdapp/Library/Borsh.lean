import Mathlib.Data.Nat.Basic
import Mathlib.Data.List.Basic
import Mathlib.Tactic.Ring

/-! Fixed-width byte strings of integers, and codecs in the borsh format: fields in
order, little-endian integers, a `u32` count before a sequence, one tag byte before an
alternative. -/

namespace Borsh

abbrev Bytes := List UInt8

def leBytes : ℕ → ℕ → Bytes
  | 0, _ => []
  | w + 1, n => UInt8.ofNat n :: leBytes w (n / 256)

def ofLeBytes : Bytes → ℕ
  | [] => 0
  | b :: bs => b.toNat + 256 * ofLeBytes bs

@[simp] theorem leBytes_length (w n : ℕ) : (leBytes w n).length = w := by
  induction w generalizing n with
  | zero => rfl
  | succ w ih => simp only [leBytes, List.length_cons, ih]

theorem ofLeBytes_leBytes (w n : ℕ) : ofLeBytes (leBytes w n) = n % 256 ^ w := by
  induction w generalizing n with
  | zero => simp only [leBytes, ofLeBytes, pow_zero, Nat.mod_one]
  | succ w ih =>
    have hsplit : n % (256 * 256 ^ w) = n % 256 + 256 * (n / 256 % 256 ^ w) := Nat.mod_mul
    simp only [leBytes, ofLeBytes, ih, UInt8.toNat_ofNat', pow_succ']
    exact hsplit.symm

theorem ofLeBytes_append (xs ys : Bytes) :
    ofLeBytes (xs ++ ys) = ofLeBytes xs + 256 ^ xs.length * ofLeBytes ys := by
  induction xs with
  | nil => simp only [List.nil_append, ofLeBytes, List.length_nil, pow_zero, one_mul, zero_add]
  | cons x xs ih =>
    simp only [List.cons_append, ofLeBytes, ih, List.length_cons, pow_succ]
    ring

theorem leBytes_inj {w m n : ℕ} (hm : m < 256 ^ w) (hn : n < 256 ^ w) :
    leBytes w m = leBytes w n ↔ m = n := by
  constructor
  · intro h
    have hv := congrArg ofLeBytes h
    rwa [ofLeBytes_leBytes, ofLeBytes_leBytes, Nat.mod_eq_of_lt hm, Nat.mod_eq_of_lt hn] at hv
  · rintro rfl
    rfl

theorem ofLeBytes_lt (bs : Bytes) : ofLeBytes bs < 256 ^ bs.length := by
  induction bs with
  | nil => exact Nat.one_pos
  | cons b bs ih =>
    have hb := b.toNat_lt
    rw [List.length_cons, pow_succ', ofLeBytes]
    omega

theorem leBytes_ofLeBytes (bs : Bytes) : leBytes bs.length (ofLeBytes bs) = bs := by
  induction bs with
  | nil => rfl
  | cons b bs ih =>
    have hb := b.toNat_lt
    have hlow : UInt8.ofNat (b.toNat + 256 * ofLeBytes bs) = b := by
      apply UInt8.toNat_inj.mp
      rw [UInt8.toNat_ofNat']
      omega
    have hhigh : (b.toNat + 256 * ofLeBytes bs) / 256 = ofLeBytes bs := by omega
    rw [List.length_cons, ofLeBytes, leBytes, hlow, hhigh, ih]

theorem ofLeBytes_u64 (a : UInt64) : UInt64.ofNat (ofLeBytes (leBytes 8 a.toNat)) = a := by
  rw [ofLeBytes_leBytes, Nat.mod_eq_of_lt (show a.toNat < 256 ^ 8 from a.toNat_lt),
    UInt64.ofNat_toNat]

/-- A writer and a reader of one type. The writer fails where a length does not fit
its `u32` prefix; the reader returns the bytes it leaves. -/
structure Codec (α : Type) where
  serialize : α → Option Bytes
  deserialize : Bytes → Option (α × Bytes)

namespace Codec
variable {α β : Type}

def Lawful (c : Codec α) : Prop :=
  ∀ a bs rest, c.serialize a = some bs → c.deserialize (bs ++ rest) = some (a, rest)

def fromSlice (c : Codec α) (bs : Bytes) : Option α :=
  match c.deserialize bs with
  | some (a, []) => some a
  | _ => none

theorem Lawful.fromSlice {c : Codec α} (h : c.Lawful) {a : α} {bs : Bytes}
    (hs : c.serialize a = some bs) : c.fromSlice bs = some a := by
  have hd := h a bs [] hs
  rw [List.append_nil] at hd
  simp only [Codec.fromSlice, hd]

/-- Reads exactly `n` bytes. -/
def readExact (n : ℕ) (bs : Bytes) : Option (Bytes × Bytes) :=
  if bs.length < n then none else some (bs.take n, bs.drop n)

theorem readExact_append {n : ℕ} {bs : Bytes} (h : bs.length = n) (rest : Bytes) :
    readExact n (bs ++ rest) = some (bs, rest) := by
  subst h
  simp only [readExact, List.length_append, Nat.not_lt.mpr (Nat.le_add_right _ _), if_false,
    List.take_left, List.drop_left]

/-- An unsigned integer of `w` bytes, little endian. -/
def uint (w : ℕ) (toNat : α → ℕ) (ofNat : ℕ → α) : Codec α where
  serialize a := some (leBytes w (toNat a))
  deserialize bs := (readExact w bs).map fun p => (ofNat (ofLeBytes p.1), p.2)

theorem uint_lawful {w : ℕ} {toNat : α → ℕ} {ofNat : ℕ → α}
    (h : ∀ a, ofNat (toNat a % 256 ^ w) = a) : (uint w toNat ofNat).Lawful := by
  rintro a bs rest hs
  obtain rfl := Option.some.inj hs
  simp only [uint, readExact_append (leBytes_length w (toNat a)), Option.map_some,
    ofLeBytes_leBytes, h]

def u8 : Codec UInt8 := uint 1 UInt8.toNat UInt8.ofNat
def u32 : Codec UInt32 := uint 4 UInt32.toNat UInt32.ofNat
def u64 : Codec UInt64 := uint 8 UInt64.toNat UInt64.ofNat

theorem u8_lawful : u8.Lawful := uint_lawful fun a => by
  rw [Nat.mod_eq_of_lt (show a.toNat < 256 ^ 1 from a.toNat_lt), UInt8.ofNat_toNat]

theorem u32_lawful : u32.Lawful := uint_lawful fun a => by
  rw [Nat.mod_eq_of_lt (show a.toNat < 256 ^ 4 from a.toNat_lt), UInt32.ofNat_toNat]

theorem u64_lawful : u64.Lawful := uint_lawful fun a => by
  rw [Nat.mod_eq_of_lt (show a.toNat < 256 ^ 8 from a.toNat_lt), UInt64.ofNat_toNat]

/-- An array of `n` bytes, written without a length. -/
def array (n : ℕ) : Codec {bs : Bytes // bs.length = n} where
  serialize a := some a.1
  deserialize bs :=
    if h : bs.length < n then none
    else some (⟨bs.take n, by rw [List.length_take]; omega⟩, bs.drop n)

theorem array_lawful (n : ℕ) : (array n).Lawful := by
  rintro ⟨a, rfl⟩ bs rest hs
  obtain rfl := Option.some.inj hs
  simp only [array, List.length_append, Nat.not_lt.mpr (Nat.le_add_right _ _), dite_false,
    List.take_left, List.drop_left]

def pair (c : Codec α) (d : Codec β) : Codec (α × β) where
  serialize p := do
    let x ← c.serialize p.1
    let y ← d.serialize p.2
    some (x ++ y)
  deserialize bs := do
    let (a, bs) ← c.deserialize bs
    let (b, bs) ← d.deserialize bs
    some ((a, b), bs)

theorem Lawful.pair {c : Codec α} {d : Codec β} (hc : c.Lawful) (hd : d.Lawful) :
    (c.pair d).Lawful := by
  rintro ⟨a, b⟩ bs rest hs
  simp only [Codec.pair, Option.bind_eq_bind, Option.bind_eq_some_iff, Option.some.injEq] at hs
  obtain ⟨x, hx, y, hy, rfl⟩ := hs
  simp only [Codec.pair, List.append_assoc, hc a x _ hx, hd b y _ hy, Option.bind_eq_bind,
    Option.bind_some]

/-- The codec of a type that is read and written through another one; `dec` fails on
what the reader must reject. -/
def via (c : Codec α) (enc : β → α) (dec : α → Option β) : Codec β where
  serialize b := c.serialize (enc b)
  deserialize bs := do
    let (a, bs) ← c.deserialize bs
    let b ← dec a
    some (b, bs)

theorem Lawful.via {c : Codec α} (hc : c.Lawful) {enc : β → α} {dec : α → Option β}
    (h : ∀ b, dec (enc b) = some b) : (c.via enc dec).Lawful := by
  intro b bs rest hs
  simp only [Codec.via, hc (enc b) bs rest hs, h b, Option.bind_eq_bind, Option.bind_some]

def serializeAll (c : Codec α) : List α → Option Bytes
  | [] => some []
  | a :: as => do
    let x ← c.serialize a
    let y ← serializeAll c as
    some (x ++ y)

def deserializeN (c : Codec α) : ℕ → Bytes → Option (List α × Bytes)
  | 0, bs => some ([], bs)
  | n + 1, bs => do
    let (a, bs) ← c.deserialize bs
    let (as, bs) ← deserializeN c n bs
    some (a :: as, bs)

theorem Lawful.deserializeN {c : Codec α} (hc : c.Lawful) (as : List α) (bs rest : Bytes)
    (hs : c.serializeAll as = some bs) :
    c.deserializeN as.length (bs ++ rest) = some (as, rest) := by
  induction as generalizing bs with
  | nil =>
    obtain rfl := Option.some.inj hs
    rfl
  | cons a as ih =>
    simp only [Codec.serializeAll, Option.bind_eq_bind, Option.bind_eq_some_iff,
      Option.some.injEq] at hs
    obtain ⟨x, hx, y, hy, rfl⟩ := hs
    simp only [List.length_cons, Codec.deserializeN, List.append_assoc, hc a x _ hx, ih y hy,
      Option.bind_eq_bind, Option.bind_some]

/-- `u32::try_from(len)`: the count of a sequence, where it fits. -/
def count (n : ℕ) : Option UInt32 :=
  if n < 2 ^ 32 then some (UInt32.ofNat n) else none

theorem count_toNat {n : ℕ} {k : UInt32} (h : count n = some k) : k.toNat = n := by
  unfold count at h
  split at h
  · obtain rfl := Option.some.inj h
    exact UInt32.toNat_ofNat_of_lt ‹_›
  · cases h

def vec (c : Codec α) : Codec (List α) where
  serialize as := do
    let len ← count as.length
    let x ← u32.serialize len
    let y ← c.serializeAll as
    some (x ++ y)
  deserialize bs := do
    let (len, bs) ← u32.deserialize bs
    c.deserializeN len.toNat bs

theorem Lawful.vec {c : Codec α} (hc : c.Lawful) : c.vec.Lawful := by
  intro as bs rest hs
  simp only [Codec.vec, Option.bind_eq_bind, Option.bind_eq_some_iff, Option.some.injEq] at hs
  obtain ⟨len, hlen, x, hx, y, hy, rfl⟩ := hs
  simp only [Codec.vec, List.append_assoc, u32_lawful len x _ hx, Option.bind_eq_bind,
    Option.bind_some, count_toNat hlen, hc.deserializeN as y rest hy]

/-- Bytes behind a `u32` count, as `Vec<u8>` is written. -/
def bytes : Codec Bytes where
  serialize as := (count as.length).map fun len => leBytes 4 len.toNat ++ as
  deserialize bs := do
    let (len, bs) ← u32.deserialize bs
    readExact len.toNat bs

theorem bytes_lawful : bytes.Lawful := by
  intro as bs rest hs
  simp only [bytes, Option.map_eq_some_iff] at hs
  obtain ⟨len, hlen, rfl⟩ := hs
  simp only [bytes, List.append_assoc, u32_lawful len _ (as ++ rest) rfl, Option.bind_eq_bind,
    Option.bind_some, readExact_append (count_toNat hlen).symm]

/-- UTF-8 text behind a `u32` count; the reader rejects bytes that are not UTF-8. -/
def string : Codec String :=
  bytes.via (fun s => s.toByteArray.data.toList) fun bs => String.fromUTF8? ⟨bs.toArray⟩

theorem string_lawful : string.Lawful := by
  refine bytes_lawful.via fun s => ?_
  have hdata : (⟨s.toByteArray.data.toList.toArray⟩ : ByteArray) = s.toByteArray := by
    simp only [Array.toArray_toList]
  rw [hdata, String.fromUTF8?, dif_pos s.isValidUTF8]
  rfl

theorem bytes_length {as bs rest : Bytes} (h : bytes.deserialize bs = some (as, rest)) :
    as.length < 2 ^ 32 := by
  obtain ⟨⟨len, bs'⟩, -, hread⟩ := Option.bind_eq_some_iff.mp h
  unfold readExact at hread
  dsimp only at hread
  split at hread
  · cases hread
  · cases hread
    rw [List.length_take]
    exact (Nat.min_le_left _ _).trans_lt len.toNat_lt

theorem string_serialize {s : String} {bs rest : Bytes}
    (h : string.deserialize bs = some (s, rest)) : ∃ bs', string.serialize s = some bs' := by
  obtain ⟨⟨as, bs'⟩, hbytes, hvalid⟩ := Option.bind_eq_some_iff.mp h
  obtain ⟨t, ht, heq⟩ := Option.bind_eq_some_iff.mp hvalid
  cases heq
  have hdata : s.toByteArray.data.toList = as := by
    unfold String.fromUTF8? at ht
    dsimp only at ht
    split at ht
    · cases ht
      rfl
    · cases ht
  have hlen := bytes_length hbytes
  refine ⟨leBytes 4 (UInt32.ofNat as.length).toNat ++ as, ?_⟩
  simp only [string, via, bytes, hdata, count, if_pos hlen, Option.map_some]

theorem Lawful.tagged {c : Codec α} (hc : c.Lawful) {tag : UInt8} {a : α} {bs : Bytes}
    (rest : Bytes) (hs : (c.serialize a).map (tag :: ·) = some bs) :
    ∃ x, bs ++ rest = tag :: x ∧ c.deserialize x = some (a, rest) := by
  obtain ⟨x, hx, rfl⟩ := Option.map_eq_some_iff.mp hs
  exact ⟨x ++ rest, List.cons_append, hc a x rest hx⟩

def option (c : Codec α) : Codec (Option α) where
  serialize
    | none => some [0]
    | some a => (c.serialize a).map (1 :: ·)
  deserialize
    | 0 :: bs => some (none, bs)
    | 1 :: bs => (c.deserialize bs).map fun p => (some p.1, p.2)
    | _ => none

theorem Lawful.option {c : Codec α} (hc : c.Lawful) : c.option.Lawful := by
  rintro (_ | a) bs rest hs
  · obtain rfl := Option.some.inj hs
    rfl
  · obtain ⟨x, hbs, hx⟩ := hc.tagged rest hs
    simp only [Codec.option, hbs, hx, Option.map_some]

def Total (c : Codec α) : Prop := ∀ a, (c.serialize a).isSome = true

theorem uint_total {w : ℕ} {toNat : α → ℕ} {ofNat : ℕ → α} : (uint w toNat ofNat).Total :=
  fun _ => rfl

theorem u64_total : u64.Total := uint_total

theorem Total.pair {c : Codec α} {d : Codec β} (hc : c.Total) (hd : d.Total) :
    (c.pair d).Total := by
  rintro ⟨a, b⟩
  obtain ⟨x, hx⟩ := Option.isSome_iff_exists.mp (hc a)
  obtain ⟨y, hy⟩ := Option.isSome_iff_exists.mp (hd b)
  simp only [Codec.pair, hx, hy, Option.bind_eq_bind, Option.bind_some, Option.isSome_some]

theorem Total.via {c : Codec α} (hc : c.Total) {enc : β → α} {dec : α → Option β} :
    (c.via enc dec).Total :=
  fun b => hc (enc b)

theorem Total.serializeAll {c : Codec α} (hc : c.Total) (as : List α) :
    (c.serializeAll as).isSome = true := by
  induction as with
  | nil => rfl
  | cons a as ih =>
    obtain ⟨x, hx⟩ := Option.isSome_iff_exists.mp (hc a)
    obtain ⟨y, hy⟩ := Option.isSome_iff_exists.mp ih
    simp only [Codec.serializeAll, hx, hy, Option.bind_eq_bind, Option.bind_some,
      Option.isSome_some]

theorem Total.option {c : Codec α} (hc : c.Total) : c.option.Total := by
  rintro (_ | a)
  · rfl
  · simp only [Codec.option, Option.isSome_map, hc a]

end Codec
end Borsh
