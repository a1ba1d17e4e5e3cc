import Kdapp.Indexer

/-! The format of `bincode`, for the values that the database holds. -/

namespace Kdapp.Indexer
open Borsh

namespace SampleBincode

def long : UInt64 := UInt64.ofNat (2 ^ 64 - 1)

/-- Lengths take eight bytes. One that is too long for them, which no text has, takes more. -/
def len : Codec ℕ where
  serialize n :=
    if n < 2 ^ 64 - 1 then Codec.u64.serialize (UInt64.ofNat n)
    else (Codec.u64.serialize long).map (· ++ (List.replicate (n - (2 ^ 64 - 1)) 1 ++ [0]))
  deserialize bs := do
    let (k, bs) ← Codec.u64.deserialize bs
    if k = long then
      let ones := bs.takeWhile (· = 1)
      some (2 ^ 64 - 1 + ones.length, bs.drop (ones.length + 1))
    else some (k.toNat, bs)

theorem len_lawful : len.Lawful := by
  intro n bs rest hs
  simp only [len] at hs
  split at hs
  · rename_i hsmall
    have hnat : (UInt64.ofNat n).toNat = n := UInt64.toNat_ofNat_of_lt (by
      change n < 2 ^ 64
      omega)
    have hshort : UInt64.ofNat n ≠ long := by
      intro heq
      have htoNat := congrArg UInt64.toNat heq
      rw [hnat, long, UInt64.toNat_ofNat'] at htoNat
      omega
    simp only [len, Codec.u64_lawful _ bs rest hs, Option.bind_eq_bind, Option.bind_some,
      if_neg hshort, hnat]
  · rename_i hlarge
    obtain ⟨high, hhigh, rfl⟩ := Option.map_eq_some_iff.mp hs
    have hones : (List.replicate (n - (2 ^ 64 - 1)) (1 : UInt8) ++ ([0] ++ rest)).takeWhile
        (fun b => decide (b = 1)) = List.replicate (n - (2 ^ 64 - 1)) 1 := by
      rw [List.takeWhile_append_of_pos]
      · simp
      · intro b hb
        exact decide_eq_true (List.eq_of_mem_replicate hb)
    simp only [len, List.append_assoc, Codec.u64_lawful _ high _ hhigh, Option.bind_eq_bind,
      Option.bind_some, if_true, hones, List.length_replicate, Option.some.injEq, Prod.mk.injEq]
    constructor
    · omega
    · rw [← List.append_assoc]
      apply List.drop_left'
      simp

theorem len_total : len.Total := by
  intro n
  simp only [len]
  split <;> rfl

def text : Codec String where
  serialize s := (len.serialize (asBytes s).length).map (· ++ asBytes s)
  deserialize bs := do
    let (n, bs) ← len.deserialize bs
    let (utf8, bs) ← Codec.readExact n bs
    let s ← String.fromUTF8? ⟨utf8.toArray⟩
    some (s, bs)

theorem text_lawful : text.Lawful := by
  intro s bs rest hs
  obtain ⟨x, hx, rfl⟩ := Option.map_eq_some_iff.mp hs
  simp only [text, List.append_assoc, len_lawful _ x _ hx, Codec.readExact_append rfl,
    fromUTF8_asBytes, Option.bind_eq_bind, Option.bind_some]

theorem text_total : text.Total := by
  intro s
  simp only [text, Option.isSome_map, len_total _]

def ids : Codec (List UInt64) where
  serialize as := do
    let x ← len.serialize as.length
    let y ← Codec.u64.serializeAll as
    some (x ++ y)
  deserialize bs := do
    let (n, bs) ← len.deserialize bs
    Codec.u64.deserializeN n bs

theorem ids_lawful : ids.Lawful := by
  intro as bs rest hs
  simp only [ids, Option.bind_eq_bind, Option.bind_eq_some_iff, Option.some.injEq] at hs
  obtain ⟨x, hx, y, hy, rfl⟩ := hs
  simp only [ids, List.append_assoc, len_lawful _ x _ hx, Option.bind_eq_bind, Option.bind_some,
    Codec.u64_lawful.deserializeN as y rest hy]

theorem ids_total : ids.Total := by
  intro as
  obtain ⟨x, hx⟩ := Option.isSome_iff_exists.mp (len_total as.length)
  obtain ⟨y, hy⟩ := Option.isSome_iff_exists.mp (Codec.u64_total.serializeAll as)
  simp only [ids, hx, hy, Option.bind_eq_bind, Option.bind_some, Option.isSome_some]

def snapshot : Codec EpisodeSnapshot :=
  (Codec.u64.pair (text.option.pair (Codec.u64.pair Codec.u64))).via
    (fun ep => (ep.episodeId, ep.creatorPubkey, ep.createdAt, ep.authenticatedCount))
    fun p => some ⟨p.1, p.2.1, p.2.2.1, p.2.2.2⟩

def row : Codec CommentRow :=
  (Codec.u64.pair (Codec.u64.pair (text.pair (text.pair Codec.u64)))).via
    (fun row => (row.episodeId, row.commentId, row.author, row.text, row.timestamp))
    fun p => some ⟨p.1, p.2.1, p.2.2.1, p.2.2.2.1, p.2.2.2.2⟩

@[reducible] def ofCodec {T : Type} (c : Codec T) : Bincode T where
  serialize := c.serialize
  deserialize bs := (c.deserialize bs).map (·.1)

theorem lawful_ofCodec {T : Type} {c : Codec T} (hlawful : c.Lawful) (htotal : c.Total) :
    @Bincode.Lawful T (ofCodec c) := by
  intro value
  obtain ⟨bytes, hbytes⟩ := Option.isSome_iff_exists.mp (htotal value)
  have hread := hlawful value bytes [] hbytes
  rw [List.append_nil] at hread
  refine ⟨bytes, hbytes, ?_⟩
  change (c.deserialize bytes).map (·.1) = some value
  rw [hread]
  rfl

@[reducible] def snapshots : Bincode EpisodeSnapshot := ofCodec snapshot
@[reducible] def rows : Bincode CommentRow := ofCodec row
@[reducible] def lists : Bincode (List UInt64) := ofCodec ids

theorem snapshots_lawful : @Bincode.Lawful EpisodeSnapshot snapshots := by
  refine lawful_ofCodec (Codec.Lawful.via ?_ fun _ => rfl) (Codec.Total.via ?_)
  · exact Codec.u64_lawful.pair (text_lawful.option.pair (Codec.u64_lawful.pair Codec.u64_lawful))
  · exact Codec.u64_total.pair (text_total.option.pair (Codec.u64_total.pair Codec.u64_total))

theorem rows_lawful : @Bincode.Lawful CommentRow rows := by
  refine lawful_ofCodec (Codec.Lawful.via ?_ fun _ => rfl) (Codec.Total.via ?_)
  · exact Codec.u64_lawful.pair (Codec.u64_lawful.pair
      (text_lawful.pair (text_lawful.pair Codec.u64_lawful)))
  · exact Codec.u64_total.pair (Codec.u64_total.pair
      (text_total.pair (text_total.pair Codec.u64_total)))

theorem lists_lawful : @Bincode.Lawful (List UInt64) lists := lawful_ofCodec ids_lawful ids_total

/-! The two ways in which a scan of a prefix ends. -/

@[reducible] def heldToPrefix : RocksDb where
  prefixIterator db start := db.toList.filter fun kv => start.isPrefixOf kv.1

@[reducible] def runningOn : RocksDb where
  prefixIterator db start := db.toList.filter fun kv => (compare start kv.1).isLE

theorem heldToPrefix_exact : @RocksDb.Exact heldToPrefix := fun _ _ => rfl

theorem runningOn_runsOn : @RocksDb.RunsOn runningOn := fun _ _ => rfl

end SampleBincode
end Kdapp.Indexer
