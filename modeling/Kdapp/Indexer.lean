import Kdapp.Auth
import Kdapp.Library.Keyspace
import Kdapp.Library.Scan

/-! The index of the comment rooms and its two stores (`kdapp-indexer/src/models.rs`,
`storage.rs`). `bincode` is a parameter, and `rocksdb` a map between byte strings, in the order of
its keys, whose prefix iterator is a parameter too. -/

namespace Kdapp.Indexer
open Borsh Keyspace
open Std (ExtTreeMap ExtTreeSet)
open WriteThrough (Tree)

attribute [local instance] lexOrd

structure EpisodeSnapshot where
  episodeId : UInt64
  creatorPubkey : Option String
  createdAt : UInt64
  authenticatedCount : UInt64
deriving DecidableEq

structure CommentRow where
  episodeId : UInt64
  commentId : UInt64
  author : String
  text : String
  timestamp : UInt64
deriving DecidableEq

structure EpisodeDetail where
  snapshot : EpisodeSnapshot
  recentComments : List CommentRow
deriving DecidableEq

inductive StoreError where
  | internal
deriving DecidableEq

structure StoreStats where
  episodes : ℕ
  comments : ℕ
  memberships : ℕ
deriving DecidableEq

class StoreTrait (S : Type) where
  upsertEpisode : S → EpisodeSnapshot → Except StoreError S
  addComment : S → CommentRow → Except StoreError S
  addMembership : S → String → UInt64 → Except StoreError S
  getEpisode : S → UInt64 → ℕ → Except StoreError (Option EpisodeDetail)
  getCommentsAfter : S → UInt64 → UInt64 → ℕ → Except StoreError (List CommentRow)
  getRecent : S → ℕ → Except StoreError (List EpisodeSnapshot)
  getMyEpisodes : S → String → ℕ → Except StoreError (List UInt64)
  stats : S → Except StoreError StoreStats

/-! ### In memory -/

/-- `Mem`; no thread panics while it holds one of the locks. -/
structure Mem where
  episodes : ExtTreeMap UInt64 EpisodeSnapshot
  /-- By episode and comment. -/
  comments : ExtTreeMap (UInt64 × UInt64) CommentRow
  memberships : ExtTreeMap String (ExtTreeSet UInt64)
  /-- An episode for each time of creation. -/
  recentOrder : ExtTreeMap UInt64 UInt64

namespace Mem

/-- `Mem::default`. -/
def init : Mem := ⟨∅, ∅, ∅, ∅⟩

variable (self : Mem)

def upsertEpisode (ep : EpisodeSnapshot) : Mem :=
  { self with
    episodes := self.episodes.insert ep.episodeId ep
    recentOrder := self.recentOrder.insert ep.createdAt ep.episodeId }

def addComment (row : CommentRow) : Mem :=
  { self with comments := self.comments.insert (row.episodeId, row.commentId) row }

def addMembership (pubkey : String) (episodeId : UInt64) : Mem :=
  { self with
    memberships := self.memberships.insert pubkey
      (((self.memberships[pubkey]?).getD ∅).insert episodeId) }

def getEpisode (id : UInt64) (recent : ℕ) : Option EpisodeDetail :=
  match self.episodes[id]? with
  | none => none
  | some ep =>
    let rows := Scan.collect (fun e => if e.1.1 = id then some e.2 else none)
      (fun e => e.1.1 = id) recent self.comments.toList.reverse
    some { snapshot := ep, recentComments := rows }

def getCommentsAfter (id afterTs : UInt64) (limit : ℕ) : List CommentRow :=
  Scan.collect (fun e => if e.1.1 = id ∧ e.2.timestamp > afterTs then some e.2 else none)
    (fun e => e.1.1 = id ∧ e.2.timestamp > afterTs) limit self.comments.toList

def getRecent (limit : ℕ) : List EpisodeSnapshot :=
  Scan.collect (fun e => self.episodes[e.2]?) (fun _ => true) limit
    self.recentOrder.toList.reverse

def getMyEpisodes (pubkey : String) (limit : ℕ) : List UInt64 :=
  match self.memberships[pubkey]? with
  | some set => set.toList.take limit
  | none => []

def stats : StoreStats where
  episodes := self.episodes.size
  comments := self.comments.size
  memberships := self.memberships.size

instance : StoreTrait Mem where
  upsertEpisode self ep := .ok (self.upsertEpisode ep)
  addComment self row := .ok (self.addComment row)
  addMembership self pubkey episodeId := .ok (self.addMembership pubkey episodeId)
  getEpisode self id recent := .ok (self.getEpisode id recent)
  getCommentsAfter self id afterTs limit := .ok (self.getCommentsAfter id afterTs limit)
  getRecent self limit := .ok (self.getRecent limit)
  getMyEpisodes self pubkey limit := .ok (self.getMyEpisodes pubkey limit)
  stats self := .ok self.stats

end Mem

/-! ### In RocksDB -/

/-- `bincode`, for values of one type. -/
class Bincode (T : Type) where
  serialize : T → Option Bytes
  deserialize : Bytes → Option T

def Bincode.Lawful (T : Type) [Bincode T] : Prop :=
  ∀ value : T, ∃ bytes, Bincode.serialize value = some bytes ∧
    Bincode.deserialize bytes = some value

theorem Bincode.Lawful.read {T : Type} [Bincode T] (h : Bincode.Lawful T) {value : T}
    {bytes : Bytes} (hwritten : Bincode.serialize value = some bytes) :
    Bincode.deserialize bytes = some value := by
  obtain ⟨bytes', hwritten', hread⟩ := h value
  obtain rfl : bytes' = bytes := Option.some.inj (hwritten'.symm.trans hwritten)
  exact hread

/-- What of `rocksdb` is left open: which entries `DB::prefix_iterator` gives. -/
class RocksDb where
  prefixIterator : Tree → Bytes → List (Bytes × Bytes)

/-- The entries whose keys start with the prefix. -/
def RocksDb.Exact [RocksDb] : Prop :=
  ∀ (db : Tree) (start : Bytes),
    prefixIterator db start = db.toList.filter fun kv => start.isPrefixOf kv.1

/-- A database without a prefix extractor, as `open_default` makes it: all that follows, from the
first key that starts with the prefix. -/
def RocksDb.RunsOn [RocksDb] : Prop :=
  ∀ (db : Tree) (start : Bytes),
    prefixIterator db start = db.toList.filter fun kv => (compare start kv.1).isLE

structure Rocks where
  db : Tree

namespace Rocks

def openDefault : Rocks := ⟨∅⟩

/-- The first bytes are `e`, `r`, `c` and `m`. -/
def keyEp (id : UInt64) : Bytes := 101 :: beBytes 8 id.toNat

def keyRecent (ts id : UInt64) : Bytes := 114 :: (beBytes 8 ts.toNat ++ beBytes 8 id.toNat)

def keyCommentPrefix (id : UInt64) : Bytes := 99 :: beBytes 8 id.toNat

def keyComment (id cid : UInt64) : Bytes := 99 :: (beBytes 8 id.toNat ++ beBytes 8 cid.toNat)

def keyMembers (pubkey : String) : Bytes := 109 :: asBytes pubkey

variable (self : Rocks)

def put (k v : Bytes) : Rocks := ⟨self.db.insert k v⟩

/-- `bincode::serialize` with its error mapped. -/
def serialized {T : Type} [Bincode T] (value : T) : Except StoreError Bytes :=
  match Bincode.serialize value with
  | some v => .ok v
  | none => .error .internal

def isRecent (k : Bytes) : Bool := k.head? = some 114 ∧ k.length = 17

/-- `u64::from_be_bytes` of the last eight bytes. -/
def recentId (k : Bytes) : UInt64 := UInt64.ofNat (ofLeBytes (k.drop 9).reverse)

def stats : StoreStats where
  episodes := self.db.toList.countP fun kv => kv.1.head? = some 101
  comments := self.db.toList.countP fun kv => kv.1.head? = some 99
  memberships := self.db.toList.countP fun kv => kv.1.head? = some 109

section
variable [Bincode EpisodeSnapshot]

def upsertEpisode (ep : EpisodeSnapshot) : Except StoreError Rocks := do
  let v ← serialized ep
  return (self.put (keyEp ep.episodeId) v).put (keyRecent ep.createdAt ep.episodeId) []

def getRecent (limit : ℕ) : List EpisodeSnapshot :=
  Scan.collect
    (fun kv => if isRecent kv.1 then
      (self.db[keyEp (recentId kv.1)]?).bind Bincode.deserialize else none)
    (fun kv => isRecent kv.1) limit self.db.toList.reverse

end

section
variable [Bincode CommentRow]

def addComment (row : CommentRow) : Except StoreError Rocks := do
  let v ← serialized row
  return self.put (keyComment row.episodeId row.commentId) v

def getEpisode [RocksDb] [Bincode EpisodeSnapshot] (id : UInt64) (recent : ℕ) :
    Except StoreError (Option EpisodeDetail) :=
  match self.db[keyEp id]? with
  | none => .ok none
  | some bytes =>
    match Bincode.deserialize bytes with
    | none => .error .internal
    | some snapshot =>
      let all : List CommentRow := (RocksDb.prefixIterator self.db (keyCommentPrefix id)).filterMap
        fun kv => Bincode.deserialize kv.2
      let all := all.mergeSort fun a b => a.commentId ≤ b.commentId
      .ok (some { snapshot, recentComments := all.reverse.take recent })

def getCommentsAfter [RocksDb] (id afterTs : UInt64) (limit : ℕ) : List CommentRow :=
  Scan.collect
    (fun kv => (Bincode.deserialize kv.2).bind fun r : CommentRow =>
      if r.timestamp > afterTs then some r else none)
    (fun _ => true) limit (RocksDb.prefixIterator self.db (keyCommentPrefix id))

end

section
variable [Bincode (List UInt64)]

def members (pubkey : String) : List UInt64 :=
  match self.db[keyMembers pubkey]? with
  | some bytes => (Bincode.deserialize bytes).getD []
  | none => []

def addMembership (pubkey : String) (episodeId : UInt64) : Except StoreError Rocks := do
  let list := self.members pubkey
  let list := if episodeId ∈ list then list else list ++ [episodeId]
  let v ← serialized list
  return self.put (keyMembers pubkey) v

def getMyEpisodes (pubkey : String) (limit : ℕ) : List UInt64 :=
  (self.members pubkey).take limit

end

instance [RocksDb] [Bincode EpisodeSnapshot] [Bincode CommentRow] [Bincode (List UInt64)] :
    StoreTrait Rocks where
  upsertEpisode self ep := self.upsertEpisode ep
  addComment self row := self.addComment row
  addMembership self pubkey episodeId := self.addMembership pubkey episodeId
  getEpisode self id recent := self.getEpisode id recent
  getCommentsAfter self id afterTs limit := .ok (self.getCommentsAfter id afterTs limit)
  getRecent self limit := .ok (self.getRecent limit)
  getMyEpisodes self pubkey limit := .ok (self.getMyEpisodes pubkey limit)
  stats self := .ok self.stats

end Rocks

/-! ### Calls -/

inductive Op where
  | upsertEpisode (ep : EpisodeSnapshot)
  | addComment (row : CommentRow)
  | addMembership (pubkey : String) (episodeId : UInt64)
deriving DecidableEq

inductive Query where
  | getEpisode (id : UInt64) (recent : ℕ)
  | getCommentsAfter (id afterTs : UInt64) (limit : ℕ)
  | getRecent (limit : ℕ)
  | getMyEpisodes (pubkey : String) (limit : ℕ)
  | stats

inductive Answer where
  | episode (detail : Option EpisodeDetail)
  | comments (rows : List CommentRow)
  | recent (episodes : List EpisodeSnapshot)
  | mine (episodeIds : List UInt64)
  | stats (stats : StoreStats)
deriving DecidableEq

section
variable {S : Type} [StoreTrait S]

def perform (store : S) : Op → Except StoreError S
  | .upsertEpisode ep => StoreTrait.upsertEpisode store ep
  | .addComment row => StoreTrait.addComment store row
  | .addMembership pubkey episodeId => StoreTrait.addMembership store pubkey episodeId

def performAll : List Op → S → Except StoreError S
  | [], store => return store
  | op :: ops, store => do
    let store ← perform store op
    performAll ops store

def answer (store : S) : Query → Except StoreError Answer
  | .getEpisode id recent => .episode <$> StoreTrait.getEpisode store id recent
  | .getCommentsAfter id afterTs limit =>
    .comments <$> StoreTrait.getCommentsAfter store id afterTs limit
  | .getRecent limit => .recent <$> StoreTrait.getRecent store limit
  | .getMyEpisodes pubkey limit => .mine <$> StoreTrait.getMyEpisodes store pubkey limit
  | .stats => .stats <$> StoreTrait.stats store

end

end Kdapp.Indexer
