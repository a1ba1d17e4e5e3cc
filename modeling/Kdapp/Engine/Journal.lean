import Kdapp.Engine.Run
import Mathlib.Logic.Function.Basic

/-! A journal kept beside the engine, for proofs only: every recorded creation and command gets
a serial number, and the journal says which command pushed each rollback object and which
record each entry of the revert map stands for. -/

namespace Kdapp
open Outcome

variable [Crypto]

/-- What one entry of the revert map was recorded for. `object` is what `execute` returned for a
command, and `incarnation` the serial number of the creation of the episode it acted on. -/
structure Record (G : Type) [Episode G] where
  serial : ℕ
  message : EpisodeMessage G
  metadata : PayloadMetadata
  object : Option (Episode.CommandRollback G)
  incarnation : ℕ

variable {G : Type} [Episode G]

def Record.episodeId (r : Record G) : EpisodeId := r.message.episodeId

def Record.entry (r : Record G) : Reversion := (r.episodeId, r.metadata)

/-- What a reversion did: nothing, as the episode is gone; took back the command with this serial
number; deleted the episode. -/
inductive Undone (G : Type) [Episode G] where
  | missing
  | popped (serial : Option ℕ) (before after : EpisodeWrapper G)
  | deleted

/-- A reversion of a record, and the incarnation that was live at that moment. -/
structure RevertEvent (G : Type) [Episode G] where
  record : Record G
  undone : Undone G
  incarnation : ℕ

/-- The top of the stack was this object, and the episode's own `rollback` got it. -/
def Pops (object : Episode.CommandRollback G) (before after : EpisodeWrapper G) : Prop :=
  before.rollbackStack = object :: after.rollbackStack ∧
    ∃ world world' res,
      (Episode.rollback before.episode object).run world = .ok ((after.episode, res), world')

/-- The reversion met the episode it was recorded for and took back that very record. -/
def RevertEvent.Exact (e : RevertEvent G) : Prop :=
  match e.undone with
  | .missing => True
  | .popped serial before after => serial = some e.record.serial ∧
    (∃ object, e.record.object = some object ∧ Pops object before after) ∧
    e.incarnation = e.record.incarnation
  | .deleted => e.record.object = none ∧ e.incarnation = e.record.serial ∧
    e.incarnation = e.record.incarnation

/-- `frames` has a frame for each accepted and not reverted block, newest first, and in it
the block's records, newest first. -/
structure Journal (G : Type) [Episode G] where
  next : ℕ
  frames : List (Hash × List (Record G))
  created : EpisodeId → ℕ
  pushed : EpisodeId → List ℕ

namespace Journal

def new : Journal G where
  next := 0
  frames := []
  created _ := 0
  pushed _ := []

def records (j : Journal G) : List (Record G) := j.frames.flatMap (·.2)

/-- What `execute` returns for the command of a message. -/
def returned (s : Engine G) (message : EpisodeMessage G) (metadata : PayloadMetadata) :
    Option (Episode.CommandRollback G) :=
  match message.command, s.episodes[message.episodeId]? with
  | some (cmd, auth), some w =>
    match (Episode.execute w.episode cmd auth metadata).run s.world with
    | .ok ((_, .ok object), _) => some object
    | _ => none
  | _, _ => none

/-- The journal after a message: a new record where the engine returned an entry. -/
def note (j : Journal G) (s : Engine G) (message : EpisodeMessage G) (metadata : PayloadMetadata)
    (revert : Option Reversion) : Journal G × List (Record G) :=
  match revert, message with
  | none, _ => (j, [])
  | some _, .newEpisode id ps =>
    ({ j with
        next := j.next + 1
        created := Function.update j.created id j.next
        pushed := Function.update j.pushed id [] },
      [⟨j.next, .newEpisode id ps, metadata, none, j.next⟩])
  | some _, message =>
    ({ j with
        next := j.next + 1
        pushed := Function.update j.pushed message.episodeId
          (j.next :: j.pushed message.episodeId) },
      [⟨j.next, message, metadata, returned s message metadata, j.created message.episodeId⟩])

/-- The journal after the reversion of a record, which made `t` of the engine `s`. -/
def unnote (j : Journal G) (s t : Engine G) (r : Record G) : Journal G × RevertEvent G :=
  match s.episodes[r.episodeId]?, t.episodes[r.episodeId]? with
  | none, _ => (j, ⟨r, .missing, j.created r.episodeId⟩)
  | some _, none => (j, ⟨r, .deleted, j.created r.episodeId⟩)
  | some w, some w' =>
    ({ j with
        pushed := Function.update j.pushed r.episodeId (j.pushed r.episodeId).tail },
      ⟨r, .popped (j.pushed r.episodeId).head? w w', j.created r.episodeId⟩)

end Journal

structure Traced (G : Type) [Episode G] where
  engine : Engine G
  journal : Journal G
  events : List (RevertEvent G)

namespace Traced

def new (world : Episode.World G) : Traced G := ⟨.new world, .new, []⟩

/-- The loop of an accepted block, with the records it adds, newest first. -/
def handleAll : List (EpisodeMessage G × PayloadMetadata) → Engine G → Journal G →
    Except (Panic G) (Engine G × Journal G × List (Record G))
  | [], s, j => return (s, j, [])
  | (a, md) :: as, s, j => do
    let out ← s.handleMessage a md
    let (s', j', records) ← handleAll as out.engine (j.note s a md out.revert).1
    return (s', j', records ++ (j.note s a md out.revert).2)

def accept (t : Traced G) (blk : BlkAccepted) : Except (Panic G) (Traced G) := do
  let (s, j, records) ← handleAll (Engine.actions blk blk.associatedTxs)
    (t.engine.filterOldEpisodes blk.acceptingDaa) t.journal
  return {
    engine := { s with
      revertMap := s.revertMap.insert blk.acceptingHash (records.reverse.map Record.entry) }
    journal := { j with frames := (blk.acceptingHash, records) :: j.frames }
    events := t.events }

def undoAll (hash : Hash) : List (Record G) → Engine G → Journal G →
    Except (Panic G) (Engine G × Journal G × List (RevertEvent G))
  | [], s, j => return (s, j, [])
  | r :: rs, s, j => do
    let out ← s.handleMessage (.revert r.episodeId) { r.metadata with acceptingHash := hash }
    let (s', j', events) ← undoAll hash rs out.engine (j.unnote s out.engine r).1
    return (s', j', (j.unnote s out.engine r).2 :: events)

def revertTop (t : Traced G) : Except (Panic G) (Traced G) :=
  match t.journal.frames with
  | [] => return t
  | (hash, records) :: frames => do
    let (s, j, events) ← undoAll hash records
      { t.engine with revertMap := t.engine.revertMap.erase hash } { t.journal with frames }
    return ⟨s, j, t.events ++ events⟩

/-- `start`, with the journal kept. A reverted block other than the newest is left to the
engine, which ignores it when its hash is unknown. -/
def start : List EngineMsg → Traced G → Except (Panic G) (Traced G)
  | [], t => return t
  | .blkAccepted blk :: msgs, t => do
    let t ← t.accept blk
    start msgs t
  | .blkReverted hash :: msgs, t =>
    if t.journal.frames.head?.map (·.1) = some hash then do
      let t ← t.revertTop
      start msgs t
    else start msgs t
  | .exit :: _, t => return t

end Traced
end Kdapp
