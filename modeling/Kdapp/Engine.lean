import Kdapp.Episode

/-! The engine that runs the episodes of one type (`kdapp/src/engine.rs`). -/

namespace Kdapp
open Borsh
open Std (ExtTreeMap)

/-- `EPISODE_LIFETIME`, about three days of DAA score. -/
def episodeLifetime : UInt64 := 2592000

/-- `SAMPLE_REMOVAL_TIME`, about twelve hours. -/
def sampleRemovalTime : UInt64 := 432000

structure BlkAccepted where
  acceptingHash : Hash
  acceptingDaa : UInt64
  acceptingTime : UInt64
  associatedTxs : List (Hash × Bytes × Option (List TxOutputInfo))
deriving DecidableEq

def BlkAccepted.metadata (blk : BlkAccepted) (txId : Hash)
    (txOutputs : Option (List TxOutputInfo)) : PayloadMetadata where
  acceptingHash := blk.acceptingHash
  acceptingDaa := blk.acceptingDaa
  acceptingTime := blk.acceptingTime
  txId := txId
  txOutputs := txOutputs

inductive EngineMsg where
  | blkAccepted (blk : BlkAccepted)
  | blkReverted (acceptingHash : Hash)
  | exit
deriving DecidableEq

variable [Crypto]

inductive EpisodeMessage (G : Type) [Episode G] where
  | newEpisode (episodeId : EpisodeId) (participants : List PubKey)
  | signedCommand (episodeId : EpisodeId) (cmd : Episode.Command G) (pubkey : PubKey) (sig : Sig)
  | unsignedCommand (episodeId : EpisodeId) (cmd : Episode.Command G)
  | revert (episodeId : EpisodeId)

variable {G : Type} [Episode G]

namespace EpisodeMessage

/-- `new_signed_command`; `none` is the panic of `to_message`. -/
def newSignedCommand (episodeId : EpisodeId) (cmd : Episode.Command G) (sk : Crypto.SecretKey)
    (pk : PubKey) : Option (EpisodeMessage G) :=
  (toMessage (Episode.codec (G := G)) cmd).map fun msg =>
    .signedCommand episodeId cmd pk (signMessage sk msg)

def episodeId : EpisodeMessage G → EpisodeId
  | .newEpisode episodeId _ => episodeId
  | .signedCommand episodeId _ _ _ => episodeId
  | .unsignedCommand episodeId _ => episodeId
  | .revert episodeId => episodeId

/-- The fields of the four variants, in the order they are written. -/
def newEpisodeFields : Codec (EpisodeId × List PubKey) := Codec.u32.pair PubKey.codec.vec

def signedCommandFields (G : Type) [Episode G] :
    Codec (EpisodeId × Episode.Command G × PubKey × Sig) :=
  Codec.u32.pair ((Episode.codec (G := G)).pair (PubKey.codec.pair Sig.codec))

def unsignedCommandFields (G : Type) [Episode G] : Codec (EpisodeId × Episode.Command G) :=
  Codec.u32.pair (Episode.codec (G := G))

def codec : Codec (EpisodeMessage G) where
  serialize
    | .newEpisode id ps => (newEpisodeFields.serialize (id, ps)).map (0 :: ·)
    | .signedCommand id cmd pk sig =>
      ((signedCommandFields G).serialize (id, cmd, pk, sig)).map (1 :: ·)
    | .unsignedCommand id cmd => ((unsignedCommandFields G).serialize (id, cmd)).map (2 :: ·)
    | .revert id => (Codec.u32.serialize id).map (3 :: ·)
  deserialize
    | 0 :: bs => (newEpisodeFields.deserialize bs).map fun ((id, ps), bs) =>
      (.newEpisode id ps, bs)
    | 1 :: bs => ((signedCommandFields G).deserialize bs).map fun ((id, cmd, pk, sig), bs) =>
      (.signedCommand id cmd pk sig, bs)
    | 2 :: bs => ((unsignedCommandFields G).deserialize bs).map fun ((id, cmd), bs) =>
      (.unsignedCommand id cmd, bs)
    | 3 :: bs => (Codec.u32.deserialize bs).map fun (id, bs) => (.revert id, bs)
    | _ => none

theorem codec_lawful (h : (Episode.codec (G := G)).Lawful) :
    (codec : Codec (EpisodeMessage G)).Lawful := by
  have hnew : newEpisodeFields.Lawful := Codec.u32_lawful.pair PubKey.codec_lawful.vec
  have hsigned : (signedCommandFields G).Lawful :=
    Codec.u32_lawful.pair (h.pair (PubKey.codec_lawful.pair Sig.codec_lawful))
  have hunsigned : (unsignedCommandFields G).Lawful := Codec.u32_lawful.pair h
  intro a bs rest hs
  cases a with
  | newEpisode id ps =>
    obtain ⟨x, hbs, hx⟩ := hnew.tagged rest hs
    simp only [codec, hbs, hx, Option.map_some]
  | signedCommand id cmd pk sig =>
    obtain ⟨x, hbs, hx⟩ := hsigned.tagged rest hs
    simp only [codec, hbs, hx, Option.map_some]
  | unsignedCommand id cmd =>
    obtain ⟨x, hbs, hx⟩ := hunsigned.tagged rest hs
    simp only [codec, hbs, hx, Option.map_some]
  | revert id =>
    obtain ⟨x, hbs, hx⟩ := Codec.u32_lawful.tagged rest hs
    simp only [codec, hbs, hx, Option.map_some]

end EpisodeMessage

/-- Why an engine thread dies: an episode panicked, a command did not serialize for the
signature check, or the `assert_eq!` of a revert failed. -/
inductive Panic (G : Type) [Episode G] where
  | episode (fault : Episode.Fault G)
  | serialization
  | assertEq

/-- Code of the engine that may touch the world outside it or panic. -/
abbrev EngineM (G : Type) [Episode G] (α : Type) : Type :=
  StateT (Episode.World G) (Except (Panic G)) α

def EngineM.ofEpisode {α : Type} (x : StateT (Episode.World G) (Except (Episode.Fault G)) α) :
    EngineM G α :=
  fun w => (x w).mapError .episode

structure EpisodeWrapper (G : Type) [Episode G] where
  episode : G
  /-- The last pushed object first. -/
  rollbackStack : List (Episode.CommandRollback G)

namespace EpisodeWrapper

def initializeWith (participants : List PubKey) (metadata : PayloadMetadata) :
    EngineM G (EpisodeWrapper G) := do
  let episode ← EngineM.ofEpisode (Episode.initializeWith participants metadata)
  return { episode, rollbackStack := [] }

/-- The part `execute_signed` and `execute_unsigned` share. -/
def execute (self : EpisodeWrapper G) (cmd : Episode.Command G) (authorization : Option PubKey)
    (metadata : PayloadMetadata) :
    EngineM G (EpisodeWrapper G × Except (EpisodeError (Episode.CommandError G)) Unit) := do
  let (episode, res) ← EngineM.ofEpisode (Episode.execute self.episode cmd authorization metadata)
  match res with
  | .ok rollback => return ({ episode, rollbackStack := rollback :: self.rollbackStack }, .ok ())
  | .error e => return ({ self with episode }, .error e)

def executeSigned (self : EpisodeWrapper G) (cmd : Episode.Command G) (pubkey : PubKey)
    (sig : Sig) (metadata : PayloadMetadata) :
    EngineM G (EpisodeWrapper G × Except (EpisodeError (Episode.CommandError G)) Unit) :=
  match toMessage (Episode.codec (G := G)) cmd with
  | none => throw .serialization
  | some message =>
    if verifySignature pubkey message sig then self.execute cmd (some pubkey) metadata
    else return (self, .error .invalidSignature)

def executeUnsigned (self : EpisodeWrapper G) (cmd : Episode.Command G)
    (metadata : PayloadMetadata) :
    EngineM G (EpisodeWrapper G × Except (EpisodeError (Episode.CommandError G)) Unit) :=
  self.execute cmd none metadata

/-- Pops one rollback object; the result of the episode's own `rollback` is only logged. -/
def rollback (self : EpisodeWrapper G) :
    EngineM G (EpisodeWrapper G × Except (EpisodeError (Episode.CommandError G)) Unit) :=
  match self.rollbackStack with
  | rollback :: rollbackStack => do
    let (episode, _) ← EngineM.ofEpisode (Episode.rollback self.episode rollback)
    return ({ episode, rollbackStack }, .ok ())
  | [] => return (self, .error .deleteEpisode)

end EpisodeWrapper

inductive HandlerCall (G : Type) [Episode G] where
  | onInitialize (episodeId : EpisodeId) (episode : G)
  | onCommand (episodeId : EpisodeId) (episode : G) (cmd : Episode.Command G)
      (authorization : Option PubKey) (metadata : PayloadMetadata)
  | onRollback (episodeId : EpisodeId) (episode : G)

/-- An entry of `revert_map`. -/
abbrev Reversion := EpisodeId × PayloadMetadata

structure Engine (G : Type) [Episode G] where
  episodes : ExtTreeMap EpisodeId (EpisodeWrapper G)
  revertMap : ExtTreeMap Hash (List Reversion)
  nextFiltering : UInt64
  episodeCreationTimes : ExtTreeMap EpisodeId UInt64
  world : Episode.World G

/-- What `handle_message` leaves: the engine, the entry to revert by, the callbacks made. -/
structure Handled (G : Type) [Episode G] where
  engine : Engine G
  revert : Option Reversion
  calls : List (HandlerCall G)

namespace Engine

/-- `Engine::new`, in a process whose state is `world`. -/
def new (world : Episode.World G) : Engine G where
  episodes := ∅
  revertMap := ∅
  nextFiltering := 0
  episodeCreationTimes := ∅
  world := world

def filteringDue (self : Engine G) (daaScore : UInt64) : Prop :=
  daaScore > self.nextFiltering + sampleRemovalTime

instance (self : Engine G) (daaScore : UInt64) : Decidable (self.filteringDue daaScore) :=
  inferInstanceAs (Decidable (_ > _))

/-- `u64::saturating_sub`. -/
def saturatingSub (a b : UInt64) : UInt64 := if b ≤ a then a - b else 0

def removeIds (self : Engine G) (daaScore : UInt64) : List EpisodeId :=
  (self.episodeCreationTimes.toList.filter fun p =>
    p.2 < saturatingSub daaScore episodeLifetime).map (·.1)

def filterOldEpisodes (self : Engine G) (daaScore : UInt64) : Engine G :=
  if self.filteringDue daaScore then
    { self with
      episodes := (self.removeIds daaScore).foldl (·.erase ·) self.episodes
      episodeCreationTimes :=
        (self.removeIds daaScore).foldl (·.erase ·) self.episodeCreationTimes
      nextFiltering := daaScore }
  else self

/-- The branch of a command, signed or not: `exec` is the wrapper's method. -/
def handleCommand (self : Engine G) (episodeId : EpisodeId) (cmd : Episode.Command G)
    (authorization : Option PubKey) (metadata : PayloadMetadata)
    (exec : EpisodeWrapper G →
      EngineM G (EpisodeWrapper G × Except (EpisodeError (Episode.CommandError G)) Unit)) :
    Except (Panic G) (Handled G) :=
  match self.episodes[episodeId]? with
  | some wrapper => do
    let ((wrapper, res), world) ← exec wrapper self.world
    let engine := { self with episodes := self.episodes.insert episodeId wrapper, world }
    match res with
    | .ok () => return {
        engine
        revert := some (episodeId, metadata)
        calls := [.onCommand episodeId wrapper.episode cmd authorization metadata] }
    | .error _ => return { engine, revert := none, calls := [] }
  | none => return { engine := self, revert := none, calls := [] }

def handleMessage (self : Engine G) (episodeAction : EpisodeMessage G)
    (metadata : PayloadMetadata) : Except (Panic G) (Handled G) :=
  match episodeAction with
  | .newEpisode episodeId participants =>
    if self.episodes.contains episodeId then return { engine := self, revert := none, calls := [] }
    else do
      let (ew, world) ← EpisodeWrapper.initializeWith participants metadata self.world
      return {
        engine := { self with
          episodes := self.episodes.insert episodeId ew
          episodeCreationTimes :=
            self.episodeCreationTimes.insert episodeId metadata.acceptingDaa
          world }
        revert := some (episodeId, metadata)
        calls := [.onInitialize episodeId ew.episode] }
  | .signedCommand episodeId cmd pubkey sig =>
    self.handleCommand episodeId cmd (some pubkey) metadata fun wrapper =>
      wrapper.executeSigned cmd pubkey sig metadata
  | .unsignedCommand episodeId cmd =>
    self.handleCommand episodeId cmd none metadata fun wrapper =>
      wrapper.executeUnsigned cmd metadata
  | .revert episodeId =>
    match self.episodes[episodeId]? with
    | some wrapper => do
      let ((wrapper, res), world) ← wrapper.rollback self.world
      let engine := { self with episodes := self.episodes.insert episodeId wrapper, world }
      let calls := [.onRollback episodeId wrapper.episode]
      match res with
      | .error .deleteEpisode => return {
          engine := { engine with
            episodes := engine.episodes.erase episodeId
            episodeCreationTimes := engine.episodeCreationTimes.erase episodeId }
          revert := none
          calls }
      | _ => return { engine, revert := none, calls }
    | none => return { engine := self, revert := none, calls := [] }

/-- The loop over `associated_txs`: the engine, `revert_vec` and the callbacks made. -/
def acceptTxs (blk : BlkAccepted) :
    List (Hash × Bytes × Option (List TxOutputInfo)) → Engine G →
      Except (Panic G) (Engine G × List Reversion × List (HandlerCall G))
  | [], self => return (self, [], [])
  | (txId, payload, txOutputs) :: txs, self =>
    match (EpisodeMessage.codec (G := G)).fromSlice payload with
    | none => acceptTxs blk txs self
    | some (.revert _) => acceptTxs blk txs self
    | some episodeAction => do
      let out ← self.handleMessage episodeAction (blk.metadata txId txOutputs)
      let (engine, revertVec, calls) ← acceptTxs blk txs out.engine
      return (engine, out.revert.toList ++ revertVec, out.calls ++ calls)

/-- The branch `BlkAccepted` of `start`. -/
def acceptBlock (self : Engine G) (blk : BlkAccepted) :
    Except (Panic G) (Engine G × List (HandlerCall G)) := do
  let (engine, revertVec, calls) ←
    acceptTxs blk blk.associatedTxs (self.filterOldEpisodes blk.acceptingDaa)
  return ({ engine with revertMap := engine.revertMap.insert blk.acceptingHash revertVec }, calls)

def revertEntries (acceptingHash : Hash) :
    List Reversion → Engine G → Except (Panic G) (Engine G × List (HandlerCall G))
  | [], self => return (self, [])
  | reversion :: reversions, self => do
    let out ← self.handleMessage (.revert reversion.1) { reversion.2 with acceptingHash }
    if out.revert.isSome then throw .assertEq
    let (engine, calls) ← revertEntries acceptingHash reversions out.engine
    return (engine, out.calls ++ calls)

/-- The branch `BlkReverted` of `start`. -/
def revertBlock (self : Engine G) (acceptingHash : Hash) :
    Except (Panic G) (Engine G × List (HandlerCall G)) :=
  match self.revertMap[acceptingHash]? with
  | some revertVec =>
    revertEntries acceptingHash revertVec.reverse
      { self with revertMap := self.revertMap.erase acceptingHash }
  | none => return (self, [])

/-- `start` on the messages received until the channel closes. -/
def start : List EngineMsg → Engine G → Except (Panic G) (Engine G × List (HandlerCall G))
  | [], self => return (self, [])
  | .blkAccepted blk :: msgs, self => do
    let (engine, calls) ← self.acceptBlock blk
    let (engine, calls') ← start msgs engine
    return (engine, calls ++ calls')
  | .blkReverted acceptingHash :: msgs, self => do
    let (engine, calls) ← self.revertBlock acceptingHash
    let (engine, calls') ← start msgs engine
    return (engine, calls ++ calls')
  | .exit :: _, self => return (self, [])

end Engine
end Kdapp
