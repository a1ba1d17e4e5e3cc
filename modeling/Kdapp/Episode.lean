import Kdapp.Pki

/-! The injection points of an episode (`kdapp/src/episode.rs`). -/

namespace Kdapp
open Borsh

abbrev EpisodeId := UInt32

inductive EpisodeError (E : Type) where
  | unauthorized
  | invalidSignature
  | invalidCommand (e : E)
  | deleteEpisode
deriving DecidableEq

structure TxOutputInfo where
  value : UInt64
  scriptVersion : UInt16
  scriptBytes : Option Bytes
deriving DecidableEq

structure PayloadMetadata where
  acceptingHash : Hash
  acceptingDaa : UInt64
  acceptingTime : UInt64
  txId : Hash
  txOutputs : Option (List TxOutputInfo)
deriving DecidableEq

variable [Crypto]

/-- The trait `Episode`. A method may besides read and write the state of the process
outside the episode (`World`, `Unit` for most episodes) and panic (`Fault`). -/
class Episode (G : Type) where
  Command : Type
  CommandRollback : Type
  CommandError : Type
  World : Type
  Fault : Type
  codec : Codec Command
  initializeWith : List PubKey → PayloadMetadata → StateT World (Except Fault) G
  execute : G → Command → Option PubKey → PayloadMetadata →
    StateT World (Except Fault) (G × Except (EpisodeError CommandError) CommandRollback)
  rollback : G → CommandRollback → StateT World (Except Fault) (G × Bool)

namespace Episode
variable (G : Type) [Episode G]

def ErrorAtomic : Prop :=
  ∀ (g : G) (w : World G) cmd auth md g' w' e,
    (execute g cmd auth md).run w = .ok ((g', .error e), w') → g' = g

/-- `rollback` applied to what `execute` returned takes that `execute` back. -/
def ExactRollback : Prop :=
  ∀ (g : G) (w : World G) cmd auth md g' w' r,
    (execute g cmd auth md).run w = .ok ((g', .ok r), w') →
      ∀ w₂, ∃ res w₃, (rollback g' r).run w₂ = .ok ((g, res), w₃)

/-- Rejected commands and creations leave nothing behind and `rollback` undoes `execute`,
in every world related by `E` to the one that was left. -/
structure UndoneUpTo (E : World G → World G → Prop) : Prop where
  created : ∀ ps md w (g : G) w' w₂,
    (initializeWith ps md).run w = .ok (g, w') → E w₂ w' → E w₂ w
  rejected : ∀ (g : G) w cmd auth md g' w' e w₂,
    (execute g cmd auth md).run w = .ok ((g', .error e), w') → E w₂ w' → g' = g ∧ E w₂ w
  executed : ∀ (g : G) w cmd auth md g' w' r w₂,
    (execute g cmd auth md).run w = .ok ((g', .ok r), w') → E w₂ w' →
      ∃ res w₃, (rollback g' r).run w₂ = .ok ((g, res), w₃) ∧ E w₃ w

variable {G}

theorem ErrorAtomic.undoneUpTo (hatomic : ErrorAtomic G) (hexact : ExactRollback G)
    {E : World G → World G → Prop} (hE : ∀ w w', E w w') : UndoneUpTo G E where
  created _ _ w _ _ w₂ _ _ := hE w₂ w
  rejected g w cmd auth md g' w' e w₂ h _ := ⟨hatomic g w cmd auth md g' w' e h, hE w₂ w⟩
  executed g w cmd auth md g' w' r w₂ h _ := by
    obtain ⟨res, w₃, hroll⟩ := hexact g w cmd auth md g' w' r h w₂
    exact ⟨res, w₃, hroll, hE w₃ w⟩

end Episode

/-- A small episode to run the engine on: adds up the commands, rejects zero. -/
structure Tally where
  total : ℕ
deriving DecidableEq

namespace Tally

def add (self : Tally) (cmd : UInt8) : Tally × Except (EpisodeError Empty) ℕ :=
  if cmd = 0 then (self, .error .unauthorized) else (⟨self.total + cmd.toNat⟩, .ok self.total)

instance : Episode Tally where
  Command := UInt8
  CommandRollback := ℕ
  CommandError := Empty
  World := Unit
  Fault := Empty
  codec := Codec.u8
  initializeWith _ _ := return ⟨0⟩
  execute self cmd _ _ := return self.add cmd
  rollback _ total := return (⟨total⟩, true)

theorem errorAtomic : Episode.ErrorAtomic Tally := by
  intro g w cmd auth md g' w' e h
  have hadd : g.add cmd = (g', .error e) := congrArg Prod.fst (Except.ok.inj h)
  unfold add at hadd
  split at hadd
  · exact (congrArg Prod.fst hadd).symm
  · cases hadd

theorem exactRollback : Episode.ExactRollback Tally := by
  intro g w cmd auth md g' w' r h w₂
  have hadd : g.add cmd = (g', .ok r) := congrArg Prod.fst (Except.ok.inj h)
  unfold add at hadd
  split at hadd
  · cases hadd
  · cases hadd
    exact ⟨true, w₂, rfl⟩

end Tally
end Kdapp
