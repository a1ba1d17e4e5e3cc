import Kdapp.Engine.Isolation
import Kdapp.Library.Transition
import Kdapp.Lottery
import Kdapp.Merchant.Checkpoint

/-! The watchtower of the lottery (`kas-draw/src/watchtower.rs`) behind the event handler that
numbers the states for it (`handler.rs`). -/

namespace Kdapp.Lottery
open Borsh FiniteMap InOrder Transition
open Std (ExtTreeMap)

inductive TowerLog where
  | first (episodeId stateNum : UInt64)
  | advanced (episodeId previous stateNum : UInt64)
  | stale (episodeId stateNum last : UInt64)
  | finalized (episodeId : UInt64) (last : Option UInt64)

def TowerLog.warns : TowerLog → Prop
  | .stale .. => True
  | _ => False

structure SimTower where
  inner : ExtTreeMap UInt64 (UInt64 × Hash)

namespace SimTower
variable (self : SimTower) (episodeId : UInt64)

def new : SimTower := ⟨∅⟩

def onState (stateNum : UInt64) (stateHash : Hash) : SimTower × TowerLog :=
  match self.inner[episodeId]? with
  | some (prevNum, _) =>
    if stateNum ≤ prevNum then (self, .stale episodeId stateNum prevNum)
    else (⟨self.inner.insert episodeId (stateNum, stateHash)⟩,
      .advanced episodeId prevNum stateNum)
  | none =>
    (⟨self.inner.insert episodeId (stateNum, stateHash)⟩, .first episodeId stateNum)

def finalize : SimTower × TowerLog :=
  (⟨self.inner.erase episodeId⟩,
    .finalized episodeId (self.inner[episodeId]?.map (·.1)))

def Newer (stateNum : UInt64) : Prop :=
  ∀ entry, self.inner[episodeId]? = some entry → entry.1 < stateNum

variable {episodeId}

theorem onState_newer {stateNum : UInt64} (stateHash : Hash)
    (h : self.Newer episodeId stateNum) :
    (self.onState episodeId stateNum stateHash).1 =
        ⟨self.inner.insert episodeId (stateNum, stateHash)⟩ ∧
      ¬ (self.onState episodeId stateNum stateHash).2.warns := by
  unfold onState
  split
  · rename_i prevNum prevHash hheld
    have hlt := h _ hheld
    rw [if_neg (UInt64.not_le.mpr hlt)]
    exact ⟨rfl, id⟩
  · exact ⟨rfl, id⟩

theorem onState_stale {stateNum : UInt64} (stateHash : Hash)
    (h : ¬ self.Newer episodeId stateNum) :
    (self.onState episodeId stateNum stateHash).1 = self ∧
      (self.onState episodeId stateNum stateHash).2.warns := by
  unfold onState
  split
  · rename_i prevNum prevHash hheld
    have hle : stateNum ≤ prevNum := by
      by_contra hlt
      apply h
      intro entry hentry
      obtain rfl := Option.some.inj (hentry.symm.trans hheld)
      exact UInt64.not_le.mp hlt
    rw [if_pos hle]
    exact ⟨rfl, trivial⟩
  · rename_i hheld
    apply absurd _ h
    intro entry hentry
    cases hentry.symm.trans hheld

variable (episodeId) in
theorem onState_warns (stateNum : UInt64) (stateHash : Hash) :
    ¬ (self.onState episodeId stateNum stateHash).2.warns ↔ self.Newer episodeId stateNum := by
  constructor
  · intro h
    by_contra hnot
    exact h (self.onState_stale stateHash hnot).2
  · intro h
    exact (self.onState_newer stateHash h).2

theorem onState_other (stateNum : UInt64) (stateHash : Hash) {episodeId' : UInt64}
    (h : episodeId ≠ episodeId') :
    (self.onState episodeId stateNum stateHash).1.inner[episodeId']? =
      self.inner[episodeId']? := by
  by_cases hnewer : self.Newer episodeId stateNum
  · rw [(self.onState_newer stateHash hnewer).1]
    exact getElem?_insert_of_ne h _
  · rw [(self.onState_stale stateHash hnewer).1]

end SimTower

theorem toUInt64_injective : Function.Injective UInt32.toUInt64 := by
  intro a b h
  have hnat := congrArg UInt64.toNat h
  rw [UInt32.toNat_toUInt64, UInt32.toNat_toUInt64] at hnat
  exact UInt32.toNat_inj.mp hnat

namespace Handler

/-- `matches!(cmd, LotteryCommand::CloseEpisode)`. -/
def isClose : LotteryCommand → Bool
  | .closeEpisode => true
  | _ => false

def tell (tower : SimTower) (episodeId nextNum : UInt64) (stateHash : Hash)
    (cmd : LotteryCommand) : SimTower × List TowerLog :=
  let (tower, log) := tower.onState episodeId nextNum stateHash
  if isClose cmd then
    let (tower, final) := tower.finalize episodeId
    (tower, [log, final])
  else (tower, [log])

variable {tower : SimTower} {id id' : EpisodeId} {nextNum : UInt64} {hash : Hash}
  {cmd : LotteryCommand}

theorem tell_close (h : isClose cmd = true) :
    tell tower id.toUInt64 nextNum hash cmd =
      (((tower.onState id.toUInt64 nextNum hash).1.finalize id.toUInt64).1,
        [(tower.onState id.toUInt64 nextNum hash).2,
          ((tower.onState id.toUInt64 nextNum hash).1.finalize id.toUInt64).2]) := if_pos h

theorem tell_open (h : isClose cmd = false) :
    tell tower id.toUInt64 nextNum hash cmd =
      ((tower.onState id.toUInt64 nextNum hash).1,
        [(tower.onState id.toUInt64 nextNum hash).2]) := by
  unfold tell
  rw [h]
  rfl

theorem tell_other (h : id ≠ id') :
    (tell tower id.toUInt64 nextNum hash cmd).1.inner[id'.toUInt64]? =
      tower.inner[id'.toUInt64]? := by
  have hne : id.toUInt64 ≠ id'.toUInt64 := fun he => h (toUInt64_injective he)
  have hstate := tower.onState_other nextNum hash hne
  cases hclose : isClose cmd with
  | true =>
    rw [tell_close hclose]
    exact (getElem?_erase_of_ne hne).trans hstate
  | false =>
    rw [tell_open hclose]
    exact hstate

theorem tell_warns :
    (∀ log ∈ (tell tower id.toUInt64 nextNum hash cmd).2, ¬ log.warns) ↔
      tower.Newer id.toUInt64 nextNum := by
  rw [← tower.onState_warns _ nextNum hash]
  cases hclose : isClose cmd with
  | true =>
    rw [tell_close hclose]
    constructor
    · intro h
      exact h _ List.mem_cons_self
    · intro h log hlog
      rcases List.mem_cons.mp hlog with rfl | hlog
      · exact h
      · obtain rfl := List.mem_singleton.mp hlog
        exact fun hwarns => hwarns
  | false =>
    rw [tell_open hclose]
    exact List.forall_mem_singleton

end Handler

section Bytes
variable [Crypto]

def Ticket.codec : Codec Ticket :=
  (Codec.u64.pair (PubKey.codec.pair ((Codec.array 5).pair Codec.u64))).via
    (fun ticket => (ticket.ticketId, ticket.player, ticket.numbers, ticket.round))
    fun (ticketId, player, numbers, round) => some { ticketId, player, numbers, round }

/-- `borsh::to_vec` of an episode; its map is written in order. -/
def LotteryEpisode.toVec (g : LotteryEpisode) : Option Bytes := do
  let config := leBytes 8 g.ticketPrice.toNat ++
    [g.numbersRange.1, g.numbersRange.2, g.numbersPerTicket] ++ leBytes 8 g.drawIntervalSecs.toNat
  let round := leBytes 8 g.currentRound.toNat ++ leBytes 8 g.roundStartTime.toNat ++
    leBytes 8 g.nextDrawTime.toNat ++ leBytes 8 g.prizePool.toNat
  let authorized ← PubKey.codec.vec.serialize g.authorized
  let tickets ← (Codec.u64.pair Ticket.codec).vec.serialize g.tickets.toList
  let lastWinner ← Codec.u64.option.serialize g.lastWinner
  return config ++ round ++ authorized ++ tickets ++ leBytes 8 g.nextTicketId.toNat ++
    lastWinner ++ [if g.winnerPaid then 1 else 0, if g.paused then 1 else 0]

end Bytes

variable [Crypto] [Merchant.Blake2b]

/-- `hash_state` of the bytes of an episode, of which there are none where it cannot be written. -/
def hashState (g : LotteryEpisode) : Hash := Merchant.hashState (g.toVec.getD [])

/-- The handler, with the process-wide `STATE_NUMS`. -/
structure Handler where
  stateNums : ExtTreeMap EpisodeId UInt64
  tower : Option SimTower

namespace Handler
variable (self : Handler)

def new : Handler := ⟨∅, none⟩

def withTower (tower : SimTower) : Handler := ⟨∅, some tower⟩

def onInitialize (episodeId : EpisodeId) : Handler :=
  { self with stateNums := self.stateNums.insert episodeId 0 }

def onCommand (episodeId : EpisodeId) (episode : LotteryEpisode) (cmd : LotteryCommand) :
    Handler × List TowerLog :=
  let nextNum := Saturating.add (self.stateNums[episodeId]?.getD 0) 1
  let stateNums := self.stateNums.insert episodeId nextNum
  match self.tower with
  | some tower =>
    let (tower, logs) := tell tower episodeId.toUInt64 nextNum (hashState episode) cmd
    (⟨stateNums, some tower⟩, logs)
  | none => (⟨stateNums, none⟩, [])

def handle : HandlerCall LotteryEpisode → Handler × List TowerLog
  | .onInitialize episodeId _ => (self.onInitialize episodeId, [])
  | .onCommand episodeId episode cmd _ _ => self.onCommand episodeId episode cmd
  | .onRollback _ _ => (self, [])

def handleAll (calls : List (HandlerCall LotteryEpisode)) : Handler × List TowerLog :=
  calls.foldl (fun acc call => ((acc.1.handle call).1, acc.2 ++ (acc.1.handle call).2)) (self, [])

def record (id : EpisodeId) : Option (UInt64 × Hash) :=
  self.tower.bind fun tower => tower.inner[id.toUInt64]?

section Watching
variable {self : Handler} {tower : SimTower} (h : self.tower = some tower)
include h

omit [Crypto] [Merchant.Blake2b] in
theorem record_watching (id : EpisodeId) : self.record id = tower.inner[id.toUInt64]? := by
  rw [record, h, Option.bind_some]

theorem onCommand_watching (id : EpisodeId) (episode : LotteryEpisode) (cmd : LotteryCommand) :
    self.onCommand id episode cmd =
      (⟨self.stateNums.insert id (Saturating.add (self.stateNums[id]?.getD 0) 1),
        some (tell tower id.toUInt64 (Saturating.add (self.stateNums[id]?.getD 0) 1)
          (hashState episode) cmd).1⟩,
        (tell tower id.toUInt64 (Saturating.add (self.stateNums[id]?.getD 0) 1)
          (hashState episode) cmd).2) := by
  unfold onCommand
  rw [h]

end Watching

theorem handleAll_concat (calls : List (HandlerCall LotteryEpisode))
    (call : HandlerCall LotteryEpisode) :
    self.handleAll (calls ++ [call]) = (((self.handleAll calls).1.handle call).1,
      (self.handleAll calls).2 ++ ((self.handleAll calls).1.handle call).2) := by
  rw [handleAll, List.foldl_append]
  rfl

end Handler

/-- What a tower is for: of each lottery the number of commands since it was last created, and
the state that the newest command since its last close left, with the number of that command. -/
structure Watched where
  commands : ℕ
  newest : Option (ℕ × LotteryEpisode)

namespace Watched

def step (w : Watched) (episode : LotteryEpisode) (cmd : LotteryCommand) : Watched :=
  ⟨w.commands + 1, if Handler.isClose cmd then none else some (w.commands + 1, episode)⟩

def next (id : EpisodeId) (w : Watched) : HandlerCall LotteryEpisode → Watched
  | .onInitialize episodeId _ => if episodeId = id then ⟨0, w.newest⟩ else w
  | .onCommand episodeId episode cmd _ _ =>
    if episodeId = id then w.step episode cmd else w
  | .onRollback _ _ => w

/-- The next command has a higher number than the one that is held: the lottery was not created
anew since, and the numbers have not run out. -/
def Ready (w : Watched) : Prop :=
  w.newest = none ∨ 0 < w.commands ∧ w.commands < 2 ^ 64 - 1

end Watched

def watched (id : EpisodeId) (calls : List (HandlerCall LotteryEpisode)) : Watched :=
  after (Watched.next id) ⟨0, none⟩ calls

def Ready (earlier : List (HandlerCall LotteryEpisode)) : HandlerCall LotteryEpisode → Prop
  | .onCommand id _ _ _ _ => (watched id earlier).Ready
  | _ => True

/-- The handler numbers the commands, and its tower holds what it is for. -/
structure Shows (handler : Handler) (w : Watched) (id : EpisodeId) : Prop where
  watching : ∃ tower, handler.tower = some tower
  num : (handler.stateNums[id]?.getD 0).toNat = min w.commands (2 ^ 64 - 1)
  record : handler.record id =
    w.newest.map fun (n, g) => (UInt64.ofNat (min n (2 ^ 64 - 1)), hashState g)
  number : ∀ n g, w.newest = some (n, g) → 0 < n ∧ (0 < w.commands → n = w.commands)

section Shows
variable {handler : Handler} {w : Watched} {id : EpisodeId}

theorem shows_new (id : EpisodeId) : Shows (.withTower .new) ⟨0, none⟩ id where
  watching := ⟨.new, rfl⟩
  num := by
    have hnone : (Handler.withTower .new).stateNums[id]? = none := ExtTreeMap.getElem?_empty
    rw [hnone]
    rfl
  record := by
    have hnone : SimTower.new.inner[id.toUInt64]? = none := ExtTreeMap.getElem?_empty
    exact hnone
  number n g h := by cases h

theorem Shows.nextNum (h : Shows handler w id) :
    (Saturating.add (handler.stateNums[id]?.getD 0) 1).toNat =
      min (w.commands + 1) (2 ^ 64 - 1) := by
  have hone : (1 : UInt64).toNat = 1 := rfl
  rw [Saturating.add_toNat, h.num, hone]
  omega

omit [Crypto] [Merchant.Blake2b] in
theorem ofNat_min_toNat (n : ℕ) :
    (UInt64.ofNat (min n (2 ^ 64 - 1))).toNat = min n (2 ^ 64 - 1) := by
  rw [UInt64.toNat_ofNat']
  omega

theorem Shows.newer_iff (h : Shows handler w id) {tower : SimTower}
    (htower : handler.tower = some tower) :
    tower.Newer id.toUInt64 (Saturating.add (handler.stateNums[id]?.getD 0) 1) ↔ w.Ready := by
  have hrecord := h.record
  rw [Handler.record_watching htower] at hrecord
  unfold SimTower.Newer Watched.Ready
  rw [hrecord]
  cases hnewest : w.newest with
  | none =>
    apply iff_of_true _ (.inl rfl)
    intro entry hentry
    cases hentry
  | some newest =>
    obtain ⟨n, g⟩ := newest
    obtain ⟨hpos, hlast⟩ := h.number n g hnewest
    have hlt : UInt64.ofNat (min n (2 ^ 64 - 1)) <
        Saturating.add (handler.stateNums[id]?.getD 0) 1 ↔
          min n (2 ^ 64 - 1) < min (w.commands + 1) (2 ^ 64 - 1) := by
      rw [UInt64.lt_iff_toNat_lt, h.nextNum, ofNat_min_toNat]
    constructor
    · intro hnewer
      have hnumbers := hlt.mp (hnewer _ rfl)
      right
      omega
    · rintro (hnone | hready)
      · cases hnone
      · intro entry hentry
        obtain rfl := Option.some.inj hentry
        apply hlt.mpr
        omega

theorem Shows.other (h : Shows handler w id) {call : HandlerCall LotteryEpisode}
    (hother : call.episodeId ≠ id) : Shows (handler.handle call).1 w id := by
  obtain ⟨tower, htower⟩ := h.watching
  cases call with
  | onInitialize episodeId episode =>
    refine ⟨h.watching, ?_, h.record, h.number⟩
    have hnum : (handler.stateNums.insert episodeId 0)[id]? = handler.stateNums[id]? :=
      getElem?_insert_of_ne hother _
    rw [← h.num, ← hnum]
    rfl
  | onCommand episodeId episode cmd auth md =>
    change Shows (handler.onCommand episodeId episode cmd).1 w id
    rw [Handler.onCommand_watching htower]
    refine ⟨⟨_, rfl⟩, ?_, ?_, h.number⟩
    · have hnum : (handler.stateNums.insert episodeId
          (Saturating.add (handler.stateNums[episodeId]?.getD 0) 1))[id]? =
            handler.stateNums[id]? := getElem?_insert_of_ne hother _
      rw [← h.num, ← hnum]
    · rw [Handler.record_watching rfl, ← h.record, Handler.record_watching htower]
      exact Handler.tell_other hother
  | onRollback episodeId episode => exact h

theorem Shows.created (h : Shows handler w id) (episode : LotteryEpisode) :
    Shows (handler.handle (.onInitialize id episode)).1 ⟨0, w.newest⟩ id where
  watching := h.watching
  num := by
    have hnum : (handler.stateNums.insert id 0)[id]? = some 0 := ExtTreeMap.getElem?_insert_self
    change ((handler.stateNums.insert id 0)[id]?.getD 0).toNat = _
    rw [hnum]
    rfl
  record := h.record
  number n g hnewest := ⟨(h.number n g hnewest).1, fun hpos => absurd hpos (Nat.lt_irrefl 0)⟩

theorem Shows.executed (h : Shows handler w id) (hready : w.Ready) (episode : LotteryEpisode)
    (cmd : LotteryCommand) (auth : Option PubKey) (md : PayloadMetadata) :
    Shows (handler.handle (.onCommand id episode cmd auth md)).1 (w.step episode cmd) id := by
  obtain ⟨tower, htower⟩ := h.watching
  have hnewer := (h.newer_iff htower).mpr hready
  have hnum := h.nextNum
  generalize hnext : Saturating.add (handler.stateNums[id]?.getD 0) 1 = next at hnewer hnum
  have hstate := (tower.onState_newer (hashState episode) hnewer).1
  have hheld : UInt64.ofNat (min (w.commands + 1) (2 ^ 64 - 1)) = next := by
    rw [← hnum, UInt64.ofNat_toNat]
  change Shows (handler.onCommand id episode cmd).1 _ id
  rw [Handler.onCommand_watching htower, hnext]
  refine ⟨⟨_, rfl⟩, ?_, ?_, ?_⟩
  · dsimp only
    rw [ExtTreeMap.getElem?_insert_self]
    exact hnum
  · rw [Handler.record_watching rfl]
    unfold Watched.step
    cases hclose : Handler.isClose cmd with
    | true =>
      rw [Handler.tell_close hclose]
      exact ExtTreeMap.getElem?_erase_self
    | false =>
      rw [Handler.tell_open hclose, hstate]
      dsimp only
      rw [ExtTreeMap.getElem?_insert_self, ← hheld]
      rfl
  · intro n g hnewest
    unfold Watched.step at hnewest ⊢
    dsimp only at hnewest ⊢
    split at hnewest
    · cases hnewest
    · cases hnewest
      exact ⟨Nat.succ_pos _, fun _ => rfl⟩

theorem Shows.next (h : Shows handler w id) (call : HandlerCall LotteryEpisode)
    (hready : ∀ g cmd auth md, call = .onCommand id g cmd auth md → w.Ready) :
    Shows (handler.handle call).1 (w.next id call) id := by
  by_cases hid : call.episodeId = id
  · subst hid
    cases call with
    | onInitialize episodeId episode =>
      have hnext : w.next episodeId (.onInitialize episodeId episode) = ⟨0, w.newest⟩ :=
        if_pos rfl
      exact hnext ▸ h.created episode
    | onCommand episodeId episode cmd auth md =>
      have hnext : w.next episodeId (.onCommand episodeId episode cmd auth md) =
          w.step episode cmd := if_pos rfl
      exact hnext ▸ h.executed (hready episode cmd auth md rfl) episode cmd auth md
    | onRollback episodeId episode => exact h
  · have hsame : w.next id call = w := by
      cases call with
      | onInitialize episodeId episode => exact if_neg hid
      | onCommand episodeId episode cmd auth md => exact if_neg hid
      | onRollback episodeId episode => rfl
    rw [hsame]
    exact h.other hid

end Shows

theorem handle_warns {handler : Handler} {earlier : List (HandlerCall LotteryEpisode)}
    (h : ∀ id, Shows handler (watched id earlier) id) (call : HandlerCall LotteryEpisode) :
    (∀ log ∈ (handler.handle call).2, ¬ log.warns) ↔ Ready earlier call := by
  cases call with
  | onInitialize id episode =>
    apply iff_of_true _ trivial
    intro log hlog
    cases hlog
  | onCommand id episode cmd auth md =>
    obtain ⟨tower, htower⟩ := (h id).watching
    change (∀ log ∈ (handler.onCommand id episode cmd).2, ¬ log.warns) ↔ _
    rw [Handler.onCommand_watching htower, Handler.tell_warns, (h id).newer_iff htower]
    rfl
  | onRollback id episode =>
    apply iff_of_true _ trivial
    intro log hlog
    cases hlog

/-- Whatever the engine calls, in whatever order: the tower warns of no state just when no command
comes for a lottery that was created anew since a command that it still holds, nor after the
numbers ran out; and then it holds of each lottery what it is for. -/
theorem tower_never_warns_iff (calls : List (HandlerCall LotteryEpisode)) :
    ((∀ log ∈ ((Handler.withTower .new).handleAll calls).2, ¬ log.warns) ↔
      Throughout Ready calls) ∧
    (Throughout Ready calls → ∀ id, ((Handler.withTower .new).handleAll calls).1.record id =
      (watched id calls).newest.map fun (n, g) =>
        (UInt64.ofNat (min n (2 ^ 64 - 1)), hashState g)) := by
  have hboth : ((∀ log ∈ ((Handler.withTower .new).handleAll calls).2, ¬ log.warns) ↔
        Throughout Ready calls) ∧
      (Throughout Ready calls → ∀ id,
        Shows ((Handler.withTower .new).handleAll calls).1 (watched id calls) id) := by
    induction calls using List.reverseRecOn with
    | nil =>
      refine ⟨iff_of_true (fun log hlog => absurd hlog List.not_mem_nil) Throughout.nil, ?_⟩
      exact fun _ id => shows_new id
    | append_singleton calls call ih =>
      obtain ⟨hquiet, hshows⟩ := ih
      rw [Handler.handleAll_concat, Throughout.concat, List.forall_mem_append, hquiet]
      constructor
      · apply and_congr_right
        intro hready
        exact handle_warns (hshows hready) call
      · rintro ⟨hready, hlast⟩ id
        unfold watched
        rw [after_concat]
        apply (hshows hready id).next
        rintro g cmd auth md rfl
        exact hlast
  exact ⟨hboth.1, fun hready id => (hboth.2 hready id).record⟩

end Kdapp.Lottery
