import Kdapp.Engine.Isolation
import Kdapp.Lottery.Recovery
import Kdapp.Lottery.Steps

/-! Which episodes of the engine a message of the off-chain channel reaches. -/

namespace Kdapp.Lottery
open Borsh Outcome FiniteMap
open Merchant (Moment syntheticBlock Hash.default)
open Std (ExtTreeMap)

theorem LotteryCommand.serialize_of_read {bs rest : Bytes} {cmd : LotteryCommand}
    (h : LotteryCommand.codec.deserialize bs = some (cmd, rest)) :
    ∃ bs', LotteryCommand.codec.serialize cmd = some bs' := by
  cases cmd with
  | buyTicket numbers entryAmount => exact ⟨_, rfl⟩
  | claimPrize ticketId round => exact ⟨_, rfl⟩
  | closeEpisode => exact ⟨_, rfl⟩
  | executeDraw entropySource =>
    unfold LotteryCommand.codec at h
    dsimp only at h
    split at h
    · obtain ⟨p, -, hp⟩ := Option.map_eq_some_iff.mp h
      cases hp
    · obtain ⟨⟨source, bs'⟩, hread, hp⟩ := Option.map_eq_some_iff.mp h
      cases hp
      obtain ⟨bytes, hbytes⟩ := Codec.string_serialize hread
      refine ⟨1 :: bytes, ?_⟩
      simp only [LotteryCommand.codec, hbytes, Option.map_some]
    · obtain ⟨p, -, hp⟩ := Option.map_eq_some_iff.mp h
      cases hp
    · cases h
    · cases h

variable [Crypto]

def Acts (s : Engine LotteryEpisode) (metadata : PayloadMetadata) :
    EpisodeMessage LotteryEpisode → Prop
  | .newEpisode id _ => id ∉ s.episodes
  | .signedCommand id cmd pk sig => ∃ w, s.episodes[id]? = some w ∧
    EpisodeMessage.SignatureValid
      (.signedCommand id cmd pk sig : EpisodeMessage LotteryEpisode) ∧
    ∃ rb, (w.episode.execute (some pk) metadata cmd).2 = .ok rb
  | .unsignedCommand id cmd => ∃ w, s.episodes[id]? = some w ∧
    ∃ rb, (w.episode.execute none metadata cmd).2 = .ok rb
  | .revert _ => False

/-- The engine lives on, has made calls for the episode of this id only, and holds every other one
as before. -/
structure Confined (ep : UInt64) (s t : Engine LotteryEpisode)
    (calls : List (HandlerCall LotteryEpisode)) : Prop where
  others : ∀ id : EpisodeId, id.toUInt64 ≠ ep → t.episodes[id]? = s.episodes[id]?
  called : ∀ call ∈ calls, call.episodeId.toUInt64 = ep

section Engine
variable {s : Engine LotteryEpisode} {metadata : PayloadMetadata} {id : EpisodeId}
  {cmd : LotteryCommand} {auth : Option PubKey} {a : EpisodeMessage LotteryEpisode}

inductive Does (s : Engine LotteryEpisode) (metadata : PayloadMetadata)
    (a : EpisodeMessage LotteryEpisode) : Kdapp.Handled LotteryEpisode → Prop
  | acted {out call} (hacts : Acts s metadata a) (hcalls : out.calls = [call])
    (hcall : call.episodeId = a.episodeId)
    (hothers : ∀ id, id ≠ a.episodeId → out.engine.episodes[id]? = s.episodes[id]?) :
    Does s metadata a out
  | refused {out} (hacts : ¬ Acts s metadata a) (hcalls : out.calls = [])
    (hsame : out.engine.episodes = s.episodes) : Does s metadata a out

theorem execute_pure (cmd : LotteryCommand) (auth : Option PubKey) (metadata : PayloadMetadata)
    (w : EpisodeWrapper LotteryEpisode) (world : Unit) :
    (∃ g rb, w.episode.execute auth metadata cmd = (g, .ok rb) ∧
        w.execute cmd auth metadata world = .ok ((⟨g, rb :: w.rollbackStack⟩, .ok ()), world)) ∨
      ∃ e, w.episode.execute auth metadata cmd = (w.episode, .error e) ∧
        w.execute cmd auth metadata world = .ok ((w, .error e), world) := by
  cases hexec : w.episode.execute auth metadata cmd with
  | mk g res =>
    have hepisode : (Episode.execute w.episode cmd auth metadata).run world =
        .ok ((g, res), world) := congrArg (fun p => Except.ok (p, world)) hexec
    have hrun : (EngineM.ofEpisode (Episode.execute w.episode cmd auth metadata)).run world =
        .ok ((g, res), world) := EngineM.ofEpisode_of_ok hepisode
    cases res with
    | ok rb => exact .inl ⟨g, rb, rfl, run_bind_of_ok _ hrun⟩
    | error e =>
      obtain rfl := LotteryEpisode.execute_rejected hexec
      exact .inr ⟨e, rfl, run_bind_of_ok _ hrun⟩

section Command
variable {w : EpisodeWrapper LotteryEpisode} {exec : EpisodeWrapper LotteryEpisode →
  EngineM LotteryEpisode (EpisodeWrapper LotteryEpisode ×
    Except (EpisodeError LotteryError) Unit)}

theorem handleCommand_accepted {g : LotteryEpisode} {rb : LotteryRollback}
    (hw : s.episodes[id]? = some w)
    (hexec : exec w s.world = .ok ((⟨g, rb :: w.rollbackStack⟩, .ok ()), s.world)) :
    s.handleCommand id cmd auth metadata exec =
      .ok ⟨{ s with episodes := s.episodes.insert id ⟨g, rb :: w.rollbackStack⟩ },
        some (id, metadata), [.onCommand id g cmd auth metadata]⟩ := by
  unfold Engine.handleCommand
  rw [hw]
  exact bind_of_ok _ hexec

theorem handleCommand_rejected {e : EpisodeError LotteryError} (hw : s.episodes[id]? = some w)
    (hexec : exec w s.world = .ok ((w, .error e), s.world)) :
    s.handleCommand id cmd auth metadata exec = .ok ⟨s, none, []⟩ := by
  unfold Engine.handleCommand
  rw [hw]
  refine (bind_of_ok _ hexec).trans ?_
  dsimp only
  rw [insert_of_getElem? hw]
  rfl

theorem handleCommand_does (valid : Prop)
    (hvalid : valid → ∀ w world, exec w world = w.execute cmd auth metadata world)
    (hforged : ¬ valid → ∀ w world, exec w world = .ok ((w, .error .invalidSignature), world))
    (hid : a.episodeId = id)
    (hacts : Acts s metadata a ↔ ∃ w, s.episodes[id]? = some w ∧ valid ∧
      ∃ rb, (w.episode.execute auth metadata cmd).2 = .ok rb) :
    ∃ out, s.handleCommand id cmd auth metadata exec = .ok out ∧ Does s metadata a out := by
  cases hw : s.episodes[id]? with
  | none =>
    refine ⟨⟨s, none, []⟩, ?_, .refused ?_ rfl rfl⟩
    · unfold Engine.handleCommand
      rw [hw]
      rfl
    · rw [hacts, hw]
      rintro ⟨w, hsome, -⟩
      cases hsome
  | some w =>
    rw [hw] at hacts
    by_cases hsig : valid
    · rcases execute_pure cmd auth metadata w s.world with
        ⟨g, rb, hexec, hrun⟩ | ⟨e, hexec, hrun⟩
      · refine ⟨_, handleCommand_accepted hw ((hvalid hsig w s.world).trans hrun),
          .acted (hacts.mpr ⟨w, rfl, hsig, rb, by rw [hexec]⟩) rfl hid.symm ?_⟩
        intro id' hne
        rw [hid] at hne
        exact getElem?_insert_of_ne hne.symm _
      · refine ⟨_, handleCommand_rejected hw ((hvalid hsig w s.world).trans hrun),
          .refused ?_ rfl rfl⟩
        rw [hacts]
        rintro ⟨w', hsome, -, rb, hok⟩
        cases hsome
        rw [hexec] at hok
        cases hok
    · refine ⟨_, handleCommand_rejected hw (hforged hsig w s.world), .refused ?_ rfl rfl⟩
      rw [hacts]
      rintro ⟨w', -, hsig', -⟩
      exact hsig hsig'

end Command

/-- A command in the message can be written, as the check of its signature needs. -/
def Writable (a : EpisodeMessage LotteryEpisode) : Prop :=
  ∀ cmd auth, a.command = some (cmd, auth) → ∃ bs, LotteryCommand.codec.serialize cmd = some bs

theorem writable_of_action {payload : Bytes} (h : Engine.action payload = some a) :
    Writable a := by
  have hslice := Engine.fromSlice_of_action h
  have hread : ∃ rest, EpisodeMessage.codec.deserialize payload = some (a, rest) := by
    unfold Codec.fromSlice at hslice
    split at hslice
    · cases hslice
      exact ⟨_, ‹_›⟩
    · cases hslice
  obtain ⟨rest, hread⟩ := hread
  intro cmd auth hcmd
  unfold EpisodeMessage.codec at hread
  dsimp only at hread
  split at hread
  · obtain ⟨p, -, hp⟩ := Option.map_eq_some_iff.mp hread
    cases hp
    cases hcmd
  · obtain ⟨p, hp, heq⟩ := Option.map_eq_some_iff.mp hread
    cases heq
    cases hcmd
    obtain ⟨⟨id, bs₁⟩, -, hbehind⟩ := Option.bind_eq_some_iff.mp hp
    obtain ⟨⟨fields, bs₂⟩, hfields, hout⟩ := Option.bind_eq_some_iff.mp hbehind
    cases hout
    obtain ⟨⟨cmd', bs₃⟩, hcmd, hrest⟩ := Option.bind_eq_some_iff.mp hfields
    obtain ⟨p', -, hout⟩ := Option.bind_eq_some_iff.mp hrest
    cases hout
    exact LotteryCommand.serialize_of_read hcmd
  · obtain ⟨p, hp, heq⟩ := Option.map_eq_some_iff.mp hread
    cases heq
    cases hcmd
    obtain ⟨⟨id, bs₁⟩, -, hbehind⟩ := Option.bind_eq_some_iff.mp hp
    obtain ⟨⟨cmd', bs₂⟩, hcmd, hout⟩ := Option.bind_eq_some_iff.mp hbehind
    cases hout
    exact LotteryCommand.serialize_of_read hcmd
  · obtain ⟨p, -, hp⟩ := Option.map_eq_some_iff.mp hread
    cases hp
    cases hcmd
  · cases hread

theorem handleMessage_does (hwrite : Writable a) (hrevert : ∀ id, a ≠ .revert id) :
    ∃ out, s.handleMessage a metadata = .ok out ∧ Does s metadata a out := by
  cases a with
  | revert id => exact absurd rfl (hrevert id)
  | unsignedCommand id cmd =>
    refine handleCommand_does True (fun _ _ _ => rfl) (fun hnot => absurd trivial hnot) rfl ?_
    simp only [Acts, true_and]
  | signedCommand id cmd pk sig =>
    obtain ⟨bs, hbs⟩ := hwrite cmd (some pk) rfl
    have hmessage : toMessage LotteryCommand.codec cmd = some (Crypto.sha256 bs) := by
      rw [toMessage, hbs]
      rfl
    have hvalid : EpisodeMessage.SignatureValid
        (.signedCommand id cmd pk sig : EpisodeMessage LotteryEpisode) ↔
          verifySignature pk (Crypto.sha256 bs) sig = true := by
      constructor
      · rintro ⟨m, hm, hverify⟩
        cases hmessage.symm.trans hm
        exact hverify
      · exact fun hverify => ⟨_, hmessage, hverify⟩
    refine handleCommand_does (verifySignature pk (Crypto.sha256 bs) sig = true) ?_ ?_ rfl ?_
    · intro hverify w world
      unfold EpisodeWrapper.executeSigned
      rw [show toMessage (Episode.codec (G := LotteryEpisode)) cmd = _ from hmessage]
      dsimp only
      rw [if_pos hverify]
    · intro hverify w world
      unfold EpisodeWrapper.executeSigned
      rw [show toMessage (Episode.codec (G := LotteryEpisode)) cmd = _ from hmessage]
      dsimp only
      rw [if_neg hverify]
      rfl
    · rw [← hvalid]
      exact Iff.rfl
  | newEpisode id ps =>
    by_cases hmem : id ∈ s.episodes
    · refine ⟨⟨s, none, []⟩, ?_, .refused (not_not_intro hmem) rfl rfl⟩
      unfold Engine.handleMessage
      exact if_pos (ExtTreeMap.mem_iff_contains.mp hmem)
    · refine ⟨⟨{ s with
          episodes := s.episodes.insert id
            ⟨LotteryEpisode.initializeWith ps metadata, []⟩
          episodeCreationTimes := s.episodeCreationTimes.insert id metadata.acceptingDaa },
          some (id, metadata), [.onInitialize id (LotteryEpisode.initializeWith ps metadata)]⟩,
        ?_, .acted hmem rfl rfl fun id' hne => getElem?_insert_of_ne hne.symm _⟩
      unfold Engine.handleMessage
      exact if_neg fun hcontains => hmem (ExtTreeMap.mem_iff_contains.mpr hcontains)

end Engine

def syntheticMetadata (seq now : UInt64) : PayloadMetadata where
  acceptingHash := Hash.default
  acceptingDaa := seq
  acceptingTime := now
  txId := Hash.default
  txOutputs := none

section Block
variable (s : Engine LotteryEpisode) (seq now : UInt64) (payload : Bytes)

theorem start_synthetic : ∃ s' calls,
    Engine.start [syntheticBlock seq now payload] s = .ok (s', calls) ∧
      ((Engine.action payload : Option (EpisodeMessage LotteryEpisode)) = none ∧ calls = [] ∧
          s'.episodes = (s.filterOldEpisodes seq).episodes ∨
        ∃ a out, Engine.action payload = some a ∧
          Does (s.filterOldEpisodes seq) (syntheticMetadata seq now) a out ∧
          calls = out.calls ∧ s'.episodes = out.engine.episodes) := by
  obtain ⟨blk, hblk⟩ : ∃ blk : BlkAccepted, syntheticBlock seq now payload = .blkAccepted blk ∧
      blk.acceptingDaa = seq ∧ blk.associatedTxs = [(Hash.default, payload, none)] ∧
      blk.metadata Hash.default none = syntheticMetadata seq now := ⟨_, rfl, rfl, rfl, rfl⟩
  obtain ⟨hsynthetic, hdaa, htxs, hmetadata⟩ := hblk
  -- from the loop over the only transaction to the loop of the engine
  have hstart : ∀ s₁ revertVec calls,
      Engine.acceptTxs blk [(Hash.default, payload, none)] (s.filterOldEpisodes seq) =
        .ok (s₁, revertVec, calls) →
      ∃ s', Engine.start [syntheticBlock seq now payload] s = .ok (s', calls) ∧
        s'.episodes = s₁.episodes := by
    intro s₁ revertVec calls hloop
    let s' : Engine LotteryEpisode :=
      { s₁ with revertMap := s₁.revertMap.insert blk.acceptingHash revertVec }
    have hblock : s.acceptBlock blk = .ok (s', calls) := by
      unfold Engine.acceptBlock
      rw [hdaa, htxs]
      exact bind_of_ok _ hloop
    have hnil : Engine.start [] s' = .ok (s', []) := rfl
    refine ⟨s', ?_, rfl⟩
    rw [hsynthetic]
    refine (bind_of_ok _ hblock).trans ((bind_of_ok _ hnil).trans ?_)
    dsimp only
    rw [List.append_nil]
    rfl
  cases ha : (Engine.action payload : Option (EpisodeMessage LotteryEpisode)) with
  | none =>
    have hloop : Engine.acceptTxs blk [(Hash.default, payload, none)] (s.filterOldEpisodes seq) =
        _ := Engine.acceptTxs_skip [] (s.filterOldEpisodes seq) ha
    obtain ⟨s', hrun, hepisodes⟩ := hstart _ _ _ hloop
    exact ⟨s', _, hrun, .inl ⟨rfl, rfl, hepisodes⟩⟩
  | some a =>
    obtain ⟨out, hout, hdoes⟩ : ∃ out,
        (s.filterOldEpisodes seq).handleMessage a (syntheticMetadata seq now) = .ok out ∧
          Does (s.filterOldEpisodes seq) (syntheticMetadata seq now) a out :=
      handleMessage_does (writable_of_action ha) (Engine.action_ne_revert ha)
    have hloop : Engine.acceptTxs blk [(Hash.default, payload, none)] (s.filterOldEpisodes seq) =
        .ok (out.engine, out.revert.toList ++ [], out.calls ++ []) := by
      rw [Engine.acceptTxs, Engine.fromSlice_of_action ha, hmetadata]
      cases a with
      | revert id => exact absurd rfl (Engine.action_ne_revert ha id)
      | _ => exact bind_of_ok _ hout
    obtain ⟨s', hrun, hepisodes⟩ := hstart _ _ _ hloop
    rw [List.append_nil] at hrun
    exact ⟨s', _, hrun, .inr ⟨a, out, rfl, hdoes, rfl, hepisodes⟩⟩

variable {s seq now payload} {ep : UInt64}

theorem filter_others :
    (∀ id : EpisodeId, id.toUInt64 ≠ ep →
        (s.filterOldEpisodes seq).episodes[id]? = s.episodes[id]?) ↔
      ∀ id : EpisodeId, id.toUInt64 ≠ ep → s.Expires seq id → s.episodes[id]? = none := by
  refine forall_congr' fun id => forall_congr' fun _ => ?_
  by_cases hexpires : s.Expires seq id
  · rw [(Engine.filterOldEpisodes_expired hexpires).1]
    exact ⟨fun h _ => h.symm, fun h => (h hexpires).symm⟩
  · exact iff_of_true (Engine.filterOldEpisodes_kept hexpires).1 fun h => absurd h hexpires

structure Within (s : Engine LotteryEpisode) (ep seq now : UInt64) (payload : Bytes) : Prop where
  addressed : ∀ a, Engine.action payload = some a →
    Acts (s.filterOldEpisodes seq) (syntheticMetadata seq now) a → a.episodeId.toUInt64 = ep
  unexpired : ∀ id : EpisodeId, id.toUInt64 ≠ ep → s.Expires seq id → s.episodes[id]? = none

section Outcomes
variable {s' : Engine LotteryEpisode}

theorem confined_of_idle
    (hidle : ∀ a, Engine.action payload = some a →
      ¬ Acts (s.filterOldEpisodes seq) (syntheticMetadata seq now) a)
    (hepisodes : s'.episodes = (s.filterOldEpisodes seq).episodes) :
    Confined ep s s' [] ↔ Within s ep seq now payload := by
  constructor
  · intro h
    refine ⟨fun a ha hacts => absurd hacts (hidle a ha), filter_others.mp fun id hid => ?_⟩
    rw [← hepisodes]
    exact h.others id hid
  · intro h
    refine ⟨fun id hid => ?_, fun call hcall => by cases hcall⟩
    rw [hepisodes]
    exact filter_others.mpr h.unexpired id hid

theorem confined_of_acted {a : EpisodeMessage LotteryEpisode} {call : HandlerCall LotteryEpisode}
    (ha : Engine.action payload = some a)
    (hacts : Acts (s.filterOldEpisodes seq) (syntheticMetadata seq now) a)
    (hcall : call.episodeId = a.episodeId)
    (hothers : ∀ id, id ≠ a.episodeId →
      s'.episodes[id]? = (s.filterOldEpisodes seq).episodes[id]?) :
    Confined ep s s' [call] ↔ Within s ep seq now payload := by
  have hkept : a.episodeId.toUInt64 = ep → ∀ id : EpisodeId, id.toUInt64 ≠ ep →
      s'.episodes[id]? = (s.filterOldEpisodes seq).episodes[id]? := by
    intro hep id hid
    apply hothers
    rintro rfl
    exact hid hep
  constructor
  · intro h
    have hep : a.episodeId.toUInt64 = ep := by
      rw [← hcall]
      exact h.called call (List.mem_singleton_self call)
    refine ⟨fun b hb _ => ?_, filter_others.mp fun id hid => ?_⟩
    · cases ha.symm.trans hb
      exact hep
    · rw [← hkept hep id hid]
      exact h.others id hid
  · intro h
    have hep := h.addressed a ha hacts
    refine ⟨fun id hid => ?_, fun call' hcall' => ?_⟩
    · rw [hkept hep id hid]
      exact filter_others.mpr h.unexpired id hid
    · rw [List.mem_singleton.mp hcall', hcall]
      exact hep

end Outcomes

theorem confined_iff_within : (∃ s' calls,
    Engine.start [syntheticBlock seq now payload] s = .ok (s', calls) ∧ Confined ep s s' calls) ↔
      Within s ep seq now payload := by
  obtain ⟨s', calls, hrun, hcases⟩ := start_synthetic s seq now payload
  have hunique : (∃ s' calls, Engine.start [syntheticBlock seq now payload] s = .ok (s', calls) ∧
      Confined ep s s' calls) ↔ Confined ep s s' calls := by
    rw [hrun]
    constructor
    · rintro ⟨_, _, heq, hconfined⟩
      cases heq
      exact hconfined
    · exact fun hconfined => ⟨_, _, rfl, hconfined⟩
  rw [hunique]
  rcases hcases with ⟨hnone, rfl, hepisodes⟩ | ⟨a, out, ha, hdoes, rfl, hepisodes⟩
  · apply confined_of_idle _ hepisodes
    intro a ha
    cases hnone.symm.trans ha
  · cases hdoes with
    | refused hacts hcalls hsame =>
      rw [hcalls]
      apply confined_of_idle _ (hepisodes.trans hsame)
      intro b hb
      cases ha.symm.trans hb
      exact hacts
    | acted hacts hcalls hcall hothers =>
      rw [hcalls]
      rw [← hepisodes] at hothers
      exact confined_of_acted ha hacts hcall hothers

end Block

structure System where
  engine : Engine LotteryEpisode
  lastSeq : LastSeq

namespace System
variable (router : OffchainRouter) (self : System) (moment : Moment) (datagram : Bytes)

/-- A datagram goes through the router, and what that delivers through the engine. -/
def step : Except (Panic LotteryEpisode) (Handled × List (HandlerCall LotteryEpisode) × System) :=
  let (handled, lastSeq) := router.handle moment self.lastSeq (OffchainRouter.recvFrom datagram)
  do
    let (engine, calls) ← Engine.start handled.delivered.toList self.engine
    return (handled, calls, ⟨engine, lastSeq⟩)

def next : System :=
  match self.step router moment datagram with
  | .ok (_, _, after) => after
  | .error _ => self

/-- Whatever is accepted under an id has its effect on the episode of this id. -/
def ConfinedStep : Prop := ∃ handled calls after,
  self.step router moment datagram = .ok (handled, calls, after) ∧
    ∀ mt msg, handled.accepted = some (mt, msg) →
      Confined msg.episodeId self.engine after.engine calls

def AllConfined : System → List (Moment × Bytes) → Prop
  | _, [] => True
  | self, (moment, datagram) :: rest =>
    ConfinedStep router self moment datagram ∧ AllConfined (next router self moment datagram) rest

def WithinStep : Prop := ∀ mt msg,
  readMsg (OffchainRouter.recvFrom datagram) = some (mt, msg) →
    router.accepts mt msg.seq self.lastSeq[msg.episodeId]? = true → mt ≠ .checkpoint →
      moment.channelOpen = true →
        Within self.engine msg.episodeId msg.seq moment.now (enginePayload mt msg)

def AllWithin : System → List (Moment × Bytes) → Prop
  | _, [] => True
  | self, (moment, datagram) :: rest =>
    WithinStep router self moment datagram ∧ AllWithin (next router self moment datagram) rest

variable {router self moment datagram}

theorem step_silent {lastSeq : LastSeq} {handled : Handled}
    (h : router.handle moment self.lastSeq (OffchainRouter.recvFrom datagram) = (handled, lastSeq))
    (hnone : handled.delivered = none) :
    self.step router moment datagram = .ok (handled, [], ⟨self.engine, lastSeq⟩) := by
  have hnil : Engine.start [] self.engine = .ok (self.engine, []) := rfl
  unfold step
  rw [h]
  dsimp only
  rw [hnone]
  exact bind_of_ok _ hnil

theorem step_delivered {lastSeq : LastSeq} {handled : Handled} {seq now : UInt64}
    {payload : Bytes} {engine : Engine LotteryEpisode} {calls : List (HandlerCall LotteryEpisode)}
    (h : router.handle moment self.lastSeq (OffchainRouter.recvFrom datagram) = (handled, lastSeq))
    (hdelivered : handled.delivered = some (syntheticBlock seq now payload))
    (hrun : Engine.start [syntheticBlock seq now payload] self.engine = .ok (engine, calls)) :
    self.step router moment datagram = .ok (handled, calls, ⟨engine, lastSeq⟩) := by
  unfold step
  rw [h]
  dsimp only
  rw [hdelivered]
  exact bind_of_ok _ hrun

theorem confinedStep_silent {lastSeq : LastSeq} {handled : Handled}
    (h : router.handle moment self.lastSeq (OffchainRouter.recvFrom datagram) = (handled, lastSeq))
    (hnone : handled.delivered = none) : self.ConfinedStep router moment datagram :=
  ⟨_, _, _, step_silent h hnone,
    fun _ _ _ => ⟨fun _ _ => rfl, fun _ hcall => by cases hcall⟩⟩

theorem confinedStep_delivered {mt : MsgType} {msg : TlvMsg} {reply : Option Bytes}
    {lastSeq : LastSeq}
    (h : router.handle moment self.lastSeq (OffchainRouter.recvFrom datagram) =
      (⟨some (mt, msg), some (syntheticBlock msg.seq moment.now (enginePayload mt msg)), reply⟩,
        lastSeq))
    (hread : readMsg (OffchainRouter.recvFrom datagram) = some (mt, msg))
    (hacc : router.accepts mt msg.seq self.lastSeq[msg.episodeId]? = true)
    (hmt : mt ≠ .checkpoint) (hopen : moment.channelOpen = true) :
    self.ConfinedStep router moment datagram ↔ self.WithinStep router moment datagram := by
  have hwithin : self.WithinStep router moment datagram ↔
      Within self.engine msg.episodeId msg.seq moment.now (enginePayload mt msg) := by
    constructor
    · exact fun hstep => hstep mt msg hread hacc hmt hopen
    · intro hone mt' msg' hread' _ _ _
      cases hread.symm.trans hread'
      exact hone
  rw [hwithin, ← confined_iff_within]
  constructor
  · rintro ⟨handled, calls, after, hstep, hconfined⟩
    obtain ⟨engine, calls', hrun, -⟩ := start_synthetic self.engine msg.seq moment.now
      (enginePayload mt msg)
    cases (step_delivered h rfl hrun).symm.trans hstep
    exact ⟨engine, _, hrun, hconfined mt msg rfl⟩
  · rintro ⟨engine, calls, hrun, hconfined⟩
    refine ⟨_, _, _, step_delivered h rfl hrun, fun mt' msg' hsome => ?_⟩
    cases hsome
    exact hconfined

theorem confinedStep_iff_withinStep :
    self.ConfinedStep router moment datagram ↔ self.WithinStep router moment datagram := by
  cases hhandle : router.handle moment self.lastSeq (OffchainRouter.recvFrom datagram) with
  | mk handled lastSeq =>
    have hhandles := router.handles moment self.lastSeq (OffchainRouter.recvFrom datagram)
    rw [hhandle] at hhandles
    cases hhandles with
    | unread hnone =>
      refine iff_of_true (confinedStep_silent hhandle rfl) fun mt msg hread _ _ _ => ?_
      cases hnone.symm.trans hread
    | rejected hread hnot =>
      refine iff_of_true (confinedStep_silent hhandle rfl) fun mt msg hread' hacc _ _ => ?_
      cases hread.symm.trans hread'
      cases hnot.symm.trans hacc
    | failed hread hacc hmt hclosed =>
      refine iff_of_true (confinedStep_silent hhandle rfl) fun mt msg _ _ _ hopen => ?_
      cases hclosed.symm.trans hopen
    | checkpoint hread hacc =>
      refine iff_of_true (confinedStep_silent hhandle rfl) fun mt msg hread' _ hmt _ => ?_
      cases hread.symm.trans hread'
      exact absurd rfl hmt
    | forwarded hread hacc hmt hclose hopen =>
      exact confinedStep_delivered hhandle hread hacc hmt hopen
    | closed hread hacc hopen =>
      exact confinedStep_delivered hhandle hread hacc (by decide) hopen

theorem allConfined_iff_allWithin (router : OffchainRouter) (self : System)
    (datagrams : List (Moment × Bytes)) :
    AllConfined router self datagrams ↔ AllWithin router self datagrams := by
  induction datagrams generalizing self with
  | nil => exact Iff.rfl
  | cons arrival datagrams ih =>
    obtain ⟨moment, datagram⟩ := arrival
    exact and_congr confinedStep_iff_withinStep (ih _)

end System
end Kdapp.Lottery

namespace Kdapp.Lottery.System
open Borsh
open Merchant (Moment)
attribute [local instance] idealCrypto

def idle : System := ⟨Engine.new (), ∅⟩

def wire (tlv : Option TlvMsg) : Moment × Bytes :=
  (⟨9, true⟩, (tlv.map TlvMsg.encode).getD [])

def aliased : UInt64 := 0x100000005

def closedByAlias : List (Moment × Bytes) := [
  wire (Client.sendTlvNew 5 0 (.newEpisode 5 [])),
  wire (Client.sendTlvNew aliased 0 (.newEpisode 5 [])),
  wire (some (Client.sendTlvClose aliased 1))]

def misaddressed : List (Moment × Bytes) := [wire (Client.sendTlvNew 7 0 (.newEpisode 5 []))]

def pausedAt (self : System) (id : EpisodeId) : Option Bool :=
  self.engine.episodes[id]?.map fun w => w.episode.paused

theorem ConfinedStep.pausedAt {router : OffchainRouter} {self : System} {moment : Moment}
    {datagram : Bytes} (h : self.ConfinedStep router moment datagram)
    (mt : MsgType) (msg : TlvMsg) (id : EpisodeId)
    (hacc : (router.handle moment self.lastSeq
      (OffchainRouter.recvFrom datagram)).1.accepted = some (mt, msg))
    (hid : id.toUInt64 ≠ msg.episodeId) :
    (self.next router moment datagram).pausedAt id = self.pausedAt id := by
  obtain ⟨handled, calls, after, hstep, hconfined⟩ := h
  have hhandled : handled = (router.handle moment self.lastSeq
      (OffchainRouter.recvFrom datagram)).1 := by
    obtain ⟨out, -, hout⟩ := Outcome.bind_ok hstep
    cases hout
    rfl
  have hnext : self.next router moment datagram = after := by
    unfold next
    rw [hstep]
  rw [hnext, System.pausedAt, System.pausedAt,
    (hconfined mt msg (hhandled ▸ hacc)).others id hid]

/-- A `Close` ends the episode of another id, and so does a `New` begin one. -/
theorem not_allConfined :
    ¬ AllConfined ⟨true, true⟩ idle closedByAlias ∧
      ¬ AllConfined ⟨true, true⟩ idle misaddressed := by
  constructor
  · rintro ⟨-, -, hclose, -⟩
    have hpaused := hclose.pausedAt .close (Client.sendTlvClose aliased 1) 5
      (by decide +kernel) (by decide +kernel)
    revert hpaused
    decide +kernel
  · rintro ⟨hnew, -⟩
    have hpaused := hnew.pausedAt .new ((Client.sendTlvNew 7 0 (.newEpisode 5 [])).get rfl) 5
      (by decide +kernel) (by decide +kernel)
    revert hpaused
    decide +kernel

end Kdapp.Lottery.System
