import Kdapp.Auth
import Kdapp.Engine.Observers
import Kdapp.Engine.Totality
import Kdapp.TicTacToe.Steps
import Kdapp.TicTacToe.Tools

/-! The MCP server as a whole (`kdapp-mcp-server/src/state.rs`, `tools.rs`): the tools send messages
to its engine, and report what the handler of the engine has put down. -/

namespace Kdapp
open Borsh Outcome
open Std (ExtTreeMap)

variable [Crypto]

structure TttSnapshot where
  /-- 0 empty, 1 X, 2 O. -/
  board : Board UInt8
  current : Char
  participants : ℕ

namespace TicTacToeEpisode
variable {g g' : TicTacToeEpisode} {cmd : TttCommand} {auth : Option PubKey}

theorem execute_error {e : EpisodeError TicTacToeError}
    (h : g.execute cmd auth = .ok (g', .error e)) : g' = g := by
  obtain ⟨row, col, player⟩ := cmd
  unfold execute at h
  dsimp only at h
  split at h
  · cases h
    rfl
  obtain ⟨cell, -, h⟩ := bind_ok h
  split at h
  · cases h
    rfl
  split at h
  · cases h
    rfl
  split at h
  · split at h
    · cases h
      rfl
    · obtain ⟨⟨episode, rollback⟩, -, h⟩ := bind_ok h
      cases h
  · cases h
    rfl

theorem errorAtomic : Episode.ErrorAtomic TicTacToeEpisode := by
  intro g w cmd auth md g' w' e h
  obtain ⟨hexec, -⟩ := run_lift_ok h
  exact execute_error hexec

def InBounds (g : TicTacToeEpisode) : Prop :=
  ∀ p ∈ g.moveHistory, ∃ sq, square p.1.toNat p.2.toNat = some sq

theorem create_inBounds (participants : List PubKey) : (create participants).InBounds :=
  fun _ hp => absurd hp List.not_mem_nil

theorem InBounds.slide (h : g.InBounds) :
    ∃ board history removed, g.slide = .ok (board, history, removed) ∧
      history ⊆ g.moveHistory := by
  unfold TicTacToeEpisode.slide
  split
  · cases hhistory : g.moveHistory with
    | nil => exact ⟨_, _, _, rfl, List.nil_subset _⟩
    | cons p rest =>
      obtain ⟨oldR, oldC⟩ := p
      have hmem : (oldR, oldC) ∈ g.moveHistory := by
        rw [hhistory]
        exact List.mem_cons_self
      obtain ⟨sq, hsq⟩ := h _ hmem
      have hrest : rest ⊆ (oldR, oldC) :: rest := List.subset_cons_self _ _
      dsimp only
      rw [bind_of_ok _ (Board.index_of_square hsq)]
      split
      · rw [bind_of_ok _ (Board.assign_of_square hsq 0)]
        exact ⟨_, _, _, rfl, hrest⟩
      · exact ⟨_, _, _, rfl, hrest⟩
  · exact ⟨_, _, _, rfl, List.Subset.refl _⟩

theorem InBounds.apply (h : g.InBounds) (player : UInt8) {row col : UInt8} {sq : Square}
    (hsq : square row.toNat col.toNat = some sq) :
    ∃ g' rb, g.apply row col player = .ok (g', rb) ∧ g'.InBounds := by
  obtain ⟨board, history, removed, hslide, hsubset⟩ := h.slide
  unfold TicTacToeEpisode.apply
  rw [bind_of_ok _ hslide]
  dsimp only
  rw [bind_of_ok _ (Board.assign_of_square hsq _)]
  refine ⟨_, _, rfl, fun p hp => ?_⟩
  rcases List.mem_append.mp hp with hp | hp
  · exact h p (hsubset hp)
  · obtain rfl := List.mem_singleton.mp hp
    exact ⟨sq, hsq⟩

theorem InBounds.execute (h : g.InBounds) (cmd : TttCommand) (auth : Option PubKey) :
    (∃ e, g.execute cmd auth = .ok (g, .error e)) ∨
      ∃ g' rb, g.execute cmd auth = .ok (g', .ok rb) ∧ g'.InBounds := by
  obtain ⟨row, col, player⟩ := cmd
  unfold TicTacToeEpisode.execute
  dsimp only
  split
  · exact .inl ⟨_, rfl⟩
  rename_i hbounds
  obtain ⟨sq, hsq⟩ : ∃ sq, square row.toNat col.toNat = some sq := exists_square (by omega)
  rw [bind_of_ok _ (Board.index_of_square hsq)]
  split
  · exact .inl ⟨_, rfl⟩
  split
  · exact .inl ⟨_, rfl⟩
  split
  · split
    · exact .inl ⟨_, rfl⟩
    · obtain ⟨g', rb, happly, hnext⟩ := h.apply player hsq
      rw [bind_of_ok _ happly]
      exact .inr ⟨g', rb, rfl, hnext⟩
  · exact .inl ⟨_, rfl⟩

theorem InBounds.putBack (h : g.InBounds) (removed : Option TttRemoved) :
    ∃ g', g.putBack removed = .ok g' ∧ g'.InBounds := by
  unfold TicTacToeEpisode.putBack
  split
  · rename_i rem
    split
    · obtain ⟨sq, hsq⟩ : ∃ sq, square rem.row.toNat rem.col.toNat = some sq :=
        exists_square (by omega)
      rw [bind_of_ok _ (Board.assign_of_square hsq _)]
      refine ⟨_, rfl, fun p hp => ?_⟩
      rcases List.mem_cons.mp hp with rfl | hp
      · exact ⟨sq, hsq⟩
      · exact h p hp
    · exact ⟨g, rfl, h⟩
  · exact ⟨g, rfl, h⟩

theorem InBounds.rollback (h : g.InBounds) (rb : TttRollback) :
    ∃ g' b, g.rollback rb = .ok (g', b) ∧ g'.InBounds := by
  unfold TicTacToeEpisode.rollback
  split
  · exact ⟨g, false, rfl, h⟩
  rename_i hbounds
  obtain ⟨sq, hsq⟩ : ∃ sq, square rb.row.toNat rb.col.toNat = some sq := exists_square (by omega)
  rw [bind_of_ok _ (Board.assign_of_square hsq _)]
  have hkept : InBounds { g with
      board := Function.update g.board sq 0
      moveHistory := g.moveHistory.dropLast } :=
    fun p hp => h p (List.dropLast_subset _ hp)
  obtain ⟨g', hback, hnext⟩ := hkept.putBack rb.removed
  dsimp only
  rw [bind_of_ok _ hback]
  exact ⟨_, true, rfl, hnext⟩

def Sound (ew : EpisodeWrapper TicTacToeEpisode) : Prop := ew.episode.InBounds

theorem sound_kept : Engine.Kept Sound where
  created ps md w g w' h := by
    cases h
    exact create_inBounds ps
  rejected ew cmd auth md w g e w' h hexec := by
    obtain rfl := errorAtomic _ _ _ _ _ _ _ _ hexec
    exact h
  executed ew cmd auth md w g r w' h hexec := by
    obtain ⟨hrun, -⟩ := run_lift_ok hexec
    rcases InBounds.execute h cmd auth with ⟨e, hrejects⟩ | ⟨g', rb, haccepts, hnext⟩
    · cases hrun.symm.trans hrejects
    · cases hrun.symm.trans haccepts
      exact hnext
  popped ew r rs w g b w' h hstack hroll := by
    obtain ⟨hrun, -⟩ := run_lift_ok hroll
    obtain ⟨g', b', hrolled, hnext⟩ := InBounds.rollback h r
    cases hrun.symm.trans hrolled
    exact hnext

theorem runs {s : Engine TicTacToeEpisode} (hs : s.Each Sound)
    (a : EpisodeMessage TicTacToeEpisode) (md : PayloadMetadata) : s.Runs md a := by
  have hexec : ∀ (id : EpisodeId) ew (cmd : TttCommand) (auth : Option PubKey),
      s.episodes[id]? = some ew →
        ∃ out, (Episode.execute ew.episode cmd auth md).run s.world = .ok out := by
    intro id ew cmd auth hew
    rcases InBounds.execute (hs id ew hew) cmd auth with ⟨e, hrejects⟩ | ⟨g', rb, haccepts, -⟩
    · exact ⟨_, run_lift_of_ok _ hrejects⟩
    · exact ⟨_, run_lift_of_ok _ haccepts⟩
  cases a with
  | newEpisode id ps => exact fun _ => ⟨_, rfl⟩
  | signedCommand id cmd pk sig =>
    intro ew hew
    obtain ⟨row, col, player⟩ := cmd
    exact ⟨_, rfl, fun _ => hexec id ew _ _ hew⟩
  | unsignedCommand id cmd => exact fun ew hew => hexec id ew cmd none hew
  | revert id =>
    intro ew hew r rs hstack
    obtain ⟨g', b, hrolled, -⟩ := InBounds.rollback (hs id ew hew) r
    exact ⟨_, run_lift_of_ok _ hrolled⟩

theorem start_runs {s : Engine TicTacToeEpisode} (hs : s.Each Sound) (msgs : List EngineMsg) :
    ∃ out, Engine.start msgs s = .ok out :=
  Engine.start_total sound_kept.preserved
    (fun _ a md hs (_ : True) => Engine.handleMessage_isOk_iff.mpr (runs hs a md))
    (fun _ id md hs => Engine.handleMessage_isOk_iff.mpr (runs hs (.revert id) md)) hs
    fun _ _ _ _ => trivial

end TicTacToeEpisode
/-- `Player::X` and `Player::O`, as they are reported. -/
def Player.letter : Player → Char
  | .x => 'X'
  | .o => 'O'

def TicTacToeEpisode.snapshot (self : TicTacToeEpisode) : TttSnapshot where
  board := self.board
  current := self.current.letter
  participants := self.participants.length

namespace TttEventHandler

def onInitialize (episode : TicTacToeEpisode) : TttSnapshot where
  board := episode.board
  current := 'X'
  participants := episode.participants.length

def onCommand (episode : TicTacToeEpisode) : TttSnapshot := episode.snapshot

def onRollback (episode : TicTacToeEpisode) : TttSnapshot := episode.snapshot

/-- What a callback puts down, in the map of the server and in the file of the episode. -/
def record : HandlerCall TicTacToeEpisode → TttSnapshot
  | .onInitialize _ episode => onInitialize episode
  | .onCommand _ episode _ _ _ => onCommand episode
  | .onRollback _ episode => onRollback episode

theorem reports : Engine.Reports record TicTacToeEpisode.snapshot where
  created ps md w g w' id h := by
    cases h
    rfl
  executed id g cmd auth md := rfl
  reverted id g := rfl

end TttEventHandler

/-- Whatever messages the engine receives, it handles them all; then the map shows the state of each
live game, and of the ids that no callback was about what was read from the files at the start. -/
theorem snapshots_mirror (preloaded : ExtTreeMap EpisodeId TttSnapshot) (msgs : List EngineMsg) :
    ∃ s calls, Engine.start msgs (Engine.new ()) = .ok (s, calls) ∧
      Engine.Mirrors TicTacToeEpisode.snapshot s
        (Engine.observed TttEventHandler.record preloaded calls) ∧
      ∀ id : EpisodeId, Engine.callsOf id calls = [] →
        (Engine.observed TttEventHandler.record preloaded calls)[id]? = preloaded[id]? := by
  obtain ⟨⟨s, calls⟩, hrun⟩ :=
    TicTacToeEpisode.start_runs (Engine.each_new (P := TicTacToeEpisode.Sound) ()) msgs
  have hnew : Engine.Mirrors TicTacToeEpisode.snapshot (Engine.new ())
      (Engine.observed TttEventHandler.record preloaded []) := by
    intro id ew hew
    cases ExtTreeMap.getElem?_empty.symm.trans hew
  have hmirrors := (TttEventHandler.reports.mirrors TicTacToeEpisode.errorAtomic preloaded).start
    hnew hrun
  exact ⟨s, calls, hrun, hmirrors, fun id hid => Engine.observed_of_callsOf hid⟩

omit [Crypto] in
theorem TttCommand.codec_lawful : TttCommand.codec.Lawful := by
  intro cmd bs rest hs
  obtain ⟨row, col, player⟩ := cmd
  cases hs
  rfl

namespace Tools

def rowValue (board : Board UInt8) (row : Fin 3) : Value :=
  .array ((List.finRange 3).map fun col => .int (board (row, col)).toNat)

def snapshotValue (snap : TttSnapshot) : Value :=
  .object [
    ("board", .array ((List.finRange 3).map (rowValue snap.board))),
    ("current", .string (String.singleton snap.current)),
    ("participants", .int snap.participants)]

def getEpisodeState (tttState : ExtTreeMap EpisodeId TttSnapshot) (episodeId : String) :
    Except String Value :=
  match parseEpisodeId episodeId with
  | .error e => .error ("Invalid episode ID: " ++ e)
  | .ok episodeId =>
    match tttState[episodeId]? with
    | some snap => .ok (snapshotValue snap)
    | none => .error "episode not found"

omit [Crypto] in
theorem parseEpisodeId_repr (id : EpisodeId) : parseEpisodeId id.toNat.repr = .ok id := by
  have hdigits : (Nat.toDigits 10 id.toNat).foldlM addDigit 0 = .ok id.toNat := by
    apply Text.foldlM_toDigits addDigit
    intro k c hc hle
    have hsize : 10 * k + (c.toNat - 48) < UInt32.size := Nat.lt_of_le_of_lt hle id.toNat_lt
    rw [addDigit, hc, if_neg (by decide), if_pos hsize]
    rfl
  have hsign := Text.not_mem_toDigits (c := '+') rfl id.toNat
  unfold parseEpisodeId
  rw [Nat.toList_repr]
  split
  · rename_i hnil
    exact absurd hnil Nat.toDigits_ne_nil
  · rename_i hplus
    rw [hplus] at hsign
    exact absurd List.mem_cons_self hsign
  · rename_i digits hnot hplus
    rw [hplus] at hsign
    exact absurd List.mem_cons_self hsign
  · rw [hdigits]
    change Except.ok (UInt32.ofNat id.toNat) = .ok id
    rw [UInt32.ofNat_toNat]

variable [AddressCrates]

/-- `drawn` is the id of the new episode; participants that are no keys are left out. -/
def startEpisode (drawn : EpisodeId) (participants : List String)
    (delivered : Except String Unit) : ToolCall :=
  let message : EpisodeMessage TicTacToeEpisode :=
    .newEpisode drawn (participants.filterMap parsePublicKey)
  match EpisodeMessage.codec.serialize message, delivered with
  | none, _ => { built := none, sent := none, result := none }
  | some _, .error e => .failed ("Failed to send message to engine: " ++ e)
  | some payload, .ok () =>
    { built := none
      sent := some (engineMsg payload)
      result := some (.ok (.string drawn.toNat.repr)) }

end Tools

/-- The engine of the process, the map that its handler shares with the tools, and the files. -/
structure McpServer where
  engine : Engine TicTacToeEpisode
  tttState : ExtTreeMap EpisodeId TttSnapshot
  files : ExtTreeMap EpisodeId TttSnapshot

section Server
open Tools
variable [AddressCrates] (state : ServerState)

inductive ServerStep where
  | startEpisode (drawn : EpisodeId) (participants : List String)
      (delivered : Except String Unit)
  | executeCommand (episodeId : String) (command : Value) (signer : Option String)
      (utxos : Consensus.Address → Except String (List Utxo))
      (answer delivered : Except String Unit)

def ServerStep.sent : ServerStep → Option EngineMsg
  | .startEpisode drawn participants delivered =>
    (Tools.startEpisode drawn participants delivered).sent
  | .executeCommand episodeId command signer utxos answer delivered =>
    (state.executeCommand episodeId command signer utxos answer delivered).sent

namespace McpServer

/-- `ServerState::new`: the engine knows nothing of the files. -/
def new (files : ExtTreeMap EpisodeId TttSnapshot) : McpServer where
  engine := Engine.new ()
  tttState := files
  files := files

def receive (self : McpServer) (msg : EngineMsg) :
    Except (Panic TicTacToeEpisode) McpServer := do
  let (engine, calls) ← Engine.start [msg] self.engine
  return {
    engine
    tttState := Engine.observed TttEventHandler.record self.tttState calls
    files := Engine.observed TttEventHandler.record self.files calls }

def step (self : McpServer) (e : ServerStep) : Except (Panic TicTacToeEpisode) McpServer :=
  match e.sent state with
  | some msg => self.receive msg
  | none => .ok self

def run (self : McpServer) (steps : List ServerStep) : Except (Panic TicTacToeEpisode) McpServer :=
  steps.foldlM (step state) self

def runAll (files : ExtTreeMap EpisodeId TttSnapshot) (processes : List (List ServerStep)) :
    Except (Panic TicTacToeEpisode) (ExtTreeMap EpisodeId TttSnapshot) :=
  processes.foldlM (fun files steps => ((new files).run state steps).map (·.files)) files

structure Right (server : McpServer) : Prop where
  sound : server.engine.Each TicTacToeEpisode.Sound
  unfiltered : server.engine.nextFiltering = 0
  mirrors : Engine.Mirrors TicTacToeEpisode.snapshot server.engine server.tttState
  files : server.files = server.tttState

omit [AddressCrates] in
theorem right_new (files : ExtTreeMap EpisodeId TttSnapshot) : (new files).Right where
  sound := Engine.each_new ()
  unfiltered := rfl
  mirrors id ew hew := by cases ExtTreeMap.getElem?_empty.symm.trans hew
  files := rfl

omit [AddressCrates] in
theorem start_engineMsg {s s' : Engine TicTacToeEpisode}
    {calls : List (HandlerCall TicTacToeEpisode)} {payload : Bytes} (hs : s.nextFiltering = 0)
    (h : Engine.start [engineMsg payload] s = .ok (s', calls)) :
    s'.nextFiltering = 0 ∧ (∀ id ∈ s.episodes, id ∈ s'.episodes) ∧
      (∀ call ∈ calls, call.episodeId ∈ s'.episodes) ∧
      ∀ id ps, Engine.action payload = some (.newEpisode id ps : EpisodeMessage TicTacToeEpisode) →
        id ∈ s'.episodes := by
  obtain ⟨t, c, c', hblock, hrest, rfl⟩ := Engine.start_blkAccepted_ok h
  cases hrest
  rw [List.append_nil]
  have hdue : ¬ s.filteringDue 0 := by
    unfold Engine.filteringDue
    rw [hs]
    decide
  have hnext := Engine.acceptBlock_nextFiltering hblock
  have hsingle := Engine.acceptBlock_single rfl hblock
  dsimp only at hnext hsingle
  rw [Engine.filterOldEpisodes_not_due hdue] at hnext hsingle
  refine ⟨hnext.trans hs, ?_⟩
  rcases hsingle with ⟨hnone, rfl, hepisodes, -⟩ | ⟨a, out, ha, hhandles, rfl, hepisodes, -⟩
  · rw [hepisodes]
    refine ⟨fun id hid => hid, fun call hcall => absurd hcall List.not_mem_nil, ?_⟩
    intro id ps hnew
    cases hnone.symm.trans hnew
  · rw [hepisodes]
    have hrevert := Engine.action_ne_revert ha
    refine ⟨fun id hid => hhandles.mem hrevert hid,
      fun call hcall => hhandles.live hrevert hcall, ?_⟩
    intro id ps hnew
    obtain rfl := Option.some.inj (ha.symm.trans hnew)
    cases hhandles with
    | known hid => exact hid
    | created hid hinit => exact ExtTreeMap.mem_insert_self
    | missing hnot hid => exact absurd rfl (hnot ps)
    | rejected hcmd => cases hcmd
    | executed hcmd => cases hcmd

structure Received (server next : McpServer) : Prop where
  right : next.Right
  kept : ∀ id ∈ server.engine.episodes, id ∈ next.engine.episodes
  untouched : ∀ id : EpisodeId, id ∉ next.engine.episodes →
    next.tttState[id]? = server.tttState[id]?

variable {server : McpServer}

omit [AddressCrates] in
theorem Right.receive (h : server.Right) (payload : Bytes) :
    ∃ next, server.receive (engineMsg payload) = .ok next ∧ server.Received next ∧
      ∀ id ps, Engine.action payload = some (.newEpisode id ps : EpisodeMessage TicTacToeEpisode) →
        id ∈ next.engine.episodes := by
  obtain ⟨⟨engine, calls⟩, hrun⟩ := TicTacToeEpisode.start_runs h.sound [engineMsg payload]
  obtain ⟨hunfiltered, hkept, hlive, hnew⟩ := start_engineMsg h.unfiltered hrun
  have hmirrors : Engine.Mirrors TicTacToeEpisode.snapshot engine
      (Engine.observed TttEventHandler.record server.tttState ([] ++ calls)) :=
    (TttEventHandler.reports.mirrors TicTacToeEpisode.errorAtomic server.tttState).start
      h.mirrors hrun
  refine ⟨_, bind_of_ok _ hrun, ⟨⟨?_, hunfiltered, hmirrors, ?_⟩, hkept, ?_⟩, hnew⟩
  · exact TicTacToeEpisode.sound_kept.preserved.start h.sound hrun
  · change Engine.observed _ server.files calls = Engine.observed _ server.tttState calls
    rw [h.files]
  · intro id hid
    apply Engine.observed_of_callsOf
    unfold Engine.callsOf
    rw [List.filter_eq_nil_iff]
    intro call hcall hsame
    apply hid
    rw [← of_decide_eq_true hsame]
    exact hlive call hcall

theorem sent_eq {e : ServerStep} {msg : EngineMsg} (h : e.sent state = some msg) :
    ∃ payload, msg = engineMsg payload := by
  cases e with
  | startEpisode drawn participants delivered =>
    unfold ServerStep.sent Tools.startEpisode at h
    dsimp only at h
    split at h
    · cases h
    · cases h
    · cases h
      exact ⟨_, rfl⟩
  | executeCommand episodeId command signer utxos answer delivered =>
    unfold ServerStep.sent ServerState.executeCommand at h
    dsimp only at h
    split at h
    · cases h
    split at h
    · cases h
    split at h
    · cases h
    split at h
    · cases h
    split at h
    · cases h
    · cases h
    · cases h
      exact ⟨_, rfl⟩

theorem Right.step (h : server.Right) (e : ServerStep) :
    ∃ next, server.step state e = .ok next ∧ server.Received next := by
  unfold McpServer.step
  cases hsent : e.sent state with
  | none => exact ⟨server, rfl, h, fun id hid => hid, fun id hid => rfl⟩
  | some msg =>
    obtain ⟨payload, rfl⟩ := sent_eq state hsent
    obtain ⟨next, hnext, hreceived, -⟩ := h.receive payload
    exact ⟨next, hnext, hreceived⟩

theorem Right.started (h : server.Right) {drawn : EpisodeId} {participants : List String}
    {delivered : Except String Unit} {answer : Value}
    (hanswer : (Tools.startEpisode drawn participants delivered).result = some (.ok answer)) :
    ∃ next, server.step state (.startEpisode drawn participants delivered) = .ok next ∧
      server.Received next ∧ drawn ∈ next.engine.episodes := by
  unfold McpServer.step ServerStep.sent
  dsimp only
  unfold Tools.startEpisode at hanswer ⊢
  dsimp only at hanswer ⊢
  split at hanswer
  · cases hanswer
  · cases hanswer
  · rename_i payload hpayload
    obtain ⟨next, hnext, hreceived, hnew⟩ := h.receive payload
    have hlawful : (EpisodeMessage.codec : Codec (EpisodeMessage TicTacToeEpisode)).Lawful :=
      EpisodeMessage.codec_lawful TttCommand.codec_lawful
    have haction := Engine.action_of_fromSlice (hlawful.fromSlice hpayload) fun _ => nofun
    exact ⟨next, hnext, hreceived, hnew drawn _ haction⟩

omit [AddressCrates] in
theorem Received.trans {middle next : McpServer} (h : server.Received middle)
    (h' : middle.Received next) : server.Received next where
  right := h'.right
  kept id hid := h'.kept id (h.kept id hid)
  untouched id hid := by
    rw [h'.untouched id hid]
    exact h.untouched id fun hmiddle => hid (h'.kept id hmiddle)

omit [AddressCrates] in
theorem Right.received (h : server.Right) : server.Received server :=
  ⟨h, fun _ hid => hid, fun _ _ => rfl⟩

theorem Right.run (h : server.Right) (steps : List ServerStep) :
    ∃ next, server.run state steps = .ok next ∧ server.Received next ∧
      ∀ drawn participants delivered answer,
        .startEpisode drawn participants delivered ∈ steps →
          (Tools.startEpisode drawn participants delivered).result = some (.ok answer) →
            drawn ∈ next.engine.episodes := by
  induction steps generalizing server with
  | nil =>
    refine ⟨server, rfl, h.received, ?_⟩
    intro drawn participants delivered answer hmem
    cases hmem
  | cons e steps ih =>
    obtain ⟨middle, hmiddle, hreceived⟩ := h.step state e
    obtain ⟨next, hnext, hreceived', hstarted⟩ := ih hreceived.right
    have hrun : server.run state (e :: steps) = .ok next := by
      unfold McpServer.run
      rw [List.foldlM_cons, bind_of_ok _ hmiddle]
      exact hnext
    refine ⟨next, hrun, hreceived.trans hreceived', ?_⟩
    intro drawn participants delivered answer hmem hanswer
    rcases List.mem_cons.mp hmem with rfl | hmem
    · obtain ⟨middle', hmiddle', -, hlive⟩ := h.started state hanswer
      cases hmiddle.symm.trans hmiddle'
      exact hreceived'.kept drawn hlive
    · exact hstarted drawn participants delivered answer hmem hanswer

theorem runAll_ok (files : ExtTreeMap EpisodeId TttSnapshot) (processes : List (List ServerStep)) :
    ∃ left, runAll state files processes = .ok left := by
  induction processes generalizing files with
  | nil => exact ⟨files, rfl⟩
  | cons steps processes ih =>
    obtain ⟨next, hnext, -⟩ := (right_new files).run state steps
    obtain ⟨left, hleft⟩ := ih next.files
    refine ⟨left, ?_⟩
    unfold runAll
    rw [List.foldlM_cons, hnext]
    exact hleft

omit [Crypto] [AddressCrates] in
theorem getEpisodeState_of_some {tttState : ExtTreeMap EpisodeId TttSnapshot} {id : EpisodeId}
    {snap : TttSnapshot} (h : tttState[id]? = some snap) :
    getEpisodeState tttState id.toNat.repr = .ok (snapshotValue snap) := by
  unfold getEpisodeState
  rw [parseEpisodeId_repr]
  dsimp only
  rw [h]

end McpServer

/-- For every order of the tools, in one process after another: an episode that a process has
started is live in it to its end, the state of a live one is reported as it is, and of any other
one as the processes before have left it, whatever commands were sent for it. -/
theorem server_reports (files : ExtTreeMap EpisodeId TttSnapshot)
    (processes : List (List ServerStep)) (steps : List ServerStep) :
    ∃ left server, McpServer.runAll state files processes = .ok left ∧
      (McpServer.new left).run state steps = .ok server ∧
      (∀ drawn participants delivered answer,
        .startEpisode drawn participants delivered ∈ steps →
          (Tools.startEpisode drawn participants delivered).result = some (.ok answer) →
            drawn ∈ server.engine.episodes) ∧
      (∀ (id : EpisodeId) ew, server.engine.episodes[id]? = some ew →
        getEpisodeState server.tttState id.toNat.repr =
          .ok (snapshotValue ew.episode.snapshot)) ∧
      ∀ id : EpisodeId, id ∉ server.engine.episodes →
        getEpisodeState server.tttState id.toNat.repr =
          getEpisodeState left id.toNat.repr := by
  obtain ⟨left, hleft⟩ := McpServer.runAll_ok state files processes
  obtain ⟨server, hserver, hreceived, hstarted⟩ := (McpServer.right_new left).run state steps
  refine ⟨left, server, hleft, hserver, hstarted, ?_, ?_⟩
  · intro id ew hew
    exact McpServer.getEpisodeState_of_some (hreceived.right.mirrors id ew hew)
  · intro id hid
    have hsame : server.tttState[id]? = left[id]? := hreceived.untouched id hid
    unfold getEpisodeState
    rw [parseEpisodeId_repr]
    dsimp only
    rw [hsame]

end Server
end Kdapp
