import Kdapp.TicTacToe.Steps
import Kdapp.Engine.Bookkeeping
import Kdapp.Engine.Totality

/-! When the thread of a tic-tac-toe engine panics: as a signed move reaches a game without
players. -/

namespace Kdapp
open Outcome

def TTTRollback.OnBoard (rb : TTTRollback) : Prop :=
  rb.mv.square ≠ none ∧ ∀ mv, rb.removedMv = some mv → mv.square ≠ none

variable [Crypto]

namespace TicTacToe
variable {g g' : TicTacToe} {cmd : TTTMove} {auth : Option PubKey} {md : PayloadMetadata}
  {pk : PubKey} {sq : Square} {rb : TTTRollback}

theorem create_inBounds (participants : List PubKey) (md : PayloadMetadata) :
    (create participants md).InBounds where
  current h := List.length_pos_of_ne_nil h
  history := nofun

theorem next_lt (hplayers : g.players ≠ []) :
    (g.currentIndex + 1) % g.players.length < g.players.length :=
  Nat.mod_lt _ (List.length_pos_of_ne_nil hplayers)

theorem RemovesOldest.subset {board : Board (Option PubKey)} {history : List (UInt64 × UInt64)}
    {removedMv : Option TTTMove} (h : g.RemovesOldest board history removedMv) :
    history ⊆ g.moveHistory := by
  cases h with
  | few => exact List.Subset.refl _
  | full hhistory =>
    rw [hhistory]
    exact List.subset_cons_self _ _

theorem RemovesOldest.onBoard {board : Board (Option PubKey)} {history : List (UInt64 × UInt64)}
    {removedMv : Option TTTMove} (h : g.RemovesOldest board history removedMv) (mv : TTTMove)
    (hmv : removedMv = some mv) : mv.square ≠ none := by
  cases h with
  | few => cases hmv
  | full hhistory hlen hsq =>
    cases hmv
    rw [hsq]
    exact Option.some_ne_none _

theorem Admits.players_ne_nil (h : g.Admits cmd auth pk sq) : g.players ≠ [] := by
  have hturn := h.turn
  rintro hnil
  rw [hnil] at hturn
  cases hturn

theorem InBounds.moved (h : g.InBounds) (hadmits : g.Admits cmd auth pk sq)
    {board : Board (Option PubKey)} {history : List (UInt64 × UInt64)}
    {removedMv : Option TTTMove} (hremoves : g.RemovesOldest board history removedMv) :
    (g.moved cmd md pk sq board history).InBounds where
  current hplayers := next_lt hplayers
  history p hp := by
    rcases List.mem_append.mp hp with hp | hp
    · exact h.history p (hremoves.subset hp)
    · obtain rfl := List.mem_singleton.mp hp
      exact hadmits.onBoard ▸ Option.some_ne_none sq

theorem InBounds.undone (h : g.InBounds) : (g.undone rb sq).InBounds where
  current hplayers := next_lt hplayers
  history p hp := h.history p (List.mem_of_mem_dropLast hp)

theorem InBounds.restored (h : g.InBounds) {mv : TTTMove} (hmv : mv.square = some sq) :
    (g.restored mv sq pk).InBounds where
  current := h.current
  history p hp := by
    rcases List.mem_cons.mp hp with rfl | hp
    · exact hmv ▸ Option.some_ne_none sq
    · exact h.history p hp

theorem InBounds.restoreOldest (h : g.InBounds) (hplayers : g.players ≠ [])
    {removedMv : Option TTTMove} (hmv : ∀ mv, removedMv = some mv → mv.square ≠ none) :
    ∃ g', g.restoreOldest removedMv = .ok g' ∧ g'.InBounds ∧ g'.players = g.players := by
  cases removedMv with
  | none => exact ⟨g, rfl, h, rfl⟩
  | some mv =>
    obtain ⟨sq, hsq⟩ := Option.ne_none_iff_exists'.mp (hmv mv rfl)
    have hcurrent := List.getElem?_eq_getElem (h.current hplayers)
    exact ⟨_, restoreOldest_some hsq hcurrent, h.restored hsq, rfl⟩

theorem InBounds.rollback (h : g.InBounds) (hplayers : g.players ≠ []) (hrb : rb.OnBoard) :
    ∃ g' res, g.rollback rb = .ok (g', res) ∧ g'.InBounds ∧ g'.players = g.players := by
  obtain ⟨sq, hsq⟩ := Option.ne_none_iff_exists'.mp hrb.1
  cases hcell : g.board sq with
  | none => exact ⟨g, false, rollback_free hsq hcell, h, rfl⟩
  | some pk =>
    have htaken : g.board sq ≠ none := hcell ▸ Option.some_ne_none pk
    obtain ⟨g', hrestore, hbounds, hsame⟩ := h.undone.restoreOldest hplayers hrb.2
    exact ⟨g', true, rollback_taken hplayers hsq htaken hrestore, hbounds, hsame⟩

structure Sound (w : EpisodeWrapper TicTacToe) : Prop where
  inBounds : w.episode.InBounds
  players : w.rollbackStack ≠ [] → w.episode.players ≠ []
  stack : ∀ rb ∈ w.rollbackStack, rb.OnBoard

theorem sound_kept : Engine.Kept Sound where
  created ps md w g w' h := by
    cases h
    exact ⟨create_inBounds ps md, nofun, nofun⟩
  rejected w cmd auth md _ g e _ h hexec := by
    obtain ⟨hexec, -⟩ := run_lift_ok hexec
    obtain ⟨rfl, -⟩ := execute_rejected h.inBounds hexec
    exact ⟨h.inBounds, h.players, h.stack⟩
  executed w cmd auth md _ g rb _ h hexec := by
    obtain ⟨hexec, -⟩ := run_lift_ok hexec
    obtain ⟨pk, sq, board, history, hadmits, hmv, -, hremoves, rfl⟩ :=
      execute_accepted h.inBounds hexec
    refine ⟨h.inBounds.moved hadmits hremoves, fun _ => hadmits.players_ne_nil, fun rb' hrb' => ?_⟩
    rcases List.mem_cons.mp hrb' with rfl | hrb'
    · exact ⟨hmv ▸ hadmits.onBoard ▸ Option.some_ne_none sq, hremoves.onBoard⟩
    · exact h.stack rb' hrb'
  popped w rb rest _ g b _ h hstack hroll := by
    obtain ⟨hroll, -⟩ := run_lift_ok hroll
    have hplayers : w.episode.players ≠ [] := by
      apply h.players
      rw [hstack]
      exact List.cons_ne_nil rb rest
    have hmem : ∀ rb' ∈ rb :: rest, rb'.OnBoard := hstack ▸ h.stack
    have hhead : rb.OnBoard := hmem rb List.mem_cons_self
    obtain ⟨g', res, hrun, hbounds, hsame⟩ := h.inBounds.rollback hplayers hhead
    cases hroll.symm.trans hrun
    exact ⟨hbounds, fun _ => hsame ▸ hplayers,
      fun rb' hrb' => hmem rb' (List.mem_cons_of_mem _ hrb')⟩

theorem InBounds.execute_isOk_iff (h : g.InBounds) :
    (∃ out, g.execute cmd auth md = .ok out) ↔ (auth = none ∨ g.players ≠ []) := by
  rcases h.execute_cases cmd auth md with ⟨hauth, hplayers, herror⟩ | ⟨-, hor, e, hrejects⟩ |
    ⟨pk, sq, board, history, removedMv, hadmits, -, haccepts⟩
  · rw [herror]
    exact iff_of_false (fun ⟨out, hout⟩ => nomatch hout) (by simp [hauth, hplayers])
  · exact iff_of_true ⟨_, hrejects⟩ hor
  · exact iff_of_true ⟨_, haccepts⟩ (.inr hadmits.players_ne_nil)

theorem InBounds.poll (h : g.InBounds) (hplayers : g.players ≠ []) :
    ∃ state, g.poll = .ok state := by
  have hfirst := List.getElem?_eq_getElem (List.length_pos_of_ne_nil hplayers)
  have hcurrent := List.getElem?_eq_getElem (h.current hplayers)
  have hstatus : ∃ status, g.status = .ok status := by
    unfold TicTacToe.status
    split
    · exact ⟨_, rfl⟩
    · split
      · exact ⟨_, rfl⟩
      · rw [bind_of_ok _ (player_of_getElem? hcurrent)]
        exact ⟨_, rfl⟩
  obtain ⟨status, hstatus⟩ := hstatus
  unfold TicTacToe.poll
  rw [bind_of_ok _ (player_of_getElem? hfirst), bind_of_ok _ hstatus]
  exact ⟨_, rfl⟩

/-- A signed command reaches a game that was created without players. -/
def MovesWithoutPlayers (s : Engine TicTacToe) (a : EpisodeMessage TicTacToe) : Prop :=
  a.SignatureValid ∧ ∃ id cmd pk sig w, a = .signedCommand id cmd pk sig ∧
    s.episodes[id]? = some w ∧ w.episode.players = []

theorem runs_iff {s : Engine TicTacToe} (hs : s.Each Sound) (a : EpisodeMessage TicTacToe)
    (md : PayloadMetadata) : s.Runs md a ↔ ¬ MovesWithoutPlayers s a := by
  have hmethod : ∀ (x : Except Fault (TicTacToe × Except (EpisodeError TTTError) TTTRollback)),
      (∃ out, (StateT.lift x : StateT Unit (Except Fault) _).run s.world = .ok out) ↔
        ∃ out, x = .ok out := fun x => bind_isOk_iff fun _ => ⟨_, rfl⟩
  cases a with
  | newEpisode id ps =>
    exact iff_of_true (fun _ => ⟨_, rfl⟩) (fun ⟨_, _, _, _, _, _, h, _⟩ => nomatch h)
  | signedCommand id cmd pk sig =>
    obtain ⟨m, hm⟩ : ∃ m, toMessage TTTMove.codec cmd = some m := ⟨_, rfl⟩
    constructor
    · rintro hruns ⟨⟨m', hm', hv⟩, _, _, _, _, w, heq, hw, hplayers⟩
      cases heq
      obtain ⟨m'', hm'', hexec⟩ := hruns w hw
      cases hm'.symm.trans hm''
      have hok := ((hs _ _ hw).inBounds.execute_isOk_iff).mp ((hmethod _).mp (hexec hv))
      exact hok.elim (Option.some_ne_none pk) (fun hne => hne hplayers)
    · intro hnot w hw
      refine ⟨m, hm, fun hv => (hmethod _).mpr ?_⟩
      apply ((hs _ _ hw).inBounds.execute_isOk_iff).mpr
      refine .inr fun hplayers => hnot ⟨⟨m, hm, hv⟩, id, cmd, pk, sig, w, rfl, hw, hplayers⟩
  | unsignedCommand id cmd =>
    refine iff_of_true (fun w hw => (hmethod _).mpr ?_) (fun ⟨_, _, _, _, _, _, h, _⟩ => nomatch h)
    exact ((hs _ _ hw).inBounds.execute_isOk_iff).mpr (.inl rfl)
  | revert id =>
    refine iff_of_true (fun w hw rb rest hstack => ?_) (fun ⟨_, _, _, _, _, _, h, _⟩ => nomatch h)
    have hsound := hs _ _ hw
    have hplayers := hsound.players (hstack ▸ List.cons_ne_nil rb rest)
    have hrb := hsound.stack rb (hstack ▸ List.mem_cons_self)
    obtain ⟨g', res, hrun, -⟩ := hsound.inBounds.rollback hplayers hrb
    exact ⟨_, run_lift_of_ok s.world hrun⟩

end TicTacToe

def HandlerCall.InBounds : HandlerCall TicTacToe → Prop
  | .onInitialize _ episode => episode.InBounds
  | .onCommand _ episode _ _ _ => episode.InBounds
  | .onRollback _ _ => True

namespace TTTHandler
open TicTacToe

theorem handle_isOk (self : TTTHandler) {call : HandlerCall TicTacToe} (h : call.InBounds) :
    ∃ sent, self.handle call = .ok sent := by
  have hpolled : ∀ (id : EpisodeId) (g : TicTacToe), g.InBounds →
      ∃ sent, self.onInitialize id g = .ok sent := by
    intro id g hg
    unfold onInitialize
    split
    · rename_i hmem
      obtain ⟨state, hstate⟩ := hg.poll (List.ne_nil_of_mem hmem)
      rw [bind_of_ok _ hstate]
      exact ⟨_, rfl⟩
    · exact ⟨_, rfl⟩
  cases call with
  | onInitialize id episode => exact hpolled id episode h
  | onCommand id episode cmd auth md => exact hpolled id episode h
  | onRollback id episode => exact ⟨[], rfl⟩

theorem calls_inBounds {s : Engine TicTacToe} {md : PayloadMetadata}
    {a : EpisodeMessage TicTacToe} {out : Handled TicTacToe} (hs : s.Each Sound)
    (h : s.Handles md a out) : ∀ c ∈ out.calls, c.InBounds := by
  intro c hc
  cases h with
  | known => cases hc
  | missing => cases hc
  | forged => cases hc
  | rejected => cases hc
  | created hnew hinit =>
    obtain rfl := List.mem_singleton.mp hc
    exact (sound_kept.created _ _ _ _ _ hinit).inBounds
  | executed hcmd hsig hw hexec =>
    obtain rfl := List.mem_singleton.mp hc
    exact (sound_kept.executed _ _ _ _ _ _ _ _ (hs _ _ hw) hexec).inBounds
  | popped =>
    obtain rfl := List.mem_singleton.mp hc
    trivial
  | deleted =>
    obtain rfl := List.mem_singleton.mp hc
    trivial

/-- The thread survives a sequence of messages if and only if no signed command that verifies
meets a live game created without players. -/
theorem never_panics_iff (self : TTTHandler) (msgs : List EngineMsg) :
    (∃ out, self.run msgs = .ok out) ↔
      ∀ s a md, Engine.Meets (.new () : Engine TicTacToe) msgs s a md →
        ¬ MovesWithoutPlayers s a := by
  have hsound := sound_kept.preserved
  have hnew : (Engine.new () : Engine TicTacToe).Each Sound := Engine.each_new _
  have hstart := Engine.start_ok_iff (C := fun s a _ => ¬ MovesWithoutPlayers s a) hsound
    (fun s a md hs => Engine.handleMessage_isOk_iff.trans (runs_iff hs a md))
    (fun s id md ⟨_, _, _, _, _, _, h, _⟩ => nomatch h) hnew msgs
  rw [← hstart]
  constructor
  · rintro ⟨out, hrun⟩
    obtain ⟨engine, hrun, -⟩ := bind_ok hrun
    exact ⟨engine, hrun⟩
  · rintro ⟨⟨engine, calls⟩, hrun⟩
    have hcalls := Engine.start_calls hsound (fun s md a out => calls_inBounds) hnew hrun
    obtain ⟨sent, hsent⟩ := mapM_isOk fun c hc => self.handle_isOk (hcalls c hc)
    refine ⟨(engine, sent.flatten), ?_⟩
    unfold run
    rw [bind_of_ok _ hrun]
    dsimp only
    rw [hsent]
    rfl

end TTTHandler
end Kdapp

namespace Kdapp.TTTHandler
attribute [local instance] idealCrypto

def emptyGameBlock : BlkAccepted where
  acceptingHash := Hash.filled 1
  acceptingDaa := 1
  acceptingTime := 1
  associatedTxs := [EpisodeMessage.newEpisode 7 [], .signedCommand 7 (⟨0, 0⟩ : TTTMove) (1 : UInt8)
      (signMessage (1 : UInt8) (Crypto.sha256 (List.replicate 16 0)))].map
    fun m : EpisodeMessage TicTacToe =>
      (Hash.filled 2, (EpisodeMessage.codec.serialize m).getD [], none)

/-- The first move in a game without players indexes an empty list. -/
theorem empty_game_panics :
    ¬ ∀ (self : TTTHandler) (msgs : List EngineMsg),
      Engine.Lifo [] msgs (.new () : Engine TicTacToe) → ∃ out, self.run msgs = .ok out := by
  intro h
  have hlifo : Engine.Lifo [] [.blkAccepted emptyGameBlock] (.new () : Engine TicTacToe) :=
    ⟨by decide, fun _ _ _ => trivial⟩
  obtain ⟨out, hout⟩ := h ⟨(1 : UInt8)⟩ [.blkAccepted emptyGameBlock] hlifo
  have hpanic : (run ⟨(1 : UInt8)⟩ [.blkAccepted emptyGameBlock]).isOk = false := by
    decide +kernel
  rw [hout] at hpanic
  cases hpanic

end Kdapp.TTTHandler
