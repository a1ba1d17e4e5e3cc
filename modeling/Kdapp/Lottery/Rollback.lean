import Kdapp.Lottery.Steps

/-! Which commands of the lottery a rollback takes back, and what a node has after rollbacks. -/

namespace Kdapp.Lottery
open Borsh
open Std (ExtTreeMap)

variable [Crypto]

/-- An accepted command and what `execute` returned for its rollback. -/
structure Record where
  cmd : LotteryCommand
  authorization : Option PubKey
  metadata : PayloadMetadata
  rollback : LotteryRollback

namespace LotteryEpisode

/-- The commands whose undo token says enough: closing, and beside it a claim of a pool of just
one ticket, and a first draw that leaves the time of the next one where it was. -/
def Restorable (g : LotteryEpisode) (metadata : PayloadMetadata) : LotteryCommand → Prop
  | .buyTicket _ _ => False
  | .executeDraw _ => g.lastWinner = none ∧ g.winnerPaid = false ∧
    metadata.acceptingTime + g.drawIntervalSecs = g.nextDrawTime
  | .claimPrize _ _ => g.prizePool = g.ticketPrice
  | .closeEpisode => True

instance (g : LotteryEpisode) (metadata : PayloadMetadata) (cmd : LotteryCommand) :
    Decidable (g.Restorable metadata cmd) := by
  cases cmd <;> unfold Restorable <;> infer_instance

/-- Runs of a node: commands, and rollbacks of the newest command that has not been rolled
back. The log holds what can still be rolled back. -/
inductive Reachable (allowed : LotteryEpisode → PayloadMetadata → LotteryCommand → Prop)
    (g₀ : LotteryEpisode) : List Record → LotteryEpisode → Prop
  | start : Reachable allowed g₀ [] g₀
  | executed {log g cmd auth metadata g' rb} (h : Reachable allowed g₀ log g)
    (hallowed : allowed g metadata cmd)
    (hexec : g.execute auth metadata cmd = (g', .ok rb)) :
    Reachable allowed g₀ (⟨cmd, auth, metadata, rb⟩ :: log) g'
  | rejected {log g cmd auth metadata g' e} (h : Reachable allowed g₀ log g)
    (hexec : g.execute auth metadata cmd = (g', .error e)) : Reachable allowed g₀ log g'
  | rolledBack {log r g g' res} (h : Reachable allowed g₀ (r :: log) g)
    (hroll : g.rollback r.rollback = (g', res)) : Reachable allowed g₀ log g'

/-- The commands of a log, one after another, as a node takes them that sees no other. -/
abbrev Replays : LotteryEpisode → List Record → LotteryEpisode → Prop :=
  UndoLog.Chain fun r g g' => g.execute r.authorization r.metadata r.cmd = (g', .ok r.rollback)

variable {g g' g₀ : LotteryEpisode} {auth : Option PubKey} {metadata : PayloadMetadata}
  {cmd : LotteryCommand} {rb : LotteryRollback} {log : List Record}

theorem draw_fields (g : LotteryEpisode) (metadata : PayloadMetadata) :
    ∃ winner paid, g.draw metadata = { g with lastWinner := winner, winnerPaid := paid } := by
  unfold draw
  split
  · exact ⟨_, _, rfl⟩
  · exact ⟨_, _, rfl⟩

theorem Accepts.rollback_iff (hopen : g.paused = false) (h : g.Accepts metadata cmd auth rb g') :
    g'.rollback rb = (g, true) ↔ g.Restorable metadata cmd := by
  cases h with
  | buyTicket hauth hnumbers hprice houts =>
    -- the next id stays one ahead
    refine iff_of_false (fun hroll => ?_) id
    unfold rollback at hroll
    dsimp only at hroll
    rw [if_pos ExtTreeMap.mem_insert_self] at hroll
    have hid : g.nextTicketId + 1 = g.nextTicketId :=
      congrArg (fun p : LotteryEpisode × Bool => p.1.nextTicketId) hroll
    simp at hid
  | executeDraw hready =>
    obtain ⟨winner, paid, hdraw⟩ := g.draw_fields metadata
    rw [hdraw]
    unfold rollback Restorable
    dsimp only
    constructor
    · intro hroll
      have hg := congrArg Prod.fst hroll
      exact ⟨(congrArg lastWinner hg).symm, (congrArg winnerPaid hg).symm,
        congrArg nextDrawTime hg⟩
    · rintro ⟨hwinner, hunpaid, htime⟩
      rw [htime, ← hwinner, ← hunpaid]
  | claimPrize hticket hwinner hunpaid =>
    unfold rollback Restorable
    dsimp only
    constructor
    · intro hroll
      exact (congrArg (fun p : LotteryEpisode × Bool => p.1.prizePool) hroll).symm
    · intro hpool
      refine Prod.ext ?_ rfl
      cases g
      cases hpool
      cases hunpaid
      rfl
  | closeEpisode =>
    refine iff_of_true ?_ trivial
    unfold rollback
    dsimp only
    rw [← hopen]

theorem Reachable.run {allowed : LotteryEpisode → PayloadMetadata → LotteryCommand → Prop}
    (h : Reachable allowed g₀ log g) :
    UndoLog.Run (fun r g g' => allowed g r.metadata r.cmd ∧
        g.execute r.authorization r.metadata r.cmd = (g', .ok r.rollback))
      (fun r g g' => (g.rollback r.rollback).1 = g') g₀ log g := by
  induction h with
  | start => exact .start
  | executed h hallowed hexec ih => exact ih.exec ⟨hallowed, hexec⟩
  | rejected h hexec ih =>
    rw [execute_rejected hexec]
    exact ih
  | rolledBack h hroll ih => exact ih.undo (congrArg Prod.fst hroll)

theorem Reachable.replays (h : Reachable Restorable g₀ log g) : Replays g₀ log g := by
  have hsimulated : ∃ b, UndoLog.Chain (fun r g g' => Restorable g r.metadata r.cmd ∧
      g.execute r.authorization r.metadata r.cmd = (g', .ok r.rollback)) g₀ log b ∧ g = b := by
    refine UndoLog.Run.simulates rfl ?_ ?_ h.run
    · rintro r s s' b rfl hexec
      exact ⟨s', hexec, rfl⟩
    · rintro r s s' b b' happlies rfl hundo
      obtain ⟨hopen, hacc⟩ := execute_ok happlies.2
      have hback := (hacc.rollback_iff hopen).mpr happlies.1
      exact hundo.symm.trans (congrArg Prod.fst hback)
  obtain ⟨b, hchain, rfl⟩ := hsimulated
  exact hchain.mono fun r b b' hr => hr.2

theorem rollback_exact_iff :
    (∀ (g g' : LotteryEpisode) cmd auth metadata rb,
      g.execute auth metadata cmd = (g', .ok rb) →
        (g'.rollback rb = (g, true) ↔ g.Restorable metadata cmd)) ∧
    ∀ (g₀ g : LotteryEpisode) log, Reachable Restorable g₀ log g → Replays g₀ log g := by
  refine ⟨fun g g' cmd auth metadata rb hexec => ?_, fun g₀ g log h => h.replays⟩
  obtain ⟨hopen, hacc⟩ := execute_ok hexec
  exact hacc.rollback_iff hopen

end LotteryEpisode
end Kdapp.Lottery

namespace Kdapp.Lottery.LotteryEpisode
attribute [local instance] idealCrypto

def drawnOnce : LotteryEpisode :=
  let bought := (opened.execute (some (1 : UInt8)) (blockAt 101 1) (.buyTicket lucky 100000000)).1
  (bought.execute none (blockAt 115 1) (.executeDraw "")).1

def paidOnce : LotteryEpisode := (drawnOnce.execute none (blockAt 116 1) (.claimPrize 1 0)).1

theorem exists_token {out : LotteryEpisode × Except (EpisodeError LotteryError) LotteryRollback}
    (h : out.2.isOk = true) : ∃ rb, out = (out.1, .ok rb) := by
  obtain ⟨g, res⟩ := out
  cases res with
  | ok rb => exact ⟨rb, rfl⟩
  | error e => cases h

/-- The pool is that of the one ticket when it is claimed; then the lottery is closed. -/
theorem rollback_exact_iff_claim :
    ∃ g rb rb', drawnOnce.execute none (blockAt 116 1) (.claimPrize 1 0) =
        (paidOnce, .ok rb) ∧ paidOnce.rollback rb = (drawnOnce, true) ∧
      paidOnce.execute none (blockAt 117 1) .closeEpisode = (g, .ok rb') ∧
      g.rollback rb' = (paidOnce, true) ∧
      drawnOnce.Replays [⟨.closeEpisode, none, blockAt 117 1, rb'⟩,
        ⟨.claimPrize 1 0, none, blockAt 116 1, rb⟩] g := by
  have hpool : drawnOnce.Restorable (blockAt 116 1) (.claimPrize 1 0) := by decide +kernel
  obtain ⟨rb, hclaim⟩ := exists_token
    (show (drawnOnce.execute none (blockAt 116 1) (.claimPrize 1 0)).2.isOk = true by
      decide +kernel)
  obtain ⟨rb', hclose⟩ := exists_token
    (show (paidOnce.execute none (blockAt 117 1) .closeEpisode).2.isOk = true by
      decide +kernel)
  refine ⟨_, rb, rb', hclaim, (rollback_exact_iff.1 _ _ _ _ _ _ hclaim).mpr hpool, hclose,
    (rollback_exact_iff.1 _ _ _ _ _ _ hclose).mpr trivial, rollback_exact_iff.2 _ _ _ ?_⟩
  exact .executed (.executed .start hpool hclaim) trivial hclose

/-- A ticket is bought and taken back; the next one is numbered as if it were not. -/
theorem rollback_skips_id :
    ∃ g rb, opened.execute (some (1 : UInt8)) (blockAt 101 1) (.buyTicket lucky 100000000) =
        (g, .ok rb) ∧ g.rollback rb ≠ (opened, true) ∧
      opened.nextTicketId = 1 ∧ (g.rollback rb).1.nextTicketId = 2 := by
  refine ⟨_, _, rfl, fun hback => ?_, rfl, rfl⟩
  have hid := congrArg (fun p : LotteryEpisode × Bool => p.1.nextTicketId) hback
  exact absurd hid (by decide)

end Kdapp.Lottery.LotteryEpisode
