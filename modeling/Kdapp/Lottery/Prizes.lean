import Kdapp.Library.Transition
import Kdapp.Lottery.Steps

/-! What the lottery pays out. A draw makes its winner unpaid, also a winner of an earlier draw:
no ticket is paid twice, and none out of an empty pool, as long as every draw picks a ticket that
was not paid and finds something in the pool. -/

namespace Kdapp.Lottery
open Std (ExtTreeMap)
open Transition (Run runActs)

/-- A successful `ClaimPrize`, with the pool that it emptied. -/
structure Payout where
  ticketId : UInt64
  prize : UInt64
deriving DecidableEq

def Safe (outs : List Payout) : Prop :=
  (outs.map (·.ticketId)).Nodup ∧ ∀ p ∈ outs, p.prize ≠ 0

instance (outs : List Payout) : Decidable (Safe outs) := inferInstanceAs (Decidable (_ ∧ _))

theorem Safe.nil : Safe [] := ⟨List.nodup_nil, fun _ h => absurd h List.not_mem_nil⟩

theorem safe_concat {outs : List Payout} {p : Payout} :
    Safe (outs ++ [p]) ↔ Safe outs ∧ p.ticketId ∉ outs.map (·.ticketId) ∧ p.prize ≠ 0 := by
  unfold Safe
  rw [List.map_append, List.map_singleton, List.nodup_append, List.forall_mem_append]
  simp only [List.nodup_singleton, List.mem_singleton, forall_eq,
    true_and]
  constructor
  · rintro ⟨⟨hnodup, hnot⟩, hprizes, hprize⟩
    exact ⟨⟨hnodup, hprizes⟩, fun hmem => hnot _ hmem rfl, hprize⟩
  · rintro ⟨⟨hnodup, hprizes⟩, hnot, hprize⟩
    exact ⟨⟨hnodup, fun a ha he => hnot (he ▸ ha)⟩, hprizes, hprize⟩

variable [Crypto]

structure Call where
  cmd : LotteryCommand
  authorization : Option PubKey
  metadata : PayloadMetadata

namespace LotteryEpisode

def payout (g : LotteryEpisode) (c : Call) : List Payout :=
  match c.cmd, (g.execute c.authorization c.metadata c.cmd).2 with
  | .claimPrize ticketId _, .ok _ => [⟨ticketId, g.prizePool⟩]
  | _, _ => []

def step (g : LotteryEpisode) (c : Call) : Option (LotteryEpisode × List Payout) :=
  some ((g.execute c.authorization c.metadata c.cmd).1, g.payout c)

/-- A draw that is accepted picks a ticket that was not paid yet, and there is something in the
pool. -/
def FreshDraw (outs : List Payout) (g : LotteryEpisode) (c : Call) : Prop :=
  match c.cmd with
  | .executeDraw _ =>
    g.paused = false → g.nextDrawTime ≤ c.metadata.acceptingTime →
      ∀ w ∈ g.pickWinner c.metadata, w ∉ outs.map (·.ticketId) ∧ g.prizePool ≠ 0
  | _ => True

instance (outs : List Payout) (g : LotteryEpisode) (c : Call) :
    Decidable (FreshDraw outs g c) := by
  unfold FreshDraw
  have (w? : Option UInt64) (p : UInt64 → Prop) [DecidablePred p] : Decidable (∀ w ∈ w?, p w) :=
    Option.decidableForallMem _
  split <;> infer_instance

/-- Nothing unsafe was paid, and the winner who is not paid yet can be. -/
structure Fair (outs : List Payout) (g : LotteryEpisode) : Prop where
  safe : Safe outs
  pending : g.winnerPaid = false → ∀ w, g.lastWinner = some w →
    w ∉ outs.map (·.ticketId) ∧ g.prizePool ≠ 0

theorem Fair.opened (participants : List PubKey) (metadata : PayloadMetadata) :
    Fair [] (initializeWith participants metadata) :=
  ⟨.nil, fun _ w hw => by cases hw⟩

variable {g g' : LotteryEpisode} {outs new : List Payout} {c : Call}

theorem payout_eq_nil (h : ∀ ticketId round, c.cmd ≠ .claimPrize ticketId round) :
    g.payout c = [] := by
  unfold payout
  split
  · rename_i hcmd _
    exact absurd hcmd (h _ _)
  · rfl

theorem Fair.draw {metadata : PayloadMetadata} (h : Fair outs g)
    (hfresh : ∀ w ∈ g.pickWinner metadata, w ∉ outs.map (·.ticketId) ∧ g.prizePool ≠ 0) :
    Fair outs (g.draw metadata) := by
  refine ⟨h.safe, ?_⟩
  unfold LotteryEpisode.draw
  split
  · rename_i w hw
    intro _ w' hw'
    obtain rfl := Option.some.inj hw'
    exact hfresh w hw
  · exact h.pending

theorem Fair.step (h : Fair outs g) (hfresh : FreshDraw outs g c)
    (hstep : g.step c = some (g', new)) : Fair (outs ++ new) g' := by
  obtain ⟨rfl, rfl⟩ := Prod.mk.inj (Option.some.inj hstep)
  obtain ⟨cmd, auth, metadata⟩ := c
  rcases hexec : g.execute auth metadata cmd with ⟨g₁, e | rb⟩
  · -- a rejected command changes nothing and pays nothing
    obtain rfl := execute_rejected hexec
    have hnew : g₁.payout ⟨cmd, auth, metadata⟩ = [] := by
      unfold payout
      rw [hexec]
      split
      · rename_i hok
        cases hok
      · rfl
    rw [hnew, List.append_nil]
    exact h
  obtain ⟨hopen, hacc⟩ := execute_ok hexec
  cases hacc with
  | buyTicket hauth hnumbers hprice houts =>
    rw [payout_eq_nil (fun _ _ hcmd => by cases hcmd), List.append_nil]
    refine ⟨h.safe, fun hunpaid w hw => ?_⟩
    obtain ⟨hnot, hpool⟩ := h.pending hunpaid w hw
    exact ⟨hnot, Saturating.add_ne_zero hpool _⟩
  | executeDraw hready =>
    rw [payout_eq_nil (fun _ _ hcmd => by cases hcmd), List.append_nil]
    -- where the draw picks a ticket that was paid, the invariant would be lost
    have hdraw := h.draw (hfresh hopen hready)
    exact ⟨hdraw.safe, hdraw.pending⟩
  | @claimPrize id round auth ticket hticket hwinner hunpaid =>
    have hnew : g.payout ⟨.claimPrize id round, auth, metadata⟩ = [⟨id, g.prizePool⟩] := by
      unfold payout
      rw [hexec]
    -- the winner was not paid yet and the pool is not empty, by the invariant
    obtain ⟨hnot, hpool⟩ := h.pending hunpaid id hwinner
    rw [hnew]
    exact ⟨safe_concat.mpr ⟨h.safe, hnot, hpool⟩, fun hpaid => by cases hpaid⟩
  | closeEpisode =>
    rw [payout_eq_nil (fun _ _ hcmd => by cases hcmd), List.append_nil]
    exact ⟨h.safe, h.pending⟩

theorem run_fair {participants : List PubKey} {metadata : PayloadMetadata}
    (h : Run step FreshDraw (initializeWith participants metadata) outs g) : Fair outs g := by
  refine Run.invariant ?_ ?_ h
  · exact Fair.opened participants metadata
  · intro outs g c g' new hfair hfresh hstep
    exact hfair.step hfresh hstep

theorem claim_after_draw (entropySource : String) (auth : Option PubKey)
    {metadata : PayloadMetadata} {w : UInt64} (hopen : g.paused = false)
    (hready : g.nextDrawTime ≤ metadata.acceptingTime) (hw : g.pickWinner metadata = some w) :
    ∃ g₁ g₂, g.step ⟨.executeDraw entropySource, auth, metadata⟩ = some (g₁, []) ∧
      g₁.step ⟨.claimPrize w 0, none, metadata⟩ = some (g₂, [⟨w, g.prizePool⟩]) := by
  obtain ⟨ticket, hticket⟩ := FiniteMap.exists_of_mem (mem_of_pickWinner hw)
  let drawn : LotteryEpisode := { g with
    lastWinner := some w
    winnerPaid := false
    nextDrawTime := metadata.acceptingTime + g.drawIntervalSecs }
  have hdraw : g.execute auth metadata (.executeDraw entropySource) =
      (drawn, .ok (.undoExecuteDraw g.currentRound g.prizePool)) := by
    simp [execute, executeDraw, LotteryEpisode.draw, hopen, UInt64.not_lt.mpr hready, hw, drawn]
  have hclaim : drawn.execute none metadata (.claimPrize w 0) =
      ({ drawn with prizePool := 0, winnerPaid := true }, .ok (.undoClaimPrize w)) := by
    simp [execute, claimPrize, hopen, hticket, drawn]
  have hquiet : g.payout ⟨.executeDraw entropySource, auth, metadata⟩ = [] :=
    payout_eq_nil fun _ _ hcmd => by cases hcmd
  refine ⟨drawn, { drawn with prizePool := 0, winnerPaid := true }, ?_, ?_⟩
  · rw [step, hquiet, hdraw]
  · rw [step, payout, hclaim]

theorem prizes_safe_of_fresh :
    (∀ participants metadata outs g,
      Run step FreshDraw (initializeWith participants metadata) outs g → Safe outs) ∧
    ∀ outs g c, ¬ FreshDraw outs g c → ∃ g₁ c' g₂ p, g.step c = some (g₁, []) ∧
      c'.metadata = c.metadata ∧ g₁.step c' = some (g₂, [p]) ∧ ¬ Safe (outs ++ [p]) := by
  refine ⟨fun participants metadata outs g h => (run_fair h).safe, ?_⟩
  rintro outs g ⟨cmd, auth, metadata⟩ hstale
  cases cmd with
  | executeDraw entropySource =>
    simp only [FreshDraw, not_forall] at hstale
    obtain ⟨hopen, hready, w, hw, hnot⟩ := hstale
    obtain ⟨g₁, g₂, hdraw, hclaim⟩ := claim_after_draw entropySource auth hopen hready hw
    refine ⟨g₁, ⟨.claimPrize w 0, none, metadata⟩, g₂, _, hdraw, rfl, hclaim,
      fun hsafe => hnot ?_⟩
    exact (safe_concat.mp hsafe).2
  | buyTicket | claimPrize | closeEpisode => exact absurd trivial hstale

end LotteryEpisode
end Kdapp.Lottery

namespace Kdapp.Lottery.LotteryEpisode
open Transition (Run runActs)
attribute [local instance] idealCrypto

def claimedOnce : List Call :=
  [⟨.buyTicket lucky 100000000, some (1 : UInt8), blockAt 101 1⟩,
    ⟨.executeDraw "", none, blockAt 115 1⟩, ⟨.claimPrize 1 0, none, blockAt 116 1⟩]

def drawnAgain : Call := ⟨.executeDraw "", none, blockAt 130 1⟩

def claimedTwice : List Call :=
  claimedOnce ++ [drawnAgain, ⟨.claimPrize 1 0, none, blockAt 131 1⟩]

theorem prizes_safe_of_fresh_once : Safe [⟨1, 100000000⟩] ∧
    ∃ (g g₁ : LotteryEpisode) (c : Call) (g₂ : LotteryEpisode) (p : Payout),
      g.step drawnAgain = some (g₁, []) ∧ g₁.step c = some (g₂, [p]) ∧
        ¬ Safe [⟨1, 100000000⟩, p] := by
  have hacts : (runActs step FreshDraw [] opened claimedOnce).map (fun r =>
      (r.2, decide (FreshDraw r.2 r.1 drawnAgain))) = some ([⟨1, 100000000⟩], false) := by
    decide +kernel
  obtain ⟨⟨g, outs⟩, hrun, heq⟩ := Option.map_eq_some_iff.mp hacts
  obtain ⟨rfl, hstale⟩ := Prod.mk.inj heq
  obtain ⟨g₁, c, g₂, p, hdraw, -, hclaim, hunsafe⟩ :=
    prizes_safe_of_fresh.2 _ g drawnAgain (of_decide_eq_false hstale)
  exact ⟨prizes_safe_of_fresh.1 _ _ _ _ (Run.start.runActs hrun), g, g₁, c, g₂, p, hdraw,
    hclaim, hunsafe⟩

theorem prizes_unsafe :
    (claimedTwice.map (·.metadata.acceptingTime)).Pairwise (· ≤ ·) ∧
      (runActs step (fun _ _ _ => True) [] opened claimedTwice).map (·.2) =
        some [⟨1, 100000000⟩, ⟨1, 0⟩] ∧ ¬ Safe [⟨1, 100000000⟩, ⟨1, 0⟩] := by
  decide +kernel

end Kdapp.Lottery.LotteryEpisode
