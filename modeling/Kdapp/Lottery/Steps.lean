import Kdapp.Library.UndoLog
import Kdapp.Lottery

/-! What a command of the lottery can do, and runs of commands and rollbacks. -/

namespace Kdapp.Lottery
open Borsh
open Std (ExtTreeMap)

variable [Crypto]

namespace LotteryEpisode

inductive Accepts (g : LotteryEpisode) (metadata : PayloadMetadata) :
    LotteryCommand → Option PubKey → LotteryRollback → LotteryEpisode → Prop
  | buyTicket {numbers entryAmount pk} (hauth : pk ∈ g.authorized)
    (hnumbers : g.validateNumbers numbers = true) (hprice : entryAmount = g.ticketPrice)
    (houts : g.coversPrice metadata = true) :
    Accepts g metadata (.buyTicket numbers entryAmount) (some pk)
      (.undoBuyTicket g.nextTicketId)
      { g with nextTicketId := g.nextTicketId + 1
               tickets := g.tickets.insert g.nextTicketId
                ⟨g.nextTicketId, pk, numbers, g.currentRound⟩
               prizePool := Saturating.add g.prizePool entryAmount }
  | executeDraw {entropySource auth} (hready : g.nextDrawTime ≤ metadata.acceptingTime) :
    Accepts g metadata (.executeDraw entropySource) auth
      (.undoExecuteDraw g.currentRound g.prizePool)
      { g.draw metadata with
        nextDrawTime := metadata.acceptingTime + g.drawIntervalSecs }
  | claimPrize {id round auth ticket} (hticket : g.tickets[id]? = some ticket)
    (hwinner : g.lastWinner = some id) (hunpaid : g.winnerPaid = false) :
    Accepts g metadata (.claimPrize id round) auth (.undoClaimPrize id)
      { g with prizePool := 0, winnerPaid := true }
  | closeEpisode {auth} :
    Accepts g metadata .closeEpisode auth .undoClose { g with paused := true }

variable {g g' : LotteryEpisode} {auth : Option PubKey} {metadata : PayloadMetadata}
  {cmd : LotteryCommand} {rb : LotteryRollback}

theorem buyTicket_ok {numbers : Numbers} {entryAmount : UInt64}
    (h : g.buyTicket auth metadata numbers entryAmount = (g', .ok rb)) :
    g.Accepts metadata (.buyTicket numbers entryAmount) auth rb g' := by
  cases auth with
  | none => cases h
  | some pk =>
    unfold buyTicket at h
    dsimp only at h
    split at h
    · cases h
    rename_i hauth
    split at h
    · cases h
    rename_i hnumbers
    split at h
    · cases h
    rename_i hprice
    split at h
    · cases h
    rename_i houts
    cases h
    exact .buyTicket (not_not.mp hauth) (eq_true_of_ne_false hnumbers) (not_not.mp hprice)
      (eq_true_of_ne_false houts)

theorem executeDraw_ok {entropySource : String} (h : g.executeDraw metadata = (g', .ok rb)) :
    g.Accepts metadata (.executeDraw entropySource) auth rb g' := by
  unfold executeDraw at h
  split at h
  · cases h
  · rename_i hready
    cases h
    exact .executeDraw (UInt64.not_lt.mp hready)

theorem claimPrize_ok {id round : UInt64} (h : g.claimPrize id = (g', .ok rb)) :
    g.Accepts metadata (.claimPrize id round) auth rb g' := by
  unfold claimPrize at h
  split at h
  · rename_i wid ticket hwinner hticket
    split at h
    · rename_i hpaid
      obtain ⟨rfl, hunpaid⟩ := hpaid
      cases h
      exact .claimPrize hticket hwinner hunpaid
    · cases h
  · cases h

theorem execute_ok (h : g.execute auth metadata cmd = (g', .ok rb)) :
    g.paused = false ∧ g.Accepts metadata cmd auth rb g' := by
  unfold execute at h
  split at h
  · cases h
  rename_i hpaused
  refine ⟨eq_false_of_ne_true hpaused, ?_⟩
  cases cmd with
  | buyTicket numbers entryAmount => exact buyTicket_ok h
  | executeDraw entropySource => exact executeDraw_ok h
  | claimPrize id round => exact claimPrize_ok h
  | closeEpisode =>
    cases h
    exact .closeEpisode

theorem execute_rejected {e : EpisodeError LotteryError}
    (h : g.execute auth metadata cmd = (g', .error e)) : g' = g := by
  have hreject : ∀ e', g.reject e' = (g', .error e) → g' = g := by
    intro e' he
    exact (congrArg Prod.fst he).symm
  unfold execute at h
  split at h
  · exact hreject _ h
  cases cmd with
  | buyTicket numbers entryAmount =>
    cases auth with
    | none => exact hreject _ h
    | some pk =>
      dsimp only [buyTicket] at h
      repeat (split at h; · exact hreject _ h)
      cases h
  | executeDraw entropySource =>
    dsimp only [executeDraw] at h
    split at h
    · exact hreject _ h
    · cases h
  | claimPrize id round =>
    dsimp only [claimPrize] at h
    split at h
    · split at h
      · cases h
      · exact hreject _ h
    · exact hreject _ h
  | closeEpisode => cases h

theorem mem_of_pickWinner {w : UInt64} (h : g.pickWinner metadata = some w) : w ∈ g.tickets := by
  have hmem : w ∈ g.tickets.keys := List.mem_of_getElem? h
  exact ExtTreeMap.mem_keys.mp hmem

end LotteryEpisode
end Kdapp.Lottery

namespace Kdapp.Lottery.LotteryEpisode
attribute [local instance] idealCrypto

def blockAt (time : UInt64) (hash : UInt8) : PayloadMetadata where
  acceptingHash := Hash.filled hash
  acceptingDaa := time
  acceptingTime := time
  txId := Hash.filled hash
  txOutputs := none

def opened : LotteryEpisode := initializeWith [(1 : UInt8)] (blockAt 100 0)

def lucky : Numbers := ⟨[1, 2, 3, 4, 5], rfl⟩

end Kdapp.Lottery.LotteryEpisode
