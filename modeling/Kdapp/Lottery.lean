import Kdapp.Episode
import Kdapp.Library.Outcome
import Kdapp.Library.Saturating
import Mathlib.Data.List.Sort

/-! The lottery episode (`kas-draw/src/episode.rs`). -/

namespace Kdapp.Lottery
open Borsh
open Std (ExtTreeMap)

/-- `[u8; 5]`. -/
abbrev Numbers := {bs : Bytes // bs.length = 5}

inductive LotteryCommand where
  | buyTicket (numbers : Numbers) (entryAmount : UInt64)
  | executeDraw (entropySource : String)
  | claimPrize (ticketId round : UInt64)
  | closeEpisode
deriving DecidableEq

inductive LotteryRollback where
  | undoBuyTicket (ticketId : UInt64)
  | undoExecuteDraw (roundBefore prizePoolBefore : UInt64)
  | undoClaimPrize (ticketId : UInt64)
  | undoClose
deriving DecidableEq

inductive LotteryError where
  | invalidNumbers
  | incorrectPrice
  | noTicket
  | drawNotReady
  | unauthorized
deriving DecidableEq

namespace LotteryCommand

def buyTicketFields : Codec (Numbers × UInt64) := (Codec.array 5).pair Codec.u64

def claimPrizeFields : Codec (UInt64 × UInt64) := Codec.u64.pair Codec.u64

def codec : Codec LotteryCommand where
  serialize
    | .buyTicket numbers entryAmount =>
      (buyTicketFields.serialize (numbers, entryAmount)).map (0 :: ·)
    | .executeDraw entropySource => (Codec.string.serialize entropySource).map (1 :: ·)
    | .claimPrize ticketId round => (claimPrizeFields.serialize (ticketId, round)).map (2 :: ·)
    | .closeEpisode => some [3]
  deserialize
    | 0 :: bs => (buyTicketFields.deserialize bs).map fun ((numbers, entryAmount), bs) =>
      (.buyTicket numbers entryAmount, bs)
    | 1 :: bs => (Codec.string.deserialize bs).map fun (entropySource, bs) =>
      (.executeDraw entropySource, bs)
    | 2 :: bs => (claimPrizeFields.deserialize bs).map fun ((ticketId, round), bs) =>
      (.claimPrize ticketId round, bs)
    | 3 :: bs => some (.closeEpisode, bs)
    | _ => none

theorem codec_lawful : codec.Lawful := by
  have hbuy : buyTicketFields.Lawful := (Codec.array_lawful 5).pair Codec.u64_lawful
  have hclaim : claimPrizeFields.Lawful := Codec.u64_lawful.pair Codec.u64_lawful
  intro cmd bs rest hs
  cases cmd with
  | closeEpisode =>
    cases hs
    rfl
  | buyTicket numbers entryAmount =>
    obtain ⟨x, hbs, hx⟩ := hbuy.tagged rest hs
    simp only [codec, hbs, hx, Option.map_some]
  | executeDraw entropySource =>
    obtain ⟨x, hbs, hx⟩ := Codec.string_lawful.tagged rest hs
    simp only [codec, hbs, hx, Option.map_some]
  | claimPrize ticketId round =>
    obtain ⟨x, hbs, hx⟩ := hclaim.tagged rest hs
    simp only [codec, hbs, hx, Option.map_some]

end LotteryCommand

variable [Crypto]

structure Ticket where
  ticketId : UInt64
  player : PubKey
  numbers : Numbers
  round : UInt64
deriving DecidableEq

structure LotteryEpisode where
  ticketPrice : UInt64
  numbersRange : UInt8 × UInt8
  numbersPerTicket : UInt8
  drawIntervalSecs : UInt64
  currentRound : UInt64
  roundStartTime : UInt64
  nextDrawTime : UInt64
  prizePool : UInt64
  authorized : List PubKey
  tickets : ExtTreeMap UInt64 Ticket
  nextTicketId : UInt64
  lastWinner : Option UInt64
  winnerPaid : Bool
  paused : Bool

/-- `windows(2).all(|w| w[0] < w[1])`. -/
def ascending : Bytes → Bool
  | a :: b :: v => decide (a < b) && ascending (b :: v)
  | _ => true

namespace LotteryEpisode

def validateNumbers (self : LotteryEpisode) (numbers : Numbers) : Bool :=
  if self.numbersPerTicket ≠ 5 then false
  else
    let v := numbers.1.insertionSort (· ≤ ·)
    ascending v && v.all fun n => decide (n ≥ self.numbersRange.1 ∧ n ≤ self.numbersRange.2)

def initializeWith (participants : List PubKey) (metadata : PayloadMetadata) : LotteryEpisode where
  ticketPrice := 100000000
  numbersRange := (1, 35)
  numbersPerTicket := 5
  drawIntervalSecs := 15
  currentRound := 0
  roundStartTime := metadata.acceptingTime
  nextDrawTime := metadata.acceptingTime + 15
  prizePool := 0
  authorized := participants
  tickets := ∅
  nextTicketId := 1
  lastWinner := none
  winnerPaid := false
  paused := false

/-- The episode after an `execute` and what it returned. -/
abbrev Executed := LotteryEpisode × Except (EpisodeError LotteryError) LotteryRollback

variable (self : LotteryEpisode) (authorization : Option PubKey) (metadata : PayloadMetadata)

def reject (e : EpisodeError LotteryError) : Executed := (self, .error e)

/-- Some output of the carrier is worth a ticket, where the proxy gave a summary of it. -/
def coversPrice : Bool :=
  match metadata.txOutputs with
  | none => true
  | some outs => outs.any fun o => decide (o.value ≥ self.ticketPrice)

def buyTicket (numbers : Numbers) (entryAmount : UInt64) : Executed :=
  match authorization with
  | none => self.reject .unauthorized
  | some pk =>
    if pk ∉ self.authorized then self.reject .unauthorized
    else if self.validateNumbers numbers = false then
      self.reject (.invalidCommand .invalidNumbers)
    else if entryAmount ≠ self.ticketPrice then self.reject (.invalidCommand .incorrectPrice)
    else if self.coversPrice metadata = false then self.reject (.invalidCommand .incorrectPrice)
    else
      let id := self.nextTicketId
      let ticket : Ticket := { ticketId := id, player := pk, numbers, round := self.currentRound }
      ({ self with
        nextTicketId := id + 1
        tickets := self.tickets.insert id ticket
        prizePool := Saturating.add self.prizePool entryAmount }, .ok (.undoBuyTicket id))

/-- The winner, if there is a ticket at all: the low bits of the accepting hash choose among the
ids, which the map lists in ascending order. -/
def pickWinner : Option UInt64 :=
  let ids := self.tickets.keys
  ids[ofLeBytes (metadata.acceptingHash.1.take 8) % ids.length]?

def draw : LotteryEpisode :=
  match self.pickWinner metadata with
  | some winnerId => { self with lastWinner := some winnerId, winnerPaid := false }
  | none => self

def executeDraw : Executed :=
  if metadata.acceptingTime < self.nextDrawTime then
    self.reject (.invalidCommand .drawNotReady)
  else
    ({ self.draw metadata with
      nextDrawTime := metadata.acceptingTime + self.drawIntervalSecs },
      .ok (.undoExecuteDraw self.currentRound self.prizePool))

def claimPrize (ticketId : UInt64) : Executed :=
  match self.lastWinner, self.tickets[ticketId]? with
  | some wid, some _ =>
    if wid = ticketId ∧ self.winnerPaid = false then
      ({ self with prizePool := 0, winnerPaid := true }, .ok (.undoClaimPrize ticketId))
    else self.reject (.invalidCommand .noTicket)
  | _, _ => self.reject (.invalidCommand .noTicket)

def closeEpisode : Executed := ({ self with paused := true }, .ok .undoClose)

def execute (cmd : LotteryCommand) : Executed :=
  if self.paused = true then self.reject (.invalidCommand .unauthorized)
  else
    match cmd with
    | .buyTicket numbers entryAmount => self.buyTicket authorization metadata numbers entryAmount
    | .executeDraw _ => self.executeDraw metadata
    | .claimPrize ticketId _ => self.claimPrize ticketId
    | .closeEpisode => self.closeEpisode

def rollback : LotteryRollback → LotteryEpisode × Bool
  | .undoBuyTicket ticketId =>
    if ticketId ∈ self.tickets then
      ({ self with
        tickets := self.tickets.erase ticketId
        prizePool := Saturating.sub self.prizePool self.ticketPrice }, true)
    else (self, false)
  | .undoExecuteDraw roundBefore prizePoolBefore =>
    ({ self with
      currentRound := roundBefore
      prizePool := prizePoolBefore
      lastWinner := none
      winnerPaid := false }, true)
  | .undoClaimPrize _ =>
    -- back to the price of one ticket, whatever was in the pool
    ({ self with prizePool := self.ticketPrice, winnerPaid := false }, true)
  | .undoClose => ({ self with paused := false }, true)

instance : Episode LotteryEpisode where
  Command := LotteryCommand
  CommandRollback := LotteryRollback
  CommandError := LotteryError
  World := Unit
  Fault := Empty
  codec := LotteryCommand.codec
  initializeWith participants metadata := return initializeWith participants metadata
  execute self cmd authorization metadata := return self.execute authorization metadata cmd
  rollback self rb := return self.rollback rb

end LotteryEpisode
end Kdapp.Lottery
