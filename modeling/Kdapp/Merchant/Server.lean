import Kdapp.Auth
import Kdapp.Engine.Totality
import Kdapp.Merchant.OffChain
import Kdapp.Merchant.Registration
import Kdapp.Merchant.Scheduler

/-! The HTTP API of the merchant (`kdapp-merchant/src/server.rs`) and the commands of its command
line (`main.rs`) that send to the engine of their own process. No such engine opens an episode. -/

namespace Kdapp.Merchant
open Outcome
open Std (ExtTreeMap)

inductive StatusCode where
  | accepted
  | badRequest
  | unauthorized
deriving DecidableEq

structure CreateInvoiceReq where
  invoiceId : UInt64
  amount : UInt64
  memo : Option String

structure PayInvoiceReq where
  invoiceId : UInt64
  payerPublicKey : String

structure SubscribeReq where
  subscriptionId : UInt64
  customerPublicKey : String
  amount : UInt64
  interval : UInt64

structure InvoiceOut where
  id : UInt64
  amount : UInt64
  memo : Option String
  status : String
  payer : Option String
  createdAt : UInt64
  lastUpdate : UInt64

structure SubscriptionOut where
  id : UInt64
  customer : String
  amount : UInt64
  interval : UInt64
  nextRun : UInt64

inductive Response where
  | status (code : StatusCode)
  | invoices (out : List InvoiceOut)
  | subscriptions (out : List SubscriptionOut)

/-- `format!("{:?}", status)`. -/
def InvoiceStatus.debug : InvoiceStatus → String
  | .open => "Open"
  | .paid => "Paid"
  | .acked => "Acked"
  | .canceled => "Canceled"

variable [Crypto]

structure AppState where
  episodeId : EpisodeId
  merchantSk : Crypto.SecretKey
  merchantPk : PubKey
  apiKey : String

def parsePublicKey (text : String) : Option PubKey := do
  let bytes ← hexDecode text.toList
  if bytes.length = 33 then Crypto.fromSlice bytes else none

def pkToHex (pk : PubKey) : String := CommentBoard.hex pk.serialize

/-- What a handler answers and forwards; `none` is a panic, which ends the request. -/
abbrev Reply := Option (Response × Option EngineMsg)

def forwarded (moment : Moment) (msg : Option (EpisodeMessage ReceiptEpisode)) : Reply := do
  let msg ← msg
  let sent ← SimRouter.forward moment msg
  return (.status .accepted, sent)

namespace AppState
variable (state : AppState) (headers : Option String) (moment : Moment)

/-- `headers` is the value of `x-api-key`, where it is a text. -/
def authorize : Except StatusCode Unit :=
  match headers with
  | some v => if v = state.apiKey then .ok () else .error .unauthorized
  | none => .error .unauthorized

def createInvoice (req : CreateInvoiceReq) : Reply :=
  match state.authorize headers with
  | .error code => some (.status code, none)
  | .ok () => forwarded moment (EpisodeMessage.newSignedCommand state.episodeId
      (MerchantCommand.createInvoice req.invoiceId req.amount req.memo)
      state.merchantSk state.merchantPk)

def payInvoice (req : PayInvoiceReq) : Reply :=
  match state.authorize headers with
  | .error code => some (.status code, none)
  | .ok () =>
    match parsePublicKey req.payerPublicKey with
    | none => some (.status .badRequest, none)
    | some payer => forwarded moment (some (.unsignedCommand state.episodeId
        (MerchantCommand.markPaid req.invoiceId payer)))

def createSubscription (req : SubscribeReq) : Reply :=
  match state.authorize headers with
  | .error code => some (.status code, none)
  | .ok () =>
    match parsePublicKey req.customerPublicKey with
    | none => some (.status .badRequest, none)
    | some customer => forwarded moment (EpisodeMessage.newSignedCommand state.episodeId
        (MerchantCommand.createSubscription req.subscriptionId customer req.amount req.interval)
        state.merchantSk state.merchantPk)

def listInvoices (db : Storage) : Reply :=
  match state.authorize headers with
  | .error code => some (.status code, none)
  | .ok () => some (.invoices (db.loadInvoices.values.map fun inv => {
      id := inv.id
      amount := inv.amount
      memo := inv.memo
      status := inv.status.debug
      payer := inv.payer.map pkToHex
      createdAt := inv.createdAt
      lastUpdate := inv.lastUpdate }), none)

def listSubscriptions (db : Storage) : Reply :=
  match state.authorize headers with
  | .error code => some (.status code, none)
  | .ok () => some (.subscriptions (db.loadSubscriptions.values.map fun s => {
      id := s.id
      customer := pkToHex s.customer
      amount := s.amount
      interval := s.interval
      nextRun := s.nextRun }), none)

end AppState

inductive Request where
  | createInvoice (req : CreateInvoiceReq)
  | payInvoice (req : PayInvoiceReq)
  | createSubscription (req : SubscribeReq)
  | listInvoices
  | listSubscriptions

def AppState.reply (state : AppState) (db : Storage) (headers : Option String) (moment : Moment) :
    Request → Reply
  | .createInvoice req => state.createInvoice headers moment req
  | .payInvoice req => state.payInvoice headers moment req
  | .createSubscription req => state.createSubscription headers moment req
  | .listInvoices => state.listInvoices headers db
  | .listSubscriptions => state.listSubscriptions headers db

/-- The process of `serve`: the subscriptions that the scheduler has still to forward, what waits
in the channel, the engine, and the callbacks it made. -/
structure Served where
  due : List UInt64
  channel : List EngineMsg
  engine : Engine ReceiptEpisode
  calls : List (HandlerCall ReceiptEpisode)

/-- What happens next: a request, a turn of one of the loops of the scheduler, or a message that
the engine takes up. Clocks are read where they are needed. -/
inductive Served.Event where
  | request (headers : Option String) (now : UInt64) (req : Request)
  | tick (current : UInt64)
  | forward (now : UInt64)
  | engine

namespace Served
variable (self : Served) (state : AppState)

def start (db : Storage) : Served := ⟨[], [], Engine.new db, []⟩

def step : Event → Except (Panic ReceiptEpisode) (Served × List (Option Response))
  | .request headers now req =>
    match state.reply self.engine.world headers ⟨now, true⟩ req with
    | some (response, sent) =>
      .ok ({ self with channel := self.channel ++ sent.toList }, [some response])
    | none => .ok (self, [none])
  | .tick current =>
    match self.due with
    | [] => .ok ({ self with due := Scheduler.dueSubscriptions self.engine.world current }, [])
    | _ => .ok (self, [])
  | .forward now =>
    match self.due with
    | [] => .ok (self, [])
    | id :: due =>
      match SimRouter.forward ⟨now, true⟩ (Scheduler.message state.episodeId id) with
      | some sent => .ok ({ self with due, channel := self.channel ++ sent.toList }, [])
      | none => .ok (self, [])
  | .engine =>
    match self.channel with
    | [] => .ok (self, [])
    | msg :: channel => do
      let (engine, calls) ← Engine.start [msg] self.engine
      return ({ self with channel, engine, calls := self.calls ++ calls }, [])

def run (self : Served) (state : AppState) :
    List Event → Except (Panic ReceiptEpisode) (Served × List (Option Response))
  | [] => .ok (self, [])
  | e :: events => do
    let (next, responses) ← self.step state e
    let (last, later) ← run next state events
    return (last, responses ++ later)

end Served

structure Idle (db : Storage) (engine : Engine ReceiptEpisode) : Prop where
  episodes : ∀ id : EpisodeId, engine.episodes[id]? = none
  world : engine.world = db

theorem idle_new (db : Storage) : Idle db (Engine.new db) where
  episodes _ := ExtTreeMap.getElem?_empty
  world := rfl

section Idle
variable {db : Storage} {engine : Engine ReceiptEpisode}

theorem Idle.filter (h : Idle db engine) (daa : UInt64) :
    Idle db (engine.filterOldEpisodes daa) where
  episodes id := by
    by_cases hexpires : engine.Expires daa id
    · exact (Engine.filterOldEpisodes_expired hexpires).1
    · rw [(Engine.filterOldEpisodes_kept hexpires).1]
      exact h.episodes id
  world := (Engine.filterOldEpisodes_frame engine daa).2.trans h.world

theorem Idle.recorded (h : Idle db engine) (revertMap : ExtTreeMap Hash (List Reversion)) :
    Idle db { engine with revertMap } := ⟨h.episodes, h.world⟩

theorem Idle.handleMessage (h : Idle db engine) {msg : EpisodeMessage ReceiptEpisode}
    (hmsg : ∀ id ps, msg ≠ .newEpisode id ps) (md : PayloadMetadata) :
    engine.handleMessage msg md = .ok ⟨engine, none, []⟩ := by
  cases msg with
  | newEpisode id ps => exact absurd rfl (hmsg id ps)
  | signedCommand id cmd pk sig =>
    unfold Engine.handleMessage Engine.handleCommand
    dsimp only
    rw [h.episodes id]
    rfl
  | unsignedCommand id cmd =>
    unfold Engine.handleMessage Engine.handleCommand
    dsimp only
    rw [h.episodes id]
    rfl
  | revert id =>
    unfold Engine.handleMessage
    dsimp only
    rw [h.episodes id]
    rfl

theorem Idle.receive (h : Idle db engine) {moment : Moment}
    {msg : EpisodeMessage ReceiptEpisode} {e : EngineMsg}
    (hmsg : ∀ id ps, msg ≠ .newEpisode id ps)
    (hsent : SimRouter.forward moment msg = some (some e)) :
    ∃ blk next, e = .blkAccepted blk ∧ engine.acceptBlock blk = .ok (next, []) ∧ Idle db next := by
  obtain ⟨payload, hser, rfl⟩ := SimRouter.forward_some hsent
  have hdec := (EpisodeMessage.codec_lawful MerchantCommand.codec_lawful).fromSlice hser
  have hidle := h.filter 0
  have htxs : ∀ blk : BlkAccepted, Engine.acceptTxs blk [(Hash.default, payload, none)]
      (engine.filterOldEpisodes 0) = .ok (engine.filterOldEpisodes 0, [], []) := by
    intro blk
    have htail : Engine.acceptTxs blk [] (engine.filterOldEpisodes 0) =
        .ok (engine.filterOldEpisodes 0, [], []) := rfl
    cases haction : (Engine.action payload : Option (EpisodeMessage ReceiptEpisode)) with
    | none => exact (Engine.acceptTxs_skip _ _ haction).trans htail
    | some a =>
      obtain rfl : a = msg := Option.some.inj ((Engine.fromSlice_of_action haction).symm.trans hdec)
      exact Engine.acceptTxs_cons_of_ok haction (hidle.handleMessage hmsg _) htail
  exact ⟨_, _, rfl, bind_of_ok _ (htxs _), hidle.recorded _⟩

end Idle

def IsCommand (e : EngineMsg) : Prop :=
  ∃ (moment : Moment) (msg : EpisodeMessage ReceiptEpisode), (∀ id ps, msg ≠ .newEpisode id ps) ∧
    SimRouter.forward moment msg = some (some e)

theorem unsignedCommand_ne (id : EpisodeId) (cmd : MerchantCommand) :
    ∀ id' ps, (.unsignedCommand id cmd : EpisodeMessage ReceiptEpisode) ≠ .newEpisode id' ps := by
  intro id' ps h
  cases h

theorem newSignedCommand_ne {id : EpisodeId} {cmd : MerchantCommand} {sk : Crypto.SecretKey}
    {pk : PubKey} {msg : EpisodeMessage ReceiptEpisode}
    (h : EpisodeMessage.newSignedCommand id cmd sk pk = some msg) :
    ∀ id ps, msg ≠ .newEpisode id ps := by
  obtain ⟨m, -, rfl⟩ := Option.map_eq_some_iff.mp h
  exact nofun

theorem isCommand_of_forwarded {moment : Moment} {msg : Option (EpisodeMessage ReceiptEpisode)}
    {response : Response} {sent : Option EngineMsg}
    (hmsg : ∀ m, msg = some m → ∀ id ps, m ≠ .newEpisode id ps)
    (h : forwarded moment msg = some (response, sent)) : ∀ e ∈ sent, IsCommand e := by
  rintro e rfl
  obtain ⟨m, hm, h⟩ := Option.bind_eq_some_iff.mp h
  obtain ⟨sent', hsent, h⟩ := Option.bind_eq_some_iff.mp h
  cases h
  exact ⟨moment, m, hmsg m hm, hsent⟩

theorem AppState.isCommand_of_reply {state : AppState} {db : Storage} {headers : Option String}
    {moment : Moment} {req : Request} {response : Response} {sent : Option EngineMsg}
    (h : state.reply db headers moment req = some (response, sent)) :
    ∀ e ∈ sent, IsCommand e := by
  have hnone : ∀ {r : Response}, some (r, none) = some (response, sent) →
      ∀ e ∈ sent, IsCommand e := by
    intro r hr e he
    cases hr
    cases he
  cases req with
  | createInvoice req =>
    change state.createInvoice headers moment req = _ at h
    unfold AppState.createInvoice at h
    split at h
    · exact hnone h
    · exact isCommand_of_forwarded (fun m => newSignedCommand_ne) h
  | payInvoice req =>
    change state.payInvoice headers moment req = _ at h
    unfold AppState.payInvoice at h
    split at h
    · exact hnone h
    split at h
    · exact hnone h
    · apply isCommand_of_forwarded _ h
      rintro m hm id ps rfl
      cases hm
  | createSubscription req =>
    change state.createSubscription headers moment req = _ at h
    unfold AppState.createSubscription at h
    split at h
    · exact hnone h
    split at h
    · exact hnone h
    · exact isCommand_of_forwarded (fun m => newSignedCommand_ne) h
  | listInvoices =>
    change state.listInvoices headers db = _ at h
    unfold AppState.listInvoices at h
    split at h
    · exact hnone h
    · exact hnone h
  | listSubscriptions =>
    change state.listSubscriptions headers db = _ at h
    unfold AppState.listSubscriptions at h
    split at h
    · exact hnone h
    · exact hnone h

namespace Served

structure Quiet (db : Storage) (s : Served) : Prop where
  idle : Idle db s.engine
  commands : ∀ e ∈ s.channel, IsCommand e
  silent : s.calls = []

/-- The response of a request to the store `db`. -/
def answer (state : AppState) (db : Storage) : Event → List (Option Response)
  | .request headers now req => [(state.reply db headers ⟨now, true⟩ req).map (·.1)]
  | _ => []

variable {db : Storage} {s : Served} {state : AppState}

theorem Quiet.enqueue (h : Quiet db s) {due : List UInt64} {sent : Option EngineMsg}
    (hsent : ∀ e ∈ sent, IsCommand e) :
    Quiet db { s with due, channel := s.channel ++ sent.toList } where
  idle := h.idle
  commands e he := by
    rcases List.mem_append.mp he with he | he
    · exact h.commands e he
    · exact hsent e (Option.mem_toList.mp he)
  silent := h.silent

variable (state) in
theorem Quiet.step (h : Quiet db s) (e : Event) :
    ∃ next, s.step state e = .ok (next, answer state db e) ∧ Quiet db next := by
  cases e with
  | request headers now req =>
    unfold Served.step answer
    dsimp only
    -- handlers answer from the trees, and the engine has written nothing to them
    rw [h.idle.world]
    cases hreply : state.reply db headers ⟨now, true⟩ req with
    | none => exact ⟨s, rfl, h⟩
    | some reply =>
      obtain ⟨response, sent⟩ := reply
      exact ⟨_, rfl, h.enqueue (AppState.isCommand_of_reply hreply)⟩
  | tick current =>
    unfold Served.step
    dsimp only
    split
    · exact ⟨_, rfl, h.idle, h.commands, h.silent⟩
    · exact ⟨s, rfl, h⟩
  | forward now =>
    unfold Served.step
    dsimp only
    split
    · exact ⟨s, rfl, h⟩
    · rename_i id due hdue
      split
      · rename_i sent hsent
        refine ⟨_, rfl, h.enqueue ?_⟩
        rintro e rfl
        exact ⟨⟨now, true⟩, _, unsignedCommand_ne state.episodeId _, hsent⟩
      · exact ⟨s, rfl, h⟩
  | engine =>
    unfold Served.step
    dsimp only
    split
    · exact ⟨s, rfl, h⟩
    · rename_i msg channel hchannel
      obtain ⟨moment, m, hm, hsent⟩ := h.commands msg (hchannel ▸ List.mem_cons_self)
      obtain ⟨blk, next, rfl, hblock, hidle⟩ := h.idle.receive hm hsent
      -- the command is for an episode that the engine does not have
      have hrun : Engine.start [.blkAccepted blk] s.engine = .ok (next, []) :=
        bind_of_ok _ hblock
      refine ⟨_, bind_of_ok _ hrun, hidle, ?_, ?_⟩
      · intro e he
        exact h.commands e (hchannel ▸ List.mem_cons_of_mem _ he)
      · exact (List.append_nil _).trans h.silent

variable (state) in
theorem Quiet.run (h : Quiet db s) (events : List Event) :
    ∃ last, s.run state events = .ok (last, events.flatMap (answer state db)) ∧
      Quiet db last := by
  induction events generalizing s with
  | nil => exact ⟨s, rfl, h⟩
  | cons e events ih =>
    obtain ⟨next, hnext, hquiet⟩ := h.step state e
    obtain ⟨last, hlast, hquiet⟩ := ih hquiet
    refine ⟨last, ?_, hquiet⟩
    rw [Served.run, bind_of_ok _ hnext]
    exact bind_of_ok _ hlast

theorem quiet_start (db : Storage) : Quiet db (start db) where
  idle := idle_new db
  commands _ he := absurd he List.not_mem_nil
  silent := rfl

/-- In every order of requests, turns of the scheduler and turns of the engine: each request is
answered from the store that the process was started on, and no command ever reaches an episode. -/
theorem served_answers (state : AppState) (db : Storage) (events : List Event) :
    ∃ last, (start db).run state events = .ok (last, events.flatMap (answer state db)) ∧
      last.engine.world = db ∧ last.calls = [] := by
  obtain ⟨last, hrun, hquiet⟩ := (quiet_start db).run state events
  exact ⟨last, hrun, hquiet.idle.world, hquiet.silent⟩

end Served

/-- The commands of the command line that send to the engine of their own process, or write to
the store; `sk` and `pk` are the keys that were given, or made up. -/
inductive CliCmd where
  | new (episodeId : EpisodeId)
  | create (episodeId : EpisodeId) (invoiceId amount : UInt64) (memo : Option String)
  | pay (episodeId : EpisodeId) (invoiceId : UInt64) (payerPublicKey : String)
  | ack (episodeId : EpisodeId) (invoiceId : UInt64)
  | cancel (episodeId : EpisodeId) (invoiceId : UInt64)
  | createSubscription (episodeId : EpisodeId) (subscriptionId : UInt64)
      (customerPublicKey : String) (amount interval : UInt64)
  | cancelSubscription (episodeId : EpisodeId) (subscriptionId : UInt64)
  | serve (episodeId : EpisodeId) (apiKey : String) (events : List Served.Event)
  | registerCustomer
  | listCustomers

structure Invocation where
  cmd : CliCmd
  sk : Crypto.SecretKey
  pk : PubKey
  now : UInt64

/-- How a process ends: by itself, or in a panic of its main thread. -/
structure Ended where
  panicked : Bool
  store : Storage

namespace Invocation
variable (self : Invocation)

/-- The one message that the process forwards; `none` where it panics before. -/
def message : CliCmd → Option (EpisodeMessage ReceiptEpisode)
  | .new episodeId => some (.newEpisode episodeId [self.pk])
  | .create episodeId invoiceId amount memo => EpisodeMessage.newSignedCommand episodeId
      (MerchantCommand.createInvoice invoiceId amount memo) self.sk self.pk
  | .pay episodeId invoiceId payerPublicKey =>
    (parsePublicKey payerPublicKey).map fun pk =>
      .unsignedCommand episodeId (MerchantCommand.markPaid invoiceId pk)
  | .ack episodeId invoiceId => EpisodeMessage.newSignedCommand episodeId
      (MerchantCommand.ackReceipt invoiceId) self.sk self.pk
  | .cancel episodeId invoiceId =>
    some (.unsignedCommand episodeId (MerchantCommand.cancelInvoice invoiceId))
  | .createSubscription episodeId subscriptionId customerPublicKey amount interval =>
    (parsePublicKey customerPublicKey).bind fun customer =>
      EpisodeMessage.newSignedCommand episodeId
        (MerchantCommand.createSubscription subscriptionId customer amount interval) self.sk self.pk
  | .cancelSubscription episodeId subscriptionId =>
    some (.unsignedCommand episodeId (MerchantCommand.cancelSubscription subscriptionId))
  | .serve .. => none
  | .registerCustomer => none
  | .listCustomers => none

/-- The engine takes up what was forwarded, and then `Exit`. Where there is nothing to forward, or
it cannot be written, the process panics before the engine has anything. -/
def deliver (db : Storage) (msg : Option (EpisodeMessage ReceiptEpisode)) :
    Except (Panic ReceiptEpisode) Ended :=
  match msg.bind fun msg => SimRouter.forward ⟨self.now, true⟩ msg with
  | none => .ok ⟨true, db⟩
  | some sent => (Engine.start (sent.toList ++ [.exit]) (Engine.new db)).map fun p =>
    ⟨false, p.1.world⟩

def run (db : Storage) : Except (Panic ReceiptEpisode) Ended :=
  match self.cmd with
  | .serve episodeId apiKey events =>
    ((Served.start db).run ⟨episodeId, self.sk, self.pk, apiKey⟩ events).map fun p =>
      ⟨false, p.1.engine.world⟩
  | .registerCustomer =>
    ((Shop.registerCustomer self.pk).run db |>.mapError (Panic.episode (G := ReceiptEpisode))).map
      fun p => ⟨false, p.2⟩
  | .listCustomers => .ok ⟨false, db⟩
  | cmd => self.deliver db (self.message cmd)

/-- The processes that one after another open the store, however the one before ended. -/
def runAll (db : Storage) (invocations : List Invocation) :
    Except (Panic ReceiptEpisode) Storage :=
  invocations.foldlM (fun db i => (i.run db).map (·.store)) db

variable {self} {db : Storage}

theorem deliver_accepted {msg : EpisodeMessage ReceiptEpisode} {blk : BlkAccepted}
    {next : Engine ReceiptEpisode} {calls : List (HandlerCall ReceiptEpisode)}
    (hsent : SimRouter.forward ⟨self.now, true⟩ msg = some (some (.blkAccepted blk)))
    (hblock : (Engine.new (G := ReceiptEpisode) db).acceptBlock blk = .ok (next, calls)) :
    self.deliver db (some msg) = .ok ⟨false, next.world⟩ := by
  have hrun : Engine.start [.blkAccepted blk, .exit] (Engine.new (G := ReceiptEpisode) db) =
      .ok (next, calls ++ []) := bind_of_ok _ hblock
  unfold deliver
  rw [Option.bind_some, hsent]
  exact congrArg (Except.map fun p => (⟨false, p.1.world⟩ : Ended)) hrun

theorem deliver_unforwarded {msg : EpisodeMessage ReceiptEpisode}
    (hsent : SimRouter.forward ⟨self.now, true⟩ msg = none) :
    self.deliver db (some msg) = .ok ⟨true, db⟩ := by
  unfold deliver
  rw [Option.bind_some, hsent]

theorem deliver_newEpisode (id : EpisodeId) (ps : List PubKey) :
    ∃ panicked, self.deliver db (some (.newEpisode id ps)) = .ok ⟨panicked, db⟩ := by
  cases hsent : SimRouter.forward ⟨self.now, true⟩
      (.newEpisode id ps : EpisodeMessage ReceiptEpisode) with
  | none => exact ⟨true, deliver_unforwarded hsent⟩
  | some sent =>
    obtain ⟨payload, hser, hsend⟩ := Option.map_eq_some_iff.mp hsent
    obtain rfl : some (syntheticBlock 0 self.now payload) = sent := hsend
    have hdec := (EpisodeMessage.codec_lawful MerchantCommand.codec_lawful).fromSlice hser
    have haction := Engine.action_of_fromSlice hdec fun _ => nofun
    have hworld := ((idle_new db).filter 0).world
    have hout : ∀ md : PayloadMetadata, ∃ out,
        ((Engine.new (G := ReceiptEpisode) db).filterOldEpisodes 0).handleMessage
          (.newEpisode id ps) md = .ok out ∧ out.engine.world = db := by
      intro md
      unfold Engine.handleMessage
      dsimp only
      split
      · exact ⟨_, rfl, hworld⟩
      · exact ⟨_, rfl, hworld⟩
    obtain ⟨out, hout, hworld⟩ := hout _
    have htail : Engine.acceptTxs ⟨Hash.default, 0, self.now, [(Hash.default, payload, none)]⟩ []
        out.engine = .ok (out.engine, [], []) := rfl
    have htxs : Engine.acceptTxs ⟨Hash.default, 0, self.now, [(Hash.default, payload, none)]⟩
        [(Hash.default, payload, none)]
          ((Engine.new (G := ReceiptEpisode) db).filterOldEpisodes 0) =
            .ok (out.engine, out.revert.toList ++ [], out.calls ++ []) :=
      Engine.acceptTxs_cons_of_ok haction hout htail
    refine ⟨false, ?_⟩
    rw [deliver_accepted hsent (bind_of_ok _ htxs)]
    exact congrArg (fun store => Except.ok (⟨false, store⟩ : Ended)) hworld

theorem deliver_command {msg : EpisodeMessage ReceiptEpisode}
    (hmsg : ∀ id ps, msg ≠ .newEpisode id ps) :
    ∃ panicked, self.deliver db (some msg) = .ok ⟨panicked, db⟩ := by
  cases hsent : SimRouter.forward ⟨self.now, true⟩ msg with
  | none => exact ⟨true, deliver_unforwarded hsent⟩
  | some sent =>
    obtain ⟨payload, hser, hsend⟩ := Option.map_eq_some_iff.mp hsent
    obtain rfl : some (syntheticBlock 0 self.now payload) = sent := hsend
    obtain ⟨blk, next, hblk, hblock, hidle⟩ := (idle_new db).receive hmsg hsent
    rw [hblk] at hsent
    refine ⟨false, ?_⟩
    rw [deliver_accepted hsent hblock, hidle.world]

theorem deliver_keeps {msg : Option (EpisodeMessage ReceiptEpisode)}
    (hmsg : ∀ m, msg = some m → ∀ id ps, m ≠ .newEpisode id ps) :
    ∃ ended, self.deliver db msg = .ok ended ∧ ended.store = db := by
  cases msg with
  | none => exact ⟨⟨true, db⟩, rfl, rfl⟩
  | some msg =>
    obtain ⟨panicked, hrun⟩ := deliver_command (hmsg msg rfl)
    exact ⟨⟨panicked, db⟩, hrun, rfl⟩

theorem message_ne {cmd : CliCmd} (hnew : ∀ id, cmd ≠ .new id) :
    ∀ m, self.message cmd = some m → ∀ id ps, m ≠ .newEpisode id ps := by
  intro m hm
  cases cmd with
  | new id => exact absurd rfl (hnew id)
  | create => exact newSignedCommand_ne hm
  | pay =>
    obtain ⟨pk, -, rfl⟩ := Option.map_eq_some_iff.mp hm
    exact unsignedCommand_ne _ _
  | ack => exact newSignedCommand_ne hm
  | cancel =>
    obtain rfl := Option.some.inj hm
    exact unsignedCommand_ne _ _
  | createSubscription =>
    obtain ⟨customer, -, hm⟩ := Option.bind_eq_some_iff.mp hm
    exact newSignedCommand_ne hm
  | cancelSubscription =>
    obtain rfl := Option.some.inj hm
    exact unsignedCommand_ne _ _
  | serve => cases hm
  | registerCustomer => cases hm
  | listCustomers => cases hm

theorem run_keeps (i : Invocation) (db : Storage) : ∃ ended, i.run db = .ok ended ∧
    ended.store.invoices = db.invoices ∧ ended.store.subscriptions = db.subscriptions := by
  have hkeeps : ∀ ended : Ended, ended.store = db → ended.store.invoices = db.invoices ∧
      ended.store.subscriptions = db.subscriptions := by
    rintro ended rfl
    exact ⟨rfl, rfl⟩
  have hdeliver : (∀ id, i.cmd ≠ .new id) → i.run db = i.deliver db (i.message i.cmd) →
      ∃ ended, i.run db = .ok ended ∧ ended.store.invoices = db.invoices ∧
        ended.store.subscriptions = db.subscriptions := by
    intro hnew hrun
    obtain ⟨ended, hended, hstore⟩ := deliver_keeps (i.message_ne hnew)
    exact ⟨ended, hrun.trans hended, hkeeps ended hstore⟩
  obtain ⟨cmd, sk, pk, now⟩ := i
  cases cmd with
  | new id =>
    obtain ⟨panicked, hrun⟩ := deliver_newEpisode id [pk]
    exact ⟨⟨panicked, db⟩, hrun, rfl, rfl⟩
  | serve id apiKey events =>
    obtain ⟨last, hrun, hquiet⟩ := (Served.quiet_start db).run ⟨id, sk, pk, apiKey⟩ events
    refine ⟨⟨false, db⟩, ?_, rfl, rfl⟩
    change Except.map _ ((Served.start db).run _ events) = _
    rw [hrun]
    exact congrArg (fun store => Except.ok (⟨false, store⟩ : Ended)) hquiet.idle.world
  | registerCustomer =>
    have hempty : (CustomerInfo.codec.serialize ⟨[], []⟩).isSome = true := rfl
    obtain ⟨db', hput⟩ := Storage.putCustomer_total hempty pk db
    refine ⟨⟨false, db'⟩, ?_, ?_⟩
    · exact congrArg (fun put : Except Fault (Unit × Storage) =>
        (put.mapError (Panic.episode (G := ReceiptEpisode))).map
          fun p => (⟨false, p.2⟩ : Ended)) hput
    · obtain ⟨val, -, rfl⟩ := expect_modify hput
      exact ⟨rfl, rfl⟩
  | listCustomers => exact ⟨⟨false, db⟩, rfl, rfl, rfl⟩
  | _ => exact hdeliver nofun rfl

end Invocation

/-- Whatever is asked of the command line, in one process after another, but for the demonstration,
the routers and the proxy, and however the processes end: no engine panics, and no invoice and no
subscription is ever written. -/
theorem cli_keeps_invoices (db : Storage) (invocations : List Invocation) :
    ∃ db', Invocation.runAll db invocations = .ok db' ∧ db'.invoices = db.invoices ∧
      db'.subscriptions = db.subscriptions := by
  induction invocations generalizing db with
  | nil => exact ⟨db, rfl, rfl, rfl⟩
  | cons i invocations ih =>
    obtain ⟨ended, hrun, hinvoices, hsubscriptions⟩ := i.run_keeps db
    obtain ⟨db', hrest, hinvoices', hsubscriptions'⟩ := ih ended.store
    refine ⟨db', ?_, hinvoices'.trans hinvoices, hsubscriptions'.trans hsubscriptions⟩
    unfold Invocation.runAll
    rw [List.foldlM_cons, hrun]
    exact hrest

end Kdapp.Merchant
