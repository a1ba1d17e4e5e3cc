import Kdapp.Engine.Signatures
import Kdapp.Library.Transition
import Kdapp.Merchant.OffChain
import Kdapp.Merchant.Persistence

/-! The thread that has due subscriptions processed (`kdapp-merchant/src/scheduler.rs`), beside
the engine and everybody else who sends to it. -/

namespace Kdapp.Merchant.Scheduler
open Borsh Outcome Transition
open Std (ExtTreeMap)

variable [Crypto]

/-- The subscriptions that a tick at `current` finds due in the trees. -/
def dueSubscriptions (db : Storage) (current : UInt64) : List UInt64 :=
  (db.loadSubscriptions.toList.filter fun p => p.2.nextRun ≤ current).map (·.1)

def message (episodeId : EpisodeId) (id : UInt64) : EpisodeMessage ReceiptEpisode :=
  .unsignedCommand episodeId (MerchantCommand.processSubscription id)

/-- The clock, the subscriptions that the running tick has still to forward, the messages that
wait for the engine, and the engine. -/
structure System where
  now : UInt64
  due : List UInt64
  channel : List (EpisodeMessage ReceiptEpisode × PayloadMetadata)
  engine : Engine ReceiptEpisode

inductive Act where
  | clock (now : UInt64)
  | tick
  | forward (channelOpen : Bool)
  /-- A block from another router or the proxy. -/
  | outside (blk : BlkAccepted)
  /-- The engine takes up a block and drops old episodes. -/
  | block (daa : UInt64)
  | engine

abbrev Calls := List (HandlerCall ReceiptEpisode)

def step (episodeId : EpisodeId) (s : System) : Act → Option (System × Calls)
  | .clock now => if s.now ≤ now then some ({ s with now }, []) else none
  | .tick =>
    -- the thread sleeps only after its loop
    if s.due = [] then some ({ s with due := dueSubscriptions s.engine.world s.now }, []) else none
  | .forward channelOpen =>
    match s.due with
    | [] => none
    | id :: due =>
      (SimRouter.forward ⟨s.now, channelOpen⟩ (message episodeId id)).map fun sent =>
        ({ s with due, channel := s.channel ++ Engine.delivered sent.toList }, [])
  | .outside blk =>
    some ({ s with channel := s.channel ++ Engine.delivered [.blkAccepted blk] }, [])
  | .block daa => some ({ s with engine := s.engine.filterOldEpisodes daa }, [])
  | .engine =>
    match s.channel with
    | [] => none
    | (msg, metadata) :: channel =>
      match s.engine.handleMessage msg metadata with
      | .error _ => none
      | .ok out => some ({ s with channel, engine := out.engine }, out.calls)

/-- Nothing was processed before the time that the subscription had for its next run. -/
def OnTime (engine : Engine ReceiptEpisode) (calls : Calls) : Prop :=
  ∀ id g (k : UInt64) auth metadata,
    HandlerCall.onCommand id g (MerchantCommand.processSubscription k) auth metadata ∈ calls →
      ∀ w sub, engine.episodes[id]? = some w → w.episode.subscriptions[k]? = some sub →
        sub.nextRun ≤ metadata.acceptingTime

def processed (msg : EpisodeMessage ReceiptEpisode) : Option UInt64 :=
  match msg.command with
  | some (MerchantCommand.processSubscription k, _) => some k
  | _ => none

def scheduled (msg : EpisodeMessage ReceiptEpisode) : Option UInt64 :=
  match msg.command with
  | some (MerchantCommand.processSubscription k, _) => some k
  | some (MerchantCommand.createSubscription k _ _ _, _) => some k
  | _ => none

def Due (db : Storage) (k time : UInt64) : Prop :=
  ∀ sub ∈ db.loadSubscriptions[k]?, sub.nextRun ≤ time

instance (db : Storage) (k time : UInt64) : Decidable (Due db k time) :=
  inferInstanceAs (Decidable (∀ sub ∈ db.loadSubscriptions[k]?, sub.nextRun ≤ time))

/-- Others send to the episode of the scheduler only, and process only what is due; and no
subscription gets a next run while a message that processes it waits. -/
def Orderly (episodeId : EpisodeId) (s : System) : Act → Prop
  | .outside blk => ∀ p ∈ Engine.delivered [.blkAccepted blk], p.1.episodeId = episodeId ∧
      ∀ k ∈ processed p.1, Due s.engine.world k p.2.acceptingTime
  | .engine => ∀ p ∈ s.channel.head?, ∀ k ∈ scheduled p.1,
      k ∉ s.due ∧ ∀ q ∈ s.channel.tail, processed q.1 ≠ some k
  | _ => True

instance (episodeId : EpisodeId) (s : System) (act : Act) : Decidable (Orderly episodeId s act) :=
  -- the ids are looked for in the option and not among all of `UInt64`
  match act with
  | .outside blk =>
    letI (p : EpisodeMessage ReceiptEpisode × PayloadMetadata) :
      Decidable (∀ k ∈ processed p.1, Due s.engine.world k p.2.acceptingTime) :=
        Option.decidableForallMem _
    inferInstanceAs (Decidable (∀ p ∈ Engine.delivered [.blkAccepted blk],
      p.1.episodeId = episodeId ∧ ∀ k ∈ processed p.1, Due s.engine.world k p.2.acceptingTime))
  | .engine =>
    letI (p : EpisodeMessage ReceiptEpisode × PayloadMetadata) :
      Decidable (∀ k ∈ scheduled p.1, k ∉ s.due ∧ ∀ q ∈ s.channel.tail, processed q.1 ≠ some k) :=
        Option.decidableForallMem _
    inferInstanceAs (Decidable (∀ p ∈ s.channel.head?, ∀ k ∈ scheduled p.1,
      k ∉ s.due ∧ ∀ q ∈ s.channel.tail, processed q.1 ≠ some k))
  | .clock _ | .tick | .forward _ | .block _ => isTrue trivial

/-- The engine holds no other episode, and the trees hold what the episode holds. -/
structure Hosts (episodeId : EpisodeId) (engine : Engine ReceiptEpisode) : Prop where
  sound : engine.world.Sound
  persisted : ∀ id w, engine.episodes[id]? = some w →
    id = episodeId ∧ w.episode.Persisted engine.world

/-- Whatever waits to be processed was due when it was read, and still is. -/
structure Inv (episodeId : EpisodeId) (s : System) : Prop where
  hosts : Hosts episodeId s.engine
  addressed : ∀ p ∈ s.channel, p.1.episodeId = episodeId ∧ ∀ id, p.1 ≠ .revert id
  due : ∀ k ∈ s.due, Due s.engine.world k s.now
  waiting : ∀ p ∈ s.channel, ∀ k ∈ processed p.1, Due s.engine.world k p.2.acceptingTime

section Lemmas
variable {episodeId : EpisodeId} {db : Storage} {k time time' : UInt64}
  {metadata : PayloadMetadata} {msg : EpisodeMessage ReceiptEpisode}
  {engine : Engine ReceiptEpisode} {out : Kdapp.Handled ReceiptEpisode}

theorem Due.mono (h : Due db k time) (hle : time ≤ time') : Due db k time' :=
  fun sub hsub => UInt64.le_trans (h sub hsub) hle

theorem due_of_mem (h : k ∈ dueSubscriptions db time) : Due db k time := by
  intro sub hsub
  obtain ⟨⟨k', sub'⟩, hmem, rfl⟩ := List.mem_map.mp h
  obtain ⟨hentry, hdue⟩ := List.mem_filter.mp hmem
  rw [ExtTreeMap.mem_toList_iff_getElem?_eq_some] at hentry
  rw [hentry] at hsub
  obtain rfl := Option.some.inj hsub
  exact of_decide_eq_true hdue

theorem Hosts.loaded (h : Hosts episodeId engine) {id : EpisodeId}
    {w : EpisodeWrapper ReceiptEpisode} (hw : engine.episodes[id]? = some w) :
    engine.world.loadSubscriptions = w.episode.subscriptions :=
  (Storage.Mirrored.loaded (h.persisted id w hw).2.2).2.1

theorem Hosts.insert {t : Engine ReceiptEpisode} {w : EpisodeWrapper ReceiptEpisode}
    (h : Hosts episodeId engine) (hepisodes : t.episodes = engine.episodes.insert episodeId w)
    (hw : w.episode.Persisted t.world) : Hosts episodeId t := by
  refine ⟨hw.sound, fun id w' hw' => ?_⟩
  have hid : id = episodeId := by
    rw [hepisodes, ExtTreeMap.getElem?_insert] at hw'
    split at hw'
    · exact (Std.LawfulEqOrd.eq_of_compare ‹_›).symm
    · exact (h.persisted id w' hw').1
  subst hid
  rw [hepisodes, ExtTreeMap.getElem?_insert_self] at hw'
  cases hw'
  exact ⟨rfl, hw⟩

theorem subscription_of_accepts {g g' : ReceiptEpisode} {cmd : MerchantCommand}
    {auth : Option PubKey} {rb : MerchantRollback} {sub : Subscription}
    (hcmd : msg.command = some (cmd, auth)) (h : g.Accepts metadata cmd auth rb g')
    (hsub : g'.subscriptions[k]? = some sub) :
    scheduled msg = some k ∨ g.subscriptions[k]? = some sub := by
  cases h with
  | createInvoice | markPaid | ackReceipt | cancelInvoice => exact .inr hsub
  | createSubscription =>
    rw [ExtTreeMap.getElem?_insert] at hsub
    split at hsub
    · obtain rfl := Std.LawfulEqOrd.eq_of_compare ‹_›
      exact .inl (by rw [scheduled, hcmd])
    · exact .inr hsub
  | processSubscription =>
    rw [ExtTreeMap.getElem?_insert] at hsub
    split at hsub
    · obtain rfl := Std.LawfulEqOrd.eq_of_compare ‹_›
      exact .inl (by rw [scheduled, hcmd])
    · exact .inr hsub
  | cancelSubscription =>
    rw [ExtTreeMap.getElem?_erase] at hsub
    split at hsub
    · cases hsub
    · exact .inr hsub

theorem Hosts.handles (h : Hosts episodeId engine) (hid : msg.episodeId = episodeId)
    (hrevert : ∀ id, msg ≠ .revert id) (hout : engine.Handles metadata msg out) :
    Hosts episodeId out.engine ∧ ∀ k sub, out.engine.world.loadSubscriptions[k]? = some sub →
      scheduled msg = some k ∨ engine.world.loadSubscriptions[k]? = some sub := by
  cases hout with
  | known | missing | forged => exact ⟨h, fun k sub hsub => .inr hsub⟩
  | @created id ps g world hnone hinit =>
    obtain ⟨hpersisted, hworld⟩ : g.Persisted world ∧ world = engine.world :=
      ⟨ReceiptEpisode.initializeWith_sound h.sound hinit,
        (ReceiptEpisode.initializeWith_ok hinit).1⟩
    subst hid
    exact ⟨h.insert rfl hpersisted, fun k sub hsub => .inr (hworld ▸ hsub)⟩
  | rejected hcmd hsig hw hexec =>
    obtain ⟨rfl, rfl⟩ := ReceiptEpisode.execute_rejected hexec
    rw [hid] at hw ⊢
    exact ⟨h.insert rfl (h.persisted _ _ hw).2, fun k sub hsub => .inr hsub⟩
  | executed hcmd hsig hw hexec =>
    rw [hid] at hw ⊢
    have hpersisted := (h.persisted _ _ hw).2.execute hexec
    refine ⟨h.insert rfl hpersisted, fun k sub hsub => ?_⟩
    rw [(Storage.Mirrored.loaded hpersisted.2).2.1] at hsub
    rw [h.loaded hw]
    exact subscription_of_accepts hcmd (ReceiptEpisode.execute_ok hexec).1 hsub
  | popped | deleted => exact absurd rfl (hrevert _)

theorem onTime_of_handles (h : Hosts episodeId engine) (hout : engine.Handles metadata msg out)
    (hdue : ∀ k ∈ processed msg, Due engine.world k metadata.acceptingTime) :
    OnTime engine out.calls := by
  intro id g k auth md hmem w sub hw hsub
  cases hout with
  | known | missing | forged | rejected => cases hmem
  | created | popped | deleted => cases List.mem_singleton.mp hmem
  | executed hcmd hsig hw' hexec =>
    have hcall := List.mem_singleton.mp hmem
    injection hcall with hid hg hc hauth hmd
    subst hid hc hmd
    rw [← h.loaded hw] at hsub
    exact hdue k (by rw [processed, hcmd]; rfl) sub hsub

theorem Hosts.filter (h : Hosts episodeId engine) (daa : UInt64) :
    Hosts episodeId (engine.filterOldEpisodes daa) := by
  have hworld := (Engine.filterOldEpisodes_frame engine daa).2
  refine ⟨hworld ▸ h.sound, fun id w hw => ?_⟩
  rw [hworld]
  by_cases hexp : engine.Expires daa id
  · rw [(Engine.filterOldEpisodes_expired hexp).1] at hw
    cases hw
  · rw [(Engine.filterOldEpisodes_kept hexp).1] at hw
    exact h.persisted id w hw

end Lemmas

section Run
variable {episodeId : EpisodeId} {s s' s₀ : System} {act : Act} {calls calls' : Calls}

theorem onTime_nil (engine : Engine ReceiptEpisode) : OnTime engine [] :=
  fun _ _ _ _ _ hmem => absurd hmem List.not_mem_nil

theorem Inv.enqueue {due : List UInt64}
    {waiting : List (EpisodeMessage ReceiptEpisode × PayloadMetadata)} (h : Inv episodeId s)
    (hsub : ∀ k ∈ due, k ∈ s.due)
    (haddressed : ∀ p ∈ waiting, p.1.episodeId = episodeId ∧ ∀ id, p.1 ≠ .revert id)
    (hdue : ∀ p ∈ waiting, ∀ k ∈ processed p.1, Due s.engine.world k p.2.acceptingTime) :
    Inv episodeId { s with due := due, channel := s.channel ++ waiting } where
  hosts := h.hosts
  addressed p hp := (List.mem_append.mp hp).elim (h.addressed p) (haddressed p)
  due k hk := h.due k (hsub k hk)
  waiting p hp := (List.mem_append.mp hp).elim (h.waiting p) (hdue p)

theorem Inv.handled {now : UInt64} {due : List UInt64} {msg : EpisodeMessage ReceiptEpisode}
    {metadata : PayloadMetadata} {engine : Engine ReceiptEpisode}
    {channel : List (EpisodeMessage ReceiptEpisode × PayloadMetadata)}
    {out : Kdapp.Handled ReceiptEpisode}
    (h : Inv episodeId ⟨now, due, (msg, metadata) :: channel, engine⟩)
    (hidle : ∀ k ∈ scheduled msg, k ∉ due ∧ ∀ q ∈ channel, processed q.1 ≠ some k)
    (hout : engine.Handles metadata msg out) :
    Inv episodeId ⟨now, due, channel, out.engine⟩ ∧ OnTime engine out.calls := by
  obtain ⟨hid, hrevert⟩ := h.addressed _ List.mem_cons_self
  obtain ⟨hhosts, hsame⟩ := h.hosts.handles hid hrevert hout
  have hkeep : ∀ k time, Due engine.world k time → scheduled msg ≠ some k →
      Due out.engine.world k time := by
    intro k time hdue hnot sub hsub
    exact hdue sub ((hsame k sub hsub).resolve_left hnot)
  refine ⟨⟨hhosts, fun p hp => ?_, fun k hk => ?_, fun p hp k hk => ?_⟩, ?_⟩
  · exact h.addressed p (List.mem_cons_of_mem _ hp)
  · exact hkeep k now (h.due k hk) fun hset => (hidle k hset).1 hk
  · have hdue := h.waiting p (List.mem_cons_of_mem _ hp) k hk
    exact hkeep k _ hdue fun hset => (hidle k hset).2 p hp hk
  · exact onTime_of_handles h.hosts hout fun k hk => h.waiting _ List.mem_cons_self k hk

theorem Inv.step (h : Inv episodeId s) (horderly : Orderly episodeId s act)
    (hstep : step episodeId s act = some (s', calls)) :
    Inv episodeId s' ∧ OnTime s.engine calls := by
  cases act with
  -- what was due stays due, as the clock never goes back
  | clock now =>
    obtain ⟨hle, hs⟩ := Option.ite_none_right_eq_some.mp hstep
    cases hs
    exact ⟨{ h with due := fun k hk => (h.due k hk).mono hle }, onTime_nil _⟩
  | tick =>
    obtain ⟨-, hs⟩ := Option.ite_none_right_eq_some.mp hstep
    cases hs
    exact ⟨{ h with due := fun k hk => due_of_mem hk }, onTime_nil _⟩
  | forward channelOpen =>
    obtain ⟨now, due, channel, engine⟩ := s
    cases due with
    | nil => cases hstep
    | cons id due =>
      unfold Scheduler.step at hstep
      obtain ⟨sent, hsent, hs⟩ := Option.map_eq_some_iff.mp hstep
      cases hs
      have hlaw : (Episode.codec (G := ReceiptEpisode)).Lawful := MerchantCommand.codec_lawful
      have hread := SimRouter.forward_delivered hlaw hsent
      refine ⟨h.enqueue (fun k hk => List.mem_cons_of_mem _ hk) (fun p hp => ?_)
        fun p hp k hk => ?_, onTime_nil _⟩
      · obtain ⟨hmsg, -, hrevert⟩ := hread p hp
        rw [hmsg]
        exact ⟨rfl, hrevert⟩
      · -- the message was made for an id of the tick and bears the time of now
        obtain ⟨hmsg, htime, -⟩ := hread p hp
        rw [hmsg] at hk
        cases hk
        rw [htime]
        exact h.due id List.mem_cons_self
  | outside blk =>
    cases hstep
    refine ⟨h.enqueue (fun k hk => hk) (fun p hp => ?_) fun p hp => (horderly p hp).2,
      onTime_nil _⟩
    obtain ⟨tx, -, hact, -⟩ := Engine.mem_delivered_block.mp hp
    exact ⟨(horderly p hp).1, Engine.action_ne_revert hact⟩
  | block daa =>
    cases hstep
    have hworld := (Engine.filterOldEpisodes_frame s.engine daa).2
    exact ⟨{ h with
      hosts := h.hosts.filter daa
      due := fun k hk => hworld.symm ▸ h.due k hk
      waiting := fun p hp k hk => hworld.symm ▸ h.waiting p hp k hk }, onTime_nil _⟩
  | engine =>
    obtain ⟨now, due, channel, engine⟩ := s
    cases channel with
    | nil => cases hstep
    | cons p channel =>
      unfold Scheduler.step at hstep
      dsimp only at hstep
      split at hstep
      · cases hstep
      rename_i out hout
      cases hstep
      -- only here are commands executed; the order of the steps has kept what waits due
      exact h.handled (horderly _ rfl) (Engine.handleMessage_ok hout)

theorem acceptTxs_run {allowed : Calls → System → Act → Prop}
    (hall : ∀ calls s act, allowed calls s act)
    {blk : BlkAccepted} {rest : List (EpisodeMessage ReceiptEpisode × PayloadMetadata)}
    {txs : List (Hash × Bytes × Option (List TxOutputInfo))} {engine' : Engine ReceiptEpisode}
    {revertVec : List Reversion} (hrun : Run (step episodeId) allowed s₀ calls s)
    (hs : s.channel = Engine.actions blk txs ++ rest)
    (h : Engine.acceptTxs blk txs s.engine = .ok (engine', revertVec, calls')) :
    ∃ t, Run (step episodeId) allowed s₀ (calls ++ calls') t ∧ t.now = s.now ∧ t.due = s.due ∧
      t.channel = rest ∧ t.engine = engine' := by
  induction txs generalizing s calls revertVec calls' with
  | nil =>
    cases h
    rw [List.append_nil]
    exact ⟨s, hrun, rfl, rfl, hs, rfl⟩
  | cons tx txs ih =>
    cases ha : (Engine.action tx.2.1 : Option (EpisodeMessage ReceiptEpisode)) with
    | none =>
      rw [Engine.actions_cons_none ha] at hs
      rw [Engine.acceptTxs_skip txs _ ha] at h
      exact ih hrun hs h
    | some a =>
      rw [Engine.actions_cons_some ha] at hs
      obtain ⟨out, rv, calls₂, hout, htail, -, rfl⟩ := Engine.acceptTxs_action ha h
      have hstep : Scheduler.step episodeId s .engine = some ({ s with
          channel := Engine.actions blk txs ++ rest, engine := out.engine }, out.calls) := by
        unfold Scheduler.step
        rw [hs]
        dsimp only [List.cons_append]
        rw [hout]
      have hnext := hrun.step (hall calls s .engine) hstep
      obtain ⟨t, ht, hnow, hdue, hrest, hengine⟩ := ih hnext rfl htail
      rw [List.append_assoc] at ht
      exact ⟨t, ht, hnow, hdue, hrest, hengine⟩

theorem acceptBlock_run {allowed : Calls → System → Act → Prop}
    (hall : ∀ calls s act, allowed calls s act) {blk : BlkAccepted}
    {rest : List (EpisodeMessage ReceiptEpisode × PayloadMetadata)}
    {engine' : Engine ReceiptEpisode} (hs : s.channel = Engine.delivered [.blkAccepted blk] ++ rest)
    (h : s.engine.acceptBlock blk = .ok (engine', calls)) :
    ∃ t, Run (step episodeId) allowed s calls t ∧ t.now = s.now ∧ t.due = s.due ∧ t.channel = rest ∧
      t.engine.episodes = engine'.episodes ∧ t.engine.world = engine'.world := by
  obtain ⟨engine₁, revertVec, htxs, rfl⟩ := Engine.acceptBlock_ok h
  have hblock : Run (step episodeId) allowed s []
      { s with engine := s.engine.filterOldEpisodes blk.acceptingDaa } :=
    Run.step .start (hall [] s (.block blk.acceptingDaa)) rfl
  rw [Engine.delivered_block] at hs
  obtain ⟨t, ht, hnow, hdue, hrest, rfl⟩ := acceptTxs_run hall hblock hs htxs
  exact ⟨t, ht, hnow, hdue, hrest, rfl, rfl⟩

/-- In an orderly run, whatever is processed is processed on time. -/
theorem processed_on_time (hidle : s₀.channel = [] ∧ s₀.due = [])
    (hhosts : Hosts episodeId s₀.engine)
    (h : Run (step episodeId) (fun _ => Orderly episodeId) s₀ calls s)
    (horderly : Orderly episodeId s act) (hstep : step episodeId s act = some (s', calls')) :
    OnTime s.engine calls' := by
  have h₀ : Inv episodeId s₀ := by
    refine ⟨hhosts, ?_, ?_, ?_⟩
    · intro p hp
      rw [hidle.1] at hp
      cases hp
    · intro k hk
      rw [hidle.2] at hk
      cases hk
    · intro p hp
      rw [hidle.1] at hp
      cases hp
  have hinv : Inv episodeId s := by
    refine Run.invariant (P := fun _ s => Inv episodeId s) h₀ ?_ h
    intro calls s act s' new hi ho hs
    exact (hi.step ho hs).1
  exact (hinv.step horderly hstep).2

def late (engine : Engine ReceiptEpisode) (calls : Calls) : List UInt64 :=
  calls.filterMap fun
    | .onCommand id _ (MerchantCommand.processSubscription k) _ metadata =>
      match (engine.episodes[id]?).bind fun w => w.episode.subscriptions[k]? with
      | some sub => if sub.nextRun ≤ metadata.acceptingTime then none else some k
      | none => none
    | _ => none

theorem not_onTime {engine : Engine ReceiptEpisode} {k : UInt64} (h : k ∈ late engine calls) :
    ¬ OnTime engine calls := by
  intro hontime
  obtain ⟨call, hcall, hlate⟩ := List.mem_filterMap.mp h
  split at hlate
  · split at hlate
    · rename_i sub hsub
      obtain ⟨w, hw, hsub⟩ := Option.bind_eq_some_iff.mp hsub
      rw [if_pos (hontime _ _ _ _ _ hcall w sub hw hsub)] at hlate
      cases hlate
    · cases hlate
  · cases hlate

end Run
end Kdapp.Merchant.Scheduler

namespace Kdapp.Merchant.ReceiptEpisode
open Borsh Scheduler Transition
attribute [local instance] idealCrypto

def subscribe : EpisodeMessage ReceiptEpisode :=
  let cmd := MerchantCommand.createSubscription 3 (2 : UInt8) 10 20
  .signedCommand 5 cmd (1 : UInt8)
    (signMessage (1 : UInt8) ((toMessage MerchantCommand.codec cmd).getD (Crypto.sha256 [])))

def opening : BlkAccepted where
  acceptingHash := Hash.filled 1
  acceptingDaa := 1
  acceptingTime := 100
  associatedTxs :=
    [(Hash.filled 2, (EpisodeMessage.codec.serialize
      (.newEpisode 5 [(1 : UInt8)] : EpisodeMessage ReceiptEpisode)).getD [], none),
     (Hash.filled 3, (EpisodeMessage.codec.serialize subscribe).getD [], none)]

def idle : System := ⟨100, [], [], Engine.new shop⟩

def setUp : List Act := [.outside opening, .engine, .engine, .clock 120, .tick, .forward true]

def twice : List Act := [.clock 130, .tick, .forward true, .engine]

def times (calls : Calls) : List UInt64 :=
  calls.filterMap fun
    | .onCommand _ _ _ _ metadata => some metadata.acceptingTime
    | _ => none

/-- The scheduler alone has the subscription processed at 120 and, ten seconds later, again. -/
theorem processed_too_early : ∃ calls s s' calls', Run (step 5) (fun _ _ _ => True) idle calls s ∧
    step 5 s .engine = some (s', calls') ∧ times (calls ++ calls') = [100, 120, 130] ∧
    ¬ OnTime s.engine calls' := by
  have hrun : ((runActs (step 5) (fun _ _ _ => True) [] idle (setUp ++ twice)).bind fun p =>
      (step 5 p.1 .engine).bind fun q => some (late p.1.engine q.2, times (p.2 ++ q.2))) =
        some ([3], [100, 120, 130]) := by
    decide +kernel
  obtain ⟨⟨s, calls⟩, hacts, hrest⟩ := Option.bind_eq_some_iff.mp hrun
  obtain ⟨⟨s', calls'⟩, hstep, hlate⟩ := Option.bind_eq_some_iff.mp hrest
  obtain ⟨hlate, htimes⟩ := Prod.mk.inj (Option.some.inj hlate)
  have hmem : (3 : UInt64) ∈ late s.engine calls' := by
    rw [hlate]
    exact List.mem_singleton_self 3
  exact ⟨calls, s, s', calls', Run.start.runActs hacts, hstep, htimes, not_onTime hmem⟩

theorem idle_hosts : Hosts 5 idle.engine :=
  ⟨Storage.Sound.init.register register_shop, fun id w hw => by
    rw [idle, Engine.new, Std.ExtTreeMap.getElem?_empty] at hw
    cases hw⟩

theorem processed_on_time_once : ∃ calls s s' calls',
    Run (step 5) (fun _ => Orderly 5) idle calls s ∧
    step 5 s .engine = some (s', calls') ∧ calls'.length = 1 ∧ OnTime s.engine calls' := by
  have hrun : ((runActs (step 5) (fun _ => Orderly 5) [] idle setUp).bind fun p =>
      if Orderly 5 p.1 .engine then (step 5 p.1 .engine).map (·.2.length) else none) = some 1 := by
    decide +kernel
  obtain ⟨⟨s, calls⟩, hacts, hrest⟩ := Option.bind_eq_some_iff.mp hrun
  obtain ⟨horderly, hrest⟩ := Option.ite_none_right_eq_some.mp hrest
  obtain ⟨⟨s', calls'⟩, hstep, hlength⟩ := Option.map_eq_some_iff.mp hrest
  have hreach := Run.start.runActs hacts
  exact ⟨calls, s, s', calls', hreach, hstep, hlength,
    processed_on_time ⟨rfl, rfl⟩ idle_hosts hreach horderly hstep⟩

end Kdapp.Merchant.ReceiptEpisode
