import Kdapp.Engine.Isolation
import Kdapp.Merchant.Payments
import Kdapp.Merchant.Writes

/-! What the episodes of one engine see of one another: a new one reads the trees that all of
them write, and none looks at them again. -/

namespace Kdapp.Merchant
open Outcome
open Std (ExtTreeMap ExtTreeSet)

variable [Crypto]

namespace ReceiptEpisode

def shared (g : ReceiptEpisode) :
    ExtTreeMap UInt64 Invoice × ExtTreeMap UInt64 Subscription × ExtTreeMap PubKey CustomerInfo :=
  (g.invoices, g.subscriptions, g.customers)

variable (g : ReceiptEpisode) (auth : Option PubKey) (metadata : PayloadMetadata)

theorem execute_blind (cmd : MerchantCommand) : Blind (g.execute auth metadata cmd) :=
  (execute_writes g auth metadata cmd).blind

theorem rollback_blind (rb : MerchantRollback) : Blind (g.rollback rb) :=
  (rollback_writes g rb).blind

theorem worldBlind : Episode.WorldBlind ReceiptEpisode shared where
  initializeWith ps md w₁ w₂ g₁ g₂ w₁' w₂' h₁ h₂ hshared := by
    cases h₁
    cases h₂
    obtain ⟨hi, hrest⟩ := Prod.mk.inj hshared
    obtain ⟨hs, hc⟩ := Prod.mk.inj hrest
    rw [show w₁.loadInvoices = w₂.loadInvoices from hi,
      show w₁.loadSubscriptions = w₂.loadSubscriptions from hs,
      show w₁.loadCustomers = w₂.loadCustomers from hc]
  execute g cmd auth md := execute_blind g auth md cmd
  rollback g rb := rollback_blind g rb

end ReceiptEpisode

namespace Engine
open Kdapp.Engine

variable {id : EpisodeId}

theorem created_reads {s : Engine ReceiptEpisode} {a : EpisodeMessage ReceiptEpisode}
    {md : PayloadMetadata} {out : Kdapp.Handled ReceiptEpisode} {g : ReceiptEpisode}
    (h : s.handleMessage a md = .ok out) (hcall : .onInitialize id g ∈ out.calls) :
    g.shared = (s.world.loadInvoices, s.world.loadSubscriptions, s.world.loadCustomers) := by
  cases handleMessage_ok h with
  | known | missing | forged | rejected => cases hcall
  | created _ hinit =>
    obtain ⟨rfl, rfl⟩ := HandlerCall.onInitialize.inj (List.mem_singleton.mp hcall)
    obtain ⟨-, -, hi, hs, hc, -⟩ := ReceiptEpisode.initializeWith_ok hinit
    rw [ReceiptEpisode.shared, hi, hs, hc]
  | executed | popped | deleted => cases List.mem_singleton.mp hcall

/-- An episode starts with what the trees hold; from then on it depends on its own messages only. -/
theorem isolated (id : EpisodeId) :
    (∀ (s : Engine ReceiptEpisode) a md out g, s.handleMessage a md = .ok out →
      .onInitialize id g ∈ out.calls →
      g.shared = (s.world.loadInvoices, s.world.loadSubscriptions, s.world.loadCustomers)) ∧
    ∀ msgs₁ msgs₂ w₁ w₂ t₁ t₂ calls₁ calls₂,
      msgs₁.map (EngineMsg.addressedTo ReceiptEpisode id) =
        msgs₂.map (EngineMsg.addressedTo ReceiptEpisode id) →
      start msgs₁ (new w₁) = .ok (t₁, calls₁) → start msgs₂ (new w₂) = .ok (t₂, calls₂) →
      (created id calls₁).map ReceiptEpisode.shared =
        (created id calls₂).map ReceiptEpisode.shared →
      callsOf id calls₁ = callsOf id calls₂ ∧ t₁.episodes[id]? = t₂.episodes[id]? := by
  refine ⟨fun s a md out g h hcall => created_reads h hcall, ?_⟩
  intro msgs₁ msgs₂ w₁ w₂ t₁ t₂ calls₁ calls₂ hmsgs h₁ h₂ hreads
  have hnew : Same id (new w₁ : Engine ReceiptEpisode) (new w₂) := ⟨rfl, rfl, rfl, fun _ => rfl⟩
  obtain ⟨hsame, hcalls⟩ := start_same ReceiptEpisode.worldBlind hmsgs hnew h₁ h₂ hreads
  exact ⟨hcalls, hsame.episode⟩

end Engine
end Kdapp.Merchant

namespace Kdapp.Merchant.ReceiptEpisode
open Borsh
attribute [local instance] idealCrypto

def openAs (id : EpisodeId) : EpisodeMessage ReceiptEpisode := .newEpisode id [(1 : UInt8)]

def bill (id : EpisodeId) : EpisodeMessage ReceiptEpisode :=
  let cmd := MerchantCommand.createInvoice 7 100 none
  .signedCommand id cmd (1 : UInt8)
    (signMessage (1 : UInt8) ((toMessage MerchantCommand.codec cmd).getD (Crypto.sha256 [])))

def carrying (as : List (EpisodeMessage ReceiptEpisode)) : EngineMsg :=
  .blkAccepted {
    acceptingHash := Hash.filled 1
    acceptingDaa := 1
    acceptingTime := 1
    associatedTxs := as.map fun a =>
      (Hash.filled 2, (EpisodeMessage.codec.serialize a).getD [], none) }

def billed (id : EpisodeId) (calls : List (HandlerCall ReceiptEpisode)) : List UInt64 :=
  (Engine.callsOf id calls).filterMap fun
    | .onCommand _ _ (MerchantCommand.createInvoice invoiceId _ _) _ _ => some invoiceId
    | _ => none

def inherited (id : EpisodeId) (calls : List (HandlerCall ReceiptEpisode)) : List (List UInt64) :=
  (Engine.created id calls).map fun g => g.invoices.keys

def alone : List EngineMsg := [carrying [openAs 6, bill 6]]

def after : List EngineMsg := [carrying [openAs 5, bill 5, openAs 6, bill 6]]

def before : List EngineMsg := [carrying [openAs 6, openAs 5, bill 5, bill 6]]

/-- Episode 6 inherits the invoice of episode 5 and refuses its own. -/
theorem not_isolated : ∃ t calls t' calls',
    after.map (EngineMsg.addressedTo ReceiptEpisode 6) =
      alone.map (EngineMsg.addressedTo ReceiptEpisode 6) ∧
    Engine.start after (Engine.new shop) = .ok (t, calls) ∧
    Engine.start alone (Engine.new shop) = .ok (t', calls') ∧
    billed 5 calls = [7] ∧ inherited 6 calls = [[7]] ∧ billed 6 calls = [] ∧
    inherited 6 calls' = [[]] ∧ billed 6 calls' = [7] := by
  have hmsgs : after.map (EngineMsg.addressedTo ReceiptEpisode 6) =
      alone.map (EngineMsg.addressedTo ReceiptEpisode 6) := by
    decide +kernel
  have hafter : (Engine.start after (Engine.new shop)).toOption.map
      (fun p => (billed 5 p.2, inherited 6 p.2, billed 6 p.2)) = some ([7], [[7]], []) := by
    decide +kernel
  have halone : (Engine.start alone (Engine.new shop)).toOption.map
      (fun p => (inherited 6 p.2, billed 6 p.2)) = some ([[]], [7]) := by
    decide +kernel
  obtain ⟨⟨t, calls⟩, hrun, hcalls⟩ := Outcome.exists_of_map hafter
  obtain ⟨⟨t', calls'⟩, hrun', hcalls'⟩ := Outcome.exists_of_map halone
  obtain ⟨hfirst, hrest⟩ := Prod.mk.inj hcalls
  obtain ⟨hinherited, hsecond⟩ := Prod.mk.inj hrest
  obtain ⟨hinherited', hsecond'⟩ := Prod.mk.inj hcalls'
  exact ⟨t, calls, t', calls', hmsgs, hrun, hrun', hfirst, hinherited, hsecond, hinherited',
    hsecond'⟩

theorem isolated_before : ∃ t calls t' calls',
    Engine.start before (Engine.new shop) = .ok (t, calls) ∧
    Engine.start alone (Engine.new shop) = .ok (t', calls') ∧ billed 6 calls = [7] ∧
    Engine.callsOf 6 calls = Engine.callsOf 6 calls' ∧ t.episodes[(6 : EpisodeId)]? =
      t'.episodes[(6 : EpisodeId)]? := by
  have hmsgs : before.map (EngineMsg.addressedTo ReceiptEpisode 6) =
      alone.map (EngineMsg.addressedTo ReceiptEpisode 6) := by
    decide +kernel
  have hruns : ((Engine.start before (Engine.new shop)).toOption.bind fun p =>
      (Engine.start alone (Engine.new shop)).toOption.map fun q =>
        (decide ((Engine.created 6 p.2).map shared = (Engine.created 6 q.2).map shared),
          billed 6 p.2)) = some (true, [7]) := by
    decide +kernel
  obtain ⟨⟨t, calls⟩, hrun, hrest⟩ := Option.bind_eq_some_iff.mp hruns
  obtain ⟨⟨t', calls'⟩, hrun', hcalls⟩ := Option.map_eq_some_iff.mp hrest
  obtain ⟨hreads, hbilled⟩ := Prod.mk.inj hcalls
  have hstart := Outcome.ok_of_toOption hrun
  have hstart' := Outcome.ok_of_toOption hrun'
  exact ⟨t, calls, t', calls', hstart, hstart', hbilled,
    (Engine.isolated 6).2 _ _ _ _ _ _ _ _ hmsgs hstart hstart' (of_decide_eq_true hreads)⟩

end Kdapp.Merchant.ReceiptEpisode
