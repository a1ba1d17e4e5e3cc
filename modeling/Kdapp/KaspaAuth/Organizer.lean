import Kdapp.Engine.Totality
import Kdapp.KaspaAuth.P2pFlow

/-! The engine that an organizer runs stops at nothing that it receives, and what the organizer
shows of an episode changes with its own messages only. -/

namespace Kdapp

namespace EpisodeMessage
open Borsh
variable [Crypto] {G : Type} [Episode G]

theorem command_read {payload : Bytes} {a : EpisodeMessage G} {cmd : Episode.Command G}
    {auth : Option PubKey} (h : Engine.action payload = some a)
    (hcmd : a.command = some (cmd, auth)) :
    ∃ bs rest, (Episode.codec (G := G)).deserialize bs = some (cmd, rest) := by
  have hslice := Engine.fromSlice_of_action h
  have hread : ∃ rest, EpisodeMessage.codec.deserialize payload = some (a, rest) := by
    unfold Codec.fromSlice at hslice
    split at hslice
    · cases hslice
      exact ⟨_, ‹_›⟩
    · cases hslice
  obtain ⟨rest, hread⟩ := hread
  unfold EpisodeMessage.codec at hread
  dsimp only at hread
  split at hread
  · obtain ⟨p, -, hp⟩ := Option.map_eq_some_iff.mp hread
    cases hp
    cases hcmd
  · obtain ⟨p, hp, heq⟩ := Option.map_eq_some_iff.mp hread
    cases heq
    cases hcmd
    obtain ⟨⟨id, bs₁⟩, -, hbehind⟩ := Option.bind_eq_some_iff.mp hp
    obtain ⟨⟨fields, bs₂⟩, hfields, hout⟩ := Option.bind_eq_some_iff.mp hbehind
    cases hout
    obtain ⟨⟨cmd', bs₃⟩, hcmd, hrest⟩ := Option.bind_eq_some_iff.mp hfields
    obtain ⟨p', -, hout⟩ := Option.bind_eq_some_iff.mp hrest
    cases hout
    exact ⟨_, _, hcmd⟩
  · obtain ⟨p, hp, heq⟩ := Option.map_eq_some_iff.mp hread
    cases heq
    cases hcmd
    obtain ⟨⟨id, bs₁⟩, -, hbehind⟩ := Option.bind_eq_some_iff.mp hp
    obtain ⟨⟨cmd', bs₂⟩, hcmd, hout⟩ := Option.bind_eq_some_iff.mp hbehind
    cases hout
    exact ⟨_, _, hcmd⟩
  · obtain ⟨p, -, hp⟩ := Option.map_eq_some_iff.mp hread
    cases hp
    cases hcmd
  · cases hread

end EpisodeMessage

namespace KaspaAuth
open Borsh FiniteMap Outcome
open Std (ExtTreeMap)

variable [Crypto]

omit [Crypto] in
theorem AuthCommand.serialize_of_read {bs rest : Bytes} {cmd : AuthCommand}
    (h : AuthCommand.codec.deserialize bs = some (cmd, rest)) :
    ∃ bs', AuthCommand.codec.serialize cmd = some bs' := by
  have htexts : ∀ {bs : Bytes} {p : String × String} {rest : Bytes},
      AuthCommand.texts.deserialize bs = some (p, rest) →
        ∃ bs', AuthCommand.texts.serialize p = some bs' := by
    intro bs p rest h
    obtain ⟨⟨s, bs₁⟩, hfirst, hbehind⟩ := Option.bind_eq_some_iff.mp h
    obtain ⟨⟨t, bs₂⟩, hsecond, hout⟩ := Option.bind_eq_some_iff.mp hbehind
    cases hout
    obtain ⟨xs, hxs⟩ := Codec.string_serialize hfirst
    obtain ⟨ys, hys⟩ := Codec.string_serialize hsecond
    refine ⟨xs ++ ys, ?_⟩
    simp only [AuthCommand.texts, Codec.pair, hxs, hys, Option.bind_eq_bind, Option.bind_some]
  unfold AuthCommand.codec at h
  dsimp only at h
  split at h
  · cases h
    exact ⟨_, rfl⟩
  · obtain ⟨p, hp, heq⟩ := Option.map_eq_some_iff.mp h
    cases heq
    obtain ⟨bs', hbs'⟩ := htexts hp
    refine ⟨1 :: bs', ?_⟩
    simp only [AuthCommand.codec, hbs', Option.map_some]
  · obtain ⟨p, hp, heq⟩ := Option.map_eq_some_iff.mp h
    cases heq
    obtain ⟨bs', hbs'⟩ := htexts hp
    refine ⟨2 :: bs', ?_⟩
    simp only [AuthCommand.codec, hbs', Option.map_some]
  · cases h

variable [RandChaCha]

/-! ### The engine of an organizer -/

section Engine
variable {s : Engine SimpleAuth} {md : PayloadMetadata} {a : EpisodeMessage SimpleAuth}

theorem run_execute (g : SimpleAuth) (cmd : AuthCommand) (auth : Option PubKey)
    (md : PayloadMetadata) (now : UInt64) :
    (Episode.execute g cmd auth md).run now = .ok (g.execute now md cmd auth, now) := rfl

theorem runs_read {payload : Bytes} (h : Engine.action payload = some a) : s.Runs md a := by
  cases a with
  | newEpisode id ps => exact fun _ => ⟨_, rfl⟩
  | signedCommand id cmd pk sig =>
    intro ew hew
    obtain ⟨bs, rest, hread⟩ := EpisodeMessage.command_read h rfl
    obtain ⟨bs', hbs'⟩ := AuthCommand.serialize_of_read hread
    refine ⟨Crypto.sha256 bs', ?_, fun _ => ⟨_, rfl⟩⟩
    rw [toMessage, show (Episode.codec (G := SimpleAuth)).serialize cmd = some bs' from hbs']
    rfl
  | unsignedCommand id cmd => exact fun ew hew => ⟨_, rfl⟩
  | revert id => exact fun ew hew r rs hstack => ⟨_, rfl⟩

theorem acceptBlock_total (s : Engine SimpleAuth) (blk : BlkAccepted) :
    ∃ out, s.acceptBlock blk = .ok out := by
  have hI : Engine.Preserved fun _ : Engine SimpleAuth => True :=
    ⟨fun _ _ _ => trivial, fun _ _ _ _ _ _ => trivial, fun _ _ _ => trivial⟩
  have htxs : ∃ out, Engine.acceptTxs blk blk.associatedTxs
      (s.filterOldEpisodes blk.acceptingDaa) = .ok out :=
    Engine.acceptTxs_total hI (C := fun _ a _ => ∃ payload, Engine.action payload = some a)
      (fun s a md _ hread => Engine.handleMessage_isOk_iff.mpr (runs_read hread.choose_spec))
      trivial fun _ _ _ _ _ _ _ _ _ ha => ⟨_, ha⟩
  obtain ⟨⟨t, revertVec, calls⟩, htxs⟩ := htxs
  exact ⟨_, bind_of_ok _ htxs⟩

theorem revertBlock_total (s : Engine SimpleAuth) (hash : Hash) :
    ∃ out, s.revertBlock hash = .ok out := by
  have hI : Engine.Preserved fun _ : Engine SimpleAuth => True :=
    ⟨fun _ _ _ => trivial, fun _ _ _ _ _ _ => trivial, fun _ _ _ => trivial⟩
  refine Engine.revertBlock_total hI (fun s id md _ => ?_) hash trivial
  exact Engine.handleMessage_isOk_iff.mpr fun ew hew r rs hstack => ⟨_, rfl⟩

theorem executed_eq {g g' : SimpleAuth} {cmd : AuthCommand} {auth : Option PubKey}
    {res : Except (EpisodeError AuthError) AuthRollback} {now now' : UInt64}
    (h : (Episode.execute g cmd auth md).run now = .ok ((g', res), now')) :
    g.execute now md cmd auth = (g', res) ∧ now' = now := by
  obtain ⟨hexec, hnow⟩ := Prod.mk.inj (Except.ok.inj h)
  exact ⟨hexec, hnow.symm⟩

theorem handles_world {out : Handled SimpleAuth} (h : s.Handles md a out) :
    out.engine.world = s.world := by
  cases h with
  | known | missing | forged | deleted => rfl
  | created hnew hinit => exact (Prod.mk.inj (Except.ok.inj hinit)).2.symm
  | rejected hcmd hsig hew hexec => exact (executed_eq hexec).2
  | executed hcmd hsig hew hexec => exact (executed_eq hexec).2
  | popped hew hstack hroll => exact (Prod.mk.inj (Except.ok.inj hroll)).2.symm

theorem handleMessage_signed {id : EpisodeId} {ew : EpisodeWrapper SimpleAuth} {cmd : AuthCommand}
    {pk : PubKey} {sig : Sig} {m : Message} (hew : s.episodes[id]? = some ew)
    (hm : toMessage AuthCommand.codec cmd = some m) (hsig : verifySignature pk m sig = true) :
    (∀ g rb, ew.episode.execute s.world md cmd (some pk) = (g, .ok rb) →
      s.handleMessage (.signedCommand id cmd pk sig) md =
        .ok ⟨{ s with episodes := s.episodes.insert id ⟨g, rb :: ew.rollbackStack⟩ },
          some (id, md), [.onCommand id g cmd (some pk) md]⟩) ∧
      ∀ g e, ew.episode.execute s.world md cmd (some pk) = (g, .error e) →
        s.handleMessage (.signedCommand id cmd pk sig) md =
          .ok ⟨{ s with episodes := s.episodes.insert id ⟨g, ew.rollbackStack⟩ }, none, []⟩ := by
  have hrun : ew.executeSigned cmd pk sig md s.world = ew.execute cmd (some pk) md s.world := by
    unfold EpisodeWrapper.executeSigned
    rw [show toMessage (Episode.codec (G := SimpleAuth)) cmd = some m from hm]
    dsimp only
    rw [if_pos hsig]
  have hepisode : ∀ out, ew.episode.execute s.world md cmd (some pk) = out →
      (EngineM.ofEpisode (Episode.execute ew.episode cmd (some pk) md)).run s.world =
        .ok (out, s.world) := by
    intro out hexec
    apply EngineM.ofEpisode_of_ok
    rw [run_execute, hexec]
  constructor
  · intro g rb hexec
    have hwrap : ew.executeSigned cmd pk sig md s.world =
        .ok ((⟨g, rb :: ew.rollbackStack⟩, .ok ()), s.world) := by
      rw [hrun]
      exact (run_bind_of_ok _ (hepisode _ hexec)).trans rfl
    unfold Engine.handleMessage Engine.handleCommand
    simp only [hew]
    rw [bind_of_ok _ hwrap]
    rfl
  · intro g e hexec
    have hwrap : ew.executeSigned cmd pk sig md s.world =
        .ok ((⟨g, ew.rollbackStack⟩, .error e), s.world) := by
      rw [hrun]
      exact (run_bind_of_ok _ (hepisode _ hexec)).trans rfl
    unfold Engine.handleMessage Engine.handleCommand
    simp only [hew]
    rw [bind_of_ok _ hwrap]
    rfl

end Engine

/-! ### What the organizer shows -/

section Organizer
open Engine (callsOf revertsOf)
variable {id : EpisodeId} {pk : PubKey} {s t : Engine SimpleAuth} {m : SharedEpisodeState}
  {md : PayloadMetadata} {a : EpisodeMessage SimpleAuth} {out : Handled SimpleAuth}
  {calls : List (HandlerCall SimpleAuth)}

/-- What the organizer shows of an episode is what its engine holds. -/
def Shows (id : EpisodeId) (s : Engine SimpleAuth) (m : SharedEpisodeState) : Prop :=
  (s.episodes[id]?).map (·.episode) = m[id]?

theorem Shows.inserted (s : Engine SimpleAuth) (m : SharedEpisodeState)
    (ew : EpisodeWrapper SimpleAuth) :
    Shows id { s with episodes := s.episodes.insert id ew } (m.insert id ew.episode) :=
  (congrArg _ ExtTreeMap.getElem?_insert_self).trans ExtTreeMap.getElem?_insert_self.symm

theorem record_of_callsOf (h : callsOf id calls = []) :
    (calls.foldl HttpAuthHandler.record m)[id]? = m[id]? := by
  induction calls generalizing m with
  | nil => rfl
  | cons call calls ih =>
    have hcalls := List.filter_eq_nil_iff.mp h
    have hother : call.episodeId ≠ id :=
      fun hid => hcalls call List.mem_cons_self (decide_eq_true hid)
    have hrest : callsOf id calls = [] :=
      List.filter_eq_nil_iff.mpr fun c hc => hcalls c (List.mem_cons_of_mem call hc)
    rw [List.foldl_cons, ih hrest]
    cases call with
    | onInitialize id' g => exact getElem?_insert_of_ne hother g
    | onCommand id' g cmd auth md => exact getElem?_insert_of_ne hother g
    | onRollback id' g => rfl

/-- Nobody else opens an episode under the id, or has a signature of the participant. -/
def Foreign (id : EpisodeId) (pk : PubKey) (a : EpisodeMessage SimpleAuth) : Prop :=
  (∀ ps, a ≠ .newEpisode id ps) ∧
    ∀ cmd sig, a = .signedCommand id cmd pk sig → ¬ a.SignatureValid

theorem Shows.foreign (h : Shows id s m) (hout : s.Handles md a out)
    (hrevert : ∀ id', a ≠ .revert id') (hforeign : Foreign id pk a)
    (hg : ∀ g, m[id]? = some g → g.authorizedParticipants = [pk]) :
    Shows id out.engine (out.calls.foldl HttpAuthHandler.record m) ∧
      (out.calls.foldl HttpAuthHandler.record m)[id]? = m[id]? := by
  by_cases hid : a.episodeId = id
  · subst hid
    cases hout with
    | @known id' ps hmem => exact absurd rfl (hforeign.1 ps)
    | @created id' ps g world hmem hinit => exact absurd rfl (hforeign.1 ps)
    | missing hnew hmem => exact ⟨h, rfl⟩
    | forged hmem => exact ⟨h, rfl⟩
    | @rejected _ cmd auth ew g e world hcmd hsig hew hexec =>
      -- a rejected command leaves the episode as it was
      have hsame : g = ew.episode := by
        rcases ew.episode.execute_cases ⟨cmd, auth, md, s.world⟩ with
          ⟨-, e', hcase⟩ | ⟨pk', -, hcase⟩
        · exact (Prod.mk.inj ((executed_eq hexec).1.symm.trans hcase)).1
        · cases (executed_eq hexec).1.symm.trans hcase
      subst hsame
      refine ⟨?_, rfl⟩
      unfold Shows at h ⊢
      rw [List.foldl_nil, ← h, hew]
      exact congrArg _ ExtTreeMap.getElem?_insert_self
    | @executed _ cmd auth ew g rb world hcmd hsig hew hexec =>
      -- the participant is the only one authorised, and nobody else has a signature of its key
      exfalso
      rcases ew.episode.execute_cases ⟨cmd, auth, md, s.world⟩ with
        ⟨-, e', hcase⟩ | ⟨pk', hadmits, -⟩
      · cases (executed_eq hexec).1.symm.trans hcase
      have hmembers : ew.episode.authorizedParticipants = [pk] := by
        apply hg
        rw [← h, hew]
        rfl
      have hpk : pk' = pk := by
        have hmem := hadmits.authorized
        rw [hmembers] at hmem
        exact List.mem_singleton.mp hmem
      subst hpk
      obtain rfl : auth = some pk' := hadmits.signed
      cases a with
      | signedCommand id' cmd' pk' sig =>
        cases hcmd
        exact hforeign.2 _ _ rfl hsig
      | newEpisode => cases hcmd
      | unsignedCommand => cases hcmd
      | revert => cases hcmd
    | popped => exact absurd rfl (hrevert _)
    | deleted => exact absurd rfl (hrevert _)
  · obtain ⟨hsame, hcalls, -⟩ := hout.other hid
    have hrecord := record_of_callsOf (m := m) hcalls
    refine ⟨?_, hrecord⟩
    unfold Shows at h ⊢
    rw [hrecord, ← hsame.episode, h]

theorem Shows.reverted {hash : Hash} (h : Shows id s m)
    (hentries : ∀ entries, s.revertMap[hash]? = some entries → revertsOf id entries = [])
    (hrun : s.revertBlock hash = .ok (t, calls)) :
    Shows id t (calls.foldl HttpAuthHandler.record m) ∧
      (calls.foldl HttpAuthHandler.record m)[id]? = m[id]? := by
  unfold Engine.revertBlock at hrun
  split at hrun
  · rename_i entries hsome
    have hown := Engine.revertEntries_own id hrun
    rw [Engine.own_map_reversal, revertsOf, List.filter_reverse, ← revertsOf,
      hentries entries hsome] at hown
    generalize hc : callsOf id calls = c at hown
    cases hown with
    | idle hsame =>
      have hrecord := record_of_callsOf (m := m) hc
      refine ⟨?_, hrecord⟩
      unfold Shows at h ⊢
      rw [hrecord, ← hsame.episode]
      exact h
  · cases hrun
    exact ⟨h, rfl⟩

end Organizer

end KaspaAuth
end Kdapp
