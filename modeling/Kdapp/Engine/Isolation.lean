import Kdapp.Engine.Run

/-! Two runs that give one episode the same messages, whatever they give the others. -/

namespace Kdapp
open Outcome FiniteMap
open Std (ExtTreeMap)

variable [Crypto] {G R : Type} [Episode G]

/-- Only an initialisation looks at the world, and takes nothing from it but what `reads` shows. -/
structure Episode.WorldBlind (G : Type) [Episode G] (reads : G → R) : Prop where
  initializeWith : ∀ ps md w₁ w₂ (g₁ g₂ : G) w₁' w₂',
    (Episode.initializeWith ps md).run w₁ = .ok (g₁, w₁') →
      (Episode.initializeWith ps md).run w₂ = .ok (g₂, w₂') → reads g₁ = reads g₂ → g₁ = g₂
  execute : ∀ (g : G) cmd auth md, Blind (Episode.execute g cmd auth md)
  rollback : ∀ (g : G) r, Blind (Episode.rollback g r)

theorem EngineM.ofEpisode_blind {α : Type}
    {x : StateT (Episode.World G) (Except (Episode.Fault G)) α} (h : Blind x) :
    Blind (EngineM.ofEpisode x) :=
  fun _ _ _ _ _ _ hs ht => h (EngineM.ofEpisode_ok hs) (EngineM.ofEpisode_ok ht)

namespace EpisodeWrapper
variable {reads : G → R} (hG : Episode.WorldBlind G reads)
include hG

theorem execute_blind (self : EpisodeWrapper G) (cmd : Episode.Command G) (auth : Option PubKey)
    (md : PayloadMetadata) : Blind (self.execute cmd auth md) := by
  refine (EngineM.ofEpisode_blind (hG.execute self.episode cmd auth md)).bind ?_
  rintro ⟨g, r | e⟩
  · exact blind_pure _
  · exact blind_pure _

theorem executeSigned_blind (self : EpisodeWrapper G) (cmd : Episode.Command G) (pk : PubKey)
    (sig : Sig) (md : PayloadMetadata) : Blind (self.executeSigned cmd pk sig md) := by
  unfold executeSigned
  split
  · exact blind_throw _
  · split
    · exact execute_blind hG self cmd (some pk) md
    · exact blind_pure _

theorem rollback_blind (self : EpisodeWrapper G) : Blind self.rollback := by
  unfold rollback
  split
  · exact (EngineM.ofEpisode_blind (hG.rollback self.episode _)).bind fun _ => blind_pure _
  · exact blind_pure _

end EpisodeWrapper

def Engine.isFor (G : Type) [Episode G] (id : EpisodeId)
    (tx : Hash × Borsh.Bytes × Option (List TxOutputInfo)) : Bool :=
  (action tx.2.1 : Option (EpisodeMessage G)).any fun a => a.episodeId = id

/-- A message of the listener without the transactions for other episodes. -/
def EngineMsg.addressedTo (G : Type) [Episode G] (id : EpisodeId) : EngineMsg → EngineMsg
  | .blkAccepted blk =>
    .blkAccepted { blk with associatedTxs := blk.associatedTxs.filter (Engine.isFor G id) }
  | msg => msg

namespace HandlerCall

def episodeId : HandlerCall G → EpisodeId
  | .onInitialize id _ | .onCommand id _ _ _ _ | .onRollback id _ => id

end HandlerCall

namespace Engine

def callsOf (id : EpisodeId) (calls : List (HandlerCall G)) : List (HandlerCall G) :=
  calls.filter fun call => call.episodeId = id

theorem callsOf_append (id : EpisodeId) (calls calls' : List (HandlerCall G)) :
    callsOf id (calls ++ calls') = callsOf id calls ++ callsOf id calls' := List.filter_append ..

def created (id : EpisodeId) (calls : List (HandlerCall G)) : List G :=
  (callsOf id calls).filterMap fun
    | .onInitialize _ g => some g
    | _ => none

theorem created_append (id : EpisodeId) (calls calls' : List (HandlerCall G)) :
    created id (calls ++ calls') = created id calls ++ created id calls' := by
  rw [created, callsOf_append, List.filterMap_append]
  rfl

theorem created_onInitialize (id : EpisodeId) (g : G) (calls : List (HandlerCall G)) :
    created id (.onInitialize id g :: calls) = g :: created id calls := by
  simp [created, callsOf, HandlerCall.episodeId]

def revertsOf (id : EpisodeId) (entries : List Reversion) : List Reversion :=
  entries.filter fun e => e.1 = id

structure Same (id : EpisodeId) (s t : Engine G) : Prop where
  episode : s.episodes[id]? = t.episodes[id]?
  creationTime : s.episodeCreationTimes[id]? = t.episodeCreationTimes[id]?
  nextFiltering : s.nextFiltering = t.nextFiltering
  reverts : ∀ hash : Hash,
    (s.revertMap[hash]?).map (revertsOf id) = (t.revertMap[hash]?).map (revertsOf id)

namespace Same
variable {id : EpisodeId} {s t u : Engine G}

theorem rfl : Same id s s := ⟨.refl _, .refl _, .refl _, fun _ => .refl _⟩

theorem symm (h : Same id s t) : Same id t s :=
  ⟨h.episode.symm, h.creationTime.symm, h.nextFiltering.symm, fun hash => (h.reverts hash).symm⟩

theorem trans (h : Same id s t) (h' : Same id t u) : Same id s u :=
  ⟨h.episode.trans h'.episode, h.creationTime.trans h'.creationTime,
    h.nextFiltering.trans h'.nextFiltering, fun hash => (h.reverts hash).trans (h'.reverts hash)⟩

end Same

section Step
variable {id : EpisodeId} {s s₁ s₂ : Engine G} {a : EpisodeMessage G} {md : PayloadMetadata}
  {out out₁ out₂ : Handled G}

theorem Handles.own (h : s.Handles md a out) :
    (∀ call ∈ out.calls, call.episodeId = a.episodeId) ∧
      ∀ e ∈ out.revert.toList, e.1 = a.episodeId := by
  cases h with
  | known | missing | forged | rejected => exact ⟨nofun, nofun⟩
  | created | executed =>
    refine ⟨fun call hcall => ?_, fun e he => ?_⟩
    · exact congrArg HandlerCall.episodeId (List.mem_singleton.mp hcall)
    · exact congrArg Prod.fst (List.mem_singleton.mp he)
  | popped | deleted =>
    refine ⟨fun call hcall => ?_, nofun⟩
    exact congrArg HandlerCall.episodeId (List.mem_singleton.mp hcall)

theorem Handles.other (h : s.Handles md a out) (ha : a.episodeId ≠ id) :
    Same id s out.engine ∧ callsOf id out.calls = [] ∧ revertsOf id out.revert.toList = [] := by
  obtain ⟨hcalls, hreverts⟩ := h.own
  refine ⟨?_, ?_, ?_⟩
  · have hne : ¬ compare a.episodeId id = .eq := fun he => ha (Std.LawfulEqOrd.eq_of_compare he)
    cases h with
    | known | missing | forged => exact .rfl
    | created => exact ⟨(ExtTreeMap.getElem?_insert.trans (if_neg hne)).symm,
        (ExtTreeMap.getElem?_insert.trans (if_neg hne)).symm, rfl, fun _ => rfl⟩
    | rejected | executed | popped =>
      exact ⟨(ExtTreeMap.getElem?_insert.trans (if_neg hne)).symm, rfl, rfl, fun _ => rfl⟩
    | deleted => exact ⟨(ExtTreeMap.getElem?_erase.trans (if_neg hne)).symm,
        (ExtTreeMap.getElem?_erase.trans (if_neg hne)).symm, rfl, fun _ => rfl⟩
  · refine List.filter_eq_nil_iff.mpr fun call hcall hid => ha ?_
    rw [← hcalls call hcall, of_decide_eq_true hid]
  · refine List.filter_eq_nil_iff.mpr fun e he hid => ha ?_
    rw [← hreverts e he, of_decide_eq_true hid]

theorem Same.insert (h : Same id s₁ s₂) (w : EpisodeWrapper G) (w₁ w₂ : Episode.World G) :
    Same id { s₁ with episodes := s₁.episodes.insert id w, world := w₁ }
      { s₂ with episodes := s₂.episodes.insert id w, world := w₂ } where
  episode := ExtTreeMap.getElem?_insert_self.trans ExtTreeMap.getElem?_insert_self.symm
  creationTime := h.creationTime
  nextFiltering := h.nextFiltering
  reverts := h.reverts

theorem handleCommand_same (h : Same id s₁ s₂) {cmd : Episode.Command G} {auth : Option PubKey}
    {exec : EpisodeWrapper G →
      EngineM G (EpisodeWrapper G × Except (EpisodeError (Episode.CommandError G)) Unit)}
    (hexec : ∀ w, Blind (exec w)) (h₁ : s₁.handleCommand id cmd auth md exec = .ok out₁)
    (h₂ : s₂.handleCommand id cmd auth md exec = .ok out₂) :
    Same id out₁.engine out₂.engine ∧ out₁.calls = out₂.calls ∧ out₁.revert = out₂.revert := by
  unfold handleCommand at h₁ h₂
  rw [h.episode] at h₁
  cases hw : s₂.episodes[id]? with
  | none =>
    rw [hw] at h₁ h₂
    cases h₁
    cases h₂
    exact ⟨h, rfl, rfl⟩
  | some w =>
    rw [hw] at h₁ h₂
    obtain ⟨⟨⟨ew, res⟩, w₁⟩, hx₁, hr₁⟩ := bind_ok h₁
    obtain ⟨⟨⟨ew', res'⟩, w₂⟩, hx₂, hr₂⟩ := bind_ok h₂
    obtain ⟨rfl, rfl⟩ := Prod.mk.inj (hexec w hx₁ hx₂)
    cases res with
    | ok u =>
      cases hr₁
      cases hr₂
      exact ⟨h.insert ew w₁ w₂, rfl, rfl⟩
    | error e =>
      cases hr₁
      cases hr₂
      exact ⟨h.insert ew w₁ w₂, rfl, rfl⟩

theorem newEpisode_same {reads : G → R} (hG : Episode.WorldBlind G reads) (h : Same id s₁ s₂)
    {ps : List PubKey} {rs₁ rs₂ : List R}
    (h₁ : s₁.handleMessage (.newEpisode id ps) md = .ok out₁)
    (h₂ : s₂.handleMessage (.newEpisode id ps) md = .ok out₂)
    (hreads : (created id out₁.calls).map reads ++ rs₁ = (created id out₂.calls).map reads ++ rs₂) :
    Same id out₁.engine out₂.engine ∧ out₁.calls = out₂.calls ∧ out₁.revert = out₂.revert := by
  have hcontains : s₁.episodes.contains id = s₂.episodes.contains id := by
    rw [ExtTreeMap.contains_eq_isSome_getElem?, ExtTreeMap.contains_eq_isSome_getElem?, h.episode]
  rw [handleMessage, hcontains] at h₁
  rw [handleMessage] at h₂
  by_cases hin : s₂.episodes.contains id = true
  · rw [if_pos hin] at h₁ h₂
    cases h₁
    cases h₂
    exact ⟨h, rfl, rfl⟩
  · rw [if_neg hin] at h₁ h₂
    obtain ⟨⟨⟨g₁, stack₁⟩, w₁⟩, hx₁, hr₁⟩ := bind_ok h₁
    obtain ⟨⟨⟨g₂, stack₂⟩, w₂⟩, hx₂, hr₂⟩ := bind_ok h₂
    obtain ⟨hinit₁, rfl⟩ := EpisodeWrapper.initializeWith_ok hx₁
    obtain ⟨hinit₂, rfl⟩ := EpisodeWrapper.initializeWith_ok hx₂
    cases hr₁
    cases hr₂
    -- the worlds may differ; what was read of them is the same
    have hg : g₁ = g₂ := by
      apply hG.initializeWith ps md _ _ g₁ g₂ w₁ w₂ hinit₁ hinit₂
      simp only [created_onInitialize, List.map_cons, List.cons_append] at hreads
      exact (List.cons.inj hreads).1
    rw [hg]
    refine ⟨⟨?_, ?_, h.nextFiltering, h.reverts⟩, rfl, rfl⟩
    · exact ExtTreeMap.getElem?_insert_self.trans ExtTreeMap.getElem?_insert_self.symm
    · exact ExtTreeMap.getElem?_insert_self.trans ExtTreeMap.getElem?_insert_self.symm

theorem revert_same {reads : G → R} (hG : Episode.WorldBlind G reads) (h : Same id s₁ s₂)
    (h₁ : s₁.handleMessage (.revert id) md = .ok out₁)
    (h₂ : s₂.handleMessage (.revert id) md = .ok out₂) :
    Same id out₁.engine out₂.engine ∧ out₁.calls = out₂.calls ∧ out₁.revert = out₂.revert := by
  rw [handleMessage, h.episode] at h₁
  rw [handleMessage] at h₂
  cases hw : s₂.episodes[id]? with
  | none =>
    rw [hw] at h₁ h₂
    cases h₁
    cases h₂
    exact ⟨h, rfl, rfl⟩
  | some w =>
    rw [hw] at h₁ h₂
    obtain ⟨⟨⟨ew, res⟩, w₁⟩, hx₁, hr₁⟩ := bind_ok h₁
    obtain ⟨⟨⟨ew', res'⟩, w₂⟩, hx₂, hr₂⟩ := bind_ok h₂
    obtain ⟨rfl, rfl⟩ := Prod.mk.inj (EpisodeWrapper.rollback_blind hG w hx₁ hx₂)
    rcases EpisodeWrapper.rollback_ok hx₁ with ⟨r, b, -, -, rfl⟩ | ⟨-, -, -, rfl⟩
    · cases hr₁
      cases hr₂
      exact ⟨h.insert ew w₁ w₂, rfl, rfl⟩
    · cases hr₁
      cases hr₂
      refine ⟨⟨?_, ?_, h.nextFiltering, h.reverts⟩, rfl, rfl⟩
      · exact ExtTreeMap.getElem?_erase_self.trans ExtTreeMap.getElem?_erase_self.symm
      · exact ExtTreeMap.getElem?_erase_self.trans ExtTreeMap.getElem?_erase_self.symm

theorem handleMessage_same {reads : G → R} (hG : Episode.WorldBlind G reads) (h : Same id s₁ s₂)
    (hid : a.episodeId = id) {rs₁ rs₂ : List R}
    (h₁ : s₁.handleMessage a md = .ok out₁) (h₂ : s₂.handleMessage a md = .ok out₂)
    (hreads : (created id out₁.calls).map reads ++ rs₁ = (created id out₂.calls).map reads ++ rs₂) :
    Same id out₁.engine out₂.engine ∧ out₁.calls = out₂.calls ∧ out₁.revert = out₂.revert := by
  cases a with
  | newEpisode id' ps =>
    obtain rfl : id' = id := hid
    exact newEpisode_same hG h h₁ h₂ hreads
  | signedCommand id' cmd pk sig =>
    obtain rfl : id' = id := hid
    have hexec w := EpisodeWrapper.executeSigned_blind hG w cmd pk sig md
    exact handleCommand_same h hexec h₁ h₂
  | unsignedCommand id' cmd =>
    obtain rfl : id' = id := hid
    have hexec w := EpisodeWrapper.execute_blind hG w cmd none md
    exact handleCommand_same h hexec h₁ h₂
  | revert id' =>
    obtain rfl : id' = id := hid
    exact revert_same hG h h₁ h₂

end Step

def own (id : EpisodeId) (as : List (EpisodeMessage G × PayloadMetadata)) :
    List (EpisodeMessage G × PayloadMetadata) :=
  as.filter fun a => a.1.episodeId = id

/-- From one engine to another by messages to one episode, with steps between them that leave
the episode alone. -/
inductive OwnSteps (id : EpisodeId) : List (EpisodeMessage G × PayloadMetadata) → Engine G →
    Engine G → List (HandlerCall G) → List Reversion → Prop
  | idle {s t} (h : Same id s t) : OwnSteps id [] s t [] []
  | step {a md as s u out t calls reverts} (hid : a.episodeId = id) (h : Same id s u)
    (hout : u.handleMessage a md = .ok out) (htail : OwnSteps id as out.engine t calls reverts) :
    OwnSteps id ((a, md) :: as) s t (out.calls ++ calls) (out.revert.toList ++ reverts)

namespace OwnSteps
variable {id : EpisodeId} {as : List (EpisodeMessage G × PayloadMetadata)} {s t u : Engine G}
  {calls : List (HandlerCall G)} {reverts : List Reversion}

theorem of_same (h : Same id s u) (hu : OwnSteps id as u t calls reverts) :
    OwnSteps id as s t calls reverts := by
  cases hu with
  | idle hut => exact .idle (h.trans hut)
  | step hid huv hout htail => exact .step hid (h.trans huv) hout htail

theorem cons {a : EpisodeMessage G} {md : PayloadMetadata} {out : Handled G}
    (hout : s.handleMessage a md = .ok out)
    (htail : OwnSteps id (own id as) out.engine t (callsOf id calls) (revertsOf id reverts)) :
    OwnSteps id (own id ((a, md) :: as)) s t (callsOf id (out.calls ++ calls))
      (revertsOf id (out.revert.toList ++ reverts)) := by
  have hhandles := handleMessage_ok hout
  rw [callsOf_append, revertsOf, List.filter_append]
  by_cases hid : a.episodeId = id
  · obtain ⟨hcalls, hreverts⟩ := hhandles.own
    have hc : callsOf id out.calls = out.calls :=
      List.filter_eq_self.mpr fun call hcall => decide_eq_true ((hcalls call hcall).trans hid)
    have hr : out.revert.toList.filter (fun e => e.1 = id) = out.revert.toList :=
      List.filter_eq_self.mpr fun e he => decide_eq_true ((hreverts e he).trans hid)
    have hown : own id ((a, md) :: as) = (a, md) :: own id as :=
      List.filter_cons_of_pos (decide_eq_true hid)
    rw [hc, hr, hown]
    exact .step hid .rfl hout htail
  · obtain ⟨hsame, hc, hr⟩ := hhandles.other hid
    have hown : own id ((a, md) :: as) = own id as :=
      List.filter_cons_of_neg (by simpa using hid)
    rw [hc, ← revertsOf, hr, hown]
    exact of_same hsame htail

theorem agree {reads : G → R} (hG : Episode.WorldBlind G reads) {s₁ s₂ t₁ t₂ : Engine G}
    {calls₁ calls₂ : List (HandlerCall G)} {reverts₁ reverts₂ : List Reversion} {rs₁ rs₂ : List R}
    (h₁ : OwnSteps id as s₁ t₁ calls₁ reverts₁) (h₂ : OwnSteps id as s₂ t₂ calls₂ reverts₂)
    (h : Same id s₁ s₂)
    (hreads : (created id calls₁).map reads ++ rs₁ = (created id calls₂).map reads ++ rs₂) :
    Same id t₁ t₂ ∧ calls₁ = calls₂ ∧ reverts₁ = reverts₂ := by
  -- both make the same own steps; what lies between two of them leaves the episode alone
  induction h₁ generalizing s₂ calls₂ reverts₂ with
  | idle hst =>
    cases h₂ with
    | idle hst₂ => exact ⟨hst.symm.trans (h.trans hst₂), rfl, rfl⟩
  | step hid hsu hout htail ih =>
    cases h₂ with
    | step _ hsu₂ hout₂ htail₂ =>
      simp only [created_append, List.map_append, List.append_assoc] at hreads
      obtain ⟨hsame, hcalls, hrevert⟩ :=
        handleMessage_same hG (hsu.symm.trans (h.trans hsu₂)) hid hout hout₂ hreads
      rw [hcalls] at hreads ⊢
      obtain ⟨hfinal, hcalls', hreverts'⟩ := ih htail₂ hsame (List.append_cancel_left hreads)
      rw [hrevert, hcalls', hreverts']
      exact ⟨hfinal, rfl, rfl⟩

end OwnSteps

theorem own_actions (id : EpisodeId) (blk : BlkAccepted)
    (txs : List (Hash × Borsh.Bytes × Option (List TxOutputInfo))) :
    own id (actions blk txs) =
      (actions blk (txs.filter (isFor G id)) : List (EpisodeMessage G × _)) := by
  induction txs with
  | nil => rfl
  | cons tx txs ih =>
    cases ha : (action tx.2.1 : Option (EpisodeMessage G)) with
    | none =>
      have hfor : ¬ isFor G id tx = true := by simp [isFor, ha]
      rw [actions_cons_none ha, List.filter_cons_of_neg hfor]
      exact ih
    | some a =>
      rw [actions_cons_some ha]
      by_cases hid : a.episodeId = id
      · have hfor : isFor G id tx = true := by simp [isFor, ha, hid]
        rw [List.filter_cons_of_pos hfor, actions_cons_some ha, ← ih]
        exact List.filter_cons_of_pos (decide_eq_true hid)
      · have hfor : ¬ isFor G id tx = true := by simp [isFor, ha, hid]
        rw [List.filter_cons_of_neg hfor, ← ih]
        exact List.filter_cons_of_neg (by simpa using hid)

theorem acceptTxs_own (id : EpisodeId) {blk : BlkAccepted}
    {txs : List (Hash × Borsh.Bytes × Option (List TxOutputInfo))} {s t : Engine G}
    {reverts : List Reversion} {calls : List (HandlerCall G)}
    (h : acceptTxs blk txs s = .ok (t, reverts, calls)) :
    OwnSteps id (own id (actions blk txs)) s t (callsOf id calls) (revertsOf id reverts) := by
  induction txs generalizing s reverts calls with
  | nil =>
    cases h
    exact .idle .rfl
  | cons tx txs ih =>
    cases ha : (action tx.2.1 : Option (EpisodeMessage G)) with
    | none =>
      rw [acceptTxs_skip txs s ha] at h
      rw [actions_cons_none ha]
      exact ih h
    | some a =>
      obtain ⟨out, reverts', calls', hout, htail, rfl, rfl⟩ := acceptTxs_action ha h
      rw [actions_cons_some ha]
      exact .cons hout (ih htail)

def reversal (G : Type) [Episode G] (hash : Hash) (e : Reversion) :
    EpisodeMessage G × PayloadMetadata :=
  (.revert e.1, { e.2 with acceptingHash := hash })

theorem own_map_reversal (id : EpisodeId) (hash : Hash) (es : List Reversion) :
    own id (es.map (reversal G hash)) = (revertsOf id es).map (reversal G hash) := by
  rw [own, List.filter_map]
  rfl

theorem revertEntries_own (id : EpisodeId) {hash : Hash} {es : List Reversion} {s t : Engine G}
    {calls : List (HandlerCall G)} (h : revertEntries hash es s = .ok (t, calls)) :
    OwnSteps id (own id (es.map (reversal G hash))) s t (callsOf id calls) (revertsOf id []) := by
  induction es generalizing s calls with
  | nil =>
    cases h
    exact .idle .rfl
  | cons e es ih =>
    obtain ⟨u, c, c', hout, htail, rfl⟩ := revertEntries_cons_ok h
    exact .cons hout (ih htail)

section Runs
variable {reads : G → R} (hG : Episode.WorldBlind G reads) {id : EpisodeId} {s₁ s₂ t₁ t₂ : Engine G}
  {calls₁ calls₂ : List (HandlerCall G)} {rs₁ rs₂ : List R}

theorem created_callsOf (calls : List (HandlerCall G)) :
    created id (callsOf id calls) = created id calls := by
  rw [created, callsOf, callsOf, List.filter_filter]
  simp only [Bool.and_self]
  rfl

theorem Same.filterOldEpisodes (h : Same id s₁ s₂) (daaScore : UInt64) :
    Same id (s₁.filterOldEpisodes daaScore) (s₂.filterOldEpisodes daaScore) := by
  have hdue : s₁.filteringDue daaScore ↔ s₂.filteringDue daaScore := by
    rw [filteringDue, filteringDue, h.nextFiltering]
  have hexp : s₁.Expires daaScore id ↔ s₂.Expires daaScore id := by
    rw [Expires, Expires, mem_removeIds, mem_removeIds, h.creationTime, hdue]
  have hnext : (s₁.filterOldEpisodes daaScore).nextFiltering =
      (s₂.filterOldEpisodes daaScore).nextFiltering := by
    by_cases hd : s₁.filteringDue daaScore
    · rw [filterOldEpisodes_due hd, filterOldEpisodes_due (hdue.mp hd)]
    · rw [filterOldEpisodes_not_due hd, filterOldEpisodes_not_due (mt hdue.mpr hd)]
      exact h.nextFiltering
  have hreverts := h.reverts
  rw [← (filterOldEpisodes_frame s₁ daaScore).1, ← (filterOldEpisodes_frame s₂ daaScore).1]
    at hreverts
  by_cases he : s₁.Expires daaScore id
  · obtain ⟨hep₁, hct₁⟩ := filterOldEpisodes_expired he
    obtain ⟨hep₂, hct₂⟩ := filterOldEpisodes_expired (hexp.mp he)
    exact ⟨hep₁.trans hep₂.symm, hct₁.trans hct₂.symm, hnext, hreverts⟩
  · obtain ⟨hep₁, hct₁⟩ := filterOldEpisodes_kept he
    obtain ⟨hep₂, hct₂⟩ := filterOldEpisodes_kept (mt hexp.mpr he)
    exact ⟨hep₁.trans (h.episode.trans hep₂.symm),
      hct₁.trans (h.creationTime.trans hct₂.symm), hnext, hreverts⟩

theorem Same.insert_revertMap (h : Same id s₁ s₂) (hash : Hash)
    {reverts₁ reverts₂ : List Reversion}
    (hreverts : revertsOf id reverts₁ = revertsOf id reverts₂) :
    Same id { s₁ with revertMap := s₁.revertMap.insert hash reverts₁ }
      { s₂ with revertMap := s₂.revertMap.insert hash reverts₂ } where
  episode := h.episode
  creationTime := h.creationTime
  nextFiltering := h.nextFiltering
  reverts hash' := by
    rw [ExtTreeMap.getElem?_insert, ExtTreeMap.getElem?_insert]
    split
    · exact congrArg some hreverts
    · exact h.reverts hash'

theorem Same.erase_revertMap (h : Same id s₁ s₂) (hash : Hash) :
    Same id { s₁ with revertMap := s₁.revertMap.erase hash }
      { s₂ with revertMap := s₂.revertMap.erase hash } where
  episode := h.episode
  creationTime := h.creationTime
  nextFiltering := h.nextFiltering
  reverts hash' := by
    rw [ExtTreeMap.getElem?_erase, ExtTreeMap.getElem?_erase]
    split
    · rfl
    · exact h.reverts hash'

include hG

theorem acceptBlock_same {blk₁ blk₂ : BlkAccepted}
    (hblk : (EngineMsg.blkAccepted blk₁).addressedTo G id =
      (EngineMsg.blkAccepted blk₂).addressedTo G id)
    (h : Same id s₁ s₂) (h₁ : s₁.acceptBlock blk₁ = .ok (t₁, calls₁))
    (h₂ : s₂.acceptBlock blk₂ = .ok (t₂, calls₂))
    (hreads : (created id calls₁).map reads ++ rs₁ = (created id calls₂).map reads ++ rs₂) :
    Same id t₁ t₂ ∧ callsOf id calls₁ = callsOf id calls₂ := by
  obtain ⟨hash, daa, time, txs₁⟩ := blk₁
  obtain ⟨hash₂, daa₂, time₂, txs₂⟩ := blk₂
  obtain ⟨rfl, rfl, rfl, htxs⟩ := BlkAccepted.mk.inj (EngineMsg.blkAccepted.inj hblk)
  obtain ⟨u₁, reverts₁, hx₁, rfl⟩ := acceptBlock_ok h₁
  obtain ⟨u₂, reverts₂, hx₂, rfl⟩ := acceptBlock_ok h₂
  have hown₁ := acceptTxs_own id hx₁
  have hown₂ := acceptTxs_own id hx₂
  rw [own_actions] at hown₁ hown₂
  rw [show txs₁.filter (isFor G id) = txs₂.filter (isFor G id) from htxs] at hown₁
  rw [← created_callsOf calls₁, ← created_callsOf calls₂] at hreads
  obtain ⟨hu, hcalls, hreverts⟩ := hown₁.agree hG hown₂ (h.filterOldEpisodes daa) hreads
  exact ⟨hu.insert_revertMap hash hreverts, hcalls⟩

theorem revertBlock_same {hash : Hash} (h : Same id s₁ s₂)
    (h₁ : s₁.revertBlock hash = .ok (t₁, calls₁)) (h₂ : s₂.revertBlock hash = .ok (t₂, calls₂))
    (hreads : (created id calls₁).map reads ++ rs₁ = (created id calls₂).map reads ++ rs₂) :
    Same id t₁ t₂ ∧ callsOf id calls₁ = callsOf id calls₂ := by
  have hentries := h.reverts hash
  unfold revertBlock at h₁ h₂
  cases hrv₁ : s₁.revertMap[hash]? with
  | none =>
    rw [hrv₁] at hentries h₁
    cases hrv₂ : s₂.revertMap[hash]? with
    | none =>
      rw [hrv₂] at h₂
      cases h₁
      cases h₂
      exact ⟨h, rfl⟩
    | some reverts₂ =>
      rw [hrv₂] at hentries
      cases hentries
  | some reverts₁ =>
    rw [hrv₁] at hentries h₁
    cases hrv₂ : s₂.revertMap[hash]? with
    | none =>
      rw [hrv₂] at hentries
      cases hentries
    | some reverts₂ =>
      rw [hrv₂] at hentries h₂
      -- the entries of the episode are the same, in whatever company they were recorded
      have hrev : revertsOf id reverts₁.reverse = revertsOf id reverts₂.reverse := by
        rw [revertsOf, revertsOf, List.filter_reverse, List.filter_reverse]
        exact congrArg List.reverse (Option.some.inj hentries)
      have hown₁ := revertEntries_own id h₁
      have hown₂ := revertEntries_own id h₂
      rw [own_map_reversal] at hown₁ hown₂
      rw [hrev] at hown₁
      rw [← created_callsOf calls₁, ← created_callsOf calls₂] at hreads
      obtain ⟨ht, hcalls, -⟩ := hown₁.agree hG hown₂ (h.erase_revertMap hash) hreads
      exact ⟨ht, hcalls⟩

/-- Two runs that give an episode the same messages in the same blocks and whose creations of
it read the same have the same callbacks for it and leave it with the same contents. -/
theorem start_same {msgs₁ msgs₂ : List EngineMsg}
    (hmsgs : msgs₁.map (EngineMsg.addressedTo G id) = msgs₂.map (EngineMsg.addressedTo G id))
    (h : Same id s₁ s₂) (h₁ : start msgs₁ s₁ = .ok (t₁, calls₁))
    (h₂ : start msgs₂ s₂ = .ok (t₂, calls₂))
    (hreads : (created id calls₁).map reads = (created id calls₂).map reads) :
    Same id t₁ t₂ ∧ callsOf id calls₁ = callsOf id calls₂ := by
  induction msgs₁ generalizing msgs₂ s₁ s₂ calls₁ calls₂ with
  | nil =>
    obtain rfl := List.map_eq_nil_iff.mp hmsgs.symm
    cases h₁
    cases h₂
    exact ⟨h, rfl⟩
  | cons m₁ msgs₁ ih =>
    cases msgs₂ with
    | nil => cases hmsgs
    | cons m₂ msgs₂ =>
      obtain ⟨hm, hrest⟩ := List.cons.inj hmsgs
      -- once the first messages have led to the same callbacks, what is read is cut in two there
      have hnext {u₁ u₂ c₁ c₂ d₁ d₂} (hu : Same id u₁ u₂ ∧ callsOf id c₁ = callsOf id c₂)
          (hy₁ : start msgs₁ u₁ = .ok (t₁, d₁)) (hy₂ : start msgs₂ u₂ = .ok (t₂, d₂))
          (hreads : (created id c₁).map reads ++ (created id d₁).map reads =
            (created id c₂).map reads ++ (created id d₂).map reads) :
          Same id t₁ t₂ ∧ callsOf id (c₁ ++ d₁) = callsOf id (c₂ ++ d₂) := by
        obtain ⟨hsame, hc⟩ := hu
        rw [← created_callsOf c₁, hc, created_callsOf] at hreads
        obtain ⟨ht, hd⟩ := ih hrest hsame hy₁ hy₂ (List.append_cancel_left hreads)
        rw [callsOf_append, callsOf_append, hc, hd]
        exact ⟨ht, rfl⟩
      cases m₁ with
      | blkAccepted blk₁ =>
        cases m₂ with
        | blkAccepted blk₂ =>
          obtain ⟨u₁, c₁, d₁, hx₁, hy₁, rfl⟩ := start_blkAccepted_ok h₁
          obtain ⟨u₂, c₂, d₂, hx₂, hy₂, rfl⟩ := start_blkAccepted_ok h₂
          rw [created_append, created_append, List.map_append, List.map_append] at hreads
          exact hnext (acceptBlock_same hG hm h hx₁ hx₂ hreads) hy₁ hy₂ hreads
        | blkReverted hash => cases hm
        | exit => cases hm
      | blkReverted hash =>
        cases m₂ with
        | blkAccepted blk₂ => cases hm
        | blkReverted hash₂ =>
          obtain rfl := EngineMsg.blkReverted.inj hm
          obtain ⟨u₁, c₁, d₁, hx₁, hy₁, rfl⟩ := start_blkReverted_ok h₁
          obtain ⟨u₂, c₂, d₂, hx₂, hy₂, rfl⟩ := start_blkReverted_ok h₂
          rw [created_append, created_append, List.map_append, List.map_append] at hreads
          exact hnext (revertBlock_same hG h hx₁ hx₂ hreads) hy₁ hy₂ hreads
        | exit => cases hm
      | exit =>
        cases m₂ with
        | blkAccepted blk₂ => cases hm
        | blkReverted hash => cases hm
        | exit =>
          cases h₁
          cases h₂
          exact ⟨h, rfl⟩

end Runs

end Engine
end Kdapp
