import Kdapp.CommentIt.Rehydration

/-! A room that came back after a restart, beside the room as those still have it who followed the
chain all along. -/

namespace Kdapp.CommentIt
open FiniteMap
open Std (ExtTreeMap ExtTreeSet)
open CommentBoard (displayKey)
open SignatureVerifier (verify)

variable [Crypto]

theorem displayKey_injective : Function.Injective (displayKey : PubKey → String) := by
  intro pk pk' h
  have hparsed := parsePublicKey_displayKey pk
  rw [h, parsePublicKey_displayKey] at hparsed
  exact (Option.some.inj hparsed).symm

def Comment.content (c : Comment) : String × String × UInt64 := (c.text, c.author, c.timestamp)

namespace AuthWithCommentsEpisode
variable [RandChaCha] {f g g' : AuthWithCommentsEpisode} {pk pk' : PubKey} {md : PayloadMetadata}
  {cmd : UnifiedCommand} {auth : Option PubKey}

inductive Yields (g : AuthWithCommentsEpisode) (md : PayloadMetadata) (cmd : UnifiedCommand)
    (auth : Option PubKey) : AuthWithCommentsEpisode → Prop
  | rejected (h : ∀ pk, ¬ g.Admits auth cmd pk) : Yields g md cmd auth g
  | applied {pk : PubKey} (h : g.Admits auth cmd pk) : Yields g md cmd auth (g.applied pk md cmd)

theorem yields_of_run {res : Except (EpisodeError AuthError) UnifiedRollback} {w w' : Unit}
    (h : (Episode.execute g cmd auth md).run w = .ok ((g', res), w')) :
    g.Yields md cmd auth g' := by
  change Except.ok (g.execute md cmd auth, w) = _ at h
  rcases g.execute_cases md cmd auth with ⟨hnot, e, hrejects⟩ | ⟨pk, hadmits, haccepts⟩
  · rw [hrejects] at h
    cases h
    exact .rejected hnot
  · rw [haccepts] at h
    cases h
    exact .applied hadmits

theorem applied_participants (g : AuthWithCommentsEpisode) (pk : PubKey) (md : PayloadMetadata)
    (cmd : UnifiedCommand) :
    (g.applied pk md cmd).authorizedParticipants = g.authorizedParticipants := by
  cases cmd <;> rfl

theorem applied_limit_other (h : pk' ≠ pk) :
    (g.applied pk' md cmd).isRateLimited pk = g.isRateLimited pk := by
  have hkey : displayKey pk' ≠ displayKey pk := fun heq => h (displayKey_injective heq)
  cases cmd with
  | requestChallenge =>
    unfold isRateLimited applied incrementRateLimit
    dsimp only
    rw [getElem?_insert_of_ne hkey]
  | submitResponse | revokeSession | submitComment => rfl

theorem applied_authenticated_other (h : pk' ≠ pk) :
    displayKey pk ∈ (g.applied pk' md cmd).authenticatedParticipants ↔
      displayKey pk ∈ g.authenticatedParticipants := by
  have hkey : displayKey pk' ≠ displayKey pk := fun heq => h (displayKey_injective heq)
  cases cmd with
  | requestChallenge | submitComment => exact .rfl
  | submitResponse =>
    dsimp only [applied]
    rw [ExtTreeSet.mem_insert]
    exact or_iff_right fun heq => hkey (Std.LawfulEqOrd.eq_of_compare heq)
  | revokeSession =>
    dsimp only [applied]
    rw [ExtTreeSet.mem_erase]
    exact and_iff_right fun heq => hkey (Std.LawfulEqOrd.eq_of_compare heq)

end AuthWithCommentsEpisode

/-- The room of one who was there all along, and what came back of it. -/
structure Shadows (pk : PubKey) (old : List Comment) (f j : AuthWithCommentsEpisode) : Prop where
  creator : pk ∈ f.authorizedParticipants
  alone : j.authorizedParticipants = [pk]
  authored : ∀ c ∈ j.comments, c.author = displayKey pk
  /-- Until the original bars its creator for asking too often. -/
  follows : f.isRateLimited pk = false →
    (j.isRateLimited pk = false → displayKey pk ∈ j.authenticatedParticipants →
      displayKey pk ∈ f.authenticatedParticipants) ∧
    ∃ gained, f.comments = old ++ gained ∧
      (j.comments.map Comment.content).Sublist (gained.map Comment.content)

section Shadows
variable [RandChaCha] {f f' j j' : AuthWithCommentsEpisode} {pk : PubKey} {md : PayloadMetadata}
  {cmd : UnifiedCommand} {auth : Option PubKey} {old : List Comment}

omit [RandChaCha] in
theorem Shadows.reopened (g : AuthWithCommentsEpisode) (hcreator : g.creator = some pk)
    (hfirst : g.creator = g.authorizedParticipants.head?) :
    Shadows pk g.comments g g.reopened where
  creator := List.mem_of_mem_head? (hfirst.symm.trans hcreator)
  alone := by
    unfold AuthWithCommentsEpisode.reopened
    rw [hcreator]
    rfl
  authored c hc := absurd hc List.not_mem_nil
  follows _ :=
    ⟨fun _ hin => absurd hin ExtTreeSet.not_mem_empty, [], (List.append_nil _).symm, .slnil⟩

omit [RandChaCha] in
theorem Shadows.signer (h : Shadows pk old f j) {pk' : PubKey} (hj : j.Admits auth cmd pk') :
    pk' = pk := by
  have hmem := hj.authorized
  rw [h.alone] at hmem
  exact List.mem_singleton.mp hmem

theorem Shadows.gains (h : Shadows pk old f j) (hunlimited : f.isRateLimited pk = false)
    (hf : f.Yields md cmd auth f') (hj : j.Yields md cmd auth j') :
    ∃ more more', f'.comments = f.comments ++ more ∧ j'.comments = j.comments ++ more' ∧
      (more'.map Comment.content).Sublist (more.map Comment.content) := by
  have hsame : f'.comments = f.comments → j'.comments = j.comments →
      ∃ more more', f'.comments = f.comments ++ more ∧ j'.comments = j.comments ++ more' ∧
        (more'.map Comment.content).Sublist (more.map Comment.content) := by
    intro hf hj
    refine ⟨[], [], ?_, ?_, .slnil⟩
    · rw [hf, List.append_nil]
    · rw [hj, List.append_nil]
  cases cmd with
  | requestChallenge | submitResponse | revokeSession =>
    apply hsame
    · cases hf <;> rfl
    · cases hj <;> rfl
  | submitComment text token =>
    cases hj with
    | rejected =>
      cases hf with
      | rejected => exact hsame rfl rfl
      | applied => exact ⟨_, [], rfl, (List.append_nil _).symm, List.nil_sublist _⟩
    | @applied pk' hadmits =>
      obtain rfl := h.signer hadmits
      obtain ⟨hblank, hsize, hin⟩ := hadmits.allowed
      have hcreator : f.Admits auth (.submitComment text token) pk' := {
        signed := hadmits.signed
        authorized := h.creator
        unlimited := hunlimited
        allowed := ⟨hblank, hsize, (h.follows hunlimited).1 hadmits.unlimited hin⟩ }
      cases hf with
      | rejected hnot => exact absurd hcreator (hnot pk')
      | applied hf =>
        obtain rfl := hcreator.unique hf
        exact ⟨_, _, rfl, rfl, List.Sublist.refl _⟩

theorem limit_of_yields {g g' : AuthWithCommentsEpisode} (h : g.Yields md cmd auth g')
    (hopen : g'.isRateLimited pk = false) : g.isRateLimited pk = false := by
  cases h with
  | rejected => exact hopen
  | @applied pk' hadmits =>
    by_cases hpk : pk' = pk
    · subst hpk
      exact hadmits.unlimited
    · rw [← hopen]
      exact (AuthWithCommentsEpisode.applied_limit_other hpk).symm

theorem Shadows.signedIn (h : Shadows pk old f j) (hunlimited : f.isRateLimited pk = false)
    (hf : f.Yields md cmd auth f') (hj : j.Yields md cmd auth j')
    (hopen : j'.isRateLimited pk = false) (hin : displayKey pk ∈ j'.authenticatedParticipants) :
    displayKey pk ∈ f'.authenticatedParticipants := by
  have hjopen := limit_of_yields hj hopen
  have hboth := (h.follows hunlimited).1 hjopen
  cases hj with
  | rejected hnot =>
    have hheld := hboth hin
    cases hf with
    | rejected => exact hheld
    | @applied pk' hadmits =>
      by_cases hpk : pk' = pk
      swap
      · exact (AuthWithCommentsEpisode.applied_authenticated_other hpk).mpr hheld
      subst hpk
      cases cmd with
      | requestChallenge | submitComment => exact hheld
      | submitResponse => exact ExtTreeSet.mem_insert_self
      | revokeSession token signature =>
        -- the restored room would take it, too
        refine absurd ?_ (hnot pk')
        exact {
          signed := hadmits.signed
          authorized := by rw [h.alone]; exact List.mem_singleton.mpr rfl
          unlimited := hjopen
          allowed := ⟨hin, hadmits.allowed.2⟩ }
  | @applied pk' hadmits =>
    obtain rfl := h.signer hadmits
    cases cmd with
    | requestChallenge => exact absurd hin hadmits.allowed
    | submitResponse signature nonce =>
      cases hf with
      | @applied pk hf =>
        obtain rfl := Option.some.inj (hadmits.signed.symm.trans hf.signed)
        exact ExtTreeSet.mem_insert_self
      | rejected hnot =>
        by_contra hout
        apply hnot pk'
        exact {
          signed := hadmits.signed
          authorized := h.creator
          unlimited := hunlimited
          allowed := ⟨hout, hadmits.allowed.2⟩ }
    | revokeSession =>
      exact absurd Std.ReflCmp.compare_self (ExtTreeSet.mem_erase.mp hin).1
    | submitComment =>
      have hheld := hboth hin
      cases hf <;> exact hheld

theorem Shadows.step (h : Shadows pk old f j) (hf : f.Yields md cmd auth f')
    (hj : j.Yields md cmd auth j') : Shadows pk old f' j' := by
  have hfparticipants : f'.authorizedParticipants = f.authorizedParticipants := by
    cases hf with
    | rejected => rfl
    | applied => exact f.applied_participants _ _ _
  have hjparticipants : j'.authorizedParticipants = j.authorizedParticipants := by
    cases hj with
    | rejected => rfl
    | applied => exact j.applied_participants _ _ _
  refine ⟨?_, hjparticipants.trans h.alone, ?_, fun hopen => ?_⟩
  · rw [hfparticipants]
    exact h.creator
  · cases hj with
    | rejected => exact h.authored
    | @applied pk' hadmits =>
      obtain rfl := h.signer hadmits
      cases cmd with
      | requestChallenge | submitResponse | revokeSession => exact h.authored
      | submitComment =>
        intro c hc
        rcases List.mem_append.mp hc with hc | hc
        · exact h.authored c hc
        · rw [List.mem_singleton.mp hc]
  · have hunlimited := limit_of_yields hf hopen
    refine ⟨h.signedIn hunlimited hf hj, ?_⟩
    obtain ⟨more, more', hmore, hmore', hsub⟩ := h.gains hunlimited hf hj
    obtain ⟨-, gained, hgained, hsubs⟩ := h.follows hunlimited
    refine ⟨gained ++ more, ?_, ?_⟩
    · rw [hmore, hgained, List.append_assoc]
    · rw [hmore', List.map_append, List.map_append]
      exact hsubs.append hsub

end Shadows

section Engines
open Indexer Indexer.IndexerHandler
variable [RandChaCha]

theorem creator_kept : Engine.Kept fun ew : EpisodeWrapper AuthWithCommentsEpisode =>
    ew.episode.creator = ew.episode.authorizedParticipants.head? where
  created ps md w g w' hinit := by
    cases hinit
    rfl
  rejected ew cmd auth md w g e w' h hexec := by
    rw [AuthWithCommentsEpisode.run_error hexec]
    exact h
  executed ew cmd auth md w g rb w' h hexec := by
    obtain ⟨pk, -, rfl⟩ := AuthWithCommentsEpisode.run_ok hexec
    cases cmd <;> exact h
  popped ew rb rbs w g b w' h hstack hroll := by
    have hback : g = (ew.episode.rollback rb).1 := by
      change Except.ok (ew.episode.rollback rb, w) = _ at hroll
      rw [(Prod.mk.inj (Except.ok.inj hroll)).1]
    rw [hback]
    cases rb with
    | commentAdded commentId =>
      unfold AuthWithCommentsEpisode.rollback
      dsimp only
      split <;> exact h
    | _ => exact h

/-- A room that comes back after a restart, while others who have it follow the same blocks: it
only ever has comments of its creator, and unless the room bars the creator for asking too often
they are comments that the others have, in the same order. -/
theorem restored_room_shadows (earlier : List EngineMsg) (blks : List BlkAccepted)
    {s s' t t' : Engine AuthWithCommentsEpisode}
    {calls calls' tcalls tcalls' : List (HandlerCall AuthWithCommentsEpisode)}
    {id : EpisodeId} {ew : EpisodeWrapper AuthWithCommentsEpisode} {pk : PubKey}
    {created : UInt64} (virtualDaaScore : Option UInt64)
    (hs : Engine.start earlier (Engine.new ()) = .ok (s, calls))
    (hew : s.episodes[id]? = some ew) (hcreator : ew.episode.creator = some pk)
    (hcreated : s.episodeCreationTimes[id]? = some created)
    (hlisted : id.toUInt64 ∈ ((after Mem.init calls).getRecent 200).map (·.episodeId))
    (ht : Engine.start ((rehydrateFromIndexer ∅ virtualDaaScore
      (recents (after Mem.init calls))).map .blkAccepted) (Engine.new ()) = .ok (t, tcalls))
    (hyoung : ∀ blk ∈ blks, Engine.Young created (reopening (virtualDaaScore.getD 0)) blk)
    (hs' : Engine.start (blks.map .blkAccepted) s = .ok (s', calls'))
    (ht' : Engine.start (blks.map .blkAccepted) t = .ok (t', tcalls')) :
    ∃ last last', s'.episodes[id]? = some last ∧ t'.episodes[id]? = some last' ∧
      (∀ c ∈ last'.episode.comments, c.author = displayKey pk) ∧
      (last.episode.isRateLimited pk = false →
        ∃ gained, last.episode.comments = ew.episode.comments ++ gained ∧
          (last'.episode.comments.map Comment.content).Sublist (gained.map Comment.content)) := by
  have hfirst := creator_kept.preserved.start (Engine.each_new ()) hs id ew hew
  obtain ⟨t₁, tcalls₁, ht₁, hreopened⟩ := (Reopened.empty (virtualDaaScore.getD 0)).start
    ((recents (after Mem.init calls)).filterMap (Listed.comeback ∅))
  obtain ⟨rfl, rfl⟩ := Prod.mk.inj (Except.ok.inj (ht₁.symm.trans ht))
  have hback := hreopened.reopens (Catalogued.observed.start Catalogued.empty hs) hew
  rw [if_pos ⟨by rw [hcreator]; exact Option.some_ne_none pk, hlisted⟩] at hback
  have hsince := hreopened.sinceOf hback
  have hlockstep : Engine.Lockstep (Engine.Young created (reopening (virtualDaaScore.getD 0)))
      (Engine.BothHold (Shadows pk ew.episode.comments) id created
        (reopening (virtualDaaScore.getD 0))) := by
    apply Engine.bothHold_lockstep
    intro g g' cmd auth md w w' h h' res res' v v' hshadows hexec hexec'
    exact hshadows.step (AuthWithCommentsEpisode.yields_of_run hexec)
      (AuthWithCommentsEpisode.yields_of_run hexec')
  have hstart : Engine.BothHold (Shadows pk ew.episode.comments) id created
      (reopening (virtualDaaScore.getD 0)) s t₁ :=
    ⟨⟨ew, _, hew, hback, .reopened ew.episode hcreator hfirst⟩, hcreated, hsince⟩
  obtain ⟨last, last', hlast, hlast', hshadows⟩ := (hlockstep.start hyoung hstart hs' ht').held
  exact ⟨last, last', hlast, hlast', hshadows.authored,
    fun hopen => (hshadows.follows hopen).2⟩

end Engines
end Kdapp.CommentIt

namespace Kdapp.CommentIt
open Outcome
open Indexer Indexer.IndexerHandler
open CommentBoard (displayKey)
open SignatureVerifier (signText)
attribute [local instance] idealCrypto seedRand

def signedBy (pk n : UInt8) (cmd : UnifiedCommand) :
    Hash × Borsh.Bytes × Option (List TxOutputInfo) :=
  (Hash.filled n, ((EpisodeMessage.newSignedCommand 5 cmd pk pk :
    Option (EpisodeMessage AuthWithCommentsEpisode)).bind EpisodeMessage.codec.serialize).getD [],
    none)

def comingBack : BlkAccepted where
  acceptingHash := Hash.filled 4
  acceptingDaa := 2
  acceptingTime := 11
  associatedTxs := [signedBy 1 5 .requestChallenge,
    signedBy 1 6 (.submitResponse (signText (1 : UInt8) "auth_11_11") "auth_11_11"),
    signedBy 1 7 (.submitComment "back" "token")]

def acceptsBack (s : Engine AuthWithCommentsEpisode) : Bool :=
  (Engine.start ([comingBack].map .blkAccepted) s).isOk

theorem accepts_back {s : Engine AuthWithCommentsEpisode} (h : acceptsBack s = true) :
    ∃ p, Engine.start ([comingBack].map .blkAccepted) s = .ok p :=
  exists_of_isOk h

def standing (p : Engine AuthWithCommentsEpisode × List (HandlerCall AuthWithCommentsEpisode)) :
    Bool × Option (Option PubKey) × Option UInt64 × List UInt64 :=
  (acceptsBack p.1, (p.1.episodes[(5 : EpisodeId)]?).map fun ew => ew.episode.creator,
    p.1.episodeCreationTimes[(5 : EpisodeId)]?,
    ((after Mem.init p.2).getRecent 200).map (·.episodeId))

theorem restored_room_shadows_back :
    ∃ (s s' t t' : Engine AuthWithCommentsEpisode)
      (calls calls' tcalls tcalls' : List (HandlerCall AuthWithCommentsEpisode))
      (ew : EpisodeWrapper AuthWithCommentsEpisode),
      Engine.start [lively] (Engine.new ()) = .ok (s, calls) ∧
      Engine.start ((rehydrateFromIndexer ∅ none (recents (after Mem.init calls))).map
        .blkAccepted) (Engine.new ()) = .ok (t, tcalls) ∧
      Engine.start ([comingBack].map .blkAccepted) s = .ok (s', calls') ∧
      Engine.start ([comingBack].map .blkAccepted) t = .ok (t', tcalls') ∧
      s.episodes[(5 : EpisodeId)]? = some ew ∧
      ∃ last last', s'.episodes[(5 : EpisodeId)]? = some last ∧
        t'.episodes[(5 : EpisodeId)]? = some last' ∧
        (∀ c ∈ last'.episode.comments, c.author = displayKey (1 : UInt8)) ∧
        (last.episode.isRateLimited (1 : UInt8) = false →
          ∃ gained, last.episode.comments = ew.episode.comments ++ gained ∧
            (last'.episode.comments.map Comment.content).Sublist
              (gained.map Comment.content)) := by
  have hstood : (Engine.start [lively] (Engine.new ())).toOption.map standing =
      some (true, some (some (1 : UInt8)), some 1, [5]) := by
    decide +kernel
  obtain ⟨⟨s, calls⟩, hs, hvalues⟩ := exists_of_map hstood
  obtain ⟨hnext, hvalues⟩ := Prod.mk.inj hvalues
  obtain ⟨hroom, hvalues⟩ := Prod.mk.inj hvalues
  obtain ⟨hsince, hlist⟩ := Prod.mk.inj hvalues
  obtain ⟨ew, hew, hcreator⟩ := Option.map_eq_some_iff.mp hroom
  have hback : ((Engine.start [lively] (Engine.new ())).toOption.bind fun p =>
      (Engine.start ((rehydrateFromIndexer ∅ none (recents (after Mem.init p.2))).map
        .blkAccepted) (Engine.new ())).toOption.map fun q => acceptsBack q.1) = some true := by
    decide +kernel
  rw [hs] at hback
  obtain ⟨⟨t, tcalls⟩, ht, hjoined⟩ := exists_of_map hback
  obtain ⟨⟨s', calls'⟩, hs'⟩ := accepts_back hnext
  obtain ⟨⟨t', tcalls'⟩, ht'⟩ := accepts_back hjoined
  refine ⟨s, s', t, t', calls, calls', tcalls, tcalls', ew, hs, ht, hs', ht', hew, ?_⟩
  refine restored_room_shadows [lively] [comingBack] none hs hew hcreator hsince ?_ ht ?_ hs' ht'
  · rw [hlist]
    exact List.mem_singleton.mpr rfl
  · intro blk hblk
    obtain rfl := List.mem_singleton.mp hblk
    exact ⟨by decide, by decide⟩

end Kdapp.CommentIt
