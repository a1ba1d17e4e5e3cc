import Kdapp.CommentIt.Handlers
import Kdapp.CommentIt.Restored
import Mathlib.Data.List.Perm.Subperm

/-! What the HTTP peer says of a participant's session (`get_status` of
`api/http/handlers/status.rs`), for which it also asks the indexer (`/index/me` of
`kdapp-indexer/src/api.rs`). -/

namespace Kdapp.Indexer

/-- `me`; `none` where the store fails. -/
def me {S : Type} [StoreTrait S] (store : S) (id : UInt64) (pubkey : String) : Option Bool :=
  match StoreTrait.getMyEpisodes store pubkey 1000 with
  | .ok eps => some (eps.contains id)
  | .error _ => none

end Kdapp.Indexer

namespace Kdapp.CommentIt
open FiniteMap
open Std (ExtTreeMap ExtTreeSet)
open CommentBoard (displayKey hex)
open Indexer (Mem me)

variable [Crypto]

def deterministicHandle (episodeId : UInt64) (pubkeyHex : String) : String :=
  hex (Crypto.sha256 (asBytes "KDAPP/COMMENT-IT/SESSION" ++ Keyspace.beBytes 8 episodeId.toNat ++
    asBytes pubkeyHex)).1

/-- Any of the active challenges: the map of the source has no order. -/
def AuthWithCommentsEpisode.challenge (self : AuthWithCommentsEpisode)
    (values : ExtTreeMap String String → List String) : Option String :=
  (values self.activeChallenges).head?

/-- The fields of the answers, `none` for those that are null or not there. -/
structure StatusResponse where
  episodeId : UInt64
  authenticated : Bool
  status : String
  challenge : Option String
  sessionToken : Option String
  blockchainConfirmed : Bool
  publicKey : Option String
  source : Option String
  message : Option String

/-- `member` is the answer of the indexer, if there is one. -/
def tryIndexerMembership (episodeId : UInt64) (pubkey : String) (member : Option Bool) :
    Option StatusResponse :=
  if member = some true then
    some {
      episodeId
      authenticated := true
      status := "authenticated_via_indexer"
      challenge := none
      sessionToken := some (deterministicHandle episodeId pubkey)
      blockchainConfirmed := false
      publicKey := some pubkey
      source := some "indexer_membership"
      message := none }
  else none

section GetStatus
variable (blockchainEpisodes : SharedEpisodeState) (values : ExtTreeMap String String → List String)
  (episodeId : UInt64) (pubkey : Option String)

def roomStatus : StatusResponse :=
  match blockchainEpisodes[episodeId]? with
  | some episode => {
      episodeId
      authenticated := episode.isAuthenticated
      status := if episode.isAuthenticated then "authenticated" else "pending"
      challenge := episode.challenge values
      sessionToken := pubkey.map (deterministicHandle episodeId)
      blockchainConfirmed := true
      publicKey := episode.owner.map displayKey
      source := some "real_blockchain_state"
      message := none }
  | none => {
      episodeId
      authenticated := false
      status := "episode_not_found"
      challenge := none
      sessionToken := none
      blockchainConfirmed := false
      publicKey := none
      source := none
      message := some "Episode not found in blockchain state - may not be confirmed yet" }

def getStatus (member : Option Bool) : StatusResponse :=
  let own := roomStatus blockchainEpisodes values episodeId pubkey
  if own.authenticated then own
  else
    match pubkey.bind fun pubkey => tryIndexerMembership episodeId pubkey member with
    | some viaIndexer => viaIndexer
    | none => own

end GetStatus

section Answer
variable {blockchainEpisodes : SharedEpisodeState}
  {values : ExtTreeMap String String → List String} {episodeId : UInt64} {pubkey : String}

theorem roomStatus_authenticated (pubkey : Option String) :
    (roomStatus blockchainEpisodes values episodeId pubkey).authenticated = true ↔
      ∃ g, blockchainEpisodes[episodeId]? = some g ∧ g.isAuthenticated = true := by
  unfold roomStatus
  cases blockchainEpisodes[episodeId]? with
  | none => exact iff_of_false Bool.false_ne_true fun ⟨g, hg, _⟩ => nomatch hg
  | some g =>
    constructor
    · exact fun h => ⟨g, rfl, h⟩
    · rintro ⟨g', hg, hin⟩
      obtain rfl := Option.some.inj hg
      exact hin

theorem getStatus_authenticated (member : Bool) :
    (getStatus blockchainEpisodes values episodeId (some pubkey) (some member)).authenticated =
        true ↔
      (∃ g, blockchainEpisodes[episodeId]? = some g ∧ g.isAuthenticated = true) ∨
        member = true := by
  have hroom := @roomStatus_authenticated _ blockchainEpisodes values episodeId (some pubkey)
  rw [← hroom]
  unfold getStatus
  dsimp only
  split
  · rename_i hown
    exact iff_of_true hown (.inl hown)
  · rename_i hown
    rw [or_iff_right hown]
    cases member with
    | false => exact iff_of_false hown Bool.false_ne_true
    | true => exact iff_of_true rfl rfl

end Answer

variable [RandChaCha]

def SignedIn (episodeId : UInt64) (pubkey : String)
    (calls : List (HandlerCall AuthWithCommentsEpisode)) : Prop :=
  ∃ (id : EpisodeId) (g : AuthWithCommentsEpisode) (signature nonce : String) (pk : PubKey)
    (md : PayloadMetadata), id.toUInt64 = episodeId ∧ displayKey pk = pubkey ∧
      .onCommand id g (.submitResponse signature nonce) (some pk) md ∈ calls

section SignedIn
variable {calls calls' : List (HandlerCall AuthWithCommentsEpisode)} {episodeId : UInt64}
  {pubkey : String}

theorem SignedIn.mono (h : SignedIn episodeId pubkey calls) (hsub : calls ⊆ calls') :
    SignedIn episodeId pubkey calls' := by
  obtain ⟨id, g, signature, nonce, pk, md, hid, hpk, hcall⟩ := h
  exact ⟨id, g, signature, nonce, pk, md, hid, hpk, hsub hcall⟩

theorem SignedIn.few {ids : List UInt64} (hnodup : ids.Nodup)
    (hin : ∀ id ∈ ids, SignedIn id pubkey calls) : ids.length ≤ calls.length := by
  have hsub : ids ⊆ calls.map fun call => call.episodeId.toUInt64 := by
    intro id hid
    obtain ⟨id', g, signature, nonce, pk, md, rfl, -, hcall⟩ := hin id hid
    exact List.mem_map.mpr ⟨_, hcall, rfl⟩
  have hle := (hnodup.subperm hsub).length_le
  rw [List.length_map] at hle
  exact hle

open Indexer Indexer.IndexerHandler

theorem mem_ops_iff : .addMembership pubkey episodeId ∈ calls.flatMap ops ↔
    SignedIn episodeId pubkey calls := by
  constructor
  · intro h
    obtain ⟨call, hcall, hop⟩ := List.mem_flatMap.mp h
    cases call with
    | onInitialize id g => cases List.mem_singleton.mp hop
    | onRollback id g => cases hop
    | onCommand id g cmd auth md =>
      cases cmd with
      | requestChallenge | revokeSession => cases List.mem_singleton.mp hop
      | submitResponse signature nonce =>
        cases auth with
        | none => cases hop
        | some pk =>
          rcases List.mem_cons.mp hop with hop | hop
          · obtain ⟨rfl, rfl⟩ := Op.addMembership.inj hop
            exact ⟨id, g, signature, nonce, pk, md, rfl, rfl, hcall⟩
          · cases List.mem_singleton.mp hop
      | submitComment text token =>
        dsimp only [ops, onCommand] at hop
        split at hop
        · cases List.mem_singleton.mp hop
        · cases auth with
          | none => cases hop
          | some pk => cases List.mem_singleton.mp hop
  · rintro ⟨id, g, signature, nonce, pk, md, rfl, rfl, hcall⟩
    exact List.mem_flatMap.mpr ⟨_, hcall, List.mem_cons_self⟩

theorem me_after (calls : List (HandlerCall AuthWithCommentsEpisode)) (episodeId : UInt64)
    (hfew : ∀ ids : List UInt64, ids.Nodup → (∀ id ∈ ids, SignedIn id pubkey calls) →
      ids.length ≤ 1000) :
    ∃ member, me (Indexer.IndexerHandler.after Mem.init calls) episodeId pubkey = some member ∧
      (member = true ↔ SignedIn episodeId pubkey calls) := by
  obtain ⟨mem, hmem, hshows⟩ :=
    performAll_keeps (P := Mem.Shows) (fun idx mem op h => h.perform op) Mem.Shows.init
      (calls.flatMap ops)
  obtain ⟨list, hlist, hsorted, hmine⟩ := Mem.getMyEpisodes_sorted hshows pubkey
  have hsigned : ∀ id, id ∈ list ↔ SignedIn id pubkey calls := by
    intro id
    rw [hmine, ← mem_ops_iff]
    exact (Written.after (calls.flatMap ops)).mine pubkey id
  have hnodup : list.Nodup := hsorted.imp fun hlt => UInt64.ne_of_lt hlt
  have hshort : list.length ≤ 1000 := hfew list hnodup fun id hid => (hsigned id).mp hid
  refine ⟨_, rfl, ?_⟩
  have hafter : Indexer.IndexerHandler.after Mem.init calls = mem := foldl_attempt hmem
  rw [hafter, hlist, List.take_of_length_le hshort, List.contains_iff_mem]
  exact hsigned episodeId

end SignedIn

def UnifiedRollback.restores : UnifiedRollback → Option String
  | .authentication participantKey true | .sessionRevoked participantKey true =>
    some participantKey
  | .authentication _ false | .sessionRevoked _ false | .challenge _ _ | .commentAdded _ => none

/-- Who is signed in in a live room, or will be when commands are taken back, has signed in. -/
structure Accounted (calls : List (HandlerCall AuthWithCommentsEpisode)) (id : EpisodeId)
    (ew : EpisodeWrapper AuthWithCommentsEpisode) : Prop where
  active : ∀ key ∈ ew.episode.authenticatedParticipants, SignedIn id.toUInt64 key calls
  undone : ∀ rb ∈ ew.rollbackStack, ∀ key, UnifiedRollback.restores rb = some key →
    SignedIn id.toUInt64 key calls

namespace Accounted
variable {calls calls' : List (HandlerCall AuthWithCommentsEpisode)} {id : EpisodeId}
  {ew : EpisodeWrapper AuthWithCommentsEpisode} {s : Engine AuthWithCommentsEpisode}

theorem mono (h : Accounted calls id ew) (hsub : calls ⊆ calls') : Accounted calls' id ew where
  active key hkey := (h.active key hkey).mono hsub
  undone rb hrb key hkey := (h.undone rb hrb key hkey).mono hsub

theorem opened (participants : List PubKey) (md : PayloadMetadata) :
    Accounted calls id ⟨.create participants md, []⟩ where
  active _ hkey := absurd hkey ExtTreeSet.not_mem_empty
  undone _ hrb := absurd hrb List.not_mem_nil

theorem applied (h : Accounted calls id ew) {cmd : UnifiedCommand} {pk : PubKey}
    (md : PayloadMetadata) (hadmits : ew.episode.Admits (some pk) cmd pk) :
    Accounted (calls ++ [.onCommand id (ew.episode.applied pk md cmd) cmd (some pk) md]) id
      ⟨ew.episode.applied pk md cmd, ew.episode.token pk cmd :: ew.rollbackStack⟩ := by
  have hbefore := h.mono (List.subset_append_left calls
    [.onCommand id (ew.episode.applied pk md cmd) cmd (some pk) md])
  constructor
  · intro key hkey
    cases cmd with
    | requestChallenge | submitComment => exact hbefore.active key hkey
    | submitResponse signature nonce =>
      rcases ExtTreeSet.mem_insert.mp hkey with heq | hkey
      · obtain rfl := Std.LawfulEqOrd.eq_of_compare heq
        exact ⟨id, _, signature, nonce, pk, md, rfl, rfl,
          List.mem_append_right calls (List.mem_singleton.mpr rfl)⟩
      · exact hbefore.active key hkey
    | revokeSession => exact hbefore.active key (ExtTreeSet.mem_erase.mp hkey).2
  · intro rb hrb key hkey
    rcases List.mem_cons.mp hrb with rfl | hrb
    swap
    · exact hbefore.undone rb hrb key hkey
    cases cmd with
    | requestChallenge | submitResponse | submitComment => cases hkey
    | revokeSession =>
      -- the key that the rollback puts back was signed in
      obtain rfl := Option.some.inj hkey
      exact hbefore.active _ hadmits.allowed.1

theorem popped (h : Accounted calls id ew) {rb : UnifiedRollback} {rbs : List UnifiedRollback}
    (hstack : ew.rollbackStack = rb :: rbs) :
    Accounted calls id ⟨(ew.episode.rollback rb).1, rbs⟩ := by
  have hrest : ∀ rb' ∈ rbs, ∀ key, UnifiedRollback.restores rb' = some key →
      SignedIn id.toUInt64 key calls := by
    intro rb' hrb'
    apply h.undone
    rw [hstack]
    exact List.mem_cons_of_mem rb hrb'
  have hfirst : ∀ key, UnifiedRollback.restores rb = some key →
      SignedIn id.toUInt64 key calls := by
    apply h.undone
    rw [hstack]
    exact List.mem_cons_self
  refine ⟨fun key hkey => ?_, hrest⟩
  have hinsert : ∀ participantKey, UnifiedRollback.restores rb = some participantKey →
      key ∈ ew.episode.authenticatedParticipants.insert participantKey →
        SignedIn id.toUInt64 key calls := by
    intro participantKey hrestores hkey
    rcases ExtTreeSet.mem_insert.mp hkey with heq | hkey
    · obtain rfl := Std.LawfulEqOrd.eq_of_compare heq
      exact hfirst _ hrestores
    · exact h.active key hkey
  cases rb with
  | challenge => exact h.active key hkey
  | authentication participantKey was =>
    cases was with
    | true => exact hinsert participantKey rfl hkey
    | false => exact h.active key (ExtTreeSet.mem_erase.mp hkey).2
  | sessionRevoked participantKey was =>
    cases was with
    | true => exact hinsert participantKey rfl hkey
    | false => exact h.active key hkey
  | commentAdded commentId =>
    unfold AuthWithCommentsEpisode.rollback at hkey
    dsimp only at hkey
    split at hkey <;> exact h.active key hkey

def All (s : Engine AuthWithCommentsEpisode)
    (calls : List (HandlerCall AuthWithCommentsEpisode)) : Prop :=
  ∀ (id : EpisodeId) ew, s.episodes[id]? = some ew → Accounted calls id ew

theorem All.insert (h : All s calls) (hsub : calls ⊆ calls') (hnew : Accounted calls' id ew)
    {t : Engine AuthWithCommentsEpisode} (ht : t.episodes = s.episodes.insert id ew) :
    All t calls' := by
  intro id' ew' hew'
  rw [ht] at hew'
  by_cases hid : id = id'
  · subst hid
    obtain rfl := Option.some.inj (ExtTreeMap.getElem?_insert_self.symm.trans hew')
    exact hnew
  · rw [getElem?_insert_of_ne hid] at hew'
    exact (h id' ew' hew').mono hsub

theorem run_token {g g' : AuthWithCommentsEpisode} {cmd : UnifiedCommand} {auth : Option PubKey}
    {md : PayloadMetadata} {rb : UnifiedRollback} {w w' : Unit}
    (h : (Episode.execute g cmd auth md).run w = .ok ((g', .ok rb), w')) :
    ∃ pk, auth = some pk ∧ g.Admits (some pk) cmd pk ∧ g' = g.applied pk md cmd ∧
      rb = g.token pk cmd := by
  change Except.ok (g.execute md cmd auth, w) = _ at h
  rcases g.execute_cases md cmd auth with ⟨-, e, hrejects⟩ | ⟨pk, hadmits, haccepts⟩
  · rw [hrejects] at h
    cases h
  · rw [haccepts] at h
    cases h
    obtain rfl := hadmits.signed
    exact ⟨pk, rfl, hadmits, rfl, rfl⟩

theorem observed : Engine.Observed All where
  filter s daaScore calls h := by
    intro id ew hew
    by_cases hexpires : s.Expires daaScore id
    · rw [(Engine.filterOldEpisodes_expired hexpires).1] at hew
      cases hew
    · rw [(Engine.filterOldEpisodes_kept hexpires).1] at hew
      exact h id ew hew
  handle s md a out calls hhandles h := by
    have hmore : ∀ more : List (HandlerCall AuthWithCommentsEpisode), calls ⊆ calls ++ more :=
      List.subset_append_left calls
    cases hhandles with
    | known | missing | forged => exact fun id ew hew => (h id ew hew).mono (hmore [])
    | created hnew hinit =>
      rw [AuthWithCommentsEpisode.run_initialize hinit]
      exact h.insert (hmore _) (opened _ md) rfl
    | rejected hcmd hsig hw hexec =>
      rw [AuthWithCommentsEpisode.run_error hexec]
      exact h.insert (hmore []) ((h _ _ hw).mono (hmore [])) rfl
    | executed hcmd hsig hw hexec =>
      obtain ⟨pk, rfl, hadmits, rfl, rfl⟩ := run_token hexec
      exact h.insert (hmore _) ((h _ _ hw).applied md hadmits) rfl
    | @popped id w r rs g b world hw hstack hroll =>
      have hback : g = (w.episode.rollback r).1 := by
        change Except.ok (w.episode.rollback r, s.world) = _ at hroll
        rw [(Prod.mk.inj (Except.ok.inj hroll)).1]
      rw [hback]
      exact h.insert (hmore _) (((h _ _ hw).popped hstack).mono (hmore _)) rfl
    | @deleted id w hw hstack =>
      intro id' ew hew
      have hew : (s.episodes.erase id)[id']? = some ew := hew
      have hid : id ≠ id' := by
        rintro rfl
        cases ExtTreeMap.getElem?_erase_self.symm.trans hew
      rw [getElem?_erase_of_ne hid] at hew
      exact (h id' ew hew).mono (hmore _)
  revertMap s m calls h := h

end Accounted

/-- Whoever was signed in in a room after some message is reported as authenticated for good,
whatever later messages revoke, take back or let expire. Apart from them, only a room in which
anyone at all is signed in is reported so, whoever asks. -/
theorem signed_in_for_good {pre msgs : List EngineMsg} {t s : Engine AuthWithCommentsEpisode}
    {earlier calls : List (HandlerCall AuthWithCommentsEpisode)} (hpre : pre <+: msgs)
    (hfirst : Engine.start pre (Engine.new ()) = .ok (t, earlier))
    (hrun : Engine.start msgs (Engine.new ()) = .ok (s, calls)) (pk : PubKey)
    (hfew : ∀ ids : List UInt64, ids.Nodup →
      (∀ id ∈ ids, SignedIn id (displayKey pk) calls) → ids.length ≤ 1000)
    (blockchainEpisodes : SharedEpisodeState)
    (values : ExtTreeMap String String → List String) :
    (∀ episodeId : UInt64, (getStatus blockchainEpisodes values episodeId (some (displayKey pk))
        (me (Indexer.IndexerHandler.after Mem.init calls) episodeId
          (displayKey pk))).authenticated = true ↔
        (∃ g, blockchainEpisodes[episodeId]? = some g ∧ g.isAuthenticated = true) ∨
          SignedIn episodeId (displayKey pk) calls) ∧
      ∀ (id : EpisodeId) ew, t.episodes[id]? = some ew →
        displayKey pk ∈ ew.episode.authenticatedParticipants →
          SignedIn id.toUInt64 (displayKey pk) calls := by
  constructor
  · intro episodeId
    obtain ⟨member, hmember, hiff⟩ := me_after calls episodeId hfew
    rw [hmember, getStatus_authenticated, hiff]
  · intro id ew hew hin
    have hall : Accounted.All t ([] ++ earlier) := by
      apply Accounted.observed.start _ hfirst
      intro id ew hew
      cases ExtTreeMap.getElem?_empty.symm.trans hew
    exact ((hall id ew hew).active _ hin).mono (Engine.calls_prefix hpre hfirst hrun).subset

end Kdapp.CommentIt

namespace Kdapp.CommentIt
open Outcome
open CommentBoard (displayKey)
open Indexer (Mem me)
open SignatureVerifier (signText)
attribute [local instance] idealCrypto seedRand

def farewell : BlkAccepted where
  acceptingHash := Hash.filled 8
  acceptingDaa := 3
  acceptingTime := 12
  associatedTxs := [signedBy 1 9 (.revokeSession "token" (signText (1 : UInt8) "token"))]

def visit : List EngineMsg := [lively, .blkAccepted comingBack]

def presence (p : Engine AuthWithCommentsEpisode × List (HandlerCall AuthWithCommentsEpisode)) :
    Option (Bool × Bool) × Bool :=
  ((p.1.episodes[(5 : EpisodeId)]?).map fun ew =>
    (ew.episode.isParticipantAuthenticated (1 : UInt8), ew.episode.isAuthenticated),
    decide (p.2.length ≤ 1000))

/-- Nobody is signed in any more, and key 1 still is for the peer. -/
theorem signed_in_for_good_gone :
    ∃ (s : Engine AuthWithCommentsEpisode) (calls : List (HandlerCall AuthWithCommentsEpisode))
      (ew : EpisodeWrapper AuthWithCommentsEpisode),
      Engine.start (visit ++ [.blkAccepted farewell]) (Engine.new ()) = .ok (s, calls) ∧
      s.episodes[(5 : EpisodeId)]? = some ew ∧ ew.episode.isAuthenticated = false ∧
      (getStatus (HttpAuthHandler.after calls) (fun _ => []) 5 (some (displayKey (1 : UInt8)))
        (me (Indexer.IndexerHandler.after Mem.init calls) 5
          (displayKey (1 : UInt8)))).authenticated = true := by
  have hvisited : (Engine.start visit (Engine.new ())).toOption.map presence =
      some (some (true, true), true) := by
    decide +kernel
  have hleft : (Engine.start (visit ++ [.blkAccepted farewell]) (Engine.new ())).toOption.map
      presence = some (some (false, false), true) := by
    decide +kernel
  obtain ⟨⟨t, earlier⟩, hfirst, hthere⟩ := exists_of_map hvisited
  obtain ⟨⟨s, calls⟩, hrun, hgone⟩ := exists_of_map hleft
  obtain ⟨ew, hew, hin⟩ := Option.map_eq_some_iff.mp (Prod.mk.inj hthere).1
  obtain ⟨last, hlast, hout⟩ := Option.map_eq_some_iff.mp (Prod.mk.inj hgone).1
  have hshort : calls.length ≤ 1000 := of_decide_eq_true (Prod.mk.inj hgone).2
  have hstatus := signed_in_for_good (List.prefix_append visit [.blkAccepted farewell]) hfirst hrun
    (1 : UInt8) (fun ids hnodup hsigned => (SignedIn.few hnodup hsigned).trans hshort)
    (HttpAuthHandler.after calls) fun _ => []
  refine ⟨s, calls, last, hrun, hlast, (Prod.mk.inj hout).2, (hstatus.1 5).mpr (.inr ?_)⟩
  exact hstatus.2 5 ew hew (Std.ExtTreeSet.mem_iff_contains.mpr (Prod.mk.inj hin).1)

end Kdapp.CommentIt
