import Kdapp.CommentStore
import Kdapp.Library.Transition

/-! Whose comments and whose sessions the commands of an episode concern. The author of a comment
and the holder of a session are what the command says, whoever signed it. -/

namespace Kdapp.CommentStore
open InOrder Transition
open Std (ExtTreeMap)
open Kdapp.CommentBoard (blank displayKey)

variable [Crypto]

/-- A command as the engine hands it to the episode, and the order in which a map comes then. -/
structure Call where
  cmd : CommentCommand
  authorization : Option PubKey
  metadata : PayloadMetadata
  order : Traversal String String

def Call.SignedBy (c : Call) (key : String) : Prop := c.authorization.map displayKey = some key

namespace CommentEpisode

def call (g : CommentEpisode) (c : Call) : Executed :=
  g.execute c.order c.metadata c.cmd c.authorization

/-- An accepted command, the episode after it and what it returned. -/
inductive Accepts (g : CommentEpisode) (c : Call) (pk : PubKey) :
    CommentEpisode → CommentRollback → Prop
  | submitted {text author token signature : String}
    (hcmd : c.cmd = .submitComment text author token signature)
    (hblank : blank text = false) (hlong : text.utf8ByteSize ≤ 2000)
    (hsession : g.validSessions[displayKey pk]? = some token) :
    Accepts g c pk { g with
      comments := g.comments ++ [⟨g.nextId, text, author, c.metadata.acceptingTime, token⟩]
      nextId := g.nextId + 1 } (.commentSubmitted g.nextId)
  | queried (hcmd : ∀ text author token signature,
      c.cmd ≠ .submitComment text author token signature)
    (hother : ∀ key token ep, c.cmd ≠ .registerSession key token ep)
    (hrevoke : ∀ token, c.cmd ≠ .revokeSession token) : Accepts g c pk g .commentsQueried
  | registered {key token : String} {ep : UInt64} (hcmd : c.cmd = .registerSession key token ep) :
    Accepts g c pk { g with
      validSessions := g.validSessions.insert key token
      authEpisodeId := match g.authEpisodeId with
        | none => some ep
        | some id => some id } (.sessionRegistered key)
  | revoked {key token : String} (hcmd : c.cmd = .revokeSession token)
    (hholder : g.holder c.order token = some (key, token)) :
    Accepts g c pk { g with validSessions := g.validSessions.erase key }
      (.sessionRevoked key token)

/-- The command names its signer, and the token that it revokes is held by nobody else. -/
def Honest (g : CommentEpisode) (pk : PubKey) : CommentCommand → Prop
  | .submitComment text author sessionToken _ =>
    blank text = false → text.utf8ByteSize ≤ 2000 →
      g.validSessions[displayKey pk]? = some sessionToken → author = displayKey pk
  | .registerSession publicKey _ _ => publicKey = displayKey pk
  | .revokeSession sessionToken =>
    ∀ key : String, g.validSessions[key]? = some sessionToken → key = displayKey pk
  | .getComments _ | .getCommentsByAuthor _ _ => True

def AllHonest (g : CommentEpisode) (c : Call) : Prop :=
  ∀ pk, c.authorization = some pk → pk ∈ g.authorizedParticipants → g.Honest pk c.cmd

variable {g g' : CommentEpisode} {c : Call} {pk : PubKey} {order : Traversal String String}
  {rb : CommentRollback}

theorem holder_some {sessionToken key token : String}
    (h : g.holder order sessionToken = some (key, token)) :
    token = sessionToken ∧ g.validSessions[key]? = some sessionToken := by
  have hmem : g.validSessions[key]? = some token :=
    Traversal.mem_entries.mp (List.mem_of_find?_eq_some h)
  have htoken : token = sessionToken :=
    of_decide_eq_true (List.find?_some (p := fun e : String × String => decide (e.2 = _)) h)
  exact ⟨htoken, by rw [hmem, htoken]⟩

theorem holder_startingAt {sessionToken key : String}
    (h : g.validSessions[key]? = some sessionToken) :
    g.holder (.startingAt key) sessionToken = some (key, sessionToken) :=
  Traversal.find_startingAt h (decide_eq_true rfl)

theorem Accepts.nextId_le (h : g.Accepts c pk g' rb) : g.nextId ≤ g'.nextId := by
  cases h with
  | submitted => exact Nat.le_succ _
  | queried | registered | revoked => exact Nat.le_refl _

theorem Accepts.submitted_id (h : g.Accepts c pk g' rb) {id : ℕ} (hid : rb = .commentSubmitted id) :
    id = g.nextId ∧ id < g'.nextId := by
  cases h with
  | submitted =>
    cases hid
    exact ⟨rfl, Nat.lt_succ_self _⟩
  | queried | registered | revoked => cases hid

theorem Accepts.mem_comments (h : g.Accepts c pk g' rb) {comment : Comment} :
    comment ∈ g'.comments ↔ comment ∈ g.comments ∨
      (rb = .commentSubmitted comment.id ∧ comment.id = g.nextId ∧
        comment.timestamp = c.metadata.acceptingTime ∧ ∃ signature, c.cmd =
          .submitComment comment.text comment.author comment.sessionToken signature) := by
  cases h with
  | @submitted text author token signature hcmd =>
    dsimp only
    rw [List.mem_append, List.mem_singleton]
    apply or_congr_right
    constructor
    · rintro rfl
      exact ⟨rfl, rfl, rfl, signature, hcmd⟩
    · rintro ⟨-, hid, htime, signature', hcmd'⟩
      obtain ⟨id, text', author', time, token'⟩ := comment
      cases hcmd.symm.trans hcmd'
      rw [← htime, ← hid]
  | queried | registered | revoked =>
    refine (or_iff_left ?_).symm
    rintro ⟨hrb, -⟩
    cases hrb

theorem call_cases (g : CommentEpisode) (c : Call) :
    (∃ e, g.call c = (g, .error e)) ∨
      ∃ pk g' rb, c.authorization = some pk ∧ pk ∈ g.authorizedParticipants ∧
        g.Accepts c pk g' rb ∧ g.call c = (g', .ok rb) := by
  unfold call execute
  cases hauth : c.authorization with
  | none => exact .inl ⟨_, rfl⟩
  | some pk =>
    dsimp only
    by_cases hauthorized : pk ∈ g.authorizedParticipants
    · rw [if_neg (not_not.mpr hauthorized)]
      cases hcmd : c.cmd with
      | submitComment text author token signature =>
        unfold executeCommand executeSubmitComment
        dsimp only
        split
        · exact .inl ⟨_, rfl⟩
        rename_i hblank
        split
        · exact .inl ⟨_, rfl⟩
        rename_i hlong
        split
        · exact .inl ⟨_, rfl⟩
        · rename_i hsession
          exact .inr ⟨pk, _, _, rfl, hauthorized, .submitted hcmd
            (Bool.eq_false_of_not_eq_true hblank) (Nat.le_of_not_lt hlong) (not_not.mp hsession),
            rfl⟩
      | getComments token =>
        exact .inr ⟨pk, _, _, rfl, hauthorized, .queried (by simp [hcmd]) (by simp [hcmd])
          (by simp [hcmd]), rfl⟩
      | getCommentsByAuthor author token =>
        exact .inr ⟨pk, _, _, rfl, hauthorized, .queried (by simp [hcmd]) (by simp [hcmd])
          (by simp [hcmd]), rfl⟩
      | registerSession key token ep =>
        exact .inr ⟨pk, _, _, rfl, hauthorized, .registered hcmd, rfl⟩
      | revokeSession token =>
        dsimp only [executeCommand]
        unfold executeRevokeSession
        cases hholder : g.holder c.order token with
        | none => exact .inl ⟨_, rfl⟩
        | some entry =>
          obtain ⟨key, token'⟩ := entry
          -- the session goes to whoever the traversal meets first with the token
          obtain ⟨rfl, -⟩ := holder_some hholder
          exact .inr ⟨pk, _, _, rfl, hauthorized, .revoked hcmd hholder, rfl⟩
    · rw [if_pos hauthorized]
      exact .inl ⟨_, rfl⟩

theorem AllHonest.order_free (h : g.AllHonest c) (order : Traversal String String) :
    g.call { c with order } = g.call c := by
  unfold call execute
  cases hauth : c.authorization with
  | none => rfl
  | some pk =>
    dsimp only
    by_cases hauthorized : pk ∈ g.authorizedParticipants
    · rw [if_neg (not_not.mpr hauthorized), if_neg (not_not.mpr hauthorized)]
      cases hcmd : c.cmd with
      | revokeSession token =>
        have hhonest := h pk hauth hauthorized
        rw [hcmd] at hhonest
        have hsame : g.holder order token = g.holder c.order token := by
          apply Traversal.find_unique
          intro key v key' v' hkey hkey' hv hv'
          obtain rfl : v = token := of_decide_eq_true hv
          obtain rfl : v' = v := of_decide_eq_true hv'
          rw [hhonest key hkey, hhonest key' hkey']
        dsimp only [executeCommand]
        unfold executeRevokeSession
        rw [hsame]
      | submitComment text author token signature => rfl
      | getComments token => rfl
      | getCommentsByAuthor author token => rfl
      | registerSession key token ep => rfl
    · rw [if_pos hauthorized, if_pos hauthorized]

end CommentEpisode

structure Record where
  before : CommentEpisode
  call : Call
  result : Except (EpisodeError CommentError) CommentRollback

def Record.Settles (r : Record) (key : String) : Prop :=
  r.result = .ok (.sessionRegistered key) ∨ ∃ token, r.result = .ok (.sessionRevoked key token)

structure Node where
  episode : CommentEpisode
  log : List Record

namespace Node

def start (participants : List PubKey) (md : PayloadMetadata) : Node :=
  ⟨.create participants md, []⟩

def call (self : Node) (c : Call) : Node :=
  ⟨(self.episode.call c).1, ⟨self.episode, c, (self.episode.call c).2⟩ :: self.log⟩

theorem call_cases (node : Node) (c : Call) :
    (∃ e, node.call c = ⟨node.episode, ⟨node.episode, c, .error e⟩ :: node.log⟩) ∨
      ∃ pk g' rb, c.authorization = some pk ∧ pk ∈ node.episode.authorizedParticipants ∧
        node.episode.Accepts c pk g' rb ∧
        node.call c = ⟨g', ⟨node.episode, c, .ok rb⟩ :: node.log⟩ := by
  unfold call
  rcases node.episode.call_cases c with
    ⟨e, hrejects⟩ | ⟨pk, g', rb, hsigned, hauth, haccepts, hcall⟩
  · rw [hrejects]
    exact .inl ⟨e, rfl⟩
  · rw [hcall]
    exact .inr ⟨pk, g', rb, hsigned, hauth, haccepts, rfl⟩

end Node

def Record.Posts (r : Record) (id : ℕ) (author : String) : Prop :=
  r.result = .ok (.commentSubmitted id) ∧
    ∃ text token signature, r.call.cmd = .submitComment text author token signature

/-- Each comment is by the key that authorised its command, each session was registered and revoked
by its own key, and no command depended on the order of a map. -/
structure Attributed (node : Node) : Prop where
  authors : ∀ comment ∈ node.episode.comments, ∃ r ∈ node.log,
    r.Posts comment.id comment.author ∧ r.call.SignedBy comment.author
  sessions : ∀ r ∈ node.log, ∀ key, r.Settles key → r.call.SignedBy key
  orderFree : ∀ r ∈ node.log, ∀ order, r.before.call { r.call with order } = r.before.call r.call

/-- The comments are those that the commands posted, and each id was given out once. -/
structure Linked (node : Node) : Prop where
  posted : ∀ comment ∈ node.episode.comments, ∃ r ∈ node.log, r.Posts comment.id comment.author
  stored : ∀ r ∈ node.log, ∀ id author, r.Posts id author →
    ∃ comment ∈ node.episode.comments, comment.id = id ∧ comment.author = author
  below : ∀ r ∈ node.log, ∀ id author, r.Posts id author → id < node.episode.nextId
  once : ∀ r ∈ node.log, ∀ r' ∈ node.log, ∀ id author author', r.Posts id author →
    r'.Posts id author' → r = r'

namespace Linked
variable {node : Node} {e : EpisodeError CommentError}

theorem start (participants : List PubKey) (md : PayloadMetadata) :
    Linked (.start participants md) where
  posted _ h := by cases h
  stored _ h := by cases h
  below _ h := by cases h
  once _ h := by cases h

theorem rejected (h : Linked node) (c : Call) :
    Linked ⟨node.episode, ⟨node.episode, c, .error e⟩ :: node.log⟩ := by
  have hold : ∀ r ∈ (⟨node.episode, c, .error e⟩ :: node.log : List Record), ∀ id author,
      r.Posts id author → r ∈ node.log := by
    rintro r hr id author hposts
    rcases List.mem_cons.mp hr with rfl | hold
    · cases hposts.1
    · exact hold
  refine ⟨fun comment hcomment => ?_, fun r hr id author hposts => ?_,
    fun r hr id author hposts => ?_, fun r hr r' hr' id author author' hposts hposts' => ?_⟩
  · obtain ⟨r, hr, hposts⟩ := h.posted comment hcomment
    exact ⟨r, List.mem_cons_of_mem _ hr, hposts⟩
  · exact h.stored r (hold r hr id author hposts) id author hposts
  · exact h.below r (hold r hr id author hposts) id author hposts
  · exact h.once r (hold r hr id author hposts) r' (hold r' hr' id author' hposts') id author
      author' hposts hposts'

theorem accepted (h : Linked node) {c : Call} {pk : PubKey} {g' : CommentEpisode}
    {rb : CommentRollback} (haccepts : node.episode.Accepts c pk g' rb) :
    Linked ⟨g', ⟨node.episode, c, .ok rb⟩ :: node.log⟩ := by
  have hnew : ∀ id author, Record.Posts ⟨node.episode, c, .ok rb⟩ id author →
      id = node.episode.nextId ∧ id < g'.nextId := by
    intro id author hposts
    exact haccepts.submitted_id (Except.ok.inj hposts.1)
  have hnone : ∀ r ∈ node.log, ∀ author, ¬ r.Posts node.episode.nextId author := by
    intro r hr author hposts
    exact Nat.lt_irrefl _ (h.below r hr _ author hposts)
  refine ⟨fun comment hcomment => ?_, fun r hr id author hposts => ?_,
    fun r hr id author hposts => ?_, fun r hr r' hr' id author author' hposts hposts' => ?_⟩
  · rcases haccepts.mem_comments.mp hcomment with hold | ⟨hrb, -, -, signature, hcmd⟩
    · obtain ⟨r, hr, hposts⟩ := h.posted comment hold
      exact ⟨r, List.mem_cons_of_mem _ hr, hposts⟩
    · exact ⟨_, List.mem_cons_self, congrArg Except.ok hrb, _, _, signature, hcmd⟩
  · rcases List.mem_cons.mp hr with rfl | hold
    · obtain ⟨hresult, text, token, signature, hcmd⟩ := hposts
      obtain ⟨hid, -⟩ := haccepts.submitted_id (Except.ok.inj hresult)
      refine ⟨⟨id, text, author, c.metadata.acceptingTime, token⟩, ?_, rfl, rfl⟩
      exact haccepts.mem_comments.mpr (.inr ⟨Except.ok.inj hresult, hid, rfl, signature, hcmd⟩)
    · obtain ⟨comment, hcomment, hsame⟩ := h.stored r hold id author hposts
      exact ⟨comment, haccepts.mem_comments.mpr (.inl hcomment), hsame⟩
  · rcases List.mem_cons.mp hr with rfl | hold
    · exact (hnew id author hposts).2
    · exact Nat.lt_of_lt_of_le (h.below r hold id author hposts) haccepts.nextId_le
  · rcases List.mem_cons.mp hr with rfl | hold
    · obtain ⟨rfl, -⟩ := hnew id author hposts
      rcases List.mem_cons.mp hr' with rfl | hold'
      · rfl
      · exact absurd hposts' (hnone r' hold' author')
    · rcases List.mem_cons.mp hr' with rfl | hold'
      · obtain ⟨rfl, -⟩ := hnew id author' hposts'
        exact absurd hposts (hnone r hold author)
      · exact h.once r hold r' hold' id author author' hposts hposts'

theorem call (h : Linked node) (c : Call) : Linked (node.call c) := by
  rcases node.call_cases c with ⟨e, hcall⟩ | ⟨pk, g', rb, -, -, haccepts, hcall⟩
  · rw [hcall]
    exact h.rejected c
  · rw [hcall]
    exact h.accepted haccepts

theorem authors_iff (h : Linked node) :
    (∀ comment ∈ node.episode.comments, ∃ r ∈ node.log,
      r.Posts comment.id comment.author ∧ r.call.SignedBy comment.author) ↔
    ∀ r ∈ node.log, ∀ id author, r.Posts id author → r.call.SignedBy author := by
  constructor
  · intro hauthors r hr id author hposts
    obtain ⟨comment, hcomment, rfl, rfl⟩ := h.stored r hr id author hposts
    obtain ⟨r', hr', hposts', hsigned⟩ := hauthors comment hcomment
    rw [h.once r hr r' hr' _ _ _ hposts hposts']
    exact hsigned
  · intro hrecords comment hcomment
    obtain ⟨r, hr, hposts⟩ := h.posted comment hcomment
    exact ⟨r, hr, hposts, hrecords r hr _ _ hposts⟩

end Linked

/-- The command posted in the name of its signer, settled the session of its signer, and did not
depend on the order of a map. -/
structure Record.Attributed (r : Record) : Prop where
  author : ∀ id author, r.Posts id author → r.call.SignedBy author
  session : ∀ key, r.Settles key → r.call.SignedBy key
  orderFree : ∀ order, r.before.call { r.call with order } = r.before.call r.call

theorem attributed_iff_records {node : Node} (h : Linked node) :
    Attributed node ↔ ∀ r ∈ node.log, r.Attributed := by
  constructor
  · rintro ⟨hauthors, hsessions, horder⟩ r hr
    exact ⟨h.authors_iff.mp hauthors r hr, hsessions r hr, horder r hr⟩
  · intro hrecords
    exact ⟨h.authors_iff.mpr fun r hr => (hrecords r hr).author,
      fun r hr => (hrecords r hr).session, fun r hr => (hrecords r hr).orderFree⟩

section Step
variable {g : CommentEpisode} {c : Call} {pk : PubKey}

theorem Call.signedBy_iff (hsigned : c.authorization = some pk) {key : String} :
    c.SignedBy key ↔ key = displayKey pk := by
  unfold Call.SignedBy
  rw [hsigned, eq_comm]
  exact Option.some_inj

namespace CommentEpisode

theorem call_authorized (hsigned : c.authorization = some pk)
    (hauthorized : pk ∈ g.authorizedParticipants) (order : Traversal String String) :
    g.call { c with order } = g.executeCommand order pk c.metadata c.cmd := by
  unfold call execute
  dsimp only
  rw [hsigned]
  dsimp only
  rw [if_neg (not_not.mpr hauthorized)]

theorem AllHonest.record (h : g.AllHonest c) : Record.Attributed ⟨g, c, (g.call c).2⟩ := by
  refine ⟨fun id author hposts => ?_, fun key hsettles => ?_, h.order_free⟩
  · obtain ⟨hresult, text, token, signature, hcmd⟩ := hposts
    rcases g.call_cases c with ⟨e, hcall⟩ | ⟨pk, g', rb, hsigned, hauthorized, haccepts, hcall⟩
    · rw [hcall] at hresult
      cases hresult
    -- `SubmitComment` checks the session, but never that its author is the signer
    · have hhonest := h pk hsigned hauthorized
      apply (Call.signedBy_iff hsigned).mpr
      rw [hcall] at hresult
      cases haccepts with
      | submitted hcmd' hblank hlong hsession =>
        cases hcmd.symm.trans hcmd'
        rw [hcmd] at hhonest
        exact hhonest hblank hlong hsession
      | queried | registered | revoked => cases hresult
  · rcases g.call_cases c with ⟨e, hcall⟩ | ⟨pk, g', rb, hsigned, hauthorized, haccepts, hcall⟩
    · rw [hcall] at hsettles
      rcases hsettles with hresult | ⟨token, hresult⟩
      · cases hresult
      · cases hresult
    · have hhonest := h pk hsigned hauthorized
      apply (Call.signedBy_iff hsigned).mpr
      rw [hcall] at hsettles
      cases haccepts with
      | submitted | queried =>
        rcases hsettles with hresult | ⟨token, hresult⟩
        · cases hresult
        · cases hresult
      | registered hcmd =>
        rw [hcmd] at hhonest
        rcases hsettles with hresult | ⟨token, hresult⟩
        · cases hresult
          exact hhonest
        · cases hresult
      | revoked hcmd hholder =>
        rw [hcmd] at hhonest
        rcases hsettles with hresult | ⟨token, hresult⟩
        · cases hresult
        · cases hresult
          exact hhonest key (holder_some hholder).2

theorem AllHonest.of_record (h : Record.Attributed ⟨g, c, (g.call c).2⟩) : g.AllHonest c := by
  intro pk hsigned hauthorized
  have hcall := call_authorized hsigned hauthorized
  have hsame : g.call c = g.executeCommand c.order pk c.metadata c.cmd := hcall c.order
  cases hcmd : c.cmd with
  | submitComment text author token signature =>
    intro hblank hlong hsession
    apply (Call.signedBy_iff hsigned).mp
    apply h.author g.nextId author
    refine ⟨?_, text, token, signature, hcmd⟩
    dsimp only
    rw [hsame, hcmd]
    dsimp only [executeCommand]
    unfold executeSubmitComment
    rw [if_neg (by simp [hblank]), if_neg (Nat.not_lt_of_le hlong), if_neg (not_not.mpr hsession)]
  | registerSession key token ep =>
    apply (Call.signedBy_iff hsigned).mp
    apply h.session key
    left
    dsimp only
    rw [hsame, hcmd]
    rfl
  | revokeSession token =>
    intro key hkey
    apply (Call.signedBy_iff hsigned).mp
    apply h.session key
    right
    refine ⟨token, ?_⟩
    dsimp only
    -- in an order that begins with the key, its session is the one that is revoked
    rw [← h.orderFree (.startingAt key), hcall, hcmd]
    dsimp only [executeCommand]
    unfold executeRevokeSession
    rw [holder_startingAt hkey]
  | getComments token => trivial
  | getCommentsByAuthor author token => trivial

end CommentEpisode

theorem attributed_records_iff (participants : List PubKey) (md : PayloadMetadata)
    (calls : List Call) :
    (∀ r ∈ (after Node.call (.start participants md) calls).log, r.Attributed) ↔
      Throughout (fun earlier c =>
        (after Node.call (.start participants md) earlier).episode.AllHonest c) calls := by
  induction calls using List.reverseRecOn with
  | nil => exact iff_of_true (fun r hr => by cases hr) Throughout.nil
  | append_singleton calls c ih =>
    rw [Throughout.concat, after_concat, ← ih]
    unfold Node.call
    dsimp only
    rw [List.forall_mem_cons, and_comm]
    apply and_congr_right
    intro _
    exact ⟨CommentEpisode.AllHonest.of_record, CommentEpisode.AllHonest.record⟩

end Step

theorem linked_after (participants : List PubKey) (md : PayloadMetadata) (calls : List Call) :
    Linked (after Node.call (.start participants md) calls) := by
  induction calls using List.reverseRecOn with
  | nil => exact .start participants md
  | append_singleton calls c ih =>
    rw [after_concat]
    exact ih.call c

/-- In every run, comments and sessions are those of the signers if and only if all commands are
honest. -/
theorem attributed_iff_honest (participants : List PubKey) (md : PayloadMetadata)
    (calls : List Call) :
    Attributed (after Node.call (.start participants md) calls) ↔
      Throughout (fun earlier c =>
        (after Node.call (.start participants md) earlier).episode.AllHonest c) calls := by
  rw [attributed_iff_records (linked_after participants md calls)]
  exact attributed_records_iff participants md calls

end Kdapp.CommentStore

namespace Kdapp.CommentStore
open InOrder Transition
open Kdapp.CommentBoard (displayKey)
attribute [local instance] idealCrypto

def md : PayloadMetadata := ⟨Hash.filled 1, 1, 1000, Hash.filled 2, none⟩

def byFirst (cmd : CommentCommand) : Call :=
  ⟨cmd, some (1 : UInt8), md, .startingAt ""⟩

def impersonation : List Call :=
  [byFirst (.registerSession (displayKey (1 : UInt8)) "t" 1),
    byFirst (.submitComment "hello" (displayKey (2 : UInt8)) "t" "")]

theorem foreign_author :
    ¬ ∀ (participants : List PubKey) (md : PayloadMetadata) (calls : List Call),
      Attributed (after Node.call (.start participants md) calls) := by
  intro h
  have hauthors := (h [(1 : UInt8), (2 : UInt8)] md impersonation).authors
  have hcomments : (after Node.call (.start [(1 : UInt8), (2 : UInt8)] md)
      impersonation).episode.comments =
        [⟨1, "hello", displayKey (2 : UInt8), 1000, "t"⟩] := by decide +kernel
  have hcalls : (after Node.call (.start [(1 : UInt8), (2 : UInt8)] md) impersonation).log.map
      (·.call) = impersonation.reverse := rfl
  rw [hcomments] at hauthors
  obtain ⟨r, hr, -, hsigned⟩ := hauthors _ List.mem_cons_self
  have hcall : r.call ∈ impersonation.reverse := hcalls ▸ List.mem_map_of_mem hr
  have hfirst : r.call.authorization = some (1 : UInt8) := by
    rcases List.mem_cons.mp hcall with hr | hr
    · rw [hr]
      rfl
    · rw [List.mem_singleton.mp hr]
      rfl
  have hkeys : displayKey (2 : UInt8) = displayKey (1 : UInt8) :=
    (Call.signedBy_iff hfirst).mp hsigned
  exact absurd hkeys (by decide)

end Kdapp.CommentStore
