import Kdapp.CommentBoard.Rules
import Kdapp.Engine.Lockstep
import Kdapp.Engine.Totality

/-! A participant joins a room whose board others have had for a while
(`comment-board/src/participant/init.rs`): its engine opens a board of its own under the same id.
What the boards of two engines gain from the same blocks. -/

namespace Kdapp.CommentBoard
open Std (ExtTreeMap)

variable [Crypto]

namespace ContractCommentBoard
variable {g f j : ContractCommentBoard} {metadata : PayloadMetadata} {auth : Option PubKey}
  {cmd : ContractCommand}

def posting (g : ContractCommentBoard) (metadata : PayloadMetadata) (auth : Option PubKey) :
    ContractCommand → List EconomicComment
  | .submitComment text bondAmount _ _ =>
    auth.toList.map fun pk =>
      ⟨g.nextCommentId, text, displayKey pk, metadata.acceptingTime, bondAmount⟩
  | _ => []

def gains (g : ContractCommentBoard) (metadata : PayloadMetadata) (auth : Option PubKey)
    (cmd : ContractCommand) : List EconomicComment :=
  if g.Admits metadata auth cmd then g.posting metadata auth cmd else []

theorem execute_comments (g : ContractCommentBoard) (metadata : PayloadMetadata)
    (auth : Option PubKey) (cmd : ContractCommand) :
    (g.execute metadata auth cmd).1.contract.comments =
      g.contract.comments ++ g.gains metadata auth cmd := by
  unfold gains
  rcases g.execute_cases metadata auth cmd with
    ⟨hnot, e, he⟩ | ⟨hadmits, pk, rb, g', rfl, hok, hacc⟩
  · rw [he, if_neg hnot, List.append_nil]
  · rw [hok, if_pos hadmits]
    cases hacc with
    | joinRoom | requestChallenge | submitResponse => exact (List.append_nil _).symm
    | submitComment hcheck => rfl

theorem execute_frame (g : ContractCommentBoard) (metadata : PayloadMetadata)
    (auth : Option PubKey) (cmd : ContractCommand) :
    (g.execute metadata auth cmd).1.contract.roomRules = g.contract.roomRules ∧
      (g.execute metadata auth cmd).1.contractExpiresAt = g.contractExpiresAt := by
  rcases g.execute_cases metadata auth cmd with ⟨-, e, he⟩ | ⟨-, pk, rb, g', -, hok, hacc⟩
  · rw [he]
    exact ⟨rfl, rfl⟩
  · rw [hok]
    cases hacc <;> exact ⟨rfl, rfl⟩

omit [Crypto] in
theorem checkComment_congr (h : f.contract.roomRules = j.contract.roomRules) {text : String}
    {bond : UInt64} {idx : Option UInt32} {script : Option BondScriptKind} :
    f.checkComment metadata text bond idx script =
      j.checkComment metadata text bond idx script := by
  unfold checkComment
  rw [h]

end ContractCommentBoard

structure Copy (c c' : EconomicComment) : Prop where
  text : c.text = c'.text
  author : c.author = c'.author
  timestamp : c.timestamp = c'.timestamp
  bondAmount : c.bondAmount = c'.bondAmount

def inTime (deadline deadline' : UInt64) (c : EconomicComment) : Bool :=
  decide (c.timestamp ≤ deadline ∧ c.timestamp ≤ deadline')

structure Keeps (old : List EconomicComment) (deadline : UInt64) (gained : List EconomicComment)
    (g : ContractCommentBoard) : Prop where
  rules : g.contract.roomRules = .default
  expires : g.contractExpiresAt = deadline
  comments : g.contract.comments = old ++ gained

def GainAlike (old old' : List EconomicComment) (deadline deadline' : UInt64)
    (g g' : ContractCommentBoard) : Prop :=
  ∃ gained gained', Keeps old deadline gained g ∧ Keeps old' deadline' gained' g' ∧
    List.Forall₂ Copy (gained.filter (inTime deadline deadline'))
      (gained'.filter (inTime deadline deadline'))

section Boards
variable {old old' gained gained' : List EconomicComment} {deadline deadline' : UInt64}
  {g g' : ContractCommentBoard} {metadata : PayloadMetadata} {auth : Option PubKey}
  {cmd : ContractCommand}

theorem Keeps.execute (h : Keeps old deadline gained g) (metadata : PayloadMetadata)
    (auth : Option PubKey) (cmd : ContractCommand) :
    Keeps old deadline (gained ++ g.gains metadata auth cmd) (g.execute metadata auth cmd).1 := by
  obtain ⟨hrules, hexpires⟩ := g.execute_frame metadata auth cmd
  refine ⟨hrules.trans h.rules, hexpires.trans h.expires, ?_⟩
  rw [g.execute_comments, h.comments, List.append_assoc]

theorem Keeps.admits_iff (h : Keeps old deadline gained g) (h' : Keeps old' deadline' gained' g')
    (htime : metadata.acceptingTime ≤ deadline) (htime' : metadata.acceptingTime ≤ deadline')
    {text : String} {bond : UInt64} {idx : Option UInt32} {script : Option BondScriptKind} :
    g.Admits metadata auth (.submitComment text bond idx script) ↔
      g'.Admits metadata auth (.submitComment text bond idx script) := by
  have hcheck : g.checkComment metadata text bond idx script =
      g'.checkComment metadata text bond idx script :=
    ContractCommentBoard.checkComment_congr (h.rules.trans h'.rules.symm)
  rw [← h.expires] at htime
  rw [← h'.expires] at htime'
  constructor
  · rintro ⟨hauth, -, hadmits⟩
    exact ⟨hauth, htime', hcheck.symm.trans hadmits⟩
  · rintro ⟨hauth, -, hadmits⟩
    exact ⟨hauth, htime, hcheck.trans hadmits⟩

theorem posting_copies (g g' : ContractCommentBoard) (metadata : PayloadMetadata)
    (auth : Option PubKey) (cmd : ContractCommand) :
    List.Forall₂ Copy (g.posting metadata auth cmd) (g'.posting metadata auth cmd) := by
  cases cmd with
  | joinRoom | requestChallenge | submitResponse => exact .nil
  | submitComment text bond idx script =>
    cases auth with
    | none => exact .nil
    | some pk => exact .cons ⟨rfl, rfl, rfl, rfl⟩ .nil

theorem gains_late (hlate : ¬ (metadata.acceptingTime ≤ deadline ∧
    metadata.acceptingTime ≤ deadline')) (g : ContractCommentBoard) :
    (g.gains metadata auth cmd).filter (inTime deadline deadline') = [] := by
  apply List.filter_eq_nil_iff.mpr
  intro c hc hin
  have hposted : c ∈ g.posting metadata auth cmd := by
    unfold ContractCommentBoard.gains at hc
    split at hc
    · exact hc
    · exact absurd hc List.not_mem_nil
  apply hlate
  cases cmd with
  | joinRoom | requestChallenge | submitResponse => exact absurd hposted List.not_mem_nil
  | submitComment text bond idx script =>
    obtain ⟨pk, -, rfl⟩ := List.mem_map.mp hposted
    exact of_decide_eq_true hin

theorem Keeps.gains_alike (h : Keeps old deadline gained g)
    (h' : Keeps old' deadline' gained' g') (metadata : PayloadMetadata) (auth : Option PubKey)
    (cmd : ContractCommand) :
    List.Forall₂ Copy ((g.gains metadata auth cmd).filter (inTime deadline deadline'))
      ((g'.gains metadata auth cmd).filter (inTime deadline deadline')) := by
  by_cases htime : metadata.acceptingTime ≤ deadline ∧ metadata.acceptingTime ≤ deadline'
  swap
  · rw [gains_late htime, gains_late htime]
    exact .nil
  have hgains : List.Forall₂ Copy (g.gains metadata auth cmd) (g'.gains metadata auth cmd) := by
    unfold ContractCommentBoard.gains
    cases cmd with
    | joinRoom | requestChallenge | submitResponse =>
      simp only [ContractCommentBoard.posting, ite_self]
      exact .nil
    | submitComment text bond idx script =>
      have hboth : g.Admits metadata auth (.submitComment text bond idx script) ↔
          g'.Admits metadata auth (.submitComment text bond idx script) :=
        h.admits_iff h' htime.1 htime.2
      by_cases hadmits : g.Admits metadata auth (.submitComment text bond idx script)
      · rw [if_pos hadmits, if_pos (hboth.mp hadmits)]
        exact posting_copies g g' metadata auth _
      · rw [if_neg hadmits, if_neg fun hadmits' => hadmits (hboth.mpr hadmits')]
        exact .nil
  apply List.rel_filter _ hgains
  intro c c' hcopy
  dsimp only [inTime]
  rw [hcopy.timestamp]

theorem GainAlike.execute (h : GainAlike old old' deadline deadline' g g')
    (metadata : PayloadMetadata) (auth : Option PubKey) (cmd : ContractCommand) :
    GainAlike old old' deadline deadline' (g.execute metadata auth cmd).1
      (g'.execute metadata auth cmd).1 := by
  obtain ⟨gained, gained', hkeeps, hkeeps', hcopies⟩ := h
  refine ⟨_, _, hkeeps.execute metadata auth cmd, hkeeps'.execute metadata auth cmd, ?_⟩
  rw [List.filter_append, List.filter_append]
  exact List.rel_append hcopies (hkeeps.gains_alike hkeeps' metadata auth cmd)

end Boards

section Engines
variable {id : EpisodeId}

theorem run_execute {g g' : ContractCommentBoard} {cmd : ContractCommand} {auth : Option PubKey}
    {md : PayloadMetadata} {res : Except (EpisodeError ContractError) ContractRollback}
    {w w' : Unit} (h : (Episode.execute g cmd auth md).run w = .ok ((g', res), w')) :
    g' = (g.execute md auth cmd).1 := by
  change Except.ok (g.execute md auth cmd, w) = _ at h
  rw [(Prod.mk.inj (Except.ok.inj h)).1]

theorem rules_kept : Engine.Kept fun ew : EpisodeWrapper ContractCommentBoard =>
    ew.episode.contract.roomRules = .default where
  created ps md w g w' hinit := by
    cases hinit
    rfl
  rejected ew cmd auth md w g e w' h hexec := by
    rw [run_execute hexec]
    exact (ew.episode.execute_frame md auth cmd).1.trans h
  executed ew cmd auth md w g rb w' h hexec := by
    rw [run_execute hexec]
    exact (ew.episode.execute_frame md auth cmd).1.trans h
  popped ew rb rbs w g b w' h hstack hroll := by
    have hback : g = (ew.episode.rollback rb).1 := by
      change Except.ok (ew.episode.rollback rb, w) = _ at hroll
      rw [(Prod.mk.inj (Except.ok.inj hroll)).1]
    rw [hback, (ew.episode.rollback_untouched rb).roomRules]
    exact h

theorem rules_of_start {msgs : List EngineMsg} {s : Engine ContractCommentBoard}
    {calls : List (HandlerCall ContractCommentBoard)} {ew : EpisodeWrapper ContractCommentBoard}
    (h : Engine.start msgs (Engine.new ()) = .ok (s, calls)) (hew : s.episodes[id]? = some ew) :
    ew.episode.contract.roomRules = .default :=
  rules_kept.preserved.start (Engine.each_new ()) h id ew hew

/-- Two engines, whatever each was told before, hold boards of a room, and accept the same blocks
before either drops the room. Among the comments that are within the time of both contracts the
boards gain the same ones, in the same order: one that was opened late lacks what came before it
and nothing else. -/
theorem boards_gain_alike (earlier earlier' : List EngineMsg) (blks : List BlkAccepted)
    {s s' t t' : Engine ContractCommentBoard}
    {calls calls' calls₁ calls₁' : List (HandlerCall ContractCommentBoard)}
    {ew ew' : EpisodeWrapper ContractCommentBoard} {created created' : UInt64}
    (hs : Engine.start earlier (Engine.new ()) = .ok (s, calls))
    (ht : Engine.start earlier' (Engine.new ()) = .ok (t, calls'))
    (hew : s.episodes[id]? = some ew) (hew' : t.episodes[id]? = some ew')
    (hcreated : s.episodeCreationTimes[id]? = some created)
    (hcreated' : t.episodeCreationTimes[id]? = some created')
    (hyoung : ∀ blk ∈ blks, Engine.Young created created' blk)
    (hrun : Engine.start (blks.map .blkAccepted) s = .ok (s', calls₁))
    (hrun' : Engine.start (blks.map .blkAccepted) t = .ok (t', calls₁')) :
    ∃ last last' gained gained', s'.episodes[id]? = some last ∧ t'.episodes[id]? = some last' ∧
      last.episode.contract.comments = ew.episode.contract.comments ++ gained ∧
      last'.episode.contract.comments = ew'.episode.contract.comments ++ gained' ∧
      List.Forall₂ Copy
        (gained.filter (inTime ew.episode.contractExpiresAt ew'.episode.contractExpiresAt))
        (gained'.filter (inTime ew.episode.contractExpiresAt ew'.episode.contractExpiresAt)) := by
  have hlockstep : Engine.Lockstep (Engine.Young created created')
      (Engine.BothHold (GainAlike ew.episode.contract.comments ew'.episode.contract.comments
        ew.episode.contractExpiresAt ew'.episode.contractExpiresAt) id created created') := by
    apply Engine.bothHold_lockstep
    intro g g' cmd auth md w w' h h' res res' v v' halike hexec hexec'
    rw [run_execute hexec, run_execute hexec']
    exact halike.execute md auth cmd
  have hkeeps : Keeps ew.episode.contract.comments ew.episode.contractExpiresAt [] ew.episode :=
    ⟨rules_of_start hs hew, rfl, (List.append_nil _).symm⟩
  have hkeeps' : Keeps ew'.episode.contract.comments ew'.episode.contractExpiresAt [] ew'.episode :=
    ⟨rules_of_start ht hew', rfl, (List.append_nil _).symm⟩
  have hstart : Engine.BothHold (GainAlike _ _ _ _) id created created' s t :=
    ⟨⟨ew, ew', hew, hew', [], [], hkeeps, hkeeps', .nil⟩, hcreated, hcreated'⟩
  have hend := hlockstep.start hyoung hstart hrun hrun'
  obtain ⟨last, last', hlast, hlast', gained, gained', hgained, hgained', hcopies⟩ := hend.held
  exact ⟨last, last', gained, gained', hlast, hlast', hgained.comments, hgained'.comments,
    hcopies⟩

end Engines
end Kdapp.CommentBoard

namespace Kdapp.CommentBoard
open Outcome
open Std (ExtTreeMap)
attribute [local instance] idealCrypto

def roomBlock (n : UInt8) (time : UInt64) (a : Option (EpisodeMessage ContractCommentBoard)) :
    BlkAccepted where
  acceptingHash := Hash.filled n
  acceptingDaa := time
  acceptingTime := time
  associatedTxs := [(Hash.filled (n + 100), (a.bind EpisodeMessage.codec.serialize).getD [], none)]

def remark (n : UInt8) (text : String) : BlkAccepted :=
  roomBlock n 12 (EpisodeMessage.newSignedCommand 5 (.submitComment text 0 none none)
    (1 : UInt8) (1 : UInt8))

def opening (n : UInt8) : EngineMsg := .blkAccepted (roomBlock n 10 (some (.newEpisode 5 [])))

def remarks (s : Engine ContractCommentBoard) : Option (List String) :=
  (s.episodes[(5 : EpisodeId)]?).map fun ew => ew.episode.contract.comments.map (·.text)

def joined (p : Engine ContractCommentBoard × List (HandlerCall ContractCommentBoard)) :
    Option (List String) × Option UInt64 × Option (Option (List String)) :=
  (remarks p.1, p.1.episodeCreationTimes[(5 : EpisodeId)]?,
    (Engine.start [.blkAccepted (remark 4 "there")] p.1).toOption.map fun p => remarks p.1)

theorem remarks_eq {s : Engine ContractCommentBoard} {texts : List String}
    (h : remarks s = some texts) : ∃ ew, s.episodes[(5 : EpisodeId)]? = some ew ∧
      ew.episode.contract.comments.map (·.text) = texts :=
  Option.map_eq_some_iff.mp h

/-- One engine has a comment when the other opens its board; both get the next one. -/
theorem boards_gain_alike_second :
    ∃ (s s' t t' : Engine ContractCommentBoard)
      (calls calls' calls₁ calls₁' : List (HandlerCall ContractCommentBoard))
      (ew ew' : EpisodeWrapper ContractCommentBoard),
      Engine.start [opening 1, .blkAccepted (remark 2 "hi")] (Engine.new ()) = .ok (s, calls) ∧
      Engine.start [opening 3] (Engine.new ()) = .ok (t, calls') ∧
      Engine.start ([remark 4 "there"].map .blkAccepted) s = .ok (s', calls₁) ∧
      Engine.start ([remark 4 "there"].map .blkAccepted) t = .ok (t', calls₁') ∧
      s.episodes[(5 : EpisodeId)]? = some ew ∧ t.episodes[(5 : EpisodeId)]? = some ew' ∧
      ew.episode.contract.comments.map (·.text) = ["hi"] ∧
      ew'.episode.contract.comments = [] ∧
      ∃ last last' gained gained', s'.episodes[(5 : EpisodeId)]? = some last ∧
        t'.episodes[(5 : EpisodeId)]? = some last' ∧
        last.episode.contract.comments = ew.episode.contract.comments ++ gained ∧
        last'.episode.contract.comments = gained' ∧
        gained.map (·.text) = ["there"] ∧ gained'.map (·.text) = ["there"] ∧
        List.Forall₂ Copy
          (gained.filter (inTime ew.episode.contractExpiresAt ew'.episode.contractExpiresAt))
          (gained'.filter (inTime ew.episode.contractExpiresAt ew'.episode.contractExpiresAt)) := by
  have hfounded : (Engine.start [opening 1, .blkAccepted (remark 2 "hi")]
      (Engine.new ())).toOption.map joined =
        some (some ["hi"], some 10, some (some ["hi", "there"])) := by
    decide +kernel
  have hjoined : (Engine.start [opening 3] (Engine.new ())).toOption.map joined =
      some (some [], some 10, some (some ["there"])) := by
    decide +kernel
  obtain ⟨⟨s, calls⟩, hs, hsvalues⟩ := exists_of_map hfounded
  obtain ⟨⟨t, calls'⟩, ht, htvalues⟩ := exists_of_map hjoined
  obtain ⟨hsheld, hsrest⟩ := Prod.mk.inj hsvalues
  obtain ⟨hssince, hsnext⟩ := Prod.mk.inj hsrest
  obtain ⟨htheld, htrest⟩ := Prod.mk.inj htvalues
  obtain ⟨htsince, htnext⟩ := Prod.mk.inj htrest
  obtain ⟨⟨s', calls₁⟩, hrun, hsafter⟩ := exists_of_map hsnext
  obtain ⟨⟨t', calls₁'⟩, hrun', htafter⟩ := exists_of_map htnext
  obtain ⟨ew, hew, htexts⟩ := remarks_eq hsheld
  obtain ⟨ew', hew', htexts'⟩ := remarks_eq htheld
  have hnone : ew'.episode.contract.comments = [] := List.map_eq_nil_iff.mp htexts'
  obtain ⟨last, last', gained, gained', hlast, hlast', hgained, hgained', hcopies⟩ :=
    boards_gain_alike _ _ [remark 4 "there"] hs ht hew hew' hssince htsince (fun blk hblk => by
      obtain rfl := List.mem_singleton.mp hblk
      exact ⟨by decide, by decide⟩) hrun hrun'
  obtain ⟨w, hw, hmore⟩ := remarks_eq hsafter
  obtain ⟨w', hw', hmore'⟩ := remarks_eq htafter
  obtain rfl := Option.some.inj (hlast.symm.trans hw)
  obtain rfl := Option.some.inj (hlast'.symm.trans hw')
  rw [hgained, List.map_append, htexts] at hmore
  rw [hgained', List.map_append, htexts'] at hmore'
  refine ⟨s, s', t, t', calls, calls', calls₁, calls₁', ew, ew', hs, ht, hrun, hrun', hew, hew',
    htexts, hnone, last, last', gained, gained', hlast, hlast', hgained, ?_, ?_, hmore', hcopies⟩
  · rw [hgained', hnone, List.nil_append]
  · exact List.append_cancel_left hmore

end Kdapp.CommentBoard
