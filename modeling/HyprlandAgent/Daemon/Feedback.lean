import Mathlib.Data.List.Chain
import HyprlandAgent.Daemon.Legal
import HyprlandAgent.Daemon.OutcomeRow
import HyprlandAgent.Daemon.Rehearsal

-- Two writers of one outcome row: the executor's finalisation and the feedback of
-- the user, whose call stores the feedback first and its outcome after.
namespace HyprlandAgent
open Coroutine RunExecutor Transition
variable {h : Host} {run : RunId} {l : Loop effects TaskId World}

def thumb (kind : String) : Bool := kind == "thumbs_up" || kind == "thumbs_down"

def FeedbackRow.outcome (row : FeedbackRow) : RunOutcome := (feedbackToOutcome row.kind).1

def Rows.latestThumb (rows : Rows) : Option FeedbackRow :=
  (rows.feedback.filter fun row => thumb row.kind).getLast?

theorem thumb_iff {kind : String} : thumb kind = true ↔ (feedbackToOutcome kind).1 ≠ .unknown := by
  unfold thumb feedbackToOutcome
  split
  · simp_all
  · split <;> simp_all

def Decided (run : RunId) (l : Loop effects TaskId World) (outcome : RunOutcome) : Prop :=
  ∃ row, (l.world.cells run).rows.outcome = some row ∧ row.source = .explicit ∧ row.outcome = outcome

def Decides (run : RunId) (outcome : RunOutcome) (task : Option (Task effects)) : Prop :=
  ∃ score rationale more c,
    task = some (.live (.await (.store run (.upsertRunOutcome outcome score .explicit rationale)) more) c)

-- The row holds what the latest stored thumb says, unless a call that records it is not
-- through; and no derived outcome ever came after an explicit one.
structure FeedbackKept (run : RunId) (l : Loop effects TaskId World) : Prop where
  latest : ∀ row, (l.world.cells run).rows.latestThumb = some row →
    Decided run l row.outcome ∨ ∃ i, Decides run row.outcome (l.tasks i)
  never : (l.world.ledgers run).outcomes.IsChain fun before after =>
    before.source = .explicit → after.source = .explicit

abbrev Happening := Event effects TaskId Choice Callback Outside

def Coming (run : RunId) (l : Loop effects TaskId World) (event : Happening) (outcome : RunOutcome) : Prop :=
  ∃ i, (∀ reply choice, event ≠ .act i reply choice) ∧ Decides run outcome (l.tasks i)

def answered (run : RunId) (write : StoreWrite) : Happening → Bool
  | .act _ reply _ => !World.failed (reply (.store run write))
  | _ => false

-- The order that keeps the feedback. A derived outcome is not written over an explicit
-- one; whatever outcome is written while a thumb is stored is that thumb's, or its call
-- is still to write; a thumb is stored by a call that goes on, and that goes on until
-- its outcome is written, unless that outcome is there already or on its way.
structure Heeds (run : RunId) (l : Loop effects TaskId World) (event : Happening) : Prop where
  derived : ∀ outcome score rationale row,
    carriedOut run l event = some (.upsertRunOutcome outcome score .derived rationale) →
    (l.world.cells run).rows.outcome = some row → row.source = .derived
  replaced : ∀ outcome score source rationale row,
    carriedOut run l event = some (.upsertRunOutcome outcome score source rationale) →
    (l.world.cells run).rows.latestThumb = some row →
    source = .explicit ∧ outcome = row.outcome ∨ Coming run l event row.outcome
  stored : ∀ kind comment, carriedOut run l event = some (.insertFeedback kind comment) → thumb kind = true →
    answered run (.insertFeedback kind comment) event = true ∨
      Decided run l (feedbackToOutcome kind).1 ∨ Coming run l event (feedbackToOutcome kind).1
  cut : ∀ i reply choice row, event = .act i reply choice → carriedOut run l event = none →
    (l.world.cells run).rows.latestThumb = some row → Decides run row.outcome (l.tasks i) →
    Decided run l row.outcome ∨ Coming run l event row.outcome

structure Faithful (run : RunId) (p : Async Unit) : Prop where
  next : ∀ kind comment more id, p = .await (.store run (.insertFeedback kind comment)) more →
    thumb kind = true → ∃ score rationale rest, more (.ok id) =
      .await (.store run (.upsertRunOutcome (feedbackToOutcome kind).1 score .explicit rationale)) rest
  only : ∀ op more reply outcome score rationale rest, p = .await op more →
    more reply = .await (.store run (.upsertRunOutcome outcome score .explicit rationale)) rest →
    ∃ kind comment, op = .store run (.insertFeedback kind comment) ∧ World.failed reply = false ∧
      outcome = (feedbackToOutcome kind).1

theorem ended_faithful {p : Async Unit} (ended : ∀ op more, p ≠ .await op more) : Faithful run p :=
  ⟨fun _ _ _ _ same => absurd same (ended _ _),fun _ _ _ _ _ _ _ same => absurd same (ended _ _)⟩

abbrev feedbackCall (run : RunId) (kind : String) (comment : Option String) : Async Unit := do
  let _ ← recordFeedback run kind comment

theorem recordOutcome_thumb {kind : String} {comment : Option String} (isThumb : thumb kind = true) :
    recordOutcome run kind comment = .perform (S:=effects) (.store run
      (.upsertRunOutcome (feedbackToOutcome kind).1 (feedbackToOutcome kind).2 .explicit comment)) := by
  unfold recordOutcome
  exact if_pos (thumb_iff.mp isThumb)

theorem recordOutcome_other {kind : String} {comment : Option String} (other : ¬ thumb kind = true) :
    recordOutcome run kind comment = .ret () := by
  unfold recordOutcome
  exact if_neg fun known => other (thumb_iff.mpr known)

def outcomeCall (run : RunId) (kind : String) (comment : Option String) (told : Dict) : Async Unit :=
  (do recordOutcome run kind comment; return told : Async Dict) >>= fun _ => pure ()

theorem outcomeCall_thumb {kind : String} (comment : Option String) (told : Dict) (isThumb : thumb kind = true) :
    ∃ rest, outcomeCall run kind comment told = .await (.store run
        (.upsertRunOutcome (feedbackToOutcome kind).1 (feedbackToOutcome kind).2 .explicit comment)) rest ∧
      ∀ reply op more, rest reply ≠ .await op more := by
  unfold outcomeCall
  rw [recordOutcome_thumb isThumb]
  refine ⟨_,rfl,?_⟩
  intro reply op more same
  cases reply <;> cases same

theorem outcomeCall_other {kind : String} (comment : Option String) (told : Dict) (other : ¬ thumb kind = true) :
    outcomeCall run kind comment told = .ret () := by
  unfold outcomeCall
  rw [recordOutcome_other other]
  rfl

theorem outcomeCall_only {kind : String} {comment : Option String} {told : Dict}
    (goes : outcomeCall run kind comment told =
      .await (.store run (.upsertRunOutcome outcome score .explicit rationale)) rest) :
    outcome = (feedbackToOutcome kind).1 := by
  by_cases isThumb : thumb kind = true
  · obtain ⟨others,first,_⟩ := outcomeCall_thumb comment told isThumb
    cases first.symm.trans goes
    rfl
  · cases (outcomeCall_other comment told isThumb).symm.trans goes

theorem outcomeCall_faithful (kind : String) (comment : Option String) (told : Dict) :
    (outcomeCall run kind comment told).Every (Faithful run) := by
  by_cases isThumb : thumb kind = true
  · obtain ⟨rest,goes,ended⟩ : ∃ rest, outcomeCall run kind comment told = .await _ rest ∧ _ :=
      outcomeCall_thumb comment told isThumb
    rw [goes]
    refine ⟨⟨?_,?_⟩,?_⟩
    · intro kind more id _ same
      cases same
    · intro op more reply outcome score rationale others same further
      cases same
      exact absurd further (ended _ _ _)
    · intro reply
      cases last : rest reply with
      | await op more => exact absurd last (ended _ _ _)
      | _ => exact ended_faithful fun op more same => by cases same
  · rw [outcomeCall_other comment told isThumb]
    exact ended_faithful fun op more same => by cases same

theorem feedbackCall_faithful (kind : String) (comment : Option String) :
    (feedbackCall run kind comment).Every (Faithful run) := by
  unfold feedbackCall recordFeedback
  split
  · exact ended_faithful fun op more same => by cases same
  · refine ⟨⟨?_,?_⟩,?_⟩
    · intro kind comment more id same isThumb
      cases same
      obtain ⟨rest,goes,_⟩ := outcomeCall_thumb comment (dict _) isThumb
      exact ⟨_,_,rest,goes⟩
    · intro op more reply outcome score rationale rest same goes
      cases same
      cases reply with
      | error exc => cases goes
      | ok id =>
        change outcomeCall run kind comment (dict [("feedback_id",.int id),_]) = _ at goes
        exact ⟨kind,comment,rfl,rfl,outcomeCall_only goes⟩
    · intro reply
      cases reply with
      | error exc => exact ended_faithful fun op more same => by cases same
      | ok id => exact outcomeCall_faithful kind comment _

def FeedbackForm (i : TaskId) (p : Async Unit) : Prop := ∀ n, i.slot = .feedback n → p.Every (Faithful i.run)

theorem feedbackForm_step {l next : Loop effects TaskId World} (running : Running FeedbackForm l)
    (step : Advance (daemon h) l event next) : Running FeedbackForm next := by
  refine running_step ?_ ?_ ?_ running step
  · intro i op more reply formed n slot
    exact (formed n slot).next reply
  · intro op i program spawned n slot
    cases op with
    | createTask run kind task brain =>
      cases spawned
      cases slot
    | _ => cases spawned
  · intro kind world phases arrival i program occurred spawns n slot
    cases callback_cases occurred with
    | submit fresh unborn =>
      cases spawns
      cases slot
    | feedback fresh =>
      cases spawns
      exact feedbackCall_faithful _ _
    | _ => cases spawns

structure Grounded (l : Loop effects TaskId World) : Prop where
  lawful : Legal legal l
  forms : Running FeedbackForm l
  last : lastDecides l.world

theorem grounded_step {l next : Loop effects TaskId World} (grounded : Grounded l)
    (step : Advance (daemon h) l event next) : Grounded next :=
  ⟨legal_step grounded.lawful step,feedbackForm_step grounded.forms step,lastDecides_step grounded.last step⟩

theorem carriedOut_some {write : StoreWrite} (done : carriedOut run l event = some write) :
    (∃ i reply choice more c, event = .act i reply choice ∧
        l.tasks i = some (.live (.await (.store run write) more) c)) ∨
      ∃ index now, event = .outside (.land run index now) := by
  cases event with
  | act i reply choice =>
    simp only [carriedOut] at done
    split at done
    · rename_i other asked more c there
      split at done
      · rename_i carried
        obtain ⟨rfl,_⟩ := carried
        cases done
        exact .inl ⟨i,reply,choice,more,c,rfl,there⟩
      · cases done
    · cases done
  | start i => cases done
  | callback kind => cases done
  | outside kind =>
    cases kind with
    | land other index now =>
      simp only [carriedOut] at done
      split at done
      · rename_i same
        subst same
        exact .inr ⟨index,now,rfl⟩
      · cases done
    | _ => cases done

theorem Grounded.caller (grounded : Grounded l) {i : TaskId} (decides : Decides run outcome (l.tasks i)) :
    i.run = run ∧ ∃ n, i.slot = .feedback n := by
  obtain ⟨score,rationale,more,c,there⟩ := decides
  obtain ⟨own,writes⟩ := (grounded.lawful i _ there : Prog.All _ _).head
  refine ⟨own,?_⟩
  cases slot : i.slot with
  | feedback n => exact ⟨n,rfl⟩
  | _ =>
    rw [slot] at writes
    cases writes

theorem due_decides {l next : Loop effects TaskId World} (step : Advance (daemon h) l event next)
    (due : Coming run l event outcome) : ∃ i, Decides run outcome (next.tasks i) := by
  obtain ⟨i,rests,score,rationale,more,c,there⟩ := due
  obtain ⟨after,stays⟩ := live_stays step there rests
  exact ⟨i,score,rationale,more,after,stays⟩

theorem decides_source {l next : Loop effects TaskId World} (grounded : Grounded l)
    (step : Advance (daemon h) l event next) (unstarted : ∀ i, event ≠ .start i) {i : TaskId}
    (decides : Decides run outcome (next.tasks i)) : Coming run l event outcome ∨
      ∃ reply choice kind comment more c, event = .act i reply choice ∧
        l.tasks i = some (.live (.await (.store run (.insertFeedback kind comment)) more) c) ∧
        World.failed (reply (.store run (.insertFeedback kind comment))) = false ∧
        outcome = (feedbackToOutcome kind).1 := by
  obtain ⟨own,n,slot⟩ := (grounded_step grounded step).caller decides
  obtain ⟨score,rationale,more,c,there⟩ := decides
  cases live_source step there with
  | stood live other => exact .inl ⟨i,other,score,rationale,more,_,live⟩
  | @acted op before c reply choice at_op goes =>
    have formed : (Prog.await op before).Every (Faithful i.run) := grounded.forms i _ at_op n slot
    rw [own] at formed
    obtain ⟨kind,comment,rfl,went,same⟩ := formed.here.only op before (reply op) _ _ _ _ rfl goes.symm
    exact .inr ⟨reply,choice,kind,comment,before,c,rfl,at_op,went,same⟩
  | started fresh => exact absurd rfl (unstarted i)

theorem answered_decides {l next : Loop effects TaskId World} {kind : String} {comment : Option String}
    (grounded : Grounded l) (step : Advance (daemon h) l event next) (isThumb : thumb kind = true)
    (done : carriedOut run l event = some (.insertFeedback kind comment))
    (answer : answered run (.insertFeedback kind comment) event = true) :
    ∃ i, Decides run (feedbackToOutcome kind).1 (next.tasks i) := by
  rcases carriedOut_some done with ⟨i,reply,choice,more,c,rfl,there⟩ | ⟨index,now,rfl⟩
  · cases step with
    | act at_op may performed =>
      cases there.symm.trans at_op
      obtain ⟨own,writes⟩ := (grounded.lawful i _ there : Prog.All _ _).head
      cases slot : i.slot with
      | feedback n =>
        have formed : (Prog.await _ more).Every (Faithful i.run) := grounded.forms i _ there n slot
        rw [own] at formed
        cases ended : reply (.store run (.insertFeedback kind comment)) with
        | error exc =>
          simp only [answered,ended] at answer
          cases answer
        | ok id =>
          obtain ⟨score,rationale,rest,goes⟩ := formed.here.next kind comment more id rfl isThumb
          have settled : assign l.tasks i (.settled (more (.ok id)) false) i =
              some (.live (.await _ rest) false) := by
            rw [assign_self,goes]
            rfl
          refine ⟨i,score,rationale,rest,false,?_⟩
          dsimp only
          exact spawnInto_present _ settled
      | _ =>
        rw [slot] at writes
        cases writes
  · cases answer

theorem decided_kept {l next : Loop effects TaskId World}
    (same : (next.world.cells run).rows.outcome = (l.world.cells run).rows.outcome) :
    Decided run next outcome ↔ Decided run l outcome := by
  unfold Decided
  rw [same]

theorem latestThumb_feedback {rows next : Rows} (same : next.feedback = rows.feedback) :
    next.latestThumb = rows.latestThumb := by
  unfold Rows.latestThumb
  rw [same]

theorem apply_feedback {rows next : Rows} {write : StoreWrite}
    (other : ∀ kind comment, write ≠ .insertFeedback kind comment)
    (applied : write.apply now rows = some next) : next.feedback = rows.feedback := by
  cases write with
  | insertFeedback kind comment => exact absurd rfl (other _ _)
  | insertRun run =>
    simp only [StoreWrite.apply] at applied
    split at applied
    · cases applied
    · cases applied; rfl
  | appendEvent event =>
    simp only [StoreWrite.apply] at applied
    split at applied
    · cases applied
    · cases applied; rfl
  | _ => cases applied; rfl

theorem mover_write {write : StoreWrite} {i : TaskId} {reply : (op : Op) → effects.Reply op} {choice : Choice}
    (done : carriedOut run l (.act i reply choice) = some write) (decides : Decides run outcome (l.tasks i)) :
    ∃ score rationale, write = .upsertRunOutcome outcome score .explicit rationale := by
  obtain ⟨score,rationale,more,c,there⟩ := decides
  rcases carriedOut_some done with ⟨j,_,_,others,d,same,at_op⟩ | ⟨_,_,other⟩
  · cases same
    cases there.symm.trans at_op
    exact ⟨score,rationale,rfl⟩
  · cases other

theorem kept_unwritten {l next : Loop effects TaskId World} (grounded : Grounded l) (kept : FeedbackKept run l)
    (step : Advance (daemon h) l event next)
    (rows : (next.world.cells run).rows = (l.world.cells run).rows)
    (outcomes : (next.world.ledgers run).outcomes = (l.world.ledgers run).outcomes)
    (refused : ∀ write, carriedOut run l event = some write →
      ∃ now, write.apply now (l.world.cells run).rows = none) :
    FeedbackKept run next ↔ Heeds run l event := by
  constructor
  · intro after
    refine ⟨?_,?_,?_,?_⟩
    · intro outcome score rationale row done _
      obtain ⟨now,impossible⟩ := refused _ done
      cases impossible
    · intro outcome score source rationale row done _
      obtain ⟨now,impossible⟩ := refused _ done
      cases impossible
    · intro kind comment done _
      obtain ⟨now,impossible⟩ := refused _ done
      cases impossible
    · intro i reply choice row event unwritten found decides
      subst event
      rw [← rows] at found
      rcases after.latest row found with decided | ⟨j,later⟩
      · exact .inl ((decided_kept (by rw [rows])).mp decided)
      · rcases decides_source grounded step (fun _ same => by cases same) later with
          due | ⟨_,_,kind,comment,more,c,same,there,_⟩
        · exact .inr due
        · cases same
          obtain ⟨_,_,_,_,stands⟩ := decides
          cases there.symm.trans stands
  · intro heeds
    refine ⟨?_,outcomes ▸ kept.never⟩
    intro row found
    rw [rows] at found
    have settled : Decided run l row.outcome ∨ Coming run l event row.outcome := by
      rcases kept.latest row found with decided | ⟨i,decides⟩
      · exact .inl decided
      · by_cases moves : ∃ reply choice, event = .act i reply choice
        · obtain ⟨reply,choice,rfl⟩ := moves
          refine heeds.cut i reply choice row rfl ?_ found decides
          cases done : carriedOut run l (.act i reply choice) with
          | none => rfl
          | some write =>
            obtain ⟨score,rationale,rfl⟩ := mover_write done decides
            obtain ⟨now,impossible⟩ := refused _ done
            cases impossible
        · exact .inr ⟨i,fun reply choice same => moves ⟨reply,choice,same⟩,decides⟩
    rcases settled with decided | due
    · exact .inl ((decided_kept (by rw [rows])).mpr decided)
    · exact .inr (due_decides step due)

theorem carriedOut_unstarted {write : StoreWrite} (done : carriedOut run l event = some write) :
    ∀ i, event ≠ .start i := by
  intro i same
  subst same
  cases done

theorem kept_upserted {l next : Loop effects TaskId World} (grounded : Grounded l) (kept : FeedbackKept run l)
    (step : Advance (daemon h) l event next)
    (done : carriedOut run l event = some (.upsertRunOutcome outcome score source rationale))
    (applied : (StoreWrite.upsertRunOutcome outcome score source rationale).apply now (l.world.cells run).rows =
      some (next.world.cells run).rows)
    (outcomes : (next.world.ledgers run).outcomes = (l.world.ledgers run).outcomes ++
      [⟨outcome,score,source,rationale,now⟩]) : FeedbackKept run next ↔ Heeds run l event := by
  have stored : (next.world.cells run).rows.outcome = some ⟨outcome,score,source,rationale,now⟩ := by
    rw [← Option.some.inj applied]
  have thumbs : (next.world.cells run).rows.latestThumb = (l.world.cells run).rows.latestThumb :=
    latestThumb_feedback (by rw [← Option.some.inj applied])
  have decided : ∀ wanted, Decided run next wanted ↔ source = .explicit ∧ outcome = wanted := by
    intro wanted
    unfold Decided
    rw [stored]
    simp
  have due : ∀ wanted, (∃ i, Decides run wanted (next.tasks i)) ↔ Coming run l event wanted := by
    intro wanted
    refine ⟨?_,due_decides step⟩
    intro later
    obtain ⟨i,decides⟩ := later
    rcases decides_source grounded step (carriedOut_unstarted done) decides with
      before | ⟨reply,choice,kind,comment,more,c,rfl,there,_⟩
    · exact before
    · rcases carriedOut_some done with ⟨j,_,_,_,_,same,at_op⟩ | ⟨_,_,other⟩
      · cases same
        cases there.symm.trans at_op
      · cases other
  constructor
  · intro after
    refine ⟨?_,?_,?_,?_⟩
    · intro outcome' score' rationale' row done' before
      cases done.symm.trans done'
      have final : row ∈ (l.world.ledgers run).outcomes.getLast? := by
        rw [← grounded.last run]
        exact before
      have chain := after.never
      rw [outcomes] at chain
      by_contra explicit
      have impossible := (List.isChain_append.mp chain).2.2 row final _ rfl
        (by cases source : row.source <;> simp_all)
      cases impossible
    · intro outcome' score' source' rationale' row done' found
      cases done.symm.trans done'
      rw [← thumbs] at found
      rw [← decided,← due]
      exact after.latest row found
    · intro kind comment done' _
      cases done.symm.trans done'
    · intro i reply choice row _ unwritten
      cases done.symm.trans unwritten
  · intro heeds
    refine ⟨?_,?_⟩
    · intro row found
      rw [thumbs] at found
      rw [decided,due]
      exact heeds.replaced _ _ _ _ row done found
    · rw [outcomes]
      refine kept.never.append (List.isChain_singleton _) ?_
      intro row final other same explicit
      cases same
      rw [← grounded.last run] at final
      cases source with
      | explicit => rfl
      | derived =>
        have before := heeds.derived _ _ _ row done final
        cases before.symm.trans explicit

theorem kept_stored {l next : Loop effects TaskId World} {kind : String} {comment : Option String}
    (grounded : Grounded l) (kept : FeedbackKept run l) (step : Advance (daemon h) l event next)
    (isThumb : thumb kind = true)
    (done : carriedOut run l event = some (.insertFeedback kind comment))
    (applied : (StoreWrite.insertFeedback kind comment).apply now (l.world.cells run).rows =
      some (next.world.cells run).rows)
    (outcomes : (next.world.ledgers run).outcomes = (l.world.ledgers run).outcomes) :
    FeedbackKept run next ↔ Heeds run l event := by
  have newest : (next.world.cells run).rows.latestThumb = some ⟨kind,comment,now⟩ := by
    rw [← Option.some.inj applied]
    simp [Rows.latestThumb,isThumb]
  have same : (next.world.cells run).rows.outcome = (l.world.cells run).rows.outcome := by
    rw [← Option.some.inj applied]
  have settled : FeedbackKept run next ↔ Decided run l (feedbackToOutcome kind).1 ∨
      ∃ i, Decides run (feedbackToOutcome kind).1 (next.tasks i) := by
    constructor
    · intro after
      have latest := after.latest _ newest
      rwa [decided_kept same] at latest
    · intro either
      refine ⟨?_,outcomes ▸ kept.never⟩
      intro row found
      cases newest.symm.trans found
      rwa [decided_kept same]
  rw [settled]
  constructor
  · intro either
    refine ⟨?_,?_,?_,?_⟩
    · intro outcome score rationale row done' _
      cases done.symm.trans done'
    · intro outcome score source rationale row done' _
      cases done.symm.trans done'
    · intro kind' comment' done' _
      cases done.symm.trans done'
      rcases either with decided | ⟨i,decides⟩
      · exact .inr (.inl decided)
      · rcases decides_source grounded step (carriedOut_unstarted done) decides with
          before | ⟨reply,choice,kind',comment',more,c,rfl,there,went,_⟩
        · exact .inr (.inr before)
        · rcases carriedOut_some done with ⟨j,_,_,_,_,moved,at_op⟩ | ⟨_,_,other⟩
          · cases moved
            cases there.symm.trans at_op
            exact .inl (by simp [answered,went])
          · cases other
    · intro i reply choice row _ unwritten
      cases done.symm.trans unwritten
  · intro heeds
    rcases heeds.stored kind comment done isThumb with answer | decided | due
    · exact .inr (answered_decides grounded step isThumb done answer)
    · exact .inl decided
    · exact .inr (due_decides step due)

theorem kept_other {l next : Loop effects TaskId World} {write : StoreWrite} (kept : FeedbackKept run l)
    (step : Advance (daemon h) l event next) (done : carriedOut run l event = some write)
    (silent : ∀ outcome score source rationale, write ≠ .upsertRunOutcome outcome score source rationale)
    (mute : ∀ kind comment, write = .insertFeedback kind comment → thumb kind = false)
    (thumbs : (next.world.cells run).rows.latestThumb = (l.world.cells run).rows.latestThumb)
    (same : (next.world.cells run).rows.outcome = (l.world.cells run).rows.outcome)
    (outcomes : (next.world.ledgers run).outcomes = (l.world.ledgers run).outcomes) :
    FeedbackKept run next ↔ Heeds run l event := by
  refine iff_of_true ?_ ⟨?_,?_,?_,?_⟩
  · refine ⟨?_,outcomes ▸ kept.never⟩
    intro row found
    rw [thumbs] at found
    rcases kept.latest row found with decided | ⟨i,decides⟩
    · exact .inl ((decided_kept same).mpr decided)
    · refine .inr (due_decides step ⟨i,?_,decides⟩)
      intro reply choice event
      subst event
      obtain ⟨score,rationale,wrote⟩ := mover_write done decides
      exact silent _ _ _ _ wrote
  · intro outcome score rationale row done' _
    cases done.symm.trans done'
    exact absurd rfl (silent _ _ _ _)
  · intro outcome score source rationale row done' _
    cases done.symm.trans done'
    exact absurd rfl (silent _ _ _ _)
  · intro kind comment done' isThumb
    cases done.symm.trans done'
    rw [mute kind comment rfl] at isThumb
    cases isThumb
  · intro i reply choice row _ unwritten
    cases done.symm.trans unwritten

theorem kept_iff {l next : Loop effects TaskId World} (grounded : Grounded l) (kept : FeedbackKept run l)
    (step : Advance (daemon h) l event next) : FeedbackKept run next ↔ Heeds run l event := by
  have written := written_step run step
  cases asked : carriedOut run l event with
  | none =>
    rw [asked] at written
    cases written with
    | kept rows outcomes refused => exact kept_unwritten grounded kept step rows outcomes (asked ▸ refused)
  | some write =>
    rw [asked] at written
    cases written with
    | kept rows outcomes refused => exact kept_unwritten grounded kept step rows outcomes (asked ▸ refused)
    | @wrote _ now applied outcomes =>
      cases write with
      | upsertRunOutcome outcome score source rationale => exact kept_upserted grounded kept step asked applied outcomes
      | insertFeedback kind comment =>
        cases isThumb : thumb kind with
        | true => exact kept_stored grounded kept step isThumb asked applied outcomes
        | false =>
          refine kept_other kept step asked (by simp) ?_ ?_ (apply_outcome (by simp) applied) outcomes
          · intro other _ same
            cases same
            exact isThumb
          · rw [← Option.some.inj applied]
            simp [Rows.latestThumb,isThumb]
      | _ =>
        exact kept_other kept step asked (by simp) (by simp)
          (latestThumb_feedback (apply_feedback (by simp) applied)) (apply_outcome (by simp) applied) outcomes

-- Over whole runs of the daemon, in whatever order feedback and finalisation take turns.
theorem feedback_kept_iff (h : Host) (run : RunId) (stop : Bool) (focused : Option Window) (rules : List AllowRule)
    (events : List Happening) :
    (daemon h).system.Always (FeedbackKept run) (boot stop focused rules) events ↔
      (daemon h).system.Meets (Heeds run) (boot stop focused rules) events := by
  refine System.always_iff_meets (I:=Grounded) ?_ ?_ ?_ ?_ events
  · intro l event next grounded advanced
    exact grounded_step grounded (advance_cases advanced)
  · intro l event next grounded kept advanced
    exact kept_iff grounded kept (advance_cases advanced)
  · exact ⟨fun _ _ present => (by cases present),fun _ _ present => (by cases present),fun _ => rfl⟩
  · exact ⟨fun _ found => (by cases found),.nil⟩

def disapproved : List Cue :=
  begins .run ++ works 48 ++ [calls (.feedback "r" 0 "thumbs_down" none),starts ⟨"r",.feedback 0⟩] ++
    List.replicate 2 (goes [] ⟨"r",.feedback 0⟩ {})

theorem feedback_overwritten : ∃ l, Reached (daemon plainHost) idle l ∧ ¬FeedbackKept "r" l := by
  have played : (drive (daemon plainHost) idle (disapproved ++ works 1)).any (fun l =>
      (l.world.ledgers "r").outcomes.map OutcomeRow.source == [.explicit,.derived]) = true := by
    decide +kernel
  obtain ⟨l,path,shown⟩ := rehearsed played
  obtain ⟨row,rest,outcomes,explicit,others⟩ := List.map_eq_cons_iff.mp (beq_iff_eq.mp shown)
  obtain ⟨later,_,rfl,isDerived,_⟩ := List.map_eq_cons_iff.mp others
  refine ⟨l,path,?_⟩
  intro kept
  have chain := kept.never
  rw [outcomes] at chain
  cases isDerived.symm.trans (chain.rel explicit)

end HyprlandAgent
