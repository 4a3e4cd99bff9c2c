import HyprlandAgent.Daemon.World

-- What the tasks may ask for, and what that leaves of the rest: everything one
-- run's coroutine has to reckon with from the others and from outside.
namespace HyprlandAgent
open Coroutine

def Slot.writes : Slot → StoreWrite → Prop
  | .submit,.insertRun _ => True
  | .body,.appendEvent _ => True
  | .body,.updateRunStatus status _ _ => status.terminal = true
  | .body,.updateRunMetrics _ _ _ => True
  | .body,.upsertRunOutcome _ _ .derived _ => True
  | .feedback _,.insertFeedback _ _ => True
  | .feedback _,.upsertRunOutcome _ _ .explicit _ => True
  | _,_ => False

def legal (i : TaskId) : Op → Prop
  | .tool _ => True
  | .input _ | .activeWindow | .dispatch _ | .isAllowed _ | .isStopped | .unlinkFlag
  | .checkLimit _ => i.slot = .body
  | .seqNext run | .seqPop run | .auditAppend run _ | .enterTimeout run _
  | .leaveTimeout run => i = bodyOf run
  | .seqStart run | .createTask run _ _ _ => i = ⟨run,.submit⟩
  | .getBrain _ => i.slot = .submit
  | .publish run _ => i.run = run ∧ ∀ n, i.slot ≠ .feedback n
  | .store run write => i.run = run ∧ i.slot.writes write

def Job.remark : Job → Bool
  | .store (.insertFeedback _ _) => true
  | .store (.upsertRunOutcome _ _ .explicit _) => true
  | _ => false

-- Whatever happens elsewhere leaves a run's cell alone; of its history it may
-- set only the marks that follow the focus and the flag.
structure Drift (h : Host) (run : RunId) (w next : World) : Prop where
  cell : next.cells run = w.cells run
  ledger : next.ledgers run = { (w.ledgers run) with
    strayed := (next.ledgers run).strayed, watch := (next.ledgers run).watch }
  focus : (next.focused = w.focused ∧ next.rules = w.rules ∧
      (next.ledgers run).strayed = (w.ledgers run).strayed) ∨
    (next.ledgers run).strayed = ((w.ledgers run).strayed || ((w.ledgers run).gated && !next.clear h))
  flag : (next.stop = w.stop ∧ (next.ledgers run).watch = (w.ledgers run).watch) ∨
    (next.stop = false ∧ (next.ledgers run).watch = none)

structure Aside (w next : World) : Prop where
  focused : next.focused = w.focused
  rules : next.rules = w.rules
  stop : next.stop = w.stop

structure Remarked (run : RunId) (w next : World) : Prop extends Aside w next where
  cell : next.cells run =
    { (w.cells run) with
      rows := { (w.cells run).rows with
        outcome := (next.cells run).rows.outcome
        feedback := (next.cells run).rows.feedback }
      orphans := (next.cells run).orphans }
  orphans : ∀ job ∈ (next.cells run).orphans, job ∈ (w.cells run).orphans ∨ Job.remark job = true
  ledger : next.ledgers run = { (w.ledgers run) with outcomes := (next.ledgers run).outcomes }
  outcomes : ∃ more, (next.ledgers run).outcomes = (w.ledgers run).outcomes ++ more ∧
    ∀ row ∈ more, row.source = .explicit

structure Requested (run : RunId) (w next : World) : Prop extends Aside w next where
  cell : next.cells run = { (w.cells run) with deadline := (next.cells run).deadline }
  ledger : next.ledgers run = w.ledgers run

structure Polled (run : RunId) (w next : World) : Prop where
  focused : next.focused = w.focused
  rules : next.rules = w.rules
  stop : next.stop = false
  cell : next.cells run = { (w.cells run) with deadline := (next.cells run).deadline }
  ledger : next.ledgers run = w.ledgers run

structure Armed (run : RunId) (w next : World) : Prop where
  focused : next.focused = w.focused
  rules : next.rules = w.rules
  stop : next.stop = true
  cell : next.cells run = w.cells run
  ledger : next.ledgers run = w.ledgers run ∨ next.ledgers run =
    { (w.ledgers run) with watch := (w.ledgers run).watch.or (some (w.ledgers run).started) }

def Landed (run : RunId) (w next : World) : Prop :=
  ∃ index job now, (w.cells run).orphans[index]? = some job ∧
    next = ((w.atCell run fun cell => { cell with orphans := cell.orphans.eraseIdx index }).commit
      run now job).getD (w.atCell run fun cell => { cell with orphans := cell.orphans.eraseIdx index })

inductive Outer (h : Host) (run : RunId) : World → World → Prop where
  | drift : Drift h run w next → Outer h run w next
  | armed : Armed run w next → Outer h run w next
  | landed : Landed run w next → Outer h run w next

-- `excuse` are the steps a task need not reckon with.
inductive Rely (h : Host) (run : RunId) (excuse : World → World → Prop) :
    World × Bool → World × Bool → Prop where
  | drift : Drift h run w next → Rely h run excuse (w,c) (next,c)
  | remarked : Remarked run w next → Rely h run excuse (w,c) (next,c)
  | requested : Requested run w next → Rely h run excuse (w,c) (next,true)
  | polled : Polled run w next → Rely h run excuse (w,c) (next,true)
  | excused : excuse w next → Rely h run excuse (w,b) (next,c)

theorem Drift.refl (h : Host) (run : RunId) (w : World) : Drift h run w w :=
  ⟨rfl,rfl,.inl ⟨rfl,rfl,rfl⟩,.inl ⟨rfl,rfl⟩⟩

theorem Drift.elsewhere {h : Host} {run : RunId} {w next : World} (aside : Aside w next)
    (cell : next.cells run = w.cells run) (ledger : next.ledgers run = w.ledgers run) :
    Drift h run w next := by
  refine ⟨cell,?_,.inl ⟨aside.focused,aside.rules,?_⟩,.inl ⟨aside.stop,?_⟩⟩
  · rw [ledger]
  · rw [ledger]
  · rw [ledger]

theorem refocus_drift (h : Host) (run : RunId) (w : World) (focused : Option Window)
    (rules : List AllowRule) : Drift h run w (w.refocus h focused rules) := by
  refine ⟨rfl,rfl,.inr rfl,.inl ⟨rfl,rfl⟩⟩

theorem disarm_drift (h : Host) (run : RunId) (w : World) : Drift h run w w.disarm := by
  unfold World.disarm
  split
  · exact ⟨rfl,rfl,.inl ⟨rfl,rfl,rfl⟩,.inr ⟨rfl,rfl⟩⟩
  · exact Drift.refl h run w

namespace World

theorem commit_aside {w next : World} {job : Job} (committed : w.commit run now job = some next) :
    Aside w next ∧ next.erasures = w.erasures := by
  cases job with
  | store write =>
    obtain ⟨rows,_,rfl⟩ := Option.map_eq_some_iff.mp committed
    exact ⟨⟨rfl,rfl,rfl⟩,rfl⟩
  | audit entry =>
    cases committed
    exact ⟨⟨rfl,rfl,rfl⟩,rfl⟩

theorem commit_other {w next : World} {job : Job} (committed : w.commit run now job = some next)
    (different : other ≠ run) :
    next.cells other = w.cells other ∧ next.ledgers other = w.ledgers other := by
  cases job with
  | store write =>
    obtain ⟨rows,_,rfl⟩ := Option.map_eq_some_iff.mp committed
    exact ⟨by rw [note_cells,atCell_other different],by rw [note_other different,atCell_ledgers]⟩
  | audit entry =>
    cases committed
    exact ⟨atCell_other different,rfl⟩

theorem answer_cases {w next : World} {reply : Except Exc α}
    (answered : w.answer run job reply choice = some next) :
    (w.commit run choice.now job = some next ∧
        (failed reply = false ∨ choice.fate = .committed)) ∨
      (next = w ∧ failed reply = true ∧ choice.fate = .dropped) ∨
      (next = (w.atCell run fun cell => { cell with orphans := cell.orphans ++ [job] }) ∧
        failed reply = true ∧ choice.fate = .orphaned) := by
  unfold answer at answered
  cases reply with
  | ok value => exact .inl ⟨answered,.inl rfl⟩
  | error exc =>
    simp only at answered
    split at answered
    · rename_i fate
      cases answered
      exact .inr (.inl ⟨rfl,rfl,fate⟩)
    · rename_i fate
      split at answered
      · exact .inl ⟨answered,.inr fate⟩
      · cases answered
    · rename_i fate
      split at answered
      · cases answered
        exact .inr (.inr ⟨rfl,rfl,fate⟩)
      · cases answered

theorem store_cases {h : Host} {i : TaskId} {w next : World} {write : StoreWrite}
    {reply : effects.Reply (.store run write)}
    (done : w.effect h i (.store run write) reply choice = some next) :
    ((w.note run (noteIssue write (failed reply) choice.fate)).commit run choice.now (.store write) =
          some next ∧ (failed reply = false ∨ choice.fate = .committed)) ∨
      (next = w.note run (noteIssue write (failed reply) choice.fate) ∧ failed reply = true ∧
        choice.fate = .dropped) ∨
      (next = ((w.note run (noteIssue write (failed reply) choice.fate)).atCell run fun cell =>
          { cell with orphans := cell.orphans ++ [.store write] }) ∧ failed reply = true ∧
        choice.fate = .orphaned) := by
  simp only [effect] at done
  exact answer_cases done

theorem answer_aside {w next : World} {job : Job} {reply : Except Exc α}
    (answered : w.answer run job reply choice = some next) :
    Aside w next ∧ next.erasures = w.erasures := by
  rcases answer_cases answered with ⟨committed,_⟩ | ⟨rfl,_⟩ | ⟨rfl,_⟩
  · exact commit_aside committed
  · exact ⟨⟨rfl,rfl,rfl⟩,rfl⟩
  · exact ⟨⟨rfl,rfl,rfl⟩,rfl⟩

theorem wrote_aside {w next : World} {change : Ledger → Ledger} {job : Job} {reply : Except Exc α}
    (answered : (w.note other change).answer run job reply choice = some next) :
    Aside w next ∧ next.erasures = w.erasures := by
  obtain ⟨⟨focused,rules,stop⟩,erasures⟩ := answer_aside answered
  exact ⟨⟨focused,rules,stop⟩,erasures⟩

end World

variable {h : Host} {run : RunId} {w next : World}

structure Unwritten (part : Ledger → β) : Prop where
  issue : ∀ write failed fate past, part (noteIssue write failed fate past) = part past
  commit : ∀ write now past, part (noteCommit write now past) = part past

theorem note_part (part : Ledger → β) {change : Ledger → Ledger}
    (keeps : ∀ past, part (change past) = part past) (run : RunId) :
    part ((w.note other change).ledgers run) = part (w.ledgers run) := by
  by_cases same : run = other
  · subst same
    rw [World.note_same,keeps]
  · rw [World.note_other same]

namespace Unwritten
variable {part : Ledger → β} (unwritten : Unwritten part)
include unwritten

theorem committed {job : Job} (committed : w.commit other now job = some next) (run : RunId) :
    part (next.ledgers run) = part (w.ledgers run) := by
  cases job with
  | store write =>
    obtain ⟨rows,_,rfl⟩ := Option.map_eq_some_iff.mp committed
    exact note_part part (unwritten.commit write now) run
  | audit entry => cases committed; rfl

theorem answered {reply : Except Exc α} {job : Job} (answered : w.answer other job reply choice = some next)
    (run : RunId) : part (next.ledgers run) = part (w.ledgers run) := by
  rcases World.answer_cases answered with ⟨committed,_⟩ | ⟨rfl,_⟩ | ⟨rfl,_⟩
  · exact unwritten.committed committed run
  · rfl
  · rfl

theorem wrote {write : StoreWrite} {failed : Bool} {fate : Fate} {reply : Except Exc α} {job : Job}
    (answered : (w.note other (noteIssue write failed fate)).answer other job reply choice = some next)
    (run : RunId) : part (next.ledgers run) = part (w.ledgers run) :=
  (unwritten.answered answered run).trans (note_part part (unwritten.issue write failed fate) run)

theorem landed (landed : Landed run w next) : part (next.ledgers run) = part (w.ledgers run) := by
  obtain ⟨index,job,now,found,rfl⟩ := landed
  cases committed : (w.atCell run fun cell =>
      { cell with orphans := cell.orphans.eraseIdx index }).commit run now job with
  | none => rfl
  | some after => exact unwritten.committed committed run

end Unwritten

theorem atCell_drift (change : Cell → Cell) (different : run ≠ other) :
    Drift h run w (w.atCell other change) :=
  .elsewhere ⟨rfl,rfl,rfl⟩ (World.atCell_other different) rfl

theorem note_drift (change : Ledger → Ledger) (different : run ≠ other) :
    Drift h run w (w.note other change) :=
  .elsewhere ⟨rfl,rfl,rfl⟩ rfl (World.note_other different)

theorem commit_drift {job : Job} (committed : w.commit other now job = some next)
    (different : run ≠ other) : Drift h run w next := by
  obtain ⟨cell,ledger⟩ := World.commit_other committed different
  exact .elsewhere (World.commit_aside committed).1 cell ledger

theorem Drift.after_note {change : Ledger → Ledger} (different : run ≠ other)
    (drift : Drift h run (w.note other change) next) : Drift h run w next := by
  have same : (w.note other change).ledgers run = w.ledgers run := World.note_other different
  obtain ⟨cell,ledger,focus,flag⟩ := drift
  rw [same] at ledger focus flag
  exact ⟨cell,ledger,focus,flag⟩

theorem answer_drift {reply : Except Exc α} {job : Job} (different : run ≠ other)
    (answered : w.answer other job reply choice = some next) : Drift h run w next := by
  rcases World.answer_cases answered with ⟨committed,_⟩ | ⟨rfl,_⟩ | ⟨rfl,_⟩
  · exact commit_drift committed different
  · exact .refl h run next
  · exact atCell_drift _ different

def Marks (change : Ledger → Ledger) : Prop := ∀ past, ∃ gated refused stopSeen started brainRaised,
  (past.gated = true → gated = true) ∧
    change past =
      { past with
        gated := gated
        refused := refused
        stopSeen := stopSeen
        started := started
        brainRaised := brainRaised }

def Looped (change : Cell → Cell) : Prop := ∀ cell, ∃ seq published deadline,
  change cell = { cell with seq := seq, published := published, deadline := deadline }

inductive Happened (h : Host) (i : TaskId) (w : World) :
    (op : Op) → effects.Reply op → Choice → World → Prop where
  | nothing : Happened h i w op reply choice w
  | marked {change : Ledger → Ledger} (misses : Misses) (marks : Marks change)
      (uncounted : (∀ kind, op ≠ .checkLimit kind) → ∀ past, (change past).started = past.started) :
      Happened h i w op reply choice ({ w with misses := misses }.note i.run change)
  | held {owner : RunId} {change : Cell → Cell} (owned : op.owner = some owner) (looped : Looped change) :
      Happened h i w op reply choice (w.atCell owner change)
  | refocused (focused : Option Window) : Happened h i w op reply choice (w.refocus h focused w.rules)
  | disarmed : Happened h i w .unlinkFlag reply choice w.disarm
  | created {owner : RunId} : Happened h i w (.createTask owner kind task brain) (.ok value) choice
      (w.note owner fun past => { past with launched := some (kind,task,brain) })
  | wrote {owner : RunId} {reply : effects.Reply (.store owner write)} {after : World}
      (answered : (w.note owner (noteIssue write (World.failed reply) choice.fate)).answer owner
        (.store write) reply choice = some after) : Happened h i w (.store owner write) reply choice after
  | audited {owner : RunId} {reply : effects.Reply (.auditAppend owner entry)} {after : World}
      (answered : w.answer owner (.audit entry) reply choice = some after) :
      Happened h i w (.auditAppend owner entry) reply choice after

theorem effect_happened {i : TaskId} {op : Op} {reply : effects.Reply op}
    (done : w.effect h i op reply choice = some next) : Happened h i w op reply choice next := by
  cases op with
  | tool asked => cases World.tool_effect done; exact .nothing
  | input sent => cases done; exact .nothing
  | dispatch cmd =>
    simp only [World.effect] at done
    split at done
    · cases done; exact .refocused _
    · cases done; exact .nothing
  | unlinkFlag =>
    cases reply with
    | ok value => cases done; exact .disarmed
    | error exc => cases done; exact .nothing
  | store run write => exact .wrote done
  | auditAppend run entry => exact .audited done
  | createTask run kind task brain =>
    cases reply with
    | ok value => cases done; exact .created
    | error exc => cases done
  | checkLimit kind =>
    cases reply with
    | ok value =>
      cases done
      exact .marked w.misses (fun past => ⟨_,_,_,_,_,by simp,rfl⟩) fun other => absurd rfl (other kind)
    | error exc => cases done
  | getBrain name =>
    cases reply with
    | ok value => cases done; exact .nothing
    | error exc =>
      cases done
      exact .marked w.misses (fun past => ⟨_,_,_,_,_,by simp,rfl⟩) fun _ _ => rfl
  | activeWindow | isAllowed window | isStopped =>
    cases reply with
    | ok seen =>
      simp only [World.effect] at done
      split at done
      · cases done; exact .marked _ (fun past => ⟨_,_,_,_,_,by simp,rfl⟩) fun _ _ => rfl
      · cases done
    | error exc =>
      cases done
      try exact .nothing
  | seqStart run | seqPop run | publish run message | enterTimeout run timeout =>
    cases reply with
    | ok value => cases done; exact .held rfl fun cell => ⟨_,_,_,rfl⟩
    | error exc => cases done
  | seqNext run =>
    cases reply with
    | ok seq =>
      simp only [World.effect] at done
      split at done
      · cases done; exact .held rfl fun cell => ⟨_,_,_,rfl⟩
      · cases done
    | error exc => cases done
  | leaveTimeout run =>
    cases reply with
    | ok own =>
      simp only [World.effect] at done
      split at done
      · split at done
        · cases done; exact .held rfl fun cell => ⟨_,_,_,rfl⟩
        · cases done
      · cases done
    | error exc => cases done

theorem legal_owner {i : TaskId} {op : Op} (allowed : legal i op) (owned : op.owner = some owner) :
    i.run = owner := by
  cases op with
  | seqStart run | createTask run kind task brain => cases owned; rw [show i = _ from allowed]
  | seqNext run | seqPop run | auditAppend run entry | enterTimeout run timeout | leaveTimeout run =>
    cases owned
    rw [show i = _ from allowed]
  | publish run message | store run write => cases owned; exact allowed.1
  | _ => cases owned

theorem perform_drift {i : TaskId} {op : Op} {reply : effects.Reply op} (different : run ≠ i.run)
    (allowed : legal i op) (performed : w.perform h i op reply choice = some next) :
    Drift h run w next := by
  have elsewhere : ∀ {owner : RunId}, op.owner = some owner → run ≠ owner := by
    intro owner owned same
    subst same
    exact different (legal_owner allowed owned).symm
  cases effect_happened (World.perform_effect performed) with
  | nothing => exact .refl h run w
  | marked misses marks uncounted => exact .elsewhere ⟨rfl,rfl,rfl⟩ rfl (World.note_other different)
  | held owned looped => exact atCell_drift _ (elsewhere owned)
  | refocused focused => exact refocus_drift h run w _ _
  | disarmed => exact disarm_drift h run w
  | created => exact note_drift _ (elsewhere rfl)
  | wrote answered => exact Drift.after_note (elsewhere rfl) (answer_drift (elsewhere rfl) answered)
  | audited answered => exact answer_drift (elsewhere rfl) answered

theorem Remarked.refl (run : RunId) (w : World) : Remarked run w w :=
  { focused := rfl, rules := rfl, stop := rfl, cell := rfl, ledger := rfl
    orphans := fun _ inside => .inl inside
    outcomes := ⟨[],by simp,by simp⟩ }

theorem commit_remark {job : Job} (remark : job.remark = true)
    (committed : w.commit run now job = some next) : Remarked run w next := by
  have aside := (World.commit_aside committed).1
  cases job with
  | audit entry => cases remark
  | store write =>
    obtain ⟨rows,applied,rfl⟩ := Option.map_eq_some_iff.mp committed
    refine { toAside := aside, cell := ?_, orphans := ?_, ledger := ?_, outcomes := ?_ }
    · cases write with
      | insertFeedback kind comment => cases applied; simp
      | upsertRunOutcome outcome score source rationale => cases applied; simp
      | _ => cases remark
    · intro other inside
      exact .inl (by simpa using inside)
    · cases write with
      | insertFeedback kind comment => simp [noteCommit]
      | upsertRunOutcome outcome score source rationale => simp [noteCommit]
      | _ => cases remark
    · cases write with
      | insertFeedback kind comment => exact ⟨[],by simp [noteCommit],by simp⟩
      | upsertRunOutcome outcome score source rationale =>
        cases source with
        | derived => cases remark
        | explicit => exact ⟨[⟨outcome,score,.explicit,rationale,now⟩],by simp [noteCommit],by simp⟩
      | _ => cases remark

theorem answer_remark {reply : Except Exc α} {job : Job} (remark : job.remark = true)
    (answered : w.answer run job reply choice = some next) : Remarked run w next := by
  rcases World.answer_cases answered with ⟨committed,_⟩ | ⟨rfl,_⟩ | ⟨rfl,_⟩
  · exact commit_remark remark committed
  · exact .refl run next
  · refine { focused := rfl, rules := rfl, stop := rfl, cell := by simp, ledger := rfl, orphans := ?_
             outcomes := ⟨[],by simp,by simp⟩ }
    intro other inside
    simp only [World.atCell_same,List.mem_append,List.mem_singleton] at inside
    rcases inside with old | rfl
    · exact .inl old
    · exact .inr remark

theorem perform_remark {i : TaskId} {op : Op} {reply : effects.Reply op} (own : i.run = run)
    (call : i.slot = .feedback n) (allowed : legal i op)
    (performed : w.perform h i op reply choice = some next) : Remarked run w next := by
  have done := World.perform_effect performed
  have elsewhere : ∀ {other : TaskId}, i = other → other.slot ≠ .feedback n → False := by
    intro other same slot
    rw [same] at call
    exact slot call
  cases op with
  | tool asked => cases World.tool_effect done; exact .refl run w
  | store other write =>
    obtain ⟨rfl,writes⟩ := allowed
    obtain rfl := own
    rw [call] at writes
    have remark : (Job.store write).remark = true := by
      cases write with
      | insertFeedback kind comment => rfl
      | upsertRunOutcome outcome score source rationale =>
        cases source with
        | derived => cases writes
        | explicit => rfl
      | _ => cases writes
    have silent : noteIssue write (World.failed reply) choice.fate (w.ledgers i.run) = w.ledgers i.run := by
      cases write with
      | insertFeedback kind comment => rfl
      | upsertRunOutcome outcome score source rationale =>
        cases source with
        | derived => cases writes
        | explicit => rfl
      | _ => cases writes
    have noted : w.note i.run (noteIssue write (World.failed reply) choice.fate) = w := by
      simp [World.note,silent]
    have answered : w.answer i.run (.store write) reply choice = some next := by
      rw [← noted]
      exact done
    exact answer_remark remark answered
  | publish other message => exact absurd call (allowed.2 n)
  | seqStart other => exact (elsewhere allowed (by simp)).elim
  | seqNext other => exact (elsewhere allowed (by simp)).elim
  | seqPop other => exact (elsewhere allowed (by simp)).elim
  | auditAppend other entry => exact (elsewhere allowed (by simp)).elim
  | createTask other kind task brain => exact (elsewhere allowed (by simp)).elim
  | enterTimeout other timeout => exact (elsewhere allowed (by simp)).elim
  | leaveTimeout other => exact (elsewhere allowed (by simp)).elim
  | _ => simp [legal,call] at allowed

theorem outside_outer {kind : Outside} (occurred : outside h w phases kind = some next) (run : RunId) :
    Outer h run w next := by
  cases kind with
  | arm =>
    cases occurred
    refine .armed ⟨rfl,rfl,rfl,rfl,?_⟩
    by_cases active : (phases (bodyOf run)).active
    · exact .inr (by simp [active])
    · exact .inl (by simp [active])
  | focus window => cases occurred; exact .drift (refocus_drift h run w _ _)
  | edit rules => cases occurred; exact .drift (refocus_drift h run w _ _)
  | land other index now =>
    simp only [outside] at occurred
    split at occurred
    · rename_i job found
      cases occurred
      by_cases same : run = other
      · subst same
        exact .landed ⟨index,job,now,found,rfl⟩
      · refine .drift ?_
        have rest := atCell_drift (h:=h) (w:=w)
          (fun cell => { cell with orphans := cell.orphans.eraseIdx index }) same
        cases committed : (w.atCell other fun cell =>
            { cell with orphans := cell.orphans.eraseIdx index }).commit other now job with
        | none => exact rest
        | some after =>
          obtain ⟨cell,ledger⟩ := World.commit_other committed same
          obtain ⟨⟨focused,rules,stop⟩,_⟩ := World.commit_aside committed
          exact .elsewhere ⟨focused,rules,stop⟩ (cell.trans rest.cell) ledger
    · cases occurred

inductive Called (w : World) (phases : TaskId → Phase) :
    Callback → Arrival effects TaskId World → Prop where
  | submit (fresh : phases ⟨owner,.submit⟩ = .absent) (unborn : phases (bodyOf owner) = .absent) :
      Called w phases (.submit owner kind task brainName)
        { world := w, spawns := some (⟨owner,.submit⟩,do
          let _ ← RunExecutor.submit owner kind task brainName) }
  | feedback (fresh : phases ⟨owner,.feedback n⟩ = .absent) :
      Called w phases (.feedback owner n kind comment)
        { world := w, spawns := some (⟨owner,.feedback n⟩,do
          let _ ← RunExecutor.recordFeedback owner kind comment) }
  | disconnect (call : task.slot ≠ .body) :
      Called w phases (.disconnect task) { world := w, cancels := fun i => i == task }
  | cancel (active : (phases (bodyOf owner)).active = true) :
      Called w phases (.cancel owner)
        { world := w.atCell owner World.request, cancels := fun i => i == bodyOf owner }
  | expire (under : (w.cells owner).deadline = some ⟨false,requests⟩) :
      Called w phases (.expire owner)
        { world := w.atCell owner fun cell => { cell with deadline := some ⟨true,requests + 1⟩ }
          cancels := fun i => i == bodyOf owner }
  | poll (armed : w.stop = true) :
      Called w phases .poll
        { world :=
            { w with
              stop := false
              cells := fun owner =>
                if (phases (bodyOf owner)).active then World.request (w.cells owner)
                else w.cells owner }
          cancels := fun i => i.slot == .body && (phases i).active }

theorem callback_cases {kind : Callback} {arrival : Arrival effects TaskId World}
    (occurred : callback w phases kind = some arrival) : Called w phases kind arrival := by
  cases kind with
  | submit run kind task brainName =>
    simp only [callback] at occurred
    split at occurred
    · rename_i fresh
      cases occurred
      exact .submit fresh.1 fresh.2
    · cases occurred
  | feedback run n kind comment =>
    simp only [callback] at occurred
    split at occurred
    · rename_i fresh
      cases occurred
      exact .feedback fresh
    · cases occurred
  | disconnect task =>
    simp only [callback] at occurred
    split at occurred
    · rename_i call
      cases occurred
      exact .disconnect call
    · cases occurred
  | cancel run =>
    simp only [callback] at occurred
    split at occurred
    · rename_i active
      cases occurred
      exact .cancel active
    · cases occurred
  | expire run =>
    simp only [callback] at occurred
    split at occurred
    · rename_i deadline under
      obtain ⟨expired,requests⟩ := deadline
      cases expired with
      | true => cases occurred
      | false => cases occurred; exact .expire under
    · cases occurred
  | poll =>
    simp only [callback] at occurred
    split at occurred
    · rename_i armed
      cases occurred
      exact .poll armed
    · cases occurred

theorem enter_drift {i : TaskId} (other : i ≠ bodyOf run) : Drift h run w (w.enter i) := by
  unfold World.enter
  split
  · apply note_drift _
    intro same
    subst same
    exact other (by cases i; simp_all)
  · exact .refl h run w

theorem called_rely {excuse : World → World → Prop} {kind : Callback}
    {arrival : Arrival effects TaskId World} {phases : TaskId → Phase}
    (called : Called w phases kind arrival) (run : RunId) (c : Bool)
    (open_ : (phases (bodyOf run)).active = true ∨ c = true) :
    Rely h run excuse (w,c) (arrival.world,c || arrival.cancels (bodyOf run)) := by
  have still : ∀ {next : World}, Drift h run w next → Rely h run excuse (w,c) (next,c || false) := by
    intro next drift
    rw [Bool.or_false]
    exact .drift drift
  cases called with
  | submit fresh unborn => exact still (.refl h run w)
  | feedback fresh => exact still (.refl h run w)
  | @disconnect task call =>
    have different : (bodyOf run == task) = false := by
      simp only [beq_eq_false_iff_ne]
      intro same
      subst same
      exact call rfl
    simp only [different]
    exact still (.refl h run w)
  | @cancel owner active =>
    by_cases same : run = owner
    · subst same
      simp only [beq_self_eq_true,Bool.or_true]
      exact .requested ⟨⟨rfl,rfl,rfl⟩,by simp [World.request],rfl⟩
    · have different : (bodyOf run == bodyOf owner) = false := by simp [same]
      simp only [different]
      exact still (atCell_drift _ same)
  | @expire owner requests under =>
    by_cases same : run = owner
    · subst same
      simp only [beq_self_eq_true,Bool.or_true]
      exact .requested ⟨⟨rfl,rfl,rfl⟩,by simp,rfl⟩
    · have different : (bodyOf run == bodyOf owner) = false := by simp [same]
      simp only [different]
      exact still (atCell_drift _ same)
  | poll armed =>
    have taken : (c || ((bodyOf run).slot == .body && (phases (bodyOf run)).active)) = true := by
      rcases open_ with active | cancelling
      · simp [active]
      · simp [cancelling]
    rw [taken]
    refine .polled ⟨rfl,rfl,rfl,?_,rfl⟩
    dsimp only
    split
    · simp [World.request]
    · rfl

end HyprlandAgent
