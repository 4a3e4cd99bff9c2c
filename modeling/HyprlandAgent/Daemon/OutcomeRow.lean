import HyprlandAgent.Daemon.Frame

-- Who decides a run's outcome row: whoever's write was committed last.
namespace HyprlandAgent
open Coroutine
variable {h : Host} {run : RunId} {w middle next : World} {stop : Bool} {focused : Option Window}
  {rules : List AllowRule} {l : Loop effects TaskId World}

def Job.write : Job → Option StoreWrite
  | .store write => some write
  | .audit _ => none

def carriedOut (run : RunId) (l : Loop effects TaskId World) :
    Event effects TaskId Choice Callback Outside → Option StoreWrite
  | .act i reply choice =>
    match l.tasks i with
    | some (.live (.await (.store other write) _) _) =>
      if other = run ∧ (World.failed (reply (.store other write)) = false ∨ choice.fate = .committed) then
        some write
      else none
    | _ => none
  | .outside (.land other index _) =>
    if other = run then ((l.world.cells run).orphans[index]?).bind Job.write else none
  | _ => none

inductive Written (run : RunId) (w next : World) : Option StoreWrite → Prop where
  | kept (rows : (next.cells run).rows = (w.cells run).rows)
      (outcomes : (next.ledgers run).outcomes = (w.ledgers run).outcomes)
      (refused : ∀ write, asked = some write → ∃ now, write.apply now (w.cells run).rows = none) :
      Written run w next asked
  | wrote (applied : write.apply now (w.cells run).rows = some (next.cells run).rows)
      (outcomes : (next.ledgers run).outcomes = (noteCommit write now (w.ledgers run)).outcomes) :
      Written run w next (some write)

theorem Written.unasked (rows : (next.cells run).rows = (w.cells run).rows)
    (outcomes : (next.ledgers run).outcomes = (w.ledgers run).outcomes) : Written run w next none :=
  .kept rows outcomes fun _ asked => by cases asked

theorem Written.refl (run : RunId) (w : World) : Written run w w none := .unasked rfl rfl

theorem Written.after {asked : Option StoreWrite} (first : Written run w middle none)
    (second : Written run middle next asked) : Written run w next asked := by
  cases first with
  | kept rows outcomes refused =>
    cases second with
    | kept rows' outcomes' refused' =>
      rw [rows] at refused'
      exact .kept (rows'.trans rows) (outcomes'.trans outcomes) refused'
    | @wrote write now applied outcomes' =>
      rw [rows] at applied
      refine .wrote applied ?_
      rw [outcomes']
      cases write <;> simp [noteCommit,outcomes]

theorem atCell_written {change : Cell → Cell} (keeps : ∀ cell, (change cell).rows = cell.rows)
    (run other : RunId) : Written run w (w.atCell other change) none := by
  refine .unasked ?_ rfl
  by_cases same : run = other
  · subst same
    rw [World.atCell_same,keeps]
  · rw [World.atCell_other same]

theorem note_written {change : Ledger → Ledger} (keeps : ∀ past, (change past).outcomes = past.outcomes)
    (run other : RunId) : Written run w (w.note other change) none := by
  refine .unasked rfl ?_
  by_cases same : run = other
  · subst same
    rw [World.note_same,keeps]
  · rw [World.note_other same]

theorem commit_written {job : Job} (run : RunId) (committed : w.commit other now job = some next) :
    Written run w next (if other = run then job.write else none) := by
  by_cases same : other = run
  · subst same
    rw [if_pos rfl]
    cases job with
    | audit line =>
      cases committed
      refine atCell_written ?_ _ _
      exact fun cell => rfl
    | store write =>
      obtain ⟨rows,applied,rfl⟩ := Option.map_eq_some_iff.mp committed
      have stored : write.apply now (w.cells other).rows = some (((w.atCell other fun cell =>
          { cell with rows := rows }).note other (noteCommit write now)).cells other).rows := by
        rw [World.note_cells,World.atCell_same]
        exact applied
      refine .wrote stored ?_
      rw [World.note_same,World.atCell_ledgers]
  · rw [if_neg same]
    obtain ⟨cell,ledger⟩ := World.commit_other committed (Ne.symm same)
    exact .unasked (by rw [cell]) (by rw [ledger])

theorem noteIssue_outcomes (write : StoreWrite) (failed : Bool) (fate : Fate) (past : Ledger) :
    (noteIssue write failed fate past).outcomes = past.outcomes := by
  cases write with
  | upsertRunOutcome outcome score source rationale => cases source <;> rfl
  | _ => rfl

theorem store_written {i : TaskId} {write : StoreWrite} {reply : effects.Reply (.store other write)}
    (run : RunId) (done : w.effect h i (.store other write) reply choice = some next) :
    Written run w next (if other = run ∧ (World.failed reply = false ∨ choice.fate = .committed) then
      some write else none) := by
  have noted : Written run w (w.note other (noteIssue write (World.failed reply) choice.fate)) none :=
    note_written (noteIssue_outcomes _ _ _) run other
  rcases World.store_cases done with ⟨committed,carried⟩ | ⟨rfl,failed,fate⟩ | ⟨rfl,failed,fate⟩
  · have written := noted.after (commit_written run committed)
    by_cases same : other = run
    · rw [if_pos same] at written
      rwa [if_pos ⟨same,carried⟩]
    · rw [if_neg same] at written
      rwa [if_neg fun both => same both.1]
  · rw [if_neg (by simp [failed,fate])]
    exact noted
  · rw [if_neg (by simp [failed,fate])]
    refine noted.after (atCell_written ?_ _ _)
    exact fun cell => rfl

theorem perform_written {i : TaskId} {op : Op} {reply : effects.Reply op} (run : RunId)
    (other : ∀ owner write, op ≠ .store owner write)
    (performed : w.perform h i op reply choice = some next) : Written run w next none := by
  cases effect_happened (World.perform_effect performed) with
  | nothing => exact .refl run w
  | marked misses marks uncounted =>
    have missed : Written run w { w with misses := misses } none := .unasked rfl rfl
    refine missed.after (note_written ?_ _ _)
    intro past
    obtain ⟨_,_,_,_,_,_,same⟩ := marks past
    rw [same]
  | held owned looped =>
    refine atCell_written ?_ _ _
    intro cell
    obtain ⟨_,_,_,same⟩ := looped cell
    rw [same]
  | refocused focused => exact .unasked rfl rfl
  | disarmed =>
    unfold World.disarm
    split
    · exact .unasked rfl rfl
    · exact .refl run w
  | created =>
    refine note_written ?_ _ _
    exact fun past => rfl
  | wrote answered => exact absurd rfl (other _ _)
  | audited answered =>
    rcases World.answer_cases answered with ⟨committed,_⟩ | ⟨rfl,_⟩ | ⟨rfl,_⟩
    · have written := commit_written run committed
      simpa [Job.write] using written
    · exact .refl run next
    · refine atCell_written ?_ _ _
      exact fun cell => rfl

theorem called_written {phases : TaskId → Phase} {kind : Callback} {arrival : Arrival effects TaskId World}
    (run : RunId) (called : Called w phases kind arrival) : Written run w arrival.world none := by
  cases called with
  | submit fresh unborn => exact .refl run w
  | feedback fresh => exact .refl run w
  | disconnect call => exact .refl run w
  | cancel active =>
    refine atCell_written ?_ _ _
    exact fun cell => rfl
  | expire under =>
    dsimp only
    refine atCell_written ?_ _ _
    exact fun cell => rfl
  | poll armed =>
    refine .unasked ?_ rfl
    dsimp only
    split <;> rfl

theorem outside_written {kind : Outside} {phases : TaskId → Phase} (run : RunId)
    (occurred : outside h l.world phases kind = some next) :
    Written run l.world next (carriedOut run l (.outside kind)) := by
  cases kind with
  | arm =>
    cases occurred
    refine .unasked rfl ?_
    dsimp only
    split <;> rfl
  | focus window => cases occurred; exact .unasked rfl rfl
  | edit rules => cases occurred; exact .unasked rfl rfl
  | land other index now =>
    simp only [outside] at occurred
    split at occurred
    · rename_i job found
      cases occurred
      have rest : Written run l.world (l.world.atCell other fun cell =>
          { cell with orphans := cell.orphans.eraseIdx index }) none := by
        refine atCell_written ?_ _ _
        exact fun cell => rfl
      have asked : carriedOut run l (.outside (.land other index now)) =
          if other = run then job.write else none := by
        simp only [carriedOut]
        by_cases same : other = run
        · subst same
          rw [if_pos rfl,if_pos rfl,found]
          rfl
        · rw [if_neg same,if_neg same]
      rw [asked]
      cases committed : (l.world.atCell other fun cell =>
          { cell with orphans := cell.orphans.eraseIdx index }).commit other now job with
      | some after => exact rest.after (commit_written run committed)
      | none =>
        refine .kept (by cases rest; assumption) rfl ?_
        intro write same
        cases job with
        | audit line => cases committed
        | store stored =>
          split at same
          · rename_i own
            cases same
            subst own
            refine ⟨now,?_⟩
            simpa [World.commit] using committed
          · cases same
    · cases occurred

theorem written_step {l next : Loop effects TaskId World} (run : RunId) (step : Advance (daemon h) l event next) :
    Written run l.world next.world (carriedOut run l event) := by
  cases step with
  | @act i op more pending reply choice world at_op may performed =>
    by_cases stores : ∃ other write, op = .store other write
    · obtain ⟨other,write,rfl⟩ := stores
      simp only [carriedOut,at_op]
      exact store_written run (World.perform_effect performed)
    · have none_ : carriedOut run l (.act i reply choice) = none := by
        simp only [carriedOut,at_op]
        split
        · rename_i other write _ _ same
          cases same
          exact absurd ⟨_,_,rfl⟩ stores
        · rfl
      rw [none_]
      exact perform_written run (fun owner write same => stores ⟨owner,write,same⟩) performed
  | @start i program idle fresh =>
    show Written run l.world (World.enter i l.world) none
    unfold World.enter
    split
    · refine note_written ?_ _ _
      exact fun past => rfl
    · exact .refl run _
  | kill idle doomed => exact .refl run _
  | callback idle occurred => exact called_written run (callback_cases occurred)
  | outside occurred => exact outside_written run occurred

def lastDecides (w : World) : Prop :=
  ∀ run, (w.cells run).rows.outcome = (w.ledgers run).outcomes.getLast?

theorem lastDecides_step {l next : Loop effects TaskId World} (before : lastDecides l.world)
    (step : Advance (daemon h) l event next) : lastDecides next.world := by
  intro run
  have written := written_step run step
  generalize carriedOut run l event = asked at written
  cases written with
  | kept rows outcomes refused =>
    rw [rows,outcomes]
    exact before run
  | @wrote write now applied outcomes =>
    rw [outcomes]
    cases write with
    | upsertRunOutcome outcome score source rationale =>
      rw [← Option.some.inj applied]
      simp [noteCommit]
    | _ => exact (apply_outcome (by simp) applied).trans (before run)

theorem daemon_lastDecides (path : Reached (daemon h) (boot stop focused rules) l) : lastDecides l.world := by
  apply path.invariant (P:=fun l => lastDecides l.world) (fun _ => rfl)
  intro l event next _ before advanced
  exact lastDecides_step before (advance_cases advanced)

end HyprlandAgent
