import HyprlandAgent.Schemas

-- What the database holds about one run, and what each write of the store does
-- to it. Every statement names its run, so the tables fall apart by run.
namespace HyprlandAgent

inductive RunOutcome where
  | success | partial_ | failure | stuck | unknown
  deriving DecidableEq, Repr

def RunOutcome.value : RunOutcome → String
  | .success => "success"
  | .partial_ => "partial"
  | .failure => "failure"
  | .stuck => "stuck"
  | .unknown => "unknown"

def deriveFromStatus : RunStatus → RunOutcome × Rat
  | .completed => (.success,0.8)
  | .errored => (.failure,-0.8)
  | .aborted => (.partial_,-0.3)
  | .running => (.unknown,0)

def feedbackToOutcome (kind : String) : RunOutcome × Rat :=
  if kind = "thumbs_up" then (.success,1)
  else if kind = "thumbs_down" then (.failure,-1)
  else (.unknown,0)

inductive OutcomeSource where
  | derived | explicit
  deriving DecidableEq, Repr

structure RunRow extends RunSummary where
  iterations : Option Nat := none
  actionCount : Option Nat := none
  durationS : Option Seconds := none
  deriving DecidableEq, Repr

structure OutcomeRow where
  outcome : RunOutcome
  score : Rat
  source : OutcomeSource
  rationale : Option String
  decidedAt : Seconds
  deriving DecidableEq, Repr

structure FeedbackRow where
  kind : String
  comment : Option String
  createdAt : Seconds
  deriving DecidableEq, Repr

-- The rows of one run in `runs`, `run_events`, `run_outcomes` and `feedback`.
structure Rows where
  run : Option RunRow := none
  events : List RunEventRecord := []
  outcome : Option OutcomeRow := none
  feedback : List FeedbackRow := []

inductive StoreWrite where
  | insertRun (run : RunSummary)
  | updateRunStatus (status : RunStatus) (endedAt : Option Seconds) (error : Option String)
  | appendEvent (event : RunEventRecord)
  | updateRunMetrics (iterations actionCount : Option Nat) (durationS : Option Seconds)
  | upsertRunOutcome (outcome : RunOutcome) (score : Rat) (source : OutcomeSource)
      (rationale : Option String)
  | insertFeedback (kind : String) (comment : Option String)

abbrev StoreWrite.Res : StoreWrite → Type
  | .insertFeedback _ _ => Nat
  | _ => Unit

-- The statement of one write and its commit; `none` is a violated primary key,
-- which raises and changes nothing. `now` is the clock it reads.
def StoreWrite.apply (now : Seconds) (rows : Rows) : StoreWrite → Option Rows
  | .insertRun run =>
    if rows.run.isSome then none else some { rows with run := some { run with error := none } }
  | .updateRunStatus status endedAt error =>
    some { rows with run := rows.run.map fun row =>
      { row with status := status, endedAt := some (endedAt.getD now), error := error } }
  | .appendEvent event =>
    if rows.events.any fun stored => stored.seq == event.seq then none
    else some { rows with events := rows.events ++ [event] }
  | .updateRunMetrics iterations actionCount durationS =>
    some { rows with run := rows.run.map fun row =>
      { row with iterations := iterations.or row.iterations
                 actionCount := actionCount.or row.actionCount
                 durationS := durationS.or row.durationS } }
  | .upsertRunOutcome outcome score source rationale =>
    some { rows with outcome := some ⟨outcome,score,source,rationale,now⟩ }
  | .insertFeedback kind comment =>
    some { rows with feedback := rows.feedback ++ [⟨kind,comment,now⟩] }

def Rows.status (rows : Rows) : Option RunStatus := rows.run.map fun row => row.status

theorem apply_outcome {now : Seconds} {rows next : Rows} {write : StoreWrite}
    (quiet : ∀ outcome score source rationale,
      write ≠ .upsertRunOutcome outcome score source rationale)
    (applied : write.apply now rows = some next) : next.outcome = rows.outcome := by
  cases write with
  | upsertRunOutcome outcome score source rationale => exact absurd rfl (quiet _ _ _ _)
  | insertRun run =>
    simp only [StoreWrite.apply] at applied
    split at applied
    · cases applied
    · cases applied; rfl
  | appendEvent event =>
    simp only [StoreWrite.apply] at applied
    split at applied
    · cases applied
    · cases applied; rfl
  | _ => cases applied; rfl

end HyprlandAgent
