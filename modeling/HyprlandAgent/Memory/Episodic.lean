import HyprlandAgent.Store.RunStore

-- What a finished run leaves in two tables: its outcome row, written by the executor
-- and by feedback, and the episode that the learning consumer makes of its record.
namespace HyprlandAgent.EpisodicMemory
open Transition

-- `_STATUS_TO_OUTCOME`
def statusToOutcome : List (String × String) :=
  [("completed","success"),("aborted","failure"),("errored","failure")]

def outcomeOf (status : RunStatus) : String :=
  (statusToOutcome.lookup status.value).getD status.value

-- The four variables the loop fills; a null class is `None`.
structure Tally where
  actionKinds : List Json := []
  contextClass : Json := .null
  blockedCount : Nat := 0
  rejectedCount : Nat := 0

def holds (payload : Dict) (name : String) : Bool := (payload.lookup name).any Json.truthy

-- One turn of the loop; `none` is an exception.
def tallyEvent (tally : Tally) (ev : RunEventRecord) : Option Tally :=
  if ev.kind = "action" then some
    { tally with
      actionKinds := tally.actionKinds ++ [(ev.payload.lookup "kind").getD (.str "?")] }
  else if ev.kind = "action_result" then some
    { tally with
      blockedCount := tally.blockedCount + if holds ev.payload "blocked" then 1 else 0
      rejectedCount := tally.rejectedCount + if holds ev.payload "rejected" then 1 else 0 }
  else if ev.kind = "state" then
    if holds ev.payload "active" && tally.contextClass == .null then
      match ev.payload.lookup "active" with
      | some (.obj fields) =>
        some { tally with contextClass := (fields.lookup "class").getD .null }
      | _ => none
    else some tally
  else some tally

def asText : Json → Option String
  | .str text => some text
  | _ => none

def bindable : Json → Bool
  | .arr _ | .obj _ => false
  | .int value => -9223372036854775808 ≤ value && value ≤ 9223372036854775807
  | _ => true

def summaryParts (tally : Tally) (kinds : List String) : List String :=
  [toString tally.actionKinds.length ++ " actions: " ++ ", ".intercalate kinds] ++
    (if tally.blockedCount = 0 then [] else [toString tally.blockedCount ++ " blocked"]) ++
    if tally.rejectedCount = 0 then [] else [toString tally.rejectedCount ++ " rejected"]

-- The row handed to `insert_episode`; `actions_json` is the text of `actionsJson`.
structure Episode where
  runId : RunId
  task : String
  outcome : String
  summary : String
  contextClass : Json
  actionsJson : Json

-- `ingest` between its read and its insertion; `none` is an exception on the way.
def episodeOf (runId : RunId) (record : RunRecord) : Option Episode := do
  let tally ← record.events.foldlM tallyEvent {}
  let kinds ← (tally.actionKinds.take 8).mapM asText
  let episode : Episode :=
    { runId := runId
      task := record.task
      outcome := outcomeOf record.status
      summary := "; ".intercalate (summaryParts tally kinds)
      contextClass := tally.contextClass
      actionsJson := .arr tally.actionKinds }
  if bindable tally.contextClass then some episode else none

theorem episode_outcome {runId : RunId} {record : RunRecord} {episode : Episode}
    (made : episodeOf runId record = some episode) : episode.outcome = outcomeOf record.status := by
  unfold episodeOf at made
  obtain ⟨tally,_,rest⟩ := Option.bind_eq_some_iff.mp made
  obtain ⟨kinds,_,built⟩ := Option.bind_eq_some_iff.mp rest
  split at built
  · cases built
    rfl
  · cases built

-- Who decides about the outcome row: the executor by the status it ends with, the
-- user by the kind of the feedback.
inductive Verdict where
  | derived (status : RunStatus)
  | explicit (kind : String)
  deriving DecidableEq, Repr

def Verdict.outcome : Verdict → RunOutcome × Rat
  | .derived status => deriveFromStatus status
  | .explicit kind => feedbackToOutcome kind

def Verdict.source : Verdict → OutcomeSource
  | .derived _ => .derived
  | .explicit _ => .explicit

def Verdict.write (verdict : Verdict) (rationale : Option String) : StoreWrite :=
  .upsertRunOutcome verdict.outcome.1 verdict.outcome.2 verdict.source rationale

-- How far the run is between the end of its body and the end of its ingestion.
inductive Stage where
  | executing | recorded | finished
  | ingesting (record : RunRecord)
  | over

-- Beside the rows, every state they were in: a reader may have taken either half of
-- its record from any of them. `verdicts` and `filed` are history: who wrote the
-- outcome row, and an episode's outcome with what `run_outcomes` said at the time.
structure Memory where
  rows : Rows := {}
  past : List Rows := []
  stage : Stage := .executing
  verdicts : List Verdict := []
  episode : Option Episode := none
  filed : List (String × Option String) := []

-- `finalise` and `publish` end `_run_task`, `feedback` is the second write of
-- `record_feedback`; the consumer goes on with `getRun`, and `insertEpisode` or
-- an exception that `ingest` logs.
inductive Event where
  | write (now : Seconds) (write : StoreWrite)
  | finalise (now : Seconds) (status : RunStatus)
  | publish
  | feedback (now : Seconds) (kind : String) (comment : Option String)
  | getRun (row events : Nat)
  | insertEpisode
  | giveUp

def decides : StoreWrite → Bool
  | .upsertRunOutcome _ _ _ _ => true
  | _ => false

namespace Memory
variable (s : Memory)

-- A write whose key is taken raises and changes nothing.
def store (now : Seconds) (write : StoreWrite) : Memory :=
  let rows := (write.apply now s.rows).getD s.rows
  { s with rows := rows, past := s.past ++ [rows] }

def settle (now : Seconds) (verdict : Verdict) (rationale : Option String) : Memory :=
  { s.store now (verdict.write rationale) with verdicts := s.verdicts ++ [verdict] }

def storedOutcome : Option String := s.rows.outcome.map fun row => row.outcome.value

def record (row events : Nat) : Option RunRecord := do
  let early ← s.past[row]?
  let late ← s.past[events]?
  { early with events := late.events }.record

def step (runId : RunId) : Event → Option Memory
  | .write now write => if decides write then none else some (s.store now write)
  | .finalise now status =>
    match s.stage with
    | .executing =>
      if status.terminal then some { s.settle now (.derived status) none with stage := .recorded }
      else none
    | _ => none
  | .publish =>
    match s.stage with
    | .recorded => some { s with stage := .finished }
    | _ => none
  | .feedback now kind comment =>
    if (feedbackToOutcome kind).1 = .unknown then some s
    else some (s.settle now (.explicit kind) comment)
  | .getRun row events =>
    match s.stage with
    | .finished => some
      { s with stage := match s.record row events with
                        | some record => .ingesting record
                        | none => .over }
    | _ => none
  | .insertEpisode =>
    match s.stage with
    | .ingesting record => (episodeOf runId record).map fun episode =>
      { s with
        stage := .over
        episode := some episode
        filed := s.filed ++ [(episode.outcome,s.storedOutcome)] }
    | _ => none
  | .giveUp =>
    match s.stage with
    | .ingesting _ => some { s with stage := .over }
    | _ => none

def Agrees : Prop := ∀ filing ∈ s.filed, filing.2 = some filing.1

def Decided : Prop :=
  s.rows.outcome.map OutcomeRow.outcome = s.verdicts.getLast?.map fun verdict => verdict.outcome.1

end Memory

def memory (runId : RunId) : System Memory Event := ⟨fun s event => s.step runId event⟩

-- The verdict files the run where its status does: with the successes for a completed
-- run, with the failures for an errored or an aborted one.
def Matched (status : RunStatus) : Option Verdict → Prop
  | none => False
  | some verdict =>
    (status = .completed ∧ (verdict = .derived .completed ∨ verdict = .explicit "thumbs_up")) ∨
      ((status = .errored ∨ status = .aborted) ∧
        (verdict = .derived .errored ∨ verdict = .explicit "thumbs_down"))

def timely (s : Memory) : Event → Prop
  | .insertEpisode => ∀ record, s.stage = .ingesting record → Matched record.status s.verdicts.getLast?
  | _ => True

section
variable {s next : Memory} {runId : RunId} {event : Event} {status : RunStatus} {verdict : Verdict}

theorem outcomeOf_eq_iff : verdict.outcome.1.value = outcomeOf status ↔ Matched status (some verdict) := by
  cases verdict with
  | derived decided => cases status <;> cases decided <;> simp [Matched] <;> decide
  | explicit kind =>
    by_cases up : kind = "thumbs_up"
    · subst up
      cases status <;> simp [Matched] <;> decide
    by_cases down : kind = "thumbs_down"
    · subst down
      cases status <;> simp [Matched] <;> decide
    have unknown : (Verdict.explicit kind).outcome.1 = .unknown := by
      simp [Verdict.outcome,feedbackToOutcome,up,down]
    rw [unknown]
    cases status <;> simp [Matched,up,down] <;> decide

namespace Memory

theorem settle_decided (now : Seconds) (verdict : Verdict) (rationale : Option String) :
    (s.settle now verdict rationale).Decided := by
  simp [Decided,settle,store,Verdict.write,StoreWrite.apply]

theorem store_decided {now : Seconds} {write : StoreWrite} (undecided : decides write = false)
    (before : s.Decided) : (s.store now write).Decided := by
  unfold Decided store at *
  rw [← before]
  cases applied : write.apply now s.rows with
  | none => rfl
  | some rows =>
    have kept : rows.outcome = s.rows.outcome := by
      refine apply_outcome ?_ applied
      intro outcome score source rationale same
      rw [same] at undecided
      cases undecided
    simp [kept]

inductive Step (runId : RunId) (s : Memory) : Event → Memory → Prop where
  | stored : decides write = false → Step runId s (.write now write) (s.store now write)
  | settled {quiet : Event} (by_ : Verdict) (stage : Stage) : quiet ≠ .insertEpisode →
      Step runId s quiet { s.settle now by_ rationale with stage := stage }
  | moved {quiet : Event} (stage : Stage) : quiet ≠ .insertEpisode →
      Step runId s quiet { s with stage := stage }
  | filed {read : RunRecord} {made : Episode} : s.stage = .ingesting read →
      episodeOf runId read = some made → Step runId s .insertEpisode
        { s with
          stage := .over
          episode := some made
          filed := s.filed ++ [(made.outcome,s.storedOutcome)] }

theorem step_cases (stepped : s.step runId event = some next) : Step runId s event next := by
  cases event with
  | write now write =>
    simp only [step] at stepped
    split at stepped
    · cases stepped
    · rename_i undecided
      cases stepped
      exact .stored (by simpa using undecided)
  | finalise now status =>
    simp only [step] at stepped
    split at stepped
    · split at stepped
      · cases stepped
        exact .settled (.derived status) .recorded Event.noConfusion
      · cases stepped
    · cases stepped
  | feedback now kind comment =>
    simp only [step] at stepped
    split at stepped
    · cases stepped
      exact .moved s.stage Event.noConfusion
    · cases stepped
      exact .settled (.explicit kind) s.stage Event.noConfusion
  | insertEpisode =>
    simp only [step] at stepped
    split at stepped
    · rename_i record reading
      obtain ⟨episode,made,rfl⟩ := Option.map_eq_some_iff.mp stepped
      exact .filed reading made
    · cases stepped
  | _ =>
    simp only [step] at stepped
    split at stepped
    · cases stepped
      exact .moved _ Event.noConfusion
    · cases stepped

theorem step_decided (before : s.Decided) (stepped : s.step runId event = some next) : next.Decided := by
  cases step_cases stepped with
  | stored undecided => exact store_decided undecided before
  | settled verdict stage _ => exact settle_decided (s:=s) _ verdict _
  | moved stage _ => exact before
  | filed reading made => exact before

theorem storedOutcome_eq (before : s.Decided) :
    s.storedOutcome = s.verdicts.getLast?.map fun verdict => verdict.outcome.1.value := by
  have named := congrArg (Option.map RunOutcome.value) before
  simpa [storedOutcome,Option.map_map,Function.comp_def] using named

theorem storedOutcome_iff (before : s.Decided) :
    s.storedOutcome = some (outcomeOf status) ↔ Matched status s.verdicts.getLast? := by
  rw [storedOutcome_eq before]
  cases s.verdicts.getLast? with
  | none => simp [Matched]
  | some verdict =>
    rw [Option.map_some,Option.some.injEq]
    exact outcomeOf_eq_iff

theorem agrees_snoc {filed : List (String × Option String)} (outcome : String) (stored : Option String)
    (before : ∀ filing ∈ filed, filing.2 = some filing.1) :
    (∀ filing ∈ filed ++ [(outcome,stored)], filing.2 = some filing.1) ↔ stored = some outcome := by
  constructor
  · intro all
    exact all (outcome,stored) List.mem_concat_self
  · intro same filing inside
    rcases List.mem_append.mp inside with old | new
    · exact before filing old
    · rw [List.mem_singleton.mp new]
      exact same

theorem timely_quiet (quiet : event ≠ .insertEpisode) : timely s event := by
  cases event with
  | insertEpisode => exact absurd rfl quiet
  | _ => trivial

theorem step_agrees (decided : s.Decided) (before : s.Agrees) (stepped : s.step runId event = some next) :
    next.Agrees ↔ timely s event := by
  cases step_cases stepped with
  | stored undecided => exact ⟨fun _ => trivial,fun _ => before⟩
  | settled verdict stage quiet => exact ⟨fun _ => timely_quiet quiet,fun _ => before⟩
  | moved stage quiet => exact ⟨fun _ => timely_quiet quiet,fun _ => before⟩
  | @filed record episode reading made =>
    have outcome : episode.outcome = outcomeOf record.status := episode_outcome made
    unfold Agrees timely
    rw [agrees_snoc episode.outcome s.storedOutcome before,outcome,storedOutcome_iff decided]
    constructor
    · intro matched other same
      cases reading.symm.trans same
      exact matched
    · intro matched
      exact matched record reading

end Memory

-- Over whole runs, the tables agree exactly when every insertion is timely.
theorem episodes_agree_iff (runId : RunId) (events : List Event) :
    (memory runId).Always Memory.Agrees {} events ↔ (memory runId).Meets timely {} events := by
  refine System.always_iff_meets (I:=Memory.Decided) ?_ ?_ ?_ ?_ events
  · intro s event next decided stepped
    exact Memory.step_decided decided stepped
  · intro s event next decided agrees stepped
    exact Memory.step_agrees decided agrees stepped
  · rfl
  · intro filing inside
    cases inside

end

def abortedRun : List Event :=
  [.write 0 (.insertRun ⟨"r",.run,"tidy up","claude",.running,0,none,none⟩),
    .write 1 (.updateRunStatus .aborted none none),.finalise 2 .aborted,.publish,.getRun 2 2,
    .insertEpisode]

theorem aborted_disagrees : ¬ ∀ runId events, (memory runId).Always Memory.Agrees {} events := by
  intro always
  have filed : ((memory "r").play {} abortedRun).map Memory.filed = some [("failure",some "partial")] := by
    decide +kernel
  obtain ⟨last,played,shown⟩ := Option.map_eq_some_iff.mp filed
  have agrees : last.Agrees := (always "r" abortedRun).played played
  have same := agrees ("failure",some "partial") (by rw [shown]; exact List.mem_singleton_self _)
  revert same
  decide

end HyprlandAgent.EpisodicMemory
