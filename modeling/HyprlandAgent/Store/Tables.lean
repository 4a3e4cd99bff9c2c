import Mathlib.Algebra.Order.Ring.Rat
import HyprlandAgent.Dumps
import HyprlandAgent.Sql.Keyed
import HyprlandAgent.Store.WriteOrder

-- The tables behind the run store: the statements its methods issue and its two reads,
-- and that what the tables hold is what the callers of the store count on.
namespace HyprlandAgent.StoreTables
open JsonLoads Ipc Transition
open Sql.Keyed hiding insert

-- A row of `runs`, and so on; the columns hold texts where the objects hold members
-- of an enumeration or a dictionary.
structure RunSql where
  runId : RunId
  kind : String
  task : String
  brain : String
  status : String
  startedAt : Seconds
  endedAt : Option Seconds
  errorText : Option String := none
  iterations : Option Nat := none
  actionCount : Option Nat := none
  durationS : Option Seconds := none
  deriving DecidableEq, Repr

structure EventSql where
  runId : RunId
  seq : Nat
  ts : Seconds
  kind : String
  payloadJson : Text
  deriving DecidableEq, Repr

structure OutcomeSql where
  runId : RunId
  outcome : String
  score : Rat
  source : String
  rationale : Option String
  decidedAt : Seconds
  deriving DecidableEq, Repr

structure FeedbackSql where
  feedbackId : Nat
  runId : RunId
  kind : String
  comment : Option String
  createdAt : Seconds
  deriving DecidableEq, Repr

-- `feedbackSeq` is the largest id that AUTOINCREMENT has given out.
structure Tables where
  runs : List RunSql := []
  runEvents : List EventSql := []
  runOutcomes : List OutcomeSql := []
  feedback : List FeedbackSql := []
  feedbackSeq : Nat := 0

def EventSql.key (row : EventSql) : RunId × Nat := (row.runId,row.seq)

def outcomeSource : OutcomeSource → String
  | .derived => "derived"
  | .explicit => "explicit"

-- The assignments of `DO UPDATE SET`.
def OutcomeSql.onto (excluded row : OutcomeSql) : OutcomeSql :=
  { row with outcome := excluded.outcome, score := excluded.score, source := excluded.source
             rationale := excluded.rationale, decidedAt := excluded.decidedAt }

def newRun (run : RunSummary) : RunSql where
  runId := run.runId
  kind := run.kind.value
  task := run.task
  brain := run.brain
  status := run.status.value
  startedAt := run.startedAt
  endedAt := run.endedAt

section
variable (floatText : Rat → String) (t : Tables)

def doInsertRun (run : RunSummary) : Option Tables :=
  (Sql.Keyed.insert RunSql.runId (newRun run) t.runs).map fun runs => { t with runs := runs }

def doUpdateStatus (run : RunId) (status : String) (endedAt : Seconds) (error : Option String) : Tables :=
  let change (row : RunSql) : RunSql := { row with status := status, endedAt := some endedAt, errorText := error }
  { t with runs := update RunSql.runId run change t.runs }

def doAppendEvent (run : RunId) (event : RunEventRecord) : Option Tables :=
  (Sql.Keyed.insert EventSql.key ⟨run,event.seq,event.ts,event.kind,dumpsText floatText event.payload.toJson⟩
    t.runEvents).map fun events => { t with runEvents := events }

-- The assignments after `SET`.
def metricSets (iterations actionCount : Option Nat) (durationS : Option Seconds) : List (RunSql → RunSql) :=
  (iterations.map fun value (row : RunSql) => { row with iterations := some value }).toList ++
    (actionCount.map fun value (row : RunSql) => { row with actionCount := some value }).toList ++
    (durationS.map fun value (row : RunSql) => { row with durationS := some value }).toList

def doUpdateMetrics (run : RunId) (iterations actionCount : Option Nat) (durationS : Option Seconds) : Tables :=
  let change (row : RunSql) := (metricSets iterations actionCount durationS).foldl (fun row set => set row) row
  { t with runs := update RunSql.runId run change t.runs }

def doUpsertOutcome (now : Seconds) (run : RunId) (outcome : String) (score : Rat) (source : String)
    (rationale : Option String) : Tables :=
  let excluded : OutcomeSql := ⟨run,outcome,score,source,rationale,now⟩
  { t with runOutcomes := upsert OutcomeSql.runId excluded excluded.onto t.runOutcomes }

def doInsertFeedback (now : Seconds) (run : RunId) (kind : String) (comment : Option String) : Tables :=
  { t with feedback := t.feedback ++ [⟨t.feedbackSeq + 1,run,kind,comment,now⟩]
           feedbackSeq := t.feedbackSeq + 1 }

-- The job of each method; `none` is an `IntegrityError`.
def exec (now : Seconds) (run : RunId) : StoreWrite → Option Tables
  | .insertRun summary => doInsertRun t summary
  | .updateRunStatus status endedAt error =>
    some (doUpdateStatus t run status.value (endedAt.getD now) error)
  | .appendEvent event => doAppendEvent floatText t run event
  | .updateRunMetrics iterations actionCount durationS =>
    some (doUpdateMetrics t run iterations actionCount durationS)
  | .upsertRunOutcome outcome score source rationale =>
    some (doUpsertOutcome t now run outcome.value score (outcomeSource source) rationale)
  | .insertFeedback kind comment => some (doInsertFeedback t now run kind comment)

def execAll (commits : List (Pending × Seconds)) : Tables :=
  commits.foldl (fun t (pending,now) => (exec floatText t now pending.run pending.write).getD t) t

end

-- `RunKind(text)`; none of the members is a `ValueError`.
def runKind (text : String) : Option RunKind := [RunKind.run,.plan].find? fun kind => kind.value == text

def runStatus (text : String) : Option RunStatus :=
  [RunStatus.running,.completed,.errored,.aborted].find? fun status => status.value == text

def rowToSummary (row : RunSql) : Option RunSummary := do
  let kind ← runKind row.kind
  let status ← runStatus row.status
  some ⟨row.runId,kind,row.task,row.brain,status,row.startedAt,row.endedAt,row.errorText⟩

def rowToEvent (python : Interpreter) (row : EventSql) : Option RunEventRecord := do
  let payload ← (loadsText python row.payloadJson).bind readDict
  some ⟨row.seq,row.ts,row.kind,payload⟩

def doGetRun (t : Tables) (run : RunId) : Option (RunSql × List EventSql) :=
  (select RunSql.runId run t.runs).head?.map fun row =>
    (row,(select EventSql.runId run t.runEvents).mergeSort fun a b => a.seq ≤ b.seq)

-- A read past the cache; `none` is an exception, `some none` that there is no such run.
def getRun (python : Interpreter) (t : Tables) (run : RunId) : Option (Option RunRecord) :=
  match doGetRun t run with
  | none => some none
  | some (row,rows) => do
    let summary ← rowToSummary row
    let events ← rows.mapM (rowToEvent python)
    some (some { summary with events := events })

def doListRuns (t : Tables) (limit : Int) : List RunSql := limited limit (descending RunSql.startedAt t.runs)

def listRuns (t : Tables) (limit : Int) : Option (List RunSummary) := (doListRuns t limit).mapM rowToSummary

def runSql (row : RunRow) : RunSql where
  runId := row.runId
  kind := row.kind.value
  task := row.task
  brain := row.brain
  status := row.status.value
  startedAt := row.startedAt
  endedAt := row.endedAt
  errorText := row.error
  iterations := row.iterations
  actionCount := row.actionCount
  durationS := row.durationS

def eventSql (floatText : Rat → String) (run : RunId) (event : RunEventRecord) : EventSql :=
  ⟨run,event.seq,event.ts,event.kind,dumpsText floatText event.payload.toJson⟩

def outcomeSql (run : RunId) (row : OutcomeRow) : OutcomeSql :=
  ⟨run,row.outcome.value,row.score,outcomeSource row.source,row.rationale,row.decidedAt⟩

def feedbackRow (row : FeedbackSql) : FeedbackRow := ⟨row.kind,row.comment,row.createdAt⟩

-- The part of the tables that is about one run holds that run's rows.
structure Shows (floatText : Rat → String) (t : Tables) (run : RunId) (rows : Rows) : Prop where
  runs : select RunSql.runId run t.runs = rows.run.toList.map runSql
  events : select EventSql.runId run t.runEvents = rows.events.map (eventSql floatText run)
  outcomes : select OutcomeSql.runId run t.runOutcomes = rows.outcome.toList.map (outcomeSql run)
  feedback : (select FeedbackSql.runId run t.feedback).map feedbackRow = rows.feedback

-- The primary keys are unique, and ids of feedback were given out in order.
structure Sound (t : Tables) : Prop where
  runs : Unique RunSql.runId t.runs
  events : Unique EventSql.key t.runEvents
  outcomes : Unique OutcomeSql.runId t.runOutcomes
  feedback : t.feedback.map FeedbackSql.feedbackId = (List.range t.feedbackSeq).map (· + 1)

def Carried (floatText : Rat → String) (python : Interpreter) (rows : Rows) : Prop :=
  ∀ event ∈ rows.events, Ipc.Carries floatText python 0 event.payload.toJson

structure Refines (floatText : Rat → String) (python : Interpreter) (t : Tables) (db : Database) : Prop where
  sound : Sound t
  shows : ∀ run, Shows floatText t run (db run)
  carried : ∀ run, Carried floatText python (db run)

-- What callers do: a run is inserted under its own id, and payloads are JSON data.
def Proper (floatText : Rat → String) (python : Interpreter) (run : RunId) : StoreWrite → Prop
  | .insertRun summary => summary.runId = run
  | .appendEvent event => Ipc.Carries floatText python 0 event.payload.toJson
  | _ => True

section
variable {floatText : Rat → String} {python : Interpreter} {t next : Tables} {db : Database} {run other : RunId}
  {rows : Rows} {write : StoreWrite} {now : Seconds}

theorem shows_empty : Shows floatText {} run {} := ⟨rfl,rfl,rfl,rfl⟩

theorem refines_empty : Refines floatText python {} fun _ => {} where
  sound := ⟨List.nodup_nil,List.nodup_nil,List.nodup_nil,rfl⟩
  shows _ := shows_empty
  carried _ := nofun

theorem Refines.written (refines : Refines floatText python t db) (sound : Sound next)
    (here : Shows floatText next run rows) (carried : Carried floatText python rows)
    (others : ∀ other, other ≠ run → Shows floatText next other (db other)) :
    Refines floatText python next (Function.update db run rows) := by
  refine ⟨sound,?_,?_⟩
  · intro other
    by_cases same : other = run
    · subst same
      rw [Function.update_self]
      exact here
    · rw [Function.update_of_ne same]
      exact others other same
  · intro other
    by_cases same : other = run
    · subst same
      rw [Function.update_self]
      exact carried
    · rw [Function.update_of_ne same]
      exact refines.carried other

theorem Refines.run_of_row (refines : Refines floatText python t db) {row : RunSql} (inside : row ∈ t.runs) :
    ∃ stored, (db row.runId).run = some stored ∧ runSql stored = row := by
  have listed : row ∈ select RunSql.runId row.runId t.runs := mem_select.mpr ⟨inside,rfl⟩
  rw [(refines.shows row.runId).runs] at listed
  obtain ⟨stored,there,same⟩ := List.mem_map.mp listed
  exact ⟨stored,Option.mem_toList.mp there,same⟩

theorem Refines.row_of_run (refines : Refines floatText python t db) {stored : RunRow}
    (present : (db run).run = some stored) : runSql stored ∈ t.runs ∧ stored.runId = run := by
  have listed : runSql stored ∈ (db run).run.toList.map runSql := by
    rw [present]
    exact List.mem_singleton.mpr rfl
  rw [← (refines.shows run).runs] at listed
  exact mem_select.mp listed

theorem Refines.taken_run (refines : Refines floatText python t db) :
    taken RunSql.runId run t.runs = (db run).run.isSome := by
  have same := (refines.shows run).runs
  cases present : (db run).run with
  | none =>
    rw [present] at same
    exact select_nil_iff.mp same
  | some stored =>
    obtain ⟨inside,named⟩ := refines.row_of_run present
    exact taken_iff.mpr (List.mem_map.mpr ⟨_,inside,named⟩)

theorem Refines.taken_event (refines : Refines floatText python t db) (event : RunEventRecord) :
    taken EventSql.key (run,event.seq) t.runEvents =
      (db run).events.any fun stored => stored.seq == event.seq := by
  have within := @taken_select _ _ _ _ _ EventSql.key EventSql.runId (eventSql floatText run event) t.runEvents
    fun same => congrArg Prod.fst same
  rw [show EventSql.key (eventSql floatText run event) = (run,event.seq) from rfl] at within
  rw [← within,show (eventSql floatText run event).runId = run from rfl,(refines.shows run).events,taken,List.any_map]
  refine congrArg (List.any (db run).events) (funext fun stored => ?_)
  rw [Bool.eq_iff_iff,Function.comp_apply,decide_eq_true_iff,beq_iff_eq]
  exact Prod.mk_right_inj

-- One lemma for each statement: it fails where the write does, and shows what it made.
theorem insertRun_refines (refines : Refines floatText python t db) {summary : RunSummary}
    (proper : summary.runId = run) :
    (doInsertRun t summary).isSome = !(db run).run.isSome ∧
      ∀ next, doInsertRun t summary = some next → Refines floatText python next
        (Function.update db run { db run with run := some { summary with error := none } }) := by
  subst proper
  constructor
  · rw [← refines.taken_run,doInsertRun,Option.isSome_map]
    exact isSome_insert
  · intro next made
    obtain ⟨runs,inserted,rfl⟩ := Option.map_eq_some_iff.mp made
    have unique := refines.sound.runs.insert inserted
    obtain ⟨free,rfl⟩ := insert_iff.mp inserted
    have absent : (db summary.runId).run = none := by
      have taken := @Refines.taken_run _ _ _ _ summary.runId refines
      cases present : (db summary.runId).run with
      | none => rfl
      | some stored =>
        rw [present] at taken
        exact absurd (taken_iff.mp taken) free
    refine refines.written { refines.sound with runs := unique } ?_ (refines.carried _) ?_
    · refine { refines.shows summary.runId with runs := ?_ }
      show select RunSql.runId (newRun summary).runId (t.runs ++ [newRun summary]) = _
      rw [select_snoc_same,show (newRun summary).runId = summary.runId from rfl,
        (refines.shows summary.runId).runs,absent]
      rfl
    · intro other different
      refine { refines.shows other with runs := ?_ }
      rw [← (refines.shows other).runs]
      exact @select_snoc_other _ _ _ RunSql.runId _ _ _ different.symm

theorem updateRun_refines (refines : Refines floatText python t db) {change : RunSql → RunSql}
    {edit : RunRow → RunRow} (stable : ∀ row, (change row).runId = row.runId)
    (agree : ∀ row, change (runSql row) = runSql (edit row)) :
    Refines floatText python { t with runs := update RunSql.runId run change t.runs }
      (Function.update db run { db run with run := (db run).run.map edit }) := by
  refine refines.written { refines.sound with runs := refines.sound.runs.update stable } ?_ (refines.carried run) ?_
  · refine { refines.shows run with runs := ?_ }
    rw [select_update_same stable,(refines.shows run).runs]
    cases (db run).run with
    | none => rfl
    | some row => exact congrArg (fun row => [row]) (agree row)
  · intro other different
    refine { refines.shows other with runs := ?_ }
    rw [select_update_other stable different]
    exact (refines.shows other).runs

theorem appendEvent_refines (refines : Refines floatText python t db) {event : RunEventRecord}
    (carries : Ipc.Carries floatText python 0 event.payload.toJson) :
    (doAppendEvent floatText t run event).isSome = !((db run).events.any fun stored => stored.seq == event.seq) ∧
      ∀ next, doAppendEvent floatText t run event = some next → Refines floatText python next
        (Function.update db run { db run with events := (db run).events ++ [event] }) := by
  constructor
  · rw [← refines.taken_event,doAppendEvent,Option.isSome_map]
    exact isSome_insert
  · intro next made
    obtain ⟨events,inserted,rfl⟩ := Option.map_eq_some_iff.mp made
    have unique := refines.sound.events.insert inserted
    obtain ⟨_,rfl⟩ := insert_iff.mp inserted
    refine refines.written { refines.sound with events := unique } ?_ ?_ ?_
    · refine { refines.shows run with events := ?_ }
      rw [List.map_append,← (refines.shows run).events]
      exact @select_snoc_same _ _ _ EventSql.runId (eventSql floatText run event) _
    · intro stored inside
      rcases List.mem_append.mp inside with before | new
      · exact refines.carried run stored before
      · rw [List.mem_singleton.mp new]
        exact carries
    · intro other different
      refine { refines.shows other with events := ?_ }
      rw [← (refines.shows other).events]
      exact @select_snoc_other _ _ _ EventSql.runId _ _ _ different.symm

theorem upsertOutcome_refines (refines : Refines floatText python t db) (outcome : RunOutcome) (score : Rat)
    (source : OutcomeSource) (rationale : Option String) :
    Refines floatText python (doUpsertOutcome t now run outcome.value score (outcomeSource source) rationale)
      (Function.update db run { db run with outcome := some ⟨outcome,score,source,rationale,now⟩ }) := by
  refine refines.written { refines.sound with outcomes := refines.sound.outcomes.upsert fun _ => rfl } ?_
    (refines.carried run) ?_
  · refine { refines.shows run with outcomes := ?_ }
    have upserted := @select_upsert_same _ _ _ OutcomeSql.runId (outcomeSql run ⟨outcome,score,source,rationale,now⟩)
      t.runOutcomes (OutcomeSql.onto ⟨run,outcome.value,score,outcomeSource source,rationale,now⟩)
    refine (upserted fun _ => rfl).trans ?_
    rw [show (outcomeSql run ⟨outcome,score,source,rationale,now⟩).runId = run from rfl,(refines.shows run).outcomes]
    cases (db run).outcome with
    | none => rfl
    | some before => rfl
  · intro other different
    refine { refines.shows other with outcomes := ?_ }
    have upserted := @select_upsert_other _ _ _ OutcomeSql.runId other
      (outcomeSql run ⟨outcome,score,source,rationale,now⟩) t.runOutcomes
      (OutcomeSql.onto ⟨run,outcome.value,score,outcomeSource source,rationale,now⟩)
    exact (upserted (fun _ => rfl) different).trans (refines.shows other).outcomes

theorem insertFeedback_refines (refines : Refines floatText python t db) (kind : String) (comment : Option String) :
    Refines floatText python (doInsertFeedback t now run kind comment)
      (Function.update db run { db run with feedback := (db run).feedback ++ [⟨kind,comment,now⟩] }) := by
  refine refines.written { refines.sound with feedback := ?_ } ?_ (refines.carried run) ?_
  · rw [doInsertFeedback,List.map_append,refines.sound.feedback,List.range_succ,List.map_append]
    rfl
  · refine { refines.shows run with feedback := ?_ }
    rw [← (refines.shows run).feedback,doInsertFeedback]
    have snoc := @select_snoc_same _ _ _ FeedbackSql.runId ⟨t.feedbackSeq + 1,run,kind,comment,now⟩ t.feedback
    exact (congrArg (List.map feedbackRow) snoc).trans List.map_append
  · intro other different
    refine { refines.shows other with feedback := ?_ }
    rw [← (refines.shows other).feedback]
    exact congrArg (List.map feedbackRow) (@select_snoc_other _ _ _ FeedbackSql.runId _ _ _ different.symm)

theorem metricSets_stable (iterations actionCount : Option Nat) (durationS : Option Seconds) (row : RunSql) :
    ((metricSets iterations actionCount durationS).foldl (fun row set => set row) row).runId = row.runId := by
  cases iterations <;> cases actionCount <;> cases durationS <;> rfl

theorem runSql_metrics (iterations actionCount : Option Nat) (durationS : Option Seconds) (row : RunRow) :
    (metricSets iterations actionCount durationS).foldl (fun row set => set row) (runSql row) =
      runSql { row with iterations := iterations.or row.iterations
                        actionCount := actionCount.or row.actionCount
                        durationS := durationS.or row.durationS } := by
  cases iterations <;> cases actionCount <;> cases durationS <;> rfl

theorem exec_refines (refines : Refines floatText python t db) (proper : Proper floatText python run write)
    (applied : write.apply now (db run) = some rows) :
    ∃ next, exec floatText t now run write = some next ∧
      Refines floatText python next (Function.update db run rows) := by
  cases write with
  | insertRun summary =>
    obtain ⟨free,shown⟩ := insertRun_refines refines proper
    simp only [StoreWrite.apply] at applied
    split at applied
    · cases applied
    · rename_i absent
      cases applied
      rw [Bool.not_eq_true] at absent
      rw [absent] at free
      obtain ⟨next,made⟩ := Option.isSome_iff_exists.mp free
      exact ⟨next,made,shown next made⟩
  | updateRunStatus status endedAt error =>
    cases applied
    exact ⟨_,rfl,updateRun_refines refines (fun _ => rfl) fun _ => rfl⟩
  | appendEvent event =>
    obtain ⟨free,shown⟩ := @appendEvent_refines _ _ _ _ run refines _ proper
    simp only [StoreWrite.apply] at applied
    split at applied
    · cases applied
    · rename_i absent
      cases applied
      rw [Bool.not_eq_true] at absent
      rw [absent] at free
      obtain ⟨next,made⟩ := Option.isSome_iff_exists.mp free
      exact ⟨next,made,shown next made⟩
  | updateRunMetrics iterations actionCount durationS =>
    cases applied
    exact ⟨_,rfl,updateRun_refines refines (metricSets_stable iterations actionCount durationS)
      (runSql_metrics iterations actionCount durationS)⟩
  | upsertRunOutcome outcome score source rationale =>
    cases applied
    exact ⟨_,rfl,upsertOutcome_refines refines outcome score source rationale⟩
  | insertFeedback kind comment =>
    cases applied
    exact ⟨_,rfl,insertFeedback_refines refines kind comment⟩

theorem exec_fails (refines : Refines floatText python t db) (proper : Proper floatText python run write)
    (failed : write.apply now (db run) = none) : exec floatText t now run write = none := by
  cases write with
  | insertRun summary =>
    have free := (insertRun_refines refines proper).1
    simp only [StoreWrite.apply] at failed
    split at failed
    · rename_i present
      rw [present] at free
      exact Option.isSome_eq_false_iff.mp free |> Option.isNone_iff_eq_none.mp
    · cases failed
  | appendEvent event =>
    have free := (@appendEvent_refines _ _ _ _ run refines _ proper).1
    simp only [StoreWrite.apply] at failed
    split at failed
    · rename_i present
      rw [present] at free
      exact Option.isSome_eq_false_iff.mp free |> Option.isNone_iff_eq_none.mp
    · cases failed
  | _ => cases failed

theorem runKind_value (kind : RunKind) : runKind kind.value = some kind := by
  cases kind <;> rfl

theorem runStatus_value (status : RunStatus) : runStatus status.value = some status := by
  cases status <;> rfl

theorem rowToSummary_runSql (row : RunRow) : rowToSummary (runSql row) = some row.toRunSummary := by
  unfold rowToSummary
  rw [show (runSql row).kind = row.kind.value from rfl,show (runSql row).status = row.status.value from rfl,
    runKind_value,runStatus_value]
  rfl

theorem rowToEvent_eventSql {event : RunEventRecord} (carries : Ipc.Carries floatText python 0 event.payload.toJson) :
    rowToEvent python (eventSql floatText run event) = some event := by
  have read := @loadsText_dumpsText floatText python _ [] carries fun _ inside => (List.not_mem_nil inside).elim
  rw [List.append_nil] at read
  unfold rowToEvent eventSql
  rw [read,Option.bind_some,readDict_toJson]
  rfl

theorem mapM_written {α β γ : Type} {write : α → β} {read : β → Option γ} {value : α → γ} {items : List α}
    (each : ∀ item ∈ items, read (write item) = some (value item)) :
    (items.map write).mapM read = some (items.map value) := by
  induction items with
  | nil => rfl
  | cons item rest ih =>
    rw [List.map_cons,List.mapM_cons,each item List.mem_cons_self,
      ih fun other inside => each other (List.mem_cons_of_mem _ inside)]
    rfl

theorem getRun_record (refines : Refines floatText python t db) (run : RunId) :
    getRun python t run = some (db run).record := by
  unfold getRun doGetRun Rows.record
  rw [(refines.shows run).runs]
  cases present : (db run).run with
  | none => rfl
  | some stored =>
    have sorted : (select EventSql.runId run t.runEvents).mergeSort (fun a b => a.seq ≤ b.seq) =
        ((db run).events.mergeSort fun a b => a.seq ≤ b.seq).map (eventSql floatText run) := by
      rw [(refines.shows run).events]
      exact (@List.map_mergeSort _ _ (fun a b : RunEventRecord => decide (a.seq ≤ b.seq))
        (fun a b : EventSql => decide (a.seq ≤ b.seq)) (eventSql floatText run) _ fun _ _ _ _ => rfl).symm
    have events : (((db run).events.mergeSort fun a b => a.seq ≤ b.seq).map (eventSql floatText run)).mapM
        (rowToEvent python) = some (((db run).events.mergeSort fun a b => a.seq ≤ b.seq).map fun event => event) :=
      mapM_written fun event inside => rowToEvent_eventSql (refines.carried run event (List.mem_mergeSort.mp inside))
    rw [List.map_id''] at events
    · simp only [Option.toList_some,List.map_cons,List.head?_cons,Option.map_some,sorted,
        rowToSummary_runSql,events,Option.bind_eq_bind,Option.bind_some]
    · exact fun _ => rfl

structure Listing (db : Database) (limit : Int) (summaries : List RunSummary) : Prop where
  own : ∀ summary ∈ summaries, ∃ row, (db summary.runId).run = some row ∧ row.toRunSummary = summary
  once : (summaries.map RunSummary.runId).Nodup
  newest : summaries.Pairwise fun one two => two.startedAt ≤ one.startedAt
  short : 0 ≤ limit → summaries.length ≤ limit.toNat
  whole : ∀ run row, (db run).run = some row → row.toRunSummary ∈ summaries ∨
    0 ≤ limit ∧ summaries.length = limit.toNat ∧ ∀ summary ∈ summaries, row.startedAt ≤ summary.startedAt

theorem lifted {α β : Type} {write : α → β} {p : α → Prop} {items : List β}
    (each : ∀ item ∈ items, ∃ source, p source ∧ write source = item) :
    ∃ sources : List α, sources.map write = items ∧ ∀ source ∈ sources, p source := by
  induction items with
  | nil => exact ⟨[],rfl,nofun⟩
  | cons item rest ih =>
    obtain ⟨source,good,rfl⟩ := each item List.mem_cons_self
    obtain ⟨sources,rfl,all⟩ := ih fun other inside => each other (List.mem_cons_of_mem _ inside)
    exact ⟨source :: sources,rfl,List.forall_mem_cons.mpr ⟨good,all⟩⟩

theorem listRuns_listing (refines : Refines floatText python t db) (limit : Int) :
    ∃ summaries, listRuns t limit = some summaries ∧ Listing db limit summaries := by
  have from_ : doListRuns t limit <+: descending RunSql.startedAt t.runs := limited_initial ..
  obtain ⟨rows,listed,stored⟩ := @lifted _ _ runSql (fun row => (db row.runId).run = some row) (doListRuns t limit)
    fun row inside => by
      obtain ⟨row,there,rfl⟩ := refines.run_of_row (mem_descending.mp (from_.subset inside))
      exact ⟨row,there,rfl⟩
  refine ⟨rows.map fun row => row.toRunSummary,?_,?_⟩
  · rw [listRuns,← listed]
    exact mapM_written fun row _ => rowToSummary_runSql row
  · constructor
    · intro summary inside
      obtain ⟨row,among,rfl⟩ := List.mem_map.mp inside
      exact ⟨row,stored row among,rfl⟩
    · have unique : ((descending RunSql.startedAt t.runs).map RunSql.runId).Nodup :=
        (descending_perm.map RunSql.runId).nodup_iff.mpr refines.sound.runs
      have once := (from_.sublist.map RunSql.runId).nodup unique
      rw [← listed,List.map_map] at once
      rw [List.map_map]
      exact once
    · have sorted := (@descending_sorted _ _ t.runs _ RunSql.startedAt).sublist from_.sublist
      rw [← listed,List.pairwise_map] at sorted
      rw [List.pairwise_map]
      exact sorted
    · intro bounded
      have length := congrArg List.length listed
      rw [List.length_map,doListRuns,limited,if_neg (Int.not_lt.mpr bounded),List.length_take] at length
      rw [List.length_map]
      omega
    · intro run row present
      obtain ⟨inside,named⟩ := refines.row_of_run present
      by_cases kept : runSql row ∈ doListRuns t limit
      · rw [← listed] at kept
        obtain ⟨other,among,same⟩ := List.mem_map.mp kept
        have own := stored other among
        rw [show other.runId = (runSql other).runId from rfl,same,show (runSql row).runId = run from named,present] at own
        cases own
        exact .inl (List.mem_map_of_mem among)
      · obtain ⟨bounded,full,later⟩ := limited_cut inside kept
        refine .inr ⟨bounded,?_,?_⟩
        · rw [← full,List.length_map]
          exact (List.length_map runSql).symm.trans (congrArg List.length listed)
        · intro summary there
          obtain ⟨other,among,rfl⟩ := List.mem_map.mp there
          refine later (runSql other) ?_
          show runSql other ∈ doListRuns t limit
          rw [← listed]
          exact List.mem_map_of_mem among

theorem execAll_snoc {pending : Pending} {commits : List (Pending × Seconds)}
    (made : exec floatText (execAll floatText t commits) now pending.run pending.write = some next) :
    execAll floatText t (commits ++ [(pending,now)]) = next := by
  unfold execAll at made ⊢
  rw [List.foldl_append]
  simp [made]

end

def proper (floatText : Rat → String) (python : Interpreter) (_ : RunStore) : StoreEvent → Prop
  | .request run write => Proper floatText python run write
  | _ => True

structure Kept (floatText : Rat → String) (python : Interpreter) (s : RunStore) : Prop where
  waiting : ∀ asked ∈ s.waiting, Proper floatText python asked.1 asked.2
  holder : ∀ held ∈ s.holder, Proper floatText python held.1.run held.1.write
  orphans : ∀ pending ∈ s.orphans, Proper floatText python pending.run pending.write
  refines : Refines floatText python (execAll floatText {} s.commits) s.db

section
variable {floatText : Rat → String} {python : Interpreter} {s next : RunStore} {pending : Pending} {rows : Rows}
  {now : Seconds}

theorem Kept.commits (kept : Kept floatText python s) (good : Proper floatText python pending.run pending.write)
    (applied : pending.write.apply now (s.db pending.run) = some rows) :
    Refines floatText python (execAll floatText {} (s.commits ++ [(pending,now)]))
      (Function.update s.db pending.run rows) := by
  obtain ⟨made,executed,refines⟩ := exec_refines kept.refines good applied
  rw [execAll_snoc executed]
  exact refines

theorem Kept.held (kept : Kept floatText python s) {job after : JobState} (holds : s.holder = some (pending,job)) :
    ∀ held ∈ some (pending,after), Proper floatText python held.1.run held.1.write := by
  rintro _ ⟨⟩
  exact kept.holder (pending,job) holds

theorem Kept.acquire (kept : Kept floatText python s) (stepped : s.step .acquire = some next) :
    Kept floatText python next := by
  simp only [RunStore.step] at stepped
  split at stepped
  · rename_i run write rest _ asked
    cases stepped
    have all := List.forall_mem_cons.mp (asked ▸ kept.waiting)
    refine { kept with waiting := all.2, holder := ?_ }
    rintro held ⟨⟩
    exact all.1
  · cases stepped

theorem Kept.moved (kept : Kept floatText python s) {event : StoreEvent} (good : proper floatText python s event)
    (other : event ≠ .acquire) (moved : RunStore.Step s event next) : Kept floatText python next := by
  cases moved with
  | acquire free => exact absurd rfl other
  | request =>
    refine { kept with waiting := ?_ }
    intro asked inside
    rcases List.mem_append.mp inside with before | new
    · exact kept.waiting asked before
    · rw [List.mem_singleton.mp new]
      exact good
  | withdraw => exact { kept with waiting := fun asked inside => kept.waiting asked (List.mem_of_mem_eraseIdx inside) }
  | pickUp held => exact { kept with holder := kept.held held }
  | fail held => exact { kept with holder := kept.held held }
  | commit held applied =>
    exact { kept with holder := kept.held held, refines := kept.commits (kept.holder _ held) applied }
  | resume held | raised held | leave held _ => exact { kept with holder := nofun }
  | abandoned held =>
    refine { kept with holder := nofun, orphans := ?_ }
    intro pending inside
    rcases List.mem_append.mp inside with before | new
    · exact kept.orphans pending before
    · rw [List.mem_singleton.mp new]
      exact kept.holder _ held
  | land found applied =>
    refine { kept with orphans := ?_, refines := ?_ }
    · exact fun pending inside => kept.orphans pending (List.mem_of_mem_eraseIdx inside)
    · exact kept.commits (kept.orphans _ (List.mem_of_getElem? found)) applied
  | lose => exact { kept with orphans := fun pending inside => kept.orphans pending (List.mem_of_mem_eraseIdx inside) }
  | _ => exact ⟨kept.waiting,kept.holder,kept.orphans,kept.refines⟩

theorem Kept.step (kept : Kept floatText python s) {event : StoreEvent} (good : proper floatText python s event)
    (stepped : s.step event = some next) : Kept floatText python next := by
  by_cases same : event = .acquire
  · subst same
    exact kept.acquire stepped
  · exact kept.moved good same (RunStore.step_cases stepped)

theorem tables_refine (run : Run runStore (proper floatText python) { db := fun _ => {} } s) :
    Refines floatText python (execAll floatText {} s.commits) s.db := by
  have kept : Kept floatText python s := by
    apply run.invariant ⟨nofun,nofun,nofun,refines_empty⟩
    intro s event next kept good stepped
    exact kept.step good stepped
  exact kept.refines

end

def begun : RunSummary := ⟨"r",.plan,"tidy up","claude",.running,0,none,none⟩

def quarter : RunEventRecord := ⟨0,1,"thinking",dict [("text",.str "\n")]⟩

-- A second insertion of the run fails, and a read starts before the last write commits.
def overlapping : List StoreEvent :=
  [.request "r" (.insertRun begun),.request "r" (.insertRun begun),.request "r" (.appendEvent quarter),
    .acquire,.pickUp,.commit 0,.resume,.acquire,.pickUp,.commit 1,.resume,.acquire,.pickUp,.getRun "r",.readRow 0,
    .commit 2,.resume,.request "r" (.updateRunStatus .completed none none),.acquire,.pickUp,.commit 3]

def askedFor (_ : RunStore) : StoreEvent → Prop
  | .request run (.insertRun summary) => summary.runId = run
  | .request _ (.appendEvent event) => (event.payload.toJson == quarter.payload.toJson) = true
  | _ => True

instance (s : RunStore) (event : StoreEvent) : Decidable (askedFor s event) := by
  unfold askedFor
  split <;> infer_instance

theorem askedFor_proper (s : RunStore) (event : StoreEvent) (asked : askedFor s event) :
    proper (fun _ => "0.5") cpython s event := by
  cases event with
  | request run write =>
    cases write with
    | insertRun summary => exact asked
    | appendEvent event =>
      show Ipc.Carries (fun _ => "0.5") cpython 0 event.payload.toJson
      rw [eq_of_beq asked]
      refine carries_dict (by decide) fun value inside => ?_
      rw [List.mem_singleton.mp inside]
      exact trivial
    | _ => exact trivial
  | _ => exact trivial

end HyprlandAgent.StoreTables
