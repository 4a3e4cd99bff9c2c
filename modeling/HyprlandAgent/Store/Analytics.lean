import HyprlandAgent.Sql.Grouped
import HyprlandAgent.Store.Tables

-- `list_analytics`: three queries over the tables, and what they count among the runs
-- that were recorded.
namespace HyprlandAgent.StoreTables
open Ipc Transition
open Sql.Keyed hiding insert

structure Analytics where
  days : Int
  totalRuns : Nat
  outcomes : List (String × Nat)
  topFailureTasks : List (String × Nat)

-- `FROM run_outcomes o JOIN runs r ON r.run_id = o.run_id`
def judged (t : Tables) : List (OutcomeSql × RunSql) :=
  join OutcomeSql.runId RunSql.runId t.runOutcomes t.runs

def doAnalytics (t : Tables) (cutoff : Seconds) (days : Int) : Analytics where
  days := days
  totalRuns := (t.runs.filter fun r => cutoff ≤ r.startedAt).length
  outcomes := descending Prod.snd <| counted (fun pair => pair.1.outcome) <|
    (judged t).filter fun pair => cutoff ≤ pair.2.startedAt
  topFailureTasks := limited 10 <| descending Prod.snd <| counted (fun pair => pair.2.task) <|
    (judged t).filter fun pair => pair.1.outcome = "failure" && cutoff ≤ pair.2.startedAt

def listAnalytics (now : Seconds) (t : Tables) (days : Int) : Analytics := doAnalytics t (now - days * 86400) days

def recent (db : Database) (cutoff : Seconds) (p : RunRow → Option OutcomeRow → Bool) (run : RunId) : Bool :=
  (db run).run.any fun row => cutoff ≤ row.startedAt && p row (db run).outcome

def ended (outcome : String) (_ : RunRow) (stored : Option OutcomeRow) : Bool :=
  stored.any fun row => row.outcome.value = outcome

def failedAt (task : String) (row : RunRow) (stored : Option OutcomeRow) : Bool :=
  row.task = task && ended "failure" row stored

structure Counts (db : Database) (cutoff : Seconds) (ids : List RunId) (report : Analytics) : Prop where
  total : report.totalRuns = ids.countP (recent db cutoff fun _ _ => true)
  outcomes : ∀ outcome n, (outcome,n) ∈ report.outcomes ↔
    0 < n ∧ n = ids.countP (recent db cutoff (ended outcome))
  named : (report.outcomes.map Prod.fst).Nodup
  ordered : report.outcomes.Pairwise fun one two => two.2 ≤ one.2
  sums : (report.outcomes.map Prod.snd).sum = ids.countP (recent db cutoff fun _ stored => stored.isSome)
  short : report.topFailureTasks.length ≤ 10
  distinct : (report.topFailureTasks.map Prod.fst).Nodup
  ranked : report.topFailureTasks.Pairwise fun one two => two.2 ≤ one.2
  tasks : ∀ task n, (task,n) ∈ report.topFailureTasks →
    0 < n ∧ n = ids.countP (recent db cutoff (failedAt task))
  others : ∀ task n, 0 < n → n = ids.countP (recent db cutoff (failedAt task)) →
    (task,n) ∈ report.topFailureTasks ∨
      report.topFailureTasks.length = 10 ∧ ∀ listed ∈ report.topFailureTasks, n ≤ listed.2

section
variable {floatText : Rat → String} {python : Interpreter} {t : Tables} {db : Database} {ids : List RunId}
  {cutoff : Seconds}

theorem Refines.enumerated (refines : Refines floatText python t db) (once : ids.Nodup)
    (all : ∀ run, run ∈ ids ↔ (db run).run.isSome = true) : (t.runs.map RunSql.runId).Perm ids := by
  refine (List.perm_ext_iff_of_nodup refines.sound.runs once).mpr fun run => ?_
  rw [all,← refines.taken_run]
  exact taken_iff.symm

theorem Refines.countP (refines : Refines floatText python t db) (once : ids.Nodup)
    (all : ∀ run, run ∈ ids ↔ (db run).run.isSome = true) {p : RunSql → Bool} {q : RunId → Bool}
    (same : ∀ stored, (db stored.runId).run = some stored → p (runSql stored) = q stored.runId) :
    t.runs.countP p = ids.countP q := by
  rw [← (refines.enumerated once all).countP_eq,List.countP_map]
  refine List.countP_congr fun row inside => ?_
  obtain ⟨stored,there,rfl⟩ := refines.run_of_row inside
  rw [Function.comp_apply,same stored there]
  exact Iff.rfl

theorem Refines.judged (refines : Refines floatText python t db) (once : ids.Nodup)
    (all : ∀ run, run ∈ ids ↔ (db run).run.isSome = true) {p : OutcomeSql × RunSql → Bool}
    {q : RunRow → Option OutcomeRow → Bool}
    (same : ∀ stored row, p (outcomeSql stored.runId row,runSql stored) =
      (cutoff ≤ stored.startedAt && q stored (some row)))
    (only : ∀ stored, q stored none = false) :
    ((judged t).filter p).length = ids.countP (recent db cutoff q) := by
  rw [StoreTables.judged,length_join refines.sound.outcomes]
  refine refines.countP once all fun stored there => ?_
  unfold recent
  rw [show (runSql stored).runId = stored.runId from rfl,(refines.shows stored.runId).outcomes,there]
  cases (db stored.runId).outcome with
  | none =>
    rw [Option.any_some,only,Bool.and_false]
    rfl
  | some row =>
    rw [Option.any_some,← same]
    exact Bool.or_false _

theorem doAnalytics_counts (refines : Refines floatText python t db) (once : ids.Nodup)
    (all : ∀ run, run ∈ ids ↔ (db run).run.isSome = true) (days : Int) :
    Counts db cutoff ids (doAnalytics t cutoff days) := by
  have ended_ (outcome : String) :
      (select (fun pair : OutcomeSql × RunSql => pair.1.outcome) outcome
        ((StoreTables.judged t).filter fun pair => cutoff ≤ pair.2.startedAt)).length =
        ids.countP (recent db cutoff (ended outcome)) := by
    rw [select,List.filter_filter]
    refine refines.judged once all (fun stored row => Bool.and_comm _ _) fun _ => rfl
  have failed_ (task : String) :
      (select (fun pair : OutcomeSql × RunSql => pair.2.task) task
        ((StoreTables.judged t).filter fun pair => pair.1.outcome = "failure" && cutoff ≤ pair.2.startedAt)).length =
        ids.countP (recent db cutoff (failedAt task)) := by
    rw [select,List.filter_filter]
    refine refines.judged once all (fun stored row => ?_) fun _ => Bool.and_false _
    rw [failedAt,← Bool.and_assoc,Bool.and_comm]
    rfl
  refine ⟨?_,?_,?_,descending_sorted,?_,?_,?_,?_,?_,?_⟩
  · rw [doAnalytics,← List.countP_eq_length_filter]
    refine refines.countP once all fun stored there => ?_
    rw [recent,there,Option.any_some,Bool.and_true]
    rfl
  · intro outcome n
    rw [← ended_]
    exact mem_descending.trans mem_counted
  · exact (descending_perm.map Prod.fst).nodup_iff.mpr counted_keys
  · refine (descending_perm.map Prod.snd).sum_eq.trans (counted_total.trans ?_)
    exact refines.judged once all (fun stored row => (Bool.and_true _).symm) fun _ => rfl
  · exact (List.length_take ..).trans_le (Nat.min_le_left ..)
  · refine List.Nodup.sublist ((limited_initial 10 _).sublist.map Prod.fst) ?_
    exact (descending_perm.map Prod.fst).nodup_iff.mpr counted_keys
  · exact descending_sorted.sublist (limited_initial 10 _).sublist
  · intro task n listed
    rw [← failed_]
    exact mem_counted.mp (mem_descending.mp ((limited_initial 10 _).subset listed))
  · intro task n some_ counted_
    rw [← failed_] at counted_
    by_cases kept : (task,n) ∈ (doAnalytics t cutoff days).topFailureTasks
    · exact .inl kept
    · have cut := @limited_cut _ _ _ _ _ Prod.snd 10 (mem_counted.mpr ⟨some_,counted_⟩) kept
      exact .inr ⟨cut.2.1,cut.2.2⟩

end

variable {floatText : Rat → String} {python : Interpreter} {s : RunStore} {ids : List RunId}

def praised : List StoreEvent :=
  [.request "r" (.insertRun begun),.request "q" (.insertRun { begun with runId := "q", task := "lock up" }),
    .request "p" (.insertRun { begun with runId := "p", task := "lock up" })] ++
    ["r","q","p"].map (.request · (.upsertRunOutcome .failure (-0.8) .derived none)) ++
    [.request "r" (.upsertRunOutcome .success 1 .explicit none)] ++
    (List.range 7).flatMap fun n => [.acquire,.pickUp,.commit n,.resume]

end HyprlandAgent.StoreTables
