import HyprlandAgent.Sql.Session

-- Opening the store: `RunStore._init_db` and the migrations it calls, statement by
-- statement.
namespace Migration
open Coroutine Sql

def latestSchemaVersion : Nat := 5

def ask (op : Op) : Prog sql (Op.Res op) := Prog.perform (S:=sql) op

-- The script commits whatever is open, then runs in autocommit mode.
def script : List Statement → Prog sql Unit
  | [] => pure ()
  | statement :: rest => do
    ask (.script statement)
    script rest

def executescript (statements : List Statement) : Prog sql Unit := do
  ask .commit
  script statements

def execute (statement : Statement) : Prog sql Unit := ask (.execute statement)
def commit : Prog sql Unit := ask .commit
def tableInfo (name : String) : Prog sql (List String) := ask (.tableInfo name)

def onlyIf (needed : Bool) (part : Prog sql Unit) : Prog sql Unit :=
  if needed then part else pure ()

def runColumns : List String :=
  ["run_id","kind","task","brain","status","started_at","ended_at","error_text"]

def schema : List Statement :=
  [.pragma "journal_mode=WAL",
    .createTableIfAbsent "runs" runColumns,
    .createTableIfAbsent "run_events" ["run_id","seq","ts","kind","payload_json"],
    .createIndexIfAbsent false "idx_runs_started" "runs" ["started_at"]]

def legacyCol : String := "dry" ++ "_run"

def rebuildScript : List Statement :=
  [.createTable "runs_new" runColumns,
    .insertSelect "runs_new" "runs" runColumns [("kind",.text "run")],
    .dropTable "runs",
    .renameTable "runs_new" "runs",
    .createIndexIfAbsent false "idx_runs_started" "runs" ["started_at"]]

def rebuildRunsTable : Prog sql Unit := executescript rebuildScript

-- `ALTER TABLE … ADD COLUMN`, unless the column was listed before.
def addMissing (cols : List String) (table column : String) (default : Value) : Prog sql Unit :=
  if column ∈ cols then pure () else execute (.addColumn table column default)

def v2Script : List Statement :=
  [.createTableIfAbsent "run_outcomes" ["run_id","outcome","score","source","rationale","decided_at"],
    .createTableIfAbsent "feedback" ["feedback_id","run_id","kind","comment","created_at"],
    .createIndexIfAbsent false "idx_feedback_run" "feedback" ["run_id"],
    .createTableIfAbsent "action_outcomes"
      ["run_id","seq","action_kind","params_json","result_kind","stdout","stderr","returncode",
        "dispatch_response","pre_state_hash","post_state_hash","duration_ms"],
    .createIndexIfAbsent false "idx_action_outcomes_kind" "action_outcomes" ["action_kind","result_kind"]]

def applyV2Migration : Prog sql Unit := do
  let cols ← tableInfo "runs"
  addMissing cols "runs" "iterations" .null
  addMissing cols "runs" "action_count" .null
  addMissing cols "runs" "duration_s" .null
  executescript v2Script
  execute (.setUserVersion 2)
  commit

def v3Script : List Statement :=
  [.createTableIfAbsent "episodes"
      ["run_id","task","task_normalized","outcome","summary","context_class","actions_json","created_at"],
    .createIndexIfAbsent false "idx_episodes_outcome" "episodes" ["outcome","created_at"],
    .createIndexIfAbsent false "idx_episodes_context" "episodes" ["context_class"],
    .createTableIfAbsent "reflections"
      ["reflection_id","run_id","polarity","text","generated_by","created_at"],
    .createIndexIfAbsent false "idx_reflections_run" "reflections" ["run_id"]]

-- The virtual tables exist only where the extension could be loaded.
def applyV3Migration (vecOk : Bool) : Prog sql Unit := do
  executescript v3Script
  onlyIf vecOk (execute (.createTableIfAbsent "episode_vecs" ["run_id","embedding"]))
  execute (.setUserVersion 3)
  commit

def v4Script : List Statement :=
  [.createTableIfAbsent "skills"
      ["skill_id","name","description","actions_json","params_schema","source_run_id","created_at",
        "last_used_at","status"],
    .createIndexIfAbsent false "idx_skills_status" "skills" ["status"],
    .createTableIfAbsent "skill_outcomes" ["skill_id","run_id","outcome","ts"],
    .createTableIfAbsent "learned_rules"
      ["rule_id","yaml","confidence","hit_count","source_runs","status","proposed_at","decided_at"],
    .createIndexIfAbsent false "idx_learned_rules_status" "learned_rules" ["status"],
    .createTableIfAbsent "allowlist_proposals"
      ["proposal_id","app_class","title_pat","hit_count","last_seen","status"],
    .createIndexIfAbsent true "uq_allowlist_proposal" "allowlist_proposals" ["app_class","title_pat"]]

def applyV4Migration (vecOk : Bool) : Prog sql Unit := do
  executescript v4Script
  onlyIf vecOk (execute (.createTableIfAbsent "skill_vecs" ["skill_id","embedding"]))
  execute (.setUserVersion 4)
  commit

-- The columns of memory decay; rows that were there get the present time.
def addDecay (now : Rat) (table : String) : Prog sql Unit := do
  let cols ← tableInfo table
  addMissing cols table "decay_score" (.real 1)
  if "last_accessed_at" ∈ cols then pure ()
  else
    execute (.addColumn table "last_accessed_at" .null)
    execute (.fillNull table "last_accessed_at" (.real now))

def applyV5Migration (now : Rat) : Prog sql Unit := do
  addDecay now "episodes"
  addDecay now "reflections"
  addDecay now "skills"
  execute (.setUserVersion 5)
  commit

-- `_load_vec0`, whose failure only disables episodic memory.
def loadVec : Prog sql Bool :=
  Prog.tryCatch
    (do
      ask .loadExtension
      pure true)
    fun _ => pure false

def prepareRuns : Prog sql Unit := do
  executescript schema
  let cols ← tableInfo "runs"
  addMissing cols "runs" "error_text" .null
  addMissing cols "runs" "kind" (.text "run")
  onlyIf (legacyCol ∈ cols) rebuildRunsTable
  commit

def initDb (now : Rat) : Prog sql Bool := do
  let vecOk ← loadVec
  prepareRuns
  let userVer : Nat ← ask .userVersion
  onlyIf (userVer < 2) applyV2Migration
  onlyIf (userVer < 3) (applyV3Migration vecOk)
  onlyIf (userVer < 4) (applyV4Migration vecOk)
  onlyIf (userVer < 5) (applyV5Migration now)
  pure vecOk

-- One `open` of a file by a process that dies after `fuel` operations, unless it
-- is done by then.
def openStore (available : Bool) (now : Rat) (fuel : Nat) (f : File) : File × Outcome Bool :=
  session available fuel (initDb now) f

end Migration
