import Mathlib.Data.List.MinMax
import HyprlandAgent.Daemon.RunExecutor
import HyprlandAgent.Memory.Episodic

-- The reflections that the learning consumer stores about finished runs, and those that
-- are read back.
namespace HyprlandAgent.ReflectionEngine
open EpisodicMemory

def failureOutcomes : List String := ["failure","stuck","errored","aborted"]

structure ReflectionRow where
  runId : RunId
  polarity : String
  text : String
  generatedBy : String
  createdAt : Seconds
  deriving DecidableEq, Repr

-- What the language leaves open: how a value is formatted, and the elements of a set in
-- the order in which it is gone through.
structure Interpreter where
  str : Json → String
  setOrder : List Json → List Json

-- The rows that SQLite returns newest first; the order of equal times is its own.
structure Sqlite where
  newest : List ReflectionRow → List ReflectionRow
  newest_perm : ∀ rows, (newest rows).Perm rows
  newest_sorted : ∀ rows, (newest rows).Pairwise fun a b => b.createdAt ≤ a.createdAt

def hashable : Json → Bool
  | .arr _ | .obj _ => false
  | _ => true

section
variable (python : Interpreter)

-- `max(set(action_kinds), key=action_kinds.count)`; `none` is a `TypeError`.
def mostRepeated (actionKinds : List Json) : Option String :=
  if actionKinds = [] then some "unknown"
  else if actionKinds.all hashable then
    ((python.setOrder actionKinds).argmax actionKinds.count).map python.str
  else none

-- The text of a lesson, if there is one; the outer `none` is an exception.
def deriveText (task outcome : String) (actionKinds : List Json) (blockedCount : Nat) :
    Option (Option String) :=
  if 0 < blockedCount then
    some (some ("For task '" ++ task ++ "': action was blocked " ++ toString blockedCount ++ " time(s). " ++
      "Verify the target app is in the allowlist before attempting."))
  else if outcome = "stuck" then
    (mostRepeated python actionKinds).map fun repeated =>
      some ("For task '" ++ task ++ "': got stuck repeating '" ++ repeated ++ "'. " ++
        "Try a different strategy or target element.")
  else if outcome = "failure" ∨ outcome = "errored" ∨ outcome = "aborted" then
    if actionKinds = [] then
      some (some ("For task '" ++ task ++ "': failed without completing any action."))
    else
      ((actionKinds.take 3).mapM asText).map fun preview =>
        some ("For task '" ++ task ++ "': failed after " ++ toString actionKinds.length ++ " action(s)" ++
          " (" ++ ", ".intercalate preview ++ "). Consider an alternative approach.")
  else some none

def actionKinds (events : List RunEventRecord) : List Json :=
  (events.filter (·.kind = "action")).map fun ev => (ev.payload.lookup "kind").getD (.str "?")

def blockedCount (events : List RunEventRecord) : Nat :=
  events.countP fun ev => ev.kind = "action_result" && holds ev.payload "blocked"

-- The row that `reflect` inserts, if it inserts one; `record` is what `get_run` returned.
def reflect (runId : RunId) (outcome : String) (record : Option RunRecord) (now : Seconds) :
    Option ReflectionRow := do
  let record ← record
  let polarity := if outcome ∈ failureOutcomes then "negative" else "positive"
  let text ← deriveText python record.task outcome (actionKinds record.events) (blockedCount record.events)
  let text ← text
  if text ≠ "" then some ⟨runId,polarity,text,"rule-based",now⟩ else none

end

def listRecentReflections (sqlite : Sqlite) (rows : List ReflectionRow) (polarity : String)
    (limit : Nat) : List ReflectionRow :=
  (sqlite.newest (rows.filter (·.polarity = polarity))).take limit

abbrev Ending := Except Exc Unit

def finalStatus : Ending → RunStatus
  | .ok _ => .completed
  | .error exc => RunExecutor.failureStatus exc

-- A run that the consumer was told about: how it ended, its record, and when the
-- reflection is made.
structure Finished where
  ending : Ending
  record : RunRecord
  now : Seconds

namespace Finished
variable (python : Interpreter) (run : Finished)

def outcome : String := (deriveFromStatus (finalStatus run.ending)).1.value

def stored : Option ReflectionRow := reflect python run.record.runId run.outcome (some run.record) run.now

def errored : Bool := finalStatus run.ending == .errored

def stuck : Bool :=
  match run.ending with
  | .error (.stuck _) => true
  | _ => false

def blocked : Bool := 0 < blockedCount run.record.events

def failed : Bool := run.errored || run.stuck || run.blocked

-- What is to be stored about a run: a negative reflection if it failed, none if it
-- completed without a blocked action, and never a lesson as a positive one.
structure Reflects : Prop where
  negative : run.failed = true → ∃ row, run.stored python = some row ∧ row.polarity = "negative"
  silent : finalStatus run.ending = .completed → run.blocked = false → ∀ row, run.stored python = some row →
    row.polarity ≠ "negative"
  honest : ∀ row, run.stored python = some row → row.polarity ≠ "positive"

def readable : Bool := ((actionKinds run.record.events).take 3).all fun kind => (asText kind).isSome

def Fair : Prop :=
  if run.errored then run.blocked = true ∨ run.readable = true else run.stuck = false ∧ run.blocked = false

end Finished

-- The reflections of all runs, in which the lessons of the failed ones are found again.
structure Consistent (python : Interpreter) (sqlite : Sqlite) (runs : List Finished) : Prop where
  reflects : ∀ run ∈ runs, run.Reflects python
  found : ((runs.filter Finished.failed).filterMap (·.stored python)).Subperm
    (listRecentReflections sqlite (runs.filterMap (·.stored python)) "negative" 20)

section
variable {python : Interpreter} {run : Finished}

theorem errored_outcome (errored : run.errored = true) : run.outcome = "failure" := by
  have status : finalStatus run.ending = .errored := by simpa [Finished.errored] using errored
  rw [Finished.outcome,status]
  rfl

theorem other_outcome (other : run.errored = false) : run.outcome = "success" ∨ run.outcome = "partial" := by
  have status : finalStatus run.ending ≠ .errored := by simpa [Finished.errored] using other
  unfold Finished.outcome
  cases same : finalStatus run.ending with
  | completed => exact .inl rfl
  | aborted => exact .inr rfl
  | errored => exact absurd same status
  | running =>
    exfalso
    unfold finalStatus RunExecutor.failureStatus at same
    split at same
    · cases same
    · split at same <;> cases same

theorem deriveText_some {task outcome text : String} {kinds : List Json} {count : Nat}
    (derived : deriveText python task outcome kinds count = some (some text)) : text ≠ "" := by
  have begun (rest : String) : "For task '" ++ task ++ rest ≠ "" := by
    intro empty
    have length := congrArg String.length empty
    simp at length
  have shown : ∃ rest, text = "For task '" ++ task ++ rest := by
    unfold deriveText at derived
    split at derived
    · cases derived
      exact ⟨_,by simp only [String.append_assoc]; rfl⟩
    · split at derived
      · obtain ⟨repeated,_,same⟩ := Option.map_eq_some_iff.mp derived
        cases same
        exact ⟨_,by simp only [String.append_assoc]; rfl⟩
      · split at derived
        · split at derived
          · cases derived
            exact ⟨_,rfl⟩
          · obtain ⟨preview,_,same⟩ := Option.map_eq_some_iff.mp derived
            cases same
            exact ⟨_,by simp only [String.append_assoc]; rfl⟩
        · cases derived
  obtain ⟨rest,rfl⟩ := shown
  exact begun rest

namespace Finished
variable (python) (run)

def text : Option String :=
  (deriveText python run.record.task run.outcome (actionKinds run.record.events)
    (blockedCount run.record.events)).join

def polarity : String := if run.outcome ∈ failureOutcomes then "negative" else "positive"

theorem stored_eq : run.stored python = (run.text python).map fun text =>
    ⟨run.record.runId,run.polarity,text,"rule-based",run.now⟩ := by
  unfold stored reflect text polarity
  simp only [Option.bind_eq_bind,Option.bind_some]
  cases derived : deriveText python run.record.task run.outcome (actionKinds run.record.events)
      (blockedCount run.record.events) with
  | none => rfl
  | some lesson =>
    cases lesson with
    | none => rfl
    | some text => exact if_pos (deriveText_some derived)

variable {python} {run}

theorem stored_polarity {row : ReflectionRow} (some_ : run.stored python = some row) :
    row.polarity = run.polarity := by
  rw [stored_eq] at some_
  obtain ⟨_,_,rfl⟩ := Option.map_eq_some_iff.mp some_
  rfl

theorem stored_isSome : (run.stored python).isSome = (run.text python).isSome := by
  rw [stored_eq,Option.isSome_map]

theorem errored_polarity (errored : run.errored = true) : run.polarity = "negative" := by
  rw [polarity,errored_outcome errored]
  rfl

theorem other_polarity (other : run.errored = false) : run.polarity = "positive" := by
  unfold polarity
  rcases other_outcome other with same | same
  · rw [same]
    rfl
  · rw [same]
    rfl

theorem blocked_text (blocked : run.blocked = true) : (run.text python).isSome = true := by
  have some_ : 0 < blockedCount run.record.events := by simpa [Finished.blocked] using blocked
  simp [text,deriveText,some_]

theorem mapM_asText (kinds : List Json) :
    (kinds.mapM asText).isSome = kinds.all fun kind => (asText kind).isSome := by
  induction kinds with
  | nil => rfl
  | cons kind rest ih =>
    rw [List.mapM_cons,List.all_cons,← ih]
    cases asText kind with
    | none => rfl
    | some text => cases rest.mapM asText <;> rfl

theorem errored_text (errored : run.errored = true) (unblocked : run.blocked = false) :
    (run.text python).isSome = run.readable := by
  have none_ : ¬0 < blockedCount run.record.events := by simpa [Finished.blocked] using unblocked
  unfold text deriveText
  rw [if_neg none_,errored_outcome errored,if_neg (by decide),if_pos (.inl rfl)]
  unfold readable
  by_cases empty : actionKinds run.record.events = []
  · rw [if_pos empty,empty]
    rfl
  · rw [if_neg empty,← mapM_asText]
    cases ((actionKinds run.record.events).take 3).mapM asText <;> rfl

theorem other_text (other : run.errored = false) (unblocked : run.blocked = false) : run.text python = none := by
  have none_ : ¬0 < blockedCount run.record.events := by simpa [Finished.blocked] using unblocked
  unfold text deriveText
  rw [if_neg none_]
  rcases other_outcome other with same | same
  · rw [same]
    rfl
  · rw [same]
    rfl

theorem completed_other (completed : finalStatus run.ending = .completed) : run.errored = false := by
  rw [errored,completed]
  rfl

theorem stored_errored (errored : run.errored = true) :
    (run.stored python).isSome = true ↔ run.blocked = true ∨ run.readable = true := by
  rw [stored_isSome]
  cases blocked : run.blocked with
  | true => exact ⟨fun _ => .inl rfl,fun _ => blocked_text blocked⟩
  | false =>
    rw [errored_text errored blocked]
    exact ⟨.inr,fun fair => fair.resolve_left Bool.false_ne_true⟩

theorem stored_other (other : run.errored = false) (unblocked : run.blocked = false) : run.stored python = none := by
  rw [stored_eq,other_text other unblocked]
  rfl

theorem reflects_errored (errored : run.errored = true) :
    run.Reflects python ↔ run.blocked = true ∨ run.readable = true := by
  have polarity := errored_polarity errored
  have lesson : (run.stored python).isSome = true ↔ run.blocked = true ∨ run.readable = true := stored_errored errored
  rw [← lesson]
  constructor
  · intro reflects
    obtain ⟨row,some_,_⟩ := reflects.negative (by simp [failed,errored])
    rw [some_]
    rfl
  · intro made
    obtain ⟨row,some_⟩ := Option.isSome_iff_exists.mp made
    refine ⟨fun _ => ⟨row,some_,(stored_polarity some_).trans polarity⟩,?_,?_⟩
    · intro completed
      rw [completed_other completed] at errored
      cases errored
    · intro other stored
      rw [stored_polarity stored,polarity]
      decide

theorem reflects_other (other : run.errored = false) :
    run.Reflects python ↔ run.stuck = false ∧ run.blocked = false := by
  have polarity := other_polarity other
  constructor
  · intro reflects
    have unblocked : run.blocked = false := by
      cases blocked : run.blocked with
      | false => rfl
      | true =>
        obtain ⟨row,some_,negative⟩ := reflects.negative (by simp [failed,blocked])
        rw [stored_polarity some_,polarity] at negative
        exact absurd negative (by decide)
    refine ⟨?_,unblocked⟩
    cases stuck : run.stuck with
    | false => rfl
    | true =>
      obtain ⟨row,some_,_⟩ := reflects.negative (by simp [failed,stuck])
      rw [stored_other other unblocked] at some_
      cases some_
  · rintro ⟨unstuck,unblocked⟩
    have nothing : run.stored python = none := stored_other other unblocked
    refine ⟨?_,?_,?_⟩
    · intro failed
      simp [Finished.failed,other,unstuck,unblocked] at failed
    · intro _ _ row some_
      rw [nothing] at some_
      cases some_
    · intro row some_
      rw [nothing] at some_
      cases some_

theorem reflects_iff : run.Reflects python ↔ run.Fair := by
  unfold Fair
  cases errored : run.errored with
  | true =>
    rw [if_pos rfl]
    exact reflects_errored errored
  | false =>
    rw [if_neg Bool.false_ne_true]
    exact reflects_other errored

theorem Fair.failed_eq (fair : run.Fair) : run.failed = run.errored := by
  unfold Fair at fair
  cases errored : run.errored with
  | true => simp [failed,errored]
  | false =>
    rw [if_neg (by simp [errored])] at fair
    simp [failed,errored,fair.1,fair.2]

theorem Fair.stored_eq_some (fair : run.Fair) (errored : run.errored = true) :
    ∃ row, run.stored python = some row ∧ row.polarity = "negative" :=
  (reflects_iff.mpr fair).negative (fair.failed_eq.trans errored)

theorem Fair.stored_eq_none (fair : run.Fair) (other : run.errored = false) : run.stored python = none := by
  have unblocked : run.blocked = false := by
    unfold Fair at fair
    rw [if_neg (by simp [other])] at fair
    exact fair.2
  exact stored_other other unblocked

end Finished

theorem filterMap_stored (python : Interpreter) {runs : List Finished} (fair : ∀ run ∈ runs, run.Fair) :
    (runs.filterMap (·.stored python)).length = runs.countP Finished.errored ∧
    (∀ row ∈ runs.filterMap (·.stored python), row.polarity = "negative") ∧
    (runs.filter Finished.failed).filterMap (·.stored python) = runs.filterMap (·.stored python) := by
  induction runs with
  | nil => exact ⟨rfl,fun _ nothing => absurd nothing List.not_mem_nil,rfl⟩
  | cons run rest ih =>
    have ⟨length,negative,filtered⟩ := ih fun run mem => fair run (List.mem_cons_of_mem _ mem)
    have fair := fair run List.mem_cons_self
    cases errored : run.errored with
    | true =>
      obtain ⟨row,some_,polarity⟩ := fair.stored_eq_some errored
      have failed := fair.failed_eq.trans errored
      rw [List.filterMap_cons_some some_,List.filter_cons_of_pos failed,List.filterMap_cons_some some_,
        List.countP_cons_of_pos errored,List.length_cons,length,filtered]
      refine ⟨rfl,?_,rfl⟩
      intro other mem
      rcases List.mem_cons.mp mem with rfl | mem
      · exact polarity
      · exact negative other mem
    | false =>
      have none_ : run.stored python = none := fair.stored_eq_none errored
      have succeeded : ¬run.failed = true := by simp [fair.failed_eq,errored]
      rw [List.filterMap_cons_none none_,List.filter_cons_of_neg succeeded,
        List.countP_cons_of_neg (by simp [errored])]
      exact ⟨length,negative,filtered⟩

variable {sqlite : Sqlite}

theorem listRecentReflections_perm {rows : List ReflectionRow} {polarity : String} {limit : Nat}
    (same : ∀ row ∈ rows, row.polarity = polarity) (few : rows.length ≤ limit) :
    (listRecentReflections sqlite rows polarity limit).Perm rows := by
  have all : rows.filter (·.polarity = polarity) = rows :=
    List.filter_eq_self.mpr fun row mem => decide_eq_true (same row mem)
  unfold listRecentReflections
  rw [all,List.take_of_length_le ((sqlite.newest_perm rows).length_eq.trans_le few)]
  exact sqlite.newest_perm rows

-- The reflections are consistent exactly when every run errored with a lesson to be
-- drawn or neither got stuck nor had an action blocked, and no more runs errored than
-- are listed.
theorem consistent_iff {runs : List Finished} :
    Consistent python sqlite runs ↔ (∀ run ∈ runs, run.Fair) ∧ runs.countP Finished.errored ≤ 20 := by
  constructor
  · intro consistent
    have fair : ∀ run ∈ runs, run.Fair := fun run mem => Finished.reflects_iff.mp (consistent.reflects run mem)
    have ⟨length,_,filtered⟩ := filterMap_stored python fair
    refine ⟨fair,?_⟩
    have found := consistent.found.length_le
    rw [filtered,length] at found
    exact found.trans (List.length_take_le 20 _)
  · rintro ⟨fair,few⟩
    have ⟨length,negative,filtered⟩ := filterMap_stored python fair
    refine ⟨fun run mem => Finished.reflects_iff.mpr (fair run mem),?_⟩
    rw [filtered]
    exact (listRecentReflections_perm negative (length.trans_le few)).symm.subperm

end

def plainInterpreter : Interpreter where
  str
    | .str text => text
    | _ => ""
  setOrder := List.eraseDups

def sortingSqlite : Sqlite where
  newest rows := rows.mergeSort fun a b => b.createdAt ≤ a.createdAt
  newest_perm rows := List.mergeSort_perm rows _
  newest_sorted rows := by
    have sorted := List.pairwise_mergeSort
      (fun a b c (ab : decide (b.createdAt ≤ a.createdAt) = true) bc =>
        decide_eq_true ((of_decide_eq_true bc).trans (of_decide_eq_true ab)))
      (fun a b => by simpa using le_total b.createdAt a.createdAt) rows
    exact sorted.imp of_decide_eq_true

def repeatedClick : Finished where
  ending := .error (.stuck "Stuck repeating action: click")
  record := {
    runId := "r1", kind := .run, task := "open the menu", brain := "claude"
    status := .aborted, startedAt := 0, endedAt := some 4, error := none
    events := [1,2,3].map fun seq => ⟨seq,seq,"action",dict [("kind",.str "click")]⟩ }
  now := 5

theorem stuck_unreflected :
    ¬∀ (python : Interpreter) (sqlite : Sqlite) (runs : List Finished), Consistent python sqlite runs := by
  intro all
  have consistent := all plainInterpreter sortingSqlite [repeatedClick]
  have fair : repeatedClick.Fair :=
    Finished.reflects_iff.mp (consistent.reflects repeatedClick List.mem_cons_self)
  have stuck : repeatedClick.stuck = false := fair.1
  cases stuck

end HyprlandAgent.ReflectionEngine
