import HyprlandAgent.Daemon.Rehearsal
import HyprlandAgent.Memory.Episodic
import HyprlandAgent.Orchestrator.Reports

-- What an episode recovers of a run, beside what the orchestrator reported of it.
namespace HyprlandAgent.EpisodicMemory
open Coroutine Orchestrator

section
variable (log : List Report)

def reportedKinds : List Json :=
  log.filterMap fun
    | .action action => some (.str action.kind.value)
    | _ => none

def results (test : ActionResult → Bool) : Nat :=
  log.countP fun
    | .actionResult result => test result
    | _ => false

def reportedClass : Json :=
  (log.findSome? fun
    | .state active => active.map fun window => .str window.appClass
    | _ => none).getD .null

end

-- The episode tells what was reported, from the variables that the loop fills; its
-- summary tells how many actions there were, which came first and both counts.
structure Recovers (runId : RunId) (record : RunRecord) (log : List Report) (tally : Tally) (episode : Episode) : Prop where
  looped : record.events.foldlM tallyEvent {} = some tally
  made : episodeOf runId record = some episode
  actions : episode.actionsJson = .arr (reportedKinds log)
  blocked : tally.blockedCount = results log fun result => result.blocked.isSome
  rejected : tally.rejectedCount = results log fun result => result.rejected.isSome
  summary : ∃ kinds, ((reportedKinds log).take 8).mapM asText = some kinds ∧
    episode.summary = "; ".intercalate (summaryParts tally kinds)
  context : episode.contextClass = reportedClass log

-- A report that loses nothing on the way: no active window, and no reason that is an
-- empty text.
def Plain : Report → Prop
  | .state active => active = none
  | .actionResult result => result.blocked ≠ some "" ∧ result.rejected ≠ some ""
  | _ => True

def hasReason (reason : Option String) : Bool := reason.any (· != "")

def counted (tally : Tally) : Report → Tally
  | .action action => { tally with actionKinds := tally.actionKinds ++ [.str action.kind.value] }
  | .actionResult result => { tally with
      blockedCount := tally.blockedCount + if hasReason result.blocked then 1 else 0
      rejectedCount := tally.rejectedCount + if hasReason result.rejected then 1 else 0 }
  | _ => tally

theorem counted_contextClass (tally : Tally) (report : Report) :
    (counted tally report).contextClass = tally.contextClass := by
  cases report <;> rfl

theorem lookup_present {fields : List (String × Option Json)} (distinct : (fields.map Prod.fst).Nodup)
    {name : String} {value : Option Json} (listed : (name,value) ∈ fields) {d : Dict} (new : d.lookup name = none) :
    ((fields.filterMap fun field => field.2.map fun value => (field.1,value)).foldl
      (fun d field => d.insert field.1 field.2) d).lookup name = value := by
  induction fields generalizing d with
  | nil => cases listed
  | cons field rest ih =>
    have ⟨fresh,others⟩ := List.nodup_cons.mp (List.map_cons ▸ distinct)
    have absent : field.1 = name → ∀ kept ∈ rest.filterMap fun field => field.2.map fun value => (field.1,value),
        kept.1 ≠ name := by
      intro same kept inside named
      obtain ⟨origin,there,made⟩ := List.mem_filterMap.mp inside
      obtain ⟨_,_,rfl⟩ := Option.map_eq_some_iff.mp made
      exact fresh (same ▸ named ▸ List.mem_map_of_mem there)
    rcases List.mem_cons.mp listed with rfl | later
    · cases value with
      | none =>
        rw [List.filterMap_cons_none rfl,lookup_insert_absent (absent rfl)]
        exact new
      | some value =>
        exact (lookup_insert_absent (absent rfl) _).trans (AList.lookup_insert d)
    · have apart : name ≠ field.1 := by
        intro same
        exact fresh (same ▸ List.mem_map_of_mem later)
      cases value' : field.2 with
      | none =>
        rw [List.filterMap_cons_none (by rw [value']; rfl)]
        exact ih others later new
      | some kept =>
        rw [List.filterMap_cons_some (by rw [value']; rfl),List.foldl_cons]
        exact ih others later ((AList.lookup_insert_ne apart).trans new)

theorem lookup_result {result : ActionResult} {name : String} {value : Option Json}
    (listed : (name,value) ∈ result.optional) : result.data.lookup name = value := by
  have distinct : (result.optional.map Prod.fst).Nodup := by
    have names : result.optional.map Prod.fst = resultNames := rfl
    rw [names]
    decide
  have named : name ∈ resultNames := List.mem_map_of_mem (f:=Prod.fst) listed
  have apart : name ≠ "kind" := by
    rintro rfl
    exact absurd named (by decide)
  unfold ActionResult.data dict
  rw [List.foldl_cons]
  exact lookup_present distinct listed ((AList.lookup_insert_ne apart).trans (AList.lookup_empty _))

theorem holds_reason {result : ActionResult} {name : String} {reason : Option String}
    (listed : (name,reason.map Json.str) ∈ result.optional) : holds result.data name = hasReason reason := by
  unfold holds hasReason
  rw [lookup_result listed]
  cases reason with
  | none => rfl
  | some text => rfl

-- The window is written with `app_class`, and read under `class`.
theorem tallyEvent_report {tally : Tally} {event : RunEventRecord} {report : Report} (kind : event.kind = report.kind)
    (payload : event.payload = report.payload) (classless : tally.contextClass = .null) :
    tallyEvent tally event = some (counted tally report) := by
  unfold tallyEvent
  rw [kind,payload]
  cases report with
  | state active =>
    cases active with
    | none => rfl
    | some window =>
      obtain ⟨actionKinds,contextClass,blockedCount,rejectedCount⟩ := tally
      cases classless
      rfl
  | action action => rfl
  | actionResult result =>
    have blocked : holds result.data "blocked" = hasReason result.blocked :=
      holds_reason (by simp [ActionResult.optional])
    have rejected : holds result.data "rejected" = hasReason result.rejected :=
      holds_reason (by simp [ActionResult.optional])
    simp only [Report.payload,blocked,rejected,counted]
    rfl
  | other kind payload apart =>
    simp only [List.mem_cons,List.not_mem_nil,or_false,not_or] at apart
    simp only [Report.kind,apart,if_false,counted]

theorem foldlM_records {log : List Report} {trace : List RunEventRecord} (records : Records log trace) {tally : Tally}
    (classless : tally.contextClass = .null) :
    trace.foldlM tallyEvent tally = some (log.foldl counted tally) := by
  induction log generalizing trace tally with
  | nil =>
    cases List.map_eq_nil_iff.mp records
    rfl
  | cons report rest ih =>
    obtain ⟨event,later,rfl,same,others⟩ := List.map_eq_cons_iff.mp records
    rw [List.foldlM_cons,tallyEvent_report (congrArg Prod.fst same) (congrArg Prod.snd same) classless]
    exact ih others ((counted_contextClass tally report).trans classless)

theorem foldl_counted (log : List Report) (tally : Tally) : log.foldl counted tally =
    { tally with
      actionKinds := tally.actionKinds ++ reportedKinds log
      blockedCount := tally.blockedCount + results log fun result => hasReason result.blocked
      rejectedCount := tally.rejectedCount + results log fun result => hasReason result.rejected } := by
  induction log generalizing tally with
  | nil => simp [reportedKinds,results]
  | cons report rest ih =>
    rw [List.foldl_cons,ih]
    cases report with
    | state active => simp [counted,reportedKinds,results]
    | action action => simp [counted,reportedKinds,results]
    | actionResult result =>
      simp only [counted,reportedKinds,results,List.countP_cons,List.filterMap_cons,Nat.add_assoc,Nat.add_comm]
    | other kind payload apart => simp [counted,reportedKinds,results]

theorem reportedKinds_texts (log : List Report) (count : Nat) :
    ∃ kinds, ((reportedKinds log).take count).mapM asText = some kinds := by
  have texts : ∀ value ∈ (reportedKinds log).take count, ∃ text, value = .str text := by
    intro value inside
    obtain ⟨report,_,made⟩ := List.mem_filterMap.mp (List.mem_of_mem_take inside)
    cases report with
    | action action =>
      cases made
      exact ⟨_,rfl⟩
    | _ => cases made
  generalize (reportedKinds log).take count = values at texts
  induction values with
  | nil => exact ⟨[],rfl⟩
  | cons value rest ih =>
    obtain ⟨text,rfl⟩ := texts value List.mem_cons_self
    obtain ⟨kinds,read⟩ := ih fun other inside => texts other (List.mem_cons_of_mem _ inside)
    exact ⟨text :: kinds,by rw [List.mapM_cons,read]; rfl⟩

theorem episodeOf_records {log : List Report} {record : RunRecord} (records : Records log record.events) (runId : RunId) :
    ∃ tally episode, record.events.foldlM tallyEvent {} = some tally ∧ episodeOf runId record = some episode ∧
      episode.actionsJson = .arr (reportedKinds log) ∧ episode.contextClass = .null ∧
      (∃ kinds, ((reportedKinds log).take 8).mapM asText = some kinds ∧
        episode.summary = "; ".intercalate (summaryParts tally kinds)) ∧
      tally.blockedCount = (results log fun result => hasReason result.blocked) ∧
      tally.rejectedCount = results log fun result => hasReason result.rejected := by
  have looped : record.events.foldlM tallyEvent {} = some (log.foldl counted {}) := foldlM_records records rfl
  rw [foldl_counted] at looped
  simp only [List.nil_append,Nat.zero_add] at looped
  obtain ⟨kinds,texts⟩ := reportedKinds_texts log 8
  have made : ∃ episode, episodeOf runId record = some episode ∧ episode.actionsJson = .arr (reportedKinds log) ∧
      episode.contextClass = .null ∧ episode.summary = "; ".intercalate (summaryParts
        { actionKinds := reportedKinds log
          blockedCount := results log fun result => hasReason result.blocked
          rejectedCount := results log fun result => hasReason result.rejected } kinds) := by
    unfold episodeOf
    simp only [looped,Option.bind_eq_bind,Option.bind_some,texts]
    exact ⟨_,if_pos rfl,rfl,rfl,rfl⟩
  obtain ⟨episode,made,actions,context,summary⟩ := made
  exact ⟨_,episode,looped,made,actions,context,⟨kinds,texts,summary⟩,rfl,rfl⟩

theorem countP_eq {α : Type} {rows : List α} {few many : α → Bool} (less : ∀ a, few a = true → many a = true) :
    rows.countP few = rows.countP many ↔ ∀ a ∈ rows, many a = true → few a = true := by
  constructor
  · intro same
    induction rows with
    | nil =>
      intro a inside
      cases inside
    | cons a rest ih =>
      have fewer := List.countP_mono_left (l:=rest) fun b _ => less b
      rw [List.countP_cons,List.countP_cons] at same
      have here : many a = true → few a = true := by
        intro counted
        by_contra missing
        rw [if_pos counted,if_neg missing] at same
        omega
      have equal : (if few a = true then 1 else 0) = if many a = true then 1 else 0 :=
        if_congr ⟨less a,here⟩ rfl rfl
      rw [equal] at same
      rintro b (_ | ⟨_,inside⟩)
      · exact here
      · exact ih (Nat.add_right_cancel same) b inside
  · intro all
    exact List.countP_congr fun a inside => ⟨less a,all a inside⟩

theorem hasReason_some (reason : Option String) : (reason.isSome = true → hasReason reason = true) ↔ reason ≠ some "" := by
  cases reason with
  | none => simp
  | some text => simp [hasReason]

theorem results_eq {log : List Report} {field : ActionResult → Option String} :
    (results log fun result => hasReason (field result)) = (results log fun result => (field result).isSome) ↔
      ∀ result, .actionResult result ∈ log → field result ≠ some "" := by
  unfold results
  rw [countP_eq]
  · constructor
    · intro all result inside
      exact (hasReason_some _).mp (all _ inside)
    · intro all report inside
      cases report with
      | actionResult result => exact (hasReason_some _).mpr (all result inside)
      | _ => exact id
  · intro report
    cases report with
    | actionResult result =>
      intro reason
      cases value : field result with
      | none => simp [hasReason,value] at reason
      | some text => simp [value]
    | _ => exact id

theorem reportedClass_null {log : List Report} :
    reportedClass log = .null ↔ ∀ window, .state (some window) ∉ log := by
  unfold reportedClass
  induction log with
  | nil => simp
  | cons report rest ih =>
    rw [List.findSome?_cons]
    cases report with
    | state active =>
      cases active with
      | none => simpa using ih
      | some window =>
        constructor
        · intro null
          cases null
        · intro stateless
          exact absurd List.mem_cons_self (stateless window)
    | _ => simpa using ih

theorem recovers_plain {log : List Report} {record : RunRecord} (records : Records log record.events) (runId : RunId) :
    (∃ tally episode, Recovers runId record log tally episode) ↔ ∀ report ∈ log, Plain report := by
  obtain ⟨tally,episode,looped,made,actions,context,summary,blocked,rejected⟩ := episodeOf_records records runId
  have plain : (∀ report ∈ log, Plain report) ↔ (∀ result, .actionResult result ∈ log → result.blocked ≠ some "") ∧
      (∀ result, .actionResult result ∈ log → result.rejected ≠ some "") ∧ ∀ window, .state (some window) ∉ log := by
    constructor
    · intro all
      exact ⟨fun result inside => (all _ inside).1,fun result inside => (all _ inside).2,
        fun window inside => nomatch all _ inside⟩
    · rintro ⟨blocked,rejected,stateless⟩ report inside
      cases report with
      | state active =>
        cases active with
        | none => rfl
        | some window => exact absurd inside (stateless window)
      | actionResult result => exact ⟨blocked result inside,rejected result inside⟩
      | _ => trivial
  rw [plain,← results_eq,← results_eq,← reportedClass_null,← blocked,← rejected]
  constructor
  · rintro ⟨other,told,recovers⟩
    cases looped.symm.trans recovers.looped
    cases made.symm.trans recovers.made
    exact ⟨recovers.blocked,recovers.rejected,recovers.context.symm.trans context⟩
  · rintro ⟨sameBlocked,sameRejected,classless⟩
    exact ⟨tally,episode,looped,made,actions,sameBlocked,sameRejected,summary,context.trans classless.symm⟩

-- Of what the orchestrator stored of a run or a plan, at any point of it: an episode
-- recovers what was reported exactly if no report lost something on the way.
theorem ingest_recovers_iff {h : Host} {runId : RunId} {kind : RunKind} {task : String} {brain : Brain}
    {record : RunRecord} (traced : Traced (RunExecutor.orchestrate h runId kind task brain) record.events) :
    ∃ log, Records log record.events ∧ ∀ log, Records log record.events →
      ((∃ tally episode, Recovers runId record log tally episode) ↔ ∀ report ∈ log, Plain report) := by
  obtain ⟨log,records⟩ := orchestrate_records traced
  exact ⟨log,records,fun log records => recovers_plain records runId⟩

def along (oracle : (op : effects.Op) → effects.Reply op) : Nat → Async Unit → List RunEventRecord
  | 0,_ => []
  | _,.ret _ => []
  | _,.raise _ => []
  | count + 1,.await (.store run (.appendEvent event)) next =>
    event :: along oracle count (next (oracle (.store run (.appendEvent event))))
  | count + 1,.await op next => along oracle count (next (oracle op))

theorem along_traced (oracle : (op : effects.Op) → effects.Reply op) (count : Nat) (p : Async Unit) :
    Traced p (along oracle count p) := by
  induction count generalizing p with
  | zero => exact .cut
  | succ count ih =>
    cases p with
    | ret value => exact .cut
    | raise exc => exact .cut
    | await op next =>
      have quiet (unstored : ∀ (run : RunId) event, op ≠ .store run (.appendEvent event)) :
          Traced (.await (S:=effects) op next) (along oracle count (next (oracle op))) :=
        .silent (oracle op) unstored (ih _)
      cases op with
      | store run write =>
        cases write with
        | appendEvent event => exact .stored (oracle _) (ih _)
        | _ => exact quiet (by simp)
      | _ => exact quiet (by simp)

def undisturbed (active : Option Window) (actions : List Action) : (op : effects.Op) → effects.Reply op
  | .tool asked => .ok (calmTool actions asked)
  | .activeWindow => .ok active
  | .isAllowed _ => .ok true
  | .isStopped => .ok false
  | .checkLimit _ => .ok true
  | .seqNext _ => .ok 0
  | .input _ | .unlinkFlag | .publish _ _ | .auditAppend _ _ => .ok ()
  | .store _ (.appendEvent _) => .ok ()
  | _ => .error .timeout

def click : Action := ⟨.click,∅⟩

def clicked (active : Option Window) : RunRecord where
  runId := "r1"
  kind := .run
  task := "open the menu"
  brain := "claude"
  status := .completed
  startedAt := 0
  events := along (undisturbed active [click]) 60
    (RunExecutor.orchestrate plainHost "r1" .run "open the menu" ⟨"claude"⟩)

def clickedLog (active : Option Window) : List Report :=
  [.other "start" (dict [("task",.str "open the menu")]) (by decide),.state active,
    .other "actions" (dict [("count",.int 1)]) (by decide),.action click,.other "done" ∅ (by decide)]

theorem clicked_records (active : Option Window) : Records (clickedLog active) (clicked active).events := by
  cases active with
  | none => rfl
  | some window => rfl

theorem unfocused_recovers : ∃ tally episode, Recovers "r1" (clicked none) (clickedLog none) tally episode := by
  have traced : Traced (RunExecutor.orchestrate plainHost "r1" .run "open the menu" ⟨"claude"⟩)
      (clicked none).events := along_traced (undisturbed none [click]) 60 _
  obtain ⟨_,_,recovers⟩ := ingest_recovers_iff traced
  refine (recovers (clickedLog none) (clicked_records none)).mpr ?_
  intro report inside
  simp only [clickedLog,List.mem_cons,List.not_mem_nil,or_false] at inside
  rcases inside with rfl | rfl | rfl | rfl | rfl <;> trivial

theorem class_lost : ¬∀ (h : Host) (runId : RunId) (kind : RunKind) (task : String) (brain : Brain) (record : RunRecord)
    (log : List Report), Traced (RunExecutor.orchestrate h runId kind task brain) record.events →
    Records log record.events → ∃ tally episode, Recovers runId record log tally episode := by
  intro all
  have recovered := all plainHost "r1" .run "open the menu" ⟨"claude"⟩ (clicked (some terminal))
    (clickedLog (some terminal)) (along_traced (undisturbed (some terminal) [click]) 60 _)
    (clicked_records (some terminal))
  have plain := (recovers_plain (clicked_records (some terminal)) "r1").mp recovered
  have blank := plain (.state (some terminal)) (List.mem_cons_of_mem _ List.mem_cons_self)
  cases blank

end HyprlandAgent.EpisodicMemory
