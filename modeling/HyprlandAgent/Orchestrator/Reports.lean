import HyprlandAgent.Daemon.RunExecutor

-- What the orchestrator reports of a run: each event that it emits is an action, the
-- result of one, the state with its active window, or something else.
namespace HyprlandAgent.Orchestrator
open Coroutine Terminal RunExecutor

inductive Report where
  | state (active : Option Window)
  | action (action : Action)
  | actionResult (result : ActionResult)
  | other (kind : String) (payload : Dict) (apart : kind ∉ ["state","action","action_result"])

namespace Report

def kind : Report → String
  | .state _ => "state"
  | .action _ => "action"
  | .actionResult _ => "action_result"
  | .other kind _ _ => kind

def payload : Report → Dict
  | .state active => dict [("active",(active.map Window.modelDump).getD .null)]
  | .action asked => dict [("kind",.str asked.kind.value),("params",asked.params.toJson)]
  | .actionResult result => result.data
  | .other _ payload _ => payload

end Report

def Records (log : List Report) (trace : List RunEventRecord) : Prop :=
  trace.map (fun event => (event.kind,event.payload)) = log.map fun report => (report.kind,report.payload)

inductive Traced {α : Type} : Async α → List RunEventRecord → Prop where
  | cut {p : Async α} : Traced p []
  | silent {op : Op} {next : effects.Reply op → Async α} (reply : effects.Reply op)
      (quiet : ∀ (run : RunId) event, op ≠ .store run (.appendEvent event)) (rest : Traced (next reply) trace) :
      Traced (.await (S:=effects) op next) trace
  | stored {run : RunId} {event : RunEventRecord} {next : effects.Reply (.store run (.appendEvent event)) → Async α}
      (reply : effects.Reply (.store run (.appendEvent event))) (rest : Traced (next reply) trace) :
      Traced (.await (S:=effects) (.store run (.appendEvent event)) next) (event :: trace)
  | lost {run : RunId} {event : RunEventRecord} {next : effects.Reply (.store run (.appendEvent event)) → Async α} (exc : Exc)
      (rest : Traced (next (.error exc)) trace) :
      Traced (.await (S:=effects) (.store run (.appendEvent event)) next) trace

def Reporting (op : Op) : Prop :=
  ∀ (run : RunId) event, op = .store run (.appendEvent event) →
    ∃ report : Report, event.kind = report.kind ∧ event.payload = report.payload

theorem Traced.records {α : Type} {p : Async α} {trace : List RunEventRecord} (traced : Traced p trace)
    (all : p.All Reporting) : ∃ log, Records log trace := by
  induction traced with
  | cut => exact ⟨[],rfl⟩
  | silent reply _ _ ih => exact ih (all.next reply)
  | stored reply _ ih =>
    obtain ⟨log,records⟩ := ih (all.next reply)
    obtain ⟨report,kind,payload⟩ := all.head _ _ rfl
    refine ⟨report :: log,?_⟩
    unfold Records at records ⊢
    rw [List.map_cons,List.map_cons,records,kind,payload]
  | lost exc _ ih => exact ih (all.next (.error exc))

theorem reporting_plain {op : Op} (plain : op.owner = none) : Reporting op := by
  intro run event same
  rw [same] at plain
  cases plain

theorem ask_reporting (tool : Tool) : (ask tool).All Reporting := Prog.All.perform (reporting_plain rfl)

theorem emit_reporting (h : Host) (run : RunId) (report : Report) :
    ((contextOf h run).emit report.kind report.payload).All Reporting := by
  have unstored : ∀ {op : Op}, (∀ (run : RunId) event, op ≠ .store run (.appendEvent event)) → Reporting op :=
    fun other run event same => absurd same (other run event)
  have audited : ∀ entry, (audit h run entry).All Reporting := by
    intro entry
    unfold audit
    split
    · exact Prog.All.perform (unstored (by simp))
    · exact Prog.All.pure _
  apply Prog.All.bind (.perform (unstored (by simp)))
  intro seq
  apply Prog.All.bind (ask_reporting .time)
  intro ts
  refine Prog.All.bind (.perform ?_) ?_
  · intro other event same
    cases same
    exact ⟨report,rfl,rfl⟩
  · intro _
    apply Prog.All.bind (audited _)
    intro _
    exact Prog.All.perform (unstored (by simp))

theorem convert_reporting (result : Except String α) : (convert result).All Reporting := by
  unfold convert
  split
  · exact Prog.All.pure _
  · exact Prog.All.raise _

theorem item_reporting (params : Dict) (key : String) : (item params key).All Reporting := by
  unfold item
  split
  · exact Prog.All.pure _
  · exact Prog.All.raise _

theorem expectStr_reporting (value : Json) : (expectStr value).All Reporting := by
  unfold expectStr
  split
  · exact Prog.All.pure _
  · exact Prog.All.raise _

theorem tryCatch_reporting {first : Async α} {handler : Exc → Async α} (tried : first.All Reporting)
    (handled : ∀ exc, (handler exc).All Reporting) : (tryCatch first handler).All Reporting := by
  apply Prog.All.settle tried
  intro result
  cases result with
  | ok value => exact Prog.All.pure value
  | error exc => exact handled exc

theorem killThen_reporting {kill rest : Async Unit} (killed : kill.All Reporting) (later : rest.All Reporting) :
    (killThen kill rest).All Reporting := by
  apply Prog.All.settle killed
  intro result
  split
  · exact later
  · exact Prog.All.pure _
  · exact Prog.All.raise _

theorem terminateProcess_reporting (proc : Process) : (terminateProcess proc).All Reporting := by
  unfold terminateProcess
  apply Prog.All.bind (ask_reporting _)
  intro code
  split
  · exact Prog.All.pure _
  · apply killThen_reporting (ask_reporting _)
    refine tryCatch_reporting (.bind (ask_reporting _) fun _ => .pure _) ?_
    intro exc
    split
    · exact killThen_reporting (ask_reporting _) (.bind (ask_reporting _) fun _ => .pure _)
    · exact Prog.All.raise _

theorem perform_reporting {op : Op} (plain : op.owner = none) : (perform op).All Reporting :=
  Prog.All.perform (reporting_plain plain)

theorem focusedControlTerminal_reporting (h : Host) : (focusedControlTerminal h).All Reporting := by
  unfold focusedControlTerminal
  apply Prog.All.bind (perform_reporting rfl)
  intro active
  cases active with
  | none => exact Prog.All.pure _
  | some window =>
    simp only
    split
    · exact Prog.All.pure _
    · apply Prog.All.bind (ask_reporting _)
      intro inside
      split
      · exact Prog.All.pure _
      · exact Prog.All.pure _

theorem confirmIf_reporting (destructive : Bool) (prompt : String) : (confirmIf destructive prompt).All Reporting := by
  unfold confirmIf
  split
  · exact ask_reporting _
  · exact Prog.All.pure _

theorem dispatchCommand_reporting (h : Host) (p : Dict) : (dispatchCommand h p).All Reporting := by
  unfold dispatchCommand
  apply Prog.All.bind (item_reporting p _)
  intro value
  apply Prog.All.bind (expectStr_reporting value)
  intro cmd
  apply Prog.All.bind (confirmIf_reporting _ _)
  intro confirmed
  split
  · exact Prog.All.pure _
  · apply Prog.All.bind (perform_reporting rfl)
    intro response
    exact Prog.All.pure _

theorem blockedBy_reporting (kind : ActionKind) (exc : Exc) : (blockedBy kind exc).All Reporting := by
  unfold blockedBy
  split
  · exact Prog.All.pure _
  · exact Prog.All.pure _
  · exact Prog.All.pure _
  · exact Prog.All.raise _

theorem readFile_reporting (h : Host) (p : Dict) : (readFile h p).All Reporting := by
  unfold readFile
  refine tryCatch_reporting ?_ (blockedBy_reporting _)
  apply Prog.All.bind (item_reporting p _)
  intro path
  apply Prog.All.bind (convert_reporting _)
  intro offset
  apply Prog.All.bind (convert_reporting _)
  intro limit
  apply Prog.All.bind (ask_reporting _)
  intro content
  exact Prog.All.pure _

theorem writeFile_reporting (p : Dict) : (writeFile p).All Reporting := by
  unfold writeFile
  apply Prog.All.bind (item_reporting p _)
  intro value
  apply Prog.All.bind (expectStr_reporting value)
  intro path
  apply Prog.All.bind (ask_reporting _)
  intro there
  apply Prog.All.bind (confirmIf_reporting _ _)
  intro confirmed
  split
  · exact Prog.All.pure _
  · refine tryCatch_reporting ?_ ?_
    · apply Prog.All.bind (item_reporting p _)
      intro content
      exact Prog.All.bind (ask_reporting _) fun _ => Prog.All.pure _
    · intro exc
      split
      · exact Prog.All.pure _
      · exact Prog.All.raise _

theorem listDir_reporting (p : Dict) : (listDir p).All Reporting := by
  unfold listDir
  refine tryCatch_reporting ?_ (blockedBy_reporting _)
  apply Prog.All.bind (item_reporting p _)
  intro path
  exact Prog.All.bind (ask_reporting _) fun _ => Prog.All.pure _

theorem integrate_reporting (action : Action) (appState : Option AgentConfig) :
    (integrate action appState).All Reporting := by
  unfold integrate
  split
  · exact Prog.All.pure _
  · apply Prog.All.bind (ask_reporting _)
    intro handled
    split
    · exact Prog.All.pure _
    · exact Prog.All.pure _

theorem configureLimiter_reporting (appState : Option AgentConfig) : (configureLimiter appState).All Reporting := by
  unfold configureLimiter
  split
  · apply Prog.All.bind (ask_reporting _)
    intro done
    split
    · exact ask_reporting _
    · exact Prog.All.pure _
  · exact Prog.All.pure _

theorem verify_reporting (h : Host) (preHash : Option String) (result : ActionResult) :
    (verify h preHash result).All Reporting := by
  unfold verify
  split
  · exact Prog.All.pure _
  · refine tryCatch_reporting ?_ ?_
    · apply Prog.All.bind (ask_reporting _)
      intro png
      split
      · exact Prog.All.pure _
      · exact Prog.All.pure _
    · intro exc
      split
      · exact Prog.All.raise _
      · exact Prog.All.pure _

-- The parts that emit, over any context that stores what it is given.
section
variable {ctx : RunContext} (emits : ∀ report : Report, (ctx.emit report.kind report.payload).All Reporting)
include emits

theorem emitIf_reporting {kind : String} {payload : Dict} (apart : kind ∉ ["state","action","action_result"]) :
    (emitIf (some ctx.emit) kind payload).All Reporting :=
  emits (.other kind payload apart)

theorem runVisible_reporting (h : Host) (command : String) (runId : RunId) (timeout holdS : Seconds) :
    (runVisible h command runId (some ctx.emit) timeout holdS).All Reporting := by
  unfold runVisible
  apply Prog.All.bind (emitIf_reporting emits (by decide))
  intro _
  apply Prog.All.bind (ask_reporting _)
  intro proc
  refine Prog.All.bind (tryCatch_reporting (ask_reporting _) ?_) ?_
  · intro exc
    split
    · apply Prog.All.bind (terminateProcess_reporting proc)
      intro _
      exact Prog.All.bind (emitIf_reporting emits (by decide)) fun _ => Prog.All.raise _
    · apply Prog.All.bind (terminateProcess_reporting proc)
      intro _
      exact Prog.All.bind (emitIf_reporting emits (by decide)) fun _ => Prog.All.raise _
    · exact Prog.All.raise _
  · intro code
    apply Prog.All.bind (emitIf_reporting emits (by decide))
    intro _
    split
    · exact Prog.All.raise _
    · exact Prog.All.pure _

theorem runCapture_reporting (h : Host) (command : String) (runId : RunId) (timeout : Seconds) (captureCap : Nat)
    (stdin : Json) : (runCapture h command runId (some ctx.emit) timeout captureCap stdin).All Reporting := by
  have ended : ∀ proc kind payload exc, kind ∉ ["state","action","action_result"] →
      (do
        ask (.kill proc)
        let _ ← ask (.procWait proc none)
        emitIf (some ctx.emit) kind payload
        raise exc : Async (Bytes × Bytes)).All Reporting := by
    intro proc kind payload exc apart
    apply Prog.All.bind (ask_reporting _)
    intro _
    apply Prog.All.bind (ask_reporting _)
    intro _
    exact Prog.All.bind (emitIf_reporting emits apart) fun _ => Prog.All.raise _
  unfold runCapture
  apply Prog.All.bind (emitIf_reporting emits (by decide))
  intro _
  apply Prog.All.bind (ask_reporting _)
  intro proc
  refine Prog.All.bind (tryCatch_reporting ?_ ?_) ?_
  · split
    · exact ask_reporting _
    · exact Prog.All.bind (expectStr_reporting _) fun _ => ask_reporting _
  · intro exc
    split
    · exact ended proc _ _ _ (by decide)
    · exact ended proc _ _ _ (by decide)
    · exact Prog.All.raise _
  · intro output
    apply Prog.All.bind (ask_reporting _)
    intro code
    apply Prog.All.bind (emitIf_reporting emits (by decide))
    intro _
    split
    · exact Prog.All.raise _
    · exact Prog.All.pure _

theorem terminalCommand_reporting (h : Host) (p : Dict) (appState : Option AgentConfig) :
    (terminalCommand h p (some ctx) appState).All Reporting := by
  unfold terminalCommand
  apply Prog.All.bind (item_reporting p _)
  intro value
  apply Prog.All.bind (expectStr_reporting value)
  intro command
  split
  split
  · exact Prog.All.pure _
  · apply Prog.All.bind (convert_reporting _)
    intro holdS
    refine Prog.All.bind ?_ fun _ => Prog.All.pure _
    unfold runCommand
    split
    · exact runVisible_reporting emits h _ _ _ _
    · exact runCapture_reporting emits h _ _ _ _ _

theorem keyboard_reporting (h : Host) (kind : ActionKind) (p : Dict) (key : String) (input : Json → Input) :
    (keyboard h kind p (some ctx) key input).All Reporting := by
  unfold keyboard ensureKeyboardTargetIsSafe
  refine Prog.All.bind (Prog.All.bind (focusedControlTerminal_reporting h) ?_) ?_
  · intro active
    cases active with
    | none => exact Prog.All.pure _
    | some window => exact Prog.All.bind (emits (.other "blocked" _ (by decide))) fun _ => Prog.All.pure _
  · intro safe
    split
    · exact Prog.All.pure _
    · apply Prog.All.bind (item_reporting p key)
      intro value
      exact Prog.All.bind (perform_reporting rfl) fun _ => Prog.All.pure _

theorem performAction_reporting (h : Host) (action : Action) (appState : Option AgentConfig) :
    (performAction h action (some ctx) appState).All Reporting := by
  unfold performAction
  split
  case h_1 => exact Prog.All.pure _
  case h_2 => exact terminalCommand_reporting emits h _ appState
  case h_3 => exact keyboard_reporting emits h _ _ _ _
  case h_4 => exact keyboard_reporting emits h _ _ _ _
  case h_5 =>
    apply Prog.All.bind (item_reporting _ _)
    intro x
    apply Prog.All.bind (item_reporting _ _)
    intro y
    exact Prog.All.bind (ask_reporting _) fun _ => Prog.All.pure _
  case h_6 => exact Prog.All.bind (perform_reporting rfl) fun _ => Prog.All.pure _
  case h_7 =>
    apply Prog.All.bind (item_reporting _ _)
    intro amount
    exact Prog.All.bind (perform_reporting rfl) fun _ => Prog.All.pure _
  case h_8 =>
    apply Prog.All.bind (item_reporting _ _)
    intro address
    exact Prog.All.bind (perform_reporting rfl) fun _ => Prog.All.pure _
  case h_9 => exact dispatchCommand_reporting h _
  case h_10 => exact readFile_reporting h _
  case h_11 => exact writeFile_reporting _
  case h_12 => exact listDir_reporting _
  case h_13 => exact Prog.All.bind (ask_reporting _) fun _ => Prog.All.pure _
  case h_14 =>
    apply Prog.All.bind (item_reporting _ _)
    intro text
    exact Prog.All.bind (ask_reporting _) fun _ => Prog.All.pure _
  all_goals exact integrate_reporting action appState

theorem executeAction_reporting (h : Host) (action : Action) (appState : Option AgentConfig) :
    (executeAction h action (some ctx) appState).All Reporting := by
  unfold executeAction
  apply Prog.All.bind (configureLimiter_reporting appState)
  intro _
  apply Prog.All.bind (perform_reporting rfl)
  intro allowed
  split
  · exact Prog.All.pure _
  · exact performAction_reporting emits h action appState

theorem buildState_reporting (task : String) : (buildState task (some ctx)).All Reporting := by
  have pictured : ∀ active : Option Window, (do
      let png ← ask .screenFull
      let mon ← ask .activeMonitor
      let width := (mon.map Monitor.width).getD 1920
      let height := (mon.map Monitor.height).getD 1080
      let wins ← ask .clients
      emit (some ctx) "state" (dict [("active",(active.map Window.modelDump).getD .null)])
      return (⟨png,width,height,active,wins⟩,true) : Async (ScreenState × Bool)).All Reporting := by
    intro active
    apply Prog.All.bind (ask_reporting _)
    intro png
    apply Prog.All.bind (ask_reporting _)
    intro mon
    apply Prog.All.bind (ask_reporting _)
    intro wins
    exact Prog.All.bind (emits (.state active)) fun _ => Prog.All.pure _
  unfold buildState ensureDisarmed
  apply Prog.All.bind (.bind (perform_reporting rfl) fun _ => ask_reporting _)
  intro _
  apply Prog.All.bind (emits (.other "start" _ (by decide)))
  intro _
  apply Prog.All.bind (perform_reporting rfl)
  intro active
  cases active with
  | none => exact pictured none
  | some window =>
    apply Prog.All.bind (perform_reporting rfl)
    intro allowed
    cases allowed with
    | false => exact Prog.All.bind (emits (.other "blocked" _ (by decide))) fun _ => Prog.All.pure _
    | true => exact pictured (some window)

theorem recordActions_reporting (actions : List Action) : (recordActions (some ctx) actions).All Reporting := by
  induction actions with
  | nil => exact Prog.All.pure _
  | cons action rest ih => exact Prog.All.bind (emits (.action action)) fun _ => ih

theorem plan_reporting (task : String) (brain : Brain) (appState : Option AgentConfig) :
    (plan task brain (some ctx) appState).All Reporting := by
  unfold plan
  apply Prog.All.bind (buildState_reporting emits task)
  intro built
  split
  split
  · exact Prog.All.pure _
  · apply Prog.All.bind (perform_reporting rfl)
    intro stopped
    split
    · exact Prog.All.bind (emits (.other "killswitch" _ (by decide))) fun _ => Prog.All.pure _
    · apply Prog.All.bind (ask_reporting _)
      intro context
      apply Prog.All.bind (ask_reporting _)
      intro actions
      apply Prog.All.bind (emits (.other "actions" _ (by decide)))
      intro _
      apply Prog.All.bind (recordActions_reporting emits actions)
      intro _
      exact emits (.other "done" ∅ (by decide))

theorem runActions_reporting (h : Host) (state : ScreenState) (appState : Option AgentConfig)
    (detector : LoopDetector) (actions : List Action) :
    (runActions h state (some ctx) appState detector actions).All Reporting := by
  induction actions generalizing detector with
  | nil => exact emits (.other "done" ∅ (by decide))
  | cons action rest ih =>
    unfold runActions
    apply Prog.All.bind (perform_reporting rfl)
    intro stopped
    split
    · exact Prog.All.bind (emits (.other "killswitch" _ (by decide))) fun _ => Prog.All.pure _
    · apply Prog.All.bind (emits (.action action))
      intro _
      apply Prog.All.bind (executeAction_reporting emits h action appState)
      intro result
      apply Prog.All.bind (verify_reporting h _ result)
      intro result
      refine Prog.All.bind ?_ ?_
      · unfold reportResult
        split
        · exact emits (.actionResult result)
        · exact Prog.All.pure _
      · intro _
        split
        split
        · exact Prog.All.bind (emits (.other "stuck" _ (by decide))) fun _ => Prog.All.raise _
        · exact Prog.All.bind (ask_reporting _) fun _ => ih _

theorem run_reporting (h : Host) (task : String) (brain : Brain) (appState : Option AgentConfig) :
    (run h task brain (some ctx) appState).All Reporting := by
  unfold run
  apply Prog.All.bind (buildState_reporting emits task)
  intro built
  split
  split
  · exact Prog.All.pure _
  · apply Prog.All.bind (perform_reporting rfl)
    intro stopped
    split
    · exact Prog.All.bind (emits (.other "killswitch" _ (by decide))) fun _ => Prog.All.pure _
    · apply Prog.All.bind (ask_reporting _)
      intro context
      apply Prog.All.bind (ask_reporting _)
      intro actions
      apply Prog.All.bind (perform_reporting rfl)
      intro stopped
      split
      · exact Prog.All.bind (emits (.other "killswitch" _ (by decide))) fun _ => Prog.All.pure _
      · apply Prog.All.bind (emits (.other "actions" _ (by decide)))
        intro _
        exact runActions_reporting emits h _ appState _ actions

end

theorem orchestrate_records {h : Host} {runId : RunId} {kind : RunKind} {task : String} {brain : Brain}
    {trace : List RunEventRecord} (traced : Traced (orchestrate h runId kind task brain) trace) :
    ∃ log, Records log trace := by
  apply traced.records
  cases kind with
  | plan => exact plan_reporting (emit_reporting h runId) task brain _
  | run => exact run_reporting (emit_reporting h runId) h task brain _

end HyprlandAgent.Orchestrator
