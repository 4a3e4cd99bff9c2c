import HyprlandAgent.Orchestrator

-- An annotated reading of the orchestrator: one assertion for each stretch of a
-- run, the rules they owe each operation, and that the coroutines follow them.
namespace HyprlandAgent.Orchestrator
open Coroutine Terminal
variable {σ : Type}

def eventKinds : List String :=
  ["start","blocked","state","killswitch","actions","action","action_result","stuck",
    "terminal_started","terminal_timed_out","terminal_cancelled","terminal_exited","done"]

def carriesKind (kind : String) : Bool := kind == "action" || kind == "action_result"

-- What the orchestrator and its tools emit: no payload has a field `run_id` or
-- `seq`, and one named `kind` holds an action kind, in two events only.
structure Emittable (kind : String) (payload : Dict) : Prop where
  known : kind ∈ eventKinds
  run : payload.lookup "run_id" = none
  seq : payload.lookup "seq" = none
  kind : if carriesKind kind then ∃ action : ActionKind, payload.lookup "kind" = some (.str action.value)
    else payload.lookup "kind" = none

-- `before` the gate, having `seen` the window, `going` through the brain and the
-- actions, `checked` for an action, `leaving` without one, `cut` by a cancellation,
-- and `elapsed` or `broken` at the end.
structure Outline (σ : Type) where
  fresh : σ → Prop
  before : σ → Prop
  seen : Option Window → σ → Prop
  going : σ → Prop
  checked : σ → Prop
  leaving : σ → Prop
  cut : σ → Prop
  elapsed : σ → Prop
  broken : σ → Prop

inductive Outline.Emits (o : Outline σ) : (σ → Prop) → Prop where
  | before : o.Emits o.before
  | going : o.Emits o.going
  | checked : o.Emits o.checked
  | leaving : o.Emits o.leaving
  | cut : o.Emits o.cut

-- What an action may do to the desktop.
inductive Desktop : Op → Prop where
  | tool (asked : Tool) : Desktop (.tool asked)
  | input (sent : Input) : Desktop (.input sent)
  | look : Desktop .activeWindow
  | dispatch (cmd : String) : Desktop (.dispatch cmd)

def onCancel (cut other : σ → Prop) : Exc → σ → Prop
  | .cancelled => cut
  | _ => other

theorem onCancel_either {cut other P : σ → Prop} (one : ∀ s, cut s → P s) (two : ∀ s, other s → P s)
    (exc : Exc) (s : σ) (reached : onCancel cut other exc s) : P s := by
  cases exc with
  | cancelled => exact one s reached
  | _ => exact two s reached

structure Outline.Sound (o : Outline σ) (R : Semantics effects σ) (pre : Op → σ → Prop)
    (ctx : RunContext) : Prop where
  disarm : Triple R pre o.fresh (perform .unlinkFlag) (ending (fun _ => o.before) fun _ => o.broken)
  mkdir : Triple R pre o.before (ask .mkdirCache) (ending (fun _ => o.before) fun _ => o.broken)
  look : Triple R pre o.before (perform .activeWindow) (ending o.seen fun _ => o.broken)
  unfocused : ∀ s, o.seen none s → o.going s
  gate : ∀ window, Triple R pre (o.seen (some window)) (perform (.isAllowed window))
    (ending (fun allowed => if allowed then o.going else o.leaving) fun _ => o.broken)
  emit : ∀ X, o.Emits X → ∀ kind payload, Emittable kind payload → kind ≠ "done" →
    Triple R pre X (ctx.emit kind payload) (ending (fun _ => X) fun _ => o.broken)
  done : Triple R pre o.going (ctx.emit "done" ∅) (ending (fun _ => o.elapsed) fun _ => o.broken)
  act : ∀ op, Desktop op → Triple R pre o.going (perform op)
    (ending (fun _ => o.going) (onCancel o.cut o.going))
  cleanup : ∀ tool, Triple R pre o.cut (ask tool) fun _ => o.cut
  check : Triple R pre o.going (perform .isStopped)
    (ending (fun stopped => if stopped then o.leaving else o.checked) fun _ => o.broken)
  configure : ∀ tool, Triple R pre o.checked (ask tool)
    (ending (fun _ => o.checked) fun _ => o.broken)
  limit : ∀ kind, Triple R pre o.checked (perform (.checkLimit kind))
    (ending (fun _ => o.going) fun _ => o.broken)
  relax : ∀ s, o.checked s → o.going s
  fail : ∀ s, o.going s → o.broken s
  abandon : ∀ s, o.cut s → o.broken s

section
variable {R : Semantics effects σ} {pre : Op → σ → Prop} {P E : σ → Prop}

theorem convert_triple (result : Except String α) (fails : ∀ s, P s → E s) :
    Triple R pre P (convert result) (ending (fun _ => P) fun _ => E) := by
  unfold convert
  split
  · exact Triple.pure fun _ holds => holds
  · exact Triple.raise fails

theorem item_triple (params : Dict) (key : String) (fails : ∀ s, P s → E s) :
    Triple R pre P (item params key) (ending (fun _ => P) fun _ => E) := by
  unfold item
  split
  · exact Triple.pure fun _ holds => holds
  · exact Triple.raise fails

theorem expectStr_triple (value : Json) (fails : ∀ s, P s → E s) :
    Triple R pre P (expectStr value) (ending (fun _ => P) fun _ => E) := by
  unfold expectStr
  split
  · exact Triple.pure fun _ holds => holds
  · exact Triple.raise fails

end

section
variable {o : Outline σ} {R : Semantics effects σ} {pre : Op → σ → Prop} {ctx : RunContext}

abbrev Outline.Keeps (o : Outline σ) (R : Semantics effects σ) (pre : Op → σ → Prop)
    (P : σ → Prop) (p : Async α) : Prop :=
  Triple R pre P p (ending (fun _ => P) fun _ => o.broken)

abbrev Outline.Returns (o : Outline σ) (R : Semantics effects σ) (pre : Op → σ → Prop)
    (P : σ → Prop) (p : Async Unit) : Prop :=
  Triple R pre P p (ending (fun _ s => o.leaving s ∨ o.elapsed s) fun _ => o.broken)

namespace Outline.Sound

theorem doing (sound : o.Sound R pre ctx) {op : Op} (desktop : Desktop op) :
    o.Keeps R pre o.going (perform op) := by
  refine (sound.act op desktop).relax (fun _ _ reached => reached) ?_
  exact onCancel_either sound.abandon sound.fail

theorem asking (sound : o.Sound R pre ctx) (tool : Tool) : o.Keeps R pre o.going (ask tool) :=
  sound.doing (.tool tool)

theorem emitIf_keeps (sound : o.Sound R pre ctx) {X : σ → Prop} (emits : o.Emits X)
    {kind : String} {payload : Dict} (emittable : Emittable kind payload)
    (other : kind ≠ "done") : o.Keeps R pre X (emitIf (some ctx.emit) kind payload) :=
  sound.emit X emits kind payload emittable other

theorem terminateProcess_keeps {X : σ → Prop}
    (tools : ∀ tool, Triple R pre X (ask tool)
      (ending (fun _ => X) (onCancel o.broken X)))
    (fails : ∀ s, X s → o.broken s) (proc : Process) : o.Keeps R pre X (terminateProcess proc) := by
  have asked : ∀ tool, o.Keeps R pre X (ask tool) := by
    intro tool
    refine (tools tool).relax (fun _ _ reached => reached) ?_
    exact onCancel_either (fun _ cut => cut) fails
  have killed : ∀ {kill rest : Async Unit}, Triple R pre X kill
      (ending (fun _ => X) (onCancel o.broken X)) →
      o.Keeps R pre X rest → o.Keeps R pre X (killThen kill rest) := by
    intro kill rest first second
    unfold killThen
    apply Triple.settle first
    intro result
    cases result with
    | ok value => exact second
    | error exc =>
      cases exc with
      | processLookup text => exact Triple.pure fun _ reached => reached
      | cancelled => exact Triple.raise fun _ reached => reached
      | _ => exact Triple.raise fails
  unfold terminateProcess
  apply Triple.seq (asked _)
  intro code
  split
  · exact Triple.pure fun _ holds => holds
  · apply killed (tools _)
    have waited : Triple R pre X (do let _ ← ask (.procWait proc (some 2)))
        (ending (fun _ => X) (onCancel o.broken X)) := by
      apply Triple.seq (tools _)
      intro _
      exact Triple.pure fun _ holds => holds
    apply Triple.caught waited
    intro exc
    cases exc with
    | timeout =>
      apply killed (tools _)
      apply Triple.seq (asked _)
      intro _
      exact Triple.pure fun _ holds => holds
    | cancelled => exact Triple.raise fun _ reached => reached
    | _ => exact Triple.raise fails

theorem terminate_going (sound : o.Sound R pre ctx) (proc : Process) :
    o.Keeps R pre o.going (terminateProcess proc) := by
  refine terminateProcess_keeps ?_ sound.fail proc
  intro tool
  refine (sound.act _ (.tool tool)).relax (fun _ _ reached => reached) ?_
  intro exc s reached
  cases exc with
  | cancelled => exact sound.abandon s reached
  | _ => exact reached

theorem terminate_cut (sound : o.Sound R pre ctx) (proc : Process) :
    o.Keeps R pre o.cut (terminateProcess proc) := by
  refine terminateProcess_keeps ?_ sound.abandon proc
  intro tool
  refine (sound.cleanup tool).mono ?_
  intro result s reached
  cases result with
  | ok value => exact reached
  | error exc =>
    cases exc with
    | cancelled => exact sound.abandon s reached
    | _ => exact reached

theorem cleaning (sound : o.Sound R pre ctx) (tool : Tool) : o.Keeps R pre o.cut (ask tool) := by
  refine (sound.cleanup tool).mono ?_
  intro result s reached
  cases result with
  | ok value => exact reached
  | error exc => exact sound.abandon s reached

theorem runVisible_keeps (sound : o.Sound R pre ctx) (h : Host) (command : String) (runId : RunId)
    (timeout holdS : Seconds) :
    o.Keeps R pre o.going (runVisible h command runId (some ctx.emit) timeout holdS) := by
  unfold runVisible
  refine Triple.seq (sound.emitIf_keeps .going ⟨by decide,rfl,rfl,rfl⟩ (by decide)) ?_
  intro _
  apply Triple.seq (sound.asking _)
  intro proc
  refine Triple.seq (Triple.caught (sound.act _ (.tool _)) ?_) ?_
  · intro exc
    cases exc with
    | timeout =>
      apply Triple.seq (sound.terminate_going proc)
      intro _
      refine Triple.seq (sound.emitIf_keeps .going ⟨by decide,rfl,rfl,rfl⟩ (by decide)) ?_
      intro _
      exact Triple.raise sound.fail
    | cancelled =>
      apply Triple.seq (sound.terminate_cut proc)
      intro _
      refine Triple.seq (sound.emitIf_keeps .cut ⟨by decide,rfl,rfl,rfl⟩ (by decide)) ?_
      intro _
      exact Triple.raise sound.abandon
    | _ => exact Triple.raise sound.fail
  · intro code
    refine Triple.seq (sound.emitIf_keeps .going ⟨by decide,rfl,rfl,rfl⟩ (by decide)) ?_
    intro _
    split
    · exact Triple.raise sound.fail
    · exact Triple.pure fun _ holds => holds

theorem runCapture_keeps (sound : o.Sound R pre ctx) (h : Host) (command : String) (runId : RunId)
    (timeout : Seconds) (captureCap : Nat) (stdin : Json) :
    o.Keeps R pre o.going
      (runCapture h command runId (some ctx.emit) timeout captureCap stdin) := by
  unfold runCapture
  refine Triple.seq (sound.emitIf_keeps .going ⟨by decide,rfl,rfl,rfl⟩ (by decide)) ?_
  intro _
  apply Triple.seq (sound.asking _)
  intro proc
  have communicated : Triple R pre o.going
      (if stdin == .null then ask (.procCommunicate proc none timeout)
        else do ask (.procCommunicate proc (some (h.encode (← expectStr stdin))) timeout))
      (ending (fun _ => o.going) (onCancel o.cut o.going)) := by
    split
    · exact sound.act _ (.tool _)
    · unfold expectStr
      split
      · exact sound.act _ (.tool _)
      · exact Triple.raise fun _ holds => holds
  refine Triple.seq (Triple.caught communicated ?_) ?_
  · intro exc
    cases exc with
    | timeout =>
      apply Triple.seq (sound.asking _)
      intro _
      apply Triple.seq (sound.asking _)
      intro _
      refine Triple.seq (sound.emitIf_keeps .going ⟨by decide,rfl,rfl,rfl⟩ (by decide)) ?_
      intro _
      exact Triple.raise sound.fail
    | cancelled =>
      apply Triple.seq (sound.cleaning _)
      intro _
      apply Triple.seq (sound.cleaning _)
      intro _
      refine Triple.seq (sound.emitIf_keeps .cut ⟨by decide,rfl,rfl,rfl⟩ (by decide)) ?_
      intro _
      exact Triple.raise sound.abandon
    | _ => exact Triple.raise sound.fail
  · intro output
    apply Triple.seq (sound.asking _)
    intro code
    refine Triple.seq (sound.emitIf_keeps .going ⟨by decide,rfl,rfl,rfl⟩ (by decide)) ?_
    intro _
    split
    · exact Triple.raise sound.fail
    · exact Triple.pure fun _ holds => holds

theorem runCommand_keeps (sound : o.Sound R pre ctx) (h : Host) (command : String) (runId : RunId)
    (holdS : Seconds) (visible : Bool) (captureCap : Nat) (stdin : Json) :
    o.Keeps R pre o.going
      (runCommand h command runId (some ctx.emit) holdS visible captureCap stdin) := by
  unfold runCommand
  split
  · exact sound.runVisible_keeps h command runId defaultTimeout holdS
  · exact sound.runCapture_keeps h command runId defaultTimeout captureCap stdin

theorem item_keeps (sound : o.Sound R pre ctx) (params : Dict) (key : String) :
    o.Keeps R pre o.going (item params key) :=
  item_triple params key sound.fail

theorem expectStr_keeps (sound : o.Sound R pre ctx) (value : Json) :
    o.Keeps R pre o.going (expectStr value) :=
  expectStr_triple value sound.fail

theorem ensureKeyboardTargetIsSafe_keeps (sound : o.Sound R pre ctx) (h : Host) :
    o.Keeps R pre o.going (ensureKeyboardTargetIsSafe h (some ctx)) := by
  unfold ensureKeyboardTargetIsSafe
  have found : o.Keeps R pre o.going (focusedControlTerminal h) := by
    unfold focusedControlTerminal
    apply Triple.seq (sound.doing .look)
    intro active
    cases active with
    | none => exact Triple.pure fun _ holds => holds
    | some window =>
      simp only
      split
      · exact Triple.pure fun _ holds => holds
      · apply Triple.seq (sound.asking _)
        intro inside
        split
        · exact Triple.pure fun _ holds => holds
        · exact Triple.pure fun _ holds => holds
  apply Triple.seq found
  intro active
  cases active with
  | none => exact Triple.pure fun _ holds => holds
  | some window =>
    refine Triple.seq (sound.emit _ .going _ _ ⟨by decide,rfl,rfl,rfl⟩ (by decide)) ?_
    intro _
    exact Triple.pure fun _ holds => holds

abbrev Answers (o : Outline σ) (R : Semantics effects σ) (pre : Op → σ → Prop)
    (kind : ActionKind) (p : Async ActionResult) : Prop :=
  Triple R pre o.going p
    (ending (fun result s => o.going s ∧ result.kind = kind.value) fun _ => o.broken)

theorem terminalCommand_answers (sound : o.Sound R pre ctx) (h : Host) (p : Dict)
    (appState : Option AgentConfig) :
    Answers o R pre .terminalCommand (terminalCommand h p (some ctx) appState) := by
  unfold terminalCommand
  apply Triple.seq (sound.item_keeps p _)
  intro value
  apply Triple.seq (sound.expectStr_keeps value)
  intro command
  split
  split
  · exact Triple.pure fun _ holds => ⟨holds,rfl⟩
  · apply Triple.seq (convert_triple _ sound.fail)
    intro holdS
    apply Triple.seq (sound.runCommand_keeps h command _ _ _ _ _)
    intro output
    exact Triple.pure fun _ holds => ⟨holds,rfl⟩

theorem keyboard_answers (sound : o.Sound R pre ctx) (h : Host) (kind : ActionKind) (p : Dict)
    (key : String) (input : Json → Input) :
    Answers o R pre kind (keyboard h kind p (some ctx) key input) := by
  unfold keyboard
  apply Triple.seq (sound.ensureKeyboardTargetIsSafe_keeps h)
  intro safe
  split
  · exact Triple.pure fun _ holds => ⟨holds,rfl⟩
  · apply Triple.seq (sound.item_keeps p key)
    intro value
    refine Triple.seq (sound.doing (.input _)) ?_
    intro _
    exact Triple.pure fun _ holds => ⟨holds,rfl⟩

theorem confirmIf_keeps (sound : o.Sound R pre ctx) (destructive : Bool) (prompt : String) :
    o.Keeps R pre o.going (confirmIf destructive prompt) := by
  unfold confirmIf
  split
  · exact sound.asking _
  · exact Triple.pure fun _ holds => holds

theorem dispatchCommand_answers (sound : o.Sound R pre ctx) (h : Host) (p : Dict) :
    Answers o R pre .dispatch (dispatchCommand h p) := by
  unfold dispatchCommand
  apply Triple.seq (sound.item_keeps p _)
  intro value
  apply Triple.seq (sound.expectStr_keeps value)
  intro cmd
  apply Triple.seq (sound.confirmIf_keeps _ _)
  intro confirmed
  split
  · exact Triple.pure fun _ holds => ⟨holds,rfl⟩
  · apply Triple.seq (sound.doing (.dispatch _))
    intro response
    exact Triple.pure fun _ holds => ⟨holds,rfl⟩

-- A file error becomes a blocked result; a cancellation goes on.
theorem blockedBy_answers (sound : o.Sound R pre ctx) (kind : ActionKind) (exc : Exc) :
    Triple R pre (onCancel o.cut o.going exc) (blockedBy kind exc)
      (ending (fun result s => o.going s ∧ result.kind = kind.value) fun _ => o.broken) := by
  cases exc with
  | fileNotFound text => exact Triple.pure fun _ holds => ⟨holds,rfl⟩
  | permission text => exact Triple.pure fun _ holds => ⟨holds,rfl⟩
  | notADirectory text => exact Triple.pure fun _ holds => ⟨holds,rfl⟩
  | cancelled => exact Triple.raise sound.abandon
  | _ => exact Triple.raise sound.fail

theorem item_raises (params : Dict) (key : String) :
    Triple R pre o.going (item params key) (ending (fun _ => o.going) (onCancel o.cut o.going)) := by
  unfold item
  split
  · exact Triple.pure fun _ holds => holds
  · exact Triple.raise fun _ holds => holds

theorem readFile_answers (sound : o.Sound R pre ctx) (h : Host) (p : Dict) :
    Answers o R pre .readFile (readFile h p) := by
  unfold readFile
  have converted : ∀ value, Triple R pre o.going (convert (h.int value))
      (ending (fun _ => o.going) (onCancel o.cut o.going)) := by
    intro value
    unfold convert
    split
    · exact Triple.pure fun _ holds => holds
    · exact Triple.raise fun _ holds => holds
  refine Triple.caught ?_ (sound.blockedBy_answers .readFile)
  apply Triple.seq (item_raises p _)
  intro path
  apply Triple.seq (converted _)
  intro offset
  apply Triple.seq (converted _)
  intro limit
  refine Triple.seq (sound.act _ (.tool _)) ?_
  intro content
  exact Triple.pure fun _ holds => ⟨holds,rfl⟩

theorem writeFile_answers (sound : o.Sound R pre ctx) (p : Dict) :
    Answers o R pre .writeFile (writeFile p) := by
  unfold writeFile
  apply Triple.seq (sound.item_keeps p _)
  intro value
  apply Triple.seq (sound.expectStr_keeps value)
  intro path
  apply Triple.seq (sound.asking _)
  intro there
  apply Triple.seq (sound.confirmIf_keeps _ _)
  intro confirmed
  split
  · exact Triple.pure fun _ holds => ⟨holds,rfl⟩
  · have written : Triple R pre o.going (do
          ask (.writeFile path (← item p "content") (get p "append" (.bool false)).truthy)
          return { kind := ActionKind.writeFile.value })
        (ending (fun (result : ActionResult) s => o.going s ∧
          result.kind = ActionKind.writeFile.value) (onCancel o.cut o.going)) := by
      apply Triple.seq (item_raises p _)
      intro content
      refine Triple.seq (sound.act _ (.tool _)) ?_
      intro _
      exact Triple.pure fun _ holds => ⟨holds,rfl⟩
    apply Triple.caught written
    intro exc
    cases exc with
    | permission text => exact Triple.pure fun _ holds => ⟨holds,rfl⟩
    | cancelled => exact Triple.raise sound.abandon
    | _ => exact Triple.raise sound.fail

theorem listDir_answers (sound : o.Sound R pre ctx) (p : Dict) :
    Answers o R pre .listDir (listDir p) := by
  unfold listDir
  refine Triple.caught ?_ (sound.blockedBy_answers .listDir)
  apply Triple.seq (item_raises p _)
  intro path
  refine Triple.seq (sound.act _ (.tool _)) ?_
  intro listing
  exact Triple.pure fun _ holds => ⟨holds,rfl⟩

theorem integrate_answers (sound : o.Sound R pre ctx) (action : Action)
    (appState : Option AgentConfig) : Answers o R pre action.kind (integrate action appState) := by
  unfold integrate
  split
  · exact Triple.pure fun _ holds => ⟨holds,rfl⟩
  · apply Triple.seq (sound.asking _)
    intro handled
    split
    · exact Triple.pure fun _ holds => ⟨holds,rfl⟩
    · exact Triple.pure fun _ holds => ⟨holds,rfl⟩

theorem performAction_answers (sound : o.Sound R pre ctx) (h : Host) (action : Action)
    (appState : Option AgentConfig) :
    Answers o R pre action.kind (performAction h action (some ctx) appState) := by
  have plain : ∀ {p : Async ActionResult} {kind : ActionKind}, action.kind = kind →
      Answers o R pre kind p → Answers o R pre action.kind p := by
    intro p kind same answers
    rw [same]
    exact answers
  unfold performAction
  split
  case h_1 same => exact Triple.pure fun _ holds => ⟨holds,rfl⟩
  case h_2 same => exact plain same (sound.terminalCommand_answers h _ appState)
  case h_3 same => exact plain same (sound.keyboard_answers h _ _ _ _)
  case h_4 same => exact plain same (sound.keyboard_answers h _ _ _ _)
  case h_5 same =>
    apply Triple.seq (sound.item_keeps _ _)
    intro x
    apply Triple.seq (sound.item_keeps _ _)
    intro y
    apply Triple.seq (sound.asking _)
    intro _
    exact Triple.pure fun _ holds => ⟨holds,rfl⟩
  case h_6 same =>
    refine Triple.seq (sound.doing (.input _)) ?_
    intro _
    exact Triple.pure fun _ holds => ⟨holds,rfl⟩
  case h_7 same =>
    apply Triple.seq (sound.item_keeps _ _)
    intro amount
    refine Triple.seq (sound.doing (.input _)) ?_
    intro _
    exact Triple.pure fun _ holds => ⟨holds,rfl⟩
  case h_8 same =>
    apply Triple.seq (sound.item_keeps _ _)
    intro address
    refine Triple.seq (sound.doing (.dispatch _)) ?_
    intro response
    exact Triple.pure fun _ holds => ⟨holds,rfl⟩
  case h_9 same => exact plain same (sound.dispatchCommand_answers h _)
  case h_10 same => exact plain same (sound.readFile_answers h _)
  case h_11 same => exact plain same (sound.writeFile_answers _)
  case h_12 same => exact plain same (sound.listDir_answers _)
  case h_13 same =>
    apply Triple.seq (sound.asking _)
    intro text
    exact Triple.pure fun _ holds => ⟨holds,rfl⟩
  case h_14 same =>
    apply Triple.seq (sound.item_keeps _ _)
    intro text
    apply Triple.seq (sound.asking _)
    intro _
    exact Triple.pure fun _ holds => ⟨holds,rfl⟩
  all_goals exact sound.integrate_answers action appState

theorem executeAction_answers (sound : o.Sound R pre ctx) (h : Host) (action : Action)
    (appState : Option AgentConfig) :
    Triple R pre o.checked (executeAction h action (some ctx) appState)
      (ending (fun result s => o.going s ∧ result.kind = action.kind.value) fun _ => o.broken) := by
  have configured : Triple R pre o.checked (configureLimiter appState)
      (ending (fun _ => o.checked) fun _ => o.broken) := by
    unfold configureLimiter
    split
    · apply Triple.seq (sound.configure _)
      intro done
      split
      · exact sound.configure _
      · exact Triple.pure fun _ holds => holds
    · exact Triple.pure fun _ holds => holds
  unfold executeAction
  apply Triple.seq configured
  intro _
  apply Triple.seq (sound.limit _)
  intro admitted
  split
  · exact Triple.pure fun _ holds => ⟨holds,rfl⟩
  · exact sound.performAction_answers h action appState

theorem verify_answers (sound : o.Sound R pre ctx) (h : Host) (preHash : Option String)
    (result : ActionResult) :
    Triple R pre o.going (verify h preHash result)
      (ending (fun next s => o.going s ∧ next.kind = result.kind) fun _ => o.broken) := by
  unfold verify
  split
  · exact Triple.pure fun _ holds => ⟨holds,rfl⟩
  · rename_i before
    refine @Triple.caught effects σ _ R pre _ _ (onCancel o.cut o.going) _ _ _ ?_ ?_
    · refine Triple.seq (sound.act _ (.tool _)) ?_
      intro png
      split
      · exact Triple.pure fun _ holds => ⟨holds,rfl⟩
      · exact Triple.pure fun _ holds => ⟨holds,rfl⟩
    · intro exc
      cases exc with
      | cancelled => exact Triple.raise sound.abandon
      | _ => exact Triple.pure fun _ holds => ⟨holds,rfl⟩

theorem data_emittable {result : ActionResult} {kind : ActionKind}
    (same : result.kind = kind.value) : Emittable "action_result" result.data := by
  refine ⟨by decide,?_,?_,?_⟩
  · rw [lookup_data (by decide)]
    rfl
  · rw [lookup_data (by decide)]
    rfl
  · refine ⟨kind,?_⟩
    rw [lookup_data (by decide),same]
    rfl

theorem reportResult_keeps (sound : o.Sound R pre ctx) {result : ActionResult} {kind : ActionKind}
    (same : result.kind = kind.value) :
    o.Keeps R pre o.going (reportResult (some ctx) result) := by
  unfold reportResult
  split
  · exact sound.emit _ .going _ _ (data_emittable same) (by decide)
  · exact Triple.pure fun _ holds => holds

theorem buildState_follows (sound : o.Sound R pre ctx) (task : String) :
    Triple R pre o.fresh (buildState task (some ctx))
      (ending (fun built => if built.2 then o.going else o.leaving) fun _ => o.broken) := by
  unfold buildState
  have disarmed : Triple R pre o.fresh ensureDisarmed
      (ending (fun _ => o.before) fun _ => o.broken) := by
    unfold ensureDisarmed
    apply Triple.seq sound.disarm
    intro _
    exact sound.mkdir
  apply Triple.seq disarmed
  intro _
  refine Triple.seq (sound.emit _ .before _ _ ⟨by decide,rfl,rfl,rfl⟩ (by decide)) ?_
  intro _
  apply Triple.seq sound.look
  intro active
  -- Past the gate, however it was passed.
  have built : Triple R pre o.going (do
        let png ← ask .screenFull
        let mon ← ask .activeMonitor
        let width := (mon.map Monitor.width).getD 1920
        let height := (mon.map Monitor.height).getD 1080
        let wins ← ask .clients
        Orchestrator.emit (some ctx) "state" (dict [("active",(active.map Window.modelDump).getD .null)])
        return ((⟨png,width,height,active,wins⟩ : ScreenState),true))
      (ending (fun built => if built.2 then o.going else o.leaving) fun _ => o.broken) := by
    apply Triple.seq (sound.asking _)
    intro png
    apply Triple.seq (sound.asking _)
    intro mon
    apply Triple.seq (sound.asking _)
    intro wins
    refine Triple.seq (sound.emit _ .going _ _ ⟨by decide,rfl,rfl,rfl⟩ (by decide)) ?_
    intro _
    exact Triple.pure fun _ holds => holds
  cases active with
  | none => exact built.weaken sound.unfocused
  | some window =>
    apply Triple.seq (sound.gate window)
    intro allowed
    cases allowed with
    | true => exact built
    | false =>
      refine Triple.seq (sound.emit _ .leaving _ _ ⟨by decide,rfl,rfl,rfl⟩ (by decide)) ?_
      intro _
      exact Triple.pure fun _ holds => holds

theorem leave (sound : o.Sound R pre ctx) :
    o.Returns R pre o.leaving (Orchestrator.emit (some ctx) "killswitch" ∅ >>= fun _ => pure ()) := by
  refine Triple.seq (sound.emit _ .leaving _ _ ⟨by decide,rfl,rfl,rfl⟩ (by decide)) ?_
  intro _
  exact Triple.pure fun _ holds => .inl holds

theorem finish (sound : o.Sound R pre ctx) :
    o.Returns R pre o.going (Orchestrator.emit (some ctx) "done" ∅) :=
  sound.done.relax (fun _ _ holds => .inr holds) fun _ _ holds => holds

theorem runActions_follows (sound : o.Sound R pre ctx) (h : Host) (state : ScreenState)
    (appState : Option AgentConfig) (detector : LoopDetector) (actions : List Action) :
    o.Returns R pre o.going (runActions h state (some ctx) appState detector actions) := by
  induction actions generalizing detector with
  | nil => exact sound.finish
  | cons action rest ih =>
    unfold runActions
    apply Triple.seq sound.check
    intro stopped
    cases stopped with
    | true => exact sound.leave
    | false =>
      refine Triple.seq (sound.emit _ .checked _ _ ⟨by decide,rfl,rfl,⟨_,rfl⟩⟩ (by decide)) ?_
      intro _
      apply Triple.seq (sound.executeAction_answers h action appState)
      intro result
      -- The kind of the result is a fact about a value, kept beside the state.
      refine fun s both => ?_
      have same := both.2
      have verified := sound.verify_answers h
        (if action.kind.visual then h.phash state.screenshotPng else none) result
      refine (Triple.seq verified ?_) s both.1
      intro next t both
      have kind := both.2.trans same
      refine (Triple.seq (sound.reportResult_keeps kind) ?_) t both.1
      intro _
      split
      split
      · refine Triple.seq (sound.emit _ .going _ _ ⟨by decide,rfl,rfl,rfl⟩ (by decide)) ?_
        intro _
        exact Triple.raise sound.fail
      · apply Triple.seq (sound.asking _)
        intro _
        exact ih _

theorem recordActions_keeps (sound : o.Sound R pre ctx) (actions : List Action) :
    o.Keeps R pre o.going (recordActions (some ctx) actions) := by
  induction actions with
  | nil => exact Triple.pure fun _ holds => holds
  | cons action rest ih =>
    refine Triple.seq (sound.emit _ .going _ _ ⟨by decide,rfl,rfl,⟨_,rfl⟩⟩ (by decide)) ?_
    intro _
    exact ih

theorem plan_follows (sound : o.Sound R pre ctx) (task : String) (brain : Brain)
    (appState : Option AgentConfig) :
    o.Returns R pre o.fresh (plan task brain (some ctx) appState) := by
  unfold plan
  apply Triple.seq (sound.buildState_follows task)
  intro given
  obtain ⟨state,allowed⟩ := given
  cases allowed with
  | false => exact Triple.pure fun _ holds => .inl holds
  | true =>
    apply Triple.seq sound.check
    intro stopped
    cases stopped with
    | true => exact sound.leave
    | false =>
      apply Triple.weaken sound.relax
      apply Triple.seq (sound.asking _)
      intro context
      apply Triple.seq (sound.asking _)
      intro actions
      refine Triple.seq (sound.emit _ .going _ _ ⟨by decide,rfl,rfl,rfl⟩ (by decide)) ?_
      intro _
      apply Triple.seq (sound.recordActions_keeps actions)
      intro _
      exact sound.finish

theorem run_follows (sound : o.Sound R pre ctx) (h : Host) (task : String) (brain : Brain)
    (appState : Option AgentConfig) :
    o.Returns R pre o.fresh (run h task brain (some ctx) appState) := by
  unfold run
  apply Triple.seq (sound.buildState_follows task)
  intro given
  obtain ⟨state,allowed⟩ := given
  cases allowed with
  | false => exact Triple.pure fun _ holds => .inl holds
  | true =>
    apply Triple.seq sound.check
    intro stopped
    cases stopped with
    | true => exact sound.leave
    | false =>
      apply Triple.weaken sound.relax
      apply Triple.seq (sound.asking _)
      intro context
      apply Triple.seq (sound.asking _)
      intro actions
      apply Triple.seq sound.check
      intro stopped
      cases stopped with
      | true => exact sound.leave
      | false =>
        apply Triple.weaken sound.relax
        refine Triple.seq (sound.emit _ .going _ _ ⟨by decide,rfl,rfl,rfl⟩ (by decide)) ?_
        intro _
        exact sound.runActions_follows h state appState {} actions

end Outline.Sound
end
end HyprlandAgent.Orchestrator
