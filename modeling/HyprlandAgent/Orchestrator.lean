import HyprlandAgent.Awareness
import HyprlandAgent.Tools.Terminal

-- The agent loop: ties brain, tools, events and safety together.
namespace HyprlandAgent.Orchestrator
open Coroutine Terminal

def terminalClasses : List String := ["foot","kitty","alacritty","wezterm","ghostty"]
def controlProcessMarkers : List String := ["codex","claude","agent"]

def destructiveDispatch : List String := ["killactive","closewindow","exit","forcerendererreload"]

-- The characters `str.split` cuts at.
def isSpace (char : Char) : Bool :=
  [0x20,0x85,0xa0,0x1680,0x2028,0x2029,0x202f,0x205f,0x3000].contains char.toNat ||
    (0x09 ≤ char.toNat && char.toNat ≤ 0x0d) || (0x1c ≤ char.toNat && char.toNat ≤ 0x1f) ||
    (0x2000 ≤ char.toNat && char.toNat ≤ 0x200a)

-- `str.strip`
def strip (text : List Char) : List Char := ((text.dropWhile isSpace).reverse.dropWhile isSpace).reverse

def isDestructiveDispatch (h : Host) (cmd : String) : Bool :=
  let firstWord := (cmd.toList.dropWhile isSpace).takeWhile fun char => !isSpace char
  !firstWord.isEmpty && destructiveDispatch.contains (h.lower (String.ofList firstWord))

def emit (ctx : Option RunContext) (kind : String) (payload : Dict) : Async Unit :=
  match ctx with
  | some ctx => ctx.emit kind payload
  | none => pure ()

def focusedControlTerminal (h : Host) : Async (Option Window) := do
  match ← perform .activeWindow with
  | none => return none
  | some active =>
    if !terminalClasses.contains (h.lower active.appClass) then return none
    if !(← ask (.processTreeContains active.pid controlProcessMarkers)) then return none
    return some active

def ensureKeyboardTargetIsSafe (h : Host) (ctx : Option RunContext) : Async Bool := do
  match ← focusedControlTerminal h with
  | none => return true
  | some active =>
    emit ctx "blocked" (dict [("reason",.str "control_terminal_keyboard_target"),
      ("active",active.modelDump)])
    return false

-- `text or None`
def orNone (text : String) : Option String := if text = "" then none else some text

def terminalCommand (h : Host) (p : Dict) (ctx : Option RunContext)
    (appState : Option AgentConfig) : Async ActionResult := do
  let kind := ActionKind.terminalCommand.value
  let command ← expectStr (← item p "command")
  let (safe,reason) := h.sanitizeCommand command
  if !safe then
    return { kind := kind, blocked := some ("unsafe_command: " ++ reason) }
  let runId := match ctx with
    | some ctx => ctx.runId
    | none => "local"
  let visible := (get p "visible" (.bool true)).truthy
  let captureCap := match appState with
    | some config => config.captureCapKb * 1024
    | none => 65536
  let holdS ← convert (h.float (get p "hold_s" (.int 0)))
  let (code,stdout,stderr,totalBytes) ← runCommand h command runId (ctx.map RunContext.emit)
    holdS visible captureCap (get p "stdin" .null)
  let truncated := !visible && decide (totalBytes > captureCap)
  return { kind := kind, returncode := some code, stdout := orNone stdout,
           stderr := orNone stderr, truncated := if truncated then some true else none }

def keyboard (h : Host) (kind : ActionKind) (p : Dict) (ctx : Option RunContext) (key : String)
    (input : Json → Input) : Async ActionResult := do
  if !(← ensureKeyboardTargetIsSafe h ctx) then
    return { kind := kind.value, blocked := some "control_terminal" }
  perform (.input (input (← item p key)))
  return { kind := kind.value }

def confirmIf (destructive : Bool) (prompt : String) : Async Bool :=
  if destructive then ask (.confirm prompt) else pure true

def dispatchCommand (h : Host) (p : Dict) : Async ActionResult := do
  let kind := ActionKind.dispatch.value
  let cmd ← expectStr (← item p "cmd")
  if !(← confirmIf (isDestructiveDispatch h cmd) ("Hyprland dispatch: " ++ h.repr cmd)) then
    return { kind := kind, rejected := some cmd }
  let response ← perform (.dispatch cmd)
  return { kind := kind, dispatchResponse := some response }

def blockedBy (kind : ActionKind) : Exc → Async ActionResult
  | .fileNotFound text => return { kind := kind.value, blocked := some text }
  | .permission text => return { kind := kind.value, blocked := some text }
  | .notADirectory text => return { kind := kind.value, blocked := some text }
  | exc => raise exc

def readFile (h : Host) (p : Dict) : Async ActionResult := do
  let kind := ActionKind.readFile
  let read : Async ActionResult := do
    let path ← item p "path"
    let offset ← convert (h.int (get p "offset" (.int 0)))
    let limit ← convert (h.int (get p "limit" (.int 0)))
    let content ← ask (.readFile path offset limit)
    return { kind := kind.value, stdout := some content }
  tryCatch read (blockedBy kind)

def writeFile (p : Dict) : Async ActionResult := do
  let kind := ActionKind.writeFile
  let path ← expectStr (← item p "path")
  let append := (get p "append" (.bool false)).truthy
  let overwrites := (← ask (.pathExists path)) && !append
  if !(← confirmIf overwrites ("Overwrite file: " ++ path)) then
    return { kind := kind.value, rejected := some path }
  let write : Async ActionResult := do
    ask (.writeFile path (← item p "content") append)
    return { kind := kind.value }
  tryCatch write fun
    | .permission text => return { kind := kind.value, blocked := some text }
    | exc => raise exc

def listDir (p : Dict) : Async ActionResult := do
  let kind := ActionKind.listDir
  let list : Async ActionResult := do
    let listing ← ask (.listDir (← item p "path") (get p "recursive" (.bool false)).truthy)
    return { kind := kind.value, stdout := some listing }
  tryCatch list (blockedBy kind)

def integrate (action : Action) (appState : Option AgentConfig) : Async ActionResult := do
  if appState.isNone then return { kind := action.kind.value }
  match ← ask (.integrationsHandle action) with
  | some handled =>
    return { kind := action.kind.value, returncode := handled.returncode, blocked := handled.blocked }
  | none => return { kind := action.kind.value }

def performAction (h : Host) (action : Action) (ctx : Option RunContext)
    (appState : Option AgentConfig) : Async ActionResult :=
  let p := action.params
  let base : ActionResult := { kind := action.kind.value }
  match action.kind with
  | .screenshot => return base
  | .terminalCommand => terminalCommand h p ctx appState
  | .typeText => keyboard h .typeText p ctx "text" .typeText
  | .key => keyboard h .key p ctx "combo" .key
  | .mouseMove => do
    ask (.mouseMove (← item p "x") (← item p "y"))
    return base
  | .click => do
    perform (.input (.click (get p "button" (.str "left"))))
    return base
  | .scroll => do
    perform (.input (.scroll (← item p "amount") (get p "horizontal" (.bool false))))
    return base
  | .focusWindow => do
    let response ← perform (.dispatch ("focuswindow address:" ++ h.str (← item p "address")))
    return { base with dispatchResponse := some response }
  | .dispatch => dispatchCommand h p
  | .readFile => readFile h p
  | .writeFile => writeFile p
  | .listDir => listDir p
  | .clipboardRead => do
    let text ← ask .clipboardRead
    return { base with stdout := some text }
  | .clipboardWrite => do
    ask (.clipboardWrite (← item p "text"))
    return base
  | .notify | .updateStatus | .speak => integrate action appState

-- The rate limiter takes its limits from the configuration at the first action.
def configureLimiter (appState : Option AgentConfig) : Async Unit :=
  match appState with
  | some config => do
    if !(← ask .rateLimiterConfigured) then ask (.rateLimiterReconfigure config.rateLimit)
  | none => pure ()

def executeAction (h : Host) (action : Action) (ctx : Option RunContext)
    (appState : Option AgentConfig) : Async ActionResult := do
  configureLimiter appState
  if !(← perform (.checkLimit action.kind.value)) then
    return { kind := action.kind.value, blocked := some "rate_limited" }
  performAction h action ctx appState

def ensureDisarmed : Async Unit := do
  perform .unlinkFlag
  ask .mkdirCache

def buildState (task : String) (ctx : Option RunContext) : Async (ScreenState × Bool) := do
  ensureDisarmed
  emit ctx "start" (dict [("task",.str task)])
  let active ← perform .activeWindow
  if let some window := active then
    if !(← perform (.isAllowed window)) then
      emit ctx "blocked" (dict [("reason",.str "window_not_allowlisted"),("active",window.modelDump)])
      return (⟨[],0,0,active,[]⟩,false)
  let png ← ask .screenFull
  let mon ← ask .activeMonitor
  let width := (mon.map Monitor.width).getD 1920
  let height := (mon.map Monitor.height).getD 1080
  let wins ← ask .clients
  emit ctx "state" (dict [("active",(active.map Window.modelDump).getD .null)])
  return (⟨png,width,height,active,wins⟩,true)

def recordActions (ctx : Option RunContext) : List Action → Async Unit
  | [] => pure ()
  | action :: rest => do
    emit ctx "action" (dict [("kind",.str action.kind.value),("params",action.params.toJson)])
    recordActions ctx rest

def plan (task : String) (brain : Brain) (ctx : Option RunContext)
    (appState : Option AgentConfig) : Async Unit := do
  let (state,allowed) ← buildState task ctx
  if !allowed then return
  if ← perform .isStopped then
    emit ctx "killswitch" ∅
    return
  let context ← ask (.assembleBrainContext state brain task appState)
  let actions ← ask (.decide brain state task context)
  emit ctx "actions" (dict [("count",.int actions.length)])
  recordActions ctx actions
  emit ctx "done" ∅

def notable (result : ActionResult) : Bool :=
  [result.dispatchResponse,result.blocked,result.rejected,result.stdout,result.stderr,
    result.preHash].any fun text => text.any (· != "")

def verify (h : Host) (preHash : Option String) (result : ActionResult) : Async ActionResult :=
  match preHash with
  | none => return result
  | some preHash =>
    tryCatch (do
      let png ← ask .screenFull
      match h.phash png with
      | some postHash => return result.annotate preHash postHash
      | none => return result) fun exc =>
        if exc.isCancelled then raise exc else return result

def reportResult (ctx : Option RunContext) (result : ActionResult) : Async Unit :=
  if notable result then emit ctx "action_result" result.data else pure ()

def runActions (h : Host) (state : ScreenState) (ctx : Option RunContext)
    (appState : Option AgentConfig) : LoopDetector → List Action → Async Unit
  | _,[] => emit ctx "done" ∅
  | detector,action :: rest => do
    if ← perform .isStopped then
      emit ctx "killswitch" ∅
      return
    emit ctx "action" (dict [("kind",.str action.kind.value),("params",action.params.toJson)])
    let preHash := if action.kind.visual then h.phash state.screenshotPng else none
    let result ← executeAction h action ctx appState
    let result ← verify h preHash result
    reportResult ctx result
    let (detector,stuck) := detector.observe action
    if stuck then
      emit ctx "stuck" (dict [("action",action.modelDump)])
      raise (.stuck ("Stuck repeating action: " ++ action.kind.value))
    else
      ask (.sleep (1/20))
      runActions h state ctx appState detector rest

def run (h : Host) (task : String) (brain : Brain) (ctx : Option RunContext)
    (appState : Option AgentConfig) : Async Unit := do
  let (state,allowed) ← buildState task ctx
  if !allowed then return
  if ← perform .isStopped then
    emit ctx "killswitch" ∅
    return
  let context ← ask (.assembleBrainContext state brain task appState)
  let actions ← ask (.decide brain state task context)
  if ← perform .isStopped then
    emit ctx "killswitch" ∅
    return
  emit ctx "actions" (dict [("count",.int actions.length)])
  runActions h state ctx appState {} actions

end HyprlandAgent.Orchestrator
