import Mathlib.Algebra.Order.Ring.Rat
import HyprlandAgent.Effects

-- Agent-owned terminal command execution.
namespace HyprlandAgent.Terminal
open Coroutine

abbrev EmitFn := String → Dict → Async Unit

def defaultTimeout : Seconds := 300
def maxHoldS : Seconds := 30

def emitIf (emit : Option EmitFn) (kind : String) (payload : Dict) : Async Unit :=
  match emit with
  | some emit => emit kind payload
  | none => pure ()

def clampHoldS (value : Seconds) : Seconds := max 0 (min value maxHoldS)

def shellScript (h : Host) (command : String) (holdS : Seconds) : String :=
  if holdS ≤ 0 then command
  else "\n".intercalate [command,"code=$?",
    "printf \"\\n[hyprland-agent] exit code: %s\\n\" \"$code\"","sleep " ++ h.formatG holdS,"exit $code"]

-- `text[-cap:]`, which for 0 is the whole text.
def lastChars (cap : Nat) (text : String) : String :=
  if cap = 0 then text else String.ofList (text.toList.drop (text.length - cap))

-- A process that is already gone ends the matter.
def killThen (kill : Async Unit) (rest : Async Unit) : Async Unit :=
  kill.settle fun
    | .ok _ => rest
    | .error (.processLookup _) => pure ()
    | .error exc => raise exc

def terminateProcess (proc : Process) : Async Unit := do
  if (← ask (.returncode proc)).isSome then return
  killThen (ask (.killpg proc "SIGTERM"))
    (tryCatch (do let _ ← ask (.procWait proc (some 2))) fun
      | .timeout => killThen (ask (.killpg proc "SIGKILL")) do
          let _ ← ask (.procWait proc none)
      | exc => raise exc)

def runVisible (h : Host) (command : String) (runId : RunId) (emit : Option EmitFn)
    (timeout holdS : Seconds) : Async (Int × String × String × Nat) := do
  let title := "hyprland-agent:" ++ runId
  let holdS := clampHoldS holdS
  emitIf emit "terminal_started" (dict [("title",.str title),("command",.str command),
    ("hold_s",.float holdS),("visible",.bool true)])
  let proc ← ask (.createSubprocessExec
    ["foot","--title",title,"sh","-lc",shellScript h command holdS])
  let code ← tryCatch (ask (.procWait proc (some timeout))) fun
    | .timeout => do
      terminateProcess proc
      emitIf emit "terminal_timed_out" (dict [("title",.str title),("timeout_s",.float timeout)])
      raise .timeout
    | .cancelled => do
      terminateProcess proc
      emitIf emit "terminal_cancelled" (dict [("title",.str title)])
      raise .cancelled
    | exc => raise exc
  emitIf emit "terminal_exited" (dict [("title",.str title),("returncode",.int code),
    ("visible",.bool true)])
  if code ≠ 0 then raise (.other ("terminal command exited with status " ++ toString code))
  else return (code,"","",0)

def runCapture (h : Host) (command : String) (runId : RunId) (emit : Option EmitFn)
    (timeout : Seconds) (captureCap : Nat) (stdin : Json) :
    Async (Int × String × String × Nat) := do
  let title := "hyprland-agent:" ++ runId
  emitIf emit "terminal_started" (dict [("title",.str title),("command",.str command),
    ("hold_s",.int 0),("visible",.bool false)])
  let proc ← ask (.createSubprocessShell command (stdin != .null))
  let communicate : Async (Bytes × Bytes) := do
    if stdin == .null then ask (.procCommunicate proc none timeout)
    else ask (.procCommunicate proc (some (h.encode (← expectStr stdin))) timeout)
  let (stdoutB,stderrB) ← tryCatch communicate fun
    | .timeout => do
      ask (.kill proc)
      let _ ← ask (.procWait proc none)
      emitIf emit "terminal_timed_out" (dict [("title",.str title),("timeout_s",.float timeout)])
      raise .timeout
    | .cancelled => do
      ask (.kill proc)
      let _ ← ask (.procWait proc none)
      emitIf emit "terminal_cancelled" (dict [("title",.str title)])
      raise .cancelled
    | exc => raise exc
  let totalBytes := stdoutB.length
  let stdout := lastChars captureCap (h.decode stdoutB)
  let stderr := lastChars captureCap (h.decode stderrB)
  let code := (← ask (.returncode proc)).getD 0
  let stdout := if totalBytes > captureCap then
      "... [truncated, " ++ toString totalBytes ++ " total bytes, showing last " ++
        toString stdout.length ++ "]\n" ++ stdout
    else stdout
  emitIf emit "terminal_exited" (dict [("title",.str title),("returncode",.int code),
    ("stdout",.str stdout),("stderr",.str stderr),("visible",.bool false)])
  if code ≠ 0 then
    raise (.other ("command exited with status " ++ toString code ++ ": " ++
      String.ofList (stderr.toList.take 200)))
  else return (code,stdout,stderr,totalBytes)

def runCommand (h : Host) (command : String) (runId : RunId) (emit : Option EmitFn)
    (holdS : Seconds) (visible : Bool) (captureCap : Nat) (stdin : Json) :
    Async (Int × String × String × Nat) :=
  if visible then runVisible h command runId emit defaultTimeout holdS
  else runCapture h command runId emit defaultTimeout captureCap stdin

end HyprlandAgent.Terminal
