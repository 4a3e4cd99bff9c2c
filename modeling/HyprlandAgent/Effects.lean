import HyprlandAgent.Coroutine.Logic
import HyprlandAgent.Store

-- What the agent's coroutines ask of the event loop and the desktop.
namespace HyprlandAgent
open Coroutine

-- `cancelled` is the one that `except Exception` lets through.
inductive Exc where
  | cancelled
  | timeout
  | stuck (text : String)
  | fileNotFound (text : String)
  | permission (text : String)
  | notADirectory (text : String)
  | processLookup (text : String)
  | other (text : String)
  deriving DecidableEq, Repr

def Exc.str : Exc → String
  | .cancelled => ""
  | .timeout => ""
  | .stuck text => text
  | .fileNotFound text => text
  | .permission text => text
  | .notADirectory text => text
  | .processLookup text => text
  | .other text => text

def Exc.isCancelled (exc : Exc) : Bool := exc == .cancelled

structure RateLimitConfig where
  guiActionsPerMinute : Int
  terminalCommandsPerMinute : Int
  otherActionsPerMinute : Int
  deriving DecidableEq, Repr

structure AgentConfig where
  rateLimit : RateLimitConfig
  captureCapKb : Nat
  auditLog : Bool
  deriving DecidableEq, Repr

-- The conversions and pure helpers the coroutines call; what is proved holds
-- whatever they compute.
structure Host where
  config : AgentConfig
  lower : String → String
  str : Json → String
  repr : String → String
  formatG : Seconds → String
  float : Json → Except String Seconds
  int : Json → Except String Int
  encode : String → Bytes
  decode : Bytes → String
  sanitizeCommand : String → Bool × String
  phash : Bytes → Option String

structure Process where
  pid : Int
  deriving DecidableEq, Repr

structure Brain where
  name : String
  deriving DecidableEq, Repr

structure BrainContext where
  text : String

-- What an integration reports; it answers under the kind it was asked for.
structure Handled where
  returncode : Option Int := none
  blocked : Option String := none

-- Operations on the desktop that change nothing another part of the agent reads.
inductive Tool where
  | time
  | mkdirCache
  | processTreeContains (pid : Int) (markers : List String)
  | rateLimiterConfigured
  | rateLimiterReconfigure (cfg : RateLimitConfig)
  | pathExists (path : String)
  | readFile (path : Json) (offset limit : Int)
  | writeFile (path : String) (content : Json) (append : Bool)
  | listDir (path : Json) (recursive : Bool)
  | returncode (proc : Process)
  | killpg (proc : Process) (signal : String)
  | kill (proc : Process)
  | confirm (prompt : String)
  | screenFull
  | activeMonitor
  | clients
  | mouseMove (x y : Json)
  | clipboardRead
  | clipboardWrite (text : Json)
  | integrationsHandle (action : Action)
  | createSubprocessExec (argv : List String)
  | createSubprocessShell (command : String) (stdin : Bool)
  | procWait (proc : Process) (timeout : Option Seconds)
  | procCommunicate (proc : Process) (input : Option Bytes) (timeout : Seconds)
  | assembleBrainContext (state : ScreenState) (brain : Brain) (task : String)
      (appState : Option AgentConfig)
  | decide (brain : Brain) (state : ScreenState) (task : String) (context : BrainContext)
  | sleep (seconds : Seconds)

abbrev Tool.Res : Tool → Type
  | .time => Seconds
  | .mkdirCache => Unit
  | .processTreeContains _ _ => Bool
  | .rateLimiterConfigured => Bool
  | .rateLimiterReconfigure _ => Unit
  | .pathExists _ => Bool
  | .readFile _ _ _ => String
  | .writeFile _ _ _ => Unit
  | .listDir _ _ => String
  | .returncode _ => Option Int
  | .killpg _ _ => Unit
  | .kill _ => Unit
  | .confirm _ => Bool
  | .screenFull => Bytes
  | .activeMonitor => Option Monitor
  | .clients => List Window
  | .mouseMove _ _ => Unit
  | .clipboardRead => String
  | .clipboardWrite _ => Unit
  | .integrationsHandle _ => Option Handled
  | .createSubprocessExec _ => Process
  | .createSubprocessShell _ _ => Process
  | .procWait _ _ => Int
  | .procCommunicate _ _ _ => Bytes × Bytes
  | .assembleBrainContext _ _ _ _ => BrainContext
  | .decide _ _ _ _ => List Action
  | .sleep _ => Unit

-- The file tools and the subprocess signals run without a suspension point.
def Tool.suspends : Tool → Bool
  | .time | .mkdirCache | .processTreeContains _ _ | .rateLimiterConfigured
  | .rateLimiterReconfigure _ | .pathExists _ | .readFile _ _ _ | .writeFile _ _ _
  | .listDir _ _ | .returncode _ | .killpg _ _ | .kill _ => false
  | _ => true

-- Operations that act on the focused window.
inductive Input where
  | typeText (text : Json)
  | key (combo : Json)
  | click (button : Json)
  | scroll (amount horizontal : Json)

inductive Op where
  | tool (tool : Tool)
  | input (input : Input)
  | activeWindow
  | dispatch (cmd : String)
  | isAllowed (window : Window)
  | isStopped
  | unlinkFlag
  | checkLimit (kind : String)
  | seqStart (run : RunId)
  | seqNext (run : RunId)
  | seqPop (run : RunId)
  | store (run : RunId) (write : StoreWrite)
  | auditAppend (run : RunId) (entry : Dict)
  | publish (run : RunId) (message : Dict)
  | getBrain (name : String)
  | createTask (run : RunId) (kind : RunKind) (task : String) (brain : Brain)
  | enterTimeout (run : RunId) (timeout : Seconds)
  | leaveTimeout (run : RunId)

-- `leaveTimeout` answers whether a cancellation seen inside was the timeout's own.
abbrev Op.Res : Op → Type
  | .tool asked => asked.Res
  | .activeWindow => Option Window
  | .dispatch _ => String
  | .isAllowed _ => Bool
  | .isStopped => Bool
  | .checkLimit _ => Bool
  | .seqNext _ => Nat
  | .getBrain _ => Brain
  | .leaveTimeout _ => Bool
  | .store _ write => write.Res
  | _ => Unit

def Op.suspends : Op → Bool
  | .tool asked => asked.suspends
  | .input _ | .activeWindow | .dispatch _ | .store _ _ | .auditAppend _ _ => true
  | _ => false

def Op.owner : Op → Option RunId
  | .seqStart run | .seqNext run | .seqPop run | .store run _ | .auditAppend run _ | .publish run _
  | .createTask run _ _ _ | .enterTimeout run _ | .leaveTimeout run => some run
  | _ => none

abbrev effects : Signature := ⟨Op,Op.Res,Exc⟩

abbrev Async (α : Type) := Prog effects α

def perform (op : Op) : Async op.Res := Prog.perform (S:=effects) op

def ask (tool : Tool) : Async tool.Res := Prog.perform (S:=effects) (.tool tool)

def raise (exc : Exc) : Async α := .raise exc

def tryCatch (first : Async α) (handler : Exc → Async α) : Async α := Prog.tryCatch first handler

def tryFinally (first : Async α) (cleanup : Async Unit) : Async α := Prog.tryFinally first cleanup

def ofExcept (result : Except Exc α) : Async α := Prog.ofExcept (S:=effects) result

-- `params[key]`
def item (params : Dict) (key : String) : Async Json :=
  match params.lookup key with
  | some value => pure value
  | none => raise (.other ("'" ++ key ++ "'"))

-- `params.get(key, default)`
def get (params : Dict) (key : String) (default : Json) : Json := (params.lookup key).getD default

-- `float(value)` and `int(value)`, which raise with a text of their own.
def convert : Except String α → Async α
  | .ok value => pure value
  | .error text => raise (.other text)

def expectStr : Json → Async String
  | .str text => pure text
  | _ => raise (.other "a string was expected")

-- Injected into the orchestrator to decouple it from storage.
structure RunContext where
  runId : RunId
  emitFn : String → Dict → Async Unit

def RunContext.emit (ctx : RunContext) (kind : String) (payload : Dict) : Async Unit :=
  ctx.emitFn kind payload

end HyprlandAgent
