import HyprlandAgent.Coroutine.Monitor
import HyprlandAgent.Daemon.Rehearsal
import HyprlandAgent.Daemon.Wrapping

-- The processes that a run creates for its terminal actions: what may be done to one
-- at which point, and what becomes of each.
namespace HyprlandAgent
open Coroutine Orchestrator RunExecutor Terminal

-- How far a run is with the process it created: it waits for the command, it gave that
-- up, it asked the process to end, that took too long as well, it killed it.
inductive Stage where
  | running
  | late
  | terminated
  | overdue
  | killed
  deriving DecidableEq

-- `ended` are those that were reported to be gone; `lost` are those that an error took
-- out of the run's hands before they were.
structure Children where
  child : Option (Process × Stage) := none
  ended : List Process := []
  lost : List Process := []
  decided : List Action := []

namespace Children

def moved (c : Children) (stage : Stage) : Children := { c with child := c.child.map fun held => (held.1,stage) }

def reaped (c : Children) : Children :=
  { c with child := none, ended := c.ended ++ (c.child.map Prod.fst).toList }

def forsaken (c : Children) : Children :=
  { c with child := none, lost := c.lost ++ (c.child.map Prod.fst).toList }

def failed (c : Children) (exc : Exc) : Children :=
  match c.child,exc with
  | some (_,.running),.timeout | some (_,.running),.cancelled => c.moved .late
  | some (_,.terminated),.timeout => c.moved .overdue
  | _,_ => c.forsaken

def signalled (c : Children) (stage : Stage) : Except Exc Unit → Children
  | .ok _ => c.moved stage
  | .error (.processLookup _) => c.reaped
  | .error _ => c.forsaken

def noteTool (c : Children) : (asked : Tool) → Except Exc asked.Res → Children
  | .createSubprocessExec _,.ok proc => { c with child := some (proc,.running) }
  | .createSubprocessShell _ _,.ok proc => { c with child := some (proc,.running) }
  | .returncode _,.ok code => if code.isSome then c.reaped else c
  | .returncode _,.error _ => c.forsaken
  | .procWait _ _,.ok _ => c.reaped
  | .procWait _ _,.error exc => c.failed exc
  | .procCommunicate _ _ _,.ok _ => c.reaped
  | .procCommunicate _ _ _,.error exc => c.failed exc
  | .killpg _ signal,reply => c.signalled (if signal = "SIGTERM" then .terminated else .killed) reply
  | .kill _,reply => c.signalled .killed reply
  | .decide _ _ _ _,.ok actions => { c with decided := c.decided ++ actions }
  | _,_ => c

def note (c : Children) (asked : Asked effects) : Children :=
  match asked.op,asked.reply with
  | .tool tool,reply => c.noteTool tool reply
  | _,_ => c

-- One process at a time, and only that one is waited for or signalled: asked to end
-- after the command was given up, given two seconds, and killed after these.
def Allows (c : Children) : Op → Prop
  | .tool (.createSubprocessExec _) | .tool (.createSubprocessShell _ _) => c.child = none
  | .tool (.killpg proc signal) =>
    (signal = "SIGTERM" ∧ c.child = some (proc,.late)) ∨ (signal = "SIGKILL" ∧ c.child = some (proc,.overdue))
  | .tool (.kill proc) => c.child = some (proc,.late)
  | .tool (.procWait proc timeout) =>
    ∃ stage, c.child = some (proc,stage) ∧ (stage = .terminated → timeout = some 2)
  | .tool (.procCommunicate proc _ _) => c.child = some (proc,.running)
  | .tool (.returncode proc) => c.child = none ∨ c.child = some (proc,.late)
  | _ => True

end Children

def tender : Coroutine.Monitor effects Children := ⟨{},Children.note,Children.Allows⟩

def Op.aside : Op → Bool
  | .tool (.createSubprocessExec _) | .tool (.createSubprocessShell _ _) | .tool (.returncode _)
  | .tool (.killpg _ _) | .tool (.kill _) | .tool (.procWait _ _) | .tool (.procCommunicate _ _ _)
  | .tool (.decide _ _ _ _) => false
  | _ => true

abbrev Op.Aside (op : Op) : Prop := op.aside = true

-- A headless command whose input is no text, which fails only after the command started.
def Action.unencodable (action : Action) : Bool :=
  let stdin := get action.params "stdin" .null
  action.kind == .terminalCommand && !(get action.params "visible" (.bool true)).truthy &&
    stdin != .null && !(match stdin with | .str _ => true | _ => false)

namespace Children

def Free (decided : List Action) (c : Children) : Prop :=
  c.child = none ∧ c.lost = [] ∧ c.decided = decided

def At (decided : List Action) (proc : Process) (stage : Stage) (c : Children) : Prop :=
  c.child = some (proc,stage) ∧ c.lost = [] ∧ c.decided = decided

def Over (c : Children) : Prop :=
  (c.child = none ∧ c.lost.length ≤ 1) ∨
    (c.lost = [] ∧ (∃ proc, c.child = some (proc,.running)) ∧ ∃ action ∈ c.decided, action.unencodable = true)

variable {c : Children} {decided : List Action} {proc : Process} {stage : Stage}

theorem Free.over (free : c.Free decided) : c.Over := .inl ⟨free.1,by simp [free.2.1]⟩

theorem allows_aside {op : Op} (aside : op.Aside) : c.Allows op := by
  cases op with
  | tool asked => cases asked <;> first | exact absurd aside Bool.false_ne_true | exact True.intro
  | _ => exact True.intro

theorem note_aside {op : Op} (aside : op.Aside) (reply : effects.Reply op) : c.note ⟨op,reply⟩ = c := by
  cases op with
  | tool asked => cases asked <;> first | exact absurd aside Bool.false_ne_true | (cases reply <;> rfl)
  | _ => rfl

theorem At.reaped (at_ : c.At decided proc stage) : c.reaped.Free decided := ⟨rfl,at_.2.1,at_.2.2⟩

theorem Free.forsaken (free : c.Free decided) : c.forsaken.Over := by
  refine .inl ⟨rfl,?_⟩
  unfold Children.forsaken
  rw [free.1,free.2.1]
  exact Nat.zero_le 1

theorem At.moved (at_ : c.At decided proc stage) (next : Stage) : (c.moved next).At decided proc next := by
  refine ⟨?_,at_.2.1,at_.2.2⟩
  unfold Children.moved
  rw [at_.1]
  rfl

theorem At.forsaken (at_ : c.At decided proc stage) : c.forsaken.Over := by
  refine .inl ⟨rfl,?_⟩
  unfold Children.forsaken
  rw [at_.1,at_.2.1]
  exact le_rfl

def Failing (decided : List Action) (proc : Process) : Stage → Exc → Children → Prop
  | .running,.timeout | .running,.cancelled => At decided proc .late
  | .terminated,.timeout => At decided proc .overdue
  | _,_ => Over

def Missing (decided : List Action) : Exc → Children → Prop
  | .processLookup _ => Free decided
  | _ => Over

theorem At.failing (at_ : c.At decided proc stage) (exc : Exc) : Failing decided proc stage exc (c.failed exc) := by
  unfold Children.failed
  rw [at_.1]
  cases stage <;> cases exc <;> first | exact at_.moved _ | exact at_.forsaken

end Children

section
variable {h : Host} {run : RunId} {P : Children → Prop} {decided : List Action} {proc : Process} {stage : Stage}
  {action : Action}

theorem aside_keeps {p : Async α} (all : p.All Op.Aside) : tender.Watched P p fun _ => P := by
  refine Coroutine.Monitor.watched_along all (fun op aside s _ => Children.allows_aside aside) ?_
  intro op aside s reply holds
  rw [show tender.note s ⟨op,reply⟩ = s from Children.note_aside aside reply]
  exact holds

theorem free_keeps {p : Async α} (all : p.All Op.Aside) : tender.Watched (Children.Free decided) p
    (ending (fun _ => Children.Free decided) fun _ => Children.Over) := by
  refine (aside_keeps all).mono ?_
  intro result c free
  cases result with
  | ok value => exact free
  | error exc => exact free.over

theorem free_then {ok : β → Children → Prop} {p : Async α} {next : α → Async β} (all : p.All Op.Aside)
    (second : ∀ value, tender.Watched (Children.Free decided) (next value) (ending ok fun _ => Children.Over)) :
    tender.Watched (Children.Free decided) (p >>= next) (ending ok fun _ => Children.Over) :=
  Triple.seq (free_keeps all) second

theorem free_ends {p : Async α} {next : α → Async β} (all : p.All Op.Aside)
    (second : ∀ value, tender.Watched (Children.Free decided) (next value) fun _ => Children.Over) :
    tender.Watched (Children.Free decided) (p >>= next) fun _ => Children.Over :=
  Triple.bind (free_keeps all) second

theorem emission_aside (kind : String) (payload : Dict) : ((contextOf h run).emit kind payload).All Op.Aside := by
  refine Prog.All.bind (.perform rfl) fun seq => .bind (.perform rfl) fun ts => .bind (.perform rfl) fun _ => ?_
  refine .bind ?_ fun _ => .perform rfl
  unfold audit
  split
  · exact .perform rfl
  · exact .pure _

theorem killThen_tended {signal : String} {next : Stage} {rest : Async Unit}
    (allowed : ∀ c : Children, c.At decided proc stage → c.Allows (.tool (.killpg proc signal)))
    (named : (if signal = "SIGTERM" then Stage.terminated else .killed) = next)
    (second : tender.Watched (Children.At decided proc next) rest
      (ending (fun _ => Children.Free decided) fun _ => Children.Over)) :
    tender.Watched (Children.At decided proc stage) (killThen (ask (.killpg proc signal)) rest)
      (ending (fun _ => Children.Free decided) fun _ => Children.Over) := by
  have signalled : tender.Watched (Children.At decided proc stage) (ask (.killpg proc signal))
      (ending (fun _ => Children.At decided proc next) (Children.Missing decided)) := by
    refine Coroutine.Monitor.watched_perform allowed fun c reply at_ => ?_
    cases reply with
    | ok value =>
      show (c.moved (if signal = "SIGTERM" then Stage.terminated else .killed)).At decided proc next
      rw [named]
      exact at_.moved next
    | error exc => cases exc <;> first | exact at_.reaped | exact at_.forsaken
  refine Triple.settle signalled fun result => ?_
  cases result with
  | ok value => exact second
  | error exc => cases exc <;> first | exact Triple.pure fun _ free => free | exact Triple.raise fun _ gone => gone

theorem wait_tended {timeout : Option Seconds} (allowed : stage = .terminated → timeout = some 2) :
    tender.Watched (Children.At decided proc stage) (ask (.procWait proc timeout))
      (ending (fun _ => Children.Free decided) (Children.Failing decided proc stage)) := by
  refine Coroutine.Monitor.watched_perform (fun c at_ => ⟨stage,at_.1,allowed⟩) fun c reply at_ => ?_
  cases reply with
  | ok code => exact at_.reaped
  | error exc => exact at_.failing exc

theorem waitKilled_tended : tender.Watched (Children.At decided proc .killed) (ask (.procWait proc none))
    (ending (fun _ => Children.Free decided) fun _ => Children.Over) := by
  refine Triple.relax (fun _ _ free => free) ?_ (wait_tended fun same => by cases same)
  intro exc c failing
  cases exc <;> exact failing

theorem terminateProcess_tended : tender.Watched (Children.At decided proc .late) (terminateProcess proc)
    (ending (fun _ => Children.Free decided) fun _ => Children.Over) := by
  have looked : tender.Watched (Children.At decided proc .late) (ask (.returncode proc))
      (ending (fun code c => if code.isSome = true then c.Free decided else c.At decided proc .late)
        fun _ => Children.Over) := by
    refine Coroutine.Monitor.watched_perform ?_ fun c reply at_ => ?_
    · exact fun c at_ => .inr at_.1
    · cases reply with
      | error exc => exact at_.forsaken
      | ok code =>
        cases code with
        | none => exact at_
        | some code => exact at_.reaped
  refine Triple.bind looked fun code => ?_
  dsimp only
  split
  · exact Triple.pure fun _ free => free
  · refine killThen_tended (fun c at_ => .inl ⟨rfl,at_.1⟩) rfl ?_
    refine Triple.tryCatch (Triple.seq (wait_tended fun _ => rfl) fun _ => Triple.pure fun _ free => free) fun exc => ?_
    cases exc with
    | timeout =>
      refine killThen_tended (fun c at_ => .inr ⟨rfl,at_.1⟩) rfl ?_
      exact Triple.bind waitKilled_tended fun _ => Triple.pure fun _ free => free
    | _ => exact Triple.raise fun _ gone => gone

theorem createExec_tended (argv : List String) :
    tender.Watched (Children.Free decided) (ask (.createSubprocessExec argv))
      (ending (fun proc => Children.At decided proc .running) fun _ => Children.Over) := by
  refine Coroutine.Monitor.watched_perform (fun c free => free.1) fun c reply free => ?_
  cases reply with
  | ok proc => exact ⟨rfl,free.2⟩
  | error exc => exact free.over

theorem createShell_tended (command : String) (stdin : Bool) :
    tender.Watched (Children.Free decided) (ask (.createSubprocessShell command stdin))
      (ending (fun proc => Children.At decided proc .running) fun _ => Children.Over) := by
  refine Coroutine.Monitor.watched_perform (fun c free => free.1) fun c reply free => ?_
  cases reply with
  | ok proc => exact ⟨rfl,free.2⟩
  | error exc => exact free.over

theorem told_tended {kind : String} {payload : Dict} {exc : Exc} :
    tender.Watched (Children.Free decided) (do
        emitIf (some (contextOf h run).emit) kind payload
        (raise exc : Async α))
      (ending (fun _ => Children.Free decided) fun _ => Children.Over) := by
  refine free_then (emission_aside _ _) fun _ => ?_
  exact Triple.raise fun _ free => free.over

theorem runVisible_tended (command : String) (runId : RunId) (timeout holdS : Seconds) :
    tender.Watched (Children.Free decided)
      (runVisible h command runId (some (contextOf h run).emit) timeout holdS)
      (ending (fun _ => Children.Free decided) fun _ => Children.Over) := by
  unfold runVisible
  refine free_then (emission_aside _ _) fun _ => ?_
  refine Triple.bind (createExec_tended _) fun proc => ?_
  refine Triple.seq (Triple.caught (wait_tended fun same => by cases same) fun exc => ?_) fun code => ?_
  · cases exc with
    | timeout => exact Triple.bind terminateProcess_tended fun _ => told_tended
    | cancelled => exact Triple.bind terminateProcess_tended fun _ => told_tended
    | _ => exact Triple.raise fun _ gone => gone
  refine free_then (emission_aside _ _) fun _ => ?_
  dsimp only
  split
  · exact Triple.raise fun _ free => free.over
  · exact Triple.pure fun _ free => free

theorem kill_tended : tender.Watched (Children.At decided proc .late) (ask (.kill proc))
    (ending (fun _ => Children.At decided proc .killed) fun _ => Children.Over) := by
  refine Coroutine.Monitor.watched_perform (fun c at_ => at_.1) fun c reply at_ => ?_
  cases reply with
  | ok value => exact at_.moved .killed
  | error exc => cases exc <;> first | exact at_.reaped.over | exact at_.forsaken

theorem communicate_tended {stdin : Json} (timeout : Seconds)
    (input : stdin = .null ∨ (∃ text, stdin = .str text) ∨ ∃ action ∈ decided, action.unencodable = true) :
    tender.Watched (Children.At decided proc .running)
      (if stdin == .null then ask (.procCommunicate proc none timeout)
        else do ask (.procCommunicate proc (some (h.encode (← expectStr stdin))) timeout))
      (ending (fun _ => Children.Free decided) (Children.Failing decided proc .running)) := by
  have communicated (bytes : Option Bytes) :
      tender.Watched (Children.At decided proc .running) (ask (.procCommunicate proc bytes timeout))
        (ending (fun _ => Children.Free decided) (Children.Failing decided proc .running)) := by
    refine Coroutine.Monitor.watched_perform (fun c at_ => at_.1) fun c reply at_ => ?_
    cases reply with
    | ok output => exact at_.reaped
    | error exc => exact at_.failing exc
  split
  · exact communicated none
  · rename_i present
    unfold expectStr
    split
    · exact communicated _
    · rename_i notText
      refine Triple.raise fun c at_ => .inr ⟨at_.2.1,⟨proc,at_.1⟩,?_⟩
      rcases input with null | ⟨text,string⟩ | odd
      · exact absurd (beq_iff_eq.mpr null) present
      · exact absurd string (notText text)
      · exact at_.2.2.symm ▸ odd

theorem runCapture_tended (command : String) (runId : RunId) (timeout : Seconds) (captureCap : Nat) {stdin : Json}
    (input : stdin = .null ∨ (∃ text, stdin = .str text) ∨ ∃ action ∈ decided, action.unencodable = true) :
    tender.Watched (Children.Free decided)
      (runCapture h command runId (some (contextOf h run).emit) timeout captureCap stdin)
      (ending (fun _ => Children.Free decided) fun _ => Children.Over) := by
  unfold runCapture
  refine free_then (emission_aside _ _) fun _ => ?_
  refine Triple.bind (createShell_tended _ _) fun proc => ?_
  refine Triple.seq (Triple.caught (communicate_tended _ input) fun exc => ?_) fun output => ?_
  · cases exc with
    | timeout => exact Triple.bind kill_tended fun _ => Triple.bind waitKilled_tended fun _ => told_tended
    | cancelled => exact Triple.bind kill_tended fun _ => Triple.bind waitKilled_tended fun _ => told_tended
    | _ => exact Triple.raise fun _ gone => gone
  have code : tender.Watched (Children.Free decided) (ask (.returncode proc))
      (ending (fun _ => Children.Free decided) fun _ => Children.Over) := by
    refine Coroutine.Monitor.watched_perform ?_ fun c reply free => ?_
    · exact fun c free => .inl free.1
    · cases reply with
      | ok code =>
        cases code with
        | none => exact free
        | some code => exact ⟨rfl,free.2⟩
      | error exc => exact free.forsaken
  refine Triple.bind code fun code => ?_
  refine free_then (emission_aside _ _) fun _ => ?_
  dsimp only
  split
  · exact Triple.raise fun _ free => free.over
  · exact Triple.pure fun _ free => free

theorem item_aside (params : Dict) (key : String) : (item params key).All Op.Aside := by
  unfold item
  split
  · exact .pure _
  · exact .raise _

theorem expectStr_aside (value : Json) : (expectStr value).All Op.Aside := by
  unfold expectStr
  split
  · exact .pure _
  · exact .raise _

theorem convert_aside (result : Except String α) : (convert result).All Op.Aside := by
  unfold convert
  split
  · exact .pure _
  · exact .raise _

theorem confirmIf_aside (destructive : Bool) (prompt : String) : (confirmIf destructive prompt).All Op.Aside := by
  unfold confirmIf
  split
  · exact .perform rfl
  · exact .pure _

theorem caught_aside {p : Async α} {handler : Exc → Async α} (first : p.All Op.Aside)
    (second : ∀ exc, (handler exc).All Op.Aside) : (tryCatch p handler).All Op.Aside := by
  refine .settle first fun result => ?_
  cases result with
  | ok value => exact .pure _
  | error exc => exact second exc

theorem blockedBy_aside (kind : ActionKind) (exc : Exc) : (blockedBy kind exc).All Op.Aside := by
  cases exc <;> first | exact .pure _ | exact .raise _

theorem keyboard_aside (kind : ActionKind) (params : Dict) (key : String) (input : Json → Input) :
    (keyboard h kind params (some (contextOf h run)) key input).All Op.Aside := by
  have found : (focusedControlTerminal h).All Op.Aside := by
    refine .bind (.perform rfl) fun active => ?_
    cases active with
    | none => exact .pure _
    | some window =>
      dsimp only
      split
      · exact .pure _
      · refine .bind (.perform rfl) fun inside => ?_
        split
        · exact .pure _
        · exact .pure _
  have safe : (ensureKeyboardTargetIsSafe h (some (contextOf h run))).All Op.Aside := by
    refine .bind found fun active => ?_
    cases active with
    | none => exact .pure _
    | some window => exact .bind (emission_aside _ _) fun _ => .pure _
  refine .bind safe fun clear => ?_
  split
  · exact .pure _
  · exact .bind (item_aside _ _) fun _ => .bind (.perform rfl) fun _ => .pure _

theorem dispatchCommand_aside (params : Dict) : (dispatchCommand h params).All Op.Aside := by
  refine .bind (item_aside _ _) fun value => .bind (expectStr_aside _) fun cmd => ?_
  refine .bind (confirmIf_aside _ _) fun agreed => ?_
  split
  · exact .pure _
  · exact .bind (.perform rfl) fun _ => .pure _

theorem writeFile_aside (params : Dict) : (writeFile params).All Op.Aside := by
  refine .bind (item_aside _ _) fun value => .bind (expectStr_aside _) fun path => ?_
  refine .bind (.perform rfl) fun there => .bind (confirmIf_aside _ _) fun agreed => ?_
  split
  · exact .pure _
  · refine caught_aside (.bind (item_aside _ _) fun _ => .bind (.perform rfl) fun _ => .pure _) fun exc => ?_
    cases exc <;> first | exact .pure _ | exact .raise _

theorem integrate_aside (action : Action) (appState : Option AgentConfig) :
    (integrate action appState).All Op.Aside := by
  unfold integrate
  split
  · exact .pure _
  · refine .bind (.perform rfl) fun handled => ?_
    cases handled with
    | none => exact .pure _
    | some handled => exact .pure _

theorem performAction_aside (other : action.kind ≠ .terminalCommand) (appState : Option AgentConfig) :
    (performAction h action (some (contextOf h run)) appState).All Op.Aside := by
  unfold performAction
  dsimp only
  cases kind : action.kind with
  | terminalCommand => exact absurd kind other
  | screenshot => exact .pure _
  | typeText => exact keyboard_aside _ _ _ _
  | key => exact keyboard_aside _ _ _ _
  | mouseMove =>
    refine .bind (item_aside _ _) fun _ => .bind (item_aside _ _) fun _ => ?_
    exact .bind (.perform rfl) fun _ => .pure _
  | click => exact .bind (.perform rfl) fun _ => .pure _
  | scroll => exact .bind (item_aside _ _) fun _ => .bind (.perform rfl) fun _ => .pure _
  | focusWindow => exact .bind (item_aside _ _) fun _ => .bind (.perform rfl) fun _ => .pure _
  | dispatch => exact dispatchCommand_aside _
  | readFile =>
    refine caught_aside ?_ (blockedBy_aside _)
    refine .bind (item_aside _ _) fun _ => .bind (convert_aside _) fun _ => .bind (convert_aside _) fun _ => ?_
    exact .bind (.perform rfl) fun _ => .pure _
  | writeFile => exact writeFile_aside _
  | listDir =>
    refine caught_aside ?_ (blockedBy_aside _)
    exact .bind (item_aside _ _) fun _ => .bind (.perform rfl) fun _ => .pure _
  | clipboardRead => exact .bind (.perform rfl) fun _ => .pure _
  | clipboardWrite => exact .bind (item_aside _ _) fun _ => .bind (.perform rfl) fun _ => .pure _
  | notify => exact integrate_aside _ _
  | updateStatus => exact integrate_aside _ _
  | speak => exact integrate_aside _ _

theorem buildState_aside (task : String) : (buildState task (some (contextOf h run))).All Op.Aside := by
  refine .bind (.bind (.perform rfl) fun _ => .perform rfl) fun _ => .bind (emission_aside _ _) fun _ =>
    .bind (.perform rfl) fun active => ?_
  have seen : Prog.All (S:=effects) Op.Aside (do
      let png ← ask .screenFull
      let mon ← ask .activeMonitor
      let width := (mon.map HyprlandAgent.Monitor.width).getD 1920
      let height := (mon.map HyprlandAgent.Monitor.height).getD 1080
      let wins ← ask .clients
      emit (some (contextOf h run)) "state" (dict [("active",(active.map Window.modelDump).getD .null)])
      return ((⟨png,width,height,active,wins⟩ : ScreenState),true)) :=
    .bind (.perform rfl) fun _ => .bind (.perform rfl) fun _ => .bind (.perform rfl) fun _ =>
      .bind (emission_aside _ _) fun _ => .pure _
  cases active with
  | none => exact seen
  | some window =>
    refine .bind (.perform rfl) fun allowed => ?_
    split
    · exact .bind (emission_aside _ _) fun _ => .pure _
    · exact seen

theorem verify_aside (preHash : Option String) (result : ActionResult) : (verify h preHash result).All Op.Aside := by
  unfold verify
  split
  · exact .pure _
  · refine caught_aside (.bind (.perform rfl) fun png => ?_) fun exc => ?_
    · split
      · exact .pure _
      · exact .pure _
    · split
      · exact .raise _
      · exact .pure _

theorem runCommand_tended (command : String) (runId : RunId) (holdS : Seconds) (visible : Bool) (captureCap : Nat)
    {stdin : Json} (input : visible = true ∨ stdin = .null ∨ (∃ text, stdin = .str text) ∨
      ∃ action ∈ decided, action.unencodable = true) :
    tender.Watched (Children.Free decided)
      (runCommand h command runId (some (contextOf h run).emit) holdS visible captureCap stdin)
      (ending (fun _ => Children.Free decided) fun _ => Children.Over) := by
  unfold runCommand
  split
  · exact runVisible_tended _ _ _ _
  · rename_i headless
    rcases input with shown | input
    · exact absurd shown headless
    · exact runCapture_tended _ _ _ _ input

theorem terminalCommand_tended (kind : action.kind = .terminalCommand) (known : action ∈ decided)
    (appState : Option AgentConfig) :
    tender.Watched (Children.Free decided) (terminalCommand h action.params (some (contextOf h run)) appState)
      (ending (fun _ => Children.Free decided) fun _ => Children.Over) := by
  have input : (get action.params "visible" (.bool true)).truthy = true ∨ get action.params "stdin" .null = .null ∨
      (∃ text, get action.params "stdin" .null = .str text) ∨ ∃ action ∈ decided, action.unencodable = true := by
    cases shown : (get action.params "visible" (.bool true)).truthy with
    | true => exact .inl rfl
    | false =>
      cases given : get action.params "stdin" .null with
      | null => exact .inr (.inl rfl)
      | str text => exact .inr (.inr (.inl ⟨text,rfl⟩))
      | _ => exact .inr (.inr (.inr ⟨action,known,by simp [Action.unencodable,kind,shown,given]⟩))
  unfold terminalCommand
  refine free_then (item_aside _ _) fun value => ?_
  refine free_then (expectStr_aside _) fun command => ?_
  split
  split
  · exact Triple.pure fun _ free => free
  · refine free_then (convert_aside _) fun holdS => ?_
    exact Triple.seq (runCommand_tended _ _ _ _ _ input) fun output => Triple.pure fun _ free => free

theorem executeAction_tended (known : action ∈ decided) (appState : Option AgentConfig) :
    tender.Watched (Children.Free decided) (executeAction h action (some (contextOf h run)) appState)
      (ending (fun _ => Children.Free decided) fun _ => Children.Over) := by
  have configured : (configureLimiter appState).All Op.Aside := by
    unfold configureLimiter
    split
    · refine .bind (.perform rfl) fun configured => ?_
      split
      · exact .perform rfl
      · exact .pure _
    · exact .pure _
  have performed : tender.Watched (Children.Free decided) (performAction h action (some (contextOf h run)) appState)
      (ending (fun _ => Children.Free decided) fun _ => Children.Over) := by
    by_cases kind : action.kind = .terminalCommand
    · unfold performAction
      dsimp only
      rw [kind]
      exact terminalCommand_tended kind known appState
    · exact free_keeps (performAction_aside kind appState)
  unfold executeAction
  refine free_then configured fun _ => ?_
  refine free_then (.perform rfl) fun allowed => ?_
  split
  · exact Triple.pure fun _ free => free
  · exact performed

theorem runActions_tended (state : ScreenState) (appState : Option AgentConfig) (detector : LoopDetector)
    (actions : List Action) (known : ∀ action ∈ actions, action ∈ decided) :
    tender.Watched (Children.Free decided)
      (runActions h state (some (contextOf h run)) appState detector actions) fun _ => Children.Over := by
  induction actions generalizing detector with
  | nil => exact (aside_keeps (emission_aside _ _)).mono fun _ _ free => free.over
  | cons action rest ih =>
    unfold runActions
    refine free_ends (.perform rfl) fun stopped => ?_
    cases stopped with
    | true =>
      refine free_ends (emission_aside _ _) fun _ => ?_
      exact Triple.pure fun _ free => free.over
    | false =>
      refine free_ends (emission_aside _ _) fun _ => ?_
      refine Triple.bind (executeAction_tended (known action List.mem_cons_self) appState) fun result => ?_
      refine free_ends (verify_aside _ _) fun result => ?_
      refine free_ends ?_ fun _ => ?_
      · unfold reportResult
        split
        · exact emission_aside _ _
        · exact .pure _
      · dsimp only
        split
        · refine free_ends (emission_aside _ _) fun _ => ?_
          exact Triple.raise fun _ free => free.over
        · refine free_ends (.perform rfl) fun _ => ?_
          exact ih _ fun other inside => known other (List.mem_cons_of_mem _ inside)

theorem decide_tended (brain : Brain) (state : ScreenState) (task : String) (context : BrainContext) :
    tender.Watched (Children.Free []) (ask (.decide brain state task context))
      (ending (fun actions => Children.Free actions) fun _ => Children.Over) := by
  refine Coroutine.Monitor.watched_perform (fun _ _ => trivial) fun c reply free => ?_
  cases reply with
  | ok actions =>
    refine ⟨free.1,free.2.1,?_⟩
    show c.decided ++ actions = actions
    rw [free.2.2]
    rfl
  | error exc => exact free.over

theorem run_tended (task : String) (brain : Brain) (appState : Option AgentConfig) :
    tender.Watched (Children.Free []) (Orchestrator.run h task brain (some (contextOf h run)) appState)
      fun _ => Children.Over := by
  unfold Orchestrator.run
  refine free_ends (buildState_aside task) fun built => ?_
  dsimp only
  split
  · exact Triple.pure fun _ free => free.over
  · refine free_ends (.perform rfl) fun stopped => ?_
    split
    · refine free_ends (emission_aside _ _) fun _ => ?_
      exact Triple.pure fun _ free => free.over
    · refine free_ends (.perform rfl) fun context => ?_
      refine Triple.bind (decide_tended _ _ _ _) fun actions => ?_
      refine free_ends (.perform rfl) fun stopped => ?_
      split
      · refine free_ends (emission_aside _ _) fun _ => ?_
        exact Triple.pure fun _ free => free.over
      · refine free_ends (emission_aside _ _) fun _ => ?_
        exact runActions_tended _ _ _ _ fun _ inside => inside

theorem recordActions_aside (actions : List Action) :
    (recordActions (some (contextOf h run)) actions).All Op.Aside := by
  induction actions with
  | nil => exact .pure _
  | cons action rest ih => exact .bind (emission_aside _ _) fun _ => ih

theorem plan_tended (task : String) (brain : Brain) (appState : Option AgentConfig) :
    tender.Watched (Children.Free []) (plan task brain (some (contextOf h run)) appState) fun _ => Children.Over := by
  unfold plan
  refine free_ends (buildState_aside task) fun built => ?_
  dsimp only
  split
  · exact Triple.pure fun _ free => free.over
  · refine free_ends (.perform rfl) fun stopped => ?_
    split
    · refine free_ends (emission_aside _ _) fun _ => ?_
      exact Triple.pure fun _ free => free.over
    · refine free_ends (.perform rfl) fun context => ?_
      refine Triple.bind (decide_tended _ _ _ _) fun actions => ?_
      refine free_ends (emission_aside _ _) fun _ => ?_
      refine free_ends (recordActions_aside actions) fun _ => ?_
      exact (aside_keeps (emission_aside _ _)).mono fun _ _ free => free.over

theorem runTask_tended (kind : RunKind) (task : String) (brain : Brain) :
    tender.Watched (Children.Free []) (runTask h run kind task brain) fun _ => Children.Over := by
  have books (op : Op) (books : Bookkeeping run op) :
      tender.Watched Children.Over (perform op) fun _ => Children.Over := by
    refine aside_keeps (.perform ?_)
    cases books <;> rfl
  refine runTask_around books (free_keeps (.perform rfl)) (free_keeps (.perform rfl)) ?_
  cases kind with
  | plan => exact plan_tended task brain _
  | run => exact run_tended task brain _

end

def createdBy (asked : Asked effects) : Option Process :=
  match asked.op,asked.reply with
  | .tool (.createSubprocessExec _),.ok proc => some proc
  | .tool (.createSubprocessShell _ _),.ok proc => some proc
  | _,_ => none

namespace Children
variable {c : Children} {exc : Exc}

def held (c : Children) : List Process := c.ended ++ c.lost ++ (c.child.map Prod.fst).toList

theorem held_moved (stage : Stage) : (c.moved stage).held = c.held := by
  unfold held moved
  rw [Option.map_map]
  rfl

theorem held_reaped : c.reaped.held.Perm c.held := by
  unfold held reaped
  rw [Option.map_none,Option.toList_none,List.append_nil,List.append_assoc,List.append_assoc]
  exact List.perm_append_comm.append_left _

theorem held_forsaken : c.forsaken.held = c.held := by
  unfold held forsaken
  rw [Option.map_none,Option.toList_none,List.append_nil,List.append_assoc]

theorem held_failed (exc : Exc) : (c.failed exc).held = c.held := by
  unfold failed
  split
  · exact held_moved _
  · exact held_moved _
  · exact held_moved _
  · exact held_forsaken

theorem held_signalled (stage : Stage) (reply : Except Exc Unit) : (c.signalled stage reply).held.Perm c.held := by
  unfold signalled
  split
  · exact .of_eq (held_moved _)
  · exact held_reaped
  · exact .of_eq held_forsaken

theorem held_note (asked : Asked effects) (allowed : c.Allows asked.op) :
    (c.note asked).held.Perm (c.held ++ (createdBy asked).toList) := by
  have created (proc : Process) (free : c.child = none) :
      held { c with child := some (proc,.running) } = c.held ++ [proc] := by
    unfold held
    rw [free,Option.map_none,Option.toList_none,List.append_nil]
    rfl
  have other (next : Children) (same : next.held.Perm c.held) :
      next.held.Perm (c.held ++ (none : Option Process).toList) := by
    rw [Option.toList_none,List.append_nil]
    exact same
  obtain ⟨op,reply⟩ := asked
  cases op with
  | tool tool =>
    cases tool with
    | createSubprocessExec argv =>
      cases reply with
      | ok proc => exact .of_eq (created proc allowed)
      | error exc => exact other c (.refl _)
    | createSubprocessShell command stdin =>
      cases reply with
      | ok proc => exact .of_eq (created proc allowed)
      | error exc => exact other c (.refl _)
    | returncode proc =>
      cases reply with
      | ok code =>
        cases code with
        | none => exact other c (.refl _)
        | some code => exact other _ held_reaped
      | error exc => exact other _ (.of_eq held_forsaken)
    | procWait proc timeout =>
      cases reply with
      | ok code => exact other _ held_reaped
      | error exc => exact other _ (.of_eq (held_failed exc))
    | procCommunicate proc input timeout =>
      cases reply with
      | ok output => exact other _ held_reaped
      | error exc => exact other _ (.of_eq (held_failed exc))
    | killpg proc signal => exact other _ (held_signalled _ reply)
    | kill proc => exact other _ (held_signalled _ reply)
    | _ => cases reply <;> exact other _ (.refl _)
  | _ => exact other c (.refl _)

-- An error that came while the process was being ended, or that no wait is known to end
-- with.
def Loses (c : Children) (asked : Asked effects) (proc : Process) : Prop :=
  ∃ stage exc, c.child = some (proc,stage) ∧ asked.reply = .error exc ∧
    (stage = .running → exc ≠ .timeout ∧ exc ≠ .cancelled)

theorem lost_forsaken {proc : Process} (inside : proc ∈ c.forsaken.lost) :
    proc ∈ c.lost ∨ ∃ stage, c.child = some (proc,stage) := by
  rcases List.mem_append.mp inside with before | new
  · exact .inl before
  · rw [Option.mem_toList] at new
    obtain ⟨⟨held,stage⟩,present,rfl⟩ := Option.map_eq_some_iff.mp new
    exact .inr ⟨stage,present⟩

theorem lost_failed {proc : Process} (inside : proc ∈ (c.failed exc).lost) :
    proc ∈ c.lost ∨ ∃ stage, c.child = some (proc,stage) ∧ (stage = .running → exc ≠ .timeout ∧ exc ≠ .cancelled) := by
  unfold failed at inside
  split at inside
  · exact .inl inside
  · exact .inl inside
  · exact .inl inside
  · rename_i untimed uncancelled _
    refine (lost_forsaken inside).imp_right ?_
    rintro ⟨stage,present⟩
    refine ⟨stage,present,?_⟩
    rintro rfl
    exact ⟨untimed _ present,uncancelled _ present⟩

theorem lost_signalled {proc : Process} {stage : Stage} {reply : Except Exc Unit}
    (inside : proc ∈ (c.signalled stage reply).lost) :
    proc ∈ c.lost ∨ ∃ stage exc, c.child = some (proc,stage) ∧ reply = .error exc := by
  unfold signalled at inside
  split at inside
  · exact .inl inside
  · exact .inl inside
  · refine (lost_forsaken inside).imp_right ?_
    rintro ⟨stage,present⟩
    exact ⟨stage,_,present,rfl⟩

theorem lost_note {asked : Asked effects} (allowed : c.Allows asked.op) {proc : Process}
    (inside : proc ∈ (c.note asked).lost) : proc ∈ c.lost ∨ c.Loses asked proc := by
  have ending_ {stage other : Stage} {same : Process} (held : c.child = some (same,other)) (past : other ≠ .running)
      (present : c.child = some (proc,stage)) : stage ≠ .running :=
    (congrArg Prod.snd (Option.some.inj (present.symm.trans held))).trans_ne past
  obtain ⟨op,reply⟩ := asked
  cases op with
  | tool tool =>
    cases tool with
    | returncode asked =>
      cases reply with
      | ok code => cases code <;> exact .inl inside
      | error exc =>
        refine (lost_forsaken inside).imp_right ?_
        rintro ⟨stage,present⟩
        rcases allowed with free | late
        · cases free.symm.trans present
        · exact ⟨stage,exc,present,rfl,fun running => absurd running (ending_ late (by decide) present)⟩
    | procWait asked timeout =>
      cases reply with
      | ok code => exact .inl inside
      | error exc =>
        refine (lost_failed inside).imp_right ?_
        rintro ⟨stage,present,unforeseen⟩
        exact ⟨stage,exc,present,rfl,unforeseen⟩
    | procCommunicate asked input timeout =>
      cases reply with
      | ok output => exact .inl inside
      | error exc =>
        refine (lost_failed inside).imp_right ?_
        rintro ⟨stage,present,unforeseen⟩
        exact ⟨stage,exc,present,rfl,unforeseen⟩
    | killpg asked signal =>
      refine (lost_signalled inside).imp_right ?_
      rintro ⟨stage,exc,present,failed⟩
      refine ⟨stage,exc,present,failed,fun running => absurd running ?_⟩
      rcases allowed with ⟨_,late⟩ | ⟨_,overdue⟩
      · exact ending_ late (by decide) present
      · exact ending_ overdue (by decide) present
    | kill asked =>
      refine (lost_signalled inside).imp_right ?_
      rintro ⟨stage,exc,present,failed⟩
      exact ⟨stage,exc,present,failed,fun running => absurd running (ending_ allowed (by decide) present)⟩
    | _ => cases reply <;> exact .inl inside
  | _ => exact .inl inside

end Children

def Interrupted (trace : List (Asked effects)) (proc : Process) : Prop :=
  ∃ front asked rest, trace = front ++ asked :: rest ∧ (tender.after front).Loses asked proc

-- What was done to the processes of a run up to some point.
structure Tended (trace : List (Asked effects)) : Prop where
  accepted : tender.Accepts trace
  accounted : (trace.filterMap createdBy).Perm (tender.after trace).held
  interrupted : ∀ proc ∈ (tender.after trace).lost, Interrupted trace proc

theorem Tended.of_accepts {trace : List (Asked effects)} (accepted : tender.Accepts trace) : Tended trace := by
  have kept := accepted.invariant
    (P:=fun front c => c = tender.after front ∧ (front.filterMap createdBy).Perm c.held ∧
      ∀ proc ∈ c.lost, Interrupted front proc) ⟨rfl,.refl _,fun _ inside => absurd inside List.not_mem_nil⟩ ?_
  · exact ⟨accepted,kept.2.1,kept.2.2⟩
  · rintro front asked c ⟨rfl,before,lost⟩ allowed
    refine ⟨(Coroutine.Monitor.after_snoc front asked).symm,?_,?_⟩
    · have one : [asked].filterMap createdBy = (createdBy asked).toList := by
        cases found : createdBy asked <;> simp [found]
      rw [List.filterMap_append,one]
      exact (before.append_right _).trans (Children.held_note asked allowed).symm
    · intro proc inside
      rcases Children.lost_note allowed inside with earlier | now
      · obtain ⟨early,cause,rest,rfl,loses⟩ := lost proc earlier
        exact ⟨early,cause,rest ++ [asked],by rw [List.append_assoc,List.cons_append],loses⟩
      · exact ⟨front,asked,[],rfl,now⟩

section
variable {h : Host} {run : RunId}

def stubborn : (op : effects.Op) → effects.Reply op
  | .tool (.procWait _ (some _)) => .error .timeout
  | op => .ok (HyprlandAgent.calm plainHost
      [{ kind := .terminalCommand, params := dict [("command",.str "sleep 900")] }] idle.world op)

def signalOf (asked : Asked effects) : Option String :=
  match asked.op with
  | .tool (.killpg _ signal) => some signal
  | _ => none

end

end HyprlandAgent
