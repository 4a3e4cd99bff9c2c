import Mathlib.Logic.Function.Basic
import HyprlandAgent.Coroutine.Loop
import HyprlandAgent.Daemon.RunExecutor
import HyprlandAgent.Safety.Allowlist

-- The daemon: one event loop over the store, the run topic, the STOP flag and
-- the desktop, with the submissions, runs and feedback calls as its tasks.
namespace HyprlandAgent
open Coroutine

inductive Slot where
  | submit | body | feedback (n : Nat)
  deriving DecidableEq, Repr

structure TaskId where
  run : RunId
  slot : Slot
  deriving DecidableEq, Repr

abbrev bodyOf (run : RunId) : TaskId := ⟨run,.body⟩

-- Work handed to the thread pool, which nobody stops once it runs.
inductive Job where
  | store (write : StoreWrite)
  | audit (entry : Dict)

-- The timeout a run's body is under: whether it fired, and how many
-- cancellations were asked for meanwhile, its own included.
structure Deadline where
  expired : Bool := false
  requests : Nat := 0
  deriving DecidableEq, Repr

-- What the daemon holds about one run. `orphans` are jobs whose caller has left.
structure Cell where
  rows : Rows := {}
  seq : Option Nat := none
  audit : List Dict := []
  published : List Dict := []
  orphans : List Job := []
  deadline : Option Deadline := none

-- History only: what happened, for statements about it. No coroutine and no
-- callback looks here.
structure Ledger where
  launched : Option (RunKind × String × Brain) := none
  begun : Bool := false
  gated : Bool := false
  strayed : Bool := false
  refused : Bool := false
  stopSeen : Bool := false
  started : Nat := 0
  watch : Option Nat := none
  attempts : List RunEventRecord := []
  issued : List RunStatus := []
  commits : List RunStatus := []
  statusLost : Bool := false
  outcomes : List OutcomeRow := []
  finallyCut : Bool := false
  brainRaised : Bool := false
  insertCut : Bool := false

structure World where
  stop : Bool
  focused : Option Window
  rules : List AllowRule
  misses : Misses := fun _ => 0
  cells : RunId → Cell := fun _ => {}
  erasures : Nat := 0
  ledgers : RunId → Ledger := fun _ => {}

namespace World

def atCell (w : World) (run : RunId) (change : Cell → Cell) : World :=
  { w with cells := Function.update w.cells run (change (w.cells run)) }

def note (w : World) (run : RunId) (change : Ledger → Ledger) : World :=
  { w with ledgers := Function.update w.ledgers run (change (w.ledgers run)) }

section
variable (w : World) (run : RunId)

@[simp] theorem atCell_same (change : Cell → Cell) :
    (w.atCell run change).cells run = change (w.cells run) := by simp [atCell]

@[simp] theorem atCell_ledgers (change : Cell → Cell) : (w.atCell run change).ledgers = w.ledgers := rfl
@[simp] theorem atCell_stop (change : Cell → Cell) : (w.atCell run change).stop = w.stop := rfl
@[simp] theorem atCell_focused (change : Cell → Cell) : (w.atCell run change).focused = w.focused := rfl
@[simp] theorem atCell_rules (change : Cell → Cell) : (w.atCell run change).rules = w.rules := rfl
@[simp] theorem atCell_erasures (change : Cell → Cell) : (w.atCell run change).erasures = w.erasures := rfl

@[simp] theorem note_same (change : Ledger → Ledger) :
    (w.note run change).ledgers run = change (w.ledgers run) := by simp [note]

@[simp] theorem note_cells (change : Ledger → Ledger) : (w.note run change).cells = w.cells := rfl
@[simp] theorem note_stop (change : Ledger → Ledger) : (w.note run change).stop = w.stop := rfl
@[simp] theorem note_focused (change : Ledger → Ledger) : (w.note run change).focused = w.focused := rfl
@[simp] theorem note_rules (change : Ledger → Ledger) : (w.note run change).rules = w.rules := rfl
@[simp] theorem note_erasures (change : Ledger → Ledger) : (w.note run change).erasures = w.erasures := rfl

variable {w run}

theorem atCell_other {change : Cell → Cell} (different : other ≠ run) :
    (w.atCell run change).cells other = w.cells other := by simp [atCell,different]

theorem note_other {change : Ledger → Ledger} (different : other ≠ run) :
    (w.note run change).ledgers other = w.ledgers other := by simp [note,different]

end

def clear (h : Host) (w : World) : Bool := w.focused.all (isAllowed h.lower w.rules)

-- Every change of focus or allowlist; a run that read its window earlier has
-- strayed if it is now in front of one it may not act on.
def refocus (h : Host) (w : World) (focused : Option Window) (rules : List AllowRule) : World :=
  let next := { w with focused := focused, rules := rules }
  { next with ledgers := fun run =>
      let past := w.ledgers run
      { past with strayed := past.strayed || (past.gated && !next.clear h) } }

-- `killswitch.ensure_disarmed`; erasing an armed flag is remembered.
def disarm (w : World) : World :=
  if w.stop then
    { w with stop := false, erasures := w.erasures + 1,
             ledgers := fun run => { (w.ledgers run) with watch := none } }
  else w

end World

-- How an abandoned job ends: never started, already committed, or still to land.
inductive Fate where
  | dropped | committed | orphaned
  deriving DecidableEq, Repr

-- Everything about one performed operation that the outside decides.
structure Choice where
  fate : Fate := .dropped
  now : Seconds := 0
  focus : Option (Option Window) := none

def Exc.abandons : Exc → Bool
  | .cancelled | .timeout => true
  | _ => false

def noteIssue (write : StoreWrite) (failed : Bool) (fate : Fate) (past : Ledger) : Ledger :=
  match write with
  | .insertRun _ => { past with insertCut := failed && fate != .dropped }
  | .updateRunStatus status _ _ =>
    { past with issued := past.issued ++ [status], statusLost := failed && fate != .committed }
  | .appendEvent event => { past with attempts := past.attempts ++ [event] }
  | .updateRunMetrics _ _ _ => { past with finallyCut := past.finallyCut || failed }
  | .upsertRunOutcome _ _ .derived _ => { past with finallyCut := past.finallyCut || failed }
  | _ => past

def noteCommit (write : StoreWrite) (now : Seconds) (past : Ledger) : Ledger :=
  match write with
  | .updateRunStatus status _ _ => { past with commits := past.commits ++ [status] }
  | .upsertRunOutcome outcome score source rationale =>
    { past with outcomes := past.outcomes ++ [⟨outcome,score,source,rationale,now⟩] }
  | _ => past

namespace World

def commit (w : World) (run : RunId) (now : Seconds) : Job → Option World
  | .store write => (write.apply now (w.cells run).rows).map fun rows =>
      (w.atCell run fun cell => { cell with rows := rows }).note run (noteCommit write now)
  | .audit entry => some (w.atCell run fun cell => { cell with audit := cell.audit ++ [entry] })

-- A job and its caller's answer: it commits with a plain answer, and may have
-- any fate once its caller was cancelled or timed out.
def answer (w : World) (run : RunId) (job : Job) (reply : Except Exc α) (choice : Choice) :
    Option World :=
  match reply with
  | .ok _ => w.commit run choice.now job
  | .error exc =>
    match choice.fate with
    | .dropped => some w
    | .committed => if exc.abandons then w.commit run choice.now job else none
    | .orphaned =>
      if exc.abandons then some (w.atCell run fun cell => { cell with orphans := cell.orphans ++ [job] })
      else none

def failed : Except Exc α → Bool
  | .ok _ => false
  | .error _ => true

def effect (h : Host) (i : TaskId) (w : World) : (op : Op) → effects.Reply op → Choice → Option World
  | .tool .time,.error _,_ => none
  | .tool _,_,_ => some w
  | .input _,_,_ => some w
  | .activeWindow,.ok seen,_ =>
    if seen = w.focused then some (w.note i.run fun past => { past with gated := true }) else none
  | .activeWindow,.error _,_ => some w
  | .dispatch _,_,choice =>
    match choice.focus with
    | some focused => some (w.refocus h focused w.rules)
    | none => some w
  | .isAllowed window,.ok allowed,_ =>
    if allowed = isAllowed h.lower w.rules window then
      some ({ w with misses := recordMiss h.lower w.rules window w.misses }.note i.run fun past =>
        { past with refused := past.refused || !allowed })
    else none
  | .isAllowed _,.error _,_ => some w
  | .isStopped,.ok seen,_ =>
    if seen = w.stop then
      some (w.note i.run fun past => { past with stopSeen := past.stopSeen || seen })
    else none
  | .unlinkFlag,.ok _,_ => some w.disarm
  | .unlinkFlag,.error _,_ => some w
  | .checkLimit _,.ok _,_ => some (w.note i.run fun past => { past with started := past.started + 1 })
  | .seqStart run,.ok _,_ => some (w.atCell run fun cell => { cell with seq := some 0 })
  | .seqNext run,.ok seq,_ =>
    if seq = (w.cells run).seq.getD 0 then
      some (w.atCell run fun cell => { cell with seq := some (seq + 1) })
    else none
  | .seqPop run,.ok _,_ => some (w.atCell run fun cell => { cell with seq := none })
  | .store run write,reply,choice =>
    (w.note run (noteIssue write (failed reply) choice.fate)).answer run (.store write) reply choice
  | .auditAppend run entry,reply,choice => w.answer run (.audit entry) reply choice
  | .publish run message,.ok _,_ =>
    some (w.atCell run fun cell => { cell with published := cell.published ++ [message] })
  | .getBrain _,.ok _,_ => some w
  | .getBrain _,.error _,_ => some (w.note i.run fun past => { past with brainRaised := true })
  | .createTask run kind task brain,.ok _,_ =>
    some (w.note run fun past => { past with launched := some (kind,task,brain) })
  | .enterTimeout run _,.ok _,_ => some (w.atCell run fun cell => { cell with deadline := some {} })
  | .leaveTimeout run,.ok own,_ =>
    match (w.cells run).deadline with
    | some deadline =>
      if own = (deadline.expired && deadline.requests == 1) then
        some (w.atCell run fun cell => { cell with deadline := none })
      else none
    | none => none
  | _,_,_ => none

-- Nothing but the orchestrator itself raises `stuck`.
def stuck : Except Exc α → Bool
  | .error (.stuck _) => true
  | _ => false

def perform (h : Host) (i : TaskId) (w : World) (op : Op) (reply : effects.Reply op)
    (choice : Choice) : Option World :=
  if stuck reply then none else w.effect h i op reply choice

theorem tool_effect {h : Host} {i : TaskId} {w next : World} {asked : Tool}
    {reply : effects.Reply (.tool asked)} (done : w.effect h i (.tool asked) reply choice = some next) :
    next = w := by
  cases asked with
  | time =>
    cases reply with
    | ok value => cases done; rfl
    | error exc => cases done
  | _ => cases done; rfl

theorem perform_effect {h : Host} {i : TaskId} {w next : World} {op : Op} {reply : effects.Reply op}
    (performed : w.perform h i op reply choice = some next) :
    w.effect h i op reply choice = some next := by
  unfold perform at performed
  split at performed
  · cases performed
  · exact performed

def enter (i : TaskId) (w : World) : World :=
  if i.slot = .body then w.note i.run fun past => { past with begun := true } else w

def request (cell : Cell) : Cell :=
  { cell with deadline := cell.deadline.map fun deadline =>
      { deadline with requests := deadline.requests + 1 } }

end World

-- What runs in the loop's own thread besides the tasks: remote calls arriving or
-- losing their client, cancellations, the run timeout and the kill-switch poller.
inductive Callback where
  | submit (run : RunId) (kind : RunKind) (task brainName : String)
  | feedback (run : RunId) (n : Nat) (kind : String) (comment : Option String)
  | disconnect (task : TaskId)
  | cancel (run : RunId)
  | expire (run : RunId)
  | poll
  deriving DecidableEq, Repr

-- What happens beside the loop: the user arms the kill switch, moves the focus or
-- edits the allowlist, and a job left behind lands.
inductive Outside where
  | arm
  | focus (window : Option Window)
  | edit (rules : List AllowRule)
  | land (run : RunId) (index : Nat) (now : Seconds)
  deriving DecidableEq, Repr

section
variable (h : Host)

def spawn : Op → Option (TaskId × Async Unit)
  | .createTask run kind task brain => some (bodyOf run,RunExecutor.runTask h run kind task brain)
  | _ => none

def callback (w : World) (phases : TaskId → Phase) : Callback → Option (Arrival effects TaskId World)
  | .submit run kind task brainName =>
    if phases ⟨run,.submit⟩ = .absent ∧ phases (bodyOf run) = .absent then
      some { world := w, spawns := some (⟨run,.submit⟩,do
        let _ ← RunExecutor.submit run kind task brainName) }
    else none
  | .feedback run n kind comment =>
    if phases ⟨run,.feedback n⟩ = .absent then
      some { world := w, spawns := some (⟨run,.feedback n⟩,do
        let _ ← RunExecutor.recordFeedback run kind comment) }
    else none
  | .disconnect task =>
    if task.slot ≠ .body then some { world := w, cancels := fun i => i == task } else none
  | .cancel run =>
    if (phases (bodyOf run)).active then
      some { world := w.atCell run World.request, cancels := fun i => i == bodyOf run }
    else none
  | .expire run =>
    match (w.cells run).deadline with
    | some deadline =>
      if deadline.expired then none
      else some { world := w.atCell run fun cell =>
                    { cell with deadline := some ⟨true,deadline.requests + 1⟩ }
                  cancels := fun i => i == bodyOf run }
    | none => none
  | .poll =>
    if w.stop then
      some
        { world :=
            { w with
              stop := false
              cells := fun run =>
                if (phases (bodyOf run)).active then World.request (w.cells run) else w.cells run }
          cancels := fun i => i.slot == .body && (phases i).active }
    else none

def outside (w : World) (phases : TaskId → Phase) : Outside → Option World
  | .arm => some
      { w with
        stop := true
        ledgers := fun run =>
          let past := w.ledgers run
          if (phases (bodyOf run)).active then { past with watch := past.watch.or (some past.started) }
          else past }
  | .focus window => some (w.refocus h window w.rules)
  | .edit rules => some (w.refocus h w.focused rules)
  | .land run index now =>
    match (w.cells run).orphans[index]? with
    | some job =>
      let rest := w.atCell run fun cell => { cell with orphans := cell.orphans.eraseIdx index }
      some ((rest.commit run now job).getD rest)
    | none => none

def daemon : Machine effects TaskId World Choice Callback Outside where
  suspends := Op.suspends
  cancelled := .cancelled
  isCancelled := Exc.isCancelled
  perform := World.perform h
  enter := World.enter
  spawn := spawn h
  callback := fun kind w phases => callback w phases kind
  outside := fun kind w phases => outside h w phases kind

def boot (stop : Bool) (focused : Option Window) (rules : List AllowRule) :
    Loop effects TaskId World :=
  { world := { stop := stop, focused := focused, rules := rules }
    tasks := fun _ => none
    turn := none }

end
end HyprlandAgent
