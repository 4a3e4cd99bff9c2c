import HyprlandAgent.Orchestrator

-- Lifecycle of agent runs: the coroutine of a submission, of a run and of an
-- explicit feedback.
namespace HyprlandAgent.RunExecutor
open Coroutine

def runTimeout : Seconds := 300

def auditEntry (runId : RunId) (event : RunEventRecord) : Dict :=
  merged (dict [("run_id",.str runId),("seq",.int event.seq),("kind",.str event.kind)]) event.payload

def runMessage (runId : RunId) (kind : String) (payload : Dict) : Dict :=
  merged (dict [("run_id",.str runId),("kind",.str kind)]) payload

def publish (runId : RunId) (kind : String) (payload : Dict) : Async Unit :=
  perform (.publish runId (runMessage runId kind payload))

def audit (h : Host) (runId : RunId) (entry : Dict) : Async Unit :=
  if h.config.auditLog then perform (.auditAppend runId entry) else pure ()

def makeEmit (h : Host) (runId : RunId) (kind : String) (payload : Dict) : Async Unit := do
  let seq ← perform (.seqNext runId)
  let event : RunEventRecord := ⟨seq,← ask .time,kind,payload⟩
  perform (.store runId (.appendEvent event))
  audit h runId (auditEntry runId event)
  publish runId kind payload

def contextOf (h : Host) (runId : RunId) : RunContext := ⟨runId,makeEmit h runId⟩

-- `asyncio.wait_for`: a cancellation that the timeout itself asked for, and no
-- one else, comes out as a timeout.
def waitFor (runId : RunId) (timeout : Seconds) (body : Async Unit) : Async Unit := do
  perform (.enterTimeout runId timeout)
  body.settle fun ending => do
    let own ← perform (.leaveTimeout runId)
    match ending with
    | .error .cancelled => if own then raise .timeout else raise .cancelled
    | ending => ofExcept ending

def failureStatus : Exc → RunStatus
  | .stuck _ => .aborted
  | .timeout => .errored
  | .cancelled => .aborted
  | _ => .errored

def updateStatus (runId : RunId) (status : RunStatus) (error : Option String) : Async Unit :=
  perform (.store runId (.updateRunStatus status none error))

def recordFailure (runId : RunId) (kind : RunKind) : Exc → Async Unit
  | .stuck _ => do
    updateStatus runId .aborted none
    publish runId (kind.value ++ "_aborted") (dict [("reason",.str "stuck")])
  | .timeout => do
    let msg := kind.capitalized ++ " timed out after 300s"
    updateStatus runId .errored (some msg)
    publish runId (kind.value ++ "_errored") (dict [("error",.str msg)])
  | .cancelled => do
    updateStatus runId .aborted none
    publish runId (kind.value ++ "_aborted") ∅
    raise .cancelled
  | exc => do
    updateStatus runId .errored (some exc.str)
    publish runId (kind.value ++ "_errored") (dict [("error",.str exc.str)])

def recordCompletion (runId : RunId) (kind : RunKind) : Async Unit := do
  updateStatus runId .completed none
  publish runId (kind.value ++ "_completed") ∅

-- The `try` statement up to its `finally`: the final status, and how it ends.
def attempt (runId : RunId) (kind : RunKind) (orchestrate : Async Unit) :
    Async (RunStatus × Except Exc Unit) :=
  let handle : Exc → Async (RunStatus × Except Exc Unit) := fun exc =>
    (recordFailure runId kind exc).settle fun ending => pure (failureStatus exc,ending)
  (waitFor runId runTimeout orchestrate >>= fun _ => recordCompletion runId kind).settle fun
    | .ok _ => pure (.completed,.ok ())
    | .error exc => handle exc

def finish (runId : RunId) (task : String) (tStart : Seconds) (finalStatus : RunStatus) :
    Async Unit := do
  let durationS := (← ask .time) - tStart
  perform (.store runId (.updateRunMetrics none none (some durationS)))
  let (outcome,score) := deriveFromStatus finalStatus
  perform (.store runId (.upsertRunOutcome outcome score .derived none))
  perform (.seqPop runId)
  publish runId "run_finished" (dict [("task",.str task),("outcome",.str outcome.value),
    ("status",.str finalStatus.value)])

def orchestrate (h : Host) (runId : RunId) (kind : RunKind) (task : String) (brain : Brain) :
    Async Unit :=
  match kind with
  | .plan => Orchestrator.plan task brain (some (contextOf h runId)) (some h.config)
  | .run => Orchestrator.run h task brain (some (contextOf h runId)) (some h.config)

def runTask (h : Host) (runId : RunId) (kind : RunKind) (task : String) (brain : Brain) :
    Async Unit := do
  let tStart ← ask .time
  let (finalStatus,ending) ← attempt runId kind (orchestrate h runId kind task brain)
  finish runId task tStart finalStatus
  ofExcept ending

def submit (runId : RunId) (kind : RunKind) (task : String) (brainName : String) : Async RunId := do
  let startedAt ← ask .time
  perform (.store runId (.insertRun ⟨runId,kind,task,brainName,.running,startedAt,none,none⟩))
  perform (.seqStart runId)
  let brain ← perform (.getBrain brainName)
  perform (.createTask runId kind task brain)
  publish runId (kind.value ++ "_started") (dict [("entry_kind",.str kind.value),("task",.str task),
    ("brain",.str brainName)])
  return runId

def recordOutcome (runId : RunId) (kind : String) (comment : Option String) : Async Unit :=
  let (outcome,score) := feedbackToOutcome kind
  if outcome ≠ .unknown then
    perform (.store runId (.upsertRunOutcome outcome score .explicit comment))
  else pure ()

def recordFeedback (runId : RunId) (kind : String) (comment : Option String) : Async Dict := do
  if runId = "" || kind = "" then raise (.other "run_id and kind are required")
  else
    let feedbackId ← perform (.store runId (.insertFeedback kind comment))
    recordOutcome runId kind comment
    return dict [("feedback_id",.int feedbackId),
      ("outcome",.str (feedbackToOutcome kind).1.value)]

end HyprlandAgent.RunExecutor
