import HyprlandAgent.Daemon.World

-- Schedules of the daemon that can be played through: a host, and the replies of
-- a desktop and a store on which nothing goes wrong.
namespace HyprlandAgent
open Coroutine

def plainHost : Host where
  config := ⟨⟨30,10,60⟩,64,true⟩
  lower := id
  str := fun value => match value with
    | .str text => text
    | _ => ""
  repr := fun text => "'" ++ text ++ "'"
  formatG := fun _ => ""
  float := fun _ => .ok 0
  int := fun _ => .ok 0
  encode := fun _ => []
  decode := fun _ => ""
  sanitizeCommand := fun _ => (true,"")
  phash := fun _ => none

def calmTool (actions : List Action) : (tool : Tool) → tool.Res
  | .time => 0
  | .mkdirCache => ()
  | .processTreeContains _ _ => false
  | .rateLimiterConfigured => true
  | .rateLimiterReconfigure _ => ()
  | .pathExists _ => false
  | .readFile _ _ _ => ""
  | .writeFile _ _ _ => ()
  | .listDir _ _ => ""
  | .returncode _ => none
  | .killpg _ _ => ()
  | .kill _ => ()
  | .confirm _ => true
  | .screenFull => []
  | .activeMonitor => none
  | .clients => []
  | .mouseMove _ _ => ()
  | .clipboardRead => ""
  | .clipboardWrite _ => ()
  | .integrationsHandle _ => none
  | .createSubprocessExec _ => ⟨1⟩
  | .createSubprocessShell _ _ => ⟨1⟩
  | .procWait _ _ => 0
  | .procCommunicate _ _ _ => ([],[])
  | .assembleBrainContext _ _ _ _ => ⟨""⟩
  | .decide _ _ _ _ => actions
  | .sleep _ => ()

def calmWrite : (write : StoreWrite) → write.Res
  | .insertFeedback _ _ => 1
  | .insertRun _ | .updateRunStatus _ _ _ | .appendEvent _ | .updateRunMetrics _ _ _
  | .upsertRunOutcome _ _ _ _ => ()

def calm (h : Host) (actions : List Action) (w : World) : (op : Op) → op.Res
  | .tool asked => calmTool actions asked
  | .activeWindow => w.focused
  | .dispatch _ => "ok"
  | .isAllowed window => isAllowed h.lower w.rules window
  | .isStopped => w.stop
  | .checkLimit _ => true
  | .seqNext run => (w.cells run).seq.getD 0
  | .getBrain name => ⟨name⟩
  | .leaveTimeout run => match (w.cells run).deadline with
    | some deadline => deadline.expired && deadline.requests == 1
    | none => false
  | .store _ write => calmWrite write
  | .input _ | .unlinkFlag | .seqStart _ | .seqPop _ | .auditAppend _ _ | .publish _ _
  | .createTask _ _ _ _ | .enterTimeout _ _ => ()

abbrev Cue := Loop effects TaskId World → Event effects TaskId Choice Callback Outside

def goes (actions : List Action) (i : TaskId) (choice : Choice) : Cue := fun l =>
  .act i (fun op => .ok (calm plainHost actions l.world op)) choice

-- The operation task `i` stands at raises; its job, if it has one, ends as `fate` says.
def raises (i : TaskId) (exc : Exc) (fate : Fate) : Cue := fun _ =>
  .act i (fun _ => .error exc) { fate := fate }

def calls (kind : Callback) : Cue := fun _ => .callback kind
def starts (i : TaskId) : Cue := fun _ => .start i
def happens (kind : Outside) : Cue := fun _ => .outside kind

theorem rehearsed {start : Loop effects TaskId World} {cues : List Cue}
    {check : Loop effects TaskId World → Bool}
    (played : (drive (daemon plainHost) start cues).any check = true) :
    ∃ l, Reached (daemon plainHost) start l ∧ check l = true := by
  cases driven : drive (daemon plainHost) start cues with
  | none =>
    rw [driven] at played
    cases played
  | some l =>
    rw [driven] at played
    exact ⟨l,drive_reached driven,played⟩

def terminal : Window :=
  { address := "0x1", title := "~", appClass := "foot", workspaceId := 1, at_ := (0,0), size := (800,600)
    floating := false, hidden := false, pid := 7, monitor := 0 }

def vault : Window := { terminal with appClass := "keepassxc" }

def idle : Loop effects TaskId World := boot false (some terminal) [{ class_ := some "foot" }]

def opens (kind : RunKind) : List Cue :=
  [calls (.submit "r" kind "task" "claude"),starts ⟨"r",.submit⟩] ++
    List.replicate 6 (goes [] ⟨"r",.submit⟩ {})

def begins (kind : RunKind) : List Cue := opens kind ++ [starts (bodyOf "r")]

def click : Action := { kind := .click, params := ∅ }

def works (n : Nat) : List Cue := List.replicate n (goes [click] (bodyOf "r") {})

end HyprlandAgent
