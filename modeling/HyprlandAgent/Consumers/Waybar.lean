import HyprlandAgent.Consumers.RunTopic
import HyprlandAgent.Ipc.Protocol
import HyprlandAgent.Reconnect

-- agent-waybar: run state and voice state as one JSON line for each change.
namespace HyprlandAgent.Waybar
open RunExecutor Orchestrator Reconnect

structure VoiceState where
  icon : String
  cls : String
  tooltip : String
  deriving DecidableEq, Repr

-- What a line says apart from the voice, which is sampled when it is printed.
structure Bar where
  text : String
  cls : String
  tooltip : String
  deriving DecidableEq, Repr

def merge (bar : Bar) (voice : VoiceState) : Json :=
  .obj [("text",.str (bar.text ++ " " ++ voice.icon)),("class",.str (bar.cls ++ " " ++ voice.cls)),
    ("tooltip",.str (bar.tooltip ++ " · " ++ voice.tooltip))]

def idleBar : Bar := ⟨"○","idle","hyprland-agent · idle"⟩
def disconnectedBar : Bar := ⟨"⊘","disconnected","daemon offline"⟩

section
variable (h : Host) (fixed : Json → Except String String)

def doneTooltip (task : String) (elapsed : Option Json) : Except String String :=
  let tooltip := if task ≠ "" then task ++ " · done" else "done"
  match elapsed with
  | none | some .null => .ok tooltip
  | some elapsed => (fixed elapsed).map fun seconds => tooltip ++ " (" ++ seconds ++ "s)"

-- `_render`; a text under `elapsed_s` cannot be formatted and raises.
def render (eventKind : Json) (payload : Dict) : Except String Bar :=
  let status := get payload "status" (.str "")
  let task := String.ofList ((h.str (get payload "task" (.str ""))).toList.take 60)
  if eventKind == .str "run_started" then
    .ok ⟨"●","running",if task ≠ "" then task ++ " · running" else "running"⟩
  else if eventKind == .str "run_finished" then
    if status == .str "completed" then
      (doneTooltip fixed task (payload.lookup "elapsed_s")).map fun tooltip => ⟨"✓","done",tooltip⟩
    else if status == .str "errored" || status == .str "aborted" then
      let label := if status == .str "errored" then "error" else "aborted"
      .ok ⟨"✗","error",task ++ " · " ++ label⟩
    else .ok idleBar
  else .ok idleBar

def handle (_ : Unit) (message : Ipc.Topic × Dict) : Unit × List Bar × Bool :=
  if message.1 ≠ .runs then ((),[],true)
  else
    match render h fixed (get message.2 "kind" (.str "")) message.2 with
    | .ok bar => ((),[bar],true)
    | .error _ => ((),[],false)

def watcher : Follower Unit (Ipc.Topic × Dict) Bar := ⟨[idleBar],handle h fixed,[disconnectedBar]⟩

end

variable {h : Host} {fixed : Json → Except String String} {run : RunId}

def finalClass : RunStatus → String
  | .running => "idle"
  | .completed => "done"
  | .errored | .aborted => "error"

def startClass : RunKind → String
  | .run => "running"
  | .plan => "idle"

def Shows (h : Host) (fixed : Json → Except String String) (message : Dict) (cls : String) : Prop :=
  (render h fixed (get message "kind" (.str "")) message).map Bar.cls = .ok cls

theorem get_kind {message : Dict} {kind : String} (named : kindOf message = some kind) (default : Json) :
    get message "kind" default = .str kind := by
  unfold kindOf at named
  split at named
  · rename_i found
    obtain rfl := Option.some.inj named
    rw [get,found]
    rfl
  · cases named

theorem shows_idle {message : Dict} {kind : String} (named : kindOf message = some kind)
    (other : kind ≠ "run_started" ∧ kind ≠ "run_finished") : Shows h fixed message "idle" := by
  have one : (Json.str kind == .str "run_started") = false := by
    simpa only [beq_eq_false_iff_ne,ne_eq,Json.str.injEq] using other.1
  have two : (Json.str kind == .str "run_finished") = false := by
    simpa only [beq_eq_false_iff_ne,ne_eq,Json.str.injEq] using other.2
  simp only [Shows,render,get_kind named,one,two,Bool.false_eq_true,if_false]
  rfl

theorem shows_started (o : Origin) : Shows h fixed (o.started run) (startClass o.kind) := by
  have named := kindOf_started o run
  cases kind : o.kind with
  | run =>
    rw [kind] at named
    rw [Shows,render,get_kind named,if_pos (by decide)]
    rfl
  | plan =>
    rw [kind] at named
    exact shows_idle named (by decide)

theorem shows_event {event : RunEventRecord} (emittable : Emittable event.kind event.payload) :
    Shows h fixed (messageOf run event) "idle" := by
  obtain ⟨kind,named,_⟩ := kindOf_event run emittable
  refine shows_idle named ⟨?_,?_⟩
  · rintro rfl
    exact event_apart emittable (by decide) (fun action => by cases action <;> decide) named
  · rintro rfl
    exact event_apart emittable (by decide) (fun action => by cases action <;> decide) named

theorem shows_verdict {kind : RunKind} {told : RunStatus × Dict} (plain : told.2.lookup "kind" = none)
    (terminal : told.1.terminal = true) : Shows h fixed (verdictMessage run kind told) "idle" := by
  refine shows_idle (kindOf_verdict plain) ?_
  cases kind <;> cases status : told.1 <;> simp_all [RunStatus.terminal,RunKind.value,RunStatus.value]

theorem shows_finished (task : String) (status : RunStatus) :
    Shows h fixed (finishedMessage run task status) (finalClass status) := by
  have named := kindOf_finished run task status
  have stored : get (finishedMessage run task status) "status" (.str "") = .str status.value := rfl
  have untimed : (finishedMessage run task status).lookup "elapsed_s" = none := rfl
  rw [Shows,render,get_kind named,stored,untimed,if_neg (by decide),if_pos (by decide)]
  cases status <;> rfl

-- What the bar shows while a run goes on, in every state of the daemon: its start as
-- running if it is no plan, every event and the verdict as idle, and its finish under
-- the final status. No message of a run makes the bar fail.
theorem bar_follows_run {stop : Bool} {focused : Option Window} {rules : List AllowRule}
    {l : Coroutine.Loop effects TaskId World} (h : Host) (fixed : Json → Except String String)
    (path : Coroutine.Reached (daemon h) (boot stop focused rules) l) (run : RunId) :
    (l.world.cells run).published = [] ∨ ∃ o said verdict finish,
      RunTopic run o said verdict finish (l.world.cells run).published ∧
        List.Forall₂ (Shows h fixed) (l.world.cells run).published
          (startClass o.kind :: (List.replicate said.length "idle" ++
            ((verdict.map fun _ => "idle").toList ++ (finish.map finalClass).toList))) := by
  rcases daemon_runTopic path run with silent | ⟨o,said,verdict,finish,topic⟩
  · exact .inl silent
  · refine .inr ⟨o,said,verdict,finish,topic,?_⟩
    exact topic.follows (shows_started o) (fun event emittable => shows_event emittable)
      (fun told plain terminal => shows_verdict plain terminal) (fun status _ => shows_finished o.task status)

theorem bar_follows_finished : ∃ l, Coroutine.Reached (daemon plainHost) HyprlandAgent.idle l ∧
    (l.world.cells "r").published.length = 8 ∧
    ((l.world.cells "r").published = [] ∨ ∃ o said verdict finish,
      RunTopic "r" o said verdict finish (l.world.cells "r").published ∧
        List.Forall₂ (Shows plainHost fun _ => .ok "0") (l.world.cells "r").published
          (startClass o.kind :: (List.replicate said.length "idle" ++
            ((verdict.map fun _ => "idle").toList ++ (finish.map finalClass).toList)))) := by
  have played : (Coroutine.drive (daemon plainHost) HyprlandAgent.idle finalised).any (fun l =>
      (l.world.cells "r").published.length == 8) = true := by decide +kernel
  obtain ⟨l,path,shown⟩ := rehearsed played
  exact ⟨l,path,eq_of_beq shown,bar_follows_run plainHost _ path "r"⟩

end HyprlandAgent.Waybar
