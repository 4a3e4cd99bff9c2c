import HyprlandAgent.Consumers.Waybar
import HyprlandAgent.Voice.Redact

-- agent-voice: announces the runs of the daemon, unless it is muted or spoken over.
namespace HyprlandAgent.Sidecar
open RunExecutor Orchestrator Reconnect Redact

structure TemplateConfig where
  runStarted : String := "Avvio: {task}"
  runCompleted : String := "Fatto"
  runErrored : String := "Errore: {error_short}"
  runAborted : String := "Annullato"

-- `str.format` raises a `KeyError` for a name it is not given, and other errors.
inductive FormatError where
  | key
  | other (text : String)

structure Voice where
  templates : TemplateConfig
  redactPatterns : List String
  format : String → List (String × String) → Except FormatError String
  compile : String → Option Compiled
  str : Json → String

inductive Voiced where
  | say (text : String)
  | stop
  deriving DecidableEq

-- What reaches the loop: a barge-in from the pipeline, which may also fall into a
-- pause and then comes before the next connection's events; and an event, with
-- whether the mute flag is there and whether the engine returns.
inductive Input where
  | signal
  | event (topic : Ipc.Topic) (payload : Dict) (muted returned : Bool)

section
variable (v : Voice)

def render (template : String) (kw : List (String × String)) : Except String String :=
  match v.format template kw with
  | .ok text => .ok text
  | .error .key => .ok template
  | .error (.other text) => .error text

-- `error[:80] if error else ""`
def errorShort (error : String) : String := String.ofList (error.toList.take 80)

-- `str(payload.get(name, ""))`
def textOf (payload : Dict) (name : String) : String := v.str (get payload name (.str ""))

def templateText (kind : Json) (payload : Dict) : Except String (Option String) :=
  if kind == .str "run_started" then
    (render v v.templates.runStarted [("task",textOf v payload "task"),("brain",textOf v payload "brain")]).map some
  else if kind == .str "run_completed" then .ok (some v.templates.runCompleted)
  else if kind == .str "run_errored" then
    (render v v.templates.runErrored [("error_short",errorShort (textOf v payload "error"))]).map some
  else if kind == .str "run_aborted" then .ok (some v.templates.runAborted)
  else .ok none

def announce (payload : Dict) (muted returned : Bool) : List Voiced × Bool :=
  match templateText v (get payload "kind" (.str "")) payload with
  | .error _ => ([],false)
  | .ok none => ([],true)
  | .ok (some text) =>
    if muted then ([],true)
    else
      match redactForTts v.compile text v.redactPatterns with
      | some safe => ([.say safe],returned)
      | none => ([],false)

def handle (bargeIn : Bool) : Input → Bool × List Voiced × Bool
  | .signal => (true,[],true)
  | .event topic payload muted returned =>
    if topic ≠ .runs then (bargeIn,[],true)
    else if bargeIn then (false,[.stop],true)
    else (false,announce v payload muted returned)

def watcher : Follower Bool Input Voiced := ⟨[],handle v,[]⟩

end

variable {v : Voice} {run : RunId}

def startText (v : Voice) (o : Origin) : Except String (Option String) :=
  match o.kind with
  | .run => (render v v.templates.runStarted
      [("task",v.str (.str o.task)),("brain",v.str (.str o.brainName))]).map some
  | .plan => .ok none

def verdictText (v : Voice) (kind : RunKind) (told : RunStatus × Dict) : Except String (Option String) :=
  match kind,told.1 with
  | .run,.completed => .ok (some v.templates.runCompleted)
  | .run,.errored => (render v v.templates.runErrored
      [("error_short",errorShort (textOf v told.2 "error"))]).map some
  | .run,.aborted => .ok (some v.templates.runAborted)
  | _,_ => .ok none

def Announces (v : Voice) (message : Dict) (text : Except String (Option String)) : Prop :=
  templateText v (get message "kind" (.str "")) message = text

theorem announces_nothing {message : Dict} {kind : String} (named : kindOf message = some kind)
    (other : kind ∉ ["run_started","run_completed","run_errored","run_aborted"]) :
    Announces v message (.ok none) := by
  have apart : ∀ name ∈ ["run_started","run_completed","run_errored","run_aborted"],
      (Json.str kind == .str name) = false := by
    intro name known
    simp only [beq_eq_false_iff_ne,ne_eq,Json.str.injEq]
    rintro rfl
    exact other known
  simp only [Announces,templateText,Waybar.get_kind named,apart "run_started" (by simp),
    apart "run_completed" (by simp),apart "run_errored" (by simp),apart "run_aborted" (by simp),
    Bool.false_eq_true,if_false]

theorem announces_started (o : Origin) : Announces v (o.started run) (startText v o) := by
  have named := kindOf_started o run
  cases kind : o.kind with
  | run =>
    rw [kind] at named
    rw [Announces,templateText,Waybar.get_kind named,if_pos (by decide),startText,kind]
    rfl
  | plan =>
    rw [kind] at named
    rw [startText,kind]
    exact announces_nothing named (by decide)

theorem announces_event {event : RunEventRecord} (emittable : Emittable event.kind event.payload) :
    Announces v (messageOf run event) (.ok none) := by
  obtain ⟨kind,named,_⟩ := kindOf_event run emittable
  apply announces_nothing named
  intro known
  have apart : ∀ name ∈ ["run_started","run_completed","run_errored","run_aborted"],
      name ∉ eventKinds ∧ ∀ action : ActionKind, name ≠ action.value := by
    intro name
    simp only [List.mem_cons,List.not_mem_nil,or_false]
    rintro (rfl | rfl | rfl | rfl) <;> exact ⟨by decide,fun action => by cases action <;> decide⟩
  exact event_apart emittable (apart kind known).1 (apart kind known).2 named

theorem announces_verdict {kind : RunKind} {told : RunStatus × Dict} (plain : told.2.lookup "kind" = none) :
    Announces v (verdictMessage run kind told) (verdictText v kind told) := by
  obtain ⟨status,payload⟩ := told
  have named : kindOf (verdictMessage run kind (status,payload)) = some (kind.value ++ "_" ++ status.value) :=
    kindOf_verdict plain
  have error : textOf v (verdictMessage run kind (status,payload)) "error" = textOf v payload "error" := by
    unfold textOf verdictMessage runMessage get
    rw [lookup_merged]
    cases payload.lookup "error" <;> rfl
  cases kind with
  | plan => cases status <;> exact announces_nothing named (by decide)
  | run =>
    cases status with
    | running => exact announces_nothing named (by decide)
    | completed =>
      rw [Announces,templateText,Waybar.get_kind named,if_neg (by decide),if_pos (by decide)]
      rfl
    | errored =>
      rw [Announces,templateText,Waybar.get_kind named,if_neg (by decide),if_neg (by decide),if_pos (by decide),error]
      rfl
    | aborted =>
      rw [Announces,templateText,Waybar.get_kind named,if_neg (by decide),if_neg (by decide),if_neg (by decide),
        if_pos (by decide)]
      rfl

-- What there is to say about a run, in every state of the daemon: its start and its
-- verdict, and nothing about its events or its finish; nothing at all about a plan.
theorem run_announced {stop : Bool} {focused : Option Window} {rules : List AllowRule} {h : Host}
    {l : Coroutine.Loop effects TaskId World} (v : Voice)
    (path : Coroutine.Reached (daemon h) (boot stop focused rules) l) (run : RunId) :
    (l.world.cells run).published = [] ∨ ∃ o said verdict finish,
      RunTopic run o said verdict finish (l.world.cells run).published ∧
        List.Forall₂ (Announces v) (l.world.cells run).published
          (startText v o :: (List.replicate said.length (.ok none) ++
            ((verdict.map (verdictText v o.kind)).toList ++ (finish.map fun _ => .ok none).toList))) := by
  rcases daemon_runTopic path run with silent | ⟨o,said,verdict,finish,topic⟩
  · exact .inl silent
  · refine .inr ⟨o,said,verdict,finish,topic,?_⟩
    exact topic.follows (announces_started o) (fun event emittable => announces_event emittable)
      (fun told plain _ => announces_verdict plain)
      (fun status _ => announces_nothing (kindOf_finished run o.task status) (by decide))

def plainVoice : Voice where
  templates := {}
  redactPatterns := []
  format := fun template _ => .ok template
  compile := fun _ => none
  str := plainHost.str

theorem run_announced_finished : ∃ l, Coroutine.Reached (daemon plainHost) idle l ∧
    (l.world.cells "r").published.length = 8 ∧
    ((l.world.cells "r").published = [] ∨ ∃ o said verdict finish,
      RunTopic "r" o said verdict finish (l.world.cells "r").published ∧
        List.Forall₂ (Announces plainVoice) (l.world.cells "r").published
          (startText plainVoice o :: (List.replicate said.length (.ok none) ++
            ((verdict.map (verdictText plainVoice o.kind)).toList ++
              (finish.map fun _ => .ok none).toList)))) := by
  have played : (Coroutine.drive (daemon plainHost) idle finalised).any (fun l =>
      (l.world.cells "r").published.length == 8) = true := by decide +kernel
  obtain ⟨l,path,shown⟩ := rehearsed played
  exact ⟨l,path,eq_of_beq shown,run_announced plainVoice path "r"⟩

def candidate (v : Voice) : Input → Option String
  | .event .runs payload false _ =>
    match templateText v (get payload "kind" (.str "")) payload with
    | .ok (some text) => redactForTts v.compile text v.redactPatterns
    | _ => none
  | _ => none

def spoken : Voiced → Option String
  | .say text => some text
  | .stop => none

def Input.signals : Input → Bool
  | .signal => true
  | .event _ _ _ _ => false

def stops (shown : List Voiced) : Nat := shown.count .stop

-- One turn of the loop: it says what there is to say or nothing, it stops the engine
-- only on a signal, which it takes, and a turn that returns loses nothing but to a stop.
structure Turn (v : Voice) (bargeIn : Bool) (input : Input) (turn : Bool × List Voiced × Bool) : Prop where
  said : turn.2.1.filterMap spoken = [] ∨ turn.2.1.filterMap spoken = (candidate v input).toList
  stopped : stops turn.2.1 + turn.1.toNat ≤ input.signals.toNat + bargeIn.toNat
  heard : turn.2.2 = true → (candidate v input).toList.length ≤ (turn.2.1.filterMap spoken).length + stops turn.2.1

theorem Turn.quiet {bargeIn next returned : Bool} {input : Input}
    (taken : next.toNat ≤ input.signals.toNat + bargeIn.toNat)
    (nothing : returned = true → candidate v input = none) : Turn v bargeIn input (next,[],returned) := by
  refine ⟨.inl rfl,by simpa [stops] using taken,?_⟩
  intro heard
  rw [nothing heard]
  exact Nat.zero_le _

theorem announce_turn (v : Voice) (payload : Dict) (muted returned : Bool) :
    Turn v false (.event .runs payload muted returned) (false,announce v payload muted returned) := by
  unfold announce
  cases given : templateText v (get payload "kind" (.str "")) payload with
  | error text => exact Turn.quiet (Nat.zero_le _) nofun
  | ok found =>
    cases found with
    | none =>
      refine Turn.quiet (Nat.zero_le _) fun _ => ?_
      cases muted <;> simp [candidate,given]
    | some text =>
      cases muted with
      | true => exact Turn.quiet (Nat.zero_le _) fun _ => rfl
      | false =>
        have there : candidate v (.event .runs payload false returned) =
            redactForTts v.compile text v.redactPatterns := by simp [candidate,given]
        dsimp only
        rw [if_neg Bool.false_ne_true]
        cases safe : redactForTts v.compile text v.redactPatterns with
        | none => exact Turn.quiet (Nat.zero_le _) nofun
        | some shown =>
          rw [safe] at there
          refine ⟨.inr ?_,Nat.le_refl _,fun _ => ?_⟩
          · rw [there]
            rfl
          · rw [there]
            exact Nat.le_refl _

theorem handle_turn (v : Voice) (bargeIn : Bool) (input : Input) : Turn v bargeIn input (handle v bargeIn input) := by
  cases input with
  | signal => exact Turn.quiet (by cases bargeIn <;> decide) fun _ => rfl
  | event topic payload muted returned =>
    cases topic with
    | runs =>
      cases bargeIn with
      | true =>
        refine ⟨.inl rfl,Nat.le_refl _,fun _ => ?_⟩
        show (candidate v (.event .runs payload muted returned)).toList.length ≤ 1
        cases candidate v (.event .runs payload muted returned) <;> simp
      | false => exact announce_turn v payload muted returned
    | _ => exact Turn.quiet (by cases bargeIn <;> simp) fun _ => by cases muted <;> rfl

-- Over a whole connection: what is said is what there was to say, in its order and each
-- at most once; the engine is stopped at most once for each signal; and while every
-- turn returns, only a stop costs an announcement.
theorem interruptions_cost_one (v : Voice) (bargeIn : Bool) (inputs : List Input) :
    let shown := ((watcher v).serve bargeIn inputs).2
    List.Sublist (shown.filterMap spoken) (inputs.filterMap (candidate v)) ∧
      stops shown ≤ inputs.countP Input.signals + bargeIn.toNat ∧
      ((watcher v).served bargeIn inputs = true →
        (inputs.filterMap (candidate v)).length ≤ (shown.filterMap spoken).length + stops shown) := by
  induction inputs generalizing bargeIn with
  | nil => exact ⟨.refl [],Nat.zero_le _,fun _ => Nat.zero_le _⟩
  | cons input rest ih =>
    obtain ⟨said,stopped,heard⟩ := handle_turn v bargeIn input
    obtain ⟨sub,few,all⟩ := ih (handle v bargeIn input).1
    have split_ : (input :: rest).filterMap (candidate v) =
        (candidate v input).toList ++ rest.filterMap (candidate v) := by
      rw [List.filterMap_cons]
      cases candidate v input <;> rfl
    have counted : (input :: rest).countP Input.signals = rest.countP Input.signals + input.signals.toNat := by
      rw [List.countP_cons]
      cases input.signals <;> rfl
    have first : List.Sublist ((handle v bargeIn input).2.1.filterMap spoken) (candidate v input).toList := by
      rcases said with none_ | whole
      · rw [none_]
        exact List.nil_sublist _
      · rw [whole]
    have turned : ((watcher v).serve bargeIn (input :: rest)).2 = (handle v bargeIn input).2.1 ++
        if (handle v bargeIn input).2.2 then ((watcher v).serve (handle v bargeIn input).1 rest).2 else [] :=
      (watcher v).serve_cons bargeIn input rest
    simp only [stops] at stopped heard few all ⊢
    rw [turned,split_,counted,List.length_append]
    by_cases returned : (handle v bargeIn input).2.2 = true
    · rw [if_pos returned,List.filterMap_append,List.count_append,List.length_append]
      refine ⟨first.append sub,by omega,fun smooth => ?_⟩
      have rest_ : (watcher v).served (handle v bargeIn input).1 rest = true := ((Bool.and_eq_true _ _).mp smooth).2
      have here := heard returned
      have later := all rest_
      omega
    · rw [if_neg returned,List.append_nil]
      refine ⟨first.trans (List.sublist_append_left _ _),by omega,fun smooth => ?_⟩
      exact absurd ((Bool.and_eq_true _ _).mp smooth).1 returned

def runEvent (kind : String) : Input := .event .runs (dict [("kind",.str kind)]) false true

def heckled : List Input := [runEvent "run_started",.signal,runEvent "run_completed",runEvent "run_aborted"]

theorem interruptions_cost_one_heckled :
    let shown := ((watcher plainVoice).serve false heckled).2
    (heckled.filterMap (candidate plainVoice)).length = 3 ∧ stops shown = 1 ∧
      3 ≤ (shown.filterMap spoken).length + stops shown :=
  ⟨rfl,rfl,(interruptions_cost_one plainVoice false heckled).2.2 rfl⟩

-- However their attempts go, the status bar and the sidecar both wait a second after
-- the first, twice as long after each further refusal up to half a minute, and a second
-- again once they were served.
theorem followers_wait (h : Host) (fixed : Json → Except String String) (v : Voice) (bargeIn : Bool)
    (bars : List (Attempt (Ipc.Topic × Dict))) (voices : List (Attempt Input)) :
    Waits bars (((Waybar.watcher h fixed).watch () 1 bars).filterMap Act.slept) ∧
      Waits voices (((watcher v).watch bargeIn 1 voices).filterMap Act.slept) :=
  ⟨watch_waits _ _ _,watch_waits _ _ _⟩

end HyprlandAgent.Sidecar
