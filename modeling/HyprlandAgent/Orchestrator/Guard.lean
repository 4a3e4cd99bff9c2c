import HyprlandAgent.Coroutine.Monitor
import HyprlandAgent.Orchestrator

-- What stands between the brain and the desktop: a monitor that lets an action through
-- only after its own stop check and rate check, with the confirmations its kind needs.
namespace HyprlandAgent
open Coroutine Orchestrator Terminal

-- What acts on the desktop, the files or other programs for the brain. Waiting for a
-- process and killing it concern only one that was created before.
def Tool.acting : Tool → Bool
  | .readFile _ _ _ | .writeFile _ _ _ | .listDir _ _ | .mouseMove _ _ | .clipboardRead | .clipboardWrite _
  | .integrationsHandle _ | .createSubprocessExec _ | .createSubprocessShell _ _ => true
  | _ => false

def Op.acting : Op → Bool
  | .input _ | .dispatch _ => true
  | .tool asked => asked.acting
  | _ => false

-- What a monitor remembers: the brain's actions and those still to come, whether the
-- last stop check let the run go on, the action that was let through and has not been
-- performed, and what was found out for it.
structure Guard where
  decided : Option (List Action) := none
  queue : List Action := []
  running : Bool := false
  permit : Option Action := none
  confirmed : Option String := none
  present : Option (String × Bool) := none
  target : Option (Option Window) := none
  watched : Option (Int × Bool) := none

namespace Guard

def checkedRate (g : Guard) (kind : String) (allowed : Bool) : Guard :=
  match g.queue with
  | [] => { decided := g.decided }
  | action :: rest =>
    { decided := g.decided, queue := rest
      permit := if g.running && allowed && action.kind.value == kind then some action else none }

def noteTool (g : Guard) : (asked : Tool) → Except Exc asked.Res → Guard
  | .decide _ _ _ _,.ok actions => { decided := some actions, queue := actions }
  | .confirm prompt,.ok yes => { g with confirmed := if yes then some prompt else none }
  | .pathExists path,.ok there => { g with present := some (path,there) }
  | .processTreeContains pid markers,.ok found =>
    { g with watched := if markers = controlProcessMarkers then some (pid,found) else none }
  | asked,_ => if asked.acting then { g with permit := none } else g

def note (g : Guard) (asked : Asked effects) : Guard :=
  match asked.op,asked.reply with
  | .isStopped,.ok stopped => { g with running := !stopped, permit := none }
  | .checkLimit kind,.ok allowed => g.checkedRate kind allowed
  | .activeWindow,.ok window => { g with target := some window, watched := none }
  | .tool tool,reply => g.noteTool tool reply
  | .input _,_ | .dispatch _,_ => { g with permit := none }
  | _,_ => g

-- No terminal that a control process runs in has the focus, as far as was seen since
-- the action was let through.
def KeyboardSafe (h : Host) (g : Guard) : Prop :=
  g.target = some none ∨ ∃ window, g.target = some (some window) ∧
    (terminalClasses.contains (h.lower window.appClass) = false ∨ g.watched = some (window.pid,false))

def Serves (h : Host) (g : Guard) (action : Action) : Op → Prop
  | .input (.typeText text) =>
    action.kind = .typeText ∧ action.params.lookup "text" = some text ∧ g.KeyboardSafe h
  | .input (.key combo) => action.kind = .key ∧ action.params.lookup "combo" = some combo ∧ g.KeyboardSafe h
  | .input (.click button) => action.kind = .click ∧ button = get action.params "button" (.str "left")
  | .input (.scroll amount horizontal) => action.kind = .scroll ∧ action.params.lookup "amount" = some amount ∧
      horizontal = get action.params "horizontal" (.bool false)
  | .dispatch cmd =>
    (action.kind = .focusWindow ∧ ∃ address, action.params.lookup "address" = some address ∧
      cmd = "focuswindow address:" ++ h.str address) ∨
    (action.kind = .dispatch ∧ action.params.lookup "cmd" = some (.str cmd) ∧
      (isDestructiveDispatch h cmd = true → g.confirmed = some ("Hyprland dispatch: " ++ h.repr cmd)))
  | .tool (.mouseMove x y) =>
    action.kind = .mouseMove ∧ action.params.lookup "x" = some x ∧ action.params.lookup "y" = some y
  | .tool (.readFile path _ _) => action.kind = .readFile ∧ action.params.lookup "path" = some path
  | .tool (.writeFile path content append) => action.kind = .writeFile ∧
      action.params.lookup "path" = some (.str path) ∧ action.params.lookup "content" = some content ∧
      append = (get action.params "append" (.bool false)).truthy ∧
      (append = true ∨ g.present = some (path,false) ∨ g.confirmed = some ("Overwrite file: " ++ path))
  | .tool (.listDir path recursive) => action.kind = .listDir ∧ action.params.lookup "path" = some path ∧
      recursive = (get action.params "recursive" (.bool false)).truthy
  | .tool .clipboardRead => action.kind = .clipboardRead
  | .tool (.clipboardWrite text) => action.kind = .clipboardWrite ∧ action.params.lookup "text" = some text
  | .tool (.integrationsHandle asked) => asked = action ∧ action.kind ∈ [.notify,.updateStatus,.speak]
  | .tool (.createSubprocessExec argv) => action.kind = .terminalCommand ∧
      ∃ command title holdS, action.params.lookup "command" = some (.str command) ∧
        (h.sanitizeCommand command).1 = true ∧
        argv = ["foot","--title",title,"sh","-lc",shellScript h command holdS]
  | .tool (.createSubprocessShell command _) => action.kind = .terminalCommand ∧
      action.params.lookup "command" = some (.str command) ∧ (h.sanitizeCommand command).1 = true
  | _ => False

-- An action acts once, the brain is asked once, and the limiter is asked for each
-- action in its turn and under its own kind.
def Allows (h : Host) (g : Guard) (op : Op) : Prop :=
  if op.acting then ∃ action, g.permit = some action ∧ g.Serves h action op
  else
    match op with
    | .tool (.decide _ _ _ _) => g.decided = none
    | .checkLimit kind => ∃ action rest, g.queue = action :: rest ∧ kind = action.kind.value
    | _ => True

end Guard

def mediator (h : Host) : Coroutine.Monitor effects Guard := ⟨{},Guard.note,Guard.Allows h⟩

-- What neither acts nor concerns the queue, and what the monitor does not note at all.
def Op.calm : Op → Bool
  | .input _ | .dispatch _ | .checkLimit _ | .tool (.decide _ _ _ _) => false
  | .tool asked => !asked.acting
  | _ => true

def Op.silent : Op → Bool
  | .isStopped | .activeWindow | .tool (.confirm _) | .tool (.pathExists _) | .tool (.processTreeContains _ _) => false
  | op => op.calm

abbrev Op.Calm (op : Op) : Prop := op.calm = true
abbrev Op.Silent (op : Op) : Prop := op.silent = true
abbrev Op.Inert (op : Op) : Prop := op.acting = false

namespace Guard

def Unasked (g : Guard) : Prop := g.decided = none
def Left (rest : List Action) (g : Guard) : Prop := g.queue = rest
def Armed (rest : List Action) (g : Guard) : Prop := g.queue = rest ∧ g.running = true
def Permits (action : Action) (rest : List Action) (g : Guard) : Prop := g.queue = rest ∧ g.permit = some action

variable {h : Host} {g : Guard}

theorem allows_calm {op : Op} (calm : op.calm = true) : g.Allows h op := by
  cases op with
  | tool asked => cases asked <;> first | exact absurd calm Bool.false_ne_true | exact True.intro
  | _ => first | exact absurd calm Bool.false_ne_true | exact True.intro

theorem note_calm {op : Op} (calm : op.calm = true) (reply : effects.Reply op) :
    (g.note ⟨op,reply⟩).queue = g.queue ∧ (g.note ⟨op,reply⟩).decided = g.decided := by
  cases op with
  | tool asked => cases asked <;> first | exact absurd calm Bool.false_ne_true | (cases reply <;> exact ⟨rfl,rfl⟩)
  | _ => first | exact absurd calm Bool.false_ne_true | (cases reply <;> exact ⟨rfl,rfl⟩)

theorem note_silent {op : Op} (silent : op.silent = true) (reply : effects.Reply op) : g.note ⟨op,reply⟩ = g := by
  cases op with
  | tool asked => cases asked <;> first | exact absurd silent Bool.false_ne_true | (cases reply <;> rfl)
  | _ => first | exact absurd silent Bool.false_ne_true | (cases reply <;> rfl)

theorem silent_calm {op : Op} (silent : op.silent = true) : op.calm = true := by
  cases op with
  | tool asked => cases asked <;> first | exact absurd silent Bool.false_ne_true | rfl
  | _ => first | exact absurd silent Bool.false_ne_true | rfl

theorem calm_acting {op : Op} (calm : op.calm = true) : op.acting = false := by
  cases op with
  | tool asked => cases asked <;> first | exact absurd calm Bool.false_ne_true | rfl
  | _ => first | exact absurd calm Bool.false_ne_true | rfl

theorem note_acting {op : Op} (acting : op.acting = true) (reply : effects.Reply op) :
    (g.note ⟨op,reply⟩).queue = g.queue := by
  cases op with
  | tool asked => cases asked <;> first | exact absurd acting Bool.false_ne_true | (cases reply <;> rfl)
  | _ => first | exact absurd acting Bool.false_ne_true | (cases reply <;> rfl)

end Guard

def actionsOf (asked : Asked effects) : Option (List Action) :=
  match asked.op,asked.reply with
  | .tool (.decide _ _ _ _),.ok actions => some actions
  | _,_ => none

section
variable {h : Host} {g : Guard} {front : List (Asked effects)} {asked : Asked effects}

inductive Sorted (g : Guard) : Asked effects → Guard → Prop where
  | acts {asked : Asked effects} (acting : asked.op.acting = true) (same : actionsOf asked = none) :
      Sorted g asked { g with permit := none }
  | decides (brain : Brain) (state : ScreenState) (task : String) (context : BrainContext) (actions : List Action) :
      Sorted g ⟨.tool (.decide brain state task context),.ok actions⟩ { decided := some actions, queue := actions }
  | checks (kind : String) (allowed : Bool) : Sorted g ⟨.checkLimit kind,.ok allowed⟩ (g.checkedRate kind allowed)
  | stops (stopped : Bool) : Sorted g ⟨.isStopped,.ok stopped⟩ { g with running := !stopped, permit := none }
  | other {asked : Asked effects} {next : Guard} (inert : asked.op.Inert) (same : actionsOf asked = none)
      (queue : next.queue = g.queue) (decided : next.decided = g.decided) (permit : next.permit = g.permit)
      (running : next.running = g.running) : Sorted g asked next

theorem note_sorted (g : Guard) (asked : Asked effects) : Sorted g asked (g.note asked) := by
  obtain ⟨op,reply⟩ := asked
  cases op with
  | tool tool =>
    cases tool <;> cases reply <;>
      first
      | exact .decides _ _ _ _ _
      | exact .acts rfl rfl
      | exact .other rfl rfl rfl rfl rfl rfl
  | checkLimit kind =>
    cases reply with
    | ok allowed => exact .checks kind allowed
    | error exc => exact .other rfl rfl rfl rfl rfl rfl
  | isStopped =>
    cases reply with
    | ok stopped => exact .stops stopped
    | error exc => exact .other rfl rfl rfl rfl rfl rfl
  | _ => cases reply <;> first | exact .acts rfl rfl | exact .other rfl rfl rfl rfl rfl rfl

def Still (segment : List (Asked effects)) : Prop := ∀ asked ∈ segment, asked.op.Inert

theorem Still.snoc {segment : List (Asked effects)} (still : Still segment) (inert : asked.op.Inert) :
    Still (segment ++ [asked]) := by
  intro other inside
  rcases List.mem_append.mp inside with earlier | last
  · exact still other earlier
  · obtain rfl := List.mem_singleton.mp last
    exact inert

def Checked (front : List (Asked effects)) : Prop :=
  ∃ before middle, front = before ++ ⟨.isStopped,.ok false⟩ :: middle ∧ Still middle

def Cleared (front : List (Asked effects)) (action : Action) : Prop :=
  ∃ before recent, Checked before ∧ front = before ++ ⟨.checkLimit action.kind.value,.ok true⟩ :: recent ∧
    Still recent

theorem Checked.snoc (checked : Checked front) (inert : asked.op.Inert) : Checked (front ++ [asked]) := by
  obtain ⟨before,middle,rfl,still⟩ := checked
  exact ⟨before,middle ++ [asked],by simp,still.snoc inert⟩

theorem Cleared.snoc {action : Action} (cleared : Cleared front action) (inert : asked.op.Inert) :
    Cleared (front ++ [asked]) action := by
  obtain ⟨before,recent,checked,rfl,still⟩ := cleared
  exact ⟨before,recent ++ [asked],checked,by simp,still.snoc inert⟩

structure Recalls (h : Host) (front : List (Asked effects)) (g : Guard) : Prop where
  running : g.running = true → g.permit = none ∧ Checked front
  permit : ∀ action ∈ g.permit, Cleared front action
  once : (front.filterMap actionsOf).length ≤ 1
  asked : g.decided = none → front.filterMap actionsOf = []
  order : ∃ before served, (front.filterMap actionsOf).flatten = before ++ g.permit.toList ++ g.queue ∧
    served.Sublist before ∧
    List.Forall₂ (fun action asked => ∃ g : Guard, g.Serves h action asked.op) served
      (front.filter fun asked => asked.op.acting)

theorem recalls_step (recalls : Recalls h front g) (allowed : g.Allows h asked.op) :
    Recalls h (front ++ [asked]) (g.note asked) := by
  obtain ⟨running,permit,once,unasked,before,served,order,within,serves⟩ := recalls
  have silent (same : actionsOf asked = none) : (front ++ [asked]).filterMap actionsOf = front.filterMap actionsOf := by
    simp [same]
  have inertly (inert : asked.op.Inert) : (front ++ [asked]).filter (fun asked => asked.op.acting) =
      front.filter fun asked => asked.op.acting := by
    simp [show asked.op.acting = false from inert]
  have sorted := note_sorted g asked
  generalize g.note asked = next at sorted
  cases sorted with
  | acts acting same =>
    obtain ⟨action,granted,fits⟩ := (if_pos acting).mp allowed
    rw [granted] at order
    refine ⟨fun going => ?_,nofun,?_,?_,before ++ [action],served ++ [action],?_,?_,?_⟩
    · have free := (running going).1
      rw [granted] at free
      cases free
    · rwa [silent same]
    · rwa [silent same]
    · rw [silent same,order]
      simp
    · exact within.append_right [action]
    · rw [List.filter_append]
      exact List.rel_append serves (by simpa [acting] using ⟨g,fits⟩)
  | decides brain state task context actions =>
    have fresh : front.filterMap actionsOf = [] := unasked allowed
    have more : (front ++ [(⟨.tool (.decide brain state task context),.ok actions⟩ : Asked effects)]).filterMap actionsOf = [actions] := by
      rw [List.filterMap_append,fresh]
      rfl
    rw [fresh] at order
    have empty : before = [] ∧ g.permit.toList ++ g.queue = [] := by simpa using order.symm
    refine ⟨nofun,nofun,by rw [more]; exact Nat.le_refl 1,nofun,[],served,?_,?_,?_⟩
    · rw [more]
      simp
    · rwa [empty.1] at within
    · rwa [inertly rfl]
  | checks kind allowed_ =>
    obtain ⟨action,rest,queue,rfl⟩ := allowed
    have same : (front ++ [(⟨.checkLimit action.kind.value,.ok allowed_⟩ : Asked effects)]).filterMap actionsOf =
        front.filterMap actionsOf := silent rfl
    have next : g.checkedRate action.kind.value allowed_ =
        { decided := g.decided, queue := rest, permit := if g.running && allowed_ then some action else none } := by
      unfold Guard.checkedRate
      rw [queue]
      simp
    rw [next]
    have sub : served.Sublist (before ++ g.permit.toList) := within.trans (List.sublist_append_left _ _)
    refine ⟨nofun,?_,by rwa [same],by rwa [same],?_⟩
    · intro other granted
      split at granted
      · rename_i both
        obtain rfl := Option.some.inj granted
        obtain ⟨going,rfl⟩ := Bool.and_eq_true_iff.mp both
        exact ⟨front,[],(running going).2,rfl,fun _ impossible => absurd impossible List.not_mem_nil⟩
      · cases granted
    · rw [same,inertly rfl,order,queue]
      split
      · exact ⟨before ++ g.permit.toList,served,by simp,sub,serves⟩
      · exact ⟨before ++ g.permit.toList ++ [action],served,by simp,sub.trans (List.sublist_append_left _ _),serves⟩
  | stops stopped =>
    have same : (front ++ [(⟨.isStopped,.ok stopped⟩ : Asked effects)]).filterMap actionsOf = front.filterMap actionsOf := silent rfl
    refine ⟨?_,nofun,by rwa [same],by rwa [same],before ++ g.permit.toList,served,?_,?_,?_⟩
    · intro going
      cases stopped with
      | true => cases going
      | false => exact ⟨rfl,front,[],rfl,fun _ impossible => absurd impossible List.not_mem_nil⟩
    · rw [same,order]
      simp
    · exact within.trans (List.sublist_append_left _ _)
    · rwa [inertly rfl]
  | other inert same queue decided permit_ running_ =>
    refine ⟨?_,?_,by rwa [silent same],?_,before,served,?_,within,?_⟩
    · rw [running_,permit_]
      exact fun going => ⟨(running going).1,(running going).2.snoc inert⟩
    · rw [permit_]
      exact fun action granted => (permit action granted).snoc inert
    · rw [decided,silent same]
      exact unasked
    · rw [silent same,order,permit_,queue]
    · rwa [inertly inert]

-- Every operation that acts comes after a stop check and a rate check of its own, and
-- is what the action that passed them asks for; the brain is asked once at most, and
-- its actions are served in order, none of them twice.
structure Mediated (h : Host) (trace : List (Asked effects)) : Prop where
  cleared : ∀ front asked rest, trace = front ++ asked :: rest → asked.op.acting = true →
    ∃ action, Cleared front action ∧ ((mediator h).after front).Serves h action asked.op
  once : (trace.filterMap actionsOf).length ≤ 1
  order : ∃ served : List Action, served.Sublist (trace.filterMap actionsOf).flatten ∧
    List.Forall₂ (fun action asked => ∃ g : Guard, g.Serves h action asked.op) served
      (trace.filter fun asked => asked.op.acting)

theorem recalls_after {trace : List (Asked effects)} (accepted : (mediator h).Accepts trace) :
    Recalls h trace ((mediator h).after trace) := by
  refine accepted.invariant ⟨nofun,nofun,Nat.zero_le _,fun _ => rfl,[],[],rfl,.slnil,.nil⟩ ?_
  exact fun front asked g recalls allowed => recalls_step recalls allowed

theorem Mediated.of_accepts {trace : List (Asked effects)} (accepted : (mediator h).Accepts trace) :
    Mediated h trace := by
  have recalls := recalls_after accepted
  refine ⟨?_,recalls.once,?_⟩
  · rintro front asked rest rfl acting
    obtain ⟨action,granted,serves⟩ := (if_pos acting).mp (accepted front asked rest rfl)
    exact ⟨action,(recalls_after accepted.front).permit action granted,serves⟩
  · obtain ⟨before,served,order,within,serves⟩ := recalls.order
    rw [order]
    exact ⟨served,(within.trans (List.sublist_append_left _ _)).trans (List.sublist_append_left _ _),serves⟩

end

end HyprlandAgent
