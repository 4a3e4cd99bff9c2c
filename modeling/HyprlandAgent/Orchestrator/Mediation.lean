import HyprlandAgent.Daemon.Rehearsal
import HyprlandAgent.Daemon.Wrapping
import HyprlandAgent.Orchestrator.Guard

-- The agent's coroutines never run into the monitor.
namespace HyprlandAgent
open Coroutine Orchestrator RunExecutor Terminal

section
variable {h : Host} {run : RunId} {P E : Guard → Prop} {rest : List Action} {action : Action}

-- Rules for the steps of an action: the monitor sees nothing of some, one of them acts,
-- and others only look something up.
theorem silent_keeps {p : Async α} (all : p.All Op.Silent) : (mediator h).Watched P p fun _ => P := by
  refine Coroutine.Monitor.watched_along all (fun op silent s _ => Guard.allows_calm (Guard.silent_calm silent)) ?_
  intro op silent s reply holds
  rw [show (mediator h).note s ⟨op,reply⟩ = s from Guard.note_silent silent reply]
  exact holds

theorem calm_left {p : Async α} (all : p.All Op.Calm) :
    (mediator h).Watched (Guard.Left rest) p fun _ => Guard.Left rest := by
  refine Coroutine.Monitor.watched_along all (fun op calm s _ => Guard.allows_calm calm) ?_
  intro op calm s reply holds
  exact (Guard.note_calm calm reply).1.trans holds

theorem calm_unasked {p : Async α} (all : p.All Op.Calm) :
    (mediator h).Watched Guard.Unasked p fun _ => Guard.Unasked := by
  refine Coroutine.Monitor.watched_along all (fun op calm s _ => Guard.allows_calm calm) ?_
  intro op calm s reply holds
  exact (Guard.note_calm calm reply).2.trans holds

theorem silent_then {p : Async α} {next : α → Async β} {Q : Except Exc β → Guard → Prop}
    (weaker : ∀ exc g, P g → Q (.error exc) g) (all : p.All Op.Silent)
    (second : ∀ value, (mediator h).Watched P (next value) Q) : (mediator h).Watched P (p >>= next) Q := by
  have first : (mediator h).Watched P p (ending (fun _ => P) fun exc => Q (.error exc)) := by
    refine (silent_keeps all).mono ?_
    intro result g holds
    cases result with
    | ok value => exact holds
    | error exc => exact weaker exc g holds
  exact Triple.bind first second

theorem acts_then {op : Op} {next : op.Res → Async β} (acting : op.acting = true)
    (left : ∀ g, P g → Guard.Left rest g) (allowed : ∀ g, P g → ∃ action, g.permit = some action ∧ g.Serves h action op)
    (second : ∀ value, (next value).All Op.Calm) :
    (mediator h).Watched P (perform op >>= next) fun _ => Guard.Left rest := by
  refine Triple.chain (E:=Guard.Left rest) ?_ fun value => calm_left (second value)
  refine Coroutine.Monitor.watched_perform ?_ ?_
  · intro g holds
    exact (if_pos acting).mpr (allowed g holds)
  · intro g reply holds
    exact (Guard.note_acting acting reply).trans (left g holds)

theorem item_then {params : Dict} {key : String} {next : Json → Async β} (weaker : ∀ g, P g → E g)
    (second : ∀ value, params.lookup key = some value → (mediator h).Watched P (next value) fun _ => E) :
    (mediator h).Watched P (item params key >>= next) fun _ => E := by
  unfold item
  cases found : params.lookup key with
  | none => exact Triple.raise weaker
  | some value => exact second value found

theorem expectStr_then {value : Json} {next : String → Async β} (weaker : ∀ g, P g → E g)
    (second : ∀ text, value = .str text → (mediator h).Watched P (next text) fun _ => E) :
    (mediator h).Watched P (expectStr value >>= next) fun _ => E := by
  unfold expectStr
  split
  · exact second _ rfl
  · exact Triple.raise weaker

theorem convert_then {result : Except String α} {next : α → Async β} (weaker : ∀ g, P g → E g)
    (second : ∀ value, (mediator h).Watched P (next value) fun _ => E) :
    (mediator h).Watched P (convert result >>= next) fun _ => E := by
  unfold convert
  split
  · exact second _
  · exact Triple.raise weaker

theorem returns {value : α} (weaker : ∀ g, P g → E g) :
    (mediator h).Watched P (pure value : Async α) fun _ => E := Triple.pure weaker

theorem looks {op : Op} {Q : effects.Reply op → Guard → Prop} (calm : op.Calm)
    (after : ∀ (g : Guard) (reply : effects.Reply op), P g → Q reply (g.note ⟨op,reply⟩)) :
    (mediator h).Watched P (perform op) Q :=
  Coroutine.Monitor.watched_perform (fun _ _ => Guard.allows_calm calm) after

theorem emit_silent (kind : String) (payload : Dict) :
    ((contextOf h run).emit kind payload).All Op.Silent := by
  refine Prog.All.bind (.perform rfl) fun seq => .bind (.perform rfl) fun ts => .bind (.perform rfl) fun _ => ?_
  refine .bind ?_ fun _ => .perform rfl
  unfold audit
  split
  · exact .perform rfl
  · exact .pure _

theorem emit_calm (kind : String) (payload : Dict) :
    (emit (some (contextOf h run)) kind payload).All Op.Calm :=
  Prog.All.imp (fun _ silent => Guard.silent_calm silent) (emit_silent kind payload)

theorem terminateProcess_calm (proc : Process) : (terminateProcess proc).All Op.Calm := by
  have killed : ∀ {signal : String} {next : Async Unit}, next.All Op.Calm →
      (killThen (ask (.killpg proc signal)) next).All Op.Calm := by
    intro signal next others
    refine .settle (.perform rfl) fun result => ?_
    split
    · exact others
    · exact .pure _
    · exact .raise _
  refine .bind (.perform rfl) fun code => ?_
  split
  · exact .pure _
  · refine killed (.settle (.bind (.perform rfl) fun _ => .pure _) fun result => ?_)
    split
    · exact .pure _
    · dsimp only
      split
      · exact killed (.bind (.perform rfl) fun _ => .pure _)
      · exact .raise _

theorem buildState_calm (task : String) :
    (buildState task (some (contextOf h run))).All Op.Calm := by
  have seen : ∀ active : Option Window, Prog.All (S:=effects) Op.Calm (do
      let png ← ask .screenFull
      let mon ← ask .activeMonitor
      let width := (mon.map HyprlandAgent.Monitor.width).getD 1920
      let height := (mon.map HyprlandAgent.Monitor.height).getD 1080
      let wins ← ask .clients
      emit (some (contextOf h run)) "state" (dict [("active",(active.map Window.modelDump).getD .null)])
      return ((⟨png,width,height,active,wins⟩ : ScreenState),true)) := fun active =>
    .bind (.perform rfl) fun _ => .bind (.perform rfl) fun _ => .bind (.perform rfl) fun _ =>
      .bind (emit_calm _ _) fun _ => .pure _
  refine .bind (.bind (.perform rfl) fun _ => .perform rfl) fun _ => .bind (emit_calm _ _) fun _ =>
    .bind (.perform rfl) fun active => ?_
  cases active with
  | none => exact seen none
  | some window =>
    refine .bind (.perform rfl) fun allowed => ?_
    split
    · exact .bind (emit_calm _ _) fun _ => .pure _
    · exact seen (some window)

theorem runCommand_mediated {command : String} (kind : action.kind = .terminalCommand)
    (asked : action.params.lookup "command" = some (.str command)) (safe : (h.sanitizeCommand command).1 = true)
    (runId : RunId) (holdS : Seconds) (visible : Bool) (captureCap : Nat) (stdin : Json) :
    (mediator h).Watched (Guard.Permits action rest)
      (runCommand h command runId (some (contextOf h run).emit) holdS visible captureCap stdin)
      fun _ => Guard.Left rest := by
  have calm := fun kind payload => Prog.All.imp (fun _ silent => Guard.silent_calm silent)
    (emit_silent kind payload : ((contextOf h run).emit kind payload).All Op.Silent)
  unfold runCommand
  split
  · refine silent_then (fun _ _ => And.left) (emit_silent _ _) fun _ => ?_
    refine acts_then rfl (fun _ => And.left) ?_ fun proc => ?_
    · exact fun g permits => ⟨action,permits.2,kind,command,_,_,asked,safe,rfl⟩
    · refine .bind (.settle (.perform rfl) fun result => ?_) fun code => .bind (calm _ _) fun _ => ?_
      · split
        · exact .pure _
        · dsimp only
          split
          · exact .bind (terminateProcess_calm proc) fun _ => .bind (calm _ _) fun _ => .raise _
          · exact .bind (terminateProcess_calm proc) fun _ => .bind (calm _ _) fun _ => .raise _
          · exact .raise _
      · split
        · exact .raise _
        · exact .pure _
  · refine silent_then (fun _ _ => And.left) (emit_silent _ _) fun _ => ?_
    refine acts_then rfl (fun _ => And.left) ?_ fun proc => ?_
    · exact fun g permits => ⟨action,permits.2,kind,asked,safe⟩
    · have communicate : Prog.All Op.Calm (if stdin == .null then ask (.procCommunicate proc none defaultTimeout)
          else do ask (.procCommunicate proc (some (h.encode (← expectStr stdin))) defaultTimeout)) := by
        split
        · exact .perform rfl
        · refine .bind ?_ fun _ => .perform rfl
          unfold expectStr
          split
          · exact .pure _
          · exact .raise _
      refine .bind (.settle communicate fun result => ?_) fun output => .bind (.perform rfl) fun code =>
        .bind (calm _ _) fun _ => ?_
      · split
        · exact .pure _
        · dsimp only
          split
          · exact .bind (.perform rfl) fun _ => .bind (.perform rfl) fun _ => .bind (calm _ _) fun _ => .raise _
          · exact .bind (.perform rfl) fun _ => .bind (.perform rfl) fun _ => .bind (calm _ _) fun _ => .raise _
          · exact .raise _
      · split
        · exact .raise _
        · exact .pure _

theorem terminalCommand_mediated (kind : action.kind = .terminalCommand) (appState : Option AgentConfig) :
    (mediator h).Watched (Guard.Permits action rest)
      (terminalCommand h action.params (some (contextOf h run)) appState) fun _ => Guard.Left rest := by
  unfold terminalCommand
  refine item_then (fun _ => And.left) fun value found => expectStr_then (fun _ => And.left) fun command text => ?_
  subst text
  split
  rename_i safe reason screened
  split
  · exact returns fun _ => And.left
  · rename_i passed
    have clean : (h.sanitizeCommand command).1 = true := by
      rw [screened]
      simpa using passed
    refine convert_then (fun _ => And.left) fun holdS => ?_
    refine Triple.chain (runCommand_mediated kind found clean _ _ _ _ _) fun output => ?_
    exact returns fun _ left => left

theorem keyboardTarget_mediated : (mediator h).Watched (Guard.Permits action rest)
    (ensureKeyboardTargetIsSafe h (some (contextOf h run)))
    (ending (fun safe g => g.Permits action rest ∧ (safe = true → g.KeyboardSafe h)) fun _ => Guard.Left rest) := by
  have found : (mediator h).Watched (Guard.Permits action rest) (focusedControlTerminal h)
      (ending (fun active g => g.Permits action rest ∧ (active = none → g.KeyboardSafe h)) fun _ => Guard.Left rest) := by
    unfold focusedControlTerminal
    have looked : (mediator h).Watched (Guard.Permits action rest) (perform .activeWindow)
        (ending (fun active g => g.Permits action rest ∧ g.target = some active) fun _ => Guard.Left rest) := by
      refine looks rfl fun g reply permits => ?_
      cases reply with
      | ok active => exact ⟨permits,rfl⟩
      | error exc => exact permits.1
    refine Triple.bind looked fun active => ?_
    cases active with
    | none => exact Triple.pure fun g held => ⟨held.1,fun _ => .inl held.2⟩
    | some window =>
      dsimp only
      split
      · rename_i other
        refine Triple.pure fun g held => ⟨held.1,fun _ => .inr ⟨window,held.2,.inl ?_⟩⟩
        simpa using other
      · have searched : (mediator h).Watched (fun g => g.Permits action rest ∧ g.target = some (some window))
            (ask (.processTreeContains window.pid controlProcessMarkers))
            (ending (fun inside g => g.Permits action rest ∧ g.target = some (some window) ∧
              g.watched = some (window.pid,inside)) fun _ => Guard.Left rest) := by
          refine looks rfl fun g reply held => ?_
          cases reply with
          | ok inside => exact ⟨held.1,held.2,rfl⟩
          | error exc => exact held.1.1
        refine Triple.bind searched fun inside => ?_
        cases inside with
        | false => exact Triple.pure fun g held => ⟨held.1,fun _ => .inr ⟨window,held.2.1,.inr held.2.2⟩⟩
        | true => exact Triple.pure fun g held => ⟨held.1,nofun⟩
  unfold ensureKeyboardTargetIsSafe
  refine Triple.bind found fun active => ?_
  cases active with
  | none => exact Triple.pure fun g held => ⟨held.1,fun _ => held.2 rfl⟩
  | some window =>
    refine silent_then (fun _ _ held => held.1.1) (emit_silent _ _) fun _ => ?_
    exact Triple.pure fun g held => ⟨held.1,nofun⟩

theorem keyboard_mediated {kind : ActionKind} {key : String} {input : Json → Input}
    (serves : ∀ (g : Guard) value, action.params.lookup key = some value → g.KeyboardSafe h →
      g.Serves h action (.input (input value))) :
    (mediator h).Watched (Guard.Permits action rest)
      (keyboard h kind action.params (some (contextOf h run)) key input) fun _ => Guard.Left rest := by
  unfold keyboard
  refine Triple.bind keyboardTarget_mediated fun safe => ?_
  cases safe with
  | false => exact returns fun _ held => held.1.1
  | true =>
    refine item_then (fun _ held => held.1.1) fun value found => ?_
    refine acts_then rfl (fun _ held => held.1.1) ?_ fun _ => .pure _
    exact fun g held => ⟨action,held.1.2,serves g value found (held.2 rfl)⟩

theorem confirmIf_mediated {X : Guard → Prop} {destructive : Bool} {prompt : String}
    (weaker : ∀ g, X g → Guard.Left rest g) (framed : ∀ g confirmed, X g → X { g with confirmed := confirmed }) :
    (mediator h).Watched X (confirmIf destructive prompt)
      (ending (fun yes g => X g ∧ (yes = true → destructive = true → g.confirmed = some prompt))
        fun _ => Guard.Left rest) := by
  unfold confirmIf
  split
  · refine looks rfl fun g reply held => ?_
    cases reply with
    | ok yes => exact ⟨framed g _ held,fun agreed _ => if_pos agreed⟩
    | error exc => exact weaker g held
  · rename_i harmless
    exact Triple.pure fun g held => ⟨held,fun _ destructive => absurd destructive harmless⟩

theorem dispatchCommand_mediated (kind : action.kind = .dispatch) :
    (mediator h).Watched (Guard.Permits action rest) (dispatchCommand h action.params)
      fun _ => Guard.Left rest := by
  unfold dispatchCommand
  refine item_then (fun _ => And.left) fun value found => expectStr_then (fun _ => And.left) fun cmd text => ?_
  subst text
  refine Triple.bind (confirmIf_mediated (fun _ => And.left) fun _ _ held => held) fun yes => ?_
  cases yes with
  | false => exact returns fun _ held => held.1.1
  | true =>
    refine acts_then rfl (fun _ held => held.1.1) ?_ fun _ => .pure _
    exact fun g held => ⟨action,held.1.2,.inr ⟨kind,found,held.2 rfl⟩⟩

theorem caught {p : Async α} {handler : Exc → Async α} (first : (mediator h).Watched P p fun _ => E)
    (second : ∀ exc, (mediator h).Watched E (handler exc) fun _ => E) :
    (mediator h).Watched P (tryCatch p handler) fun _ => E := by
  refine Triple.settle first fun result => ?_
  cases result with
  | ok value => exact returns fun _ held => held
  | error exc => exact second exc

theorem blockedBy_mediated (kind : ActionKind) (exc : Exc) :
    (mediator h).Watched E (blockedBy kind exc) fun _ => E := by
  cases exc <;> first | exact Triple.pure fun _ held => held | exact Triple.raise fun _ held => held

theorem readFile_mediated (kind : action.kind = .readFile) :
    (mediator h).Watched (Guard.Permits action rest) (readFile h action.params) fun _ => Guard.Left rest := by
  unfold readFile
  refine caught ?_ fun exc => blockedBy_mediated _ exc
  refine item_then (fun _ => And.left) fun path found => convert_then (fun _ => And.left) fun offset =>
    convert_then (fun _ => And.left) fun limit => ?_
  refine acts_then rfl (fun _ => And.left) ?_ fun _ => .pure _
  exact fun g permits => ⟨action,permits.2,kind,found⟩

theorem listDir_mediated (kind : action.kind = .listDir) :
    (mediator h).Watched (Guard.Permits action rest) (listDir action.params) fun _ => Guard.Left rest := by
  unfold listDir
  refine caught ?_ fun exc => blockedBy_mediated _ exc
  refine item_then (fun _ => And.left) fun path found => ?_
  refine acts_then rfl (fun _ => And.left) ?_ fun _ => .pure _
  exact fun g permits => ⟨action,permits.2,kind,found,rfl⟩

theorem writeFile_mediated (kind : action.kind = .writeFile) :
    (mediator h).Watched (Guard.Permits action rest) (writeFile action.params) fun _ => Guard.Left rest := by
  unfold writeFile
  refine item_then (fun _ => And.left) fun value found => expectStr_then (fun _ => And.left) fun path text => ?_
  subst text
  have looked : (mediator h).Watched (Guard.Permits action rest) (ask (.pathExists path))
      (ending (fun there g => g.Permits action rest ∧ g.present = some (path,there)) fun _ => Guard.Left rest) := by
    refine looks rfl fun g reply held => ?_
    cases reply with
    | ok there => exact ⟨held,rfl⟩
    | error exc => exact held.1
  refine Triple.bind looked fun there => ?_
  refine Triple.bind (confirmIf_mediated (fun _ held => held.1.1) fun _ _ held => held) fun yes => ?_
  cases yes with
  | false => exact returns fun _ held => held.1.1.1
  | true =>
    refine caught ?_ fun exc => ?_
    · refine item_then (fun _ held => held.1.1.1) fun content carried => ?_
      refine acts_then rfl (fun _ held => held.1.1.1) ?_ fun _ => .pure _
      intro g held
      refine ⟨action,held.1.1.2,kind,found,carried,rfl,?_⟩
      cases there with
      | false => exact .inr (.inl held.1.2)
      | true =>
        by_cases append : (get action.params "append" (.bool false)).truthy = true
        · exact .inl append
        · exact .inr (.inr (held.2 rfl (by simp [append])))
    · cases exc <;> first | exact Triple.pure fun _ left => left | exact Triple.raise fun _ left => left

theorem integrate_mediated (kind : action.kind ∈ [.notify,.updateStatus,.speak]) (appState : Option AgentConfig) :
    (mediator h).Watched (Guard.Permits action rest) (integrate action appState) fun _ => Guard.Left rest := by
  unfold integrate
  split
  · exact returns fun _ => And.left
  · refine acts_then rfl (fun _ => And.left) ?_ fun handled => ?_
    · exact fun g permits => ⟨action,permits.2,rfl,kind⟩
    · cases handled with
      | none => exact .pure _
      | some handled => exact .pure _

theorem serves_then {op : Op} {next : op.Res → Async β} (acting : op.acting = true)
    (second : ∀ value, (next value).All Op.Calm) (serves : ∀ g : Guard, g.Serves h action op) :
    (mediator h).Watched (Guard.Permits action rest) (perform op >>= next) fun _ => Guard.Left rest :=
  acts_then acting (fun _ => And.left) (fun g permits => ⟨action,permits.2,serves g⟩) second

theorem performAction_mediated (appState : Option AgentConfig) :
    (mediator h).Watched (Guard.Permits action rest) (performAction h action (some (contextOf h run)) appState)
      fun _ => Guard.Left rest := by
  unfold performAction
  dsimp only
  cases kind : action.kind with
  | screenshot => exact returns fun _ => And.left
  | terminalCommand => exact terminalCommand_mediated kind appState
  | typeText =>
    refine keyboard_mediated ?_
    exact fun g value found safe => ⟨kind,found,safe⟩
  | key =>
    refine keyboard_mediated ?_
    exact fun g value found safe => ⟨kind,found,safe⟩
  | mouseMove =>
    refine item_then (fun _ => And.left) fun x first => item_then (fun _ => And.left) fun y second => ?_
    refine serves_then rfl (fun _ => .pure _) ?_
    exact fun g => ⟨kind,first,second⟩
  | click =>
    refine serves_then rfl (fun _ => .pure _) ?_
    exact fun g => ⟨kind,rfl⟩
  | scroll =>
    refine item_then (fun _ => And.left) fun amount found => ?_
    refine serves_then rfl (fun _ => .pure _) ?_
    exact fun g => ⟨kind,found,rfl⟩
  | focusWindow =>
    refine item_then (fun _ => And.left) fun address found => ?_
    refine serves_then rfl (fun _ => .pure _) ?_
    exact fun g => .inl ⟨kind,address,found,rfl⟩
  | dispatch => exact dispatchCommand_mediated kind
  | readFile => exact readFile_mediated kind
  | writeFile => exact writeFile_mediated kind
  | listDir => exact listDir_mediated kind
  | clipboardRead =>
    refine serves_then rfl (fun _ => .pure _) ?_
    exact fun g => kind
  | clipboardWrite =>
    refine item_then (fun _ => And.left) fun text found => ?_
    refine serves_then rfl (fun _ => .pure _) ?_
    exact fun g => ⟨kind,found⟩
  | notify => exact integrate_mediated (by simp [kind]) appState
  | updateStatus => exact integrate_mediated (by simp [kind]) appState
  | speak => exact integrate_mediated (by simp [kind]) appState

theorem executeAction_mediated (appState : Option AgentConfig) :
    (mediator h).Watched (Guard.Armed (action :: rest))
      (executeAction h action (some (contextOf h run)) appState)
      (ending (fun _ => Guard.Left rest) fun _ _ => True) := by
  unfold executeAction
  have configured : (configureLimiter appState).All Op.Silent := by
    unfold configureLimiter
    split
    · refine .bind (.perform rfl) fun configured => ?_
      split
      · exact .perform rfl
      · exact .pure _
    · exact .pure _
  refine silent_then (fun _ _ _ => trivial) configured fun _ => ?_
  have checked : (mediator h).Watched (Guard.Armed (action :: rest)) (perform (.checkLimit action.kind.value))
      (ending (fun allowed g => if allowed then g.Permits action rest else g.Left rest) fun _ _ => True) := by
    refine Coroutine.Monitor.watched_perform ?_ fun g reply armed => ?_
    · exact fun g armed => ⟨action,rest,armed.1,rfl⟩
    · cases reply with
      | error exc => trivial
      | ok allowed =>
        have admitted : (mediator h).note g ⟨.checkLimit action.kind.value,.ok allowed⟩ =
            { decided := g.decided, queue := rest, permit := if allowed then some action else none } := by
          show g.checkedRate action.kind.value allowed = _
          unfold Guard.checkedRate
          rw [armed.1,armed.2]
          simp
        rw [admitted]
        cases allowed with
        | false => rfl
        | true => exact ⟨rfl,rfl⟩
  refine Triple.bind checked fun allowed => ?_
  cases allowed with
  | false => exact Triple.pure fun _ left => left
  | true =>
    refine (performAction_mediated appState).mono ?_
    intro result g left
    cases result with
    | ok value => exact left
    | error exc => trivial

theorem left_calm {p : Async α} {next : α → Async β} (all : p.All Op.Calm)
    (second : ∀ value, (mediator h).Watched (Guard.Left rest) (next value) fun _ _ => True) :
    (mediator h).Watched (Guard.Left rest) (p >>= next) fun _ _ => True := by
  refine Triple.bind (Triple.mono ?_ (calm_left all)) second
  intro result g left
  cases result with
  | ok value => exact left
  | error exc => trivial

theorem verify_calm (preHash : Option String) (result : ActionResult) : (verify h preHash result).All Op.Calm := by
  unfold verify
  split
  · exact .pure _
  · refine .settle (.bind (.perform rfl) fun png => ?_) fun ended => ?_
    · split
      · exact .pure _
      · exact .pure _
    · split
      · exact .pure _
      · dsimp only
        split
        · exact .raise _
        · exact .pure _

theorem runActions_mediated (state : ScreenState) (appState : Option AgentConfig) (detector : LoopDetector)
    (actions : List Action) : (mediator h).Watched (Guard.Left actions)
      (runActions h state (some (contextOf h run)) appState detector actions) fun _ _ => True := by
  induction actions generalizing detector with
  | nil => exact (calm_left (emit_calm _ _)).mono fun _ _ _ => trivial
  | cons action rest ih =>
    unfold runActions
    have checked : (mediator h).Watched (Guard.Left (action :: rest)) (perform .isStopped)
        (ending (fun stopped g => if stopped then g.Left (action :: rest) else g.Armed (action :: rest))
          fun _ _ => True) := by
      refine looks rfl fun g reply left => ?_
      cases reply with
      | error exc => trivial
      | ok stopped =>
        cases stopped with
        | false => exact ⟨left,rfl⟩
        | true => exact left
    refine Triple.bind checked fun stopped => ?_
    cases stopped with
    | true => exact left_calm (emit_calm _ _) fun _ => Triple.pure fun _ _ => trivial
    | false =>
      refine silent_then (fun _ _ _ => trivial) (emit_silent _ _) fun _ => ?_
      refine Triple.bind (executeAction_mediated appState) fun result => ?_
      refine left_calm (verify_calm _ _) fun result => ?_
      refine left_calm ?_ fun _ => ?_
      · unfold reportResult
        split
        · exact emit_calm _ _
        · exact .pure _
      · dsimp only
        split
        · exact left_calm (emit_calm _ _) fun _ => Triple.raise fun _ _ => trivial
        · exact left_calm (.perform rfl) fun _ => ih _

theorem unasked_calm {p : Async α} {next : α → Async β} (all : p.All Op.Calm)
    (second : ∀ value, (mediator h).Watched Guard.Unasked (next value) fun _ _ => True) :
    (mediator h).Watched Guard.Unasked (p >>= next) fun _ _ => True := by
  refine Triple.bind ((calm_unasked all).mono ?_) second
  intro result g held
  cases result with
  | ok value => exact held
  | error exc => trivial

theorem decide_left (brain : Brain) (state : ScreenState) (task : String) (context : BrainContext) :
    (mediator h).Watched Guard.Unasked (ask (.decide brain state task context))
      (ending (fun actions => Guard.Left actions) fun _ _ => True) := by
  refine Coroutine.Monitor.watched_perform (fun g held => held) fun g reply held => ?_
  cases reply with
  | ok actions => rfl
  | error exc => trivial

theorem recordActions_calm (actions : List Action) :
    (recordActions (some (contextOf h run)) actions).All Op.Calm := by
  induction actions with
  | nil => exact .pure _
  | cons action rest ih => exact .bind (emit_calm _ _) fun _ => ih

theorem plan_told (actions : List Action) : Prog.All (S:=effects) Op.Calm (do
    emit (some (contextOf h run)) "actions" (dict [("count",.int actions.length)])
    recordActions (some (contextOf h run)) actions
    emit (some (contextOf h run)) "done" ∅) :=
  .bind (emit_calm _ _) fun _ => .bind (recordActions_calm actions) fun _ => emit_calm _ _

theorem run_mediated (task : String) (brain : Brain) (appState : Option AgentConfig) :
    (mediator h).Watched Guard.Unasked (Orchestrator.run h task brain (some (contextOf h run)) appState)
      fun _ _ => True := by
  unfold Orchestrator.run
  refine unasked_calm (buildState_calm task) fun built => ?_
  dsimp only
  split
  · exact Triple.pure fun _ _ => trivial
  · refine unasked_calm (.perform rfl) fun stopped => ?_
    split
    · exact unasked_calm (emit_calm _ _) fun _ => Triple.pure fun _ _ => trivial
    · refine unasked_calm (.perform rfl) fun context => ?_
      refine Triple.bind (decide_left _ _ _ _) fun actions => left_calm (.perform rfl) fun stopped => ?_
      split
      · exact left_calm (emit_calm _ _) fun _ => Triple.pure fun _ _ => trivial
      · exact left_calm (emit_calm _ _) fun _ => runActions_mediated _ _ _ _

theorem plan_mediated (task : String) (brain : Brain) (appState : Option AgentConfig) :
    (mediator h).Watched Guard.Unasked (plan task brain (some (contextOf h run)) appState) fun _ _ => True := by
  unfold plan
  refine unasked_calm (buildState_calm task) fun built => ?_
  dsimp only
  split
  · exact Triple.pure fun _ _ => trivial
  · refine unasked_calm (.perform rfl) fun stopped => ?_
    split
    · exact unasked_calm (emit_calm _ _) fun _ => Triple.pure fun _ _ => trivial
    · refine unasked_calm (.perform rfl) fun context => Triple.bind (decide_left _ _ _ _) fun actions => ?_
      exact (calm_left (plan_told actions)).mono fun _ _ _ => trivial

theorem plan_inert (task : String) (brain : Brain) (appState : Option AgentConfig) :
    (plan task brain (some (contextOf h run)) appState).All Op.Inert := by
  have calm {α : Type} {p : Async α} (all : p.All Op.Calm) : p.All Op.Inert :=
    Prog.All.imp (fun _ calm => Guard.calm_acting calm) all
  unfold plan
  refine .bind (calm (buildState_calm task)) fun built => ?_
  dsimp only
  split
  · exact .pure _
  · refine .bind (.perform rfl) fun stopped => ?_
    split
    · exact .bind (calm (emit_calm _ _)) fun _ => .pure _
    · exact .bind (.perform rfl) fun context => .bind (.perform rfl) fun actions => calm (plan_told actions)

theorem runTask_mediated (kind : RunKind) (task : String) (brain : Brain) :
    (mediator h).Watched Guard.Unasked (runTask h run kind task brain) fun _ _ => True := by
  have books (op : Op) (books : Bookkeeping run op) :
      (mediator h).Watched (fun _ => True) (perform op) fun _ _ => True := by
    refine looks ?_ fun _ _ _ => trivial
    cases books <;> rfl
  have unasked {op : Op} (silent : op.Silent) :
      (mediator h).Watched Guard.Unasked (perform op) (ending (fun _ => Guard.Unasked) fun _ _ => True) := by
    refine (silent_keeps (.perform silent)).mono fun result g held => ?_
    cases result with
    | ok value => exact held
    | error exc => trivial
  refine runTask_around books (unasked rfl) (unasked rfl) ?_
  cases kind with
  | plan => exact plan_mediated task brain _
  | run => exact run_mediated task brain _

theorem runTask_inert (task : String) (brain : Brain) : (runTask h run .plan task brain).All Op.Inert := by
  have performed {op : Op} (inert : op.Inert) {Q : Except Exc op.Res → Unit → Prop}
      (always : ∀ result s, Q result s) :
      Triple (blank effects) (fun op _ => Op.Inert op) (fun _ => True) (perform op) Q := fun s _ =>
    Holds.mono (fun result s _ => always result s) (Prog.All.perform (S:=effects) inert)
  have either {α : Type} (result : Except Exc α) (s : Unit) :
      ending (S:=effects) (fun (_ : α) (_ : Unit) => True) (fun _ _ => True) result s := by
    cases result <;> trivial
  have planned : Triple (blank effects) (fun op _ => Op.Inert op) (fun _ => True) (orchestrate h run .plan task brain)
      fun _ _ => True := fun _ _ => plan_inert task brain (some h.config)
  refine runTask_around ?_ (performed rfl either) (performed rfl either) planned () trivial
  intro op books
  refine performed ?_ fun _ _ => trivial
  cases books <;> rfl

end

section
variable {h : Host} {run : RunId}

def errands : List Action :=
  [{ kind := .dispatch, params := dict [("cmd",.str "killactive")] },
    { kind := .writeFile, params := dict [("path",.str "~/a"),("content",.str "b")] },click]

end

end HyprlandAgent
