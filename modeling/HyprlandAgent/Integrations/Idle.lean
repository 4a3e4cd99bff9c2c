import HyprlandAgent.Daemon.KillSwitch
import HyprlandAgent.Transition

-- The screen lock: a listener on the daemon's event loop that cancels what is active
-- when the screen locks.
namespace HyprlandAgent.Idle
open Coroutine Transition
variable {h : Host} {run : RunId} {stop : Bool} {focused : Option Window} {rules : List AllowRule}

abbrev Daemon := Loop effects TaskId World

abbrev Moment := Coroutine.Event effects TaskId Choice Callback Outside

-- `self._tasks[run_id] = t`, in a step of the event loop.
def created (l : Daemon) : Moment → Option RunId
  | .act i reply _ =>
    match l.tasks i with
    | some (.live (.await (.createTask run kind task brain) _) _) =>
      match reply (.createTask run kind task brain) with
      | .ok _ => some run
      | .error _ => none
    | _ => none
  | _ => none

-- What there was when a lock signal had been handled: the runs whose tasks were not
-- done, and how many actions each run had started.
structure Lock where
  active : RunId → Bool
  started : RunId → Nat

-- `tasks` are the keys of the executor's dict; those whose tasks are done may have
-- left it already. History: the locks handled since the last unlock, and the runs
-- whose tasks the listener cancelled.
structure Desk where
  loop : Daemon
  tasks : List RunId := []
  locks : List Lock := []
  cancelled : List RunId := []

inductive Event where
  | daemon (event : Moment)
  | activeChanged (active : Bool)

section
variable (h : Host)

-- `executor.cancel`; `none` is its answer `False`.
def cancel (run : RunId) (l : Daemon) : Option Daemon :=
  l.advance (HyprlandAgent.daemon h) (.callback (.cancel run))

def cancelEach : List RunId → Daemon → Daemon × List RunId
  | [],l => (l,[])
  | run :: rest,l =>
    match cancel h run l with
    | some next => ((cancelEach rest next).1,run :: (cancelEach rest next).2)
    | none => cancelEach rest l

namespace Desk
variable (s : Desk)

def active (run : RunId) : Bool := (s.loop.phases (bodyOf run)).active

def activeRunIds : List RunId := s.tasks.filter s.active

def started (run : RunId) : Nat := (s.loop.world.ledgers run).started

-- None of the awaits in it suspends.
def onActiveChanged (active : Bool) : Desk :=
  if active then
    { s with
      loop := (cancelEach h s.activeRunIds s.loop).1
      locks := s.locks ++ [⟨s.active,s.started⟩]
      cancelled := s.cancelled ++ (cancelEach h s.activeRunIds s.loop).2 }
  else { s with locks := [] }

def step : Event → Option Desk
  | .daemon event => (s.loop.advance (HyprlandAgent.daemon h) event).map fun loop =>
      { s with loop := loop, tasks := s.tasks ++ (created s.loop event).toList }
  | .activeChanged active => if s.loop.turn = none then some (s.onActiveChanged h active) else none

-- What the integration promises while the screen is locked: only runs that were active
-- at the lock have started actions since, and those have been cancelled.
structure Kept (lock : Lock) (s : Desk) : Prop where
  still : ∀ run, lock.active run = false → s.started run = lock.started run
  cancelled : ∀ run, lock.active run = true → run ∈ s.cancelled

def LockedDown (s : Desk) : Prop := ∀ lock ∈ s.locks, Kept lock s

end Desk

def desk : System Desk Event := ⟨Desk.step h⟩

end

def start (stop : Bool) (focused : Option Window) (rules : List AllowRule) : Desk :=
  { loop := boot stop focused rules }

def unaccepting (s : Desk) : Event → Prop
  | .daemon event => s.locks.isEmpty = true ∨ (created s.loop event).isNone = true
  | .activeChanged _ => True

instance : (s : Desk) → (event : Event) → Decidable (unaccepting s event)
  | s,.daemon event =>
    inferInstanceAs (Decidable (s.locks.isEmpty = true ∨ (created s.loop event).isNone = true))
  | _,.activeChanged _ => inferInstanceAs (Decidable True)

theorem spawned_created {l : Daemon} {i : TaskId} {op : Op} {more : effects.Reply op → Prog effects Unit}
    {reply : (op : Op) → effects.Reply op} (at_op : l.tasks i = some (.live (.await op more) cancelling))
    (spawned : spawnAfter (HyprlandAgent.daemon h) op (reply op) = some (bodyOf run,program)) :
    created l (.act i reply choice) = some run := by
  cases op with
  | createTask owner kind task brain =>
    simp only [created,at_op]
    cases answered : reply (.createTask owner kind task brain) with
    | ok value =>
      rw [answered] at spawned
      cases spawned
      rfl
    | error exc =>
      rw [answered] at spawned
      cases spawned
  | _ =>
    cases answered : reply _ with
    | ok value =>
      rw [answered] at spawned
      cases spawned
    | error exc =>
      rw [answered] at spawned
      cases spawned

theorem phases_active {l : Daemon} {i : TaskId} : (l.phases i).active = true ↔
    (∃ program c, l.tasks i = some (.created program c)) ∨ ∃ program c, l.tasks i = some (.live program c) := by
  unfold Loop.phases
  cases l.tasks i with
  | none => simp [phaseOf,Phase.active]
  | some task => cases task <;> simp [phaseOf,Phase.active]

theorem spawns_created {l : Daemon} {event : Moment}
    (spawns : Spawns (HyprlandAgent.daemon h) l event (bodyOf run) program) :
    created l event = some run := by
  cases spawns with
  | act at_op spawned => exact spawned_created at_op spawned
  | callback occurred spawned =>
    cases callback_cases occurred <;> simp at spawned

theorem active_before {l next : Daemon} {event : Moment} (step : Advance (HyprlandAgent.daemon h) l event next)
    (active : (next.phases (bodyOf run)).active = true) :
    (l.phases (bodyOf run)).active = true ∨ created l event = some run := by
  rcases phases_active.mp active with ⟨program,c,waiting⟩ | ⟨program,c,live⟩
  · rcases created_before step waiting with ⟨before,found⟩ | ⟨_,spawns⟩
    · exact .inl (phases_active.mpr (.inl ⟨_,_,found⟩))
    · exact .inr (spawns_created spawns)
  · rcases live_before step live with ⟨p,before,found⟩ | ⟨_,p,found⟩
    · exact .inl (phases_active.mpr (.inr ⟨_,_,found⟩))
    · exact .inl (phases_active.mpr (.inl ⟨_,_,found⟩))

theorem perform_still {i : TaskId} {op : Op} {reply : effects.Reply op} {w next : World}
    (other : i ≠ bodyOf run) (allowed : legal i op) (performed : w.perform h i op reply choice = some next) :
    (next.ledgers run).started = (w.ledgers run).started := by
  by_cases own : run = i.run
  · have bodiless : i.slot ≠ .body := by
      intro slot
      apply other
      cases i
      cases own
      cases slot
      rfl
    have kept : op ≠ .unlinkFlag := by
      intro same
      subst same
      exact bodiless allowed
    have uncounted : ∀ kind, op ≠ .checkLimit kind := by
      intro kind same
      subst same
      exact bodiless allowed
    have same := (perform_counters performed kept uncounted run).1
    simp only [counters,Prod.mk.injEq] at same
    exact same.2.1
  · rw [(perform_drift own allowed performed).ledger]

theorem Outer.still {w next : World} (outer : Outer h run w next) :
    (next.ledgers run).started = (w.ledgers run).started := by
  cases outer with
  | drift drift => rw [drift.ledger]
  | armed armed =>
    rcases armed.ledger with same | same
    · rw [same]
    · rw [same]
  | landed landed =>
    have same := counters_unwritten.landed landed
    simp only [counters,Prod.mk.injEq] at same
    exact same.2.1

theorem called_still {w : World} {phases : TaskId → Phase} {kind : Callback}
    {arrival : Arrival effects TaskId World} (called : Called w phases kind arrival) :
    (arrival.world.ledgers run).started = (w.ledgers run).started := by
  cases called <;> rfl

theorem enter_still {w : World} {i : TaskId} :
    ((w.enter i).ledgers run).started = (w.ledgers run).started := by
  unfold World.enter
  split
  · refine note_part Ledger.started ?_ run
    intro past
    rfl
  · rfl

theorem still_step {l next : Daemon} {event : Moment} (lawful : Legal legal l)
    (step : Advance (HyprlandAgent.daemon h) l event next)
    (inactive : (l.phases (bodyOf run)).active = false) :
    (next.world.ledgers run).started = (l.world.ledgers run).started := by
  cases step with
  | @act i op more cancelling reply choice world at_op may performed =>
    have other : i ≠ bodyOf run := by
      intro same
      subst same
      rw [phases_active.mpr (.inr ⟨_,_,at_op⟩)] at inactive
      cases inactive
    exact perform_still other (Prog.All.head (lawful i _ at_op)) performed
  | start idle fresh =>
    exact enter_still
  | kill idle doomed => rfl
  | callback idle occurred => exact called_still (callback_cases occurred)
  | outside occurred => exact Outer.still (outside_outer occurred run)

theorem cancel_taken {l : Daemon} (idle : l.turn = none) (active : (l.phases (bodyOf run)).active = true) :
    (cancel h run l).isSome = true := by
  simp [cancel,Loop.advance,HyprlandAgent.daemon,callback,idle,active]

theorem cancel_kept {l next : Daemon} (cancelled : cancel h run l = some next) :
    next.turn = none ∧ next.phases = l.phases ∧ next.world.ledgers = l.world.ledgers ∧
      Reached (HyprlandAgent.daemon h) l next := by
  have step := advance_cases cancelled
  have path : Reached (HyprlandAgent.daemon h) l next := .step .refl cancelled
  cases step with
  | @callback _ arrival idle occurred =>
    have called : Called l.world l.phases (.cancel run) arrival := callback_cases occurred
    cases called with
    | cancel active =>
      refine ⟨rfl,?_,rfl,path⟩
      funext i
      simp only [Loop.phases,spawnInto,cancelAll]
      split
      · cases l.tasks i with
        | none => rfl
        | some task => cases task <;> rfl
      · rfl

theorem cancelEach_kept (runs : List RunId) {l : Daemon} (idle : l.turn = none) :
    (cancelEach h runs l).1.turn = none ∧ (cancelEach h runs l).1.phases = l.phases ∧
      (cancelEach h runs l).1.world.ledgers = l.world.ledgers ∧
      Reached (HyprlandAgent.daemon h) l (cancelEach h runs l).1 := by
  induction runs generalizing l with
  | nil => exact ⟨idle,rfl,rfl,.refl⟩
  | cons run rest ih =>
    cases taken : cancel h run l with
    | none =>
      simp only [cancelEach,taken]
      exact ih idle
    | some next =>
      simp only [cancelEach,taken]
      obtain ⟨free,phases,ledgers,path⟩ := cancel_kept taken
      obtain ⟨last,same,kept,further⟩ := ih free
      exact ⟨last,same.trans phases,kept.trans ledgers,path.trans further⟩

theorem cancelEach_reaches {runs : List RunId} {l : Daemon} (idle : l.turn = none) (inside : run ∈ runs)
    (active : (l.phases (bodyOf run)).active = true) : run ∈ (cancelEach h runs l).2 := by
  induction runs generalizing l with
  | nil => cases inside
  | cons first rest ih =>
    cases taken : cancel h first l with
    | none =>
      simp only [cancelEach,taken]
      rcases List.mem_cons.mp inside with rfl | later
      · have answered := cancel_taken (h:=h) idle active
        rw [taken] at answered
        cases answered
      · exact ih idle later active
    | some next =>
      simp only [cancelEach,taken]
      rcases List.mem_cons.mp inside with rfl | later
      · exact List.mem_cons_self
      · obtain ⟨free,phases,_⟩ := cancel_kept taken
        rw [← phases] at active
        exact List.mem_cons_of_mem _ (ih free later active)

namespace Desk

-- In every state of a run that accepts nothing while locked: the event loop is one of
-- the daemon's, every active run is in the executor's dict, and since a lock no other
-- run has become active.
structure Guarded (stop : Bool) (focused : Option Window) (rules : List AllowRule) (h : Host) (s : Desk) :
    Prop where
  path : Reached (HyprlandAgent.daemon h) (boot stop focused rules) s.loop
  listed : ∀ run, s.active run = true → run ∈ s.tasks
  quiet : ∀ lock ∈ s.locks, ∀ run, lock.active run = false → s.active run = false
  kept : s.LockedDown

theorem Guarded.moved {s : Desk} {event : Moment} {next : Daemon} (guarded : Guarded stop focused rules h s)
    (unaccepted : unaccepting s (.daemon event))
    (advanced : s.loop.advance (HyprlandAgent.daemon h) event = some next) :
    Guarded stop focused rules h
      { s with loop := next, tasks := s.tasks ++ (created s.loop event).toList } := by
  have step := advance_cases advanced
  refine ⟨.step guarded.path advanced,?_,?_,?_⟩
  · intro run active
    rcases active_before step active with before | made
    · exact List.mem_append_left _ (guarded.listed run before)
    · apply List.mem_append_right _
      rw [made]
      exact List.mem_singleton_self run
  · intro lock inside run calm
    have before := guarded.quiet lock inside run calm
    by_contra woken
    rcases active_before step (Bool.not_eq_false _ ▸ woken) with active | made
    · rw [show s.active run = true from active] at before
      cases before
    · rcases unaccepted with unlocked | unmade
      · rw [List.isEmpty_iff.mp unlocked] at inside
        cases inside
      · rw [made] at unmade
        cases unmade
  · intro lock inside
    obtain ⟨still,cancelled⟩ := guarded.kept lock inside
    refine ⟨?_,cancelled⟩
    intro run calm
    have before := guarded.quiet lock inside run calm
    exact (still_step (daemon_legal guarded.path) step before).trans (still run calm)

theorem Guarded.locked {s : Desk} (guarded : Guarded stop focused rules h s) (idle : s.loop.turn = none) :
    Guarded stop focused rules h (s.onActiveChanged h true) := by
  obtain ⟨_,phases,ledgers,path⟩ := cancelEach_kept (h:=h) s.activeRunIds idle
  have active : (s.onActiveChanged h true).active = s.active := by
    funext run
    exact congrArg Phase.active (congrFun phases (bodyOf run))
  have started : (s.onActiveChanged h true).started = s.started := by
    funext run
    exact congrArg Ledger.started (congrFun ledgers run)
  refine ⟨guarded.path.trans path,?_,?_,?_⟩
  · intro run standing
    rw [active] at standing
    exact guarded.listed run standing
  · intro lock inside run calm
    rw [active]
    rcases List.mem_append.mp inside with old | new
    · exact guarded.quiet lock old run calm
    · rw [List.mem_singleton.mp new] at calm
      exact calm
  · intro lock inside
    rcases List.mem_append.mp inside with old | new
    · obtain ⟨still,cancelled⟩ := guarded.kept lock old
      constructor
      · intro run calm
        rw [started]
        exact still run calm
      · intro run standing
        exact List.mem_append_left _ (cancelled run standing)
    · rw [List.mem_singleton.mp new]
      refine ⟨fun run _ => congrFun started run,?_⟩
      intro run standing
      refine List.mem_append_right _ (cancelEach_reaches idle ?_ standing)
      exact List.mem_filter.mpr ⟨guarded.listed run standing,standing⟩

theorem Guarded.unlocked {s : Desk} (guarded : Guarded stop focused rules h s) :
    Guarded stop focused rules h (s.onActiveChanged h false) := by
  refine ⟨guarded.path,guarded.listed,?_,?_⟩
  · intro lock inside
    cases inside
  · intro lock inside
    cases inside

theorem Guarded.step {s next : Desk} {event : Event} (guarded : Guarded stop focused rules h s)
    (unaccepted : unaccepting s event) (stepped : s.step h event = some next) :
    Guarded stop focused rules h next := by
  cases event with
  | daemon event =>
    obtain ⟨loop,advanced,rfl⟩ := Option.map_eq_some_iff.mp stepped
    exact guarded.moved unaccepted advanced
  | activeChanged active =>
    simp only [Desk.step] at stepped
    split at stepped
    · rename_i idle
      cases stepped
      cases active with
      | true => exact guarded.locked idle
      | false => exact guarded.unlocked
    · cases stepped

end Desk

theorem start_guarded : Desk.Guarded stop focused rules h (start stop focused rules) := by
  refine ⟨.refl,?_,?_,?_⟩
  · intro run active
    cases active
  · intro lock inside
    cases inside
  · intro lock inside
    cases inside

-- While the screen is locked and no run is accepted, only runs that were active at the
-- lock start actions, and those have been cancelled.
theorem locked_down {s : Desk} (path : Run (desk h) unaccepting (start stop focused rules) s) :
    s.LockedDown := by
  have guarded : Desk.Guarded stop focused rules h s :=
    path.invariant start_guarded fun _ _ _ before unaccepted stepped => before.step unaccepted stepped
  exact guarded.kept

def cued (cues : List Cue) : List (Desk → Event) := cues.map fun cue s => .daemon (cue s.loop)

def signals (active : Bool) : List (Desk → Event) := [fun _ => .activeChanged active]

abbrev fresh : Desk := start false (some terminal) [{ class_ := some "foot" }]

def lockedAtWork : List (Desk → Event) :=
  cued (begins .run ++ works 26) ++ signals true ++
    cued [raises (bodyOf "r") .cancelled .dropped]

theorem locked_down_at_work : ∃ s, Run (desk plainHost) unaccepting fresh s ∧
    s.locks.length = 1 ∧ s.cancelled = ["r"] ∧ s.started "r" = 0 ∧ s.LockedDown := by
  have followed : (((desk plainHost).under unaccepting).follow fresh lockedAtWork).any (fun s =>
      s.locks.length == 1 && s.cancelled == ["r"] && s.started "r" == 0) = true := by decide +kernel
  obtain ⟨s,reached,shown⟩ := (Option.any_eq_true _ _).mp followed
  obtain ⟨events,played⟩ := System.follow_played reached
  have path : Run (desk plainHost) unaccepting fresh s := System.play_under played
  simp only [Bool.and_eq_true,beq_iff_eq] at shown
  exact ⟨s,path,shown.1.1,shown.1.2,shown.2,locked_down path⟩

def submittedLocked : List (Desk → Event) := signals true ++ cued (begins .run ++ works 36)

theorem locked_run_acts : ¬ ∀ h stop focused rules s,
    Reachable (desk h) (start stop focused rules) s → s.LockedDown := by
  intro always
  have followed : ((desk plainHost).follow fresh submittedLocked).any (fun s =>
      s.locks.any (fun lock => !lock.active "r" && lock.started "r" == 0) && s.started "r" == 1) = true := by
    decide +kernel
  obtain ⟨s,reached,shown⟩ := (Option.any_eq_true _ _).mp followed
  obtain ⟨events,played⟩ := System.follow_played reached
  have locked : s.LockedDown := always plainHost _ _ _ s (System.play_reachable played)
  simp only [Bool.and_eq_true,List.any_eq_true,Bool.not_eq_true',beq_iff_eq] at shown
  obtain ⟨⟨lock,inside,unlisted,before⟩,started⟩ := shown
  have still := (locked lock inside).still "r" unlisted
  rw [started,before] at still
  cases still

end HyprlandAgent.Idle
