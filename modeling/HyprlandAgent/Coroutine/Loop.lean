import HyprlandAgent.Coroutine.Logic
import HyprlandAgent.Transition

-- A single-threaded event loop running named coroutines over one world. A
-- coroutine keeps the loop until it reaches an operation that suspends it.
namespace Coroutine
variable {S : Signature} {ι σ χ κ ω : Type}

-- A cancellation is a request, delivered when the task next resumes; a task
-- cancelled before its first step never enters its body.
inductive Task (S : Signature) where
  | created (program : Prog S Unit) (cancelling : Bool)
  | live (program : Prog S Unit) (cancelling : Bool)
  | finished (result : Except S.Exc Unit)

inductive Phase where
  | absent | created | live | finished
  deriving DecidableEq, Repr

def Phase.active : Phase → Bool
  | .created | .live => true
  | _ => false

def phaseOf : Option (Task S) → Phase
  | none => .absent
  | some (.created _ _) => .created
  | some (.live _ _) => .live
  | some (.finished _) => .finished

theorem phaseOf_finished {task : Option (Task S)} (finished : phaseOf task = .finished) :
    ∃ result, task = some (.finished result) := by
  cases task with
  | none => cases finished
  | some task =>
    cases task with
    | created program cancelling => cases finished
    | live program cancelling => cases finished
    | finished result => exact ⟨result,rfl⟩

-- What a callback of the loop does: the world after it, the tasks it asks to
-- cancel and the task it creates.
structure Arrival (S : Signature) (ι σ : Type) where
  world : σ
  cancels : ι → Bool := fun _ => false
  spawns : Option (ι × Prog S Unit) := none

-- `perform` is a function of a choice that holds everything the outside decides,
-- so that a schedule can be replayed; `enter` is a task's first step. A `callback`
-- runs in the loop's own thread; what happens `outside` of it may fall anywhere in
-- time and only moves the world.
structure Machine (S : Signature) (ι σ χ κ ω : Type) where
  suspends : S.Op → Bool
  cancelled : S.Exc
  isCancelled : S.Exc → Bool
  perform : ι → σ → (op : S.Op) → S.Reply op → χ → Option σ
  enter : ι → σ → σ
  spawn : S.Op → Option (ι × Prog S Unit)
  callback : κ → σ → (ι → Phase) → Option (Arrival S ι σ)
  outside : ω → σ → (ι → Phase) → Option σ

structure Loop (S : Signature) (ι σ : Type) where
  world : σ
  tasks : ι → Option (Task S)
  turn : Option ι

inductive Event (S : Signature) (ι χ κ ω : Type) where
  | act (task : ι) (reply : (op : S.Op) → S.Reply op) (choice : χ)
  | start (task : ι)
  | callback (kind : κ)
  | outside (kind : ω)

def Task.cancel : Task S → Task S
  | .created program _ => .created program true
  | .live program _ => .live program true
  | .finished result => .finished result

def Task.settled (program : Prog S Unit) (cancelling : Bool) : Task S :=
  match program with
  | .ret value => .finished (.ok value)
  | .raise exc => .finished (.error exc)
  | .await op next => .live (.await op next) cancelling

def replyCancelled (M : Machine S ι σ χ κ ω) {op : S.Op} : S.Reply op → Bool
  | .ok _ => false
  | .error exc => M.isCancelled exc

variable [DecidableEq ι]

def assign (tasks : ι → Option (Task S)) (i : ι) (task : Task S) : ι → Option (Task S) :=
  fun j => if j = i then some task else tasks j

def spawnInto (tasks : ι → Option (Task S)) : Option (ι × Prog S Unit) → ι → Option (Task S)
  | none => tasks
  | some (i,program) => if (tasks i).isSome then tasks else assign tasks i (.created program false)

def cancelAll (tasks : ι → Option (Task S)) (cancels : ι → Bool) : ι → Option (Task S) :=
  fun i => if cancels i then (tasks i).map Task.cancel else tasks i

def turnAfter (M : Machine S ι σ χ κ ω) (i : ι) : Prog S Unit → Option ι
  | .await op _ => if M.suspends op then none else some i
  | _ => none

def Loop.phases (l : Loop S ι σ) : ι → Phase := fun i => phaseOf (l.tasks i)

-- A suspended task resumes only when the loop is free, with the cancellation
-- if one is pending; between suspensions it runs on without interruption.
def mayAct (M : Machine S ι σ χ κ ω) (turn : Option ι) (i : ι) (op : S.Op) (cancelling : Bool)
    (reply : S.Reply op) : Bool :=
  if M.suspends op then decide (turn = none) && replyCancelled M reply == cancelling
  else decide (turn = some i) && !replyCancelled M reply

def spawnAfter (M : Machine S ι σ χ κ ω) (op : S.Op) : S.Reply op → Option (ι × Prog S Unit)
  | .ok _ => M.spawn op
  | .error _ => none

def Loop.advance (M : Machine S ι σ χ κ ω) (l : Loop S ι σ) : Event S ι χ κ ω → Option (Loop S ι σ)
  | .act i reply choice =>
    match l.tasks i with
    | some (.live (.await op next) cancelling) =>
      if mayAct M l.turn i op cancelling (reply op) then
        (M.perform i l.world op (reply op) choice).map fun world =>
          { world := world
            tasks := spawnInto (assign l.tasks i
              (.settled (next (reply op)) false)) (spawnAfter M op (reply op))
            turn := turnAfter M i (next (reply op)) }
      else none
    | _ => none
  | .start i =>
    if l.turn = none then
      match l.tasks i with
      | some (.created program false) =>
        some { world := M.enter i l.world
               tasks := assign l.tasks i (.settled program false)
               turn := turnAfter M i program }
      | some (.created _ true) =>
        some { l with tasks := assign l.tasks i (.finished (.error M.cancelled)) }
      | _ => none
    else none
  | .callback kind =>
    if l.turn = none then (M.callback kind l.world l.phases).map fun arrival =>
      { l with world := arrival.world, tasks := spawnInto (cancelAll l.tasks arrival.cancels) arrival.spawns }
    else none
  | .outside kind => (M.outside kind l.world l.phases).map fun world => { l with world := world }

def Machine.system (M : Machine S ι σ χ κ ω) : Transition.System (Loop S ι σ) (Event S ι χ κ ω) where
  step := fun l event => l.advance M event

inductive Reached (M : Machine S ι σ χ κ ω) (start : Loop S ι σ) : Loop S ι σ → Prop where
  | refl : Reached M start start
  | step : Reached M start l → l.advance M event = some next → Reached M start next

def drive (M : Machine S ι σ χ κ ω) : Loop S ι σ → List (Loop S ι σ → Event S ι χ κ ω) → Option (Loop S ι σ)
  | l,[] => some l
  | l,cue :: rest => (l.advance M (cue l)).bind (drive M · rest)

theorem Reached.trans {M : Machine S ι σ χ κ ω} (one : Reached M a b) (two : Reached M b c) :
    Reached M a c := by
  induction two with
  | refl => exact one
  | step _ advanced ih => exact .step ih advanced

theorem drive_reached {M : Machine S ι σ χ κ ω} {l next : Loop S ι σ}
    {cues : List (Loop S ι σ → Event S ι χ κ ω)} (driven : drive M l cues = some next) :
    Reached M l next := by
  induction cues generalizing l with
  | nil => cases driven; exact .refl
  | cons cue rest ih =>
    obtain ⟨middle,first,others⟩ := Option.bind_eq_some_iff.mp driven
    exact Reached.trans (.step .refl first) (ih others)

theorem Reached.invariant {M : Machine S ι σ χ κ ω} {P : Loop S ι σ → Prop} (initial : P start)
    (step : ∀ l event next, Reached M start l → P l → l.advance M event = some next → P next)
    (path : Reached M start l) : P l := by
  induction path with
  | refl => exact initial
  | step prior advanced ih => exact step _ _ _ prior ih advanced

-- One advance, said once: which task moved and what became of world and tasks.
inductive Advance (M : Machine S ι σ χ κ ω) (l : Loop S ι σ) : Event S ι χ κ ω → Loop S ι σ → Prop where
  | act (at_op : l.tasks i = some (.live (.await op next) cancelling))
      (may : mayAct M l.turn i op cancelling (reply op) = true)
      (performed : M.perform i l.world op (reply op) choice = some world) :
      Advance M l (.act i reply choice)
        ⟨world,spawnInto (assign l.tasks i (.settled (next (reply op)) false))
          (spawnAfter M op (reply op)),turnAfter M i (next (reply op))⟩
  | start (idle : l.turn = none) (fresh : l.tasks i = some (.created program false)) :
      Advance M l (.start i)
        ⟨M.enter i l.world,assign l.tasks i (.settled program false),turnAfter M i program⟩
  | kill (idle : l.turn = none) (doomed : l.tasks i = some (.created program true)) :
      Advance M l (.start i) ⟨l.world,assign l.tasks i (.finished (.error M.cancelled)),none⟩
  | callback (idle : l.turn = none)
      (occurred : M.callback kind l.world l.phases = some arrival) :
      Advance M l (.callback kind)
        ⟨arrival.world,spawnInto (cancelAll l.tasks arrival.cancels) arrival.spawns,none⟩
  | outside (occurred : M.outside kind l.world l.phases = some world) :
      Advance M l (.outside kind) ⟨world,l.tasks,l.turn⟩

theorem advance_cases {M : Machine S ι σ χ κ ω} {l next : Loop S ι σ}
    (advanced : l.advance M event = some next) : Advance M l event next := by
  cases event with
  | act i reply choice =>
    simp only [Loop.advance] at advanced
    split at advanced
    · rename_i op more cancelling at_op
      split at advanced
      · rename_i may
        obtain ⟨world,performed,rfl⟩ := Option.map_eq_some_iff.mp advanced
        exact .act at_op may performed
      · cases advanced
    · cases advanced
  | start i =>
    simp only [Loop.advance] at advanced
    split at advanced
    · rename_i idle
      split at advanced
      · rename_i program fresh
        cases advanced
        exact .start idle fresh
      · rename_i program doomed
        cases advanced
        have killed := Advance.kill (M:=M) (l:=l) idle doomed
        simpa only [idle] using killed
      · cases advanced
    · cases advanced
  | callback kind =>
    simp only [Loop.advance] at advanced
    split at advanced
    · rename_i idle
      obtain ⟨arrival,occurred,rfl⟩ := Option.map_eq_some_iff.mp advanced
      have called := Advance.callback (M:=M) (l:=l) idle occurred
      simpa only [idle] using called
    · cases advanced
  | outside kind =>
    obtain ⟨world,occurred,rfl⟩ := Option.map_eq_some_iff.mp advanced
    exact .outside occurred

@[simp] theorem assign_self (tasks : ι → Option (Task S)) (i : ι) (task : Task S) :
    assign tasks i task i = some task := by simp [assign]

theorem assign_other (tasks : ι → Option (Task S)) (task : Task S) (different : j ≠ i) :
    assign tasks i task j = tasks j := by simp [assign,different]

omit [DecidableEq ι] in
theorem cancelAll_cases {tasks : ι → Option (Task S)} {cancels : ι → Bool}
    (found : cancelAll tasks cancels i = some task) :
    tasks i = some task ∨ ∃ before, cancels i = true ∧ tasks i = some before ∧ task = before.cancel := by
  unfold cancelAll at found
  split at found
  · rename_i wanted
    obtain ⟨before,present,rfl⟩ := Option.map_eq_some_iff.mp found
    exact .inr ⟨before,wanted,present,rfl⟩
  · exact .inl found

theorem spawnInto_cases {tasks : ι → Option (Task S)} {spawns : Option (ι × Prog S Unit)}
    (found : spawnInto tasks spawns i = some task) :
    tasks i = some task ∨ ∃ program, tasks i = none ∧ spawns = some (i,program) ∧
      task = .created program false := by
  cases spawns with
  | none => exact .inl found
  | some pair =>
    obtain ⟨j,program⟩ := pair
    simp only [spawnInto] at found
    split at found
    · exact .inl found
    · rename_i absent
      by_cases same : i = j
      · subst same
        rw [assign_self] at found
        exact .inr ⟨program,by simpa using absent,rfl,(Option.some.inj found).symm⟩
      · rw [assign_other _ _ same] at found
        exact .inl found

theorem spawnInto_present {tasks : ι → Option (Task S)} (spawns : Option (ι × Prog S Unit))
    (present : tasks i = some task) : spawnInto tasks spawns i = some task := by
  cases spawns with
  | none => exact present
  | some pair =>
    obtain ⟨j,program⟩ := pair
    by_cases taken : (tasks j).isSome
    · simp [spawnInto,taken,present]
    · have different : i ≠ j := by
        intro same
        subst same
        simp [present] at taken
      simp [spawnInto,taken,assign_other _ _ different,present]

theorem spawnInto_absent {tasks : ι → Option (Task S)} {spawns : Option (ι × Prog S Unit)}
    (absent : spawnInto tasks spawns i = none) :
    tasks i = none ∧ ∀ program, spawns ≠ some (i,program) := by
  have before : tasks i = none := by
    cases present : tasks i with
    | none => rfl
    | some task =>
      rw [spawnInto_present spawns present] at absent
      cases absent
  refine ⟨before,?_⟩
  intro program spawned
  subst spawned
  simp [spawnInto,before] at absent

omit [DecidableEq ι] in
theorem cancelAll_absent {tasks : ι → Option (Task S)} {cancels : ι → Bool}
    (absent : cancelAll tasks cancels i = none) : tasks i = none := by
  unfold cancelAll at absent
  split at absent
  · exact Option.map_eq_none_iff.mp absent
  · exact absent

omit [DecidableEq ι] in
theorem settled_not_created {program p : Prog S Unit} {pending c : Bool} :
    Task.settled program pending ≠ .created p c := by
  intro same
  cases program <;> cases same

theorem mayAct_suspended {M : Machine S ι σ χ κ ω} {op : S.Op} {reply : S.Reply op}
    (suspended : M.suspends op = true) :
    mayAct M turn i op cancelling reply = true ↔
      turn = none ∧ replyCancelled M reply = cancelling := by
  simp [mayAct,suspended]

theorem mayAct_running {M : Machine S ι σ χ κ ω} {op : S.Op} {reply : S.Reply op}
    (running : M.suspends op = false) :
    mayAct M turn i op cancelling reply = true ↔
      turn = some i ∧ replyCancelled M reply = false := by
  simp [mayAct,running]

theorem mayAct_turn {M : Machine S ι σ χ κ ω} {op : S.Op} {reply : S.Reply op}
    (may : mayAct M turn i op cancelling reply = true) : turn = none ∨ turn = some i := by
  cases suspended : M.suspends op with
  | true => exact .inl ((mayAct_suspended suspended).mp may).1
  | false => exact .inr ((mayAct_running suspended).mp may).1

-- A task between suspensions owns the loop, and the one that owns it has no
-- cancellation waiting: it took it when it last resumed.
structure Disciplined (M : Machine S ι σ χ κ ω) (l : Loop S ι σ) : Prop where
  owned : ∀ i op next cancelling, l.tasks i = some (.live (.await op next) cancelling) →
    M.suspends op = false → l.turn = some i
  calm : ∀ i program cancelling, l.tasks i = some (.live program cancelling) →
    l.turn = some i → cancelling = false
  standing : ∀ i program cancelling, l.tasks i = some (.live program cancelling) →
    ∃ op next, program = .await op next

theorem settled_live {program : Prog S Unit}
    (live : Task.settled program cancelling = .live p pending) :
    program = p ∧ cancelling = pending := by
  cases program with
  | ret value => cases live
  | raise exc => cases live
  | await op next => cases live; exact ⟨rfl,rfl⟩

theorem settled_standing {program : Prog S Unit}
    (live : Task.settled program cancelling = .live p pending) : ∃ op next, p = .await op next := by
  cases program with
  | ret value => cases live
  | raise exc => cases live
  | await op next => cases live; exact ⟨op,next,rfl⟩

theorem cancel_live {task : Task S} (live : task.cancel = .live program pending) :
    ∃ before, task = .live program before ∧ pending = true := by
  cases task with
  | created program cancelling => cases live
  | live program cancelling => cases live; exact ⟨cancelling,rfl,rfl⟩
  | finished result => cases live

-- What one advance does to the tasks: where each form a task can have comes from.
inductive Spawns (M : Machine S ι σ χ κ ω) (l : Loop S ι σ) : Event S ι χ κ ω → ι → Prog S Unit → Prop where
  | act (at_op : l.tasks j = some (.live (.await op next) cancelling))
      (spawned : spawnAfter M op (reply op) = some (i,program)) :
      Spawns M l (.act j reply choice) i program
  | callback (occurred : M.callback kind l.world l.phases = some arrival)
      (spawned : arrival.spawns = some (i,program)) : Spawns M l (.callback kind) i program

theorem assign_absent {tasks : ι → Option (Task S)} {task : Task S}
    (absent : assign tasks j task i = none) : tasks i = none := by
  by_cases same : i = j
  · subst same
    rw [assign_self] at absent
    cases absent
  · exact (assign_other _ _ same).symm.trans absent

theorem absent_before {M : Machine S ι σ χ κ ω} {l next : Loop S ι σ} (step : Advance M l event next)
    (absent : next.tasks i = none) : l.tasks i = none ∧ ∀ program, ¬ Spawns M l event i program := by
  cases step with
  | act at_op may performed =>
    obtain ⟨before,unspawned⟩ := spawnInto_absent absent
    refine ⟨assign_absent before,?_⟩
    intro program spawns
    cases spawns with
    | act found spawned =>
      rw [at_op] at found
      cases found
      exact unspawned program spawned
  | start idle fresh => exact ⟨assign_absent absent,by rintro program ⟨⟩⟩
  | kill idle doomed => exact ⟨assign_absent absent,by rintro program ⟨⟩⟩
  | callback idle occurred =>
    obtain ⟨before,unspawned⟩ := spawnInto_absent absent
    refine ⟨cancelAll_absent before,?_⟩
    intro program spawns
    cases spawns with
    | callback found spawned =>
      rw [occurred] at found
      cases found
      exact unspawned program spawned
  | outside occurred => exact ⟨absent,by rintro program ⟨⟩⟩

-- A task that has not begun, one step earlier: a cancellation sticks to it.
theorem created_before_cancel {M : Machine S ι σ χ κ ω} {l next : Loop S ι σ}
    (step : Advance M l event next) (created : next.tasks i = some (.created program c)) :
    (∃ before, l.tasks i = some (.created program before) ∧ (before = true → c = true) ∧
      ∀ kind arrival, event = .callback kind → M.callback kind l.world l.phases = some arrival →
        arrival.cancels i = true → c = true) ∨
      (l.tasks i = none ∧ Spawns M l event i program) := by
  have unassigned : ∀ {j : ι} {task : Task S}, (∀ p c, task ≠ .created p c) →
      assign l.tasks j task i = some (.created program c) →
      l.tasks i = some (.created program c) := by
    intro j task other found
    by_cases same : i = j
    · subst same
      rw [assign_self] at found
      exact absurd (Option.some.inj found) (other program c)
    · exact (assign_other _ _ same).symm.trans found
  cases step with
  | act at_op may performed =>
    rcases spawnInto_cases created with found | ⟨p,absent,spawned,same⟩
    · exact .inl ⟨c,unassigned (fun _ _ => settled_not_created) found,id,by rintro _ _ ⟨⟩⟩
    · cases same
      exact .inr ⟨assign_absent absent,.act at_op spawned⟩
  | start idle fresh =>
    exact .inl ⟨c,unassigned (fun _ _ => settled_not_created) created,id,by rintro _ _ ⟨⟩⟩
  | kill idle doomed =>
    exact .inl ⟨c,unassigned (fun _ _ same => by cases same) created,id,by rintro _ _ ⟨⟩⟩
  | @callback kind arrival idle occurred =>
    rcases spawnInto_cases created with found | ⟨p,absent,spawned,same⟩
    · unfold cancelAll at found
      cases wanted : arrival.cancels i with
      | false =>
        rw [wanted] at found
        refine .inl ⟨c,found,id,?_⟩
        intro _ other given again taken
        cases given
        rw [Option.some.inj (occurred.symm.trans again)] at wanted
        rw [wanted] at taken
        cases taken
      | true =>
        rw [wanted] at found
        obtain ⟨before,was,same⟩ := Option.map_eq_some_iff.mp found
        cases before with
        | created p b => cases same; exact .inl ⟨b,was,fun _ => rfl,fun _ _ _ _ _ => rfl⟩
        | live p b => cases same
        | finished result => cases same
    · cases same
      exact .inr ⟨cancelAll_absent absent,.callback occurred spawned⟩
  | outside occurred => exact .inl ⟨c,created,id,by rintro _ _ ⟨⟩⟩

theorem created_before {M : Machine S ι σ χ κ ω} {l next : Loop S ι σ} (step : Advance M l event next)
    (created : next.tasks i = some (.created program c)) :
    (∃ before, l.tasks i = some (.created program before)) ∨
      (l.tasks i = none ∧ Spawns M l event i program) := by
  rcases created_before_cancel step created with ⟨before,found,_⟩ | spawned
  · exact .inl ⟨before,found⟩
  · exact .inr spawned

theorem callback_occurred {M : Machine S ι σ χ κ ω} {l next : Loop S ι σ}
    (step : Advance M l (.callback kind) next) : ∃ arrival, M.callback kind l.world l.phases = some arrival := by
  cases step with
  | callback idle occurred => exact ⟨_,occurred⟩

-- Where a live task comes from: it stood there, it acted to get there, or it starts there.
inductive Source (l : Loop S ι σ) (i : ι) (program : Prog S Unit) : Event S ι χ κ ω → Prop where
  | stood (live : l.tasks i = some (.live program c)) (other : ∀ reply choice, event ≠ .act i reply choice) :
      Source l i program event
  | acted (at_op : l.tasks i = some (.live (.await op more) c)) (goes : program = more (reply op)) :
      Source l i program (.act i reply choice)
  | started (fresh : l.tasks i = some (.created program false)) : Source l i program (.start i)

theorem live_source {M : Machine S ι σ χ κ ω} {l next : Loop S ι σ} (step : Advance M l event next)
    (live : next.tasks i = some (.live program c)) : Source l i program event := by
  cases step with
  | @act j op more pending reply choice world at_op may performed =>
    rcases spawnInto_cases live with found | ⟨_,_,_,created⟩
    · by_cases same : i = j
      · subst same
        rw [assign_self] at found
        exact .acted at_op (settled_live (Option.some.inj found)).1.symm
      · refine .stood ((assign_other _ _ same).symm.trans found) ?_
        intro other choice event
        cases event
        exact same rfl
    · cases created
  | @start j p idle fresh =>
    by_cases same : i = j
    · subst same
      obtain ⟨rfl,_⟩ := settled_live (Option.some.inj ((assign_self _ _ _).symm.trans live))
      exact .started fresh
    · exact .stood ((assign_other _ _ same).symm.trans live) fun _ _ event => by cases event
  | @kill j p idle doomed =>
    by_cases same : i = j
    · subst same
      have ended := (assign_self _ _ _).symm.trans live
      cases ended
    · exact .stood ((assign_other _ _ same).symm.trans live) fun _ _ event => by cases event
  | callback idle occurred =>
    rcases spawnInto_cases live with found | ⟨_,_,_,created⟩
    · rcases cancelAll_cases found with before | ⟨before,_,was,same⟩
      · exact .stood before fun _ _ event => by cases event
      · obtain ⟨b,rfl,_⟩ := cancel_live same.symm
        exact .stood was fun _ _ event => by cases event
    · cases created
  | outside occurred => exact .stood live fun _ _ event => by cases event

theorem live_stays {M : Machine S ι σ χ κ ω} {l next : Loop S ι σ} (step : Advance M l event next)
    (live : l.tasks i = some (.live program c)) (rests : ∀ reply choice, event ≠ .act i reply choice) :
    ∃ after, next.tasks i = some (.live program after) := by
  have assigned : ∀ {j : ι} {before task : Task S}, l.tasks j = some before → (∀ p c, before ≠ .live p c) →
      assign l.tasks j task i = some (.live program c) := by
    intro j before task found different
    have apart : i ≠ j := by
      intro same
      subst same
      exact different _ _ (Option.some.inj (found.symm.trans live))
    exact (assign_other _ _ apart).trans live
  cases step with
  | @act j op more pending reply choice world at_op may performed =>
    have apart : i ≠ j := by
      intro same
      subst same
      exact rests reply choice rfl
    exact ⟨c,spawnInto_present _ ((assign_other _ _ apart).trans live)⟩
  | start idle fresh => exact ⟨c,assigned fresh fun _ _ same => by cases same⟩
  | kill idle doomed => exact ⟨c,assigned doomed fun _ _ same => by cases same⟩
  | @callback kind arrival idle occurred =>
    cases wanted : arrival.cancels i with
    | false => exact ⟨c,spawnInto_present _ (by simp [cancelAll,wanted,live])⟩
    | true => exact ⟨true,spawnInto_present _ (by simp [cancelAll,wanted,live,Task.cancel])⟩
  | outside occurred => exact ⟨c,live⟩

theorem live_before {M : Machine S ι σ χ κ ω} {l next : Loop S ι σ} (step : Advance M l event next)
    (live : next.tasks i = some (.live program c)) :
    (∃ p before, l.tasks i = some (.live p before)) ∨
      (event = .start i ∧ ∃ p, l.tasks i = some (.created p false)) := by
  cases live_source step live with
  | stood before other => exact .inl ⟨_,_,before⟩
  | acted at_op goes => exact .inl ⟨_,_,at_op⟩
  | started fresh => exact .inr ⟨rfl,_,fresh⟩

theorem started_before {M : Machine S ι σ χ κ ω} {l next : Loop S ι σ}
    (step : Advance M l (.start i) next) : ∀ program c, next.tasks i ≠ some (.created program c) := by
  intro program c created
  cases step with
  | start idle fresh =>
    exact settled_not_created (Option.some.inj ((assign_self _ _ _).symm.trans created))
  | kill idle doomed => cases Option.some.inj ((assign_self _ _ _).symm.trans created)

theorem finished_after {M : Machine S ι σ χ κ ω} {l next : Loop S ι σ} (step : Advance M l event next)
    (finished : l.tasks i = some (.finished result)) : next.tasks i = some (.finished result) := by
  have other : ∀ {j : ι} {task before : Task S}, l.tasks j = some before → (∀ r, before ≠ .finished r) →
      assign l.tasks j task i = some (.finished result) := by
    intro j task before found unfinished
    have different : i ≠ j := by
      intro same
      subst same
      rw [finished] at found
      exact unfinished result (Option.some.inj found).symm
    exact (assign_other _ _ different).trans finished
  cases step with
  | act at_op may performed =>
    exact spawnInto_present _ (other at_op fun _ same => by cases same)
  | start idle fresh => exact other fresh fun _ same => by cases same
  | kill idle doomed => exact other doomed fun _ same => by cases same
  | callback idle occurred =>
    apply spawnInto_present _
    unfold cancelAll
    split
    · rw [finished]; rfl
    · exact finished
  | outside occurred => exact finished

theorem Disciplined.acts {M : Machine S ι σ χ κ ω} {l : Loop S ι σ} {op : S.Op}
    {next : S.Reply op → Prog S Unit} {reply : S.Reply op} (ordered : Disciplined M l)
    (at_op : l.tasks i = some (.live (.await op next) cancelling))
    (may : mayAct M l.turn i op cancelling reply = true) :
    replyCancelled M reply = cancelling ∧ (M.suspends op = false → cancelling = false) := by
  cases suspended : M.suspends op with
  | true => exact ⟨((mayAct_suspended suspended).mp may).2,by simp⟩
  | false =>
    obtain ⟨mine,plain⟩ := (mayAct_running suspended).mp may
    have calm : cancelling = false := ordered.calm i _ _ at_op mine
    exact ⟨by rw [plain,calm],fun _ => calm⟩

omit [DecidableEq ι] in
theorem turnAfter_cases {M : Machine S ι σ χ κ ω} {program : Prog S Unit}
    (turn : turnAfter M j program = some i) : i = j := by
  unfold turnAfter at turn
  split at turn
  · split at turn
    · cases turn
    · exact (Option.some.inj turn).symm
  · cases turn

theorem disciplined_step {M : Machine S ι σ χ κ ω} {l next : Loop S ι σ}
    (ordered : Disciplined M l) (step : Advance M l event next) : Disciplined M next := by
  -- The one that moved is where its turn says; any other at a running operation
  -- would have owned the loop, and then nobody else could have moved.
  have moved : ∀ {i j : ι} {op : S.Op} {more : S.Reply op → Prog S Unit} {program : Prog S Unit}
      {cancelling : Bool}, assign l.tasks j (.settled program false) i =
        some (.live (.await op more) cancelling) → M.suspends op = false →
      (l.turn = none ∨ l.turn = some j) → turnAfter M j program = some i := by
    intro i j op more program cancelling found running owner
    by_cases same : i = j
    · subst same
      rw [assign_self] at found
      obtain ⟨rfl,_⟩ := settled_live (Option.some.inj found)
      simp [turnAfter,running]
    · rw [assign_other _ _ same] at found
      have mine := ordered.owned i op more cancelling found running
      rcases owner with idle | other
      · rw [idle] at mine; cases mine
      · rw [other] at mine; exact absurd (Option.some.inj mine).symm same
  have rested : ∀ {i j : ι} {program p : Prog S Unit} {cancelling : Bool},
      assign l.tasks j (.settled program false) i = some (.live p cancelling) →
      turnAfter M j program = some i → cancelling = false := by
    intro i j program p cancelling found mine
    obtain rfl := turnAfter_cases mine
    rw [assign_self] at found
    exact (settled_live (Option.some.inj found)).2.symm
  have stands : ∀ {i j : ι} {program p : Prog S Unit} {cancelling : Bool},
      assign l.tasks j (.settled program false) i = some (.live p cancelling) →
      ∃ op next, p = .await op next := by
    intro i j program p cancelling found
    by_cases same : i = j
    · subst same
      rw [assign_self] at found
      exact settled_standing (Option.some.inj found)
    · rw [assign_other _ _ same] at found
      exact ordered.standing i p cancelling found
  cases step with
  | @act j op' next' pending reply choice world at_op may performed =>
    refine ⟨fun i op more cancelling live running => ?_,fun i p cancelling live mine => ?_,
      fun i p cancelling live => ?_⟩
    · rcases spawnInto_cases live with found | ⟨program,_,_,created⟩
      · exact moved found running (mayAct_turn may)
      · cases created
    · rcases spawnInto_cases live with found | ⟨program,_,_,created⟩
      · exact rested found mine
      · cases created
    · rcases spawnInto_cases live with found | ⟨program,_,_,created⟩
      · exact stands found
      · cases created
  | start idle fresh =>
    refine ⟨fun i op more cancelling live running => ?_,fun i p cancelling live mine => ?_,
      fun i p cancelling live => stands live⟩
    · exact moved live running (.inl idle)
    · exact rested live mine
  | @kill j program idle doomed =>
    have untouched : ∀ {i : ι} {p : Prog S Unit} {cancelling : Bool},
        assign l.tasks j (.finished (.error M.cancelled)) i = some (.live p cancelling) →
        l.tasks i = some (.live p cancelling) := by
      intro i p cancelling live
      by_cases same : i = j
      · subst same; simp at live
      · exact (assign_other _ _ same).symm.trans live
    refine ⟨fun i op more cancelling live running => ?_,fun i p cancelling live mine => ?_,
      fun i p cancelling live => ordered.standing i p cancelling (untouched live)⟩
    · have mine := ordered.owned i op more cancelling (untouched live) running
      rw [idle] at mine; cases mine
    · cases mine
  | @callback kind arrival idle occurred =>
    have before : ∀ {i : ι} {p : Prog S Unit} {cancelling : Bool},
        spawnInto (cancelAll l.tasks arrival.cancels) arrival.spawns i = some (.live p cancelling) →
        ∃ pending, l.tasks i = some (.live p pending) := by
      intro i p cancelling live
      rcases spawnInto_cases live with found | ⟨program,_,_,created⟩
      · rcases cancelAll_cases found with same | ⟨before,_,present,cancelled⟩
        · exact ⟨cancelling,same⟩
        · obtain ⟨pending,rfl,_⟩ := cancel_live cancelled.symm
          exact ⟨pending,present⟩
      · cases created
    refine ⟨fun i op more cancelling live running => ?_,fun i p cancelling live mine => ?_,
      fun i p cancelling live => ?_⟩
    · obtain ⟨pending,present⟩ := before live
      rw [← idle]
      exact ordered.owned i op more pending present running
    · cases mine
    · obtain ⟨pending,present⟩ := before live
      exact ordered.standing i p pending present
  | outside occurred =>
    exact ⟨ordered.owned,ordered.calm,ordered.standing⟩

theorem disciplined_reached {M : Machine S ι σ χ κ ω} {start l : Loop S ι σ}
    (initial : Disciplined M start) (path : Reached M start l) : Disciplined M l :=
  path.invariant initial fun _ _ _ _ ordered advanced =>
    disciplined_step ordered (advance_cases advanced)

def Task.Runs (form : Prog S Unit → Prop) : Task S → Prop
  | .created program _ => form program
  | .live program _ => form program
  | .finished _ => True

def Running (form : ι → Prog S Unit → Prop) (l : Loop S ι σ) : Prop :=
  ∀ i task, l.tasks i = some task → task.Runs (form i)

theorem settled_runs {form : Prog S Unit → Prop} {program : Prog S Unit} (formed : form program)
    (cancelling : Bool) : (Task.settled program cancelling).Runs form := by
  cases program with
  | ret value => trivial
  | raise exc => trivial
  | await op next => exact formed

theorem cancel_runs {form : Prog S Unit → Prop} {task : Task S} (formed : task.Runs form) :
    task.cancel.Runs form := by
  cases task with
  | created program cancelling => exact formed
  | live program cancelling => exact formed
  | finished result => trivial

theorem running_step {M : Machine S ι σ χ κ ω} {form : ι → Prog S Unit → Prop} {l next : Loop S ι σ}
    (goes : ∀ i op more reply, form i (.await op more) → form i (more reply))
    (spawned : ∀ op i program, M.spawn op = some (i,program) → form i program)
    (arrived : ∀ kind world phases arrival i program, M.callback kind world phases = some arrival →
      arrival.spawns = some (i,program) → form i program)
    (running : Running form l) (step : Advance M l event next) : Running form next := by
  intro i task present
  cases step with
  | @act j op more pending reply choice world at_op may performed =>
    rcases spawnInto_cases present with found | ⟨program,_,spawns,rfl⟩
    · by_cases same : i = j
      · subst same
        rw [assign_self] at found
        cases found
        exact settled_runs (goes i op more _ (running i _ at_op)) _
      · rw [assign_other _ _ same] at found
        exact running i task found
    · cases ended : reply op with
      | ok value => rw [ended] at spawns; exact spawned op i program spawns
      | error exc => rw [ended] at spawns; cases spawns
  | @start j program idle fresh =>
    by_cases same : i = j
    · subst same
      simp only [assign_self,Option.some.injEq] at present
      subst present
      have formed : form i program := running i _ fresh
      exact settled_runs formed false
    · simp only [assign_other _ _ same] at present
      exact running i task present
  | @kill j program idle doomed =>
    by_cases same : i = j
    · subst same
      simp only [assign_self,Option.some.injEq] at present
      subst present
      trivial
    · simp only [assign_other _ _ same] at present
      exact running i task present
  | callback idle occurred =>
    rcases spawnInto_cases present with found | ⟨program,_,spawns,rfl⟩
    · rcases cancelAll_cases found with same | ⟨before,_,was,rfl⟩
      · exact running i task same
      · exact cancel_runs (running i before was)
    · exact arrived _ _ _ _ i program occurred spawns
  | outside occurred => exact running i task present

-- What each task can still perform is among what it was created to perform.
def Legal (legal : ι → S.Op → Prop) (l : Loop S ι σ) : Prop := Running (fun i => Prog.All (legal i)) l

def Machine.semantics (M : Machine S ι σ χ κ ω) (i : ι) (outer : σ → σ → Prop)
    (rely : σ × Bool → σ × Bool → Prop) : Semantics S (σ × Bool) where
  act := fun s op reply t =>
    replyCancelled M reply = s.2 ∧ (M.suspends op = false → s.2 = false) ∧ t.2 = false ∧
      ∃ choice, M.perform i s.1 op reply choice = some t.1
  env := fun op s t => (outer s.1 t.1 ∧ t.2 = s.2) ∨ (M.suspends op = true ∧ rely s t)

-- The task keeps its assertions from its first step to its last; `done` is what
-- they leave behind, and interference may not undo it.
def Tracks (i : ι) (R : Semantics S (σ × Bool))
    (pre : S.Op → σ × Bool → Prop) (done : Except S.Exc Unit → σ → Prop) (l : Loop S ι σ) : Prop :=
  (∀ program cancelling, l.tasks i = some (.live program cancelling) →
    Holds R pre (fun result s => done result s.1) program (l.world,cancelling)) ∧
  ∀ result, l.tasks i = some (.finished result) → done result l.world

theorem settled_tracks {R : Semantics S (σ × Bool)} {pre : S.Op → σ × Bool → Prop}
    {done : Except S.Exc Unit → σ → Prop} {program : Prog S Unit} {world : σ}
    (holds : Holds R pre (fun result s => done result s.1) program (world,cancelling)) :
    (∀ p c, Task.settled program cancelling = .live p c →
      Holds R pre (fun result s => done result s.1) p (world,c)) ∧
    ∀ result, Task.settled program cancelling = .finished result → done result world := by
  cases program with
  | ret value => exact ⟨fun p c live => (by cases live),fun result ended => (by cases ended; exact holds)⟩
  | raise exc => exact ⟨fun p c live => (by cases live),fun result ended => (by cases ended; exact holds)⟩
  | await op next => exact ⟨fun p c live => (by cases live; exact holds),fun result ended => (by cases ended)⟩

-- What the rest of the loop may do to task `i` in one step: a callback or another
-- task's turn falls only where task `i` is suspended, the outside anywhere. A task
-- that is done takes no cancellation, so `past` leaves open which one there was.
structure Interference (M : Machine S ι σ χ κ ω) (i : ι) (outer : σ → σ → Prop)
    (rely : σ × Bool → σ × Bool → Prop) (l : Loop S ι σ) : Prop where
  others : ∀ j op next pending reply choice world, j ≠ i →
    l.tasks j = some (.live (.await op next) pending) →
    M.perform j l.world op reply choice = some world → ∀ c, rely (l.world,c) (world,c)
  starts : ∀ j program, j ≠ i → l.tasks j = some (.created program false) →
    ∀ c, rely (l.world,c) (M.enter j l.world,c)
  callbacks : ∀ kind arrival, M.callback kind l.world l.phases = some arrival →
    ∀ program c, l.tasks i = some (.live program c) →
      rely (l.world,c) (arrival.world,c || arrival.cancels i)
  past : ∀ kind arrival, M.callback kind l.world l.phases = some arrival →
    ∃ b c, rely (l.world,b) (arrival.world,c)
  outside : ∀ kind world, M.outside kind l.world l.phases = some world → outer l.world world

-- Assertions that interference leaves alone, wherever it may fall.
structure Kept (done : Except S.Exc Unit → σ → Prop) (outer : σ → σ → Prop)
    (rely : σ × Bool → σ × Bool → Prop) : Prop where
  outer : ∀ result s t, outer s t → done result s → done result t
  rely : ∀ result s t, rely s t → done result s.1 → done result t.1

variable {outer : σ → σ → Prop} {rely : σ × Bool → σ × Bool → Prop} {pre : S.Op → σ × Bool → Prop}
  {done : Except S.Exc Unit → σ → Prop}

omit [DecidableEq ι] in
theorem holds_interfered {M : Machine S ι σ χ κ ω} {program : Prog S Unit}
    (kept : Kept done outer rely)
    (suspended : ∀ op next, program = .await op next → M.suspends op = true)
    (holds : Holds (M.semantics i outer rely) pre (fun result s => done result s.1) program s)
    (moved : rely s t) :
    Holds (M.semantics i outer rely) pre (fun result s => done result s.1) program t := by
  cases program with
  | ret value => exact kept.rely _ s t moved holds
  | raise exc => exact kept.rely _ s t moved holds
  | await op next => exact holds_env holds (.inr ⟨suspended op next rfl,moved⟩)

omit [DecidableEq ι] in
theorem holds_outside {M : Machine S ι σ χ κ ω} {program : Prog S Unit}
    (kept : Kept done outer rely)
    (holds : Holds (M.semantics i outer rely) pre (fun result s => done result s.1) program (world,c))
    (moved : outer world world') :
    Holds (M.semantics i outer rely) pre (fun result s => done result s.1) program (world',c) := by
  cases program with
  | ret value => exact kept.outer _ world world' moved holds
  | raise exc => exact kept.outer _ world world' moved holds
  | await op next => exact holds_env holds (.inl ⟨moved,rfl⟩)

theorem tracks_step {M : Machine S ι σ χ κ ω} {l next : Loop S ι σ}
    (kept : Kept done outer rely)
    (ordered : Disciplined M l) (interference : Interference M i outer rely l)
    (launch : ∀ program, l.turn = none → l.tasks i = some (.created program false) →
      Holds (M.semantics i outer rely) pre (fun result s => done result s.1) program
        (M.enter i l.world,false))
    (killed : ∀ program, l.turn = none → l.tasks i = some (.created program true) →
      done (.error M.cancelled) l.world)
    (tracks : Tracks i (M.semantics i outer rely) pre done l)
    (step : Advance M l event next) : Tracks i (M.semantics i outer rely) pre done next := by
  obtain ⟨live,finished⟩ := tracks
  cases step with
  | @act j op more pending reply choice world at_op may performed =>
    by_cases same : i = j
    · subst same
      obtain ⟨delivered,calm⟩ := ordered.acts at_op may
      have acted : (M.semantics i outer rely).act (l.world,pending) op (reply op) (world,false) :=
        ⟨delivered,calm,rfl,choice,performed⟩
      have settled := settled_tracks (holds_act (live _ _ at_op) acted)
      have now : spawnInto (assign l.tasks i (.settled (more (reply op)) false))
          (spawnAfter M op (reply op)) i = some (.settled (more (reply op)) false) :=
        spawnInto_present _ (assign_self _ _ _)
      refine ⟨fun program c present => ?_,fun result present => ?_⟩
      · exact settled.1 program c (Option.some.inj (now.symm.trans present))
      · exact settled.2 result (Option.some.inj (now.symm.trans present))
    · have moved := interference.others j op more pending (reply op) choice world (Ne.symm same)
        at_op performed
      refine ⟨fun program c present => ?_,fun result present => ?_⟩
      · rcases spawnInto_cases present with found | ⟨_,_,_,created⟩
        · rw [assign_other _ _ same] at found
          refine holds_interfered kept ?_ (live program c found) (moved c)
          intro op' next' at_op'
          subst at_op'
          cases suspended : M.suspends op' with
          | true => rfl
          | false =>
            have mine := ordered.owned i op' next' c found suspended
            rcases mayAct_turn may with idle | other
            · rw [idle] at mine; cases mine
            · rw [other] at mine; exact absurd (Option.some.inj mine).symm same
        · cases created
      · rcases spawnInto_cases present with found | ⟨_,_,_,created⟩
        · rw [assign_other _ _ same] at found
          exact kept.rely result (l.world,false) (world,false) (moved false) (finished result found)
        · cases created
  | @start j program idle fresh =>
    by_cases same : i = j
    · subst same
      have settled := settled_tracks (launch program idle fresh)
      refine ⟨fun p c present => ?_,fun result present => ?_⟩
      · exact settled.1 p c (Option.some.inj ((assign_self _ _ _).symm.trans present))
      · exact settled.2 result (Option.some.inj ((assign_self _ _ _).symm.trans present))
    · have moved := interference.starts j program (Ne.symm same) fresh
      refine ⟨fun p c present => ?_,fun result present => ?_⟩
      · have found := (assign_other _ _ same).symm.trans present
        refine holds_interfered kept ?_ (live p c found) (moved c)
        intro op next at_op
        subst at_op
        cases suspended : M.suspends op with
        | true => rfl
        | false =>
          have mine := ordered.owned i op next c found suspended
          rw [idle] at mine; cases mine
      · have found := (assign_other _ _ same).symm.trans present
        exact kept.rely result (l.world,false) _ (moved false) (finished result found)
  | @kill j program idle doomed =>
    by_cases same : i = j
    · subst same
      refine ⟨fun p c present => ?_,fun result present => ?_⟩
      · cases Option.some.inj ((assign_self _ _ _).symm.trans present)
      · cases Option.some.inj ((assign_self _ _ _).symm.trans present)
        exact killed program idle doomed
    · refine ⟨fun p c present => ?_,fun result present => ?_⟩
      · exact live p c ((assign_other _ _ same).symm.trans present)
      · exact finished result ((assign_other _ _ same).symm.trans present)
  | @callback kind arrival idle occurred =>
    have moved := interference.callbacks kind arrival occurred
    refine ⟨fun program c present => ?_,fun result present => ?_⟩
    · rcases spawnInto_cases present with found | ⟨_,_,_,created⟩
      · have was : ∃ before, l.tasks i = some (.live program before) ∧ c = (before || arrival.cancels i) := by
          unfold cancelAll at found
          cases wanted : arrival.cancels i with
          | false => rw [wanted] at found; exact ⟨c,found,by simp⟩
          | true =>
            rw [wanted] at found
            obtain ⟨before,was,cancelled⟩ := Option.map_eq_some_iff.mp found
            obtain ⟨pending,rfl,rfl⟩ := cancel_live cancelled
            exact ⟨pending,was,by simp⟩
        obtain ⟨before,was,rfl⟩ := was
        refine holds_interfered kept ?_ (live program before was) (moved program before was)
        intro op next at_op
        subst at_op
        cases suspended : M.suspends op with
        | true => rfl
        | false =>
          have mine := ordered.owned i op next before was suspended
          rw [idle] at mine; cases mine
      · cases created
    · rcases spawnInto_cases present with found | ⟨_,_,_,created⟩
      · have was : l.tasks i = some (.finished result) := by
          rcases cancelAll_cases found with same | ⟨before,_,was,cancelled⟩
          · exact same
          · cases before with
            | created p b => cases cancelled
            | live p b => cases cancelled
            | finished r => cases cancelled; exact was
        obtain ⟨b,c,past⟩ := interference.past kind arrival occurred
        exact kept.rely result _ _ past (finished result was)
      · cases created
  | @outside kind world occurred =>
    have moved := interference.outside kind world occurred
    refine ⟨fun program c present => ?_,fun result present => ?_⟩
    · exact holds_outside kept (live program c present) moved
    · exact kept.outer result _ _ moved (finished result present)

end Coroutine
