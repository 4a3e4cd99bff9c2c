import HyprlandAgent.Daemon.Launch

-- A run's body begins once its submission is over, on the cell the submission
-- prepared, and meets nobody there from then on but feedback and cancellations.
namespace HyprlandAgent
open Coroutine RunExecutor
variable {h : Host} {run : RunId} {w next : World}

def inserted (run : RunId) (kind : RunKind) (task brainName : String) (startedAt : Seconds) : RunRow :=
  { runId := run, kind := kind, task := task, brain := brainName, status := .running,
    startedAt := startedAt }

def startedMessage (run : RunId) (kind : RunKind) (task brainName : String) : Dict :=
  runMessage run (kind.value ++ "_started") (dict [("entry_kind",.str kind.value),("task",.str task),
    ("brain",.str brainName)])

def prepared (run : RunId) (kind : RunKind) (task brainName : String) (brain : Brain)
    (startedAt : Seconds) (begun : Bool) : Cell × Ledger :=
  ({ rows := { run := some (inserted run kind task brainName startedAt) }
     seq := some 0
     published := [startedMessage run kind task brainName] },
   { launched := some (kind,task,brain)
     begun := begun })

def handedOver (run : RunId) (state : Cell × Ledger) : Prop :=
  ∃ kind task brainName brain startedAt,
    state = prepared run kind task brainName brain startedAt false

def submitted (run : RunId) : Except Exc Unit → World → Prop
  | .ok _ => Steady run (handedOver run)
  | .error _ => fun w => (Abandoned run w ∧ Barren run w) ∨ Steady run (· = ({},{})) w

section
variable {P Q : Cell × Ledger → Prop} {X : World → Prop}

theorem Steady.imp (steady : Steady run P w) (weaker : ∀ state, P state → Q state) :
    Steady run Q w := ⟨weaker _ steady.1,steady.2⟩

theorem Opening.imp {Y : World → Prop} {s : World × Bool} (opening : Opening run X s)
    (weaker : ∀ w, X w → Y w) : Opening run Y s := Or.imp id (weaker s.1) opening

theorem steady_unlaunched (plain : ∀ state, P state → state.2.launched = none ∧ Bare state) {op : Op}
    (s : World × Bool) (opening : Opening run (Steady run P) s) : unlaunchedAt run op s :=
  ⟨.inr (opening.imp fun _ steady => (plain _ steady.1).1),
    opening.imp fun _ steady => steady.barren fun state holds => (plain state holds).2⟩

theorem Steady.moved (steady : Steady run P w) (jobs : (next.cells run).orphans = (w.cells run).orphans)
    (outcomes : (next.ledgers run).outcomes = (w.ledgers run).outcomes)
    (moved : P (core run w) → Q (core run next)) : Steady run Q next :=
  ⟨moved steady.1,steady.2.same jobs outcomes⟩

end

theorem insert_commit {summary : RunSummary}
    (committed : w.commit run now (.store (.insertRun summary)) = some next) :
    core run next = ({ (core run w).1 with
        rows := { (core run w).1.rows with run := some { summary with error := none } } },
      (core run w).2) ∧ (next.cells run).orphans = (w.cells run).orphans ∧
      (next.ledgers run).outcomes = (w.ledgers run).outcomes := by
  obtain ⟨rows,applied,rfl⟩ := Option.map_eq_some_iff.mp committed
  simp only [StoreWrite.apply] at applied
  split at applied
  · cases applied
  · cases applied
    exact ⟨by simp [core,noteCommit],by simp,by simp [noteCommit]⟩

theorem abandoned_core : Abandoned run w ↔ (core run w).2.launched = none ∧
    ((core run w).2.brainRaised = true ∨ (core run w).2.insertCut = true) := Iff.rfl

theorem Abandoned.atCell {change : Cell → Cell} (abandoned : Abandoned run w) :
    Abandoned run (w.atCell other change) := abandoned

theorem Barren.orphan {job : Job} (barren : Barren run w) (opens : job.opens = true) :
    Barren run (w.atCell run fun cell => { cell with orphans := cell.orphans ++ [job] }) := by
  obtain ⟨bare,jobs,outcomes⟩ := barren
  refine ⟨?_,?_,outcomes⟩
  · simpa [core] using bare
  · intro other inside
    simp only [World.atCell_same,List.mem_append,List.mem_singleton] at inside
    rcases inside with old | rfl
    · exact jobs other old
    · exact opens

theorem insert_noted {summary : RunSummary} {failed : Bool} {fate : Fate} :
    core run (w.note run (noteIssue (.insertRun summary) failed fate)) =
      ((core run w).1,{ (core run w).2 with insertCut := failed && fate != .dropped }) := by
  simp [core,noteIssue]

theorem insert_triple (kind : RunKind) (task brainName : String) (startedAt : Seconds) :
    Triple (submission h run) (unlaunchedAt run) (Opening run (Steady run (· = ({},{}))))
      (perform (.store run (.insertRun ⟨run,kind,task,brainName,.running,startedAt,none,none⟩)))
      (ending (fun _ => Opening run (Steady run
          (· = ({ rows := { run := some (inserted run kind task brainName startedAt) } },{}))))
        fun exc => Opening run (submitted run (.error exc))) := by
  refine (opening_perform (undisturbed_steady h run _)
    (Q:=fun
      | .ok _ => Steady run (· = ({ rows := { run := some (inserted run kind task brainName startedAt) } },{}))
      | .error exc => submitted run (.error exc)) ?_ ?_).mono ?_
  · exact steady_unlaunched fun state fresh => by rw [fresh]; exact ⟨rfl,⟨rfl,rfl,rfl,rfl,rfl,rfl,rfl,rfl⟩⟩
  · intro w next reply choice steady done
    have fresh : core run w = ({},{}) := steady.1
    have barren := steady.barren fun state same => by rw [same]; exact ⟨rfl,rfl,rfl,rfl,rfl,rfl,rfl,rfl⟩
    have noted : Barren run (w.note run (noteIssue
        (.insertRun ⟨run,kind,task,brainName,.running,startedAt,none,none⟩) (World.failed reply)
        choice.fate)) := barren.noted fun past => ⟨rfl,rfl,rfl,rfl,rfl⟩
    cases reply with
    | ok value =>
      obtain ⟨moved,jobs,outcomes⟩ := insert_commit done
      apply steady.moved (by simpa using jobs) (by simpa [noteIssue] using outcomes)
      intro _
      rw [moved,insert_noted,fresh]
      rfl
    | error exc =>
      rcases World.store_cases done with ⟨committed,plain | late⟩ | ⟨rfl,_,dropped⟩ | ⟨rfl,_,late⟩
      · cases plain
      · refine .inl ⟨abandoned_core.mpr ?_,commit_barren rfl committed noted⟩
        rw [(insert_commit committed).1,insert_noted,fresh,late]
        exact ⟨rfl,.inr rfl⟩
      · refine .inr (steady.moved rfl (by simp [noteIssue]) ?_)
        intro _
        rw [insert_noted,fresh,dropped]
        rfl
      · refine .inl ⟨Abandoned.atCell (abandoned_core.mpr ?_),noted.orphan rfl⟩
        rw [insert_noted,fresh,late]
        exact ⟨rfl,.inr rfl⟩
  · intro result s reached
    cases result <;> exact reached

theorem opening_step {P Q : Cell × Ledger → Prop} {op : Op}
    (plain : ∀ s, Opening run (Steady run P) s → unlaunchedAt run op s)
    (works : ∀ w next reply choice, w.effect h ⟨run,.submit⟩ op reply choice = some next →
      (∃ value, reply = .ok value) ∧ (next.cells run).orphans = (w.cells run).orphans ∧
        (next.ledgers run).outcomes = (w.ledgers run).outcomes ∧ (P (core run w) → Q (core run next))) :
    Triple (submission h run) (unlaunchedAt run) (Opening run (Steady run P)) (perform op)
      (ending (fun _ => Opening run (Steady run Q))
        fun exc => Opening run (submitted run (.error exc))) := by
  refine (opening_perform (undisturbed_steady h run P)
    (Q:=fun reply w => (∃ value, reply = .ok value) ∧ Steady run Q w) plain ?_).mono ?_
  · intro w next reply choice steady done
    obtain ⟨value,jobs,outcomes,moved⟩ := works w next reply choice done
    exact ⟨value,steady.moved jobs outcomes moved⟩
  · intro result s reached
    rcases reached with begun | ⟨⟨value,rfl⟩,steady⟩
    · cases result <;> exact .inl begun
    · exact .inr steady

theorem brain_triple (name : String) {row : RunRow} (running : row.status = .running) :
    Triple (submission h run) (unlaunchedAt run)
      (Opening run (Steady run (· = ({ rows := { run := some row }, seq := some 0 },{}))))
      (perform (.getBrain name))
      (ending (fun _ => Opening run
          (Steady run (· = ({ rows := { run := some row }, seq := some 0 },{}))))
        fun exc => Opening run (submitted run (.error exc))) := by
  have open_ : (Rows.status { run := some row }).all (· == .running) = true := by
    simp [Rows.status,running]
  refine (opening_perform (undisturbed_steady h run _)
    (Q:=ending (S:=effects) (fun _ => Steady run (· = ({ rows := { run := some row }, seq := some 0 },{})))
      fun exc => submitted run (.error exc)) ?_ ?_).mono ?_
  · exact steady_unlaunched fun state fresh => by rw [fresh]; exact ⟨rfl,⟨open_,rfl,rfl,rfl,rfl,rfl,rfl,rfl⟩⟩
  · intro w next reply choice steady done
    cases reply with
    | ok brain => cases done; exact steady
    | error exc =>
      have fresh : core run w = _ := steady.1
      cases done
      have barren := steady.barren fun state same => by rw [same]; exact ⟨open_,rfl,rfl,rfl,rfl,rfl,rfl,rfl⟩
      refine .inl ⟨abandoned_core.mpr ?_,barren.noted fun past => ⟨rfl,rfl,rfl,rfl,rfl⟩⟩
      have noted : (core run (w.note run fun past => { past with brainRaised := true })).2 =
          { (core run w).2 with brainRaised := true } := by simp [core]
      rw [noted,fresh]
      exact ⟨rfl,.inl rfl⟩
  · intro result s reached
    cases result <;> exact reached

theorem submit_triple (kind : RunKind) (task brainName : String) :
    Triple (submission h run) (unlaunchedAt run) (Opening run (Steady run (· = ({},{}))))
      (do let _ ← submit run kind task brainName) fun result => Opening run (submitted run result) := by
  have told : Triple (submission h run) (unlaunchedAt run) (Opening run (Steady run (· = ({},{}))))
      (submit run kind task brainName)
      (ending (fun _ => Opening run (submitted run (.ok ())))
        fun exc => Opening run (submitted run (.error exc))) := by
    unfold submit
    refine Triple.seq (opening_step (Q:=(· = ({},{}))) ?_ ?_) ?_
    · exact steady_unlaunched fun state fresh => by rw [fresh]; exact ⟨rfl,⟨rfl,rfl,rfl,rfl,rfl,rfl,rfl,rfl⟩⟩
    · intro w next reply choice done
      cases World.tool_effect done
      cases reply with
      | ok value => exact ⟨⟨value,rfl⟩,rfl,rfl,id⟩
      | error exc => cases done
    intro startedAt
    apply Triple.seq (insert_triple kind task brainName startedAt)
    intro _
    refine Triple.seq (opening_step (Q:=(· = ({ rows :=
      { run := some (inserted run kind task brainName startedAt) }, seq := some 0 },{}))) ?_ ?_) ?_
    · exact steady_unlaunched fun state fresh => by rw [fresh]; exact ⟨rfl,⟨rfl,rfl,rfl,rfl,rfl,rfl,rfl,rfl⟩⟩
    · intro w next reply choice done
      cases reply with
      | ok value =>
        cases done
        refine ⟨⟨value,rfl⟩,by simp,rfl,?_⟩
        intro before
        have moved : core run (w.atCell run fun cell => { cell with seq := some 0 }) =
            ({ (core run w).1 with seq := some 0 },(core run w).2) := by simp [core]
        rw [moved,before]
      | error exc => cases done
    intro _
    apply Triple.seq (brain_triple brainName rfl)
    intro brain
    refine Triple.seq (opening_step (Q:=(· = ({ rows :=
      { run := some (inserted run kind task brainName startedAt) }, seq := some 0 },
        { launched := some (kind,task,brain) }))) ?_ ?_) ?_
    · exact steady_unlaunched fun state fresh => by rw [fresh]; exact ⟨rfl,⟨rfl,rfl,rfl,rfl,rfl,rfl,rfl,rfl⟩⟩
    · intro w next reply choice done
      cases reply with
      | ok value =>
        cases done
        refine ⟨⟨value,rfl⟩,rfl,by simp,?_⟩
        intro before
        have moved : core run (w.note run fun past => { past with launched := some (kind,task,brain) }) =
            ((core run w).1,{ (core run w).2 with launched := some (kind,task,brain) }) := by simp [core]
        rw [moved,before]
      | error exc => cases done
    intro _
    refine Triple.seq (opening_step
      (Q:=(· = prepared run kind task brainName brain startedAt false)) ?_ ?_) ?_
    · intro s opening
      refine ⟨.inl ⟨_,rfl⟩,opening.imp fun w steady => steady.barren ?_⟩
      intro state same
      rw [same]
      exact ⟨rfl,rfl,rfl,rfl,rfl,rfl,rfl,rfl⟩
    · intro w next reply choice done
      cases reply with
      | ok value =>
        cases done
        refine ⟨⟨value,rfl⟩,by simp,rfl,?_⟩
        intro before
        have moved : ∀ message, core run (w.atCell run fun cell =>
            { cell with published := cell.published ++ [message] }) =
            ({ (core run w).1 with published := (core run w).1.published ++ [message] },(core run w).2) := by
          intro message
          simp [core]
        rw [moved,before]
        rfl
      | error exc => cases done
    intro _
    apply Triple.pure
    intro s opening
    apply opening.imp
    intro w steady
    exact (⟨⟨kind,task,brainName,brain,startedAt,steady.1⟩,steady.2⟩ : Steady run (handedOver run) w)
  apply Triple.bind told
  intro _
  exact Triple.pure fun s reached => reached

abbrev elapsed (run : RunId) (result : Except Exc Unit) (w : World) : Prop :=
  (w.ledgers run).begun = true ∨ submitted run result w

theorem undisturbed_submitted (result : Except Exc Unit) : Undisturbed h run (submitted run result) := by
  cases result with
  | ok value => exact undisturbed_steady h run _
  | error exc =>
    exact ((undisturbed_abandoned h run).both (undisturbed_barren h run)).either
      (undisturbed_steady h run _)

theorem kept_over : Kept (S:=effects) (elapsed run) (Outer h run) fun s t =>
    ∃ b c, Rely h run (fun _ next => (next.ledgers run).begun = true) (s.1,b) (t.1,c) where
  outer := fun result w next outer elapsed =>
    opening_outer (b:=false) (c:=false) (undisturbed_submitted result) outer elapsed
  rely := by
    intro result s t given elapsed
    obtain ⟨b,c,rely⟩ := given
    exact opening_rely (s:=(s.1,b)) (t:=(t.1,c)) (undisturbed_submitted result) rely elapsed

def asleep (run : RunId) (l : Loop effects TaskId World) : Prop :=
  l.tasks ⟨run,.submit⟩ = none ∨ ∃ program c, l.tasks ⟨run,.submit⟩ = some (.created program c)

structure Born (h : Host) (run : RunId) (l : Loop effects TaskId World) : Prop where
  dormant : asleep run l → Steady run (· = ({},{})) l.world
  wanted : ∀ program c, l.tasks ⟨run,.submit⟩ = some (.created program c) →
    ∃ kind task brainName, program = do let _ ← submit run kind task brainName
  told : Tracks ⟨run,.submit⟩ (submission h run) (unlaunchedAt run) (elapsed run) l
  unlaunched : l.tasks (bodyOf run) = none → birth run l.world = (false,none)
  created : ∀ program c, l.tasks (bodyOf run) = some (.created program c) →
    ∃ kind task brain, birth run l.world = (false,some (kind,task,brain)) ∧
      program = runTask h run kind task brain
  live : ∀ program c, l.tasks (bodyOf run) = some (.live program c) →
    (l.world.ledgers run).begun = true
  parted : (l.world.ledgers run).begun = true →
    ∃ result, l.tasks ⟨run,.submit⟩ = some (.finished result)

inductive BirthStep (h : Host) (run : RunId) (l : Loop effects TaskId World) :
    Event effects TaskId Choice Callback Outside → World → Prop where
  | same : birth run after = birth run l.world →
      (∀ program, ¬ Spawns (daemon h) l event (bodyOf run) program) →
      (∀ program, event = .start (bodyOf run) → l.tasks (bodyOf run) ≠ some (.created program false)) →
      BirthStep h run l event after
  | launched {more : effects.Reply (.createTask run kind task brain) → Async Unit} :
      l.tasks ⟨run,.submit⟩ = some (.live (.await (.createTask run kind task brain) more) c) →
      (∀ program, Spawns (daemon h) l (.act i reply choice) (bodyOf run) program →
        program = runTask h run kind task brain) →
      Spawns (daemon h) l (.act i reply choice) (bodyOf run) (runTask h run kind task brain) →
      birth run after = ((l.world.ledgers run).begun,some (kind,task,brain)) →
      BirthStep h run l (.act i reply choice) after
  | began {program : Async Unit} : l.turn = none → l.tasks (bodyOf run) = some (.created program false) →
      after = l.world.enter (bodyOf run) → BirthStep h run l (.start (bodyOf run)) after

theorem act_spawns {l : Loop effects TaskId World} {op : Op} {more : effects.Reply op → Async Unit}
    (at_op : l.tasks j = some (.live (.await op more) pending))
    (spawns : Spawns (daemon h) l (.act j reply choice) (bodyOf run) program) :
    ∃ kind task brain, op = .createTask run kind task brain ∧ World.failed (reply op) = false ∧
      program = runTask h run kind task brain := by
  cases spawns with
  | act found spawned =>
    rw [at_op] at found
    cases found
    unfold spawnAfter at spawned
    split at spawned
    · rename_i plain
      cases op with
      | createTask other kind task brain =>
        cases spawned
        exact ⟨kind,task,brain,rfl,by rw [plain]; rfl,rfl⟩
      | _ => cases spawned
    · cases spawned

theorem birth_step {l next : Loop effects TaskId World} (allowed : Legal legal l)
    (step : Advance (daemon h) l event next) (run : RunId) : BirthStep h run l event next.world := by
  cases step with
  | @act j op more pending reply choice world at_op may performed =>
    have lawful : legal j op := (allowed j _ at_op : Prog.All _ _).head
    by_cases spawning : ∃ program, Spawns (daemon h) l (.act j reply choice) (bodyOf run) program
    · obtain ⟨program,spawns⟩ := spawning
      obtain ⟨kind,task,brain,rfl,plain,rfl⟩ := act_spawns at_op spawns
      obtain rfl : j = ⟨run,.submit⟩ := lawful
      refine .launched at_op ?_ spawns ?_
      · intro program spawns
        obtain ⟨_,_,_,same,_,rfl⟩ := act_spawns at_op spawns
        cases same
        rfl
      · have done := World.perform_effect performed
        cases ended : reply (.createTask run kind task brain) with
        | ok value =>
          rw [ended] at done
          cases done
          simp [birth]
        | error exc => rw [ended] at plain; cases plain
    · refine .same ?_ (fun program spawns => spawning ⟨program,spawns⟩) (by simp)
      rcases perform_birth performed run with same | ⟨kind,task,brain,rfl,plain,_⟩
      · exact same
      · refine absurd ⟨runTask h run kind task brain,.act at_op ?_⟩ spawning
        cases ended : reply (.createTask run kind task brain) with
        | ok value => rfl
        | error exc => rw [ended] at plain; cases plain
  | @start j program idle fresh =>
    by_cases same : j = bodyOf run
    · subst same
      exact .began idle fresh rfl
    · refine .same (enter_birth same) (by rintro program ⟨⟩) ?_
      intro program started
      cases started
      exact absurd rfl same
  | @kill j program idle doomed =>
    refine .same rfl (by rintro program ⟨⟩) ?_
    intro p started
    cases started
    rw [doomed]
    intro found
    cases found
  | @callback kind arrival idle occurred =>
    have called := callback_cases occurred
    refine .same (called_birth called run) ?_ (by simp)
    intro program given
    cases given
    rename_i found spawned
    have same : arrival = _ := Option.some.inj (occurred.symm.trans found)
    subst same
    cases called <;> cases spawned
  | outside occurred =>
    exact .same (outer_birth (outside_outer occurred run)) (by rintro program ⟨⟩) (by simp)

theorem perform_begun {i : TaskId} {op : Op} {reply : effects.Reply op}
    (performed : w.perform h i op reply choice = some next) (run : RunId) :
    (next.ledgers run).begun = (w.ledgers run).begun := by
  rcases perform_birth performed run with same | ⟨kind,task,brain,_,_,same⟩
  · exact congrArg Prod.fst same
  · exact congrArg Prod.fst same

theorem submission_interference {l : Loop effects TaskId World} (allowed : Legal legal l)
    (born : Born h run l) : Interference (daemon h) ⟨run,.submit⟩ (Outer h run) (fun s t =>
      ∃ b c, Rely h run (fun _ next => (next.ledgers run).begun = true) (s.1,b) (t.1,c)) l where
  others := by
    intro j op more pending reply choice world different at_op performed c
    have lawful : legal j op := (allowed j _ at_op : Prog.All _ _).head
    refine ⟨c,c,?_⟩
    by_cases own : run = j.run
    · obtain ⟨other,slot⟩ := j
      obtain rfl : run = other := own
      cases slot with
      | submit => exact absurd rfl different
      | body =>
        refine .excused ?_
        rw [perform_begun performed]
        exact born.live _ _ at_op
      | feedback n => exact .remarked (perform_remark rfl rfl lawful performed)
    · exact .drift (perform_drift own lawful performed)
  starts := by
    intro j program different fresh c
    refine ⟨c,c,?_⟩
    by_cases body : j = bodyOf run
    · subst body
      exact .excused (congrArg Prod.fst (enter_begun run l.world))
    · exact .drift (enter_drift body)
  callbacks := by
    intro kind arrival occurred program c found
    exact ⟨true,_,called_rely (callback_cases occurred) run true (.inr rfl)⟩
  past := by
    intro kind arrival occurred
    exact ⟨true,true,true,_,called_rely (callback_cases occurred) run true (.inr rfl)⟩
  outside := by
    intro kind world occurred
    exact outside_outer occurred run

theorem asleep_before {l next : Loop effects TaskId World} (step : Advance (daemon h) l event next)
    (sleeping : asleep run next) : asleep run l := by
  rcases sleeping with absent | ⟨program,c,created⟩
  · exact .inl (absent_before step absent).1
  · rcases created_before step created with ⟨before,found⟩ | ⟨absent,_⟩
    · exact .inr ⟨program,before,found⟩
    · exact .inl absent

theorem asleep_unlaunched {l : Loop effects TaskId World} (born : Born h run l)
    (sleeping : asleep run l) : birth run l.world = (false,none) := by
  have fresh : core run l.world = ({},{}) := (born.dormant sleeping).1
  exact Prod.ext (congrArg (fun state => state.2.begun) fresh)
    (congrArg (fun state => state.2.launched) fresh)

theorem dormant_birth {l next : Loop effects TaskId World} (allowed : Legal legal l)
    (born : Born h run l) (step : Advance (daemon h) l event next) (sleeping : asleep run next) :
    birth run next.world = (false,none) := by
  have before := asleep_before step sleeping
  have unborn := asleep_unlaunched born before
  cases birth_step allowed step run with
  | same same _ _ => exact same.trans unborn
  | launched at_op _ _ _ =>
    rcases before with absent | ⟨program,c,created⟩
    · rw [absent] at at_op; cases at_op
    · rw [created] at at_op; cases at_op
  | began idle fresh _ =>
    obtain ⟨kind,task,brain,marked,_⟩ := born.created _ _ fresh
    rw [unborn] at marked
    cases marked

theorem dormant_step {l next : Loop effects TaskId World} (allowed : Legal legal l)
    (born : Born h run l) (step : Advance (daemon h) l event next) (sleeping : asleep run next) :
    Steady run (· = ({},{})) next.world := by
  have before := asleep_before step sleeping
  have fresh := born.dormant before
  have unbegun : (next.world.ledgers run).begun = false :=
    congrArg Prod.fst (dormant_birth allowed born step sleeping)
  have settle : (∃ b c, Rely h run (fun _ next => (next.ledgers run).begun = true)
      (l.world,b) (next.world,c)) → Steady run (· = ({},{})) next.world := by
    intro given
    obtain ⟨b,c,rely⟩ := given
    rcases rely.steady fresh with steady | excused
    · exact steady
    · rw [unbegun] at excused; cases excused
  have interference := submission_interference allowed born
  have unstarted : event ≠ .start ⟨run,.submit⟩ := by
    intro same
    subst same
    rcases sleeping with absent | ⟨program,c,created⟩
    · cases step with
      | start idle fresh => cases (assign_self _ _ _).symm.trans absent
      | kill idle doomed => cases (assign_self _ _ _).symm.trans absent
    · exact started_before step program c created
  cases step with
  | @act j op more pending reply choice world at_op may performed =>
    refine settle (interference.others j op more pending (reply op) choice world ?_ at_op performed false)
    intro same
    subst same
    rcases before with absent | ⟨program,c,created⟩
    · rw [absent] at at_op; cases at_op
    · rw [created] at at_op; cases at_op
  | @start j program idle fresh =>
    refine settle (interference.starts j program ?_ fresh false)
    intro same
    subst same
    exact unstarted rfl
  | kill idle doomed => exact fresh
  | callback idle occurred =>
    obtain ⟨b,c,rely⟩ := interference.past _ _ occurred
    exact settle rely
  | outside occurred => exact (interference.outside _ _ occurred).steady fresh

theorem told_step {l next : Loop effects TaskId World} (allowed : Legal legal l)
    (ordered : Disciplined (daemon h) l) (born : Born h run l)
    (step : Advance (daemon h) l event next) :
    Tracks ⟨run,.submit⟩ (submission h run) (unlaunchedAt run) (elapsed run) next := by
  refine tracks_step kept_over ordered (submission_interference allowed born) ?_ ?_ born.told step
  · intro program idle created
    obtain ⟨kind,task,brainName,rfl⟩ := born.wanted program false created
    exact submit_triple kind task brainName (l.world,false)
      (.inr (born.dormant (.inr ⟨_,_,created⟩)))
  · intro program idle created
    exact .inr (.inr (born.dormant (.inr ⟨_,_,created⟩)))

theorem launching_unlaunched {l : Loop effects TaskId World} (born : Born h run l)
    {more : effects.Reply (.createTask run kind task brain) → Async Unit}
    (at_op : l.tasks ⟨run,.submit⟩ = some (.live (.await (.createTask run kind task brain) more) c)) :
    (l.world.ledgers run).launched = none := by
  rcases (holds_pre (born.told.1 _ _ at_op)).launch with ⟨message,same⟩ | begun | unlaunched
  · cases same
  · obtain ⟨result,finished⟩ := born.parted begun
    rw [finished] at at_op
    cases at_op
  · exact unlaunched

theorem beginning_parted {l : Loop effects TaskId World} (ordered : Disciplined (daemon h) l)
    (born : Born h run l) (idle : l.turn = none)
    (created : l.tasks (bodyOf run) = some (.created program false)) :
    ∃ result, l.tasks ⟨run,.submit⟩ = some (.finished result) := by
  obtain ⟨kind,task,brain,marked,_⟩ := born.created _ _ created
  have launched : (l.world.ledgers run).launched = some (kind,task,brain) := congrArg Prod.snd marked
  have unbegun : (l.world.ledgers run).begun = false := congrArg Prod.fst marked
  have awake : ¬ asleep run l := by
    intro sleeping
    rw [asleep_unlaunched born sleeping] at marked
    cases marked
  cases found : l.tasks ⟨run,.submit⟩ with
  | none => exact absurd (.inl found) awake
  | some submission =>
    cases submission with
    | created p c => exact absurd (.inr ⟨p,c,found⟩) awake
    | finished result => exact ⟨result,rfl⟩
    | live p c =>
      obtain ⟨op,more,rfl⟩ := ordered.standing _ _ _ found
      rcases (holds_pre (born.told.1 _ _ found)).launch with ⟨message,rfl⟩ | begun | unlaunched
      · have mine := ordered.owned _ _ _ _ found rfl
        rw [idle] at mine
        cases mine
      · rw [unbegun] at begun; cases begun
      · rw [launched] at unlaunched; cases unlaunched

theorem submission_spawns {l : Loop effects TaskId World}
    (spawns : Spawns (daemon h) l event ⟨run,.submit⟩ program) :
    ∃ kind task brainName, program = (do let _ ← submit run kind task brainName) := by
  cases spawns with
  | @act j op more pending i reply p choice at_op spawned =>
    unfold spawnAfter at spawned
    split at spawned
    · cases op <;> cases spawned
    · cases spawned
  | callback occurred spawned =>
    cases callback_cases occurred with
    | submit fresh unborn => cases spawned; exact ⟨_,_,_,rfl⟩
    | feedback fresh => cases spawned
    | _ => cases spawned

theorem born_step {l next : Loop effects TaskId World} (allowed : Legal legal l)
    (ordered : Disciplined (daemon h) l) (born : Born h run l)
    (step : Advance (daemon h) l event next) : Born h run next where
  dormant := dormant_step allowed born step
  wanted := by
    intro program c created
    rcases created_before step created with ⟨before,found⟩ | ⟨_,spawns⟩
    · exact born.wanted program before found
    · exact submission_spawns spawns
  told := told_step allowed ordered born step
  unlaunched := by
    intro absent
    obtain ⟨before,unspawned⟩ := absent_before step absent
    cases birth_step allowed step run with
    | same same _ _ => exact same.trans (born.unlaunched before)
    | launched _ _ spawns _ => exact absurd spawns (unspawned _)
    | began idle fresh _ => rw [before] at fresh; cases fresh
  created := by
    intro program c created
    have origin := created_before step created
    cases birth_step allowed step run with
    | same same unspawned _ =>
      rcases origin with ⟨before,found⟩ | ⟨_,spawns⟩
      · rw [same]
        exact born.created program before found
      · exact absurd spawns (unspawned program)
    | launched at_op only spawns marked =>
      have unlaunched := launching_unlaunched born at_op
      rcases origin with ⟨before,found⟩ | ⟨absent,spawned⟩
      · obtain ⟨_,_,_,before,_⟩ := born.created program before found
        have launched := congrArg Prod.snd before
        rw [show (birth run l.world).2 = none from unlaunched] at launched
        cases launched
      · have unbegun : (l.world.ledgers run).begun = false := congrArg Prod.fst (born.unlaunched absent)
        rw [marked,unbegun]
        exact ⟨_,_,_,rfl,only program spawned⟩
    | began idle fresh _ => exact absurd created (started_before step program c)
  live := by
    intro program c live
    rcases live_before step live with ⟨p,before,found⟩ | ⟨rfl,p,found⟩
    · have begun := born.live p before found
      cases birth_step allowed step run with
      | same same _ _ => exact (congrArg Prod.fst same).trans begun
      | launched _ _ _ marked => exact (congrArg Prod.fst marked).trans begun
      | began idle fresh _ => rw [found] at fresh; cases fresh
    · generalize same : Event.start (bodyOf run) = event at step
      cases birth_step allowed step run with
      | same _ _ unstarted => exact absurd found (unstarted p same.symm)
      | launched => cases same
      | began idle fresh entered => rw [entered]; exact congrArg Prod.fst (enter_begun run l.world)
  parted := by
    intro begun
    have parted : ∃ result, l.tasks ⟨run,.submit⟩ = some (.finished result) := by
      cases birth_step allowed step run with
      | same same _ _ => exact born.parted ((congrArg Prod.fst same).symm.trans begun)
      | launched _ _ _ marked => exact born.parted ((congrArg Prod.fst marked).symm.trans begun)
      | began idle fresh _ => exact beginning_parted ordered born idle fresh
    obtain ⟨result,finished⟩ := parted
    exact ⟨result,finished_after step finished⟩

theorem boot_absent {stop : Bool} {focused : Option Window} {rules : List AllowRule} {i : TaskId}
    {task : Task effects} : (boot stop focused rules).tasks i ≠ some task := by
  intro present
  cases present

theorem boot_disciplined {stop : Bool} {focused : Option Window} {rules : List AllowRule} :
    Disciplined (daemon h) (boot stop focused rules) where
  owned := fun _ _ _ _ present => absurd present boot_absent
  calm := fun _ _ _ present => absurd present boot_absent
  standing := fun _ _ _ present => absurd present boot_absent

theorem boot_born {stop : Bool} {focused : Option Window} {rules : List AllowRule} :
    Born h run (boot stop focused rules) where
  dormant := fun _ => ⟨rfl,fun _ inside => absurd inside List.not_mem_nil,
    fun _ inside => absurd inside List.not_mem_nil⟩
  wanted := fun _ _ present => absurd present boot_absent
  told := ⟨fun _ _ present => absurd present boot_absent,fun _ present => absurd present boot_absent⟩
  unlaunched := fun _ => rfl
  created := fun _ _ present => absurd present boot_absent
  live := fun _ _ present => absurd present boot_absent
  parted := fun begun => absurd begun Bool.false_ne_true

theorem daemon_born {stop : Bool} {focused : Option Window} {rules : List AllowRule}
    {l : Loop effects TaskId World} (path : Reached (daemon h) (boot stop focused rules) l)
    (run : RunId) : Born h run l := by
  apply path.invariant boot_born
  intro l event next prior born advanced
  exact born_step (daemon_legal prior) (disciplined_reached boot_disciplined prior) born
    (advance_cases advanced)

abbrev unbegunStep (run : RunId) (w next : World) : Prop :=
  (w.ledgers run).begun = false ∧ (next.ledgers run).begun = false

abbrev body (h : Host) (run : RunId) : Semantics effects (World × Bool) :=
  (daemon h).semantics (bodyOf run) (Outer h run) (Rely h run (unbegunStep run))

theorem body_interference {l : Loop effects TaskId World} (allowed : Legal legal l)
    (born : Born h run l) :
    Interference (daemon h) (bodyOf run) (Outer h run) (Rely h run (unbegunStep run)) l where
  others := by
    intro j op more pending reply choice world different at_op performed c
    have lawful : legal j op := (allowed j _ at_op : Prog.All _ _).head
    by_cases own : run = j.run
    · obtain ⟨other,slot⟩ := j
      obtain rfl : run = other := own
      cases slot with
      | body => exact absurd rfl different
      | submit =>
        have unbegun : (l.world.ledgers run).begun = false := by
          rw [Bool.eq_false_iff]
          intro begun
          obtain ⟨result,finished⟩ := born.parted begun
          rw [finished] at at_op
          cases at_op
        exact .excused ⟨unbegun,(perform_begun performed run).trans unbegun⟩
      | feedback n => exact .remarked (perform_remark rfl rfl lawful performed)
    · exact .drift (perform_drift own lawful performed)
  starts := fun j program different fresh c => .drift (enter_drift different)
  callbacks := by
    intro kind arrival occurred program c found
    refine called_rely (callback_cases occurred) run c (.inl ?_)
    simp [Loop.phases,found,phaseOf,Phase.active]
  past := fun kind arrival occurred =>
    ⟨true,_,called_rely (callback_cases occurred) run true (.inr rfl)⟩
  outside := fun kind world occurred => outside_outer occurred run

def Pristine (run : RunId) (kind : RunKind) (task : String) (brain : Brain) : World → Prop :=
  Steady run fun state => ∃ brainName startedAt,
    state = prepared run kind task brainName brain startedAt true

theorem launch_pristine {l : Loop effects TaskId World} (ordered : Disciplined (daemon h) l)
    (born : Born h run l) (idle : l.turn = none)
    (created : l.tasks (bodyOf run) = some (.created program false)) :
    ∃ kind task brain, program = runTask h run kind task brain ∧
      Pristine run kind task brain (l.world.enter (bodyOf run)) := by
  obtain ⟨kind,task,brain,marked,rfl⟩ := born.created _ _ created
  have launched : (core run l.world).2.launched = some (kind,task,brain) := congrArg Prod.snd marked
  have unbegun : (l.world.ledgers run).begun = false := congrArg Prod.fst marked
  obtain ⟨result,finished⟩ := beginning_parted ordered born idle created
  refine ⟨kind,task,brain,rfl,?_⟩
  rcases born.told.2 result finished with begun | left
  · rw [unbegun] at begun
    cases begun
  cases result with
  | error exc =>
    rcases left with ⟨abandoned,_⟩ | fresh
    · rw [show (core run l.world).2.launched = none from abandoned.1] at launched
      cases launched
    · rw [fresh.1] at launched
      cases launched
  | ok value =>
    obtain ⟨⟨kind',task',brainName,brain',startedAt,same⟩,remarks⟩ := left
    rw [same] at launched
    cases launched
    refine ⟨⟨brainName,startedAt,?_⟩,remarks.same rfl (by simp [World.enter])⟩
    have entered : core run (l.world.enter (bodyOf run)) =
        ((core run l.world).1,{ (core run l.world).2 with begun := true }) := by simp [core,World.enter]
    rw [entered,same]
    rfl

-- The rule for everything about a run's body: prove it along the coroutine, from
-- the state its submission prepared, and from what else is known of its first step.
theorem body_reached_ready {pre : Op → World × Bool → Prop} {done : Except Exc Unit → World → Prop}
    {stop : Bool} {focused : Option Window} {rules : List AllowRule} {l : Loop effects TaskId World}
    (ready : World → Prop)
    (outer : ∀ result w next, Outer h run w next → done result w → done result next)
    (rely : ∀ result s t, Rely h run (fun _ _ => False) s t → done result s.1 → done result t.1)
    (entered : ∀ l program, Reached (daemon h) (boot stop focused rules) l → l.turn = none →
      l.tasks (bodyOf run) = some (.created program false) → ready (l.world.enter (bodyOf run)))
    (triple : ∀ kind task brain, Triple (body h run) pre
      (fun s => Pristine run kind task brain s.1 ∧ ready s.1 ∧ s.2 = false) (runTask h run kind task brain)
      fun result s => done result s.1)
    (path : Reached (daemon h) (boot stop focused rules) l) :
    Tracks (bodyOf run) (body h run) pre (fun result w => (w.ledgers run).begun = true → done result w)
      l := by
  have kept : Kept (S:=effects) (fun result w => (w.ledgers run).begun = true → done result w)
      (Outer h run) (Rely h run (unbegunStep run)) := by
    constructor
    · intro result w next moved finished begun
      have same := congrArg Prod.fst (outer_birth moved)
      exact outer result w next moved (finished (same.symm.trans begun))
    · intro result s t moved finished begun
      rcases rely_birth moved with same | ⟨_,unbegun⟩
      · have before := finished ((congrArg Prod.fst same).symm.trans begun)
        cases moved with
        | drift drift => exact rely result _ (_,false) (.drift (c:=false) drift) before
        | remarked remarked => exact rely result _ (_,false) (.remarked (c:=false) remarked) before
        | requested requested => exact rely result _ _ (.requested (c:=false) requested) before
        | polled polled => exact rely result _ _ (.polled (c:=false) polled) before
        | excused excused => rw [excused.2] at begun; cases begun
      · rw [unbegun] at begun
        cases begun
  refine path.invariant ⟨fun _ _ present => absurd present boot_absent,
    fun _ present => absurd present boot_absent⟩ ?_
  intro l event next prior tracks advanced
  have born := daemon_born prior run
  have ordered := disciplined_reached boot_disciplined prior
  refine tracks_step kept ordered (body_interference (daemon_legal prior) born) ?_ ?_ tracks
    (advance_cases advanced)
  · intro program idle created
    obtain ⟨kind,task,brain,rfl,pristine⟩ := launch_pristine ordered born idle created
    have begins := triple kind task brain (l.world.enter (bodyOf run),false) ⟨pristine,entered l _ prior idle created,rfl⟩
    exact begins.mono fun result s finished _ => finished
  · intro program idle created begun
    obtain ⟨_,_,_,marked,_⟩ := born.created _ _ created
    rw [show (l.world.ledgers run).begun = false from congrArg Prod.fst marked] at begun
    cases begun

theorem body_reached {pre : Op → World × Bool → Prop} {done : Except Exc Unit → World → Prop}
    {stop : Bool} {focused : Option Window} {rules : List AllowRule} {l : Loop effects TaskId World}
    (outer : ∀ result w next, Outer h run w next → done result w → done result next)
    (rely : ∀ result s t, Rely h run (fun _ _ => False) s t → done result s.1 → done result t.1)
    (triple : ∀ kind task brain, Triple (body h run) pre
      (fun s => Pristine run kind task brain s.1) (runTask h run kind task brain)
      fun result s => done result s.1)
    (path : Reached (daemon h) (boot stop focused rules) l) :
    Tracks (bodyOf run) (body h run) pre (fun result w => (w.ledgers run).begun = true → done result w)
      l := by
  refine body_reached_ready (fun _ => True) outer rely (fun _ _ _ _ _ => trivial) ?_ path
  intro kind task brain
  exact (triple kind task brain).weaken fun s begins => begins.1

end HyprlandAgent
