import HyprlandAgent.Daemon.Legal

-- How a run comes to life: its submission, the launch of its body, and what the
-- body may rely on from then on.
namespace HyprlandAgent
open Coroutine RunExecutor
variable {h : Host} {run : RunId} {w next : World}

-- A run's cell and history without the parts that feedback, cancellations, the
-- focus and the flag may change at any time.
def core (run : RunId) (w : World) : Cell × Ledger :=
  ({ (w.cells run) with
      rows := { (w.cells run).rows with outcome := none, feedback := [] }
      orphans := []
      deadline := none },
    { (w.ledgers run) with strayed := false, watch := none, outcomes := [] })

structure OnlyRemarks (run : RunId) (w : World) : Prop where
  jobs : ∀ job ∈ (w.cells run).orphans, job.remark = true
  outcomes : ∀ row ∈ (w.ledgers run).outcomes, row.source = .explicit

theorem Drift.core (drift : Drift h run w next) : core run next = core run w := by
  unfold HyprlandAgent.core
  rw [drift.cell,drift.ledger]

theorem Remarked.core (remarked : Remarked run w next) : core run next = core run w := by
  unfold HyprlandAgent.core
  rw [remarked.cell,remarked.ledger]

theorem Requested.core (requested : Requested run w next) : core run next = core run w := by
  unfold HyprlandAgent.core
  rw [requested.cell,requested.ledger]

theorem Polled.core (polled : Polled run w next) : core run next = core run w := by
  unfold HyprlandAgent.core
  rw [polled.cell,polled.ledger]

theorem Armed.core (armed : Armed run w next) : core run next = core run w := by
  unfold HyprlandAgent.core
  rcases armed.ledger with same | watched
  · rw [armed.cell,same]
  · rw [armed.cell,watched]

def Steady (run : RunId) (P : Cell × Ledger → Prop) (w : World) : Prop :=
  P (core run w) ∧ OnlyRemarks run w

variable {P : Cell × Ledger → Prop}

theorem OnlyRemarks.same (only : OnlyRemarks run w)
    (jobs : (next.cells run).orphans = (w.cells run).orphans)
    (outcomes : (next.ledgers run).outcomes = (w.ledgers run).outcomes) : OnlyRemarks run next := by
  constructor
  · rw [jobs]
    exact only.jobs
  · rw [outcomes]
    exact only.outcomes

theorem Remarked.only (remarked : Remarked run w next) (only : OnlyRemarks run w) :
    OnlyRemarks run next := by
  constructor
  · intro job inside
    rcases remarked.orphans job inside with old | remark
    · exact only.jobs job old
    · exact remark
  · obtain ⟨more,added,explicit⟩ := remarked.outcomes
    rw [added]
    intro row inside
    rcases List.mem_append.mp inside with old | new
    · exact only.outcomes row old
    · exact explicit row new

theorem Landed.steady (landed : Landed run w next) (steady : Steady run P w) : Steady run P next := by
  obtain ⟨index,job,now,found,rfl⟩ := landed
  obtain ⟨holds,only⟩ := steady
  have rest : Steady run P (w.atCell run fun cell =>
      { cell with orphans := cell.orphans.eraseIdx index }) := by
    refine ⟨?_,?_,only.outcomes⟩
    · simpa [core] using holds
    · intro other inside
      simp only [World.atCell_same] at inside
      exact only.jobs other (List.mem_of_mem_eraseIdx inside)
  have remark : job.remark = true := only.jobs job (List.mem_of_getElem? found)
  cases committed : (w.atCell run fun cell =>
      { cell with orphans := cell.orphans.eraseIdx index }).commit run now job with
  | none => exact rest
  | some after =>
    have remarked := commit_remark remark committed
    refine ⟨?_,remarked.only rest.2⟩
    rw [Option.getD_some,remarked.core]
    exact rest.1

theorem Outer.steady (outer : Outer h run w next) (steady : Steady run P w) : Steady run P next := by
  cases outer with
  | drift drift =>
    refine ⟨by rw [drift.core]; exact steady.1,steady.2.same (by rw [drift.cell]) (by rw [drift.ledger])⟩
  | armed armed =>
    refine ⟨by rw [armed.core]; exact steady.1,steady.2.same (by rw [armed.cell]) ?_⟩
    rcases armed.ledger with same | watched
    · rw [same]
    · rw [watched]
  | landed landed => exact landed.steady steady

theorem Rely.steady {excuse : World → World → Prop} {s t : World × Bool}
    (rely : Rely h run excuse s t) (steady : Steady run P s.1) :
    Steady run P t.1 ∨ excuse s.1 t.1 := by
  cases rely with
  | drift drift => exact .inl ((Outer.drift drift).steady steady)
  | remarked remarked =>
    exact .inl ⟨by rw [remarked.core]; exact steady.1,remarked.only steady.2⟩
  | requested requested =>
    exact .inl ⟨by rw [requested.core]; exact steady.1,
      steady.2.same (by rw [requested.cell]) (by rw [requested.ledger])⟩
  | polled polled =>
    exact .inl ⟨by rw [polled.core]; exact steady.1,
      steady.2.same (by rw [polled.cell]) (by rw [polled.ledger])⟩
  | excused excused => exact .inr excused

abbrev birthMarks (past : Ledger) : Bool × Option (RunKind × String × Brain) := (past.begun,past.launched)

def birth (run : RunId) (w : World) : Bool × Option (RunKind × String × Brain) :=
  birthMarks (w.ledgers run)

theorem birth_unwritten : Unwritten birthMarks where
  issue := by
    intro write failed fate past
    cases write with
    | upsertRunOutcome outcome score source rationale => cases source <;> rfl
    | _ => rfl
  commit := by
    intro write now past
    cases write <;> rfl

theorem perform_birth {i : TaskId} {op : Op} {reply : effects.Reply op}
    (performed : w.perform h i op reply choice = some next) (run : RunId) :
    birth run next = birth run w ∨ ∃ kind task brain, op = .createTask run kind task brain ∧
      World.failed reply = false ∧ birth run next = ((w.ledgers run).begun,some (kind,task,brain)) := by
  cases effect_happened (World.perform_effect performed) with
  | nothing => exact .inl rfl
  | @marked op reply choice change misses marks uncounted =>
    have keeps : ∀ past, birthMarks (change past) = birthMarks past := by
      intro past
      obtain ⟨_,_,_,_,_,_,same⟩ := marks past
      rw [same]
    exact .inl (note_part birthMarks keeps run)
  | held owned looped => exact .inl rfl
  | refocused focused => exact .inl rfl
  | disarmed =>
    unfold World.disarm
    split
    · exact .inl rfl
    · exact .inl rfl
  | @created kind task brain value chosen owner =>
    by_cases same : run = owner
    · subst same
      refine .inr ⟨kind,task,brain,rfl,rfl,?_⟩
      simp [birth]
    · exact .inl (by unfold birth; rw [World.note_other same])
  | wrote answered => exact .inl (birth_unwritten.wrote answered run)
  | audited answered => exact .inl (birth_unwritten.answered answered run)

theorem outer_birth (outer : Outer h run w next) : birth run next = birth run w := by
  unfold birth
  cases outer with
  | drift drift => rw [drift.ledger]
  | armed armed =>
    rcases armed.ledger with same | watched
    · rw [same]
    · rw [watched]
  | landed landed => exact birth_unwritten.landed landed

theorem rely_birth {excuse : World → World → Prop} {s t : World × Bool}
    (rely : Rely h run excuse s t) : birth run t.1 = birth run s.1 ∨ excuse s.1 t.1 := by
  unfold birth
  cases rely with
  | drift drift => exact .inl (by rw [drift.ledger])
  | remarked remarked => exact .inl (by rw [remarked.ledger])
  | requested requested => exact .inl (by rw [requested.ledger])
  | polled polled => exact .inl (by rw [polled.ledger])
  | excused excused => exact .inr excused

theorem called_birth {phases : TaskId → Phase} {kind : Callback} {arrival : Arrival effects TaskId World}
    (called : Called w phases kind arrival) (run : RunId) : birth run arrival.world = birth run w := by
  cases called <;> rfl

theorem enter_birth {i : TaskId} (other : i ≠ bodyOf run) : birth run (w.enter i) = birth run w := by
  unfold World.enter
  split
  · rename_i body
    have different : run ≠ i.run := by
      intro same
      subst same
      exact other (by cases i; simp_all)
    unfold birth
    rw [World.note_other different]
  · rfl

theorem enter_begun (run : RunId) (w : World) :
    birth run (w.enter (bodyOf run)) = (true,(w.ledgers run).launched) := by
  simp [World.enter,birth]

-- The submission as the run's own task before its body has begun: from then on
-- whatever happens is the body's business, and so are cancellations.
def Opening (run : RunId) (X : World → Prop) (s : World × Bool) : Prop :=
  (s.1.ledgers run).begun = true ∨ X s.1

abbrev submission (h : Host) (run : RunId) : Semantics effects (World × Bool) :=
  (daemon h).semantics ⟨run,.submit⟩ (Outer h run) fun s t =>
    ∃ b c, Rely h run (fun _ next => (next.ledgers run).begun = true) (s.1,b) (t.1,c)

structure Bare (state : Cell × Ledger) : Prop where
  row : state.1.rows.status.all (· == .running) = true
  events : state.1.rows.events = []
  published : state.1.published = []
  audit : state.1.audit = []
  attempts : state.2.attempts = []
  issued : state.2.issued = []
  commits : state.2.commits = []
  started : state.2.started = 0

def Job.opens : Job → Bool
  | .store (.insertRun row) => row.status == .running
  | job => job.remark

structure Barren (run : RunId) (w : World) : Prop where
  bare : Bare (core run w)
  jobs : ∀ job ∈ (w.cells run).orphans, job.opens = true
  outcomes : ∀ row ∈ (w.ledgers run).outcomes, row.source = .explicit

theorem Job.remark_opens {job : Job} (remark : job.remark = true) : job.opens = true := by
  cases job with
  | store write =>
    cases write with
    | insertRun row => cases remark
    | _ => exact remark
  | audit entry => exact remark

theorem Steady.barren (steady : Steady run P w) (bare : ∀ state, P state → Bare state) :
    Barren run w :=
  ⟨bare _ steady.1,fun job inside => Job.remark_opens (steady.2.jobs job inside),steady.2.outcomes⟩

theorem Barren.same (barren : Barren run w) (state : core run next = core run w)
    (jobs : (next.cells run).orphans = (w.cells run).orphans)
    (outcomes : (next.ledgers run).outcomes = (w.ledgers run).outcomes) : Barren run next := by
  refine ⟨?_,?_,?_⟩
  · rw [state]
    exact barren.bare
  · rw [jobs]
    exact barren.jobs
  · rw [outcomes]
    exact barren.outcomes

theorem Remarked.barren (remarked : Remarked run w next) (barren : Barren run w) : Barren run next := by
  refine ⟨?_,?_,?_⟩
  · rw [remarked.core]
    exact barren.bare
  · intro job inside
    rcases remarked.orphans job inside with old | remark
    · exact barren.jobs job old
    · exact Job.remark_opens remark
  · obtain ⟨more,added,explicit⟩ := remarked.outcomes
    rw [added]
    intro row inside
    rcases List.mem_append.mp inside with old | new
    · exact barren.outcomes row old
    · exact explicit row new

theorem Barren.noted (barren : Barren run w) {change : Ledger → Ledger}
    (silent : ∀ past, (change past).attempts = past.attempts ∧ (change past).issued = past.issued ∧
      (change past).commits = past.commits ∧ (change past).started = past.started ∧
      (change past).outcomes = past.outcomes) :
    Barren run (w.note run change) := by
  obtain ⟨⟨row,events,published,audit,attempts,issued,commits,started⟩,jobs,outcomes⟩ := barren
  obtain ⟨attempted,wrote,committed,begun,decided⟩ := silent (w.ledgers run)
  refine ⟨⟨row,events,published,audit,?_,?_,?_,?_⟩,jobs,?_⟩
  · simpa [core,attempted] using attempts
  · simpa [core,wrote] using issued
  · simpa [core,committed] using commits
  · simpa [core,begun] using started
  · simpa [decided] using outcomes

theorem commit_barren {job : Job} (opens : job.opens = true)
    (committed : w.commit run now job = some next) (barren : Barren run w) : Barren run next := by
  cases insertion : job.remark with
  | true => exact (commit_remark insertion committed).barren barren
  | false =>
    cases job with
    | audit entry => cases opens
    | store write =>
      cases write with
      | insertRun row =>
        obtain ⟨rows,applied,rfl⟩ := Option.map_eq_some_iff.mp committed
        simp only [StoreWrite.apply] at applied
        split at applied
        · cases applied
        · cases applied
          refine Barren.noted ?_ fun past => ⟨rfl,rfl,rfl,rfl,rfl⟩
          obtain ⟨⟨_,events,published,audit,attempts,issued,commits,started⟩,jobs,outcomes⟩ := barren
          refine ⟨⟨?_,?_,?_,?_,attempts,issued,commits,started⟩,?_,outcomes⟩
          · simpa [core,Rows.status,Job.opens] using opens
          · simpa [core] using events
          · simpa [core] using published
          · simpa [core] using audit
          · simpa using jobs
      | _ => exact absurd (insertion.symm.trans opens) Bool.false_ne_true

theorem Landed.barren (landed : Landed run w next) (barren : Barren run w) : Barren run next := by
  obtain ⟨index,job,now,found,rfl⟩ := landed
  have rest : Barren run (w.atCell run fun cell =>
      { cell with orphans := cell.orphans.eraseIdx index }) := by
    refine ⟨?_,?_,barren.outcomes⟩
    · simpa [core] using barren.bare
    · intro other inside
      simp only [World.atCell_same] at inside
      exact barren.jobs other (List.mem_of_mem_eraseIdx inside)
  have opens := barren.jobs job (List.mem_of_getElem? found)
  cases committed : (w.atCell run fun cell =>
      { cell with orphans := cell.orphans.eraseIdx index }).commit run now job with
  | none => exact rest
  | some after => exact commit_barren opens committed rest

theorem Outer.barren (outer : Outer h run w next) (barren : Barren run w) : Barren run next := by
  cases outer with
  | drift drift => exact barren.same drift.core (by rw [drift.cell]) (by rw [drift.ledger])
  | armed armed =>
    apply barren.same armed.core (by rw [armed.cell])
    rcases armed.ledger with same | watched
    · rw [same]
    · rw [watched]
  | landed landed => exact landed.barren barren

theorem Rely.barren {excuse : World → World → Prop} {s t : World × Bool}
    (rely : Rely h run excuse s t) (barren : Barren run s.1) : Barren run t.1 ∨ excuse s.1 t.1 := by
  cases rely with
  | drift drift => exact .inl ((Outer.drift drift).barren barren)
  | remarked remarked => exact .inl (remarked.barren barren)
  | requested requested =>
    exact .inl (barren.same requested.core (by rw [requested.cell]) (by rw [requested.ledger]))
  | polled polled => exact .inl (barren.same polled.core (by rw [polled.cell]) (by rw [polled.ledger]))
  | excused excused => exact .inr excused

-- Where a submission stands it has not launched anything yet, except when it
-- publishes the start.
structure unlaunchedAt (run : RunId) (op : Op) (s : World × Bool) : Prop where
  launch : (∃ message, op = .publish run message) ∨
    Opening run (fun w => (w.ledgers run).launched = none) s
  barren : Opening run (Barren run) s

def Abandoned (run : RunId) (w : World) : Prop :=
  (w.ledgers run).launched = none ∧
    ((w.ledgers run).brainRaised = true ∨ (w.ledgers run).insertCut = true)

theorem Outer.abandoned (outer : Outer h run w next) (abandoned : Abandoned run w) :
    Abandoned run next := by
  unfold Abandoned at *
  cases outer with
  | drift drift => rw [drift.ledger]; exact abandoned
  | armed armed =>
    rcases armed.ledger with same | watched
    · rw [same]; exact abandoned
    · rw [watched]; exact abandoned
  | landed landed =>
    obtain ⟨index,job,now,found,rfl⟩ := landed
    cases committed : (w.atCell run fun cell =>
        { cell with orphans := cell.orphans.eraseIdx index }).commit run now job with
    | none => exact abandoned
    | some after =>
      cases job with
      | store write =>
        obtain ⟨rows,_,rfl⟩ := Option.map_eq_some_iff.mp committed
        cases write <;> simpa [noteCommit] using abandoned
      | audit entry => cases committed; exact abandoned

theorem Rely.abandoned {excuse : World → World → Prop} {s t : World × Bool}
    (rely : Rely h run excuse s t) (abandoned : Abandoned run s.1) :
    Abandoned run t.1 ∨ excuse s.1 t.1 := by
  unfold Abandoned at *
  cases rely with
  | drift drift => exact .inl (by rw [drift.ledger]; exact abandoned)
  | remarked remarked => exact .inl (by rw [remarked.ledger]; exact abandoned)
  | requested requested => exact .inl (by rw [requested.ledger]; exact abandoned)
  | polled polled => exact .inl (by rw [polled.ledger]; exact abandoned)
  | excused excused => exact .inr excused

structure Undisturbed (h : Host) (run : RunId) (X : World → Prop) : Prop where
  outer : ∀ w next, Outer h run w next → X w → X next
  rely : ∀ (excuse : World → World → Prop) (s t : World × Bool),
    Rely h run excuse s t → X s.1 → X t.1 ∨ excuse s.1 t.1

theorem undisturbed_steady (h : Host) (run : RunId) (P : Cell × Ledger → Prop) :
    Undisturbed h run (Steady run P) where
  outer := fun _ _ outer steady => outer.steady steady
  rely := fun _ _ _ rely steady => rely.steady steady

theorem undisturbed_abandoned (h : Host) (run : RunId) : Undisturbed h run (Abandoned run) where
  outer := fun _ _ outer abandoned => outer.abandoned abandoned
  rely := fun _ _ _ rely abandoned => rely.abandoned abandoned

theorem undisturbed_barren (h : Host) (run : RunId) : Undisturbed h run (Barren run) where
  outer := fun _ _ outer barren => outer.barren barren
  rely := fun _ _ _ rely barren => rely.barren barren

theorem Undisturbed.both {X Y : World → Prop} (left : Undisturbed h run X)
    (right : Undisturbed h run Y) : Undisturbed h run fun w => X w ∧ Y w where
  outer := fun w next outer holds => ⟨left.outer w next outer holds.1,right.outer w next outer holds.2⟩
  rely := by
    intro excuse s t rely holds
    rcases left.rely excuse s t rely holds.1 with one | excused
    · rcases right.rely excuse s t rely holds.2 with two | excused
      · exact .inl ⟨one,two⟩
      · exact .inr excused
    · exact .inr excused

theorem Undisturbed.either {X Y : World → Prop} (left : Undisturbed h run X)
    (right : Undisturbed h run Y) : Undisturbed h run fun w => X w ∨ Y w where
  outer := fun w next outer holds => holds.imp (left.outer w next outer) (right.outer w next outer)
  rely := by
    intro excuse s t rely holds
    rcases holds with holds | holds
    · exact (left.rely excuse s t rely holds).imp .inl id
    · exact (right.rely excuse s t rely holds).imp .inr id

theorem opening_outer {X : World → Prop} (kept : Undisturbed h run X) (outer : Outer h run w next)
    (opening : Opening run X (w,b)) : Opening run X (next,c) := by
  rcases opening with begun | holds
  · have same := congrArg Prod.fst (outer_birth outer)
    exact .inl (same.trans begun)
  · exact .inr (kept.outer w next outer holds)

theorem opening_rely {X : World → Prop} {s t : World × Bool} (kept : Undisturbed h run X)
    (rely : Rely h run (fun _ next => (next.ledgers run).begun = true) s t)
    (opening : Opening run X s) : Opening run X t := by
  rcases opening with begun | holds
  · rcases rely_birth rely with same | excused
    · exact .inl ((congrArg Prod.fst same).trans begun)
    · exact .inl excused
  · rcases kept.rely _ s t rely holds with holds | excused
    · exact .inr holds
    · exact .inl excused

theorem opening_stable {X : World → Prop} (kept : Undisturbed h run X) (op : Op) :
    Stable ((submission h run).env op) (Opening run X) := by
  intro s t moved opening
  rcases moved with ⟨outer,same⟩ | ⟨_,b,c,rely⟩
  · exact opening_outer (b:=s.2) (c:=t.2) kept outer opening
  · exact opening_rely (s:=(s.1,b)) (t:=(t.1,c)) kept rely opening

theorem opening_perform {X : World → Prop} {op : Op} {Q : Except Exc op.Res → World → Prop}
    (kept : Undisturbed h run X) (owed : ∀ s, Opening run X s → unlaunchedAt run op s)
    (acts : ∀ w next reply choice, X w →
      w.effect h ⟨run,.submit⟩ op reply choice = some next → Q reply next) :
    Triple (submission h run) (unlaunchedAt run) (Opening run X) (perform op)
      fun reply => Opening run (Q reply) := by
  apply Triple.perform (opening_stable kept op) owed
  intro s reply t opening acted
  obtain ⟨_,_,_,choice,performed⟩ := acted
  have done := World.perform_effect performed
  rcases opening with begun | holds
  · have kept : (t.1.ledgers run).begun = (s.1.ledgers run).begun := by
      rcases perform_birth performed run with same | ⟨kind,task,brain,_,_,same⟩
      · exact congrArg Prod.fst same
      · exact congrArg Prod.fst same
    exact .inl (kept.trans begun)
  · exact .inr (acts s.1 t.1 reply choice holds done)

end HyprlandAgent
