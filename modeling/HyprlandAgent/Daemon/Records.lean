import HyprlandAgent.Daemon.Birth

-- The records of a run: how its stored events, audit lines, messages, status and
-- outcome relate to what its body asked for, at every moment.
namespace HyprlandAgent
open Coroutine RunExecutor Orchestrator
variable {h : Host} {run : RunId} {w next : World}

-- What a run was submitted with.
structure Origin where
  kind : RunKind
  task : String
  brain : Brain
  brainName : String

def Origin.started (o : Origin) (run : RunId) : Dict := startedMessage run o.kind o.task o.brainName

def messageOf (run : RunId) (event : RunEventRecord) : Dict := runMessage run event.kind event.payload

def saidDone (past : Ledger) : Bool := past.attempts.any fun event => event.kind == "done"

def marks (past : Ledger) : Bool × Bool × Bool := (past.refused,past.stopSeen,saidDone past)

-- While the orchestrator is at work every event is stored, numbered and told in
-- the order in which it was emitted; `ahead` is the number drawn for the next one,
-- `untold` the event that is stored and not told yet.
structure Flowing (run : RunId) (o : Origin) (ahead : Nat) (untold : List RunEventRecord)
    (state : Cell × Ledger) : Prop where
  begun : state.2.begun = true
  launched : state.2.launched = some (o.kind,o.task,o.brain)
  row : state.1.rows.status = some .running
  numbered : state.2.attempts.map RunEventRecord.seq = List.range state.2.attempts.length
  counter : state.1.seq = some (state.2.attempts.length + ahead)
  emittable : ∀ event ∈ state.2.attempts, Emittable event.kind event.payload
  stored : state.1.rows.events = state.2.attempts
  audited : ∀ line ∈ state.1.audit, ∃ event ∈ state.2.attempts, line = auditEntry run event
  told : ∃ said, state.2.attempts = said ++ untold ∧ untold.length ≤ 1 ∧
    state.1.published = o.started run :: said.map (messageOf run)
  unissued : state.2.issued = []
  uncommitted : state.2.commits = []
  whole : state.2.finallyCut = false

def Due (run : RunId) (issued : List RunStatus) (decided : Option RunStatus) (cell : Cell)
    (past : Ledger) : Job → Prop
  | .store (.appendEvent event) =>
    past.attempts = cell.rows.events ++ [event] ∨ ∃ old ∈ cell.rows.events, old.seq = event.seq
  | .store (.updateRunStatus status _ _) => status ∈ issued
  | .store (.upsertRunOutcome outcome score .derived _) =>
    ∃ status ∈ decided, (outcome,score) = deriveFromStatus status
  | .store _ => True
  | .audit line => ∃ event ∈ cell.rows.events, line = auditEntry run event

-- What was told of the stored events: all that were emitted if the orchestration came to
-- its end, and at most one less otherwise.
def Told (run : RunId) (o : Origin) (issued : List RunStatus) (tail : List Dict) (cell : Cell)
    (past : Ledger) : Prop :=
  ∃ said, said <+: cell.rows.events ∧ past.attempts.dropLast <+: said ∧
    (.completed ∈ issued → said = past.attempts) ∧
    cell.published = o.started run :: said.map (messageOf run) ++ tail

-- From the first thing that went wrong, or the end of the orchestration: what
-- was left behind may still land, and nothing else is ever emitted. `decided` is
-- the status the derived outcome follows, once there is one, and `cut` whether the
-- `finally` block broke off.
structure Closing (run : RunId) (o : Origin) (issued : List RunStatus) (tail : List Dict)
    (decided : Option RunStatus) (cut : Bool) (cell : Cell) (past : Ledger) : Prop where
  begun : past.begun = true
  launched : past.launched = some (o.kind,o.task,o.brain)
  row : cell.rows.status = some (past.commits.getLast?.getD .running)
  numbered : past.attempts.map RunEventRecord.seq = List.range past.attempts.length
  emittable : ∀ event ∈ past.attempts, Emittable event.kind event.payload
  stored : cell.rows.events <+: past.attempts
  jobs : ∀ job ∈ cell.orphans, Due run issued decided cell past job
  audited : ∀ line ∈ cell.audit, ∃ event ∈ cell.rows.events, line = auditEntry run event
  told : Told run o issued tail cell past
  wrote : past.issued = issued
  commits : ∀ status ∈ past.commits, status ∈ issued
  kept : past.statusLost = false → issued ≠ [] → past.commits ≠ []
  completed : .completed ∈ issued → (saidDone past = true ↔ past.refused = false ∧ past.stopSeen = false)
  derived : ∀ row ∈ past.outcomes, row.source = .derived →
    ∃ status ∈ decided, (row.outcome,row.score) = deriveFromStatus status
  final : ∀ status ∈ issued, status.terminal = true
  follows : ∀ status ∈ decided, issued.getLast? = some status
  whole : past.finallyCut = cut

abbrev closing (run : RunId) (o : Origin) (issued : List RunStatus) (tail : List Dict)
    (decided : Option RunStatus) (cut : Bool) (w : World) : Prop :=
  Closing run o issued tail decided cut (w.cells run) (w.ledgers run)

variable {o : Origin} {issued : List RunStatus} {tail : List Dict} {decided : Option RunStatus}
  {cut : Bool} {cell : Cell} {past : Ledger}

theorem Due.mono {next : Cell} {after : Ledger} {job : Job} (due : Due run issued decided cell past job)
    (events : next.rows.events = cell.rows.events) (attempts : after.attempts = past.attempts) :
    Due run issued decided next after job := by
  cases job with
  | audit line => simpa only [Due,events] using due
  | store write =>
    cases write with
    | appendEvent event => simpa only [Due,events,attempts] using due
    | upsertRunOutcome outcome score source rationale => cases source <;> exact due
    | _ => exact due

theorem Closing.blind (closing : Closing run o issued tail decided cut cell past)
    (deadline : Option Deadline) (strayed : Bool) (watch : Option Nat) :
    Closing run o issued tail decided cut { cell with deadline := deadline }
      { past with strayed := strayed, watch := watch } :=
  ⟨closing.begun,closing.launched,closing.row,closing.numbered,closing.emittable,closing.stored,
    fun job inside => (closing.jobs job inside).mono rfl rfl,closing.audited,closing.told,closing.wrote,
    closing.commits,closing.kept,closing.completed,closing.derived,closing.final,closing.follows,
    closing.whole⟩

theorem Drift.closing (drift : Drift h run w next) (before : closing run o issued tail decided cut w) :
    closing run o issued tail decided cut next := by
  unfold HyprlandAgent.closing
  rw [drift.cell,drift.ledger]
  exact before.blind (w.cells run).deadline _ _

theorem Requested.closing (requested : Requested run w next)
    (before : closing run o issued tail decided cut w) : closing run o issued tail decided cut next := by
  unfold HyprlandAgent.closing
  rw [requested.cell,requested.ledger]
  exact before.blind _ (w.ledgers run).strayed (w.ledgers run).watch

theorem Polled.closing (polled : Polled run w next) (before : closing run o issued tail decided cut w) :
    closing run o issued tail decided cut next := by
  unfold HyprlandAgent.closing
  rw [polled.cell,polled.ledger]
  exact before.blind _ (w.ledgers run).strayed (w.ledgers run).watch

theorem Armed.closing (armed : Armed run w next) (before : closing run o issued tail decided cut w) :
    closing run o issued tail decided cut next := by
  unfold HyprlandAgent.closing
  rcases armed.ledger with same | watched
  · rw [armed.cell,same]
    exact before
  · rw [armed.cell,watched]
    exact before.blind (w.cells run).deadline (w.ledgers run).strayed _

theorem Job.remark_due {job : Job} (remark : job.remark = true) : Due run issued decided cell past job := by
  cases job with
  | audit line => cases remark
  | store write =>
    cases write with
    | insertFeedback kind comment => trivial
    | upsertRunOutcome outcome score source rationale =>
      cases source with
      | derived => cases remark
      | explicit => trivial
    | _ => cases remark

theorem Remarked.closing (remarked : Remarked run w next) (before : closing run o issued tail decided cut w) :
    closing run o issued tail decided cut next := by
  unfold HyprlandAgent.closing
  rw [remarked.cell,remarked.ledger]
  refine
    { begun := before.begun, launched := before.launched, row := before.row
      numbered := before.numbered, emittable := before.emittable, stored := before.stored
      jobs := ?_, audited := before.audited, told := before.told, wrote := before.wrote
      commits := before.commits, kept := before.kept, completed := before.completed, derived := ?_, final := before.final
      follows := before.follows, whole := before.whole }
  · intro job inside
    rcases remarked.orphans job inside with old | remark
    · exact (before.jobs job old).mono rfl rfl
    · exact Job.remark_due remark
  · obtain ⟨more,added,explicit⟩ := remarked.outcomes
    intro row inside source
    simp only [added,List.mem_append] at inside
    rcases inside with old | new
    · exact before.derived row old source
    · rw [explicit row new] at source; cases source

theorem Due.append {job : Job} {event : RunEventRecord} {next : Cell}
    (due : Due run issued decided cell past job) (added : next.rows.events = cell.rows.events ++ [event])
    (last : past.attempts = cell.rows.events ++ [event]) : Due run issued decided next past job := by
  cases job with
  | audit line =>
    obtain ⟨old,inside,same⟩ := due
    exact ⟨old,by rw [added]; exact List.mem_append_left _ inside,same⟩
  | store write =>
    cases write with
    | appendEvent other =>
      refine .inr ?_
      rw [added]
      rcases due with next | ⟨old,inside,same⟩
      · rw [last] at next
        have equal := List.append_cancel_left next
        cases equal
        exact ⟨event,List.mem_append_right _ List.mem_cons_self,rfl⟩
      · exact ⟨old,List.mem_append_left _ inside,same⟩
    | upsertRunOutcome outcome score source rationale => cases source <;> exact due
    | _ => exact due

theorem commit_closing (now : Seconds) (job : Job) (committed : w.commit run now job = some next)
    (due : Due run issued decided (w.cells run) (w.ledgers run) job)
    (before : closing run o issued tail decided cut w) : closing run o issued tail decided cut next := by
  cases job with
  | audit line =>
    cases committed
    unfold closing
    rw [World.atCell_same,World.atCell_ledgers]
    refine
      { begun := before.begun, launched := before.launched, row := before.row
        numbered := before.numbered, emittable := before.emittable, stored := before.stored
        jobs := fun job inside => (before.jobs job inside).mono rfl rfl
        audited := ?_, told := before.told, wrote := before.wrote, commits := before.commits
        kept := before.kept, completed := before.completed, derived := before.derived, final := before.final
        follows := before.follows, whole := before.whole }
    intro other inside
    rcases List.mem_append.mp inside with old | new
    · exact before.audited other old
    · rw [List.mem_singleton.mp new]
      exact due
  | store write =>
    obtain ⟨rows,applied,rfl⟩ := Option.map_eq_some_iff.mp committed
    unfold closing
    rw [World.note_same,World.note_cells,World.atCell_same,World.atCell_ledgers]
    cases write with
    | insertRun summary =>
      simp only [StoreWrite.apply] at applied
      split at applied
      · cases applied
      · rename_i vacant
        have present := before.row
        simp only [Rows.status,Option.map_eq_some_iff] at present
        obtain ⟨row,found,_⟩ := present
        rw [found] at vacant
        exact absurd rfl vacant
    | updateRunStatus status endedAt error =>
      cases applied
      refine
        { begun := before.begun, launched := before.launched, row := ?_
          numbered := before.numbered, emittable := before.emittable, stored := before.stored
          jobs := fun job inside => (before.jobs job inside).mono rfl rfl
          audited := before.audited, told := before.told, wrote := before.wrote, commits := ?_
          kept := fun _ _ => by simp [noteCommit], completed := before.completed
          derived := before.derived, final := before.final
          follows := before.follows, whole := before.whole }
      · have present := before.row
        simp only [Rows.status,Option.map_eq_some_iff] at present
        obtain ⟨row,found,_⟩ := present
        simp [Rows.status,found,noteCommit]
      · intro other inside
        rcases List.mem_append.mp inside with old | new
        · exact before.commits other old
        · rw [List.mem_singleton.mp new]
          exact due
    | appendEvent event =>
      simp only [StoreWrite.apply] at applied
      split at applied
      · cases applied
      · rename_i unseen
        cases applied
        have last : (w.ledgers run).attempts = (w.cells run).rows.events ++ [event] := by
          rcases due with next | ⟨old,inside,same⟩
          · exact next
          · refine absurd (List.any_eq_true.mpr ⟨old,inside,?_⟩) unseen
            simp [same]
        refine
          { begun := before.begun, launched := before.launched, row := before.row
            numbered := before.numbered, emittable := before.emittable
            stored := by simp [noteCommit,last]
            jobs := fun job inside => (before.jobs job inside).append rfl last
            audited := ?_, told := ?_, wrote := before.wrote, commits := before.commits
            kept := before.kept, completed := before.completed, derived := before.derived, final := before.final
            follows := before.follows, whole := before.whole }
        · intro line inside
          obtain ⟨old,present,same⟩ := before.audited line inside
          exact ⟨old,List.mem_append_left _ present,same⟩
        · obtain ⟨said,kept,recent,whole,told⟩ := before.told
          exact ⟨said,kept.trans (List.prefix_append _ _),recent,whole,told⟩
    | updateRunMetrics iterations actionCount durationS =>
      cases applied
      refine
        { begun := before.begun, launched := before.launched, row := ?_
          numbered := before.numbered, emittable := before.emittable, stored := before.stored
          jobs := fun job inside => (before.jobs job inside).mono rfl rfl
          audited := before.audited, told := before.told, wrote := before.wrote, commits := before.commits
          kept := before.kept, completed := before.completed, derived := before.derived, final := before.final
          follows := before.follows, whole := before.whole }
      have present := before.row
      simp only [Rows.status,Option.map_eq_some_iff] at present
      obtain ⟨row,found,status⟩ := present
      simp [Rows.status,found,noteCommit,status]
    | upsertRunOutcome outcome score source rationale =>
      cases applied
      refine
        { begun := before.begun, launched := before.launched, row := before.row
          numbered := before.numbered, emittable := before.emittable, stored := before.stored
          jobs := fun job inside => (before.jobs job inside).mono rfl rfl
          audited := before.audited, told := before.told, wrote := before.wrote, commits := before.commits
          kept := before.kept, completed := before.completed, derived := ?_, final := before.final
          follows := before.follows, whole := before.whole }
      intro row inside isDerived
      rcases List.mem_append.mp inside with old | new
      · exact before.derived row old isDerived
      · rw [List.mem_singleton] at new
        subst new
        cases source with
        | derived => exact due
        | explicit => cases isDerived
    | insertFeedback kind comment =>
      cases applied
      exact
        { begun := before.begun, launched := before.launched, row := before.row
          numbered := before.numbered, emittable := before.emittable, stored := before.stored
          jobs := fun job inside => (before.jobs job inside).mono rfl rfl
          audited := before.audited, told := before.told, wrote := before.wrote, commits := before.commits
          kept := before.kept, completed := before.completed, derived := before.derived, final := before.final
          follows := before.follows, whole := before.whole }

theorem Landed.closing (landed : Landed run w next) (before : closing run o issued tail decided cut w) :
    closing run o issued tail decided cut next := by
  obtain ⟨index,job,now,found,rfl⟩ := landed
  have rest : HyprlandAgent.closing run o issued tail decided cut (w.atCell run fun cell =>
      { cell with orphans := cell.orphans.eraseIdx index }) := by
    unfold HyprlandAgent.closing
    rw [World.atCell_same,World.atCell_ledgers]
    exact
      { begun := before.begun, launched := before.launched, row := before.row
        numbered := before.numbered, emittable := before.emittable, stored := before.stored
        jobs := fun job inside => (before.jobs job (List.mem_of_mem_eraseIdx inside)).mono rfl rfl
        audited := before.audited, told := before.told, wrote := before.wrote, commits := before.commits
        kept := before.kept, completed := before.completed, derived := before.derived, final := before.final
        follows := before.follows, whole := before.whole }
  have due := before.jobs job (List.mem_of_getElem? found)
  cases committed : (w.atCell run fun cell =>
      { cell with orphans := cell.orphans.eraseIdx index }).commit run now job with
  | none => exact rest
  | some after =>
    refine commit_closing now job committed ?_ rest
    rw [World.atCell_same,World.atCell_ledgers]
    exact due.mono rfl rfl

theorem orphan_closing {job : Job} (due : Due run issued decided (w.cells run) (w.ledgers run) job)
    (before : closing run o issued tail decided cut w) : closing run o issued tail decided cut
      (w.atCell run fun cell => { cell with orphans := cell.orphans ++ [job] }) := by
  unfold closing
  rw [World.atCell_same,World.atCell_ledgers]
  refine
    { begun := before.begun, launched := before.launched, row := before.row
      numbered := before.numbered, emittable := before.emittable, stored := before.stored
      jobs := ?_, audited := before.audited, told := before.told, wrote := before.wrote
      commits := before.commits, kept := before.kept, completed := before.completed
      derived := before.derived, final := before.final
      follows := before.follows, whole := before.whole }
  intro other inside
  rcases List.mem_append.mp inside with old | new
  · exact (before.jobs other old).mono rfl rfl
  · rw [List.mem_singleton.mp new]
    exact due.mono rfl rfl

theorem store_closing {write : StoreWrite} {i : TaskId} {reply : effects.Reply (.store run write)}
    (done : w.effect h i (.store run write) reply choice = some next)
    (noted : closing run o issued tail decided cut
      (w.note run (noteIssue write (World.failed reply) choice.fate)))
    (due : Due run issued decided (w.cells run)
      (noteIssue write (World.failed reply) choice.fate (w.ledgers run)) (.store write)) :
    closing run o issued tail decided cut next := by
  have due : Due run issued decided
      ((w.note run (noteIssue write (World.failed reply) choice.fate)).cells run)
      ((w.note run (noteIssue write (World.failed reply) choice.fate)).ledgers run) (.store write) := by
    rw [World.note_same]
    exact due
  rcases World.store_cases done with ⟨committed,_⟩ | ⟨rfl,_⟩ | ⟨rfl,_⟩
  · exact commit_closing _ _ committed due noted
  · exact noted
  · exact orphan_closing due noted

theorem closing_stable (op : Op) :
    Stable ((body h run).env op) fun s => closing run o issued tail decided cut s.1 := by
  intro s t moved before
  rcases moved with ⟨outer,_⟩ | ⟨_,rely⟩
  · cases outer with
    | drift drift => exact drift.closing before
    | armed armed => exact armed.closing before
    | landed landed => exact landed.closing before
  · cases rely with
    | drift drift => exact drift.closing before
    | remarked remarked => exact remarked.closing before
    | requested requested => exact requested.closing before
    | polled polled => exact polled.closing before
    | excused excused =>
      have begun := before.begun
      rw [excused.1] at begun
      cases begun

def Verdict (run : RunId) (kind : RunKind) (status : RunStatus) (message : Dict) : Prop :=
  ∃ payload : Dict, message = runMessage run (kind.value ++ "_" ++ status.value) payload ∧
    payload.lookup "kind" = none

inductive Tail (run : RunId) (o : Origin) (issued : List RunStatus) : List Dict → Prop where
  | untold : Tail run o issued []
  | told : issued.getLast? = some status → Verdict run o.kind status message →
      Tail run o issued [message]

def observed (run : RunId) (_ : Op) (s : World × Bool) : Prop :=
  ∃ o issued tail decided cut, Tail run o issued tail ∧ closing run o issued tail decided cut s.1

variable {ahead : Nat} {untold : List RunEventRecord}

theorem dropLast_prefix {front back : List α} (short : back.length ≤ 1) : (front ++ back).dropLast <+: front := by
  cases back with
  | nil => rw [List.append_nil]; exact List.dropLast_prefix front
  | cons last rest =>
    cases rest with
    | nil => simp only [List.dropLast_concat,List.prefix_rfl]
    | cons other rest => simp at short

theorem Flowing.closing (only : OnlyRemarks run w) (flowing : Flowing run o ahead untold (core run w)) :
    closing run o [] [] none false w where
  begun := flowing.begun
  launched := flowing.launched
  row := by
    have none : (w.ledgers run).commits = [] := flowing.uncommitted
    rw [none]
    exact flowing.row
  numbered := flowing.numbered
  emittable := flowing.emittable
  stored := by
    have same : (w.cells run).rows.events = (w.ledgers run).attempts := flowing.stored
    exact same ▸ List.prefix_rfl
  jobs := fun job inside => Job.remark_due (only.jobs job inside)
  audited := by
    intro line inside
    have same : (w.cells run).rows.events = (w.ledgers run).attempts := flowing.stored
    rw [same]
    exact flowing.audited line inside
  told := by
    obtain ⟨said,split,short,told⟩ := flowing.told
    have same : (w.cells run).rows.events = said ++ untold := flowing.stored.trans split
    have attempts : (w.ledgers run).attempts = said ++ untold := split
    refine ⟨said,same ▸ List.prefix_append said untold,?_,fun inside => absurd inside List.not_mem_nil,?_⟩
    · rw [attempts]
      exact dropLast_prefix short
    · rw [List.append_nil]
      exact told
  wrote := flowing.unissued
  commits := by
    have none : (w.ledgers run).commits = [] := flowing.uncommitted
    rw [none]
    exact fun status inside => absurd inside List.not_mem_nil
  kept := fun _ issued => absurd rfl issued
  completed := fun inside => absurd inside List.not_mem_nil
  derived := by
    intro row inside source
    rw [only.outcomes row inside] at source
    cases source
  final := fun status inside => absurd inside List.not_mem_nil
  follows := fun status inside => by cases inside
  whole := flowing.whole

end HyprlandAgent
