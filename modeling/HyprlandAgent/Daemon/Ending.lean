import HyprlandAgent.Daemon.Recording

-- The records from the end of the orchestration to the end of the body: the
-- status, the announcement and the `finally` block.
namespace HyprlandAgent
open Coroutine RunExecutor Orchestrator
variable {h : Host} {run : RunId} {w next : World} {o : Origin} {issued : List RunStatus}
  {tail : List Dict} {decided : Option RunStatus} {cut : Bool} {F : Bool × Bool × Bool → Prop}

theorem closing_perform (op : Op) (ok : op.Res → World → Prop) (err : Exc → World → Prop)
    (shape : Tail run o issued tail)
    (oks : ∀ w next value choice, closing run o issued tail decided cut w →
      w.effect h (bodyOf run) op (.ok value) choice = some next → ok value next)
    (errs : ∀ w next exc choice, closing run o issued tail decided cut w →
      w.effect h (bodyOf run) op (.error exc) choice = some next → err exc next) :
    Triple (body h run) (observed run) (fun s => closing run o issued tail decided cut s.1) (perform op)
      (ending (fun value s => ok value s.1) fun exc s => err exc s.1) := by
  apply Triple.perform (closing_stable op)
  · intro s before
    exact ⟨o,issued,tail,decided,cut,shape,before⟩
  · intro s reply t before acted
    obtain ⟨_,_,_,choice,performed⟩ := acted
    have done := World.perform_effect performed
    cases reply with
    | ok value => exact oks s.1 t.1 value choice before done
    | error exc => exact errs s.1 t.1 exc choice before done

theorem core_deadline (deadline : Option Deadline) :
    core run (w.atCell run fun cell => { cell with deadline := deadline }) = core run w := by simp [core]

theorem enter_triple (timeout : Seconds) :
    Triple (body h run) (observed run) (flowing run o F) (perform (.enterTimeout run timeout))
      (ending (fun _ => flowing run o F) fun _ => broken run o) := by
  refine flowing_perform (.enterTimeout run timeout)
    (fun _ => Steady run fun state => Flowing run o 0 [] state ∧ F (marks state.2))
    (fun _ => closing run o [] [] none false) (fun state both => both.1) ?_ ?_
  · intro w next value choice steady done
    cases done
    refine steady.moved (by simp) rfl ?_
    rw [core_deadline]
    exact id
  · intro w next exc choice steady done
    cases done

theorem leave_cases {w next : World} {reply : effects.Reply (.leaveTimeout run)}
    (done : w.effect h (bodyOf run) (.leaveTimeout run) reply choice = some next) :
    (∃ own, reply = .ok own) ∧ next = w.atCell run fun cell => { cell with deadline := none } := by
  cases reply with
  | ok own =>
    simp only [World.effect] at done
    split at done
    · split at done
      · cases done
        exact ⟨⟨own,rfl⟩,rfl⟩
      · cases done
    · cases done
  | error exc => cases done

theorem leave_flowing :
    Triple (body h run) (observed run) (flowing run o F) (perform (.leaveTimeout run))
      (ending (fun _ => flowing run o F) fun _ => broken run o) := by
  refine flowing_perform (.leaveTimeout run)
    (fun _ => Steady run fun state => Flowing run o 0 [] state ∧ F (marks state.2))
    (fun _ => closing run o [] [] none false) (fun state both => both.1) ?_ ?_
  · intro w next value choice steady done
    obtain ⟨_,rfl⟩ := leave_cases done
    refine steady.moved (by simp) rfl ?_
    rw [core_deadline]
    exact id
  · intro w next exc choice steady done
    obtain ⟨⟨_,impossible⟩,_⟩ := leave_cases done
    cases impossible

theorem leave_broken :
    Triple (body h run) (observed run) (broken run o) (perform (.leaveTimeout run))
      (ending (fun _ => broken run o) fun _ => broken run o) := by
  refine closing_perform (.leaveTimeout run) (fun _ => closing run o [] [] none false)
    (fun _ => closing run o [] [] none false) .untold ?_ ?_
  · intro w next value choice before done
    obtain ⟨_,rfl⟩ := leave_cases done
    unfold closing
    rw [World.atCell_same,World.atCell_ledgers]
    exact before.blind none (w.ledgers run).strayed (w.ledgers run).watch
  · intro w next exc choice before done
    obtain ⟨⟨_,impossible⟩,_⟩ := leave_cases done
    cases impossible

def settledMarks (mark : Bool × Bool × Bool) : Prop := turnedBack mark ∨ mark = (false,false,true)

theorem orchestrate_triple (kind : RunKind) (task : String) (brain : Brain) :
    Triple (body h run) (observed run) (flowing run o clean) (orchestrate h run kind task brain)
      (ending (fun _ => flowing run o settledMarks) fun _ => broken run o) := by
  have sound := recording_sound h run o
  have merge : ∀ (value : Unit) s, (recording run o).leaving s ∨ (recording run o).elapsed s →
      flowing run o settledMarks s := by
    intro _ s left
    rcases left with leaving | elapsed
    · exact ⟨⟨leaving.1.1,.inl leaving.1.2⟩,leaving.2⟩
    · exact ⟨⟨elapsed.1.1,.inr elapsed.1.2⟩,elapsed.2⟩
  unfold orchestrate
  cases kind with
  | plan => exact (sound.plan_follows task brain (some h.config)).relax merge fun _ _ reached => reached
  | run => exact (sound.run_follows h task brain (some h.config)).relax merge fun _ _ reached => reached

theorem waitFor_triple (kind : RunKind) (task : String) (brain : Brain) :
    Triple (body h run) (observed run) (flowing run o clean)
      (waitFor run runTimeout (orchestrate h run kind task brain))
      (ending (fun _ => flowing run o settledMarks) fun _ => broken run o) := by
  unfold waitFor
  apply Triple.seq (enter_triple runTimeout)
  intro _
  apply Triple.settle (orchestrate_triple kind task brain)
  intro result
  cases result with
  | ok value =>
    apply Triple.seq leave_flowing
    intro own
    exact Triple.ofExcept fun _ reached => reached
  | error exc =>
    apply Triple.seq leave_broken
    intro own
    cases exc with
    | cancelled => cases own <;> exact Triple.raise fun _ reached => reached
    | _ => exact Triple.ofExcept fun _ reached => reached

theorem Due.issue {cell : Cell} {past : Ledger} {job : Job} (due : Due run issued decided cell past job)
    (status : RunStatus) : Due run (issued ++ [status]) decided cell past job := by
  cases job with
  | audit line => exact due
  | store write =>
    cases write with
    | updateRunStatus other endedAt error => exact List.mem_append_left _ due
    | upsertRunOutcome outcome score source rationale => cases source <;> exact due
    | _ => exact due

theorem Closing.keep {cell : Cell} {past : Ledger}
    (lost : Closing run o issued tail decided cut cell { past with statusLost := true })
    (kept : past.statusLost = false → issued ≠ [] → past.commits ≠ []) :
    Closing run o issued tail decided cut cell past :=
  ⟨lost.begun,lost.launched,lost.row,lost.numbered,lost.emittable,lost.stored,
    fun job inside => (lost.jobs job inside).mono rfl rfl,lost.audited,lost.told,lost.wrote,lost.commits,
    kept,lost.completed,lost.derived,lost.final,lost.follows,lost.whole⟩

theorem status_closing {status : RunStatus} {endedAt : Option Seconds} {error : Option String}
    {reply : effects.Reply (.store run (.updateRunStatus status endedAt error))}
    (done : w.effect h (bodyOf run) (.store run (.updateRunStatus status endedAt error)) reply choice =
      some next)
    (before : closing run o issued tail none cut w) (terminal : status.terminal = true)
    (completed : .completed ∈ issued ++ [status] → (saidDone (w.ledgers run) = true ↔
      (w.ledgers run).refused = false ∧ (w.ledgers run).stopSeen = false))
    (told : Told run o (issued ++ [status]) tail (w.cells run) (w.ledgers run)) :
    closing run o (issued ++ [status]) tail none cut next := by
  have lost : closing run o (issued ++ [status]) tail none cut (w.note run fun past =>
      { past with issued := past.issued ++ [status], statusLost := true }) := by
    unfold closing
    rw [World.note_same,World.note_cells]
    refine
      { begun := before.begun, launched := before.launched, row := before.row
        numbered := before.numbered, emittable := before.emittable, stored := before.stored
        jobs := fun job inside => ((before.jobs job inside).mono rfl rfl).issue status
        audited := before.audited, told := told
        wrote := congrArg (· ++ [status]) before.wrote
        commits := fun old inside => List.mem_append_left _ (before.commits old inside)
        kept := fun kept => absurd kept.symm Bool.false_ne_true, completed := completed
        derived := before.derived, final := ?_, follows := fun _ inside => by cases inside
        whole := before.whole }
    intro other inside
    rcases List.mem_append.mp inside with old | new
    · exact before.final other old
    · rw [List.mem_singleton.mp new]
      exact terminal
  have due : ∀ {cell : Cell} {past : Ledger}, Due run (issued ++ [status]) none cell past
      (.store (.updateRunStatus status endedAt error)) :=
    List.mem_append_right _ List.mem_cons_self
  rcases World.store_cases done with ⟨committed,_⟩ | ⟨rfl,failed,dropped⟩ | ⟨rfl,failed,orphaned⟩
  · simp only [World.commit,StoreWrite.apply,Option.map_some,Option.some.injEq] at committed
    subst committed
    have relost := commit_closing choice.now (.store (.updateRunStatus status endedAt error)) rfl due lost
    apply Closing.keep
    · simpa [closing,noteIssue,noteCommit] using relost
    · simp [noteCommit]
  · apply Closing.keep
    · simpa [closing,noteIssue] using lost
    · simp [noteIssue,failed,dropped]
  · have left := orphan_closing due lost
    apply Closing.keep
    · simpa [closing,noteIssue] using left
    · simp [noteIssue,failed,orphaned]

-- After the `try` statement: the last status issued is the final one, whether or
-- not it was announced.
def attempted (run : RunId) (o : Origin) (status : RunStatus) (s : World × Bool) : Prop :=
  ∃ issued tail, issued.getLast? = some status ∧ Tail run o issued tail ∧
    closing run o issued tail none false s.1

theorem publish_closing {message : Dict} {i : TaskId} {reply : effects.Reply (.publish run message)}
    (done : w.effect h i (.publish run message) reply choice = some next)
    (before : closing run o issued tail decided cut w) :
    closing run o issued (tail ++ [message]) decided cut next := by
  cases reply with
  | error exc => cases done
  | ok value =>
    cases done
    unfold closing
    rw [World.atCell_same,World.atCell_ledgers]
    obtain ⟨said,kept,recent,whole,told⟩ := before.told
    exact
      { begun := before.begun, launched := before.launched, row := before.row
        numbered := before.numbered, emittable := before.emittable, stored := before.stored
        jobs := fun job inside => (before.jobs job inside).mono rfl rfl, audited := before.audited
        told := ⟨said,kept,recent,whole,by simp [told]⟩, wrote := before.wrote, commits := before.commits
        kept := before.kept, completed := before.completed, derived := before.derived
        final := before.final, follows := before.follows, whole := before.whole }

theorem announce_triple {E : Exc → World × Bool → Prop} {status : RunStatus} {word : String} {payload : Dict}
    (last : issued.getLast? = some status) (named : o.kind.value ++ word = o.kind.value ++ "_" ++ status.value)
    (plain : payload.lookup "kind" = none) :
    Triple (body h run) (observed run) (fun s => closing run o issued [] none false s.1)
      (publish run (o.kind.value ++ word) payload)
      (ending (fun _ => attempted run o status) E) := by
  have told : Tail run o issued [runMessage run (o.kind.value ++ word) payload] :=
    .told last ⟨payload,by rw [named],plain⟩
  refine (closing_perform (.publish run _) (fun _ w => attempted run o status (w,false))
    (fun _ _ => False) .untold ?_ ?_).relax (fun _ _ reached => reached) ?_
  · intro w next value choice before done
    exact ⟨issued,_,last,told,publish_closing done before⟩
  · intro w next exc choice before done
    cases done
  · intro exc s impossible
    exact impossible.elim

theorem failing_triple {status : RunStatus} (failure : status ≠ .completed)
    (terminal : status.terminal = true) (error : Option String) :
    Triple (body h run) (observed run) (fun s => closing run o issued [] none false s.1)
      (updateStatus run status error)
      (ending (fun _ s => closing run o (issued ++ [status]) [] none false s.1)
        fun _ => attempted run o status) := by
  have completed : ∀ {w : World}, closing run o issued [] none false w →
      .completed ∈ issued ++ [status] → (saidDone (w.ledgers run) = true ↔
        (w.ledgers run).refused = false ∧ (w.ledgers run).stopSeen = false) := by
    intro w before inside
    apply before.completed
    rcases List.mem_append.mp inside with old | new
    · exact old
    · exact absurd (List.mem_singleton.mp new).symm failure
  have told : ∀ {w : World}, closing run o issued [] none false w →
      Told run o (issued ++ [status]) [] (w.cells run) (w.ledgers run) := by
    intro w before
    obtain ⟨said,kept,recent,whole,told⟩ := before.told
    refine ⟨said,kept,recent,fun inside => whole ?_,told⟩
    rcases List.mem_append.mp inside with old | new
    · exact old
    · exact absurd (List.mem_singleton.mp new).symm failure
  refine closing_perform (.store run (.updateRunStatus status none error))
    (fun _ => closing run o (issued ++ [status]) [] none false)
    (fun _ w => attempted run o status (w,false)) .untold ?_ ?_
  · intro w next value choice before done
    exact status_closing done before terminal (completed before) (told before)
  · intro w next exc choice before done
    exact ⟨_,[],List.getLast?_concat,.untold,status_closing done before terminal (completed before) (told before)⟩

theorem recordFailure_triple (exc : Exc) :
    Triple (body h run) (observed run) (fun s => closing run o issued [] none false s.1)
      (recordFailure run o.kind exc)
      (ending (fun _ => attempted run o (failureStatus exc)) fun _ => attempted run o (failureStatus exc)) := by
  have settles : ∀ {status : RunStatus} {word : String} {error : Option String} {payload : Dict},
      status ≠ .completed → status.terminal = true → o.kind.value ++ word = o.kind.value ++ "_" ++ status.value →
      payload.lookup "kind" = none →
      Triple (body h run) (observed run) (fun s => closing run o issued [] none false s.1)
        (do updateStatus run status error; publish run (o.kind.value ++ word) payload)
        (ending (fun _ => attempted run o status) fun _ => attempted run o status) := by
    intro status word error payload failure terminal named plain
    apply Triple.seq (failing_triple failure terminal error)
    intro _
    exact announce_triple List.getLast?_concat named plain
  unfold recordFailure
  cases exc with
  | stuck text => exact settles (by decide) rfl (by rw [String.append_assoc]; rfl) rfl
  | timeout => exact settles (by decide) rfl (by rw [String.append_assoc]; rfl) rfl
  | cancelled =>
    refine Triple.seq (failing_triple (by decide) rfl none) ?_
    intro _
    refine Triple.seq (announce_triple (E:=fun _ => attempted run o .aborted) List.getLast?_concat
      (by rw [String.append_assoc]; rfl) rfl) ?_
    intro _
    exact Triple.raise fun _ reached => reached
  | _ => exact settles (by decide) rfl (by rw [String.append_assoc]; rfl) rfl

theorem settled_done {past : Ledger} (settled : settledMarks (marks past)) :
    saidDone past = true ↔ past.refused = false ∧ past.stopSeen = false := by
  rcases settled with ⟨either,undone⟩ | done
  · have undone : saidDone past = false := undone
    rw [undone]
    apply iff_of_false Bool.false_ne_true
    intro given
    obtain ⟨allowed,unstopped⟩ := given
    rcases either with refused | stopped
    · exact absurd (allowed.symm.trans refused) Bool.false_ne_true
    · exact absurd (unstopped.symm.trans stopped) Bool.false_ne_true
  · simp only [marks,Prod.mk.injEq] at done
    simp [done]

theorem Flowing.informed {ahead : Nat} (flowing : Flowing run o ahead [] (core run w)) :
    Told run o [.completed] [] (w.cells run) (w.ledgers run) := by
  obtain ⟨said,split,_,told⟩ := flowing.told
  have attempts : (w.ledgers run).attempts = said := split.trans (List.append_nil said)
  have stored : (w.cells run).rows.events = (w.ledgers run).attempts := flowing.stored
  refine ⟨said,?_,?_,fun _ => attempts.symm,told.trans (List.append_nil _).symm⟩
  · exact ⟨[],by rw [List.append_nil,stored,attempts]⟩
  · rw [attempts]
    exact List.dropLast_prefix said

theorem recordCompletion_triple :
    Triple (body h run) (observed run) (flowing run o settledMarks) (recordCompletion run o.kind)
      (ending (fun _ => attempted run o .completed)
        fun _ s => ∃ issued, closing run o issued [] none false s.1) := by
  have updated : Triple (body h run) (observed run) (flowing run o settledMarks)
      (updateStatus run .completed none)
      (ending (fun _ s => closing run o [.completed] [] none false s.1)
        fun _ s => ∃ issued, closing run o issued [] none false s.1) := by
    refine flowing_perform (.store run (.updateRunStatus .completed none none))
      (fun _ => closing run o [.completed] [] none false)
      (fun _ w => ∃ issued, closing run o issued [] none false w) (fun state both => both.1) ?_ ?_
    · intro w next value choice steady done
      exact status_closing done (steady.1.1.closing steady.2) rfl (fun _ => settled_done steady.1.2)
        steady.1.1.informed
    · intro w next exc choice steady done
      exact ⟨_,status_closing done (steady.1.1.closing steady.2) rfl (fun _ => settled_done steady.1.2)
        steady.1.1.informed⟩
  apply Triple.seq updated
  intro _
  exact announce_triple rfl (by rw [String.append_assoc]; rfl) rfl

theorem attempt_triple (kind : RunKind) (task : String) (brain : Brain) (same : o.kind = kind) :
    Triple (body h run) (observed run) (flowing run o clean)
      (attempt run kind (orchestrate h run kind task brain))
      (ending (fun settled => attempted run o settled.1) fun _ _ => False) := by
  subst same
  have tried : Triple (body h run) (observed run) (flowing run o clean)
      (waitFor run runTimeout (orchestrate h run o.kind task brain) >>= fun _ => recordCompletion run o.kind)
      (ending (fun _ => attempted run o .completed)
        fun _ s => ∃ issued, closing run o issued [] none false s.1) := by
    refine Triple.seq ((waitFor_triple o.kind task brain).relax (fun _ _ reached => reached) ?_) ?_
    · intro exc s broken
      exact ⟨[],broken⟩
    · intro _
      exact recordCompletion_triple
  unfold attempt
  apply Triple.settle tried
  intro result
  cases result with
  | ok value => exact Triple.pure fun _ reached => reached
  | error exc =>
    intro s left
    obtain ⟨issued,closed⟩ := left
    refine (Triple.settle (recordFailure_triple exc) ?_) s closed
    intro ended
    apply Triple.pure
    intro s reached
    cases ended <;> exact reached

theorem finally_closing {write : StoreWrite} {status : RunStatus}
    {reply : effects.Reply (.store run write)}
    (done : w.effect h (bodyOf run) (.store run write) reply choice = some next)
    (before : closing run o issued tail decided false w)
    (noted : noteIssue write (World.failed reply) choice.fate (w.ledgers run) =
      { (w.ledgers run) with finallyCut := (w.ledgers run).finallyCut || World.failed reply })
    (later : decided = none ∨ decided = some status) (last : issued.getLast? = some status)
    (due : ∀ cell past, Due run issued (some status) cell past (.store write)) :
    closing run o issued tail (some status) (World.failed reply) next := by
  refine store_closing done ?_ (due _ _)
  have whole := before.whole
  have decides : ∀ {outcome : RunOutcome × Rat},
      (∃ status ∈ decided, outcome = deriveFromStatus status) →
      ∃ other ∈ some status, outcome = deriveFromStatus other := by
    intro outcome given
    obtain ⟨other,inside,same⟩ := given
    rcases later with rfl | rfl
    · cases inside
    · exact ⟨other,inside,same⟩
  unfold closing
  rw [World.note_same,World.note_cells,noted]
  refine
    { begun := before.begun, launched := before.launched, row := before.row
      numbered := before.numbered, emittable := before.emittable, stored := before.stored
      jobs := ?_, audited := before.audited, told := before.told, wrote := before.wrote
      commits := before.commits, kept := before.kept, completed := before.completed
      derived := fun row inside source => decides (before.derived row inside source)
      final := before.final, follows := ?_, whole := by simp [whole] }
  rotate_left
  · intro other given
    cases given
    exact last
  intro job inside
  have due := before.jobs job inside
  cases job with
  | audit line => exact due
  | store write =>
    cases write with
    | upsertRunOutcome outcome score source rationale =>
      cases source with
      | derived => exact decides due
      | explicit => trivial
    | _ => exact due

def finishedMessage (run : RunId) (task : String) (status : RunStatus) : Dict :=
  runMessage run "run_finished" (dict [("task",.str task),
    ("outcome",.str (deriveFromStatus status).1.value),("status",.str status.value)])

inductive Ended (run : RunId) (w : World) : Prop where
  | broken {o : Origin} {issued : List RunStatus} {tail : List Dict} {status : RunStatus} :
      issued.getLast? = some status → Tail run o issued tail →
      closing run o issued tail (some status) true w → Ended run w
  | whole {o : Origin} {issued : List RunStatus} {tail : List Dict} {status : RunStatus} :
      issued.getLast? = some status → Tail run o issued tail →
      closing run o issued (tail ++ [finishedMessage run o.task status]) (some status) false w →
      (w.ledgers run).outcomes ≠ [] → Ended run w

theorem Outer.outcomes (outer : Outer h run w next) :
    (w.ledgers run).outcomes <+: (next.ledgers run).outcomes := by
  cases outer with
  | drift drift => exact List.prefix_iff_exists_eq_append.mpr ⟨[],by rw [drift.ledger,List.append_nil]⟩
  | armed armed =>
    rcases armed.ledger with same | watched
    · exact List.prefix_iff_exists_eq_append.mpr ⟨[],by rw [same,List.append_nil]⟩
    · exact List.prefix_iff_exists_eq_append.mpr ⟨[],by rw [watched,List.append_nil]⟩
  | landed landed =>
    obtain ⟨index,job,now,found,rfl⟩ := landed
    cases committed : (w.atCell run fun cell =>
        { cell with orphans := cell.orphans.eraseIdx index }).commit run now job with
    | none => exact List.prefix_rfl
    | some after =>
      cases job with
      | audit line => cases committed; exact List.prefix_rfl
      | store write =>
        obtain ⟨rows,_,rfl⟩ := Option.map_eq_some_iff.mp committed
        cases write <;> simp [noteCommit]

theorem Rely.outcomes {excuse : World → World → Prop} {s t : World × Bool}
    (rely : Rely h run excuse s t) :
    (s.1.ledgers run).outcomes <+: (t.1.ledgers run).outcomes ∨ excuse s.1 t.1 := by
  cases rely with
  | drift drift => exact .inl (List.prefix_iff_exists_eq_append.mpr ⟨[],by rw [drift.ledger,List.append_nil]⟩)
  | remarked remarked =>
    obtain ⟨more,added,_⟩ := remarked.outcomes
    exact .inl (added ▸ List.prefix_append _ more)
  | requested requested => exact .inl (List.prefix_iff_exists_eq_append.mpr ⟨[],by rw [requested.ledger,List.append_nil]⟩)
  | polled polled => exact .inl (List.prefix_iff_exists_eq_append.mpr ⟨[],by rw [polled.ledger,List.append_nil]⟩)
  | excused excused => exact .inr excused

theorem prefix_ne_nil {front whole : List α} (inside : front <+: whole) (some : front ≠ []) : whole ≠ [] := by
  intro same
  subst same
  exact some (List.prefix_nil.mp inside)

theorem decided_stable (op : Op) : Stable ((body h run).env op) fun s =>
    closing run o issued tail decided cut s.1 ∧ (s.1.ledgers run).outcomes ≠ [] := by
  intro s t moved both
  refine ⟨closing_stable op s t moved both.1,?_⟩
  rcases moved with ⟨outer,_⟩ | ⟨_,rely⟩
  · exact prefix_ne_nil outer.outcomes both.2
  · rcases rely.outcomes with grown | excused
    · exact prefix_ne_nil grown both.2
    · have begun := both.1.begun
      rw [excused.1] at begun
      cases begun

theorem clock_closing (shape : Tail run o issued tail) :
    Triple (body h run) (observed run) (fun s => closing run o issued tail decided cut s.1) (ask .time)
      (ending (fun _ s => closing run o issued tail decided cut s.1) fun _ s => Ended run s.1) := by
  refine closing_perform (.tool .time) (fun _ => closing run o issued tail decided cut)
    (fun _ w => Ended run w) shape ?_ ?_
  · intro w next value choice before done
    cases done
    exact before
  · intro w next exc choice before done
    cases done

theorem metrics_triple {status : RunStatus} (last : issued.getLast? = some status)
    (shape : Tail run o issued tail) (durationS : Seconds) :
    Triple (body h run) (observed run) (fun s => closing run o issued tail none false s.1)
      (perform (.store run (.updateRunMetrics none none (some durationS))))
      (ending (fun _ s => closing run o issued tail (some status) false s.1) fun _ s => Ended run s.1) := by
  refine closing_perform _ (fun _ => closing run o issued tail (some status) false)
    (fun _ w => Ended run w) shape ?_ ?_
  · intro w next value choice before done
    exact finally_closing done before rfl (.inl rfl) last fun _ _ => trivial
  · intro w next exc choice before done
    exact .broken last shape (finally_closing done before rfl (.inl rfl) last fun _ _ => trivial)

theorem derive_triple {status : RunStatus} (last : issued.getLast? = some status)
    (shape : Tail run o issued tail) :
    Triple (body h run) (observed run) (fun s => closing run o issued tail (some status) false s.1)
      (perform (.store run (.upsertRunOutcome (deriveFromStatus status).1 (deriveFromStatus status).2
        .derived none)))
      (ending (fun _ s => closing run o issued tail (some status) false s.1 ∧
        (s.1.ledgers run).outcomes ≠ []) fun _ s => Ended run s.1) := by
  have due : ∀ cell past, Due run issued (some status) cell past (.store (.upsertRunOutcome
      (deriveFromStatus status).1 (deriveFromStatus status).2 .derived none)) :=
    fun _ _ => ⟨status,rfl,rfl⟩
  refine closing_perform _ (fun _ w => closing run o issued tail (some status) false w ∧
    (w.ledgers run).outcomes ≠ []) (fun _ w => Ended run w) shape ?_ ?_
  · intro w next value choice before done
    refine ⟨finally_closing done before rfl (.inr rfl) last due,?_⟩
    rcases World.store_cases done with ⟨committed,_⟩ | ⟨_,failed,_⟩ | ⟨_,failed,_⟩
    · simp only [World.commit,StoreWrite.apply,Option.map_some,Option.some.injEq] at committed
      subst committed
      simp [noteCommit]
    · cases failed
    · cases failed
  · intro w next exc choice before done
    exact .broken last shape (finally_closing done before rfl (.inr rfl) last due)

theorem pop_triple (shape : Tail run o issued tail) :
    Triple (body h run) (observed run) (fun s => closing run o issued tail decided cut s.1 ∧
        (s.1.ledgers run).outcomes ≠ []) (perform (.seqPop run))
      (ending (fun _ s => closing run o issued tail decided cut s.1 ∧ (s.1.ledgers run).outcomes ≠ [])
        fun _ s => Ended run s.1) := by
  apply Triple.perform (decided_stable _) (fun s both => ⟨o,issued,tail,decided,cut,shape,both.1⟩)
  intro s reply t both acted
  obtain ⟨before,outcomes⟩ := both
  obtain ⟨_,_,_,choice,performed⟩ := acted
  have done := World.perform_effect performed
  cases reply with
  | error exc => cases done
  | ok value =>
    have moved : t.1 = s.1.atCell run fun cell => { cell with seq := none } := (Option.some.inj done).symm
    refine ⟨?_,by rw [moved]; exact outcomes⟩
    rw [moved]
    unfold closing
    rw [World.atCell_same,World.atCell_ledgers]
    exact
      { begun := before.begun, launched := before.launched, row := before.row
        numbered := before.numbered, emittable := before.emittable, stored := before.stored
        jobs := fun job inside => (before.jobs job inside).mono rfl rfl, audited := before.audited
        told := before.told, wrote := before.wrote, commits := before.commits
        kept := before.kept, completed := before.completed, derived := before.derived
        final := before.final, follows := before.follows, whole := before.whole }

theorem finished_triple {status : RunStatus} (last : issued.getLast? = some status)
    (shape : Tail run o issued tail) :
    Triple (body h run) (observed run) (fun s => closing run o issued tail (some status) false s.1 ∧
        (s.1.ledgers run).outcomes ≠ [])
      (publish run "run_finished" (dict [("task",.str o.task),
        ("outcome",.str (deriveFromStatus status).1.value),("status",.str status.value)]))
      (ending (fun _ s => Ended run s.1) fun _ s => Ended run s.1) := by
  apply Triple.perform (decided_stable _) (fun s both => ⟨o,issued,tail,some status,false,shape,both.1⟩)
  intro s reply t both acted
  obtain ⟨_,_,_,choice,performed⟩ := acted
  have done := World.perform_effect performed
  cases reply with
  | error exc => cases done
  | ok value =>
    refine .whole last shape (publish_closing done both.1) ?_
    have moved := Option.some.inj done
    rw [← moved]
    exact both.2

theorem finish_triple (task : String) (tStart : Seconds) {status : RunStatus} (same : o.task = task) :
    Triple (body h run) (observed run) (attempted run o status) (finish run task tStart status)
      (ending (fun _ s => Ended run s.1) fun _ s => Ended run s.1) := by
  subst same
  intro s given
  obtain ⟨issued,tail,last,shape,before⟩ := given
  have finishes : Triple (body h run) (observed run) (fun s => closing run o issued tail none false s.1)
      (finish run o.task tStart status) (ending (fun _ s => Ended run s.1) fun _ s => Ended run s.1) := by
    unfold finish
    apply Triple.seq (clock_closing shape)
    intro now
    apply Triple.seq (metrics_triple last shape _)
    intro _
    apply Triple.seq (derive_triple last shape)
    intro _
    apply Triple.seq (pop_triple shape)
    intro _
    exact finished_triple last shape
  exact finishes s before

theorem pristine_flowing {kind : RunKind} {task : String} {brain : Brain} {s : World × Bool}
    (pristine : Pristine run kind task brain s.1) :
    ∃ o : Origin, o.kind = kind ∧ o.task = task ∧ o.brain = brain ∧ flowing run o clean s := by
  obtain ⟨⟨brainName,startedAt,same⟩,only⟩ := pristine
  refine ⟨⟨kind,task,brain,brainName⟩,rfl,rfl,rfl,?_,only⟩
  rw [same]
  refine ⟨?_,rfl⟩
  exact
    { begun := rfl, launched := rfl, row := rfl, numbered := rfl, counter := rfl
      emittable := fun event inside => absurd inside List.not_mem_nil, stored := rfl
      audited := fun line inside => absurd inside List.not_mem_nil
      told := ⟨[],rfl,Nat.zero_le 1,rfl⟩, unissued := rfl, uncommitted := rfl, whole := rfl }

theorem runTask_triple (kind : RunKind) (task : String) (brain : Brain) :
    Triple (body h run) (observed run) (fun s => Pristine run kind task brain s.1)
      (runTask h run kind task brain) fun _ s => Ended run s.1 := by
  intro s pristine
  obtain ⟨o,sameKind,sameTask,_,flow⟩ := pristine_flowing pristine
  have runs : Triple (body h run) (observed run) (flowing run o clean) (runTask h run kind task brain)
      (ending (fun _ s => Ended run s.1) fun _ s => Ended run s.1) := by
    unfold runTask
    apply Triple.seq (clock_triple fun state both => both.1)
    intro tStart
    refine Triple.seq ((attempt_triple kind task brain sameKind).relax (fun _ _ reached => reached)
      fun _ _ impossible => impossible.elim) ?_
    intro given
    obtain ⟨status,ended⟩ := given
    apply Triple.seq (finish_triple task tStart sameTask)
    intro _
    apply Triple.ofExcept
    intro s reached
    cases ended <;> exact reached
  exact (runs s flow).mono fun result t reached => by cases result <;> exact reached

theorem Outer.ended (outer : Outer h run w next) (ended : Ended run w) : Ended run next := by
  have closes : ∀ {o issued tail decided cut}, closing run o issued tail decided cut w →
      closing run o issued tail decided cut next := by
    intro o issued tail decided cut before
    exact closing_stable (h:=h) .isStopped (w,false) (next,false) (.inl ⟨outer,rfl⟩) before
  cases ended with
  | broken last shape before => exact .broken last shape (closes before)
  | whole last shape before outcomes =>
    exact .whole last shape (closes before) (prefix_ne_nil outer.outcomes outcomes)

theorem Rely.ended {s t : World × Bool} (rely : Rely h run (fun _ _ => False) s t)
    (ended : Ended run s.1) : Ended run t.1 := by
  have closes : ∀ {o issued tail decided cut}, closing run o issued tail decided cut s.1 →
      closing run o issued tail decided cut t.1 := by
    intro o issued tail decided cut before
    cases rely with
    | drift drift => exact drift.closing before
    | remarked remarked => exact remarked.closing before
    | requested requested => exact requested.closing before
    | polled polled => exact polled.closing before
    | excused excused => exact excused.elim
  cases ended with
  | broken last shape before => exact .broken last shape (closes before)
  | whole last shape before outcomes =>
    rcases rely.outcomes with grown | excused
    · exact .whole last shape (closes before) (prefix_ne_nil grown outcomes)
    · exact excused.elim

end HyprlandAgent
