import HyprlandAgent.Daemon.Records

-- The records along the orchestration: each event is numbered, stored, audited
-- and told, and the marks say how the orchestration went.
namespace HyprlandAgent
open Coroutine RunExecutor Orchestrator
variable {h : Host} {run : RunId} {w next : World} {o : Origin} {past : Ledger} {ahead : Nat}
  {untold : List RunEventRecord} {F G : Bool × Bool × Bool → Prop}

abbrev flowing (run : RunId) (o : Origin) (F : Bool × Bool × Bool → Prop) (s : World × Bool) : Prop :=
  Steady run (fun state => Flowing run o 0 [] state ∧ F (marks state.2)) s.1

abbrev broken (run : RunId) (o : Origin) (s : World × Bool) : Prop := closing run o [] [] none false s.1

theorem flowing_broken (s : World × Bool) (steady : flowing run o F s) : broken run o s :=
  steady.1.1.closing steady.2

theorem flowing_perform {P : Cell × Ledger → Prop} (op : Op) (ok : op.Res → World → Prop)
    (err : Exc → World → Prop) (flows : ∀ state, P state → Flowing run o ahead untold state)
    (oks : ∀ w next value choice, Steady run P w →
      w.effect h (bodyOf run) op (.ok value) choice = some next → ok value next)
    (errs : ∀ w next exc choice, Steady run P w →
      w.effect h (bodyOf run) op (.error exc) choice = some next → err exc next) :
    Triple (body h run) (observed run) (fun s => Steady run P s.1) (perform op)
      (ending (fun value s => ok value s.1) fun exc s => err exc s.1) := by
  apply Triple.perform
  · intro s t moved steady
    rcases moved with ⟨outer,_⟩ | ⟨_,rely⟩
    · exact outer.steady steady
    · rcases rely.steady steady with steady | excused
      · exact steady
      · have begun : (s.1.ledgers run).begun = true := (flows _ steady.1).begun
        rw [excused.1] at begun
        cases begun
  · intro s steady
    exact ⟨o,[],[],none,false,.untold,(flows _ steady.1).closing steady.2⟩
  · intro s reply t steady acted
    obtain ⟨_,_,_,choice,performed⟩ := acted
    have done := World.perform_effect performed
    cases reply with
    | ok value => exact oks s.1 t.1 value choice steady done
    | error exc => exact errs s.1 t.1 exc choice steady done

theorem core_seq (seq : Option Nat) : core run (w.atCell run fun cell => { cell with seq := seq }) =
    ({ (core run w).1 with seq := seq },(core run w).2) := by simp [core]

theorem core_audit (line : Dict) :
    core run (w.atCell run fun cell => { cell with audit := cell.audit ++ [line] }) =
      ({ (core run w).1 with audit := (core run w).1.audit ++ [line] },(core run w).2) := by simp [core]

theorem core_published (message : Dict) :
    core run (w.atCell run fun cell => { cell with published := cell.published ++ [message] }) =
      ({ (core run w).1 with published := (core run w).1.published ++ [message] },(core run w).2) := by
  simp [core]

theorem draw_triple (seqs : F ≤ G) :
    Triple (body h run) (observed run) (flowing run o F) (perform (.seqNext run))
      (ending (fun (seq : Nat) s => Steady run (fun state => Flowing run o 1 [] state ∧
          G (marks state.2) ∧ state.2.attempts.length = seq) s.1) fun _ => broken run o) := by
  refine flowing_perform (.seqNext run)
    (fun (seq : Nat) => Steady run fun state => Flowing run o 1 [] state ∧ G (marks state.2) ∧
      state.2.attempts.length = seq)
    (fun _ => closing run o [] [] none false) (fun state both => both.1) ?_ ?_
  · intro w next seq choice steady done
    simp only [World.effect] at done
    split at done
    · rename_i drawn
      cases done
      refine steady.moved (by simp) rfl ?_
      intro given
      obtain ⟨flow,mark⟩ := given
      have counted : (w.cells run).seq = some ((w.ledgers run).attempts.length) := flow.counter
      rw [counted] at drawn
      have drawn : seq = (w.ledgers run).attempts.length := drawn
      rw [core_seq]
      refine ⟨⟨flow.begun,flow.launched,flow.row,flow.numbered,?_,flow.emittable,flow.stored,
        flow.audited,flow.told,flow.unissued,flow.uncommitted,flow.whole⟩,seqs _ mark,drawn.symm⟩
      rw [drawn]
      rfl
    · cases done
  · intro w next exc choice steady done
    cases done

theorem clock_triple {P : Cell × Ledger → Prop} {E : Exc → World × Bool → Prop}
    (flows : ∀ state, P state → Flowing run o ahead untold state) :
    Triple (body h run) (observed run) (fun s => Steady run P s.1) (ask .time)
      (ending (fun _ s => Steady run P s.1) E) := by
  refine (flowing_perform (.tool .time) (fun _ => Steady run P) (fun _ _ => False)
    flows ?_ ?_).relax (fun _ _ reached => reached) ?_
  · intro w next ts choice steady done
    cases done
    exact steady
  · intro w next exc choice steady done
    cases done
  · intro exc s impossible
    exact impossible.elim

theorem append_noted {event : RunEventRecord} {failed : Bool} {fate : Fate} :
    core run (w.note run (noteIssue (.appendEvent event) failed fate)) =
      ((core run w).1,{ (core run w).2 with attempts := (core run w).2.attempts ++ [event] }) := by
  simp [core,noteIssue]

theorem append_commit {event : RunEventRecord}
    (committed : w.commit run now (.store (.appendEvent event)) = some next) :
    core run next = ({ (core run w).1 with
        rows := { (core run w).1.rows with events := (core run w).1.rows.events ++ [event] } },
      (core run w).2) ∧ (next.cells run).orphans = (w.cells run).orphans ∧
      (next.ledgers run).outcomes = (w.ledgers run).outcomes := by
  obtain ⟨rows,applied,rfl⟩ := Option.map_eq_some_iff.mp committed
  simp only [StoreWrite.apply] at applied
  split at applied
  · cases applied
  · cases applied
    exact ⟨by simp [core,noteCommit],by simp,by simp [noteCommit]⟩

theorem numbered_snoc {attempts : List RunEventRecord} {event : RunEventRecord}
    (numbered : attempts.map RunEventRecord.seq = List.range attempts.length)
    (next : attempts.length = event.seq) :
    (attempts ++ [event]).map RunEventRecord.seq = List.range (attempts ++ [event]).length := by
  rw [List.map_append,numbered,List.length_append,List.length_singleton,List.range_succ]
  simp [next]

theorem emittable_snoc {attempts : List RunEventRecord} {event : RunEventRecord}
    (all : ∀ old ∈ attempts, Emittable old.kind old.payload) (new : Emittable event.kind event.payload) :
    ∀ old ∈ attempts ++ [event], Emittable old.kind old.payload := by
  intro old inside
  rcases List.mem_append.mp inside with before | last
  · exact all old before
  · rw [List.mem_singleton.mp last]
    exact new

theorem store_triple (event : RunEventRecord) (allowed : Emittable event.kind event.payload)
    (marked : ∀ refused stopSeen said, F (refused,stopSeen,said) →
      G (refused,stopSeen,said || event.kind == "done")) :
    Triple (body h run) (observed run) (fun s => Steady run (fun state => Flowing run o 1 [] state ∧
        F (marks state.2) ∧ state.2.attempts.length = event.seq) s.1)
      (perform (.store run (.appendEvent event)))
      (ending (fun _ s => Steady run (fun state => Flowing run o 0 [event] state ∧ G (marks state.2)) s.1)
        fun _ => broken run o) := by
  refine flowing_perform (.store run (.appendEvent event))
    (fun _ => Steady run fun state => Flowing run o 0 [event] state ∧ G (marks state.2))
    (fun _ => closing run o [] [] none false) (fun state both => both.1) ?_ ?_
  · intro w next value choice steady done
    rcases World.store_cases done with ⟨committed,_⟩ | ⟨_,failed,_⟩ | ⟨_,failed,_⟩
    · obtain ⟨moved,jobs,outcomes⟩ := append_commit committed
      apply steady.moved jobs (by simpa [noteIssue] using outcomes)
      intro given
      obtain ⟨flow,mark,next⟩ := given
      rw [moved,append_noted]
      constructor
      · refine
          { begun := flow.begun, launched := flow.launched, row := flow.row
            numbered := numbered_snoc flow.numbered next, counter := ?_
            emittable := emittable_snoc flow.emittable allowed, stored := ?_, audited := ?_, told := ?_
            unissued := flow.unissued, uncommitted := flow.uncommitted, whole := flow.whole }
        · rw [List.length_append,List.length_singleton]
          exact flow.counter
        · exact congrArg (· ++ [event]) flow.stored
        · intro line inside
          obtain ⟨old,present,same⟩ := flow.audited line inside
          exact ⟨old,List.mem_append_left _ present,same⟩
        · obtain ⟨said,split,_,told⟩ := flow.told
          rw [List.append_nil] at split
          exact ⟨said,congrArg (· ++ [event]) split,le_rfl,told⟩
      · have after := marked _ _ _ mark
        simpa [marks,saidDone] using after
    · cases failed
    · cases failed
  · intro w next exc choice steady done
    obtain ⟨flow,mark,number⟩ := steady.1
    have before := flow.closing steady.2
    have stored : (w.cells run).rows.events = (w.ledgers run).attempts := flow.stored
    refine store_closing done ?_ (.inl (by rw [stored]; rfl))
    unfold closing
    rw [World.note_same,World.note_cells]
    refine
      { begun := before.begun, launched := before.launched, row := before.row
        numbered := numbered_snoc before.numbered number
        emittable := emittable_snoc before.emittable allowed
        stored := before.stored.trans (List.prefix_append _ _)
        jobs := fun job inside => Job.remark_due (steady.2.jobs job inside)
        audited := before.audited, told := ?_, wrote := before.wrote, commits := before.commits
        kept := before.kept, completed := fun inside => absurd inside List.not_mem_nil
        derived := before.derived, final := before.final, follows := before.follows
        whole := before.whole }
    obtain ⟨said,split,_,told⟩ := flow.told
    rw [List.append_nil] at split
    have attempts : (w.ledgers run).attempts = said := split
    refine ⟨said,?_,?_,fun inside => absurd inside List.not_mem_nil,?_⟩
    · simp only [stored,attempts,List.prefix_rfl]
    · rw [← attempts]
      exact dropLast_prefix le_rfl
    · rw [List.append_nil]
      exact told

abbrev stored (run : RunId) (o : Origin) (event : RunEventRecord) (F : Bool × Bool × Bool → Prop)
    (s : World × Bool) : Prop :=
  Steady run (fun state => Flowing run o 0 [event] state ∧ F (marks state.2)) s.1

theorem audit_triple (event : RunEventRecord) :
    Triple (body h run) (observed run) (stored run o event F) (audit h run (auditEntry run event))
      (ending (fun _ => stored run o event F) fun _ => broken run o) := by
  have inside : ∀ {state : Cell × Ledger}, Flowing run o 0 [event] state → event ∈ state.2.attempts := by
    intro state flow
    obtain ⟨said,split,_,_⟩ := flow.told
    rw [split]
    exact List.mem_append_right _ List.mem_cons_self
  unfold audit
  split
  · refine flowing_perform (.auditAppend run (auditEntry run event))
      (fun _ => Steady run fun state => Flowing run o 0 [event] state ∧ F (marks state.2))
      (fun _ => closing run o [] [] none false) (fun state both => both.1) ?_ ?_
    · intro w next value choice steady done
      cases done
      refine steady.moved (by simp) rfl ?_
      intro given
      obtain ⟨flow,mark⟩ := given
      have attempted := inside flow
      rw [core_audit]
      refine ⟨?_,mark⟩
      refine
        { begun := flow.begun, launched := flow.launched, row := flow.row, numbered := flow.numbered
          counter := flow.counter, emittable := flow.emittable, stored := flow.stored, audited := ?_
          told := flow.told, unissued := flow.unissued, uncommitted := flow.uncommitted
          whole := flow.whole }
      intro line present
      rcases List.mem_append.mp present with old | new
      · exact flow.audited line old
      · exact ⟨event,attempted,List.mem_singleton.mp new⟩
    · intro w next exc choice steady done
      obtain ⟨flow,_⟩ := steady.1
      have before := flow.closing steady.2
      have due : Due run [] none (w.cells run) (w.ledgers run) (.audit (auditEntry run event)) := by
        have same : (w.cells run).rows.events = (w.ledgers run).attempts := flow.stored
        exact ⟨event,same ▸ inside flow,rfl⟩
      simp only [World.effect] at done
      rcases World.answer_cases done with ⟨committed,_⟩ | ⟨rfl,_⟩ | ⟨rfl,_⟩
      · exact commit_closing _ _ committed due before
      · exact before
      · exact orphan_closing due before
  · exact Triple.pure fun _ holds => holds

theorem tell_triple (event : RunEventRecord) :
    Triple (body h run) (observed run) (stored run o event F) (publish run event.kind event.payload)
      (ending (fun _ => flowing run o F) fun _ => broken run o) := by
  refine flowing_perform (.publish run (messageOf run event))
    (fun _ => Steady run fun state => Flowing run o 0 [] state ∧ F (marks state.2))
    (fun _ => closing run o [] [] none false) (fun state both => both.1) ?_ ?_
  · intro w next value choice steady done
    cases done
    refine steady.moved (by simp) rfl ?_
    intro given
    obtain ⟨flow,mark⟩ := given
    rw [core_published]
    refine ⟨?_,mark⟩
    obtain ⟨said,split,_,told⟩ := flow.told
    refine
      { begun := flow.begun, launched := flow.launched, row := flow.row, numbered := flow.numbered
        counter := flow.counter, emittable := flow.emittable, stored := flow.stored
        audited := flow.audited, told := ⟨said ++ [event],?_,Nat.zero_le 1,?_⟩, unissued := flow.unissued
        uncommitted := flow.uncommitted, whole := flow.whole }
    · rw [List.append_nil]
      exact split
    · simp [told]
  · intro w next exc choice steady done
    cases done

theorem emit_triple {kind : String} {payload : Dict} (emittable : Emittable kind payload)
    (marked : ∀ refused stopSeen said, F (refused,stopSeen,said) →
      G (refused,stopSeen,said || kind == "done")) :
    Triple (body h run) (observed run) (flowing run o F) ((contextOf h run).emit kind payload)
      (ending (fun _ => flowing run o G) fun _ => broken run o) := by
  apply Triple.seq (draw_triple le_rfl)
  intro seq
  apply Triple.seq (clock_triple fun state both => both.1)
  intro ts
  apply Triple.seq (store_triple ⟨seq,ts,kind,payload⟩ emittable marked)
  intro _
  apply Triple.seq (audit_triple _)
  intro _
  exact tell_triple _

theorem Flowing.marked {state : Cell × Ledger} (flow : Flowing run o ahead untold state)
    (gated refused stopSeen : Bool) (started : Nat) : Flowing run o ahead untold (state.1,
      { state.2 with gated := gated, refused := refused, stopSeen := stopSeen, started := started }) :=
  ⟨flow.begun,flow.launched,flow.row,flow.numbered,flow.counter,flow.emittable,flow.stored,
    flow.audited,flow.told,flow.unissued,flow.uncommitted,flow.whole⟩

def clean : Bool × Bool × Bool → Prop := (· = (false,false,false))

def turnedBack (mark : Bool × Bool × Bool) : Prop := (mark.1 = true ∨ mark.2.1 = true) ∧ mark.2.2 = false

theorem clean_marks : clean (marks past) ↔
    past.refused = false ∧ past.stopSeen = false ∧ saidDone past = false := by simp [clean,marks]

def recording (run : RunId) (o : Origin) : Outline (World × Bool) where
  fresh := flowing run o clean
  before := flowing run o clean
  seen := fun _ => flowing run o clean
  going := flowing run o clean
  checked := flowing run o clean
  leaving := flowing run o turnedBack
  cut := flowing run o clean
  elapsed := flowing run o (· = (false,false,true))
  broken := broken run o

theorem marking_triple (op : Op) (ok : op.Res → Bool × Bool × Bool → Prop)
    (marking : ∀ w next reply choice, w.effect h (bodyOf run) op reply choice = some next →
      (next.cells run).orphans = (w.cells run).orphans ∧
      (next.ledgers run).outcomes = (w.ledgers run).outcomes ∧
      ∃ gated refused stopSeen started, core run next = ((core run w).1,{ (core run w).2 with
        gated := gated, refused := refused, stopSeen := stopSeen, started := started }) ∧
        match reply with
        | .ok value => F (marks (core run w).2) → ok value (refused,stopSeen,saidDone (core run w).2)
        | .error _ => F (marks (core run w).2) → F (refused,stopSeen,saidDone (core run w).2)) :
    Triple (body h run) (observed run) (flowing run o F) (perform op)
      (ending (fun value => flowing run o (ok value)) fun _ => flowing run o F) := by
  refine flowing_perform op
    (fun value => Steady run fun state => Flowing run o 0 [] state ∧ ok value (marks state.2))
    (fun _ => Steady run fun state => Flowing run o 0 [] state ∧ F (marks state.2))
    (fun state both => both.1) ?_ ?_
  · intro w next value choice steady done
    obtain ⟨jobs,outcomes,gated,refused,stopSeen,started,moved,marked⟩ := marking w next _ choice done
    apply steady.moved jobs outcomes
    intro given
    obtain ⟨flow,mark⟩ := given
    rw [moved]
    exact ⟨flow.marked gated refused stopSeen started,marked mark⟩
  · intro w next exc choice steady done
    obtain ⟨jobs,outcomes,gated,refused,stopSeen,started,moved,marked⟩ := marking w next _ choice done
    apply steady.moved jobs outcomes
    intro given
    obtain ⟨flow,mark⟩ := given
    rw [moved]
    exact ⟨flow.marked gated refused stopSeen started,marked mark⟩

theorem drifting_triple (op : Op) (drifts : ∀ w next reply choice,
    w.effect h (bodyOf run) op reply choice = some next → Drift h run w next) :
    Triple (body h run) (observed run) (flowing run o F) (perform op)
      (ending (fun _ => flowing run o F) fun _ => flowing run o F) := by
  refine flowing_perform op
    (fun _ => Steady run fun state => Flowing run o 0 [] state ∧ F (marks state.2))
    (fun _ => Steady run fun state => Flowing run o 0 [] state ∧ F (marks state.2))
    (fun state both => both.1) ?_ ?_
  · intro w next value choice steady done
    exact (Outer.drift (drifts w next _ choice done)).steady steady
  · intro w next exc choice steady done
    exact (Outer.drift (drifts w next _ choice done)).steady steady

theorem tool_triple (asked : Tool) :
    Triple (body h run) (observed run) (flowing run o F) (ask asked)
      (ending (fun _ => flowing run o F) fun _ => flowing run o F) := by
  apply drifting_triple (.tool asked)
  intro w next reply choice done
  cases World.tool_effect done
  exact .refl h run _

theorem core_same (w : World) : core run w = ((core run w).1,{ (core run w).2 with
    gated := (core run w).2.gated, refused := (core run w).2.refused
    stopSeen := (core run w).2.stopSeen, started := (core run w).2.started }) := rfl

theorem look_triple :
    Triple (body h run) (observed run) (flowing run o F) (perform .activeWindow)
      (ending (fun _ => flowing run o F) fun _ => flowing run o F) := by
  refine marking_triple .activeWindow (fun _ => F) ?_
  intro w next reply choice done
  cases reply with
  | ok seen =>
    simp only [World.effect] at done
    split at done
    · cases done
      exact ⟨rfl,by simp,true,(core run w).2.refused,(core run w).2.stopSeen,(core run w).2.started,
        by simp [core],id⟩
    · cases done
  | error exc =>
    cases done
    exact ⟨rfl,rfl,_,_,_,_,core_same w,id⟩

theorem gate_triple (window : Window) :
    Triple (body h run) (observed run) (flowing run o clean) (perform (.isAllowed window))
      (ending (fun (allowed : Bool) => if allowed then flowing run o clean else flowing run o turnedBack)
        fun _ => flowing run o clean) := by
  refine (marking_triple (.isAllowed window)
    (fun (allowed : Bool) mark => if allowed then clean mark else turnedBack mark) ?_).mono ?_
  · intro w next reply choice done
    cases reply with
    | ok verdict =>
      simp only [World.effect] at done
      split at done
      · cases done
        refine ⟨rfl,by simp,(core run w).2.gated,(core run w).2.refused || !verdict,
          (core run w).2.stopSeen,(core run w).2.started,by simp [core],?_⟩
        intro unmarked
        obtain ⟨refused,stopSeen,said⟩ := clean_marks.mp unmarked
        cases verdict <;> simp [clean,turnedBack,refused,stopSeen,said]
      · cases done
    | error exc =>
      cases done
      exact ⟨rfl,rfl,_,_,_,_,core_same w,id⟩
  · intro result s reached
    cases result with
    | error exc => exact reached
    | ok verdict => cases verdict <;> exact reached

theorem check_triple :
    Triple (body h run) (observed run) (flowing run o clean) (perform .isStopped)
      (ending (fun (stopped : Bool) => if stopped then flowing run o turnedBack else flowing run o clean)
        fun _ => flowing run o clean) := by
  refine (marking_triple .isStopped
    (fun (stopped : Bool) mark => if stopped then turnedBack mark else clean mark) ?_).mono ?_
  · intro w next reply choice done
    cases reply with
    | ok seen =>
      simp only [World.effect] at done
      split at done
      · cases done
        refine ⟨rfl,by simp,(core run w).2.gated,(core run w).2.refused,
          (core run w).2.stopSeen || seen,(core run w).2.started,by simp [core],?_⟩
        intro unmarked
        obtain ⟨refused,stopSeen,said⟩ := clean_marks.mp unmarked
        cases seen <;> simp [clean,turnedBack,refused,stopSeen,said]
      · cases done
    | error exc => cases done
  · intro result s reached
    cases result with
    | error exc => exact reached
    | ok seen => cases seen <;> exact reached

theorem limit_triple (kind : String) :
    Triple (body h run) (observed run) (flowing run o F) (perform (.checkLimit kind))
      (ending (fun _ => flowing run o F) fun _ => flowing run o F) := by
  apply marking_triple (.checkLimit kind) (fun _ => F)
  intro w next reply choice done
  cases reply with
  | ok admitted =>
    cases done
    exact ⟨rfl,by simp,(core run w).2.gated,(core run w).2.refused,(core run w).2.stopSeen,
      (core run w).2.started + 1,by simp [core],id⟩
  | error exc => cases done

theorem act_triple {op : Op} (desktop : Desktop op) :
    Triple (body h run) (observed run) (flowing run o F) (perform op)
      (ending (fun _ => flowing run o F) fun _ => flowing run o F) := by
  cases desktop with
  | tool asked => exact tool_triple asked
  | look => exact look_triple
  | input sent =>
    apply drifting_triple (.input sent)
    intro w next reply choice done
    cases done
    exact .refl h run _
  | dispatch cmd =>
    apply drifting_triple (.dispatch cmd)
    intro w next reply choice done
    simp only [World.effect] at done
    split at done
    · cases done
      exact refocus_drift h run w _ _
    · cases done
      exact .refl h run _

theorem recording_sound (h : Host) (run : RunId) (o : Origin) :
    (recording run o).Sound (body h run) (observed run) (contextOf h run) where
  disarm := by
    refine (drifting_triple .unlinkFlag ?_).relax (fun _ _ reached => reached) fun _ => flowing_broken
    intro w next reply choice done
    cases reply with
    | ok value => cases done; exact disarm_drift h run w
    | error exc => cases done; exact .refl h run _
  mkdir := (tool_triple _).relax (fun _ _ reached => reached) fun _ => flowing_broken
  look := look_triple.relax (fun _ _ reached => reached) fun _ => flowing_broken
  unfocused := fun _ reached => reached
  gate := fun window => by
    refine (gate_triple window).relax ?_ fun _ => flowing_broken
    intro allowed s reached
    cases allowed <;> exact reached
  emit := by
    intro X emits kind payload emittable other
    have plain : (kind == "done") = false := beq_eq_false_iff_ne.mpr other
    have keeps : ∀ F : Bool × Bool × Bool → Prop, Triple (body h run) (observed run) (flowing run o F)
        ((contextOf h run).emit kind payload) (ending (fun _ => flowing run o F) fun _ => broken run o) := by
      intro F
      apply emit_triple emittable
      intro refused stopSeen said marked
      rw [plain,Bool.or_false]
      exact marked
    cases emits <;> exact keeps _
  done := by
    have emittable : Emittable "done" ∅ := ⟨by decide,rfl,rfl,rfl⟩
    show Triple _ _ (flowing run o clean) _ (ending (fun _ => flowing run o (· = (false,false,true))) _)
    apply emit_triple emittable
    intro refused stopSeen said unmarked
    cases unmarked
    rfl
  act := by
    intro op desktop
    refine (act_triple desktop).relax (fun _ _ reached => reached) ?_
    intro exc s reached
    cases exc <;> exact reached
  cleanup := by
    intro tool
    refine (tool_triple tool).mono ?_
    intro result s reached
    cases result <;> exact reached
  check := by
    refine check_triple.relax ?_ fun _ => flowing_broken
    intro stopped s reached
    cases stopped <;> exact reached
  configure := fun tool => (tool_triple tool).relax (fun _ _ reached => reached) fun _ => flowing_broken
  limit := fun kind => (limit_triple kind).relax (fun _ _ reached => reached) fun _ => flowing_broken
  relax := fun _ reached => reached
  fail := flowing_broken
  abandon := flowing_broken

end HyprlandAgent
