import HyprlandAgent.Daemon.Frame
import HyprlandAgent.Daemon.Wrapping
import HyprlandAgent.Orchestrator.Outline

-- Every task of the daemon stays within what its kind of task may ask for.
namespace HyprlandAgent
open Coroutine Orchestrator RunExecutor
variable {h : Host} {run : RunId}

theorem Emission.legal {op : Op} (emission : Emission run op) : legal (bodyOf run) op := by
  cases emission with
  | append event => exact ⟨rfl,trivial⟩
  | tell message => exact ⟨rfl,by simp⟩
  | clock => trivial
  | _ => rfl

def anything : Outline Unit where
  fresh := fun _ => True
  before := fun _ => True
  seen := fun _ _ => True
  going := fun _ => True
  checked := fun _ => True
  leaving := fun _ => True
  cut := fun _ => True
  elapsed := fun _ => True
  broken := fun _ => True

theorem anything_triple {P : Unit → Prop} {Q : Except Exc α → Unit → Prop} {p : Async α}
    {allowed : Op → Prop} (all : p.All allowed) (always : ∀ result s, Q result s) :
    Triple (blank effects) (fun op _ => allowed op) P p Q := by
  intro s _
  exact Holds.mono (fun result t _ => always result t) all

theorem anything_sound (h : Host) (run : RunId) : anything.Sound (blank effects) (fun op _ => legal (bodyOf run) op)
    (contextOf h run) := by
  have always : ∀ {α : Type} (result : Except Exc α) (s : Unit),
      ending (S:=effects) (fun (_ : α) (_ : Unit) => True) (fun _ _ => True) result s := by
    intro α result s
    cases result <;> trivial
  have emits : ∀ {X : Unit → Prop} {kind payload}, (∀ s, X s) →
      Triple (blank effects) (fun op _ => legal (bodyOf run) op) X
        ((contextOf h run).emit kind payload) (ending (fun _ => X) fun _ _ => True) := by
    intro X kind payload everywhere
    refine emit_around ?_ kind payload
    intro op emission
    apply anything_triple (.perform emission.legal)
    intro result s
    cases result with
    | ok value => exact everywhere s
    | error exc => trivial
  refine
    { disarm := anything_triple (.perform rfl) always
      mkdir := anything_triple (.perform trivial) always
      look := anything_triple (.perform rfl) always
      unfocused := fun _ _ => trivial
      gate := ?_
      emit := ?_
      done := emits fun _ => trivial
      act := ?_
      cleanup := fun tool => anything_triple (.perform trivial) fun _ _ => trivial
      check := ?_
      configure := fun tool => anything_triple (.perform trivial) always
      limit := fun kind => anything_triple (.perform rfl) always
      relax := fun _ _ => trivial
      fail := fun _ _ => trivial
      abandon := fun _ _ => trivial }
  · intro window
    refine anything_triple (.perform rfl) ?_
    intro result s
    cases result with
    | ok allowed => cases allowed <;> trivial
    | error exc => trivial
  · intro X emitted kind payload _ _
    apply emits
    intro s
    cases emitted <;> trivial
  · intro op desktop
    have allowed : legal (bodyOf run) op := by
      cases desktop <;> trivial
    apply anything_triple (.perform allowed)
    intro result s
    cases result with
    | ok value => trivial
    | error exc => cases exc <;> trivial
  · refine anything_triple (.perform rfl) ?_
    intro result s
    cases result with
    | ok stopped => cases stopped <;> trivial
    | error exc => trivial

theorem orchestrate_legal (kind : RunKind) (task : String) (brain : Brain) :
    (orchestrate h run kind task brain).All (legal (bodyOf run)) := by
  unfold orchestrate
  cases kind with
  | plan =>
    have follows := (anything_sound h run).plan_follows task brain (some h.config) () trivial
    exact Holds.mono (fun _ _ _ => trivial) follows
  | run =>
    have follows := (anything_sound h run).run_follows h task brain (some h.config) () trivial
    exact Holds.mono (fun _ _ _ => trivial) follows

theorem Bookkeeping.legal {op : Op} (books : Bookkeeping run op) : legal (bodyOf run) op := by
  cases books with
  | clock => trivial
  | enter timeout => rfl
  | leave => rfl
  | status terminal error => exact ⟨rfl,terminal⟩
  | metrics durationS => exact ⟨rfl,trivial⟩
  | outcome outcome score => exact ⟨rfl,trivial⟩
  | pop => rfl
  | tell message => exact ⟨rfl,by simp⟩

theorem runTask_legal (kind : RunKind) (task : String) (brain : Brain) :
    (runTask h run kind task brain).All (legal (bodyOf run)) := by
  have allowed : ∀ {op : Op}, legal (bodyOf run) op →
      Triple (blank effects) (fun op _ => legal (bodyOf run) op) (fun _ => True) (perform op)
        (ending (fun _ _ => True) fun _ _ => True) := by
    intro op lawful
    apply anything_triple (.perform lawful)
    intro result s
    cases result <;> trivial
  refine runTask_around (R:=blank effects) (S:=fun _ => True) (E:=fun _ => True) ?_ (allowed trivial)
    (allowed rfl) (fun _ _ => orchestrate_legal kind task brain) () trivial
  intro op books
  exact anything_triple (.perform books.legal) fun _ _ => trivial

theorem submit_legal (kind : RunKind) (task brainName : String) :
    (submit run kind task brainName).All (legal ⟨run,.submit⟩) := by
  apply Prog.All.bind (.perform trivial)
  intro startedAt
  apply Prog.All.bind (.perform ⟨rfl,trivial⟩)
  intro _
  refine Prog.All.bind (.perform rfl) ?_
  intro _
  refine Prog.All.bind (.perform rfl) ?_
  intro brain
  refine Prog.All.bind (.perform rfl) ?_
  intro _
  exact .bind (.perform ⟨rfl,by simp⟩) fun _ => .pure _

theorem feedback_legal (n : Nat) (kind : String) (comment : Option String) :
    (recordFeedback run kind comment).All (legal ⟨run,.feedback n⟩) := by
  unfold recordFeedback
  split
  · exact .raise _
  · apply Prog.All.bind (.perform ⟨rfl,trivial⟩)
    intro feedbackId
    have recorded : (recordOutcome run kind comment).All (legal ⟨run,.feedback n⟩) := by
      unfold recordOutcome
      split
      split
      · exact .perform ⟨rfl,trivial⟩
      · exact .pure ()
    exact .bind recorded fun _ => .pure _

theorem legal_step {l next : Loop effects TaskId World} (lawful : Legal legal l)
    (step : Advance (daemon h) l event next) : Legal legal next := by
  refine running_step ?_ ?_ ?_ lawful step
  · intro i op more reply all
    exact all.next reply
  · intro op i program spawned
    cases op with
    | createTask run kind task brain =>
      cases spawned
      exact runTask_legal kind task brain
    | _ => cases spawned
  · intro kind world phases arrival i program occurred spawns
    cases callback_cases occurred with
    | submit fresh unborn =>
      cases spawns
      exact .bind (submit_legal _ _ _) fun _ => .pure _
    | feedback fresh =>
      cases spawns
      exact .bind (feedback_legal _ _ _) fun _ => .pure _
    | _ => cases spawns

theorem daemon_legal {stop : Bool} {focused : Option Window} {rules : List AllowRule}
    {l : Loop effects TaskId World} (path : Reached (daemon h) (boot stop focused rules) l) :
    Legal legal l := by
  apply path.invariant
  · intro i task present
    cases present
  · intro l event next _ lawful advanced
    exact legal_step lawful (advance_cases advanced)

end HyprlandAgent
