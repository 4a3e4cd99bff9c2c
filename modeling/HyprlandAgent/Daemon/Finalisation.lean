import HyprlandAgent.Daemon.Envelope
import HyprlandAgent.Daemon.OutcomeRow

-- How a run ends: its stored status, its outcome and the message that closes its topic.
namespace HyprlandAgent
open Coroutine RunExecutor Orchestrator
variable {h : Host} {run : RunId} {w : World} {stop : Bool} {focused : Option Window}
  {rules : List AllowRule} {l : Loop effects TaskId World}

def isFinish (message : Dict) : Bool := kindOf message == some "run_finished"

def statusOf (message : Dict) : Option String :=
  match message.lookup "status" with
  | some (.str status) => some status
  | _ => none

-- A terminal status and an outcome are stored, and one message closed the topic
-- under that status.
structure Finalised (run : RunId) (w : World) : Prop where
  outcome : (w.cells run).rows.outcome.isSome = true
  closed : ∃ status message, (w.cells run).rows.status = some status ∧ status.terminal = true ∧
    (w.cells run).published.filter isFinish = [message] ∧ statusOf message = some status.value

section
variable {o : Origin} {event : RunEventRecord} {message : Dict} {status : RunStatus}

theorem status_value_injective {one two : RunStatus} (same : one.value = two.value) : one = two := by
  cases one <;> cases two <;> first | rfl | exact absurd same (by decide)

theorem kindOf_plain {kind : String} {payload : Dict} (plain : payload.lookup "kind" = none) :
    kindOf (runMessage run kind payload) = some kind := by
  have found : (messageOf run ⟨0,0,kind,payload⟩).lookup "kind" = _ := message_lookup "kind"
  unfold kindOf
  rw [show runMessage run kind payload = messageOf run ⟨0,0,kind,payload⟩ from rfl,found,plain]
  rfl

theorem started_open (o : Origin) (run : RunId) : isFinish (o.started run) = false := by
  unfold isFinish Origin.started startedMessage
  rw [kindOf_plain rfl]
  cases o.kind <;> rfl

theorem event_open (emittable : Emittable event.kind event.payload) :
    isFinish (messageOf run event) = false := by
  unfold isFinish
  have told : kindOf (messageOf run event) = _ ∨ _ := kindOf_message emittable
  rcases told with own | ⟨action,replaced⟩
  · rw [own]
    have known := emittable.known
    simp only [beq_eq_false_iff_ne,ne_eq,Option.some.injEq]
    intro finish
    rw [finish] at known
    exact absurd known (by decide)
  · rw [replaced]
    cases action <;> rfl

theorem verdict_open {kind : RunKind} (verdict : Verdict run kind status message) :
    isFinish message = false := by
  obtain ⟨payload,rfl,plain⟩ := verdict
  unfold isFinish
  rw [kindOf_plain plain]
  cases kind <;> cases status <;> rfl

theorem tail_open {issued : List RunStatus} {tail : List Dict} (shape : Tail run o issued tail) :
    tail.filter isFinish = [] := by
  cases shape with
  | untold => rfl
  | told last verdict => rw [List.filter_cons_of_neg (by simp [verdict_open verdict])]; rfl

theorem finished_closes (task : String) (status : RunStatus) :
    isFinish (finishedMessage run task status) = true := by
  unfold isFinish finishedMessage
  rw [kindOf_plain rfl]
  rfl

theorem finished_status (task : String) (status : RunStatus) :
    statusOf (finishedMessage run task status) = some status.value := rfl

theorem Closing.unfinished {issued : List RunStatus} {tail : List Dict} {decided : Option RunStatus}
    {cut : Bool} {cell : Cell} {past : Ledger} (records : Closing run o issued tail decided cut cell past) :
    Closing run o issued (tail ++ []) decided cut cell past := by
  rw [List.append_nil]
  exact records

theorem records_open {issued : List RunStatus} {tail extra : List Dict} {decided : Option RunStatus}
    {cut : Bool} {cell : Cell} {past : Ledger}
    (records : Closing run o issued (tail ++ extra) decided cut cell past) (shape : Tail run o issued tail) :
    cell.published.filter isFinish = extra.filter isFinish := by
  obtain ⟨said,stored,_,_,published⟩ := records.told
  have events : (said.map (messageOf run)).filter isFinish = [] := by
    apply List.filter_eq_nil_iff.mpr
    intro message inside
    obtain ⟨event,told,rfl⟩ := List.mem_map.mp inside
    have emittable := records.emittable event (records.stored.subset (stored.subset told))
    simp [event_open emittable]
  rw [published,List.filter_append,List.filter_append,tail_open shape,
    List.filter_cons_of_neg (by simp [started_open]),events]
  rfl

end

-- When a body that began has ended, its run is finalised exactly when the `finally`
-- block was not broken off and the status write issued last is the one that was
-- committed last.
theorem finalised_iff (path : Reached (daemon h) (boot stop focused rules) l)
    (finished : l.tasks (bodyOf run) = some (.finished result))
    (begun : (l.world.ledgers run).begun = true) :
    Finalised run l.world ↔ (l.world.ledgers run).finallyCut = false ∧
      (l.world.ledgers run).commits.getLast? = (l.world.ledgers run).issued.getLast? := by
  have ended : Ended run l.world := (daemon_records path run).2 result finished begun
  cases ended with
  | @broken o issued tail status last shape records =>
    have cut := records.whole
    constructor
    · intro given
      obtain ⟨_,_,message,_,_,closed,_⟩ := given
      rw [records_open records.unfinished shape] at closed
      cases closed
    · intro given
      obtain ⟨whole,_⟩ := given
      rw [cut] at whole
      cases whole
  | @whole o issued tail status last shape records outcomes =>
    have decided : (l.world.cells run).rows.outcome.isSome = true := by
      rw [daemon_lastDecides path run]
      exact List.getLast?_isSome.mpr outcomes
    have closed : (l.world.cells run).published.filter isFinish = [finishedMessage run o.task status] := by
      rw [records_open records shape,List.filter_cons_of_pos (finished_closes o.task status)]
      rfl
    have terminal := records.final status (List.mem_of_getLast? last)
    have row := records.row
    rw [records.wrote,last]
    constructor
    · intro given
      obtain ⟨_,stored,message,found,_,unique,told⟩ := given
      refine ⟨records.whole,?_⟩
      rw [closed] at unique
      cases unique
      rw [finished_status] at told
      have same : status = stored := status_value_injective (Option.some.inj told)
      rw [row,← same] at found
      cases ends : (l.world.ledgers run).commits.getLast? with
      | none =>
        rw [ends] at found
        have running : RunStatus.running = status := Option.some.inj found
        rw [← running] at terminal
        cases terminal
      | some committed =>
        rw [ends] at found
        exact found
    · intro given
      obtain ⟨_,ends⟩ := given
      rw [ends] at row
      exact ⟨decided,status,_,row,terminal,closed,finished_status o.task status⟩

def finalised : List Cue := begins .run ++ works 51

theorem finalised_rehearsed : ∃ l, Reached (daemon plainHost) idle l ∧
    (Finalised "r" l.world ↔ (l.world.ledgers "r").finallyCut = false ∧
      (l.world.ledgers "r").commits.getLast? = (l.world.ledgers "r").issued.getLast?) := by
  have played : (drive (daemon plainHost) idle finalised).any (fun l =>
      phaseOf (l.tasks (bodyOf "r")) == .finished && (l.world.ledgers "r").begun) = true := by
    decide +kernel
  obtain ⟨l,path,shown⟩ := rehearsed played
  simp only [Bool.and_eq_true,beq_iff_eq] at shown
  obtain ⟨result,finished⟩ := phaseOf_finished shown.1
  exact ⟨l,path,finalised_iff path finished shown.2⟩

-- The run is cancelled at work, and once more while it records that: the row says
-- running for good.
def cancelledTwice : List Cue :=
  begins .run ++ works 12 ++ [calls (.cancel "r"),raises (bodyOf "r") .cancelled .dropped] ++ works 1 ++
    [calls (.cancel "r"),raises (bodyOf "r") .cancelled .dropped] ++ works 5

theorem cancelled_twice : ∃ l result, Reached (daemon plainHost) idle l ∧
    l.tasks (bodyOf "r") = some (.finished result) ∧ (l.world.ledgers "r").begun = true ∧
    ¬ Finalised "r" l.world := by
  have played : (drive (daemon plainHost) idle cancelledTwice).any (fun l =>
      phaseOf (l.tasks (bodyOf "r")) == .finished && (l.world.ledgers "r").begun &&
        (l.world.cells "r").rows.status == some .running) = true := by
    decide +kernel
  obtain ⟨l,path,shown⟩ := rehearsed played
  simp only [Bool.and_eq_true,beq_iff_eq] at shown
  obtain ⟨⟨elapsed,begun⟩,running⟩ := shown
  obtain ⟨result,finished⟩ := phaseOf_finished elapsed
  refine ⟨l,result,path,finished,begun,?_⟩
  intro given
  obtain ⟨_,status,_,stored,terminal,_⟩ := given
  rw [running] at stored
  cases stored
  cases terminal

end HyprlandAgent
