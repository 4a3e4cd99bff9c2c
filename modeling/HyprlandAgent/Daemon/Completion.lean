import HyprlandAgent.Daemon.Finalisation

-- What it takes to be recorded as completed: in the row, on the topic, or as the
-- success derived from it.
namespace HyprlandAgent
open Coroutine RunExecutor Orchestrator
variable {h : Host} {run : RunId} {w : World} {stop : Bool} {focused : Option Window}
  {rules : List AllowRule} {l : Loop effects TaskId World}

def tellsCompleted (message : Dict) : Bool :=
  kindOf message == some "run_completed" || kindOf message == some "plan_completed" ||
    (isFinish message && statusOf message == some "completed")

inductive RecordedCompleted (cell : Cell) : Prop where
  | stored (row : cell.rows.status = some .completed) : RecordedCompleted cell
  | published {message : Dict} (inside : message ∈ cell.published) (told : tellsCompleted message = true) :
      RecordedCompleted cell
  | derived {row : OutcomeRow} (held : cell.rows.outcome = some row) (source : row.source = .derived)
      (success : row.outcome = .success) : RecordedCompleted cell

section
variable {o : Origin} {event : RunEventRecord} {message : Dict} {status : RunStatus}
  {issued : List RunStatus} {tail extra : List Dict} {decided : Option RunStatus} {cut : Bool}
  {cell : Cell} {past : Ledger}

theorem started_untold (o : Origin) (run : RunId) : tellsCompleted (o.started run) = false := by
  unfold tellsCompleted
  rw [started_open]
  unfold Origin.started startedMessage
  rw [kindOf_plain rfl]
  cases o.kind <;> rfl

theorem event_untold (emittable : Emittable event.kind event.payload) :
    tellsCompleted (messageOf run event) = false := by
  unfold tellsCompleted
  rw [event_open emittable]
  have named : kindOf (messageOf run event) = _ ∨ _ := kindOf_message emittable
  rcases named with own | ⟨action,replaced⟩
  · rw [own]
    have known := emittable.known
    have other : ∀ word, word ∉ eventKinds → (some event.kind == some word) = false := by
      intro word unknown
      simp only [beq_eq_false_iff_ne,ne_eq,Option.some.injEq]
      intro same
      subst same
      exact unknown known
    rw [other _ (by decide),other _ (by decide)]
    rfl
  · rw [replaced]
    cases action <;> rfl

theorem verdict_completed {kind : RunKind} (verdict : Verdict run kind status message)
    (told : tellsCompleted message = true) : status = .completed := by
  have closed := verdict_open verdict
  obtain ⟨payload,rfl,plain⟩ := verdict
  unfold tellsCompleted at told
  rw [closed,kindOf_plain plain] at told
  cases status with
  | completed => rfl
  | _ => cases kind <;> cases told

theorem finished_completed {task : String} (told : tellsCompleted (finishedMessage run task status) = true) :
    status = .completed := by
  cases status with
  | completed => rfl
  | _ =>
    unfold tellsCompleted at told
    rw [finished_status] at told
    unfold finishedMessage at told
    rw [kindOf_plain rfl] at told
    simp [RunStatus.value] at told

theorem derived_success {score : Rat} (derived : (RunOutcome.success,score) = deriveFromStatus status) :
    status = .completed := by
  cases status with
  | completed => rfl
  | _ => cases derived

theorem Closing.completion (records : Closing run o issued (tail ++ extra) decided cut cell past)
    (shape : Tail run o issued tail)
    (ending : ∀ message ∈ extra, ∃ status, issued.getLast? = some status ∧
      message = finishedMessage run o.task status)
    (last : cell.rows.outcome = past.outcomes.getLast?) (recorded : RecordedCompleted cell) :
    .completed ∈ issued := by
  cases recorded with
  | stored row =>
    have follows := records.row
    rw [row] at follows
    cases ends : past.commits.getLast? with
    | none =>
      rw [ends] at follows
      cases follows
    | some status =>
      rw [ends] at follows
      have same : RunStatus.completed = status := Option.some.inj follows
      rw [same]
      exact records.commits status (List.mem_of_getLast? ends)
  | @published message inside told =>
    obtain ⟨said,kept,_,_,published⟩ := records.told
    have stored := kept.trans records.stored
    rw [published,List.mem_append,List.mem_cons,List.mem_append] at inside
    rcases inside with (rfl | among) | verdict | finish
    · rw [started_untold] at told
      cases told
    · obtain ⟨event,emitted,rfl⟩ := List.mem_map.mp among
      rw [event_untold (records.emittable event (stored.subset emitted))] at told
      cases told
    · cases shape with
      | untold => cases verdict
      | @told status only ends announced =>
        obtain rfl := List.mem_singleton.mp verdict
        obtain rfl := verdict_completed announced told
        exact List.mem_of_getLast? ends
    · obtain ⟨status,ends,rfl⟩ := ending message finish
      obtain rfl := finished_completed told
      exact List.mem_of_getLast? ends
  | @derived row held source success =>
    rw [last] at held
    obtain ⟨status,follows,same⟩ := records.derived row (List.mem_of_getLast? held) source
    rw [success] at same
    obtain rfl := derived_success same
    exact List.mem_of_getLast? (records.follows _ follows)

end

theorem opening_unrecorded (only : ∀ row ∈ (w.ledgers run).outcomes, row.source = .explicit)
    (last : (w.cells run).rows.outcome = (w.ledgers run).outcomes.getLast?)
    (row : (w.cells run).rows.status ≠ some .completed)
    (published : ∀ message ∈ (w.cells run).published, tellsCompleted message = false) :
    ¬ RecordedCompleted (w.cells run) := by
  intro recorded
  cases recorded with
  | stored completed => exact row completed
  | published inside told =>
    rw [published _ inside] at told
    cases told
  | derived held source success =>
    rw [last] at held
    rw [only _ (List.mem_of_getLast? held)] at source
    cases source

-- Once a run is recorded as completed, its orchestrator emitted `done` exactly if
-- neither the allowlist nor the kill switch had turned it back.
theorem completed_done_iff (path : Reached (daemon h) (boot stop focused rules) l) (run : RunId)
    (recorded : RecordedCompleted (l.world.cells run)) :
    saidDone (l.world.ledgers run) = true ↔
      (l.world.ledgers run).refused = false ∧ (l.world.ledgers run).stopSeen = false := by
  have last := daemon_lastDecides path run
  cases daemon_chapter path run with
  | opening unbegun state =>
    rcases state with barren | ⟨handed,only⟩
    · refine absurd recorded (opening_unrecorded barren.outcomes last ?_ ?_)
      · intro completed
        have open_ : (l.world.cells run).rows.status.all (· == .running) = true := barren.bare.row
        rw [completed] at open_
        cases open_
      · have silent : (l.world.cells run).published = [] := barren.bare.published
        rw [silent]
        exact fun message inside => absurd inside List.not_mem_nil
    · obtain ⟨kind,task,brainName,brain,startedAt,same⟩ := handed
      refine absurd recorded (opening_unrecorded only.outcomes last ?_ ?_)
      · have row : (l.world.cells run).rows.status = some .running :=
          congrArg (fun state => state.1.rows.status) same
        rw [row]
        decide
      · have silent : (l.world.cells run).published = [startedMessage run kind task brainName] :=
          congrArg (fun state => state.1.published) same
        rw [silent]
        intro message inside
        rw [List.mem_singleton.mp inside]
        exact started_untold ⟨kind,task,brain,brainName⟩ run
  | @running program c o issued tail decided cut live shape records =>
    refine records.completed (records.unfinished.completion shape ?_ last recorded)
    exact fun message inside => absurd inside List.not_mem_nil
  | @ended result finished ended =>
    cases ended with
    | @broken o issued tail status ends shape records =>
      refine records.completed (records.unfinished.completion shape ?_ last recorded)
      exact fun message inside => absurd inside List.not_mem_nil
    | @whole o issued tail status ends shape records outcomes =>
      refine records.completed (records.completion shape ?_ last recorded)
      intro message inside
      exact ⟨status,ends,List.mem_singleton.mp inside⟩

theorem completed_done_rehearsed : ∃ l, Reached (daemon plainHost) idle l ∧
    (saidDone (l.world.ledgers "r") = true ↔
      (l.world.ledgers "r").refused = false ∧ (l.world.ledgers "r").stopSeen = false) := by
  have played : (drive (daemon plainHost) idle finalised).any (fun l =>
      (l.world.cells "r").rows.status == some .completed) = true := by decide +kernel
  obtain ⟨l,path,shown⟩ := rehearsed played
  exact ⟨l,path,completed_done_iff path "r" (.stored (by simpa using shown))⟩

def turnedAway : List Cue := begins .run ++ works 24

theorem refused_completed : ∃ l, Reached (daemon plainHost) (boot false (some vault) []) l ∧
    (l.world.cells "r").rows.status = some .completed ∧
    (∃ message ∈ (l.world.cells "r").published, tellsCompleted message = true) ∧
    (l.world.cells "r").rows.outcome.map OutcomeRow.outcome = some .success ∧
    (l.world.ledgers "r").refused = true ∧ saidDone (l.world.ledgers "r") = false := by
  have played : (drive (daemon plainHost) (boot false (some vault) []) turnedAway).any (fun l =>
      (l.world.cells "r").rows.status == some .completed &&
        ((l.world.cells "r").published.any tellsCompleted &&
          ((l.world.cells "r").rows.outcome.map OutcomeRow.outcome == some .success &&
            ((l.world.ledgers "r").refused && !saidDone (l.world.ledgers "r"))))) = true := by
    decide +kernel
  obtain ⟨l,path,shown⟩ := rehearsed played
  simp only [Bool.and_eq_true,beq_iff_eq,List.any_eq_true,Bool.not_eq_true'] at shown
  exact ⟨l,path,shown⟩

end HyprlandAgent
