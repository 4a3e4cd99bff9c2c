import HyprlandAgent.Daemon.Completion

-- The topic of a run as the programs that follow it meet it: which messages it may
-- carry, in which order, and how each of them is told from the others.
namespace HyprlandAgent
open Coroutine RunExecutor Orchestrator
variable {h : Host} {run : RunId} {stop : Bool} {focused : Option Window} {rules : List AllowRule}
  {l : Loop effects TaskId World}

def verdictMessage (run : RunId) (kind : RunKind) (verdict : RunStatus × Dict) : Dict :=
  runMessage run (kind.value ++ "_" ++ verdict.1.value) verdict.2

def Origin.messages (o : Origin) (run : RunId) (said : List RunEventRecord)
    (verdict : Option (RunStatus × Dict)) (finish : Option RunStatus) : List Dict :=
  o.started run :: (said.map (messageOf run) ++ ((verdict.map (verdictMessage run o.kind)).toList ++
    (finish.map (finishedMessage run o.task)).toList))

structure RunTopic (run : RunId) (o : Origin) (said : List RunEventRecord)
    (verdict : Option (RunStatus × Dict)) (finish : Option RunStatus) (messages : List Dict) : Prop where
  carried : messages = o.messages run said verdict finish
  emittable : ∀ event ∈ said, Emittable event.kind event.payload
  plain : ∀ told ∈ verdict, told.2.lookup "kind" = none
  settled : ∀ told ∈ verdict, told.1.terminal = true
  closed : ∀ status ∈ finish, status.terminal = true
  agree : ∀ told ∈ verdict, ∀ status ∈ finish, told.1 = status

theorem Tail.verdict {o : Origin} {issued : List RunStatus} {tail : List Dict} (shape : Tail run o issued tail) :
    ∃ verdict : Option (RunStatus × Dict), tail = (verdict.map (verdictMessage run o.kind)).toList ∧
      ∀ told ∈ verdict, told.2.lookup "kind" = none ∧ issued.getLast? = some told.1 := by
  cases shape with
  | untold => exact ⟨none,rfl,fun told impossible => by cases impossible⟩
  | @told status message last verdict =>
    obtain ⟨payload,rfl,plain⟩ := verdict
    refine ⟨some (status,payload),rfl,?_⟩
    intro told same
    cases same
    exact ⟨plain,last⟩

theorem Closing.runTopic {o : Origin} {issued : List RunStatus} {tail : List Dict} {decided : Option RunStatus}
    {cut : Bool} {cell : Cell} {past : Ledger} (finish : Option RunStatus)
    (shape : Tail run o issued tail) (last : ∀ status ∈ finish, issued.getLast? = some status)
    (records : Closing run o issued (tail ++ (finish.map (finishedMessage run o.task)).toList) decided cut cell past) :
    ∃ said verdict, RunTopic run o said verdict finish cell.published := by
  obtain ⟨said,kept,_,_,published⟩ := records.told
  obtain ⟨verdict,rfl,told⟩ := shape.verdict
  have emitted : said <+: past.attempts := kept.trans records.stored
  refine ⟨said,verdict,published.trans (by simp [Origin.messages]),?_,fun each inside => (told each inside).1,
    ?_,?_,?_⟩
  · intro event inside
    exact records.emittable event (emitted.subset inside)
  · intro each inside
    exact records.final each.1 (List.mem_of_getLast? (told each inside).2)
  · intro status inside
    exact records.final status (List.mem_of_getLast? (last status inside))
  · intro each inside status closes
    have one := (told each inside).2
    rw [last status closes] at one
    exact (Option.some.inj one).symm

theorem opened_runTopic (o : Origin) : RunTopic run o [] none none [o.started run] :=
  ⟨rfl,fun _ impossible => absurd impossible List.not_mem_nil,nofun,nofun,nofun,nofun⟩

theorem daemon_runTopic (path : Reached (daemon h) (boot stop focused rules) l) (run : RunId) :
    (l.world.cells run).published = [] ∨
      ∃ o said verdict finish, RunTopic run o said verdict finish (l.world.cells run).published := by
  cases daemon_chapter path run with
  | opening unbegun state =>
    rcases state with barren | ⟨handed,_⟩
    · exact .inl barren.bare.published
    · obtain ⟨kind,task,brainName,brain,startedAt,same⟩ := handed
      have published : (l.world.cells run).published = [startedMessage run kind task brainName] :=
        congrArg (fun state => state.1.published) same
      rw [published]
      exact .inr ⟨_,_,_,_,opened_runTopic ⟨kind,task,brain,brainName⟩⟩
  | @running program c o issued tail decided cut live shape records =>
    obtain ⟨said,verdict,topic⟩ := Closing.runTopic none shape nofun records.unfinished
    exact .inr ⟨o,said,verdict,none,topic⟩
  | @ended result finished ended =>
    cases ended with
    | @broken o issued tail status last shape records =>
      obtain ⟨said,verdict,topic⟩ := Closing.runTopic none shape nofun records.unfinished
      exact .inr ⟨o,said,verdict,none,topic⟩
    | @whole o issued tail status last shape records outcomes =>
      have ends : ∀ final ∈ some status, issued.getLast? = some final := by
        intro final same
        cases same
        exact last
      obtain ⟨said,verdict,topic⟩ := Closing.runTopic (some status) shape ends records
      exact .inr ⟨o,said,verdict,some status,topic⟩

theorem RunTopic.follows {o : Origin} {said : List RunEventRecord} {verdict : Option (RunStatus × Dict)}
    {finish : Option RunStatus} {messages : List Dict} {R : Dict → β → Prop} {first quiet : β}
    {settling : RunStatus × Dict → β} {closing : RunStatus → β}
    (topic : RunTopic run o said verdict finish messages) (started : R (o.started run) first)
    (events : ∀ event : RunEventRecord, Emittable event.kind event.payload → R (messageOf run event) quiet)
    (verdicts : ∀ told : RunStatus × Dict, told.2.lookup "kind" = none → told.1.terminal = true →
      R (verdictMessage run o.kind told) (settling told))
    (finishes : ∀ status : RunStatus, status.terminal = true →
      R (finishedMessage run o.task status) (closing status)) :
    List.Forall₂ R messages (first :: (List.replicate said.length quiet ++
      ((verdict.map settling).toList ++ (finish.map closing).toList))) := by
  have through : List.Forall₂ R (said.map (messageOf run)) (List.replicate said.length quiet) := by
    have emittable := topic.emittable
    clear topic
    induction said with
    | nil => exact .nil
    | cons event rest ih =>
      exact .cons (events event (emittable event List.mem_cons_self))
        (ih fun other inside => emittable other (List.mem_cons_of_mem _ inside))
  have settled : List.Forall₂ R (verdict.map (verdictMessage run o.kind)).toList (verdict.map settling).toList := by
    have plain := topic.plain
    have terminal := topic.settled
    cases verdict with
    | none => exact .nil
    | some told => exact .cons (verdicts told (plain told rfl) (terminal told rfl)) .nil
  have closed : List.Forall₂ R (finish.map (finishedMessage run o.task)).toList (finish.map closing).toList := by
    have terminal := topic.closed
    cases finish with
    | none => exact .nil
    | some status => exact .cons (finishes status (terminal status rfl)) .nil
  rw [topic.carried]
  exact .cons started (List.rel_append through (List.rel_append settled closed))

theorem kindOf_started (o : Origin) (run : RunId) : kindOf (o.started run) = some (o.kind.value ++ "_started") :=
  kindOf_plain rfl

theorem kindOf_verdict {kind : RunKind} {told : RunStatus × Dict} (plain : told.2.lookup "kind" = none) :
    kindOf (verdictMessage run kind told) = some (kind.value ++ "_" ++ told.1.value) :=
  kindOf_plain plain

theorem kindOf_finished (run : RunId) (task : String) (status : RunStatus) :
    kindOf (finishedMessage run task status) = some "run_finished" :=
  kindOf_plain rfl

theorem kindOf_event (run : RunId) {event : RunEventRecord} (emittable : Emittable event.kind event.payload) :
    ∃ kind, kindOf (messageOf run event) = some kind ∧
      (kind ∈ eventKinds ∨ ∃ action : ActionKind, kind = action.value) := by
  have named : kindOf (messageOf run event) = _ ∨ _ := kindOf_message emittable
  rcases named with own | ⟨action,replaced⟩
  · exact ⟨event.kind,own,.inl emittable.known⟩
  · exact ⟨action.value,replaced,.inr ⟨action,rfl⟩⟩

theorem event_apart {event : RunEventRecord} (emittable : Emittable event.kind event.payload) {name : String}
    (unknown : name ∉ eventKinds) (other : ∀ action : ActionKind, name ≠ action.value) :
    kindOf (messageOf run event) ≠ some name := by
  obtain ⟨kind,told,known | ⟨action,rfl⟩⟩ := kindOf_event run emittable
  · intro same
    obtain rfl := Option.some.inj (told.symm.trans same)
    exact unknown known
  · intro same
    exact other action (Option.some.inj (told.symm.trans same)).symm

end HyprlandAgent
