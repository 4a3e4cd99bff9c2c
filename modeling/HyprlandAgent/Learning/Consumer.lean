import HyprlandAgent.Consumers.RunTopic
import HyprlandAgent.Memory.Episodic
import HyprlandAgent.Places
import HyprlandAgent.Semaphore
import HyprlandAgent.Transition

-- LearningConsumer: the one subscriber of the runs topic that has each finished run
-- ingested and then reflected upon, two runs at a time.
namespace HyprlandAgent.LearningConsumer
open Coroutine RunExecutor Orchestrator Transition

def maxConcurrent : Nat := 2

structure Finish where
  runId : Json
  outcome : Json

def accept (message : Dict) : Option Finish :=
  if get message "kind" .null != .str "run_finished" then none
  else
    let runId := get message "run_id" .null
    let outcome := get message "outcome" (.str "unknown")
    if !runId.truthy then none else some ⟨runId,outcome⟩

-- A task of `_handle` goes by its place among all that were created. Tasks begin in
-- that order; each ingests as soon as it has the semaphore, so that `sem.entered` are
-- the calls of `ingest`. `heard` is all that came on the queue; `reflected` are the
-- calls of `reflect`, `failed` the tasks whose `ingest` raised.
structure State where
  queue : List Dict := []
  subscribed : Bool := true
  heard : List Dict := []
  tasks : List Finish := []
  begun : Nat := 0
  sem : Semaphore.State Nat := { value := maxConcurrent }
  reflected : List Nat := []
  failed : List Nat := []

inductive Event where
  | publish (message : Dict)
  | close
  | take
  | begin_
  | resume
  | ingested (task : Nat) (returned : Bool)
  | reflected (task : Nat)

def Event.foreign : Event → Bool
  | .publish _ | .close => true
  | _ => false

-- `close` cancels the loop, which unsubscribes; it leaves the handlers alone.
def step (c : State) : Event → Option State
  | .publish message =>
    if c.subscribed then some { c with queue := c.queue ++ [message], heard := c.heard ++ [message] } else some c
  | .close => some { c with subscribed := false }
  | .take =>
    match c.subscribed,c.queue with
    | true,message :: rest => some { c with queue := rest, tasks := c.tasks ++ (accept message).toList }
    | _,_ => none
  | .begin_ =>
    if c.begun < c.tasks.length then some { c with begun := c.begun + 1, sem := c.sem.acquire c.begun } else none
  | .resume => c.sem.resume.map fun sem => { c with sem := sem }
  | .ingested task returned =>
    if task ∈ c.sem.holders ∧ task ∉ c.reflected then
      if returned then some { c with reflected := c.reflected ++ [task] }
      else some { c with failed := c.failed ++ [task], sem := c.sem.release task }
    else none
  | .reflected task =>
    if task ∈ c.sem.holders ∧ task ∈ c.reflected then some { c with sem := c.sem.release task } else none

def system : System State Event := ⟨step⟩

def opened : State := {}

def State.ingests (c : State) : List Finish := c.sem.entered.filterMap fun task => c.tasks[task]?

def State.Settled (c : State) : Prop := ∀ event : Event, event.foreign = false → step c event = none

structure Kept (c : State) : Prop where
  sound : Semaphore.Sound maxConcurrent c.sem
  arrivals : c.sem.arrivals = List.range c.begun
  within : c.begun ≤ c.tasks.length
  accepted : ∃ taken, c.heard = taken ++ c.queue ∧ c.tasks = taken.filterMap accept
  once : (c.reflected ++ c.failed).Nodup
  entered : c.reflected ++ c.failed ⊆ c.sem.entered
  freed : ∀ task ∈ c.failed, task ∉ c.sem.holders
  accounted : ∀ task ∈ c.sem.entered, task ∈ c.sem.holders ∨ task ∈ c.reflected ++ c.failed

variable {c next : State}

theorem kept_opened : Kept opened :=
  ⟨Semaphore.sound_fresh _,rfl,Nat.le_refl _,⟨[],rfl,rfl⟩,List.nodup_nil,List.Subset.refl _,nofun,nofun⟩

namespace Kept

theorem arrivals_nodup (kept : Kept c) : c.sem.arrivals.Nodup := kept.arrivals ▸ List.nodup_range

theorem entered_nodup (kept : Kept c) : c.sem.entered.Nodup := by
  have whole := kept.arrivals_nodup
  rw [Semaphore.State.arrivals,List.append_assoc] at whole
  exact whole.of_append_left

theorem holders_nodup (kept : Kept c) : c.sem.holders.Nodup := kept.sound.held.nodup kept.entered_nodup

theorem fresh {task : Nat} (kept : Kept c) (out : task ∉ c.sem.entered) : task ∉ c.reflected ++ c.failed :=
  fun inside => out (kept.entered inside)

theorem enters {sem : Semaphore.State Nat} {begun : Nat} {i : Nat} (kept : Kept c)
    (sound : Semaphore.Sound maxConcurrent sem) (arrivals : sem.arrivals = List.range begun)
    (within : begun ≤ c.tasks.length) (entered : sem.entered = c.sem.entered ++ [i])
    (holders : sem.holders = c.sem.holders ++ [i]) : Kept { c with begun := begun, sem := sem } := by
  have distinct : sem.entered.Nodup := by
    have whole : sem.arrivals.Nodup := arrivals ▸ List.nodup_range
    rw [Semaphore.State.arrivals,List.append_assoc] at whole
    exact whole.of_append_left
  have out : i ∉ c.sem.entered := by
    rw [entered] at distinct
    exact fun inside => (List.nodup_append.mp distinct).2.2 i inside i (List.mem_singleton_self i) rfl
  refine ⟨sound,arrivals,within,kept.accepted,kept.once,?_,?_,?_⟩
  · rw [entered]
    exact List.subset_append_of_subset_left _ kept.entered
  · intro task inside
    rw [holders]
    intro held
    rcases List.mem_append.mp held with earlier | one
    · exact kept.freed task inside earlier
    · obtain rfl := List.mem_singleton.mp one
      exact kept.fresh out (List.mem_append_right _ inside)
  · intro task inside
    rw [entered] at inside
    rw [holders]
    rcases List.mem_append.mp inside with earlier | one
    · exact (kept.accounted task earlier).imp_left (List.mem_append_left _)
    · exact .inl (List.mem_append_right _ one)

theorem released {task : Nat} {reflected failed : List Nat} (kept : Kept c) (holds : task ∈ c.sem.holders)
    (once : (reflected ++ failed).Nodup) (entered : reflected ++ failed ⊆ c.sem.entered)
    (more : c.reflected ++ c.failed ⊆ reflected ++ failed) (freed : ∀ other ∈ failed, other = task ∨ other ∈ c.failed)
    (counted : task ∈ reflected ++ failed) :
    Kept { c with reflected := reflected, failed := failed, sem := c.sem.release task } := by
  have holders : (c.sem.release task).holders = c.sem.holders.erase task := Semaphore.wakeNext_holders _
  have same : (c.sem.release task).entered = c.sem.entered := Semaphore.wakeNext_entered _
  refine ⟨Semaphore.release_sound kept.sound holds,?_,kept.within,kept.accepted,once,?_,?_,?_⟩
  · exact (Semaphore.release_arrivals _ _).trans kept.arrivals
  · rw [same]
    exact entered
  · intro other inside
    rw [holders]
    rcases freed other inside with rfl | earlier
    · exact kept.holders_nodup.not_mem_erase
    · exact fun held => kept.freed other earlier (List.mem_of_mem_erase held)
  · intro other inside
    rw [same] at inside
    rw [holders]
    by_cases itself : other = task
    · exact .inr (itself ▸ counted)
    · exact (kept.accounted other inside).imp (fun held => (List.mem_erase_of_ne itself).mpr held) fun there => more there

end Kept

theorem step_kept {event : Event} (kept : Kept c) (stepped : step c event = some next) : Kept next := by
  cases event with
  | publish message =>
    simp only [step] at stepped
    split at stepped
    · cases stepped
      obtain ⟨taken,heard,tasks⟩ := kept.accepted
      exact { kept with accepted := ⟨taken,by rw [heard,List.append_assoc],tasks⟩ }
    · cases stepped
      exact kept
  | close =>
    cases stepped
    exact { kept with }
  | take =>
    simp only [step] at stepped
    split at stepped
    · rename_i message rest _ queue
      cases stepped
      obtain ⟨taken,heard,tasks⟩ := kept.accepted
      refine { kept with within := ?_, accepted := ⟨taken ++ [message],?_,?_⟩ }
      · rw [List.length_append]
        exact Nat.le_trans kept.within (Nat.le_add_right _ _)
      · rw [heard,queue,List.append_assoc]
        rfl
      · rw [List.filterMap_append,tasks]
        cases accepted : accept message <;> simp [accepted]
    · cases stepped
  | begin_ =>
    simp only [step] at stepped
    split at stepped
    · rename_i more
      cases stepped
      have sound := Semaphore.acquire_sound (i:=c.begun) kept.sound
      have arrivals : (c.sem.acquire c.begun).arrivals = List.range (c.begun + 1) := by
        rw [Semaphore.acquire_arrivals,kept.arrivals,List.range_succ]
      by_cases locked : c.sem.locked = true
      · have waits : c.sem.acquire c.begun = { c.sem with waiting := c.sem.waiting ++ [c.begun] } := if_pos locked
        rw [waits] at sound arrivals ⊢
        exact { kept with sound := sound, arrivals := arrivals, within := more }
      · have enters : c.sem.acquire c.begun = _ := if_neg locked
        exact kept.enters sound arrivals more (by rw [enters]) (by rw [enters])
    · cases stepped
  | resume =>
    obtain ⟨sem,resumed,rfl⟩ := Option.map_eq_some_iff.mp stepped
    obtain ⟨i,_,_,entered,holders⟩ := Semaphore.resume_cases resumed
    exact kept.enters (Semaphore.resume_sound kept.sound resumed)
      ((Semaphore.resume_arrivals resumed).trans kept.arrivals) kept.within entered holders
  | ingested task returned =>
    simp only [step] at stepped
    split at stepped
    · rename_i able
      obtain ⟨holds,unreflected⟩ := able
      have unfailed : task ∉ c.failed := fun inside => kept.freed task inside holds
      have entered : task ∈ c.sem.entered := kept.sound.held.subset holds
      have out : task ∉ c.reflected ++ c.failed := by
        rw [List.mem_append]
        exact not_or.mpr ⟨unreflected,unfailed⟩
      split at stepped
      · cases stepped
        have moved : (c.reflected ++ [task] ++ c.failed).Perm (task :: (c.reflected ++ c.failed)) := by
          rw [List.append_assoc]
          exact List.perm_middle
        refine { kept with once := ?_, entered := ?_, accounted := ?_ }
        · exact moved.nodup_iff.mpr (List.nodup_cons.mpr ⟨out,kept.once⟩)
        · exact fun other inside => (List.mem_cons.mp (moved.subset inside)).elim (· ▸ entered) (kept.entered ·)
        · exact fun other inside => (kept.accounted other inside).imp_right fun there =>
            moved.symm.subset (List.mem_cons_of_mem _ there)
      · cases stepped
        have last : task ∈ c.reflected ++ (c.failed ++ [task]) := by simp
        refine kept.released holds ?_ ?_ ?_ ?_ last
        · rw [← List.append_assoc]
          exact List.Nodup.append kept.once (List.nodup_singleton task) (List.disjoint_singleton.mpr out)
        · rw [← List.append_assoc]
          exact List.append_subset.mpr ⟨kept.entered,by simpa using entered⟩
        · rw [← List.append_assoc]
          exact List.subset_append_left _ _
        · exact fun other inside => (List.mem_append.mp inside).symm.imp_left List.mem_singleton.mp
    · cases stepped
  | reflected task =>
    simp only [step] at stepped
    split at stepped
    · rename_i able
      cases stepped
      exact kept.released able.1 kept.once kept.entered (List.Subset.refl _) (fun _ inside => .inr inside)
        (List.mem_append_left _ able.2)
    · cases stepped

theorem kept_reachable (reached : Reachable system opened c) : Kept c :=
  reached.invariant kept_opened fun _ _ _ kept _ stepped => step_kept kept stepped

def State.work (c : State) : Nat :=
  5 * c.queue.length + 4 * (c.tasks.length - c.begun) + 3 * (c.sem.woken.length + c.sem.waiting.length) +
    c.sem.holders.length + c.sem.holders.countP (· ∉ c.reflected)

theorem release_work {task : Nat} (holds : task ∈ c.sem.holders) :
    ({ c with sem := c.sem.release task } : State).work < c.work := by
  have one := List.length_erase_of_mem holds
  have some_ : 0 < c.sem.holders.length := List.length_pos_of_mem holds
  have fewer := (List.erase_sublist (a:=task) (l:=c.sem.holders)).countP_le (p:=(decide <| · ∉ c.reflected))
  have holders : (c.sem.release task).holders = c.sem.holders.erase task := Semaphore.wakeNext_holders _
  have queued : (c.sem.release task).woken.length + (c.sem.release task).waiting.length =
      c.sem.woken.length + c.sem.waiting.length := by
    have same := congrArg List.length (Semaphore.release_arrivals c.sem task)
    have entered : (c.sem.release task).entered = c.sem.entered := Semaphore.wakeNext_entered _
    simp only [Semaphore.State.arrivals,List.length_append,entered] at same
    omega
  unfold State.work
  dsimp only
  rw [queued,holders,one]
  omega

theorem enters_work {sem : Semaphore.State Nat} {i : Nat} (holders : sem.holders = c.sem.holders ++ [i]) :
    sem.holders.length + sem.holders.countP (· ∉ c.reflected) ≤
      c.sem.holders.length + c.sem.holders.countP (· ∉ c.reflected) + 2 := by
  have most : [i].countP (· ∉ c.reflected) ≤ 1 := List.countP_le_length
  rw [holders,List.countP_append,List.length_append,List.length_singleton]
  omega

theorem step_work {event : Event} (kept : Kept c) (own : event.foreign = false)
    (stepped : step c event = some next) : next.work < c.work := by
  have within := kept.within
  cases event with
  | publish message => cases own
  | close => cases own
  | take =>
    simp only [step] at stepped
    split at stepped
    · rename_i message rest _ queue
      cases stepped
      have most : (accept message).toList.length ≤ 1 := by cases accept message <;> simp
      simp only [State.work,queue,List.length_append,List.length_cons]
      omega
    · cases stepped
  | begin_ =>
    simp only [step] at stepped
    split at stepped
    · cases stepped
      by_cases locked : c.sem.locked = true
      · have waits : c.sem.acquire c.begun = { c.sem with waiting := c.sem.waiting ++ [c.begun] } := if_pos locked
        simp only [State.work,waits,List.length_append,List.length_singleton]
        omega
      · have enters : c.sem.acquire c.begun = _ := if_neg locked
        have held : (c.sem.acquire c.begun).holders = c.sem.holders ++ [c.begun] := by rw [enters]
        have one := enters_work held
        simp only [State.work]
        rw [enters] at one ⊢
        dsimp only at one ⊢
        omega
    · cases stepped
  | resume =>
    obtain ⟨sem,resumed,rfl⟩ := Option.map_eq_some_iff.mp stepped
    obtain ⟨i,_,_,entered,holders⟩ := Semaphore.resume_cases resumed
    have same := congrArg List.length (Semaphore.resume_arrivals resumed)
    have one := enters_work holders
    simp only [Semaphore.State.arrivals,List.length_append,entered,List.length_singleton] at same
    unfold State.work
    dsimp only
    omega
  | ingested task returned =>
    simp only [step] at stepped
    split at stepped
    · rename_i able
      split at stepped
      · cases stepped
        have first := List.perm_cons_erase able.1
        have later : ((c.sem.holders.erase task).countP (· ∉ c.reflected ++ [task])) ≤
            (c.sem.holders.erase task).countP (· ∉ c.reflected) := by
          refine List.countP_mono_left fun other _ out => ?_
          simp only [decide_eq_true_eq,List.mem_append,not_or] at out ⊢
          exact out.1
        have before := first.countP_eq (decide <| · ∉ c.reflected)
        have after := first.countP_eq (decide <| · ∉ c.reflected ++ [task])
        rw [List.countP_cons_of_pos (by simpa using able.2)] at before
        rw [List.countP_cons_of_neg (by simp)] at after
        simp only [State.work]
        omega
      · cases stepped
        exact release_work able.1
    · cases stepped
  | reflected task =>
    simp only [step] at stepped
    split at stepped
    · rename_i able
      cases stepped
      exact release_work able.1
    · cases stepped

theorem play_work {events : List Event} (kept : Kept c) (own : ∀ event ∈ events, event.foreign = false)
    (played : system.play c events = some next) : events.length ≤ c.work := by
  induction events generalizing c with
  | nil => exact Nat.zero_le _
  | cons event rest ih =>
    obtain ⟨middle,stepped,others⟩ := Option.bind_eq_some_iff.mp played
    have less := step_work kept (own event List.mem_cons_self) stepped
    have few := ih (step_kept kept stepped) (fun other inside => own other (List.mem_cons_of_mem _ inside)) others
    rw [List.length_cons]
    omega

namespace Kept

theorem ingests_prefix (kept : Kept c) : c.ingests <+: c.tasks := by
  have order := kept.arrivals
  rw [Semaphore.State.arrivals,List.append_assoc] at order
  exact Places.pick_prefix kept.within order

theorem tasks_prefix (kept : Kept c) : c.tasks <+: c.heard.filterMap accept := by
  obtain ⟨taken,heard,tasks⟩ := kept.accepted
  rw [heard,tasks,List.filterMap_append]
  exact List.prefix_append _ _

theorem settled (kept : Kept c) (settled : c.Settled) : c.sem.holders = [] ∧
    c.sem.entered = List.range c.tasks.length ∧ (c.subscribed = true → c.queue = []) := by
  have begun : c.begun = c.tasks.length := by
    have stuck : (if c.begun < c.tasks.length then _ else none) = none := settled .begin_ rfl
    by_contra other
    rw [if_pos (Nat.lt_of_le_of_ne kept.within other)] at stuck
    cases stuck
  have woken : c.sem.woken = [] := by
    have stuck := settled .resume rfl
    simp only [step,Option.map_eq_none_iff,Semaphore.State.resume] at stuck
    split at stuck
    · assumption
    · cases stuck
  have unheld : c.sem.holders = [] := by
    refine List.eq_nil_iff_forall_not_mem.mpr fun task holds => ?_
    by_cases reflected : task ∈ c.reflected
    · have stuck := settled (.reflected task) rfl
      simp [step,holds,reflected] at stuck
    · have stuck := settled (.ingested task true) rfl
      simp [step,holds,reflected] at stuck
  have unwaiting : c.sem.waiting = [] := kept.sound.nobody (by decide) unheld woken
  refine ⟨unheld,?_,?_⟩
  · rw [← begun,← kept.arrivals,Semaphore.State.arrivals,woken,unwaiting,List.append_nil,List.append_nil]
  · intro subscribed
    have stuck := settled .take rfl
    cases queue : c.queue with
    | nil => rfl
    | cons message rest => simp [step,subscribed,queue] at stuck

end Kept

structure Learns (c : State) : Prop where
  bounded : c.sem.holders.length ≤ maxConcurrent
  ordered : c.ingests <+: c.heard.filterMap accept
  once : (c.reflected ++ c.failed).Nodup
  after : c.reflected ++ c.failed ⊆ c.sem.entered
  ends : ∀ events next, (∀ event ∈ events, event.foreign = false) → system.play c events = some next →
    events.length ≤ c.work
  settled : c.Settled → c.sem.holders = [] ∧ c.ingests = c.tasks ∧
    (c.reflected ++ c.failed).Perm (List.range c.tasks.length) ∧
    (c.subscribed = true → c.ingests = c.heard.filterMap accept)

namespace Kept

theorem ordered (kept : Kept c) : c.ingests <+: c.heard.filterMap accept := kept.ingests_prefix.trans kept.tasks_prefix

theorem finished (kept : Kept c) (settled : c.Settled) : c.ingests = c.tasks ∧
    (c.reflected ++ c.failed).Perm (List.range c.tasks.length) ∧
    (c.subscribed = true → c.ingests = c.heard.filterMap accept) := by
  obtain ⟨unheld,entered,quiet⟩ := kept.settled settled
  have ingests : c.ingests = c.tasks := by
    rw [State.ingests,entered]
    exact Places.pick_range c.tasks
  refine ⟨ingests,?_,?_⟩
  · refine (List.perm_ext_iff_of_nodup kept.once List.nodup_range).mpr fun task => ?_
    rw [← entered]
    refine ⟨fun inside => kept.entered inside,fun inside => ?_⟩
    refine (kept.accounted task inside).resolve_left ?_
    rw [unheld]
    exact List.not_mem_nil
  · intro subscribed
    obtain ⟨taken,heard,tasks⟩ := kept.accepted
    rw [ingests,heard,quiet subscribed,List.append_nil,tasks]

end Kept

-- Never more than two runs at a time; ingested in the order their ends were announced,
-- none twice and none left out; each reflected upon once, unless its ingestion raised.
theorem learned_in_order (reached : Reachable system opened c) : Learns c := by
  have kept := kept_reachable reached
  exact {
    bounded := kept.sound.within
    ordered := kept.ordered
    once := kept.once
    after := kept.entered
    ends := fun events next own played => play_work kept own played
    settled := fun settled => ⟨(kept.settled settled).1,kept.finished settled⟩ }

theorem learned_in_order_busy : ∃ c, Reachable system opened c ∧ c.sem.waiting = [2] ∧ Learns c := by
  let ends := ["a","b","c"].map fun run => finishedMessage run "t" .completed
  have played : (system.play opened (ends.map .publish ++ [.take,.take,.take,.begin_,.begin_,.begin_])).any
      (fun c => c.sem.waiting == [2]) = true := by decide +kernel
  obtain ⟨c,reached,shown⟩ := System.found played
  exact ⟨c,reached,eq_of_beq shown,learned_in_order reached⟩

def finishOf (run : RunId) (status : RunStatus) : Finish :=
  ⟨.str run,.str (deriveFromStatus status).1.value⟩

variable {h : Host} {run : RunId}

theorem accept_other {message : Dict} {kind : String} (named : kindOf message = some kind)
    (other : kind ≠ "run_finished") : accept message = none := by
  have found : get message "kind" .null = .str kind := by
    unfold kindOf at named
    split at named
    · rename_i found
      obtain rfl := Option.some.inj named
      rw [get,found]
      rfl
    · cases named
  rw [accept,found,if_pos (by simpa using other)]

theorem accept_finished (task : String) (status : RunStatus) :
    accept (finishedMessage run task status) = if run = "" then none else some (finishOf run status) := by
  have kind : get (finishedMessage run task status) "kind" .null = .str "run_finished" := rfl
  have runId : get (finishedMessage run task status) "run_id" .null = .str run := rfl
  have outcome : get (finishedMessage run task status) "outcome" (.str "unknown") =
      .str (deriveFromStatus status).1.value := rfl
  have truthy : (Json.str run).truthy = (run != "") := rfl
  rw [accept,kind,runId,outcome,if_neg (by decide)]
  dsimp only
  rw [truthy]
  by_cases empty : run = "" <;> simp [empty,finishOf]

theorem RunTopic.accepted {o : Origin} {said : List RunEventRecord} {verdict : Option (RunStatus × Dict)}
    {finish : Option RunStatus} {messages : List Dict} (topic : RunTopic run o said verdict finish messages) :
    messages.filterMap accept = if run = "" then [] else (finish.map (finishOf run)).toList := by
  have plain (kind : RunKind) : kind.value ++ "_started" ≠ "run_finished" := by cases kind <;> decide
  have unlike (kind : RunKind) (status : RunStatus) (terminal : status.terminal = true) :
      kind.value ++ "_" ++ status.value ≠ "run_finished" := by
    cases kind <;> cases status <;> revert terminal <;> decide
  have each : List.Forall₂ (fun message accepted => accept message = accepted) messages
      (none :: (List.replicate said.length none ++ ((verdict.map fun _ => none).toList ++
        (finish.map fun status => if run = "" then none else some (finishOf run status)).toList))) := topic.follows
    (accept_other (kindOf_started o run) (plain o.kind))
    (fun event emittable => by
      obtain ⟨kind,named,_⟩ := kindOf_event run emittable
      refine accept_other named ?_
      rintro rfl
      exact event_apart emittable (by decide) (fun action => by cases action <;> decide) named)
    (fun told plain terminal => accept_other (kindOf_verdict plain) (unlike o.kind told.1 terminal))
    (fun status _ => accept_finished o.task status)
  have through : ∀ {messages : List Dict} {results : List (Option Finish)},
      List.Forall₂ (fun message accepted => accept message = accepted) messages results →
        messages.filterMap accept = results.filterMap id := by
    intro messages results each
    induction each with
    | nil => rfl
    | cons same _ ih => simp only [List.filterMap_cons,same,ih,id]
  rw [through each]
  have silent : (List.replicate said.length (none : Option Finish)).filterMap id = [] := by
    induction said.length with
    | zero => rfl
    | succ n ih => exact ih
  rw [List.filterMap_cons_none rfl,List.filterMap_append,silent,List.nil_append,List.filterMap_append]
  cases verdict <;> cases finish <;> by_cases empty : run = "" <;> simp [empty]

def Interleaves (published : RunId → List Dict) (heard : List (RunId × Dict)) : Prop :=
  ∀ run, ((heard.filter (·.1 = run)).map Prod.snd).Sublist (published run)

theorem Interleaves.mem {published : RunId → List Dict} {heard : List (RunId × Dict)}
    (interleaved : Interleaves published heard) {told : RunId × Dict} (inside : told ∈ heard) :
    told.2 ∈ published told.1 :=
  (interleaved told.1).subset (List.mem_map_of_mem (List.mem_filter.mpr ⟨inside,by simp⟩))

theorem count_accepted (messages : List Dict) (runId : Json) : ((messages.filterMap accept).map Finish.runId).count runId =
    messages.countP fun message => (accept message).any (·.runId == runId) := by
  rw [List.count,List.countP_map,List.countP_filterMap]
  refine List.countP_congr fun message _ => ?_
  cases accept message <;> simp

section
variable {stop : Bool} {focused : Option Window} {rules : List AllowRule} {l : Loop effects TaskId World}
  {heard : List (RunId × Dict)}

theorem accepted_from (path : Reached (daemon h) (boot stop focused rules) l) {message : Dict} {finish : Finish}
    (inside : message ∈ (l.world.cells run).published) (accepted : accept message = some finish) :
    run ≠ "" ∧ (l.world.cells run).published.filterMap accept = [finish] ∧
      ∃ o said verdict status, RunTopic run o said verdict (some status) (l.world.cells run).published ∧
        finish = finishOf run status := by
  have there : finish ∈ (l.world.cells run).published.filterMap accept :=
    List.mem_filterMap.mpr ⟨message,inside,accepted⟩
  rcases daemon_runTopic path run with silent | ⟨o,said,verdict,status,topic⟩
  · rw [silent] at inside
    cases inside
  · have whole := RunTopic.accepted topic
    rw [whole] at there
    by_cases empty : run = ""
    · rw [if_pos empty] at there
      cases there
    · rw [if_neg empty] at there whole
      cases status with
      | none => cases there
      | some status =>
        obtain rfl := List.mem_singleton.mp there
        exact ⟨empty,whole,o,said,verdict,status,topic,rfl⟩

theorem accepted_nodup (path : Reached (daemon h) (boot stop focused rules) l)
    (interleaved : Interleaves (fun run => (l.world.cells run).published) heard) :
    (((heard.map Prod.snd).filterMap accept).map Finish.runId).Nodup := by
  have from_ : ∀ told ∈ heard, ∀ finish, accept told.2 = some finish → finish.runId = .str told.1 ∧
      (l.world.cells told.1).published.filterMap accept = [finish] := by
    intro told inside finish accepted
    obtain ⟨_,one,_,_,_,_,_,rfl⟩ := accepted_from path (interleaved.mem inside) accepted
    exact ⟨rfl,one⟩
  refine List.nodup_iff_count_le_one.mpr fun runId => ?_
  by_cases inside : runId ∈ ((heard.map Prod.snd).filterMap accept).map Finish.runId
  · obtain ⟨finish,there,rfl⟩ := List.mem_map.mp inside
    obtain ⟨_,said,accepted⟩ := List.mem_filterMap.mp there
    obtain ⟨first,told,rfl⟩ := List.mem_map.mp said
    obtain ⟨named,one⟩ := from_ first told finish accepted
    -- Whatever else is accepted for the run is on the run's own topic.
    have same : heard.countP (fun told => (accept told.2).any (·.runId == .str first.1)) =
        (heard.filter (·.1 = first.1)).countP (fun told => (accept told.2).any (·.runId == .str first.1)) := by
      rw [List.countP_filter]
      refine List.countP_congr fun other among => ?_
      rw [Bool.and_eq_true,decide_eq_true_eq]
      refine ⟨fun found => ⟨found,?_⟩,And.left⟩
      obtain ⟨finish,accepted,is⟩ := (Option.any_eq_true _ _).mp found
      rw [(from_ other among finish accepted).1] at is
      simpa using is
    have few := (((interleaved first.1).filterMap accept).map Finish.runId).count_le (.str first.1)
    rw [count_accepted,one,List.countP_map] at few
    rw [named,count_accepted,List.countP_map]
    exact same.trans_le (few.trans List.count_le_length)
  · rw [List.count_eq_zero_of_not_mem inside]
    exact Nat.zero_le _

-- Whatever the order in which the topics of the daemon's runs reach the consumer, no run
-- is ingested twice, and only under the outcome of the status it ended with; a consumer
-- that is left to settle has ingested each run whose topic it heard to the end.
theorem finish_learned_once (path : Reached (daemon h) (boot stop focused rules) l)
    (interleaved : Interleaves (fun run => (l.world.cells run).published) heard)
    (reached : Reachable system opened c) (all : c.heard = heard.map Prod.snd) :
    (c.ingests.map Finish.runId).Nodup ∧
      (∀ finish ∈ c.ingests, ∃ run o said verdict status,
        RunTopic run o said verdict (some status) (l.world.cells run).published ∧ finish = finishOf run status) ∧
      (c.Settled → c.subscribed = true → ∀ run o said verdict status, run ≠ "" →
        RunTopic run o said verdict (some status) (l.world.cells run).published →
        (heard.filter (·.1 = run)).map Prod.snd = (l.world.cells run).published →
        finishOf run status ∈ c.ingests) := by
  have kept := kept_reachable reached
  have ordered := kept.ordered
  rw [all] at ordered
  refine ⟨?_,?_,?_⟩
  · exact (ordered.map Finish.runId).sublist.nodup (accepted_nodup path interleaved)
  · intro finish inside
    obtain ⟨_,said,accepted⟩ := List.mem_filterMap.mp (ordered.subset inside)
    obtain ⟨⟨run,_⟩,told,rfl⟩ := List.mem_map.mp said
    obtain ⟨_,_,o,said,verdict,status,topic,same⟩ := accepted_from path (interleaved.mem told) accepted
    exact ⟨run,o,said,verdict,status,topic,same⟩
  · intro settled subscribed run o said verdict status named topic whole
    have whole_ := RunTopic.accepted topic
    rw [if_neg named] at whole_
    have last : finishOf run status ∈ (l.world.cells run).published.filterMap accept := by
      rw [whole_]
      exact List.mem_singleton_self _
    obtain ⟨message,among,accepted⟩ := List.mem_filterMap.mp last
    rw [← whole] at among
    obtain ⟨told,listed,rfl⟩ := List.mem_map.mp among
    rw [(kept.finished settled).2.2 subscribed,all]
    exact List.mem_filterMap.mpr ⟨told.2,List.mem_map_of_mem (List.mem_of_mem_filter listed),accepted⟩

end

theorem step_own {event : Event} (own : event.foreign = false) (stepped : step c event = some next) :
    next.heard = c.heard ∧ next.subscribed = c.subscribed := by
  cases event with
  | publish message => cases own
  | close => cases own
  | resume =>
    obtain ⟨sem,_,rfl⟩ := Option.map_eq_some_iff.mp stepped
    exact ⟨rfl,rfl⟩
  | take | begin_ | ingested | reflected =>
    simp only [step] at stepped
    (repeat' split at stepped) <;> cases stepped <;> exact ⟨rfl,rfl⟩

theorem settles (reached : Reachable system opened c) :
    ∃ last, Reachable system opened last ∧ last.Settled ∧ last.heard = c.heard ∧ last.subscribed = c.subscribed := by
  generalize left : c.work = n
  induction n using Nat.strong_induction_on generalizing c with
  | h n ih =>
    by_cases settled : c.Settled
    · exact ⟨c,reached,settled,rfl,rfl⟩
    · simp only [State.Settled,not_forall] at settled
      obtain ⟨event,own,more⟩ := settled
      obtain ⟨next,stepped⟩ := Option.ne_none_iff_exists'.mp more
      have less := step_work (kept_reachable reached) own stepped
      obtain ⟨last,there,quiet,heard,subscribed⟩ := ih next.work (left ▸ less) (.step reached trivial stepped) rfl
      have same := step_own own stepped
      exact ⟨last,there,quiet,heard.trans same.1,subscribed.trans same.2⟩

theorem hears (messages : List Dict) :
    ∃ c, Reachable system opened c ∧ c.heard = messages ∧ c.subscribed = true := by
  induction messages using List.reverseRecOn with
  | nil => exact ⟨opened,.refl,rfl,rfl⟩
  | append_singleton messages message ih =>
    obtain ⟨c,reached,heard,subscribed⟩ := ih
    have stepped : system.step c (.publish message) =
        some { c with queue := c.queue ++ [message], heard := c.heard ++ [message] } := if_pos subscribed
    refine ⟨{ c with queue := c.queue ++ [message], heard := c.heard ++ [message] },
      .step reached trivial stepped,?_,subscribed⟩
    · rw [← heard]

theorem finish_learned_finished : ∃ l c heard, Reached (daemon plainHost) HyprlandAgent.idle l ∧
    Reachable system opened c ∧ heard = (l.world.cells "r").published.map (("r",·)) ∧ c.ingests.length = 1 ∧
    (c.ingests.map Finish.runId).Nodup ∧
      (∀ finish ∈ c.ingests, ∃ run o said verdict status,
        RunTopic run o said verdict (some status) (l.world.cells run).published ∧ finish = finishOf run status) ∧
      (c.Settled → c.subscribed = true → ∀ run o said verdict status, run ≠ "" →
        RunTopic run o said verdict (some status) (l.world.cells run).published →
        (heard.filter (·.1 = run)).map Prod.snd = (l.world.cells run).published →
        finishOf run status ∈ c.ingests) := by
  have played : (Coroutine.drive (daemon plainHost) HyprlandAgent.idle finalised).any (fun l =>
      ((l.world.cells "r").published.filterMap accept).length == 1) = true := by decide +kernel
  obtain ⟨l,path,shown⟩ := rehearsed played
  obtain ⟨before,reached,heard,subscribed⟩ := hears (l.world.cells "r").published
  obtain ⟨c,there,settled,same,still⟩ := settles reached
  have all : c.heard = ((l.world.cells "r").published.map (("r",·))).map Prod.snd := by
    rw [same,heard,List.map_map]
    exact (List.map_id _).symm
  refine ⟨l,c,_,path,there,rfl,?_,finish_learned_once path ?_ there all⟩
  · rw [((kept_reachable there).finished settled).2.2 (still.trans subscribed),same,heard]
    exact eq_of_beq shown
  · intro run
    by_cases itself : run = "r"
    · subst itself
      simp [List.filter_map,Function.comp_def]
    · simp [List.filter_map,Function.comp_def,Ne.symm itself]

end HyprlandAgent.LearningConsumer
