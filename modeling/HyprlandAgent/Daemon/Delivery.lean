import HyprlandAgent.Daemon.Subscriptions

-- The way of a payload from the bus to the client: the subscriber's queue, the
-- forwarder, the outbound queue and the wire.
namespace HyprlandAgent.Server
open Ipc Transition
variable {s next : State} {c : Nat} {topic other : Ipc.Topic} {conn : Connection} {id : SubId}

def carried (topic : Ipc.Topic) (frames : List Frame) : List Dict :=
  frames.filterMap fun
    | .event about payload => if about = topic then some payload else none
    | _ => none

theorem carried_append (topic : Ipc.Topic) (front back : List Frame) :
    carried topic (front ++ back) = carried topic front ++ carried topic back :=
  List.filterMap_append ..

def Connection.forwarded (conn : Connection) (topic : Ipc.Topic) : List Dict :=
  carried topic (conn.written ++ conn.outbound.items)

def Connection.held (conn : Connection) (topic : Ipc.Topic) : List Dict :=
  match conn.forwarderTasks topic with
  | some ⟨_,.holding payload⟩ => [payload]
  | _ => []

def pipeline (s : State) (c : Nat) (topic : Ipc.Topic) (id : SubId) : List Dict :=
  (s.conns c).forwarded topic ++ (s.conns c).held topic ++ (s.bus.objects id).queue.items

structure Calm (topic : Ipc.Topic) (conn next : Connection) : Prop where
  forwarded : next.forwarded topic = conn.forwarded topic
  tasks : next.forwarderTasks topic = conn.forwarderTasks topic

namespace Calm

theorem trans {middle next : Connection} (one : Calm topic conn middle) (two : Calm topic middle next) :
    Calm topic conn next := ⟨two.forwarded.trans one.forwarded,two.tasks.trans one.tasks⟩

theorem held {next : Connection} (calm : Calm topic conn next) : next.held topic = conn.held topic := by
  unfold Connection.held
  rw [calm.tasks]

theorem resume : Calm topic conn conn.resume := by
  unfold Connection.resume
  split <;> exact ⟨rfl,rfl⟩

theorem queued {frame : Frame} {queue : Queue Frame} (put : conn.outbound.putNowait frame = some queue)
    (silent : carried topic [frame] = []) : Calm topic conn { conn with outbound := queue } := by
  refine ⟨?_,rfl⟩
  unfold Connection.forwarded
  rw [Queue.putNowait_some put,← List.append_assoc,carried_append,silent,List.append_nil]

theorem offer (answer : ResponseFrame) : Calm topic conn (conn.offer answer) := by
  unfold Connection.offer
  split
  · rename_i queue put
    exact (queued put rfl).trans resume
  · exact ⟨rfl,rfl⟩

theorem forward (apart : topic ≠ other) (sub : SubId) (disconnected : Bool) :
    Calm topic conn (conn.forward other sub disconnected) := by
  unfold Connection.forward
  repeat' split
  all_goals exact ⟨rfl,Function.update_of_ne apart ..⟩

theorem offerEvent (apart : topic ≠ other) (sub : SubId) (disconnected : Bool) (payload : Dict) :
    Calm topic conn (conn.offerEvent other sub disconnected payload) := by
  unfold Connection.offerEvent
  split
  · rename_i queue put
    refine (queued put ?_).trans (forward apart sub disconnected)
    simp [carried,Ne.symm apart]
  · exact ⟨rfl,Function.update_of_ne apart ..⟩

theorem write_ping : Calm topic conn (conn.write .ping) := by
  refine ⟨?_,rfl⟩
  unfold Connection.forwarded Connection.write
  simp only [carried_append]
  simp [carried]

theorem write_head {frame : Frame} {queue : Queue Frame}
    (got : conn.outbound.getNowait = some (frame,queue)) :
    Calm topic conn ({ conn with outbound := queue }.write frame) := by
  refine ⟨?_,rfl⟩
  unfold Connection.forwarded Connection.write
  rw [(Queue.getNowait_some got).1]
  simp

end Calm

theorem forward_held (conn : Connection) (topic : Ipc.Topic) (sub : SubId) (disconnected : Bool) :
    (conn.forward topic sub disconnected).forwarded topic = conn.forwarded topic ∧
      (conn.forward topic sub disconnected).held topic = [] := by
  unfold Connection.forward Connection.held
  repeat' split
  all_goals simp_all [Connection.setForwarder,Connection.forwarded]

theorem offerEvent_held (conn : Connection) (topic : Ipc.Topic) (sub : SubId) (disconnected : Bool)
    (payload : Dict) :
    (conn.offerEvent topic sub disconnected payload).forwarded topic ++
      (conn.offerEvent topic sub disconnected payload).held topic =
        conn.forwarded topic ++ [payload] := by
  unfold Connection.offerEvent
  split
  · rename_i queue put
    have went := forward_held { conn with outbound := queue } topic sub disconnected
    rw [went.1,went.2,List.append_nil]
    unfold Connection.forwarded
    rw [Queue.putNowait_some put,← List.append_assoc,carried_append]
    simp [carried]
  · simp [Connection.setForwarder,Connection.held,Connection.forwarded]

structure Undisturbed (c : Nat) (topic : Ipc.Topic) (id : SubId) (s next : State) : Prop where
  calm : Calm topic (s.conns c) (next.conns c)
  queue : (next.bus.objects id).queue = (s.bus.objects id).queue

namespace Undisturbed

theorem refl (s : State) : Undisturbed c topic id s s := ⟨⟨rfl,rfl⟩,rfl⟩

theorem trans {middle : State} (one : Undisturbed c topic id s middle)
    (two : Undisturbed c topic id middle next) : Undisturbed c topic id s next :=
  ⟨one.calm.trans two.calm,two.queue.trans one.queue⟩

theorem pipeline (kept : Undisturbed c topic id s next) :
    Server.pipeline next c topic id = Server.pipeline s c topic id := by
  unfold Server.pipeline
  rw [kept.calm.forwarded,kept.calm.held,kept.queue]

theorem set {fresh : Connection} (calm : Calm topic (s.conns c) fresh) :
    Undisturbed c topic id s (s.setConn c fresh) := by
  refine ⟨?_,rfl⟩
  have same : (s.setConn c fresh).conns c = fresh := Function.update_self ..
  rw [same]
  exact calm

theorem subscribe (linked : Linked s c) (mine : (s.conns c).subs topic = some id)
    (subscribed : s.subscribe c other = some next) :
    Undisturbed c topic id s next ∧ (next.conns c).subs topic = some id := by
  unfold State.subscribe at subscribed
  simp only at subscribed
  split at subscribed
  · cases subscribed
    exact ⟨refl s,mine⟩
  · rename_i absent
    obtain ⟨bus,placed,rfl⟩ := Option.map_eq_some_iff.mp subscribed
    obtain ⟨sub,_,rfl⟩ := Option.map_eq_some_iff.mp placed
    have apart : topic ≠ other := by
      intro same
      subst same
      rw [mine] at absent
      cases absent
    have older : id ≠ ⟨c,(s.conns c).created⟩ := by
      intro same
      subst same
      exact Nat.lt_irrefl _ (linked.own topic _ mine).2
    refine ⟨⟨⟨?_,?_⟩,?_⟩,?_⟩
    · simp [Connection.forwarded]
    · simp [Function.update_of_ne apart]
    · simp [Function.update_of_ne older]
    · simp [Function.update_of_ne apart,mine]

theorem subscribeAll (topic : Ipc.Topic) (id : SubId) (topics : List Ipc.Topic) (linked : Linked s c)
    (going : (s.conns c).closed = false) (mine : (s.conns c).subs topic = some id) :
    Undisturbed c topic id s (State.subscribeAll c topics s).1 ∧
      ((State.subscribeAll c topics s).1.conns c).subs topic = some id := by
  induction topics generalizing s with
  | nil => exact ⟨refl s,mine⟩
  | cons first rest ih =>
    unfold State.subscribeAll
    split
    · rename_i middle subscribed
      have kept := subscribe linked mine subscribed
      have moved := linked.subscribe going subscribed
      have later := ih moved.linked moved.going kept.2
      exact ⟨kept.1.trans later.1,later.2⟩
    · exact ⟨refl s,mine⟩

theorem unsubscribe (mine : ((s.unsubscribe c other).conns c).subs topic = some id) :
    Undisturbed c topic id s (s.unsubscribe c other) ∧ (s.conns c).subs topic = some id := by
  unfold State.unsubscribe at mine ⊢
  simp only at mine ⊢
  split
  · rename_i absent
    rw [absent] at mine
    exact ⟨refl s,mine⟩
  · rename_i found present
    rw [present] at mine
    simp only [Function.update_self] at mine
    have apart : topic ≠ other := by
      intro same
      subst same
      simp at mine
    simp only [Function.update_of_ne apart] at mine
    refine ⟨⟨⟨?_,?_⟩,rfl⟩,mine⟩
    · simp [Connection.forwarded]
    · simp [Function.update_of_ne apart]

theorem unsubscribeAll (topics : List Ipc.Topic)
    (mine : ((topics.foldl (fun s topic => s.unsubscribe c topic) s).conns c).subs topic = some id) :
    Undisturbed c topic id s (topics.foldl (fun s topic => s.unsubscribe c topic) s) ∧
      (s.conns c).subs topic = some id := by
  induction topics generalizing s with
  | nil => exact ⟨refl s,mine⟩
  | cons first rest ih =>
    obtain ⟨later,middle⟩ := ih mine
    obtain ⟨now,before⟩ := unsubscribe middle
    exact ⟨now.trans later,before⟩

theorem receive_topics (s : State) (c : Nat) (topics : List Ipc.Topic) (topic : Ipc.Topic) :
    ∃ fresh, s.receive c (.ok (.subscribe topics)) =
        (State.subscribeAll c topics s).1.setConn c fresh ∧
      Calm topic ((State.subscribeAll c topics s).1.conns c) fresh ∧
      Keeps ((State.subscribeAll c topics s).1.conns c) fresh := by
  unfold State.receive
  simp only
  split
  · rename_i middle reached
    rw [reached]
    exact ⟨_,rfl,Calm.resume,Keeps.resume⟩
  · rename_i middle reached
    rw [reached]
    exact ⟨_,rfl,⟨rfl,rfl⟩,Keeps.fields fun going => going⟩

theorem receive (result : Except ReadFailure Frame) (linked : Linked s c)
    (going : (s.conns c).closed = false) (mine : (s.conns c).subs topic = some id)
    (still : ((s.receive c result).conns c).subs topic = some id) :
    Undisturbed c topic id s (s.receive c result) := by
  by_cases subscribing : ∃ topics, result = .ok (.subscribe topics)
  · obtain ⟨topics,rfl⟩ := subscribing
    obtain ⟨fresh,same,calm,_⟩ := receive_topics s c topics topic
    rw [same]
    exact (subscribeAll topic id topics linked going mine).1.trans (set calm)
  unfold State.receive at still ⊢
  simp only at still ⊢
  split
  · apply set
    split
    · exact ⟨rfl,rfl⟩
    · exact Calm.resume
  · exact set ⟨rfl,rfl⟩
  · exact set ⟨rfl,rfl⟩
  · exact absurd ⟨_,rfl⟩ subscribing
  · rename_i topics
    have kept : ((topics.foldl (fun s topic => s.unsubscribe c topic) s).conns c).subs topic =
        some id := by
      simp only [State.setConn,Function.update_self] at still
      rw [← Keeps.resume.subs]
      exact still
    exact (unsubscribeAll topics kept).1.trans (set Calm.resume)
  · exact set Calm.resume

end Undisturbed

theorem pipeline_forward (sub : SubId) (disconnected : Bool) (empty : (s.conns c).held topic = []) :
    pipeline (s.setConn c ((s.conns c).forward topic sub disconnected)) c topic id =
      pipeline s c topic id := by
  have went := forward_held (s.conns c) topic sub disconnected
  unfold pipeline State.setConn
  simp only [Function.update_self]
  rw [went.1,went.2,empty]

theorem pipeline_act {what : Act} (linked : Linked s c) (going : (s.conns c).closed = false)
    (mine : (s.conns c).subs topic = some id) (acted : act s c what = some next)
    (open_ : (next.conns c).closed = false) (still : (next.conns c).subs topic = some id) :
    pipeline next c topic id = pipeline s c topic id := by
  have task (other : Ipc.Topic) (sub : SubId) (phase : Forwarding)
      (found : (s.conns c).forwarderTasks other = some ⟨sub,phase⟩) :
      (s.conns c).subs other = some sub :=
    (linked.tasks going other).symm.trans (forwarder_sub found)
  unfold act at acted
  cases what with
  | read result =>
    simp only at acted
    split at acted
    · cases acted
      exact (Undisturbed.receive result linked going mine still).pipeline
    · cases acted
  | handled outcome =>
    simp only at acted
    split at acted
    · cases acted
      exact (Undisturbed.set (Calm.offer _)).pipeline
    · cases acted
  | responsePut =>
    simp only at acted
    split at acted
    · split at acted
      · cases acted
      · cases acted
        exact (Undisturbed.set (Calm.offer _)).pipeline
    · cases acted
  | forwarderStarts other =>
    simp only at acted
    split at acted
    · rename_i sub found
      cases acted
      by_cases same : topic = other
      · subst same
        apply pipeline_forward sub _
        unfold Connection.held
        rw [found]
      · exact (Undisturbed.set (Calm.forward same _ _)).pipeline
    · cases acted
  | forwarderGets other =>
    simp only at acted
    split at acted
    · rename_i sub found
      split at acted
      · rename_i payload queue got
        cases acted
        by_cases same : topic = other
        · subst same
          have own := task topic sub _ found
          rw [mine] at own
          cases own
          have put := offerEvent_held (s.conns c) topic id (s.bus.objects id).disconnected payload
          have empty : (s.conns c).held topic = [] := by
            unfold Connection.held
            rw [found]
          unfold pipeline
          simp only [Function.update_self]
          rw [put,empty,(Queue.getNowait_some got).1]
          simp
        · have apart : id ≠ sub := by
            intro same
            subst same
            exact same (linked.apart topic other id mine (task other id _ found))
          have calm : Calm topic (s.conns c) _ :=
            Calm.offerEvent same sub (s.bus.objects sub).disconnected payload
          unfold pipeline
          simp only [Function.update_self,Function.update_of_ne apart]
          rw [calm.forwarded,calm.held]
      · cases acted
    · cases acted
  | forwarderPuts other =>
    simp only at acted
    split at acted
    · rename_i sub payload found
      split at acted
      · cases acted
      · cases acted
        by_cases same : topic = other
        · subst same
          have put := offerEvent_held (s.conns c) topic sub (s.bus.objects sub).disconnected payload
          have full : (s.conns c).held topic = [payload] := by
            unfold Connection.held
            rw [found]
          unfold pipeline State.setConn
          simp only [Function.update_self]
          rw [put,full]
        · exact (Undisturbed.set (Calm.offerEvent same _ _ _)).pipeline
    · cases acted
  | forwarderTimesOut other =>
    simp only at acted
    split at acted
    · rename_i sub found
      cases acted
      by_cases same : topic = other
      · subst same
        apply pipeline_forward sub _
        unfold Connection.held
        rw [found]
      · exact (Undisturbed.set (Calm.forward same _ _)).pipeline
    · cases acted
  | writes =>
    simp only at acted
    split at acted
    · rename_i frame queue _ got
      cases acted
      exact (Undisturbed.set (Calm.write_head got)).pipeline
    · cases acted
  | beats =>
    simp only at acted
    split at acted
    · cases acted
      exact (Undisturbed.set Calm.write_ping).pipeline
    · cases acted
  | drained =>
    simp only at acted
    split at acted
    · cases acted
      refine (Undisturbed.set ?_).pipeline
      exact ⟨rfl,rfl⟩
    · cases acted
  | writeFails =>
    simp only at acted
    split at acted
    · cases acted
      refine (Undisturbed.set ?_).pipeline
      exact ⟨rfl,rfl⟩
    · cases acted
  | tornDown =>
    simp only at acted
    split at acted
    · cases acted
      simp [State.teardown] at open_
    · cases acted

def published (topic : Ipc.Topic) : Event → List Dict
  | .publish about payload => if about = topic then [payload] else []
  | .act _ _ => []

def Subscribed (c : Nat) (id : SubId) (s : State) : Prop :=
  (s.conns c).closed = false ∧ (s.conns c).subs .runs = some id

theorem pipeline_step {event : Event} (linked : ∀ c, Linked s c) (before : Subscribed c id s)
    (stepped : step s event = some next) (after : Subscribed c id next) :
    pipeline next c .runs id = pipeline s c .runs id ++ published .runs event := by
  obtain ⟨going,mine⟩ := before
  obtain ⟨open_,still⟩ := after
  cases event with
  | publish topic payload =>
    cases stepped
    unfold pipeline published
    simp only [PubSub.publish_objects]
    by_cases same : topic = .runs
    · subst same
      have sound := (linked c).sound .runs id mine
      rw [(linked c).count going mine,if_pos rfl,Function.iterate_one,sound.runs_put,
        ← List.append_assoc]
    · have absent : id ∉ s.bus.subs topic := by
        intro registered
        have owned := ((linked c).own .runs id mine).1
        have found := ((linked id.owner).mem registered).2
        rw [owned] at found
        exact same ((linked c).apart topic .runs id found mine)
      rw [List.count_eq_zero_of_not_mem absent,if_neg same,List.append_nil]
      rfl
  | act other what =>
    obtain ⟨serving,acted⟩ := step_act stepped
    rw [published,List.append_nil]
    by_cases same : other = c
    · subst same
      exact pipeline_act (linked other) going mine acted open_ still
    · have mineSame : next.conns c = s.conns c ∧ next.bus.objects id = s.bus.objects id := by
        have apart : c ≠ other := fun equal => same equal.symm
        have owned := ((linked c).own .runs id mine).1
        have foreign : id.owner ≠ other := by rw [owned]; exact apart
        obtain ⟨alone,others⟩ := (linked other).others serving acted
        exact ⟨others c apart,alone.objects id foreign⟩
      unfold pipeline
      rw [mineSame.1,mineSame.2]

theorem pipeline_run {events : List Event} (linked : ∀ c, Linked s c)
    (open_ : system.Always (Subscribed c id) s events) (played : system.play s events = some next) :
    pipeline next c .runs id = pipeline s c .runs id ++ events.flatMap (published .runs) := by
  induction events generalizing s with
  | nil =>
    cases played
    simp
  | cons event rest ih =>
    obtain ⟨middle,stepped,others⟩ := Option.bind_eq_some_iff.mp played
    have later := open_.2 middle stepped
    have after : Subscribed c id middle := by
      cases rest with
      | nil => exact later
      | cons _ _ => exact later.1
    have before := pipeline_step linked open_.1 stepped after
    rw [ih (linked_step linked stepped) later others,before,List.flatMap_cons,List.append_assoc]

theorem subscribeAll_fresh (topics : List Ipc.Topic) (linked : Linked s c)
    (going : (s.conns c).closed = false) (absent : (s.conns c).subs topic = none)
    (subscribed : ((State.subscribeAll c topics s).1.conns c).subs topic = some id) :
    pipeline (State.subscribeAll c topics s).1 c topic id = (s.conns c).forwarded topic := by
  induction topics generalizing s with
  | nil =>
    rw [State.subscribeAll,absent] at subscribed
    cases subscribed
  | cons first rest ih =>
    unfold State.subscribeAll at subscribed ⊢
    split at subscribed
    · rename_i middle one
      have moved := linked.subscribe going one
      unfold State.subscribe at one
      simp only at one
      split at one
      · cases one
        exact ih linked going absent subscribed
      · obtain ⟨bus,placed,rfl⟩ := Option.map_eq_some_iff.mp one
        obtain ⟨sub,made,rfl⟩ := Option.map_eq_some_iff.mp placed
        by_cases same : topic = first
        · subst same
          have later := Undisturbed.subscribeAll topic ⟨c,(s.conns c).created⟩ rest
            moved.linked moved.going (by simp)
          have own : id = ⟨c,(s.conns c).created⟩ :=
            Option.some.inj (subscribed.symm.trans later.2)
          rw [own,later.1.pipeline]
          obtain ⟨config,_,rfl⟩ := Option.map_eq_some_iff.mp made
          simp [pipeline,Connection.forwarded,Connection.held]
        · refine (ih moved.linked moved.going ?_ subscribed).trans ?_
          · simp [Function.update_of_ne same,absent]
          · simp [Connection.forwarded]
    · rw [absent] at subscribed
      cases subscribed

-- Since the subscription, and while the connection is open and subscribed: what was
-- written, what waits to be written, what the forwarder holds and what the
-- subscriber's queue holds are the published payloads, after the ones that earlier
-- subscriptions of the connection forwarded.
theorem runs_delivered {before : State} {c : Nat} {topics : List Ipc.Topic} {s next : State} {id : SubId}
    {events : List Event} (reached : Reachable system start before)
    (absent : (before.conns c).subs .runs = none)
    (stepped : system.step before (.act c (.read (.ok (.subscribe topics)))) = some s)
    (open_ : system.Always (Subscribed c id) s events)
    (played : system.play s events = some next) :
    carried .runs (next.conns c).written ++ carried .runs (next.conns c).outbound.items ++
      (next.conns c).held .runs ++ (next.bus.objects id).queue.items =
        carried .runs ((before.conns c).written ++ (before.conns c).outbound.items) ++
          events.flatMap (published .runs) := by
  have linked := reachable_linked reached
  have subscribed : Subscribed c id s := by
    cases events with
    | nil => exact open_
    | cons _ _ => exact open_.1
  have fresh : pipeline s c .runs id = (before.conns c).forwarded .runs := by
    obtain ⟨going,acted⟩ := step_act stepped
    have mine := subscribed.2
    simp only [act] at acted
    split at acted
    · cases acted
      obtain ⟨fresh,same,calm,keeps⟩ := Undisturbed.receive_topics before c topics .runs
      rw [same] at mine ⊢
      simp only [State.setConn,Function.update_self] at mine
      rw [keeps.subs] at mine
      exact (Undisturbed.set calm).pipeline.trans
        (subscribeAll_fresh topics (linked c) going absent mine)
    · cases acted
  have after : ∀ c, Linked s c := linked_step (e:=.act c (.read (.ok (.subscribe topics)))) linked stepped
  have run := pipeline_run after open_ played
  rw [fresh] at run
  rw [← carried_append]
  exact run

def twoRuns : List Event := [.publish .runs (dict [("seq",.int 0)]),.act 0 (.forwarderStarts .runs),
  .act 0 (.forwarderGets .runs),.act 0 .writes,.publish .runs (dict [("seq",.int 1)])]

theorem two_runs_delivered : ∃ next,
    system.play (start.receive 0 (.ok (.subscribe [.runs]))) twoRuns = some next ∧
    carried .runs (next.conns 0).written ++ carried .runs (next.conns 0).outbound.items ++
      (next.conns 0).held .runs ++ (next.bus.objects ⟨0,0⟩).queue.items =
        [dict [("seq",.int 0)],dict [("seq",.int 1)]] := by
  have open_ : system.Always (Subscribed 0 ⟨0,0⟩) (start.receive 0 (.ok (.subscribe [.runs]))) twoRuns :=
    .cons ⟨rfl,rfl⟩ rfl (.cons ⟨rfl,rfl⟩ rfl (.cons ⟨rfl,rfl⟩ rfl (.cons ⟨rfl,rfl⟩ rfl
      (.cons ⟨rfl,rfl⟩ rfl ⟨rfl,rfl⟩))))
  have played : system.play (start.receive 0 (.ok (.subscribe [.runs]))) twoRuns = some _ := rfl
  exact ⟨_,played,runs_delivered .refl rfl rfl open_ played⟩

end HyprlandAgent.Server
