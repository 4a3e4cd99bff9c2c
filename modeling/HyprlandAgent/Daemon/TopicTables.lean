import HyprlandAgent.Daemon.ReadLoop

-- Subscribe and unsubscribe frames: the three tables of a connection after each.
namespace HyprlandAgent.Server
open Ipc Transition
variable {s next : State} {c : Nat} {topic : Ipc.Topic} {conn : Connection}

def Subscribes : Frame → Prop
  | .subscribe _ => True
  | .unsubscribe _ => True
  | _ => False

def mention (topic : Ipc.Topic) (before : Bool) : Frame → Bool
  | .subscribe topics => before || topics.contains topic
  | .unsubscribe topics => before && !topics.contains topic
  | _ => before

def wanted (frames : List Frame) (topic : Ipc.Topic) : Bool := frames.foldl (mention topic) false

-- One registered subscriber and one live forwarder for each wanted topic, and none
-- for any other, on a connection that is served.
structure InStep (s : State) (c : Nat) (frames : List Frame) : Prop where
  serving : (s.conns c).reader = .reading ∧ (s.conns c).stop = false ∧ (s.conns c).closed = false
  held : ∀ topic, wanted frames topic = true → ∃ id phase,
    (s.bus.subs topic).filter (fun id => id.owner = c) = [id] ∧
    (s.conns c).subs topic = some id ∧
    (s.conns c).forwarderTasks topic = some ⟨id,phase⟩ ∧ phase ≠ .finished
  others : ∀ topic, wanted frames topic = false →
    (s.bus.subs topic).filter (fun id => id.owner = c) = [] ∧
    (s.conns c).subs topic = none ∧ (s.conns c).forwarderTasks topic = none

structure Table (conn : Connection) (frames : List Frame) : Prop where
  reader : conn.reader = .reading
  stop : conn.stop = false
  closed : conn.closed = false
  writer : conn.writer.done = false
  subs : ∀ topic, (conn.subs topic).isSome = wanted frames topic

theorem Table.inStep {frames : List Frame} (table : Table (s.conns c) frames) (linked : Linked s c) :
    InStep s c frames := by
  refine ⟨⟨table.reader,table.stop,table.closed⟩,?_,?_⟩
  · intro topic want
    have present := (table.subs topic).trans want
    obtain ⟨id,subscribed⟩ := Option.isSome_iff_exists.mp present
    have tasks := linked.tasks table.closed topic
    rw [subscribed] at tasks
    obtain ⟨task,found,rfl⟩ := Option.map_eq_some_iff.mp tasks
    refine ⟨task.sub,task.phase,?_,subscribed,found,linked.live table.stop topic task found⟩
    rw [linked.registered,table.closed,subscribed]
    rfl
  · intro topic unwanted
    have absent : (s.conns c).subs topic = none := by
      have missing := (table.subs topic).trans unwanted
      simpa using missing
    have tasks := linked.tasks table.closed topic
    rw [absent] at tasks
    refine ⟨?_,absent,Option.map_eq_none_iff.mp tasks⟩
    rw [linked.registered,table.closed,absent]
    rfl

theorem subscribe_isSome {one : Ipc.Topic} (subscribed : s.subscribe c one = some next) (topic : Ipc.Topic) :
    ((next.conns c).subs topic).isSome = (((s.conns c).subs topic).isSome || topic == one) := by
  unfold State.subscribe at subscribed
  simp only at subscribed
  split at subscribed
  · rename_i id present
    cases subscribed
    by_cases same : topic = one
    · subst same
      simp [present]
    · simp [same]
  · obtain ⟨bus,_,rfl⟩ := Option.map_eq_some_iff.mp subscribed
    by_cases same : topic = one
    · subst same
      simp
    · simp [same]

theorem subscribeAll_isSome (topics : List Ipc.Topic) (s : State) (topic : Ipc.Topic)
    (all : (State.subscribeAll c topics s).2 = true) :
    (((State.subscribeAll c topics s).1.conns c).subs topic).isSome =
      (((s.conns c).subs topic).isSome || topics.contains topic) := by
  induction topics generalizing s with
  | nil => simp [State.subscribeAll]
  | cons one rest ih =>
    unfold State.subscribeAll at all ⊢
    split at all
    · rename_i middle subscribed
      rw [ih middle all,subscribe_isSome subscribed,List.contains_cons,Bool.or_assoc]
    · cases all

theorem unsubscribeAll_isSome (topics : List Ipc.Topic) (s : State) (topic : Ipc.Topic) :
    (((topics.foldl (fun s topic => s.unsubscribe c topic) s).conns c).subs topic).isSome =
      (((s.conns c).subs topic).isSome && !topics.contains topic) := by
  induction topics generalizing s with
  | nil => simp
  | cons one rest ih =>
    have first : (((s.unsubscribe c one).conns c).subs topic).isSome =
        (((s.conns c).subs topic).isSome && !(topic == one)) := by
      unfold State.unsubscribe
      simp only
      split
      · rename_i absent
        by_cases same : topic = one
        · subst same
          simp [absent]
        · simp [same]
      · by_cases same : topic = one
        · subst same
          simp
        · simp [same]
    rw [List.foldl_cons,ih,first,List.contains_cons,Bool.not_or,Bool.and_assoc]

theorem Table.resume {front frames : List Frame} {middle : Connection} (table : Table conn front)
    (mute : Mute conn middle) (going : middle.closed = false)
    (subs : ∀ topic, (middle.subs topic).isSome = wanted frames topic) :
    Table middle.resume frames := by
  have stop : middle.stop = false := mute.stop.trans table.stop
  have writer : middle.writer.done = false := by
    cases done : middle.writer.done with
    | false => rfl
    | true =>
      rcases mute.done done with before | stopped
      · exact before.symm.trans table.writer
      · exact stopped.symm.trans table.stop
  unfold Connection.resume
  rw [if_neg (by simp [stop])]
  exact ⟨rfl,stop,going,writer,subs⟩

theorem Table.read {front : List Frame} {frame : Frame} (linked : Linked s c)
    (table : Table (s.conns c) front) (subscribes : Subscribes frame)
    (quiet : ¬Fatal (.ok frame)) :
    Table ((s.receive c (.ok frame)).conns c) (front ++ [frame]) := by
  have wants (topic : Ipc.Topic) :
      wanted (front ++ [frame]) topic = mention topic (wanted front topic) frame := by
    unfold wanted
    rw [List.foldl_concat]
  unfold State.receive
  cases frame with
  | subscribe topics =>
    have all := (linked.subscribeAll_voice topics table.closed).mpr quiet
    have mute := Mute.subscribeAll (c:=c) topics s
    have moved := linked.subscribeAll topics table.closed
    have present := subscribeAll_isSome (c:=c) topics s
    simp only
    split
    · rename_i middle reached
      rw [reached] at mute moved present
      rw [State.setConn_self]
      apply table.resume mute moved.going
      intro topic
      rw [present topic rfl,table.subs,wants]
      rfl
    · rename_i middle reached
      rw [reached] at all
      cases all
  | unsubscribe topics =>
    simp only [State.setConn_self]
    refine table.resume (Mute.unsubscribeAll topics s) (linked.unsubscribeAll topics table.closed).going ?_
    intro topic
    rw [unsubscribeAll_isSome,table.subs,wants]
    rfl
  | _ => exact absurd subscribes id

theorem Table.silent {frames : List Frame} {what : Act} (linked : Linked s c)
    (table : Table (s.conns c) frames) (silent : what.silent = true)
    (acted : act s c what = some next) : Table (next.conns c) frames := by
  have standing : what ≠ .tornDown := by
    intro same
    subst same
    simp [act,table.reader,table.writer,Reader.done] at acted
  obtain ⟨mute,subs⟩ := linked.mute table.closed silent acted
  have moved := linked.act table.closed standing acted
  refine ⟨mute.reader.trans table.reader,mute.stop.trans table.stop,moved.going,?_,?_⟩
  · cases done : (next.conns c).writer.done with
    | false => rfl
    | true =>
      rcases mute.done done with before | stopped
      · exact before.symm.trans table.writer
      · exact stopped.symm.trans table.stop
  · rw [subs]
    exact table.subs

theorem Table.act {frames : List Frame} {what : Act} (linked : Linked s c)
    (table : Table (s.conns c) frames) (unread : what.reads = []) (writable : what ≠ .writeFails)
    (acted : Server.act s c what = some next) : Table (next.conns c) frames := by
  cases what with
  | read result => cases unread
  | handled outcome => simp [Server.act,table.reader] at acted
  | responsePut => simp [Server.act,table.reader] at acted
  | writeFails => exact absurd rfl writable
  | _ => exact table.silent linked rfl acted

theorem table_run {events : List Event} {frames : List Frame}
    (played : system.play start events = some s) (reads : readsOf c events = frames.map .ok)
    (kinds : ∀ frame ∈ frames, Subscribes frame) (writable : .act c .writeFails ∉ events)
    (quiet : ∀ frame ∈ frames, ¬Fatal (.ok frame)) : Table (s.conns c) frames := by
  have all : (∀ c, Linked s c) ∧ ∀ frames, readsOf c events = frames.map .ok →
      (∀ frame ∈ frames, Subscribes frame) → .act c .writeFails ∉ events →
      (∀ frame ∈ frames, ¬Fatal (.ok frame)) → Table (s.conns c) frames := by
    refine System.play_invariant (P:=fun past s => (∀ c, Linked s c) ∧ ∀ frames,
      readsOf c past = frames.map .ok → (∀ frame ∈ frames, Subscribes frame) →
      .act c .writeFails ∉ past → (∀ frame ∈ frames, ¬Fatal (.ok frame)) →
      Table (s.conns c) frames) ?_ ?_ played
    · refine ⟨linked_start,?_⟩
      intro frames reads _ _ _
      cases frames with
      | nil => exact ⟨rfl,rfl,rfl,rfl,fun _ => rfl⟩
      | cons _ _ => cases reads
    · intro past s event next given stepped
      obtain ⟨linked,table⟩ := given
      refine ⟨linked_step linked stepped,?_⟩
      intro frames reads kinds writable quiet
      rw [List.mem_append,not_or] at writable
      rw [readsOf_append] at reads
      cases event with
      | publish topic payload =>
        cases stepped
        rw [show readsOf c [.publish topic payload] = [] from rfl,List.append_nil] at reads
        exact table frames reads kinds writable.1 quiet
      | act other what =>
        obtain ⟨going,acted⟩ := step_act stepped
        rw [readsOf_act] at reads
        by_cases same : other = c
        · subst same
          rw [if_pos rfl] at reads
          by_cases read : ∃ result, what = .read result
          · obtain ⟨result,rfl⟩ := read
            obtain ⟨front,back,rfl,old,new⟩ := List.map_eq_append_iff.mp reads.symm
            obtain ⟨frame,rest,rfl,rfl,empty⟩ := List.map_eq_cons_iff.mp new
            cases List.map_eq_nil_iff.mp empty
            have before := table front old.symm (fun frame inside => kinds frame (List.mem_append_left _ inside))
              writable.1 fun frame inside => quiet frame (List.mem_append_left _ inside)
            simp only [Server.act,before.reader] at acted
            cases acted
            exact before.read (linked other) (kinds frame List.mem_concat_self)
              (quiet frame List.mem_concat_self)
          · have unread : what.reads = [] := by
              cases what with
              | read result => exact absurd ⟨result,rfl⟩ read
              | _ => rfl
            rw [unread,List.append_nil] at reads
            refine (table frames reads kinds writable.1 quiet).act (linked other) unread ?_ acted
            intro same
            subst same
            exact writable.2 List.mem_cons_self
        · rw [if_neg same,List.append_nil] at reads
          have before := table frames reads kinds writable.1 quiet
          rw [((linked other).others going acted).2 c (Ne.symm same)]
          exact before
  exact all.2 frames reads kinds writable quiet

-- The tables are in step after every frame exactly when no frame subscribes to the
-- voice topic; and an ended connection has no subscriber on the bus, however it ended.
theorem tables_in_step_iff (events : List Event) (s : State) (c : Nat) (frames : List Frame)
    (played : system.play start events = some s) (reads : readsOf c events = frames.map .ok)
    (kinds : ∀ frame ∈ frames, Subscribes frame) (writable : .act c .writeFails ∉ events) :
    (InStep s c frames ↔ ∀ topics, .subscribe topics ∈ frames → .voice ∉ topics) ∧
    ∀ ended, Run system anyhow s ended → (ended.conns c).closed = true →
      ∀ topic, (ended.bus.subs topic).filter (fun id => id.owner = c) = [] := by
  have reached := System.play_reachable played
  constructor
  · constructor
    · intro inStep topics listed
      have fate := (reading_run played c).fate
      rw [inStep.serving.1] at fate
      have fine := fate.fine (by simp) (by simp) (.ok (.subscribe topics))
      exact fine (reads ▸ List.mem_map_of_mem listed)
    · intro quiet
      refine (table_run played reads kinds writable ?_).inStep (reachable_linked reached c)
      intro frame inside
      cases frame with
      | subscribe topics => exact quiet topics inside
      | _ => exact fun fatal => fatal
  · intro ended later closed topic
    have linked := reachable_linked (reached.trans later) c
    rw [linked.registered,if_pos closed]

def switching : List Event := [.act 0 (.read (.ok (.subscribe [.runs,.logs,.runs]))),
  .act 0 (.forwarderStarts .logs),.act 0 (.read (.ok (.unsubscribe [.logs])))]

theorem switching_in_step : ∃ s, system.play start switching = some s ∧
    InStep s 0 [.subscribe [.runs,.logs,.runs],.unsubscribe [.logs]] := by
  have played : system.play start switching = some _ := rfl
  refine ⟨_,played,(tables_in_step_iff switching _ 0 [.subscribe [.runs,.logs,.runs],
    .unsubscribe [.logs]] played rfl ?_ ?_).1.mpr ?_⟩
  · intro frame inside
    simp only [List.mem_cons,List.not_mem_nil,or_false] at inside
    rcases inside with rfl | rfl <;> trivial
  · simp [switching]
  · intro topics inside
    simp only [List.mem_cons,List.not_mem_nil,or_false] at inside
    rcases inside with same | other
    · cases same
      decide
    · cases other

theorem voice_unserved :
    ¬∀ (events : List Event) (s : State) (c : Nat) (frames : List Frame),
      system.play start events = some s → readsOf c events = frames.map .ok →
      (∀ frame ∈ frames, Subscribes frame) → .act c .writeFails ∉ events → InStep s c frames := by
  intro always
  have inStep := always [.act 0 (.read (.ok (.subscribe [.voice])))] _ 0 [.subscribe [.voice]] rfl rfl
    (by
      intro frame inside
      rw [List.mem_singleton.mp inside]
      trivial) (by simp)
  cases inStep.serving.1

end HyprlandAgent.Server
