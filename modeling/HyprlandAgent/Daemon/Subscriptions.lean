import HyprlandAgent.Daemon.Server

-- The tables of a connection and the bus stay in step.
namespace HyprlandAgent.Server
open Ipc Transition
variable {s next : State} {c : Nat} {topic : Ipc.Topic} {conn : Connection}

structure Sound (topic : Ipc.Topic) (sub : Subscriber) : Prop where
  config : topicConfig topic = some (sub.queue.maxsize,sub.policy)
  connected : sub.disconnected = false

theorem Sound.new {sub : Subscriber} (made : Subscriber.new topic = some sub) : Sound topic sub := by
  obtain ⟨config,found,rfl⟩ := Option.map_eq_some_iff.mp made
  exact ⟨found,rfl⟩

theorem Sound.put {sub : Subscriber} (sound : Sound topic sub) (payload : Dict) :
    Sound topic (sub.putNowait payload) := by
  obtain ⟨config,connected⟩ := sound
  obtain ⟨policy,queue,disconnected⟩ := sub
  cases connected
  cases put : queue.putNowait payload with
  | some grown =>
    have same := Queue.putNowait_some put
    constructor
    · simpa [Subscriber.putNowait,put,same] using config
    · simp [Subscriber.putNowait,put]
  | none =>
    cases policy with
    | dropOldest =>
      have kept : ((Queue.putNowait { queue with items := queue.items.tail } payload).getD
          { queue with items := queue.items.tail }).maxsize = queue.maxsize := by
        cases again : Queue.putNowait { queue with items := queue.items.tail } payload with
        | some grown =>
          rw [Queue.putNowait_some again]
          rfl
        | none => rfl
      constructor
      · simpa [Subscriber.putNowait,put,kept] using config
      · simp [Subscriber.putNowait,put]
    | disconnect =>
      have unbounded : queue.maxsize = 0 := by
        cases topic <;> simp_all [topicConfig]
      simp [Queue.putNowait,Queue.full,unbounded] at put

theorem Sound.runs_put {sub : Subscriber} (sound : Sound .runs sub) (payload : Dict) :
    (sub.putNowait payload).queue.items = sub.queue.items ++ [payload] := by
  obtain ⟨config,connected⟩ := sound
  have unbounded : sub.queue.maxsize = 0 := by
    simp only [topicConfig,Option.some.injEq,Prod.mk.injEq] at config
    exact config.1.symm
  unfold Subscriber.putNowait Queue.putNowait Queue.full
  simp [connected,unbounded]

def Live (conn : Connection) : Prop :=
  ∀ topic task, conn.forwarderTasks topic = some task → task.phase ≠ .finished

structure Linked (s : State) (c : Nat) : Prop where
  registered : ∀ topic, (s.bus.subs topic).filter (fun id => id.owner = c) =
    if (s.conns c).closed then [] else ((s.conns c).subs topic).toList
  own : ∀ topic id, (s.conns c).subs topic = some id →
    id.owner = c ∧ id.serial < (s.conns c).created
  apart : ∀ topic other id, (s.conns c).subs topic = some id → (s.conns c).subs other = some id →
    topic = other
  tasks : (s.conns c).closed = false → ∀ topic,
    ((s.conns c).forwarderTasks topic).map Forwarder.sub = (s.conns c).subs topic
  sound : ∀ topic id, (s.conns c).subs topic = some id → Sound topic (s.bus.objects id)
  live : (s.conns c).stop = false → Live (s.conns c)

-- The voice topic has no configuration, so nothing is ever subscribed to it.
theorem Linked.voice (linked : Linked s c) : (s.conns c).subs .voice = none := by
  cases subscribed : (s.conns c).subs .voice with
  | none => rfl
  | some id => exact absurd (linked.sound .voice id subscribed).config (by simp [topicConfig])

structure Keeps (conn next : Connection) : Prop where
  subs : next.subs = conn.subs
  created : next.created = conn.created
  closed : next.closed = conn.closed
  tasks : ∀ topic, (next.forwarderTasks topic).map Forwarder.sub =
    (conn.forwarderTasks topic).map Forwarder.sub
  live : (conn.stop = false → Live conn) → next.stop = false → Live next

namespace Keeps
variable {middle : Connection}

theorem rfl' : Keeps conn conn := ⟨rfl,rfl,rfl,fun _ => rfl,fun live => live⟩

theorem trans {next : Connection} (one : Keeps conn middle) (two : Keeps middle next) :
    Keeps conn next where
  subs := two.subs.trans one.subs
  created := two.created.trans one.created
  closed := two.closed.trans one.closed
  tasks := fun topic => (two.tasks topic).trans (one.tasks topic)
  live := fun live => two.live (one.live live)

theorem fields {reader : Reader} {outbound : Queue Frame} {writer : Writer} {written : List Frame}
    {stop : Bool} (set : stop = false → conn.stop = false) :
    Keeps conn { conn with
      reader := reader,outbound := outbound,writer := writer,written := written,stop := stop } where
  subs := rfl
  created := rfl
  closed := rfl
  tasks := fun _ => rfl
  live := fun live going => live (set going)

theorem resume : Keeps conn conn.resume := by
  unfold Connection.resume
  split
  · exact fields fun going => going
  · exact fields fun going => going

theorem leave (cause : ParseCause) : Keeps conn (conn.leave cause) := fields fun going => nomatch going

theorem offer (response : ResponseFrame) : Keeps conn (conn.offer response) := by
  unfold Connection.offer
  split
  · exact (fields fun going => going).trans resume
  · exact fields fun going => going

theorem write (frame : Frame) : Keeps conn (conn.write frame) := fields fun going => going

theorem setForwarder (conn : Connection) {sub : SubId} {phase : Forwarding}
    (mine : (conn.forwarderTasks topic).map Forwarder.sub = some sub)
    (going : conn.stop = false → phase ≠ .finished) :
    Keeps conn (conn.setForwarder topic (some ⟨sub,phase⟩)) where
  subs := rfl
  created := rfl
  closed := rfl
  tasks := by
    intro other
    by_cases same : other = topic
    · subst same
      simp [Connection.setForwarder,mine]
    · simp [Connection.setForwarder,Function.update_of_ne same]
  live := by
    intro live still other task found
    by_cases same : other = topic
    · subst same
      simp only [Connection.setForwarder,Function.update_self,Option.some.injEq] at found
      subst found
      exact going still
    · simp only [Connection.setForwarder,Function.update_of_ne same] at found
      exact live still other task found

theorem forward (conn : Connection) {sub : SubId}
    (mine : (conn.forwarderTasks topic).map Forwarder.sub = some sub)
    (disconnected : Bool) : Keeps conn (conn.forward topic sub disconnected) := by
  unfold Connection.forward
  split
  · rename_i stopped
    exact setForwarder _ mine fun going => absurd stopped (by simp [going])
  · split
    · have stopped : Keeps conn { conn with stop := true } := fields fun going => nomatch going
      exact stopped.trans (setForwarder _ mine fun going => nomatch going)
    · exact setForwarder _ mine fun _ => by simp

theorem offerEvent {sub : SubId} (mine : (conn.forwarderTasks topic).map Forwarder.sub = some sub)
    (disconnected : Bool) (payload : Dict) :
    Keeps conn (conn.offerEvent topic sub disconnected payload) := by
  unfold Connection.offerEvent
  split
  · rename_i queue _
    exact (fields fun going => going).trans
      (forward { conn with outbound := queue } mine disconnected)
  · exact setForwarder _ mine fun _ => by simp

end Keeps

theorem Linked.setConn {fresh : Connection} (linked : Linked s c) (keeps : Keeps (s.conns c) fresh) :
    Linked (s.setConn c fresh) c := by
  obtain ⟨registered,own,apart,tasks,sound,live⟩ := linked
  have same : (s.setConn c fresh).conns c = fresh := Function.update_self ..
  constructor
  · rw [same,keeps.closed,keeps.subs]
    exact registered
  · rw [same,keeps.subs,keeps.created]
    exact own
  · rw [same,keeps.subs]
    exact apart
  · rw [same,keeps.closed,keeps.subs]
    intro going topic
    exact (keeps.tasks topic).trans (tasks going topic)
  · rw [same,keeps.subs]
    exact sound
  · rw [same]
    exact keeps.live live

structure Private (c : Nat) (bus next : PubSub) : Prop where
  subs : ∀ other topic, other ≠ c →
    (next.subs topic).filter (fun id => id.owner = other) =
      (bus.subs topic).filter (fun id => id.owner = other)
  objects : ∀ id : SubId, id.owner ≠ c → next.objects id = bus.objects id

namespace Private
variable {bus middle : PubSub}

theorem refl (c : Nat) (bus : PubSub) : Private c bus bus := ⟨fun _ _ _ => rfl,fun _ _ => rfl⟩

theorem trans {next : PubSub} (one : Private c bus middle) (two : Private c middle next) :
    Private c bus next where
  subs := fun other topic apart => (two.subs other topic apart).trans (one.subs other topic apart)
  objects := fun id apart => (two.objects id apart).trans (one.objects id apart)

theorem subscribe {next : PubSub} {serial : Nat}
    (subscribed : bus.subscribe topic ⟨c,serial⟩ = some next) : Private c bus next := by
  obtain ⟨sub,_,rfl⟩ := Option.map_eq_some_iff.mp subscribed
  constructor
  · intro other target apart
    by_cases same : target = topic
    · subst same
      simp [Ne.symm apart]
    · simp [Function.update_of_ne same]
  · intro id apart
    refine Function.update_of_ne ?_ ..
    intro same
    subst same
    exact apart rfl

theorem unsubscribe {id : SubId} (own : id.owner = c) : Private c bus (bus.unsubscribe topic id) := by
  constructor
  · intro other target apart
    by_cases same : target = topic
    · subst same
      simp only [PubSub.unsubscribe,Function.update_self]
      rw [← List.erase_filter,List.erase_of_not_mem]
      intro inside
      have owned := (List.mem_filter.mp inside).2
      exact apart ((of_decide_eq_true owned).symm.trans own)
    · simp [PubSub.unsubscribe,Function.update_of_ne same]
  · intro other _
    rfl

theorem linked {next : State} {other : Nat} (alone : Private c s.bus next.bus)
    (same : next.conns other = s.conns other) (apart : other ≠ c) (linked : Linked s other) :
    Linked next other := by
  obtain ⟨registered,own,separate,tasks,sound,live⟩ := linked
  constructor
  · intro topic
    rw [alone.subs other topic apart,same]
    exact registered topic
  · rw [same]
    exact own
  · rw [same]
    exact separate
  · rw [same]
    exact tasks
  · rw [same]
    intro topic id subscribed
    rw [alone.objects id]
    · exact sound topic id subscribed
    · intro owned
      exact apart ((own topic id subscribed).1.symm.trans owned)
  · rw [same]
    exact live

end Private

structure Moved (c : Nat) (s next : State) : Prop where
  linked : Linked next c
  alone : Private c s.bus next.bus
  others : ∀ other, other ≠ c → next.conns other = s.conns other
  going : (next.conns c).closed = false

theorem Moved.trans {middle : State} (one : Moved c s middle) (two : Moved c middle next) :
    Moved c s next where
  linked := two.linked
  alone := one.alone.trans two.alone
  others := fun other apart => (two.others other apart).trans (one.others other apart)
  going := two.going

theorem Linked.subscribe (linked : Linked s c) (going : (s.conns c).closed = false)
    (subscribed : s.subscribe c topic = some next) : Moved c s next := by
  unfold State.subscribe at subscribed
  simp only at subscribed
  split at subscribed
  · cases subscribed
    exact ⟨linked,.refl c s.bus,fun _ _ => rfl,going⟩
  · rename_i absent
    obtain ⟨bus,placed,rfl⟩ := Option.map_eq_some_iff.mp subscribed
    have alone : Private c s.bus bus := Private.subscribe placed
    obtain ⟨sub,made,rfl⟩ := Option.map_eq_some_iff.mp placed
    refine ⟨?_,alone,fun other apart => Function.update_of_ne apart ..,?_⟩
    · constructor
      · intro other
        have before := linked.registered other
        simp only [Function.update_self,going,Bool.false_eq_true,if_false] at before ⊢
        by_cases same : other = topic
        · subst same
          simp [before,absent]
        · simp only [Function.update_of_ne same]
          exact before
      · intro other id found
        simp only [Function.update_self] at found ⊢
        by_cases same : other = topic
        · subst same
          simp only [Function.update_self,Option.some.injEq] at found
          subst found
          exact ⟨rfl,Nat.lt_succ_self _⟩
        · simp only [Function.update_of_ne same] at found
          have mine := linked.own other id found
          exact ⟨mine.1,Nat.lt_succ_of_lt mine.2⟩
      · have unused (other : Ipc.Topic) (id : SubId) (found : (s.conns c).subs other = some id) :
            id ≠ ⟨c,(s.conns c).created⟩ := by
          intro same
          have older := (linked.own other id found).2
          rw [same] at older
          exact Nat.lt_irrefl _ older
        intro one two id first second
        simp only [Function.update_self] at first second
        by_cases left : one = topic
        · by_cases right : two = topic
          · exact left.trans right.symm
          · subst left
            simp only [Function.update_self,Option.some.injEq,Function.update_of_ne right] at first second
            exact absurd first.symm (unused two id second)
        · by_cases right : two = topic
          · subst right
            simp only [Function.update_self,Option.some.injEq,Function.update_of_ne left] at first second
            exact absurd second.symm (unused one id first)
          · simp only [Function.update_of_ne left,Function.update_of_ne right] at first second
            exact linked.apart one two id first second
      · intro _ other
        simp only [Function.update_self]
        by_cases same : other = topic
        · subst same
          simp
        · simp only [Function.update_of_ne same]
          exact linked.tasks going other
      · intro other id found
        simp only [Function.update_self] at found
        by_cases same : other = topic
        · subst same
          simp only [Function.update_self,Option.some.injEq] at found
          subst found
          simpa using Sound.new made
        · simp only [Function.update_of_ne same] at found
          have older := (linked.own other id found).2
          have unused : id ≠ ⟨c,(s.conns c).created⟩ := by
            intro same
            subst same
            exact Nat.lt_irrefl _ older
          simp only [Function.update_of_ne unused]
          exact linked.sound other id found
      · intro still other task found
        simp only [Function.update_self] at found still
        by_cases same : other = topic
        · subst same
          simp only [Function.update_self,Option.some.injEq] at found
          subst found
          simp
        · simp only [Function.update_of_ne same] at found
          exact linked.live still other task found
    · simp [going]

theorem Linked.unsubscribe (linked : Linked s c) (going : (s.conns c).closed = false)
    (topic : Ipc.Topic) : Moved c s (s.unsubscribe c topic) := by
  unfold State.unsubscribe
  simp only
  split
  · exact ⟨linked,.refl c s.bus,fun _ _ => rfl,going⟩
  · rename_i id present
    have mine := linked.own topic id present
    refine ⟨?_,Private.unsubscribe mine.1,fun other apart => Function.update_of_ne apart ..,?_⟩
    · constructor
      · intro other
        have before := linked.registered other
        simp only [Function.update_self,going,Bool.false_eq_true,if_false,PubSub.unsubscribe] at before ⊢
        by_cases same : other = topic
        · subst same
          simp only [Function.update_self]
          rw [← List.erase_filter,before,present]
          simp
        · simp only [Function.update_of_ne same]
          exact before
      · intro other found present
        simp only [Function.update_self] at present ⊢
        by_cases same : other = topic
        · subst same
          simp at present
        · simp only [Function.update_of_ne same] at present
          exact linked.own other found present
      · intro one two found first second
        simp only [Function.update_self] at first second
        by_cases left : one = topic
        · subst left
          simp at first
        · by_cases right : two = topic
          · subst right
            simp at second
          · simp only [Function.update_of_ne left,Function.update_of_ne right] at first second
            exact linked.apart one two found first second
      · intro _ other
        simp only [Function.update_self]
        by_cases same : other = topic
        · subst same
          simp
        · simp only [Function.update_of_ne same]
          exact linked.tasks going other
      · intro other found present
        simp only [Function.update_self] at present
        by_cases same : other = topic
        · subst same
          simp at present
        · simp only [Function.update_of_ne same] at present
          exact linked.sound other found present
      · intro still other task found
        simp only [Function.update_self] at found still
        by_cases same : other = topic
        · subst same
          simp at found
        · simp only [Function.update_of_ne same] at found
          exact linked.live still other task found
    · simp [going]

theorem Linked.subscribeAll (topics : List Ipc.Topic) (linked : Linked s c)
    (going : (s.conns c).closed = false) : Moved c s (State.subscribeAll c topics s).1 := by
  induction topics generalizing s with
  | nil => exact ⟨linked,.refl c s.bus,fun _ _ => rfl,going⟩
  | cons topic rest ih =>
    unfold State.subscribeAll
    split
    · rename_i middle subscribed
      have first := linked.subscribe going subscribed
      exact first.trans (ih first.linked first.going)
    · exact ⟨linked,.refl c s.bus,fun _ _ => rfl,going⟩

theorem Linked.unsubscribeAll (topics : List Ipc.Topic) (linked : Linked s c)
    (going : (s.conns c).closed = false) :
    Moved c s (topics.foldl (fun s topic => s.unsubscribe c topic) s) := by
  induction topics generalizing s with
  | nil => exact ⟨linked,.refl c s.bus,fun _ _ => rfl,going⟩
  | cons topic rest ih =>
    have first := linked.unsubscribe going topic
    exact first.trans (ih first.linked first.going)

theorem Linked.set {fresh : Connection} (linked : Linked s c) (going : (s.conns c).closed = false)
    (keeps : Keeps (s.conns c) fresh) : Moved c s (s.setConn c fresh) where
  linked := linked.setConn keeps
  alone := .refl c s.bus
  others := fun other apart => Function.update_of_ne apart ..
  going := by
    have same : (s.setConn c fresh).conns c = fresh := Function.update_self ..
    rw [same,keeps.closed]
    exact going

theorem Linked.receive (result : Except ReadFailure Frame) (linked : Linked s c)
    (going : (s.conns c).closed = false) : Moved c s (s.receive c result) := by
  unfold State.receive
  simp only
  split
  · apply linked.set going
    split
    · exact Keeps.leave _
    · exact Keeps.resume
  · exact linked.set going (Keeps.fields fun going => going)
  · exact linked.set going (Keeps.fields fun going => going)
  · rename_i topics
    have all := linked.subscribeAll topics going
    split
    · rename_i middle reached
      rw [reached] at all
      exact all.trans (all.linked.set all.going Keeps.resume)
    · rename_i middle reached
      rw [reached] at all
      exact all.trans (all.linked.set all.going (Keeps.fields fun going => going))
  · rename_i topics
    have all := linked.unsubscribeAll topics going
    exact all.trans (all.linked.set all.going Keeps.resume)
  · exact linked.set going Keeps.resume

theorem release_same (conn : Connection) (bus : PubSub) (keep : SubId → Bool)
    (held : (bus.subs topic).filter keep = (conn.subs topic).toList ∨
      (bus.subs topic).filter keep = []) : ((conn.release bus topic).subs topic).filter keep = [] := by
  unfold Connection.release
  cases subscribed : conn.subs topic with
  | none =>
    rw [subscribed] at held
    exact held.elim id id
  | some id =>
    rw [subscribed] at held
    simp only [PubSub.unsubscribe,Function.update_self]
    rw [← List.erase_filter]
    rcases held with present | absent
    · simp [present]
    · simp [absent]

theorem release_other (conn : Connection) (bus : PubSub) {other : Ipc.Topic} (apart : other ≠ topic) :
    (conn.release bus topic).subs other = bus.subs other := by
  unfold Connection.release
  split
  · exact Function.update_of_ne apart ..
  · rfl

-- The induction is on the topics; one that was released stays so.
theorem foldl_release (conn : Connection) (topics : List Ipc.Topic) (bus : PubSub) (keep : SubId → Bool)
    (held : ∀ topic, (bus.subs topic).filter keep = (conn.subs topic).toList ∨
      (bus.subs topic).filter keep = []) (topic : Ipc.Topic)
    (left : topic ∈ topics ∨ (bus.subs topic).filter keep = []) :
    ((topics.foldl conn.release bus).subs topic).filter keep = [] := by
  induction topics generalizing bus with
  | nil => exact left.resolve_left List.not_mem_nil
  | cons first rest ih =>
    rw [List.foldl_cons]
    have released := release_same conn bus keep (held first)
    apply ih
    · intro other
      by_cases same : other = first
      · subst same
        exact .inr released
      · rw [release_other conn bus same]
        exact held other
    · by_cases same : topic = first
      · subst same
        exact .inr released
      · rw [release_other conn bus same]
        rcases left with listed | gone
        · exact .inl (List.mem_of_ne_of_mem same listed)
        · exact .inr gone

theorem Private.release {bus : PubSub} (own : ∀ id, conn.subs topic = some id → id.owner = c) :
    Private c bus (conn.release bus topic) := by
  unfold Connection.release
  split
  · rename_i id subscribed
    exact Private.unsubscribe (own id subscribed)
  · exact .refl c bus

theorem Private.foldl_release (own : ∀ topic id, conn.subs topic = some id → id.owner = c)
    (topics : List Ipc.Topic) (bus : PubSub) : Private c bus (topics.foldl conn.release bus) := by
  induction topics generalizing bus with
  | nil => exact .refl c bus
  | cons topic rest ih => exact (Private.release (own topic)).trans (ih _)

theorem foldl_release_objects (conn : Connection) (topics : List Ipc.Topic) (bus : PubSub) :
    (topics.foldl conn.release bus).objects = bus.objects := by
  induction topics generalizing bus with
  | nil => rfl
  | cons topic rest ih =>
    rw [List.foldl_cons,ih]
    unfold Connection.release
    split <;> rfl

theorem Linked.teardown (linked : Linked s c) (going : (s.conns c).closed = false) :
    Linked (s.teardown c) c := by
  have after : (s.teardown c).conns c =
      { s.conns c with forwarderTasks := fun _ => none,closed := true } := Function.update_self ..
  constructor
  · intro topic
    rw [after]
    refine foldl_release (s.conns c) Ipc.Topic.all s.bus _ ?_ topic (.inl (Ipc.Topic.mem_all topic))
    intro other
    have before := linked.registered other
    rw [going] at before
    exact .inl before
  · rw [after]
    exact linked.own
  · rw [after]
    exact linked.apart
  · rw [after]
    exact fun open_ => nomatch open_
  · rw [after]
    intro topic id subscribed
    have same : (s.teardown c).bus.objects = s.bus.objects := foldl_release_objects ..
    rw [same]
    exact linked.sound topic id subscribed
  · rw [after]
    exact fun _ _ _ found => nomatch found

theorem Linked.mem {id : SubId} (linked : Linked s id.owner) (registered : id ∈ s.bus.subs topic) :
    (s.conns id.owner).closed = false ∧ (s.conns id.owner).subs topic = some id := by
  have inside : id ∈ (s.bus.subs topic).filter fun other => other.owner = id.owner :=
    List.mem_filter.mpr ⟨registered,by simp⟩
  rw [linked.registered] at inside
  cases going : (s.conns id.owner).closed with
  | true => simp [going] at inside
  | false =>
    simp only [going,Bool.false_eq_true,if_false,Option.mem_toList] at inside
    exact ⟨rfl,inside⟩

theorem Linked.count {id : SubId} (linked : Linked s c) (going : (s.conns c).closed = false)
    (subscribed : (s.conns c).subs topic = some id) : (s.bus.subs topic).count id = 1 := by
  have owned := (linked.own topic id subscribed).1
  have once := List.count_filter (l:=s.bus.subs topic) (a:=id)
    (p:=fun other => decide (other.owner = c)) (by simp [owned])
  rw [linked.registered,going,subscribed] at once
  rw [← once]
  simp

theorem Sound.puts {sub : Subscriber} (sound : Sound topic sub) (payload : Dict) (times : Nat) :
    Sound topic ((fun sub => sub.putNowait payload)^[times] sub) := by
  induction times generalizing sub with
  | zero => exact sound
  | succ times ih => exact ih (sound.put payload)

theorem publish_subs (linked : ∀ c, Linked s c) (topic : Ipc.Topic) (payload : Dict) :
    (s.bus.publish topic payload).subs = s.bus.subs := by
  have none_dead : ((s.bus.subs topic).filter fun id =>
      (((s.bus.subs topic).foldl (fun bus id => bus.deliver payload id) s.bus).objects
        id).disconnected) = [] := by
    apply List.filter_eq_nil_iff.mpr
    intro id registered
    have mine := (linked id.owner).mem registered
    have sound := (linked id.owner).sound topic id mine.2
    rw [PubSub.foldl_deliver_objects,(sound.puts payload _).connected]
    simp
  unfold PubSub.publish
  simp only [none_dead,List.foldl_nil,PubSub.foldl_deliver_subs,Function.update_eq_self]

theorem linked_publish (linked : ∀ c, Linked s c) (topic : Ipc.Topic) (payload : Dict) (c : Nat) :
    Linked { s with bus := s.bus.publish topic payload } c := by
  constructor
  · rw [publish_subs linked]
    exact (linked c).registered
  · exact (linked c).own
  · exact (linked c).apart
  · exact (linked c).tasks
  · intro other id subscribed
    by_cases registered : id ∈ s.bus.subs topic
    · have owned := ((linked c).own other id subscribed).1
      have mine := (linked id.owner).mem registered
      rw [owned] at mine
      have same : topic = other := (linked c).apart topic other id mine.2 subscribed
      subst same
      rw [PubSub.publish_objects]
      exact ((linked c).sound topic id subscribed).puts payload _
    · rw [PubSub.publish_objects,List.count_eq_zero_of_not_mem registered]
      exact (linked c).sound other id subscribed
  · exact (linked c).live

theorem Linked.replace {id : SubId} {sub : Subscriber} (linked : Linked s c)
    (going : (s.conns c).closed = false) (mine : (s.conns c).subs topic = some id)
    (sound : Sound topic sub) :
    Moved c s { s with bus := { s.bus with objects := Function.update s.bus.objects id sub } } where
  linked := by
    refine ⟨linked.registered,linked.own,linked.apart,linked.tasks,?_,linked.live⟩
    intro other found subscribed
    by_cases same : found = id
    · subst same
      have one := linked.apart topic other found mine subscribed
      subst one
      simpa using sound
    · simp only [Function.update_of_ne same]
      exact linked.sound other found subscribed
  alone := by
    refine ⟨fun _ _ _ => rfl,?_⟩
    intro other apart
    refine Function.update_of_ne ?_ ..
    intro same
    subst same
    exact apart (linked.own topic other mine).1
  others := fun _ _ => rfl
  going := going

theorem forwarder_sub {task : Forwarder} (found : conn.forwarderTasks topic = some task) :
    (conn.forwarderTasks topic).map Forwarder.sub = some task.sub := by
  rw [found]
  rfl

theorem Linked.act {what : Act} (linked : Linked s c) (going : (s.conns c).closed = false)
    (serving : what ≠ .tornDown) (acted : Server.act s c what = some next) : Moved c s next := by
  unfold Server.act at acted
  cases what with
  | read result =>
    simp only at acted
    split at acted
    · cases acted
      exact linked.receive result going
    · cases acted
  | handled outcome =>
    simp only at acted
    split at acted
    · cases acted
      exact linked.set going (Keeps.offer _)
    · cases acted
  | responsePut =>
    simp only at acted
    split at acted
    · split at acted
      · cases acted
      · cases acted
        exact linked.set going (Keeps.offer _)
    · cases acted
  | forwarderStarts topic =>
    simp only at acted
    split at acted
    · rename_i sub found
      cases acted
      exact linked.set going (Keeps.forward _ (forwarder_sub found) _)
    · cases acted
  | forwarderGets topic =>
    simp only at acted
    split at acted
    · rename_i sub found
      split at acted
      · rename_i payload queue got
        cases acted
        have mine : (s.conns c).subs topic = some sub :=
          (linked.tasks going topic).symm.trans (forwarder_sub found)
        obtain ⟨config,connected⟩ := linked.sound topic sub mine
        have kept : Sound topic { s.bus.objects sub with queue := queue } :=
          ⟨by rw [(Queue.getNowait_some got).2]; exact config,connected⟩
        have replaced := linked.replace going mine kept
        exact replaced.trans
          (replaced.linked.set replaced.going (Keeps.offerEvent (forwarder_sub found) _ _))
      · cases acted
    · cases acted
  | forwarderPuts topic =>
    simp only at acted
    split at acted
    · rename_i sub payload found
      split at acted
      · cases acted
      · cases acted
        exact linked.set going (Keeps.offerEvent (forwarder_sub found) _ _)
    · cases acted
  | forwarderTimesOut topic =>
    simp only at acted
    split at acted
    · rename_i sub found
      cases acted
      exact linked.set going (Keeps.forward _ (forwarder_sub found) _)
    · cases acted
  | writes =>
    simp only at acted
    split at acted
    · cases acted
      exact linked.set going (Keeps.fields fun going => going)
    · cases acted
  | beats =>
    simp only at acted
    split at acted
    · cases acted
      exact linked.set going (Keeps.write _)
    · cases acted
  | drained =>
    simp only at acted
    split at acted
    · cases acted
      exact linked.set going (Keeps.fields fun going => going)
    · cases acted
  | writeFails =>
    simp only at acted
    split at acted
    · cases acted
      exact linked.set going (Keeps.fields fun going => nomatch going)
    · cases acted
  | tornDown => exact absurd rfl serving

theorem Linked.others {what : Act} (linked : Linked s c) (going : (s.conns c).closed = false)
    (acted : Server.act s c what = some next) :
    Private c s.bus next.bus ∧ ∀ other, other ≠ c → next.conns other = s.conns other := by
  by_cases torn : what = .tornDown
  · subst torn
    simp only [Server.act] at acted
    split at acted
    · cases acted
      refine ⟨Private.foldl_release ?_ Ipc.Topic.all s.bus,
        fun other apart => Function.update_of_ne apart ..⟩
      intro topic id subscribed
      exact (linked.own topic id subscribed).1
    · cases acted
  · have moved := linked.act going torn acted
    exact ⟨moved.alone,moved.others⟩

theorem linked_step {e : Event} (linked : ∀ c, Linked s c) (stepped : step s e = some next)
    (c : Nat) : Linked next c := by
  cases e with
  | publish topic payload =>
    cases stepped
    exact linked_publish linked topic payload c
  | act other what =>
    obtain ⟨going,acted⟩ := step_act stepped
    by_cases same : c = other
    · subst same
      by_cases torn : what = .tornDown
      · subst torn
        simp only [Server.act] at acted
        split at acted
        · cases acted
          exact (linked c).teardown going
        · cases acted
      · exact ((linked c).act going torn acted).linked
    · obtain ⟨alone,others⟩ := (linked other).others going acted
      exact alone.linked (others c same) same (linked c)

theorem linked_start (c : Nat) : Linked start c := by
  constructor
  · intro topic
    rfl
  all_goals intros
  all_goals simp_all [start,Live]

theorem reachable_linked (reached : Reachable system start s) : ∀ c, Linked s c :=
  reached.invariant (P:=fun s => ∀ c, Linked s c) linked_start
    fun _ _ _ linked _ stepped => linked_step linked stepped

end HyprlandAgent.Server
