import HyprlandAgent.Daemon.PubSub
import HyprlandAgent.LossyQueue
import HyprlandAgent.Transition

-- The topics whose queues are bounded: what a subscriber of one gets, in every order
-- of subscriptions, publishes and gets.
namespace HyprlandAgent.DropOldest
open Ipc LossyQueue Transition

-- `put_nowait` with what it raises: `none` is a `QueueFull` that gets out of it.
def put (sub : Subscriber) (payload : Dict) : Option Subscriber :=
  if sub.disconnected then some sub
  else
    match sub.queue.putNowait payload,sub.policy with
    | some queue,_ => some { sub with queue := queue }
    | none,.dropOldest =>
      let kept := (sub.queue.getNowait.map Prod.snd).getD sub.queue
      (kept.putNowait payload).map fun queue => { sub with queue := queue }
    | none,.disconnect => some { sub with disconnected := true }

-- The bus, and as history: the topic each subscriber object was made for with how much
-- had been published there, everything published, and what each has received.
structure Feed where
  bus : PubSub
  joined : SubId → Option (Ipc.Topic × Nat) := fun _ => none
  published : Ipc.Topic → List Dict := fun _ => []
  received : SubId → List Dict := fun _ => []

inductive Event where
  | subscribe (topic : Ipc.Topic) (id : SubId)
  | unsubscribe (topic : Ipc.Topic) (id : SubId)
  | publish (topic : Ipc.Topic) (payload : Dict)
  | get (id : SubId)

namespace Feed
variable (s : Feed)

def step : Event → Option Feed
  | .subscribe topic id =>
    if s.joined id = none then (s.bus.subscribe topic id).map fun bus =>
      { s with
        bus := bus
        joined := Function.update s.joined id (some (topic,(s.published topic).length)) }
    else none
  | .unsubscribe topic id => some { s with bus := s.bus.unsubscribe topic id }
  | .publish topic payload =>
    if (s.bus.subs topic).all fun id => (put (s.bus.objects id) payload).isSome then
      some { s with
        bus := s.bus.publish topic payload
        published := Function.update s.published topic (s.published topic ++ [payload]) }
    else none
  | .get id =>
    if s.joined id = none then none
    else (s.bus.objects id).queue.getNowait.map fun got =>
      { s with
        bus := { s.bus with
          objects := Function.update s.bus.objects id { s.bus.objects id with queue := got.2 } }
        received := Function.update s.received id (s.received id ++ [got.1]) }

def queued (id : SubId) : List Dict := (s.bus.objects id).queue.items

def lane (id : SubId) : Lane Dict := ⟨s.received id,s.queued id⟩

def since (topic : Ipc.Topic) (before : Nat) : List Dict := (s.published topic).drop before

end Feed

def feed : System Feed Event := ⟨Feed.step⟩

def start (objects : SubId → Subscriber) : Feed := { bus := ⟨fun _ => [],objects⟩ }

def laneOp (topic : Ipc.Topic) (id : SubId) (registered : Bool) : Event → List (LossyQueue.Op Dict)
  | .publish other payload => if registered ∧ other = topic then [.offer payload] else []
  | .get other => if other = id then [.take] else []
  | _ => []

def publishedOn (topic : Ipc.Topic) (events : List Event) : List Dict :=
  events.filterMap fun
    | .publish other payload => if other = topic then some payload else none
    | _ => none

-- What a registered subscriber of a bounded topic can count on: it receives in order,
-- the newest payload is never the one that is missing, a publish drops the oldest payload
-- of a full queue and nothing else is ever dropped, and without a get the queue is the
-- last there is room for.
structure Delivers (s : Feed) (id : SubId) (topic : Ipc.Topic) (before capacity : Nat) : Prop where
  ordered : (s.received id ++ s.queued id).Sublist (s.since topic before)
  newest : (s.received id ++ s.queued id).getLast? = (s.since topic before).getLast?
  published : ∀ payload, ∃ next, s.step (.publish topic payload) = some next ∧
    next.received id = s.received id ∧ next.queued id =
      (if (s.queued id).length < capacity then s.queued id else (s.queued id).tail) ++ [payload]
  kept : ∀ event next, (∀ payload, event ≠ .publish topic payload) → s.step event = some next →
    next.received id ++ next.queued id = s.received id ++ s.queued id
  recent : ∀ events last, feed.play s events = some last → .get id ∉ events →
    .unsubscribe topic id ∉ events →
    last.queued id = (s.queued id ++ publishedOn topic events).rtake capacity

section
variable {s next : Feed} {event : Event} {id : SubId} {topic : Ipc.Topic} {capacity before : Nat}
  {sub : Subscriber} {payload : Dict}

structure Fits (topic : Ipc.Topic) (sub : Subscriber) : Prop where
  configured : topicConfig topic = some (sub.queue.maxsize,sub.policy)
  connected : sub.disconnected = false
  within : 0 < sub.queue.maxsize → sub.queue.items.length ≤ sub.queue.maxsize

theorem config_room (configured : topicConfig topic = some (capacity,.dropOldest)) : 0 < capacity := by
  cases topic with
  | hyprEvents =>
    cases configured
    decide
  | logs =>
    cases configured
    decide
  | _ => cases configured

theorem config_disconnect (configured : topicConfig topic = some (capacity,.disconnect)) :
    capacity = 0 := by
  cases topic with
  | runs =>
    cases configured
    rfl
  | _ => cases configured

theorem Fits.bound (fits : Fits topic sub) (configured : topicConfig topic = some (capacity,.dropOldest)) :
    sub.queue.maxsize = capacity :=
  congrArg Prod.fst (Option.some.inj (fits.configured.symm.trans configured))

theorem put_room (payload : Dict) (fits : Fits topic sub) (room : sub.queue.full = false) :
    put sub payload = some { sub with queue := { sub.queue with items := sub.queue.items ++ [payload] } } ∧
      sub.putNowait payload =
        { sub with queue := { sub.queue with items := sub.queue.items ++ [payload] } } := by
  simp [put,Subscriber.putNowait,fits.connected,Queue.putNowait,room]

theorem full_dropOldest (fits : Fits topic sub) (full : sub.queue.full = true) :
    sub.policy = .dropOldest ∧ sub.queue.items.length = sub.queue.maxsize := by
  simp only [Queue.full,Bool.and_eq_true,decide_eq_true_eq] at full
  constructor
  · cases policy : sub.policy with
    | dropOldest => rfl
    | disconnect =>
      have none_ := config_disconnect (policy ▸ fits.configured)
      omega
  · exact Nat.le_antisymm (fits.within full.1) full.2

theorem put_full (payload : Dict) (fits : Fits topic sub) (full : sub.queue.full = true) :
    put sub payload =
        some { sub with queue := { sub.queue with items := sub.queue.items.tail ++ [payload] } } ∧
      sub.putNowait payload =
        { sub with queue := { sub.queue with items := sub.queue.items.tail ++ [payload] } } := by
  obtain ⟨policy,filled⟩ := full_dropOldest fits full
  obtain ⟨policy_,⟨maxsize,items⟩,disconnected⟩ := sub
  cases items with
  | nil =>
    simp only [List.length_nil] at filled
    subst filled
    cases full
  | cons first rest =>
    have room : ({ maxsize := maxsize,items := rest } : Queue Dict).full = false := by
      simp only [List.length_cons] at filled
      simp [Queue.full]
      omega
    simp only at policy
    have connected := fits.connected
    simp only at connected
    simp [put,Subscriber.putNowait,connected,policy,Queue.putNowait,Queue.getNowait,full,room]

theorem put_spec (payload : Dict) (fits : Fits topic sub) :
    put sub payload = some (sub.putNowait payload) ∧ Fits topic (sub.putNowait payload) ∧
      (∀ capacity, topicConfig topic = some (capacity,.dropOldest) → ∀ taken,
        (sub.putNowait payload).queue.items =
          (Lane.step capacity ⟨taken,sub.queue.items⟩ (.offer payload)).queued) := by
  cases full : sub.queue.full with
  | false =>
    obtain ⟨put_,kept⟩ := put_room payload fits full
    simp only [Queue.full,Bool.and_eq_false_imp,decide_eq_true_eq,decide_eq_false_iff_not,Nat.not_le] at full
    rw [kept]
    refine ⟨put_,⟨fits.configured,fits.connected,?_⟩,?_⟩
    · intro bounded
      have room := full bounded
      simp only [List.length_append,List.length_singleton]
      omega
    · intro capacity configured taken
      have bound := fits.bound configured
      have bounded : 0 < sub.queue.maxsize := bound ▸ config_room configured
      rw [step_offer,if_pos (bound ▸ full bounded)]
  | true =>
    obtain ⟨put_,kept⟩ := put_full payload fits full
    obtain ⟨_,filled⟩ := full_dropOldest fits full
    rw [kept]
    refine ⟨put_,⟨fits.configured,fits.connected,?_⟩,?_⟩
    · intro bounded
      change 0 < sub.queue.maxsize at bounded
      simp only [List.length_append,List.length_singleton,List.length_tail]
      omega
    · intro capacity configured taken
      rw [step_offer,if_neg (by simp only [filled,fits.bound configured]; omega)]

-- The registered subscribers are the ones that joined and did not leave; what each of
-- them has seen of its topic is an initial part of what was published there since, and
-- all of it while it is registered.
structure Sound (s : Feed) : Prop where
  members : ∀ topic id, id ∈ s.bus.subs topic → ∃ before, s.joined id = some (topic,before)
  once : ∀ topic, (s.bus.subs topic).Nodup
  fits : ∀ id topic before, s.joined id = some (topic,before) →
    before ≤ (s.published topic).length ∧ Fits topic (s.bus.objects id)
  unborn : ∀ id, s.joined id = none → s.received id = []
  lanes : ∀ id topic before capacity, s.joined id = some (topic,before) →
    topicConfig topic = some (capacity,.dropOldest) →
    ∃ ops, s.lane id = Lane.run capacity {} ops ∧ offers ops <+: s.since topic before ∧
      (id ∈ s.bus.subs topic → offers ops = s.since topic before)

theorem publish_member (sound : Sound s) (inside : id ∈ s.bus.subs topic) :
    (s.bus.publish topic payload).objects id = (s.bus.objects id).putNowait payload := by
  rw [PubSub.publish_objects,List.count_eq_one_of_mem (sound.once topic) inside]
  rfl

theorem publish_other (outside : id ∉ s.bus.subs topic) :
    (s.bus.publish topic payload).objects id = s.bus.objects id := by
  rw [PubSub.publish_objects,List.count_eq_zero_of_not_mem outside]
  rfl

theorem publish_subs (sound : Sound s) : (s.bus.publish topic payload).subs = s.bus.subs := by
  have alive : ∀ id ∈ s.bus.subs topic, ((s.bus.publish topic payload).objects id).disconnected = false := by
    intro id inside
    obtain ⟨before,joined⟩ := sound.members topic id inside
    rw [publish_member sound inside]
    exact (put_spec payload (sound.fits id topic before joined).2).2.1.connected
  have none_ : (s.bus.subs topic).filter
      (fun id => ((s.bus.publish topic payload).objects id).disconnected) = [] := by
    rw [List.filter_eq_nil_iff]
    intro id inside
    rw [alive id inside]
    exact Bool.false_ne_true
  unfold PubSub.publish at none_ ⊢
  simp only [PubSub.foldl_deliver_subs] at none_ ⊢
  rw [none_]
  exact Function.update_eq_self topic s.bus.subs

theorem step_publish (sound : Sound s) : s.step (.publish topic payload) = some
    { s with
      bus := s.bus.publish topic payload
      published := Function.update s.published topic (s.published topic ++ [payload]) } := by
  simp only [Feed.step]
  rw [if_pos]
  rw [List.all_eq_true]
  intro id inside
  obtain ⟨before,joined⟩ := sound.members topic id inside
  rw [(put_spec payload (sound.fits id topic before joined).2).1]
  rfl

inductive Step (s : Feed) : Event → Feed → Prop where
  | subscribe {topic : Ipc.Topic} {id : SubId} {fresh : Subscriber} : s.joined id = none →
      Subscriber.new topic = some fresh →
      Step s (.subscribe topic id)
        { s with
          bus :=
            { subs := Function.update s.bus.subs topic (s.bus.subs topic ++ [id])
              objects := Function.update s.bus.objects id fresh }
          joined := Function.update s.joined id (some (topic,(s.published topic).length)) }
  | unsubscribe {topic : Ipc.Topic} {id : SubId} :
      Step s (.unsubscribe topic id) { s with bus := s.bus.unsubscribe topic id }
  | publish {topic : Ipc.Topic} {payload : Dict} :
      Step s (.publish topic payload)
        { s with
          bus := s.bus.publish topic payload
          published := Function.update s.published topic (s.published topic ++ [payload]) }
  | get {id : SubId} {payload : Dict} {rest : Queue Dict} : s.joined id ≠ none →
      (s.bus.objects id).queue.getNowait = some (payload,rest) →
      Step s (.get id)
        { s with
          bus := { s.bus with
            objects := Function.update s.bus.objects id { s.bus.objects id with queue := rest } }
          received := Function.update s.received id (s.received id ++ [payload]) }

theorem step_cases (stepped : s.step event = some next) : Step s event next := by
  cases event with
  | subscribe topic id =>
    simp only [Feed.step] at stepped
    split at stepped
    · rename_i absent
      obtain ⟨bus,subscribed,rfl⟩ := Option.map_eq_some_iff.mp stepped
      obtain ⟨fresh,made,rfl⟩ := Option.map_eq_some_iff.mp subscribed
      exact .subscribe absent made
    · cases stepped
  | unsubscribe topic id =>
    cases stepped
    exact .unsubscribe
  | publish topic payload =>
    simp only [Feed.step] at stepped
    split at stepped
    · cases stepped
      exact .publish
    · cases stepped
  | get id =>
    simp only [Feed.step] at stepped
    split at stepped
    · cases stepped
    · rename_i present
      obtain ⟨⟨payload,rest⟩,got,rfl⟩ := Option.map_eq_some_iff.mp stepped
      exact .get present got

theorem new_fits (made : Subscriber.new topic = some sub) : Fits topic sub ∧ sub.queue.items = [] := by
  obtain ⟨⟨capacity,policy⟩,configured,rfl⟩ := Option.map_eq_some_iff.mp made
  exact ⟨⟨configured,rfl,fun _ => Nat.zero_le _⟩,rfl⟩

theorem getNowait_fits {rest : Queue Dict} (fits : Fits topic sub)
    (got : sub.queue.getNowait = some (payload,rest)) : Fits topic { sub with queue := rest } := by
  obtain ⟨items,size⟩ := Queue.getNowait_some got
  refine ⟨by rw [fits.configured,← size],fits.connected,?_⟩
  intro bounded
  change 0 < rest.maxsize at bounded
  have within := fits.within (size ▸ bounded)
  rw [items,List.length_cons] at within
  change rest.items.length ≤ rest.maxsize
  omega

theorem lane_step (sound : Sound s) (joined : s.joined id = some (topic,before))
    (configured : topicConfig topic = some (capacity,.dropOldest)) (stepped : s.step event = some next) :
    next.lane id = (s.lane id).run capacity (laneOp topic id (s.bus.subs topic |>.contains id) event) := by
  cases step_cases stepped with
  | @subscribe other made _ absent =>
    have apart : id ≠ made := by
      intro same
      subst same
      rw [joined] at absent
      cases absent
    simp [Feed.lane,Feed.queued,laneOp,Lane.run,Function.update_of_ne apart]
  | unsubscribe => rfl
  | @publish other payload =>
    by_cases offered : id ∈ s.bus.subs topic ∧ other = topic
    · obtain ⟨inside,rfl⟩ := offered
      have fits := (sound.fits id other before joined).2
      have put_ := (put_spec payload fits).2.2 _ configured (s.received id)
      simp only [Feed.lane,Feed.queued,laneOp,List.contains_iff_mem.mpr inside,and_self,if_pos,Lane.run,
        List.foldl_cons,List.foldl_nil]
      rw [publish_member sound inside,put_]
      rfl
    · have outside : id ∉ s.bus.subs other := by
        intro member
        obtain ⟨_,elsewhere⟩ := sound.members other id member
        rw [joined] at elsewhere
        cases elsewhere
        exact offered ⟨member,rfl⟩
      have nothing : laneOp topic id (s.bus.subs topic |>.contains id) (.publish other payload) = [] := by
        simpa [laneOp] using offered
      rw [nothing]
      simp [Feed.lane,Feed.queued,Lane.run,publish_other outside]
  | @get taker payload rest _ got =>
    by_cases same : taker = id
    · subst same
      have items := (Queue.getNowait_some got).1
      simp [Feed.lane,Feed.queued,laneOp,Lane.run,Lane.step,items]
    · simp [Feed.lane,Feed.queued,laneOp,if_neg same,Lane.run,Function.update_of_ne (Ne.symm same)]

theorem publishedOn_append (topic : Ipc.Topic) (one two : List Event) :
    publishedOn topic (one ++ two) = publishedOn topic one ++ publishedOn topic two :=
  List.filterMap_append

theorem offers_laneOp (topic : Ipc.Topic) (id : SubId) (registered : Bool) (event : Event) :
    offers (laneOp topic id registered event) = if registered then publishedOn topic [event] else [] := by
  cases event with
  | publish other payload =>
    by_cases here : other = topic <;> cases registered <;> simp [laneOp,publishedOn,here,offers,LossyQueue.Op.offered]
  | get other => by_cases here : other = id <;> simp [laneOp,publishedOn,here,offers,LossyQueue.Op.offered]
  | _ => simp [laneOp,publishedOn,offers]

theorem since_step (stepped : s.step event = some next) (long : before ≤ (s.published topic).length) :
    next.since topic before = s.since topic before ++ publishedOn topic [event] := by
  cases step_cases stepped with
  | @publish other payload =>
    by_cases here : other = topic
    · subst here
      simp [Feed.since,publishedOn,List.drop_append_of_le_length long]
    · simp [Feed.since,publishedOn,here,Function.update_of_ne (Ne.symm here)]
  | _ => simp [Feed.since,publishedOn]

theorem start_sound (objects : SubId → Subscriber) : Sound (start objects) := by
  refine ⟨?_,fun _ => List.nodup_nil,?_,fun _ _ => rfl,?_⟩
  · intro topic id inside
    cases inside
  · intro id topic before joined
    cases joined
  · intro id topic before capacity joined
    cases joined

theorem lanes_step (sound : Sound s) (stepped : s.step event = some next)
    (joined : s.joined id = some (topic,before))
    (configured : topicConfig topic = some (capacity,.dropOldest))
    (members : id ∈ next.bus.subs topic → id ∈ s.bus.subs topic) :
    ∃ ops, next.lane id = Lane.run capacity {} ops ∧ offers ops <+: next.since topic before ∧
      (id ∈ next.bus.subs topic → offers ops = next.since topic before) := by
  obtain ⟨ops,ran,part,whole⟩ := sound.lanes id topic before capacity joined configured
  have grown := since_step stepped (sound.fits id topic before joined).1
  refine ⟨ops ++ laneOp topic id (s.bus.subs topic |>.contains id) event,?_,?_⟩
  · rw [lane_step sound joined configured stepped,ran,Lane.run,Lane.run,Lane.run,List.foldl_append]
  rw [offers_append,offers_laneOp,grown]
  by_cases inside : id ∈ s.bus.subs topic
  · rw [if_pos (List.contains_iff_mem.mpr inside),whole inside]
    exact ⟨List.prefix_rfl,fun _ => rfl⟩
  · rw [if_neg (fun registered => inside (List.contains_iff_mem.mp registered)),List.append_nil]
    exact ⟨part.trans (List.prefix_append _ _),fun later => absurd (members later) inside⟩

theorem Sound.moved (sound : Sound s) (stepped : s.step event = some next) (joined : next.joined = s.joined)
    (subs : ∀ topic, (next.bus.subs topic).Sublist (s.bus.subs topic))
    (fits : ∀ id topic before, s.joined id = some (topic,before) → Fits topic (next.bus.objects id))
    (longer : ∀ topic, (s.published topic).length ≤ (next.published topic).length)
    (unborn : ∀ id, s.joined id = none → next.received id = []) : Sound next := by
  refine ⟨?_,?_,?_,?_,?_⟩
  · intro topic id inside
    rw [joined]
    exact sound.members topic id ((subs topic).subset inside)
  · intro topic
    exact (sound.once topic).sublist (subs topic)
  · intro id topic before there
    rw [joined] at there
    exact ⟨(sound.fits id topic before there).1.trans (longer topic),fits id topic before there⟩
  · intro id absent
    rw [joined] at absent
    exact unborn id absent
  · intro id topic before capacity there configured
    rw [joined] at there
    exact lanes_step sound stepped there configured fun inside => (subs topic).subset inside

theorem Sound.subscribed {fresh : Subscriber} (sound : Sound s)
    (stepped : s.step (.subscribe topic id) = some next) (absent : s.joined id = none)
    (created : Subscriber.new topic = some fresh)
    (result : next = { s with
      bus :=
        { subs := Function.update s.bus.subs topic (s.bus.subs topic ++ [id])
          objects := Function.update s.bus.objects id fresh }
      joined := Function.update s.joined id (some (topic,(s.published topic).length)) }) : Sound next := by
  subst result
  have apart {other : SubId} {where_ : Ipc.Topic × Nat} (joined : s.joined other = some where_) : other ≠ id := by
    intro same
    subst same
    rw [joined] at absent
    cases absent
  have unlisted (other : Ipc.Topic) : id ∉ s.bus.subs other := by
    intro inside
    obtain ⟨before,joined⟩ := sound.members other id inside
    exact apart joined rfl
  obtain ⟨fits,empty⟩ := new_fits created
  refine ⟨?_,?_,?_,?_,?_⟩
  · intro other member inside
    have listed : member ∈ s.bus.subs other ∨ (other = topic ∧ member = id) := by
      by_cases here : other = topic
      · subst here
        simpa using inside
      · exact .inl (by simpa [Function.update_of_ne here] using inside)
    rcases listed with old | ⟨rfl,rfl⟩
    · obtain ⟨before,joined⟩ := sound.members other member old
      exact ⟨before,(Function.update_of_ne (apart joined) ..).trans joined⟩
    · exact ⟨_,Function.update_self ..⟩
  · intro other
    by_cases here : other = topic
    · subst here
      have apart : ∀ member ∈ s.bus.subs other, member ≠ id := by
        intro member inside same
        exact unlisted other (same ▸ inside)
      simpa [List.nodup_append,sound.once other] using apart
    · simpa [Function.update_of_ne here] using sound.once other
  · intro member other before joined
    by_cases same : member = id
    · subst same
      simp only [Function.update_self,Option.some.injEq,Prod.mk.injEq] at joined ⊢
      obtain ⟨rfl,rfl⟩ := joined
      exact ⟨Nat.le_refl _,fits⟩
    · simp only [Function.update_of_ne same] at joined ⊢
      exact sound.fits member other before joined
  · intro member unjoined
    by_cases same : member = id
    · subst same
      exact sound.unborn member absent
    · simp only [Function.update_of_ne same] at unjoined
      exact sound.unborn member unjoined
  · intro member other before capacity joined configured
    by_cases same : member = id
    · subst same
      simp only [Function.update_self,Option.some.injEq,Prod.mk.injEq] at joined
      obtain ⟨rfl,rfl⟩ := joined
      refine ⟨[],?_,?_⟩
      · simp [Feed.lane,Feed.queued,Lane.run,sound.unborn member absent,empty]
      · simp [offers,Feed.since]
    · simp only [Function.update_of_ne same] at joined
      refine lanes_step sound stepped joined configured ?_
      intro inside
      by_cases here : other = topic
      · subst here
        simpa [same] using inside
      · simpa [Function.update_of_ne here] using inside

theorem sound_step (sound : Sound s) (stepped : s.step event = some next) : Sound next := by
  cases step_cases stepped with
  | subscribe absent created => exact sound.subscribed stepped absent created rfl
  | @unsubscribe other gone =>
    refine sound.moved stepped rfl ?_ (fun id topic before joined => (sound.fits id topic before joined).2)
      (fun _ => Nat.le_refl _) sound.unborn
    intro topic
    by_cases here : topic = other
    · subst here
      simpa [PubSub.unsubscribe] using List.erase_sublist
    · simp [PubSub.unsubscribe,Function.update_of_ne here]
  | @publish other payload =>
    refine sound.moved stepped rfl ?_ ?_ ?_ sound.unborn
    · intro topic
      simp only [publish_subs sound]
      exact List.Sublist.refl _
    · intro id topic before joined
      have fits := (sound.fits id topic before joined).2
      by_cases inside : id ∈ s.bus.subs other
      · simp only [publish_member sound inside]
        exact (put_spec _ fits).2.1
      · simp only [publish_other inside]
        exact fits
    · intro topic
      by_cases here : topic = other
      · subst here
        simp
      · simp [Function.update_of_ne here]
  | @get taker payload rest present got =>
    refine sound.moved stepped rfl (fun _ => List.Sublist.refl _) ?_ (fun _ => Nat.le_refl _) ?_
    · intro id topic before joined
      have fits := (sound.fits id topic before joined).2
      by_cases same : id = taker
      · subst same
        simp only [Function.update_self]
        exact getNowait_fits fits got
      · simp only [Function.update_of_ne same]
        exact fits
    · intro id absent
      have apart : id ≠ taker := by
        intro same
        subst same
        exact present absent
      simp only [Function.update_of_ne apart]
      exact sound.unborn id absent

theorem reachable_sound {objects : SubId → Subscriber} (path : Reachable feed (start objects) s) : Sound s :=
  path.invariant (start_sound objects) fun _ _ _ sound _ stepped => sound_step sound stepped

theorem stays (sound : Sound s) (inside : id ∈ s.bus.subs topic) (stepped : s.step event = some next)
    (stay : event ≠ .unsubscribe topic id) : id ∈ next.bus.subs topic := by
  cases step_cases stepped with
  | @subscribe other made _ _ _ =>
    by_cases here : topic = other
    · subst here
      simp [inside]
    · simpa [Function.update_of_ne here] using inside
  | @unsubscribe other gone =>
    by_cases here : topic = other
    · subst here
      have apart : id ≠ gone := by
        intro same
        exact stay (by rw [same])
      simpa [PubSub.unsubscribe] using (List.mem_erase_of_ne apart).mpr inside
    · simpa [PubSub.unsubscribe,Function.update_of_ne here] using inside
  | publish =>
    simp only [publish_subs sound]
    exact inside
  | get => exact inside

theorem joined_step (joined : s.joined id = some (topic,before)) (stepped : s.step event = some next) :
    next.joined id = some (topic,before) := by
  cases step_cases stepped with
  | @subscribe other made _ absent _ =>
    have apart : id ≠ made := by
      intro same
      subst same
      rw [joined] at absent
      cases absent
    exact (Function.update_of_ne apart ..).trans joined
  | _ => exact joined

theorem lane_play {events : List Event} {last : Feed} (sound : Sound s)
    (joined : s.joined id = some (topic,before))
    (configured : topicConfig topic = some (capacity,.dropOldest)) (inside : id ∈ s.bus.subs topic)
    (played : feed.play s events = some last) (idle : .get id ∉ events)
    (stay : .unsubscribe topic id ∉ events) :
    last.lane id = (s.lane id).run capacity ((publishedOn topic events).map .offer) := by
  induction events generalizing s with
  | nil =>
    cases played
    rfl
  | cons event rest ih =>
    obtain ⟨next,stepped,others⟩ := Option.bind_eq_some_iff.mp played
    rw [List.mem_cons,not_or] at idle stay
    have later := ih (sound_step sound stepped) (joined_step joined stepped)
      (stays sound inside stepped (Ne.symm stay.1)) others idle.2 stay.2
    have offered : laneOp topic id true event = (publishedOn topic [event]).map .offer := by
      cases event with
      | publish other payload => by_cases here : other = topic <;> simp [laneOp,publishedOn,here]
      | get other =>
        have apart : other ≠ id := fun same => idle.1 (same ▸ rfl)
        simp [laneOp,publishedOn,apart]
      | _ => rfl
    have registered : (s.bus.subs topic).contains id = true := List.contains_iff_mem.mpr inside
    rw [later,lane_step sound joined configured stepped,registered,offered,
      show event :: rest = [event] ++ rest from rfl,publishedOn_append,List.map_append]
    simp only [Lane.run,List.foldl_append]

-- In every state that publishes, gets, subscriptions and unsubscriptions lead to, no put
-- raises, what a subscriber of a bounded topic received and has queued is a subsequence
-- of what was published since it joined, and while it is registered it can count on the
-- rest.
theorem drop_oldest_delivers {objects : SubId → Subscriber} (path : Reachable feed (start objects) s) :
    (∀ topic payload, ∀ id ∈ s.bus.subs topic, (put (s.bus.objects id) payload).isSome = true) ∧
    ∀ id topic before capacity, s.joined id = some (topic,before) →
      topicConfig topic = some (capacity,.dropOldest) →
      (s.received id ++ s.queued id).Sublist (s.since topic before) ∧
      (id ∈ s.bus.subs topic → Delivers s id topic before capacity) := by
  have sound := reachable_sound path
  constructor
  · intro topic payload id inside
    obtain ⟨before,joined⟩ := sound.members topic id inside
    rw [(put_spec payload (sound.fits id topic before joined).2).1]
    rfl
  intro id topic before capacity joined configured
  obtain ⟨ops,ran,part,whole⟩ := sound.lanes id topic before capacity joined configured
  have ordered : (s.received id ++ s.queued id).Sublist (s.since topic before) := by
    have all : (s.lane id).all.Sublist (offers ops) := ran ▸ run_sublist ops
    exact all.trans part.sublist
  refine ⟨ordered,?_⟩
  intro inside
  have fits := (sound.fits id topic before joined).2
  have within : (s.lane id).queued.length ≤ capacity := by
    have size := fits.bound configured
    exact size ▸ fits.within (size ▸ config_room configured)
  refine ⟨ordered,?_,?_,?_,?_⟩
  · have newest : (s.lane id).all.getLast? = (offers ops).getLast? := ran ▸ run_newest ops
    rw [whole inside] at newest
    exact newest
  · intro payload
    refine ⟨_,step_publish sound,rfl,?_⟩
    have put_ := (put_spec payload fits).2.2 _ configured (s.received id)
    simp only [Feed.queued,publish_member sound inside,put_,step_offer]
    rfl
  · intro event next quiet stepped
    have moved := lane_step sound joined configured stepped
    have all := congrArg Lane.all moved
    cases event with
    | publish other payload =>
      have apart : other ≠ topic := fun same => quiet payload (same ▸ rfl)
      have nothing : laneOp topic id (s.bus.subs topic |>.contains id) (.publish other payload) = [] := by
        simp [laneOp,apart]
      rw [nothing] at all
      exact all
    | get other =>
      by_cases same : other = id
      · simp only [laneOp,if_pos same,Lane.run,List.foldl_cons,List.foldl_nil,step_take] at all
        exact all
      · simp only [laneOp,if_neg same,Lane.run,List.foldl_nil] at all
        exact all
    | _ => exact all
  · intro events last played idle stay
    have moved := lane_play sound joined configured inside played idle stay
    have kept := congrArg Lane.queued moved
    rw [run_offers (s.lane id) (config_room configured) within] at kept
    exact kept

end
def listener : SubId := ⟨1,0⟩

def line (text : String) : Dict := dict [("line",.str text)]

def lateListener : List Event :=
  [.publish .hyprEvents (line "a"),.subscribe .hyprEvents listener,.publish .hyprEvents (line "b")] ++
    List.replicate 256 (.publish .hyprEvents (line "c")) ++ [.get listener]

theorem lateListener_delivers : ∃ s, (s.received listener).map (·.lookup "line") = [some (.str "c")] ∧
    (s.queued listener).length = 255 ∧ (s.since .hyprEvents 1).length = 257 ∧
      Delivers s listener .hyprEvents 1 256 := by
  have played : (feed.play (start fun _ => ⟨.disconnect,⟨0,[]⟩,false⟩) lateListener).any (fun s =>
      (s.received listener).map (·.lookup "line") == [some (.str "c")] &&
        ((s.queued listener).length == 255 && ((s.since .hyprEvents 1).length == 257 &&
          (s.joined listener == some (.hyprEvents,1) && s.bus.subs .hyprEvents == [listener])))) = true := by
    decide +kernel
  obtain ⟨s,path,shown⟩ := System.found played
  simp only [Bool.and_eq_true,beq_iff_eq] at shown
  obtain ⟨received,queued,published,joined,subs⟩ := shown
  refine ⟨s,received,queued,published,?_⟩
  refine ((drop_oldest_delivers path).2 listener .hyprEvents 1 256 joined rfl).2 ?_
  rw [subs]
  exact List.mem_singleton_self listener

end HyprlandAgent.DropOldest
