import HyprlandAgent.Daemon.Subscriptions

-- The read loop of a connection: what ends it, and what it answers.
namespace HyprlandAgent.Server
open Ipc Transition
variable {s next : State} {c : Nat} {topic : Ipc.Topic} {conn : Connection}

abbrev Result := Except ReadFailure Frame

def readsOf (c : Nat) (events : List Event) : List Result :=
  events.filterMap fun
    | .act other (.read result) => if other = c then some result else none
    | _ => none

def requestIds (results : List Result) : List String :=
  results.filterMap fun
    | .ok (.request id _ _) => some id
    | _ => none

def responseIds (frames : List Frame) : List String :=
  frames.filterMap fun
    | .response answer => some answer.id
    | _ => none

def Connection.answered (conn : Connection) : List String :=
  responseIds (conn.written ++ conn.outbound.items)

def Reader.inflight : Reader → List String
  | .dispatching id _ _ => [id]
  | .putting answer => [answer.id]
  | _ => []

def Fatal : Result → Prop
  | .error (.parse text _) => saysClosed text = true
  | .error _ => True
  | .ok (.subscribe topics) => .voice ∈ topics
  | .ok _ => False

inductive Fate : Reader → List Result → Prop where
  | going : reader ≠ .raised → (∀ cause, reader ≠ .left (some cause)) →
      (∀ result ∈ results, ¬Fatal result) → Fate reader results
  | raised : (∀ result ∈ front, ¬Fatal result) → Fatal last →
      (∀ text cause, last ≠ .error (.parse text cause)) → Fate .raised (front ++ [last])
  | left : (∀ result ∈ front, ¬Fatal result) → saysClosed text = true →
      Fate (.left (some cause)) (front ++ [.error (.parse text cause)])

theorem Fate.fine {reader : Reader} {results : List Result} (fate : Fate reader results)
    (active : reader ≠ .raised) (staying : ∀ cause, reader ≠ .left (some cause)) :
    ∀ result ∈ results, ¬Fatal result := by
  cases fate with
  | going _ _ fine => exact fine
  | raised => exact absurd rfl active
  | left => exact absurd rfl (staying _)

structure Reading (conn : Connection) (results : List Result) : Prop where
  fate : Fate conn.reader results
  tally : conn.answered ++ conn.reader.inflight = requestIds results
  stopped : conn.stop = true → conn.writer = .failed ∨ ∃ cause, conn.reader = .left (some cause)
  leaving : conn.reader = .left none → conn.writer = .failed

theorem responseIds_append (front back : List Frame) :
    responseIds (front ++ back) = responseIds front ++ responseIds back := List.filterMap_append ..

theorem requestIds_append (front back : List Result) :
    requestIds (front ++ back) = requestIds front ++ requestIds back := List.filterMap_append ..

structure Mute (conn next : Connection) : Prop where
  reader : next.reader = conn.reader
  answered : next.answered = conn.answered
  stop : next.stop = conn.stop
  writer : conn.writer = .failed → next.writer = .failed
  done : next.writer.done = true → conn.writer.done = true ∨ conn.stop = true

theorem Reading.mute {results : List Result} {next : Connection} (reading : Reading conn results)
    (mute : Mute conn next) : Reading next results := by
  obtain ⟨fate,tally,stopped,leaving⟩ := reading
  constructor
  · rw [mute.reader]
    exact fate
  · rw [mute.reader,mute.answered]
    exact tally
  · rw [mute.reader,mute.stop]
    intro set
    rcases stopped set with failed | left
    · exact .inl (mute.writer failed)
    · exact .inr left
  · rw [mute.reader]
    exact fun left => mute.writer (leaving left)

theorem Connection.answered_put {frame : Frame} {queue : Queue Frame}
    (put : conn.outbound.putNowait frame = some queue) :
    { conn with outbound := queue }.answered = conn.answered ++ responseIds [frame] := by
  unfold Connection.answered
  rw [Queue.putNowait_some put,← List.append_assoc,responseIds_append]

namespace Mute

theorem forward (conn : Connection) (topic : Ipc.Topic) (sub : SubId) :
    Mute conn (conn.forward topic sub false) := by
  unfold Connection.forward
  split
  · exact ⟨rfl,rfl,rfl,fun failed => failed,.inl⟩
  · exact ⟨rfl,rfl,rfl,fun failed => failed,.inl⟩

theorem offerEvent (conn : Connection) (topic : Ipc.Topic) (sub : SubId) (payload : Dict) :
    Mute conn (conn.offerEvent topic sub false payload) := by
  unfold Connection.offerEvent
  split
  · rename_i queue put
    have on := forward { conn with outbound := queue } topic sub
    have same := Connection.answered_put put
    exact ⟨on.reader,on.answered.trans (by simpa [responseIds] using same),on.stop,on.writer,on.done⟩
  · exact ⟨rfl,rfl,rfl,fun failed => failed,.inl⟩

end Mute

theorem Reading.resume {results : List Result} {fresh : Connection}
    (answered : fresh.answered = requestIds results)
    (fine : ∀ result ∈ results, ¬Fatal result)
    (stopped : fresh.stop = true → fresh.writer = .failed) : Reading fresh.resume results := by
  unfold Connection.resume
  split
  · rename_i set
    refine ⟨.going (by simp) (by simp) fine,?_,?_,?_⟩
    · exact (List.append_nil _).trans answered
    · exact fun _ => .inl (stopped set)
    · exact fun _ => stopped set
  · rename_i clear
    refine ⟨.going (by simp) (by simp) fine,?_,?_,?_⟩
    · exact (List.append_nil _).trans answered
    · exact fun set => absurd set clear
    · exact fun left => nomatch left

namespace Mute

theorem rfl' : Mute conn conn := ⟨rfl,rfl,rfl,fun failed => failed,.inl⟩

theorem trans {middle next : Connection} (one : Mute conn middle) (two : Mute middle next) :
    Mute conn next where
  reader := two.reader.trans one.reader
  answered := two.answered.trans one.answered
  stop := two.stop.trans one.stop
  writer := fun failed => two.writer (one.writer failed)
  done := by
    intro done
    rcases two.done done with busy | stopped
    · exact one.done busy
    · exact .inr (one.stop.symm.trans stopped)

theorem subscribe (subscribed : s.subscribe c topic = some next) :
    Mute (s.conns c) (next.conns c) := by
  unfold State.subscribe at subscribed
  simp only at subscribed
  split at subscribed
  · cases subscribed
    exact rfl'
  · obtain ⟨bus,_,rfl⟩ := Option.map_eq_some_iff.mp subscribed
    simp only [Function.update_self]
    exact ⟨rfl,rfl,rfl,fun failed => failed,.inl⟩

theorem subscribeAll (topics : List Ipc.Topic) (s : State) :
    Mute (s.conns c) ((State.subscribeAll c topics s).1.conns c) := by
  induction topics generalizing s with
  | nil => exact rfl'
  | cons topic rest ih =>
    unfold State.subscribeAll
    split
    · rename_i middle subscribed
      exact (subscribe subscribed).trans (ih middle)
    · exact rfl'

theorem unsubscribeAll (topics : List Ipc.Topic) (s : State) :
    Mute (s.conns c) ((topics.foldl (fun s topic => s.unsubscribe c topic) s).conns c) := by
  induction topics generalizing s with
  | nil => exact rfl'
  | cons topic rest ih =>
    refine trans ?_ (ih _)
    unfold State.unsubscribe
    simp only
    split
    · exact rfl'
    · simp only [Function.update_self]
      exact ⟨rfl,rfl,rfl,fun failed => failed,.inl⟩

end Mute

theorem Linked.subscribe_voice (linked : Linked s c) : s.subscribe c .voice = none := by
  unfold State.subscribe
  simp only [linked.voice]
  rfl

theorem subscribe_other (s : State) (c : Nat) (apart : topic ≠ .voice) :
    ∃ next, s.subscribe c topic = some next := by
  unfold State.subscribe
  simp only
  split
  · exact ⟨s,rfl⟩
  · cases topic with
    | voice => exact absurd rfl apart
    | _ => exact ⟨_,rfl⟩

theorem Linked.subscribeAll_voice (topics : List Ipc.Topic) (linked : Linked s c)
    (going : (s.conns c).closed = false) :
    (State.subscribeAll c topics s).2 = true ↔ .voice ∉ topics := by
  induction topics generalizing s with
  | nil => simp [State.subscribeAll]
  | cons topic rest ih =>
    by_cases same : topic = .voice
    · subst same
      simp [State.subscribeAll,linked.subscribe_voice]
    · obtain ⟨middle,subscribed⟩ := subscribe_other s c same
      have moved := linked.subscribe going subscribed
      simp only [State.subscribeAll,subscribed]
      rw [ih moved.linked moved.going,List.mem_cons,not_or]
      exact ⟨fun absent => ⟨Ne.symm same,absent⟩,fun both => both.2⟩

theorem Reading.receive {results : List Result} (linked : Linked s c)
    (going : (s.conns c).closed = false) (reading : Reading (s.conns c) results)
    (at_ : (s.conns c).reader = .reading) (result : Result) :
    Reading ((s.receive c result).conns c) (results ++ [result]) := by
  obtain ⟨fate,tally,stopped,_⟩ := reading
  have fine := fate.fine (by simp [at_]) (by simp [at_])
  have answered : (s.conns c).answered = requestIds results := by
    rw [at_] at tally
    exact (List.append_nil _).symm.trans tally
  have failed (set : (s.conns c).stop = true) : (s.conns c).writer = .failed := by
    rcases stopped set with failed | ⟨cause,left⟩
    · exact failed
    · rw [at_] at left
      cases left
  have more (calm : ¬Fatal result) : ∀ other ∈ results ++ [result], ¬Fatal other := by
    intro other inside
    rcases List.mem_append.mp inside with old | new
    · exact fine other old
    · rw [List.mem_singleton.mp new]
      exact calm
  have silent (quiet : requestIds [result] = []) :
      (s.conns c).answered = requestIds (results ++ [result]) := by
    rw [requestIds_append,quiet,List.append_nil]
    exact answered
  have skips (quiet : requestIds [result] = []) (calm : ¬Fatal result) {fresh : Connection}
      (mute : Mute (s.conns c) fresh) : Reading fresh.resume (results ++ [result]) := by
    refine .resume (mute.answered.trans (silent quiet)) (more calm) ?_
    intro set
    exact mute.writer (failed (mute.stop.symm.trans set))
  have raises (quiet : requestIds [result] = []) (fatal : Fatal result)
      (other : ∀ text cause, result ≠ .error (.parse text cause)) {fresh : Connection}
      (mute : Mute (s.conns c) fresh) :
      Reading { fresh with reader := .raised } (results ++ [result]) := by
    refine ⟨.raised fine fatal other,?_,?_,fun left => nomatch left⟩
    · exact (List.append_nil _).trans (mute.answered.trans (silent quiet))
    · exact fun set => .inl (mute.writer (failed (mute.stop.symm.trans set)))
  unfold State.receive
  simp only
  split
  · rename_i text cause
    rw [State.setConn_self]
    split
    · rename_i closing
      refine ⟨.left fine closing,?_,fun _ => .inr ⟨cause,rfl⟩,fun left => nomatch left⟩
      exact (List.append_nil _).trans (silent rfl)
    · rename_i quiet
      exact skips rfl quiet .rfl'
  · rename_i failure other
    rw [State.setConn_self]
    refine raises rfl ?_ ?_ .rfl'
    · cases failure with
      | parse text cause => exact absurd rfl (other text cause)
      | _ => trivial
    · intro text cause same
      exact other text cause (Except.error.inj same)
  · rename_i id method params
    rw [State.setConn_self]
    refine ⟨.going (by simp) (by simp) (more fun fatal => fatal),?_,fun set => .inl (failed set),fun left => nomatch left⟩
    rw [requestIds_append]
    exact congrArg (· ++ [id]) answered
  · rename_i topics
    have all := linked.subscribeAll_voice topics going
    have mute := Mute.subscribeAll (c:=c) topics s
    split
    · rename_i middle reached
      rw [reached] at all mute
      rw [State.setConn_self]
      exact skips rfl (all.mp rfl) mute
    · rename_i middle reached
      rw [reached] at all mute
      rw [State.setConn_self]
      refine raises rfl ?_ (fun _ _ same => nomatch same) mute
      by_contra absent
      exact Bool.false_ne_true (all.mpr absent)
  · rename_i topics
    rw [State.setConn_self]
    exact skips rfl id (Mute.unsubscribeAll topics s)
  · rename_i frame notRequest notSubscribe notUnsubscribe
    rw [State.setConn_self]
    refine skips ?_ ?_ .rfl'
    · cases frame with
      | request id method params => exact absurd rfl (notRequest id method params)
      | _ => rfl
    · cases frame with
      | subscribe topics => exact absurd rfl (notSubscribe topics)
      | _ => exact id

theorem Reading.offer {results : List Result} {answer : ResponseFrame}
    (reading : Reading conn results) (busy : conn.reader.inflight = [answer.id])
    (active : conn.reader ≠ .raised) (staying : ∀ cause, conn.reader ≠ .left cause) :
    Reading (conn.offer answer) results := by
  obtain ⟨fate,tally,stopped,_⟩ := reading
  have fine := fate.fine active fun cause => staying (some cause)
  have failed (set : conn.stop = true) : conn.writer = .failed := by
    rcases stopped set with failed | ⟨cause,left⟩
    · exact failed
    · exact absurd left (staying _)
  rw [busy] at tally
  unfold Connection.offer
  split
  · rename_i queue put
    exact .resume ((Connection.answered_put put).trans tally) fine failed
  · refine ⟨.going (by simp) (by simp) fine,tally,fun set => .inl (failed set),fun left => nomatch left⟩

def Act.reads : Act → List Result
  | .read result => [result]
  | _ => []

def Act.silent : Act → Bool
  | .read _ => false
  | .handled _ => false
  | .responsePut => false
  | .writeFails => false
  | _ => true

theorem Linked.mute {what : Act} (linked : Linked s c) (going : (s.conns c).closed = false)
    (silent : what.silent = true) (acted : Server.act s c what = some next) :
    Mute (s.conns c) (next.conns c) ∧ (next.conns c).subs = (s.conns c).subs := by
  have connected (topic : Ipc.Topic) (sub : SubId) (phase : Forwarding)
      (found : (s.conns c).forwarderTasks topic = some ⟨sub,phase⟩) :
      (s.bus.objects sub).disconnected = false := by
    have mine : (s.conns c).subs topic = some sub :=
      (linked.tasks going topic).symm.trans (forwarder_sub found)
    exact (linked.sound topic sub mine).connected
  unfold Server.act at acted
  cases what with
  | forwarderStarts topic =>
    simp only at acted
    split at acted
    · rename_i sub found
      cases acted
      rw [State.setConn_self,connected topic sub _ found]
      exact ⟨Mute.forward ..,(Keeps.forward _ (forwarder_sub found) false).subs⟩
    · cases acted
  | forwarderGets topic =>
    simp only at acted
    split at acted
    · rename_i sub found
      split at acted
      · cases acted
        simp only [Function.update_self]
        rw [connected topic sub _ found]
        exact ⟨Mute.offerEvent ..,(Keeps.offerEvent (forwarder_sub found) false _).subs⟩
      · cases acted
    · cases acted
  | forwarderPuts topic =>
    simp only at acted
    split at acted
    · rename_i sub payload found
      split at acted
      · cases acted
      · cases acted
        rw [State.setConn_self,connected topic sub _ found]
        exact ⟨Mute.offerEvent ..,(Keeps.offerEvent (forwarder_sub found) false _).subs⟩
    · cases acted
  | forwarderTimesOut topic =>
    simp only at acted
    split at acted
    · rename_i sub found
      cases acted
      rw [State.setConn_self,connected topic sub _ found]
      exact ⟨Mute.forward ..,(Keeps.forward _ (forwarder_sub found) false).subs⟩
    · cases acted
  | writes =>
    simp only at acted
    split at acted
    · rename_i frame queue waiting got
      cases acted
      rw [State.setConn_self]
      refine ⟨⟨rfl,?_,rfl,?_,fun done => nomatch done⟩,rfl⟩
      · unfold Connection.answered Connection.write
        rw [(Queue.getNowait_some got).1]
        simp
      · intro failed
        rw [waiting] at failed
        cases failed
    · cases acted
  | beats =>
    simp only at acted
    split at acted
    · rename_i waiting
      cases acted
      rw [State.setConn_self]
      refine ⟨⟨rfl,?_,rfl,?_,fun done => nomatch done⟩,rfl⟩
      · unfold Connection.answered Connection.write
        simp [responseIds]
      · intro failed
        rw [waiting] at failed
        cases failed
    · cases acted
  | drained =>
    simp only at acted
    split at acted
    · rename_i draining
      cases acted
      rw [State.setConn_self]
      refine ⟨⟨rfl,rfl,rfl,?_,?_⟩,rfl⟩
      · intro failed
        rw [draining] at failed
        cases failed
      · intro done
        cases stopped : (s.conns c).stop with
        | true => exact .inr rfl
        | false => simp [stopped,Writer.done] at done
    · cases acted
  | tornDown =>
    simp only at acted
    split at acted
    · cases acted
      unfold State.teardown
      simp only [Function.update_self]
      exact ⟨⟨rfl,rfl,rfl,fun failed => failed,.inl⟩,trivial⟩
    · cases acted
  | _ => cases silent

theorem Reading.act {what : Act} {results : List Result} (linked : Linked s c)
    (going : (s.conns c).closed = false) (reading : Reading (s.conns c) results)
    (acted : Server.act s c what = some next) :
    Reading (next.conns c) (results ++ what.reads) := by
  have quiet (held : Reading (next.conns c) results) : Reading (next.conns c) (results ++ []) := by
    rwa [List.append_nil]
  by_cases silent : what.silent = true
  · have none_read : what.reads = [] := by
      cases what with
      | read result => cases silent
      | _ => rfl
    rw [none_read]
    exact quiet (reading.mute (linked.mute going silent acted).1)
  unfold Server.act at acted
  cases what with
  | read result =>
    simp only at acted
    split at acted
    · rename_i at_
      cases acted
      exact reading.receive linked going at_ result
    · cases acted
  | handled outcome =>
    apply quiet
    simp only at acted
    split at acted
    · rename_i id method params at_
      cases acted
      rw [State.setConn_self]
      apply reading.offer
      · rw [at_]
        exact congrArg (fun name => [name]) (dispatch_id id method outcome).symm
      · simp [at_]
      · simp [at_]
    · cases acted
  | responsePut =>
    apply quiet
    simp only at acted
    split at acted
    · rename_i answer at_
      split at acted
      · cases acted
      · cases acted
        rw [State.setConn_self]
        apply reading.offer
        · rw [at_]
          rfl
        · simp [at_]
        · simp [at_]
    · cases acted
  | writeFails =>
    apply quiet
    simp only at acted
    split at acted
    · cases acted
      rw [State.setConn_self]
      exact ⟨reading.fate,reading.tally,fun _ => .inl rfl,fun _ => rfl⟩
    · cases acted
  | _ => exact absurd rfl silent

theorem readsOf_append (c : Nat) (front back : List Event) :
    readsOf c (front ++ back) = readsOf c front ++ readsOf c back := List.filterMap_append ..

theorem readsOf_act (c other : Nat) (what : Act) :
    readsOf c [.act other what] = if other = c then what.reads else [] := by
  unfold readsOf
  cases what with
  | read result => by_cases same : other = c <;> simp [same,Act.reads]
  | _ => simp [Act.reads]

theorem reading_run {events : List Event} (played : system.play start events = some s) (c : Nat) :
    Reading (s.conns c) (readsOf c events) := by
  have all : (∀ c, Linked s c) ∧ ∀ c, Reading (s.conns c) (readsOf c events) := by
    refine System.play_invariant (P:=fun past s =>
      (∀ c, Linked s c) ∧ ∀ c, Reading (s.conns c) (readsOf c past)) ?_ ?_ played
    · refine ⟨linked_start,fun c => ⟨.going (by simp [start]) (by simp [start]) ?_,rfl,?_,?_⟩⟩
      · intro result inside
        cases inside
      · intro set
        cases set
      · intro left
        cases left
    · intro past s event next given stepped
      obtain ⟨linked,reading⟩ := given
      refine ⟨linked_step linked stepped,?_⟩
      intro c
      rw [readsOf_append]
      cases event with
      | publish topic payload =>
        cases stepped
        rw [show readsOf c [.publish topic payload] = [] from rfl,List.append_nil]
        exact reading c
      | act other what =>
        obtain ⟨going,acted⟩ := step_act stepped
        rw [readsOf_act]
        by_cases same : other = c
        · subst same
          rw [if_pos rfl]
          exact (reading other).act (linked other) going acted
        · rw [if_neg same,List.append_nil,((linked other).others going acted).2 c (Ne.symm same)]
          exact reading c
  exact all.2 c

theorem Fate.raised_last {results : List Result} (fate : Fate .raised results) :
    ∃ last ∈ results, Fatal last ∧ ∀ text cause, last ≠ .error (.parse text cause) := by
  cases fate with
  | going active => exact absurd rfl active
  | raised _ fatal other => exact ⟨_,List.mem_concat_self,fatal,other⟩

theorem Fate.left_last {results : List Result} {cause : ParseCause}
    (fate : Fate (.left (some cause)) results) :
    ∃ text, .error (.parse text cause) ∈ results ∧ saysClosed text = true ∧
      ∀ result ∈ results, Fatal result → result = .error (.parse text cause) := by
  cases fate with
  | going _ staying => exact absurd rfl (staying cause)
  | left fine closing =>
    refine ⟨_,List.mem_concat_self,closing,?_⟩
    intro result inside fatal
    rcases List.mem_append.mp inside with old | new
    · exact absurd fatal (fine result old)
    · exact List.mem_singleton.mp new

-- A line after which the read loop does not go on: one that makes the parser raise
-- something of its own, one whose error text says that the stream was closed, or one
-- that subscribes to the voice topic.
def Breaks (wire : Wire) (line : Bytes) : Prop := Fatal (wire.decodeFrame (line ++ [newline]))

theorem decoded_cause {wire : Wire} {line : Bytes} {text : String} {cause : ParseCause}
    (failed : wire.decodeFrame line = .error (.parse text cause)) : cause ≠ .closed := by
  unfold Wire.decodeFrame at failed
  repeat' split at failed
  all_goals cases failed
  all_goals decide

-- The loop is left at the end of the stream or on a stop after a failed write, and
-- each request read so far has one response, in their order, but for the one that is
-- being handled.
structure Serves (conn : Connection) (results : List Result) : Prop where
  caught : conn.reader ≠ .raised
  atEnd : ∀ cause, conn.reader = .left (some cause) → cause = .closed
  stopped : conn.reader = .left none → conn.writer = .failed
  answers : conn.answered ++ conn.reader.inflight = requestIds results

theorem requests_answered_iff (wire : Wire) (lines chunks : List Bytes) (events : List Event)
    (s : State) (c : Nat)
    (whole : ∀ line ∈ lines, newline ∉ line ∧ (line ++ [newline]).length ≤ frameMaxBytes)
    (sent : chunks.flatten = lines.flatMap (· ++ [newline]))
    (played : system.play start events = some s)
    (fed : readsOf c events = wire.readings frameMaxBytes (readsOf c events).length ⟨[],chunks⟩) :
    Serves (s.conns c) (readsOf c events) ↔
      ∀ line ∈ lines.take (readsOf c events).length, ¬Breaks wire line := by
  obtain ⟨fate,tally,_,leaving⟩ := reading_run played c
  have lined : readsOf c events = _ := fed.trans
    (Wire.readings_lines wire frameMaxBytes (fun line inside => (whole line inside).1)
      (fun line inside => by
        have short := (whole line inside).2
        rw [List.length_append] at short
        omega) (show Stream.contents ⟨[],chunks⟩ = _ from sent) (readsOf c events).length)
  have decoded (line : Bytes) (inside : line ∈ lines.take (readsOf c events).length) :
      wire.decodeFrame (line ++ [newline]) ∈ readsOf c events := by
    rw [lined]
    exact List.mem_append_left _ (List.mem_map_of_mem inside)
  have fatal_closed (fine : ∀ line ∈ lines.take (readsOf c events).length, ¬Breaks wire line)
      (result : Result) (inside : result ∈ readsOf c events) (fatal : Fatal result) :
      result = .error (.parse "connection closed mid-frame" .closed) := by
    rw [lined] at inside
    rcases List.mem_append.mp inside with read | closed
    · obtain ⟨line,present,rfl⟩ := List.mem_map.mp read
      exact absurd fatal (fine line present)
    · exact List.eq_of_mem_replicate closed
  constructor
  · intro serves line inside breaks
    have read := decoded line inside
    by_cases left : ∃ cause, (s.conns c).reader = .left (some cause)
    · obtain ⟨cause,left⟩ := left
      rw [serves.atEnd cause left] at left
      rw [left] at fate
      obtain ⟨text,_,_,only⟩ := fate.left_last
      exact decoded_cause (only _ read breaks) rfl
    · exact fate.fine serves.caught (fun cause same => left ⟨cause,same⟩) _ read breaks
  · intro fine
    refine ⟨?_,?_,leaving,tally⟩
    · intro raised
      rw [raised] at fate
      obtain ⟨last,inside,fatal,other⟩ := fate.raised_last
      exact other _ _ (fatal_closed fine last inside fatal)
    · intro cause left
      rw [left] at fate
      obtain ⟨text,inside,closing,_⟩ := fate.left_last
      have same := fatal_closed fine _ inside closing
      cases same
      rfl

def noiseLine : Bytes := utf8 "hello?".toList

def statusRequest : Frame := .request "1" .daemonStatus

def statusLine : Bytes := utf8 (jsonText (fun _ => "0.0") (.obj statusRequest.modelDump))

def quotingLine : Bytes := utf8 "\x7b\"type\":\"closed mid-frame\"\x7d".toList

def tagError (data : Json) : String :=
  match data with
  | .obj [("type",.str tag)] =>
    "Input tag '" ++ tag ++ "' found using 'type' does not match any of the expected tags"
  | _ => "1 validation error"

theorem zero_inline : '\n' ∉ "0.0".toList := by decide

def clientWire : Wire where
  floatText := fun _ => "0.0"
  loads := fun line =>
    if line = statusLine ++ [newline] then .ok (.obj statusRequest.modelDump)
    else if line = quotingLine ++ [newline] then .ok (.obj [("type",.str "closed mid-frame")])
    else .error (.jsonDecode "Expecting value: line 1 column 1 (char 0)")
  schemaError := tagError
  floatText_inline := fun _ => zero_inline

theorem status_decoded : clientWire.decodeFrame (statusLine ++ [newline]) = .ok statusRequest := by
  unfold Wire.decodeFrame clientWire
  simp only [if_pos]
  rfl

theorem quoting_decoded : clientWire.decodeFrame (quotingLine ++ [newline]) =
    .error (.parse ("schema error: " ++ tagError (.obj [("type",.str "closed mid-frame")])) .schema) := by
  have other : quotingLine ++ [newline] ≠ statusLine ++ [newline] := by decide
  unfold Wire.decodeFrame clientWire
  simp only [if_neg other]
  rfl

def noiseError : Result :=
  .error (.parse ("invalid JSON: " ++ "Expecting value: line 1 column 1 (char 0)") .json)

theorem noise_decoded : clientWire.decodeFrame (noiseLine ++ [newline]) = noiseError := by
  have other : noiseLine ++ [newline] ≠ statusLine ++ [newline] := by decide
  have another : noiseLine ++ [newline] ≠ quotingLine ++ [newline] := by decide
  unfold Wire.decodeFrame clientWire
  simp only [if_neg other,if_neg another]
  rfl

theorem first_readings (lines : List Bytes) (count : Nat) (all : lines.length = count)
    (whole : ∀ line ∈ lines, newline ∉ line ∧ (line ++ [newline]).length ≤ frameMaxBytes) :
    clientWire.readings frameMaxBytes count ⟨[],[lines.flatMap (· ++ [newline])]⟩ =
      lines.map fun line => clientWire.decodeFrame (line ++ [newline]) := by
  have read := Wire.readings_lines clientWire frameMaxBytes (s:=⟨[],[lines.flatMap (· ++ [newline])]⟩)
    (fun line inside => (whole line inside).1)
    (fun line inside => by
      have short := (whole line inside).2
      rw [List.length_append] at short
      omega) (List.append_nil _) count
  rw [read,← all,List.take_length,Nat.sub_self]
  exact List.append_nil _

def polite : List Event := [.act 0 (.read noiseError),.act 0 (.read (.ok statusRequest)),
 .act 0 (.handled (.returned ∅))]

theorem noise_skipped : ∃ s, system.play start polite = some s ∧
    Serves (s.conns 0) (readsOf 0 polite) := by
  have whole : ∀ line ∈ [noiseLine,statusLine],
      newline ∉ line ∧ (line ++ [newline]).length ≤ frameMaxBytes := by decide
  have reads : readsOf 0 polite = [noiseLine,statusLine].map fun line =>
      clientWire.decodeFrame (line ++ [newline]) := by
    rw [List.map_cons,List.map_cons,List.map_nil,status_decoded,noise_decoded]
    rfl
  have played : system.play start polite = some _ := rfl
  refine ⟨_,played,(requests_answered_iff clientWire [noiseLine,statusLine]
    [[noiseLine,statusLine].flatMap (· ++ [newline])] polite _ 0 whole (List.append_nil _) played
    ?_).mpr ?_⟩
  · rw [reads]
    exact (first_readings _ _ rfl whole).symm
  · intro line inside
    rw [reads] at inside
    rcases List.mem_cons.mp inside with rfl | rest
    · unfold Breaks
      rw [noise_decoded]
      show ¬saysClosed _ = true
      decide
    · rw [List.mem_singleton.mp rest]
      unfold Breaks
      rw [status_decoded]
      exact fun fatal => fatal

theorem quoted_words_close :
    ¬∀ (wire : Wire) (lines chunks : List Bytes) (events : List Event) (s : State) (c : Nat),
      (∀ line ∈ lines, newline ∉ line ∧ (line ++ [newline]).length ≤ frameMaxBytes) →
      chunks.flatten = lines.flatMap (· ++ [newline]) → system.play start events = some s →
      readsOf c events = wire.readings frameMaxBytes (readsOf c events).length ⟨[],chunks⟩ →
      Serves (s.conns c) (readsOf c events) := by
  intro always
  have whole : ∀ line ∈ [quotingLine],
      newline ∉ line ∧ (line ++ [newline]).length ≤ frameMaxBytes := by decide
  have serves := always clientWire [quotingLine] [[quotingLine].flatMap (· ++ [newline])]
    [.act 0 (.read (clientWire.decodeFrame (quotingLine ++ [newline])))] _ 0 whole
    (List.append_nil _) rfl (first_readings _ _ rfl whole).symm
  have left : ((start.receive 0 (clientWire.decodeFrame (quotingLine ++ [newline]))).conns 0).reader =
      .left (some .schema) := by
    rw [quoting_decoded]
    rfl
  cases serves.atEnd .schema left

end HyprlandAgent.Server
