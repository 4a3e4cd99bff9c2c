import HyprlandAgent.Daemon.Replies

-- A connection before its handshake: what the daemon tells a peer that does not greet it
-- well, and that with one that does it goes on as if there had been no handshake.
namespace HyprlandAgent.Handshake
open Ipc Transition Server

def protocolVersion : String := "1.0"
def protocolMajor : Int := 1

-- `int(text)`; `none` is a `ValueError`.
def parseMajor (int : String → Option Int) (version : String) : Int :=
  (int (String.ofList (version.toList.takeWhile (· ≠ '.')))).getD (-1)

def versionsCompatible (int : String → Option Int) (a b : String) : Bool :=
  parseMajor int a == parseMajor int b && parseMajor int b == protocolMajor

-- The reader task before its loop. `refusing` is the write of the error that a bad
-- greeting gets, `through` the loop, with the version of the greeting.
inductive Front where
  | greeting
  | refusing (answer : ResponseFrame)
  | refused (answer : Option ResponseFrame)
  | through (version : String)

structure State where
  server : Server.State
  fronts : Nat → Front

inductive Event where
  | greets (c : Nat) (result : Except ReadFailure Frame)
  | refusalDrained (c : Nat)
  | refusalFails (c : Nat)
  | serves (event : Server.Event)

namespace State
variable (s : State) (c : Nat)

def put (conn : Connection) (front : Front) : State where
  server := s.server.setConn c conn
  fronts := Function.update s.fronts c front

-- `await _write_raw(...)` goes past the queue.
def refuse (answer : ResponseFrame) : State :=
  let conn := s.server.conns c
  s.put c { conn with written := conn.written ++ [.response answer] } (.refusing answer)

end State

def mismatch (version : String) : ResponseFrame :=
  makeErrorResponse "" ("version mismatch: server=" ++ protocolVersion ++ " client=" ++ version) "version_mismatch"

def unexpected : ResponseFrame := makeErrorResponse "" "expected hello frame" "protocol_error"

def greet (int : String → Option Int) (s : State) (c : Nat) : Except ReadFailure Frame → State
  | .error (.parse _ cause) => s.put c ((s.server.conns c).leave cause) (.refused none)
  | .error _ => s.put c { s.server.conns c with reader := .raised } (.refused none)
  | .ok (.hello version _) =>
    if versionsCompatible int version protocolVersion then s.put c (s.server.conns c).resume (.through version)
    else s.refuse c (mismatch version)
  | .ok _ => s.refuse c unexpected

def mayServe (fronts : Nat → Front) : Server.Event → Bool
  | .act c (.read _) =>
    match fronts c with
    | .through _ => true
    | _ => false
  | _ => true

def step (int : String → Option Int) (s : State) : Event → Option State
  | .greets c result =>
    if (s.server.conns c).closed then none
    else
      match s.fronts c with
      | .greeting => some (greet int s c result)
      | _ => none
  | .refusalDrained c =>
    if (s.server.conns c).closed then none
    else
      match s.fronts c with
      | .refusing answer =>
        some (s.put c { s.server.conns c with reader := .left none,stop := true } (.refused (some answer)))
      | _ => none
  | .refusalFails c =>
    if (s.server.conns c).closed then none
    else
      match s.fronts c with
      | .refusing answer => some (s.put c { s.server.conns c with reader := .raised } (.refused (some answer)))
      | _ => none
  | .serves event =>
    if mayServe s.fronts event then
      (Server.step s.server event).map fun server => { s with server := server }
    else none

def daemon (int : String → Option Int) : System State Event := ⟨step int⟩

def start : State := ⟨Server.start,fun _ => .greeting⟩

section
variable {s next t : Server.State} {c : Nat} {topic : Ipc.Topic}

def seen (c : Nat) (t next : Server.State) : Server.State :=
  ⟨next.bus,Function.update t.conns c (next.conns c)⟩

theorem seen_made (bus : PubSub) (conn : Connection) :
    (⟨bus,Function.update t.conns c conn⟩ : Server.State) = seen c t ⟨bus,Function.update s.conns c conn⟩ := by
  simp only [seen,Function.update_self]

theorem seen_set (bus : t.bus = s.bus) (conn : Connection) : t.setConn c conn = seen c t (s.setConn c conn) := by
  unfold seen
  rw [Server.State.setConn_self]
  show (⟨t.bus,_⟩ : Server.State) = ⟨s.bus,_⟩
  rw [bus]

theorem seen_self (bus : t.bus = s.bus) (same : t.conns c = s.conns c) : t = seen c t s := by
  unfold seen
  rw [← same,Function.update_eq_self,← bus]

theorem seen_seen {middle : Server.State} : seen c (seen c t middle) next = seen c t next := by
  unfold seen
  rw [Function.update_idem]

theorem seen_conns : (seen c t next).conns c = next.conns c := Function.update_self ..

theorem subscribe_seen (bus : t.bus = s.bus) (same : t.conns c = s.conns c) :
    t.subscribe c topic = (s.subscribe c topic).map (seen c t) := by
  unfold Server.State.subscribe
  simp only
  rw [same,bus]
  split
  · exact congrArg some (seen_self bus same)
  · rw [Option.map_map]
    exact congrArg (Option.map · _) (funext fun made => seen_made made _)

theorem subscribeAll_seen (topics : List Ipc.Topic) (bus : t.bus = s.bus) (same : t.conns c = s.conns c) :
    Server.State.subscribeAll c topics t =
      (seen c t (Server.State.subscribeAll c topics s).1,(Server.State.subscribeAll c topics s).2) := by
  induction topics generalizing s t with
  | nil => exact Prod.ext (seen_self bus same) rfl
  | cons topic rest ih =>
    unfold Server.State.subscribeAll
    rw [subscribe_seen bus same]
    cases s.subscribe c topic with
    | none => exact Prod.ext (seen_self bus same) rfl
    | some middle =>
      have further := @ih middle (seen c t middle) rfl seen_conns
      rw [seen_seen] at further
      exact further

theorem unsubscribe_seen (bus : t.bus = s.bus) (same : t.conns c = s.conns c) :
    t.unsubscribe c topic = seen c t (s.unsubscribe c topic) := by
  unfold Server.State.unsubscribe
  simp only
  rw [same,bus]
  split
  · exact seen_self bus same
  · exact seen_made _ _

theorem unsubscribeAll_seen (topics : List Ipc.Topic) (bus : t.bus = s.bus) (same : t.conns c = s.conns c) :
    topics.foldl (fun s topic => s.unsubscribe c topic) t =
      seen c t (topics.foldl (fun s topic => s.unsubscribe c topic) s) := by
  induction topics generalizing s t with
  | nil => exact seen_self bus same
  | cons topic rest ih =>
    rw [List.foldl_cons,List.foldl_cons,unsubscribe_seen bus same,
      @ih (s.unsubscribe c topic) (seen c t (s.unsubscribe c topic)) rfl seen_conns,seen_seen]

theorem set_seen (conn : Connection) : (seen c t next).setConn c conn = seen c t (next.setConn c conn) :=
  (@seen_set next (seen c t next) c rfl conn).trans seen_seen

theorem receive_seen (result : Except ReadFailure Frame) (bus : t.bus = s.bus) (same : t.conns c = s.conns c) :
    t.receive c result = seen c t (s.receive c result) := by
  unfold Server.State.receive
  simp only
  cases result with
  | error failure =>
    rw [same]
    cases failure <;> exact seen_set bus _
  | ok frame =>
    cases frame with
    | subscribe topics =>
      simp only
      rw [subscribeAll_seen topics bus same]
      cases Server.State.subscribeAll c topics s with
      | mk after whole => cases whole <;> (simp only [seen_conns]; exact set_seen _)
    | unsubscribe topics =>
      simp only
      rw [unsubscribeAll_seen topics bus same,seen_conns]
      exact set_seen _
    | _ =>
      rw [same]
      exact seen_set bus _

theorem teardown_seen (bus : t.bus = s.bus) (same : t.conns c = s.conns c) : t.teardown c = seen c t (s.teardown c) := by
  unfold Server.State.teardown
  simp only
  rw [same,bus]
  exact seen_made _ _

theorem act_seen (what : Act) (bus : t.bus = s.bus) (same : t.conns c = s.conns c) :
    Server.act t c what = (Server.act s c what).map (seen c t) := by
  unfold Server.act
  simp only
  rw [same]
  cases what with
  | read result =>
    simp only
    split
    · exact congrArg some (receive_seen result bus same)
    · rfl
  | forwarderGets topic =>
    simp only
    rw [bus]
    split
    · split
      · exact congrArg some (seen_made _ _)
      · rfl
    · rfl
  | forwarderPuts topic =>
    simp only
    rw [bus]
    split
    · split
      · rfl
      · exact congrArg some (seen_set bus _)
    · rfl
  | forwarderStarts topic | forwarderTimesOut topic =>
    simp only
    rw [bus]
    split
    · exact congrArg some (seen_set bus _)
    · rfl
  | responsePut =>
    simp only
    split
    · split
      · rfl
      · exact congrArg some (seen_set bus _)
    · rfl
  | tornDown =>
    simp only
    split
    · exact congrArg some (teardown_seen bus same)
    · rfl
  | handled outcome | writes | beats | drained | writeFails =>
    simp only
    split
    · exact congrArg some (seen_set bus _)
    · rfl

theorem act_others {what : Act} {other : Nat} (acted : Server.act s c what = some next) (apart : other ≠ c) :
    next.conns other = s.conns other := by
  have own := @act_seen s s c what rfl rfl
  rw [acted] at own
  have same := Option.some.inj own
  rw [same]
  exact Function.update_of_ne apart ..

end

-- A connection that only ever greeted: nothing was subscribed, handled or queued, and
-- besides the greeting and heartbeats it was told at most that it was refused.
structure Bare (conn : Connection) (told : List ResponseFrame) : Prop where
  reader : conn.reader = .reading ∨ conn.reader.done = true
  subs : conn.subs = fun _ => none
  forwarders : conn.forwarderTasks = fun _ => none
  outbound : conn.outbound.items = []
  written : responses conn.written = told

def Front.told : Front → List ResponseFrame
  | .greeting => []
  | .refusing answer => [answer]
  | .refused answer => answer.toList
  | .through _ => []

def Stands (conn model : Connection) : Front → Prop
  | .greeting => conn.reader = .reading ∧ model = conn
  | .through _ => model = conn
  | .refusing _ => conn.reader = .reading ∧ ∃ written, model = { conn with written := written }
  | .refused _ => conn.reader.done = true ∧
      ∃ reader written, reader.done = true ∧ model = { conn with reader := reader, written := written }

structure Alike (int : String → Option Int) (s : State) (t : Server.State) : Prop where
  bus : t.bus = s.server.bus
  stands : ∀ c, Stands (s.server.conns c) (t.conns c) (s.fronts c)
  bare : ∀ c, (∀ version, s.fronts c ≠ .through version) → Bare (s.server.conns c) (s.fronts c).told
  greeted : ∀ c version, s.fronts c = .through version → versionsCompatible int version protocolVersion = true

def alone (conn : Connection) : Act → Option Connection
  | .beats => if conn.writer = .waiting then some (conn.write .ping) else none
  | .drained =>
    if conn.writer = .draining then some { conn with writer := if conn.stop then .finished else .waiting } else none
  | .writeFails => if conn.writer = .draining then some { conn with writer := .failed, stop := true } else none
  | .tornDown =>
    if conn.reader.done || conn.writer.done then some { conn with forwarderTasks := fun _ => none, closed := true }
    else none
  | _ => none

def reads : Act → Bool
  | .read _ => true
  | _ => false

section
variable {s next : Server.State} {c : Nat} {conn model : Connection} {told : List ResponseFrame} {what : Act}

theorem foldl_release_bare (bare : conn.subs = fun _ => none) (topics : List Ipc.Topic) (bus : PubSub) :
    topics.foldl conn.release bus = bus := by
  induction topics with
  | nil => rfl
  | cons topic rest ih =>
    rw [List.foldl_cons,Connection.release,bare]
    exact ih

theorem act_bare (bare : Bare (s.conns c) told) (other : reads what = false) :
    Server.act s c what = (alone (s.conns c) what).map (s.setConn c) := by
  have busy (id : String) (method : RpcMethod) (params : Dict) :
      (s.conns c).reader ≠ .dispatching id method params := by
    intro same
    rcases bare.reader with reading | done
    · cases same.symm.trans reading
    · rw [same] at done
      cases done
  have putting (answer : ResponseFrame) : (s.conns c).reader ≠ .putting answer := by
    intro same
    rcases bare.reader with reading | done
    · cases same.symm.trans reading
    · rw [same] at done
      cases done
  unfold Server.act alone
  cases what with
  | read result => cases other
  | handled outcome =>
    -- The reader is not at a request, by `busy`.
    simp only
    rfl
  | responsePut =>
    simp only
    rfl
  | forwarderStarts topic | forwarderGets topic | forwarderPuts topic | forwarderTimesOut topic =>
    simp only [bare.forwarders,Option.map_none]
  | writes =>
    have empty : (s.conns c).outbound.getNowait = none := by
      unfold Queue.getNowait
      rw [bare.outbound]
    simp only [empty,Option.map_none]
    cases (s.conns c).writer <;> rfl
  | beats =>
    simp only
    cases at_ : (s.conns c).writer <;> rfl
  | drained =>
    simp only
    cases at_ : (s.conns c).writer <;> rfl
  | writeFails =>
    simp only
    cases at_ : (s.conns c).writer <;> rfl
  | tornDown =>
    simp only
    split
    · rw [Server.State.teardown,foldl_release_bare bare.subs]
      rfl
    · rfl

theorem Bare.alone (bare : Bare conn told) {after : Connection} (moved : alone conn what = some after) :
    Bare after told ∧ after.reader = conn.reader := by
  cases what with
  | beats =>
    simp only [Handshake.alone] at moved
    split at moved
    · cases moved
      refine ⟨{ bare with written := ?_ },rfl⟩
      rw [Connection.write,responses_append]
      exact (List.append_nil _).trans bare.written
    · cases moved
  | drained | writeFails =>
    simp only [Handshake.alone] at moved
    split at moved
    · cases moved
      exact ⟨⟨bare.reader,bare.subs,bare.forwarders,bare.outbound,bare.written⟩,rfl⟩
    · cases moved
  | tornDown =>
    simp only [Handshake.alone] at moved
    split at moved
    · cases moved
      exact ⟨⟨bare.reader,bare.subs,rfl,bare.outbound,bare.written⟩,rfl⟩
    · cases moved
  | _ => cases moved

theorem alone_model {after : Connection} {reader : Reader} {written : List Frame}
    (same : reader.done = conn.reader.done) (moved : alone conn what = some after) :
    ∃ later, alone { conn with reader := reader, written := written } what =
      some { after with reader := reader, written := later } := by
  cases what with
  | beats =>
    simp only [alone] at moved ⊢
    split at moved
    · rename_i at_
      cases moved
      exact ⟨written ++ [.ping],if_pos at_⟩
    · cases moved
  | drained | writeFails =>
    simp only [alone] at moved ⊢
    split at moved
    · rename_i at_
      cases moved
      exact ⟨written,if_pos at_⟩
    · cases moved
  | tornDown =>
    simp only [alone] at moved ⊢
    split at moved
    · rename_i at_
      cases moved
      rw [same]
      exact ⟨written,if_pos at_⟩
    · cases moved
  | _ => cases moved

end

section
variable {int : String → Option Int} {s next : State} {t : Server.State} {c : Nat}

theorem Stands.closed {conn model : Connection} {front : Front} (stands : Stands conn model front) :
    model.closed = conn.closed := by
  cases front with
  | greeting => rw [stands.2]
  | through version => rw [show model = conn from stands]
  | refusing answer =>
    obtain ⟨_,written,rfl⟩ := stands
    rfl
  | refused answer =>
    obtain ⟨_,reader,written,_,rfl⟩ := stands
    rfl

theorem Alike.put (alike : Alike int s t) {conn model : Connection} {front : Front} (stands : Stands conn model front)
    (bare : (∀ version, front ≠ .through version) → Bare conn front.told)
    (greeted : ∀ version, front = .through version → versionsCompatible int version protocolVersion = true) :
    Alike int (s.put c conn front) (t.setConn c model) := by
  constructor
  · exact alike.bus
  all_goals
    intro other
    by_cases same : other = c
    · subst same
      simp only [State.put,Server.State.setConn,Function.update_self]
      assumption
    · simp only [State.put,Server.State.setConn,Function.update_of_ne same]
      first
      | exact alike.stands other
      | exact alike.bare other
      | exact alike.greeted other

theorem Alike.waits (alike : Alike int s t) (at_ : s.fronts c = .greeting) :
    (s.server.conns c).reader = .reading ∧ t.conns c = s.server.conns c := by
  have stands := alike.stands c
  rw [at_] at stands
  exact stands

theorem Alike.bareFront (alike : Alike int s t) {front : Front} (at_ : s.fronts c = front)
    (before : ∀ version, front ≠ .through version) : Bare (s.server.conns c) front.told := by
  subst at_
  exact alike.bare c before

def Follows (int : String → Option Int) (t : Server.State) (next : State) : Prop :=
  ∃ after, (after = t ∨ ∃ event, Server.step t event = some after) ∧ Alike int next after

theorem step_read {result : Except ReadFailure Frame} (going : (t.conns c).closed = false)
    (reading : (t.conns c).reader = .reading) :
    Server.step t (.act c (.read result)) = some (t.receive c result) := by
  unfold Server.step Server.act
  simp only [going,reading]
  rfl

def hungUp : Except ReadFailure Frame := .error (.parse "closed mid-frame" .json)

theorem saysClosed_hungUp : saysClosed "closed mid-frame" = true := by decide

theorem receive_hungUp : t.receive c hungUp = t.setConn c ((t.conns c).leave .json) := by
  unfold Server.State.receive hungUp
  simp only [saysClosed_hungUp,if_true]

theorem Alike.refuse (alike : Alike int s t) (at_ : s.fronts c = .greeting) (answer : ResponseFrame) :
    Follows int t (s.refuse c answer) := by
  obtain ⟨reading,same⟩ := alike.waits at_
  have bare := alike.bareFront at_ nofun
  refine ⟨t,.inl rfl,?_⟩
  have self : t.setConn c (t.conns c) = t := by
    unfold Server.State.setConn
    rw [Function.update_eq_self]
  rw [← self]
  refine alike.put ⟨reading,(s.server.conns c).written,same⟩ (fun _ => ?_) nofun
  refine { bare with written := ?_ }
  rw [responses_append,bare.written]
  rfl

theorem Alike.greet (alike : Alike int s t) (going : (s.server.conns c).closed = false)
    (at_ : s.fronts c = .greeting) (result : Except ReadFailure Frame) : Follows int t (greet int s c result) := by
  obtain ⟨reading,same⟩ := alike.waits at_
  have bare := alike.bareFront at_ nofun
  have open_ : (t.conns c).closed = false := by rw [same]; exact going
  have there : (t.conns c).reader = .reading := by rw [same]; exact reading
  cases result with
  | error failure =>
    cases failure with
    | parse text cause =>
      refine ⟨_,.inr ⟨.act c (.read hungUp),step_read open_ there⟩,?_⟩
      rw [receive_hungUp,same]
      refine alike.put ⟨rfl,_,_,rfl,rfl⟩ (fun _ => ?_) nofun
      exact { bare with reader := .inr rfl }
    | tooLarge consumed =>
      refine ⟨_,.inr ⟨.act c (.read (.error (.tooLarge consumed))),step_read open_ there⟩,?_⟩
      unfold Server.State.receive
      simp only [same]
      exact alike.put ⟨rfl,_,_,rfl,rfl⟩ (fun _ => { bare with reader := .inr rfl }) nofun
    | raised text =>
      refine ⟨_,.inr ⟨.act c (.read (.error (.raised text))),step_read open_ there⟩,?_⟩
      unfold Server.State.receive
      simp only [same]
      exact alike.put ⟨rfl,_,_,rfl,rfl⟩ (fun _ => { bare with reader := .inr rfl }) nofun
  | ok frame =>
    cases frame with
    | hello version capabilities =>
      simp only [Handshake.greet]
      split
      · rename_i good
        refine ⟨_,.inr ⟨.act c (.read (.ok (.hello version capabilities))),step_read open_ there⟩,?_⟩
        unfold Server.State.receive
        simp only [same]
        exact alike.put rfl (fun before => absurd rfl (before version)) (fun _ same => by cases same; exact good)
      · exact alike.refuse at_ _
    | _ => exact alike.refuse at_ _

theorem Alike.refusing (alike : Alike int s t) {answer : ResponseFrame} (at_ : s.fronts c = .refusing answer) :
    (s.server.conns c).reader = .reading ∧
      ∃ written, t.conns c = { s.server.conns c with written := written } := by
  have stands := alike.stands c
  rw [at_] at stands
  exact stands

-- After the error is written, or cannot be, the reader ends; in the model its peer hung up.
theorem Alike.drained (alike : Alike int s t) (going : (s.server.conns c).closed = false) {answer : ResponseFrame}
    (at_ : s.fronts c = .refusing answer) : Follows int t
      (s.put c { s.server.conns c with reader := .left none, stop := true } (.refused (some answer))) := by
  obtain ⟨reading,written,same⟩ := alike.refusing at_
  have bare := alike.bareFront at_ nofun
  have open_ : (t.conns c).closed = false := by rw [same]; exact going
  have there : (t.conns c).reader = .reading := by rw [same]; exact reading
  refine ⟨_,.inr ⟨.act c (.read hungUp),step_read open_ there⟩,?_⟩
  rw [receive_hungUp,same]
  exact alike.put ⟨rfl,_,_,rfl,rfl⟩ (fun _ => ⟨.inr rfl,bare.subs,bare.forwarders,bare.outbound,bare.written⟩) nofun

theorem Alike.failed (alike : Alike int s t) (going : (s.server.conns c).closed = false) {answer : ResponseFrame}
    (at_ : s.fronts c = .refusing answer) : Follows int t
      (s.put c { s.server.conns c with reader := .raised } (.refused (some answer))) := by
  obtain ⟨reading,written,same⟩ := alike.refusing at_
  have bare := alike.bareFront at_ nofun
  have open_ : (t.conns c).closed = false := by rw [same]; exact going
  have there : (t.conns c).reader = .reading := by rw [same]; exact reading
  refine ⟨_,.inr ⟨.act c (.read (.error (.raised ""))),step_read open_ there⟩,?_⟩
  unfold Server.State.receive
  simp only [same]
  exact alike.put ⟨rfl,_,_,rfl,rfl⟩ (fun _ => { bare with reader := .inr rfl }) nofun

theorem Alike.same_act (alike : Alike int s t) {what : Act} {server : Server.State}
    (same : t.conns c = s.server.conns c) (going : (s.server.conns c).closed = false)
    (acted : Server.act s.server c what = some server)
    (stands : Stands (server.conns c) (server.conns c) (s.fronts c))
    (bare : (∀ version, s.fronts c ≠ .through version) → Bare (server.conns c) (s.fronts c).told) :
    Follows int t { s with server := server } := by
  have moved := @act_seen s.server t c what alike.bus same
  rw [acted] at moved
  refine ⟨seen c t server,.inr ⟨.act c what,?_⟩,?_⟩
  · unfold Server.step
    simp only [same,going]
    exact moved
  · constructor
    · rfl
    · intro other
      by_cases here : other = c
      · subst here
        rw [seen_conns]
        exact stands
      · rw [show (seen c t server).conns other = t.conns other from Function.update_of_ne here ..,
          show ({ s with server := server } : State).server.conns other = _ from act_others acted here]
        exact alike.stands other
    · intro other before
      by_cases here : other = c
      · subst here
        exact bare before
      · rw [show ({ s with server := server } : State).server.conns other = _ from act_others acted here]
        exact alike.bare other before
    · exact alike.greeted

theorem put_front (s : State) (c : Nat) (conn : Connection) :
    s.put c conn (s.fronts c) = { s with server := s.server.setConn c conn } := by
  unfold State.put
  rw [Function.update_eq_self]

theorem Alike.refused_act (alike : Alike int s t) {what : Act} {server : Server.State}
    {reader : Reader} {written : List Frame}
    (same : t.conns c = { s.server.conns c with reader := reader, written := written })
    (plain : reader = .reading ∨ reader.done = true) (done : reader.done = (s.server.conns c).reader.done)
    (going : (s.server.conns c).closed = false)
    (other : reads what = false) (before : ∀ version, s.fronts c ≠ .through version)
    (acted : Server.act s.server c what = some server)
    (stands : ∀ conn written, conn.reader = (s.server.conns c).reader →
      Stands conn { conn with reader := reader, written := written } (s.fronts c)) :
    Follows int t { s with server := server } := by
  have bare := alike.bare c before
  rw [act_bare bare other] at acted
  obtain ⟨after,moved,rfl⟩ := Option.map_eq_some_iff.mp acted
  obtain ⟨kept,still⟩ := bare.alone moved
  obtain ⟨later,model⟩ := @alone_model _ _ _ reader written done moved
  have bareModel : Bare (t.conns c) (responses written) := by
    rw [same]
    exact ⟨plain,bare.subs,bare.forwarders,bare.outbound,rfl⟩
  refine ⟨t.setConn c { after with reader := reader, written := later },.inr ⟨.act c what,?_⟩,?_⟩
  · unfold Server.step
    simp only [same,going]
    rw [act_bare bareModel other,same,model]
    rfl
  · rw [← put_front]
    exact alike.put (stands after later still) (fun _ => kept) fun version at_ => absurd at_ (before version)

theorem mayServe_through {fronts : Nat → Front} {what : Act} (may : mayServe fronts (.act c what) = true)
    (before : ∀ version, fronts c ≠ .through version) : reads what = false := by
  cases what with
  | read result =>
    -- Only `through` lets it read.
    simp only [mayServe] at may
    cases may
  | _ => rfl

theorem Alike.act (alike : Alike int s t) {what : Act} {server : Server.State}
    (may : mayServe s.fronts (.act c what) = true) (going : (s.server.conns c).closed = false)
    (acted : Server.act s.server c what = some server) : Follows int t { s with server := server } := by
  have stands := alike.stands c
  cases at_ : s.fronts c with
  | through version =>
    rw [at_] at stands
    refine alike.same_act stands going acted ?_ ?_
    · rw [at_]
      rfl
    · exact fun before => absurd at_ (before version)
  | greeting =>
    rw [at_] at stands
    have before : ∀ version, s.fronts c ≠ .through version := fun version same => nomatch at_.symm.trans same
    have bare := alike.bare c before
    have other := mayServe_through may before
    have known := acted
    rw [act_bare bare other] at known
    obtain ⟨after,moved,rfl⟩ := Option.map_eq_some_iff.mp known
    obtain ⟨kept,still⟩ := bare.alone moved
    refine alike.same_act stands.2 going acted ?_ ?_
    · rw [at_,Server.State.setConn_self]
      exact ⟨still.trans stands.1,rfl⟩
    · intro _
      rw [Server.State.setConn_self]
      exact kept
  | refusing answer =>
    rw [at_] at stands
    obtain ⟨reading,written,same⟩ := stands
    have before : ∀ version, s.fronts c ≠ .through version := fun version same => nomatch at_.symm.trans same
    refine @Alike.refused_act _ _ _ _ alike _ _ (s.server.conns c).reader written same (.inl reading) rfl going
      (mayServe_through may before) before acted ?_
    intro conn later still
    rw [at_]
    refine ⟨still.trans reading,later,?_⟩
    rw [← still]
  | refused answer =>
    rw [at_] at stands
    obtain ⟨ended,reader,written,done,same⟩ := stands
    have before : ∀ version, s.fronts c ≠ .through version := fun version same => nomatch at_.symm.trans same
    refine alike.refused_act same (.inr done) (done.trans ended.symm) going (mayServe_through may before) before acted ?_
    intro conn later still
    rw [at_]
    exact ⟨by rw [still]; exact ended,reader,later,done,rfl⟩

theorem Alike.step (alike : Alike int s t) {event : Event} (stepped : step int s event = some next) :
    Follows int t next := by
  cases event with
  | greets c result =>
    simp only [Handshake.step] at stepped
    split at stepped
    · cases stepped
    · rename_i going
      rw [Bool.not_eq_true] at going
      split at stepped
      · rename_i at_
        cases stepped
        exact alike.greet going at_ result
      · cases stepped
  | refusalDrained c =>
    simp only [Handshake.step] at stepped
    split at stepped
    · cases stepped
    · rename_i going
      rw [Bool.not_eq_true] at going
      split at stepped
      · rename_i answer at_
        cases stepped
        exact alike.drained going at_
      · cases stepped
  | refusalFails c =>
    simp only [Handshake.step] at stepped
    split at stepped
    · cases stepped
    · rename_i going
      rw [Bool.not_eq_true] at going
      split at stepped
      · rename_i answer at_
        cases stepped
        exact alike.failed going at_
      · cases stepped
  | serves event =>
    simp only [Handshake.step] at stepped
    split at stepped
    · rename_i may
      obtain ⟨server,served,rfl⟩ := Option.map_eq_some_iff.mp stepped
      cases event with
      | publish topic payload =>
        cases served
        refine ⟨{ t with bus := t.bus.publish topic payload },.inr ⟨.publish topic payload,rfl⟩,?_⟩
        exact ⟨congrArg (PubSub.publish · topic payload) alike.bus,alike.stands,alike.bare,alike.greeted⟩
      | act c what =>
        obtain ⟨going,acted⟩ := step_act served
        exact alike.act may going acted
    · cases stepped

theorem alike_start : Alike int start Server.start where
  bus := rfl
  stands _ := ⟨rfl,rfl⟩
  bare _ _ := ⟨.inl rfl,rfl,rfl,rfl,rfl⟩
  greeted _ _ same := nomatch same

-- Whatever the peers send, and in any order of steps: a connection is served only after
-- a greeting of a compatible version, up to then nothing of it reaches the bus or a
-- handler and it is told at most that it was refused; and the daemon's state is one that
-- the daemon without handshakes reaches, on the bus and on every connection it serves.
theorem handshake_transparent (reached : Reachable (daemon int) start s) :
    ∃ t, Reachable Server.system Server.start t ∧ t.bus = s.server.bus ∧ ∀ c,
      match s.fronts c with
      | .through version => versionsCompatible int version protocolVersion = true ∧ t.conns c = s.server.conns c
      | front => Bare (s.server.conns c) front.told := by
  have followed : ∃ t, Reachable Server.system Server.start t ∧ Alike int s t := by
    apply reached.invariant (P := fun s => ∃ t, Reachable Server.system Server.start t ∧ Alike int s t)
    · exact ⟨Server.start,.refl,alike_start⟩
    · rintro s event next ⟨t,known,alike⟩ _ stepped
      obtain ⟨after,moved,follows⟩ := alike.step stepped
      rcases moved with rfl | ⟨event,stepped⟩
      · exact ⟨after,known,follows⟩
      · exact ⟨after,.step known trivial stepped,follows⟩
  obtain ⟨t,known,alike⟩ := followed
  refine ⟨t,known,alike.bus,fun c => ?_⟩
  have stands := alike.stands c
  cases at_ : s.fronts c with
  | through version =>
    rw [at_] at stands
    exact ⟨alike.greeted c version at_,stands⟩
  | greeting => exact alike.bareFront at_ nofun
  | refusing answer => exact alike.bareFront at_ nofun
  | refused answer => exact alike.bareFront at_ nofun

end

def oneOrTwo (text : String) : Option Int := if text = "1" then some 1 else if text = "2" then some 2 else none

def twoPeers : List Event :=
  [.greets 0 (.ok (.hello "1.4" [])),.greets 1 (.ok (.request "x" .listRuns ∅)),.serves (.act 1 .beats),
    .refusalDrained 1,.serves (.act 0 (.read (.ok (.request "y" .listRuns ∅)))),.serves (.act 1 .tornDown)]

def parted (first second : Front) : Bool :=
  match first,second with
  | .through version,.refused (some _) => version == "1.4"
  | _,_ => false

theorem handshake_transparent_peers : ∃ (s : State) (t : Server.State), s.fronts 0 = .through "1.4" ∧
    (s.server.conns 1).closed = true ∧ Reachable Server.system Server.start t ∧ t.conns 0 = s.server.conns 0 ∧
    Bare (s.server.conns 1) (s.fronts 1).told ∧ (s.fronts 1).told.length = 1 := by
  have played : ((daemon oneOrTwo).play start twoPeers).any (fun s => (s.server.conns 1).closed &&
      parted (s.fronts 0) (s.fronts 1)) = true := by
    decide +kernel
  obtain ⟨s,run,shown⟩ := System.found played
  obtain ⟨t,known,_,conns⟩ := handshake_transparent run
  rw [Bool.and_eq_true] at shown
  obtain ⟨closed,fronts⟩ := shown
  unfold parted at fronts
  split at fronts
  · rename_i version answer first second
    have served := conns 0
    have refused := conns 1
    rw [first] at served
    rw [second] at refused
    rw [eq_of_beq fronts] at first
    refine ⟨s,t,first,closed,known,served.2,?_,?_⟩
    · rw [second]
      exact refused
    · rw [second]
      rfl
  · cases fronts

end HyprlandAgent.Handshake
