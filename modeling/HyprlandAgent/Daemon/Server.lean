import HyprlandAgent.Transition
import HyprlandAgent.Ipc.Framing
import HyprlandAgent.Daemon.PubSub

-- Unix socket server: the tasks of every connection after its handshake, and the
-- bus they share.
namespace HyprlandAgent.Server
open Ipc Transition

inductive Handled where
  | returned (result : Dict)
  | keyError (text : String)
  | valueError (text : String)
  | otherError (text : String)

def handlers : List RpcMethod :=
  [.planTask,.runTask,.cancelRun,.listRuns,.getRun,.listWindows,.screenshot,.reloadRules,
    .armKillswitch,.daemonStatus,.recordFeedback,.runsAnalytics,.learningList,.learningApprove,
    .learningReject,.learningExplain,.memorySearch,.memoryGet]

def dispatch (requestId : String) (method : RpcMethod) (outcome : Handled) : ResponseFrame :=
  if method ∈ handlers then
    match outcome with
    | .returned result => makeOkResponse requestId result
    | .keyError text => makeErrorResponse requestId text "not_found"
    | .valueError text => makeErrorResponse requestId text "invalid_params"
    | .otherError text => makeErrorResponse requestId text "internal_error"
  else makeErrorResponse requestId ("unknown method: " ++ method.value) "not_implemented"

theorem every_method_handled (method : RpcMethod) : method ∈ handlers := by
  cases method <;> decide

theorem dispatch_id (requestId : String) (method : RpcMethod) (outcome : Handled) :
    (dispatch requestId method outcome).id = requestId := by
  unfold dispatch
  rw [if_pos (every_method_handled method)]
  cases outcome <;> rfl

-- The reader task. It leaves its loop on a stop, or on a parse error of that cause
-- whose text it takes for the end of the stream; `raised` is an exception that
-- nothing catches.
inductive Reader where
  | reading
  | dispatching (id : String) (method : RpcMethod) (params : Dict)
  | putting (response : ResponseFrame)
  | left (cause : Option ParseCause)
  | raised

inductive Forwarding where
  | starting
  | waiting
  | holding (payload : Dict)
  | finished

structure Forwarder where
  sub : SubId
  phase : Forwarding

inductive Writer where
  | waiting | draining | finished | failed
  deriving DecidableEq, Repr

structure Connection where
  reader : Reader := .reading
  subs : Ipc.Topic → Option SubId := fun _ => none
  forwarderTasks : Ipc.Topic → Option Forwarder := fun _ => none
  created : Nat := 0
  outbound : Queue Frame := ⟨4000,[]⟩
  writer : Writer := .waiting
  written : List Frame := [.hello "1.0"]
  stop : Bool := false
  closed : Bool := false

-- `"closed mid-frame" in text`
def saysClosed (text : String) : Bool :=
  text.toList.tails.any fun tail => "closed mid-frame".toList.isPrefixOf tail

namespace Connection
variable (conn : Connection)

-- The top of the read loop; leaving it sets the stop.
def resume : Connection :=
  if conn.stop then { conn with reader := .left none } else { conn with reader := .reading }

def leave (cause : ParseCause) : Connection := { conn with reader := .left (some cause),stop := true }

-- `await outbound.put(response)`: a full queue makes the reader wait.
def offer (response : ResponseFrame) : Connection :=
  match conn.outbound.putNowait (.response response) with
  | some queue => { conn with outbound := queue }.resume
  | none => { conn with reader := .putting response }

def setForwarder (topic : Ipc.Topic) (task : Option Forwarder) : Connection :=
  { conn with forwarderTasks := Function.update conn.forwarderTasks topic task }

def forward (topic : Ipc.Topic) (sub : SubId) (disconnected : Bool) : Connection :=
  if conn.stop then conn.setForwarder topic (some ⟨sub,.finished⟩)
  else if disconnected then { conn with stop := true }.setForwarder topic (some ⟨sub,.finished⟩)
  else conn.setForwarder topic (some ⟨sub,.waiting⟩)

-- `await outbound.put(EventFrame(...))`
def offerEvent (topic : Ipc.Topic) (sub : SubId) (disconnected : Bool) (payload : Dict) : Connection :=
  match conn.outbound.putNowait (.event topic payload) with
  | some queue => { conn with outbound := queue }.forward topic sub disconnected
  | none => conn.setForwarder topic (some ⟨sub,.holding payload⟩)

def write (frame : Frame) : Connection :=
  { conn with written := conn.written ++ [frame],writer := .draining }

def release (bus : PubSub) (topic : Ipc.Topic) : PubSub :=
  match conn.subs topic with
  | some id => bus.unsubscribe topic id
  | none => bus

end Connection

structure State where
  bus : PubSub
  conns : Nat → Connection

namespace State
variable (s : State) (c : Nat)

def setConn (conn : Connection) : State := { s with conns := Function.update s.conns c conn }

@[simp] theorem setConn_self (conn : Connection) : (s.setConn c conn).conns c = conn :=
  Function.update_self ..

def subscribe (topic : Ipc.Topic) : Option State :=
  let conn := s.conns c
  match conn.subs topic with
  | some _ => some s
  | none =>
    let id : SubId := ⟨c,conn.created⟩
    (s.bus.subscribe topic id).map fun bus =>
      { bus := bus
        conns := Function.update s.conns c
          { conn with
            subs := Function.update conn.subs topic (some id)
            forwarderTasks := Function.update conn.forwarderTasks topic (some ⟨id,.starting⟩)
            created := conn.created + 1 } }

-- The topics of one frame; a `KeyError` keeps what the earlier ones did.
def subscribeAll : List Ipc.Topic → State → State × Bool
  | [],s => (s,true)
  | topic :: rest,s =>
    match s.subscribe c topic with
    | some next => subscribeAll rest next
    | none => (s,false)

def unsubscribe (topic : Ipc.Topic) : State :=
  let conn := s.conns c
  match conn.subs topic with
  | none => s
  | some id =>
    { bus := s.bus.unsubscribe topic id
      conns := Function.update s.conns c
        { conn with
          subs := Function.update conn.subs topic none
          forwarderTasks := Function.update conn.forwarderTasks topic none } }

def receive (result : Except ReadFailure Frame) : State :=
  let conn := s.conns c
  match result with
  | .error (.parse text cause) => s.setConn c (if saysClosed text then conn.leave cause else conn.resume)
  | .error _ => s.setConn c { conn with reader := .raised }
  | .ok (.request id method params) => s.setConn c { conn with reader := .dispatching id method params }
  | .ok (.subscribe topics) =>
    match subscribeAll c topics s with
    | (next,true) => next.setConn c (next.conns c).resume
    | (next,false) => next.setConn c { next.conns c with reader := .raised }
  | .ok (.unsubscribe topics) =>
    let next := topics.foldl (fun s topic => s.unsubscribe c topic) s
    next.setConn c (next.conns c).resume
  | .ok _ => s.setConn c conn.resume

-- After the first of the reader and the writer is done: the other tasks are
-- cancelled and the subscribers taken off the bus.
def teardown : State :=
  let conn := s.conns c
  { bus := Ipc.Topic.all.foldl conn.release s.bus
    conns := Function.update s.conns c { conn with forwarderTasks := fun _ => none,closed := true } }

end State

def Reader.done : Reader → Bool
  | .left _ => true
  | .raised => true
  | _ => false

def Writer.done : Writer → Bool
  | .finished => true
  | .failed => true
  | _ => false

inductive Act where
  | read (result : Except ReadFailure Frame)
  | handled (outcome : Handled)
  | responsePut
  | forwarderStarts (topic : Ipc.Topic)
  | forwarderGets (topic : Ipc.Topic)
  | forwarderPuts (topic : Ipc.Topic)
  | forwarderTimesOut (topic : Ipc.Topic)
  | writes
  | beats
  | drained
  | writeFails
  | tornDown

inductive Event where
  | publish (topic : Ipc.Topic) (payload : Dict)
  | act (c : Nat) (act : Act)

-- What one task of a connection does between two suspensions; a timeout that
-- fires while an item is there leaves the item where it is.
def act (s : State) (c : Nat) (what : Act) : Option State :=
  let conn := s.conns c
  match what with
  | .read result =>
    match conn.reader with
    | .reading => some (s.receive c result)
    | _ => none
  | .handled outcome =>
    match conn.reader with
    | .dispatching id method _ => some (s.setConn c (conn.offer (dispatch id method outcome)))
    | _ => none
  | .responsePut =>
    match conn.reader with
    | .putting response =>
      if conn.outbound.full then none else some (s.setConn c (conn.offer response))
    | _ => none
  | .forwarderStarts topic =>
    match conn.forwarderTasks topic with
    | some ⟨sub,.starting⟩ =>
      some (s.setConn c (conn.forward topic sub (s.bus.objects sub).disconnected))
    | _ => none
  | .forwarderGets topic =>
    match conn.forwarderTasks topic with
    | some ⟨sub,.waiting⟩ =>
      match (s.bus.objects sub).queue.getNowait with
      | some (payload,queue) =>
        some { bus := { s.bus with
                 objects := Function.update s.bus.objects sub { s.bus.objects sub with queue := queue } }
               conns := Function.update s.conns c
                 (conn.offerEvent topic sub (s.bus.objects sub).disconnected payload) }
      | none => none
    | _ => none
  | .forwarderPuts topic =>
    match conn.forwarderTasks topic with
    | some ⟨sub,.holding payload⟩ =>
      if conn.outbound.full then none
      else some (s.setConn c (conn.offerEvent topic sub (s.bus.objects sub).disconnected payload))
    | _ => none
  | .forwarderTimesOut topic =>
    match conn.forwarderTasks topic with
    | some ⟨sub,.waiting⟩ =>
      some (s.setConn c (conn.forward topic sub (s.bus.objects sub).disconnected))
    | _ => none
  | .writes =>
    match conn.writer,conn.outbound.getNowait with
    | .waiting,some (frame,queue) => some (s.setConn c ({ conn with outbound := queue }.write frame))
    | _,_ => none
  | .beats =>
    match conn.writer with
    | .waiting => some (s.setConn c (conn.write .ping))
    | _ => none
  | .drained =>
    match conn.writer with
    | .draining =>
      some (s.setConn c { conn with writer := if conn.stop then .finished else .waiting })
    | _ => none
  | .writeFails =>
    match conn.writer with
    | .draining => some (s.setConn c { conn with writer := .failed,stop := true })
    | _ => none
  | .tornDown => if conn.reader.done || conn.writer.done then some (s.teardown c) else none

def step (s : State) : Event → Option State
  | .publish topic payload => some { s with bus := s.bus.publish topic payload }
  | .act c what => if (s.conns c).closed then none else act s c what

def system : System State Event := ⟨step⟩

theorem step_act {s next : State} {c : Nat} {what : Act} (stepped : step s (.act c what) = some next) :
    (s.conns c).closed = false ∧ act s c what = some next := by
  simp only [step] at stepped
  split at stepped
  · cases stepped
  · rename_i going
    exact ⟨by simpa using going,stepped⟩

def start : State := ⟨⟨fun _ => [],fun _ => ⟨.disconnect,⟨0,[]⟩,false⟩⟩,fun _ => {}⟩

end HyprlandAgent.Server
