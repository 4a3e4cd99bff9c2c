import HyprlandAgent.Client.Connection
import HyprlandAgent.Daemon.Replies
import Mathlib.Data.List.ReduceOption

-- The daemon with its clients: what one end of a connection writes the other reads,
-- in the order it was written.
namespace HyprlandAgent.Session
open Ipc Transition
open Server (Request requests responses Speaks)

def happenings (frames : List Frame) : List (Ipc.Topic × Dict) :=
  frames.filterMap fun
    | .event topic payload => some (topic,payload)
    | _ => none

structure Served where
  request : Request
  ending : Server.Handled

def Served.answer (served : Served) : ResponseFrame :=
  Server.dispatch served.request.id served.request.method served.ending

def Served.verdict (served : Served) : Except Client.RpcError Dict :=
  match served.ending with
  | .returned result => .ok result
  | .keyError text => .error ⟨"not_found",text⟩
  | .valueError text => .error ⟨"invalid_params",text⟩
  | .otherError text => .error ⟨"internal_error",text⟩

@[simp] theorem Served.answer_id (served : Served) : served.answer.id = served.request.id :=
  Server.dispatch_id ..

theorem Served.outcome_answer (served : Served) : Client.outcome served.answer = served.verdict := by
  unfold Served.answer Server.dispatch Served.verdict
  rw [if_pos (Server.every_method_handled _)]
  cases served.ending <;> rfl

-- A client and its streams: what the daemon has not read yet of what it wrote, and how
-- many of the daemon's frames it has read, the one of the handshake included. The last
-- two fields are history.
structure Link where
  client : Client.DaemonConnection := Client.start
  upstream : List Frame := []
  received : Nat := 1
  asked : List Request := []
  served : List Served := []

structure State where
  server : Server.State
  links : Nat → Link

def State.setLink (s : State) (c : Nat) (link : Link) : State :=
  { s with links := Function.update s.links c link }

-- `stumbles` and `breaks` are reads that fail, of a frame that is lost then or of the
-- end of the stream.
inductive Event where
  | asks (c : Nat) (id : String) (method : RpcMethod) (params : Dict)
  | subscribes (c : Nat) (topics : List Ipc.Topic)
  | caller (c : Nat) (event : Client.Event)
  | arrives (c : Nat)
  | breaks (c : Nat) (failure : ReadFailure)
  | takes (c : Nat)
  | stumbles (c : Nat) (failure : ReadFailure)
  | serves (event : Server.Event)

def callerAlone : Client.Event → Bool
  | .request _ | .read _ => false
  | _ => true

def serverAlone : Server.Event → Bool
  | .act _ (.read _) => false
  | _ => true

def Link.record (link : Link) (reader : Server.Reader) : Server.Act → Link
  | .handled ending =>
    match reader with
    | .dispatching id method params =>
      { link with served := link.served ++ [⟨⟨id,method,params⟩,ending⟩] }
    | _ => link
  | _ => link

def State.recorded (s : State) : Server.Event → Nat → Link
  | .act c what => Function.update s.links c ((s.links c).record (s.server.conns c).reader what)
  | .publish _ _ => s.links

def step (s : State) : Event → Option State
  | .asks c id method params =>
    let link := s.links c
    (Client.step link.client (.request id)).map fun client => s.setLink c
      { link with client := client
                  upstream := link.upstream ++ [.request id method params]
                  asked := link.asked ++ [⟨id,method,params⟩] }
  | .subscribes c topics =>
    let link := s.links c
    some (s.setLink c { link with upstream := link.upstream ++ [.subscribe topics] })
  | .caller c event =>
    let link := s.links c
    if callerAlone event then
      (Client.step link.client event).map fun client => s.setLink c { link with client := client }
    else none
  | .arrives c =>
    let link := s.links c
    match (s.server.conns c).written[link.received]? with
    | none => none
    | some frame => (Client.step link.client (.read (.ok frame))).map fun client => s.setLink c
        { link with client := client,received := link.received + 1 }
  | .breaks c failure =>
    let link := s.links c
    (Client.step link.client (.read (.error failure))).map fun client =>
      s.setLink c { link with client := client }
  | .takes c =>
    let link := s.links c
    match link.upstream with
    | [] => none
    | frame :: rest => (Server.step s.server (.act c (.read (.ok frame)))).map fun server =>
        { s with server := server }.setLink c { link with upstream := rest }
  | .stumbles c failure =>
    let link := s.links c
    (Server.step s.server (.act c (.read (.error failure)))).map fun server =>
      { s with server := server }.setLink c { link with upstream := link.upstream.tail }
  | .serves event =>
    if serverAlone event then
      (Server.step s.server event).map fun server => { server := server,links := s.recorded event }
    else none

def system : System State Event := ⟨step⟩

def start : State := ⟨Server.start,fun _ => {}⟩

variable {s next : State} {c : Nat} {id : String} {client : Client.DaemonConnection} {call : Client.Call}
  {conn : Server.Connection} {link : Link} {heard : List ResponseFrame}

structure Heard (client : Client.DaemonConnection) (heard : List ResponseFrame) : Prop where
  resolved : ∀ id call answer, client.calls id = some call → call.future = .resolved answer →
    answer ∈ heard ∧ answer.id = id
  waiting : ∀ id call, client.calls id = some call → call.future = .unresolved →
    ∀ answer ∈ heard, answer.id ≠ id
  returned : ∀ id call value, client.calls id = some call → call.phase = .returned value →
    ∃ answer, call.future = .resolved answer ∧ Client.outcome answer = value

theorem Heard.setCall (held : Heard client heard)
    (resolved : ∀ answer, call.future = .resolved answer → answer ∈ heard ∧ answer.id = id)
    (waiting : call.future = .unresolved → ∀ answer ∈ heard, answer.id ≠ id)
    (returned : ∀ value, call.phase = .returned value →
      ∃ answer, call.future = .resolved answer ∧ Client.outcome answer = value) :
    Heard (client.setCall id call) heard := by
  constructor
  · intro other found answer listed gave
    by_cases same : other = id
    · subst same
      simp only [Client.DaemonConnection.setCall,Function.update_self,Option.some.injEq] at listed
      subst listed
      exact resolved answer gave
    · simp only [Client.DaemonConnection.setCall,Function.update_of_ne same] at listed
      exact held.resolved other found answer listed gave
  · intro other found listed open_
    by_cases same : other = id
    · subst same
      simp only [Client.DaemonConnection.setCall,Function.update_self,Option.some.injEq] at listed
      subst listed
      exact waiting open_
    · simp only [Client.DaemonConnection.setCall,Function.update_of_ne same] at listed
      exact held.waiting other found listed open_
  · intro other found value listed ended
    by_cases same : other = id
    · subst same
      simp only [Client.DaemonConnection.setCall,Function.update_self,Option.some.injEq] at listed
      subst listed
      exact returned value ended
    · simp only [Client.DaemonConnection.setCall,Function.update_of_ne same] at listed
      exact held.returned other found value listed ended

theorem Heard.goes_on {old : Client.Call} (held : Heard client heard) (present : client.calls id = some old)
    (kept : call.future = old.future ∨ call.future = .cancelled)
    (returned : ∀ value, call.phase = .returned value →
      ∃ answer, call.future = .resolved answer ∧ Client.outcome answer = value) :
    Heard (client.setCall id call) heard := by
  refine held.setCall ?_ ?_ returned
  · intro answer gave
    rcases kept with same | cancelled
    · exact held.resolved id old answer present (same.symm.trans gave)
    · rw [cancelled] at gave
      cases gave
  · intro open_
    rcases kept with same | cancelled
    · exact held.waiting id old present (same.symm.trans open_)
    · rw [cancelled] at open_
      cases open_

structure Same (client next : Client.DaemonConnection) : Prop where
  calls : ∀ id, (next.calls id).isSome = (client.calls id).isSome
  told : next.eventQueue.reduceOption = client.eventQueue.reduceOption

theorem same_setCall {old : Client.Call} (present : client.calls id = some old) :
    Same client (client.setCall id call) := by
  refine ⟨?_,rfl⟩
  intro other
  by_cases same : other = id
  · subst same
    simp [Client.DaemonConnection.setCall,present]
  · simp [Client.DaemonConnection.setCall,same]

theorem same_finish (client : Client.DaemonConnection) : Same client client.finish := by
  refine ⟨fun _ => rfl,?_⟩
  show (client.eventQueue ++ [none]).reduceOption = _
  rw [List.reduceOption_append]
  simp

theorem caller_step {event : Client.Event} {after : Client.DaemonConnection} (held : Heard client heard)
    (alone : callerAlone event = true) (stepped : Client.step client event = some after) :
    Heard after heard ∧ Same client after := by
  have going {id : String} {old : Client.Call} {phase : Client.Phase} {future : Client.Future}
      (found : client.calls id = some old) (kept : future = old.future ∨ future = .cancelled)
      (open_ : ∀ value, phase ≠ .returned value) :
      Heard (client.setCall id ⟨phase,future⟩) heard ∧ Same client (client.setCall id ⟨phase,future⟩) :=
    ⟨held.goes_on found kept fun value ended => absurd ended (open_ value),same_setCall found⟩
  have answered {id : String} {phase : Client.Phase} {answer : ResponseFrame}
      (found : client.calls id = some ⟨phase,.resolved answer⟩) :
      Heard (client.setCall id ⟨.returned (Client.outcome answer),.resolved answer⟩) heard ∧
        Same client (client.setCall id ⟨.returned (Client.outcome answer),.resolved answer⟩) := by
    refine ⟨held.goes_on found (.inl rfl) ?_,same_setCall found⟩
    intro value ended
    exact ⟨answer,rfl,Client.Phase.returned.inj ended⟩
  cases event with
  | request id => cases alone
  | read result => cases alone
  | sent id =>
    simp only [Client.step] at stepped
    split at stepped
    · rename_i answer found
      cases stepped
      exact answered found
    · rename_i future _ found
      cases stepped
      exact going found (.inl rfl) fun _ ended => by cases ended
    · cases stepped
  | sendFails id =>
    simp only [Client.step] at stepped
    split at stepped
    · rename_i future found
      cases stepped
      exact going found (.inl rfl) fun _ ended => by cases ended
    · cases stepped
  | wakes id =>
    simp only [Client.step] at stepped
    split at stepped
    · rename_i answer found
      cases stepped
      exact answered found
    · cases stepped
  | abandons id =>
    simp only [Client.step] at stepped
    split at stepped
    · rename_i future found
      cases stepped
      exact going found (.inl rfl) fun _ ended => by cases ended
    · rename_i found
      cases stepped
      exact going found (.inr rfl) fun _ ended => by cases ended
    · rename_i future _ found
      cases stepped
      exact going found (.inl rfl) fun _ ended => by cases ended
    · cases stepped
  | close =>
    simp only [Client.step] at stepped
    cases stepped
    split
    · exact ⟨held,fun _ => rfl,rfl⟩
    · exact ⟨⟨held.resolved,held.waiting,held.returned⟩,same_finish client⟩

theorem resolve_queue (client : Client.DaemonConnection) (answer : ResponseFrame) :
    (client.resolve answer).eventQueue = client.eventQueue := by
  unfold Client.DaemonConnection.resolve
  simp only
  repeat' split
  all_goals rfl

theorem Heard.resolve (held : Heard client heard) (tracked : Client.Tracked client) (answer : ResponseFrame) :
    Heard (client.resolve answer) (heard ++ [answer]) := by
  constructor
  · intro id call other listed gave
    rw [Client.resolve_calls tracked] at listed
    obtain ⟨old,present,rfl⟩ := Option.map_eq_some_iff.mp listed
    split at gave
    · rename_i hit
      cases gave
      exact ⟨List.mem_append_right _ (List.mem_singleton.mpr rfl),hit.1.symm⟩
    · obtain ⟨inside,own⟩ := held.resolved id old other present gave
      exact ⟨List.mem_append_left _ inside,own⟩
  · intro id call listed open_ other inside
    rw [Client.resolve_calls tracked] at listed
    obtain ⟨old,present,rfl⟩ := Option.map_eq_some_iff.mp listed
    split at open_
    · cases open_
    · rename_i missed
      rcases List.mem_append.mp inside with before | new
      · exact held.waiting id old present open_ other before
      · obtain rfl := List.mem_singleton.mp new
        intro same
        exact missed ⟨same.symm,by rw [open_]; rfl⟩
  · intro id call value listed ended
    rw [Client.resolve_calls tracked] at listed
    obtain ⟨old,present,rfl⟩ := Option.map_eq_some_iff.mp listed
    split at ended
    · rename_i hit
      obtain ⟨other,gave,_⟩ := held.returned id old value present ended
      rw [gave] at hit
      cases hit.2
    · rename_i missed
      rw [if_neg missed]
      exact held.returned id old value present ended

theorem read_step {frame : Frame} {after : Client.DaemonConnection} (held : Heard client heard)
    (tracked : Client.Tracked client) (stepped : Client.step client (.read (.ok frame)) = some after) :
    Heard after (heard ++ responses [frame]) ∧ (∀ id, (after.calls id).isSome = (client.calls id).isSome) ∧
      after.eventQueue.reduceOption = client.eventQueue.reduceOption ++ happenings [frame] := by
  have received : client.receive (.ok frame) = after := by
    simp only [Client.step] at stepped
    split at stepped
    · cases stepped
    · exact Option.some.inj stepped
  subst received
  cases frame with
  | response answer =>
    refine ⟨held.resolve tracked answer,fun id => ?_,?_⟩
    · show ((client.resolve answer).calls id).isSome = _
      rw [Client.resolve_calls tracked,Option.isSome_map]
    · show (client.resolve answer).eventQueue.reduceOption = _ ++ []
      rw [resolve_queue,List.append_nil]
  | event topic payload =>
    refine ⟨?_,fun _ => rfl,?_⟩
    · show Heard _ (heard ++ [])
      rw [List.append_nil]
      exact ⟨held.resolved,held.waiting,held.returned⟩
    · show (client.eventQueue ++ [some (topic,payload)]).reduceOption = _
      rw [List.reduceOption_append]
      rfl
  | _ =>
    refine ⟨?_,fun _ => rfl,(List.append_nil _).symm⟩
    show Heard _ (heard ++ [])
    rw [List.append_nil]
    exact held

def Link.flow (link : Link) (conn : Server.Connection) : List Request :=
  link.served.map Served.request ++ conn.reader.handling ++ requests link.upstream

structure Line (conn : Server.Connection) (link : Link) : Prop where
  tracked : Client.Tracked link.client
  heard : Heard link.client (responses (conn.written.take link.received))
  told : link.client.eventQueue.reduceOption = happenings (conn.written.take link.received)
  replied : conn.replies = link.served.map Served.answer
  order : List.Sublist (link.flow conn) link.asked
  listed : ∀ id, (link.client.calls id).isSome = true ↔ id ∈ link.asked.map Request.id
  distinct : (link.asked.map Request.id).Nodup
  within : link.received ≤ conn.written.length

namespace Line
variable {after : Server.Connection} {more : Link} {said : List ResponseFrame} {handling : List Request}

theorem start : Line {} {} :=
  ⟨Client.tracked_start,⟨nofun,nofun,nofun⟩,rfl,rfl,List.Sublist.refl _,fun _ => by simp [Client.start],
    List.nodup_nil,Nat.le_refl _⟩

theorem moves (line : Line conn link) (speaks : Speaks conn after said handling)
    (client : more.client = link.client) (received : more.received = link.received)
    (asked : more.asked = link.asked)
    (served : more.served.map Served.answer = link.served.map Served.answer ++ said)
    (order : List.Sublist (more.flow after) link.asked) : Line after more := by
  obtain ⟨added,wrote⟩ := speaks.written
  have taken : after.written.take more.received = conn.written.take link.received := by
    rw [received,← wrote,List.take_append_of_le_length line.within]
  constructor
  · rw [client]
    exact line.tracked
  · rw [taken,client]
    exact line.heard
  · rw [taken,client]
    exact line.told
  · rw [speaks.replies,line.replied,served]
  · rw [asked]
    exact order
  · rw [client,asked]
    exact line.listed
  · rw [asked]
    exact line.distinct
  · rw [received,← wrote,List.length_append]
    exact Nat.le_add_right_of_le line.within

theorem arrived (line : Line conn link) {answer : ResponseFrame}
    (inside : answer ∈ responses (conn.written.take link.received)) :
    ∃ served ∈ link.served, served.answer = answer := by
  have sent : answer ∈ conn.replies := by
    unfold Server.Connection.replies Server.Connection.sent
    rw [Server.responses_append]
    refine List.mem_append_left _ (List.mem_append_left _ ?_)
    exact ((List.take_sublist _ _).filterMap _).subset inside
  rw [line.replied] at sent
  obtain ⟨served,known,same⟩ := List.mem_map.mp sent
  exact ⟨served,known,same⟩

theorem handled_asked (line : Line conn link) {served : Served} (inside : served ∈ link.served) :
    served.request ∈ link.asked := by
  refine line.order.subset ?_
  unfold Link.flow
  rw [List.append_assoc]
  exact List.mem_append_left _ (List.mem_map_of_mem inside)

theorem asks (line : Line conn link) {id : String} {method : RpcMethod} {params : Dict}
    (stepped : Client.step link.client (.request id) = some client) :
    Line conn { link with client := client
                          upstream := link.upstream ++ [.request id method params]
                          asked := link.asked ++ [⟨id,method,params⟩] } ∧
      Link.flow { link with client := client
                            upstream := link.upstream ++ [.request id method params]
                            asked := link.asked ++ [⟨id,method,params⟩] } conn =
        link.flow conn ++ [⟨id,method,params⟩] := by
  have tracked := Client.tracked_step line.tracked stepped
  have fresh : link.client.calls id = none := by
    simp only [Client.step] at stepped
    split at stepped
    · cases stepped
    · assumption
  have unasked : id ∉ link.asked.map Request.id := by
    rw [← line.listed,fresh]
    exact Bool.false_ne_true
  have flows : Link.flow { link with client := client
                                     upstream := link.upstream ++ [.request id method params]
                                     asked := link.asked ++ [⟨id,method,params⟩] } conn =
      link.flow conn ++ [⟨id,method,params⟩] := by
    unfold Link.flow
    dsimp only
    rw [Server.requests_append,← List.append_assoc]
    rfl
  refine ⟨?_,flows⟩
  simp only [Client.step,fresh] at stepped
  cases stepped
  constructor
  · exact tracked
  · have held := @Heard.setCall id _ ⟨.sending,.unresolved⟩ _ line.heard (fun _ same => by cases same) ?_
      (fun _ ended => by cases ended)
    · exact ⟨held.resolved,held.waiting,held.returned⟩
    · intro _ answer inside same
      obtain ⟨served,known,rfl⟩ := line.arrived inside
      refine unasked ?_
      rw [← same,Served.answer_id]
      exact List.mem_map_of_mem (line.handled_asked known)
  · exact line.told
  · exact line.replied
  · rw [flows]
    exact line.order.append (List.Sublist.refl _)
  · intro other
    rw [List.map_append,List.mem_append,← line.listed]
    by_cases same : other = id
    · subst same
      simp [Client.DaemonConnection.setCall]
    · simp [Client.DaemonConnection.setCall,same]
  · rw [List.map_append]
    exact List.nodup_append.mpr ⟨line.distinct,List.nodup_singleton _,by
      intro one inside other mine
      rw [List.map_singleton,List.mem_singleton] at mine
      intro same
      rw [same,mine] at inside
      exact unasked inside⟩
  · exact line.within

theorem goes_on (line : Line conn link) {received : Nat} {client : Client.DaemonConnection}
    (tracked : Client.Tracked client) (heard : Heard client (responses (conn.written.take received)))
    (told : client.eventQueue.reduceOption = happenings (conn.written.take received))
    (calls : ∀ id, (client.calls id).isSome = (link.client.calls id).isSome)
    (within : received ≤ conn.written.length) :
    Line conn { link with client := client,received := received } where
  tracked := tracked
  heard := heard
  told := told
  replied := line.replied
  order := line.order
  listed := fun id => by
    rw [← line.listed]
    exact iff_of_eq (congrArg (· = true) (calls id))
  distinct := line.distinct
  within := within

theorem caller (line : Line conn link) {event : Client.Event} {client : Client.DaemonConnection}
    (alone : callerAlone event = true) (stepped : Client.step link.client event = some client) :
    Line conn { link with client := client } := by
  obtain ⟨heard,same⟩ := caller_step line.heard alone stepped
  exact line.goes_on (Client.tracked_step line.tracked stepped) heard (same.told.trans line.told) same.calls
    line.within

theorem arrives (line : Line conn link) {frame : Frame} {client : Client.DaemonConnection}
    (next : conn.written[link.received]? = some frame)
    (stepped : Client.step link.client (.read (.ok frame)) = some client) :
    Line conn { link with client := client,received := link.received + 1 } := by
  obtain ⟨heard,calls,told⟩ := read_step line.heard line.tracked stepped
  obtain ⟨inside,rfl⟩ := List.getElem?_eq_some_iff.mp next
  have taken : conn.written.take (link.received + 1) =
      conn.written.take link.received ++ [conn.written[link.received]] := by
    rw [List.take_add_one,next]
    rfl
  refine line.goes_on (Client.tracked_step line.tracked stepped) ?_ ?_ calls inside
  · rw [taken,Server.responses_append]
    exact heard
  · rw [taken,told,line.told]
    exact List.filterMap_append.symm

theorem breaks (line : Line conn link) {failure : ReadFailure} {client : Client.DaemonConnection}
    (stepped : Client.step link.client (.read (.error failure)) = some client) :
    Line conn { link with client := client } := by
  have tracked := Client.tracked_step line.tracked stepped
  simp only [Client.step] at stepped
  split at stepped
  · cases stepped
  · cases stepped
    have same := same_finish link.client
    refine line.goes_on tracked ?_ (same.told.trans line.told) same.calls line.within
    exact ⟨line.heard.resolved,line.heard.waiting,line.heard.returned⟩

theorem takes (line : Line conn link) {frame : Frame} {rest : List Frame} (at_ : conn.reader.handling = [])
    (waiting : link.upstream = frame :: rest) (speaks : Speaks conn after [] (requests [frame])) :
    Line after { link with upstream := rest } ∧
      Link.flow { link with upstream := rest } after = link.flow conn := by
  have flows : Link.flow { link with upstream := rest } after = link.flow conn := by
    unfold Link.flow
    dsimp only
    rw [speaks.handling,at_,waiting,List.append_nil,List.append_assoc,← Server.requests_append]
    rfl
  refine ⟨line.moves speaks rfl rfl rfl (List.append_nil _).symm ?_,flows⟩
  rw [flows]
  exact line.order

theorem stumbles (line : Line conn link) (at_ : conn.reader.handling = []) (speaks : Speaks conn after [] []) :
    Line after { link with upstream := link.upstream.tail } ∧
      (link.upstream = [] → Link.flow { link with upstream := link.upstream.tail } after = link.flow conn) := by
  refine ⟨line.moves speaks rfl rfl rfl (List.append_nil _).symm ?_,?_⟩
  · refine List.Sublist.trans ?_ line.order
    unfold Link.flow
    rw [speaks.handling,at_]
    exact (List.Sublist.refl _).append ((List.tail_sublist _).filterMap _)
  · intro nothing
    unfold Link.flow
    dsimp only
    rw [speaks.handling,at_,nothing]
    rfl

theorem serves (line : Line conn link) {what : Server.Act} (alone : serverAlone (.act c what) = true)
    (speaks : Speaks conn after (what.said conn.reader) (what.inHand conn.reader)) :
    Line after (link.record conn.reader what) ∧ (link.record conn.reader what).flow after = link.flow conn := by
  have kept (none_ : what.said conn.reader = []) (same : what.inHand conn.reader = conn.reader.handling) :
      Line after link ∧ link.flow after = link.flow conn := by
    have flows : link.flow after = link.flow conn := by
      unfold Link.flow
      rw [speaks.handling,same]
    refine ⟨line.moves speaks rfl rfl rfl ?_ ?_,flows⟩
    · rw [none_,List.append_nil]
    · rw [flows]
      exact line.order
  cases what with
  | read result => cases alone
  | handled ending =>
    cases at_ : conn.reader with
    | dispatching id method params =>
      rw [at_] at speaks
      have flows : (link.record (.dispatching id method params) (.handled ending)).flow after = link.flow conn := by
        unfold Link.flow Link.record
        rw [speaks.handling,at_]
        simp [Server.Act.inHand,Server.Reader.handling]
      refine ⟨line.moves speaks rfl rfl rfl ?_ ?_,flows⟩
      · unfold Link.record
        rw [List.map_append]
        rfl
      · rw [flows]
        exact line.order
    | _ =>
      rw [at_] at kept
      exact kept rfl rfl
  | _ => exact kept rfl rfl

end Line

def Intact (c : Nat) (s : State) (event : Event) : Prop :=
  ∀ failure, event = .stumbles c failure → (s.links c).upstream = []

def Whole (s : State) (c : Nat) : Prop := (s.links c).flow (s.server.conns c) = (s.links c).asked

@[simp] theorem setLink_self (s : State) (c : Nat) (link : Link) : (s.setLink c link).links c = link :=
  Function.update_self ..

theorem setLink_other (s : State) {other : Nat} (link : Link) (apart : c ≠ other) :
    (s.setLink other link).links c = s.links c := Function.update_of_ne apart ..

theorem line_step {event : Event} (linked : ∀ c, Server.Linked s.server c) (stepped : step s event = some next)
    (c : Nat) (line : Line (s.server.conns c) (s.links c)) :
    Line (next.server.conns c) (next.links c) ∧ (Intact c s event → Whole s c → Whole next c) := by
  have still (conn : next.server.conns c = s.server.conns c) (link : next.links c = s.links c) :
      Line (next.server.conns c) (next.links c) ∧ (Intact c s event → Whole s c → Whole next c) := by
    unfold Whole
    rw [conn,link]
    exact ⟨line,fun _ whole => whole⟩
  have here {link : Link} (placed : next.links c = link) (after : Line (next.server.conns c) link)
      (whole : Intact c s event → Whole s c → link.flow (next.server.conns c) = link.asked) :
      Line (next.server.conns c) (next.links c) ∧ (Intact c s event → Whole s c → Whole next c) := by
    unfold Whole at whole ⊢
    rw [placed]
    exact ⟨after,whole⟩
  have reads {other : Nat} {result : Except ReadFailure Frame} {server : Server.State}
      (served : Server.step s.server (.act other (.read result)) = some server) :
      (s.server.conns other).reader.handling = [] := by
    have acted := (Server.step_act served).2
    simp only [Server.act] at acted
    split at acted
    · rename_i at_
      rw [at_]
      rfl
    · cases acted
  cases event with
  | asks other id method params =>
    obtain ⟨client,requested,rfl⟩ := Option.map_eq_some_iff.mp stepped
    by_cases same : c = other
    · subst same
      obtain ⟨after,flows⟩ := line.asks requested
      exact here (setLink_self ..) after fun _ whole => flows.trans (congrArg (· ++ _) whole)
    · exact still rfl (setLink_other s _ same)
  | subscribes other topics =>
    cases stepped
    by_cases same : c = other
    · subst same
      have flows : Link.flow { s.links c with upstream := (s.links c).upstream ++ [.subscribe topics] }
          (s.server.conns c) = (s.links c).flow (s.server.conns c) := by
        unfold Link.flow
        rw [Server.requests_append]
        exact congrArg (_ ++ ·) (List.append_nil _)
      refine here (setLink_self ..) ?_ fun _ whole => flows.trans whole
      exact ⟨line.tracked,line.heard,line.told,line.replied,flows ▸ line.order,line.listed,line.distinct,line.within⟩
    · exact still rfl (setLink_other s _ same)
  | caller other event =>
    simp only [step] at stepped
    split at stepped
    · rename_i alone
      obtain ⟨client,moved,rfl⟩ := Option.map_eq_some_iff.mp stepped
      by_cases same : c = other
      · subst same
        exact here (setLink_self ..) (line.caller alone moved) fun _ whole => whole
      · exact still rfl (setLink_other s _ same)
    · cases stepped
  | arrives other =>
    simp only [step] at stepped
    split at stepped
    · cases stepped
    · rename_i frame waiting
      obtain ⟨client,moved,rfl⟩ := Option.map_eq_some_iff.mp stepped
      by_cases same : c = other
      · subst same
        exact here (setLink_self ..) (line.arrives waiting moved) fun _ whole => whole
      · exact still rfl (setLink_other s _ same)
  | breaks other failure =>
    obtain ⟨client,moved,rfl⟩ := Option.map_eq_some_iff.mp stepped
    by_cases same : c = other
    · subst same
      exact here (setLink_self ..) (line.breaks moved) fun _ whole => whole
    · exact still rfl (setLink_other s _ same)
  | takes other =>
    simp only [step] at stepped
    split at stepped
    · cases stepped
    · rename_i frame rest waiting
      obtain ⟨server,moved,rfl⟩ := Option.map_eq_some_iff.mp stepped
      rcases Server.step_speaks linked moved c with ⟨what,mine,speaks⟩ | ⟨foreign,same⟩
      · cases mine
        obtain ⟨after,flows⟩ := line.takes (reads moved) waiting speaks
        exact here (setLink_self ..) after fun _ whole => flows.trans whole
      · exact still same (setLink_other _ _ fun mine => foreign _ (congrArg (Server.Event.act · _) mine.symm))
  | stumbles other failure =>
    obtain ⟨server,moved,rfl⟩ := Option.map_eq_some_iff.mp stepped
    rcases Server.step_speaks linked moved c with ⟨what,mine,speaks⟩ | ⟨foreign,same⟩
    · cases mine
      obtain ⟨after,flows⟩ := line.stumbles (reads moved) speaks
      exact here (setLink_self ..) after fun intact whole => (flows (intact failure rfl)).trans whole
    · exact still same (setLink_other _ _ fun mine => foreign _ (congrArg (Server.Event.act · _) mine.symm))
  | serves event =>
    simp only [step] at stepped
    split at stepped
    · rename_i alone
      obtain ⟨server,moved,rfl⟩ := Option.map_eq_some_iff.mp stepped
      rcases Server.step_speaks linked moved c with ⟨what,rfl,speaks⟩ | ⟨foreign,same⟩
      · obtain ⟨after,flows⟩ := line.serves alone speaks
        have kept : ((s.links c).record (s.server.conns c).reader what).asked = (s.links c).asked := by
          unfold Link.record
          repeat' split
          all_goals rfl
        exact here (Function.update_self ..) after fun _ whole => flows.trans (Eq.trans whole kept.symm)
      · refine still same ?_
        cases event with
        | publish topic payload => rfl
        | act other what => exact Function.update_of_ne (fun mine => foreign what (congrArg (Server.Event.act · what) mine.symm)) ..
    · cases stepped

theorem linked_step {event : Event} (linked : ∀ c, Server.Linked s.server c) (stepped : step s event = some next) :
    ∀ c, Server.Linked next.server c := by
  have along {inner : Server.Event} {server : Server.State} (moved : Server.step s.server inner = some server) :
      ∀ c, Server.Linked server c := Server.linked_step linked moved
  cases event with
  | asks c id method params =>
    obtain ⟨client,_,rfl⟩ := Option.map_eq_some_iff.mp stepped
    exact linked
  | subscribes c topics =>
    cases stepped
    exact linked
  | caller c event =>
    simp only [step] at stepped
    split at stepped
    · obtain ⟨client,_,rfl⟩ := Option.map_eq_some_iff.mp stepped
      exact linked
    · cases stepped
  | arrives c =>
    simp only [step] at stepped
    split at stepped
    · cases stepped
    · obtain ⟨client,_,rfl⟩ := Option.map_eq_some_iff.mp stepped
      exact linked
  | breaks c failure =>
    obtain ⟨client,_,rfl⟩ := Option.map_eq_some_iff.mp stepped
    exact linked
  | takes c =>
    simp only [step] at stepped
    split at stepped
    · cases stepped
    · obtain ⟨server,moved,rfl⟩ := Option.map_eq_some_iff.mp stepped
      exact along moved
  | stumbles c failure =>
    obtain ⟨server,moved,rfl⟩ := Option.map_eq_some_iff.mp stepped
    exact along moved
  | serves event =>
    simp only [step] at stepped
    split at stepped
    · obtain ⟨server,moved,rfl⟩ := Option.map_eq_some_iff.mp stepped
      exact along moved
    · cases stepped

theorem run_lines (run : Run system good start s) :
    (∀ c, Server.Linked s.server c) ∧ ∀ c, Line (s.server.conns c) (s.links c) := by
  refine run.invariant (P:=fun s => (∀ c, Server.Linked s.server c) ∧ ∀ c, Line (s.server.conns c) (s.links c))
    ⟨Server.linked_start,fun _ => Line.start⟩ ?_
  intro s event next both _ stepped
  exact ⟨linked_step both.1 stepped,fun c => (line_step both.1 stepped c (both.2 c)).1⟩

theorem run_whole {c : Nat} (run : Run system (Intact c) start s) : Whole s c := by
  induction run with
  | refl => rfl
  | step earlier intact stepped ih =>
    have lines := run_lines earlier
    exact (line_step lines.1 stepped c (lines.2 c)).2 intact ih

-- What a caller got is how the handler of its own request ended, no request is handled
-- twice or out of its turn, and the topics were heard as they were told.
structure Faithful (conn : Server.Connection) (link : Link) : Prop where
  returned : ∀ id call value, link.client.calls id = some call → call.phase = .returned value →
    ∃ served ∈ link.served, served.request.id = id ∧ served.verdict = value
  asked : ∀ served ∈ link.served, served.request ∈ link.asked
  once : List.Sublist (link.served.map Served.request) link.asked
  distinct : (link.asked.map Request.id).Nodup
  told : link.client.eventQueue.reduceOption = happenings (conn.written.take link.received)

theorem Line.faithful (line : Line conn link) : Faithful conn link where
  returned := by
    intro id call value listed ended
    obtain ⟨answer,gave,same⟩ := line.heard.returned id call value listed ended
    obtain ⟨inside,own⟩ := line.heard.resolved id call answer listed gave
    obtain ⟨served,known,rfl⟩ := line.arrived inside
    exact ⟨served,known,(served.answer_id).symm.trans own,served.outcome_answer.symm.trans same⟩
  asked := fun _ known => line.handled_asked known
  once := by
    refine List.Sublist.trans ?_ line.order
    unfold Link.flow
    rw [List.append_assoc]
    exact List.sublist_append_left _ _
  distinct := line.distinct
  told := line.told

def ids (answers : List ResponseFrame) : List String := answers.map ResponseFrame.id

def Link.underway (link : Link) (conn : Server.Connection) : List String :=
  ids (responses (conn.written.drop link.received ++ conn.outbound.items) ++ conn.reader.owed) ++
    (conn.reader.handling ++ requests link.upstream).map Request.id

-- Every request is answered or on its way, each in one place and in the order they were
-- made, and only those on their way are waited for.
structure Conserved (conn : Server.Connection) (link : Link) : Prop where
  all : link.asked.map Request.id =
    ids (responses (conn.written.take link.received)) ++ link.underway conn
  waiting : ∀ id call, link.client.calls id = some call → call.future = .unresolved → id ∈ link.underway conn
  ended : ∀ id call answer, link.client.calls id = some call → call.future = .resolved answer →
    id ∉ link.underway conn

theorem Line.conserved (line : Line conn link) (whole : link.flow conn = link.asked) : Conserved conn link := by
  have replied : ids conn.replies = (link.served.map Served.request).map Request.id := by
    rw [line.replied]
    unfold ids
    rw [List.map_map,List.map_map]
    exact List.map_congr_left fun served _ => served.answer_id
  have parted : ids conn.replies = ids (responses (conn.written.take link.received)) ++
      ids (responses (conn.written.drop link.received ++ conn.outbound.items) ++ conn.reader.owed) := by
    unfold Server.Connection.replies Server.Connection.sent ids
    rw [← List.map_append,← List.append_assoc,← Server.responses_append,← List.append_assoc,
      List.take_append_drop]
  have all : link.asked.map Request.id =
      ids (responses (conn.written.take link.received)) ++ link.underway conn := by
    unfold Link.underway
    rw [← whole,← List.append_assoc,← parted,replied,← List.map_append]
    unfold Link.flow
    rw [List.append_assoc]
  refine ⟨all,?_,?_⟩
  · intro id call listed open_
    have inside : id ∈ link.asked.map Request.id := by
      rw [← line.listed,listed]
      rfl
    rw [all] at inside
    refine (List.mem_append.mp inside).resolve_left fun answered => ?_
    obtain ⟨answer,heard,same⟩ := List.mem_map.mp answered
    exact line.heard.waiting id call listed open_ answer heard same
  · intro id call answer listed gave under
    obtain ⟨heard,own⟩ := line.heard.resolved id call answer listed gave
    have distinct := line.distinct
    rw [all] at distinct
    have answered : id ∈ ids (responses (conn.written.take link.received)) := List.mem_map.mpr ⟨answer,heard,own⟩
    exact (List.nodup_append.mp distinct).2.2 id answered id under rfl

-- However the clients, their connections, the handlers and the bus take turns: what
-- `request` returns or raises is what the handler of that very request ended with; and
-- as long as no frame is lost on the way to the daemon, no request is lost, answered
-- twice or overtaken.
theorem requests_answered (c : Nat) :
    (∀ s, Reachable system start s → Faithful (s.server.conns c) (s.links c)) ∧
      ∀ s, Run system (Intact c) start s → Conserved (s.server.conns c) (s.links c) :=
  ⟨fun _ reached => ((run_lines reached).2 c).faithful,fun _ run => ((run_lines run).2 c).conserved (run_whole run)⟩

def twoCallers : List Event :=
  [.asks 0 "a" .daemonStatus ∅,.asks 1 "a" .getRun ∅,.asks 0 "b" .listRuns ∅,.caller 0 (.sent "a"),
    .caller 1 (.sent "a"),.takes 0,.takes 1,.serves (.act 1 (.handled (.keyError "'run'"))),
    .serves (.act 0 (.handled (.returned ∅))),.serves (.act 0 .writes),.serves (.act 1 .writes),
    .arrives 0,.arrives 1,.caller 0 (.wakes "a"),.caller 1 (.wakes "a")]

def Event.smooth : Event → Bool
  | .stumbles _ _ => false
  | _ => true

theorem smooth_intact (c : Nat) (s : State) (event : Event) (smooth : event.smooth = true) : Intact c s event := by
  intro failure stumbles
  subst stumbles
  cases smooth

def refusedWith (link : Link) (id code : String) : Bool :=
  match (link.client.calls id).map Client.Call.phase with
  | some (.returned (.error error)) => error.code == code
  | _ => false

theorem requests_answered_two : ∃ s : State, refusedWith (s.links 1) "a" "not_found" = true ∧
    (s.links 0).underway (s.server.conns 0) = ["b"] ∧ Faithful (s.server.conns 1) (s.links 1) ∧
      Conserved (s.server.conns 0) (s.links 0) := by
  have played : ((system.under fun _ event => event.smooth = true).play start twoCallers).any (fun s =>
      refusedWith (s.links 1) "a" "not_found" && (s.links 0).underway (s.server.conns 0) == ["b"]) = true := by
    decide +kernel
  obtain ⟨s,run,shown⟩ := System.found_under played
  rw [Bool.and_eq_true,beq_iff_eq] at shown
  refine ⟨s,shown.1,shown.2,(requests_answered 1).1 s ?_,(requests_answered 0).2 s ?_⟩
  · exact run.relax fun _ _ _ => trivial
  · exact run.relax (smooth_intact 0)

end HyprlandAgent.Session
