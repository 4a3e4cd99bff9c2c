import HyprlandAgent.Daemon.Subscriptions

-- What a step of a connection makes of the requests it was sent and of the responses
-- it owes: each read fills the reader, each handler gives one response, and nothing
-- else touches either.
namespace HyprlandAgent.Server
open Ipc Transition
variable {s next : State} {c : Nat} {topic : Ipc.Topic} {conn : Connection}

structure Request where
  id : String
  method : RpcMethod
  params : Dict

def requests (frames : List Frame) : List Request :=
  frames.filterMap fun
    | .request id method params => some ⟨id,method,params⟩
    | _ => none

def responses (frames : List Frame) : List ResponseFrame :=
  frames.filterMap fun
    | .response answer => some answer
    | _ => none

theorem requests_append (front back : List Frame) : requests (front ++ back) = requests front ++ requests back :=
  List.filterMap_append ..

theorem responses_append (front back : List Frame) :
    responses (front ++ back) = responses front ++ responses back := List.filterMap_append ..

def Connection.sent (conn : Connection) : List ResponseFrame :=
  responses (conn.written ++ conn.outbound.items)

def Reader.handling : Reader → List Request
  | .dispatching id method params => [⟨id,method,params⟩]
  | _ => []

def Reader.owed : Reader → List ResponseFrame
  | .putting answer => [answer]
  | _ => []

def Connection.replies (conn : Connection) : List ResponseFrame := conn.sent ++ conn.reader.owed

structure Mum (conn next : Connection) : Prop where
  reader : next.reader = conn.reader
  sent : next.sent = conn.sent
  written : conn.written <+: next.written

namespace Mum

theorem rfl' : Mum conn conn := ⟨rfl,rfl,List.prefix_rfl⟩

theorem trans {middle next : Connection} (one : Mum conn middle) (two : Mum middle next) : Mum conn next :=
  ⟨two.reader.trans one.reader,two.sent.trans one.sent,one.written.trans two.written⟩

theorem queued {frame : Frame} {queue : Queue Frame} (put : conn.outbound.putNowait frame = some queue)
    (silent : responses [frame] = []) : Mum conn { conn with outbound := queue } := by
  refine ⟨rfl,?_,List.prefix_rfl⟩
  unfold Connection.sent
  rw [Queue.putNowait_some put,← List.append_assoc,responses_append,silent,List.append_nil]

theorem forward (conn : Connection) (topic : Ipc.Topic) (sub : SubId) (disconnected : Bool) :
    Mum conn (conn.forward topic sub disconnected) := by
  unfold Connection.forward
  repeat' split
  all_goals exact ⟨rfl,rfl,List.prefix_rfl⟩

theorem offerEvent (conn : Connection) (topic : Ipc.Topic) (sub : SubId) (disconnected : Bool) (payload : Dict) :
    Mum conn (conn.offerEvent topic sub disconnected payload) := by
  unfold Connection.offerEvent
  split
  · rename_i queue put
    exact (queued put rfl).trans (forward ..)
  · exact ⟨rfl,rfl,List.prefix_rfl⟩

theorem write_ping : Mum conn (conn.write .ping) := by
  refine ⟨rfl,?_,List.prefix_append ..⟩
  unfold Connection.sent Connection.write
  rw [responses_append,responses_append,responses_append]
  simp [responses]

theorem write_head {frame : Frame} {queue : Queue Frame}
    (got : conn.outbound.getNowait = some (frame,queue)) :
    Mum conn ({ conn with outbound := queue }.write frame) := by
  refine ⟨rfl,?_,List.prefix_append ..⟩
  unfold Connection.sent Connection.write
  rw [(Queue.getNowait_some got).1]
  simp

theorem subscribe (subscribed : s.subscribe c topic = some next) : Mum (s.conns c) (next.conns c) := by
  unfold State.subscribe at subscribed
  simp only at subscribed
  split at subscribed
  · cases subscribed
    exact rfl'
  · obtain ⟨bus,_,rfl⟩ := Option.map_eq_some_iff.mp subscribed
    simp only [Function.update_self]
    exact ⟨rfl,rfl,List.prefix_rfl⟩

theorem subscribeAll (topics : List Ipc.Topic) (s : State) :
    Mum (s.conns c) ((State.subscribeAll c topics s).1.conns c) := by
  induction topics generalizing s with
  | nil => exact rfl'
  | cons topic rest ih =>
    unfold State.subscribeAll
    split
    · rename_i middle subscribed
      exact (subscribe subscribed).trans (ih middle)
    · exact rfl'

theorem unsubscribe (s : State) (topic : Ipc.Topic) : Mum (s.conns c) ((s.unsubscribe c topic).conns c) := by
  unfold State.unsubscribe
  simp only
  split
  · exact rfl'
  · simp only [Function.update_self]
    exact ⟨rfl,rfl,List.prefix_rfl⟩

theorem unsubscribeAll (topics : List Ipc.Topic) (s : State) :
    Mum (s.conns c) ((topics.foldl (fun s topic => s.unsubscribe c topic) s).conns c) := by
  induction topics generalizing s with
  | nil => exact rfl'
  | cons topic rest ih => exact (unsubscribe s topic).trans (ih _)

end Mum

structure Speaks (conn next : Connection) (said : List ResponseFrame) (handling : List Request) : Prop where
  replies : next.replies = conn.replies ++ said
  handling : next.reader.handling = handling
  written : conn.written <+: next.written

theorem Mum.speaks {next : Connection} (mum : Mum conn next) : Speaks conn next [] conn.reader.handling := by
  refine ⟨?_,?_,mum.written⟩
  · unfold Connection.replies
    rw [mum.sent,mum.reader,List.append_nil]
  · rw [mum.reader]

theorem Mum.settles {middle next : Connection} {handling : List Request} (mum : Mum conn middle)
    (free : conn.reader.owed = []) (same : next.sent = middle.sent) (wrote : next.written = middle.written)
    (owes : next.reader.owed = []) (taken : next.reader.handling = handling) :
    Speaks conn next [] handling := by
  refine ⟨?_,taken,?_⟩
  · unfold Connection.replies
    rw [same,mum.sent,owes,free,List.append_nil,List.append_nil]
  · rw [wrote]
    exact mum.written

@[simp] theorem resume_sent (conn : Connection) : conn.resume.sent = conn.sent := by
  unfold Connection.resume
  split <;> rfl

@[simp] theorem resume_written (conn : Connection) : conn.resume.written = conn.written := by
  unfold Connection.resume
  split <;> rfl

@[simp] theorem resume_owed (conn : Connection) : conn.resume.reader.owed = [] := by
  unfold Connection.resume
  split <;> rfl

@[simp] theorem resume_handling (conn : Connection) : conn.resume.reader.handling = [] := by
  unfold Connection.resume
  split <;> rfl

def asked : Except ReadFailure Frame → List Request
  | .ok frame => requests [frame]
  | .error _ => []

theorem receive_speaks (at_ : (s.conns c).reader = .reading) (result : Except ReadFailure Frame) :
    Speaks (s.conns c) ((s.receive c result).conns c) [] (asked result) := by
  have free : (s.conns c).reader.owed = [] := by rw [at_]; rfl
  unfold State.receive
  simp only
  split
  · rw [State.setConn_self]
    split
    · exact Mum.rfl'.settles free rfl rfl rfl rfl
    · exact Mum.rfl'.settles free (resume_sent _) (resume_written _) (resume_owed _) (resume_handling _)
  · rw [State.setConn_self]
    exact Mum.rfl'.settles free rfl rfl rfl rfl
  · rw [State.setConn_self]
    exact Mum.rfl'.settles free rfl rfl rfl rfl
  · rename_i topics
    have mum := Mum.subscribeAll (c:=c) topics s
    split
    · rename_i middle reached
      rw [reached] at mum
      rw [State.setConn_self]
      exact mum.settles free (resume_sent _) (resume_written _) (resume_owed _) (resume_handling _)
    · rename_i middle reached
      rw [reached] at mum
      rw [State.setConn_self]
      exact mum.settles free rfl rfl rfl rfl
  · rename_i topics
    rw [State.setConn_self]
    exact (Mum.unsubscribeAll topics s).settles free (resume_sent _) (resume_written _) (resume_owed _)
      (resume_handling _)
  · rename_i frame notRequest _ _
    rw [State.setConn_self]
    refine Mum.rfl'.settles free (resume_sent _) (resume_written _) (resume_owed _) ?_
    rw [resume_handling]
    cases frame with
    | request id method params => exact absurd rfl (notRequest id method params)
    | _ => rfl

theorem offer_speaks (answer : ResponseFrame) : (conn.offer answer).replies = conn.sent ++ [answer] ∧
    (conn.offer answer).reader.handling = [] ∧ (conn.offer answer).written = conn.written := by
  unfold Connection.offer
  split
  · rename_i queue put
    refine ⟨?_,resume_handling _,resume_written _⟩
    unfold Connection.replies
    rw [resume_sent,resume_owed,List.append_nil]
    unfold Connection.sent
    rw [Queue.putNowait_some put,← List.append_assoc,responses_append]
    rfl
  · exact ⟨rfl,rfl,rfl⟩

def Act.aside : Act → Bool
  | .read _ | .handled _ | .responsePut => false
  | _ => true

theorem act_mum {what : Act} (aside : what.aside = true) (acted : act s c what = some next) :
    Mum (s.conns c) (next.conns c) := by
  unfold act at acted
  cases what with
  | read result => cases aside
  | handled outcome => cases aside
  | responsePut => cases aside
  | forwarderStarts topic =>
    simp only at acted
    split at acted
    · cases acted
      rw [State.setConn_self]
      exact Mum.forward ..
    · cases acted
  | forwarderGets topic =>
    simp only at acted
    split at acted
    · split at acted
      · cases acted
        simp only [Function.update_self]
        exact Mum.offerEvent ..
      · cases acted
    · cases acted
  | forwarderPuts topic =>
    simp only at acted
    split at acted
    · split at acted
      · cases acted
      · cases acted
        rw [State.setConn_self]
        exact Mum.offerEvent ..
    · cases acted
  | forwarderTimesOut topic =>
    simp only at acted
    split at acted
    · cases acted
      rw [State.setConn_self]
      exact Mum.forward ..
    · cases acted
  | writes =>
    simp only at acted
    split at acted
    · rename_i frame queue waiting got
      cases acted
      rw [State.setConn_self]
      exact Mum.write_head got
    · cases acted
  | beats =>
    simp only at acted
    split at acted
    · cases acted
      rw [State.setConn_self]
      exact Mum.write_ping
    · cases acted
  | drained =>
    simp only at acted
    split at acted
    · cases acted
      rw [State.setConn_self]
      exact ⟨rfl,rfl,List.prefix_rfl⟩
    · cases acted
  | writeFails =>
    simp only at acted
    split at acted
    · cases acted
      rw [State.setConn_self]
      exact ⟨rfl,rfl,List.prefix_rfl⟩
    · cases acted
  | tornDown =>
    simp only at acted
    split at acted
    · cases acted
      unfold State.teardown
      simp only [Function.update_self]
      exact ⟨rfl,rfl,List.prefix_rfl⟩
    · cases acted

def Act.said (reader : Reader) : Act → List ResponseFrame
  | .handled outcome =>
    match reader with
    | .dispatching id method _ => [dispatch id method outcome]
    | _ => []
  | _ => []

def Act.inHand (reader : Reader) : Act → List Request
  | .read result => asked result
  | .handled _ => []
  | _ => reader.handling

theorem act_speaks {what : Act} (acted : act s c what = some next) :
    Speaks (s.conns c) (next.conns c) (what.said (s.conns c).reader) (what.inHand (s.conns c).reader) := by
  cases what with
  | read result =>
    simp only [act] at acted
    split at acted
    · rename_i at_
      cases acted
      exact receive_speaks at_ result
    · cases acted
  | handled outcome =>
    simp only [act] at acted
    split at acted
    · rename_i id method params at_
      cases acted
      rw [State.setConn_self]
      obtain ⟨replies,handling,written⟩ := @offer_speaks (s.conns c) (dispatch id method outcome)
      refine ⟨?_,handling,written ▸ List.prefix_rfl⟩
      rw [replies]
      simp [Act.said,Connection.replies,at_,Reader.owed]
    · cases acted
  | responsePut =>
    simp only [act] at acted
    split at acted
    · rename_i answer at_
      split at acted
      · cases acted
      · cases acted
        rw [State.setConn_self]
        obtain ⟨replies,handling,written⟩ := @offer_speaks (s.conns c) answer
        refine ⟨?_,?_,written ▸ List.prefix_rfl⟩
        · rw [replies]
          simp [Act.said,Connection.replies,at_,Reader.owed]
        · rw [handling]
          simp [Act.inHand,at_,Reader.handling]
    · cases acted
  | _ => exact (act_mum rfl acted).speaks

theorem step_speaks {event : Event} (linked : ∀ c, Linked s c) (stepped : step s event = some next) (c : Nat) :
    (∃ what, event = .act c what ∧
      Speaks (s.conns c) (next.conns c) (what.said (s.conns c).reader) (what.inHand (s.conns c).reader)) ∨
    (∀ what, event ≠ .act c what) ∧ next.conns c = s.conns c := by
  cases event with
  | publish topic payload =>
    cases stepped
    exact .inr ⟨fun _ same => (nomatch same),rfl⟩
  | act other what =>
    obtain ⟨going,acted⟩ := step_act stepped
    by_cases same : other = c
    · subst same
      exact .inl ⟨what,rfl,act_speaks acted⟩
    · obtain ⟨_,others⟩ := (linked other).others going acted
      refine .inr ⟨fun _ mine => ?_,others c (Ne.symm same)⟩
      cases mine
      exact same rfl

end HyprlandAgent.Server
