import HyprlandAgent.Transition
import HyprlandAgent.Ipc.Framing
import Mathlib.Logic.Function.Basic

-- Async client connection: the requests of one connection and its reader task.
namespace HyprlandAgent.Client
open Ipc Transition

structure RpcError where
  code : String
  message : String

inductive Future where
  | unresolved
  | resolved (answer : ResponseFrame)
  | cancelled

def Future.done : Future → Bool
  | .unresolved => false
  | _ => true

-- Where a `request` call is: writing its frame, waiting for its future, or over.
inductive Phase where
  | sending
  | awaiting
  | returned (value : Except RpcError Dict)
  | failed
  | cancelled

structure Call where
  phase : Phase
  future : Future

-- What `request` makes of a response: an error that is not empty is raised.
def outcome (answer : ResponseFrame) : Except RpcError Dict :=
  match answer.error with
  | some error =>
    if error.entries.isEmpty then .ok (answer.result.getD ∅)
    else .error ⟨(error.lookup "code").getD "error",(error.lookup "message").getD "unknown error"⟩
  | none => .ok (answer.result.getD ∅)

-- The calls by the id of their request, the keys of the pending table, whether the
-- reader task is done, and the event queue with its sentinel.
structure DaemonConnection where
  calls : String → Option Call
  pending : String → Bool
  readerDone : Bool
  eventQueue : List (Option (Ipc.Topic × Dict))

namespace DaemonConnection
variable (s : DaemonConnection)

def setCall (id : String) (call : Call) : DaemonConnection :=
  { s with calls := Function.update s.calls id (some call) }

def resolve (answer : ResponseFrame) : DaemonConnection :=
  if s.pending answer.id then
    let popped := { s with pending := Function.update s.pending answer.id false }
    match s.calls answer.id with
    | some call =>
      if call.future.done then popped
      else popped.setCall answer.id { call with future := .resolved answer }
    | none => popped
  else s

def finish : DaemonConnection := { s with readerDone := true,eventQueue := s.eventQueue ++ [none] }

-- One turn of the read loop; a malformed line breaks it, and what is no parse error
-- passes through.
def receive : Except ReadFailure Frame → DaemonConnection
  | .error _ => s.finish
  | .ok (.response answer) => s.resolve answer
  | .ok (.event topic payload) => { s with eventQueue := s.eventQueue ++ [some (topic,payload)] }
  | .ok _ => s

end DaemonConnection

inductive Event where
  | request (id : String)
  | sent (id : String)
  | sendFails (id : String)
  | wakes (id : String)
  | abandons (id : String)
  | read (result : Except ReadFailure Frame)
  | close

-- An id of `uuid4` is one that no earlier request had.
def step (s : DaemonConnection) : Event → Option DaemonConnection
  | .request id =>
    match s.calls id with
    | some _ => none
    | none => some { s.setCall id ⟨.sending,.unresolved⟩ with
        pending := Function.update s.pending id true }
  | .sent id =>
    match s.calls id with
    | some ⟨.sending,.resolved answer⟩ =>
      some (s.setCall id ⟨.returned (outcome answer),.resolved answer⟩)
    | some ⟨.sending,future⟩ => some (s.setCall id ⟨.awaiting,future⟩)
    | _ => none
  | .sendFails id =>
    match s.calls id with
    | some ⟨.sending,future⟩ => some (s.setCall id ⟨.failed,future⟩)
    | _ => none
  | .wakes id =>
    match s.calls id with
    | some ⟨.awaiting,.resolved answer⟩ =>
      some (s.setCall id ⟨.returned (outcome answer),.resolved answer⟩)
    | _ => none
  | .abandons id =>
    match s.calls id with
    | some ⟨.sending,future⟩ => some (s.setCall id ⟨.cancelled,future⟩)
    | some ⟨.awaiting,.unresolved⟩ => some (s.setCall id ⟨.cancelled,.cancelled⟩)
    | some ⟨.awaiting,future⟩ => some (s.setCall id ⟨.cancelled,future⟩)
    | _ => none
  | .read result => if s.readerDone then none else some (s.receive result)
  | .close => some (if s.readerDone then s else s.finish)

def system : System DaemonConnection Event := ⟨step⟩

def start : DaemonConnection := ⟨fun _ => none,fun _ => false,false,[]⟩

variable {s next : DaemonConnection} {id : String} {call : Call}

def Waiting (s : DaemonConnection) (id : String) : Prop := s.calls id = some ⟨.awaiting,.unresolved⟩

def Settled (s : DaemonConnection) : Prop := s.readerDone = true → ∀ id, ¬Waiting s id

-- A step that does not strand a request: the reader ends with nobody waiting, and
-- nobody starts to wait after it.
def Strands (s : DaemonConnection) : Event → Prop
  | .read (.error _) => ∃ id, Waiting s id
  | .close => ∃ id, Waiting s id
  | .sent id => s.readerDone = true ∧ s.calls id = some ⟨.sending,.unresolved⟩
  | _ => False

structure Tracked (s : DaemonConnection) : Prop where
  pending : ∀ id call, s.calls id = some call → call.future = .unresolved → s.pending id = true
  own : ∀ id call answer, s.calls id = some call → call.future = .resolved answer → answer.id = id

theorem Tracked.setCall {old : Call} (tracked : Tracked s) (present : s.calls id = some old)
    (kept : call.future = old.future ∨ call.future = .cancelled) : Tracked (s.setCall id call) := by
  constructor
  · intro other found listed unresolved
    by_cases same : other = id
    · subst same
      simp only [DaemonConnection.setCall,Function.update_self,Option.some.injEq] at listed
      subst listed
      rcases kept with same | cancelled
      · exact tracked.pending other old present (same.symm.trans unresolved)
      · rw [cancelled] at unresolved
        cases unresolved
    · simp only [DaemonConnection.setCall,Function.update_of_ne same] at listed
      exact tracked.pending other found listed unresolved
  · intro other found answer listed resolved
    by_cases same : other = id
    · subst same
      simp only [DaemonConnection.setCall,Function.update_self,Option.some.injEq] at listed
      subst listed
      rcases kept with same | cancelled
      · exact tracked.own other old answer present (same.symm.trans resolved)
      · rw [cancelled] at resolved
        cases resolved
    · simp only [DaemonConnection.setCall,Function.update_of_ne same] at listed
      exact tracked.own other found answer listed resolved

theorem resolve_calls (tracked : Tracked s) (answer : ResponseFrame) (other : String) :
    (s.resolve answer).calls other =
      (s.calls other).map fun call =>
        if other = answer.id ∧ call.future.done = false then { call with future := .resolved answer }
        else call := by
  unfold DaemonConnection.resolve
  by_cases known : s.pending answer.id = true
  · rw [if_pos known]
    simp only
    cases found : s.calls answer.id with
    | none =>
      by_cases same : other = answer.id
      · subst same
        simp [found]
      · simp [same]
    | some call =>
      by_cases done : call.future.done = true
      · by_cases same : other = answer.id
        · subst same
          simp [found,done]
        · simp [done,same]
      · by_cases same : other = answer.id
        · subst same
          simp [found,done,DaemonConnection.setCall]
        · simp [done,same,DaemonConnection.setCall]
  · rw [if_neg known]
    by_cases same : other = answer.id
    · subst same
      cases found : s.calls answer.id with
      | none => rfl
      | some call =>
        have done : call.future.done = true := by
          cases future : call.future with
          | unresolved => exact absurd (tracked.pending answer.id call found future) known
          | _ => rfl
        simp [done]
    · simp [same]

theorem resolve_pending (s : DaemonConnection) (answer : ResponseFrame) (other : String) :
    (s.resolve answer).pending other = (s.pending other && !(other == answer.id)) := by
  unfold DaemonConnection.resolve
  by_cases known : s.pending answer.id = true
  · rw [if_pos known]
    simp only
    by_cases same : other = answer.id
    · subst same
      split
      · split <;> simp [DaemonConnection.setCall]
      · simp
    · split
      · split <;> simp [DaemonConnection.setCall,same]
      · simp [same]
  · rw [if_neg known]
    by_cases same : other = answer.id
    · subst same
      simp [known]
    · simp [same]

theorem resolve_reader (s : DaemonConnection) (answer : ResponseFrame) :
    (s.resolve answer).readerDone = s.readerDone := by
  unfold DaemonConnection.resolve
  simp only
  split
  · split
    · split <;> rfl
    · rfl
  · rfl

theorem Tracked.resolve (tracked : Tracked s) (answer : ResponseFrame) :
    Tracked (s.resolve answer) := by
  constructor
  · intro other found listed unresolved
    rw [resolve_calls tracked] at listed
    obtain ⟨call,present,rfl⟩ := Option.map_eq_some_iff.mp listed
    split at unresolved
    · cases unresolved
    · rename_i apart
      have open_ : call.future.done = false := by rw [unresolved]; rfl
      have different : other ≠ answer.id := fun same => apart ⟨same,open_⟩
      rw [resolve_pending,tracked.pending other call present unresolved]
      simp [different]
  · intro other found reply listed resolved
    rw [resolve_calls tracked] at listed
    obtain ⟨call,present,rfl⟩ := Option.map_eq_some_iff.mp listed
    split at resolved
    · rename_i hit
      cases resolved
      exact hit.1.symm
    · exact tracked.own other call reply present resolved

theorem Tracked.request (tracked : Tracked s) (fresh : s.calls id = none) :
    Tracked { s.setCall id ⟨.sending,.unresolved⟩ with
      pending := Function.update s.pending id true } := by
  constructor
  · intro other found listed unresolved
    by_cases same : other = id
    · subst same
      simp
    · simp only [DaemonConnection.setCall,Function.update_of_ne same] at listed
      simpa [Function.update_of_ne same] using tracked.pending other found listed unresolved
  · intro other found answer listed resolved
    by_cases same : other = id
    · subst same
      simp only [DaemonConnection.setCall,Function.update_self,Option.some.injEq] at listed
      subst listed
      cases resolved
    · simp only [DaemonConnection.setCall,Function.update_of_ne same] at listed
      exact tracked.own other found answer listed resolved

theorem tracked_step {e : Event} (tracked : Tracked s) (stepped : step s e = some next) :
    Tracked next := by
  cases e with
  | request id =>
    simp only [step] at stepped
    split at stepped
    · cases stepped
    · rename_i fresh
      cases stepped
      exact tracked.request fresh
  | sent id =>
    simp only [step] at stepped
    split at stepped
    · rename_i answer found
      cases stepped
      exact tracked.setCall found (.inl rfl)
    · rename_i future _ found
      cases stepped
      exact tracked.setCall found (.inl rfl)
    · cases stepped
  | sendFails id =>
    simp only [step] at stepped
    split at stepped
    · rename_i future found
      cases stepped
      exact tracked.setCall found (.inl rfl)
    · cases stepped
  | wakes id =>
    simp only [step] at stepped
    split at stepped
    · rename_i answer found
      cases stepped
      exact tracked.setCall found (.inl rfl)
    · cases stepped
  | abandons id =>
    simp only [step] at stepped
    split at stepped
    · rename_i future found
      cases stepped
      exact tracked.setCall found (.inl rfl)
    · rename_i found
      cases stepped
      exact tracked.setCall found (.inr rfl)
    · rename_i future _ found
      cases stepped
      exact tracked.setCall found (.inl rfl)
    · cases stepped
  | read result =>
    simp only [step] at stepped
    split at stepped
    · cases stepped
    · cases stepped
      unfold DaemonConnection.receive
      split
      · exact ⟨tracked.pending,tracked.own⟩
      · exact tracked.resolve _
      · exact ⟨tracked.pending,tracked.own⟩
      · exact tracked
  | close =>
    simp only [step] at stepped
    cases stepped
    split
    · exact tracked
    · exact ⟨tracked.pending,tracked.own⟩

theorem tracked_start : Tracked start := by
  constructor
  · intro id call listed
    cases listed
  · intro id call answer listed
    cases listed

theorem reachable_tracked (run : Reachable system start s) : Tracked s := by
  apply run.invariant (P:=Tracked) tracked_start
  intro s e next tracked _ stepped
  exact tracked_step tracked stepped

theorem waiting_setCall (s : DaemonConnection) (id other : String) (call : Call) :
    Waiting (s.setCall id call) other ↔
      (other = id ∧ call = ⟨.awaiting,.unresolved⟩) ∨ (other ≠ id ∧ Waiting s other) := by
  unfold Waiting
  by_cases same : other = id
  · subst same
    simp [DaemonConnection.setCall]
  · simp [DaemonConnection.setCall,same]

theorem Settled.setCall (settled : Settled s) (moved : call ≠ ⟨.awaiting,.unresolved⟩) :
    Settled (s.setCall id call) := by
  intro done other waiting
  rcases (waiting_setCall s id other call).mp waiting with ⟨_,same⟩ | ⟨_,before⟩
  · exact moved same
  · exact settled done other before

theorem settled_finish (s : DaemonConnection) : Settled s.finish ↔ ¬∃ id, Waiting s id := by
  constructor
  · intro settled found
    obtain ⟨id,waiting⟩ := found
    exact settled rfl id waiting
  · intro nobody _ id waiting
    exact nobody ⟨id,waiting⟩

theorem settled_step {e : Event} (settled : Settled s) (stepped : step s e = some next) :
    Settled next ↔ ¬Strands s e := by
  cases e with
  | request id =>
    simp only [step] at stepped
    split at stepped
    · cases stepped
    · cases stepped
      have moved : (⟨.sending,.unresolved⟩ : Call) ≠ ⟨.awaiting,.unresolved⟩ := by simp
      have after : Settled (s.setCall id ⟨.sending,.unresolved⟩) := settled.setCall moved
      exact ⟨fun _ stranded => stranded,fun _ => after⟩
  | sent id =>
    simp only [step] at stepped
    split at stepped
    · rename_i answer found
      cases stepped
      have free : ¬Strands s (.sent id) := by
        intro stranded
        rw [stranded.2] at found
        cases found
      exact ⟨fun _ => free,fun _ => settled.setCall (by simp)⟩
    · rename_i future unanswered found
      cases stepped
      constructor
      · intro after stranded
        obtain ⟨done,open_⟩ := stranded
        cases found.symm.trans open_
        exact after done id ((waiting_setCall s id id _).mpr (.inl ⟨rfl,rfl⟩))
      · intro free done other waiting
        rcases (waiting_setCall s id other _).mp waiting with ⟨same,isNew⟩ | ⟨_,before⟩
        · cases isNew
          exact free ⟨done,found⟩
        · exact settled done other before
    · cases stepped
  | sendFails id =>
    simp only [step] at stepped
    split at stepped
    · cases stepped
      exact ⟨fun _ stranded => stranded,fun _ => settled.setCall (by simp)⟩
    · cases stepped
  | wakes id =>
    simp only [step] at stepped
    split at stepped
    · cases stepped
      exact ⟨fun _ stranded => stranded,fun _ => settled.setCall (by simp)⟩
    · cases stepped
  | abandons id =>
    simp only [step] at stepped
    split at stepped
    all_goals cases stepped
    all_goals exact ⟨fun _ stranded => stranded,fun _ => settled.setCall (by simp)⟩
  | read result =>
    simp only [step] at stepped
    split at stepped
    · cases stepped
    · rename_i running
      cases stepped
      cases result with
      | error failure => exact settled_finish s
      | ok frame =>
        have going : (s.receive (.ok frame)).readerDone = false := by
          cases frame with
          | response answer =>
            rw [← Bool.not_eq_true]
            rwa [show (s.receive (.ok (.response answer))) = s.resolve answer from rfl,resolve_reader]
          | _ => exact Bool.eq_false_iff.mpr running
        constructor
        · exact fun _ stranded => stranded
        · intro _ done
          rw [going] at done
          cases done
  | close =>
    simp only [step] at stepped
    cases stepped
    by_cases done : s.readerDone = true
    · rw [if_pos done]
      have nobody : ¬∃ id, Waiting s id := by
        intro found
        obtain ⟨id,waiting⟩ := found
        exact settled done id waiting
      exact ⟨fun _ => nobody,fun _ => settled⟩
    · rw [if_neg done]
      exact settled_finish s

theorem settled_start : Settled start := by
  intro done
  cases done

theorem stranded_stays {e : Event} (done : s.readerDone = true) (waiting : Waiting s id)
    (stepped : step s e = some next) :
    next.readerDone = true ∧ (Waiting next id ∨ e = .abandons id) := by
  have apart {other : String} {call : Call} (different : other ≠ id) : Waiting (s.setCall other call) id :=
    (waiting_setCall s other id call).mpr (.inr ⟨different.symm,waiting⟩)
  unfold Waiting at waiting
  cases e with
  | request other =>
    by_cases same : other = id
    · subst same
      simp [step,waiting] at stepped
    · simp only [step] at stepped
      split at stepped
      · cases stepped
      · cases stepped
        exact ⟨done,.inl (apart same)⟩
  | sent other =>
    by_cases same : other = id
    · subst same
      simp [step,waiting] at stepped
    · simp only [step] at stepped
      split at stepped <;> cases stepped
      · exact ⟨done,.inl (apart same)⟩
      · exact ⟨done,.inl (apart same)⟩
  | sendFails other =>
    by_cases same : other = id
    · subst same
      simp [step,waiting] at stepped
    · simp only [step] at stepped
      split at stepped <;> cases stepped
      exact ⟨done,.inl (apart same)⟩
  | wakes other =>
    by_cases same : other = id
    · subst same
      simp [step,waiting] at stepped
    · simp only [step] at stepped
      split at stepped <;> cases stepped
      exact ⟨done,.inl (apart same)⟩
  | abandons other =>
    by_cases same : other = id
    · subst same
      simp only [step,waiting] at stepped
      cases stepped
      exact ⟨done,.inr rfl⟩
    · simp only [step] at stepped
      split at stepped <;> cases stepped
      all_goals exact ⟨done,.inl (apart same)⟩
  | read result => simp [step,done] at stepped
  | close =>
    simp only [step,if_pos done] at stepped
    cases stepped
    exact ⟨done,.inl waiting⟩

-- In every reachable state a response resolves the pending request with its id, and
-- no other frame resolves any; no request hangs in a run exactly if none waits when
-- the reader ends and none comes to wait after it.
theorem requests_never_hang_iff (events : List Event) :
    (∀ s frame next, Reachable system start s → step s (.read (.ok frame)) = some next →
      (∀ answer, frame = .response answer → ∀ id,
        (next.calls id = (s.calls id).map fun call =>
          if id = answer.id ∧ call.future.done = false then { call with future := .resolved answer }
          else call) ∧
        next.pending id = (s.pending id && !(id == answer.id))) ∧
      ((∀ answer, frame ≠ .response answer) → next.calls = s.calls ∧ next.pending = s.pending)) ∧
    (system.Always Settled start events ↔
      system.Meets (fun s e => ¬Strands s e) start events) := by
  constructor
  · intro s frame next run stepped
    have tracked := reachable_tracked run
    have received : s.receive (.ok frame) = next := by
      simp only [step] at stepped
      split at stepped
      · cases stepped
      · exact Option.some.inj stepped
    subst received
    constructor
    · intro answer same id
      subst same
      exact ⟨resolve_calls tracked answer id,resolve_pending s answer id⟩
    · intro other
      cases frame with
      | response answer => exact absurd rfl (other answer)
      | _ => exact ⟨rfl,rfl⟩
  · have kept : ∀ s e next, Tracked s → system.step s e = some next → Tracked next :=
      fun _ _ _ tracked stepped => tracked_step tracked stepped
    have decided : ∀ s e next, Tracked s → Settled s → system.step s e = some next →
        (Settled next ↔ ¬Strands s e) := fun _ _ _ _ settled stepped => settled_step settled stepped
    exact System.always_iff_meets kept decided tracked_start settled_start events

def hangingUp : List Event :=
  [.request "a",.sent "a",.read (.error (.parse "connection closed mid-frame" .closed))]

theorem request_left_hanging : ¬∀ events : List Event, system.Always Settled start events := by
  intro always
  have settled := (always hangingUp).2 _ rfl |>.2 _ rfl |>.2 _ rfl
  exact settled rfl "a" rfl

end HyprlandAgent.Client
