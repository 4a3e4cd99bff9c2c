import Mathlib.Logic.Function.Basic
import HyprlandAgent.Ipc.Protocol

-- In-process pub/sub bus with per-topic drop policies.
namespace HyprlandAgent
open Ipc

-- `asyncio.Queue`; a size of 0 is no bound.
structure Queue (α : Type) where
  maxsize : Nat
  items : List α

namespace Queue
variable {α : Type}

def full (q : Queue α) : Bool := 0 < q.maxsize && q.maxsize ≤ q.items.length

def putNowait (q : Queue α) (item : α) : Option (Queue α) :=
  if q.full then none else some { q with items := q.items ++ [item] }

def getNowait (q : Queue α) : Option (α × Queue α) :=
  match q.items with
  | [] => none
  | item :: rest => some (item,{ q with items := rest })

theorem putNowait_some {q next : Queue α} {item : α} (put : q.putNowait item = some next) :
    next = { q with items := q.items ++ [item] } := by
  unfold putNowait at put
  split at put
  · cases put
  · exact (Option.some.inj put).symm

theorem getNowait_some {q next : Queue α} {item : α} (got : q.getNowait = some (item,next)) :
    q.items = item :: next.items ∧ next.maxsize = q.maxsize := by
  unfold getNowait at got
  split at got
  · cases got
  · rename_i same
    cases got
    exact ⟨same,rfl⟩

@[simp] theorem putNowait_unbounded (items : List α) (item : α) :
    putNowait ⟨0,items⟩ item = some ⟨0,items ++ [item]⟩ := rfl

end Queue

inductive DropPolicy where
  | dropOldest | disconnect
  deriving DecidableEq, Repr

def topicConfig : Ipc.Topic → Option (Nat × DropPolicy)
  | .runs => some (0,.disconnect)
  | .hyprEvents => some (256,.dropOldest)
  | .logs => some (1024,.dropOldest)
  | .voice => none

structure Subscriber where
  policy : DropPolicy
  queue : Queue Dict
  disconnected : Bool

-- A topic without a configuration is a `KeyError`.
def Subscriber.new (topic : Ipc.Topic) : Option Subscriber :=
  (topicConfig topic).map fun config => ⟨config.2,⟨config.1,[]⟩,false⟩

def Subscriber.putNowait (sub : Subscriber) (payload : Dict) : Subscriber :=
  if sub.disconnected then sub
  else
    match sub.queue.putNowait payload,sub.policy with
    | some queue,_ => { sub with queue := queue }
    | none,.dropOldest =>
      let kept := { sub.queue with items := sub.queue.items.tail }
      { sub with queue := (kept.putNowait payload).getD kept }
    | none,.disconnect => { sub with disconnected := true }

-- A subscriber object: the connection that made it, and which of its own it is.
structure SubId where
  owner : Nat
  serial : Nat
  deriving DecidableEq, Repr

-- The registered subscribers of each topic, and the objects behind them.
structure PubSub where
  subs : Ipc.Topic → List SubId
  objects : SubId → Subscriber

namespace PubSub
variable (bus : PubSub)

-- None of the three holds the lock across a suspension, so each is one step.
def subscribe (topic : Ipc.Topic) (id : SubId) : Option PubSub :=
  (Subscriber.new topic).map fun sub =>
    { subs := Function.update bus.subs topic (bus.subs topic ++ [id])
      objects := Function.update bus.objects id sub }

def unsubscribe (topic : Ipc.Topic) (id : SubId) : PubSub :=
  { bus with subs := Function.update bus.subs topic ((bus.subs topic).erase id) }

def deliver (payload : Dict) (id : SubId) : PubSub :=
  { bus with objects := Function.update bus.objects id ((bus.objects id).putNowait payload) }

def publish (topic : Ipc.Topic) (payload : Dict) : PubSub :=
  let subs := bus.subs topic
  let after := subs.foldl (fun bus id => bus.deliver payload id) bus
  let dead := subs.filter fun id => (after.objects id).disconnected
  { after with subs := Function.update after.subs topic (dead.foldl List.erase (after.subs topic)) }

variable {bus} {topic : Ipc.Topic} {payload : Dict}

theorem foldl_deliver_objects (ids : List SubId) (id : SubId) :
    (ids.foldl (fun bus id => bus.deliver payload id) bus).objects id =
      (fun sub => sub.putNowait payload)^[ids.count id] (bus.objects id) := by
  induction ids generalizing bus with
  | nil => rfl
  | cons other rest ih =>
    rw [List.foldl_cons,ih]
    by_cases same : other = id
    · subst same
      rw [List.count_cons_self,Function.iterate_succ_apply]
      congr 1
      exact Function.update_self ..
    · rw [List.count_cons_of_ne same]
      congr 1
      exact Function.update_of_ne (Ne.symm same) ..

theorem foldl_deliver_subs (ids : List SubId) :
    (ids.foldl (fun bus id => bus.deliver payload id) bus).subs = bus.subs := by
  induction ids generalizing bus with
  | nil => rfl
  | cons other rest ih => exact ih

theorem publish_objects (id : SubId) : (bus.publish topic payload).objects id =
    (fun sub => sub.putNowait payload)^[(bus.subs topic).count id] (bus.objects id) :=
  foldl_deliver_objects _ id

end PubSub
end HyprlandAgent
