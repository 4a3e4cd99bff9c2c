import HyprlandAgent.Coroutine.Logic
import HyprlandAgent.Sql.Database

-- A program talking to a database over one connection, and dying at any point.
namespace Sql
open Coroutine

-- `execute` opens a transaction before a statement that changes rows, and `script`
-- does not; every other statement joins the transaction that is open.
inductive Op where
  | execute (statement : Statement)
  | script (statement : Statement)
  | commit
  | tableInfo (name : String)
  | userVersion
  | loadExtension
  deriving DecidableEq, Repr

abbrev Op.Res : Op → Type
  | .tableInfo _ => List String
  | .userVersion => Nat
  | _ => Unit

abbrev sql : Signature := ⟨Op,Op.Res,Error⟩

structure Connection where
  durable : File
  pending : Option File := none

namespace Connection
variable (c : Connection)

def current : File := c.pending.getD c.durable

def run (begins : Bool) (statement : Statement) : Except Error Unit × Connection :=
  match statement.apply c.current with
  | .error e => (.error e,c)
  | .ok f => (.ok (),if c.pending.isSome || begins then { c with pending := some f } else ⟨f,none⟩)

def exec (available : Bool) : (op : Op) → sql.Reply op × Connection
  | .execute statement => c.run statement.changesRows statement
  | .script statement => c.run false statement
  | .commit => (.ok (),⟨c.current,none⟩)
  | .tableInfo name => (.ok (((c.current.tables name).map Table.columns).getD []),c)
  | .userVersion => (.ok c.current.userVersion,c)
  | .loadExtension => (if available then .ok () else .error .notLoaded,c)

@[simp] theorem current_committed (f : File) : current ⟨f,none⟩ = f := rfl

end Connection

-- How a program ended, or the operation it stood before when it died.
inductive Outcome (α : Type) where
  | died (op : Op)
  | ended (result : Except Error α)

def live (available : Bool) : Nat → Prog sql α → Connection → Connection × Outcome α
  | _,.ret value,c => (c,.ended (.ok value))
  | _,.raise e,c => (c,.ended (.error e))
  | 0,.await op _,c => (c,.died op)
  | fuel + 1,.await op next,c =>
    live available fuel (next (c.exec available op).1) (c.exec available op).2

-- What `with sqlite3.connect(path) as conn` leaves on disk: it commits what the
-- program has done, unless that raises.
def left (c : Connection) : Outcome α → File
  | .ended (.ok _) => c.current
  | .ended (.error _) | .died _ => c.durable

def session (available : Bool) (fuel : Nat) (p : Prog sql α) (f : File) : File × Outcome α :=
  let lived := live available fuel p ⟨f,none⟩
  (left lived.1 lived.2,lived.2)

def semantics (available : Bool) : Semantics sql Connection where
  act := fun c op reply t => c.exec available op = (reply,t)
  env := fun _ _ _ => False

variable {available : Bool} {pre : Op → Connection → Prop} {P : Connection → Prop}

theorem holds_live {p : Prog sql α} {post : Except Error α → Connection → Prop} {c : Connection}
    (holds : Holds (semantics available) pre post p c) (fuel : Nat) :
    match (live available fuel p c).2 with
    | .died op => pre op (live available fuel p c).1
    | .ended result => post result (live available fuel p c).1 := by
  induction p generalizing fuel c with
  | ret value => cases fuel <;> exact holds
  | raise e => cases fuel <;> exact holds
  | await op next ih =>
    cases fuel with
    | zero => exact holds_pre holds
    | succ fuel => exact ih _ (holds_act holds rfl) fuel

theorem live_ends (available : Bool) (p : Prog sql α) (c : Connection) :
    ∃ fuel result, (live available fuel p c).2 = .ended result := by
  induction p generalizing c with
  | ret value => exact ⟨0,.ok value,rfl⟩
  | raise e => exact ⟨0,.error e,rfl⟩
  | await op next ih =>
    obtain ⟨fuel,result,ended⟩ := ih (c.exec available op).1 (c.exec available op).2
    exact ⟨fuel + 1,result,ended⟩

theorem session_ends (available : Bool) (p : Prog sql α) (f : File) :
    ∃ fuel result, (session available fuel p f).2 = .ended result :=
  live_ends available p ⟨f,none⟩

theorem Triple.exec {op : Op} {Q : Except Error (Op.Res op) → Connection → Prop}
    (owed : ∀ c, P c → pre op c)
    (acts : ∀ c, P c → Q (c.exec available op).1 (c.exec available op).2) :
    Triple (semantics available) pre P (Prog.perform op) Q := by
  refine Coroutine.Triple.perform (fun s t impossible => impossible.elim) owed ?_
  intro c reply t holds acted
  have same : c.exec available op = (reply,t) := acted
  have ended := acts c holds
  rw [same] at ended
  exact ended

end Sql
