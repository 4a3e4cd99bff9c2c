import Mathlib.Logic.Function.Basic
import HyprlandAgent.Store
import HyprlandAgent.Transition

-- The run store under concurrent callers: a write holds the asyncio lock while a
-- thread of the pool does its job; `get_run` takes no lock and fills a cache.
namespace HyprlandAgent
open Transition

structure RunRecord extends RunSummary where
  events : List RunEventRecord

def Rows.record (rows : Rows) : Option RunRecord :=
  rows.run.map fun row => { row.toRunSummary with events := rows.events.mergeSort fun a b => a.seq ≤ b.seq }

abbrev Database := RunId → Rows

-- A write that has taken the lock; the tickets count the acquisitions.
structure Pending where
  ticket : Nat
  run : RunId
  write : StoreWrite

inductive JobState where
  | queued | running | failed | committed
  deriving DecidableEq, Repr

-- How far the job of a `get_run` that missed the cache has come.
inductive Reading where
  | started
  | missing
  | row (row : RunSummary)
  | whole (record : RunRecord)

-- History only: `behind` once a write has committed since its first SELECT,
-- `overtaken` once the caller of such a write has dropped the cache entry.
structure Reader where
  run : RunId
  reading : Reading := .started
  behind : Bool := false
  overtaken : Bool := false

def StoreWrite.invalidates : StoreWrite → Bool
  | .updateRunStatus _ _ _ | .appendEvent _ | .updateRunMetrics _ _ _ => true
  | _ => false

-- `update_run_metrics` returns before it asks for the lock.
def StoreWrite.idle : StoreWrite → Bool
  | .updateRunMetrics none none none => true
  | _ => false

-- The `OrderedDict`, oldest entry first.
abbrev Lru := List (RunId × RunRecord)

def lruCapacity : Nat := 16

namespace Lru

def get (lru : Lru) (run : RunId) : Option RunRecord := List.lookup run lru

def pop (lru : Lru) (run : RunId) : Lru := lru.filter fun entry => entry.1 != run

def moveToEnd (lru : Lru) (run : RunId) : Lru :=
  match lru.get run with
  | some record => lru.pop run ++ [(run,record)]
  | none => lru

-- Assignment keeps the place of a key that is there.
def set (lru : Lru) (run : RunId) (record : RunRecord) : Lru :=
  if (lru.get run).isSome then lru.map fun entry => if entry.1 = run then (run,record) else entry
  else lru ++ [(run,record)]

-- `_lru[run_id] = record`, and the eviction of the oldest entry.
def fill (lru : Lru) (run : RunId) (record : RunRecord) : Lru :=
  if lruCapacity < (lru.set run record).length then (lru.set run record).tail else lru.set run record

end Lru

-- `orphans` are the jobs that run on after their caller was cancelled or timed
-- out; `commits` and `returned` are history.
structure RunStore where
  db : Database
  waiting : List (RunId × StoreWrite) := []
  holder : Option (Pending × JobState) := none
  orphans : List Pending := []
  readers : List Reader := []
  lru : Lru := []
  acquisitions : Nat := 0
  commits : List (Pending × Seconds) := []
  returned : List (RunId × Option RunRecord) := []

-- The first four lines are a write's way to the pool; `resume` is its caller going
-- on, `leave` its cancellation or timeout. `land` and `lose` end an abandoned job.
-- The last five are a `get_run`.
inductive StoreEvent where
  | request (run : RunId) (write : StoreWrite)
  | withdraw (index : Nat)
  | acquire
  | pickUp
  | commit (now : Seconds)
  | fail
  | resume
  | leave
  | land (index : Nat) (now : Seconds)
  | lose (index : Nat)
  | getRun (run : RunId)
  | readRow (index : Nat)
  | readEvents (index : Nat)
  | answer (index : Nat)
  | abandon (index : Nat)

def Reader.lag (pending : Pending) (reader : Reader) : Reader :=
  match reader.reading with
  | .started => reader
  | _ =>
    if reader.run = pending.run ∧ pending.write.invalidates then { reader with behind := true }
    else reader

def Reader.overtake (pending : Pending) (reader : Reader) : Reader :=
  if reader.run = pending.run ∧ pending.write.invalidates ∧ reader.behind then
    { reader with overtaken := true }
  else reader

namespace RunStore
variable (s : RunStore)

-- A job's statement commits, unless a key is taken.
def commitJob (pending : Pending) (now : Seconds) : Option RunStore :=
  (pending.write.apply now (s.db pending.run)).map fun rows =>
    { s with
      db := Function.update s.db pending.run rows
      commits := s.commits ++ [(pending,now)]
      readers := s.readers.map (Reader.lag pending) }

def finish (pending : Pending) : RunStore :=
  { s with
    holder := none
    lru := if pending.write.invalidates then s.lru.pop pending.run else s.lru
    readers := s.readers.map (Reader.overtake pending) }

def setReading (index : Nat) (reader : Reader) (reading : Reading) : RunStore :=
  { s with readers := s.readers.set index { reader with reading := reading } }

def step : StoreEvent → Option RunStore
  | .request run write =>
    if write.idle then some s else some { s with waiting := s.waiting ++ [(run,write)] }
  | .withdraw index =>
    if index < s.waiting.length then some { s with waiting := s.waiting.eraseIdx index } else none
  | .acquire =>
    match s.holder,s.waiting with
    | none,(run,write) :: rest => some
      { s with
        waiting := rest
        holder := some (⟨s.acquisitions,run,write⟩,.queued)
        acquisitions := s.acquisitions + 1 }
    | _,_ => none
  | .pickUp =>
    match s.holder with
    | some (pending,.queued) => some { s with holder := some (pending,.running) }
    | _ => none
  | .commit now =>
    match s.holder with
    | some (pending,.running) => some <|
      match s.commitJob pending now with
      | some done => { done with holder := some (pending,.committed) }
      | none => { s with holder := some (pending,.failed) }
    | _ => none
  | .fail =>
    match s.holder with
    | some (pending,.running) => some { s with holder := some (pending,.failed) }
    | _ => none
  | .resume =>
    match s.holder with
    | some (pending,.committed) => some (s.finish pending)
    | some (_,.failed) => some { s with holder := none }
    | _ => none
  | .leave =>
    match s.holder with
    | some (pending,.running) => some { s with holder := none, orphans := s.orphans ++ [pending] }
    | some _ => some { s with holder := none }
    | none => none
  | .land index now =>
    match s.orphans[index]? with
    | some pending =>
      let rest := { s with orphans := s.orphans.eraseIdx index }
      some ((rest.commitJob pending now).getD rest)
    | none => none
  | .lose index =>
    if index < s.orphans.length then some { s with orphans := s.orphans.eraseIdx index } else none
  | .getRun run =>
    match s.lru.get run with
    | some record => some
      { s with lru := s.lru.moveToEnd run, returned := s.returned ++ [(run,some record)] }
    | none => some { s with readers := s.readers ++ [{ run := run }] }
  | .readRow index =>
    match s.readers[index]? with
    | some reader =>
      match reader.reading with
      | .started => some <| s.setReading index reader <|
        match (s.db reader.run).run with
        | some row => .row row.toRunSummary
        | none => .missing
      | _ => none
    | none => none
  | .readEvents index =>
    match s.readers[index]? with
    | some reader =>
      match reader.reading with
      | .row row => some <| s.setReading index reader <| .whole
          { row with events := (s.db reader.run).events.mergeSort fun a b => a.seq ≤ b.seq }
      | _ => none
    | none => none
  | .answer index =>
    match s.readers[index]? with
    | some reader =>
      match reader.reading with
      | .missing => some
        { s with
          readers := s.readers.eraseIdx index
          returned := s.returned ++ [(reader.run,none)] }
      | .whole record => some
        { s with
          readers := s.readers.eraseIdx index
          lru := s.lru.fill reader.run record
          returned := s.returned ++ [(reader.run,some record)] }
      | _ => none
    | none => none
  | .abandon index =>
    if index < s.readers.length then some { s with readers := s.readers.eraseIdx index } else none

theorem commitJob_parts {s next : RunStore} {pending : Pending}
    (committed : s.commitJob pending now = some next) :
    ∃ rows, pending.write.apply now (s.db pending.run) = some rows ∧
      next = { s with
        db := Function.update s.db pending.run rows
        commits := s.commits ++ [(pending,now)]
        readers := s.readers.map (Reader.lag pending) } := by
  obtain ⟨rows,applied,moved⟩ := Option.map_eq_some_iff.mp committed
  exact ⟨rows,applied,moved.symm⟩

inductive Step (s : RunStore) : StoreEvent → RunStore → Prop where
  | unneeded : Step s (.request run write) s
  | request : Step s (.request run write) { s with waiting := s.waiting ++ [(run,write)] }
  | withdraw : Step s (.withdraw index) { s with waiting := s.waiting.eraseIdx index }
  | acquire : s.holder = none → Step s .acquire
      { s with
        waiting := rest
        holder := some (⟨s.acquisitions,run,write⟩,.queued)
        acquisitions := s.acquisitions + 1 }
  | pickUp : s.holder = some (pending,.queued) →
      Step s .pickUp { s with holder := some (pending,.running) }
  | commit : s.holder = some (pending,.running) →
      pending.write.apply now (s.db pending.run) = some rows → Step s (.commit now)
        { s with
          db := Function.update s.db pending.run rows
          commits := s.commits ++ [(pending,now)]
          readers := s.readers.map (Reader.lag pending)
          holder := some (pending,.committed) }
  | fail : s.holder = some (pending,.running) →
      Step s event { s with holder := some (pending,.failed) }
  | resume : s.holder = some (pending,.committed) → Step s .resume (s.finish pending)
  | raised : s.holder = some (pending,.failed) → Step s .resume { s with holder := none }
  | abandoned : s.holder = some (pending,.running) →
      Step s .leave { s with holder := none, orphans := s.orphans ++ [pending] }
  | leave : s.holder = some (pending,job) → job ≠ .running → Step s .leave { s with holder := none }
  | land : s.orphans[index]? = some pending →
      pending.write.apply now (s.db pending.run) = some rows → Step s (.land index now)
        { s with
          orphans := s.orphans.eraseIdx index
          db := Function.update s.db pending.run rows
          commits := s.commits ++ [(pending,now)]
          readers := s.readers.map (Reader.lag pending) }
  | lose : Step s event { s with orphans := s.orphans.eraseIdx index }
  | hit : s.lru.get run = some record → Step s (.getRun run)
      { s with lru := s.lru.moveToEnd run, returned := s.returned ++ [(run,some record)] }
  | miss : s.lru.get run = none → Step s (.getRun run) { s with readers := s.readers ++ [{ run := run }] }
  | missing : s.readers[index]? = some reader → reader.reading = .started →
      Step s (.readRow index) (s.setReading index reader .missing)
  | readRow : s.readers[index]? = some reader → reader.reading = .started →
      (s.db reader.run).run = some row →
      Step s (.readRow index) (s.setReading index reader (.row row.toRunSummary))
  | readEvents : s.readers[index]? = some reader → reader.reading = .row row →
      Step s (.readEvents index) (s.setReading index reader (.whole
        { row with events := (s.db reader.run).events.mergeSort fun a b => a.seq ≤ b.seq }))
  | nothing : s.readers[index]? = some reader → Step s (.answer index)
      { s with readers := s.readers.eraseIdx index, returned := s.returned ++ [(reader.run,none)] }
  | answer : s.readers[index]? = some reader → reader.reading = .whole record →
      Step s (.answer index)
        { s with
          readers := s.readers.eraseIdx index
          lru := s.lru.fill reader.run record
          returned := s.returned ++ [(reader.run,some record)] }
  | abandon : Step s (.abandon index) { s with readers := s.readers.eraseIdx index }

theorem step_cases {s next : RunStore} {event : StoreEvent} (stepped : s.step event = some next) :
    Step s event next := by
  cases event with
  | request run write =>
    simp only [step] at stepped
    split at stepped
    · cases stepped
      exact .unneeded
    · cases stepped
      exact .request
  | withdraw index =>
    simp only [step] at stepped
    split at stepped
    · cases stepped
      exact .withdraw
    · cases stepped
  | acquire =>
    simp only [step] at stepped
    split at stepped
    · rename_i free asked
      cases stepped
      exact .acquire free
    · cases stepped
  | pickUp =>
    simp only [step] at stepped
    split at stepped
    · rename_i pending held
      cases stepped
      exact .pickUp held
    · cases stepped
  | commit now =>
    simp only [step] at stepped
    split at stepped
    · rename_i pending held
      cases stepped
      cases committed : s.commitJob pending now with
      | none => exact .fail held
      | some done =>
        obtain ⟨rows,applied,rfl⟩ := commitJob_parts committed
        exact .commit held applied
    · cases stepped
  | fail =>
    simp only [step] at stepped
    split at stepped
    · rename_i pending held
      cases stepped
      exact .fail held
    · cases stepped
  | resume =>
    simp only [step] at stepped
    split at stepped
    · rename_i pending held
      cases stepped
      exact .resume held
    · rename_i pending held
      cases stepped
      exact .raised held
    · cases stepped
  | leave =>
    simp only [step] at stepped
    split at stepped
    · rename_i pending held
      cases stepped
      exact .abandoned held
    · rename_i held unlike holds
      cases stepped
      obtain ⟨pending,job⟩ := held
      refine .leave holds ?_
      intro same
      subst same
      exact unlike pending rfl
    · cases stepped
  | land index now =>
    simp only [step] at stepped
    split at stepped
    · rename_i pending found
      cases stepped
      cases committed : ({ s with orphans := s.orphans.eraseIdx index }).commitJob pending now with
      | none => exact .lose
      | some done =>
        obtain ⟨rows,applied,rfl⟩ := commitJob_parts committed
        exact .land found applied
    · cases stepped
  | lose index =>
    simp only [step] at stepped
    split at stepped
    · cases stepped
      exact .lose
    · cases stepped
  | getRun run =>
    simp only [step] at stepped
    split at stepped
    · rename_i record found
      cases stepped
      exact .hit found
    · rename_i absent
      cases stepped
      exact .miss absent
  | readRow index =>
    simp only [step] at stepped
    split at stepped
    · rename_i reader found
      split at stepped
      · rename_i started
        cases stepped
        cases row : (s.db reader.run).run with
        | none => exact .missing found started
        | some row => exact .readRow found started row
      · cases stepped
    · cases stepped
  | readEvents index =>
    simp only [step] at stepped
    split at stepped
    · rename_i reader found
      split at stepped
      · rename_i row at_row
        cases stepped
        exact .readEvents found at_row
      · cases stepped
    · cases stepped
  | answer index =>
    simp only [step] at stepped
    split at stepped
    · rename_i reader found
      split at stepped
      · cases stepped
        exact .nothing found
      · rename_i record whole
        cases stepped
        exact .answer found whole
      · cases stepped
    · cases stepped
  | abandon index =>
    simp only [step] at stepped
    split at stepped
    · cases stepped
      exact .abandon
    · cases stepped

-- No operation is in flight, and no job either.
structure Quiet (s : RunStore) : Prop where
  waiting : s.waiting = []
  holder : s.holder = none
  orphans : s.orphans = []
  readers : s.readers = []

end RunStore

def runStore : System RunStore StoreEvent := ⟨RunStore.step⟩

end HyprlandAgent
