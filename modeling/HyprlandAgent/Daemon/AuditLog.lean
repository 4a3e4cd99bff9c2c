import HyprlandAgent.AsyncLock
import HyprlandAgent.Dumps
import HyprlandAgent.Places
import HyprlandAgent.Transition
import HyprlandAgent.Daemon.RunExecutor

-- The append-only JSONL file of the audit log: concurrent `write` calls take a lock in
-- turn, and each hands one line to a thread that outlives a caller who leaves.
namespace HyprlandAgent.AuditLog
open JsonLoads Ipc Transition

-- The writes to the file that one `f.write(line)` comes down to are the buffer's choice.
structure Host where
  enabled : Bool
  floatText : Rat → String
  floatText_printed : ∀ value, Printed (points (floatText value))
  pieces : Text → List Text
  pieces_flatten : ∀ text, (pieces text).flatten = text

def Host.line (h : Host) (entry : Dict) : Text := dumpsText h.floatText entry.toJson ++ ['\n'.toNat]

-- A call of `write` is known by its place among the calls. A running call has what it
-- wrote and what it has still to write. The last four fields are history: what each call
-- that is through left in the file, those that wrote it all, those that failed midway, and
-- those that returned.
structure State where
  lock : AsyncLock.State Nat := {}
  entries : List Dict := []
  queued : List Nat := []
  running : List (Nat × Text × List Text) := []
  file : Text
  through : List (Nat × Text) := []
  landed : List Nat := []
  torn : List Nat := []
  returned : List Nat := []

inductive Event where
  | write (entry : Dict)
  | resumes (i : Nat)
  | begins (i : Nat)
  | appends (i : Nat)
  | closes (i : Nat)
  | breaks (i : Nat)
  | fails (i : Nat)
  | returns (i : Nat)
  | leaves (i : Nat)
  | cancels (i : Nat)

def State.granted (s : State) (i : Nat) (lock : AsyncLock.State Nat) : State :=
  { s with lock := lock
           queued := if s.lock.holder = none ∧ lock.holder = some i then s.queued ++ [i] else s.queued }

section
variable (h : Host)

def lineOf (entries : List Dict) (i : Nat) : Text := (entries[i]?.map h.line).getD []

-- A thread takes a line up, writes it piece by piece and closes the file. It may fail to
-- open it, and a write may fail midway: what is written by then stays. `leaves` is a caller
-- who is cancelled or was raised the error: a line that no thread took up yet is taken back.
def step (s : State) : Event → Option State
  | .write entry =>
    if h.enabled then
      let i := s.entries.length
      some ({ s with entries := s.entries ++ [entry] }.granted i (s.lock.acquire i))
    else some s
  | .resumes i => (s.lock.resume i).map fun lock => s.granted i lock
  | .begins i =>
    if i ∈ s.queued then
      some { s with queued := s.queued.erase i
                    running := s.running ++ [(i,[],h.pieces (lineOf h s.entries i))] }
    else none
  | .appends i =>
    match s.running.lookup i with
    | some (written,piece :: rest) =>
      some { s with file := s.file ++ piece
                    running := s.running.map fun job => if job.1 = i then (i,written ++ piece,rest) else job }
    | _ => none
  | .closes i =>
    match s.running.lookup i with
    | some (written,[]) =>
      some { s with running := s.running.filter fun job => job.1 ≠ i
                    through := s.through ++ [(i,written)]
                    landed := s.landed ++ [i] }
    | _ => none
  | .breaks i =>
    match s.running.lookup i with
    | some (written,_ :: _) =>
      some { s with running := s.running.filter fun job => job.1 ≠ i
                    through := s.through ++ [(i,written)]
                    torn := s.torn ++ [i] }
    | _ => none
  | .fails i => if i ∈ s.queued then some { s with queued := s.queued.erase i } else none
  | .returns i =>
    if s.lock.holder = some i ∧ i ∈ s.landed then
      some { s with lock := s.lock.release,returned := s.returned ++ [i] }
    else none
  | .leaves i =>
    if s.lock.holder = some i then some { s with lock := s.lock.release,queued := s.queued.erase i }
    else none
  | .cancels i =>
    if s.lock.waiters.any fun w => w.id = i then some { s with lock := s.lock.cancel i } else none

def system : System State Event := ⟨step h⟩

end

def start (before : Text) : State := { file := before }

def Alone (s : State) : Event → Prop
  | .begins _ => s.running = []
  | _ => True

-- Nobody leaves while its line is being written.
def Patient (s : State) : Event → Prop
  | .leaves i => s.running.lookup i = none
  | _ => True

section
variable {h : Host} {before : Text} {s next : State} {i : Nat}

structure Left (line : Nat → Text) (landed : List Nat) (job : Nat × Text) : Prop where
  begun : job.2 <+: line job.1
  whole : job.1 ∈ landed → job.2 = line job.1

-- At most one line is handed over, by the holder of the lock, and at most one is being
-- written; the lines follow one another in the order in which the lock was taken; and what
-- a running call wrote and has still to write make its line.
structure Orderly (h : Host) (before : Text) (s : State) : Prop where
  sound : AsyncLock.Sound s.lock
  arrived : s.lock.arrived = List.range s.entries.length
  queued : s.queued = [] ∨ ∃ i, s.queued = [i] ∧ s.lock.holder = some i
  running : s.running = [] ∨ ∃ job, s.running = [job]
  order : List.Sublist (s.through.map Prod.fst ++ s.running.map Prod.fst ++ s.queued) s.lock.entered
  landed : List.Sublist s.landed (s.through.map Prod.fst)
  untorn : s.torn = [] → s.through.map Prod.fst = s.landed
  text : s.file = before ++ (s.through.map Prod.snd).flatten ++ (s.running.map fun job => job.2.1).flatten
  left : ∀ job ∈ s.through, Left (lineOf h s.entries) s.landed job
  going : ∀ job ∈ s.running, job.2.1 ++ job.2.2.flatten = lineOf h s.entries job.1
  returned : ∀ i ∈ s.returned, i ∈ s.landed

namespace Orderly

theorem entered (orderly : Orderly h before s) : List.Sublist s.lock.entered (List.range s.entries.length) := by
  rw [← orderly.arrived]
  exact (List.sublist_append_left _ _).trans orderly.sound.order

theorem written (orderly : Orderly h before s) :
    List.Sublist (s.through.map Prod.fst ++ s.running.map Prod.fst) (List.range s.entries.length) :=
  ((List.sublist_append_left _ _).trans orderly.order).trans orderly.entered

theorem granted (orderly : Orderly h before s) {entries : List Dict} {lock : AsyncLock.State Nat}
    (lines : ∀ j ∈ s.through.map Prod.fst ++ s.running.map Prod.fst, entries[j]? = s.entries[j]?)
    (sound : AsyncLock.Sound lock) (arrived : lock.arrived = List.range entries.length)
    (turn : (s.lock.holder = none ∧ lock.holder = some i ∧ lock.entered = s.lock.entered ++ [i]) ∨
      (lock.holder = s.lock.holder ∧ lock.entered = s.lock.entered)) :
    Orderly h before ({ s with entries := entries }.granted i lock) := by
  have same : ∀ j ∈ s.through.map Prod.fst ++ s.running.map Prod.fst, lineOf h entries j = lineOf h s.entries j := by
    intro j inside
    unfold lineOf
    rw [lines j inside]
  have left : ∀ job ∈ s.through, Left (lineOf h entries) s.landed job := by
    intro job inside
    have line := same job.1 (List.mem_append_left _ (List.mem_map_of_mem inside))
    obtain ⟨begun,whole⟩ := orderly.left job inside
    exact ⟨line ▸ begun,line ▸ whole⟩
  have going : ∀ job ∈ s.running, job.2.1 ++ job.2.2.flatten = lineOf h entries job.1 := by
    intro job inside
    rw [same job.1 (List.mem_append_right _ (List.mem_map_of_mem inside))]
    exact orderly.going job inside
  unfold State.granted
  rcases turn with ⟨free,mine,last⟩ | ⟨held,same⟩
  · have nothing : s.queued = [] := by
      rcases orderly.queued with none_ | ⟨other,_,busy⟩
      · exact none_
      · rw [free] at busy
        cases busy
    rw [if_pos ⟨free,mine⟩,nothing]
    refine ⟨sound,arrived,.inr ⟨i,rfl,mine⟩,orderly.running,?_,orderly.landed,orderly.untorn,orderly.text,left,
      going,orderly.returned⟩
    have order := orderly.order
    rw [nothing,List.append_nil] at order
    show List.Sublist _ lock.entered
    rw [last]
    exact order.append (List.Sublist.refl [i])
  · have idle : ¬(s.lock.holder = none ∧ lock.holder = some i) := by
      rintro ⟨free,mine⟩
      rw [held,free] at mine
      cases mine
    rw [if_neg idle]
    refine ⟨sound,arrived,?_,orderly.running,?_,orderly.landed,orderly.untorn,orderly.text,left,going,
      orderly.returned⟩
    · show _ ∨ ∃ i, _ ∧ lock.holder = some i
      rw [held]
      exact orderly.queued
    · show List.Sublist _ lock.entered
      rw [same]
      exact orderly.order

theorem calls (orderly : Orderly h before s) (entry : Dict) :
    Orderly h before ({ s with entries := s.entries ++ [entry] }.granted s.entries.length
      (s.lock.acquire s.entries.length)) := by
  obtain ⟨arrived,turn⟩ := AsyncLock.acquire_cases s.lock s.entries.length
  have fresh : s.entries.length ∉ s.lock.arrived := by
    rw [orderly.arrived]
    simp
  refine orderly.granted ?_ (AsyncLock.acquire_sound orderly.sound fresh) ?_ turn
  · intro j inside
    exact List.getElem?_append_left (List.mem_range.mp (orderly.written.subset inside))
  · rw [arrived,orderly.arrived,List.length_append,List.length_singleton,List.range_succ]

theorem released (orderly : Orderly h before s) {queued returned : List Nat} (nothing : queued = [])
    (done : ∀ i ∈ returned, i ∈ s.landed) :
    Orderly h before { s with lock := s.lock.release,queued := queued,returned := returned } := by
  subst nothing
  refine ⟨AsyncLock.release_sound orderly.sound,?_,.inl rfl,orderly.running,?_,orderly.landed,orderly.untorn,
    orderly.text,orderly.left,orderly.going,done⟩
  · exact (AsyncLock.release_arrived _).trans orderly.arrived
  · show List.Sublist (_ ++ []) s.lock.release.entered
    rw [AsyncLock.release_entered,List.append_nil]
    exact (List.sublist_append_left _ _).trans orderly.order

theorem working (orderly : Orderly h before s) {job : Text × List Text} (found : s.running.lookup i = some job) :
    s.running = [(i,job)] := by
  rcases orderly.running with none_ | ⟨⟨task,rest⟩,one⟩
  · rw [none_] at found
    cases found
  · rw [one,List.lookup_cons] at found
    split at found
    · rename_i same
      obtain rfl : i = task := by simpa using same
      cases found
      exact one
    · cases found

theorem waits (orderly : Orderly h before s) (inside : i ∈ s.queued) :
    s.queued = [i] ∧ s.lock.holder = some i := by
  rcases orderly.queued with none_ | ⟨other,one,held⟩
  · rw [none_] at inside
    cases inside
  · rw [one] at inside
    obtain rfl := List.mem_singleton.mp inside
    exact ⟨one,held⟩

theorem takesUp (orderly : Orderly h before s) (inside : i ∈ s.queued) (quiet : s.running = []) :
    Orderly h before { s with queued := s.queued.erase i
                              running := s.running ++ [(i,[],h.pieces (lineOf h s.entries i))] } := by
  obtain ⟨one,held⟩ := orderly.waits inside
  have order := orderly.order
  have text := orderly.text
  rw [quiet] at order text
  rw [one] at order
  refine ⟨orderly.sound,orderly.arrived,.inl (by simp [one]),.inr ⟨_,by rw [quiet]; rfl⟩,?_,orderly.landed,
    orderly.untorn,?_,orderly.left,?_,orderly.returned⟩
  · simpa [quiet,one] using order
  · simpa [quiet] using text
  · intro job going
    obtain rfl : job = (i,[],h.pieces (lineOf h s.entries i)) := by simpa [quiet] using going
    exact h.pieces_flatten _

theorem writes (orderly : Orderly h before s) {written piece : Text} {rest : List Text}
    (found : s.running.lookup i = some (written,piece :: rest)) :
    Orderly h before { s with file := s.file ++ piece
                              running := s.running.map fun job =>
                                if job.1 = i then (i,written ++ piece,rest) else job } := by
  have one := orderly.working found
  have order := orderly.order
  have text := orderly.text
  have line := orderly.going (i,written,piece :: rest) (one ▸ List.mem_singleton.mpr rfl)
  rw [one] at order text
  refine ⟨orderly.sound,orderly.arrived,orderly.queued,.inr ⟨(i,written ++ piece,rest),by simp [one]⟩,?_,
    orderly.landed,orderly.untorn,?_,orderly.left,?_,orderly.returned⟩
  · simpa [one] using order
  · simp [one,text]
  · intro job going
    obtain rfl : job = (i,written ++ piece,rest) := by simpa [one] using going
    simpa [List.append_assoc] using line

theorem ends (orderly : Orderly h before s) {written : Text} {rest : List Text} {landed torn : List Nat}
    (found : s.running.lookup i = some (written,rest))
    (kept : (rest = [] ∧ landed = s.landed ++ [i] ∧ torn = s.torn) ∨ (landed = s.landed ∧ torn = s.torn ++ [i])) :
    Orderly h before { s with running := s.running.filter fun job => job.1 ≠ i
                              through := s.through ++ [(i,written)]
                              landed := landed
                              torn := torn } := by
  have one := orderly.working found
  have alone : (s.running.filter fun job => decide (job.1 ≠ i)) = [] := by simp [one]
  have order := orderly.order
  have text := orderly.text
  have line : written ++ rest.flatten = lineOf h s.entries i :=
    orderly.going (i,written,rest) (one ▸ List.mem_singleton.mpr rfl)
  have fresh : i ∉ s.through.map Prod.fst := by
    intro old
    have distinct := orderly.written.nodup List.nodup_range
    rw [one] at distinct
    exact (List.nodup_append.mp distinct).2.2 i old i (List.mem_singleton.mpr rfl) rfl
  rw [one] at order text
  rw [alone]
  have landed_ : List.Sublist landed ((s.through ++ [(i,written)]).map Prod.fst) := by
    rw [List.map_append]
    rcases kept with ⟨_,rfl,_⟩ | ⟨rfl,_⟩
    · exact orderly.landed.append (List.Sublist.refl [i])
    · exact orderly.landed.trans (List.sublist_append_left _ _)
  have untorn_ : torn = [] → (s.through ++ [(i,written)]).map Prod.fst = landed := by
    rintro rfl
    rcases kept with ⟨_,rfl,unbroken⟩ | ⟨_,broken⟩
    · rw [List.map_append,orderly.untorn unbroken.symm]
      rfl
    · simp at broken
  refine ⟨orderly.sound,orderly.arrived,orderly.queued,.inl rfl,?_,landed_,untorn_,?_,?_,nofun,?_⟩
  · simpa using order
  · simpa using text
  · intro job inside
    rcases List.mem_append.mp inside with old | new
    · obtain ⟨begun,whole⟩ := orderly.left job old
      refine ⟨begun,fun there => whole ?_⟩
      rcases kept with ⟨_,rfl,_⟩ | ⟨rfl,_⟩
      · rcases List.mem_append.mp there with before | new
        · exact before
        · exact absurd (List.mem_singleton.mp new ▸ List.mem_map_of_mem old) fresh
      · exact there
    · obtain rfl := List.mem_singleton.mp new
      refine ⟨⟨_,line⟩,fun there => ?_⟩
      rcases kept with ⟨rfl,_⟩ | ⟨rfl,_⟩
      · simpa using line
      · exact absurd (orderly.landed.subset there) fresh
  · intro j inside
    have there := orderly.returned j inside
    rcases kept with ⟨_,rfl,_⟩ | ⟨rfl,_⟩
    · exact List.mem_append_left _ there
    · exact there

end Orderly

theorem orderly_step {event : Event} (orderly : Orderly h before s) (alone : Alone s event)
    (stepped : step h s event = some next) : Orderly h before next := by
  cases event with
  | write entry =>
    simp only [step] at stepped
    split at stepped
    · cases stepped
      exact orderly.calls entry
    · cases stepped
      exact orderly
  | resumes i =>
    obtain ⟨lock,resumed,rfl⟩ := Option.map_eq_some_iff.mp stepped
    obtain ⟨sound,turn,arrived⟩ := AsyncLock.resume_sound orderly.sound resumed
    exact orderly.granted (fun _ _ => rfl) sound (arrived.trans orderly.arrived) turn
  | begins i =>
    simp only [step] at stepped
    split at stepped
    · rename_i inside
      cases stepped
      exact orderly.takesUp inside alone
    · cases stepped
  | appends i =>
    simp only [step] at stepped
    split at stepped
    · rename_i written piece rest found
      cases stepped
      exact orderly.writes found
    · cases stepped
  | closes i =>
    simp only [step] at stepped
    split at stepped
    · rename_i written found
      cases stepped
      exact orderly.ends found (.inl ⟨rfl,rfl,rfl⟩)
    · cases stepped
  | breaks i =>
    simp only [step] at stepped
    split at stepped
    · rename_i written piece rest found
      cases stepped
      exact orderly.ends found (.inr ⟨rfl,rfl⟩)
    · cases stepped
  | fails i =>
    simp only [step] at stepped
    split at stepped
    · rename_i inside
      cases stepped
      obtain ⟨one,held⟩ := orderly.waits inside
      refine ⟨orderly.sound,orderly.arrived,.inl (by simp [one]),orderly.running,?_,orderly.landed,orderly.untorn,
        orderly.text,orderly.left,orderly.going,orderly.returned⟩
      have order := (List.sublist_append_left _ _).trans orderly.order
      simpa [one] using order
    · cases stepped
  | returns i =>
    simp only [step] at stepped
    split at stepped
    · rename_i done
      obtain ⟨held,landed⟩ := done
      cases stepped
      have nothing : s.queued = [] := by
        rcases orderly.queued with none_ | ⟨other,one,busy⟩
        · exact none_
        · obtain rfl : i = other := Option.some.inj (held.symm.trans busy)
          have distinct := (orderly.order.trans orderly.entered).nodup List.nodup_range
          rw [one] at distinct
          have apart := (List.nodup_append.mp distinct).2.2 i (List.mem_append_left _ (orderly.landed.subset landed)) i
            (List.mem_singleton.mpr rfl)
          exact absurd rfl apart
      refine orderly.released nothing ?_
      intro j inside
      rcases List.mem_append.mp inside with before | new
      · exact orderly.returned j before
      · rw [List.mem_singleton.mp new]
        exact landed
    · cases stepped
  | leaves i =>
    simp only [step] at stepped
    split at stepped
    · rename_i held
      cases stepped
      refine orderly.released ?_ orderly.returned
      rcases orderly.queued with none_ | ⟨other,one,busy⟩
      · rw [none_]
        rfl
      · obtain rfl : i = other := Option.some.inj (held.symm.trans busy)
        simp [one]
    · cases stepped
  | cancels i =>
    simp only [step] at stepped
    split at stepped
    · cases stepped
      exact ⟨AsyncLock.cancel_sound orderly.sound i,orderly.arrived,orderly.queued,orderly.running,orderly.order,
        orderly.landed,orderly.untorn,orderly.text,orderly.left,orderly.going,orderly.returned⟩
    · cases stepped

theorem orderly_run (run : Run (system h) Alone (start before) s) : Orderly h before s := by
  refine run.invariant (P:=Orderly h before) ?_ fun _ _ _ orderly alone stepped => orderly_step orderly alone stepped
  exact ⟨AsyncLock.sound_fresh,rfl,.inl rfl,.inl rfl,List.Sublist.refl _,List.Sublist.refl _,fun _ => rfl,
    by simp [start],nofun,nofun,nofun⟩

-- The lines of a text, as iterating over the file gives them.
def lines : Text → List Text
  | [] => []
  | point :: rest =>
    if point = '\n'.toNat then [point] :: lines rest
    else
      match lines rest with
      | [] => [[point]]
      | first :: others => (point :: first) :: others

theorem lines_line {text : Text} (inline : '\n'.toNat ∉ text) (rest : Text) :
    lines (text ++ '\n'.toNat :: rest) = (text ++ ['\n'.toNat]) :: lines rest := by
  induction text with
  | nil => rw [List.nil_append,lines,if_pos rfl]; rfl
  | cons point more ih =>
    rw [List.mem_cons,not_or] at inline
    rw [List.cons_append,lines,if_neg (Ne.symm inline.1),ih inline.2]
    rfl

theorem line_printed (h : Host) (entry : Dict) : '\n'.toNat ∉ dumpsText h.floatText entry.toJson := by
  intro inside
  exact absurd (text_printed h.floatText_printed entry.toJson _ inside) (by decide)

theorem lines_written (h : Host) (entries : List Dict) : lines (entries.map h.line).flatten = entries.map h.line := by
  induction entries with
  | nil => rfl
  | cons entry rest ih =>
    have parted : ((entry :: rest).map h.line).flatten =
        dumpsText h.floatText entry.toJson ++ '\n'.toNat :: (rest.map h.line).flatten := by
      rw [List.map_cons,List.flatten_cons,Host.line,List.append_assoc]
      rfl
    rw [parted,lines_line (line_printed h entry),ih]
    rfl

variable {python : Interpreter}

def readBack (python : Interpreter) (file : Text) : List (Option Json) := (lines file).map (loadsText python)

theorem readBack_written (entries : List Dict)
    (carried : ∀ entry ∈ entries, Ipc.Carries h.floatText python 0 entry.toJson) :
    readBack python (entries.map h.line).flatten = entries.map fun entry => some entry.toJson := by
  unfold readBack
  rw [lines_written,List.map_map]
  exact List.map_congr_left fun entry inside => loadsText_dumpsText (carried entry inside) (by decide)

def State.logged (s : State) : List Dict := Places.pick s.entries s.landed

-- The file grows by one line of each call at most, in the order of the calls and with
-- every call that returned among them. A line is whole unless its write failed midway, and
-- as long as none did the lines are read back as what was logged.
structure Kept (h : Host) (python : Interpreter) (before : Text) (s : State) : Prop where
  order : List.Sublist s.logged s.entries
  once : (s.through.map Prod.fst).Pairwise (· < ·)
  landed : List.Sublist s.landed (s.through.map Prod.fst)
  returned : ∀ i ∈ s.returned, i ∈ s.landed
  lines : ∀ job ∈ s.through, ∃ entry, s.entries[job.1]? = some entry ∧ job.2 <+: h.line entry ∧
    (job.1 ∈ s.landed → job.2 = h.line entry)
  cut : ∃ cut rest, s.file = before ++ (s.through.map Prod.snd).flatten ++ cut ∧
    ((s.running = [] ∧ cut = []) ∨ ∃ entry ∈ s.entries, cut ++ rest = h.line entry)
  whole : s.torn = [] → s.through.map Prod.snd = s.logged.map h.line
  readable : s.running = [] → s.torn = [] →
    (∀ entry ∈ s.entries, Ipc.Carries h.floatText python 0 entry.toJson) →
    readBack python (s.file.drop before.length) = s.logged.map fun entry => some entry.toJson

theorem lineOf_there {entries : List Dict} {entry : Dict} (there : entries[i]? = some entry) :
    lineOf h entries i = h.line entry := by
  simp [lineOf,there]

theorem Orderly.kept (orderly : Orderly h before s) : Kept h python before s := by
  have through : List.Sublist (s.through.map Prod.fst) (List.range s.entries.length) :=
    (List.sublist_append_left _ _).trans orderly.written
  have landed := orderly.landed.trans through
  have order : List.Sublist s.logged s.entries := Places.pick_sublist landed
  have whole (none_ : s.torn = []) : s.through.map Prod.snd = s.logged.map h.line := by
    have untorn := orderly.untorn none_
    calc
      s.through.map Prod.snd = s.through.map fun job => lineOf h s.entries job.1 := by
        refine List.map_congr_left fun job inside => (orderly.left job inside).whole ?_
        exact untorn ▸ List.mem_map_of_mem inside
      _ = s.landed.map (lineOf h s.entries) := by
        rw [← untorn,List.map_map]
        rfl
      _ = s.logged.map h.line := Places.map_pick h.line [] fun i inside => List.mem_range.mp (landed.subset inside)
  refine ⟨order,List.pairwise_lt_range.sublist through,orderly.landed,orderly.returned,?_,?_,whole,?_⟩
  · intro job inside
    have early := List.mem_range.mp (through.subset (List.mem_map_of_mem inside))
    have there := List.getElem?_eq_getElem early
    obtain ⟨begun,complete⟩ := orderly.left job inside
    rw [lineOf_there there] at begun complete
    exact ⟨_,there,begun,complete⟩
  · rcases orderly.running with none_ | ⟨⟨i,written,rest⟩,one⟩
    · refine ⟨[],[],?_,.inl ⟨none_,rfl⟩⟩
      rw [orderly.text,none_]
      rfl
    · have mine : (i,written,rest) ∈ s.running := one ▸ List.mem_singleton.mpr rfl
      have early := List.mem_range.mp (orderly.written.subset (List.mem_append_right _ (List.mem_map_of_mem mine)))
      have line := orderly.going _ mine
      rw [lineOf_there (List.getElem?_eq_getElem early)] at line
      refine ⟨written,rest.flatten,?_,.inr ⟨_,List.getElem_mem early,line⟩⟩
      rw [orderly.text,one]
      simp
  · intro idle untorn carried
    have text := orderly.text
    rw [idle,whole untorn] at text
    rw [text]
    show readBack python (List.drop _ (before ++ _ ++ [])) = _
    rw [List.append_nil,List.drop_left]
    exact readBack_written s.logged fun entry inside => carried entry (order.subset inside)

def Attended (s : State) : Prop := ∀ job ∈ s.running, s.lock.holder = some job.1

theorem Orderly.apart (orderly : Orderly h before s) :
    (s.through.map Prod.fst ++ s.running.map Prod.fst ++ s.queued).Nodup :=
  (orderly.order.trans orderly.entered).nodup List.nodup_range

theorem attended_step {event : Event} (orderly : Orderly h before s) (attended : Attended s)
    (patient : Patient s event) (stepped : step h s event = some next) : Alone s event ∧ Attended next := by
  have locks {i : Nat} {entries : List Dict} {lock : AsyncLock.State Nat}
      (turn : (s.lock.holder = none ∧ lock.holder = some i ∧ lock.entered = s.lock.entered ++ [i]) ∨
        (lock.holder = s.lock.holder ∧ lock.entered = s.lock.entered)) :
      Attended ({ s with entries := entries }.granted i lock) := by
    intro job inside
    have held := attended job inside
    rcases turn with ⟨free,_⟩ | ⟨same,_⟩
    · rw [free] at held
      cases held
    · exact same.trans held
  cases event with
  | write entry =>
    simp only [step] at stepped
    split at stepped
    · cases stepped
      exact ⟨trivial,locks (AsyncLock.acquire_cases s.lock s.entries.length).2⟩
    · cases stepped
      exact ⟨trivial,attended⟩
  | resumes i =>
    obtain ⟨lock,resumed,rfl⟩ := Option.map_eq_some_iff.mp stepped
    exact ⟨trivial,locks (AsyncLock.resume_sound orderly.sound resumed).2.1⟩
  | begins i =>
    simp only [step] at stepped
    split at stepped
    · rename_i inside
      cases stepped
      obtain ⟨one,held⟩ := orderly.waits inside
      have quiet : s.running = [] := by
        refine List.eq_nil_iff_forall_not_mem.mpr fun job going => ?_
        obtain rfl : i = job.1 := Option.some.inj (held.symm.trans (attended job going))
        have apart := (List.nodup_append.mp orderly.apart).2.2
        exact apart job.1 (List.mem_append_right _ (List.mem_map_of_mem going)) job.1 inside rfl
      refine ⟨quiet,fun job going => ?_⟩
      obtain rfl : job = (i,[],h.pieces (lineOf h s.entries i)) := by simpa [quiet] using going
      exact held
    · cases stepped
  | appends i =>
    simp only [step] at stepped
    split at stepped
    · cases stepped
      refine ⟨trivial,fun job going => ?_⟩
      obtain ⟨old,there,rfl⟩ := List.mem_map.mp going
      have held := attended old there
      split
      · rename_i same
        exact same ▸ held
      · exact held
    · cases stepped
  | closes i =>
    simp only [step] at stepped
    split at stepped
    · cases stepped
      exact ⟨trivial,fun job going => attended job (List.mem_of_mem_filter going)⟩
    · cases stepped
  | breaks i =>
    simp only [step] at stepped
    split at stepped
    · cases stepped
      exact ⟨trivial,fun job going => attended job (List.mem_of_mem_filter going)⟩
    · cases stepped
  | fails i =>
    simp only [step] at stepped
    split at stepped
    · cases stepped
      exact ⟨trivial,attended⟩
    · cases stepped
  | returns i =>
    simp only [step] at stepped
    split at stepped
    · rename_i done
      cases stepped
      refine ⟨trivial,fun job going => ?_⟩
      obtain rfl : i = job.1 := Option.some.inj (done.1.symm.trans (attended job going))
      have apart := (List.nodup_append.mp (List.nodup_append.mp orderly.apart).1).2.2
      exact absurd rfl (apart job.1 (orderly.landed.subset done.2) job.1 (List.mem_map_of_mem going))
    · cases stepped
  | leaves i =>
    simp only [step] at stepped
    split at stepped
    · rename_i held
      cases stepped
      refine ⟨trivial,fun job going => ?_⟩
      obtain rfl : i = job.1 := Option.some.inj (held.symm.trans (attended job going))
      have gone : s.running.lookup job.1 = none := patient
      exact absurd rfl (bne_iff_ne.mp (List.lookup_eq_none_iff.mp gone job going))
    · cases stepped
  | cancels i =>
    simp only [step] at stepped
    split at stepped
    · cases stepped
      exact ⟨trivial,attended⟩
    · cases stepped

theorem patient_alone (run : Run (system h) Patient (start before) s) : Run (system h) Alone (start before) s := by
  have both : Run (system h) Alone (start before) s ∧ Attended s := by
    induction run with
    | refl => exact ⟨.refl,nofun⟩
    | step _ patient stepped ih =>
      obtain ⟨alone,attended⟩ := attended_step (orderly_run ih.1) ih.2 patient stepped
      exact ⟨.step ih.1 alone stepped,attended⟩
  exact both.1

-- However the calls, the threads, the cancellations and the failures of the file system
-- take turns, as long as no caller leaves while its line is being written, or no line is
-- taken up until that one is through.
theorem entries_kept (h : Host) (python : Interpreter) (before : Text) :
    (∀ s, Run (system h) Patient (start before) s → Kept h python before s) ∧
      ∀ s, Run (system h) Alone (start before) s → Kept h python before s :=
  ⟨fun _ run => (orderly_run (patient_alone run)).kept,fun _ run => (orderly_run run).kept⟩

end

def plainLog : Host where
  enabled := true
  floatText := fun _ => "0.5"
  floatText_printed := fun _ => (by decide : ∀ point ∈ points "0.5", 0x20 ≤ point)
  pieces := fun text => [text.take 9,text.drop 9]
  pieces_flatten := fun text => by simp

instance (s : State) (event : Event) : Decidable (Patient s event) := by
  cases event <;> unfold Patient <;> infer_instance

def noted (run : String) : Dict := dict [("run_id",.str run),("seq",.int 0)]

def fourCalls : List Event :=
  [.write (noted "a"),.write (noted "b"),.write (noted "c"),.begins 0,.appends 0,.cancels 1,.appends 0,.resumes 1,
    .closes 0,.returns 0,.resumes 2,.begins 2,.appends 2,.write (noted "d"),.appends 2,.closes 2,.returns 2,.resumes 3,
    .begins 3,.appends 3,.breaks 3,.leaves 3]

theorem entries_kept_torn : ∃ s, s.returned = [0,2] ∧ s.through.map Prod.fst = [0,2,3] ∧
    s.logged.map Dict.toJson = [(noted "a").toJson,(noted "c").toJson] ∧ Kept plainLog Ipc.cpython [] s := by
  have played : (((system plainLog).under Patient).play (start []) fourCalls).any (fun s => s.returned == [0,2] &&
      s.through.map Prod.fst == [0,2,3] &&
      s.logged.map Dict.toJson == [(noted "a").toJson,(noted "c").toJson]) = true := by
    decide +kernel
  obtain ⟨s,run,shown⟩ := System.found_under played
  rw [Bool.and_eq_true,Bool.and_eq_true,beq_iff_eq,beq_iff_eq,beq_iff_eq] at shown
  exact ⟨s,shown.1.1,shown.1.2,shown.2,(entries_kept plainLog Ipc.cpython []).1 s run⟩

end HyprlandAgent.AuditLog
