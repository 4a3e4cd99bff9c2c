import Mathlib.Data.List.Basic
import HyprlandAgent.Store.RunStore

-- In which order the writes of the store commit.
namespace HyprlandAgent
open Transition RunStore
variable {s next : RunStore} {db : Database}

def replay (db : Database) (commits : List (Pending × Seconds)) : Database :=
  commits.foldl (fun db (pending,now) =>
    Function.update db pending.run ((pending.write.apply now (db pending.run)).getD (db pending.run))) db

theorem replay_snoc {pending : Pending} {rows : Rows} {now : Seconds} {commits : List (Pending × Seconds)}
    (applied : pending.write.apply now (replay db commits pending.run) = some rows) :
    replay db (commits ++ [(pending,now)]) = Function.update (replay db commits) pending.run rows := by
  unfold replay at applied ⊢
  rw [List.foldl_append]
  simp [applied]

theorem replayed_step (stepped : RunStore.Step s event next) (replayed : s.db = replay db s.commits) :
    next.db = replay db next.commits := by
  cases stepped with
  | commit held applied =>
    rw [replayed] at applied
    simp only [replay_snoc applied,replayed]
  | land found applied =>
    rw [replayed] at applied
    simp only [replay_snoc applied,replayed]
  | _ => exact replayed

-- No write takes the lock while a job that its caller has left is running.
def orderly (s : RunStore) : StoreEvent → Prop
  | .acquire => s.orphans = []
  | _ => True

-- The write whose job is still to commit has the last ticket, and every commit an
-- earlier one.
structure InOrder (s : RunStore) : Prop where
  holder : ∀ pending job, s.holder = some (pending,job) →
    s.orphans = [] ∧ pending.ticket + 1 = s.acquisitions ∧
      (job ≠ .committed → ∀ commit ∈ s.commits, commit.1.ticket < pending.ticket)
  orphan : s.orphans = [] ∨ ∃ pending, s.orphans = [pending] ∧ pending.ticket + 1 = s.acquisitions ∧
    ∀ commit ∈ s.commits, commit.1.ticket < pending.ticket
  sorted : (s.commits.map fun commit => commit.1.ticket).Pairwise (· < ·)
  past : ∀ commit ∈ s.commits, commit.1.ticket < s.acquisitions

theorem sorted_snoc {commits : List (Pending × Seconds)} {pending : Pending}
    (sorted : (commits.map fun commit => commit.1.ticket).Pairwise (· < ·))
    (last : ∀ commit ∈ commits, commit.1.ticket < pending.ticket) (now : Seconds) :
    ((commits ++ [(pending,now)]).map fun commit => commit.1.ticket).Pairwise (· < ·) := by
  rw [List.map_append,List.pairwise_append]
  refine ⟨sorted,by simp,?_⟩
  intro ticket earlier later here
  obtain ⟨commit,among,rfl⟩ := List.mem_map.mp earlier
  obtain rfl : later = pending.ticket := by simpa using here
  exact last commit among

theorem past_snoc {commits : List (Pending × Seconds)} {pending : Pending}
    (past : ∀ commit ∈ commits, commit.1.ticket < n) (last : pending.ticket + 1 = n) (now : Seconds) :
    ∀ commit ∈ commits ++ [(pending,now)], commit.1.ticket < n := by
  intro commit among
  rcases List.mem_append.mp among with earlier | here
  · exact past commit earlier
  · obtain rfl : commit = (pending,now) := by simpa using here
    change pending.ticket < n
    omega

theorem InOrder.released (order : InOrder s) : InOrder { s with holder := none } :=
  ⟨fun _ _ impossible => (by cases impossible),order.orphan,order.sorted,order.past⟩

theorem InOrder.advanced (order : InOrder s) (held : s.holder = some (pending,job))
    (due : job ≠ .committed) : InOrder { s with holder := some (pending,after) } := by
  obtain ⟨alone,last,earlier⟩ := order.holder pending job held
  refine ⟨?_,order.orphan,order.sorted,order.past⟩
  intro other state same
  cases same
  exact ⟨alone,last,fun _ => earlier due⟩

theorem inOrder_step (stepped : RunStore.Step s event next) (met : orderly s event)
    (order : InOrder s) : InOrder next := by
  cases stepped with
  | acquire free =>
    refine ⟨?_,.inl met,order.sorted,?_⟩
    · intro pending job same
      cases same
      exact ⟨met,rfl,fun _ => order.past⟩
    · intro commit among
      have before := order.past commit among
      dsimp only
      omega
  | pickUp held => exact order.advanced held (by simp)
  | fail held => exact order.advanced held (by simp)
  | commit held applied =>
    obtain ⟨alone,last,earlier⟩ := order.holder _ _ held
    have due := earlier (by simp)
    refine ⟨?_,.inl alone,sorted_snoc order.sorted due _,past_snoc order.past last _⟩
    intro other job same
    cases same
    exact ⟨alone,last,fun impossible => absurd rfl impossible⟩
  | resume held => exact ⟨fun _ _ impossible => (by cases impossible),order.orphan,order.sorted,order.past⟩
  | raised held => exact order.released
  | leave held settled => exact order.released
  | @abandoned pending held =>
    obtain ⟨alone,last,earlier⟩ := order.holder _ _ held
    refine ⟨fun _ _ impossible => (by cases impossible),.inr ⟨pending,?_,last,earlier (by simp)⟩,
      order.sorted,order.past⟩
    simp [alone]
  | @land index pending now rows found applied =>
    rcases order.orphan with none | ⟨only,one,last,earlier⟩
    · simp [none] at found
    · rw [one] at found
      have first : index = 0 := by
        by_contra later
        simp [later] at found
      subst first
      obtain rfl : only = pending := by simpa using found
      refine ⟨?_,.inl (by simp [one]),sorted_snoc order.sorted earlier _,past_snoc order.past last _⟩
      intro other job held
      have alone := (order.holder other job held).1
      rw [one] at alone
      cases alone
  | @lose _ index =>
    refine ⟨?_,?_,order.sorted,order.past⟩
    · intro pending job held
      obtain ⟨alone,rest⟩ := order.holder pending job held
      exact ⟨by simp [alone],rest⟩
    · rcases order.orphan with none | ⟨only,one,rest⟩
      · exact .inl (by simp [none])
      · cases index with
        | zero => exact .inl (by simp [one])
        | succ later => exact .inr ⟨only,by simp [one],rest⟩
  | _ => exact ⟨order.holder,order.orphan,order.sorted,order.past⟩

-- The writes commit in the order of their tickets, and the database is what they
-- make of it in that order.
theorem writes_in_lock_order (run : Run runStore orderly { db := db } s) :
    (s.commits.map fun commit => commit.1.ticket).Pairwise (· < ·) ∧ s.db = replay db s.commits := by
  refine ⟨InOrder.sorted ?_,?_⟩
  · apply run.invariant
    · exact ⟨fun _ _ held => (by cases held),.inl rfl,.nil,fun _ among => by cases among⟩
    · intro s event next order met stepped
      exact inOrder_step (step_cases stepped) met order
  · apply run.invariant (P:=fun s => s.db = replay db s.commits) rfl
    intro s event next replayed _ stepped
    exact replayed_step (step_cases stepped) replayed

def oneRun : Database := fun run =>
  if run = "r" then { run := some ⟨⟨"r",.run,"task","claude",.running,0,none,none⟩,none,none,none⟩ } else {}

def aborting : StoreWrite := .updateRunStatus .aborted (some 1) none
def completing : StoreWrite := .updateRunStatus .completed (some 1) none

instance : ∀ s event, Decidable (orderly s event)
  | s,.acquire => decidable_of_iff (s.orphans.isEmpty = true) List.isEmpty_iff
  | _,.request _ _ | _,.withdraw _ | _,.pickUp | _,.commit _ | _,.fail | _,.resume | _,.leave
  | _,.land _ _ | _,.lose _ | _,.getRun _ | _,.readRow _ | _,.readEvents _ | _,.answer _
  | _,.abandon _ => .isTrue trivial

-- The first caller times out while its job runs; the job lands before the next write.
def landsFirst : List StoreEvent :=
  [.request "r" completing,.request "r" aborting,.acquire,.pickUp,.leave,.land 0 1,.acquire,.pickUp,
    .commit 2,.resume]

theorem lands_first_in_order : ∃ s, Run runStore orderly { db := oneRun } s ∧
    (s.commits.map fun commit => commit.1.ticket) = [0,1] ∧
    (s.commits.map fun commit => commit.1.ticket).Pairwise (· < ·) ∧ s.db = replay oneRun s.commits := by
  have played : ((runStore.under orderly).play { db := oneRun } landsFirst).any (fun s =>
      (s.commits.map fun commit => commit.1.ticket) == [0,1]) = true := by decide +kernel
  obtain ⟨s,run,shown⟩ := System.found_under played
  exact ⟨s,run,by simpa using shown,writes_in_lock_order run⟩

theorem abort_overwritten : ∃ s, Reachable runStore { db := oneRun } s ∧
    (s.commits.map fun commit => commit.1.ticket) = [1,0] ∧ (s.db "r").status = some .completed := by
  have played : (runStore.play { db := oneRun }
      [.request "r" completing,.request "r" aborting,.acquire,.pickUp,.leave,.acquire,.pickUp,.commit 2,
        .resume,.land 0 3]).any (fun s =>
      (s.commits.map fun commit => commit.1.ticket) == [1,0] &&
        (s.db "r").status == some .completed) = true := by decide +kernel
  obtain ⟨s,run,shown⟩ := System.found played
  simp only [Bool.and_eq_true,beq_iff_eq] at shown
  exact ⟨s,run,shown⟩

end HyprlandAgent
