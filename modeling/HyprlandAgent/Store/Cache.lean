import HyprlandAgent.Store.WriteOrder

-- What the cache of the store holds when nothing is in flight.
namespace HyprlandAgent
open Transition RunStore
variable {s next : RunStore} {db : Database}

-- The caller of a write that changes records stays until its job is done with, and
-- no `get_run` answers after such a caller has dropped the entry it read before.
def undisturbed (s : RunStore) : StoreEvent → Prop
  | .leave => ∀ pending, s.holder = some (pending,.committed) → pending.write.invalidates = false
  | .land index _ => ∀ pending, s.orphans[index]? = some pending → pending.write.invalidates = false
  | .answer index => ∀ reader, s.readers[index]? = some reader → reader.overtaken = false
  | _ => True

def Dropping (s : RunStore) (run : RunId) : Prop :=
  ∃ pending, s.holder = some (pending,.committed) ∧ pending.run = run ∧ pending.write.invalidates = true

def Current (db : Database) (reader : Reader) : Prop :=
  match reader.reading with
  | .started | .missing => True
  | .row row => (db reader.run).run.map RunRow.toRunSummary = some row
  | .whole record => (db reader.run).record = some record

structure Fresh (s : RunStore) : Prop where
  cached : ∀ entry ∈ s.lru, (s.db entry.1).record = some entry.2 ∨ Dropping s entry.1
  read : ∀ reader ∈ s.readers, reader.behind = true ∨ Current s.db reader
  behind : ∀ reader ∈ s.readers, reader.behind = true → reader.overtaken = true ∨ Dropping s reader.run

theorem apply_record {now : Seconds} {rows after : Rows} {write : StoreWrite}
    (quiet : write.invalidates = false) (applied : write.apply now rows = some after) :
    after.events = rows.events ∧ (rows.run.isSome → after.run = rows.run) := by
  cases write with
  | updateRunStatus status endedAt error => cases quiet
  | appendEvent event => cases quiet
  | updateRunMetrics iterations actionCount durationS => cases quiet
  | insertRun run =>
    simp only [StoreWrite.apply] at applied
    split at applied
    · cases applied
    · rename_i absent
      cases applied
      exact ⟨rfl,fun present => absurd present absent⟩
  | upsertRunOutcome outcome score source rationale =>
    cases applied
    exact ⟨rfl,fun _ => rfl⟩
  | insertFeedback kind comment =>
    cases applied
    exact ⟨rfl,fun _ => rfl⟩

theorem record_kept {rows after : Rows} {record : RunRecord} (events : after.events = rows.events)
    (run : rows.run.isSome → after.run = rows.run) (holds : rows.record = some record) :
    after.record = some record := by
  obtain ⟨row,stored,built⟩ := Option.map_eq_some_iff.mp holds
  have same := run (by simp [stored])
  unfold Rows.record
  rw [same,events]
  exact holds

theorem record_committed {pending : Pending} {rows : Rows} {now : Seconds}
    (applied : pending.write.apply now (db pending.run) = some rows)
    (aside : run ≠ pending.run ∨ pending.write.invalidates = false)
    (holds : (db run).record = some record) :
    (Function.update db pending.run rows run).record = some record := by
  by_cases same : run = pending.run
  · subst same
    obtain ⟨events,kept⟩ := apply_record (aside.resolve_left fun other => other rfl) applied
    rw [Function.update_self]
    exact record_kept events kept holds
  · rw [Function.update_of_ne same]
    exact holds

theorem current_committed {pending : Pending} {rows : Rows} {now : Seconds} {reader : Reader}
    (applied : pending.write.apply now (db pending.run) = some rows)
    (aside : reader.run ≠ pending.run ∨ pending.write.invalidates = false)
    (current : Current db reader) : Current (Function.update db pending.run rows) reader := by
  unfold Current at current ⊢
  cases reading : reader.reading with
  | started => trivial
  | missing => trivial
  | row row =>
    simp only [reading] at current ⊢
    by_cases same : reader.run = pending.run
    · obtain ⟨_,kept⟩ := apply_record (aside.resolve_left fun other => other same) applied
      rw [same] at current ⊢
      have present : (db pending.run).run.isSome := by
        obtain ⟨stored,found,_⟩ := Option.map_eq_some_iff.mp current
        simp [found]
      rw [Function.update_self,kept present]
      exact current
    · rw [Function.update_of_ne same]
      exact current
  | whole record =>
    simp only [reading] at current ⊢
    exact record_committed applied aside current

theorem lag_parts (pending : Pending) (reader : Reader) :
    (reader.lag pending).run = reader.run ∧ (reader.lag pending).reading = reader.reading ∧
      (reader.lag pending).overtaken = reader.overtaken ∧
      ((reader.lag pending).behind = false → reader.behind = false ∧
        (reader.run ≠ pending.run ∨ pending.write.invalidates = false ∨ reader.reading = .started)) ∧
      ((reader.lag pending).behind = true → reader.behind = true ∨
        reader.run = pending.run ∧ pending.write.invalidates = true) := by
  unfold Reader.lag
  split
  · rename_i started
    exact ⟨rfl,rfl,rfl,fun late => ⟨late,.inr (.inr started)⟩,.inl⟩
  · split
    · rename_i concerned
      exact ⟨rfl,rfl,rfl,fun impossible => (by cases impossible),fun _ => .inr concerned⟩
    · rename_i unconcerned
      refine ⟨rfl,rfl,rfl,?_,.inl⟩
      intro late
      refine ⟨late,?_⟩
      by_cases same : reader.run = pending.run
      · refine .inr (.inl ?_)
        cases invalidates : pending.write.invalidates with
        | false => rfl
        | true => exact absurd ⟨same,invalidates⟩ unconcerned
      · exact .inl same

theorem overtake_parts (pending : Pending) (reader : Reader) :
    (reader.overtake pending).run = reader.run ∧ (reader.overtake pending).reading = reader.reading ∧
      (reader.overtake pending).behind = reader.behind ∧
      (reader.overtaken = true → (reader.overtake pending).overtaken = true) ∧
      (reader.run = pending.run → pending.write.invalidates = true → reader.behind = true →
        (reader.overtake pending).overtaken = true) := by
  unfold Reader.overtake
  split
  · exact ⟨rfl,rfl,rfl,fun _ => rfl,fun _ _ _ => rfl⟩
  · rename_i unconcerned
    exact ⟨rfl,rfl,rfl,id,fun same invalidates late => absurd ⟨same,invalidates,late⟩ unconcerned⟩

theorem Current.same {reader other : Reader} (current : Current db reader)
    (run : other.run = reader.run) (reading : other.reading = reader.reading) : Current db other := by
  unfold Current at current ⊢
  rw [reading,run]
  exact current

theorem mem_moveToEnd {lru : Lru} {entry : RunId × RunRecord} (among : entry ∈ lru.moveToEnd run) :
    entry ∈ lru ∨ lru.get run = some entry.2 ∧ entry.1 = run := by
  unfold Lru.moveToEnd at among
  split at among
  · rename_i record found
    rcases List.mem_append.mp among with kept | moved
    · exact .inl (List.mem_of_mem_filter kept)
    · obtain rfl : entry = (run,record) := by simpa using moved
      exact .inr ⟨found,rfl⟩
  · exact .inl among

theorem get_mem {lru : Lru} {record : RunRecord} (found : lru.get run = some record) :
    (run,record) ∈ lru := by
  unfold Lru.get at found
  induction lru with
  | nil => cases found
  | cons entry rest ih =>
    obtain ⟨key,stored⟩ := entry
    rw [List.lookup_cons] at found
    split at found
    · rename_i same
      cases found
      obtain rfl : run = key := by simpa using same
      exact List.mem_cons_self
    · exact List.mem_cons_of_mem _ (ih found)

theorem mem_fill {lru : Lru} {record : RunRecord} {entry : RunId × RunRecord}
    (among : entry ∈ lru.fill run record) : entry ∈ lru ∨ entry = (run,record) := by
  have inSet : entry ∈ lru.set run record := by
    unfold Lru.fill at among
    split at among
    · exact List.mem_of_mem_tail among
    · exact among
  unfold Lru.set at inSet
  split at inSet
  · obtain ⟨old,stored,replaced⟩ := List.mem_map.mp inSet
    split at replaced
    · exact .inr replaced.symm
    · exact .inl (replaced ▸ stored)
  · rcases List.mem_append.mp inSet with kept | added
    · exact .inl kept
    · exact .inr (by simpa using added)

theorem undropped (held : s.holder = some (pending,job)) (other : job ≠ .committed)
    (run : RunId) : ¬Dropping s run := by
  intro given
  obtain ⟨_,same,_⟩ := given
  rw [held] at same
  cases same
  exact other rfl

theorem Fresh.moved (fresh : Fresh s) (calm : ∀ run, ¬Dropping s run) (db : next.db = s.db)
    (lru : ∀ entry ∈ next.lru, entry ∈ s.lru) (readers : next.readers = s.readers) : Fresh next := by
  refine ⟨?_,?_,?_⟩
  · intro entry among
    rw [db]
    exact .inl ((fresh.cached entry (lru entry among)).resolve_right (calm _))
  · rw [readers,db]
    exact fresh.read
  · rw [readers]
    intro reader among late
    exact .inl ((fresh.behind reader among late).resolve_right (calm _))

theorem Fresh.committed {pending : Pending} {rows : Rows} {now : Seconds} (fresh : Fresh s)
    (applied : pending.write.apply now (s.db pending.run) = some rows)
    (db : next.db = Function.update s.db pending.run rows) (lru : next.lru = s.lru)
    (readers : next.readers = s.readers.map (Reader.lag pending))
    (still : ∀ run, Dropping s run → Dropping next run)
    (drops : pending.write.invalidates = true → Dropping next pending.run) : Fresh next := by
  have concerned : ∀ run, (run ≠ pending.run ∨ pending.write.invalidates = false) ∨ Dropping next run := by
    intro run
    cases invalidates : pending.write.invalidates with
    | false => exact .inl (.inr rfl)
    | true =>
      by_cases same : run = pending.run
      · subst same
        exact .inr (drops invalidates)
      · exact .inl (.inl same)
  refine ⟨?_,?_,?_⟩
  · intro entry among
    rw [lru] at among
    rw [db]
    rcases fresh.cached entry among with holds | dropping
    · exact (concerned entry.1).imp (fun aside => record_committed applied aside holds) id
    · exact .inr (still _ dropping)
  · rw [readers,db]
    intro lagged among
    obtain ⟨reader,before,rfl⟩ := List.mem_map.mp among
    obtain ⟨run,reading,_,unlagged,_⟩ := lag_parts pending reader
    cases late : (reader.lag pending).behind with
    | true => exact .inl rfl
    | false =>
      obtain ⟨early,aside⟩ := unlagged late
      have current := (fresh.read reader before).resolve_left (by simp [early])
      refine .inr (Current.same ?_ run reading)
      rcases or_assoc.mpr aside with aside | started
      · exact current_committed applied aside current
      · simp [Current,started]
  · rw [readers]
    intro lagged among late
    obtain ⟨reader,before,rfl⟩ := List.mem_map.mp among
    obtain ⟨run,_,overtaken,_,lagging⟩ := lag_parts pending reader
    rw [run,overtaken]
    rcases lagging late with already | ⟨same,invalidates⟩
    · exact (fresh.behind reader before already).imp id (still _)
    · rw [same]
      exact .inr (drops invalidates)

theorem Fresh.reading {reader : Reader} {reading : Reading} (fresh : Fresh s) (found : s.readers[index]? = some reader)
    (current : Current s.db reader → Current s.db { reader with reading := reading }) :
    Fresh (s.setReading index reader reading) := by
  have before : reader ∈ s.readers := List.mem_of_getElem? found
  refine ⟨fresh.cached,?_,?_⟩
  · intro other among
    rcases List.mem_or_eq_of_mem_set among with kept | rfl
    · exact fresh.read other kept
    · exact (fresh.read reader before).imp id current
  · intro other among late
    rcases List.mem_or_eq_of_mem_set among with kept | rfl
    · exact fresh.behind other kept late
    · exact fresh.behind reader before late

theorem Fresh.shrunk (fresh : Fresh s) (db : next.db = s.db) (holder : next.holder = s.holder)
    (readers : ∀ reader ∈ next.readers, reader ∈ s.readers)
    (lru : ∀ entry ∈ next.lru, entry ∈ s.lru ∨
      ((s.db entry.1).record = some entry.2 ∨ Dropping s entry.1)) : Fresh next := by
  have still : ∀ run, Dropping s run → Dropping next run := by
    intro run given
    obtain ⟨pending,held,rest⟩ := given
    exact ⟨pending,holder.trans held,rest⟩
  refine ⟨?_,?_,?_⟩
  · intro entry among
    rw [db]
    have entered := (lru entry among).elim (fresh.cached entry) id
    exact entered.imp id (still _)
  · intro reader among
    rw [db]
    exact fresh.read reader (readers reader among)
  · intro reader among late
    exact (fresh.behind reader (readers reader among) late).imp id (still _)

theorem Fresh.finished {pending : Pending} (fresh : Fresh s)
    (held : s.holder = some (pending,.committed)) : Fresh (s.finish pending) := by
  have only : ∀ run, Dropping s run → pending.run = run ∧ pending.write.invalidates = true := by
    intro run given
    obtain ⟨other,same,concerns⟩ := given
    rw [held] at same
    cases same
    exact concerns
  refine ⟨?_,?_,?_⟩
  · intro entry among
    simp only [finish] at among ⊢
    split at among
    · obtain ⟨kept,aside⟩ := List.mem_filter.mp among
      refine .inl ((fresh.cached entry kept).resolve_right ?_)
      intro dropping
      obtain ⟨same,_⟩ := only _ dropping
      simp [same] at aside
    · rename_i keeps
      refine .inl ((fresh.cached entry among).resolve_right ?_)
      intro dropping
      exact keeps (only _ dropping).2
  · intro moved among
    obtain ⟨reader,before,rfl⟩ := List.mem_map.mp among
    obtain ⟨run,reading,behind,_⟩ := overtake_parts pending reader
    rw [behind]
    exact (fresh.read reader before).imp id fun current => current.same run reading
  · intro moved among late
    obtain ⟨reader,before,rfl⟩ := List.mem_map.mp among
    obtain ⟨_,_,behind,keeps,overtaken⟩ := overtake_parts pending reader
    rw [behind] at late
    rcases fresh.behind reader before late with already | dropping
    · exact .inl (keeps already)
    · obtain ⟨same,invalidates⟩ := only _ dropping
      exact .inl (overtaken same.symm invalidates late)

theorem fresh_step (stepped : RunStore.Step s event next) (met : undisturbed s event)
    (fresh : Fresh s) : Fresh next := by
  have stay : ∀ entry ∈ s.lru, entry ∈ s.lru := fun _ among => among
  cases stepped with
  | unneeded => exact fresh
  | request => exact ⟨fresh.cached,fresh.read,fresh.behind⟩
  | withdraw => exact ⟨fresh.cached,fresh.read,fresh.behind⟩
  | acquire free =>
    refine fresh.moved ?_ rfl stay rfl
    intro run given
    obtain ⟨_,same,_⟩ := given
    rw [free] at same
    cases same
  | pickUp held => exact fresh.moved (undropped held (by simp)) rfl stay rfl
  | fail held => exact fresh.moved (undropped held (by simp)) rfl stay rfl
  | raised held => exact fresh.moved (undropped held (by simp)) rfl stay rfl
  | abandoned held => exact fresh.moved (undropped held (by simp)) rfl stay rfl
  | @leave pending job held settled =>
    refine fresh.moved ?_ rfl stay rfl
    intro run given
    obtain ⟨other,same,_,invalidates⟩ := given
    have quiet : other.write.invalidates = false := met other same
    rw [quiet] at invalidates
    cases invalidates
  | @commit pending now rows held applied =>
    refine fresh.committed applied rfl rfl rfl ?_ fun invalidates => ⟨pending,rfl,rfl,invalidates⟩
    intro run dropping
    exact absurd dropping (undropped held (by simp) run)
  | @land index pending now rows found applied =>
    have quiet : pending.write.invalidates = false := met pending found
    refine fresh.committed applied rfl rfl rfl (fun _ dropping => dropping) ?_
    intro invalidates
    rw [quiet] at invalidates
    cases invalidates
  | lose => exact ⟨fresh.cached,fresh.read,fresh.behind⟩
  | resume held => exact fresh.finished held
  | hit found =>
    refine fresh.shrunk rfl rfl (fun _ among => among) ?_
    intro entry among
    rcases mem_moveToEnd among with kept | ⟨cached,same⟩
    · exact .inl kept
    · subst same
      exact .inl (get_mem cached)
  | miss absent =>
    refine ⟨fresh.cached,?_,?_⟩
    · intro reader among
      rcases List.mem_append.mp among with before | added
      · exact fresh.read reader before
      · obtain rfl : reader = _ := List.mem_singleton.mp added
        exact .inr trivial
    · intro reader among late
      rcases List.mem_append.mp among with before | added
      · exact fresh.behind reader before late
      · obtain rfl : reader = _ := List.mem_singleton.mp added
        cases late
  | missing found started => exact fresh.reading found fun _ => trivial
  | readRow found started row =>
    refine fresh.reading found fun _ => ?_
    simp [Current,row]
  | @readEvents index reader row found at_row =>
    refine fresh.reading found fun current => ?_
    simp only [Current,at_row] at current ⊢
    obtain ⟨stored,holds,summary⟩ := Option.map_eq_some_iff.mp current
    simp [Rows.record,holds,← summary]
  | nothing found =>
    exact fresh.shrunk rfl rfl (fun _ among => List.mem_of_mem_eraseIdx among) fun _ among => .inl among
  | @answer index reader record found whole =>
    have unspoiled : reader.overtaken = false := met reader found
    have before : reader ∈ s.readers := List.mem_of_getElem? found
    refine fresh.shrunk rfl rfl (fun _ among => List.mem_of_mem_eraseIdx among) ?_
    intro entry among
    rcases mem_fill among with kept | rfl
    · exact .inl kept
    · refine .inr ?_
      rcases fresh.read reader before with late | current
      · refine .inr ((fresh.behind reader before late).resolve_left ?_)
        simp [unspoiled]
      · simp only [Current,whole] at current
        exact .inl current
  | abandon =>
    exact fresh.shrunk rfl rfl (fun _ among => List.mem_of_mem_eraseIdx among) fun _ among => .inl among

theorem store_fresh (run : Run runStore undisturbed { db := db } s) : Fresh s := by
  apply run.invariant
  · exact ⟨fun _ among => (by cases among),fun _ among => (by cases among),fun _ among => by cases among⟩
  · intro s event next fresh met stepped
    exact fresh_step (step_cases stepped) met fresh

-- When nothing is in flight, the cache holds what the database says, and a call of
-- `get_run` that it answers returns just that.
theorem cache_current (run : Run runStore undisturbed { db := db } s) (quiet : s.Quiet) :
    (∀ entry ∈ s.lru, (s.db entry.1).record = some entry.2) ∧
      ∀ name record next, s.lru.get name = some record → runStore.step s (.getRun name) = some next →
        next.returned = s.returned ++ [(name,(s.db name).record)] := by
  have fresh := store_fresh run
  have held : ∀ entry ∈ s.lru, (s.db entry.1).record = some entry.2 := by
    intro entry among
    refine (fresh.cached entry among).resolve_right ?_
    intro given
    obtain ⟨_,same,_⟩ := given
    rw [quiet.holder] at same
    cases same
  refine ⟨held,?_⟩
  intro name record next found stepped
  have current : (s.db name).record = some record := held _ (get_mem found)
  simp only [runStore,RunStore.step,found] at stepped
  cases stepped
  rw [current]

instance : ∀ s event, Decidable (undisturbed s event)
  | s,.leave => decidable_of_iff
      (∀ held ∈ s.holder, held.2 = .committed → held.1.write.invalidates = false)
      ⟨fun all _ held => all _ held rfl,fun all held here committed =>
        all held.1 (here.trans (congrArg some (Prod.ext rfl committed)))⟩
  | s,.land index _ =>
    inferInstanceAs (Decidable (∀ pending ∈ s.orphans[index]?, pending.write.invalidates = false))
  | s,.answer index =>
    inferInstanceAs (Decidable (∀ reader ∈ s.readers[index]?, reader.overtaken = false))
  | _,.request _ _ | _,.withdraw _ | _,.acquire | _,.pickUp | _,.commit _ | _,.fail | _,.resume
  | _,.lose _ | _,.getRun _ | _,.readRow _ | _,.readEvents _ | _,.abandon _ => .isTrue trivial

def statusRead (between : List StoreEvent) : List StoreEvent :=
  [.request "r" completing,.acquire,.pickUp,.getRun "r",.readRow 0,.readEvents 0,.commit 1] ++ between

theorem dropped_entry_current : ∃ s, Run runStore undisturbed { db := oneRun } s ∧ s.Quiet ∧
    s.commits.length = 1 ∧ ∀ entry ∈ s.lru, (s.db entry.1).record = some entry.2 := by
  have played : ((runStore.under undisturbed).play { db := oneRun }
      (statusRead [.answer 0,.resume,.getRun "r",.readRow 0,.readEvents 0,.answer 0])).any (fun s =>
        s.waiting.isEmpty && s.holder.isNone && s.orphans.isEmpty && s.readers.isEmpty &&
          s.commits.length == 1) = true := by decide +kernel
  obtain ⟨s,run,shown⟩ := System.found_under played
  simp only [Bool.and_eq_true,List.isEmpty_iff,Option.isNone_iff_eq_none,beq_iff_eq] at shown
  obtain ⟨⟨⟨⟨waiting,holder⟩,orphans⟩,readers⟩,commits⟩ := shown
  have quiet : s.Quiet := ⟨waiting,holder,orphans,readers⟩
  exact ⟨s,run,quiet,commits,(cache_current run quiet).1⟩

theorem stale_entry_kept : ∃ s, Reachable runStore { db := oneRun } s ∧ s.Quiet ∧
    (s.db "r").status = some .completed ∧ (s.lru.get "r").map (fun record => record.status) = some .running := by
  have played : (runStore.play { db := oneRun } (statusRead [.resume,.answer 0])).any (fun s =>
        s.waiting.isEmpty && s.holder.isNone && s.orphans.isEmpty && s.readers.isEmpty &&
          ((s.db "r").status == some .completed &&
            (s.lru.get "r").map (fun record => record.status) == some .running)) = true := by
    decide +kernel
  obtain ⟨s,run,shown⟩ := System.found played
  simp only [Bool.and_eq_true,List.isEmpty_iff,Option.isNone_iff_eq_none,beq_iff_eq] at shown
  obtain ⟨⟨⟨⟨waiting,holder⟩,orphans⟩,readers⟩,status,cached⟩ := shown
  exact ⟨s,run,⟨waiting,holder,orphans,readers⟩,status,cached⟩

end HyprlandAgent
