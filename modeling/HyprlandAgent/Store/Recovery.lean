import HyprlandAgent.Store.TornRebuild

-- Which deaths during an open a later open recovers from.
namespace Migration
open Coroutine Sql
variable {f g orig : File} {name column table : String} {t : Table} {available : Bool}

structure Start where
  available : Bool
  now : Rat
  fuel : Nat

def Start.open (start : Start) (f : File) : File × Outcome Bool :=
  openStore start.available start.now start.fuel f

def afterStarts (f : File) : List Start → File
  | [] => f
  | start :: rest => afterStarts (start.open f).1 rest

-- A file as some version of the store leaves it, with no rebuild under way. Below
-- version 2 the legacy table has the legacy column and nothing else of its own.
structure Supported (f : File) : Prop extends Regular f where
  legacy : ∀ t, f.tables "runs" = some t → legacyCol ∈ t.columns → f.userVersion < 2 →
    ∀ column ∈ t.columns, column = legacyCol ∨ column ∈ runColumns
  spare : f.tables "runs_new" = none

structure Latest (f : File) : Prop where
  version : f.userVersion = latestSchemaVersion
  ground : ∀ fact ∈ ground, f.Has fact.1 fact.2
  migrated : ∀ entry ∈ migrations, f.Has entry.2.1 entry.2.2

-- Every open that runs to its end works, and leaves the rows readable.
def Recovers (orig f : File) : Prop :=
  ∀ start : Start, ∀ result, (start.open f).2 = .ended result →
    (∃ vecOk, result = .ok vecOk) ∧ Latest (start.open f).1 ∧ Readable orig (start.open f).1

-- No process dies where that does harm, each judged on the file it found.
def Spared (orig : File) : File → List Start → Prop
  | _,[] => True
  | f,start :: rest =>
    (∀ op, (start.open f).2 = .died op → ¬tears orig op) ∧ Spared orig (start.open f).1 rest

theorem supported_fine (supported : Supported orig) (first : LegacyRuns orig → orig.userVersion < 2) :
    Fine orig orig := by
  refine ⟨⟨supported.toRegular,?_⟩,?_⟩
  · intro t found legacy
    have early := first ⟨t,found,legacy⟩
    exact ⟨early,supported.legacy t found legacy early,supported.spare⟩
  · intro name t row found among
    exact ⟨t,row,found,among,fun column listed _ => ⟨listed,rfl⟩⟩

theorem open_fine (start : Start) (fine : Fine orig f) :
    match (start.open f).2 with
    | .died op => Crashed orig op (start.open f).1
    | .ended result => (∃ vecOk, result = .ok vecOk) ∧ Fine orig (start.open f).1 ∧ Latest (start.open f).1 := by
  have goes := initDb_goes start.available orig start.now f.userVersion ⟨f,none⟩
    ⟨fine,fine,rfl⟩
  have lived := holds_live goes start.fuel
  unfold Start.open openStore session
  dsimp only
  cases came : (live start.available start.fuel (initDb start.now) ⟨f,none⟩).2 with
  | died op =>
    rw [came] at lived
    exact lived
  | ended result =>
    rw [came] at lived
    cases result with
    | error e => exact lived.elim
    | ok vecOk =>
      obtain ⟨_,current,knows⟩ := lived
      refine ⟨⟨vecOk,rfl⟩,current,?_⟩
      have recent := fine.sound.recent
      have version : max f.userVersion 5 = latestSchemaVersion := Nat.max_eq_right recent
      refine ⟨knows.version.trans version,knows.facts,?_⟩
      intro entry among
      apply current.sound.versioned entry among
      have all : ∀ entry ∈ migrations, entry.1 ≤ 5 := by decide
      have late := all entry among
      rw [show (live start.available start.fuel (initDb start.now) ⟨f,none⟩).1.current.userVersion =
        max f.userVersion 5 from knows.version]
      omega

theorem spared_fine {starts : List Start} (fine : Fine orig f) (spared : Spared orig f starts) :
    Fine orig (afterStarts f starts) := by
  induction starts generalizing f with
  | nil => exact fine
  | cons start rest ih =>
    obtain ⟨harmless,others⟩ := spared
    refine ih ?_ others
    have opened := open_fine start fine
    cases came : (start.open f).2 with
    | died op =>
      rw [came] at opened
      exact opened.spared (harmless op came)
    | ended result =>
      rw [came] at opened
      exact opened.2.1

theorem fine_recovers (fine : Fine orig f) : Recovers orig f := by
  intro start result came
  have opened := open_fine start fine
  rw [came] at opened
  obtain ⟨works,after,latest⟩ := opened
  exact ⟨works,latest,after.readable⟩

theorem open_held {J A B : File → Prop} (start : Start)
    (triple : Triple (semantics start.available) (fun _ c => J c.durable) (Held J A) (initDb start.now)
      (ending (fun _ => Held J B) fun _ c => J c.durable))
    (implies : ∀ f, B f → J f) (durable : J f) (current : A f) :
    J (start.open f).1 ∧ ∀ vecOk, (start.open f).2 = .ended (.ok vecOk) → B (start.open f).1 := by
  have lived := holds_live (triple ⟨f,none⟩ ⟨durable,current⟩) start.fuel
  unfold Start.open openStore session
  dsimp only
  cases came : (live start.available start.fuel (initDb start.now) ⟨f,none⟩).2 with
  | died op =>
    rw [came] at lived
    exact ⟨lived,fun _ impossible => (by cases impossible)⟩
  | ended result =>
    rw [came] at lived
    cases result with
    | error e => exact ⟨lived,fun _ impossible => (by cases impossible)⟩
    | ok vecOk => exact ⟨implies _ lived.current,fun _ _ => lived.current⟩

theorem start_ends (f : File) : ∃ (start : Start) (result : _), (start.open f).2 = .ended result := by
  obtain ⟨fuel,result,ended⟩ := session_ends true (initDb 0) f
  exact ⟨⟨true,0,fuel⟩,result,ended⟩

theorem Recovers.opened (recovers : Recovers orig f) : ∃ start vecOk,
    (Start.open start f).2 = .ended (.ok vecOk) ∧ Latest (start.open f).1 ∧ Readable orig (start.open f).1 := by
  obtain ⟨start,result,ended⟩ := start_ends f
  obtain ⟨⟨vecOk,rfl⟩,rest⟩ := recovers start result ended
  exact ⟨start,vecOk,ended,rest⟩

theorem broken_open (start : Start) (broken : Broken orig f) :
    Broken orig (start.open f).1 ∧ ∀ vecOk, (start.open f).2 = .ended (.ok vecOk) →
      HasRuns orig ∧ Emptied (start.open f).1 := by
  rcases broken with jammed | ⟨runs,emptied⟩
  · have triple : Triple (semantics start.available) (fun _ c => Jammed c.durable) (Held Jammed Jammed)
        (initDb start.now) (ending (fun _ => Held Jammed fun _ => False) fun _ c => Jammed c.durable) :=
      (jammed_open start.available start.now).relax (fun _ _ impossible => impossible.elim)
        fun _ _ held => held
    obtain ⟨still,never⟩ := open_held start triple (fun _ impossible => impossible.elim) jammed jammed
    exact ⟨.inl still,fun vecOk ended => (never vecOk ended).elim⟩
  · obtain ⟨still,after⟩ :=
      open_held start (emptied_open start.now) (fun _ held => held) emptied emptied
    exact ⟨.inr ⟨runs,still⟩,fun vecOk ended => ⟨runs,after vecOk ended⟩⟩

theorem broken_unreadable (runs : HasRuns orig) (emptied : Emptied f) : ¬Readable orig f := by
  obtain ⟨t,row,found,among⟩ := runs
  intro readable
  obtain ⟨t',row',found',stored,_⟩ := readable _ t row found among
  rw [(emptied t' found').1] at stored
  cases stored

theorem broken_lost (broken : Broken orig f) : ¬Recovers orig f := by
  intro recovers
  obtain ⟨start,vecOk,ended,_,readable⟩ := recovers.opened
  obtain ⟨runs,emptied⟩ := (broken_open start broken).2 vecOk ended
  exact broken_unreadable runs emptied readable

theorem broken_starts (starts : List Start) (broken : Broken orig f) :
    Broken orig (afterStarts f starts) := by
  induction starts generalizing f with
  | nil => exact broken
  | cons start rest ih => exact ih (broken_open start broken).1

theorem recovers_spared {starts : List Start} (fine : Fine orig f)
    (recovers : Recovers orig (afterStarts f starts)) : Spared orig f starts := by
  induction starts generalizing f with
  | nil => trivial
  | cons start rest ih =>
    have opened := open_fine start fine
    cases came : (start.open f).2 with
    | died op =>
      rw [came] at opened
      have harmless : ¬tears orig op :=
        fun harm => broken_lost (broken_starts rest (opened.torn harm)) recovers
      refine ⟨?_,ih (opened.spared harmless) recovers⟩
      intro other same
      rw [came] at same
      cases same
      exact harmless
    | ended result =>
      rw [came] at opened
      refine ⟨?_,ih opened.2.1 recovers⟩
      intro op impossible
      rw [came] at impossible
      cases impossible

theorem narrow_start (start : Start) (narrow : Narrow f) :
    Narrow (start.open f).1 ∧ ∀ vecOk, (start.open f).2 = .ended (.ok vecOk) →
      Narrow (start.open f).1 ∧ Plain (start.open f).1 :=
  open_held start (narrow_open start.now) (fun _ both => both.1) narrow narrow

theorem narrow_lost (narrow : Narrow f) : ¬Recovers orig f := by
  intro recovers
  obtain ⟨start,vecOk,ended,latest,_⟩ := recovers.opened
  obtain ⟨after,plain⟩ := (narrow_start start narrow).2 vecOk ended
  obtain ⟨t,found,listed⟩ := latest.migrated (2,"runs",["iterations"]) (by decide)
  rcases after.runs t found with legacy | lacks
  · exact plain t found legacy
  · exact lacks (listed "iterations" List.mem_cons_self)

theorem narrow_starts (starts : List Start) (narrow : Narrow f) : Narrow (afterStarts f starts) := by
  induction starts generalizing f with
  | nil => exact narrow
  | cons start rest ih => exact ih (narrow_start start narrow).1

-- From any supported file, after any number of opens that died wherever: a later
-- open recovers if and only if the legacy table came before version 2 and no
-- process died where that does harm.
theorem recovers_iff (supported : Supported orig) (starts : List Start) :
    Recovers orig (afterStarts orig starts) ↔
      (LegacyRuns orig → orig.userVersion < 2) ∧ Spared orig orig starts := by
  constructor
  · intro recovers
    have first : LegacyRuns orig → orig.userVersion < 2 := by
      intro given
      obtain ⟨t,found,legacy⟩ := given
      by_contra late
      have narrow : Narrow orig := by
        refine ⟨by omega,?_⟩
        intro t' found'
        rw [found] at found'
        cases found'
        exact .inl legacy
      exact narrow_lost (narrow_starts starts narrow) recovers
    exact ⟨first,recovers_spared (supported_fine supported first) recovers⟩
  · intro given
    obtain ⟨first,spared⟩ := given
    exact fine_recovers (spared_fine (supported_fine supported first) spared)

def old : File :=
  { tables := fun name =>
      if name = "runs" then some
        ⟨["run_id","task","brain",legacyCol,"status","started_at","ended_at","error_text"],
          [fun column => if column = "ended_at" ∨ column = "error_text" then .null else .text column]⟩
      else if name = "run_events" then some
        ⟨["run_id","seq","ts","kind","payload_json"],[fun column => .text column]⟩
      else none }

theorem old_tables (found : old.tables name = some t) :
    (name = "runs" ∧ t.columns = ["run_id","task","brain",legacyCol,"status","started_at","ended_at",
      "error_text"]) ∨ (name = "run_events" ∧ t.columns = ["run_id","seq","ts","kind","payload_json"]) := by
  simp only [old] at found
  split at found
  · cases found
    exact .inl ⟨by assumption,rfl⟩
  · split at found
    · cases found
      exact .inr ⟨by assumption,rfl⟩
    · cases found

theorem old_supported : Supported old := by
  refine ⟨⟨?_,?_,by decide,?_,?_⟩,?_,rfl⟩
  · intro name t found
    rcases old_tables found with ⟨rfl,columns⟩ | ⟨rfl,columns⟩
    · rw [columns]
      decide
    · rw [columns]
      decide
  · intro entry among reached
    have late := early_unversioned entry among
    have first : old.userVersion = 0 := rfl
    omega
  · intro t found kind
    rcases old_tables found with ⟨_,columns⟩ | ⟨impossible,_⟩
    · rw [columns] at kind
      exact absurd kind (by decide)
    · exact absurd impossible (by decide)
  · intro t found
    rcases old_tables found with ⟨impossible,_⟩ | ⟨impossible,_⟩
    · exact absurd impossible (by decide)
    · exact absurd impossible (by decide)
  · intro t found _ _
    rcases old_tables found with ⟨_,columns⟩ | ⟨impossible,_⟩
    · rw [columns]
      decide
    · exact absurd impossible (by decide)

def deathOf : Outcome Bool → Option Op
  | .died op => some op
  | .ended _ => none

theorem old_recovers : Recovers old (afterStarts old [⟨true,0,9⟩]) := by
  refine (recovers_iff old_supported _).mpr ⟨fun _ => by decide,?_,trivial⟩
  have died : deathOf (Start.open ⟨true,0,9⟩ old).2 =
      some (.script (.createTable "runs_new" runColumns)) := by decide +kernel
  intro op came
  rw [came] at died
  cases died
  exact id

theorem rebuild_torn : Supported old ∧ ¬Recovers old (afterStarts old [⟨true,0,10⟩]) ∧
    ¬Recovers old (afterStarts old [⟨true,0,12⟩]) := by
  have jammed : ((afterStarts old [⟨true,0,10⟩]).tables "runs").any
      (fun t => t.columns.contains legacyCol) = true ∧
      ((afterStarts old [⟨true,0,10⟩]).tables "runs_new").isSome = true := by decide +kernel
  have emptied : ((afterStarts old [⟨true,0,12⟩]).tables "runs").isNone = true := by decide +kernel
  refine ⟨old_supported,broken_lost (.inl ⟨?_,?_⟩),broken_lost (.inr ⟨?_,?_⟩)⟩
  · obtain ⟨t,found,legacy⟩ := (Option.any_eq_true _ _).mp jammed.1
    exact ⟨t,found,by simpa using legacy⟩
  · exact Option.isSome_iff_ne_none.mp jammed.2
  · exact ⟨_,_,rfl,List.mem_cons_self⟩
  · intro t found
    rw [found] at emptied
    cases emptied

end Migration
