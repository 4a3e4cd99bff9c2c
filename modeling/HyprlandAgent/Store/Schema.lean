import HyprlandAgent.Store.Migration

-- What a file of the store holds at each schema version, and what of it a later
-- open relies on and keeps.
namespace Migration
open Sql
variable {f g orig : File} {name column : String} {t : Table}

def created (statements : List Statement) : List (String × List String) :=
  statements.filterMap fun
    | .createTableIfAbsent name columns => some (name,columns)
    | _ => none

def everyScript : List Statement := schema ++ v2Script ++ v3Script ++ v4Script

-- The columns a table has had ever since it exists; two of `runs` came later.
def shapeOf (name : String) : List String :=
  if name = "runs" then ["run_id","task","brain","status","started_at","ended_at"]
  else ((created everyScript).lookup name).getD []

def tagged (version : Nat) (tables : List (String × List String)) : List (Nat × String × List String) :=
  tables.map fun table => (version,table)

def lacking (table : String) (columns : List String) : List (String × List String) :=
  columns.map fun column => (table,[column])

def decayed : List (String × List String) :=
  ["episodes","reflections","skills"].flatMap fun table => lacking table ["decay_score","last_accessed_at"]

def migrations : List (Nat × String × List String) :=
  tagged 2 (lacking "runs" ["iterations","action_count","duration_s"] ++ created v2Script) ++
    tagged 3 (created v3Script) ++ tagged 4 (created v4Script) ++ tagged 5 decayed

def proposalKey : List String := ["app_class","title_pat"]

def LegacyRuns (f : File) : Prop := ∃ t, f.tables "runs" = some t ∧ legacyCol ∈ t.columns

def Plain (f : File) : Prop := ∀ t, f.tables "runs" = some t → legacyCol ∉ t.columns

-- What every file has in common that some version of the store has left.
structure Regular (f : File) : Prop where
  shaped : ∀ name t, f.tables name = some t → ∀ column ∈ shapeOf name, column ∈ t.columns
  versioned : ∀ entry ∈ migrations, entry.1 ≤ f.userVersion → f.Has entry.2.1 entry.2.2
  recent : f.userVersion ≤ latestSchemaVersion
  kinds : ∀ t, f.tables "runs" = some t → "kind" ∈ t.columns → ∀ row ∈ t.rows, row "kind" ≠ .null
  distinct : ∀ t, f.tables "allowlist_proposals" = some t → t.Distinct proposalKey

-- The legacy table can be rebuilt, and the later columns come after that.
structure Sound (f : File) : Prop extends Regular f where
  legacy : ∀ t, f.tables "runs" = some t → legacyCol ∈ t.columns →
    f.userVersion < 2 ∧ (∀ column ∈ t.columns, column = legacyCol ∨ column ∈ runColumns) ∧
      f.tables "runs_new" = none

def Readable (orig f : File) : Prop :=
  ∀ name t row, orig.tables name = some t → row ∈ t.rows →
    ∃ t' row', f.tables name = some t' ∧ row' ∈ t'.rows ∧
      ∀ column ∈ t.columns, column ≠ legacyCol → column ∈ t'.columns ∧ row' column = row column

def Unused (orig : File) (name column : String) : Prop :=
  ∀ t row, orig.tables name = some t → row ∈ t.rows → column ∉ t.columns

structure Fine (orig f : File) : Prop where
  sound : Sound f
  readable : Readable orig f

-- What a statement does to a sound file, apart from what it adds.
structure Progress (orig f g : File) : Prop where
  fine : Fine orig g
  wider : ∀ name columns, f.Has name columns → g.Has name columns
  plain : Plain f → Plain g
  version : g.userVersion = f.userVersion

theorem Fine.unused (fine : Fine orig f) (found : f.tables name = some t) (lacks : column ∉ t.columns)
    (other : column ≠ legacyCol) : Unused orig name column := by
  intro t₀ row there among known
  obtain ⟨t',row',found',_,values⟩ := fine.readable name t₀ row there among
  rw [found] at found'
  cases found'
  exact lacks (values column known other).1

theorem Progress.same (fine : Fine orig f) (tables : g.tables = f.tables)
    (version : g.userVersion = f.userVersion) : Progress orig f g := by
  obtain ⟨⟨⟨shaped,versioned,recent,kinds,distinct⟩,legacy⟩,readable⟩ := fine
  have has : ∀ name columns, f.Has name columns → g.Has name columns := by
    intro name columns held
    unfold File.Has
    rw [tables]
    exact held
  refine ⟨⟨⟨⟨?_,?_,?_,?_,?_⟩,?_⟩,?_⟩,has,?_,version⟩
  · rw [tables]
    exact shaped
  · rw [version]
    exact fun entry among old => has _ _ (versioned entry among old)
  · rw [version]
    exact recent
  · rw [tables]
    exact kinds
  · rw [tables]
    exact distinct
  · rw [tables,version]
    exact legacy
  · unfold Readable
    rw [tables]
    exact readable
  · unfold Plain
    rw [tables]
    exact id

theorem Progress.created {columns : List String} (fine : Fine orig f) (absent : f.tables name = none)
    (shape : ∀ column ∈ shapeOf name, column ∈ columns) (plain : legacyCol ∉ columns)
    (other : name ≠ "runs_new") : Progress orig f (f.setTable name (some ⟨columns,[]⟩)) := by
  obtain ⟨⟨⟨shaped,versioned,recent,kinds,distinct⟩,legacy⟩,readable⟩ := fine
  have kept : ∀ old t, f.tables old = some t →
      (f.setTable name (some ⟨columns,[]⟩)).tables old = some t := by
    intro old t found
    rw [setTable_other]
    · exact found
    · intro same
      subst same
      rw [absent] at found
      cases found
  -- A table of the new file is the new one or one of the old.
  have either : ∀ old t, (f.setTable name (some ⟨columns,[]⟩)).tables old = some t →
      (old = name ∧ t = ⟨columns,[]⟩) ∨ f.tables old = some t := by
    intro old t found
    by_cases same : old = name
    · subst same
      rw [setTable_same] at found
      exact .inl ⟨rfl,(Option.some.inj found).symm⟩
    · rw [setTable_other same] at found
      exact .inr found
  have has : ∀ old columns', f.Has old columns' →
      (f.setTable name (some ⟨columns,[]⟩)).Has old columns' := by
    intro old columns' given
    obtain ⟨t,found,all⟩ := given
    exact ⟨t,kept old t found,all⟩
  refine ⟨⟨⟨⟨?_,?_,recent,?_,?_⟩,?_⟩,?_⟩,has,?_,rfl⟩
  · intro old t found
    rcases either old t found with ⟨rfl,rfl⟩ | before
    · exact shape
    · exact shaped old t before
  · exact fun entry among old => has _ _ (versioned entry among old)
  · intro t found
    rcases either _ t found with ⟨_,rfl⟩ | before
    · intro _ row among
      cases among
    · exact kinds t before
  · intro t found
    rcases either _ t found with ⟨_,rfl⟩ | before
    · exact .nil
    · exact distinct t before
  · intro t found known
    rcases either _ t found with ⟨_,rfl⟩ | before
    · exact absurd known plain
    · obtain ⟨early,columns,spare⟩ := legacy t before known
      refine ⟨early,columns,?_⟩
      rw [setTable_other other.symm]
      exact spare
  · intro old t row there among
    obtain ⟨t',row',found,rest⟩ := readable old t row there among
    exact ⟨t',row',kept old t' found,rest⟩
  · intro before t found
    rcases either _ t found with ⟨_,rfl⟩ | earlier
    · exact plain
    · exact before t earlier

theorem rewrite_distinct {columns : List String} {value : Row → Value} (distinct : t.Distinct columns)
    (aside : column ∉ columns) : (t.rewrite column value).Distinct columns := by
  unfold Table.Distinct Table.rewrite at *
  rw [List.map_map]
  have keys : ((fun row : Row => columns.map row) ∘ fun row => Function.update row column (value row)) =
      fun row => columns.map row := by
    funext row
    apply List.map_congr_left
    intro other among
    refine Function.update_of_ne ?_ _ _
    intro same
    subst same
    exact aside among
  rw [keys]
  exact distinct

theorem Progress.rewritten {value : Row → Value} (fine : Fine orig f) (found : f.tables name = some t)
    (unused : Unused orig name column) (fresh : column ≠ legacyCol) (aside : column ∉ proposalKey)
    (kind : name = "runs" → column = "kind" → ∀ row, value row ≠ .null)
    (known : name = "runs" → legacyCol ∈ t.columns → column ∈ runColumns) :
    Progress orig f (f.setTable name (some (t.rewrite column value))) := by
  obtain ⟨⟨⟨shaped,versioned,recent,kinds,distinct⟩,legacy⟩,readable⟩ := fine
  -- A table of the new file is the rewritten one or one of the old.
  have either : ∀ old t', (f.setTable name (some (t.rewrite column value))).tables old = some t' →
      (old = name ∧ t' = t.rewrite column value) ∨ f.tables old = some t' := by
    intro old t' there
    by_cases same : old = name
    · subst same
      rw [setTable_same] at there
      exact .inl ⟨rfl,(Option.some.inj there).symm⟩
    · rw [setTable_other same] at there
      exact .inr there
  have has : ∀ old columns, f.Has old columns →
      (f.setTable name (some (t.rewrite column value))).Has old columns := by
    intro old columns given
    obtain ⟨t',there,all⟩ := given
    by_cases same : old = name
    · subst same
      rw [found] at there
      cases there
      exact ⟨_,setTable_same _ _,fun other among => (mem_rewrite other).mpr (.inl (all other among))⟩
    · exact ⟨t',(setTable_other same _).trans there,all⟩
  have old : legacyCol ∈ (t.rewrite column value).columns → legacyCol ∈ t.columns := by
    intro among
    exact ((mem_rewrite _).mp among).resolve_right fresh.symm
  refine ⟨⟨⟨⟨?_,?_,recent,?_,?_⟩,?_⟩,?_⟩,has,?_,rfl⟩
  · intro other t' there
    rcases either other t' there with ⟨rfl,rfl⟩ | before
    · exact fun column among => (mem_rewrite _).mpr (.inl (shaped _ t found column among))
    · exact shaped other t' before
  · exact fun entry among old => has _ _ (versioned entry among old)
  · intro t' there listed row among
    rcases either _ t' there with ⟨same,rfl⟩ | before
    · obtain ⟨row,stored,rfl⟩ := List.mem_map.mp among
      by_cases new : column = "kind"
      · subst new
        rw [Function.update_self]
        exact kind same.symm rfl row
      · rw [Function.update_of_ne (Ne.symm new)]
        have before := ((mem_rewrite _).mp listed).resolve_right (Ne.symm new)
        subst same
        exact kinds t found before row stored
    · exact kinds t' before listed row among
  · intro t' there
    rcases either _ t' there with ⟨same,rfl⟩ | before
    · subst same
      exact rewrite_distinct (distinct t found) aside
    · exact distinct t' before
  · intro t' there listed
    have before : ∃ t₀, f.tables "runs" = some t₀ ∧ legacyCol ∈ t₀.columns ∧
        ∀ other ∈ t'.columns, other ∈ t₀.columns ∨ other ∈ runColumns := by
      rcases either _ t' there with ⟨same,rfl⟩ | before
      · subst same
        refine ⟨t,found,old listed,?_⟩
        intro other among
        refine ((mem_rewrite other).mp among).imp id ?_
        intro same
        subst same
        exact known rfl (old listed)
      · exact ⟨t',before,listed,fun _ => .inl⟩
    obtain ⟨t₀,there₀,listed₀,grown⟩ := before
    obtain ⟨early,columns,spare⟩ := legacy t₀ there₀ listed₀
    refine ⟨early,?_,?_⟩
    · intro other among
      exact (grown other among).elim (columns other) .inr
    · rw [setTable_other]
      · exact spare
      · intro same
        subst same
        rw [found] at spare
        cases spare
  · intro other t₀ row there among
    obtain ⟨t',row',found',stored,values⟩ := readable other t₀ row there among
    by_cases same : other = name
    · subst same
      rw [found] at found'
      cases found'
      refine ⟨_,_,setTable_same _ _,List.mem_map.mpr ⟨row',stored,rfl⟩,?_⟩
      intro column' listed plain
      obtain ⟨there',value'⟩ := values column' listed plain
      refine ⟨(mem_rewrite _).mpr (.inl there'),?_⟩
      rw [Function.update_of_ne]
      · exact value'
      · intro same
        subst same
        exact unused t₀ row there among listed
    · exact ⟨t',row',(setTable_other same _).trans found',stored,values⟩
  · intro before t' there
    rcases either _ t' there with ⟨same,rfl⟩ | earlier
    · subst same
      exact fun listed => before t found (old listed)
    · exact before t' earlier

end Migration
