import HyprlandAgent.Store.Schema

-- Opening a sound file: every statement of it works, and a death between two of
-- them leaves a file that is sound again, outside the rebuild of the runs table.
namespace Migration
open Coroutine Sql
variable {f g orig : File} {name column table : String} {t : Table} {available : Bool}
  {settled : Bool} {version : Nat} {facts : List (String × List String)}

def Jammed (f : File) : Prop := LegacyRuns f ∧ f.tables "runs_new" ≠ none

def Emptied (f : File) : Prop :=
  ∀ t, f.tables "runs" = some t → t.rows = [] ∧ legacyCol ∉ t.columns

def HasRuns (f : File) : Prop := ∃ t row, f.tables "runs" = some t ∧ row ∈ t.rows

def Broken (orig f : File) : Prop := Jammed f ∨ HasRuns orig ∧ Emptied f

-- The operations of the rebuild before which a death does harm.
def tears (orig : File) : Op → Prop
  | .script (.insertSelect _ _ _ _) | .script (.dropTable _) => True
  | .script (.renameTable _ _) => HasRuns orig
  | _ => False

structure Crashed (orig : File) (op : Op) (f : File) : Prop where
  torn : tears orig op → Broken orig f
  spared : ¬tears orig op → Fine orig f

structure On (orig : File) (A : File → Prop) (c : Connection) : Prop where
  durable : Fine orig c.durable
  current : Fine orig c.current
  holds : A c.current

def Goes (available : Bool) (orig : File) (P : File → Prop) (p : Prog sql α)
    (Q : α → File → Prop) : Prop :=
  Triple (semantics available) (fun op c => Crashed orig op c.durable) (On orig P) p
    (ending (fun value => On orig (Q value)) fun _ _ => False)

theorem Goes.bind {P : File → Prop} {Q : α → File → Prop} {T : β → File → Prop} {p : Prog sql α}
    {next : α → Prog sql β} (first : Goes available orig P p Q)
    (second : ∀ value, Goes available orig (Q value) (next value) T) :
    Goes available orig P (p >>= next) T :=
  Triple.seq first second

theorem Goes.pure {Q : α → File → Prop} {value : α} :
    Goes available orig (Q value) (Pure.pure value) Q :=
  Triple.pure fun _ reached => reached

theorem Goes.weaken {P P' : File → Prop} {Q : α → File → Prop} {p : Prog sql α}
    (goes : Goes available orig P p Q) (stronger : ∀ f, Fine orig f → P' f → P f) :
    Goes available orig P' p Q :=
  Triple.weaken (fun _ on => ⟨on.durable,on.current,stronger _ on.current on.holds⟩) goes

theorem Goes.mono {P : File → Prop} {Q Q' : α → File → Prop} {p : Prog sql α}
    (goes : Goes available orig P p Q) (weaker : ∀ value f, Fine orig f → Q value f → Q' value f) :
    Goes available orig P p Q' :=
  Triple.relax (fun value _ on => ⟨on.durable,on.current,weaker value _ on.current on.holds⟩)
    (fun _ _ impossible => impossible) goes

theorem Goes.given {P : File → Prop} {Q : α → File → Prop} {p : Prog sql α} {fact : Prop}
    (goes : fact → Goes available orig P p Q) :
    Goes available orig (fun f => P f ∧ fact) p Q :=
  fun c on => goes on.holds.2 c ⟨on.durable,on.current,on.holds.1⟩

theorem Fine.crashed {op : Op} (fine : Fine orig f) (harmless : ¬tears orig op) : Crashed orig op f :=
  ⟨fun harm => absurd harm harmless,fun _ => fine⟩

theorem ran_on {A B : File → Prop} {statement : Statement} {c : Connection} (begins : Bool)
    (works : ∀ f, Fine orig f → A f → ∃ g, statement.apply f = .ok g ∧ Fine orig g ∧ B g)
    (on : On orig A c) :
    ending (S:=sql) (fun _ => On orig B) (fun _ _ => False) (c.run begins statement).1
      (c.run begins statement).2 := by
  obtain ⟨g,applied,fine,holds⟩ := works _ on.current on.holds
  unfold Connection.run
  rw [applied]
  dsimp only [ending]
  split
  · exact ⟨on.durable,fine,holds⟩
  · exact ⟨fine,fine,holds⟩

theorem execute_goes {A B : File → Prop} {statement : Statement}
    (works : ∀ f, Fine orig f → A f → ∃ g, statement.apply f = .ok g ∧ Fine orig g ∧ B g) :
    Goes available orig A (execute statement) fun _ => B :=
  Triple.exec (fun _ on => on.durable.crashed id) fun _ on => ran_on _ works on

theorem scripted_goes {A B : File → Prop} {statement : Statement}
    (harmless : ¬tears orig (.script statement))
    (works : ∀ f, Fine orig f → A f → ∃ g, statement.apply f = .ok g ∧ Fine orig g ∧ B g) :
    Goes available orig A (ask (.script statement)) fun _ => B :=
  Triple.exec (fun _ on => on.durable.crashed harmless) fun _ on => ran_on _ works on

theorem commit_goes {A : File → Prop} : Goes available orig A commit fun _ => A :=
  Triple.exec (fun _ on => on.durable.crashed id) fun _ on => ⟨on.current,on.current,on.holds⟩

structure Knows (settled : Bool) (version : Nat) (facts : List (String × List String)) (f : File) :
    Prop where
  plain : settled = true → Plain f
  version : f.userVersion = version
  facts : ∀ fact ∈ facts, f.Has fact.1 fact.2

theorem Knows.progress (knows : Knows settled version facts f) (progress : Progress orig f g) :
    Knows settled version facts g :=
  ⟨fun yes => progress.plain (knows.plain yes),progress.version.trans knows.version,
    fun fact among => progress.wider _ _ (knows.facts fact among)⟩

theorem Knows.learn (knows : Knows settled version facts f) {columns : List String}
    (has : f.Has name columns) : Knows settled version ((name,columns) :: facts) f := by
  refine ⟨knows.plain,knows.version,?_⟩
  intro fact among
  rcases List.mem_cons.mp among with rfl | before
  · exact has
  · exact knows.facts fact before

theorem Knows.forget {fewer : List (String × List String)} (knows : Knows settled version facts f)
    (among : ∀ fact ∈ fewer, fact ∈ facts) : Knows settled version fewer f :=
  ⟨knows.plain,knows.version,fun fact kept => knows.facts fact (among fact kept)⟩

def admits : List (String × List String) → List Statement → Bool
  | _,[] => true
  | facts,.pragma _ :: rest => admits facts rest
  | facts,.createTableIfAbsent name columns :: rest =>
    name != "runs_new" && !columns.contains legacyCol &&
      (shapeOf name).all (fun column => columns.contains column) && admits ((name,shapeOf name) :: facts) rest
  | facts,.createIndexIfAbsent unique _ table columns :: rest =>
    facts.any (fun fact => fact.1 == table && columns.all fun column => fact.2.contains column) &&
      (!unique || table == "allowlist_proposals" && columns == proposalKey) && admits facts rest
  | _,_ => false

def learnt : List (String × List String) → List Statement → List (String × List String)
  | facts,[] => facts
  | facts,.createTableIfAbsent name _ :: rest => learnt ((name,shapeOf name) :: facts) rest
  | facts,_ :: rest => learnt facts rest

theorem create_progress (columns : List String) (fine : Fine orig f)
    (shape : ∀ column ∈ shapeOf name, column ∈ columns) (plain : legacyCol ∉ columns)
    (other : name ≠ "runs_new") :
    ∃ g, (Statement.createTableIfAbsent name columns).apply f = .ok g ∧ Progress orig f g ∧
      g.Has name (shapeOf name) := by
  cases found : f.tables name with
  | some t =>
    refine ⟨f,by simp [Statement.apply,found],Progress.same fine rfl rfl,t,found,?_⟩
    exact fine.sound.shaped name t found
  | none =>
    exact ⟨_,by simp only [Statement.apply,found],Progress.created fine found shape plain other,_,
      setTable_same _ _,shape⟩

theorem index_progress (name : String) {columns : List String} {unique : Bool} (fine : Fine orig f)
    (has : f.Has table columns)
    (key : unique = true → table = "allowlist_proposals" ∧ columns = proposalKey) :
    ∃ g, (Statement.createIndexIfAbsent unique name table columns).apply f = .ok g ∧
      Progress orig f g := by
  obtain ⟨t,found,all⟩ := has
  have listed : (columns.all fun column => t.columns.contains column) = true := by
    simpa using all
  simp only [Statement.apply]
  split
  · exact ⟨f,rfl,Progress.same fine rfl rfl⟩
  · simp only [found,listed,if_true]
    have keyed : ¬(unique = true ∧ ¬t.Distinct columns) := by
      intro given
      obtain ⟨yes,clashes⟩ := given
      obtain ⟨rfl,rfl⟩ := key yes
      exact clashes (fine.sound.distinct t found)
    rw [if_neg keyed]
    exact ⟨_,rfl,Progress.same fine rfl rfl⟩

theorem script_goes {statements : List Statement} (admitted : admits facts statements = true) :
    Goes available orig (Knows settled version facts) (script statements)
      fun _ => Knows settled version (learnt facts statements) := by
  induction statements generalizing facts with
  | nil => exact Goes.pure (Q:=fun _ => Knows settled version facts)
  | cons statement rest ih =>
    cases statement with
    | pragma text =>
      refine Goes.bind (Q:=fun _ => Knows settled version facts) ?_ fun _ => ih admitted
      exact scripted_goes id fun f fine knows => ⟨f,rfl,fine,knows⟩
    | createTableIfAbsent name columns =>
      simp only [admits,Bool.and_eq_true,bne_iff_ne,Bool.not_eq_true',List.all_eq_true,
        List.contains_eq_mem,decide_eq_true_eq,decide_eq_false_iff_not] at admitted
      obtain ⟨⟨⟨other,plain⟩,shape⟩,admitted⟩ := admitted
      refine Goes.bind (Q:=fun _ => Knows settled version ((name,shapeOf name) :: facts)) ?_
        fun _ => ih admitted
      refine scripted_goes id fun f fine knows => ?_
      obtain ⟨g,applied,progress,has⟩ := create_progress _ fine shape plain other
      exact ⟨g,applied,progress.fine,(knows.progress progress).learn has⟩
    | createIndexIfAbsent unique name table columns =>
      simp only [admits,Bool.and_eq_true,List.any_eq_true,List.all_eq_true,List.contains_eq_mem,
        decide_eq_true_eq,beq_iff_eq,Bool.or_eq_true,Bool.not_eq_true'] at admitted
      obtain ⟨⟨⟨fact,among,rfl,listed⟩,key⟩,admitted⟩ := admitted
      refine Goes.bind (Q:=fun _ => Knows settled version facts) ?_ fun _ => ih admitted
      refine scripted_goes id fun f fine knows => ?_
      have unclashing : unique = true → fact.1 = "allowlist_proposals" ∧ columns = proposalKey := by
        intro yes
        apply key.resolve_left
        simp [yes]
      obtain ⟨g,applied,progress⟩ :=
        index_progress name fine ((knows.facts fact among).mono listed) unclashing
      exact ⟨g,applied,progress.fine,knows.progress progress⟩
    | _ => cases admitted

theorem executescript_goes {statements : List Statement} (admitted : admits facts statements = true) :
    Goes available orig (Knows settled version facts) (executescript statements)
      fun _ => Knows settled version (learnt facts statements) :=
  Goes.bind commit_goes fun _ => script_goes admitted

def Listed (table : String) (cols extra : List String) (f : File) : Prop :=
  ∃ t, f.tables table = some t ∧ (∀ column ∈ cols, column ∈ t.columns) ∧
    ∀ column ∈ t.columns, column ∈ cols ∨ column ∈ extra

theorem tableInfo_goes (columns : List String) (among : (table,columns) ∈ facts) :
    Goes available orig (Knows settled version facts) (tableInfo table)
      fun cols f => Knows settled version facts f ∧ Listed table cols [] f := by
  apply Triple.exec (fun _ on => on.durable.crashed id)
  intro c on
  obtain ⟨t,found,_⟩ := on.holds.facts _ among
  refine ⟨on.durable,on.current,on.holds,t,found,?_,?_⟩
  · simp [found]
  · simp [found]

theorem add_progress {default : Value} (fine : Fine orig f) (found : f.tables table = some t)
    (lacks : column ∉ t.columns) (fresh : column ≠ legacyCol) (aside : column ∉ proposalKey)
    (kind : table = "runs" → column = "kind" → default ≠ .null)
    (known : table = "runs" → legacyCol ∈ t.columns → column ∈ runColumns) :
    ∃ g, (Statement.addColumn table column default).apply f = .ok g ∧ Progress orig f g ∧
      g.tables table = some (t.rewrite column fun _ => default) := by
  refine ⟨_,?_,Progress.rewritten fine found (fine.unused found lacks fresh) fresh aside
    (fun runs same _ => kind runs same) known,setTable_same _ _⟩
  simp only [Statement.apply,found,if_neg lacks]

-- A column that the statements of one migration may add to a table.
structure Addable (settled : Bool) (table column : String) (default : Value) : Prop where
  fresh : column ≠ legacyCol
  aside : column ∉ proposalKey
  kind : table = "runs" → column = "kind" → default ≠ .null
  known : table = "runs" → settled = true ∨ column ∈ runColumns

theorem addable_progress {default : Value} (addable : Addable settled table column default)
    {cols extra : List String} (fine : Fine orig f) (knows : Knows settled version facts f)
    (listed : Listed table cols extra f) (lacks : column ∉ cols) (new : column ∉ extra) :
    ∃ g, (Statement.addColumn table column default).apply f = .ok g ∧ Progress orig f g ∧
      Unused orig table column ∧ g.Has table [column] ∧ Listed table cols (column :: extra) g := by
  obtain ⟨t,found,all,only⟩ := listed
  have absent : column ∉ t.columns := fun there => (only column there).elim lacks new
  have known : table = "runs" → legacyCol ∈ t.columns → column ∈ runColumns := by
    intro same legacy
    subst same
    refine (addable.known rfl).resolve_left ?_
    intro yes
    exact knows.plain yes t found legacy
  obtain ⟨g,applied,progress,grown⟩ :=
    add_progress fine found absent addable.fresh addable.aside addable.kind known
  refine ⟨g,applied,progress,fine.unused found absent addable.fresh,⟨_,grown,?_⟩,_,grown,?_,?_⟩
  · intro other among
    exact (mem_rewrite other).mpr (.inr (List.mem_singleton.mp among))
  · intro other among
    exact (mem_rewrite other).mpr (.inl (all other among))
  · intro other among
    rcases (mem_rewrite other).mp among with before | rfl
    · exact (only other before).imp id (List.mem_cons_of_mem _)
    · exact .inr List.mem_cons_self

theorem addMissing_goes {default : Value} {cols extra : List String}
    (addable : Addable settled table column default) (new : column ∉ extra) :
    Goes available orig (fun f => Knows settled version facts f ∧ Listed table cols extra f)
      (addMissing cols table column default) fun _ f =>
        Knows settled version ((table,[column]) :: facts) f ∧ Listed table cols (column :: extra) f := by
  unfold addMissing
  split
  · rename_i there
    apply Goes.weaken Goes.pure
    intro f fine given
    obtain ⟨knows,t,found,all,only⟩ := given
    refine ⟨knows.learn ⟨t,found,?_⟩,t,found,all,fun other among => (only other among).imp id (List.mem_cons_of_mem _)⟩
    intro other among
    rw [List.mem_singleton.mp among]
    exact all column there
  · rename_i lacks
    apply execute_goes
    intro f fine given
    obtain ⟨knows,listed⟩ := given
    obtain ⟨g,applied,progress,_,has,still⟩ := addable_progress addable fine knows listed lacks new
    exact ⟨g,applied,progress.fine,(knows.progress progress).learn has,still⟩

theorem fill_progress {value : Value} (fine : Fine orig f) (has : f.Has table [column])
    (unused : Unused orig table column) (fresh : column ≠ legacyCol) (aside : column ∉ proposalKey)
    (other : table ≠ "runs") :
    ∃ g, (Statement.fillNull table column value).apply f = .ok g ∧ Progress orig f g := by
  obtain ⟨t,found,all⟩ := has
  have applied : (Statement.fillNull table column value).apply f = .ok (f.setTable table
      (some (t.rewrite column fun row => if row column = .null then value else row column))) := by
    simp only [Statement.apply,found]
    rw [if_pos (all column (List.mem_singleton.mpr rfl))]
  exact ⟨_,applied,Progress.rewritten fine found unused fresh aside (fun same => absurd same other)
    fun same => absurd same other⟩

theorem setUserVersion_goes {next : Nat} (recent : next ≤ latestSchemaVersion)
    (covered : ∀ entry ∈ migrations, entry.1 ≤ next → entry.1 ≤ version ∨
      ∃ fact ∈ facts, fact.1 = entry.2.1 ∧ ∀ column ∈ entry.2.2, column ∈ fact.2) :
    Goes available orig (Knows true version facts) (execute (.setUserVersion next))
      fun _ => Knows true next facts := by
  apply execute_goes
  intro f fine knows
  obtain ⟨⟨⟨shaped,versioned,_,kinds,distinct⟩,legacy⟩,readable⟩ := fine
  refine ⟨_,rfl,⟨⟨⟨shaped,?_,recent,kinds,distinct⟩,?_⟩,readable⟩,⟨knows.plain,rfl,knows.facts⟩⟩
  · intro entry among reached
    rcases covered entry among reached with old | ⟨fact,known,same,all⟩
    · exact versioned entry among (by rw [knows.version]; exact old)
    · have has := (knows.facts fact known).mono all
      rw [same] at has
      exact has
  · intro t found there
    exact absurd there (knows.plain rfl t found)

-- The rebuild: the file after each of its statements.
section
variable (f : File) (t : Table)

def rebuilding : File := f.setTable "runs_new" (some ⟨runColumns,[]⟩)

def copied : Table := ⟨runColumns,t.select runColumns [("kind",.text "run")]⟩

def copying : File := f.setTable "runs_new" (some (copied t))

def dropped : File :=
  { (copying f t).setTable "runs" none with indexes := f.indexes.filter fun index => index.2 != "runs" }

end

theorem select_value {row : Row} (listed : column ∈ runColumns) (value : row column ≠ .null) :
    (if column ∈ runColumns then
      if row column = .null then (([("kind",.text "run")] : List (String × Value)).lookup column).getD .null
      else row column
    else .null) = row column := by
  rw [if_pos listed,if_neg value]

theorem copied_values {row : Row} (kinds : "kind" ∈ t.columns → row "kind" ≠ .null)
    (among : row ∈ t.rows) : ∃ row' ∈ (copied t).rows,
      ∀ column ∈ t.columns, column ∈ runColumns → row' column = row column := by
  refine ⟨_,List.mem_map.mpr ⟨row,among,rfl⟩,?_⟩
  intro column there listed
  by_cases null : row column = .null
  · have other : column ≠ "kind" := by
      intro same
      subst same
      exact kinds there null
    have differs : (column == "kind") = false := by simpa using other
    simp [listed,null,List.lookup_cons,differs]
  · exact select_value listed null

def rebuilt (f : File) (t : Table) : File :=
  { ((dropped f t).setTable "runs_new" none).setTable "runs" (some (copied t)) with
    indexes := (dropped f t).indexes.map fun index =>
      if index.2 = "runs_new" then (index.1,"runs") else index }

theorem rebuilt_runs : (rebuilt f t).tables "runs" = some (copied t) := by
  simp [rebuilt,File.setTable]

theorem rebuilt_spare : (rebuilt f t).tables "runs_new" = none := by
  simp [rebuilt,File.setTable]

theorem rebuilt_other (runs : name ≠ "runs") (spare : name ≠ "runs_new") :
    (rebuilt f t).tables name = f.tables name := by
  unfold rebuilt dropped copying
  simp [File.setTable,runs,spare]

theorem early_unversioned (entry : Nat × String × List String) (among : entry ∈ migrations) :
    2 ≤ entry.1 := by
  have all : ∀ entry ∈ migrations, 2 ≤ entry.1 := by decide
  exact all entry among

theorem rebuilt_fine (fine : Fine orig f) (found : f.tables "runs" = some t)
    (legacy : legacyCol ∈ t.columns) : Fine orig (rebuilt f t) := by
  obtain ⟨⟨⟨shaped,_,recent,kinds,distinct⟩,early⟩,readable⟩ := fine
  obtain ⟨old,columns,spare⟩ := early t found legacy
  -- A table of the new file is the copy or one of the old.
  have either : ∀ name t', (rebuilt f t).tables name = some t' →
      (name = "runs" ∧ t' = copied t) ∨ (name ≠ "runs" ∧ f.tables name = some t') := by
    intro name t' there
    by_cases runs : name = "runs"
    · subst runs
      rw [rebuilt_runs] at there
      exact .inl ⟨rfl,(Option.some.inj there).symm⟩
    · by_cases new : name = "runs_new"
      · subst new
        rw [rebuilt_spare] at there
        cases there
      · rw [rebuilt_other runs new] at there
        exact .inr ⟨runs,there⟩
  refine ⟨⟨⟨?_,?_,recent,?_,?_⟩,?_⟩,?_⟩
  · intro name t' there
    rcases either name t' there with ⟨rfl,rfl⟩ | ⟨_,before⟩
    · exact show ∀ column ∈ shapeOf "runs", column ∈ runColumns by decide
    · exact shaped name t' before
  · intro entry among reached
    have late := early_unversioned entry among
    have same : (rebuilt f t).userVersion = f.userVersion := rfl
    omega
  · intro t' there _ row among
    rcases either _ t' there with ⟨_,rfl⟩ | ⟨other,_⟩
    · obtain ⟨row,_,rfl⟩ := List.mem_map.mp among
      have listed : "kind" ∈ runColumns := by decide
      by_cases null : row "kind" = .null
      · simp [listed,null]
      · simp [listed,null]
    · exact absurd rfl other
  · intro t' there
    rcases either _ t' there with ⟨impossible,_⟩ | ⟨_,before⟩
    · exact absurd impossible (by decide)
    · exact distinct t' before
  · intro t' there listed
    rcases either _ t' there with ⟨_,rfl⟩ | ⟨other,_⟩
    · exact absurd listed (show legacyCol ∉ runColumns by decide)
    · exact absurd rfl other
  · intro name t₀ row there among
    obtain ⟨t',row',found',stored,values⟩ := readable name t₀ row there among
    by_cases runs : name = "runs"
    · subst runs
      rw [found] at found'
      cases found'
      obtain ⟨copy,kept,same⟩ := copied_values (fun listed => kinds t found listed row' stored) stored
      refine ⟨_,copy,rebuilt_runs,kept,?_⟩
      intro column known plain
      obtain ⟨there',value⟩ := values column known plain
      have listed := (columns column there').resolve_left plain
      exact ⟨listed,(same column there' listed).trans value⟩
    · have other : name ≠ "runs_new" := by
        intro same
        subst same
        rw [spare] at found'
        cases found'
      exact ⟨t',row',(rebuilt_other runs other).trans found',stored,values⟩

theorem dropped_fine (fine : Fine orig f) (found : f.tables "runs" = some t) (legacy : legacyCol ∈ t.columns)
    (empty : ¬HasRuns orig) : Fine orig (dropped f t) := by
  obtain ⟨⟨⟨shaped,_,recent,_,distinct⟩,early⟩,readable⟩ := fine
  obtain ⟨old,_,spare⟩ := early t found legacy
  have other : ∀ name, name ≠ "runs" → name ≠ "runs_new" → (dropped f t).tables name = f.tables name := by
    intro name runs new
    simp [dropped,copying,File.setTable,runs,new]
  have gone : (dropped f t).tables "runs" = none := by
    simp [dropped,File.setTable]
  refine ⟨⟨⟨?_,?_,recent,?_,?_⟩,?_⟩,?_⟩
  · intro name t' there
    by_cases runs : name = "runs"
    · rw [runs,gone] at there
      cases there
    · by_cases new : name = "runs_new"
      · subst new
        exact show ∀ column ∈ shapeOf "runs_new", column ∈ t'.columns from
          fun column impossible => absurd impossible (show column ∉ [] by simp)
      · rw [other name runs new] at there
        exact shaped name t' there
  · intro entry among reached
    have late := early_unversioned entry among
    have same : (dropped f t).userVersion = f.userVersion := rfl
    omega
  · intro t' there
    rw [gone] at there
    cases there
  · intro t' there
    rw [other _ (by decide) (by decide)] at there
    exact distinct t' there
  · intro t' there
    rw [gone] at there
    cases there
  · intro name t₀ row there among
    obtain ⟨t',row',found',rest⟩ := readable name t₀ row there among
    have runs : name ≠ "runs" := by
      intro same
      subst same
      exact empty ⟨t₀,row,there,among⟩
    have new : name ≠ "runs_new" := by
      intro same
      subst same
      rw [spare] at found'
      cases found'
    exact ⟨t',row',(other name runs new).trans found',rest⟩

theorem scripted_at {statement : Statement} (owed : Crashed orig (.script statement) f) (applied : statement.apply f = .ok g) :
    Triple (semantics available) (fun op c => Crashed orig op c.durable) (fun c => c = ⟨f,none⟩)
      (ask (.script statement)) (ending (fun _ c => c = ⟨g,none⟩) fun _ _ => False) := by
  apply Triple.exec
  · intro c same
    subst same
    exact owed
  · intro c same
    subst same
    have ran : (Connection.mk f none).exec available (.script statement) = (.ok (),⟨g,none⟩) := by
      simp [Connection.exec,Connection.run,applied]
    rw [ran]
    rfl

def ground : List (String × List String) :=
  [("runs",runColumns),("run_events",shapeOf "run_events")]

theorem rebuild_steps (fine : Fine orig f) (found : f.tables "runs" = some t)
    (legacy : legacyCol ∈ t.columns) (knows : Knows false f.userVersion ground f) :
    Triple (semantics available) (fun op c => Crashed orig op c.durable) (fun c => c = ⟨f,none⟩)
      (script rebuildScript)
      (ending (fun _ => On orig (Knows true f.userVersion ground)) fun _ _ => False) := by
  have all : ∀ column ∈ runColumns, column ∈ t.columns :=
    (knows.facts ("runs",runColumns) (by decide)).columns found
  have events : (rebuilt f t).Has "run_events" (shapeOf "run_events") := by
    obtain ⟨t',there,listed⟩ := knows.facts ("run_events",shapeOf "run_events") (by decide)
    exact ⟨t',(rebuilt_other (by decide) (by decide)).trans there,listed⟩
  obtain ⟨_,_,spare⟩ := fine.sound.legacy t found legacy
  have jammed : ∀ spare, Broken orig (f.setTable "runs_new" (some spare)) := by
    intro spare
    refine .inl ⟨⟨t,(setTable_other (by decide) _).trans found,legacy⟩,?_⟩
    simp
  have created : (Statement.createTable "runs_new" runColumns).apply f = .ok (rebuilding f) := by
    simp only [Statement.apply,spare]
    rfl
  have inserted : (Statement.insertSelect "runs_new" "runs" runColumns [("kind",.text "run")]).apply
      (rebuilding f) = .ok (copying f t) := by
    have listed : (runColumns.all fun column => runColumns.contains column && t.columns.contains column) = true := by
      simp only [List.all_eq_true,Bool.and_eq_true,List.contains_eq_mem,decide_eq_true_eq]
      exact fun column among => ⟨among,all column among⟩
    have source : (rebuilding f).tables "runs" = some t := (setTable_other (by decide) _).trans found
    have target : (rebuilding f).tables "runs_new" = some ⟨runColumns,[]⟩ := setTable_same _ _
    simp only [Statement.apply,source,target,listed,if_true,List.nil_append]
    simp [copying,rebuilding,File.setTable,copied]
  have gone : (Statement.dropTable "runs").apply (copying f t) = .ok (dropped f t) := by
    have source : (copying f t).tables "runs" = some t := (setTable_other (by decide) _).trans found
    simp only [Statement.apply,source]
    rfl
  have renamed : (Statement.renameTable "runs_new" "runs").apply (dropped f t) = .ok (rebuilt f t) := by
    have source : (dropped f t).tables "runs_new" = some (copied t) := by
      simp [dropped,copying,File.setTable]
    have free : (dropped f t).tables "runs" = none := by
      simp [dropped,File.setTable]
    simp only [Statement.apply,source,free]
    rfl
  have cut : Crashed orig (.script (.renameTable "runs_new" "runs")) (dropped f t) := by
    refine ⟨fun runs => .inr ⟨runs,?_⟩,fun none => dropped_fine fine found legacy none⟩
    intro t' there
    simp [dropped,File.setTable] at there
  have rebuiltFine := rebuilt_fine fine found legacy
  have rebuiltPlain : Plain (rebuilt f t) := by
    intro t' there
    rw [rebuilt_runs] at there
    cases there
    exact show legacyCol ∉ runColumns by decide
  refine Triple.seq (scripted_at (fine.crashed id) created) fun _ => ?_
  refine Triple.seq (scripted_at ⟨fun _ => jammed _,fun not => absurd trivial not⟩ inserted) fun _ => ?_
  refine Triple.seq (scripted_at ⟨fun _ => jammed _,fun not => absurd trivial not⟩ gone) fun _ => ?_
  refine Triple.seq (scripted_at cut renamed) fun _ => ?_
  have indexed : Goes available orig (Knows true f.userVersion ground)
      (script [.createIndexIfAbsent false "idx_runs_started" "runs" ["started_at"]])
      fun _ => Knows true f.userVersion ground := script_goes (by decide)
  refine Triple.weaken ?_ indexed
  intro c same
  subst same
  refine ⟨rebuiltFine,rebuiltFine,fun _ => rebuiltPlain,rfl,?_⟩
  intro fact among
  rcases List.mem_cons.mp among with rfl | other
  · exact ⟨copied t,rebuilt_runs,fun column there => there⟩
  · rw [List.mem_singleton.mp other]
    exact events

theorem rebuild_goes :
    Goes available orig (fun f => Knows false version ground f ∧ LegacyRuns f) rebuildRunsTable
      fun _ => Knows true version ground := by
  have committed : Triple (semantics available) (fun op c => Crashed orig op c.durable)
      (On orig fun f => Knows false version ground f ∧ LegacyRuns f) (ask .commit)
      (ending (fun _ c => On orig (fun f => Knows false version ground f ∧ LegacyRuns f) c ∧
        c.pending = none) fun _ _ => False) :=
    Triple.exec (fun _ on => on.durable.crashed id) fun _ on => ⟨⟨on.current,on.current,on.holds⟩,rfl⟩
  refine Triple.seq committed fun _ => ?_
  intro given given'
  obtain ⟨f,pending⟩ := given
  obtain ⟨⟨fine,_,knows,t,found,legacy⟩,rfl⟩ := given'
  obtain rfl : f.userVersion = version := knows.version
  exact rebuild_steps fine found legacy knows _ rfl

theorem onlyIf_goes {P Q : File → Prop} {needed : Bool} {part : Prog sql Unit}
    (does : needed = true → Goes available orig P part fun _ => Q)
    (skips : needed = false → ∀ f, Fine orig f → P f → Q f) :
    Goes available orig P (onlyIf needed part) fun _ => Q := by
  cases needed with
  | true => exact does rfl
  | false => exact Goes.weaken (Goes.pure (Q:=fun _ => Q)) (skips rfl)

theorem prepareRuns_goes :
    Goes available orig (fun f => f.userVersion = version) prepareRuns fun _ => Knows true version ground := by
  unfold prepareRuns
  have first : Goes available orig (fun f => f.userVersion = version) (executescript schema)
      fun _ => Knows false version (learnt [] schema) := by
    refine Goes.weaken (executescript_goes (by decide)) ?_
    intro f _ same
    exact ⟨fun impossible => (by cases impossible),same,fun _ among => (by cases among)⟩
  refine Goes.bind first fun _ => ?_
  refine Goes.bind (tableInfo_goes (shapeOf "runs") (by decide)) fun cols => ?_
  refine Goes.bind (addMissing_goes ⟨by decide,by decide,by decide,fun _ => .inr (by decide)⟩ (by decide))
    fun _ => ?_
  refine Goes.bind (addMissing_goes ⟨by decide,by decide,fun _ _ => by decide,fun _ => .inr (by decide)⟩
    (by decide)) fun _ => ?_
  -- The two columns complete what is known of the runs table.
  have grounded : ∀ f, Knows false version
      (("runs",["kind"]) :: ("runs",["error_text"]) :: learnt [] schema) f → Knows false version ground f := by
    intro f knows
    have added := (knows.facts ("runs",["kind"]) (by decide)).append
      (knows.facts ("runs",["error_text"]) (by decide))
    have whole := (knows.facts ("runs",shapeOf "runs") (by decide)).append added
    refine ⟨knows.plain,knows.version,?_⟩
    intro fact among
    rcases List.mem_cons.mp among with rfl | other
    · exact whole.mono (by decide)
    · rw [List.mem_singleton.mp other]
      exact knows.facts ("run_events",shapeOf "run_events") (by decide)
  refine Goes.bind (Q:=fun _ => Knows true version ground) (onlyIf_goes ?_ ?_) fun _ => commit_goes
  · intro listed
    apply Goes.weaken rebuild_goes
    intro f _ given
    obtain ⟨knows,t,found,all,_⟩ := given
    exact ⟨grounded f knows,t,found,all _ (of_decide_eq_true listed)⟩
  · intro unlisted
    have plain := of_decide_eq_false unlisted
    intro f _ given
    obtain ⟨knows,t,found,_,only⟩ := given
    have known := grounded f knows
    refine ⟨fun _ => ?_,known.version,known.facts⟩
    intro t' there legacy
    rw [found] at there
    cases there
    rcases only _ legacy with listed | added
    · exact plain listed
    · exact absurd added (by decide)

def covers (facts : List (String × List String)) (before next : Nat) : Bool :=
  migrations.all fun entry => next < entry.1 || entry.1 ≤ before ||
    facts.any fun fact => fact.1 == entry.2.1 && entry.2.2.all fun column => fact.2.contains column

theorem advance_goes {before next : Nat} (recent : next ≤ latestSchemaVersion) (old : before ≤ version)
    (covered : covers facts before next = true) :
    Goes available orig (Knows true version facts) (execute (.setUserVersion next))
      fun _ => Knows true next facts := by
  apply setUserVersion_goes recent
  intro entry among reached
  simp only [covers,List.all_eq_true,Bool.or_eq_true,decide_eq_true_eq,List.any_eq_true,Bool.and_eq_true,
    beq_iff_eq,List.contains_eq_mem] at covered
  rcases covered entry among with (late | there) | known
  · omega
  · exact .inl (there.trans old)
  · exact .inr known

theorem v2_goes :
    Goes available orig (Knows true version ground) applyV2Migration fun _ => Knows true 2 ground := by
  unfold applyV2Migration
  refine Goes.bind (tableInfo_goes runColumns (by decide)) fun cols => ?_
  refine Goes.bind (addMissing_goes ⟨by decide,by decide,by decide,fun _ => .inl rfl⟩ (by decide))
    fun _ => ?_
  refine Goes.bind (addMissing_goes ⟨by decide,by decide,by decide,fun _ => .inl rfl⟩ (by decide))
    fun _ => ?_
  refine Goes.bind (addMissing_goes ⟨by decide,by decide,by decide,fun _ => .inl rfl⟩ (by decide))
    fun _ => ?_
  refine Goes.bind (Goes.weaken (executescript_goes (by decide)) fun _ _ both => both.1) fun _ => ?_
  refine Goes.bind (advance_goes (by decide) (Nat.zero_le _) (by decide)) fun _ => ?_
  exact Goes.mono commit_goes fun _ _ _ knows => knows.forget (by decide)

theorem vec_goes {columns : List String} {vecOk : Bool} (shape : shapeOf name = [])
    (plain : legacyCol ∉ columns) (other : name ≠ "runs_new") :
    Goes available orig (Knows settled version facts)
      (onlyIf vecOk (execute (.createTableIfAbsent name columns)))
      fun _ => Knows settled version facts := by
  refine onlyIf_goes ?_ fun _ _ _ knows => knows
  intro _
  refine execute_goes fun f fine knows => ?_
  obtain ⟨g,applied,progress,_⟩ := create_progress columns fine (by simp [shape]) plain other
  exact ⟨g,applied,progress.fine,knows.progress progress⟩

theorem v3_goes {vecOk : Bool} :
    Goes available orig (Knows true 2 ground) (applyV3Migration vecOk) fun _ => Knows true 3 ground := by
  unfold applyV3Migration
  refine Goes.bind (executescript_goes (by decide)) fun _ => ?_
  refine Goes.bind (vec_goes (by decide) (by decide) (by decide)) fun _ => ?_
  refine Goes.bind (advance_goes (by decide) le_rfl (by decide)) fun _ => ?_
  exact Goes.mono commit_goes fun _ _ _ knows => knows.forget (by decide)

theorem v4_goes {vecOk : Bool} :
    Goes available orig (Knows true 3 ground) (applyV4Migration vecOk) fun _ => Knows true 4 ground := by
  unfold applyV4Migration
  refine Goes.bind (executescript_goes (by decide)) fun _ => ?_
  refine Goes.bind (vec_goes (by decide) (by decide) (by decide)) fun _ => ?_
  refine Goes.bind (advance_goes (by decide) le_rfl (by decide)) fun _ => ?_
  exact Goes.mono commit_goes fun _ _ _ knows => knows.forget (by decide)

theorem addDecay_goes {now : Rat} (columns : List String) (among : (table,columns) ∈ facts)
    (other : table ≠ "runs") :
    Goes available orig (Knows true version facts) (addDecay now table) fun _ =>
      Knows true version ((table,["last_accessed_at"]) :: (table,["decay_score"]) :: facts) := by
  have addable : ∀ column default, column ≠ legacyCol → column ∉ proposalKey →
      Addable true table column default :=
    fun column default fresh aside => ⟨fresh,aside,fun same => absurd same other,fun _ => .inl rfl⟩
  unfold addDecay
  refine Goes.bind (tableInfo_goes columns among) fun cols => ?_
  refine Goes.bind (addMissing_goes (addable _ _ (by decide) (by decide)) (by decide)) fun _ => ?_
  split
  · rename_i there
    refine Goes.weaken (Goes.pure (Q:=fun _ =>
      Knows true version ((table,["last_accessed_at"]) :: (table,["decay_score"]) :: facts))) ?_
    intro f _ given
    obtain ⟨knows,t,found,all,_⟩ := given
    refine knows.learn ⟨t,found,?_⟩
    intro column same
    rw [List.mem_singleton.mp same]
    exact all _ there
  · rename_i lacks
    have added : Goes available orig
        (fun f => Knows true version ((table,["decay_score"]) :: facts) f ∧ Listed table cols ["decay_score"] f)
        (execute (.addColumn table "last_accessed_at" .null)) fun _ f =>
          Knows true version ((table,["last_accessed_at"]) :: (table,["decay_score"]) :: facts) f ∧
            Unused orig table "last_accessed_at" := by
      apply execute_goes
      intro f fine given
      obtain ⟨knows,listed⟩ := given
      obtain ⟨g,applied,progress,unused,has,_⟩ := addable_progress
        (addable "last_accessed_at" .null (by decide) (by decide)) fine knows listed lacks (by decide)
      exact ⟨g,applied,progress.fine,(knows.progress progress).learn has,unused⟩
    refine Goes.bind added fun _ => Goes.given fun unused => ?_
    refine execute_goes fun f fine knows => ?_
    obtain ⟨g,applied,progress⟩ := fill_progress fine (knows.facts _ List.mem_cons_self) unused (by decide)
      (by decide) other
    exact ⟨g,applied,progress.fine,knows.progress progress⟩

def memories : List (String × List String) :=
  ["episodes","reflections","skills"].map fun table => (table,shapeOf table)

theorem v5_goes {now : Rat} :
    Goes available orig (Knows true 4 ground) (applyV5Migration now) fun _ => Knows true 5 ground := by
  have there : ∀ f, Fine orig f → Knows true 4 ground f → Knows true 4 (memories ++ ground) f := by
    intro f fine knows
    refine ⟨knows.plain,knows.version,?_⟩
    intro fact among
    rcases List.mem_append.mp among with memory | known
    · have brought : ∀ fact ∈ memories, ∃ entry ∈ migrations, entry.1 ≤ 4 ∧ entry.2 = fact := by decide
      obtain ⟨entry,listed,early,rfl⟩ := brought fact memory
      exact fine.sound.versioned entry listed (by rw [knows.version]; exact early)
    · exact knows.facts fact known
  refine Goes.weaken ?_ there
  unfold applyV5Migration
  refine Goes.bind (addDecay_goes (shapeOf "episodes") (by decide) (by decide)) fun _ => ?_
  refine Goes.bind (addDecay_goes (shapeOf "reflections") (by decide) (by decide)) fun _ => ?_
  refine Goes.bind (addDecay_goes (shapeOf "skills") (by decide) (by decide)) fun _ => ?_
  refine Goes.bind (advance_goes (by decide) le_rfl (by decide)) fun _ => ?_
  exact Goes.mono commit_goes fun _ _ _ knows => knows.forget (by decide)

theorem loadVec_goes {P : File → Prop} : Goes available orig P loadVec fun _ => P := by
  unfold loadVec
  have loaded : Triple (semantics available) (fun op c => Crashed orig op c.durable) (On orig P)
      (ask .loadExtension) (ending (fun _ => On orig P) fun _ => On orig P) := by
    apply Triple.exec (fun _ on => on.durable.crashed id)
    intro c on
    cases available <;> exact on
  refine Triple.caught ?_ fun _ => Triple.pure fun _ on => on
  exact Triple.seq loaded fun _ => Triple.pure fun _ on => on

theorem upgrade_goes {userVer before next : Nat} {migration : Prog sql Unit} (step : before ≤ next)
    (goes : userVer < next → Goes available orig (Knows true (max userVer before) ground) migration
      fun _ => Knows true next ground) :
    Goes available orig (Knows true (max userVer before) ground) (onlyIf (userVer < next) migration)
      fun _ => Knows true (max userVer next) ground := by
  apply onlyIf_goes
  · intro needed
    have below : userVer < next := of_decide_eq_true needed
    rw [Nat.max_eq_right (Nat.le_of_lt below)]
    exact goes below
  · intro done f _ knows
    have reached : ¬userVer < next := of_decide_eq_false done
    have same : max userVer next = max userVer before := by omega
    rw [same]
    exact knows

theorem initDb_goes (available : Bool) (orig : File) (now : Rat) (version : Nat) :
    Goes available orig (fun f => f.userVersion = version) (initDb now)
      fun _ => Knows true (max version 5) ground := by
  unfold initDb
  refine Goes.bind loadVec_goes fun vecOk => ?_
  refine Goes.bind prepareRuns_goes fun _ => ?_
  have read : Goes available orig (Knows true version ground) (ask .userVersion)
      fun userVer f => Knows true version ground f ∧ userVer = version :=
    Triple.exec (fun _ on => on.durable.crashed id) fun _ on => ⟨on.durable,on.current,on.holds,on.holds.version⟩
  refine Goes.bind read fun userVer => Goes.given ?_
  intro same
  subst same
  have start : Goes available orig (Knows true (max userVer 0) ground)
      (onlyIf (userVer < 2) applyV2Migration) fun _ => Knows true (max userVer 2) ground :=
    upgrade_goes (Nat.zero_le 2) fun _ => v2_goes
  rw [Nat.max_zero] at start
  refine Goes.bind start fun _ => ?_
  refine Goes.bind (upgrade_goes (by decide) ?_) fun _ => ?_
  · intro below
    rw [show max userVer 2 = 2 by omega]
    exact v3_goes
  refine Goes.bind (upgrade_goes (by decide) ?_) fun _ => ?_
  · intro below
    rw [show max userVer 3 = 3 by omega]
    exact v4_goes
  refine Goes.bind (upgrade_goes (by decide) ?_) fun _ => Goes.pure (Q:=fun _ => Knows true (max userVer 5) ground)
  intro below
  rw [show max userVer 4 = 4 by omega]
  exact v5_goes

end Migration
