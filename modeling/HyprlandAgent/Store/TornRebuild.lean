import HyprlandAgent.Store.Opening

-- What no later open repairs: a rebuild cut off in the middle, and a rebuild of a
-- table that had columns of version 2.
namespace Migration
open Coroutine Sql
variable {f g : File} {name : String} {t : Table} {available : Bool} {barred : List String}
  {J A B : File → Prop}

def additive (barred : List String) : Statement → Bool
  | .pragma _ | .createIndexIfAbsent _ _ _ _ | .fillNull _ _ _ => true
  | .createTableIfAbsent _ columns => columns.all fun column => !barred.contains column
  | .addColumn _ column _ => !barred.contains column
  | .setUserVersion version => 2 ≤ version
  | _ => false

structure Grown (barred : List String) (f g : File) : Prop where
  kept : ∀ name t, f.tables name = some t → ∃ t', g.tables name = some t' ∧
    (t.rows = [] → t'.rows = []) ∧ ∀ column ∈ barred, (column ∈ t'.columns ↔ column ∈ t.columns)
  new : ∀ name t', f.tables name = none → g.tables name = some t' →
    t'.rows = [] ∧ ∀ column ∈ barred, column ∉ t'.columns
  version : g.userVersion = f.userVersion ∨ 2 ≤ g.userVersion

theorem Grown.same (tables : g.tables = f.tables) (version : g.userVersion = f.userVersion ∨ 2 ≤ g.userVersion) :
    Grown barred f g := by
  refine ⟨?_,?_,version⟩
  · intro name t found
    exact ⟨t,by rw [tables]; exact found,id,fun _ _ => Iff.rfl⟩
  · intro name t' absent found
    rw [tables,absent] at found
    cases found

theorem Grown.created {columns : List String} (absent : f.tables name = none)
    (apart : ∀ column ∈ barred, column ∉ columns) :
    Grown barred f (f.setTable name (some ⟨columns,[]⟩)) := by
  refine ⟨?_,?_,.inl rfl⟩
  · intro other t found
    have different : other ≠ name := by
      intro same
      subst same
      rw [absent] at found
      cases found
    exact ⟨t,(setTable_other different _).trans found,id,fun _ _ => Iff.rfl⟩
  · intro other t' lacking found
    by_cases same : other = name
    · subst same
      rw [setTable_same] at found
      cases found
      exact ⟨rfl,apart⟩
    · rw [setTable_other same,lacking] at found
      cases found

theorem Grown.rewritten {column : String} {value : Row → Value} (found : f.tables name = some t)
    (harmless : column ∈ t.columns ∨ column ∉ barred) :
    Grown barred f (f.setTable name (some (t.rewrite column value))) := by
  refine ⟨?_,?_,.inl rfl⟩
  · intro other t₀ there
    by_cases same : other = name
    · subst same
      rw [found] at there
      cases there
      refine ⟨_,setTable_same _ _,?_,?_⟩
      · intro empty
        simp [Table.rewrite,empty]
      · intro old among
        rw [mem_rewrite]
        refine ⟨?_,.inl⟩
        intro either
        rcases either with before | rfl
        · exact before
        · exact harmless.resolve_right fun outside => outside among
    · exact ⟨t₀,(setTable_other same _).trans there,id,fun _ _ => Iff.rfl⟩
  · intro other t' lacking there
    have different : other ≠ name := by
      intro same
      subst same
      rw [found] at lacking
      cases lacking
    rw [setTable_other different,lacking] at there
    cases there

theorem additive_grown {statement : Statement} (adds : additive barred statement = true)
    (applied : statement.apply f = .ok g) : Grown barred f g := by
  cases statement with
  | pragma text =>
    cases applied
    exact Grown.same rfl (.inl rfl)
  | createTableIfAbsent name columns =>
    simp only [Statement.apply] at applied
    split at applied
    · cases applied
      exact Grown.same rfl (.inl rfl)
    · rename_i absent
      cases applied
      apply Grown.created absent
      intro column among listed
      simp only [additive,List.all_eq_true,Bool.not_eq_true',List.contains_eq_mem,
        decide_eq_false_iff_not] at adds
      exact adds column listed among
  | createIndexIfAbsent unique name table columns =>
    simp only [Statement.apply] at applied
    split at applied
    · cases applied
      exact Grown.same rfl (.inl rfl)
    · split at applied
      · cases applied
      · split at applied
        · split at applied
          · cases applied
          · cases applied
            exact Grown.same rfl (.inl rfl)
        · cases applied
  | addColumn table column default =>
    simp only [Statement.apply] at applied
    split at applied
    · cases applied
    · rename_i t found
      split at applied
      · cases applied
      · cases applied
        refine Grown.rewritten found (.inr ?_)
        simpa [additive] using adds
  | fillNull table column value =>
    simp only [Statement.apply] at applied
    split at applied
    · cases applied
    · rename_i t found
      split at applied
      · rename_i there
        cases applied
        exact Grown.rewritten found (.inl there)
      · cases applied
  | setUserVersion version =>
    cases applied
    exact Grown.same rfl (.inr (of_decide_eq_true adds))
  | _ => cases adds

structure Held (J A : File → Prop) (c : Connection) : Prop where
  durable : J c.durable
  current : A c.current

def Gentle (barred : List String) : Op → Prop
  | .execute statement | .script statement => additive barred statement = true
  | _ => True

theorem held_along {p : Prog sql α} (gentle : p.All (Gentle barred))
    (keeps : ∀ f g, Grown barred f g → A f → A g) (implies : ∀ f, A f → J f) :
    Triple (semantics available) (fun _ c => J c.durable) (Held J A) p fun _ => Held J A := by
  have ran : ∀ (c : Connection) begins statement, additive barred statement = true → Held J A c →
      Held J A (c.run begins statement).2 := by
    intro c begins statement adds held
    unfold Connection.run
    cases applied : statement.apply c.current with
    | error e => exact held
    | ok g =>
      have after := keeps _ _ (additive_grown adds applied) held.current
      dsimp only
      split
      · exact ⟨held.durable,after⟩
      · exact ⟨implies g after,after⟩
  refine Triple.along gentle (fun _ _ _ _ impossible => impossible.elim) (fun _ _ _ held => held.durable) ?_
  intro op quiet c reply next held acted
  have moved : (c.exec available op).2 = next := congrArg Prod.snd acted
  subst moved
  cases op with
  | execute statement => exact ran c _ statement quiet held
  | script statement => exact ran c _ statement quiet held
  | commit => exact ⟨implies _ held.current,held.current⟩
  | _ => exact held

theorem held_ending {p : Prog sql α} (triple : Triple (semantics available) (fun _ c => J c.durable)
    (Held J A) p fun _ => Held J A) :
    Triple (semantics available) (fun _ c => J c.durable) (Held J A) p
      (ending (fun _ => Held J A) fun _ c => J c.durable) := by
  apply triple.mono
  intro result c held
  cases result with
  | ok value => exact held
  | error e => exact held.durable

-- The parts of an open that only add.
section
open Prog

theorem script_gentle {statements : List Statement} (adds : statements.all (additive barred) = true) :
    (script statements).All (Gentle barred) := by
  induction statements with
  | nil => exact All.pure ()
  | cons statement rest ih =>
    simp only [List.all_cons,Bool.and_eq_true] at adds
    exact All.bind (All.perform adds.1) fun _ => ih adds.2

theorem executescript_gentle {statements : List Statement}
    (adds : statements.all (additive barred) = true) : (executescript statements).All (Gentle barred) :=
  All.bind (All.perform trivial) fun _ => script_gentle adds

theorem addMissing_gentle {cols : List String} {table column : String} {default : Value}
    (allowed : column ∉ barred) : (addMissing cols table column default).All (Gentle barred) := by
  unfold addMissing
  split
  · exact All.pure ()
  · exact All.perform (by simpa [Gentle,additive] using allowed)

theorem onlyIf_gentle {needed : Bool} {part : Prog sql Unit} (gentle : part.All (Gentle barred)) :
    (onlyIf needed part).All (Gentle barred) := by
  cases needed with
  | true => exact gentle
  | false => exact All.pure ()

theorem loadVec_gentle : loadVec.All (Gentle barred) := by
  unfold loadVec
  refine All.settle (All.bind (All.perform trivial) fun _ => All.pure true) ?_
  intro result
  cases result <;> exact All.pure _

theorem addDecay_gentle {now : Rat} (score : "decay_score" ∉ barred) (accessed : "last_accessed_at" ∉ barred)
    (table : String) : (addDecay now table).All (Gentle barred) := by
  unfold addDecay
  refine All.bind (All.perform trivial) fun cols => ?_
  refine All.bind (addMissing_gentle score) fun _ => ?_
  split
  · exact All.pure ()
  · refine All.bind (All.perform ?_) fun _ => All.perform rfl
    simpa [Gentle,additive] using accessed

def spurned : List String := [legacyCol,"iterations"]

theorem additive_fewer {fewer : List String} (among : ∀ column ∈ fewer, column ∈ barred)
    {statement : Statement} (adds : additive barred statement = true) :
    additive fewer statement = true := by
  cases statement with
  | createTableIfAbsent name columns =>
    simp only [additive,List.all_eq_true,Bool.not_eq_true',List.contains_eq_mem,
      decide_eq_false_iff_not] at adds ⊢
    exact fun column listed among' => adds column listed (among column among')
  | addColumn table column default =>
    simp only [additive,Bool.not_eq_true',List.contains_eq_mem,decide_eq_false_iff_not] at adds ⊢
    exact fun among' => adds (among column among')
  | _ => exact adds

theorem gentle_fewer {p : Prog sql α} (all : p.All (Gentle spurned)) (among : ∀ column ∈ barred, column ∈ spurned) :
    p.All (Gentle barred) := by
  refine All.imp ?_ all
  intro op gentle
  cases op with
  | execute statement => exact additive_fewer among gentle
  | script statement => exact additive_fewer among gentle
  | _ => trivial

theorem later_gentle (vecOk : Bool) (now : Rat) :
    (applyV3Migration vecOk).All (Gentle spurned) ∧ (applyV4Migration vecOk).All (Gentle spurned) ∧
      (applyV5Migration now).All (Gentle spurned) := by
  refine ⟨?_,?_,?_⟩
  · refine All.bind (executescript_gentle (by decide)) fun _ => ?_
    refine All.bind (onlyIf_gentle (All.perform (show additive spurned _ = true by decide))) fun _ => ?_
    exact All.bind (All.perform (show additive spurned _ = true by decide)) fun _ => All.perform trivial
  · refine All.bind (executescript_gentle (by decide)) fun _ => ?_
    refine All.bind (onlyIf_gentle (All.perform (show additive spurned _ = true by decide))) fun _ => ?_
    exact All.bind (All.perform (show additive spurned _ = true by decide)) fun _ => All.perform trivial
  · refine All.bind (addDecay_gentle (by decide) (by decide) _) fun _ => ?_
    refine All.bind (addDecay_gentle (by decide) (by decide) _) fun _ => ?_
    refine All.bind (addDecay_gentle (by decide) (by decide) _) fun _ => ?_
    exact All.bind (All.perform (show additive spurned _ = true by decide)) fun _ => All.perform trivial

theorem v2_gentle : applyV2Migration.All (Gentle [legacyCol]) := by
  unfold applyV2Migration
  refine All.bind (All.perform trivial) fun cols => ?_
  refine All.bind (addMissing_gentle (by decide)) fun _ => ?_
  refine All.bind (addMissing_gentle (by decide)) fun _ => ?_
  refine All.bind (addMissing_gentle (by decide)) fun _ => ?_
  refine All.bind (executescript_gentle (by decide)) fun _ => ?_
  exact All.bind (All.perform (show additive [legacyCol] _ = true by decide)) fun _ => All.perform trivial

end

def Seen (A : File → Prop) (cols : List String) (f : File) : Prop :=
  A f ∧ cols = ((f.tables "runs").map Table.columns).getD []

theorem held_read :
    Triple (semantics available) (fun _ c => J c.durable) (Held J A) (tableInfo "runs")
      (ending (fun cols => Held J (Seen A cols)) fun _ c => J c.durable) :=
  Triple.exec (fun _ held => held.durable) fun _ held => ⟨held.durable,held.current,rfl⟩

theorem held_open {B : File → Prop} (now : Rat) (keeps : ∀ f g, Grown spurned f g → A f → A g)
    (implies : ∀ f, A f → J f)
    (rebuilds : ∀ cols, Triple (semantics available) (fun _ c => J c.durable) (Held J (Seen A cols))
      (do
        addMissing cols "runs" "error_text" .null
        addMissing cols "runs" "kind" (.text "run")
        onlyIf (legacyCol ∈ cols) rebuildRunsTable
        commit)
      (ending (fun _ => Held J B) fun _ c => J c.durable))
    (upgrades : ∀ vecOk, Triple (semantics available) (fun _ c => J c.durable) (Held J B)
      (do
        let userVer : Nat ← ask .userVersion
        onlyIf (userVer < 2) applyV2Migration
        onlyIf (userVer < 3) (applyV3Migration vecOk)
        onlyIf (userVer < 4) (applyV4Migration vecOk)
        onlyIf (userVer < 5) (applyV5Migration now)
        pure vecOk)
      (ending (fun _ => Held J B) fun _ c => J c.durable)) :
    Triple (semantics available) (fun _ c => J c.durable) (Held J A) (initDb now)
      (ending (fun _ => Held J B) fun _ c => J c.durable) := by
  have base : (executescript schema).All (Gentle spurned) := executescript_gentle (by decide)
  refine Triple.seq (held_ending (held_along loadVec_gentle keeps implies)) fun vecOk => ?_
  refine Triple.seq ?_ fun _ => upgrades vecOk
  refine Triple.seq (held_ending (held_along base keeps implies)) fun _ => ?_
  exact Triple.seq held_read fun cols => rebuilds cols

theorem held_upgrades {B : File → Prop} (vecOk : Bool) (now : Rat)
    (keeps : ∀ f g, Grown barred f g → B f → B g) (implies : ∀ f, B f → J f)
    (among : ∀ column ∈ barred, column ∈ spurned)
    (second : ∀ userVer, (∃ f, B f ∧ userVer = f.userVersion) →
      (onlyIf (userVer < 2) applyV2Migration).All (Gentle barred)) :
    Triple (semantics available) (fun _ c => J c.durable) (Held J B)
      (do
        let userVer : Nat ← ask .userVersion
        onlyIf (userVer < 2) applyV2Migration
        onlyIf (userVer < 3) (applyV3Migration vecOk)
        onlyIf (userVer < 4) (applyV4Migration vecOk)
        onlyIf (userVer < 5) (applyV5Migration now)
        pure vecOk)
      (ending (fun _ => Held J B) fun _ c => J c.durable) := by
  obtain ⟨third,fourth,fifth⟩ := later_gentle vecOk now
  have read : Triple (semantics available) (fun _ c => J c.durable) (Held J B) (ask .userVersion)
      (ending (fun userVer c => Held J B c ∧ ∃ f, B f ∧ userVer = f.userVersion) fun _ c => J c.durable) :=
    Triple.exec (fun _ held => held.durable) fun c held => ⟨held,c.current,held.current,rfl⟩
  have along : ∀ {part : Prog sql Unit}, part.All (Gentle barred) →
      Triple (semantics available) (fun _ c => J c.durable) (Held J B) part
        (ending (fun _ => Held J B) fun _ c => J c.durable) :=
    fun gentle => held_ending (held_along gentle keeps implies)
  refine Triple.seq read fun userVer => ?_
  intro c given
  obtain ⟨held,known⟩ := given
  refine Triple.seq (along (second userVer known)) (fun _ => ?_) c held
  refine Triple.seq (along (onlyIf_gentle (gentle_fewer third among))) fun _ => ?_
  refine Triple.seq (along (onlyIf_gentle (gentle_fewer fourth among))) fun _ => ?_
  refine Triple.seq (along (onlyIf_gentle (gentle_fewer fifth among))) fun _ => ?_
  exact Triple.pure fun _ reached => reached

theorem held_columns {cols : List String} {rest : Prog sql Unit}
    {Q : Except Error Unit → Connection → Prop} (keeps : ∀ f g, Grown barred f g → A f → A g)
    (implies : ∀ f, A f → J f) (error : "error_text" ∉ barred) (kind : "kind" ∉ barred)
    (failed : ∀ e c, J c.durable → Q (.error e) c)
    (follows : Triple (semantics available) (fun _ c => J c.durable) (Held J A) rest Q) :
    Triple (semantics available) (fun _ c => J c.durable) (Held J A)
      (do
        addMissing cols "runs" "error_text" .null
        addMissing cols "runs" "kind" (.text "run")
        rest) Q := by
  have along : ∀ column default, column ∉ barred →
      Triple (semantics available) (fun _ c => J c.durable) (Held J A)
        (addMissing cols "runs" column default) (ending (fun _ => Held J A) fun e c => Q (.error e) c) :=
    fun column default allowed =>
      (held_ending (held_along (addMissing_gentle allowed) keeps implies)).relax
        (fun _ _ held => held) fun e c held => failed e c held
  refine Triple.bind (along _ _ error) fun _ => ?_
  exact Triple.bind (along _ _ kind) fun _ => follows

theorem Grown.fewer (grown : Grown barred f g) {fewer : List String}
    (among : ∀ column ∈ fewer, column ∈ barred) : Grown fewer f g := by
  refine ⟨?_,?_,grown.version⟩
  · intro name t found
    obtain ⟨t',found',empty,same⟩ := grown.kept name t found
    exact ⟨t',found',empty,fun column there => same column (among column there)⟩
  · intro name t' absent found
    obtain ⟨empty,lacks⟩ := grown.new name t' absent found
    exact ⟨empty,fun column there => lacks column (among column there)⟩

theorem jammed_grown (grown : Grown [legacyCol] f g) (jammed : Jammed f) : Jammed g := by
  obtain ⟨⟨t,found,legacy⟩,spare⟩ := jammed
  obtain ⟨t',found',_,same⟩ := grown.kept _ t found
  refine ⟨⟨t',found',(same legacyCol List.mem_cons_self).mpr legacy⟩,?_⟩
  obtain ⟨new,there⟩ := Option.ne_none_iff_exists'.mp spare
  obtain ⟨_,there',_⟩ := grown.kept _ new there
  simp [there']

theorem jammed_open (available : Bool) (now : Rat) :
    Triple (semantics available) (fun _ c => Jammed c.durable) (Held Jammed Jammed) (initDb now)
      (ending (fun _ _ => False) fun _ c => Jammed c.durable) := by
  have stuck : Triple (semantics available) (fun _ c => Jammed c.durable) (Held Jammed Jammed)
      rebuildRunsTable (ending (fun _ _ => False) fun _ c => Jammed c.durable) := by
    have committed : Triple (semantics available) (fun _ c => Jammed c.durable) (Held Jammed Jammed)
        (ask .commit) (ending (fun _ => Held Jammed Jammed) fun _ c => Jammed c.durable) :=
      Triple.exec (fun _ held => held.durable) fun _ held => ⟨held.current,held.current⟩
    have clashes : Triple (semantics available) (fun _ c => Jammed c.durable) (Held Jammed Jammed)
        (ask (.script (.createTable "runs_new" runColumns)))
        (ending (fun _ _ => False) fun _ c => Jammed c.durable) := by
      apply Triple.exec (fun _ held => held.durable)
      intro c held
      obtain ⟨t,there⟩ := Option.ne_none_iff_exists'.mp held.current.2
      have raised : c.exec available (.script (.createTable "runs_new" runColumns)) =
          (.error (.tableExists "runs_new"),c) := by
        simp [Connection.exec,Connection.run,Statement.apply,there]
      rw [raised]
      exact held.durable
    refine Triple.seq committed fun _ => ?_
    exact Triple.seq clashes fun _ c impossible => impossible.elim
  refine Triple.relax (fun _ _ held => held.current) (fun _ _ jammed => jammed)
    (held_open (J:=Jammed) (A:=Jammed) (B:=fun _ => False) now
      (fun f g grown => jammed_grown (grown.fewer (by decide))) (fun _ jammed => jammed) ?_ ?_)
  · intro cols c held
    obtain ⟨⟨⟨t,found,legacy⟩,spare⟩,seen⟩ := held.current
    have listed : decide (legacyCol ∈ cols) = true := by
      simpa [seen,found] using legacy
    have follows : Triple (semantics available) (fun _ c => Jammed c.durable) (Held Jammed Jammed)
        (do
          onlyIf (legacyCol ∈ cols) rebuildRunsTable
          commit)
        (ending (fun _ => Held Jammed fun _ => False) fun _ c => Jammed c.durable) := by
      rw [listed]
      exact Triple.seq stuck fun _ c impossible => impossible.elim
    exact held_columns (fun f g grown => jammed_grown grown) (fun _ jammed => jammed) (by decide) (by decide)
      (fun _ _ jammed => jammed) follows c ⟨held.durable,held.current.1⟩
  · intro vecOk c held
    exact held.current.elim

theorem emptied_grown (grown : Grown [legacyCol] f g) (emptied : Emptied f) : Emptied g := by
  intro t' found
  cases before : f.tables "runs" with
  | none =>
    obtain ⟨empty,lacks⟩ := grown.new _ t' before found
    exact ⟨empty,lacks legacyCol List.mem_cons_self⟩
  | some t =>
    obtain ⟨empty,lacks⟩ := emptied t before
    obtain ⟨same,found',empties,columns⟩ := grown.kept _ t before
    rw [found] at found'
    cases found'
    exact ⟨empties empty,fun listed => lacks ((columns legacyCol List.mem_cons_self).mp listed)⟩

theorem emptied_open (now : Rat) :
    Triple (semantics available) (fun _ c => Emptied c.durable) (Held Emptied Emptied) (initDb now)
      (ending (fun _ => Held Emptied Emptied) fun _ c => Emptied c.durable) := by
  have keeps : ∀ f g, Grown [legacyCol] f g → Emptied f → Emptied g := fun f g => emptied_grown
  refine held_open now (fun f g grown => keeps f g (grown.fewer (by decide))) (fun _ held => held) ?_ ?_
  · intro cols c held
    have unlisted : decide (legacyCol ∈ cols) = false := by
      obtain ⟨emptied,seen⟩ := held.current
      cases found : c.current.tables "runs" with
      | none => simp [seen,found]
      | some t => simpa [seen,found] using (emptied t found).2
    have commits : commit.All (Gentle [legacyCol]) := Prog.All.perform trivial
    have follows : Triple (semantics available) (fun _ c => Emptied c.durable) (Held Emptied Emptied)
        (do
          onlyIf (legacyCol ∈ cols) rebuildRunsTable
          commit)
        (ending (fun _ => Held Emptied Emptied) fun _ c => Emptied c.durable) := by
      rw [unlisted]
      exact held_ending (held_along (Prog.All.bind (Prog.All.pure ()) fun _ => commits) keeps
        fun _ held => held)
    exact held_columns keeps (fun _ held => held) (by decide) (by decide) (fun _ _ held => held) follows c
      ⟨held.durable,held.current.1⟩
  · intro vecOk
    apply held_upgrades vecOk now keeps (fun _ held => held) (by decide)
    intro userVer _
    exact onlyIf_gentle v2_gentle

-- Past version 2 with the legacy column: its rebuild loses columns of version 2,
-- which nothing adds again.
structure Narrow (f : File) : Prop where
  version : 2 ≤ f.userVersion
  runs : ∀ t, f.tables "runs" = some t → legacyCol ∈ t.columns ∨ "iterations" ∉ t.columns

theorem narrow_grown (grown : Grown spurned f g) (narrow : Narrow f) : Narrow g := by
  constructor
  · have before := narrow.version
    rcases grown.version with same | late
    · omega
    · exact late
  · intro t' found
    cases before : f.tables "runs" with
    | none => exact .inr ((grown.new _ t' before found).2 "iterations" (by decide))
    | some t =>
      obtain ⟨same,found',_,columns⟩ := grown.kept _ t before
      rw [found] at found'
      cases found'
      rw [columns legacyCol (by decide),columns "iterations" (by decide)]
      exact narrow.runs t before

theorem plain_grown (grown : Grown spurned f g) (plain : Plain f) : Plain g := by
  intro t' found
  cases before : f.tables "runs" with
  | none => exact (grown.new _ t' before found).2 legacyCol (by decide)
  | some t =>
    obtain ⟨same,found',_,columns⟩ := grown.kept _ t before
    rw [found] at found'
    cases found'
    rw [columns legacyCol (by decide)]
    exact plain t before

theorem held_scripted {statement : Statement} (implies : ∀ f, B f → J f)
    (moves : ∀ f g, A f → statement.apply f = .ok g → B g) :
    Triple (semantics available) (fun _ c => J c.durable) (Held J A) (ask (.script statement))
      (ending (fun _ => Held J B) fun _ c => J c.durable) := by
  apply Triple.exec (fun _ held => held.durable)
  intro c held
  change ending (S:=sql) (fun _ => Held J B) (fun _ c => J c.durable) (c.run false statement).1
    (c.run false statement).2
  unfold Connection.run
  cases applied : statement.apply c.current with
  | error e => exact held.durable
  | ok g =>
    have after := moves _ g held.current applied
    dsimp only [ending]
    split
    · exact ⟨held.durable,after⟩
    · exact ⟨implies g after,after⟩

structure Copying (f : File) : Prop where
  narrow : Narrow f
  spare : ∀ t, f.tables "runs_new" = some t → t.columns = runColumns

theorem narrow_other {new : Option Table} (narrow : Narrow f) (other : name ≠ "runs") :
    Narrow (f.setTable name new) := by
  refine ⟨narrow.version,?_⟩
  intro t found
  rw [setTable_other (Ne.symm other)] at found
  exact narrow.runs t found

theorem narrow_rebuild : Triple (semantics available) (fun _ c => Narrow c.durable) (Held Narrow Narrow)
    rebuildRunsTable (ending (fun _ => Held Narrow fun f => Narrow f ∧ Plain f) fun _ c => Narrow c.durable) := by
  have committed : Triple (semantics available) (fun _ c => Narrow c.durable) (Held Narrow Narrow)
      (ask .commit) (ending (fun _ => Held Narrow Narrow) fun _ c => Narrow c.durable) :=
    Triple.exec (fun _ held => held.durable) fun _ held => ⟨held.current,held.current⟩
  refine Triple.seq committed fun _ => ?_
  refine Triple.seq (held_scripted (B:=Copying) (fun _ copying => copying.narrow) ?_) fun _ => ?_
  · intro f g narrow applied
    simp only [Statement.apply] at applied
    split at applied
    · cases applied
    · cases applied
      refine ⟨narrow_other narrow (by decide),?_⟩
      intro t found
      rw [setTable_same] at found
      cases found
      rfl
  refine Triple.seq (held_scripted (B:=Copying) (fun _ copying => copying.narrow) ?_) fun _ => ?_
  · intro f g copying applied
    simp only [Statement.apply] at applied
    split at applied
    · rename_i into t found source
      split at applied
      · cases applied
        refine ⟨narrow_other copying.narrow (by decide),?_⟩
        intro t' found'
        rw [setTable_same] at found'
        cases found'
        exact copying.spare into found
      · cases applied
    · cases applied
    · cases applied
  refine Triple.seq (held_scripted (B:=Copying) (fun _ copying => copying.narrow) ?_) fun _ => ?_
  · intro f g copying applied
    simp only [Statement.apply] at applied
    split at applied
    · cases applied
      refine ⟨⟨copying.narrow.version,?_⟩,?_⟩
      · intro t found
        simp [File.setTable] at found
      · intro t found
        apply copying.spare t
        simpa [File.setTable] using found
    · cases applied
  refine Triple.seq (held_scripted (B:=fun f => Narrow f ∧ Plain f) (fun _ both => both.1) ?_) fun _ => ?_
  · intro f g copying applied
    simp only [Statement.apply] at applied
    split at applied
    · cases applied
    · cases applied
    · rename_i t found free
      cases applied
      have columns := copying.spare t found
      refine ⟨⟨copying.narrow.version,?_⟩,?_⟩
      · intro t' found'
        obtain rfl : t' = t := by simpa [File.setTable] using found'.symm
        rw [columns]
        exact .inr (by decide)
      · intro t' found'
        obtain rfl : t' = t := by simpa [File.setTable] using found'.symm
        rw [columns]
        decide
  have index : (script [.createIndexIfAbsent false "idx_runs_started" "runs" ["started_at"]]).All
      (Gentle spurned) := script_gentle (by decide)
  exact held_ending (held_along index
    (fun f g grown both => ⟨narrow_grown grown both.1,plain_grown grown both.2⟩) fun _ both => both.1)

theorem narrow_open (now : Rat) :
    Triple (semantics available) (fun _ c => Narrow c.durable) (Held Narrow Narrow) (initDb now)
      (ending (fun _ => Held Narrow fun f => Narrow f ∧ Plain f) fun _ c => Narrow c.durable) := by
  have keeps : ∀ f g, Grown spurned f g → Narrow f ∧ Plain f → Narrow g ∧ Plain g :=
    fun f g grown both => ⟨narrow_grown grown both.1,plain_grown grown both.2⟩
  apply held_open now (fun f g => narrow_grown) (fun _ held => held)
  · intro cols c held
    have commits : commit.All (Gentle spurned) := Prog.All.perform trivial
    have ends : Triple (semantics available) (fun _ c => Narrow c.durable)
        (Held Narrow fun f => Narrow f ∧ Plain f) commit
        (ending (fun _ => Held Narrow fun f => Narrow f ∧ Plain f) fun _ c => Narrow c.durable) :=
      held_ending (held_along commits keeps fun _ both => both.1)
    have skips : Triple (semantics available) (fun _ c => Narrow c.durable)
        (Held Narrow fun f => Narrow f ∧ Plain f) (onlyIf false rebuildRunsTable)
        (ending (fun _ => Held Narrow fun f => Narrow f ∧ Plain f) fun _ c => Narrow c.durable) :=
      Triple.pure fun _ both => both
    cases legacy : decide (legacyCol ∈ cols) with
    | true =>
      refine held_columns (fun f g => narrow_grown) (fun _ held => held) (by decide) (by decide)
        (fun _ _ held => held) ?_ c ⟨held.durable,held.current.1⟩
      exact Triple.seq narrow_rebuild fun _ => ends
    | false =>
      have plain : Plain c.current := by
        intro t found listed
        have seen := held.current.2
        simp only [found,Option.map_some,Option.getD_some] at seen
        rw [← seen] at listed
        exact of_decide_eq_false legacy listed
      refine held_columns keeps (fun _ both => both.1) (by decide) (by decide)
        (fun _ _ held => held) ?_ c ⟨held.durable,held.current.1,plain⟩
      exact Triple.seq skips fun _ => ends
  · intro vecOk
    apply held_upgrades vecOk now keeps (fun _ both => both.1) (fun _ among => among)
    intro userVer given
    obtain ⟨f,⟨narrow,_⟩,rfl⟩ := given
    have past : decide (f.userVersion < 2) = false := by
      have late := narrow.version
      exact decide_eq_false (by omega)
    rw [past]
    exact Prog.All.pure ()

end Migration
