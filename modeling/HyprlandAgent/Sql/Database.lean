import Mathlib.Data.List.Basic
import Mathlib.Data.Rat.Defs
import Mathlib.Logic.Function.Basic

-- Database files and the statements that change them, each as one atomic step.
-- Types and constraints of columns are left out, except for unique indexes.
namespace Sql

inductive Value where
  | null
  | int (n : Int)
  | real (q : Rat)
  | text (s : String)
  deriving DecidableEq, Repr

-- A row by column; it says nothing about the columns that its table lacks.
abbrev Row := String → Value

structure Table where
  columns : List String
  rows : List Row

structure File where
  tables : String → Option Table := fun _ => none
  indexes : List (String × String) := []
  userVersion : Nat := 0

inductive Error where
  | noSuchTable (name : String)
  | tableExists (name : String)
  | noSuchColumn (columns : List String)
  | duplicateColumn (name : String)
  | notUnique (columns : List String)
  | notLoaded
  deriving DecidableEq, Repr

inductive Statement where
  | pragma (text : String)
  | createTable (name : String) (columns : List String)
  | createTableIfAbsent (name : String) (columns : List String)
  | createIndexIfAbsent (unique : Bool) (name table : String) (columns : List String)
  | addColumn (table column : String) (default : Value)
  | fillNull (table column : String) (value : Value)
  | insertSelect (target source : String) (columns : List String) (coalesce : List (String × Value))
  | dropTable (name : String)
  | renameTable (name next : String)
  | setUserVersion (version : Nat)
  deriving DecidableEq, Repr

-- The statements before which the driver opens a transaction of its own accord.
def Statement.changesRows : Statement → Bool
  | .fillNull _ _ _ | .insertSelect _ _ _ _ => true
  | _ => false

namespace Table

-- One column of every row computed anew; a column that was not there is added.
def rewrite (t : Table) (column : String) (value : Row → Value) : Table where
  columns := if column ∈ t.columns then t.columns else t.columns ++ [column]
  rows := t.rows.map fun row => Function.update row column (value row)

def Distinct (t : Table) (columns : List String) : Prop :=
  ((t.rows.map fun row => columns.map row).filter fun key => !key.contains .null).Nodup

instance (t : Table) (columns : List String) : Decidable (t.Distinct columns) :=
  inferInstanceAs (Decidable (List.Nodup _))

def select (t : Table) (columns : List String) (coalesce : List (String × Value)) : List Row :=
  t.rows.map fun row column =>
    if column ∈ columns then
      if row column = .null then (coalesce.lookup column).getD .null else row column
    else .null

end Table

namespace File
variable (f : File)

def setTable (name : String) (t : Option Table) : File :=
  { f with tables := Function.update f.tables name t }

def Has (name : String) (columns : List String) : Prop :=
  ∃ t, f.tables name = some t ∧ ∀ column ∈ columns, column ∈ t.columns

end File

def Statement.apply (f : File) : Statement → Except Error File
  | .pragma _ => .ok f
  | .createTable name columns =>
    match f.tables name with
    | some _ => .error (.tableExists name)
    | none => .ok (f.setTable name (some ⟨columns,[]⟩))
  | .createTableIfAbsent name columns =>
    match f.tables name with
    | some _ => .ok f
    | none => .ok (f.setTable name (some ⟨columns,[]⟩))
  | .createIndexIfAbsent unique name table columns =>
    if f.indexes.any fun index => index.1 == name then .ok f
    else
      match f.tables table with
      | none => .error (.noSuchTable table)
      | some t =>
        if columns.all fun column => t.columns.contains column then
          if unique ∧ ¬t.Distinct columns then .error (.notUnique columns)
          else .ok { f with indexes := f.indexes ++ [(name,table)] }
        else .error (.noSuchColumn columns)
  | .addColumn table column default =>
    match f.tables table with
    | none => .error (.noSuchTable table)
    | some t =>
      if column ∈ t.columns then .error (.duplicateColumn column)
      else .ok (f.setTable table (some (t.rewrite column fun _ => default)))
  | .fillNull table column value =>
    match f.tables table with
    | none => .error (.noSuchTable table)
    | some t =>
      if column ∈ t.columns then
        .ok (f.setTable table (some (t.rewrite column fun row =>
          if row column = .null then value else row column)))
      else .error (.noSuchColumn [column])
  | .insertSelect target source columns coalesce =>
    match f.tables target,f.tables source with
    | some into,some t =>
      if columns.all fun column => into.columns.contains column && t.columns.contains column then
        .ok (f.setTable target (some { into with rows := into.rows ++ t.select columns coalesce }))
      else .error (.noSuchColumn columns)
    | none,_ => .error (.noSuchTable target)
    | _,none => .error (.noSuchTable source)
  | .dropTable name =>
    match f.tables name with
    | some _ => .ok { f.setTable name none with indexes := f.indexes.filter fun index => index.2 != name }
    | none => .error (.noSuchTable name)
  | .renameTable name next =>
    match f.tables name,f.tables next with
    | none,_ => .error (.noSuchTable name)
    | _,some _ => .error (.tableExists next)
    | some t,none => .ok
      { (f.setTable name none).setTable next (some t) with
        indexes := f.indexes.map fun index => if index.2 = name then (index.1,next) else index }
  | .setUserVersion version => .ok { f with userVersion := version }

variable {f g : File}

@[simp] theorem setTable_same (name : String) (t : Option Table) :
    (f.setTable name t).tables name = t := by
  simp [File.setTable]

theorem setTable_other {name other : String} (different : other ≠ name) (t : Option Table) :
    (f.setTable name t).tables other = f.tables other := by
  simp [File.setTable,different]

@[simp] theorem setTable_userVersion (name : String) (t : Option Table) :
    (f.setTable name t).userVersion = f.userVersion := rfl

theorem File.Has.mono {name : String} {columns fewer : List String} (has : f.Has name columns)
    (among : ∀ column ∈ fewer, column ∈ columns) : f.Has name fewer := by
  obtain ⟨t,found,all⟩ := has
  exact ⟨t,found,fun column wanted => all column (among column wanted)⟩

theorem File.Has.append {name : String} {columns more : List String} (has : f.Has name columns)
    (too : f.Has name more) : f.Has name (columns ++ more) := by
  obtain ⟨t,found,all⟩ := has
  obtain ⟨_,same,also⟩ := too
  rw [found] at same
  cases same
  exact ⟨t,found,fun column among => (List.mem_append.mp among).elim (all column) (also column)⟩

theorem File.Has.columns {name : String} {columns : List String} {t : Table} (has : f.Has name columns)
    (found : f.tables name = some t) : ∀ column ∈ columns, column ∈ t.columns := by
  obtain ⟨_,there,all⟩ := has
  rw [found] at there
  cases there
  exact all

theorem mem_rewrite {t : Table} {column : String} {value : Row → Value} (name : String) :
    name ∈ (t.rewrite column value).columns ↔ name ∈ t.columns ∨ name = column := by
  unfold Table.rewrite
  split
  · rename_i there
    refine ⟨.inl,?_⟩
    intro either
    rcases either with kept | rfl
    · exact kept
    · exact there
  · simp

end Sql
