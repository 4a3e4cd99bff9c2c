import HyprlandAgent.Schemas

-- The YAML files of the configuration directory, as the learning code reads and
-- rewrites them.
namespace HyprlandAgent.Learning

inductive Failure where
  | keyError (text : String)
  | valueError (text : String)
  | attributeError
  | typeError
  | yamlError

-- `yaml.dump` and `yaml.safe_load`: what was dumped comes back, up to key order.
structure Yaml where
  Text : Type
  safeLoad : Text → Option Json
  dump : Json → Text
  load_dump : ∀ value, ∃ loaded, safeLoad (dump value) = some loaded ∧ loaded.sortKeys = value.sortKeys

-- Equality of Python values, for which the order of the keys is no matter.
def alike (a b : Json) : Bool := a.sortKeys == b.sortKeys

def get (fields : List (String × Json)) (key : String) : Json := (fields.lookup key).getD (.arr [])

-- What `extend` and `for` go over.
def items : Json → Option (List Json)
  | .arr values => some values
  | .str text => some (text.toList.map fun char => .str (String.singleton char))
  | .obj fields => some (fields.map fun field => .str field.1)
  | _ => none

theorem sortItems_eq (values : List Json) : sortItems values = values.map Json.sortKeys := by
  induction values with
  | nil => rfl
  | cons value rest ih => simp [sortItems,ih]

theorem length_sortFields (fields : List (String × Json)) :
    (sortFields fields).length = fields.length := by
  induction fields with
  | nil => rfl
  | cons field rest ih => simp [sortFields,ih]

theorem one_list {loaded : Json} {key : String} {values : List Json}
    (same : loaded.sortKeys = (Json.obj [(key,.arr values)]).sortKeys) :
    ∃ others, loaded = .obj [(key,.arr others)] ∧
      others.map Json.sortKeys = values.map Json.sortKeys := by
  cases loaded with
  | obj fields =>
    simp only [Json.sortKeys,Json.obj.injEq] at same
    have one : fields.length = 1 := by
      have counted := congrArg List.length same
      simpa [length_sortFields] using counted
    obtain ⟨⟨name,value⟩,rfl⟩ := List.length_eq_one_iff.mp one
    have alike : name = key ∧ value.sortKeys = (Json.arr values).sortKeys := by
      simpa [sortFields] using same
    obtain ⟨rfl,alike⟩ := alike
    cases value with
    | arr others =>
      simp only [Json.sortKeys,sortItems_eq,Json.arr.injEq] at alike
      exact ⟨others,rfl,alike⟩
    | _ => simp [Json.sortKeys] at alike
  | _ => simp [Json.sortKeys] at same

namespace Yaml
variable (yaml : Yaml)

-- `yaml.safe_load(..) or {}`, of a file that may be missing, and then `.get`.
def mapping : Option yaml.Text → Except Failure (List (String × Json))
  | none => .ok []
  | some text =>
    match yaml.safeLoad text with
    | none => .error .yamlError
    | some value =>
      if value.truthy then
        match value with
        | .obj fields => .ok fields
        | _ => .error .attributeError
      else .ok []

-- The list under a key of a file, its values in key order; nothing, where the file
-- cannot be read.
def entries (key : String) (file : Option yaml.Text) : List Json :=
  match yaml.mapping file with
  | .ok fields =>
    match get fields key with
    | .arr values => values.map Json.sortKeys
    | _ => []
  | .error _ => []

def Readable (key : String) (file : Option yaml.Text) : Prop :=
  ∃ fields values, yaml.mapping file = .ok fields ∧ get fields key = .arr values

theorem mapping_dump (key : String) (values : List Json) :
    ∃ others, yaml.mapping (some (yaml.dump (.obj [(key,.arr values)]))) = .ok [(key,.arr others)] ∧
      others.map Json.sortKeys = values.map Json.sortKeys := by
  obtain ⟨loaded,read,alike⟩ := yaml.load_dump (.obj [(key,.arr values)])
  obtain ⟨others,rfl,same⟩ := one_list alike
  refine ⟨others,?_,same⟩
  simp [mapping,read,Json.truthy]

theorem readable_dump (key : String) (values : List Json) :
    yaml.Readable key (some (yaml.dump (.obj [(key,.arr values)]))) := by
  obtain ⟨others,read,_⟩ := yaml.mapping_dump key values
  exact ⟨_,others,read,by simp [get]⟩

variable {yaml}

@[simp] theorem entries_dump (key : String) (values : List Json) :
    yaml.entries key (some (yaml.dump (.obj [(key,.arr values)]))) = values.map Json.sortKeys := by
  obtain ⟨others,read,same⟩ := yaml.mapping_dump key values
  simp [entries,read,get,same]

theorem entries_of {key : String} {file : Option yaml.Text} {fields : List (String × Json)}
    {values : List Json} (read : yaml.mapping file = .ok fields) (found : get fields key = .arr values) :
    yaml.entries key file = values.map Json.sortKeys := by
  simp [entries,read,found]

end Yaml
end HyprlandAgent.Learning
