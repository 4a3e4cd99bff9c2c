import Mathlib.Data.List.AList
import Mathlib.Data.List.Sort
import Mathlib.Data.Rat.Defs

-- The data the agent passes around: JSON values, windows, actions and their
-- results, and the records of a run.
namespace HyprlandAgent

-- Times and durations, the floats of the source.
abbrev Seconds := Rat
abbrev RunId := String
abbrev Bytes := List UInt8

-- `1` and `1.0` are one number and two JSON texts, so they stay apart here.
inductive Json where
  | null
  | bool (value : Bool)
  | int (value : Int)
  | float (value : Rat)
  | str (value : String)
  | arr (items : List Json)
  | obj (fields : List (String × Json))
  deriving Repr, Inhabited

mutual
def Json.same : Json → Json → Bool
  | .null,.null => true
  | .bool a,.bool b => a == b
  | .int a,.int b => a == b
  | .float a,.float b => a == b
  | .str a,.str b => a == b
  | .arr as,.arr bs => sameItems as bs
  | .obj as,.obj bs => sameFields as bs
  | _,_ => false
def sameItems : List Json → List Json → Bool
  | [],[] => true
  | a :: as,b :: bs => a.same b && sameItems as bs
  | _,_ => false
def sameFields : List (String × Json) → List (String × Json) → Bool
  | [],[] => true
  | (key,a) :: as,(name,b) :: bs => key == name && a.same b && sameFields as bs
  | _,_ => false
end

instance : BEq Json := ⟨Json.same⟩

mutual
theorem Json.same_refl : (value : Json) → value.same value = true
  | .null => rfl
  | .bool a => beq_self_eq_true a
  | .int a => beq_self_eq_true a
  | .float a => beq_self_eq_true a
  | .str a => beq_self_eq_true a
  | .arr as => sameItems_refl as
  | .obj as => sameFields_refl as
theorem sameItems_refl : (items : List Json) → sameItems items items = true
  | [] => rfl
  | a :: as => by simp [sameItems,a.same_refl,sameItems_refl as]
theorem sameFields_refl : (fields : List (String × Json)) → sameFields fields fields = true
  | [] => rfl
  | (key,a) :: as => by simp [sameFields,a.same_refl,sameFields_refl as]
end

mutual
theorem Json.eq_of_same : (a b : Json) → a.same b = true → a = b
  | .null,.null,_ => rfl
  | .bool _,.bool _,same => congrArg Json.bool (eq_of_beq same)
  | .int _,.int _,same => congrArg Json.int (eq_of_beq same)
  | .float _,.float _,same => congrArg Json.float (eq_of_beq same)
  | .str _,.str _,same => congrArg Json.str (eq_of_beq same)
  | .arr as,.arr bs,same => congrArg Json.arr (eq_of_sameItems as bs same)
  | .obj as,.obj bs,same => congrArg Json.obj (eq_of_sameFields as bs same)
theorem eq_of_sameItems : (as bs : List Json) → sameItems as bs = true → as = bs
  | [],[],_ => rfl
  | a :: as,b :: bs,same => by
    simp only [sameItems,Bool.and_eq_true] at same
    rw [a.eq_of_same b same.1,eq_of_sameItems as bs same.2]
theorem eq_of_sameFields : (as bs : List (String × Json)) → sameFields as bs = true → as = bs
  | [],[],_ => rfl
  | (key,a) :: as,(name,b) :: bs,same => by
    simp only [sameFields,Bool.and_eq_true,beq_iff_eq] at same
    rw [same.1.1,a.eq_of_same b same.1.2,eq_of_sameFields as bs same.2]
end

instance : LawfulBEq Json where
  rfl := Json.same_refl _
  eq_of_beq := fun same => Json.eq_of_same _ _ same

-- A Python dict with string keys. Key order is never looked at.
abbrev Dict := AList fun _ : String => Json

def dict (fields : List (String × Json)) : Dict :=
  fields.foldl (fun d field => d.insert field.1 field.2) ∅

-- `{**base, **other}`
def merged (base other : Dict) : Dict := other ∪ base

def Dict.toJson (d : Dict) : Json := .obj (d.entries.map fun entry => (entry.1,entry.2))

-- `bool(value)`
def Json.truthy : Json → Bool
  | .null => false
  | .bool value => value
  | .int value => value != 0
  | .float value => value != 0
  | .str value => value != ""
  | .arr items => !items.isEmpty
  | .obj fields => !fields.isEmpty

-- What `json.dumps(_, sort_keys=True)` depends on: two values have one text
-- exactly when they agree after every object is put in key order.
mutual
def Json.sortKeys : Json → Json
  | .arr items => .arr (sortItems items)
  | .obj fields => .obj ((sortFields fields).insertionSort fun a b => a.1 ≤ b.1)
  | value => value
def sortItems : List Json → List Json
  | [] => []
  | item :: rest => item.sortKeys :: sortItems rest
def sortFields : List (String × Json) → List (String × Json)
  | [] => []
  | (key,value) :: rest => (key,value.sortKeys) :: sortFields rest
end

structure Window where
  address : String
  title : String
  appClass : String
  workspaceId : Int
  at_ : Int × Int
  size : Int × Int
  floating : Bool
  hidden : Bool
  pid : Int
  monitor : Int
  deriving DecidableEq, Repr

def Window.modelDump (w : Window) : Json :=
  .obj [("address",.str w.address),("title",.str w.title),("app_class",.str w.appClass),
    ("workspace_id",.int w.workspaceId),("at",.arr [.int w.at_.1,.int w.at_.2]),
    ("size",.arr [.int w.size.1,.int w.size.2]),("floating",.bool w.floating),
    ("hidden",.bool w.hidden),("pid",.int w.pid),("monitor",.int w.monitor)]

structure Monitor where
  width : Nat
  height : Nat
  deriving DecidableEq, Repr

inductive ActionKind where
  | screenshot | terminalCommand | typeText | key | mouseMove | click | scroll
  | focusWindow | dispatch | readFile | writeFile | listDir
  | notify | updateStatus | speak | clipboardRead | clipboardWrite
  deriving DecidableEq, Repr

def ActionKind.value : ActionKind → String
  | .screenshot => "screenshot"
  | .terminalCommand => "terminal_command"
  | .typeText => "type_text"
  | .key => "key"
  | .mouseMove => "mouse_move"
  | .click => "click"
  | .scroll => "scroll"
  | .focusWindow => "focus_window"
  | .dispatch => "dispatch"
  | .readFile => "read_file"
  | .writeFile => "write_file"
  | .listDir => "list_dir"
  | .notify => "notify"
  | .updateStatus => "update_status"
  | .speak => "speak"
  | .clipboardRead => "clipboard_read"
  | .clipboardWrite => "clipboard_write"

structure Action where
  kind : ActionKind
  params : Dict

def Action.modelDump (action : Action) : Json :=
  .obj [("kind",.str action.kind.value),("params",action.params.toJson)]

structure ScreenState where
  screenshotPng : Bytes
  width : Nat
  height : Nat
  activeWindow : Option Window
  windows : List Window

structure ActionResult where
  kind : String
  dispatchResponse : Option String := none
  stdout : Option String := none
  stderr : Option String := none
  returncode : Option Int := none
  blocked : Option String := none
  rejected : Option String := none
  truncated : Option Bool := none
  preHash : Option String := none
  postHash : Option String := none

def ActionResult.optional (result : ActionResult) : List (String × Option Json) :=
  [("dispatch_response",result.dispatchResponse.map .str),("stdout",result.stdout.map .str),
    ("stderr",result.stderr.map .str),("returncode",result.returncode.map .int),
    ("blocked",result.blocked.map .str),("rejected",result.rejected.map .str),
    ("truncated",result.truncated.map .bool),("pre_hash",result.preHash.map .str),
    ("post_hash",result.postHash.map .str)]

def resultNames : List String :=
  ["dispatch_response","stdout","stderr","returncode","blocked","rejected","truncated","pre_hash",
    "post_hash"]

-- `{k: v for k, v in result.model_dump().items() if v is not None}`
def ActionResult.data (result : ActionResult) : Dict :=
  dict (("kind",.str result.kind) ::
    result.optional.filterMap fun field => field.2.map fun value => (field.1,value))

inductive RunStatus where
  | running | completed | errored | aborted
  deriving DecidableEq, Repr

def RunStatus.value : RunStatus → String
  | .running => "running"
  | .completed => "completed"
  | .errored => "errored"
  | .aborted => "aborted"

def RunStatus.terminal (status : RunStatus) : Bool := status != .running

inductive RunKind where
  | run | plan
  deriving DecidableEq, Repr

def RunKind.value : RunKind → String
  | .run => "run"
  | .plan => "plan"

-- `str.capitalize` of the two values.
def RunKind.capitalized : RunKind → String
  | .run => "Run"
  | .plan => "Plan"

structure RunEventRecord where
  seq : Nat
  ts : Seconds
  kind : String
  payload : Dict

structure RunSummary where
  runId : RunId
  kind : RunKind
  task : String
  brain : String
  status : RunStatus
  startedAt : Seconds
  endedAt : Option Seconds := none
  error : Option String := none
  deriving DecidableEq, Repr

theorem lookup_dict_snoc (fields : List (String × Json)) (key : String) (value : Json)
    (name : String) : (dict (fields ++ [(key,value)])).lookup name =
      if name = key then some value else (dict fields).lookup name := by
  rw [dict,List.foldl_append]
  by_cases same : name = key
  · subst same
    simp
  · simp [dict,same,AList.lookup_insert_ne]

theorem lookup_insert_absent {more : List (String × Json)} {name : String}
    (absent : ∀ field ∈ more, field.1 ≠ name) (d : Dict) :
    (more.foldl (fun d field => d.insert field.1 field.2) d).lookup name = d.lookup name := by
  induction more generalizing d with
  | nil => rfl
  | cons field rest ih =>
    rw [List.foldl_cons,ih (fun other inside => absent other (List.mem_cons_of_mem _ inside))]
    exact AList.lookup_insert_ne (absent field List.mem_cons_self).symm

theorem optional_present {result : ActionResult} {field : String × Json}
    (present : field ∈ result.optional.filterMap fun field => field.2.map fun value => (field.1,value)) :
    field.1 ∈ resultNames := by
  obtain ⟨listed,inside,same⟩ := List.mem_filterMap.mp present
  obtain ⟨_,_,rfl⟩ := Option.map_eq_some_iff.mp same
  have named : listed.1 ∈ result.optional.map Prod.fst := List.mem_map_of_mem inside
  exact named

theorem lookup_data {result : ActionResult} {name : String}
    (free : name ∉ resultNames) :
    result.data.lookup name = if name = "kind" then some (.str result.kind) else none := by
  unfold ActionResult.data dict
  rw [List.foldl_cons,lookup_insert_absent]
  · by_cases same : name = "kind"
    · subst same
      rfl
    · rw [if_neg same]
      exact (AList.lookup_insert_ne same).trans (AList.lookup_empty _)
  · intro field inside named
    exact free (named ▸ optional_present inside)

theorem lookup_merged (base other : Dict) (name : String) :
    (merged base other).lookup name = (other.lookup name).or (base.lookup name) := by
  unfold merged
  by_cases present : name ∈ other
  · obtain ⟨value,found⟩ := Option.isSome_iff_exists.mp (AList.lookup_isSome.mpr present)
    rw [AList.lookup_union_left present,found,Option.some_or]
  · rw [AList.lookup_union_right present,AList.lookup_eq_none.mpr present,Option.none_or]

end HyprlandAgent
