import HyprlandAgent.Daemon.Rules
import HyprlandAgent.FirstOf
import HyprlandAgent.Schemas

-- The rules the watcher loads, from the user's file and from the one with what was learned.
namespace HyprlandAgent.WatcherService
open FirstOf

-- What `yaml.safe_load` makes of a document; keys may be any values. Dates, bytes, sets
-- and the like are known only by what is asked of them.
inductive YamlValue where
  | null
  | bool (value : Bool)
  | int (value : Int)
  | float (value : Rat)
  | str (text : String)
  | seq (items : List YamlValue)
  | map (fields : List (YamlValue × YamlValue))
  | other (object : Nat)
  deriving Inhabited

-- What the language does with the values. The texts are `str(value)`, `repr(value)` and
-- `repr(str(value))`, where there are any; `text` is what a field of type `str` reads.
structure Runtime where
  truthy : Nat → Bool
  iterate : Nat → Option (List YamlValue)
  text : Nat → Option String
  str : YamlValue → Option String
  repr : YamlValue → Option String
  reprStr : YamlValue → Option String
  str_str : ∀ text, str (.str text) = some text
  repr_str : ∀ text, (repr (.str text)).isSome = true
  reprStr_map : ∀ key text, (reprStr (.map [(.str key,.str text)])).isSome = true

def get (fields : List (YamlValue × YamlValue)) (key : String) : Option YamlValue :=
  fields.findSome? fun
    | (.str name,value) => if name = key then some value else none
    | _ => none

section
variable (runtime : Runtime)

def truthy : YamlValue → Bool
  | .null => false
  | .bool value => value
  | .int value => value != 0
  | .float value => value != 0
  | .str text => text != ""
  | .seq items => !items.isEmpty
  | .map fields => !fields.isEmpty
  | .other object => runtime.truthy object

def iterate : YamlValue → Option (List YamlValue)
  | .str text => some (text.toList.map fun char => .str (String.singleton char))
  | .seq items => some items
  | .map fields => some (fields.map Prod.fst)
  | .other object => runtime.iterate object
  | _ => none

-- `EventKind(value)` and `RuleActionKind(value)`.
def eventKind : YamlValue → Option EventKind
  | .str text => EventKind.ofValue text
  | _ => none

def ruleActionKind : YamlValue → Option RuleActionKind
  | .str text => RuleActionKind.ofValue text
  | _ => none

-- A field of type `str | None` with the default `None`.
def optionalText : Option YamlValue → Option (Option String)
  | none | some .null => some none
  | some (.str text) => some (some text)
  | some (.other object) => (runtime.text object).map some
  | some _ => none

-- `EventMatch.model_validate`; the alias goes before the name.
def eventMatch : YamlValue → Option EventMatch
  | .map fields => do
    let appClass ← optionalText runtime ((get fields "class").or (get fields "app_class"))
    let title ← optionalText runtime (get fields "title")
    some ⟨appClass,title⟩
  | _ => none

-- The actions of an item, by `item.items()`.
def ruleActions : YamlValue → Option (List RuleAction)
  | .map fields => fields.mapM fun (key,value) => do
    let kind ← ruleActionKind key
    let text ← runtime.str value
    some ⟨kind,text⟩
  | _ => none

-- `Rule.from_dict`; `none` is an exception.
def fromDict : YamlValue → Option Rule
  | .map fields => do
    let items ← iterate runtime ((get fields "actions").getD (.seq []))
    let actions ← items.mapM (ruleActions runtime)
    let on ← (get fields "on").bind eventKind
    let «match» ← eventMatch runtime ((get fields "match").getD (.map []))
    some ⟨on,«match»,actions.flatten⟩
  | _ => none

-- `str((raw.get("on"), str(raw.get("match", {}))))`
def signature : YamlValue → Option String
  | .map fields => do
    let on ← runtime.repr ((get fields "on").getD .null)
    let «match» ← runtime.reprStr ((get fields "match").getD (.map []))
    some ("(" ++ on ++ ", " ++ «match» ++ ")")
  | _ => none

def dedup (seen : List String) : List YamlValue → Option (List YamlValue)
  | [] => some []
  | raw :: rest => do
    let key ← signature runtime raw
    if key ∈ seen then dedup seen rest else (dedup (key :: seen) rest).map (raw :: ·)

-- The list under `rules` of a document; `none` is an exception.
def rawRules (data : YamlValue) : Option (List YamlValue) :=
  if truthy runtime data then
    match data with
    | .map fields =>
      let rules := (get fields "rules").getD .null
      if truthy runtime rules then iterate runtime rules else some []
    | _ => none
  else some []

end

inductive File where
  | missing
  | unreadable
  | parsed (data : YamlValue)

def rulesTemplate : YamlValue := .map [(.str "rules",.seq [])]

section
variable (runtime : Runtime)

def File.rules : File → List YamlValue
  | .parsed data => (rawRules runtime data).getD []
  | _ => []

def loadRules (rules learned : File) : File × List Rule :=
  match rules with
  | .missing => (.parsed rulesTemplate,[])
  | .unreadable => (rules,[])
  | .parsed data =>
    let deduped := (rawRules runtime data).bind fun raw => dedup runtime [] (raw ++ learned.rules runtime)
    (rules,deduped.elim [] (List.filterMap (fromDict runtime)))

def Valid (entry : YamlValue) : Prop := (fromDict runtime entry).isSome = true

-- The first valid entry of each signature that has one, in their order.
def firstValid (entries : List YamlValue) : List Rule :=
  (firsts (signature runtime) [] (entries.filter fun entry => (fromDict runtime entry).isSome)).filterMap
    (fromDict runtime)

variable {runtime} {seen : List String} {entries : List YamlValue}

theorem firstValid_skip {entry : YamlValue} {more : List YamlValue} (invalid : ¬Valid runtime entry) :
    firstValid runtime (entries ++ entry :: more) = firstValid runtime (entries ++ more) := by
  have dropped : (entry :: more).filter (fun entry => (fromDict runtime entry).isSome) =
      more.filter fun entry => (fromDict runtime entry).isSome := List.filter_cons_of_neg invalid
  unfold firstValid
  rw [List.filter_append,dropped,← List.filter_append]

theorem firstValid_prefix {more : List YamlValue} :
    (firstValid runtime entries).IsPrefix (firstValid runtime (entries ++ more)) := by
  unfold firstValid
  rw [List.filter_append]
  exact firsts_prefix.filterMap _

theorem dedup_eq : dedup runtime seen entries =
    if ∀ entry ∈ entries, (signature runtime entry).isSome = true then
      some (firsts (signature runtime) (seen.map some) entries)
    else none := by
  induction entries generalizing seen with
  | nil => simp [dedup,firsts]
  | cons entry rest ih =>
    rw [dedup,firsts]
    cases signed : signature runtime entry with
    | none => simp [signed]
    | some key =>
      simp only [Option.bind_eq_bind,Option.bind_some,ih]
      by_cases known : key ∈ seen
      · simp [signed,known]
      · by_cases printed : ∀ entry ∈ rest, (signature runtime entry).isSome = true
        · have all : ∀ other ∈ entry :: rest, (signature runtime other).isSome = true := by
            rintro other (_ | ⟨_,inside⟩)
            · rw [signed]
              rfl
            · exact printed other inside
          rw [if_neg known,if_pos printed,if_pos all]
          simp [known]
        · have some_ : ¬∀ other ∈ entry :: rest, (signature runtime other).isSome = true :=
            fun all => printed fun other inside => all other (List.mem_cons_of_mem _ inside)
          rw [if_neg known,if_neg printed,if_neg some_]
          rfl

theorem firstValid_eq_nil : firstValid runtime entries = [] ↔ ∀ entry ∈ entries, ¬Valid runtime entry := by
  have empty : entries.filter (fun entry => (fromDict runtime entry).isSome) = [] ↔
      ∀ entry ∈ entries, ¬Valid runtime entry := List.filter_eq_nil_iff
  rw [← empty,firstValid,List.filterMap_eq_nil_iff]
  constructor
  · intro none_
    rw [← firsts_eq_nil (signature runtime),List.eq_nil_iff_forall_not_mem]
    intro entry chosen
    have valid := (List.mem_filter.mp (firsts_sublist.subset chosen)).2
    simp [none_ entry chosen] at valid
  · intro none_
    rw [none_]
    intro entry chosen
    cases chosen

-- No entry that is not valid stands before the first valid one of its signature.
def Unshadowed (runtime : Runtime) (entries : List YamlValue) : Prop :=
  ∀ entry ∈ entries, Valid runtime entry → ∀ first,
    entries.find? (fun other => signature runtime other = signature runtime entry) = some first → Valid runtime first

-- The entries are loaded as they should be exactly if none is valid, or all of them are
-- mappings whose signature can be printed and none of the valid ones is shadowed.
theorem load_rules_iff {rules learned : File} {data : YamlValue} {raw : List YamlValue}
    (read : rules = .parsed data) (listed : rawRules runtime data = some raw) :
    (loadRules runtime rules learned).2 = firstValid runtime (raw ++ learned.rules runtime) ↔
      (∀ entry ∈ raw ++ learned.rules runtime, ¬Valid runtime entry) ∨
      (∀ entry ∈ raw ++ learned.rules runtime, (signature runtime entry).isSome = true) ∧
        Unshadowed runtime (raw ++ learned.rules runtime) := by
  rw [read]
  simp only [loadRules,listed,Option.bind_some,dedup_eq]
  generalize raw ++ learned.rules runtime = entries
  by_cases printed : ∀ entry ∈ entries, (signature runtime entry).isSome = true
  · rw [if_pos printed,List.map_nil]
    have same : (firsts (signature runtime) [] entries).filterMap (fromDict runtime) = firstValid runtime entries ↔
        Unshadowed runtime entries := filterMap_firsts_iff
    rw [Option.elim_some,same]
    constructor
    · exact fun unshadowed => .inr ⟨printed,unshadowed⟩
    · rintro (none_ | ⟨_,unshadowed⟩)
      · exact fun entry inside valid => absurd valid (none_ entry inside)
      · exact unshadowed
  · rw [if_neg printed,or_iff_left fun both => printed both.1,← firstValid_eq_nil]
    exact eq_comm

end

def plainRuntime : Runtime where
  truthy _ := true
  iterate _ := none
  text _ := none
  str
    | .str text => some text
    | _ => none
  repr
    | .null => some "None"
    | .str text => some ("'" ++ text ++ "'")
    | _ => none
  reprStr
    | .map [] => some "'{}'"
    | .map [(.str key,.str text)] => some ("\"\x7b'" ++ key ++ "': '" ++ text ++ "'\x7d\"")
    | _ => none
  str_str _ := rfl
  repr_str _ := rfl
  reprStr_map _ _ := rfl

def logEntry (appClass text : String) : YamlValue :=
  .map [(.str "on",.str "openwindow"),(.str "match",.map [(.str "class",.str appClass)]),
    (.str "actions",.seq [.map [(.str "log",.str text)]])]

def listing (entries : List YamlValue) : YamlValue := .map [(.str "rules",.seq entries)]

def strayEntry : YamlValue := .map [(.str "on",.str "openwindows")]

theorem footEntry_loaded : (loadRules plainRuntime (.parsed (listing [strayEntry,logEntry "foot" "terminal"]))
      (.parsed (listing [logEntry "foot" "learned"]))).2 =
    firstValid plainRuntime [strayEntry,logEntry "foot" "terminal",logEntry "foot" "learned"] := by
  have listed : rawRules plainRuntime (listing [strayEntry,logEntry "foot" "terminal"]) =
      some [strayEntry,logEntry "foot" "terminal"] := rfl
  have learned : (File.parsed (listing [logEntry "foot" "learned"])).rules plainRuntime =
      [logEntry "foot" "learned"] := rfl
  have loaded : (loadRules plainRuntime _ (.parsed (listing [logEntry "foot" "learned"]))).2 = _ ↔ _ :=
    load_rules_iff rfl listed
  rw [learned] at loaded
  refine loaded.mpr (.inr ⟨?_,?_⟩)
  · intro entry inside
    simp only [List.cons_append,List.nil_append,List.mem_cons,List.not_mem_nil,or_false] at inside
    rcases inside with rfl | rfl | rfl <;> rfl
  · intro entry inside valid first found
    simp only [List.cons_append,List.nil_append,List.mem_cons,List.not_mem_nil,or_false] at inside
    rcases inside with rfl | rfl | rfl
    · cases valid
    · cases found
      rfl
    · cases found
      rfl

theorem word_disables : ¬∀ (runtime : Runtime) (rules learned : File) (data : YamlValue) (raw : List YamlValue),
    rules = .parsed data → rawRules runtime data = some raw →
    (loadRules runtime rules learned).2 = firstValid runtime (raw ++ learned.rules runtime) := by
  intro all
  have same := all plainRuntime (.parsed (listing [logEntry "foot" "terminal"])) (.parsed (listing [.str "foot"]))
    _ _ rfl rfl
  have lost : (loadRules plainRuntime (.parsed (listing [logEntry "foot" "terminal"]))
    (.parsed (listing [.str "foot"]))).2 = [] := rfl
  rw [lost] at same
  have invalid := firstValid_eq_nil.mp same.symm (logEntry "foot" "terminal") List.mem_cons_self
  exact invalid rfl

end HyprlandAgent.WatcherService
