import HyprlandAgent.Learning.Grants
import HyprlandAgent.Daemon.WatcherService

-- Approving a rule over the RPC: the proposal goes through learned_rules.yaml into the
-- rules that the watcher goes by.
namespace HyprlandAgent.Learning
open FirstOf Transition WatcherService

-- A value of the learning API as the watcher reads it.
mutual
def ofJson : Json → YamlValue
  | .null => .null
  | .bool value => .bool value
  | .int value => .int value
  | .float value => .float value
  | .str text => .str text
  | .arr items => .seq (ofItems items)
  | .obj fields => .map (ofFields fields)
def ofItems : List Json → List YamlValue
  | [] => []
  | item :: rest => ofJson item :: ofItems rest
def ofFields : List (String × Json) → List (YamlValue × YamlValue)
  | [] => []
  | (key,value) :: rest => (.str key,ofJson value) :: ofFields rest
end

-- The tables and files of the learning API, rules.yaml, and `state.rules`.
structure AppState (yaml : Yaml) where
  learning : State yaml
  rulesFile : File
  rules : List Rule

structure Approval where
  kind : String
  id : String
  now : Seconds

section
variable {yaml : Yaml} (python : Python) (runtime : Runtime)

def learnedFile : Option yaml.Text → File
  | none => .missing
  | some text => (yaml.safeLoad text).elim .unreadable fun value => .parsed (ofJson value)

-- `_learning_approve`, with the state it leaves and what it answers.
def learningApprove (s : AppState yaml) (call : Approval) : AppState yaml × Except Failure Decision :=
  if call.kind = "" ∨ call.id = "" then (s,.error (.valueError "kind and id are required"))
  else
    match approve python s.learning call.kind call.id call.now with
    | (learning,.error failure) => ({ s with learning },.error failure)
    | (learning,.ok decision) =>
      if call.kind = "rule" then
        let (rulesFile,rules) := WatcherService.loadRules runtime s.rulesFile (learnedFile learning.learnedRules)
        (⟨learning,rulesFile,rules⟩,.ok decision)
      else ({ s with learning },.ok decision)

def approvals : System (AppState yaml) Approval := ⟨fun s call => some (learningApprove python runtime s call).1⟩

def autoText (actionKinds : List String) : String := "auto: " ++ ", ".intercalate (actionKinds.take 3)

def minedRule (contextClass : String) (actionKinds : List String) : Rule :=
  ⟨.openWindow,⟨some contextClass,none⟩,[⟨.log,autoText actionKinds⟩]⟩

def Approves (s : AppState yaml) (call : Approval) (contextClass : String) (actionKinds : List String) : Prop :=
  python.lower call.kind = "rule" ∧ call.id ≠ "" ∧ ∃ rule, s.learning.db.rules.find? (·.ruleId = call.id) = some rule ∧
    rule.yaml = ruleYaml yaml contextClass actionKinds

def Takes (s : AppState yaml) (call : Approval) : Prop :=
  ∀ contextClass actionKinds, Approves python s call contextClass actionKinds →
    minedRule contextClass actionKinds ∈ (learningApprove python runtime s call).1.rules

def Gives (entries : List YamlValue) (rule : Rule) : Prop :=
  ∃ entry, entries.find? (fun other => signature runtime other = signature runtime entry) = some entry ∧
    fromDict runtime entry = some rule

-- There is a rules.yaml with a list, of which as of learned_rules.yaml each entry is a
-- mapping whose signature can be printed, and which give the rule already or have no
-- entry of its signature.
def Room (s : AppState yaml) (contextClass : String) (actionKinds : List String) : Prop :=
  ∃ data raw, s.rulesFile = .parsed data ∧ rawRules runtime data = some raw ∧
    let entries := raw ++ (learnedFile s.learning.learnedRules).rules runtime
    (∀ entry ∈ entries, (signature runtime entry).isSome = true) ∧
      (Gives runtime entries (minedRule contextClass actionKinds) ∨
        ∀ entry ∈ entries, signature runtime entry ≠ signature runtime (logEntry contextClass (autoText actionKinds)))

-- Where an approval is taken up: it is asked for as "rule" and there is room for it, or
-- the watcher has the rule already.
def TakenUp (s : AppState yaml) (call : Approval) : Prop :=
  ∀ contextClass actionKinds, Approves python s call contextClass actionKinds →
    if call.kind = "rule" then Room runtime s contextClass actionKinds
    else minedRule contextClass actionKinds ∈ s.rules

end

section
variable {runtime : Runtime}

theorem ofItems_eq (values : List Json) : ofItems values = values.map ofJson := by
  induction values with
  | nil => rfl
  | cons value rest ih => rw [ofItems,ih,List.map_cons]

theorem get_ofFields (fields : List (String × Json)) (key : String) :
    WatcherService.get (ofFields fields) key = (fields.lookup key).map ofJson := by
  induction fields with
  | nil => rfl
  | cons field rest ih =>
    obtain ⟨name,value⟩ := field
    unfold WatcherService.get at ih ⊢
    rw [ofFields,List.findSome?_cons,List.lookup_cons]
    by_cases same : name = key
    · simp [same]
    · have other : (key == name) = false := by simp [Ne.symm same]
      simp [same,other,ih]

theorem truthy_ofJson (value : Json) : truthy runtime (ofJson value) = value.truthy := by
  cases value with
  | arr items => cases items <;> rfl
  | obj fields =>
    cases fields with
    | nil => rfl
    | cons field rest => rfl
  | _ => rfl

theorem rawRules_ofJson {fields : List (String × Json)} {values : List Json} (found : get fields "rules" = .arr values) :
    rawRules runtime (ofJson (.obj fields)) = some (values.map ofJson) := by
  unfold rawRules
  rw [truthy_ofJson]
  unfold get at found
  cases fields with
  | nil =>
    cases found
    rfl
  | cons field rest =>
    rw [if_pos (by rfl)]
    simp only [ofJson,get_ofFields]
    cases under : (field :: rest).lookup "rules" with
    | none =>
      rw [under] at found
      cases found
      rfl
    | some value =>
      rw [under] at found
      cases found
      simp only [Option.map_some,Option.getD_some,ofJson,ofItems_eq]
      cases values with
      | nil => rfl
      | cons value rest => rfl

theorem rules_learnedFile {yaml : Yaml} {file : Option yaml.Text} {fields : List (String × Json)} {values : List Json}
    (read : yaml.mapping file = .ok fields) (found : get fields "rules" = .arr values) :
    (learnedFile file).rules runtime = values.map ofJson := by
  cases file with
  | none =>
    cases read
    cases found
    rfl
  | some text =>
    unfold Yaml.mapping at read
    cases loaded : yaml.safeLoad text with
    | none => simp [loaded] at read
    | some value =>
      have parsed : learnedFile (some text) = .parsed (ofJson value) := by simp [learnedFile,loaded]
      simp only [loaded] at read
      rw [parsed,File.rules]
      split at read
      · split at read
        · cases read
          rw [rawRules_ofJson found]
          rfl
        · cases read
      · rename_i false_
        cases read
        cases found
        unfold rawRules
        rw [truthy_ofJson,if_neg false_]
        rfl

theorem alike_text {value : Json} {text : String} (same : value.sortKeys = .str text) : value = .str text := by
  cases value with
  | str other => simpa [Json.sortKeys] using same
  | _ => simp [Json.sortKeys] at same

theorem alike_field {value : Json} {key text : String} (same : value.sortKeys = .obj [(key,.str text)]) :
    value = .obj [(key,.str text)] := by
  cases value with
  | obj fields =>
    simp only [Json.sortKeys,Json.obj.injEq] at same
    have one : fields.length = 1 := by
      have counted := congrArg List.length same
      simpa [length_sortFields] using counted
    obtain ⟨⟨name,inner⟩,rfl⟩ := List.length_eq_one_iff.mp one
    have alike : name = key ∧ inner.sortKeys = .str text := by simpa [sortFields] using same
    rw [alike.1,alike_text alike.2]
  | _ => simp [Json.sortKeys] at same

theorem alike_item {value item : Json} (same : value.sortKeys = .arr [item]) :
    ∃ inner, value = .arr [inner] ∧ inner.sortKeys = item := by
  cases value with
  | arr items =>
    simp only [Json.sortKeys,Json.arr.injEq,sortItems_eq] at same
    obtain ⟨inner,rfl,alike⟩ := List.map_eq_singleton_iff.mp same
    exact ⟨inner,rfl,alike⟩
  | _ => simp [Json.sortKeys] at same

theorem alike_lookup {fields others : List (String × Json)} (same : (Json.obj fields).sortKeys = (Json.obj others).sortKeys)
    (key : String) {value : Json} (there : others.lookup key = some value) :
    ∃ inner, fields.lookup key = some inner ∧ inner.sortKeys = value.sortKeys := by
  simp only [Json.sortKeys,Json.obj.injEq] at same
  have looked := congrArg (List.lookup key) same
  rw [lookup_sorted,lookup_sorted,there] at looked
  exact Option.map_eq_some_iff.mp looked

def view (runtime : Runtime) (entry : YamlValue) : Option String × Option Rule :=
  (signature runtime entry,fromDict runtime entry)

theorem view_mined {value : Json} {contextClass : String} {actionKinds : List String}
    (same : value.sortKeys = (minedBlock contextClass actionKinds).sortKeys) :
    view runtime (ofJson value) = view runtime (logEntry contextClass (autoText actionKinds)) := by
  cases value with
  | obj fields =>
    obtain ⟨on,onThere,onSame⟩ := alike_lookup same "on" rfl
    obtain ⟨«match»,matchThere,matchSame⟩ := alike_lookup same "match" rfl
    obtain ⟨actions,actionsThere,actionsSame⟩ := alike_lookup same "actions" rfl
    cases alike_text onSame
    cases alike_field matchSame
    obtain ⟨item,rfl,itemSame⟩ := alike_item actionsSame
    cases alike_field itemSame
    simp only [view,ofJson,signature,fromDict,logEntry,get_ofFields,onThere,matchThere,actionsThere]
    rfl
  | _ => simp [minedBlock,Json.sortKeys] at same

theorem logEntry_rule (contextClass : String) (actionKinds : List String) :
    fromDict runtime (logEntry contextClass (autoText actionKinds)) = some (minedRule contextClass actionKinds) := by
  have text := runtime.str_str (autoText actionKinds)
  have acts : ruleActions runtime (.map [(.str "log",.str (autoText actionKinds))]) =
      some [⟨.log,autoText actionKinds⟩] := by
    simp only [ruleActions,List.mapM_cons,List.mapM_nil,text]
    rfl
  have items : iterate runtime (.seq [.map [(.str "log",.str (autoText actionKinds))]]) =
      some [.map [(.str "log",.str (autoText actionKinds))]] := rfl
  have kind : eventKind (.str "openwindow") = some .openWindow := rfl
  have «match» : eventMatch runtime (.map [(.str "class",.str contextClass)]) = some ⟨some contextClass,none⟩ := rfl
  simp [logEntry,fromDict,WatcherService.get,items,acts,kind,«match»,minedRule]

theorem logEntry_signature (contextClass text : String) :
    (signature runtime (logEntry contextClass text)).isSome = true := by
  obtain ⟨on,onShown⟩ := Option.isSome_iff_exists.mp (runtime.repr_str "openwindow")
  obtain ⟨«match»,matchShown⟩ := Option.isSome_iff_exists.mp (runtime.reprStr_map "class" contextClass)
  simp [logEntry,signature,WatcherService.get,onShown,matchShown]

theorem gives_iff {entries : List YamlValue} {rule : Rule} : Gives runtime entries rule ↔
    rule ∈ (firsts Prod.fst [] (entries.map (view runtime))).filterMap Prod.snd := by
  rw [← firsts_map (signature runtime) (view runtime) fun _ => rfl,List.filterMap_map,List.mem_filterMap]
  constructor
  · rintro ⟨entry,first,made⟩
    exact ⟨entry,mem_firsts.mpr ⟨List.not_mem_nil,first⟩,made⟩
  · rintro ⟨entry,chosen,made⟩
    exact ⟨entry,(mem_firsts.mp chosen).2,made⟩

theorem mem_loadRules {rules learned : File} {rule : Rule} : rule ∈ (WatcherService.loadRules runtime rules learned).2 ↔
    ∃ data raw, rules = .parsed data ∧ rawRules runtime data = some raw ∧
      (∀ entry ∈ raw ++ learned.rules runtime, (signature runtime entry).isSome = true) ∧
      Gives runtime (raw ++ learned.rules runtime) rule := by
  cases rules with
  | missing => simp [WatcherService.loadRules]
  | unreadable => simp [WatcherService.loadRules]
  | parsed data =>
    cases listed : rawRules runtime data with
    | none => simp [WatcherService.loadRules,listed]
    | some raw =>
      simp only [WatcherService.loadRules,listed,Option.bind_some,dedup_eq]
      by_cases printed : ∀ entry ∈ raw ++ learned.rules runtime, (signature runtime entry).isSome = true
      · rw [if_pos printed,Option.elim_some,List.mem_filterMap]
        constructor
        · rintro ⟨entry,chosen,made⟩
          exact ⟨data,raw,rfl,listed,printed,entry,(mem_firsts.mp chosen).2,made⟩
        · rintro ⟨other,list,same,listed',_,entry,first,made⟩
          cases same
          rw [listed] at listed'
          cases listed'
          exact ⟨entry,mem_firsts.mpr ⟨List.not_mem_nil,first⟩,made⟩
      · rw [if_neg printed]
        constructor
        · intro inside
          cases inside
        · rintro ⟨other,list,same,listed',printed',_⟩
          cases same
          rw [listed] at listed'
          cases listed'
          exact absurd printed' printed

theorem gives_concat {entries more : List YamlValue} {contextClass : String} {actionKinds : List String}
    (seen : more.map (view runtime) =
      entries.map (view runtime) ++ [view runtime (logEntry contextClass (autoText actionKinds))]) :
    Gives runtime more (minedRule contextClass actionKinds) ↔
      Gives runtime entries (minedRule contextClass actionKinds) ∨
        ∀ entry ∈ entries, signature runtime entry ≠ signature runtime (logEntry contextClass (autoText actionKinds)) := by
  rw [gives_iff,gives_iff,seen,firsts_concat,List.filterMap_append,List.mem_append]
  apply or_congr_right
  have keys : (view runtime (logEntry contextClass (autoText actionKinds))).1 ∈
      (entries.map (view runtime)).map Prod.fst ↔
      ∃ entry ∈ entries, signature runtime entry = signature runtime (logEntry contextClass (autoText actionKinds)) := by
    simp [view]
  by_cases old : ∃ entry ∈ entries, signature runtime entry = signature runtime (logEntry contextClass (autoText actionKinds))
  · rw [if_pos (.inr (keys.mpr old))]
    obtain ⟨entry,inside,same⟩ := old
    constructor
    · intro nothing
      cases nothing
    · intro fresh
      exact absurd same (fresh entry inside)
  · have new : ∀ entry ∈ entries, signature runtime entry ≠ signature runtime (logEntry contextClass (autoText actionKinds)) :=
      fun entry inside same => old ⟨entry,inside,same⟩
    have absent : ¬((view runtime (logEntry contextClass (autoText actionKinds))).1 ∈ [] ∨
        (view runtime (logEntry contextClass (autoText actionKinds))).1 ∈ (entries.map (view runtime)).map Prod.fst) := by
      rw [keys]
      exact not_or.mpr ⟨List.not_mem_nil,old⟩
    rw [if_neg absent]
    constructor
    · exact fun _ => new
    · intro _
      exact List.mem_filterMap.mpr ⟨_,List.mem_singleton_self _,logEntry_rule contextClass actionKinds⟩

section
variable {yaml : Yaml} {python : Python} {s : AppState yaml} {call : Approval}

structure MinedOnly (s : AppState yaml) : Prop where
  sane : Sane s.learning
  blocks : ∃ pairs : List (String × List String),
    yaml.entries "rules" s.learning.learnedRules = pairs.map fun pair => (minedBlock pair.1 pair.2).sortKeys

theorem view_entries (runtime : Runtime) {file : Option yaml.Text} (readable : yaml.Readable "rules" file) {pairs : List (String × List String)}
    (blocks : yaml.entries "rules" file = pairs.map fun pair => (minedBlock pair.1 pair.2).sortKeys) :
    ((learnedFile file).rules runtime).map (view runtime) =
      pairs.map fun pair => view runtime (logEntry pair.1 (autoText pair.2)) := by
  obtain ⟨fields,values,read,found⟩ := readable
  rw [rules_learnedFile read found]
  rw [Yaml.entries_of read found] at blocks
  clear read found
  induction pairs generalizing values with
  | nil =>
    rw [List.map_nil,List.map_eq_nil_iff] at blocks
    rw [blocks]
    rfl
  | cons pair rest ih =>
    cases values with
    | nil => cases blocks
    | cons value values =>
      rw [List.map_cons,List.map_cons,List.cons.injEq] at blocks
      rw [List.map_cons,List.map_cons,List.map_cons,view_mined blocks.1,ih values blocks.2]

theorem approves_written (runtime : Runtime) (kept : MinedOnly s) {contextClass : String} {actionKinds : List String}
    (approves : Approves python s call contextClass actionKinds) :
    ∃ learning decision, approve python s.learning call.kind call.id call.now = (learning,.ok decision) ∧
      ((learnedFile learning.learnedRules).rules runtime).map (view runtime) =
        ((learnedFile s.learning.learnedRules).rules runtime).map (view runtime) ++
          [view runtime (logEntry contextClass (autoText actionKinds))] := by
  obtain ⟨asked,_,rule,there,text⟩ := approves
  obtain ⟨new,appended,readable,entries⟩ := append_mined kept.sane.readable contextClass actionKinds
  obtain ⟨pairs,blocks⟩ := kept.blocks
  refine ⟨{ s.learning with
    db := s.learning.db.updateLearnedRuleStatus call.id .approved call.now
    learnedRules := some new },⟨"rule",call.id,.approved⟩,?_,?_⟩
  · unfold approve
    simp only [asked,there,text,appended]
    rfl
  · have more : yaml.entries "rules" (some new) = (pairs ++ [(contextClass,actionKinds)]).map fun pair =>
        (minedBlock pair.1 pair.2).sortKeys := by
      rw [entries,blocks,List.map_append]
      rfl
    have seen := view_entries runtime readable more
    rw [List.map_append] at seen
    rw [view_entries runtime kept.sane.readable blocks]
    exact seen

theorem approves_kind {contextClass : String} {actionKinds : List String}
    (approves : Approves python s call contextClass actionKinds) : ¬(call.kind = "" ∨ call.id = "") := by
  rintro (empty | empty)
  · have asked := approves.1
    rw [empty,lower_known rfl rfl] at asked
    exact absurd asked (by decide)
  · exact approves.2.1 empty

theorem printed_iff {entries : List YamlValue} : (∀ entry ∈ entries, (signature runtime entry).isSome = true) ↔
    ∀ seen ∈ entries.map (view runtime), seen.1.isSome = true := by
  simp [view]

theorem takes_iff (kept : MinedOnly s) : Takes python runtime s call ↔ TakenUp python runtime s call := by
  refine forall₂_congr fun contextClass actionKinds => forall_congr' fun approves => ?_
  obtain ⟨learning,decision,approved,seen⟩ := approves_written runtime kept approves
  unfold learningApprove
  rw [if_neg (approves_kind approves),approved]
  by_cases asked : call.kind = "rule"
  · simp only [if_pos asked,mem_loadRules]
    refine exists₂_congr fun data raw => and_congr_right fun _ => and_congr_right fun _ => ?_
    have whole : (raw ++ (learnedFile learning.learnedRules).rules runtime).map (view runtime) =
        (raw ++ (learnedFile s.learning.learnedRules).rules runtime).map (view runtime) ++
          [view runtime (logEntry contextClass (autoText actionKinds))] := by
      rw [List.map_append,List.map_append,seen,List.append_assoc]
    refine and_congr ?_ (gives_concat whole)
    rw [printed_iff,printed_iff,whole]
    constructor
    · exact fun all seen inside => all seen (List.mem_append_left _ inside)
    · intro all seen inside
      rcases List.mem_append.mp inside with old | new
      · exact all seen old
      · rw [List.mem_singleton.mp new]
        exact logEntry_signature contextClass _
  · simp only [if_neg asked]

theorem minedOnly_step (kept : MinedOnly s) (call : Approval) : MinedOnly (learningApprove python runtime s call).1 := by
  have learning : (learningApprove python runtime s call).1.learning = s.learning ∨
      (learningApprove python runtime s call).1.learning = (approve python s.learning call.kind call.id call.now).1 := by
    unfold learningApprove
    split
    · exact .inl rfl
    · right
      split
      · rename_i approved
        rw [approved]
      · rename_i approved
        rw [approved]
        split <;> rfl
  rcases learning with same | same
  · exact ⟨by rw [same]; exact kept.sane,by rw [same]; exact kept.blocks⟩
  · refine ⟨by rw [same]; exact sane_step kept.sane (.approve call.kind call.id call.now),?_⟩
    rw [same]
    obtain ⟨_,done⟩ | ⟨_,rule,there,file,written,done⟩ | ⟨_,prop,_,file,_,done⟩ | ⟨_,_,done⟩ :=
      approve_cases python s.learning call.kind call.id call.now
    · rw [done]
      exact kept.blocks
    · obtain ⟨context,kinds,text⟩ := kept.sane.mined rule (found_rule kept.sane there).1
      obtain ⟨new,appended,_,entries⟩ := append_mined kept.sane.readable context kinds
      obtain ⟨pairs,blocks⟩ := kept.blocks
      rw [text,appended] at written
      cases written
      refine ⟨pairs ++ [(context,kinds)],?_⟩
      rw [done]
      simp only [entries,blocks,List.map_append]
      rfl
    · rw [done]
      exact kept.blocks
    · rw [done]
      exact kept.blocks

end

end

section
variable {yaml : Yaml}

def approvalsStart (ruleId : String → List String → String) (skills : List Skill) (mined : List Mined)
    (learnedRules allowlist : Option yaml.Text) (rulesFile : File) (rules : List Rule) : AppState yaml :=
  ⟨start ruleId skills mined learnedRules allowlist,rulesFile,rules⟩

end

-- Whatever is in rules.yaml: every approved proposal is among the rules of the watcher
-- exactly if every approval is taken up.
theorem approvals_take_effect_iff (yaml : Yaml) (python : Python) (runtime : Runtime)
    (ruleId : String → List String → String) (skills : List Skill) (mined : List Mined)
    (learnedRules allowlist : Option yaml.Text) (vacant : Vacant learnedRules) (rulesFile : File) (rules : List Rule)
    (calls : List Approval) :
    (approvals python runtime).Meets (Takes python runtime)
      (approvalsStart ruleId skills mined learnedRules allowlist rulesFile rules) calls ↔
    (approvals python runtime).Meets (TakenUp python runtime)
      (approvalsStart ruleId skills mined learnedRules allowlist rulesFile rules) calls := by
  have initial : MinedOnly (approvalsStart ruleId skills mined learnedRules allowlist rulesFile rules) := by
    refine ⟨start_sane vacant,[],?_⟩
    obtain ⟨fields,read,none_⟩ := vacant
    exact Yaml.entries_of read none_
  refine System.meets_iff_meets (I:=MinedOnly) ?_ ?_ initial calls
  · intro s call next kept stepped
    cases stepped
    exact minedOnly_step kept call
  · intro s call _ kept _
    exact takes_iff kept

def threeClicks : List Mined := [.rule ⟨"foot",["click"],3,"[]"⟩ 0]

def approveClicks : Approval := ⟨"rule","foot",1⟩

def twoTerminals : List Mined := threeClicks ++ [.rule ⟨"kitty",["type"],3,"[]"⟩ 0]

def approveBoth : List Approval := [approveClicks,⟨"rule","kitty",2⟩,⟨"rule","foot",3⟩]

def clicksStart (rulesFile : File) : AppState plainYaml :=
  approvalsStart (fun contextClass _ => contextClass) [] twoTerminals none none rulesFile []

def bothBlocks : List YamlValue := [ofJson (minedBlock "foot" ["click"]),ofJson (minedBlock "kitty" ["type"])]

theorem ruleYaml_plain {one two : String} {kinds others : List String}
    (same : ruleYaml plainYaml one kinds = ruleYaml plainYaml two others) :
    one = two ∧ autoText kinds = autoText others := by
  have parts := congrArg (fun text : Json => text) same
  simpa [ruleYaml,plainYaml,minedBlock,autoText] using parts

theorem approval_into_template :
    (approvals asciiPython plainRuntime).Meets (Takes asciiPython plainRuntime)
      (clicksStart (.parsed rulesTemplate)) approveBoth := by
  refine (approvals_take_effect_iff plainYaml asciiPython plainRuntime (fun contextClass _ => contextClass) []
    twoTerminals none none ⟨[],rfl,rfl⟩ (.parsed rulesTemplate) [] approveBoth).mpr ?_
  intro next stepped
  cases stepped
  refine ⟨?_,fun next stepped => ?_⟩
  · intro contextClass actionKinds _
    exact ⟨rulesTemplate,[],rfl,rfl,nofun,.inr nofun⟩
  cases stepped
  refine ⟨?_,fun next stepped => ⟨?_,trivial⟩⟩
  · rintro contextClass actionKinds ⟨_,_,rule,found,text⟩
    cases found
    obtain ⟨rfl,_⟩ := ruleYaml_plain text
    have apart : signature plainRuntime (ofJson (minedBlock "foot" ["click"])) ≠
        signature plainRuntime (logEntry "kitty" (autoText ["type"])) := by decide
    refine ⟨rulesTemplate,[],rfl,rfl,?_,.inr ?_⟩
    · intro entry inside
      obtain rfl := List.mem_singleton.mp inside
      rfl
    · intro entry inside
      obtain rfl := List.mem_singleton.mp inside
      exact apart
  · cases stepped
    rintro contextClass actionKinds ⟨_,_,rule,found,text⟩
    cases found
    obtain ⟨rfl,same⟩ := ruleYaml_plain text
    refine ⟨rulesTemplate,[],rfl,rfl,?_,.inl ⟨ofJson (minedBlock "foot" ["click"]),?_,?_⟩⟩
    · show ∀ entry ∈ bothBlocks, _
      decide
    · show bothBlocks.find? _ = _
      rfl
    · rw [minedRule,← same]
      rfl

theorem approval_without_rules : ¬∀ (yaml : Yaml) (python : Python) (runtime : Runtime)
    (ruleId : String → List String → String) (skills : List Skill) (mined : List Mined)
    (learnedRules allowlist : Option yaml.Text) (rulesFile : File) (rules : List Rule) (calls : List Approval),
    Vacant learnedRules → (approvals python runtime).Meets (Takes python runtime)
      (approvalsStart ruleId skills mined learnedRules allowlist rulesFile rules) calls := by
  intro all
  have meets := all plainYaml asciiPython plainRuntime (fun contextClass _ => contextClass) [] threeClicks none none
    .missing [] [approveClicks] ⟨[],rfl,rfl⟩
  have takes := (meets _ rfl).1 "foot" ["click"] ⟨rfl,by decide,_,rfl,rfl⟩
  cases takes

end HyprlandAgent.Learning
