import HyprlandAgent.Safety.Fnmatch
import HyprlandAgent.Tools.Events

-- Which rules an event concerns.
namespace HyprlandAgent.RuleRunner
open Events Orchestrator

def joinCommas (parts : List (List Char)) : List Char := [','].intercalate parts

def eventFields (event : Event) : String × String :=
  let parts := event.data.toList.splitOn ','
  if event.kind.value = "openwindow" ∧ parts.length ≥ 4 then
    (String.ofList (parts.getD 2 []),String.ofList (joinCommas (parts.drop 3)))
  else if event.kind.value = "activewindow" ∧ parts.length ≥ 2 then
    (String.ofList (parts.getD 0 []),String.ofList (joinCommas (parts.drop 1)))
  else if event.kind.value = "closewindow" then (String.ofList (parts.headD []),"")
  else ("","")

-- A glob that is set, if only to something, has to match; case is left out on both sides.
def globMatches (lower : String → String) (glob : Option String) (text : String) : Bool :=
  match glob with
  | none => true
  | some glob => glob = "" || Fnmatch.fnmatch (lower text) (lower glob)

def matchEvent (lower : String → String) (rule : Rule) (event : Event) : Bool :=
  if rule.on ≠ event.kind then false
  else
    let (evClass,evTitle) := eventFields event
    if !globMatches lower rule.match.appClass evClass then false
    else globMatches lower rule.match.title evTitle

def openLine (address workspace appClass title : String) : String :=
  "openwindow>>" ++ address ++ "," ++ workspace ++ "," ++ appClass ++ "," ++ title

def activeLine (appClass title : String) : String := "activewindow>>" ++ appClass ++ "," ++ title

def GlobMeets (lower : String → String) (glob : Option String) (text : String) : Prop :=
  ∀ pat, glob = some pat → pat ≠ "" → Fnmatch.fnmatch (lower text) (lower pat) = true

structure Concerns (lower : String → String) (rule : Rule) (kind : EventKind) (appClass title : String) : Prop where
  kind : rule.on = kind
  appClass : GlobMeets lower rule.match.appClass appClass
  title : GlobMeets lower rule.match.title title

variable {lower : String → String} {rule : Rule} {event : Event} {appClass title : String}

theorem globMatches_iff {glob : Option String} {text : String} :
    globMatches lower glob text = true ↔ GlobMeets lower glob text := by
  cases glob with
  | none => simp [globMatches,GlobMeets]
  | some pat =>
    simp only [globMatches,GlobMeets,Bool.or_eq_true,decide_eq_true_eq,Option.some.injEq,forall_eq']
    exact Decidable.or_iff_not_imp_left

theorem matchEvent_iff (fields : eventFields event = (appClass,title)) :
    matchEvent lower rule event = true ↔ Concerns lower rule event.kind appClass title := by
  unfold matchEvent
  rw [fields]
  constructor
  · intro matched
    split at matched
    · cases matched
    · rename_i same
      dsimp only at matched
      split at matched
      · cases matched
      · rename_i classes
        have appClass := globMatches_iff.mp (by simpa using classes)
        exact ⟨Decidable.not_not.mp same,appClass,globMatches_iff.mp matched⟩
  · intro concerns
    simp [concerns.kind,globMatches_iff.mpr concerns.appClass,globMatches_iff.mpr concerns.title]

theorem split_joined (title : List Char) :
    ∃ first more, title.splitOn ',' = first :: more ∧ joinCommas (first :: more) = title := by
  obtain ⟨first,more,split⟩ := List.exists_cons_of_ne_nil (List.splitOn_ne_nil ',' title)
  refine ⟨first,more,split,?_⟩
  rw [← split]
  exact List.intercalate_splitOn ','

theorem openFields {address workspace appClass title : List Char} {raw : String} (one : ',' ∉ address)
    (two : ',' ∉ workspace) (three : ',' ∉ appClass) :
    eventFields ⟨.openWindow,String.ofList (address ++ ',' :: (workspace ++ ',' :: (appClass ++ ',' :: title))),raw⟩ =
      (String.ofList appClass,String.ofList title) := by
  obtain ⟨first,more,split,joined⟩ := split_joined title
  simp only [eventFields,String.toList_ofList,List.splitOn_append_cons_self_of_not_mem one,
    List.splitOn_append_cons_self_of_not_mem two,List.splitOn_append_cons_self_of_not_mem three,split]
  simp [EventKind.value,joined]

theorem activeFields {appClass title : List Char} {raw : String} (one : ',' ∉ appClass) :
    eventFields ⟨.activeWindow,String.ofList (appClass ++ ',' :: title),raw⟩ =
      (String.ofList appClass,String.ofList title) := by
  obtain ⟨first,more,split,joined⟩ := split_joined title
  simp only [eventFields,String.toList_ofList,List.splitOn_append_cons_self_of_not_mem one,split]
  simp [EventKind.value,joined]

theorem lstrip_plain {char : Char} {text : List Char} (plain : char ∉ text) : char ∉ lstrip text :=
  fun inside => plain ((List.dropWhile_suffix isSpace).subset inside)

def withoutLead (text : String) : String := String.ofList (lstrip text.toList)

theorem toList_comma (one two : String) : (one ++ "," ++ two).toList = one.toList ++ ',' :: two.toList := by
  have comma : ",".toList = [','] := by decide
  rw [String.toList_append,String.toList_append,comma,List.append_assoc]
  rfl

theorem openWindow_kind :
    (kindMap.lookup (String.ofList (strip "openwindow".toList))).getD .other = .openWindow := by
  decide

theorem activeWindow_kind :
    (kindMap.lookup (String.ofList (strip "activewindow".toList))).getD .other = .activeWindow := by
  decide

theorem parse_openLine {address workspace : String} (trimmed : Trimmed title.toList) :
    parse (openLine address workspace appClass title) =
      ⟨.openWindow,String.ofList (lstrip address.toList ++
          ',' :: (workspace.toList ++ ',' :: (appClass.toList ++ ',' :: title.toList))),
        openLine address workspace appClass title⟩ := by
  have cut : (openLine address workspace appClass title).toList = "openwindow".toList ++ '>' :: '>' ::
      (address.toList ++ ',' :: (workspace.toList ++ ',' :: (appClass.toList ++ ',' :: title.toList))) := by
    have head : "openwindow>>".toList = "openwindow".toList ++ ['>','>'] := by decide
    unfold openLine
    rw [toList_comma,toList_comma,toList_comma,String.toList_append,head]
    simp only [List.append_assoc,List.cons_append,List.nil_append]
  rw [parse_line (by decide) cut,openWindow_kind]
  have kept := strip_fields (show isSpace ',' = false by decide) trimmed address.toList
    (workspace.toList ++ ',' :: appClass.toList)
  simp only [List.append_assoc,List.cons_append] at kept
  rw [kept]

theorem parse_activeLine (trimmed : Trimmed title.toList) :
    parse (activeLine appClass title) =
      ⟨.activeWindow,String.ofList (lstrip appClass.toList ++ ',' :: title.toList),activeLine appClass title⟩ := by
  have cut : (activeLine appClass title).toList =
      "activewindow".toList ++ '>' :: '>' :: (appClass.toList ++ ',' :: title.toList) := by
    have head : "activewindow>>".toList = "activewindow".toList ++ ['>','>'] := by decide
    unfold activeLine
    rw [toList_comma,String.toList_append,head]
    simp only [List.append_assoc,List.cons_append,List.nil_append]
  rw [parse_line (by decide) cut,activeWindow_kind,strip_pair (by decide) trimmed]

theorem openLine_fields {address workspace : String} (one : ',' ∉ address.toList)
    (two : ',' ∉ workspace.toList) (three : ',' ∉ appClass.toList) (trimmed : Trimmed title.toList) :
    eventFields (parse (openLine address workspace appClass title)) = (appClass,title) := by
  rw [parse_openLine trimmed,openFields (lstrip_plain one) two three,String.ofList_toList,String.ofList_toList]

theorem activeLine_fields (one : ',' ∉ appClass.toList) (trimmed : Trimmed title.toList) :
    eventFields (parse (activeLine appClass title)) = (withoutLead appClass,title) := by
  rw [parse_activeLine trimmed,activeFields (lstrip_plain one),String.ofList_toList]
  rfl

-- Class and title come back from both lines, but an active window's class is cut at its start.
theorem window_lines_matched (lower : String → String) (rule : Rule) {appClass title : String}
    (plain : ',' ∉ appClass.toList) (trimmed : Trimmed title.toList) :
    (∀ address workspace : String, ',' ∉ address.toList → ',' ∉ workspace.toList →
      eventFields (parse (openLine address workspace appClass title)) = (appClass,title) ∧
      (matchEvent lower rule (parse (openLine address workspace appClass title)) = true ↔
        Concerns lower rule .openWindow appClass title)) ∧
    eventFields (parse (activeLine appClass title)) = (withoutLead appClass,title) ∧
    (matchEvent lower rule (parse (activeLine appClass title)) = true ↔
      Concerns lower rule .activeWindow (withoutLead appClass) title) := by
  constructor
  · intro address workspace one two
    have fields := openLine_fields one two plain trimmed
    refine ⟨fields,(matchEvent_iff fields).trans ?_⟩
    rw [parse_openLine trimmed]
  · have fields := activeLine_fields plain trimmed
    refine ⟨fields,(matchEvent_iff fields).trans ?_⟩
    rw [parse_activeLine trimmed]

def vimRule : Rule := ⟨.activeWindow,{ title := some "*vim*" },[]⟩

theorem arrow_title_recovered :
    eventFields (parse (openLine "0x1" "1" "foot" "a, b >> vim")) = ("foot","a, b >> vim") ∧
    matchEvent id vimRule (parse (activeLine "foot" "a, b >> vim")) = true := by
  have trimmed : Trimmed "a, b >> vim".toList := by
    constructor <;> intro char inside <;> cases inside <;> decide
  have lines := window_lines_matched id vimRule (by decide : ',' ∉ "foot".toList) trimmed
  refine ⟨(lines.1 "0x1" "1" (by decide) (by decide)).1,lines.2.2.mpr ?_⟩
  constructor
  · rfl
  · intro pat set
    cases set
  · intro pat set _
    cases set
    decide

theorem indented_class_lost : ¬∀ (lower : String → String) (rule : Rule) (appClass title : String),
    ',' ∉ appClass.toList → Trimmed title.toList →
      eventFields (parse (activeLine appClass title)) = (appClass,title) ∧
      (matchEvent lower rule (parse (activeLine appClass title)) = true ↔
        Concerns lower rule .activeWindow appClass title) := by
  intro recovered
  have trimmed : Trimmed "vim".toList := by
    constructor <;> intro char inside <;> cases inside <;> decide
  have plain : ',' ∉ " foot".toList := by decide
  have same := (recovered id vimRule " foot" "vim" plain trimmed).1
  rw [activeLine_fields plain trimmed] at same
  exact absurd (congrArg Prod.fst same) (by decide)

end HyprlandAgent.RuleRunner
