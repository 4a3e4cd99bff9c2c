import HyprlandAgent.Schemas

-- Wire protocol models: eight kinds of frame, told apart by their `type`.
namespace HyprlandAgent.Ipc

inductive RpcMethod where
  | planTask | runTask | cancelRun | listRuns | getRun | listWindows | screenshot | reloadRules
  | armKillswitch | daemonStatus | recordFeedback | runsAnalytics | learningList | learningApprove
  | learningReject | learningExplain | memorySearch | memoryGet
  deriving DecidableEq, Repr

def RpcMethod.value : RpcMethod → String
  | .planTask => "plan_task"
  | .runTask => "run_task"
  | .cancelRun => "cancel_run"
  | .listRuns => "list_runs"
  | .getRun => "get_run"
  | .listWindows => "list_windows"
  | .screenshot => "screenshot"
  | .reloadRules => "reload_rules"
  | .armKillswitch => "arm_killswitch"
  | .daemonStatus => "daemon_status"
  | .recordFeedback => "record_feedback"
  | .runsAnalytics => "runs_analytics"
  | .learningList => "learning_list"
  | .learningApprove => "learning_approve"
  | .learningReject => "learning_reject"
  | .learningExplain => "learning_explain"
  | .memorySearch => "memory_search"
  | .memoryGet => "memory_get"

def RpcMethod.all : List RpcMethod :=
  [.planTask,.runTask,.cancelRun,.listRuns,.getRun,.listWindows,.screenshot,.reloadRules,
    .armKillswitch,.daemonStatus,.recordFeedback,.runsAnalytics,.learningList,.learningApprove,
    .learningReject,.learningExplain,.memorySearch,.memoryGet]

def RpcMethod.ofValue (text : String) : Option RpcMethod :=
  RpcMethod.all.find? fun method => method.value == text

@[simp] theorem RpcMethod.ofValue_value (method : RpcMethod) :
    RpcMethod.ofValue method.value = some method := by
  cases method <;> decide

inductive Topic where
  | runs | hyprEvents | logs | voice
  deriving DecidableEq, Repr

def Topic.value : Topic → String
  | .runs => "runs"
  | .hyprEvents => "hypr_events"
  | .logs => "logs"
  | .voice => "voice"

def Topic.all : List Topic := [.runs,.hyprEvents,.logs,.voice]

theorem Topic.mem_all (topic : Topic) : topic ∈ Topic.all := by
  cases topic <;> decide

def Topic.ofValue (text : String) : Option Topic :=
  Topic.all.find? fun topic => topic.value == text

@[simp] theorem Topic.ofValue_value (topic : Topic) : Topic.ofValue topic.value = some topic := by
  cases topic <;> decide

-- `dict[str, str]`
abbrev TextDict := AList fun _ : String => String

structure ResponseFrame where
  id : String
  result : Option Dict := none
  error : Option TextDict := none

inductive Frame where
  | hello (version : String) (capabilities : List String := [])
  | request (id : String) (method : RpcMethod) (params : Dict := ∅)
  | response (answer : ResponseFrame)
  | subscribe (topics : List Topic)
  | unsubscribe (topics : List Topic)
  | event (topic : Topic) (payload : Dict)
  | ping
  | pong

def makeErrorResponse (requestId message : String) (code : String := "error") : ResponseFrame :=
  { id := requestId,error := some [⟨"code",code⟩,⟨"message",message⟩].toAList }

def makeOkResponse (requestId : String) (result : Dict) : ResponseFrame :=
  { id := requestId,result := some result }

-- `model_dump`, in the order the fields are declared.
def nullable (dump : α → Json) : Option α → Json
  | none => .null
  | some value => dump value

def TextDict.toJson (d : TextDict) : Json := .obj (d.entries.map fun entry => (entry.1,.str entry.2))

def topicsJson (topics : List Topic) : Json := .arr (topics.map fun topic => .str topic.value)

def Frame.modelDump : Frame → List (String × Json)
  | .hello version capabilities =>
    [("type",.str "hello"),("version",.str version),("capabilities",.arr (capabilities.map .str))]
  | .request id method params =>
    [("type",.str "request"),("id",.str id),("method",.str method.value),("params",params.toJson)]
  | .response answer =>
    [("type",.str "response"),("id",.str answer.id),
      ("result",nullable Dict.toJson answer.result),
      ("error",nullable TextDict.toJson answer.error)]
  | .subscribe topics => [("type",.str "subscribe"),("topics",topicsJson topics)]
  | .unsubscribe topics => [("type",.str "unsubscribe"),("topics",topicsJson topics)]
  | .event topic payload =>
    [("type",.str "event"),("topic",.str topic.value),("payload",payload.toJson)]
  | .ping => [("type",.str "ping")]
  | .pong => [("type",.str "pong")]

def readStr : Json → Option String
  | .str text => some text
  | _ => none

def readDict : Json → Option Dict
  | .obj fields => some (fields.map fun field => (⟨field.1,field.2⟩ : Sigma fun _ => Json)).toAList
  | _ => none

def readTextDict : Json → Option TextDict
  | .obj fields => do
    let texts ← fields.mapM fun field => (readStr field.2).map (field.1,·)
    return (texts.map fun text => (⟨text.1,text.2⟩ : Sigma fun _ => String)).toAList
  | _ => none

def readList (read : Json → Option α) : Json → Option (List α)
  | .arr items => items.mapM read
  | _ => none

def readNullable (read : Json → Option α) : Json → Option (Option α)
  | .null => some none
  | value => (read value).map some

def readMethod (value : Json) : Option RpcMethod := readStr value >>= RpcMethod.ofValue

def readTopic (value : Json) : Option Topic := readStr value >>= Topic.ofValue

def required (fields : List (String × Json)) (name : String) (read : Json → Option α) : Option α :=
  fields.lookup name >>= read

def defaulted (fields : List (String × Json)) (name : String) (default : α)
    (read : Json → Option α) : Option α :=
  match fields.lookup name with
  | none => some default
  | some value => read value

-- `extra="forbid"`
def onlyFields (fields : List (String × Json)) (names : List String) : Option Unit :=
  if fields.all fun field => names.contains field.1 then some () else none

-- `_adapter.validate_python`, on the fields of an object; `none` stands for a
-- validation error.
def validatePython (fields : List (String × Json)) : Option Frame := do
  match ← required fields "type" readStr with
  | "hello" =>
    onlyFields fields ["type","version","capabilities"]
    return .hello (← required fields "version" readStr)
      (← defaulted fields "capabilities" [] (readList readStr))
  | "request" =>
    onlyFields fields ["type","id","method","params"]
    return .request (← required fields "id" readStr) (← required fields "method" readMethod)
      (← defaulted fields "params" ∅ readDict)
  | "response" =>
    onlyFields fields ["type","id","result","error"]
    return .response ⟨← required fields "id" readStr,
      ← defaulted fields "result" none (readNullable readDict),
      ← defaulted fields "error" none (readNullable readTextDict)⟩
  | "subscribe" =>
    onlyFields fields ["type","topics"]
    return .subscribe (← required fields "topics" (readList readTopic))
  | "unsubscribe" =>
    onlyFields fields ["type","topics"]
    return .unsubscribe (← required fields "topics" (readList readTopic))
  | "event" =>
    onlyFields fields ["type","topic","payload"]
    return .event (← required fields "topic" readTopic) (← required fields "payload" readDict)
  | "ping" =>
    onlyFields fields ["type"]
    return .ping
  | "pong" =>
    onlyFields fields ["type"]
    return .pong
  | _ => none

theorem mapM_read (write : α → Json) (read : Json → Option α)
    (inverse : ∀ value, read (write value) = some value) (values : List α) :
    (values.map write).mapM read = some values := by
  induction values with
  | nil => rfl
  | cons value rest ih => simp [inverse,ih]

theorem toAList_entries {β : Type} (d : AList fun _ : String => β) : d.entries.toAList = d := by
  apply AList.ext
  rw [AList.entries_toAList]
  have distinct := d.nodupKeys
  generalize d.entries = entries at distinct
  induction entries with
  | nil => rfl
  | cons entry rest ih =>
    rw [List.nodupKeys_cons] at distinct
    rw [List.dedupKeys_cons,ih distinct.2,List.kinsert_def,List.kerase_of_notMem_keys distinct.1]

@[simp] theorem readDict_toJson (d : Dict) : readDict d.toJson = some d := by
  have back : (d.entries.map fun entry => (entry.1,entry.2)).map
      (fun field => (⟨field.1,field.2⟩ : Sigma fun _ : String => Json)) = d.entries := by
    rw [List.map_map]
    exact List.map_id _
  exact congrArg some ((congrArg List.toAList back).trans (toAList_entries d))

@[simp] theorem readTextDict_toJson (d : TextDict) : readTextDict d.toJson = some d := by
  have texts : (d.entries.map fun entry => (entry.1,Json.str entry.2)).mapM
      (fun field => (readStr field.2).map (field.1,·)) =
        some (d.entries.map fun entry => (entry.1,entry.2)) := by
    induction d.entries with
    | nil => rfl
    | cons entry rest ih =>
      rw [List.map_cons,List.mapM_cons,ih]
      rfl
  have back : (d.entries.map fun entry => (entry.1,entry.2)).map
      (fun text => (⟨text.1,text.2⟩ : Sigma fun _ : String => String)) = d.entries := by
    rw [List.map_map]
    exact List.map_id _
  unfold TextDict.toJson readTextDict
  simp only [texts]
  exact congrArg some ((congrArg List.toAList back).trans (toAList_entries d))

@[simp] theorem readList_str (texts : List String) :
    readList readStr (.arr (texts.map .str)) = some texts :=
  mapM_read Json.str readStr (fun _ => rfl) texts

@[simp] theorem readList_topics (topics : List Topic) :
    readList readTopic (topicsJson topics) = some topics :=
  mapM_read _ _ (fun topic => Topic.ofValue_value topic) topics

@[simp] theorem readNullable_dict (result : Option Dict) :
    readNullable readDict (nullable Dict.toJson result) = some result := by
  cases result with
  | none => rfl
  | some d => exact congrArg (Option.map some) (readDict_toJson d)

@[simp] theorem readNullable_textDict (error : Option TextDict) :
    readNullable readTextDict (nullable TextDict.toJson error) = some error := by
  cases error with
  | none => rfl
  | some d => exact congrArg (Option.map some) (readTextDict_toJson d)

theorem validatePython_modelDump (frame : Frame) : validatePython frame.modelDump = some frame := by
  cases frame with
  | hello version capabilities =>
    unfold Frame.modelDump validatePython
    simp [required,defaulted,onlyFields,List.lookup_cons,readStr]
  | request id method params =>
    unfold Frame.modelDump validatePython
    simp [required,defaulted,onlyFields,List.lookup_cons,readStr,readMethod]
  | response answer =>
    unfold Frame.modelDump validatePython
    simp [required,defaulted,onlyFields,List.lookup_cons,readStr]
  | subscribe topics =>
    unfold Frame.modelDump validatePython
    simp [required,onlyFields,List.lookup_cons,readStr]
  | unsubscribe topics =>
    unfold Frame.modelDump validatePython
    simp [required,onlyFields,List.lookup_cons,readStr]
  | event topic payload =>
    unfold Frame.modelDump validatePython
    simp [required,onlyFields,List.lookup_cons,readStr,readTopic]
  | ping => rfl
  | pong => rfl

end HyprlandAgent.Ipc
