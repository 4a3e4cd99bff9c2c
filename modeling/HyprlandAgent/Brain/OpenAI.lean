import HyprlandAgent.Brain.ActionMap
import HyprlandAgent.Brain.Conversation

-- OpenAI-compatible brain: one loop for every provider that speaks chat completions.
namespace HyprlandAgent.Brain.OpenAI

-- What the desktop gives while a call is handled: the windows, and a picture for the
-- model in base64.
structure Desktop where
  clients : Except Exc (List Window)
  forVision : Except Exc String

structure ToolCall where
  id : String
  name : String
  arguments : String
  desktop : Desktop

structure AssistantMessage where
  content : Option String
  toolCalls : List ToolCall

abbrev Conversation := List (Message AssistantMessage Empty)

def getOf (hasGet : Bool) (message : AssistantMessage) : Option (Role × Content Empty) :=
  if hasGet then
    some (.assistant,match message.content with
      | some text => .str text
      | none => .none)
  else none

def asDict : Json → Except Exc Dict
  | .obj fields => .ok (dict fields)
  | _ => .error (.other "object has no attribute 'get'")

def windowLine (py : Runtime) (w : Window) : String :=
  w.address ++ " [" ++ w.appClass ++ "] " ++ py.repr w.title

def callTool (py : Runtime) (desktop : Desktop) (name : String) (args : Json) (scale : Seconds) :
    Except Exc (String × List Action) := do
  if name = "screenshot" then
    let png ← desktop.forVision
    return ("data:image/png;base64," ++ png,[⟨.screenshot,∅⟩])
  let args ← asDict args
  let acts ← computerActions py name
    { x := get args "x" (.int 0), y := get args "y" (.int 0), text := get args "text" (.str ""),
      combo := get args "combo" (.str ""), direction := get args "direction" (.str "down"),
      amount := get args "amount" (.int 3), scaleX := scale, scaleY := scale }
  if !acts.isEmpty then
    match args.lookup "x",args.lookup "y" with
    | some x,some y =>
      let sx ← converted (py.scaled x scale)
      let sy ← converted (py.scaled y scale)
      return (name ++ " (" ++ toString sx ++ "," ++ toString sy ++ ")",acts)
    | _,_ => return (name,acts)
  customTool (desktop.clients.map fun wins => joined (wins.map (windowLine py)) "(none)") name args

def toolMessage (id text : String) : Message AssistantMessage Empty := .dict .tool (.str text) (some id)

-- A call whose arguments are no JSON text is logged and passed by.
def handleCalls (py : Runtime) : List ToolCall → Except Exc (List Action × Conversation)
  | [] => .ok ([],[])
  | call :: rest =>
    match py.loads call.arguments with
    | .error (.jsonDecode _) => handleCalls py rest
    | .error (.other text) => .error (.other text)
    | .ok args => do
      let (text,actions) ← callTool py call.desktop call.name args (1 / scale)
      let (more,results) ← handleCalls py rest
      return (actions ++ more,toolMessage call.id text :: results)

def loop (py : Runtime) (hasGet : Bool) (cfg : ContextConfig) :
    Nat → Conversation → List Action → List AssistantMessage → Trace AssistantMessage Empty
  | 0,_,allActions,_ => ⟨[],.returned allActions⟩
  | left + 1,messages,allActions,responses =>
    match compactMessages (getOf hasGet) cfg messages with
    | .error exc => ⟨[],.raised exc⟩
    | .ok messages =>
      match responses with
      | [] => ⟨[messages],.waiting⟩
      | msg :: later =>
        if msg.toolCalls.isEmpty then ⟨[messages],.returned allActions⟩
        else
          match handleCalls py msg.toolCalls with
          | .error exc => ⟨[messages],.raised exc⟩
          | .ok (actions,toolResults) =>
            let further := loop py hasGet cfg left (messages ++ .object msg :: toolResults)
              (allActions ++ actions) later
            ⟨messages :: further.requests,further.outcome⟩

structure Prompt where
  system : String
  scaledW : Int
  scaledH : Int
  png : String
  task : String
  preamble : String

def Prompt.messages (prompt : Prompt) : Conversation :=
  let userText := "Task: " ++ prompt.task
  let userText := if prompt.preamble = "" then userText else prompt.preamble ++ "\n\n" ++ userText
  [.dict .system (.str (prompt.system ++ "\n\nDisplay: " ++ toString prompt.scaledW ++ "x" ++
      toString prompt.scaledH ++ ". Coordinates are in scaled image space.")),
    .dict .user (.blocks [.imageUrl ("data:image/png;base64," ++ prompt.png),.text userText])]

def decide (py : Runtime) (hasGet : Bool) (ctxCfg : Option ContextConfig) (prompt : Prompt)
    (responses : List AssistantMessage) : Trace AssistantMessage Empty :=
  loop py hasGet (ctxCfg.getD {}) maxLoop prompt.messages [] responses

end HyprlandAgent.Brain.OpenAI
