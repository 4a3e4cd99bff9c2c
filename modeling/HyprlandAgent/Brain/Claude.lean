import HyprlandAgent.Brain.ActionMap
import HyprlandAgent.Brain.Conversation

-- Claude computer-use brain.
namespace HyprlandAgent.Brain.Claude

inductive ContentBlock where
  | toolUse (id name : String) (input : Dict)
  | other (type : String)

structure Response where
  content : List ContentBlock
  stopReason : String
  -- What listing the windows gives, where a block asks for it.
  clients : Except Exc (List Window)

abbrev Conversation := List (Message Empty ContentBlock)

def windowLine (py : Runtime) (w : Window) : String :=
  w.address ++ " [" ++ w.appClass ++ "] " ++ py.repr w.title ++ " at (" ++ toString w.at_.1 ++ "," ++
    toString w.at_.2 ++ ") " ++ toString w.size.1 ++ "x" ++ toString w.size.2

def handleCustom (py : Runtime) (clients : Except Exc (List Window)) (name : String) (inp : Dict) :
    Except Exc (String × List Action) :=
  customTool (clients.map fun wins => joined (wins.map (windowLine py)) "(no windows)") name inp

-- `coord[i]`
def subscript (coord : Json) (i : Nat) : Except Exc Json :=
  match coord with
  | .arr items => match items[i]? with
    | some item => .ok item
    | none => .error (.other "list index out of range")
  | .str text => match text.toList[i]? with
    | some char => .ok (.str (String.singleton char))
    | none => .error (.other "string index out of range")
  | .obj _ => .error (.other (toString i))
  | _ => .error (.other "object is not subscriptable")

-- A verb that is not a text equals none of the known ones.
def verbOf : Json → String
  | .str verb => verb
  | _ => ""

def computerActionToActions (py : Runtime) (action : Dict) (scaleX scaleY : Seconds) :
    Except Exc (List Action) := do
  let coord := get action "coordinate" (.arr [.int 0,.int 0])
  let x ← subscript coord 0
  let y ← subscript coord 1
  computerActions py (verbOf (get action "action" (.str "")))
    { x := x, y := y, text := get action "text" (.str ""), combo := get action "key" (.str ""),
      direction := get action "direction" (.str "down"), amount := get action "amount" (.int 3),
      scaleX := scaleX, scaleY := scaleY }

def handleToolUse (py : Runtime) (clients : Except Exc (List Window)) (name : String) (input : Dict) :
    Except Exc (String × List Action) := do
  if name = "computer" then
    return ("action queued",← computerActionToActions py input (1 / scale) (1 / scale))
  handleCustom py clients name input

def handleContent (py : Runtime) (clients : Except Exc (List Window)) :
    List ContentBlock → Except Exc (List Action × List (Block ContentBlock))
  | [] => .ok ([],[])
  | .other _ :: rest => handleContent py clients rest
  | .toolUse id name input :: rest => do
    let (text,actions) ← handleToolUse py clients name input
    let (more,results) ← handleContent py clients rest
    return (actions ++ more,.toolResult id (.parts [text]) :: results)

def assistantTurn (content : List ContentBlock) : Message Empty ContentBlock :=
  .dict .assistant (.blocks (content.map .object))

def resultsTurn (results : List (Block ContentBlock)) : Message Empty ContentBlock :=
  .dict .user (.blocks results)

def loop (py : Runtime) (cfg : ContextConfig) :
    Nat → Conversation → List Action → List Response → Trace Empty ContentBlock
  | 0,_,allActions,_ => ⟨[],.returned allActions⟩
  | left + 1,messages,allActions,responses =>
    match compactMessages Empty.elim cfg messages with
    | .error exc => ⟨[],.raised exc⟩
    | .ok messages =>
      match responses with
      | [] => ⟨[messages],.waiting⟩
      | response :: later =>
        match handleContent py response.clients response.content with
        | .error exc => ⟨[messages],.raised exc⟩
        | .ok (actions,toolResults) =>
          if response.stopReason = "end_turn" ∨ toolResults.isEmpty then
            ⟨[messages],.returned (allActions ++ actions)⟩
          else
            let further := loop py cfg left
              (messages ++ [assistantTurn response.content,resultsTurn toolResults])
              (allActions ++ actions) later
            ⟨messages :: further.requests,further.outcome⟩

def taskMessage (png task preamble : String) : Message Empty ContentBlock :=
  let userText := "Task: " ++ task
  let userText := if preamble = "" then userText else preamble ++ "\n\n" ++ userText
  .dict .user (.blocks [.image png,.text userText])

def decide (py : Runtime) (ctxCfg : Option ContextConfig) (png task preamble : String)
    (responses : List Response) : Trace Empty ContentBlock :=
  loop py (ctxCfg.getD {}) maxLoop [taskMessage png task preamble] [] responses

end HyprlandAgent.Brain.Claude
