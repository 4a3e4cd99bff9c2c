import HyprlandAgent.Effects
import HyprlandAgent.Ipc.Framing

-- Shared mapping from computer-use verbs to actions, for both kinds of brain.
namespace HyprlandAgent.Brain

-- What the brains call of Python: `int(value * scale)`, `int(value)`, `repr` and
-- `json.loads`, the texts being of exceptions. What is proved holds whatever they compute.
structure Runtime where
  scaled : Json → Seconds → Except String Int
  int : Json → Except String Int
  repr : String → String
  loads : String → Except Ipc.LoadsError Json

def plainRuntime : Runtime where
  scaled
    | .int value,scale => .ok ((value * scale).num.tdiv (value * scale).den)
    | _,_ => .error "not an integer"
  int
    | .int value => .ok value
    | _ => .error "not an integer"
  repr := fun text => "'" ++ text ++ "'"
  loads := fun text => if text = "\x7b\x7d" then .ok (.obj []) else .error (.jsonDecode "Expecting value")

theorem plain_double (value : Int) : plainRuntime.scaled (.int value) 2 = .ok (2 * value) := by
  have whole : (value : Rat) * 2 = ((2 * value : Int) : Rat) := by
    rw [Rat.intCast_mul,Rat.mul_comm]
    rfl
  show Except.ok (((value : Rat) * 2).num.tdiv ((value : Rat) * 2).den) = _
  rw [whole,Rat.num_intCast,Rat.den_intCast]
  simp

def removesuffix (text suffix : String) : String :=
  if suffix.toList.isSuffixOf text.toList then
    String.ofList (text.toList.take (text.length - suffix.length))
  else text

structure VerbArgs where
  x : Json := .int 0
  y : Json := .int 0
  text : Json := .str ""
  combo : Json := .str ""
  direction : Json := .str "down"
  amount : Json := .int 3
  scaleX : Seconds := 1
  scaleY : Seconds := 1

def converted {α : Type} (result : Except String α) : Except Exc α := result.mapError .other

def moveTo (sx sy : Int) : Action := ⟨.mouseMove,dict [("x",.int sx),("y",.int sy)]⟩

def clickWith (button : String) : Action := ⟨.click,dict [("button",.str button)]⟩

def clickVerbs : List String := ["left_click","right_click","middle_click"]

def computerActions (n : Runtime) (verb : String) (args : VerbArgs) : Except Exc (List Action) := do
  let sx ← converted (n.scaled args.x args.scaleX)
  let sy ← converted (n.scaled args.y args.scaleY)
  if verb = "screenshot" then return [⟨.screenshot,∅⟩]
  if verb ∈ clickVerbs then return [moveTo sx sy,clickWith (removesuffix verb "_click")]
  if verb = "double_click" then return [moveTo sx sy,clickWith "left",clickWith "left"]
  if verb = "mouse_move" then return [moveTo sx sy]
  if verb = "type" ∨ verb = "type_text" then return [⟨.typeText,dict [("text",args.text)]⟩]
  if verb = "key" then return [⟨.key,dict [("combo",args.combo)]⟩]
  if verb = "scroll" then
    let amount ← converted (n.int args.amount)
    let signed := if args.direction == .str "up" || args.direction == .str "left" then -amount else amount
    let horizontal := args.direction == .str "left" || args.direction == .str "right"
    return [moveTo sx sy,⟨.scroll,dict [("amount",.int signed),("horizontal",.bool horizontal)]⟩]
  return []

theorem computerActions_click {n : Runtime} {verb : String} {args : VerbArgs} {sx sy : Int}
    (isClick : verb ∈ clickVerbs) (x : n.scaled args.x args.scaleX = .ok sx)
    (y : n.scaled args.y args.scaleY = .ok sy) :
    computerActions n verb args = .ok [moveTo sx sy,clickWith (removesuffix verb "_click")] := by
  have shown : verb ≠ "screenshot" := by
    intro same
    subst same
    exact absurd isClick (by decide)
  unfold computerActions
  rw [x,y]
  simp only [converted,Except.mapError,bind,Except.bind]
  rw [if_neg shown,if_pos isClick]
  rfl

def field (inp : Dict) (key : String) : Except Exc Json :=
  match inp.lookup key with
  | some value => .ok value
  | none => .error (.other ("'" ++ key ++ "'"))

-- `"\n".join(lines) or default`
def joined (lines : List String) (default : String) : String :=
  let text := "\n".intercalate lines
  if text = "" then default else text

-- The tools that both brains offer besides the verbs; `windows` is the listing.
def customTool (windows : Except Exc String) (name : String) (inp : Dict) :
    Except Exc (String × List Action) := do
  if name = "list_windows" then return (← windows,[])
  if name = "terminal_command" then
    let params := dict [("command",← field inp "command")]
    let params := match inp.lookup "hold_s" with
      | some hold => params.insert "hold_s" hold
      | none => params
    return ("terminal command queued",[⟨.terminalCommand,params⟩])
  if name = "focus_window" then
    return ("focus queued",[⟨.focusWindow,dict [("address",← field inp "address")]⟩])
  if name = "dispatch_hypr" then
    return ("dispatch queued",[⟨.dispatch,dict [("cmd",← field inp "cmd")]⟩])
  if name = "read_file" then return ("Reading file...",[⟨.readFile,inp⟩])
  if name = "write_file" then return ("Writing file...",[⟨.writeFile,inp⟩])
  if name = "list_dir" then return ("Listing directory...",[⟨.listDir,inp⟩])
  if name = "clipboard_read" then return ("Reading clipboard...",[⟨.clipboardRead,∅⟩])
  if name = "clipboard_write" then
    return ("Writing clipboard...",[⟨.clipboardWrite,dict [("text",← field inp "text")]⟩])
  return ("unknown tool",[])

end HyprlandAgent.Brain
