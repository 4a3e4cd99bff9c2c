import Mathlib.Logic.Basic

-- Watch-mode rule schemas.
namespace HyprlandAgent

inductive EventKind where
  | workspace | activeWindow | openWindow | closeWindow | moveWindow | focusedMon | urgent | other
  deriving DecidableEq, Repr

def EventKind.value : EventKind → String
  | .workspace => "workspace"
  | .activeWindow => "activewindow"
  | .openWindow => "openwindow"
  | .closeWindow => "closewindow"
  | .moveWindow => "movewindow"
  | .focusedMon => "focusedmon"
  | .urgent => "urgent"
  | .other => "other"

def EventKind.all : List EventKind :=
  [.workspace,.activeWindow,.openWindow,.closeWindow,.moveWindow,.focusedMon,.urgent,.other]

def EventKind.ofValue (text : String) : Option EventKind :=
  EventKind.all.find? fun kind => kind.value == text

@[simp] theorem EventKind.ofValue_value (kind : EventKind) : EventKind.ofValue kind.value = some kind := by
  cases kind <;> decide

structure EventMatch where
  appClass : Option String := none
  title : Option String := none
  deriving DecidableEq, Repr

inductive RuleActionKind where
  | dispatch | log | notify | run
  deriving DecidableEq, Repr

def RuleActionKind.value : RuleActionKind → String
  | .dispatch => "dispatch"
  | .log => "log"
  | .notify => "notify"
  | .run => "run"

def RuleActionKind.all : List RuleActionKind := [.dispatch,.log,.notify,.run]

def RuleActionKind.ofValue (text : String) : Option RuleActionKind :=
  RuleActionKind.all.find? fun kind => kind.value == text

@[simp] theorem RuleActionKind.ofValue_value (kind : RuleActionKind) :
    RuleActionKind.ofValue kind.value = some kind := by
  cases kind <;> decide

structure RuleAction where
  kind : RuleActionKind
  value : String
  deriving DecidableEq, Repr

structure Rule where
  on : EventKind
  «match» : EventMatch
  actions : List RuleAction
  deriving DecidableEq, Repr

end HyprlandAgent
