import HyprlandAgent.Daemon.Rules
import HyprlandAgent.Orchestrator

-- Hyprland's event socket: a line of it, and the event it is read as.
namespace HyprlandAgent.Events
open Orchestrator (isSpace strip)

structure Event where
  kind : EventKind
  data : String
  raw : String
  deriving DecidableEq, Repr

def kindMap : List (String × EventKind) :=
  [("workspace",.workspace),("activewindow",.activeWindow),("openwindow",.openWindow),
    ("closewindow",.closeWindow),("movewindow",.moveWindow),("focusedmon",.focusedMon),("urgent",.urgent)]

-- `line.partition(">>")`, where the separator is in the line.
def partition : List Char → Option (List Char × List Char)
  | [] => none
  | [_] => none
  | one :: two :: rest =>
    if one = '>' ∧ two = '>' then some ([],rest)
    else (partition (two :: rest)).map fun parts => (one :: parts.1,parts.2)

def parse (line : String) : Event :=
  let (kindStr,data) := (partition line.toList).getD (line.toList,[])
  let kind := (kindMap.lookup (String.ofList (strip kindStr))).getD .other
  ⟨kind,String.ofList (strip data),line⟩

theorem partition_first {kind : List Char} (plain : '>' ∉ kind) (data : List Char) :
    partition (kind ++ '>' :: '>' :: data) = some (kind,data) := by
  induction kind with
  | nil => simp [partition]
  | cons char kind ih =>
    rw [List.mem_cons,not_or] at plain
    have rest := ih plain.2
    cases kind with
    | nil => simp [partition,Ne.symm plain.1]
    | cons next kind =>
      simp only [List.cons_append] at rest ⊢
      rw [partition,if_neg (fun both => plain.1 both.1.symm),rest]
      rfl

theorem parse_line {line : String} {kind data : List Char} (plain : '>' ∉ kind)
    (cut : line.toList = kind ++ '>' :: '>' :: data) :
    parse line = ⟨(kindMap.lookup (String.ofList (strip kind))).getD .other,
      String.ofList (strip data),line⟩ := by
  simp only [parse,cut,partition_first plain,Option.getD_some]

def lstrip (text : List Char) : List Char := text.dropWhile isSpace

def rstrip (text : List Char) : List Char := (text.reverse.dropWhile isSpace).reverse

theorem strip_eq (text : List Char) : strip text = rstrip (lstrip text) := rfl

theorem lstrip_append {char : Char} (solid : isSpace char = false) (before after : List Char) :
    lstrip (before ++ char :: after) = lstrip before ++ char :: after := by
  induction before with
  | nil => simp [lstrip,solid]
  | cons first before ih =>
    by_cases space : isSpace first = true
    · simpa [lstrip,space] using ih
    · simp [lstrip,space]

theorem rstrip_append {char : Char} (solid : isSpace char = false) (before after : List Char) :
    rstrip (before ++ char :: after) = before ++ char :: rstrip after := by
  have turned := lstrip_append solid after.reverse before.reverse
  simp only [lstrip] at turned
  simp [rstrip,turned]

def Trimmed (text : List Char) : Prop :=
  (∀ char ∈ text.head?, isSpace char = false) ∧ ∀ char ∈ text.getLast?, isSpace char = false

def Started (text : List Char) : Prop := ∀ char ∈ text.head?, isSpace char = false

theorem lstrip_started {text : List Char} (started : Started text) : lstrip text = text := by
  cases text with
  | nil => rfl
  | cons char text => simp [lstrip,started char rfl]

theorem rstrip_ended {text : List Char} (ended : ∀ char ∈ text.getLast?, isSpace char = false) :
    rstrip text = text := by
  have turned : Started text.reverse := by
    intro char first
    rw [List.head?_reverse] at first
    exact ended char first
  have kept := lstrip_started turned
  simp only [lstrip] at kept
  rw [rstrip,kept,List.reverse_reverse]

theorem strip_fields {char : Char} (solid : isSpace char = false) {title : List Char}
    (trimmed : Trimmed title) (before middle : List Char) :
    strip (before ++ char :: (middle ++ char :: title)) = lstrip before ++ char :: (middle ++ char :: title) := by
  rw [strip_eq,lstrip_append solid,← List.cons_append,← List.append_assoc,rstrip_append solid,
    rstrip_ended trimmed.2]

theorem strip_pair {char : Char} (solid : isSpace char = false) {title : List Char}
    (trimmed : Trimmed title) (before : List Char) :
    strip (before ++ char :: title) = lstrip before ++ char :: title := by
  rw [strip_eq,lstrip_append solid,rstrip_append solid,rstrip_ended trimmed.2]

end HyprlandAgent.Events
