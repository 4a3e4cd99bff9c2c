import HyprlandAgent.Orchestrator
import HyprlandAgent.Brain.ActionMap
import HyprlandAgent.Worklist
import Mathlib.Data.List.Infix

-- Looks for an agent among the processes under a terminal, as /proc lists them.
namespace HyprlandAgent.Orchestrator
open Brain

def lineBreaks : List Nat := [0x0a,0x0b,0x0c,0x0d,0x1c,0x1d,0x1e,0x85,0x2028,0x2029]

-- `str.splitlines`: a carriage return and the line feed after it are one break.
def splitlines (line : List Char) : List Char → List (List Char)
  | [] => if line.isEmpty then [] else [line]
  | [char] => if lineBreaks.contains char.toNat then [line] else [line ++ [char]]
  | char :: following :: rest =>
    if char.toNat = 0x0d ∧ following.toNat = 0x0a then line :: splitlines [] rest
    else if lineBreaks.contains char.toNat then line :: splitlines [] (following :: rest)
    else splitlines (line ++ [char]) (following :: rest)

-- `str.split`
def splitWords (line : List Char) : List (List Char) :=
  (line.splitOnP isSpace).filter fun word => !word.isEmpty

-- An entry of /proc, with what reading its two files gives.
structure ProcEntry where
  name : String
  status : Except Exc String
  cmdline : Except Exc String

-- A process that is gone, or that belongs to someone else, is left out.
def leavesOut : Exc → Bool
  | .fileNotFound _ | .processLookup _ | .permission _ => true
  | _ => false

structure ProcessRow where
  parent : Int
  pid : Int
  details : String
  deriving DecidableEq, Repr

def ppid (h : Host) (status : String) : Except Exc Int :=
  match (splitlines [] status.toList).find? ("PPid:".toList.isPrefixOf ·) with
  | none => .ok 0
  | some line =>
    match (splitWords line)[1]? with
    | none => .error (.other "list index out of range")
    | some word => converted (h.int (.str (String.ofList word)))

def nulToSpace (text : String) : String :=
  text.map fun char => if char.toNat = 0 then ' ' else char

-- Its name is all digits: that is how /proc names a process.
def processRow (h : Host) (entry : ProcEntry) : Except Exc (Option ProcessRow) :=
  if entry.name.isEmpty || !entry.name.toList.all Char.isDigit then .ok none
  else do
    let currentPid ← converted (h.int (.str entry.name))
    let read : Except Exc (String × String) := do
      let status ← entry.status
      let cmdline ← entry.cmdline
      return (status,nulToSpace cmdline)
    match read with
    | .error exc => if leavesOut exc then return none else throw exc
    | .ok (status,cmdline) =>
      let parent ← ppid h status
      return some ⟨parent,currentPid,h.lower (entry.name ++ " " ++ status ++ " " ++ cmdline)⟩

def processTable (h : Host) : List ProcEntry → Except Exc (List ProcessRow)
  | [] => .ok []
  | entry :: entries => do
    let row ← processRow h entry
    let rows ← processTable h entries
    return row.toList ++ rows

-- `candidates.get(pid, "")`: a pid that is listed twice keeps its last description.
def candidate (rows : List ProcessRow) (pid : Int) : String :=
  ((rows.reverse.find? fun row => row.pid = pid).map ProcessRow.details).getD ""

def childLinks (rows : List ProcessRow) : List (Int × Int) :=
  rows.map fun row => (row.parent,row.pid)

def marked (rows : List ProcessRow) (markers : List String) (pid : Int) : Bool :=
  markers.any fun marker => marker.toList <:+: (candidate rows pid).toList

-- The loop over the stack, `none` where it is not over after `fuel` turns.
def treeContains (fuel : Nat) (rows : List ProcessRow) (pid : Int) (markers : List String) : Option Bool :=
  Worklist.search (childLinks rows) (marked rows markers) fuel [pid] []

def processTreeContains (h : Host) (fuel : Nat) (proc : List ProcEntry) (pid : Int)
    (markers : List String) : Except Exc (Option Bool) := do
  let rows ← processTable h proc
  return treeContains fuel rows pid markers

def UnderPid (rows : List ProcessRow) : Int → Int → Prop := Worklist.Reaches (childLinks rows)

-- One turn for the first process and one for each child link are enough.
theorem treeContains_ends (rows : List ProcessRow) (pid : Int) (markers : List String) (more : Nat) :
    ∃ found, treeContains (rows.length + 2 + more) rows pid markers = some found ∧
      (found = true ↔ ∃ process, UnderPid rows pid process ∧ marked rows markers process = true) := by
  have enough : (childLinks rows).length + 1 < rows.length + 2 + more := by
    rw [childLinks,List.length_map]
    omega
  exact Worklist.search_from enough

theorem treeContains_exact (rows : List ProcessRow) (pid : Int) (markers : List String) (more : Nat) :
    ∃ found, treeContains (rows.length + 2 + more) rows pid markers = some found ∧
      (found = true ↔ ∃ process, UnderPid rows pid process ∧
        ∃ marker ∈ markers, marker.toList <:+: (candidate rows process).toList) := by
  obtain ⟨found,ended,right⟩ := treeContains_ends rows pid markers more
  refine ⟨found,ended,right.trans ?_⟩
  simp only [marked,List.any_eq_true,decide_eq_true_eq]

-- A process that is its own parent, over one that has a marker.
example : treeContains 5 [⟨1,1,"1 foot"⟩,⟨1,2,"2 codex"⟩] 1 controlProcessMarkers = some true := by
  decide

theorem processTreeContains_answers (h : Host) {proc : List ProcEntry} {rows : List ProcessRow}
    (read : processTable h proc = .ok rows) (pid : Int) (markers : List String) (more : Nat) :
    ∃ found, processTreeContains h (rows.length + 2 + more) proc pid markers = .ok (some found) ∧
      (found = true ↔ ∃ process, UnderPid rows pid process ∧ marked rows markers process = true) := by
  obtain ⟨found,ended,right⟩ := treeContains_ends rows pid markers more
  refine ⟨found,?_,right⟩
  rw [processTreeContains,read]
  exact congrArg Except.ok ended

end HyprlandAgent.Orchestrator
