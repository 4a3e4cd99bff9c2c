import HyprlandAgent.Greedy.Blocks
import HyprlandAgent.Orchestrator

-- What is taken out of a text before it is spoken: secrets and paths by fixed patterns,
-- and the values of the keywords that the user configured.
namespace HyprlandAgent.Redact
open Greedy Orchestrator

def keyChar (char : Char) : Bool := char.isAlphanum || char == '-'

def tokenChar (char : Char) : Bool := char.isAlphanum || char == '+' || char == '/'

def userChar (char : Char) : Bool := char != '/' && !isSpace char

def pathChar (char : Char) : Bool := !isSpace char && !([',',';',':',')'].contains char)

-- What follows a run in these patterns may be empty, so no run has to give anything back.
def secretKey : Pattern := .next (.literal ['s','k','-']) (.atLeast 20 keyChar)

def base64Token : Pattern := .next (.atLeast 40 tokenChar) (.atLeast 0 (· == '='))

def homePath : Pattern :=
  .next (.literal ['/','h','o','m','e','/']) (.next (.atLeast 1 userChar)
    (.optional (.next (.literal ['/']) (.atLeast 0 pathChar))))

def tildePath : Pattern := .next (.literal ['~','/']) (.atLeast 1 pathChar)

-- `_PORTABLE_PATTERNS`
def portablePatterns : List Pattern := [secretKey,base64Token,homePath,tildePath]

-- `[REDACTED]` behind its first character.
def redactedTail : List Char := ['R','E','D','A','C','T','E','D',']']

def redacted : List Char := '[' :: redactedTail

-- A compiled pattern at a place, told what is before the place, nearest first, and what
-- comes after: the lengths of `m.group(1)` and of the match.
abbrev Compiled := List Char → List Char → Option (Nat × Nat)

def keywordPattern (keywords : List String) : String :=
  "(?i)(" ++ "|".intercalate keywords ++ ")\\s*[:=]\\s*\\S+"

-- `compile` gives nothing where `re.error` is raised.
def buildKeywordPatterns (compile : String → Option Compiled) (keywords : List String) : Option (List Compiled) :=
  if keywords = [] then some [] else (compile (keywordPattern keywords)).map fun found => [found]

section
variable {α : Type} (char : α → Char) (fresh : Char → α)

def subKeyword (found : Compiled) : List Char → Nat → List α → List α
  | _,_,[] => []
  | before,skip + 1,cell :: rest => subKeyword found (char cell :: before) skip rest
  | before,0,cell :: rest =>
    match found before ((cell :: rest).map char) with
    | some (group,length) =>
      (cell :: rest).take group ++ ('=' :: redacted).map fresh ++
        subKeyword found (char cell :: before) (length - 1) rest
    | none => cell :: subKeyword found (char cell :: before) 0 rest

def redact (compile : String → Option Compiled) (keywords : List String) (cells : List α) : Option (List α) :=
  let portable := subAll char (redacted.map fresh) portablePatterns cells
  (buildKeywordPatterns compile keywords).map fun patterns =>
    patterns.foldl (fun cells found => subKeyword char fresh found [] 0 cells) portable

end

def redactForTts (compile : String → Option Compiled) (text : String) (keywords : List String) : Option String :=
  (redact id id compile keywords text.toList).map String.ofList

structure Cell where
  char : Char
  origin : Option Nat
  deriving DecidableEq

def cellsOf (text : List Char) : List Cell := text.zipIdx.map fun place => ⟨place.1,some place.2⟩

def tracked (compile : String → Option Compiled) (text : String) (keywords : List String) : Option (List Cell) :=
  redact Cell.char (Cell.mk · none) compile keywords (cellsOf text.toList)

section
variable {α : Type} {char : α → Char} {fresh : Char → α}

theorem fresh_map (made : ∀ one, char (fresh one) = one) (text : List Char) : (text.map fresh).map char = text.map id := by
  rw [List.map_map]
  exact List.map_congr_left fun one _ => made one

theorem subKeyword_map (made : ∀ one, char (fresh one) = one) (found : Compiled) (before : List Char) (skip : Nat)
    (cells : List α) : (subKeyword char fresh found before skip cells).map char =
      subKeyword id id found before skip (cells.map char) := by
  induction cells generalizing before skip with
  | nil => cases skip <;> rfl
  | cons cell rest ih =>
    cases skip with
    | succ skip => exact ih _ skip
    | zero =>
      rw [List.map_cons,subKeyword,subKeyword,List.map_id,List.map_cons]
      cases found before (char cell :: rest.map char) with
      | none => exact congrArg (char cell :: ·) (ih _ 0)
      | some lengths =>
        simp only [List.map_append,fresh_map made,ih]
        rw [List.map_take,List.map_cons]
        rfl

theorem portable_fit : ∀ p ∈ portablePatterns, Fit '[' redactedTail p := by
  refine List.forall_mem_cons.mpr ⟨⟨by decide,by decide,by decide⟩,List.forall_mem_cons.mpr
    ⟨⟨by decide,by decide,by decide⟩,List.forall_mem_cons.mpr ⟨⟨by decide,by decide,by decide⟩,
      List.forall_mem_cons.mpr ⟨⟨by decide,by decide,by decide⟩,List.forall_mem_nil _⟩⟩⟩⟩

theorem subAll_map {patterns : List Pattern} (moves : ∀ p ∈ patterns, p.advances = true) (block cells : List α) :
    (subAll char block patterns cells).map char = subAll id (block.map char) patterns (cells.map char) := by
  induction patterns generalizing cells with
  | nil => rfl
  | cons p rest ih =>
    obtain ⟨first,moves⟩ := List.forall_mem_cons.mp moves
    have others := ih moves (p.sub char block cells)
    rw [sub_map first] at others
    exact others

theorem redact_map (char : α → Char) (fresh : Char → α) (made : ∀ one, char (fresh one) = one) (compile : String → Option Compiled) (keywords : List String)
    (cells : List α) :
    (redact char fresh compile keywords cells).map (List.map char) = redact id id compile keywords (cells.map char) := by
  have portable : (subAll char (redacted.map fresh) portablePatterns cells).map char =
      subAll id (redacted.map id) portablePatterns (cells.map char) := by
    rw [subAll_map fun p inside => (portable_fit p inside).moves,fresh_map made]
  have further (patterns : List Compiled) (cells : List α) :
      (patterns.foldl (fun cells found => subKeyword char fresh found [] 0 cells) cells).map char =
        patterns.foldl (fun cells found => subKeyword id id found [] 0 cells) (cells.map char) := by
    induction patterns generalizing cells with
    | nil => rfl
    | cons found rest ih => rw [List.foldl_cons,ih,subKeyword_map made,List.foldl_cons]
  unfold redact
  cases buildKeywordPatterns compile keywords with
  | none => rfl
  | some patterns => exact congrArg some (by rw [further,portable])

end

section
variable {compile : String → Option Compiled} {text : String} {keywords : List String} {cells : List Cell} {place : Nat}

theorem cellsOf_chars (text : List Char) : (cellsOf text).map Cell.char = text := by
  rw [cellsOf,List.map_map]
  exact List.zipIdx_map_fst 0 text

theorem tracked_text : (tracked compile text keywords).map (fun cells => String.ofList (cells.map Cell.char)) =
    redactForTts compile text keywords := by
  have same := redact_map Cell.char (Cell.mk · none) (fun _ => rfl) compile keywords (cellsOf text.toList)
  rw [cellsOf_chars] at same
  rw [redactForTts,← same,Option.map_map]
  rfl

theorem cellsOf_getElem? (text : List Char) (index : Nat) :
    (cellsOf text)[index]? = text[index]?.map fun char => ⟨char,some index⟩ := by
  rw [cellsOf,List.getElem?_map,List.getElem?_zipIdx,Option.map_map,Nat.zero_add]
  rfl

theorem cellsOf_inPlace (text : List Char) : InPlace Cell.origin (cellsOf text) := by
  intro index cell place there named
  rw [cellsOf_getElem?] at there
  obtain ⟨char,_,rfl⟩ := Option.map_eq_some_iff.mp there
  exact (Option.some.inj named).symm

theorem cellsOf_stands (text : List Char) (place : Nat) : Stands Cell.origin (cellsOf text) place ↔ place < text.length := by
  rw [stands_iff (cellsOf_inPlace text),cellsOf_getElem?]
  by_cases inside : place < text.length
  · simp [inside]
  · simp [inside]

theorem subKeyword_stands {found : Compiled} {before : List Char} {skip : Nat}
    (stands : Stands Cell.origin (subKeyword Cell.char (Cell.mk · none) found before skip cells) place) :
    Stands Cell.origin cells place := by
  induction cells generalizing before skip with
  | nil => cases skip <;> exact stands
  | cons cell rest ih =>
    have later {before : List Char} {skip : Nat}
        (stands : Stands Cell.origin (subKeyword Cell.char (Cell.mk · none) found before skip rest) place) :
        Stands Cell.origin (cell :: rest) place := by
      obtain ⟨other,inside,named⟩ := ih stands
      exact ⟨other,.tail _ inside,named⟩
    cases skip with
    | succ skip => exact later stands
    | zero =>
      rw [subKeyword] at stands
      cases taken : found before ((cell :: rest).map Cell.char) with
      | none =>
        rw [taken] at stands
        obtain ⟨other,inside,named⟩ := stands
        rcases List.mem_cons.mp inside with rfl | further
        · exact ⟨other,List.mem_cons_self,named⟩
        · exact later ⟨other,further,named⟩
      | some lengths =>
        rw [taken] at stands
        obtain ⟨other,inside,named⟩ := stands
        rcases List.mem_append.mp inside with first | further
        · rcases List.mem_append.mp first with kept | new
          · exact ⟨other,List.mem_of_mem_take kept,named⟩
          · obtain ⟨one,_,rfl⟩ := List.mem_map.mp new
            cases named
        · exact later ⟨other,further,named⟩

theorem portable_stands (text : List Char) (place : Nat) :
    Stands Cell.origin (subAll Cell.char (redacted.map (Cell.mk · none)) portablePatterns (cellsOf text)) place ↔
      place < text.length ∧ ¬StruckOut '[' portablePatterns text place := by
  let mark := Cell.mk '[' none
  let tail := redactedTail.map (Cell.mk · none)
  have alike : Alike mark tail (subAll Cell.char (mark :: tail) portablePatterns (cellsOf text))
      (strikeAll Cell.char mark portablePatterns (cellsOf text)) := subAll_alike portable_fit (Alike.refl _)
  have unborn : ∀ cell ∈ mark :: tail, cell.origin = none := by
    intro cell inside
    obtain ⟨one,_,rfl⟩ := List.mem_map.mp (show cell ∈ redacted.map (Cell.mk · none) from inside)
    rfl
  have moves : ∀ p ∈ portablePatterns, p.advances = true := fun p inside => (portable_fit p inside).moves
  have struck : Stands Cell.origin (strikeAll Cell.char mark portablePatterns (cellsOf text)) place ↔
      Stands Cell.origin (cellsOf text) place ∧ ¬StruckOut '[' portablePatterns ((cellsOf text).map Cell.char) place :=
    strikeAll_stands rfl moves (cellsOf_inPlace text) place
  rw [cellsOf_chars,cellsOf_stands] at struck
  exact (alike_stands unborn alike place).trans struck

end

def HiddenAlone (text : List Char) (place : Nat) : Prop := ∃ p ∈ portablePatterns, p.Hides text place

-- Whatever the keywords are, no character of the input is in the output that one of the
-- patterns hides.
def NothingReadable (compile : String → Option Compiled) (text : String) : Prop :=
  ∀ keywords cells, tracked compile text keywords = some cells →
    ∀ place, HiddenAlone text.toList place → ¬Stands Cell.origin cells place

def InKey (text : List Char) (place : Nat) : Prop :=
  ∃ before body after, text = before ++ (['s','k','-'] ++ (body ++ after)) ∧ 20 ≤ body.length ∧
    (∀ char ∈ body, keyChar char = true) ∧ before.length ≤ place ∧ place + after.length < text.length

def InToken (text : List Char) (place : Nat) : Prop :=
  ∃ before body padding after, text = before ++ (body ++ (padding ++ after)) ∧ 40 ≤ body.length ∧
    (∀ char ∈ body, tokenChar char = true) ∧ (∀ char ∈ padding, (char == '=') = true) ∧
    before.length ≤ place ∧ place + after.length < text.length

def InTilde (text : List Char) (place : Nat) : Prop :=
  ∃ before body after, text = before ++ (['~','/'] ++ (body ++ after)) ∧ 1 ≤ body.length ∧
    (∀ char ∈ body, pathChar char = true) ∧ before.length ≤ place ∧ place + after.length < text.length

-- The text with what the pattern hides crossed out, each character in its place. A crossed
-- character belongs to no key, to no token, and to any path.
def crossOut (text : List Char) (p : Pattern) : List Char := strike '[' (p.cover id text) text

section
variable {text : List Char} {place : Nat}

theorem secretKey_hides : secretKey.Hides text place ↔ InKey text place :=
  hides_word_iff (List.all_eq_true.mp rfl) (by decide) text place

theorem base64Token_hides : base64Token.Hides text place ↔ InToken text place := by
  apply hides_pad_iff _ (by decide) text place
  intro char pads
  rw [beq_iff_eq.mp pads]
  decide

theorem tildePath_hides : tildePath.Hides text place ↔ InTilde text place :=
  hides_word_iff (List.all_eq_true.mp rfl) (by decide) text place

theorem hiddenAlone_inside (hidden : HiddenAlone text place) : place < text.length := by
  obtain ⟨p,inside,hidden⟩ := hidden
  have whole : (p.cover id text).length = text.length := cover_length (portable_fit p inside).moves text
  rw [← whole]
  exact (List.getElem?_eq_some_iff.mp hidden).1

-- In a key; in a token, where keys are crossed out; in a home path, where tokens are too; or
-- in a path from `~/`, where those home paths are too.
def Covered (text : List Char) (place : Nat) : Prop :=
  let keyless := crossOut text secretKey
  let tokenless := crossOut keyless base64Token
  InKey text place ∨ InToken keyless place ∨ homePath.Hides tokenless place ∨ InTilde (crossOut tokenless homePath) place

theorem struckOut_iff : StruckOut '[' portablePatterns text place ↔ Covered text place := by
  simp only [portablePatterns,StruckOut,secretKey_hides,base64Token_hides,tildePath_hides,or_false]
  rfl

end

theorem layers_hide_iff (compile : String → Option Compiled) (text : String) :
    NothingReadable compile text ↔ ∀ place, HiddenAlone text.toList place → Covered text.toList place := by
  have portable := portable_stands text.toList
  simp only [struckOut_iff] at portable
  constructor
  · intro unreadable place hidden
    apply Classical.byContradiction
    intro bare
    exact unreadable [] _ rfl place hidden ((portable place).mpr ⟨hiddenAlone_inside hidden,bare⟩)
  · intro covered keywords cells written place hidden stands
    obtain ⟨patterns,_,rfl⟩ := Option.map_eq_some_iff.mp written
    have stood (patterns : List Compiled) (cells : List Cell)
        (stands : Stands Cell.origin (patterns.foldl (fun cells found =>
          subKeyword Cell.char (Cell.mk · none) found [] 0 cells) cells) place) : Stands Cell.origin cells place := by
      induction patterns generalizing cells with
      | nil => exact stands
      | cons found rest ih => exact subKeyword_stands (ih _ stands)
    exact ((portable place).mp (stood patterns _ stands)).2 (covered place hidden)

def cutToken : String := "sk-aaaaaaaaaaaaaaaaaaaa+bbbbbbbbbbbbbbbbbbbbbbbbbbbbbbb"

theorem cut_token_readable : ¬∀ (compile : String → Option Compiled) (text : String), NothingReadable compile text := by
  intro all
  have hidden : HiddenAlone cutToken.toList 23 := by
    refine ⟨base64Token,.tail _ List.mem_cons_self,?_⟩
    unfold Pattern.Hides
    decide +kernel
  have stands : Stands Cell.origin (subAll Cell.char (redacted.map (Cell.mk · none)) portablePatterns
      (cellsOf cutToken.toList)) 23 := ⟨⟨'+',some 23⟩,by decide +kernel,rfl⟩
  exact all (fun _ => none) cutToken [] _ rfl 23 hidden stands

end HyprlandAgent.Redact
