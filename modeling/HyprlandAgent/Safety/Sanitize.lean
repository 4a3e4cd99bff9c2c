import HyprlandAgent.Orchestrator
import HyprlandAgent.Regex

-- Command sanitization: the patterns that a terminal command may not match, and the
-- spellings of the removal of the root.
namespace HyprlandAgent.Sanitize
open Orchestrator Regex

-- What Python brings: the characters of `\w`, and how a text is shown.
structure Python where
  word : Char → Bool
  repr : String → String
  word_ascii : ∀ char, char.toNat < 128 → word char = (char.isAlphanum || char == '_')

-- `\s`, `[a-zA-Z]` and `.`
def space : Pattern := .one isSpace
def letter : Pattern := .one Char.isAlpha
def any : Pattern := .one (· != '\n')

def agentPipe : Pattern :=
  .seq (.lits ['|']) (.seq (.star space)
    (.seq (.alt (.lits "hyprland-agent".toList) (.lits "agent".toList)) .boundary))

def background : Pattern := .seq (.lits ['&']) (.seq (.star space) .finish)

def forced : Pattern := .seq (.lits ['-']) (.seq (.star letter) (.seq (.lits ['f']) (.seq (.star letter) (.plus space))))

def rootRemoval : Pattern :=
  .seq .boundary (.seq (.lits ['r','m']) (.seq (.plus space) (.seq (.optional forced)
    (.seq (.lits ['/']) (.alt .finish space)))))

def mkfs : Pattern := .seq .boundary (.seq (.lits "mkfs".toList) .boundary)

def blockWrite : Pattern :=
  .seq .boundary (.seq (.lits "dd".toList) (.seq (.plus space) (.seq (.star any) (.lits "of=/dev/".toList))))

-- `_DENY_PATTERNS`, each with its text.
def denyPatterns : List (String × Pattern) :=
  [("\\|\\s*(hyprland-agent|agent)\\b",agentPipe),("&\\s*$",background),
    ("\\brm\\s+(-[a-zA-Z]*f[a-zA-Z]*\\s+)?/($|\\s)",rootRemoval),("\\bmkfs\\b",mkfs),
    ("\\bdd\\s+.*of=/dev/",blockWrite)]

section
variable (python : Python)

def sanitizeCommand (command : String) : Bool × String :=
  let stripped := strip command.toList
  match denyPatterns.find? fun pattern => search python.word pattern.2 stripped with
  | some pattern => (false,"blocked pattern: " ++ python.repr pattern.1)
  | none => (true,"")

end

-- What an option word asks for, by a letter or by a long name that may be shortened.
def asks (letters : List Char) (name : String) : List Char → Bool
  | '-' :: '-' :: long => !long.isEmpty && long.isPrefixOf name.toList
  | '-' :: short => short.any letters.contains
  | _ => false

-- `rm` with option words that together ask for recursion and force, and the operand `/`,
-- alone or followed by other words.
structure RootRemoval where
  lead : List Char
  options : List (List Char × List Char)
  gap : List Char
  rest : List Char
  lead_space : ∀ char ∈ lead, isSpace char = true
  some_option : options ≠ []
  gaps : ∀ option ∈ options, option.1 ≠ [] ∧ ∀ char ∈ option.1, isSpace char = true
  words : ∀ option ∈ options, option.2.head? = some '-' ∧ 2 ≤ option.2.length ∧ ∀ char ∈ option.2, isSpace char = false
  some_gap : gap ≠ []
  gap_space : ∀ char ∈ gap, isSpace char = true
  apart : ∀ char, rest.head? = some char → isSpace char = true
  recursion : options.any (fun option => asks ['r','R'] "recursive" option.2) = true
  force : options.any (fun option => asks ['f'] "force" option.2) = true

namespace RootRemoval
variable (removal : RootRemoval)

def spelled : List Char := removal.options.flatMap fun option => option.1 ++ option.2

def text : List Char := removal.lead ++ 'r' :: 'm' :: (removal.spelled ++ removal.gap ++ '/' :: removal.rest)

def command : String := String.ofList removal.text

-- The one spelling that the pattern knows: a single option word of letters, one of them f.
def KnownSpelling : Prop :=
  ∃ gap left right, removal.options = [(gap,'-' :: (left ++ 'f' :: right))] ∧ ∀ char ∈ left ++ right, char.isAlpha = true

def DeniedFurtherOn (python : Python) : Prop :=
  ∃ pattern ∈ denyPatterns, ∃ passed rest b, (strip removal.text).drop 2 = passed ++ rest ∧
    Matches python.word pattern.2 ⟨passed.reverse ++ ['m','r'],rest⟩ b

end RootRemoval

section
variable {python : Python} {p q : Pattern} {a b : Cursor} {test : Char → Bool} {s t x y : List Char}

theorem cut_unique (left : ∀ char ∈ s, test char = true) (right : ∀ char ∈ t, test char = true)
    (endsLeft : ∀ char, x.head? = some char → test char = false)
    (endsRight : ∀ char, y.head? = some char → test char = false) (same : s ++ x = t ++ y) : s = t ∧ x = y := by
  induction s generalizing t with
  | nil =>
    cases t with
    | nil => exact ⟨rfl,same⟩
    | cons char rest =>
      have started := endsLeft char (by rw [← List.nil_append x,same]; rfl)
      rw [right char List.mem_cons_self] at started
      cases started
  | cons char rest ih =>
    cases t with
    | nil =>
      have started := endsRight char (by rw [← List.nil_append y,← same]; rfl)
      rw [left char List.mem_cons_self] at started
      cases started
    | cons other more =>
      obtain ⟨rfl,others⟩ := List.cons.inj same
      obtain ⟨rfl,rest⟩ := ih (fun kept inside => left kept (List.mem_cons_of_mem _ inside))
        (fun kept inside => right kept (List.mem_cons_of_mem _ inside)) others
      exact ⟨rfl,rest⟩

theorem alpha_word {char : Char} (alpha : char.isAlpha = true) : isSpace char = false := by
  have range : 65 ≤ char.toNat ∧ char.toNat ≤ 122 := by
    have cases_ : char.isUpper = true ∨ char.isLower = true := (Bool.or_eq_true _ _).mp alpha
    have number : char.toNat = char.val.toNat := rfl
    rcases cases_ with upper | lower
    · have within : 'A'.val ≤ char.val ∧ char.val ≤ 'Z'.val := of_decide_eq_true upper
      have low := UInt32.le_iff_toNat_le.mp within.1
      have high := UInt32.le_iff_toNat_le.mp within.2
      simp at low high
      omega
    · obtain ⟨above,below⟩ := (Bool.and_eq_true _ _).mp lower
      have low := UInt32.le_iff_toNat_le.mp (of_decide_eq_true above)
      have high := UInt32.le_iff_toNat_le.mp (of_decide_eq_true below)
      simp at low high
      omega
  simp [isSpace]
  omega

theorem starts_lits {char : Char} {chars : List Char} (found : Matches python.word (.seq (.lits (char :: chars)) q) a b) :
    a.after.head? = some char := by
  obtain ⟨c,one,_⟩ := matches_seq.mp found
  rw [(matches_lits.mp one).after]
  rfl

theorem starts_boundary (found : Matches python.word (.seq .boundary p) a b) :
    a.atBoundary python.word = true ∧ Matches python.word p a b := by
  obtain ⟨c,one,two⟩ := matches_seq.mp found
  obtain ⟨there,rfl⟩ := matches_boundary.mp one
  exact ⟨there,two⟩

def Forced (text : List Char) : Prop :=
  ∃ left right gap, text = '-' :: (left ++ 'f' :: right) ++ gap ∧ (∀ char ∈ left ++ right, char.isAlpha = true) ∧
    gap ≠ [] ∧ ∀ char ∈ gap, isSpace char = true

theorem matches_forced : Matches python.word forced a b ↔ ∃ part, Forced part ∧ Spans part a b := by
  unfold forced space letter
  simp only [matches_seq,matches_lits,matches_star_one,matches_plus_one]
  constructor
  · rintro ⟨c,dash,d,⟨left,lefts,one⟩,e,f,g,⟨right,rights,two⟩,gap,some_,spaces,three⟩
    refine ⟨_,⟨left,right,gap,rfl,?_,some_,spaces⟩,?_⟩
    · intro char inside
      rcases List.mem_append.mp inside with early | late
      · exact lefts char early
      · exact rights char late
    · have whole := dash.trans (one.trans (f.trans (two.trans three)))
      simpa using whole
  · rintro ⟨part,⟨left,right,gap,rfl,letters,some_,spaces⟩,spans⟩
    have parts : '-' :: (left ++ 'f' :: right) ++ gap = ['-'] ++ (left ++ (['f'] ++ (right ++ gap))) := by simp
    rw [parts] at spans
    obtain ⟨c,dash,spans⟩ := spans.split
    obtain ⟨d,one,spans⟩ := spans.split
    obtain ⟨e,f,spans⟩ := spans.split
    obtain ⟨g,two,three⟩ := spans.split
    exact ⟨c,dash,d,⟨left,fun char inside => letters char (List.mem_append_left _ inside),one⟩,e,f,g,
      ⟨right,fun char inside => letters char (List.mem_append_right _ inside),two⟩,gap,some_,spaces,three⟩

theorem matches_rootRemoval : (∃ b, Matches python.word rootRemoval a b) ↔ a.atBoundary python.word = true ∧
    ∃ gap option rest, a.after = 'r' :: 'm' :: (gap ++ (option ++ '/' :: rest)) ∧
      (gap ≠ [] ∧ ∀ char ∈ gap, isSpace char = true) ∧ (option = [] ∨ Forced option) ∧
      ∀ char, rest.head? = some char → isSpace char = true := by
  unfold rootRemoval
  constructor
  · rintro ⟨b,found⟩
    obtain ⟨there,found⟩ := starts_boundary found
    refine ⟨there,?_⟩
    unfold space at found
    simp only [matches_seq,matches_lits,matches_plus_one,matches_optional,matches_alt,matches_finish,matches_one] at found
    obtain ⟨c,rm,d,⟨gap,some_,spaces,one⟩,e,chosen,f,slash,last⟩ := found
    have ended : ∀ char, f.after.head? = some char → isSpace char = true := by
      intro char first
      rcases last with ⟨finish,_⟩ | ⟨other,spaced,two⟩
      · simp only [Cursor.atFinish,Bool.or_eq_true,List.isEmpty_iff,beq_iff_eq] at finish
        rcases finish with none_ | line
        · rw [none_] at first
          cases first
        · rw [line] at first
          cases first
          rfl
      · rw [two.after] at first
        cases first
        exact spaced
    rcases chosen with forced_ | rfl
    · obtain ⟨option,known,two⟩ := matches_forced.mp forced_
      refine ⟨gap,option,f.after,?_,⟨some_,spaces⟩,.inr known,ended⟩
      simpa using (rm.trans (one.trans (two.trans slash))).after
    · refine ⟨gap,[],f.after,?_,⟨some_,spaces⟩,.inl rfl,ended⟩
      simpa using (rm.trans (one.trans slash)).after
  · rintro ⟨there,gap,option,rest,after,⟨some_,spaces⟩,chosen,ended⟩
    have spans : Spans (['r','m'] ++ (gap ++ (option ++ ['/']))) a
        ⟨(['r','m'] ++ (gap ++ (option ++ ['/']))).reverse ++ a.before,rest⟩ := ⟨by rw [after]; simp,rfl⟩
    obtain ⟨c,rm,spans⟩ := spans.split
    obtain ⟨d,one,spans⟩ := spans.split
    obtain ⟨e,two,slash⟩ := spans.split
    have picked : Matches python.word (.optional forced) d e := by
      rw [matches_optional]
      rcases chosen with rfl | known
      · exact .inr (two.eq (.refl d))
      · exact .inl (matches_forced.mpr ⟨option,known,two⟩)
    have closed : ∃ b, Matches python.word (.alt .finish space) ⟨(['r','m'] ++ (gap ++ (option ++ ['/']))).reverse ++
        a.before,rest⟩ b := by
      cases rest with
      | nil => exact ⟨_,.left (.finish rfl)⟩
      | cons char rest => exact ⟨_,.right (.one (ended char rfl))⟩
    obtain ⟨b,last⟩ := closed
    refine ⟨b,.seq (.boundary there) (.seq (matches_lits.mpr rm) (.seq ?_ (.seq picked (.seq (matches_lits.mpr slash) last))))⟩
    exact matches_plus_one.mpr ⟨gap,some_,spaces,one⟩

theorem starts_denied {pattern : String × Pattern} (inside : pattern ∈ denyPatterns)
    (found : Matches python.word pattern.2 a b) : (a.after.head? = some 'r' → pattern.2 = rootRemoval) ∧
      (a.after.head? = some 'm' → a.atBoundary python.word = true) := by
  simp only [denyPatterns,List.mem_cons,List.not_mem_nil,or_false] at inside
  rcases inside with rfl | rfl | rfl | rfl | rfl
  · rw [starts_lits found]
    exact ⟨fun same => absurd same (by decide),fun same => absurd same (by decide)⟩
  · rw [starts_lits found]
    exact ⟨fun same => absurd same (by decide),fun same => absurd same (by decide)⟩
  · exact ⟨fun _ => rfl,fun _ => (starts_boundary found).1⟩
  · refine ⟨?_,fun _ => (starts_boundary found).1⟩
    have first : a.after.head? = some 'm' := starts_lits (starts_boundary found).2
    rw [first]
    exact fun same => absurd same (by decide)
  · have first : a.after.head? = some 'd' := starts_lits (starts_boundary found).2
    rw [first]
    exact ⟨fun same => absurd same (by decide),fun same => absurd same (by decide)⟩

theorem sanitize_false {command : String} : (sanitizeCommand python command).1 = false ↔
    ∃ pattern ∈ denyPatterns, search python.word pattern.2 (strip command.toList) = true := by
  unfold sanitizeCommand
  simp only
  cases found : denyPatterns.find? fun pattern => search python.word pattern.2 (strip command.toList) with
  | none =>
    have missing := List.find?_eq_none.mp found
    constructor
    · intro refused
      cases refused
    · rintro ⟨pattern,inside,matched⟩
      exact absurd matched (missing pattern inside)
  | some pattern =>
    constructor
    · intro _
      exact ⟨pattern,List.mem_of_find?_eq_some found,by simpa using List.find?_some found⟩
    · intro _
      rfl

theorem search_rm {tail : List Char} : (∃ pattern ∈ denyPatterns, search python.word pattern.2 ('r' :: 'm' :: tail) = true) ↔
    (∃ b, Matches python.word rootRemoval ⟨[],'r' :: 'm' :: tail⟩ b) ∨
      ∃ pattern ∈ denyPatterns, ∃ passed rest b, tail = passed ++ rest ∧
        Matches python.word pattern.2 ⟨passed.reverse ++ ['m','r'],rest⟩ b := by
  constructor
  · rintro ⟨pattern,inside,matched⟩
    obtain ⟨passed,rest,b,split,found⟩ := search_iff.mp matched
    cases passed with
    | nil =>
      cases split
      have root := (starts_denied inside found).1 rfl
      exact .inl ⟨b,root ▸ found⟩
    | cons first passed =>
      obtain ⟨rfl,behind⟩ := List.cons.inj split
      clear split
      cases passed with
      | nil =>
        cases behind
        have there := (starts_denied inside found).2 rfl
        simp [Cursor.atBoundary,python.word_ascii 'r' (by decide),python.word_ascii 'm' (by decide)] at there
      | cons second passed =>
        obtain ⟨rfl,further⟩ := List.cons.inj behind
        refine .inr ⟨pattern,inside,passed,rest,b,further,?_⟩
        simpa using found
  · rintro (⟨b,found⟩ | ⟨pattern,inside,passed,rest,b,rfl,found⟩)
    · refine ⟨("\\brm\\s+(-[a-zA-Z]*f[a-zA-Z]*\\s+)?/($|\\s)",rootRemoval),by simp [denyPatterns],?_⟩
      exact search_iff.mpr ⟨[],_,b,rfl,found⟩
    · refine ⟨pattern,inside,search_iff.mpr ⟨'r' :: 'm' :: passed,rest,b,rfl,?_⟩⟩
      simpa using found

namespace RootRemoval
variable {removal : RootRemoval}

theorem strip_text : ∃ rest, strip removal.text = 'r' :: 'm' :: (removal.spelled ++ removal.gap ++ '/' :: rest) ∧
    ∀ char, rest.head? = some char → isSpace char = true := by
  have led : removal.text.dropWhile isSpace =
      ('r' :: 'm' :: (removal.spelled ++ removal.gap)) ++ '/' :: removal.rest := by
    rw [text,List.dropWhile_append_of_pos removal.lead_space]
    simp [isSpace]
  have trailed : ((('r' :: 'm' :: (removal.spelled ++ removal.gap)) ++ '/' :: removal.rest).reverse.dropWhile isSpace) =
      removal.rest.reverse.dropWhile isSpace ++ '/' :: ('r' :: 'm' :: (removal.spelled ++ removal.gap)).reverse := by
    have slash : isSpace '/' = false := by decide
    rw [List.reverse_append,List.reverse_cons,List.append_assoc,List.dropWhile_append]
    split
    · rename_i none_
      rw [List.isEmpty_iff.mp none_]
      simp [slash]
    · simp
  refine ⟨(removal.rest.reverse.dropWhile isSpace).reverse,?_,?_⟩
  · rw [strip,led,trailed]
    simp
  · intro char first
    obtain ⟨cut,whole⟩ := List.reverse_prefix.mpr (List.dropWhile_suffix isSpace (l:=removal.rest.reverse))
    rw [List.reverse_reverse] at whole
    apply removal.apart
    rw [← whole,List.head?_append,first]
    rfl

theorem gap_starts {gap rest : List Char} (some_ : gap ≠ []) (spaces : ∀ char ∈ gap, isSpace char = true) :
    ∀ char, (gap ++ rest).head? = some char → isSpace char = true := by
  intro char first
  cases gap with
  | nil => exact absurd rfl some_
  | cons other gap =>
    cases first
    exact spaces _ List.mem_cons_self

theorem word_starts {option : List Char × List Char} (inside : option ∈ removal.options) {more : List Char} {char : Char}
    (first : (option.2 ++ more).head? = some char) : char = '-' := by
  rw [List.head?_append,(removal.words option inside).1] at first
  exact (Option.some.inj first).symm

theorem word_black {option : List Char × List Char} (inside : option ∈ removal.options) {more : List Char} :
    ∀ char, (option.2 ++ more).head? = some char → isSpace char = false := by
  intro char first
  rw [removal.word_starts inside first]
  decide

theorem word_operand {option : List Char × List Char} (inside : option ∈ removal.options) {more last : List Char} :
    option.2 ++ more ≠ '/' :: last := by
  intro same
  have dash := word_starts inside (by rw [same]; rfl)
  exact absurd dash (by decide)

theorem more_starts {options : List (List Char × List Char)} (within : ∀ option ∈ options, option ∈ removal.options)
    (rest : List Char) : ∀ char, (options.flatMap (fun option => option.1 ++ option.2) ++ (removal.gap ++ rest)).head? =
      some char → isSpace char = true := by
  intro char first
  cases options with
  | nil => exact gap_starts removal.some_gap removal.gap_space char first
  | cons next others =>
    obtain ⟨some_,spaces⟩ := removal.gaps next (within next List.mem_cons_self)
    rw [List.flatMap_cons,List.append_assoc,List.append_assoc] at first
    exact gap_starts some_ spaces char first

theorem slash_black (last : List Char) : ∀ char, ('/' :: last).head? = some char → isSpace char = false := by
  intro char first
  cases first
  decide

theorem forced_black {left right : List Char} (letters : ∀ char ∈ left ++ right, char.isAlpha = true) :
    ∀ char ∈ '-' :: (left ++ 'f' :: right), isSpace char = false := by
  intro char taken
  rcases List.mem_cons.mp taken with rfl | taken
  · decide
  · rcases List.mem_append.mp taken with early | late
    · exact alpha_word (letters char (List.mem_append_left _ early))
    · rcases List.mem_cons.mp late with rfl | late
      · decide
      · exact alpha_word (letters char (List.mem_append_right _ late))

theorem options_end {options : List (List Char × List Char)} (within : ∀ option ∈ options, option ∈ removal.options)
    {behind last rest : List Char} (spaces : ∀ char ∈ behind, isSpace char = true)
    (same : options.flatMap (fun option => option.1 ++ option.2) ++ (removal.gap ++ rest) = behind ++ '/' :: last) :
    options = [] := by
  cases options with
  | nil => rfl
  | cons next others =>
    have inside := within next List.mem_cons_self
    rw [List.flatMap_cons,List.append_assoc,List.append_assoc] at same
    obtain ⟨_,operand⟩ := cut_unique (removal.gaps next inside).2 spaces (removal.word_black inside) (slash_black last) same
    exact absurd operand (removal.word_operand inside)

theorem taken_known {gap option rest last : List Char} (spaces : ∀ char ∈ gap, isSpace char = true)
    (chosen : option = [] ∨ Forced option)
    (whole : removal.spelled ++ removal.gap ++ '/' :: rest = gap ++ (option ++ '/' :: last)) : removal.KnownSpelling := by
  obtain ⟨head,more,listed⟩ := List.exists_cons_of_ne_nil removal.some_option
  have inside : head ∈ removal.options := listed ▸ List.mem_cons_self
  have within : ∀ other ∈ more, other ∈ removal.options := fun other later => listed ▸ List.mem_cons_of_mem _ later
  have spelled : removal.spelled = head.1 ++ (head.2 ++ more.flatMap fun option => option.1 ++ option.2) := by
    rw [RootRemoval.spelled,listed,List.flatMap_cons,List.append_assoc]
  rw [spelled] at whole
  simp only [List.append_assoc] at whole
  have chosenBlack : ∀ char, (option ++ '/' :: last).head? = some char → isSpace char = false := by
    intro char first
    rcases chosen with rfl | ⟨left,right,behind,rfl,_⟩
    · exact slash_black last char first
    · cases first
      decide
  obtain ⟨_,words⟩ := cut_unique (removal.gaps head inside).2 spaces (removal.word_black inside) chosenBlack whole
  rcases chosen with rfl | ⟨left,right,behind,rfl,letters,someBehind,behindSpace⟩
  · exact absurd words (removal.word_operand inside)
  · have wordBlack : ∀ char ∈ head.2, (!isSpace char) = true :=
      fun char taken => by rw [(removal.words head inside).2.2 char taken,Bool.not_false]
    have letterBlack : ∀ char ∈ '-' :: (left ++ 'f' :: right), (!isSpace char) = true :=
      fun char taken => by rw [forced_black letters char taken,Bool.not_false]
    rw [List.append_assoc] at words
    obtain ⟨word,tail⟩ := cut_unique wordBlack letterBlack
      (fun char first => by rw [removal.more_starts within _ char first,Bool.not_true])
      (fun char first => by rw [gap_starts someBehind behindSpace char first,Bool.not_true]) words
    rw [removal.options_end within behindSpace tail] at listed
    exact ⟨head.1,left,right,by rw [listed,← word],letters⟩

theorem knownSpelling_iff {rest : List Char} (apart : ∀ char, rest.head? = some char → isSpace char = true) :
    (∃ b, Matches python.word rootRemoval ⟨[],'r' :: 'm' :: (removal.spelled ++ removal.gap ++ '/' :: rest)⟩ b) ↔
      removal.KnownSpelling := by
  have there : (⟨[],'r' :: 'm' :: (removal.spelled ++ removal.gap ++ '/' :: rest)⟩ : Cursor).atBoundary python.word = true := by
    simp [Cursor.atBoundary,python.word_ascii 'r' (by decide)]
  rw [matches_rootRemoval,and_iff_right there]
  constructor
  · rintro ⟨gap,option,last,after,⟨_,spaces⟩,chosen,_⟩
    exact removal.taken_known spaces chosen (by simpa using after)
  · rintro ⟨gap,left,right,listed,letters⟩
    have inside : (gap,'-' :: (left ++ 'f' :: right)) ∈ removal.options := by
      rw [listed]
      exact List.mem_cons_self
    refine ⟨gap,'-' :: (left ++ 'f' :: right) ++ removal.gap,rest,?_,removal.gaps _ inside,.inr
      ⟨left,right,removal.gap,rfl,letters,removal.some_gap,removal.gap_space⟩,apart⟩
    simp [RootRemoval.spelled,listed]

end RootRemoval

-- The removal of the root is refused exactly if the pattern knows the spelling of its
-- options, or what follows `rm` is denied by itself.
theorem sanitize_root_iff (python : Python) (removal : RootRemoval) :
    (sanitizeCommand python removal.command).1 = false ↔ removal.KnownSpelling ∨ removal.DeniedFurtherOn python := by
  obtain ⟨rest,stripped,apart⟩ := removal.strip_text
  rw [sanitize_false,RootRemoval.command,String.toList_ofList,stripped,search_rm,RootRemoval.knownSpelling_iff apart,
    RootRemoval.DeniedFurtherOn,stripped]
  rfl

end

def asciiPython : Python where
  word char := char.isAlphanum || char == '_'
  repr text := "'" ++ String.ofList (text.toList.flatMap fun char => if char = '\\' then ['\\','\\'] else [char]) ++ "'"
  word_ascii _ _ := rfl

def splitOptions : RootRemoval where
  lead := []
  options := [([' '],['-','r']),([' '],['-','f'])]
  gap := [' ']
  rest := []
  lead_space := List.forall_mem_nil _
  some_option := List.cons_ne_nil _ _
  gaps := by
    have space : ∀ char ∈ [' '], isSpace char = true := List.forall_mem_singleton.mpr rfl
    intro option inside
    rcases List.mem_pair.mp inside with rfl | rfl
    · exact ⟨List.cons_ne_nil _ _,space⟩
    · exact ⟨List.cons_ne_nil _ _,space⟩
  words := by
    intro option inside
    rcases List.mem_pair.mp inside with rfl | rfl
    · exact ⟨rfl,Nat.le_refl 2,by simp [isSpace]⟩
    · exact ⟨rfl,Nat.le_refl 2,by simp [isSpace]⟩
  some_gap := List.cons_ne_nil _ _
  gap_space := List.forall_mem_singleton.mpr rfl
  apart := by
    intro char first
    cases first
  recursion := by decide
  force := by decide

theorem split_options_pass :
    ¬∀ (python : Python) (removal : RootRemoval), (sanitizeCommand python removal.command).1 = false := by
  intro all
  have refused := all asciiPython splitOptions
  have passed : (sanitizeCommand asciiPython splitOptions.command).1 = true := by decide
  rw [passed] at refused
  cases refused

end HyprlandAgent.Sanitize
