import HyprlandAgent.JsonLoads
import Mathlib.Data.List.Basic

-- Python's `json.dumps` on a list of texts, read back by `json.loads`, and told from the
-- text that it was put behind.
namespace JsonDumps
open JsonLoads

-- `ESCAPE_DCT`
def escapeNames : List (Char × Char) :=
  [('\x5c','\x5c'),('\x22','\x22'),('\x08','b'),('\x0c','f'),('\n','n'),('\r','r'),('\t','t')]

def escapeUnit (unit : Nat) : List Char :=
  '\x5c' :: 'u' :: [unit / 0x1000,unit / 0x100 % 16,unit / 0x10 % 16,unit % 16].map Nat.digitChar

def highUnit (point : Nat) : Nat := 0xd800 + (point - 0x10000) / 0x400
def lowUnit (point : Nat) : Nat := 0xdc00 + (point - 0x10000) % 0x400

def printable (char : Char) : Bool := 0x20 ≤ char.toNat && char.toNat ≤ 0x7e

def escapeChar (char : Char) : List Char :=
  match escapeNames.lookup char with
  | some name => ['\x5c',name]
  | none =>
    if printable char then [char]
    else if char.toNat < 0x10000 then escapeUnit char.toNat
    else escapeUnit (highUnit char.toNat) ++ escapeUnit (lowUnit char.toNat)

def escape (chars : List Char) : List Char := chars.flatMap escapeChar

def quoted (text : String) : List Char := '\x22' :: (escape text.toList ++ ['\x22'])

def items : List String → List Char
  | [] => []
  | [text] => quoted text
  | text :: rest => quoted text ++ ',' :: ' ' :: items rest

def dumps (texts : List String) : String := String.ofList ('[' :: (items texts ++ [']']))

def textOf : Value → Option String
  | .str text => some (String.ofList (text.map Char.ofNat))
  | _ => none

def loadsTexts (limits : Limits) (text : String) : List String :=
  match scan limits (Place.start (points text)) with
  | .ok (.arr values) => values.filterMap textOf
  | _ => []

section
variable {limits : Limits} {rest : Text} {char : Char}

def codes (chars : List Char) : Text := chars.map Char.toNat

def unitsOf (char : Char) : List (Bool × Nat) :=
  if (escapeNames.lookup char).isSome ∨ printable char then [(false,char.toNat)]
  else if char.toNat < 0x10000 then [(true,char.toNat)]
  else [(true,highUnit char.toNat),(true,lowUnit char.toNat)]

theorem hexDigit_digitChar {digit : Nat} (small : digit < 16) :
    hexDigit (Nat.digitChar digit).toNat = some digit := by
  have all : ∀ d : Fin 16, hexDigit (Nat.digitChar d).toNat = some d.val := by decide
  exact all ⟨digit,small⟩

theorem stringUnits_escapeUnit {unit : Nat} (small : unit < 0x10000) :
    stringUnits (codes (escapeUnit unit) ++ rest) =
      (stringUnits rest).map fun read => ((true,unit) :: read.1,read.2) := by
  have first := hexDigit_digitChar (show unit / 0x1000 < 16 by omega)
  have second := hexDigit_digitChar (show unit / 0x100 % 16 < 16 by omega)
  have third := hexDigit_digitChar (show unit / 0x10 % 16 < 16 by omega)
  have fourth := hexDigit_digitChar (show unit % 16 < 16 by omega)
  have whole : ((unit / 0x1000 * 16 + unit / 0x100 % 16) * 16 + unit / 0x10 % 16) * 16 + unit % 16 = unit := by omega
  have read : hex4 (Nat.digitChar (unit / 0x1000)).toNat (Nat.digitChar (unit / 0x100 % 16)).toNat
      (Nat.digitChar (unit / 0x10 % 16)).toNat (Nat.digitChar (unit % 16)).toNat = some unit := by
    simp only [hex4,first,second,third,fourth,bind,Option.bind,pure,whole]
  simp only [codes,escapeUnit,List.map_cons,List.map_nil,List.cons_append,List.nil_append]
  rw [stringUnits,if_neg (by decide),if_pos rfl]
  simp only [if_true,read]

theorem stringUnits_named {name : Char} (found : escapeNames.lookup char = some name) :
    stringUnits (codes ['\x5c',name] ++ rest) =
      (stringUnits rest).map fun read => ((false,char.toNat) :: read.1,read.2) := by
  have all : ∀ pair ∈ escapeNames, ('\x5c'.toNat ≠ '\x22'.toNat ∧ pair.2.toNat ≠ 'u'.toNat) ∧
      (escapes.find? (·.1.toNat == pair.2.toNat)).map Prod.snd = some pair.1.toNat := by decide
  obtain ⟨before,after,split,_⟩ := List.lookup_eq_some_iff.mp found
  have ⟨⟨quote,long⟩,named⟩ := all (char,name) (by simp [split])
  obtain ⟨entry,there,same⟩ := Option.map_eq_some_iff.mp named
  simp only [codes,List.map_cons,List.map_nil,List.cons_append,List.nil_append]
  rw [stringUnits.eq_def]
  simp only [if_neg quote,if_true,if_neg long,there,same]

theorem not_escaped {code : Char} (named : code ∈ ['\x22','\x5c']) : (escapeNames.lookup code).isSome = true := by
  simp only [List.mem_cons,List.not_mem_nil,or_false] at named
  rcases named with rfl | rfl <;> rfl

theorem stringUnits_plain (unnamed : escapeNames.lookup char = none) (shown : printable char = true) :
    stringUnits (codes [char] ++ rest) =
      (stringUnits rest).map fun read => ((false,char.toNat) :: read.1,read.2) := by
  have apart {code : Char} (named : code ∈ ['\x22','\x5c']) : char.toNat ≠ code.toNat := by
    intro same
    have known := not_escaped named
    rw [← Char.toNat_inj.mp same,unnamed] at known
    cases known
  have low : ¬char.toNat < 0x20 := by
    simp only [printable,Bool.and_eq_true,decide_eq_true_eq] at shown
    omega
  simp only [codes,List.map_cons,List.map_nil,List.cons_append,List.nil_append]
  rw [stringUnits.eq_def]
  simp only [if_neg (apart List.mem_cons_self),if_neg (apart (.tail _ List.mem_cons_self)),if_neg low]

theorem char_range (char : Char) : char.toNat < 0xd800 ∨ 0xdfff < char.toNat ∧ char.toNat < 0x110000 :=
  char.valid

-- The cases are those of the writer.
theorem stringUnits_escapeChar : stringUnits (codes (escapeChar char) ++ rest) =
    (stringUnits rest).map fun read => (unitsOf char ++ read.1,read.2) := by
  have range := char_range char
  unfold escapeChar unitsOf
  cases named : escapeNames.lookup char with
  | some name => exact stringUnits_named named
  | none =>
    by_cases shown : printable char = true
    · simp only [shown,if_true,or_true]
      exact stringUnits_plain named shown
    · by_cases small : char.toNat < 0x10000
      · simp only [if_neg shown,if_pos small,Option.isSome_none,Bool.false_eq_true,false_or]
        exact stringUnits_escapeUnit small
      · simp only [if_neg shown,if_neg small,Option.isSome_none,Bool.false_eq_true,false_or]
        have high : highUnit char.toNat < 0x10000 := by unfold highUnit; omega
        have low : lowUnit char.toNat < 0x10000 := by unfold lowUnit; omega
        have split : codes (escapeUnit (highUnit char.toNat) ++ escapeUnit (lowUnit char.toNat)) =
            codes (escapeUnit (highUnit char.toNat)) ++ codes (escapeUnit (lowUnit char.toNat)) := List.map_append
        rw [split,List.append_assoc,stringUnits_escapeUnit high,stringUnits_escapeUnit low,Option.map_map]
        rfl

theorem stringUnits_escape (chars : List Char) : stringUnits (codes (escape chars) ++ '\x22'.toNat :: rest) =
    some (chars.flatMap unitsOf,rest) := by
  induction chars with
  | nil =>
    rw [escape,List.flatMap_nil,codes,List.map_nil,List.nil_append,stringUnits.eq_def]
    simp only [if_true,List.flatMap_nil]
  | cons char more ih =>
    have split : codes (escape (char :: more)) = codes (escapeChar char) ++ codes (escape more) := by
      rw [codes,escape,List.flatMap_cons,List.map_append]
      rfl
    rw [split,List.append_assoc,stringUnits_escapeChar,ih,List.flatMap_cons]
    rfl

theorem joinPairs_unitsOf (more : List (Bool × Nat)) :
    joinPairs (unitsOf char ++ more) = char.toNat :: joinPairs more := by
  have range := char_range char
  have single (marked : Bool) (narrow : ¬isHigh char.toNat) :
      joinPairs ((marked,char.toNat) :: more) = char.toNat :: joinPairs more := by
    cases more with
    | nil => rfl
    | cons unit others => simp [joinPairs,narrow]
  have narrow : ¬isHigh char.toNat := by
    simp only [isHigh,Bool.and_eq_true,decide_eq_true_eq]
    omega
  unfold unitsOf
  split
  · exact single false narrow
  · split
    · exact single true narrow
    · have high : isHigh (highUnit char.toNat) = true := by
        simp only [isHigh,Bool.and_eq_true,decide_eq_true_eq]
        unfold highUnit
        omega
      have low : isLow (lowUnit char.toNat) = true := by
        simp only [isLow,Bool.and_eq_true,decide_eq_true_eq]
        unfold lowUnit
        omega
      have joined : 0x10000 + (highUnit char.toNat - 0xd800) * 0x400 + (lowUnit char.toNat - 0xdc00) = char.toNat := by
        unfold highUnit lowUnit
        omega
      simp [joinPairs,high,low,joined]

theorem scanString_escape (chars : List Char) :
    scanString (codes (escape chars) ++ '\x22'.toNat :: rest) = some (codes chars,rest) := by
  have joined : joinPairs (chars.flatMap unitsOf) = codes chars := by
    induction chars with
    | nil => rfl
    | cons char more ih => rw [List.flatMap_cons,joinPairs_unitsOf,ih]; rfl
  rw [scanString,stringUnits_escape,Option.map_some,joined]

end

section
variable {limits : Limits} {opened : List Open} {rest : Text} {p q : Place}

theorem scan_next (fits : p.overrun limits = none) (taken : p.step = .next q) : scan limits p = scan limits q := by
  rw [scan_eq,fits,taken]

def literal (text : String) : Value := .str (points text)

theorem codes_quoted (text : String) : codes (quoted text) ++ rest =
    '\x22'.toNat :: (codes (escape text.toList) ++ '\x22'.toNat :: rest) := by
  simp [codes,quoted]

theorem scanOnce_quoted (text : String) :
    scanOnce opened (codes (quoted text) ++ rest) = .next ⟨opened,.after (literal text),rest⟩ := by
  rw [codes_quoted,scanOnce]
  simp only [eat,if_true,scanString_escape]
  rfl

theorem ahead_quoted (want : Want) (text : String) :
    (Place.mk opened want (codes (quoted text) ++ rest)).ahead = codes (quoted text) ++ rest := by
  rw [codes_quoted]
  rfl

theorem valueOverrun_quoted (text : String) : valueOverrun limits opened (codes (quoted text) ++ rest) = none := by
  rw [codes_quoted]
  rfl

theorem scan_quoted (text : String) :
    scan limits ⟨opened,.value,codes (quoted text) ++ rest⟩ = scan limits ⟨opened,.after (literal text),rest⟩ := by
  apply scan_next
  · rw [Place.overrun,ahead_quoted,valueOverrun_quoted]
  · rw [Place.step,ahead_quoted]
    exact scanOnce_quoted text

theorem scan_space (want : Want) : scan limits ⟨opened,want,' '.toNat :: rest⟩ = scan limits ⟨opened,want,rest⟩ := by
  rw [scan_eq,scan_eq limits ⟨opened,want,rest⟩]
  rfl

theorem scan_done (value : Value) : scan limits ⟨[],.after value,[]⟩ = .ok value := by
  rw [scan_eq]
  rfl

theorem scan_closed (value : Value) (read : List Value) :
    scan limits ⟨[.array read],.after value,codes [']']⟩ = .ok (.arr (read ++ [value])) :=
  (scan_next rfl rfl).trans (scan_done _)

theorem scan_items (text : String) (texts : List String) (read : List Value) :
    scan limits ⟨[.array read],.value,codes (items (text :: texts) ++ [']'])⟩ =
      .ok (.arr (read ++ (text :: texts).map literal)) := by
  induction texts generalizing text read with
  | nil =>
    rw [items,codes,List.map_append]
    exact (scan_quoted text).trans (scan_closed _ _)
  | cons other others ih =>
    have written : codes (items (text :: other :: others) ++ [']']) = codes (quoted text) ++
        (','.toNat :: ' '.toNat :: codes (items (other :: others) ++ [']'])) := by
      simp [codes,items]
    have further : scan limits ⟨[.array read],.after (literal text),
        ','.toNat :: ' '.toNat :: codes (items (other :: others) ++ [']'])⟩ =
        scan limits ⟨[.array (read ++ [literal text])],.value,
          ' '.toNat :: codes (items (other :: others) ++ [']'])⟩ := scan_next rfl rfl
    rw [written,scan_quoted,further,scan_space,ih,List.append_assoc]
    rfl

theorem items_first (text : String) (texts : List String) :
    ∃ rest, codes (items (text :: texts) ++ [']']) = codes (quoted text) ++ rest := by
  cases texts with
  | nil => exact ⟨_,List.map_append⟩
  | cons other others =>
    refine ⟨codes (',' :: ' ' :: items (other :: others) ++ [']']),?_⟩
    simp [codes,items]

theorem scan_dumps (texts : List String) (shallow : 0 < limits.depth) :
    scan limits (Place.start (points (dumps texts))) = .ok (.arr (texts.map literal)) := by
  have written : points (dumps texts) = '['.toNat :: codes (items texts ++ [']']) := by
    rw [points,dumps,String.toList_ofList]
    rfl
  have opens : scan limits ⟨[],.value,'['.toNat :: codes (items texts ++ [']'])⟩ =
      scan limits ⟨[.array []],.firstItem,codes (items texts ++ [']'])⟩ := by
    apply scan_next
    · have room : ¬limits.depth ≤ 0 := by omega
      exact if_neg room
    · rfl
  rw [written,Place.start,opens]
  cases texts with
  | nil =>
    have closed : scan limits ⟨[.array []],.firstItem,codes [']']⟩ = scan limits ⟨[],.after (.arr []),[]⟩ :=
      scan_next rfl rfl
    exact closed.trans (scan_done _)
  | cons text others =>
    have first : scan limits ⟨[.array []],.firstItem,codes (items (text :: others) ++ [']'])⟩ =
        scan limits ⟨[.array []],.value,codes (items (text :: others) ++ [']'])⟩ := by
      obtain ⟨rest,split⟩ := items_first text others
      rw [split,scan_eq,scan_eq limits ⟨_,.value,_⟩]
      rw [codes_quoted]
      rfl
    rw [first,scan_items]
    rfl

theorem textOf_literal (text : String) : textOf (literal text) = some text := by
  have chars : (points text).map Char.ofNat = text.toList := by
    rw [points,List.map_map]
    exact List.map_id'' Char.ofNat_toNat _
  rw [literal,textOf,chars,String.ofList_toList]

theorem loadsTexts_dumps (texts : List String) (shallow : 0 < limits.depth) :
    loadsTexts limits (dumps texts) = texts := by
  have read : (texts.map literal).filterMap textOf = texts := by
    rw [List.filterMap_map]
    exact (List.filterMap_congr fun text _ => textOf_literal text).trans List.filterMap_some
  rw [loadsTexts,scan_dumps texts shallow]
  exact read

theorem dumps_injective {one two : List String} (same : dumps one = dumps two) : one = two := by
  have read := loadsTexts_dumps one (show 0 < (Limits.mk 0 1).depth from Nat.one_pos)
  rw [same,loadsTexts_dumps two Nat.one_pos] at read
  exact read.symm

end

inductive Side where
  | outside | inside | escaped
  deriving DecidableEq, Repr

def pass (mark : Char) : Side → Char → Option Side
  | .outside,char =>
    if char = '\x22' then some .inside else if char = '\x5c' ∨ char = mark then none else some .outside
  | .inside,char =>
    if char = '\x22' then some .outside else if char = '\x5c' then some .escaped else some .inside
  | .escaped,_ => some .inside

section
variable {mark : Char} {text : List Char} {char : Char}

def passes (mark : Char) (side : Side) (text : List Char) : Option Side := text.foldlM (pass mark) side

theorem passes_append (side : Side) (one two : List Char) :
    passes mark side (one ++ two) = (passes mark side one).bind fun next => passes mark next two :=
  List.foldlM_append

theorem pass_plain (plain : char ∉ ['\x22','\x5c']) : pass mark .inside char = some .inside := by
  have unquoted : char ≠ '\x22' := fun same => plain (by simp [same])
  have unescaped : char ≠ '\x5c' := fun same => plain (by simp [same])
  rw [pass,if_neg unquoted,if_neg unescaped]

theorem passes_plain (plain : ∀ char ∈ text, char ∉ ['\x22','\x5c']) : passes mark .inside text = some .inside := by
  induction text with
  | nil => rfl
  | cons char rest ih =>
    rw [passes,List.foldlM_cons,pass_plain (plain char List.mem_cons_self)]
    exact ih fun other inside => plain other (.tail _ inside)

theorem digitChar_plain {digit : Nat} (small : digit < 16) : Nat.digitChar digit ∉ ['\x22','\x5c'] := by
  have all : ∀ d : Fin 16, Nat.digitChar d ∉ ['\x22','\x5c'] := by decide
  exact all ⟨digit,small⟩

theorem passes_escapeUnit {unit : Nat} (small : unit < 0x10000) :
    passes mark .inside (escapeUnit unit) = some .inside := by
  have digits : ∀ char ∈ [unit / 0x1000,unit / 0x100 % 16,unit / 0x10 % 16,unit % 16].map Nat.digitChar,
      char ∉ ['\x22','\x5c'] := by
    intro char inside
    obtain ⟨digit,listed,rfl⟩ := List.mem_map.mp inside
    apply digitChar_plain
    simp only [List.mem_cons,List.not_mem_nil,or_false] at listed
    omega
  have named : passes mark .inside (escapeUnit unit) = passes mark .inside
    ([unit / 0x1000,unit / 0x100 % 16,unit / 0x10 % 16,unit % 16].map Nat.digitChar) := rfl
  rw [named,passes_plain digits]

theorem passes_escapeChar : passes mark .inside (escapeChar char) = some .inside := by
  have range := char_range char
  unfold escapeChar
  cases named : escapeNames.lookup char with
  | some name => rfl
  | none =>
    have plain : ∀ other ∈ [char], other ∉ ['\x22','\x5c'] := by
      intro other listed special
      have known := not_escaped special
      rw [List.mem_singleton.mp listed,named] at known
      cases known
    by_cases shown : printable char = true
    · simp only [shown,if_true]
      exact passes_plain plain
    · by_cases small : char.toNat < 0x10000
      · simp only [if_neg shown,if_pos small]
        exact passes_escapeUnit small
      · have high : highUnit char.toNat < 0x10000 := by unfold highUnit; omega
        have low : lowUnit char.toNat < 0x10000 := by unfold lowUnit; omega
        simp only [if_neg shown,if_neg small]
        rw [passes_append,passes_escapeUnit high,Option.bind_some]
        exact passes_escapeUnit low

theorem passes_escape (chars : List Char) : passes mark .inside (escape chars) = some .inside := by
  induction chars with
  | nil => rfl
  | cons char rest ih =>
    rw [escape,List.flatMap_cons,passes_append,passes_escapeChar]
    exact ih

theorem passes_quoted (text : String) : passes mark .outside (quoted text) = some .outside := by
  have opens : passes mark .outside (quoted text) = passes mark .inside (escape text.toList ++ ['\x22']) := rfl
  rw [opens,passes_append,passes_escape]
  rfl

theorem pass_between (plain : char ∉ ['\x22','\x5c',mark]) : pass mark .outside char = some .outside := by
  simp only [List.mem_cons,List.not_mem_nil,or_false,not_or] at plain
  rw [pass,if_neg plain.1,if_neg (not_or.mpr plain.2)]

theorem passes_items (comma : ',' ≠ mark) (space : ' ' ≠ mark) (texts : List String) :
    passes mark .outside (items texts) = some .outside := by
  have between : passes mark .outside [',',' '] = some .outside := by
    have first : pass mark .outside ',' = some .outside := pass_between (by simp [comma])
    have second : pass mark .outside ' ' = some .outside := pass_between (by simp [space])
    simp [passes,first,second]
  induction texts with
  | nil => rfl
  | cons text rest ih =>
    cases rest with
    | nil => exact passes_quoted text
    | cons other others =>
      have split : items (text :: other :: others) = quoted text ++ ([',',' '] ++ items (other :: others)) := rfl
      rw [split,passes_append,passes_quoted,Option.bind_some,passes_append,between,Option.bind_some,ih]

theorem passes_dumps (texts : List String) (unused : mark ∉ ['[',']',',',' ']) :
    passes mark .outside (dumps texts).toList = some .outside := by
  simp only [List.mem_cons,List.not_mem_nil,or_false,not_or] at unused
  obtain ⟨opening,closing,comma,space⟩ := unused
  have first : pass mark .outside '[' = some .outside := pass_between (by simp [Ne.symm opening])
  have last : pass mark .outside ']' = some .outside := pass_between (by simp [Ne.symm closing])
  rw [dumps,String.toList_ofList,passes,List.foldlM_cons,first]
  exact (passes_append _ _ _).trans (by rw [passes_items (Ne.symm comma) (Ne.symm space)]; simp [passes,last])

-- No text leads to the same side from both: where it meets a backslash, one of the two
-- readings has already failed.
theorem sides_apart {one two : Side} (left : passes mark .outside text = some one)
    (right : passes mark .inside text = some two) :
    one = .outside ∧ two = .inside ∨ one = .inside ∧ two = .outside := by
  induction text generalizing one two with
  | nil =>
    cases left
    cases right
    exact .inl ⟨rfl,rfl⟩
  | cons char rest ih =>
    obtain ⟨outer,passed,left⟩ := Option.bind_eq_some_iff.mp left
    obtain ⟨inner,shown,right⟩ := Option.bind_eq_some_iff.mp right
    by_cases quote : char = '\x22'
    · rw [pass,if_pos quote] at passed
      rw [pass,if_pos quote] at shown
      cases passed
      cases shown
      exact (ih right left).symm.imp And.symm And.symm
    · rw [pass,if_neg quote] at passed
      rw [pass,if_neg quote] at shown
      by_cases special : char = '\x5c' ∨ char = mark
      · rw [if_pos special] at passed
        cases passed
      · rw [if_neg special] at passed
        rw [if_neg (not_or.mp special).1] at shown
        cases passed
        cases shown
        exact ih left right

theorem no_mark_inside {ahead : List Char} {texts others : List String}
    (unused : mark ∉ ['\x22','\x5c','[',']',',',' '])
    (same : (dumps texts).toList = ahead ++ mark :: (dumps others).toList) : False := by
  have structural : mark ∉ ['[',']',',',' '] := fun listed => unused (.tail _ (.tail _ listed))
  have unquoted : mark ≠ '\x22' := fun equal => unused (by simp [equal])
  have whole := passes_dumps texts structural
  rw [same,passes_append] at whole
  obtain ⟨side,_,whole⟩ := Option.bind_eq_some_iff.mp whole
  obtain ⟨next,marked,behind⟩ := Option.bind_eq_some_iff.mp whole
  have within : next = .inside := by
    cases side with
    | outside =>
      rw [pass,if_neg unquoted,if_pos (.inr rfl)] at marked
      cases marked
    | inside =>
      rw [pass_plain fun listed => unused (List.mem_append_left _ listed)] at marked
      exact (Option.some.inj marked).symm
    | escaped => exact (Option.some.inj marked).symm
  rw [within] at behind
  rcases sides_apart (passes_dumps others structural) behind with ⟨_,equal⟩ | ⟨equal,_⟩ <;> cases equal

theorem marked_injective (mark : Char) {one two : String} {texts others : List String}
    (unused : mark ∉ ['\x22','\x5c','[',']',',',' '])
    (same : one ++ String.singleton mark ++ dumps texts = two ++ String.singleton mark ++ dumps others) :
    one = two ∧ texts = others := by
  have chars := congrArg String.toList same
  simp only [String.toList_append,String.toList_singleton,List.append_assoc,List.cons_append,List.nil_append] at chars
  have firsts {ahead : List Char} {texts others : List String}
      (split : mark :: (dumps texts).toList = ahead ++ mark :: (dumps others).toList) : ahead = [] := by
    cases ahead with
    | nil => rfl
    | cons char rest => exact (no_mark_inside unused (List.cons.inj split).2).elim
  rcases List.append_eq_append_iff.mp chars with ⟨rest,longer,split⟩ | ⟨rest,longer,split⟩
  · rw [firsts split,List.append_nil] at longer
    rw [firsts split] at split
    exact ⟨(String.toList_inj.mp longer).symm,dumps_injective (String.toList_inj.mp (List.cons.inj split).2)⟩
  · rw [firsts split,List.append_nil] at longer
    rw [firsts split] at split
    exact ⟨String.toList_inj.mp longer,(dumps_injective (String.toList_inj.mp (List.cons.inj split).2)).symm⟩

end
end JsonDumps
