import Mathlib.Logic.Relation

-- Python's `json.loads` on bytes: the encoding that the bytes are taken for, the text
-- in them, and the scan of that text.
namespace JsonLoads

-- Code points. A surrogate may stand in a text on its own.
abbrev Text := List Nat

inductive Encoding where
  | utf8 | utf8Sig | utf16 | utf16le | utf16be | utf32 | utf32le | utf32be
  deriving DecidableEq, Repr

def bomUtf8 : List UInt8 := [0xef,0xbb,0xbf]
def bomUtf16le : List UInt8 := [0xff,0xfe]
def bomUtf16be : List UInt8 := [0xfe,0xff]
def bomUtf32le : List UInt8 := [0xff,0xfe,0,0]
def bomUtf32be : List UInt8 := [0,0,0xfe,0xff]

def detectEncoding (bytes : List UInt8) : Encoding :=
  if bomUtf32be.isPrefixOf bytes || bomUtf32le.isPrefixOf bytes then .utf32
  else if bomUtf16be.isPrefixOf bytes || bomUtf16le.isPrefixOf bytes then .utf16
  else if bomUtf8.isPrefixOf bytes then .utf8Sig
  else
    match bytes with
    | a :: b :: c :: d :: _ =>
      if a = 0 then (if b ≠ 0 then .utf16be else .utf32be)
      else if b = 0 then (if c ≠ 0 ∨ d ≠ 0 then .utf16le else .utf32le)
      else .utf8
    | [a,b] => if a = 0 then .utf16be else if b = 0 then .utf16le else .utf8
    | _ => .utf8

def isHigh (unit : Nat) : Bool := 0xd800 ≤ unit && unit < 0xdc00

def isLow (unit : Nat) : Bool := 0xdc00 ≤ unit && unit < 0xe000

-- One point for each pair of surrogates. Only marked units are taken for halves of one.
def joinPairs : List (Bool × Nat) → Text
  | [] => []
  | [(_,unit)] => [unit]
  | (marked,high) :: (other,low) :: more =>
    if marked && other && isHigh high && isLow low then
      (0x10000 + (high - 0xd800) * 0x400 + (low - 0xdc00)) :: joinPairs more
    else high :: joinPairs ((other,low) :: more)

def trails (byte : UInt8) : Bool := 0x80 ≤ byte && byte < 0xc0

def utf8Point (lead : Nat) (trail : List UInt8) : Nat :=
  trail.foldl (fun point byte => point * 0x40 + (byte.toNat - 0x80)) lead

-- UTF-8, where surrogates pass. A point may not be written longer than it has to be.
def utf8Text : List UInt8 → Option Text
  | [] => some []
  | a :: more =>
    if a < 0x80 then (utf8Text more).map (a.toNat :: ·)
    else
      match more with
      | [] => none
      | b :: more =>
        if 0xc2 ≤ a && a < 0xe0 && trails b then
          (utf8Text more).map (utf8Point (a.toNat - 0xc0) [b] :: ·)
        else
          match more with
          | [] => none
          | c :: more =>
            if 0xe0 ≤ a && a < 0xf0 && trails b && trails c &&
                0x800 ≤ utf8Point (a.toNat - 0xe0) [b,c] then
              (utf8Text more).map (utf8Point (a.toNat - 0xe0) [b,c] :: ·)
            else
              match more with
              | [] => none
              | d :: more =>
                if 0xf0 ≤ a && a < 0xf8 && trails b && trails c && trails d &&
                    0x10000 ≤ utf8Point (a.toNat - 0xf0) [b,c,d] &&
                    utf8Point (a.toNat - 0xf0) [b,c,d] < 0x110000 then
                  (utf8Text more).map (utf8Point (a.toNat - 0xf0) [b,c,d] :: ·)
                else none

def utf16Units (big : Bool) : List UInt8 → Option (List Nat)
  | [] => some []
  | [_] => none
  | a :: b :: more =>
    (utf16Units big more).map
      ((if big then a.toNat * 0x100 + b.toNat else b.toNat * 0x100 + a.toNat) :: ·)

def utf16Text (big : Bool) (bytes : List UInt8) : Option Text :=
  (utf16Units big bytes).map fun units => joinPairs (units.map (true,·))

def utf32Text (big : Bool) : List UInt8 → Option Text
  | [] => some []
  | a :: b :: c :: d :: more =>
    let point := (if big then [a,b,c,d] else [d,c,b,a]).foldl (fun sum byte => sum * 0x100 + byte.toNat) 0
    if point < 0x110000 then (utf32Text big more).map (point :: ·) else none
  | _ => none

-- `bytes.decode(encoding, "surrogatepass")`
def decode (bytes : List UInt8) : Encoding → Option Text
  | .utf8 => utf8Text bytes
  | .utf8Sig => utf8Text (bytes.drop 3)
  | .utf16 => utf16Text (bomUtf16be.isPrefixOf bytes) (bytes.drop 2)
  | .utf16le => utf16Text false bytes
  | .utf16be => utf16Text true bytes
  | .utf32 => utf32Text (bomUtf32be.isPrefixOf bytes) (bytes.drop 4)
  | .utf32le => utf32Text false bytes
  | .utf32be => utf32Text true bytes

-- A float is kept as it is written, `NaN` and the infinities too.
inductive Value where
  | null
  | bool (value : Bool)
  | int (value : Int)
  | float (literal : Text)
  | str (text : Text)
  | arr (items : List Value)
  | obj (fields : List (Text × Value))

-- `fields[key] = value`
def assign (fields : List (Text × Value)) (key : Text) (value : Value) : List (Text × Value) :=
  if fields.any (·.1 == key) then fields.map fun field => if field.1 == key then (key,value) else field
  else fields ++ [(key,value)]

def points (text : String) : Text := text.toList.map Char.toNat

def isSpace (point : Nat) : Bool := point = 0x20 || point = 0x09 || point = 0x0a || point = 0x0d

def isDigit (point : Nat) : Bool := 0x30 ≤ point && point ≤ 0x39

def eat (char : Char) : Text → Option Text
  | [] => none
  | point :: rest => if point = char.toNat then some rest else none

def eatWord (word rest : Text) : Option Text :=
  if word.isPrefixOf rest then some (rest.drop word.length) else none

def hexDigit (point : Nat) : Option Nat :=
  if isDigit point then some (point - 0x30)
  else if 0x61 ≤ point ∧ point ≤ 0x66 then some (point - 0x61 + 10)
  else if 0x41 ≤ point ∧ point ≤ 0x46 then some (point - 0x41 + 10)
  else none

def hex4 (a b c d : Nat) : Option Nat := do
  return (((← hexDigit a) * 16 + (← hexDigit b)) * 16 + (← hexDigit c)) * 16 + (← hexDigit d)

def escapes : List (Char × Nat) :=
  [('\x22',0x22),('\x5c',0x5c),('/',0x2f),('b',0x08),('f',0x0c),('n',0x0a),('r',0x0d),('t',0x09)]

-- A string from behind its opening quote. The units that were written as four digits
-- are marked.
def stringUnits : Text → Option (List (Bool × Nat) × Text)
  | [] => none
  | point :: more =>
    if point = '\x22'.toNat then some ([],more)
    else if point = '\x5c'.toNat then
      match more with
      | [] => none
      | name :: more =>
        if name = 'u'.toNat then
          match more with
          | a :: b :: c :: d :: more =>
            match hex4 a b c d with
            | some unit => (stringUnits more).map fun read => ((true,unit) :: read.1,read.2)
            | none => none
          | _ => none
        else
          match escapes.find? (·.1.toNat == name) with
          | some found => (stringUnits more).map fun read => ((false,found.2) :: read.1,read.2)
          | none => none
    else if point < 0x20 then none
    else (stringUnits more).map fun read => ((false,point) :: read.1,read.2)

def scanString (rest : Text) : Option (Text × Text) :=
  (stringUnits rest).map fun read => (joinPairs read.1,read.2)

structure Number where
  sign : Text
  whole : Text
  fraction : Text
  exponent : Text

def Number.isInteger (n : Number) : Bool := n.fraction.isEmpty && n.exponent.isEmpty

def Number.literal (n : Number) : Text := n.sign ++ n.whole ++ n.fraction ++ n.exponent

def Number.value (n : Number) : Value :=
  if n.isInteger then
    let size : Int := n.whole.foldl (fun sum digit => sum * 10 + (digit - 0x30 : Nat)) 0
    .int (if n.sign.isEmpty then size else -size)
  else .float n.literal

def scanWhole (rest : Text) : Text :=
  match rest with
  | 0x30 :: _ => [0x30]
  | _ => rest.takeWhile isDigit

-- A dot without a digit after it is not part of the number.
def scanFraction (rest : Text) : Text :=
  match eat '.' rest with
  | none => []
  | some more =>
    match more.takeWhile isDigit with
    | [] => []
    | digits => '.'.toNat :: digits

def scanExponent (rest : Text) : Text :=
  match rest with
  | [] => []
  | point :: more =>
    if point = 'e'.toNat ∨ point = 'E'.toNat then
      let sign := more.take 1 |>.filter fun point => point = '+'.toNat || point = '-'.toNat
      match (more.drop sign.length).takeWhile isDigit with
      | [] => []
      | digits => point :: sign ++ digits
    else []

def scanNumber (rest : Text) : Option (Number × Text) :=
  let sign := rest.take 1 |>.filter (· = '-'.toNat)
  let rest := rest.drop sign.length
  match scanWhole rest with
  | [] => none
  | whole =>
    let rest := rest.drop whole.length
    let fraction := scanFraction rest
    let rest := rest.drop fraction.length
    let exponent := scanExponent rest
    some (⟨sign,whole,fraction,exponent⟩,rest.drop exponent.length)

def words : List (Text × Value) :=
  [(points "null",.null),(points "true",.bool true),(points "false",.bool false),
    (points "NaN",.float (points "NaN")),(points "Infinity",.float (points "Infinity")),
    (points "-Infinity",.float (points "-Infinity"))]

def scanWord (rest : Text) : Option (Value × Text) :=
  words.findSome? fun word => (eatWord word.1 rest).map (word.2,·)

inductive Open where
  | array (items : List Value)
  | object (fields : List (Text × Value)) (key : Text)

inductive Want where
  | value | firstItem | firstKey | key
  | after (value : Value)

-- A place in the scan: what is open there, innermost first, what has to come next, and
-- the text still to read.
structure Place where
  opened : List Open
  want : Want
  rest : Text

inductive Step where
  | invalid
  | done (value : Value)
  | next (place : Place)

def scanOnce (opened : List Open) (rest : Text) : Step :=
  if let some more := eat '\x22' rest then
    match scanString more with
    | some (text,more) => .next ⟨opened,.after (.str text),more⟩
    | none => .invalid
  else if let some more := eat '\x7b' rest then .next ⟨.object [] [] :: opened,.firstKey,more⟩
  else if let some more := eat '[' rest then .next ⟨.array [] :: opened,.firstItem,more⟩
  else if let some (value,more) := scanWord rest then .next ⟨opened,.after value,more⟩
  else if let some (number,more) := scanNumber rest then .next ⟨opened,.after number.value,more⟩
  else .invalid

def Open.take (value : Value) : Open → Open
  | .array items => .array (items ++ [value])
  | .object fields key => .object (assign fields key value) key

def Open.value : Open → Value
  | .array items => .arr items
  | .object fields _ => .obj fields

def Open.closing : Open → Char
  | .array _ => ']'
  | .object _ _ => '\x7d'

def Open.more : Open → Want
  | .array _ => .value
  | .object _ _ => .key

def scanKey (opened : List Open) (rest : Text) : Step :=
  match opened,(eat '\x22' rest).bind scanString with
  | .object fields _ :: outer,some (key,more) =>
    match eat ':' (more.dropWhile isSpace) with
    | some more => .next ⟨.object fields key :: outer,.value,more⟩
    | none => .invalid
  | _,_ => .invalid

def scanAfter (opened : List Open) (value : Value) (rest : Text) : Step :=
  match opened with
  | [] => if rest.isEmpty then .done value else .invalid
  | inner :: outer =>
    let inner := inner.take value
    if let some more := eat ',' rest then .next ⟨inner :: outer,inner.more,more⟩
    else if let some more := eat inner.closing rest then .next ⟨outer,.after inner.value,more⟩
    else .invalid

def scanFirst (opened : List Open) (rest : Text) (otherwise : Step) : Step :=
  match opened with
  | [] => .invalid
  | inner :: outer =>
    if let some more := eat inner.closing rest then .next ⟨outer,.after inner.value,more⟩
    else otherwise

namespace Place

def start (text : Text) : Place := ⟨[],.value,text⟩

def ahead (p : Place) : Text := p.rest.dropWhile isSpace

def step (p : Place) : Step :=
  match p.want with
  | .value => scanOnce p.opened p.ahead
  | .firstItem => scanFirst p.opened p.ahead (scanOnce p.opened p.ahead)
  | .firstKey => scanFirst p.opened p.ahead (scanKey p.opened p.ahead)
  | .key => scanKey p.opened p.ahead
  | .after value => scanAfter p.opened value p.ahead

end Place

-- What the interpreter allows: the digits of an integer, and the containers open at once.
structure Limits where
  digits : Nat
  depth : Nat

inductive Overrun where
  | digits | depth
  deriving DecidableEq, Repr

def valueOverrun (limits : Limits) (opened : List Open) (rest : Text) : Option Overrun :=
  if (eat '\x7b' rest).isSome || (eat '[' rest).isSome then
    if limits.depth ≤ opened.length then some .depth else none
  else
    match scanNumber rest with
    | some (number,_) =>
      if number.isInteger ∧ limits.digits < number.whole.length then some .digits else none
    | none => none

def Place.overrun (limits : Limits) (p : Place) : Option Overrun :=
  match p.want with
  | .value | .firstItem => valueOverrun limits p.opened p.ahead
  | _ => none

inductive Failure where
  | unicode
  | invalid
  | overrun (limit : Overrun)
  deriving DecidableEq, Repr

section
variable {limits : Limits} {opened : List Open} {want : Want} {rest more : Text} {p q : Place}

theorem eat_length {char : Char} (eaten : eat char rest = some more) : more.length < rest.length := by
  cases rest with
  | nil => cases eaten
  | cons point back =>
    rw [eat] at eaten
    split at eaten
    · cases eaten
      exact Nat.lt_succ_self _
    · cases eaten

theorem eatWord_length {word : Text} (some_ : word ≠ []) (eaten : eatWord word rest = some more) :
    more.length < rest.length := by
  unfold eatWord at eaten
  split at eaten
  · rename_i begins
    cases eaten
    have within := (List.isPrefixOf_iff_prefix.mp begins).length_le
    have long : 0 < word.length := List.length_pos_iff.mpr some_
    rw [List.length_drop]
    omega
  · cases eaten

-- The induction follows the reading of the string.
theorem stringUnits_length {units : List (Bool × Nat)} (read : stringUnits rest = some (units,more)) :
    more.length < rest.length := by
  fun_induction stringUnits rest generalizing units with
  | case2 rest =>
    cases read
    exact Nat.lt_succ_self _
  | case4 a b c d rest unit digits _ ih | case7 name rest other found escape _ ih | case10 point rest _ _ plain ih =>
    obtain ⟨⟨inner,back⟩,found,same⟩ := Option.map_eq_some_iff.mp read
    cases same
    have taken : back.length < rest.length := ih found
    simp only [List.length_cons]
    omega
  | case1 | case3 | case5 | case6 | case8 | case9 => cases read

theorem scanString_length {text : Text} (read : scanString rest = some (text,more)) :
    more.length < rest.length := by
  obtain ⟨⟨units,back⟩,found,same⟩ := Option.map_eq_some_iff.mp read
  cases same
  exact stringUnits_length found

theorem scanWord_length {value : Value} (read : scanWord rest = some (value,more)) :
    more.length < rest.length := by
  obtain ⟨⟨word,stands⟩,inside,found⟩ := List.exists_of_findSome?_eq_some read
  obtain ⟨back,eaten,same⟩ := Option.map_eq_some_iff.mp found
  cases same
  refine eatWord_length ?_ eaten
  rintro rfl
  revert inside
  simp [words,points]

theorem scanWhole_length (rest : Text) : (scanWhole rest).length ≤ rest.length := by
  unfold scanWhole
  split
  · simp
  · exact (List.takeWhile_sublist _).length_le

theorem scanNumber_length {number : Number} (read : scanNumber rest = some (number,more)) :
    number.whole.length ≤ rest.length ∧ more.length < rest.length := by
  unfold scanNumber at read
  dsimp only at read
  split at read
  · cases read
  · rename_i digits
    cases read
    have long := List.length_pos_iff.mpr digits
    have within := scanWhole_length (rest.drop (rest.take 1 |>.filter (· = '-'.toNat)).length)
    simp only [List.length_drop] at within ⊢
    omega

theorem scanOnce_taken (gone : scanOnce opened rest = .next q) :
    q.rest.length < rest.length ∧ q.opened.length ≤ opened.length + 1 := by
  unfold scanOnce at gone
  split at gone
  · rename_i back quoted
    split at gone
    · rename_i text behind read
      cases gone
      exact ⟨Nat.lt_trans (scanString_length read) (eat_length quoted),Nat.le_succ _⟩
    · cases gone
  · split at gone
    · rename_i back brace
      cases gone
      exact ⟨eat_length brace,Nat.le_refl _⟩
    · split at gone
      · rename_i back bracket
        cases gone
        exact ⟨eat_length bracket,Nat.le_refl _⟩
      · split at gone
        · rename_i value back word
          cases gone
          exact ⟨scanWord_length word,Nat.le_succ _⟩
        · split at gone
          · rename_i number back read
            cases gone
            exact ⟨(scanNumber_length read).2,Nat.le_succ _⟩
          · cases gone

theorem scanKey_taken (gone : scanKey opened rest = .next q) :
    q.rest.length < rest.length ∧ q.opened.length ≤ opened.length + 1 := by
  unfold scanKey at gone
  split at gone
  · rename_i fields last outer key back read
    obtain ⟨front,quoted,text⟩ := Option.bind_eq_some_iff.mp read
    split at gone
    · rename_i behind colon
      cases gone
      have spaces := (List.dropWhile_sublist isSpace (l:=back)).length_le
      have short : behind.length < back.length := Nat.lt_of_lt_of_le (eat_length colon) spaces
      have string := Nat.lt_trans (scanString_length text) (eat_length quoted)
      exact ⟨Nat.lt_trans short string,Nat.le_succ _⟩
    · cases gone
  · cases gone

theorem scanAfter_taken {value : Value} (gone : scanAfter opened value rest = .next q) :
    q.rest.length < rest.length ∧ q.opened.length ≤ opened.length + 1 := by
  unfold scanAfter at gone
  split at gone
  · split at gone <;> cases gone
  · rename_i inner outer
    dsimp only at gone
    split at gone
    · rename_i back comma
      cases gone
      exact ⟨eat_length comma,Nat.le_succ _⟩
    · split at gone
      · rename_i back closed
        cases gone
        exact ⟨eat_length closed,by simp only [List.length_cons]; omega⟩
      · cases gone

theorem scanFirst_taken {otherwise : Step} (gone : scanFirst opened rest otherwise = .next q) :
    otherwise = .next q ∨ q.rest.length < rest.length ∧ q.opened.length ≤ opened.length + 1 := by
  unfold scanFirst at gone
  split at gone
  · cases gone
  · split at gone
    · rename_i inner outer back closed
      cases gone
      exact .inr ⟨eat_length closed,by simp only [List.length_cons]; omega⟩
    · exact .inl gone

theorem step_taken (gone : p.step = .next q) :
    q.rest.length < p.rest.length ∧ q.opened.length ≤ p.opened.length + 1 := by
  have spaces : p.ahead.length ≤ p.rest.length := (List.dropWhile_sublist isSpace).length_le
  have taken : q.rest.length < p.ahead.length ∧ q.opened.length ≤ p.opened.length + 1 := by
    unfold Place.step at gone
    split at gone
    · exact scanOnce_taken gone
    · exact (scanFirst_taken gone).elim scanOnce_taken id
    · exact (scanFirst_taken gone).elim scanKey_taken id
    · exact scanKey_taken gone
    · exact scanAfter_taken gone
  exact ⟨Nat.lt_of_lt_of_le taken.1 spaces,taken.2⟩

end

def scan (limits : Limits) (p : Place) : Except Failure Value :=
  match p.overrun limits with
  | some limit => .error (.overrun limit)
  | none =>
    match _ : p.step with
    | .invalid => .error .invalid
    | .done value => .ok value
    | .next q => scan limits q
termination_by p.rest.length
decreasing_by exact (step_taken ‹_›).1

def loads (limits : Limits) (bytes : List UInt8) : Except Failure Value :=
  match decode bytes (detectEncoding bytes) with
  | none => .error .unicode
  | some text => scan limits (Place.start text)

def Reaches : Place → Place → Prop := Relation.ReflTransGen fun p q => p.step = .next q

-- A text in its encoding, with nothing in it that goes past a limit before it goes wrong.
def Readable (limits : Limits) (bytes : List UInt8) : Prop :=
  ∃ text, decode bytes (detectEncoding bytes) = some text ∧
    ∀ p, Reaches (Place.start text) p → p.overrun limits = none

section
variable {limits : Limits} {p q : Place} {bytes : List UInt8} {text : Text}

theorem Reaches.first (reached : Reaches p q) : q = p ∨ ∃ r, p.step = .next r ∧ Reaches r q :=
  match Relation.ReflTransGen.cases_head reached with
  | .inl same => .inl same.symm
  | .inr found => .inr found

theorem scan_eq (limits : Limits) (p : Place) :
    scan limits p =
      match p.overrun limits with
      | some limit => .error (.overrun limit)
      | none =>
        match p.step with
        | .invalid => .error .invalid
        | .done value => .ok value
        | .next q => scan limits q := by
  rw [scan]
  split
  · rfl
  · split <;> simp only [*]

-- The scan ends past a limit just when the grammar leads to a place that is past one.
-- The cases are those of the scan.
theorem scan_overrun_iff (limits : Limits) (p : Place) :
    (∃ limit, scan limits p = .error (.overrun limit)) ↔ ∃ q, Reaches p q ∧ q.overrun limits ≠ none := by
  induction p using scan.induct limits with
  | case1 p limit past =>
    rw [scan_eq,past]
    exact ⟨fun _ => ⟨p,.refl,by simp [past]⟩,fun _ => ⟨limit,rfl⟩⟩
  | case2 p fine stuck | case3 p fine value stuck =>
    rw [scan_eq,fine,stuck]
    constructor
    · rintro ⟨limit,raised⟩
      cases raised
    · rintro ⟨q,reached,past⟩
      obtain rfl | ⟨r,gone,_⟩ := reached.first
      · exact absurd fine past
      · rw [stuck] at gone
        cases gone
  | case4 p fine r gone ih =>
    rw [scan_eq,fine,gone]
    refine ih.trans ⟨?_,?_⟩
    · rintro ⟨q,reached,past⟩
      exact ⟨q,.head gone reached,past⟩
    · rintro ⟨q,reached,past⟩
      obtain rfl | ⟨other,next,more⟩ := reached.first
      · exact absurd fine past
      · rw [gone] at next
        cases next
        exact ⟨q,more,past⟩

theorem scan_unicode (limits : Limits) (p : Place) : scan limits p ≠ .error .unicode := by
  induction p using scan.induct limits with
  | case1 p limit past =>
    rw [scan_eq,past]
    rintro ⟨⟩
  | case2 p fine stuck | case3 p fine value stuck =>
    rw [scan_eq,fine,stuck]
    rintro ⟨⟩
  | case4 p fine r gone ih =>
    rw [scan_eq,fine,gone]
    exact ih

theorem loads_invalid_iff :
    (∀ failure, loads limits bytes = .error failure → failure = .invalid) ↔ Readable limits bytes := by
  unfold loads Readable
  cases decode bytes (detectEncoding bytes) with
  | none =>
    refine ⟨fun always => ?_,fun ⟨text,found,_⟩ => nomatch found⟩
    cases always .unicode rfl
  | some text =>
    have past := scan_overrun_iff limits (Place.start text)
    constructor
    · intro always
      refine ⟨text,rfl,fun p reached => ?_⟩
      cases beyond : p.overrun limits with
      | none => rfl
      | some limit =>
        obtain ⟨raised,failed⟩ := past.mpr ⟨p,reached,by simp [beyond]⟩
        cases always _ failed
    · rintro ⟨_,⟨⟩,fine⟩ failure raised
      cases failure with
      | invalid => rfl
      | unicode => exact absurd raised (scan_unicode limits _)
      | overrun limit =>
        obtain ⟨p,reached,beyond⟩ := past.mp ⟨limit,raised⟩
        exact absurd (fine p reached) beyond

theorem valueOverrun_short {opened : List Open} {rest : Text} (deep : opened.length + rest.length ≤ limits.depth)
    (long : rest.length ≤ limits.digits) : valueOverrun limits opened rest = none := by
  unfold valueOverrun
  split
  · rename_i bracket
    have some_ : 0 < rest.length := by
      cases rest with
      | nil => simp [eat] at bracket
      | cons => exact Nat.succ_pos _
    rw [if_neg (by omega)]
  · split
    · rename_i number more read
      have within := (scanNumber_length read).1
      rw [if_neg (by omega)]
    · rfl

-- What is open was paid for with text, so the sum of the two never grows.
theorem reaches_taken (reached : Reaches p q) :
    q.rest.length ≤ p.rest.length ∧ q.opened.length + q.rest.length ≤ p.opened.length + p.rest.length := by
  induction reached with
  | refl => exact ⟨Nat.le_refl _,Nat.le_refl _⟩
  | tail _ gone ih =>
    have taken := step_taken gone
    omega

theorem short_readable (decoded : decode bytes (detectEncoding bytes) = some text)
    (deep : text.length ≤ limits.depth) (long : text.length ≤ limits.digits) : Readable limits bytes := by
  refine ⟨text,decoded,fun p reached => ?_⟩
  have taken : p.rest.length ≤ text.length ∧ p.opened.length + p.rest.length ≤ 0 + text.length :=
    reaches_taken reached
  have spaces : p.ahead.length ≤ p.rest.length := (List.dropWhile_sublist isSpace).length_le
  have within : valueOverrun limits p.opened p.ahead = none := valueOverrun_short (by omega) (by omega)
  unfold Place.overrun
  split
  · exact within
  · exact within
  · rfl

theorem utf8Text_ascii (ascii : ∀ byte ∈ bytes, byte < 0x80) : utf8Text bytes = some (bytes.map UInt8.toNat) := by
  induction bytes with
  | nil => rfl
  | cons byte more ih =>
    unfold utf8Text
    rw [if_pos (ascii byte List.mem_cons_self),ih fun other inside => ascii other (.tail _ inside)]
    rfl

theorem detectEncoding_ascii (ascii : ∀ byte ∈ bytes, 0 < byte ∧ byte < 0x80) : detectEncoding bytes = .utf8 := by
  match bytes with
  | [] => rfl
  | [_] => simp [detectEncoding,bomUtf8,bomUtf16le,bomUtf16be,bomUtf32le,bomUtf32be,List.isPrefixOf]
  | a :: b :: more =>
    have first := ascii a List.mem_cons_self
    have second := ascii b (.tail _ List.mem_cons_self)
    have zero : ¬a = 0 ∧ ¬b = 0 := by
      constructor <;> (rintro rfl; simp at first second)
    have marks : ¬(0xef : UInt8) = a ∧ ¬(0xfe : UInt8) = a ∧ ¬(0xff : UInt8) = a ∧ ¬(0 : UInt8) = a := by
      refine ⟨?_,?_,?_,?_⟩ <;> (rintro rfl; simp at first)
    simp only [detectEncoding,bomUtf8,bomUtf16le,bomUtf16be,bomUtf32le,bomUtf32be,List.isPrefixOf,beq_iff_eq,
      Bool.or_eq_true,Bool.and_eq_true,marks,false_and,or_self,if_false]
    split
    · rename_i same
      cases same
      rw [if_neg zero.1,if_neg zero.2]
    · rename_i same
      cases same
      rw [if_neg zero.1,if_neg zero.2]
    · rfl

theorem ascii_decoded (ascii : ∀ byte ∈ bytes, 0 < byte ∧ byte < 0x80) :
    decode bytes (detectEncoding bytes) = some (bytes.map UInt8.toNat) := by
  rw [detectEncoding_ascii ascii]
  exact utf8Text_ascii fun byte inside => (ascii byte inside).2

theorem reaches_nested (items : List Value) (outer : List Open) (count : Nat) (rest : Text) :
    ∃ inner, inner.length = outer.length + count + 1 ∧
      Reaches ⟨.array items :: outer,.firstItem,List.replicate count '['.toNat ++ rest⟩ ⟨inner,.firstItem,rest⟩ := by
  induction count generalizing items outer with
  | zero => exact ⟨_,rfl,.refl⟩
  | succ count ih =>
    obtain ⟨inner,long,reached⟩ := ih [] (.array items :: outer)
    refine ⟨inner,by simp only [List.length_cons] at long; omega,.head ?_ reached⟩
    rfl

theorem bracket_overrun {opened : List Open} {want : Want} (starts : want = .value ∨ want = .firstItem)
    (deep : limits.depth ≤ opened.length) (rest : Text) :
    Place.overrun limits ⟨opened,want,'['.toNat :: rest⟩ = some .depth := by
  have bracket : valueOverrun limits opened ('['.toNat :: rest) = some .depth := by
    unfold valueOverrun
    rw [if_pos (by rfl),if_pos deep]
  rcases starts with rfl | rfl
  · exact bracket
  · exact bracket

theorem nested_unreadable (text : Text) (decoded : decode bytes (detectEncoding bytes) =
    some (List.replicate (limits.depth + 1) '['.toNat ++ text)) : ¬Readable limits bytes := by
  rintro ⟨found,again,fine⟩
  cases decoded.symm.trans again
  have past : ∃ p, Reaches (Place.start (List.replicate (limits.depth + 1) '['.toNat ++ text)) p ∧
      p.overrun limits = some .depth := by
    cases depth : limits.depth with
    | zero => exact ⟨_,.refl,bracket_overrun (.inl rfl) (depth ▸ Nat.zero_le _) text⟩
    | succ count =>
      obtain ⟨inner,long,reached⟩ := reaches_nested [] [] count ('['.toNat :: text)
      refine ⟨_,.head ?_ reached,bracket_overrun (.inr rfl) ?_ text⟩
      · rw [List.replicate_succ',List.append_assoc]
        rfl
      · simp only [List.length_nil] at long
        omega
  obtain ⟨p,reached,beyond⟩ := past
  cases (fine p reached).symm.trans beyond

theorem scanNumber_ones (count : Nat) :
    scanNumber (List.replicate (count + 1) '1'.toNat) =
      some (⟨[],List.replicate (count + 1) '1'.toNat,[],[]⟩,[]) := by
  have whole : scanWhole (List.replicate (count + 1) '1'.toNat) = List.replicate (count + 1) '1'.toNat :=
    List.takeWhile_replicate_eq_filter.trans (by simp [isDigit])
  have sign : ((List.replicate (count + 1) '1'.toNat).take 1).filter (· = '-'.toNat) = [] := rfl
  unfold scanNumber
  simp only [sign,List.length_nil,List.drop_zero,whole]
  simp [List.replicate_succ,scanFraction,scanExponent,eat]

theorem ones_unreadable (decoded : decode bytes (detectEncoding bytes) =
    some (List.replicate (limits.digits + 1) '1'.toNat)) : ¬Readable limits bytes := by
  rintro ⟨found,again,fine⟩
  cases decoded.symm.trans again
  have beyond : (Place.start (List.replicate (limits.digits + 1) '1'.toNat)).overrun limits = some .digits := by
    show valueOverrun limits [] (List.replicate (limits.digits + 1) '1'.toNat) = _
    unfold valueOverrun
    rw [if_neg (by simp [List.replicate_succ,eat]),scanNumber_ones]
    exact if_pos ⟨rfl,by simp⟩
  cases (fine _ .refl).symm.trans beyond

end

end JsonLoads
