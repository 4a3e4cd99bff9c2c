import Mathlib.Data.List.TakeWhile
import HyprlandAgent.JsonLoads

-- A value written as JSON text, and that the scan of the text gives the value back.
namespace JsonText
open JsonLoads

structure Style where
  escape : Nat → Text
  gap : Text
  blank : ∀ point ∈ gap, isSpace point = true

def digits (n : Nat) : Text := (Nat.toDigits 10 n).map Char.toNat

def intText : Int → Text
  | .ofNat n => digits n
  | .negSucc n => '-'.toNat :: digits (n + 1)

section
variable (style : Style)

def quoted (text : Text) : Text := '\x22'.toNat :: (text.flatMap style.escape ++ ['\x22'.toNat])

mutual
def text : Value → Text
  | .null => points "null"
  | .bool true => points "true"
  | .bool false => points "false"
  | .int value => intText value
  | .float literal => literal
  | .str chars => quoted style chars
  | .arr items => '['.toNat :: (itemsText items ++ [']'.toNat])
  | .obj fields => '\x7b'.toNat :: (fieldsText fields ++ ['\x7d'.toNat])
def itemsText : List Value → Text
  | [] => []
  | [item] => text item
  | item :: rest => text item ++ (','.toNat :: (style.gap ++ itemsText rest))
def fieldsText : List (Text × Value) → Text
  | [] => []
  | [(key,value)] => quoted style key ++ (':'.toNat :: (style.gap ++ text value))
  | (key,value) :: rest =>
    quoted style key ++ (':'.toNat :: (style.gap ++ (text value ++ (','.toNat :: (style.gap ++ fieldsText rest)))))
end

end

def Ends (rest : Text) : Prop :=
  ∀ point more, rest = point :: more → isDigit point = false ∧ point ∉ [0x2e,0x65,0x45]

def FloatLiteral (literal : Text) : Prop :=
  ∀ rest, Ends rest → ∃ number, scanNumber (literal ++ rest) = some (number,rest) ∧
    number.isInteger = false ∧ number.literal = literal

def Quotes (style : Style) (chars : Text) : Prop :=
  ∀ rest, scanString (chars.flatMap style.escape ++ '\x22'.toNat :: rest) = some (chars,rest)

section
variable (style : Style) (limits : Limits)

-- A value that can be written and read back inside of `n` containers.
mutual
def Writable : Nat → Value → Prop
  | _,.null => True
  | _,.bool _ => True
  | _,.int value => (digits value.natAbs).length ≤ limits.digits
  | _,.float literal => FloatLiteral literal
  | _,.str chars => Quotes style chars
  | n,.arr items => n < limits.depth ∧ WritableItems (n + 1) items
  | n,.obj fields => n < limits.depth ∧ (fields.map Prod.fst).Nodup ∧ WritableFields (n + 1) fields
def WritableItems : Nat → List Value → Prop
  | _,[] => True
  | n,item :: rest => Writable n item ∧ WritableItems n rest
def WritableFields : Nat → List (Text × Value) → Prop
  | _,[] => True
  | n,(key,value) :: rest => Quotes style key ∧ Writable n value ∧ WritableFields n rest
end

end

section
variable {style : Style} {limits : Limits} {opened : List Open} {rest more : Text} {n : Nat}

theorem ends_cons {point : Nat} (plain : isDigit point = false ∧ point ∉ [0x2e,0x65,0x45]) : Ends (point :: rest) := by
  intro first more same
  obtain ⟨rfl,rfl⟩ := List.cons.inj same
  exact plain

theorem isDigit_digits : ∀ point ∈ digits n, isDigit point = true := by
  intro point inside
  obtain ⟨char,among,rfl⟩ := List.mem_map.mp inside
  have digit := Nat.isDigit_of_mem_toDigits (by decide) (by decide) among
  simp only [Char.isDigit,Bool.and_eq_true,decide_eq_true_eq,UInt32.le_iff_toNat_le] at digit
  simp only [isDigit,Bool.and_eq_true,decide_eq_true_eq]
  exact digit

theorem digits_ne_nil (n : Nat) : digits n ≠ [] := fun empty => Nat.toDigits_ne_nil (List.map_eq_nil_iff.mp empty)

theorem digits_head {m : Nat} {others : Text} (written : digits m = 0x30 :: others) : others = [] := by
  induction m using Nat.strongRecOn generalizing others with
  | ind m ih =>
    by_cases small : m < 10
    · have one : digits m = [m.digitChar.toNat] := by rw [digits,Nat.toDigits_of_lt_base small]; rfl
      rw [one] at written
      exact (List.cons.inj written).2.symm
    · have split : digits m = digits (m / 10) ++ [(m % 10).digitChar.toNat] := by
        rw [digits,Nat.toDigits_of_base_le (by decide) (by omega),List.map_append]
        rfl
      cases front : digits (m / 10) with
      | nil => exact absurd front (digits_ne_nil _)
      | cons first later =>
        rw [split,front,List.cons_append] at written
        obtain ⟨rfl,_⟩ := List.cons.inj written
        have none_ := ih (m / 10) (by omega) front
        rw [none_] at front
        have value := Nat.ofDigitChars_ten_toDigits (n:=m / 10)
        have zero : Nat.toDigits 10 (m / 10) = ['0'] := by
          obtain ⟨char,chars,same,code,empty⟩ := List.map_eq_cons_iff.mp front
          rw [same,List.map_eq_nil_iff.mp empty,Char.toNat_inj.mp (show char.toNat = '0'.toNat from code)]
        rw [zero] at value
        have none : m / 10 = 0 := value.symm
        omega

theorem scanWhole_digits (ends : Ends rest) : scanWhole (digits n ++ rest) = digits n := by
  have run : (digits n ++ rest).takeWhile isDigit = digits n := by
    rw [List.takeWhile_append_of_pos isDigit_digits]
    cases rest with
    | nil => simp
    | cons point more => rw [List.takeWhile_cons_of_neg (by simp [(ends point more rfl).1]),List.append_nil]
  cases written : digits n with
  | nil => exact absurd written (digits_ne_nil n)
  | cons first others =>
    rw [written] at run
    by_cases zero : first = 0x30
    · subst zero
      rw [digits_head written]
      rfl
    · rw [List.cons_append] at run ⊢
      unfold scanWhole
      split
      · rename_i head
        exact absurd (List.cons.inj head).1 zero
      · exact run

theorem scanFraction_ends (ends : Ends rest) : scanFraction rest = [] := by
  unfold scanFraction eat
  cases rest with
  | nil => rfl
  | cons point more =>
    have plain := (ends point more rfl).2
    have other : point ≠ '.'.toNat := fun same => plain (by rw [same]; decide)
    simp only [if_neg other]

theorem scanExponent_ends (ends : Ends rest) : scanExponent rest = [] := by
  unfold scanExponent
  cases rest with
  | nil => rfl
  | cons point more =>
    have plain := (ends point more rfl).2
    have other : ¬(point = 'e'.toNat ∨ point = 'E'.toNat) := by
      rintro (same | same) <;> exact plain (by rw [same]; decide)
    simp only [if_neg other]

theorem digits_value (n : Nat) : (digits n).foldl (fun (sum : Int) digit => sum * 10 + (digit - 0x30 : Nat)) 0 = n := by
  have folded (chars : List Char) (start : Nat) :
      (chars.map Char.toNat).foldl (fun (sum : Int) digit => sum * 10 + (digit - 0x30 : Nat)) start =
        (Nat.ofDigitChars 10 chars start : Nat) := by
    induction chars generalizing start with
    | nil => simp
    | cons char more ih =>
      rw [List.map_cons,List.foldl_cons,Nat.ofDigitChars_cons,← ih]
      congr 1
      push_cast
      rw [Int.mul_comm]
  have value := Nat.ofDigitChars_ten_toDigits (n:=n)
  rw [digits,show (0 : Int) = ((0 : Nat) : Int) from rfl,folded,value]

theorem scanNumber_signed {sign : Text} (ends : Ends rest)
    (signed : ((sign ++ (digits n ++ rest)).take 1).filter (· = '-'.toNat) = sign) :
    scanNumber (sign ++ (digits n ++ rest)) = some (⟨sign,digits n,[],[]⟩,rest) := by
  obtain ⟨first,others,written⟩ := List.exists_cons_of_ne_nil (digits_ne_nil n)
  have whole := scanWhole_digits (n:=n) ends
  unfold scanNumber
  simp only [signed,List.drop_left,whole]
  rw [written]
  simp only [List.drop_left,scanFraction_ends ends,List.length_nil,List.drop_zero,scanExponent_ends ends]

theorem scanNumber_int (value : Int) (ends : Ends rest) : ∃ number, scanNumber (intText value ++ rest) = some (number,rest) ∧
    number.isInteger = true ∧ number.value = .int value ∧ number.whole = digits value.natAbs := by
  cases value with
  | ofNat n =>
    have unsigned : ((([] : Text) ++ (digits n ++ rest)).take 1).filter (· = '-'.toNat) = [] := by
      obtain ⟨first,others,written⟩ := List.exists_cons_of_ne_nil (digits_ne_nil n)
      have digit := isDigit_digits (n:=n) first (written ▸ List.mem_cons_self)
      have other : first ≠ '-'.toNat := by
        rintro rfl
        cases digit
      rw [written]
      simpa using other
    refine ⟨⟨[],digits n,[],[]⟩,scanNumber_signed ends unsigned,rfl,?_,rfl⟩
    · simp only [Number.value,Number.isInteger,List.isEmpty_nil,Bool.and_self,if_true,digits_value]
      rfl
  | negSucc n =>
    refine ⟨⟨['-'.toNat],digits (n + 1),[],[]⟩,?_,rfl,?_,rfl⟩
    · have signed : (((['-'.toNat] : Text) ++ (digits (n + 1) ++ rest)).take 1).filter (· = '-'.toNat) = ['-'.toNat] := rfl
      exact scanNumber_signed ends signed
    · simp only [Number.value,Number.isInteger,List.isEmpty_nil,Bool.and_self,if_true,List.isEmpty_cons,digits_value]
      rfl

theorem scanNumber_head {number : Number} (read : scanNumber rest = some (number,more)) :
    ∃ point others, rest = point :: others ∧ (isDigit point = true ∨ point = '-'.toNat ∧ ∃ digit later,
      others = digit :: later ∧ isDigit digit = true) := by
  have starts {found : Text} (whole : scanWhole found ≠ []) : ∃ digit later, found = digit :: later ∧ isDigit digit = true := by
    cases found with
    | nil => exact absurd rfl whole
    | cons digit later =>
      refine ⟨digit,later,rfl,?_⟩
      cases known : isDigit digit with
      | true => rfl
      | false =>
        refine absurd ?_ whole
        unfold scanWhole
        split
        · rename_i head
          rw [(List.cons.inj head).1] at known
          cases known
        · exact List.takeWhile_cons_of_neg (by simp [known])
  have whole : scanWhole (rest.drop ((rest.take 1).filter (· = '-'.toNat)).length) ≠ [] := by
    intro empty
    unfold scanNumber at read
    simp only [empty] at read
    cases read
  cases rest with
  | nil => exact absurd rfl whole
  | cons point others =>
    refine ⟨point,others,rfl,?_⟩
    by_cases minus : point = '-'.toNat
    · rw [minus] at whole
      exact .inr ⟨minus,starts whole⟩
    · have unsigned : ((point :: others).take 1).filter (· = '-'.toNat) = [] := by simpa using minus
      rw [unsigned] at whole
      obtain ⟨digit,later,same,known⟩ := starts whole
      obtain ⟨rfl,_⟩ := List.cons.inj same
      exact .inl known

theorem scanNumber_plain {number : Number} (read : scanNumber rest = some (number,more)) :
    scanWord rest = none ∧ rest.dropWhile isSpace = rest ∧ ∀ char ∈ ['"','{','[',']','}'], eat char rest = none := by
  obtain ⟨point,others,rfl,head⟩ := scanNumber_head read
  have within : 0x2d ≤ point ∧ point ≤ 0x39 := by
    rcases head with digit | ⟨rfl,_⟩
    · simp only [isDigit,Bool.and_eq_true,decide_eq_true_eq] at digit
      omega
    · decide
  have unlike {word : Text} {first : Nat} {later : Text} (same : word = first :: later) (outside : first < 0x2d ∨ 0x39 < first) :
      eatWord word (point :: others) = none := by
    subst same
    have apart : (first == point) = false := by
      rw [beq_eq_false_iff_ne]
      omega
    simp [eatWord,List.isPrefixOf,apart]
  have infinity : eatWord (points "-Infinity") (point :: others) = none := by
    unfold eatWord
    refine if_neg fun starts => ?_
    obtain ⟨later,same⟩ := List.isPrefixOf_iff_prefix.mp starts
    have first : 45 = point ∧ _ := List.cons.inj same
    rcases head with digit | ⟨_,digit,rest,rfl,known⟩
    · rw [← first.1] at digit
      cases digit
    · have second : 73 = digit := (List.cons.inj first.2).1
      rw [← second] at known
      cases known
  refine ⟨?_,?_,?_⟩
  · rw [scanWord,List.findSome?_eq_none_iff]
    intro word inside
    rw [Option.map_eq_none_iff]
    simp only [words,List.mem_cons,List.not_mem_nil,or_false] at inside
    rcases inside with rfl | rfl | rfl | rfl | rfl | rfl
    · exact unlike rfl (.inr (by decide))
    · exact unlike rfl (.inr (by decide))
    · exact unlike rfl (.inr (by decide))
    · exact unlike rfl (.inr (by decide))
    · exact unlike rfl (.inr (by decide))
    · exact infinity
  · refine List.dropWhile_cons_of_neg ?_
    simp only [isSpace,Bool.or_eq_true,decide_eq_true_eq]
    omega
  · intro char inside
    have other : point ≠ char.toNat := by
      simp only [List.mem_cons,List.not_mem_nil,or_false] at inside
      rcases inside with rfl | rfl | rfl | rfl | rfl
      · exact fun same => absurd (same ▸ within : 0x2d ≤ '"'.toNat ∧ '"'.toNat ≤ 0x39) (by decide)
      · exact fun same => absurd (same ▸ within : 0x2d ≤ '{'.toNat ∧ '{'.toNat ≤ 0x39) (by decide)
      · exact fun same => absurd (same ▸ within : 0x2d ≤ '['.toNat ∧ '['.toNat ≤ 0x39) (by decide)
      · exact fun same => absurd (same ▸ within : 0x2d ≤ ']'.toNat ∧ ']'.toNat ≤ 0x39) (by decide)
      · exact fun same => absurd (same ▸ within : 0x2d ≤ '}'.toNat ∧ '}'.toNat ≤ 0x39) (by decide)
    exact if_neg other

theorem scanOnce_number {number : Number} (read : scanNumber rest = some (number,more)) :
    scanOnce opened rest = .next ⟨opened,.after number.value,more⟩ := by
  obtain ⟨word,_,others⟩ := scanNumber_plain read
  unfold scanOnce
  rw [others '"' (by decide),others '{' (by decide),others '[' (by decide),word,read]

def Starts (rest : Text) : Prop :=
  rest.dropWhile isSpace = rest ∧ eat ']' rest = none ∧ eat '}' rest = none

theorem text_starts {value : Value} (writable : Writable style limits n value) (ends : Ends rest) :
    Starts (text style value ++ rest) := by
  cases value with
  | null => exact ⟨rfl,rfl,rfl⟩
  | bool value => cases value <;> exact ⟨rfl,rfl,rfl⟩
  | int value =>
    obtain ⟨number,read,_⟩ := scanNumber_int value ends
    obtain ⟨_,blank,others⟩ := scanNumber_plain read
    exact ⟨blank,others _ (by decide),others _ (by decide)⟩
  | float literal =>
    obtain ⟨number,read,_⟩ := writable rest ends
    obtain ⟨_,blank,others⟩ := scanNumber_plain read
    exact ⟨blank,others _ (by decide),others _ (by decide)⟩
  | str chars => exact ⟨rfl,rfl,rfl⟩
  | arr items => exact ⟨rfl,rfl,rfl⟩
  | obj fields => exact ⟨rfl,rfl,rfl⟩

theorem scan_ahead {want : Want} (same : rest.dropWhile isSpace = more.dropWhile isSpace) :
    scan limits ⟨opened,want,rest⟩ = scan limits ⟨opened,want,more⟩ := by
  rw [scan_eq,scan_eq limits ⟨opened,want,more⟩]
  have ahead : (Place.mk opened want rest).ahead = (Place.mk opened want more).ahead := same
  unfold Place.overrun Place.step
  dsimp only
  rw [ahead]

theorem scan_gap (want : Want) : scan limits ⟨opened,want,style.gap ++ rest⟩ = scan limits ⟨opened,want,rest⟩ := by
  refine scan_ahead ?_
  rw [List.dropWhile_append_of_pos style.blank]

theorem scan_next {p q : Place} (fits : p.overrun limits = none) (taken : p.step = .next q) :
    scan limits p = scan limits q := by
  rw [scan_eq,fits,taken]

theorem scan_atom {value : Value} (blank : rest.dropWhile isSpace = rest) (fits : valueOverrun limits opened rest = none)
    (taken : scanOnce opened rest = .next ⟨opened,.after value,more⟩) :
    scan limits ⟨opened,.value,rest⟩ = scan limits ⟨opened,.after value,more⟩ := by
  refine scan_next ?_ ?_
  · show valueOverrun limits opened (rest.dropWhile isSpace) = none
    rw [blank,fits]
  · show scanOnce opened (rest.dropWhile isSpace) = _
    rw [blank,taken]

theorem scan_number {number : Number} (read : scanNumber rest = some (number,more))
    (fits : number.isInteger = true → number.whole.length ≤ limits.digits) :
    scan limits ⟨opened,.value,rest⟩ = scan limits ⟨opened,.after number.value,more⟩ := by
  obtain ⟨_,blank,others⟩ := scanNumber_plain read
  refine scan_atom blank ?_ (scanOnce_number read)
  unfold valueOverrun
  rw [others _ (by decide),others _ (by decide),read]
  simp only [Option.isSome_none,Bool.or_self,Bool.false_eq_true,if_false]
  exact if_neg fun past => Nat.not_lt.mpr (fits past.1) past.2

theorem scan_quoted {chars : Text} (quotes : Quotes style chars) :
    scan limits ⟨opened,.value,quoted style chars ++ rest⟩ = scan limits ⟨opened,.after (.str chars),rest⟩ := by
  have whole : quoted style chars ++ rest = '"'.toNat :: (chars.flatMap style.escape ++ '"'.toNat :: rest) := by
    simp [quoted]
  rw [whole]
  refine scan_atom rfl rfl ?_
  unfold scanOnce
  simp only [eat,if_true,quotes rest]

theorem scan_opens {open_ : Open} {first : Want} {bracket : Char}
    (known : bracket = '[' ∧ open_ = .array [] ∧ first = .firstItem ∨
      bracket = '{' ∧ open_ = .object [] [] ∧ first = .firstKey) (room : opened.length < limits.depth) :
    scan limits ⟨opened,.value,bracket.toNat :: rest⟩ = scan limits ⟨open_ :: opened,first,rest⟩ := by
  rcases known with ⟨rfl,rfl,rfl⟩ | ⟨rfl,rfl,rfl⟩
  · exact scan_next (if_neg (Nat.not_le.mpr room)) rfl
  · exact scan_next (if_neg (Nat.not_le.mpr room)) rfl

theorem scan_firstItem {read : List Value} (starts : Starts rest) :
    scan limits ⟨.array read :: opened,.firstItem,rest⟩ = scan limits ⟨.array read :: opened,.value,rest⟩ := by
  rw [scan_eq,scan_eq limits ⟨_,.value,rest⟩]
  have step : (Place.mk (.array read :: opened) .firstItem rest).step =
      (Place.mk (.array read :: opened) .value rest).step := by
    unfold Place.step Place.ahead scanFirst
    dsimp only
    rw [starts.1,show eat (Open.array read).closing rest = none from starts.2.1]
  rw [step]
  rfl

theorem scan_firstKey {read : List (Text × Value)} {slot : Text} (starts : Starts rest) :
    scan limits ⟨.object read slot :: opened,.firstKey,rest⟩ = scan limits ⟨.object read slot :: opened,.key,rest⟩ := by
  rw [scan_eq,scan_eq limits ⟨_,.key,rest⟩]
  have step : (Place.mk (.object read slot :: opened) .firstKey rest).step =
      (Place.mk (.object read slot :: opened) .key rest).step := by
    unfold Place.step Place.ahead scanFirst
    dsimp only
    rw [starts.1,show eat (Open.object read slot).closing rest = none from starts.2.2]
  rw [step]
  rfl

theorem scan_comma {inner : Open} (value : Value) :
    scan limits ⟨inner :: opened,.after value,','.toNat :: rest⟩ =
      scan limits ⟨inner.take value :: opened,(inner.take value).more,rest⟩ := scan_next rfl rfl

theorem scan_closes (inner : Open) (value : Value) :
    scan limits ⟨inner :: opened,.after value,inner.closing.toNat :: rest⟩ =
      scan limits ⟨opened,.after (inner.take value).value,rest⟩ := by
  refine scan_next rfl ?_
  cases inner <;> rfl

theorem scan_key {read : List (Text × Value)} {slot key : Text} (quotes : Quotes style key) :
    scan limits ⟨.object read slot :: opened,.key,quoted style key ++ ':'.toNat :: rest⟩ =
      scan limits ⟨.object read key :: opened,.value,rest⟩ := by
  have whole : quoted style key ++ ':'.toNat :: rest =
      '"'.toNat :: (key.flatMap style.escape ++ '"'.toNat :: ':'.toNat :: rest) := by
    simp [quoted]
  rw [whole]
  refine scan_next rfl ?_
  show scanKey (.object read slot :: opened) ('"'.toNat :: _) = _
  have spaces : (':'.toNat :: rest).dropWhile isSpace = ':'.toNat :: rest := List.dropWhile_cons_of_neg (by decide)
  have read_ := quotes (':'.toNat :: rest)
  simp only [scanKey,eat,if_true,Option.bind_some,read_,spaces]

theorem assign_fresh {read : List (Text × Value)} {key : Text} (fresh : key ∉ read.map Prod.fst) (value : Value) :
    assign read key value = read ++ [(key,value)] := by
  unfold assign
  refine if_neg ?_
  simp only [List.any_eq_true,beq_iff_eq,not_exists,not_and]
  intro field inside same
  exact fresh (List.mem_map.mpr ⟨field,inside,same⟩)

theorem ends_comma : Ends (','.toNat :: rest) := ends_cons (by decide)
theorem ends_bracket : Ends (']'.toNat :: rest) := ends_cons (by decide)
theorem ends_brace : Ends ('}'.toNat :: rest) := ends_cons (by decide)

theorem itemsText_cons (item other : Value) (others : List Value) : itemsText style (item :: other :: others) =
    text style item ++ (','.toNat :: (style.gap ++ itemsText style (other :: others))) := by
  rw [itemsText]
  exact nofun

-- The cases are those of the writer.
mutual
theorem scan_text : ∀ (value : Value) (opened : List Open) (rest : Text),
    Writable style limits opened.length value → Ends rest →
      scan limits ⟨opened,.value,text style value ++ rest⟩ = scan limits ⟨opened,.after value,rest⟩
  | .null,_,_,_,_ => scan_next rfl rfl
  | .bool true,_,_,_,_ => scan_next rfl rfl
  | .bool false,_,_,_,_ => scan_next rfl rfl
  | .int value,opened,rest,writable,ends => by
    obtain ⟨number,read,_,same,whole⟩ := scanNumber_int value ends
    have taken : scan limits ⟨opened,.value,_⟩ = _ := scan_number read fun _ => whole ▸ writable
    rw [same] at taken
    exact taken
  | .float literal,opened,rest,writable,ends => by
    obtain ⟨number,read,broken,same⟩ := writable rest ends
    have taken : scan limits ⟨opened,.value,_⟩ = _ := scan_number read fun integer =>
      absurd (broken.symm.trans integer) Bool.false_ne_true
    rw [Number.value,if_neg (by simp [broken]),same] at taken
    exact taken
  | .str chars,_,_,writable,_ => scan_quoted writable
  | .arr [],_,_,⟨room,_⟩,_ => (scan_opens (.inl ⟨rfl,rfl,rfl⟩) room).trans (scan_next rfl rfl)
  | .arr (item :: items),opened,rest,⟨room,writable⟩,_ => by
    have whole : text style (.arr (item :: items)) ++ rest =
        '['.toNat :: (itemsText style (item :: items) ++ ']'.toNat :: rest) := by simp [text]
    have starts : Starts (itemsText style (item :: items) ++ ']'.toNat :: rest) := by
      cases items with
      | nil => exact text_starts writable.1 ends_bracket
      | cons other others =>
        rw [itemsText_cons,List.append_assoc]
        exact text_starts writable.1 ends_comma
    rw [whole,scan_opens (.inl ⟨rfl,rfl,rfl⟩) room,scan_firstItem starts]
    exact scan_items item items opened rest [] writable
  | .obj [],_,_,⟨room,_,_⟩,_ => (scan_opens (.inr ⟨rfl,rfl,rfl⟩) room).trans (scan_next rfl rfl)
  | .obj ((key,value) :: fields),opened,rest,⟨room,distinct,writable⟩,_ => by
    have whole : text style (.obj ((key,value) :: fields)) ++ rest =
        '\x7b'.toNat :: (fieldsText style ((key,value) :: fields) ++ '\x7d'.toNat :: rest) := by simp [text]
    have starts : Starts (fieldsText style ((key,value) :: fields) ++ '\x7d'.toNat :: rest) := by
      cases fields <;> exact ⟨rfl,rfl,rfl⟩
    rw [whole,scan_opens (.inr ⟨rfl,rfl,rfl⟩) room,scan_firstKey starts]
    exact scan_fields key value fields opened rest [] [] writable distinct
termination_by value => sizeOf value
theorem scan_items : ∀ (item : Value) (items : List Value) (opened : List Open) (rest : Text) (read : List Value),
    WritableItems style limits (opened.length + 1) (item :: items) →
      scan limits ⟨.array read :: opened,.value,itemsText style (item :: items) ++ ']'.toNat :: rest⟩ =
        scan limits ⟨opened,.after (.arr (read ++ item :: items)),rest⟩
  | item,[],opened,rest,read,writable =>
    (scan_text item (.array read :: opened) _ writable.1 ends_bracket).trans (scan_closes (.array read) item)
  | item,other :: others,opened,rest,read,writable => by
    have first := scan_text item (.array read :: opened)
      (','.toNat :: (style.gap ++ (itemsText style (other :: others) ++ ']'.toNat :: rest))) writable.1 ends_comma
    have later := scan_items other others opened rest (read ++ [item]) writable.2
    rw [itemsText_cons,List.append_assoc,List.cons_append,List.append_assoc,first,scan_comma]
    show scan limits ⟨.array (read ++ [item]) :: opened,.value,_⟩ = _
    rw [scan_gap,later,List.append_assoc]
    rfl
termination_by item items => sizeOf (item :: items)
theorem scan_fields : ∀ (key : Text) (value : Value) (fields : List (Text × Value)) (opened : List Open) (rest slot : Text)
    (read : List (Text × Value)), WritableFields style limits (opened.length + 1) ((key,value) :: fields) →
      (read.map Prod.fst ++ key :: fields.map Prod.fst).Nodup →
      scan limits ⟨.object read slot :: opened,.key,fieldsText style ((key,value) :: fields) ++ '\x7d'.toNat :: rest⟩ =
        scan limits ⟨opened,.after (.obj (read ++ (key,value) :: fields)),rest⟩
  | key,value,[],opened,rest,slot,read,writable,distinct => by
    have fresh : key ∉ read.map Prod.fst := fun inside =>
      (List.nodup_append.mp distinct).2.2 key inside key List.mem_cons_self rfl
    have written := scan_text value (.object read key :: opened) ('\x7d'.toNat :: rest) writable.2.1 ends_brace
    rw [fieldsText,List.append_assoc,List.cons_append,List.append_assoc,scan_key writable.1,scan_gap,written]
    refine (scan_closes (.object read key) value).trans ?_
    show scan limits ⟨opened,.after (.obj (assign read key value)),rest⟩ = _
    rw [assign_fresh fresh]
  | key,value,(next,following) :: fields,opened,rest,slot,read,writable,distinct => by
    have fresh : key ∉ read.map Prod.fst := fun inside =>
      (List.nodup_append.mp distinct).2.2 key inside key List.mem_cons_self rfl
    have further : ((read ++ [(key,value)]).map Prod.fst ++ next :: fields.map Prod.fst).Nodup := by
      rw [List.map_append,List.append_assoc]
      exact distinct
    have written := scan_text value (.object read key :: opened)
      (','.toNat :: (style.gap ++ (fieldsText style ((next,following) :: fields) ++ '\x7d'.toNat :: rest)))
      writable.2.1 ends_comma
    have later := scan_fields next following fields opened rest key (read ++ [(key,value)]) writable.2.2 further
    have whole : fieldsText style ((key,value) :: (next,following) :: fields) ++ '\x7d'.toNat :: rest =
        quoted style key ++ ':'.toNat :: (style.gap ++ (text style value ++ (','.toNat :: (style.gap ++
          (fieldsText style ((next,following) :: fields) ++ '\x7d'.toNat :: rest))))) := by
      simp [fieldsText]
    rw [whole,scan_key writable.1,scan_gap,written,scan_comma]
    show scan limits ⟨.object (assign read key value) key :: opened,.key,_⟩ = _
    rw [assign_fresh fresh,scan_gap,later,List.append_assoc]
    rfl
termination_by key value fields => sizeOf ((key,value) :: fields)
end

theorem ends_blank (blank : ∀ point ∈ rest, isSpace point = true) : Ends rest := by
  rintro point more rfl
  have known := blank point List.mem_cons_self
  simp only [isSpace,Bool.or_eq_true,decide_eq_true_eq] at known
  rcases known with ((rfl | rfl) | rfl) | rfl <;> decide

theorem scan_start {value : Value} (writable : Writable style limits 0 value)
    (blank : ∀ point ∈ rest, isSpace point = true) :
    scan limits (Place.start (text style value ++ rest)) = .ok value := by
  have gone : rest.dropWhile isSpace = [] := List.dropWhile_eq_nil_iff.mpr blank
  have done : scan limits ⟨[],.after value,rest⟩ = scan limits ⟨[],.after value,[]⟩ := scan_ahead gone
  rw [Place.start,scan_text value [] rest writable (ends_blank blank),done,scan_eq]
  rfl

end
end JsonText
