import HyprlandAgent.Ipc.Protocol

-- NDJSON frame I/O over asyncio streams.
namespace HyprlandAgent.Ipc

def frameMaxBytes : Nat := 1 * 1024 * 1024

def newline : UInt8 := 10

def utf8 (text : List Char) : Bytes := text.flatMap String.utf8EncodeChar

-- What `json.loads` raises: a `JSONDecodeError` with its text, or anything else.
inductive LoadsError where
  | jsonDecode (text : String)
  | other (text : String)

-- The libraries under the wire: the text of a float, `json.loads`, and the text
-- of a validation error. The text of a float has digits, signs, dots and an `e`.
structure Wire where
  floatText : Rat → String
  loads : Bytes → Except LoadsError Json
  schemaError : Json → String
  floatText_inline : ∀ value, '\n' ∉ (floatText value).toList

def intText : Int → List Char
  | .ofNat n => Nat.toDigits 10 n
  | .negSucc n => '-' :: Nat.toDigits 10 (n + 1)

def escaped (char : Char) : List Char :=
  if char = '\x22' then ['\x5c','\x22']
  else if char = '\x5c' then ['\x5c','\x5c']
  else if char = '\n' then ['\x5c','n']
  else if char = '\r' then ['\x5c','r']
  else if char = '\t' then ['\x5c','t']
  else if char = '\x08' then ['\x5c','b']
  else if char = '\x0c' then ['\x5c','f']
  else if char.toNat < 0x20 then
    ['\x5c','u','0','0',Nat.digitChar (char.toNat / 16),Nat.digitChar (char.toNat % 16)]
  else [char]

def quoted (text : String) : List Char := '\x22' :: text.toList.flatMap escaped ++ ['\x22']

section
variable (floatText : Rat → String)

-- Compact JSON.
mutual
def jsonText : Json → List Char
  | .null => "null".toList
  | .bool true => "true".toList
  | .bool false => "false".toList
  | .int value => intText value
  | .float value => (floatText value).toList
  | .str text => quoted text
  | .arr items => '[' :: itemsText items ++ [']']
  | .obj fields => '\x7b' :: fieldsText fields ++ ['\x7d']
def itemsText : List Json → List Char
  | [] => []
  | [item] => jsonText item
  | item :: rest => jsonText item ++ ',' :: itemsText rest
def fieldsText : List (String × Json) → List Char
  | [] => []
  | [(key,value)] => quoted key ++ ':' :: jsonText value
  | (key,value) :: rest => quoted key ++ ':' :: jsonText value ++ ',' :: fieldsText rest
end

end

namespace Wire
variable (wire : Wire)

def modelDumpJson (frame : Frame) : List Char := jsonText wire.floatText (.obj frame.modelDump)

def encodeFrame (frame : Frame) : Bytes := utf8 (wire.modelDumpJson frame ++ ['\n'])

end Wire

-- Why a `FrameParseError` was raised, and every other way a read can fail.
inductive ParseCause where
  | closed | json | shape | schema
  deriving DecidableEq

inductive ReadFailure where
  | tooLarge (consumed : Nat)
  | parse (text : String) (cause : ParseCause)
  | raised (text : String)

def Wire.decodeFrame (wire : Wire) (line : Bytes) : Except ReadFailure Frame :=
  match wire.loads line with
  | .error (.jsonDecode text) => .error (.parse ("invalid JSON: " ++ text) .json)
  | .error (.other text) => .error (.raised text)
  | .ok (.obj fields) =>
    match validatePython fields with
    | some frame => .ok frame
    | none => .error (.parse ("schema error: " ++ wire.schemaError (.obj fields)) .schema)
  | .ok _ => .error (.parse "frame must be a JSON object" .shape)

-- A stream reader: what it holds, and the chunks that arrive before the end of
-- the stream.
structure Stream where
  buffer : Bytes
  incoming : List Bytes

def Stream.contents (s : Stream) : Bytes := s.buffer ++ s.incoming.flatten

inductive StreamFailure where
  | limitOverrun (consumed : Nat)
  | incompleteRead (part : Bytes)

def cutLine : Bytes → Option (Bytes × Bytes)
  | [] => none
  | byte :: rest =>
    if byte = newline then some ([],rest)
    else (cutLine rest).map fun cut => (byte :: cut.1,cut.2)

-- `StreamReader.readuntil`, waiting for one more chunk as long as there is no
-- newline.
def readuntil (limit : Nat) : List Bytes → Bytes → Except StreamFailure Bytes × Stream
  | incoming,buffer =>
    match cutLine buffer with
    | some (line,rest) =>
      if limit < line.length then (.error (.limitOverrun line.length),⟨buffer,incoming⟩)
      else (.ok (line ++ [newline]),⟨rest,incoming⟩)
    | none =>
      if limit < buffer.length then (.error (.limitOverrun buffer.length),⟨buffer,incoming⟩)
      else
        match incoming with
        | [] => (.error (.incompleteRead buffer),⟨[],[]⟩)
        | chunk :: more => readuntil limit more (buffer ++ chunk)

def Wire.readFrame (wire : Wire) (limit : Nat) (s : Stream) : Except ReadFailure Frame × Stream :=
  match readuntil limit s.incoming s.buffer with
  | (.error (.limitOverrun consumed),next) => (.error (.tooLarge consumed),next)
  | (.error (.incompleteRead _),next) => (.error (.parse "connection closed mid-frame" .closed),next)
  | (.ok line,next) => (wire.decodeFrame line,next)

def Wire.readings (wire : Wire) (limit : Nat) : Nat → Stream → List (Except ReadFailure Frame)
  | 0,_ => []
  | count + 1,s =>
    let (result,next) := wire.readFrame limit s
    result :: wire.readings limit count next

section
variable {line rest buffer : Bytes} {limit : Nat} {incoming : List Bytes}

theorem cutLine_line (whole : newline ∉ line) :
    cutLine (line ++ newline :: rest) = some (line,rest) := by
  induction line with
  | nil => simp [cutLine]
  | cons byte more ih =>
    rw [List.mem_cons,not_or] at whole
    simp [cutLine,Ne.symm whole.1,ih whole.2]

theorem cutLine_none : cutLine buffer = none ↔ newline ∉ buffer := by
  induction buffer with
  | nil => simp [cutLine]
  | cons byte more ih =>
    by_cases ends : byte = newline
    · simp [cutLine,ends]
    · simp [cutLine,ends,ih,Ne.symm ends]

theorem cutLine_some (cut : cutLine buffer = some (line,rest)) :
    buffer = line ++ newline :: rest ∧ newline ∉ line := by
  induction buffer generalizing line with
  | nil => cases cut
  | cons byte more ih =>
    unfold cutLine at cut
    split at cut
    · rename_i ends
      cases cut
      exact ⟨by rw [ends]; rfl,List.not_mem_nil⟩
    · rename_i goes
      obtain ⟨⟨front,back⟩,found,same⟩ := Option.map_eq_some_iff.mp cut
      cases same
      obtain ⟨split,whole⟩ := ih found
      refine ⟨by rw [split]; rfl,?_⟩
      rw [List.mem_cons,not_or]
      exact ⟨Ne.symm goes,whole⟩

theorem first_line {other back : Bytes} (whole : newline ∉ line) (apart : newline ∉ other)
    (same : line ++ newline :: rest = other ++ newline :: back) : line = other ∧ rest = back := by
  have cut : cutLine (line ++ newline :: rest) = some (line,rest) := cutLine_line whole
  rw [same,cutLine_line apart] at cut
  cases cut
  exact ⟨rfl,rfl⟩

-- A read takes the first line off the stream if it fits, and fails if it does
-- not. The induction is on the chunks still to come.
theorem readuntil_line (limit : Nat) (whole : newline ∉ line)
    (holds : buffer ++ incoming.flatten = line ++ newline :: rest) :
    if line.length ≤ limit then
      ∃ next, readuntil limit incoming buffer = (.ok (line ++ [newline]),next) ∧ next.contents = rest
    else ∃ consumed next, readuntil limit incoming buffer = (.error (.limitOverrun consumed),next) := by
  induction incoming generalizing buffer with
  | nil =>
    rw [List.flatten_nil,List.append_nil] at holds
    unfold readuntil
    rw [holds,cutLine_line whole]
    by_cases fits : line.length ≤ limit
    · rw [if_pos fits]
      exact ⟨⟨rest,[]⟩,by simp [Nat.not_lt.mpr fits],by simp [Stream.contents]⟩
    · rw [if_neg fits]
      exact ⟨line.length,⟨line ++ newline :: rest,[]⟩,by simp [Nat.not_le.mp fits]⟩
  | cons chunk more ih =>
    unfold readuntil
    cases cut : cutLine buffer with
    | some pair =>
      obtain ⟨front,back⟩ := pair
      obtain ⟨split,apart⟩ := cutLine_some cut
      rw [split,List.append_assoc,List.cons_append] at holds
      obtain ⟨rfl,rfl⟩ := first_line apart whole holds
      by_cases fits : front.length ≤ limit
      · rw [if_pos fits]
        exact ⟨⟨back,chunk :: more⟩,by simp [Nat.not_lt.mpr fits],rfl⟩
      · rw [if_neg fits]
        exact ⟨front.length,⟨buffer,chunk :: more⟩,by simp [Nat.not_le.mp fits]⟩
    | none =>
      have plain := cutLine_none.mp cut
      have within : buffer.length ≤ line.length := by
        by_contra longer
        have reached : newline ∈ buffer := by
          have spot : (buffer ++ (chunk :: more).flatten)[line.length]? = some newline := by
            rw [holds]
            simp
          rw [List.getElem?_append_left (Nat.not_le.mp longer)] at spot
          exact List.mem_of_getElem? spot
        exact plain reached
      rw [List.flatten_cons,← List.append_assoc] at holds
      have continued := ih holds
      by_cases beyond : limit < buffer.length
      · have long : ¬line.length ≤ limit := by omega
        rw [if_neg long]
        exact ⟨buffer.length,⟨buffer,chunk :: more⟩,by simp [beyond]⟩
      · simpa [beyond] using continued

theorem readuntil_end (empty : buffer ++ incoming.flatten = []) :
    readuntil limit incoming buffer = (.error (.incompleteRead []),⟨[],[]⟩) := by
  induction incoming generalizing buffer with
  | nil =>
    rw [List.flatten_nil,List.append_nil] at empty
    subst empty
    simp [readuntil,cutLine]
  | cons chunk more ih =>
    obtain ⟨rfl,others⟩ := List.append_eq_nil_iff.mp empty
    rw [List.flatten_cons] at others
    unfold readuntil
    simpa [cutLine] using ih others

end

theorem newline_char {char : Char} (inside : newline ∈ String.utf8EncodeChar char) : char = '\n' := by
  have small (n : Nat) : newline = UInt8.ofNat n → n % 256 = 10 := by
    intro same
    have read := congrArg UInt8.toNat same
    simpa [newline] using read.symm
  simp only [String.utf8EncodeChar] at inside
  apply Char.ext
  apply UInt32.toNat_inj.mp
  split at inside
  · have value := small _ (List.mem_singleton.mp inside)
    show char.val.toNat = 10
    omega
  · exfalso
    split at inside
    · simp only [List.mem_cons,List.not_mem_nil,or_false] at inside
      rcases inside with same | same <;> have := small _ same <;> omega
    · split at inside
      · simp only [List.mem_cons,List.not_mem_nil,or_false] at inside
        rcases inside with same | same | same <;> have := small _ same <;> omega
      · simp only [List.mem_cons,List.not_mem_nil,or_false] at inside
        rcases inside with same | same | same | same <;> have := small _ same <;> omega

theorem digitChar_inline (n : Nat) : '\n' ≠ Nat.digitChar n := by
  intro same
  have printed : Nat.digitChar n = '*' ∨ (Nat.digitChar n).isAlphanum := by
    by_cases small : n < 16
    · right
      have all : ∀ m : Fin 16, (Nat.digitChar m).isAlphanum := by decide
      exact all ⟨n,small⟩
    · left
      unfold Nat.digitChar
      grind
  rw [← same] at printed
  exact absurd printed (by decide)

theorem escaped_inline (char : Char) : '\n' ∉ escaped char := by
  unfold escaped
  repeat' split
  all_goals simp [digitChar_inline]
  all_goals exact Ne.symm ‹_›

theorem quoted_inline (text : String) : '\n' ∉ quoted text := by
  unfold quoted
  simp [escaped_inline]

theorem intText_inline (value : Int) : '\n' ∉ intText value := by
  have digits (n : Nat) : '\n' ∉ Nat.toDigits 10 n := by
    intro inside
    have digit := Nat.isDigit_of_mem_toDigits (by decide) (by decide) inside
    exact absurd digit (by decide)
  cases value with
  | ofNat n => exact digits n
  | negSucc n => simp [intText,digits]

section
variable {floatText : Rat → String}

-- No JSON text has a newline in it.
mutual
theorem jsonText_inline (inline : ∀ value, '\n' ∉ (floatText value).toList) :
    (value : Json) → '\n' ∉ jsonText floatText value
  | .null => by simp [jsonText]
  | .bool true => by simp [jsonText]
  | .bool false => by simp [jsonText]
  | .int value => intText_inline value
  | .float value => inline value
  | .str text => quoted_inline text
  | .arr items => by simp [jsonText,itemsText_inline inline items]
  | .obj fields => by simp [jsonText,fieldsText_inline inline fields]
theorem itemsText_inline (inline : ∀ value, '\n' ∉ (floatText value).toList) :
    (items : List Json) → '\n' ∉ itemsText floatText items
  | [] => List.not_mem_nil
  | [item] => jsonText_inline inline item
  | item :: next :: rest => by
    simp [itemsText,jsonText_inline inline item,itemsText_inline inline (next :: rest)]
theorem fieldsText_inline (inline : ∀ value, '\n' ∉ (floatText value).toList) :
    (fields : List (String × Json)) → '\n' ∉ fieldsText floatText fields
  | [] => List.not_mem_nil
  | [(key,value)] => by simp [fieldsText,quoted_inline,jsonText_inline inline value]
  | (key,value) :: next :: rest => by
    simp [fieldsText,quoted_inline,jsonText_inline inline value,fieldsText_inline inline (next :: rest)]
end

end

namespace Wire
variable {wire : Wire} {limit : Nat} {s : Stream}

theorem encodeFrame_line (wire : Wire) (frame : Frame) :
    wire.encodeFrame frame = utf8 (wire.modelDumpJson frame) ++ [newline] := by
  unfold encodeFrame utf8
  rw [List.flatMap_append]
  rfl

theorem encodeFrame_inline (wire : Wire) (frame : Frame) :
    newline ∉ utf8 (wire.modelDumpJson frame) := by
  intro inside
  obtain ⟨char,present,encoded⟩ := List.mem_flatMap.mp inside
  rw [newline_char encoded] at present
  exact jsonText_inline wire.floatText_inline _ present

theorem readFrame_line (wire : Wire) (limit : Nat) {line rest : Bytes} (whole : newline ∉ line)
    (holds : s.contents = line ++ newline :: rest) :
    if line.length ≤ limit then
      ∃ next, wire.readFrame limit s = (wire.decodeFrame (line ++ [newline]),next) ∧
        next.contents = rest
    else ∃ consumed next, wire.readFrame limit s = (.error (.tooLarge consumed),next) := by
  have read := readuntil_line limit whole holds
  by_cases fits : line.length ≤ limit
  · rw [if_pos fits] at read ⊢
    obtain ⟨next,taken,left⟩ := read
    exact ⟨next,by simp [readFrame,taken],left⟩
  · rw [if_neg fits] at read ⊢
    obtain ⟨consumed,next,failed⟩ := read
    exact ⟨consumed,next,by simp [readFrame,failed]⟩

theorem readings_lines (wire : Wire) (limit : Nat) {lines : List Bytes} (whole : ∀ line ∈ lines, newline ∉ line)
    (fits : ∀ line ∈ lines, line.length ≤ limit)
    (holds : s.contents = lines.flatMap (· ++ [newline])) (count : Nat) :
    wire.readings limit count s =
      (lines.take count).map (fun line => wire.decodeFrame (line ++ [newline])) ++
        List.replicate (count - lines.length)
          (.error (.parse "connection closed mid-frame" .closed)) := by
  induction count generalizing s lines with
  | zero => simp [readings]
  | succ count ih =>
    cases lines with
    | nil =>
      have closed : wire.readFrame limit s =
          (.error (.parse "connection closed mid-frame" .closed),⟨[],[]⟩) := by
        simp [readFrame,readuntil_end holds]
      have others := ih (s:=⟨[],[]⟩) whole fits rfl
      simp only [readings,closed,others]
      simp [List.replicate_succ]
    | cons line rest =>
      rw [List.flatMap_cons,List.append_assoc] at holds
      have read := readFrame_line wire limit (whole line (List.mem_cons_self ..)) holds
      rw [if_pos (fits line (List.mem_cons_self ..))] at read
      obtain ⟨next,taken,left⟩ := read
      have others := ih (fun other inside => whole other (List.mem_cons_of_mem _ inside))
        (fun other inside => fits other (List.mem_cons_of_mem _ inside)) left
      simp only [readings,taken,others]
      simp

end Wire
end HyprlandAgent.Ipc
