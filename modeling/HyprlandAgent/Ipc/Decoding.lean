import HyprlandAgent.Ipc.Framing
import HyprlandAgent.JsonLoads

-- `decode_frame` down to the bytes of the line.
namespace HyprlandAgent.Ipc
open JsonLoads

-- The interpreter under `json.loads`: its limits, the texts of its errors, the value of
-- a float, and the string for a text. No string stands for a surrogate on its own, so
-- what a text with one in it becomes is left open.
structure Interpreter where
  limits : Limits
  errorText : Bytes → Failure → String
  float : Text → Rat
  string : Text → String
  string_points : ∀ text, string (points text) = text

namespace Interpreter
variable (python : Interpreter)

mutual
def data : Value → Json
  | .null => .null
  | .bool value => .bool value
  | .int value => .int value
  | .float literal => .float (python.float literal)
  | .str text => .str (python.string text)
  | .arr items => .arr (dataItems items)
  | .obj fields => .obj (dataFields fields)
def dataItems : List Value → List Json
  | [] => []
  | item :: rest => data item :: dataItems rest
def dataFields : List (Text × Value) → List (String × Json)
  | [] => []
  | (key,value) :: rest => (python.string key,data value) :: dataFields rest
end

-- `json.loads`: of the failures only an invalid text is a `JSONDecodeError`.
def loads (line : Bytes) : Except LoadsError Json :=
  match JsonLoads.loads python.limits line with
  | .ok value => .ok (python.data value)
  | .error .invalid => .error (.jsonDecode (python.errorText line .invalid))
  | .error failure => .error (.other (python.errorText line failure))

end Interpreter

namespace Wire

def reading (wire : Wire) (python : Interpreter) : Wire := { wire with loads := python.loads }

-- What is promised of a line: a frame that its object is valid for, or a `FrameParseError`.
def Answers (wire : Wire) (line : Bytes) : Prop :=
  match wire.decodeFrame line with
  | .ok frame => ∃ fields, wire.loads line = .ok (.obj fields) ∧ validatePython fields = some frame
  | .error (.parse _ _) => True
  | .error _ => False

end Wire

section
variable {python : Interpreter} {wire : Wire} {line : Bytes}

theorem loads_other_iff : (∃ text, python.loads line = .error (.other text)) ↔ ¬Readable python.limits line := by
  rw [← loads_invalid_iff]
  unfold Interpreter.loads
  cases JsonLoads.loads python.limits line with
  | ok value =>
    refine ⟨fun ⟨_,raised⟩ => (nomatch raised),fun failed => ?_⟩
    exact absurd (fun _ raised => nomatch raised) failed
  | error failure =>
    constructor
    · rintro ⟨text,raised⟩ always
      cases always failure rfl
      cases raised
    · intro failed
      cases failure with
      | invalid =>
        refine absurd (fun other raised => ?_) failed
        cases raised
        rfl
      | unicode | overrun => exact ⟨_,rfl⟩

theorem answers_loads_iff : wire.Answers line ↔ ∀ text, wire.loads line ≠ .error (.other text) := by
  unfold Wire.Answers Wire.decodeFrame
  cases wire.loads line with
  | error failure =>
    cases failure with
    | jsonDecode text => exact ⟨fun _ _ same => (nomatch same),fun _ => trivial⟩
    | other text => exact ⟨False.elim,fun always => always text rfl⟩
  | ok data =>
    refine ⟨fun _ _ same => (nomatch same),fun _ => ?_⟩
    cases data with
    | obj fields =>
      dsimp only
      cases valid : validatePython fields with
      | some frame => exact ⟨fields,rfl,valid⟩
      | none => trivial
    | _ => trivial

theorem unreadable_escapes (unreadable : ¬Readable python.limits line) : ¬(wire.reading python).Answers line := by
  obtain ⟨text,raised⟩ := loads_other_iff.mpr unreadable
  exact fun answered => answers_loads_iff.mp answered text raised

theorem ascii_answers (ascii : ∀ byte ∈ line, 0 < byte ∧ byte < 0x80) (deep : line.length ≤ python.limits.depth)
    (long : line.length ≤ python.limits.digits) : (wire.reading python).Answers line := by
  refine answers_loads_iff.mpr fun text raised => loads_other_iff.mp ⟨text,raised⟩ ?_
  exact short_readable (ascii_decoded ascii) (by rwa [List.length_map]) (by rwa [List.length_map])

theorem brackets_escape (wire : Wire) (python : Interpreter) :
    ¬(wire.reading python).Answers (List.replicate (python.limits.depth + 1) 0x5b) := by
  refine unreadable_escapes (nested_unreadable [] ?_)
  rw [ascii_decoded (fun byte inside => by rw [List.eq_of_mem_replicate inside]; decide),List.map_replicate,
    List.append_nil]
  rfl

theorem ones_escape (wire : Wire) (python : Interpreter) :
    ¬(wire.reading python).Answers (List.replicate (python.limits.digits + 1) 0x31) := by
  refine unreadable_escapes (ones_unreadable ?_)
  rw [ascii_decoded (fun byte inside => by rw [List.eq_of_mem_replicate inside]; decide),List.map_replicate]
  rfl

end

theorem decode_frame_answers_iff (wire : Wire) (python : Interpreter) (line : Bytes) :
    (wire.reading python).Answers line ↔ Readable python.limits line := by
  have answers : (wire.reading python).Answers line ↔ ∀ text, python.loads line ≠ .error (.other text) :=
    answers_loads_iff
  rw [answers,← not_exists,loads_other_iff,not_not]

def cpython : Interpreter where
  limits := ⟨4300,10000⟩
  errorText := fun _ _ => "'utf-8' codec can't decode byte 0xff in position 0: invalid start byte"
  float := fun _ => 0
  string := fun text => String.ofList (text.map Char.ofNat)
  string_points := by
    intro text
    have same : Char.ofNat ∘ Char.toNat = id := funext Char.ofNat_toNat
    rw [points,List.map_map,same,List.map_id,String.ofList_toList]

def plainWire : Wire where
  floatText := fun _ => "0"
  loads := cpython.loads
  schemaError := fun _ => "1 validation error"
  floatText_inline := fun _ => by decide

theorem stray_byte_escapes :
    ¬∀ (wire : Wire) (python : Interpreter) (line : Bytes), (wire.reading python).Answers line := by
  intro always
  have undecoded : decode [0xff,newline] (detectEncoding [0xff,newline]) = none := by decide
  refine unreadable_escapes ?_ (always plainWire cpython [0xff,newline])
  rintro ⟨text,decoded,_⟩
  cases undecoded.symm.trans decoded

end HyprlandAgent.Ipc
