import HyprlandAgent.Ipc.Inverse
import HyprlandAgent.JsonDumps

-- Python's `json.dumps` on JSON data, as the daemon writes its files and columns with it,
-- and `json.loads` on such a text.
namespace HyprlandAgent
open JsonLoads Ipc

-- The separators are `", "` and `": "`, and the text is ASCII.
def spaced : JsonText.Style where
  escape := fun point => JsonDumps.codes (JsonDumps.escapeChar (Char.ofNat point))
  gap := [' '.toNat]
  blank := by decide

def dumpsText (floatText : Rat → String) (value : Json) : Text := JsonText.text spaced (valueOf floatText value)

def loadsText (python : Interpreter) (text : Text) : Option Json :=
  match scan python.limits (Place.start text) with
  | .ok value => some (python.data value)
  | .error _ => none

section
variable {floatText : Rat → String} {python : Interpreter} {value : Json} {rest : Text}

theorem quotes_spaced (text : String) : JsonText.Quotes spaced (points text) := by
  have written (chars : List Char) : (chars.map Char.toNat).flatMap spaced.escape =
      JsonDumps.codes (JsonDumps.escape chars) := by
    induction chars with
    | nil => rfl
    | cons char more ih =>
      have first : spaced.escape char.toNat = JsonDumps.codes (JsonDumps.escapeChar char) := by
        show JsonDumps.codes (JsonDumps.escapeChar (Char.ofNat char.toNat)) = _
        rw [Char.ofNat_toNat]
      rw [List.map_cons,List.flatMap_cons,ih,first]
      exact List.map_append.symm
  intro rest
  rw [points,written]
  exact JsonDumps.scanString_escape text.toList

theorem loadsText_dumpsText (carries : Ipc.Carries floatText python 0 value)
    (blank : ∀ point ∈ rest, isSpace point = true) : loadsText python (dumpsText floatText value ++ rest) = some value := by
  unfold loadsText dumpsText
  rw [JsonText.scan_start (writable_valueOf quotes_spaced 0 value carries) blank]
  exact congrArg some (data_valueOf 0 value carries)

def Printed (text : Text) : Prop := ∀ point ∈ text, 0x20 ≤ point

theorem Printed.nil : Printed [] := fun _ inside => (List.not_mem_nil inside).elim

theorem Printed.append {one two : Text} (first : Printed one) (second : Printed two) : Printed (one ++ two) := by
  intro point inside
  rcases List.mem_append.mp inside with before | after
  · exact first point before
  · exact second point after

theorem Printed.cons {point : Nat} {text : Text} (first : 0x20 ≤ point) (second : Printed text) :
    Printed (point :: text) := by
  intro other inside
  rcases List.mem_cons.mp inside with rfl | later
  · exact first
  · exact second other later

theorem digitChar_printed (n : Nat) : 0x20 ≤ (Nat.digitChar n).toNat := by
  by_cases small : n < 16
  · exact (by decide : ∀ m : Fin 16, 0x20 ≤ (Nat.digitChar m).toNat) ⟨n,small⟩
  · have star : Nat.digitChar n = '*' := by
      unfold Nat.digitChar
      repeat rw [if_neg (by omega)]
    rw [star]
    decide

theorem escapeUnit_printed (unit : Nat) : Printed (JsonDumps.codes (JsonDumps.escapeUnit unit)) := by
  refine .cons (by decide) (.cons (by decide) ?_)
  intro point inside
  rw [List.map_map] at inside
  obtain ⟨digit,_,rfl⟩ := List.mem_map.mp inside
  exact digitChar_printed digit

-- The cases are those of the writer.
theorem escape_printed (point : Nat) : Printed (spaced.escape point) := by
  show Printed (JsonDumps.codes (JsonDumps.escapeChar (Char.ofNat point)))
  unfold JsonDumps.escapeChar
  split
  · rename_i name named
    have all : ∀ pair ∈ JsonDumps.escapeNames, 0x20 ≤ pair.2.toNat := by decide
    obtain ⟨before,after,parts,_⟩ := List.lookup_eq_some_iff.mp named
    exact .cons (by decide) (.cons (all (Char.ofNat point,name) (by simp [parts])) .nil)
  · split
    · rename_i shown
      simp only [JsonDumps.printable,Bool.and_eq_true,decide_eq_true_eq] at shown
      exact .cons shown.1 .nil
    · split
      · exact escapeUnit_printed _
      · rw [JsonDumps.codes,List.map_append]
        exact (escapeUnit_printed _).append (escapeUnit_printed _)

theorem quoted_printed (chars : Text) : Printed (JsonText.quoted spaced chars) := by
  refine .cons (by decide) (.append ?_ (.cons (by decide) .nil))
  intro point inside
  obtain ⟨char,_,written⟩ := List.mem_flatMap.mp inside
  exact escape_printed char point written

theorem digits_printed (n : Nat) : Printed (JsonText.digits n) := by
  intro point inside
  have digit := JsonText.isDigit_digits point inside
  simp only [isDigit,Bool.and_eq_true,decide_eq_true_eq] at digit
  omega

mutual
theorem text_printed (floats : ∀ value, Printed (points (floatText value))) :
    ∀ value, Printed (JsonText.text spaced (valueOf floatText value))
  | .null => (by decide : ∀ point ∈ points "null", 0x20 ≤ point)
  | .bool true => (by decide : ∀ point ∈ points "true", 0x20 ≤ point)
  | .bool false => (by decide : ∀ point ∈ points "false", 0x20 ≤ point)
  | .int (.ofNat n) => digits_printed n
  | .int (.negSucc n) => .cons (by decide) (digits_printed (n + 1))
  | .float value => floats value
  | .str text => quoted_printed (points text)
  | .arr items => .cons (by decide) ((itemsText_printed floats items).append (.cons (by decide) .nil))
  | .obj fields => .cons (by decide) ((fieldsText_printed floats fields).append (.cons (by decide) .nil))
theorem itemsText_printed (floats : ∀ value, Printed (points (floatText value))) :
    ∀ items, Printed (JsonText.itemsText spaced (valuesOf floatText items))
  | [] => .nil
  | [item] => text_printed floats item
  | item :: other :: others => by
    have later := itemsText_printed floats (other :: others)
    rw [valuesOf] at later ⊢
    rw [valuesOf,JsonText.itemsText_cons]
    exact (text_printed floats item).append (.cons (by decide) (.cons (by decide) later))
theorem fieldsText_printed (floats : ∀ value, Printed (points (floatText value))) :
    ∀ fields, Printed (JsonText.fieldsText spaced (fieldsOf floatText fields))
  | [] => .nil
  | [(key,value)] => (quoted_printed (points key)).append
    (.cons (by decide) (.cons (by decide) (text_printed floats value)))
  | (key,value) :: (other,next) :: others => by
    have later := fieldsText_printed floats ((other,next) :: others)
    rw [fieldsOf] at later ⊢
    rw [fieldsOf,JsonText.fieldsText]
    · exact (quoted_printed (points key)).append (.cons (by decide) (.cons (by decide)
        ((text_printed floats value).append (.cons (by decide) (.cons (by decide) later)))))
    · exact nofun
end

end
end HyprlandAgent
