import HyprlandAgent.Ipc.Decoding
import HyprlandAgent.Ipc.RoundTrip
import HyprlandAgent.JsonText
import HyprlandAgent.JsonUtf8

-- `json.loads` gives back what `model_dump_json` wrote, down to the bytes.
namespace HyprlandAgent.Ipc
open JsonLoads

def codes (chars : List Char) : Text := chars.map Char.toNat

def compact : JsonText.Style where
  escape := fun point => codes (escaped (Char.ofNat point))
  gap := []
  blank := nofun

section
variable (floatText : Rat → String)

mutual
def valueOf : Json → Value
  | .null => .null
  | .bool value => .bool value
  | .int value => .int value
  | .float value => .float (points (floatText value))
  | .str text => .str (points text)
  | .arr items => .arr (valuesOf items)
  | .obj fields => .obj (fieldsOf fields)
def valuesOf : List Json → List Value
  | [] => []
  | item :: rest => valueOf item :: valuesOf rest
def fieldsOf : List (String × Json) → List (Text × Value)
  | [] => []
  | (key,value) :: rest => (points key,valueOf value) :: fieldsOf rest
end

-- JSON data that can cross inside of `n` containers: numbers that the interpreter reads
-- back, containers it can open, and no key twice.
mutual
def Carries (python : Interpreter) : Nat → Json → Prop
  | _,.null => True
  | _,.bool _ => True
  | _,.int value => (Nat.toDigits 10 value.natAbs).length ≤ python.limits.digits
  | _,.float value =>
    JsonText.FloatLiteral (points (floatText value)) ∧ python.float (points (floatText value)) = value
  | _,.str _ => True
  | n,.arr items => n < python.limits.depth ∧ CarriesItems python (n + 1) items
  | n,.obj fields => n < python.limits.depth ∧ (fields.map Prod.fst).Nodup ∧ CarriesFields python (n + 1) fields
def CarriesItems (python : Interpreter) : Nat → List Json → Prop
  | _,[] => True
  | n,item :: rest => Carries python n item ∧ CarriesItems python n rest
def CarriesFields (python : Interpreter) : Nat → List (String × Json) → Prop
  | _,[] => True
  | n,(_,value) :: rest => Carries python n value ∧ CarriesFields python n rest
end

end

section
variable {floatText : Rat → String} {python : Interpreter} {rest : Text} {char : Char}

theorem codes_append (one two : List Char) : codes (one ++ two) = codes one ++ codes two := List.map_append

theorem points_injective {one two : String} (same : points one = points two) : one = two :=
  String.toList_injective (List.map_injective_iff.mpr (fun _ _ => Char.toNat_inj.mp) same)

theorem stringUnits_escaped (rest : Text) (char : Char) : ∃ marked, stringUnits (codes (escaped char) ++ rest) =
    (stringUnits rest).map fun read => ((marked,char.toNat) :: read.1,read.2) := by
  have named (name : Char) (found : Char × Nat) (plain : name.toNat ≠ 'u'.toNat)
      (listed : escapes.find? (·.1.toNat == name.toNat) = some found) (same : found.2 = char.toNat) :
      stringUnits (codes ['\x5c',name] ++ rest) =
        (stringUnits rest).map fun read => ((false,char.toNat) :: read.1,read.2) := by
    simp only [codes,List.map_cons,List.map_nil,List.cons_append,List.nil_append]
    rw [stringUnits.eq_def]
    simp only [if_neg (show '\x5c'.toNat ≠ '\x22'.toNat by decide),if_true,if_neg plain,listed,same]
  unfold escaped
  split
  · rename_i same
    exact ⟨false,named '\x22' ('\x22',0x22) (by decide) rfl (by rw [same]; rfl)⟩
  split
  · rename_i same
    exact ⟨false,named '\x5c' ('\x5c',0x5c) (by decide) rfl (by rw [same]; rfl)⟩
  split
  · rename_i same
    exact ⟨false,named 'n' ('n',0x0a) (by decide) rfl (by rw [same]; rfl)⟩
  split
  · rename_i same
    exact ⟨false,named 'r' ('r',0x0d) (by decide) rfl (by rw [same]; rfl)⟩
  split
  · rename_i same
    exact ⟨false,named 't' ('t',0x09) (by decide) rfl (by rw [same]; rfl)⟩
  split
  · rename_i same
    exact ⟨false,named 'b' ('b',0x08) (by decide) rfl (by rw [same]; rfl)⟩
  split
  · rename_i same
    exact ⟨false,named 'f' ('f',0x0c) (by decide) rfl (by rw [same]; rfl)⟩
  split
  · rename_i small
    have digit {n : Nat} (below : n < 16) : hexDigit (Nat.digitChar n).toNat = some n :=
      (by decide : ∀ d : Fin 16, hexDigit (Nat.digitChar d).toNat = some d.val) ⟨n,below⟩
    have high := digit (show char.toNat / 16 < 16 by omega)
    have low := digit (show char.toNat % 16 < 16 by omega)
    have read : hex4 '0'.toNat '0'.toNat (Nat.digitChar (char.toNat / 16)).toNat
        (Nat.digitChar (char.toNat % 16)).toNat = some char.toNat := by
      have zero : hexDigit '0'.toNat = some 0 := rfl
      have whole : ((0 * 16 + 0) * 16 + char.toNat / 16) * 16 + char.toNat % 16 = char.toNat := by omega
      simp only [hex4,zero,high,low,bind,Option.bind,pure,whole]
    refine ⟨true,?_⟩
    simp only [codes,List.map_cons,List.map_nil,List.cons_append,List.nil_append]
    rw [stringUnits.eq_def]
    simp only [if_neg (show '\x5c'.toNat ≠ '\x22'.toNat by decide),if_true,read]
  · rename_i quote backslash _ _ _ _ _ shown
    have apart {code : Char} (other : char ≠ code) : char.toNat ≠ code.toNat := fun same => other (Char.toNat_inj.mp same)
    refine ⟨false,?_⟩
    simp only [codes,List.map_cons,List.map_nil,List.cons_append,List.nil_append]
    rw [stringUnits.eq_def]
    simp only [if_neg (apart quote),if_neg (apart backslash),if_neg shown]

theorem joinPairs_chars {units : List (Bool × Nat)} {chars : List Char}
    (same : units.map Prod.snd = codes chars) : joinPairs units = codes chars := by
  induction chars generalizing units with
  | nil =>
    obtain rfl := List.map_eq_nil_iff.mp same
    rfl
  | cons char more ih =>
    obtain ⟨⟨marked,unit⟩,later,rfl,point,others⟩ := List.map_eq_cons_iff.mp same
    obtain rfl : unit = char.toNat := point
    have range : char.toNat < 0xd800 ∨ 0xdfff < char.toNat ∧ char.toNat < 0x110000 := char.valid
    have narrow : isHigh char.toNat = false := by
      simp only [isHigh,Bool.and_eq_false_iff,decide_eq_false_iff_not]
      omega
    have further := ih others
    cases later with
    | nil =>
      obtain rfl := List.map_eq_nil_iff.mp others.symm
      rfl
    | cons unit units =>
      have joined : joinPairs ((marked,char.toNat) :: unit :: units) = char.toNat :: joinPairs (unit :: units) := by
        simp [joinPairs,narrow]
      rw [joined,further]
      rfl

theorem quotes_compact (text : String) : JsonText.Quotes compact (points text) := by
  intro rest
  have units (chars : List Char) : ∃ units : List (Bool × Nat), units.map Prod.snd = codes chars ∧
      stringUnits ((codes chars).flatMap compact.escape ++ '\x22'.toNat :: rest) = some (units,rest) := by
    induction chars with
    | nil =>
      refine ⟨[],rfl,?_⟩
      rw [codes,List.map_nil,List.flatMap_nil,List.nil_append,stringUnits.eq_def]
      simp only [if_true]
    | cons char more ih =>
      obtain ⟨units,same,read⟩ := ih
      obtain ⟨marked,first⟩ := stringUnits_escaped ((codes more).flatMap compact.escape ++ '\x22'.toNat :: rest) char
      have written : compact.escape char.toNat = codes (escaped char) := by
        show codes (escaped (Char.ofNat char.toNat)) = _
        rw [Char.ofNat_toNat]
      refine ⟨(marked,char.toNat) :: units,congrArg (char.toNat :: ·) same,?_⟩
      have split : (codes (char :: more)).flatMap compact.escape ++ '\x22'.toNat :: rest =
          codes (escaped char) ++ ((codes more).flatMap compact.escape ++ '\x22'.toNat :: rest) := by
        rw [codes,List.map_cons,List.flatMap_cons,written,List.append_assoc]
        rfl
      rw [split,first,read]
      rfl
  obtain ⟨units,same,read⟩ := units text.toList
  have whole : scanString ((points text).flatMap compact.escape ++ '\x22'.toNat :: rest) =
      some (joinPairs units,rest) := by
    rw [scanString]
    exact congrArg _ read
  rw [whole,joinPairs_chars same]
  rfl

theorem codes_quoted (text : String) : codes (quoted text) = JsonText.quoted compact (points text) := by
  have chars (chars : List Char) : codes (chars.flatMap escaped) = (codes chars).flatMap compact.escape := by
    induction chars with
    | nil => rfl
    | cons char more ih =>
      have written : compact.escape char.toNat = codes (escaped char) := by
        show codes (escaped (Char.ofNat char.toNat)) = _
        rw [Char.ofNat_toNat]
      have split : codes (char :: more) = char.toNat :: codes more := rfl
      rw [List.flatMap_cons,codes_append,ih,split,List.flatMap_cons,written]
  rw [quoted,JsonText.quoted,codes,List.cons_append,List.map_cons,List.map_append]
  exact congrArg (fun middle => '\x22'.toNat :: (middle ++ ['\x22'.toNat])) (chars text.toList)

-- The writer of the wire, as a writer of values.
mutual
theorem codes_jsonText : ∀ value : Json, codes (jsonText floatText value) = JsonText.text compact (valueOf floatText value)
  | .null => rfl
  | .bool true => rfl
  | .bool false => rfl
  | .int (.ofNat _) => rfl
  | .int (.negSucc _) => rfl
  | .float _ => rfl
  | .str text => codes_quoted text
  | .arr items => by
    rw [jsonText,valueOf,JsonText.text,← codes_itemsText items,codes,List.cons_append,List.map_cons,List.map_append]
    rfl
  | .obj fields => by
    rw [jsonText,valueOf,JsonText.text,← codes_fieldsText fields,codes,List.cons_append,List.map_cons,List.map_append]
    rfl
theorem codes_itemsText : ∀ items : List Json,
    codes (itemsText floatText items) = JsonText.itemsText compact (valuesOf floatText items)
  | [] => rfl
  | [item] => codes_jsonText item
  | item :: other :: others => by
    rw [itemsText,valuesOf,valuesOf,JsonText.itemsText_cons,codes_append,codes_jsonText item]
    · have later := codes_itemsText (other :: others)
      rw [valuesOf] at later
      exact congrArg (fun rest => _ ++ ','.toNat :: rest) later
    · exact nofun
theorem codes_fieldsText : ∀ fields : List (String × Json),
    codes (fieldsText floatText fields) = JsonText.fieldsText compact (fieldsOf floatText fields)
  | [] => rfl
  | [(key,value)] => by
    rw [fieldsText,fieldsOf,fieldsOf,JsonText.fieldsText,codes_append,codes_quoted]
    exact congrArg (fun rest => _ ++ ':'.toNat :: rest) (codes_jsonText value)
  | (key,value) :: (other,next) :: others => by
    have later := codes_fieldsText ((other,next) :: others)
    rw [fieldsOf] at later
    rw [fieldsText,fieldsOf,fieldsOf,JsonText.fieldsText,List.append_assoc,codes_append,codes_quoted]
    · have first := codes_jsonText value
      simp only [codes,List.map_cons,List.map_append,List.cons_append] at first later ⊢
      rw [first,later]
      rfl
    · exact nofun
    · exact nofun
end

-- What the interpreter makes of the value that was written.
mutual
theorem data_valueOf : ∀ (n : Nat) (value : Json), Carries floatText python n value →
    python.data (valueOf floatText value) = value
  | _,.null,_ => rfl
  | _,.bool _,_ => rfl
  | _,.int _,_ => rfl
  | _,.float _,carries => congrArg Json.float carries.2
  | _,.str text,_ => congrArg Json.str (python.string_points text)
  | n,.arr items,carries => congrArg Json.arr (dataItems_valuesOf (n + 1) items carries.2)
  | n,.obj fields,carries => congrArg Json.obj (dataFields_fieldsOf (n + 1) fields carries.2.2)
theorem dataItems_valuesOf : ∀ (n : Nat) (items : List Json), CarriesItems floatText python n items →
    python.dataItems (valuesOf floatText items) = items
  | _,[],_ => rfl
  | n,item :: rest,carries => by
    rw [valuesOf,Interpreter.dataItems,data_valueOf n item carries.1,dataItems_valuesOf n rest carries.2]
theorem dataFields_fieldsOf : ∀ (n : Nat) (fields : List (String × Json)), CarriesFields floatText python n fields →
    python.dataFields (fieldsOf floatText fields) = fields
  | _,[],_ => rfl
  | n,(key,value) :: rest,carries => by
    rw [fieldsOf,Interpreter.dataFields,data_valueOf n value carries.1,dataFields_fieldsOf n rest carries.2,
      python.string_points]
end

theorem fieldsOf_keys (fields : List (String × Json)) :
    (fieldsOf floatText fields).map Prod.fst = fields.map fun field => points field.1 := by
  induction fields with
  | nil => rfl
  | cons field rest ih =>
    obtain ⟨key,value⟩ := field
    rw [fieldsOf,List.map_cons,List.map_cons,ih]

variable {style : JsonText.Style}

mutual
theorem writable_valueOf (quotes : ∀ text, JsonText.Quotes style (points text)) : ∀ (n : Nat) (value : Json),
    Carries floatText python n value → JsonText.Writable style python.limits n (valueOf floatText value)
  | _,.null,_ => trivial
  | _,.bool _,_ => trivial
  | _,.int value,carries => by
    rw [valueOf,JsonText.Writable,JsonText.digits,List.length_map]
    exact carries
  | _,.float _,carries => carries.1
  | _,.str text,_ => quotes text
  | n,.arr items,carries => ⟨carries.1,writableItems_valuesOf quotes (n + 1) items carries.2⟩
  | n,.obj fields,carries => by
    refine ⟨carries.1,?_,writableFields_fieldsOf quotes (n + 1) fields carries.2.2⟩
    rw [fieldsOf_keys,show (fields.map fun field => points field.1) = (fields.map Prod.fst).map points by
      rw [List.map_map]; rfl]
    exact (List.nodup_map_iff fun _ _ => points_injective).mpr carries.2.1
theorem writableItems_valuesOf (quotes : ∀ text, JsonText.Quotes style (points text)) : ∀ (n : Nat) (items : List Json),
    CarriesItems floatText python n items → JsonText.WritableItems style python.limits n (valuesOf floatText items)
  | _,[],_ => trivial
  | n,item :: rest,carries =>
    ⟨writable_valueOf quotes n item carries.1,writableItems_valuesOf quotes n rest carries.2⟩
theorem writableFields_fieldsOf (quotes : ∀ text, JsonText.Quotes style (points text)) :
    ∀ (n : Nat) (fields : List (String × Json)), CarriesFields floatText python n fields →
      JsonText.WritableFields style python.limits n (fieldsOf floatText fields)
  | _,[],_ => trivial
  | n,(key,value) :: rest,carries =>
    ⟨quotes key,writable_valueOf quotes n value carries.1,writableFields_fieldsOf quotes n rest carries.2⟩
end

theorem detectEncoding_object (field : String × Json) (fields : List (String × Json)) (behind : List Char) :
    detectEncoding (utf8 (jsonText floatText (.obj (field :: fields)) ++ behind)) = .utf8 := by
  obtain ⟨key,value⟩ := field
  have starts : ∃ rest, jsonText floatText (.obj ((key,value) :: fields)) ++ behind = '\x7b' :: '\x22' :: rest := by
    cases fields with
    | nil => exact ⟨_,rfl⟩
    | cons other others => exact ⟨_,rfl⟩
  obtain ⟨rest,whole⟩ := starts
  rw [whole]
  exact detectEncoding_plain (by decide) (by decide)

theorem loads_object {field : String × Json} {fields : List (String × Json)}
    (carries : Carries floatText python 0 (.obj (field :: fields))) :
    python.loads (utf8 (jsonText floatText (.obj (field :: fields)) ++ ['\n'])) = .ok (.obj (field :: fields)) := by
  have blank : ∀ point ∈ codes ['\n'], isSpace point = true := by decide
  have read := JsonText.scan_start (writable_valueOf quotes_compact 0 _ carries) blank
  rw [← codes_jsonText,← codes_append] at read
  unfold Interpreter.loads JsonLoads.loads
  rw [detectEncoding_object field fields ['\n'],decode,utf8,utf8Text_chars]
  dsimp only
  rw [show (jsonText floatText (.obj (field :: fields)) ++ ['\n']).map Char.toNat =
    codes (jsonText floatText (.obj (field :: fields)) ++ ['\n']) from rfl,read]
  dsimp only
  rw [data_valueOf 0 _ carries]

end

def Frame.values : Frame → List Json
  | .request _ _ params => params.entries.map Sigma.snd
  | .response answer => (answer.result.map fun result => result.entries.map Sigma.snd).getD []
  | .event _ payload => payload.entries.map Sigma.snd
  | _ => []

section
variable {wire : Wire} {floatText : Rat → String} {python : Interpreter} {frame : Frame}

theorem carriesItems_of {n : Nat} {items : List Json} (each : ∀ item ∈ items, Carries floatText python n item) :
    CarriesItems floatText python n items := by
  induction items with
  | nil => trivial
  | cons item rest ih => exact ⟨each item List.mem_cons_self,ih fun other inside => each other (List.mem_cons_of_mem _ inside)⟩

theorem carriesFields_of {n : Nat} {fields : List (String × Json)}
    (each : ∀ field ∈ fields, Carries floatText python n field.2) :
    CarriesFields floatText python n fields := by
  induction fields with
  | nil => trivial
  | cons field rest ih => exact ⟨each field List.mem_cons_self,ih fun other inside => each other (List.mem_cons_of_mem _ inside)⟩

theorem carries_dict {n : Nat} {d : Dict} (room : n < python.limits.depth)
    (each : ∀ value ∈ d.entries.map Sigma.snd, Carries floatText python (n + 1) value) :
    Carries floatText python n d.toJson := by
  refine ⟨room,?_,carriesFields_of fun field inside => ?_⟩
  · have keys : (d.entries.map fun entry => (entry.1,entry.2)).map Prod.fst = d.entries.map Sigma.fst := by
      rw [List.map_map]
      rfl
    rw [keys]
    exact d.nodupKeys
  · obtain ⟨entry,there,rfl⟩ := List.mem_map.mp inside
    exact each entry.2 (List.mem_map_of_mem there)

theorem carries_texts {n : Nat} (room : n < python.limits.depth) (texts : List String) :
    Carries wire.floatText python n (.arr (texts.map .str)) := by
  refine ⟨room,carriesItems_of fun item inside => ?_⟩
  obtain ⟨text,_,rfl⟩ := List.mem_map.mp inside
  trivial

theorem carries_topics {n : Nat} (room : n < python.limits.depth) (topics : List Topic) :
    Carries wire.floatText python n (topicsJson topics) := by
  have texts : Carries wire.floatText python n (.arr ((topics.map Topic.value).map .str)) := carries_texts room _
  rw [List.map_map] at texts
  exact texts

theorem carries_textDict {n : Nat} {d : TextDict} (room : n < python.limits.depth) :
    Carries wire.floatText python n d.toJson := by
  refine ⟨room,?_,carriesFields_of fun field inside => ?_⟩
  · have keys : (d.entries.map fun entry => (entry.1,Json.str entry.2)).map Prod.fst = d.entries.map Sigma.fst := by
      rw [List.map_map]
      rfl
    rw [keys]
    exact d.nodupKeys
  · obtain ⟨entry,_,rfl⟩ := List.mem_map.mp inside
    trivial

theorem carries_modelDump (room : 2 ≤ python.limits.depth)
    (carried : ∀ value ∈ frame.values, Carries wire.floatText python 2 value) :
    Carries wire.floatText python 0 (.obj frame.modelDump) := by
  have one : 1 < python.limits.depth := room
  refine ⟨Nat.zero_lt_of_lt one,?_,?_⟩
  · cases frame <;> simp [Frame.modelDump]
  · cases frame with
    | hello version capabilities => exact ⟨trivial,trivial,carries_texts one capabilities,trivial⟩
    | request id method params => exact ⟨trivial,trivial,trivial,carries_dict one carried,trivial⟩
    | response answer =>
      refine ⟨trivial,trivial,?_,?_,trivial⟩
      · cases result : answer.result with
        | none => trivial
        | some d =>
          refine carries_dict one fun value inside => carried value ?_
          simp only [Frame.values,result,Option.map_some,Option.getD_some]
          exact inside
      · cases answer.error with
        | none => trivial
        | some d => exact carries_textDict one
    | subscribe topics => exact ⟨trivial,carries_topics one topics,trivial⟩
    | unsubscribe topics => exact ⟨trivial,carries_topics one topics,trivial⟩
    | event topic payload => exact ⟨trivial,trivial,carries_dict one carried,trivial⟩
    | ping => exact ⟨trivial,trivial⟩
    | pong => exact ⟨trivial,trivial⟩

theorem reading_inverse (room : 2 ≤ python.limits.depth)
    (carried : ∀ value ∈ frame.values, Carries wire.floatText python 2 value) :
    (wire.reading python).Inverse frame := by
  have carries := carries_modelDump room carried
  unfold Wire.Inverse
  show python.loads (utf8 (jsonText wire.floatText (.obj frame.modelDump) ++ ['\n'])) = _
  cases dumped : frame.modelDump with
  | nil => cases frame <;> cases dumped
  | cons field fields =>
    rw [dumped] at carries
    exact loads_object carries

-- Whatever frames one side writes, in whatever pieces they come, the other side reads the
-- same frames just when none is longer than a line may be. Nothing is assumed of the
-- parser but its limits.
theorem frames_delivered (room : 2 ≤ python.limits.depth) (frames : List Frame) (chunks : List Bytes)
    (sent : chunks.flatten = frames.flatMap wire.encodeFrame)
    (carried : ∀ frame ∈ frames, ∀ value ∈ frame.values, Carries wire.floatText python 2 value) :
    (wire.reading python).readings frameMaxBytes frames.length ⟨[],chunks⟩ = frames.map .ok ↔
      ∀ frame ∈ frames, wire.Fits frameMaxBytes frame := by
  have holds : Stream.contents ⟨[],chunks⟩ = frames.flatMap (wire.reading python).encodeFrame := sent
  constructor
  · exact fits_of_readings holds
  · intro fits
    exact readings_encoded (fun frame inside => reading_inverse room (carried frame inside)) fits holds

end

def conversation : List Frame :=
  [.hello "1.0" ["events"],.request "1" .runTask (dict [("task",.str "\"à\"\n"),("tries",.int (-20))]),
    .response (makeOkResponse "1" (dict [("run_id",.str "7")])),
    .event .runs (dict [("run_id",.str "7"),("at",.arr [.int 0,.arr [],.obj [("x",.null),("y",.bool true)]])])]

theorem conversation_delivered :
    (plainWire.reading cpython).readings frameMaxBytes conversation.length
      ⟨[],[(conversation.flatMap plainWire.encodeFrame).take 30,(conversation.flatMap plainWire.encodeFrame).drop 30]⟩ =
        conversation.map .ok := by
  refine (frames_delivered (by decide) conversation _ ?_ ?_).mpr ?_
  · simp only [List.flatten_cons,List.flatten_nil,List.append_nil,List.take_append_drop]
  · intro frame inside value among
    simp only [conversation,List.mem_cons,List.not_mem_nil,or_false] at inside
    rcases inside with rfl | rfl | rfl | rfl <;> simp [Frame.values,dict,makeOkResponse] at among
    · rcases among with rfl | rfl
      · exact show (Nat.toDigits 10 20).length ≤ cpython.limits.digits by decide
      · trivial
    · obtain rfl := among
      trivial
    · rcases among with rfl | rfl
      · have one : (Nat.toDigits 10 0).length ≤ cpython.limits.digits := by decide
        exact ⟨by decide,one,⟨by decide,trivial⟩,⟨by decide,by decide,trivial,trivial,trivial⟩,trivial⟩
      · trivial
  · intro frame inside
    simp only [conversation,List.mem_cons,List.not_mem_nil,or_false] at inside
    rcases inside with rfl | rfl | rfl | rfl <;> (unfold Wire.Fits; decide)

end HyprlandAgent.Ipc
