import HyprlandAgent.Ipc.Framing

-- What one side encodes and the other side reads.
namespace HyprlandAgent.Ipc
variable {wire : Wire} {limit : Nat} {s : Stream} {frame : Frame} {frames : List Frame}

-- `json.loads` gives back what `model_dump_json` wrote.
def Wire.Inverse (wire : Wire) (frame : Frame) : Prop :=
  wire.loads (wire.encodeFrame frame) = .ok (.obj frame.modelDump)

def Wire.Fits (wire : Wire) (limit : Nat) (frame : Frame) : Prop :=
  (utf8 (wire.modelDumpJson frame)).length ≤ limit

theorem decodeFrame_encodeFrame (inverse : wire.Inverse frame) :
    wire.decodeFrame (wire.encodeFrame frame) = .ok frame := by
  unfold Wire.decodeFrame
  rw [inverse]
  simp only [validatePython_modelDump]

theorem encoded_lines (wire : Wire) (frames : List Frame) :
    frames.flatMap wire.encodeFrame =
      (frames.map fun frame => utf8 (wire.modelDumpJson frame)).flatMap (· ++ [newline]) := by
  induction frames with
  | nil => rfl
  | cons frame rest ih =>
    rw [List.flatMap_cons,ih,wire.encodeFrame_line]
    rfl

theorem readings_encoded (inverse : ∀ frame ∈ frames, wire.Inverse frame)
    (fits : ∀ frame ∈ frames, wire.Fits limit frame)
    (holds : s.contents = frames.flatMap wire.encodeFrame) :
    wire.readings limit frames.length s = frames.map .ok := by
  rw [encoded_lines] at holds
  have read := Wire.readings_lines wire limit ?_ ?_ holds frames.length
  · rw [read]
    simp only [List.length_map,Nat.sub_self,List.replicate_zero,List.append_nil]
    rw [← List.length_map,List.take_length,List.map_map]
    apply List.map_congr_left
    intro frame inside
    have line := decodeFrame_encodeFrame (inverse frame inside)
    rw [wire.encodeFrame_line] at line
    exact line
  · intro line inside
    obtain ⟨frame,_,rfl⟩ := List.mem_map.mp inside
    exact wire.encodeFrame_inline frame
  · intro line inside
    obtain ⟨frame,present,rfl⟩ := List.mem_map.mp inside
    exact fits frame present

-- A frame that was read was within the limit. The induction is on the frames, as
-- one that is too large ends the reading.
theorem fits_of_readings (holds : s.contents = frames.flatMap wire.encodeFrame)
    (read : wire.readings limit frames.length s = frames.map .ok) :
    ∀ frame ∈ frames, wire.Fits limit frame := by
  induction frames generalizing s with
  | nil => intro frame inside; cases inside
  | cons frame rest ih =>
    rw [List.flatMap_cons,wire.encodeFrame_line,List.append_assoc] at holds
    have first := Wire.readFrame_line wire limit (wire.encodeFrame_inline frame) holds
    by_cases fits : (utf8 (wire.modelDumpJson frame)).length ≤ limit
    · rw [if_pos fits] at first
      obtain ⟨next,taken,left⟩ := first
      simp only [List.length_cons,Wire.readings,taken,List.map_cons,List.cons.injEq] at read
      intro other inside
      rcases List.mem_cons.mp inside with rfl | later
      · exact fits
      · exact ih left read.2 other later
    · rw [if_neg fits] at first
      obtain ⟨consumed,next,failed⟩ := first
      simp only [List.length_cons,Wire.readings,failed,List.map_cons,List.cons.injEq] at read
      exact absurd read.1 (by simp)

-- No line has a newline inside, and the frames come back as they were sent
-- exactly when each is within the limit of the reader.
theorem frames_come_back (wire : Wire) (frames : List Frame) (chunks : List Bytes)
    (sent : chunks.flatten = frames.flatMap wire.encodeFrame)
    (inverse : ∀ frame ∈ frames, wire.Inverse frame) :
    (∀ frame ∈ frames, newline ∉ (wire.encodeFrame frame).dropLast) ∧
    (wire.readings frameMaxBytes frames.length ⟨[],chunks⟩ = frames.map .ok ↔
      ∀ frame ∈ frames, wire.Fits frameMaxBytes frame) := by
  have holds : Stream.contents ⟨[],chunks⟩ = frames.flatMap wire.encodeFrame := sent
  constructor
  · intro frame _
    rw [wire.encodeFrame_line,List.dropLast_concat]
    exact wire.encodeFrame_inline frame
  · constructor
    · exact fits_of_readings holds
    · intro fits
      exact readings_encoded inverse fits holds

def exchange : List Frame := [.hello "1.0" [],.request "a\nb" .getRun (dict [("run_id",.str "7")]),.ping]

def exchangeLine (frame : Frame) : Bytes :=
  utf8 (jsonText (fun _ => "0.0") (.obj frame.modelDump) ++ ['\n'])

def exchangeWire : Wire where
  floatText := fun _ => "0.0"
  loads := fun line =>
    match exchange.find? fun frame => exchangeLine frame == line with
    | some frame => .ok (.obj frame.modelDump)
    | none => .error (.jsonDecode "Expecting value: line 1 column 1 (char 0)")
  schemaError := fun _ => "1 validation error"
  floatText_inline := fun _ => by decide

theorem exchange_comes_back :
    exchangeWire.readings frameMaxBytes exchange.length
      ⟨[],[(exchange.flatMap exchangeLine).take 30,(exchange.flatMap exchangeLine).drop 30]⟩ =
        exchange.map .ok := by
  have back := frames_come_back exchangeWire exchange
    [(exchange.flatMap exchangeLine).take 30,(exchange.flatMap exchangeLine).drop 30]
    (by simp only [List.flatten_cons,List.flatten_nil,List.append_nil,List.take_append_drop]; rfl)
    (by
      intro frame inside
      simp only [exchange,List.mem_cons,List.not_mem_nil,or_false] at inside
      rcases inside with rfl | rfl | rfl <;> rfl)
  apply back.2.mpr
  intro frame inside
  simp only [exchange,List.mem_cons,List.not_mem_nil,or_false] at inside
  rcases inside with rfl | rfl | rfl <;> (unfold Wire.Fits; decide)

theorem quoted_length (text : String) : text.toList.length ≤ (quoted text).length := by
  have each (char : Char) : 1 ≤ (escaped char).length := by
    unfold escaped
    repeat' split
    all_goals simp
  have all (chars : List Char) : chars.length ≤ (chars.flatMap escaped).length := by
    induction chars with
    | nil => simp
    | cons char rest ih =>
      rw [List.flatMap_cons,List.length_cons,List.length_append]
      have := each char
      omega
  have inner := all text.toList
  unfold quoted
  simp only [List.length_append,List.length_cons]
  omega

theorem utf8_length (text : List Char) : text.length ≤ (utf8 text).length := by
  induction text with
  | nil => simp
  | cons char rest ih =>
    have one : 1 ≤ (String.utf8EncodeChar char).length := by
      simp only [String.utf8EncodeChar]
      repeat' split
      all_goals simp
    have split : (utf8 (char :: rest)).length =
        (String.utf8EncodeChar char).length + (utf8 rest).length := by
      unfold utf8
      rw [List.flatMap_cons,List.length_append]
    rw [split,List.length_cons]
    omega

def runAnswer (output : String) : Frame :=
  .response (makeOkResponse "1" (dict [("output",.str output)]))

def answerWire (output : String) : Wire :=
  { exchangeWire with loads := fun _ => .ok (.obj (runAnswer output).modelDump) }

theorem runAnswer_length (wire : Wire) (output : String) :
    output.toList.length < (utf8 (wire.modelDumpJson (runAnswer output))).length := by
  have bytes := utf8_length (wire.modelDumpJson (runAnswer output))
  have inner := quoted_length output
  have text : (quoted output).length < (wire.modelDumpJson (runAnswer output)).length := by
    have shape : (runAnswer output).modelDump = [("type",.str "response"),("id",.str "1"),
        ("result",.obj [("output",.str output)]),("error",.null)] := rfl
    unfold Wire.modelDumpJson
    rw [shape]
    simp only [jsonText,fieldsText,List.length_append,List.length_cons]
    omega
  omega

theorem runAnswer_unread {output : String} (long : frameMaxBytes ≤ output.toList.length) :
    ¬(answerWire output).readings frameMaxBytes 1
      ⟨[],[(answerWire output).encodeFrame (runAnswer output)]⟩ = [.ok (runAnswer output)] := by
  intro read
  have holds : Stream.contents ⟨[],[(answerWire output).encodeFrame (runAnswer output)]⟩ =
      [runAnswer output].flatMap (answerWire output).encodeFrame := rfl
  have fits := fits_of_readings holds read (runAnswer output) (List.mem_singleton.mpr rfl)
  have longer := runAnswer_length (answerWire output) output
  unfold Wire.Fits at fits
  omega

theorem long_answer_refused :
    ¬∀ (wire : Wire) (frames : List Frame) (chunks : List Bytes),
      chunks.flatten = frames.flatMap wire.encodeFrame → (∀ frame ∈ frames, wire.Inverse frame) →
      wire.readings frameMaxBytes frames.length ⟨[],chunks⟩ = frames.map .ok := by
  intro always
  have each (output : String) := always (answerWire output) [runAnswer output]
    [(answerWire output).encodeFrame (runAnswer output)] rfl
    fun frame inside => (List.mem_singleton.mp inside) ▸ rfl
  have long : frameMaxBytes ≤ (String.ofList (List.replicate frameMaxBytes 'a')).toList.length := by
    rw [String.toList_ofList,List.length_replicate]
  exact runAnswer_unread long (each _)

end HyprlandAgent.Ipc
