import HyprlandAgent.Ipc.Framing
import Mathlib.Data.List.Forall2
import HyprlandAgent.Tools.Events

-- Reading the event socket: a generator over the lines of a byte stream.
namespace HyprlandAgent.Events
open Ipc

-- The limit of a stream reader that is opened without one.
def streamLimit : Nat := 2 ^ 16

-- `bytes.decode()`, which is strict.
def decode (bytes : Bytes) : Option String := String.fromUTF8? bytes.toByteArray

inductive SubscribeError where
  | lineTooLong (consumed : Nat)
  | undecodable
  deriving DecidableEq, Repr

inductive LineRead where
  | line (bytes : Bytes)
  | waiting
  | raised (error : SubscribeError)

-- `StreamReader.readline`, on a stream whose other end has closed it or not.
def readline (limit : Nat) (closed : Bool) (s : Stream) : LineRead × Stream :=
  match readuntil limit s.incoming s.buffer with
  | (.ok line,next) => (.line line,next)
  | (.error (.incompleteRead part),next) => if closed then (.line part,next) else (.waiting,s)
  | (.error (.limitOverrun consumed),next) => (.raised (.lineTooLong consumed),next)

inductive Ending where
  | stopped
  | waiting
  | raised (error : SubscribeError)
  | reading
  deriving DecidableEq, Repr

-- `text.rstrip("\n")`
def rstripNewlines (text : String) : String :=
  String.ofList (text.toList.reverse.dropWhile (· == '\n')).reverse

def subscribe (limit : Nat) (closed : Bool) : Nat → Stream → List Event × Ending
  | 0,_ => ([],.reading)
  | turns + 1,s =>
    match readline limit closed s with
    | (.raised error,_) => ([],.raised error)
    | (.waiting,_) => ([],.waiting)
    | (.line [],_) => ([],.stopped)
    | (.line (first :: more),next) =>
      match decode (first :: more) with
      | none => ([],.raised .undecodable)
      | some text =>
        let (events,ending) := subscribe limit closed turns next
        (parse (rstripNewlines text) :: events,ending)

theorem decode_utf8 (text : List Char) : decode (utf8 text) = some (String.ofList text) := by
  have valid : (utf8 text).toByteArray.IsValidUTF8 := ⟨text,rfl⟩
  unfold decode String.fromUTF8?
  rw [dif_pos valid]
  rfl

theorem toByteArray_injective {one two : Bytes} (same : one.toByteArray = two.toByteArray) : one = two := by
  have lists := congrArg (fun bytes => bytes.data.toList) same
  simpa only [List.toList_data_toByteArray] using lists

theorem decode_some {bytes : Bytes} {text : String} (read : decode bytes = some text) :
    bytes = utf8 text.toList := by
  unfold decode String.fromUTF8? at read
  split at read
  · cases read
    apply toByteArray_injective
    exact (String.utf8Encode_toList (b := String.fromUTF8 bytes.toByteArray _)).symm
  · cases read

theorem decode_line {line : Bytes} {text : String} (read : decode line = some text) :
    decode (line ++ [newline]) = some (text ++ "\n") := by
  have ends : line ++ [newline] = utf8 (text.toList ++ ['\n']) := by
    rw [decode_some read,utf8,utf8,List.flatMap_append]
    rfl
  rw [ends,decode_utf8,String.ofList_append,String.ofList_toList]

theorem decode_undo {line : Bytes} {text : String} (read : decode (line ++ [newline]) = some text) :
    ∃ front, decode line = some front := by
  have bytes := decode_some read
  rcases List.eq_nil_or_concat text.toList with empty | ⟨front,last,same⟩
  · rw [empty] at bytes
    exact absurd bytes (List.append_ne_nil_of_right_ne_nil _ (List.cons_ne_nil _ _))
  · rw [same,List.concat_eq_append,utf8,List.flatMap_append,List.flatMap_singleton] at bytes
    have inside : newline ∈ String.utf8EncodeChar last := by
      have filled : String.utf8EncodeChar last ≠ [] := by
        intro none
        have size := congrArg List.length none
        rw [String.length_utf8EncodeChar] at size
        exact absurd size (Nat.ne_of_gt last.utf8Size_pos)
      have ends := congrArg List.getLast? bytes
      rw [List.getLast?_concat,List.getLast?_append_of_ne_nil _ filled] at ends
      exact List.mem_of_getLast? ends.symm
    have feed := newline_char inside
    rw [feed] at bytes
    exact ⟨_,(congrArg decode (List.append_cancel_right bytes)).trans (decode_utf8 front)⟩

theorem decoded_inline {line : Bytes} {text : String} (read : decode line = some text)
    (whole : newline ∉ line) : '\n' ∉ text.toList := by
  intro inside
  have feed : newline ∈ String.utf8EncodeChar '\n' := List.mem_singleton_self newline
  rw [decode_some read] at whole
  exact whole (List.mem_flatMap.mpr ⟨'\n',inside,feed⟩)

theorem rstripNewlines_line {text : String} (inline : '\n' ∉ text.toList) :
    rstripNewlines (text ++ "\n") = text := by
  have feed : "\n".toList = ['\n'] := by decide
  have kept : text.toList.reverse.dropWhile (· == '\n') = text.toList.reverse := by
    cases turned : text.toList.reverse with
    | nil => rfl
    | cons last front =>
      have member : last ∈ text.toList := List.mem_reverse.mp (turned ▸ List.mem_cons_self)
      have other : last ≠ '\n' := fun same => inline (same ▸ member)
      rw [List.dropWhile_cons_of_neg (by simpa using other)]
  rw [rstripNewlines,String.toList_append,feed,List.reverse_append]
  simp [kept]

variable {limit : Nat} {closed : Bool} {s : Stream} {line rest tail : Bytes} {lines : List Bytes}

theorem readline_line (whole : newline ∉ line) (holds : s.contents = line ++ newline :: rest) :
    if line.length ≤ limit then
      ∃ next, readline limit closed s = (.line (line ++ [newline]),next) ∧ next.contents = rest
    else ∃ consumed next, readline limit closed s = (.raised (.lineTooLong consumed),next) := by
  have read := readuntil_line limit whole holds
  by_cases fits : line.length ≤ limit
  · rw [if_pos fits] at read ⊢
    obtain ⟨next,found,left⟩ := read
    exact ⟨next,by rw [readline,found],left⟩
  · rw [if_neg fits] at read ⊢
    obtain ⟨consumed,next,failed⟩ := read
    exact ⟨consumed,next,by rw [readline,failed]⟩

theorem readuntil_tail {buffer : Bytes} {incoming : List Bytes} (whole : newline ∉ tail)
    (holds : buffer ++ incoming.flatten = tail) :
    if tail.length ≤ limit then readuntil limit incoming buffer = (.error (.incompleteRead tail),⟨[],[]⟩)
    else ∃ consumed next, readuntil limit incoming buffer = (.error (.limitOverrun consumed),next) := by
  induction incoming generalizing buffer with
  | nil =>
    rw [List.flatten_nil,List.append_nil] at holds
    rw [holds,readuntil,cutLine_none.mpr whole]
    by_cases fits : tail.length ≤ limit
    · simp [fits,Nat.not_lt.mpr fits]
    · simp [fits,Nat.not_le.mp fits]
  | cons chunk more ih =>
    have plain : newline ∉ buffer := fun inside => whole (holds ▸ List.mem_append_left _ inside)
    rw [List.flatten_cons,← List.append_assoc] at holds
    have continued := ih holds
    have within : buffer.length ≤ tail.length := by
      rw [← holds,List.append_assoc,List.length_append]
      exact Nat.le_add_right _ _
    rw [readuntil,cutLine_none.mpr plain]
    by_cases beyond : limit < buffer.length
    · have long : ¬tail.length ≤ limit := by omega
      rw [if_neg long]
      exact ⟨buffer.length,⟨buffer,chunk :: more⟩,by simp [beyond]⟩
    · simpa [beyond] using continued

theorem readline_tail (whole : newline ∉ tail) (holds : s.contents = tail) :
    if tail.length ≤ limit then
      readline limit closed s = if closed then (.line tail,⟨[],[]⟩) else (.waiting,s)
    else ∃ consumed next, readline limit closed s = (.raised (.lineTooLong consumed),next) := by
  have read := @readuntil_tail limit tail s.buffer s.incoming whole holds
  by_cases fits : tail.length ≤ limit
  · rw [if_pos fits] at read ⊢
    rw [readline,read]
  · rw [if_neg fits] at read ⊢
    obtain ⟨consumed,next,failed⟩ := read
    exact ⟨consumed,next,by rw [readline,failed]⟩

def lineList : Bytes → List Bytes × Bytes
  | [] => ([],[])
  | byte :: rest =>
    let (lines,tail) := lineList rest
    if byte = newline then ([] :: lines,tail)
    else
      match lines with
      | [] => ([],byte :: tail)
      | line :: more => ((byte :: line) :: more,tail)

theorem lineList_whole (bytes : Bytes) :
    bytes = (lineList bytes).1.flatMap (· ++ [newline]) ++ (lineList bytes).2 ∧
      (∀ line ∈ (lineList bytes).1, newline ∉ line) ∧ newline ∉ (lineList bytes).2 := by
  induction bytes with
  | nil => simp [lineList]
  | cons byte rest ih =>
    obtain ⟨same,whole,plain⟩ := ih
    unfold lineList
    generalize lineList rest = cut at same whole plain
    obtain ⟨lines,tail⟩ := cut
    dsimp only at same whole plain ⊢
    split
    · rename_i ends
      refine ⟨by rw [same,ends]; rfl,?_,plain⟩
      intro line inside
      rcases List.mem_cons.mp inside with rfl | later
      · exact List.not_mem_nil
      · exact whole line later
    · rename_i goes
      cases lines with
      | nil => exact ⟨by rw [same]; rfl,whole,List.not_mem_cons_of_ne_of_not_mem (Ne.symm goes) plain⟩
      | cons first more =>
        refine ⟨by rw [same]; rfl,?_,plain⟩
        intro line inside
        rcases List.mem_cons.mp inside with rfl | later
        · exact List.not_mem_cons_of_ne_of_not_mem (Ne.symm goes) (whole first List.mem_cons_self)
        · exact whole line (List.mem_cons_of_mem _ later)

-- One event for each line, in order, which is the line's where it can be decoded, and
-- nothing raised.
structure Delivers (closed : Bool) (lines : List Bytes) (run : List Event × Ending) : Prop where
  ending : run.2 = if closed then .stopped else .waiting
  events : List.Forall₂ (fun line event => ∀ text, decode line = some text → event = parse text) lines run.1

-- What the lines, and the bytes after them, have to be like for that.
structure Legible (limit : Nat) (closed : Bool) (lines : List Bytes) (tail : Bytes) : Prop where
  fits : ∀ line ∈ lines, line.length ≤ limit
  decodable : ∀ line ∈ lines, ∃ text, decode line = some text
  ended : if closed then tail = [] else tail.length ≤ limit

theorem not_delivers_raised {error : SubscribeError} : ¬Delivers closed lines ([],.raised error) := by
  intro delivers
  have ending := delivers.ending
  cases closed <;> cases ending

theorem delivers_tail (turns : Nat) (plain : newline ∉ tail) (holds : s.contents = tail) :
    Delivers closed [] (subscribe limit closed (turns + 1) s) ↔ Legible limit closed [] tail := by
  have read := @readline_tail limit closed s tail plain holds
  have simple : Legible limit closed [] tail ↔ if closed then tail = [] else tail.length ≤ limit :=
    ⟨Legible.ended,fun ended => ⟨by simp,by simp,ended⟩⟩
  rw [simple,subscribe]
  by_cases fits : tail.length ≤ limit
  · rw [if_pos fits] at read
    rw [read]
    cases closed with
    | false => exact ⟨fun _ => fits,fun _ => ⟨rfl,.nil⟩⟩
    | true =>
      cases tail with
      | nil => exact ⟨fun _ => rfl,fun _ => ⟨rfl,.nil⟩⟩
      | cons first more =>
        refine iff_of_false ?_ (List.cons_ne_nil _ _)
        simp only [if_true]
        cases decode (first :: more) with
        | none => exact not_delivers_raised
        | some text =>
          intro delivers
          cases delivers.events
  · rw [if_neg fits] at read
    obtain ⟨consumed,next,failed⟩ := read
    rw [failed]
    refine iff_of_false not_delivers_raised ?_
    cases closed with
    | false => exact fits
    | true =>
      intro empty
      have none : tail = [] := empty
      exact fits (none ▸ Nat.zero_le limit)

theorem delivers_iff (turns : Nat) (whole : ∀ line ∈ lines, newline ∉ line) (plain : newline ∉ tail)
    (holds : s.contents = lines.flatMap (· ++ [newline]) ++ tail) :
    Delivers closed lines (subscribe limit closed (lines.length + 1 + turns) s) ↔
      Legible limit closed lines tail := by
  induction lines generalizing s with
  | nil =>
    rw [List.length_nil,Nat.zero_add,Nat.add_comm]
    exact delivers_tail turns plain holds
  | cons line lines ih =>
    have wholeLine := whole line List.mem_cons_self
    have split : s.contents = line ++ newline :: (lines.flatMap (· ++ [newline]) ++ tail) := by
      rw [holds,List.flatMap_cons,List.append_assoc,List.append_assoc]
      rfl
    have read := @readline_line limit closed s line _ wholeLine split
    have turned : (line :: lines).length + 1 + turns = (lines.length + 1 + turns) + 1 := by
      simp only [List.length_cons]
      omega
    rw [turned,subscribe]
    by_cases fits : line.length ≤ limit
    · rw [if_pos fits] at read
      obtain ⟨next,taken,left⟩ := read
      have later := ih (fun other inside => whole other (List.mem_cons_of_mem _ inside)) left
      obtain ⟨first,more,filled⟩ := List.exists_cons_of_ne_nil (List.append_ne_nil_of_right_ne_nil line (List.cons_ne_nil newline []))
      rw [taken,filled]
      dsimp only
      rw [← filled]
      cases read : decode (line ++ [newline]) with
      | none =>
        refine iff_of_false not_delivers_raised ?_
        intro legible
        obtain ⟨text,decoded⟩ := legible.decodable line List.mem_cons_self
        rw [decode_line decoded] at read
        cases read
      | some ended =>
        obtain ⟨text,decoded⟩ := decode_undo read
        rw [decode_line decoded] at read
        cases read
        dsimp only
        rw [rstripNewlines_line (decoded_inline decoded wholeLine)]
        constructor
        · intro delivers
          have legible := later.mp ⟨delivers.ending,(List.forall₂_cons.mp delivers.events).2⟩
          exact ⟨List.forall_mem_cons.mpr ⟨fits,legible.fits⟩,
            List.forall_mem_cons.mpr ⟨⟨text,decoded⟩,legible.decodable⟩,legible.ended⟩
        · intro legible
          have delivers := later.mpr ⟨(List.forall_mem_cons.mp legible.fits).2,
            (List.forall_mem_cons.mp legible.decodable).2,legible.ended⟩
          refine ⟨delivers.ending,.cons ?_ delivers.events⟩
          intro other again
          rw [Option.some.inj (decoded.symm.trans again)]
    · rw [if_neg fits] at read
      obtain ⟨consumed,next,failed⟩ := read
      rw [failed]
      exact iff_of_false not_delivers_raised fun legible => fits (legible.fits line List.mem_cons_self)

-- Every line of every stream becomes its event exactly where each line is within the limit of
-- the reader and valid UTF-8, and the stream does not close in the middle of a line.
theorem one_event_per_line_iff (closed : Bool) (chunks : List Bytes) (more : Nat) :
    Delivers closed (lineList chunks.flatten).1
        (subscribe streamLimit closed ((lineList chunks.flatten).1.length + 1 + more) ⟨[],chunks⟩) ↔
      Legible streamLimit closed (lineList chunks.flatten).1 (lineList chunks.flatten).2 := by
  obtain ⟨same,whole,plain⟩ := lineList_whole chunks.flatten
  exact delivers_iff more whole plain same

theorem latin_title_raises : ¬∀ (closed : Bool) (chunks : List Bytes) (more : Nat),
    Delivers closed (lineList chunks.flatten).1
      (subscribe streamLimit closed ((lineList chunks.flatten).1.length + 1 + more) ⟨[],chunks⟩) := by
  intro always
  have delivers := always false [[0xe9,newline]] 0
  have raised : subscribe streamLimit false 2 ⟨[],[[0xe9,newline]]⟩ = ([],.raised .undecodable) := by decide
  exact not_delivers_raised (raised ▸ delivers)

end HyprlandAgent.Events
