import HyprlandAgent.Transition
import Mathlib.Data.List.TakeDrop
import Mathlib.Algebra.Ring.Int.Defs

-- Circular buffer for continuous PCM audio.
namespace HyprlandAgent.Voice
open Transition

-- `buffer[lo : lo + len(data)] = data`
def assign (lo : Nat) (data buffer : List α) : List α :=
  buffer.take lo ++ data ++ buffer.drop (lo + data.length)

theorem assign_append (data front back : List α) :
    assign front.length data (front ++ back) = front ++ data ++ back.drop data.length := by
  simp [assign,← List.drop_drop]

theorem length_assign {lo : Nat} {data buffer : List α} (fits : lo + data.length ≤ buffer.length) :
    (assign lo data buffer).length = buffer.length := by
  simp only [assign,List.length_append,List.length_take,List.length_drop]
  omega

structure RingBuffer (α : Type) (capacity : Nat) where
  buffer : List α
  pos : Nat
  full : Bool
  sized : buffer.length = capacity
  within : pos < capacity

namespace RingBuffer
variable {α : Type} {capacity : Nat}

def new [Zero α] (positive : 0 < capacity) : RingBuffer α capacity where
  buffer := List.replicate capacity 0
  pos := 0
  full := false
  sized := List.length_replicate
  within := positive

variable (rb : RingBuffer α capacity) (data : List α)

def overwrite : List α :=
  let space := capacity - rb.pos
  if data.length ≤ space then assign rb.pos data rb.buffer
  else assign 0 (data.drop space) (assign rb.pos (data.take space) rb.buffer)

theorem length_overwrite (short : data.length < capacity) : (rb.overwrite data).length = capacity := by
  have sized := rb.sized
  have within := rb.within
  unfold overwrite
  simp only
  split
  · rw [length_assign,sized]
    omega
  · have first : (assign rb.pos (data.take (capacity - rb.pos)) rb.buffer).length = capacity := by
      rw [length_assign,sized]
      rw [List.length_take]
      omega
    rw [length_assign,first]
    rw [List.length_drop,first]
    omega

def write : RingBuffer α capacity :=
  if data.length = 0 then rb
  else if long : capacity ≤ data.length then {
    buffer := data.drop (data.length - capacity)
    pos := 0
    full := true
    sized := by rw [List.length_drop]; omega
    within := Nat.zero_lt_of_lt rb.within }
  else
    -- The flag is looked at from the position after the write.
    let pos := (rb.pos + data.length) % capacity
    { buffer := rb.overwrite data
      pos := pos
      full := if pos = 0 ∨ (rb.full = false ∧ capacity ≤ pos + data.length) then true else rb.full
      sized := rb.length_overwrite data (Nat.lt_of_not_le long)
      within := Nat.mod_lt _ (Nat.zero_lt_of_lt rb.within) }

def read : List α :=
  if rb.full = false ∧ rb.pos = 0 then []
  else if rb.full then rb.buffer.drop rb.pos ++ rb.buffer.take rb.pos
  else rb.buffer.take rb.pos

def clear [Zero α] : RingBuffer α capacity where
  buffer := List.replicate capacity 0
  pos := 0
  full := false
  sized := List.length_replicate
  within := Nat.zero_lt_of_lt rb.within

def len : Nat := if rb.full then capacity else rb.pos

def rotated : List α := rb.buffer.drop rb.pos ++ rb.buffer.take rb.pos

theorem read_eq : rb.read = if rb.full then rb.rotated else rb.buffer.take rb.pos := by
  unfold read rotated
  cases full : rb.full with
  | true => simp
  | false =>
    by_cases start : rb.pos = 0
    · simp [start]
    · simp [start]

variable {data}

theorem write_nothing : rb.write [] = rb := rfl

theorem write_long (some_ : data.length ≠ 0) (long : capacity ≤ data.length) :
    (rb.write data).full = true ∧ (rb.write data).rotated = data.drop (data.length - capacity) := by
  unfold write rotated
  rw [if_neg some_,dif_pos long]
  simp

theorem write_short (some_ : data.length ≠ 0) (short : data.length < capacity) :
    (rb.write data).buffer = rb.overwrite data ∧
    (rb.write data).pos = (rb.pos + data.length) % capacity ∧
    ((rb.write data).full = true ↔ rb.full = true ∨ (rb.write data).pos = 0 ∨
      capacity ≤ (rb.write data).pos + data.length) := by
  unfold write
  rw [if_neg some_,dif_neg (Nat.not_le_of_lt short)]
  refine ⟨rfl,rfl,?_⟩
  simp only
  cases rb.full <;> simp

theorem parts : ∃ front back, rb.buffer = front ++ back ∧ front.length = rb.pos ∧
    back.length = capacity - rb.pos := by
  have sized := rb.sized
  have within := rb.within
  refine ⟨rb.buffer.take rb.pos,rb.buffer.drop rb.pos,(List.take_append_drop _ _).symm,?_,?_⟩
  · rw [List.length_take]
    omega
  · rw [List.length_drop,sized]

theorem rotated_write (some_ : data.length ≠ 0) (short : data.length < capacity) :
    (rb.write data).rotated = (rb.rotated ++ data).drop data.length := by
  obtain ⟨samples,pos,_⟩ := rb.write_short some_ short
  obtain ⟨front,back,whole,before,after⟩ := rb.parts
  have within := rb.within
  rw [rotated,rotated,samples,pos,overwrite,whole,← after,← before]
  by_cases fits : data.length ≤ back.length
  · rw [if_pos fits,assign_append]
    have old : (front ++ back).drop front.length ++ (front ++ back).take front.length ++ data =
        back ++ (front ++ data) := by simp
    rw [old,List.drop_append_of_le_length fits]
    by_cases exact_ : data.length = back.length
    · have wrapped : (front.length + data.length) % capacity = 0 := by
        rw [show front.length + data.length = capacity by omega,Nat.mod_self]
      have emptied : back.drop data.length = [] := by rw [exact_,List.drop_length]
      rw [wrapped,emptied]
      simp
    · rw [Nat.mod_eq_of_lt (by omega),← List.length_append,List.drop_left,List.take_left]
  · rw [if_neg fits]
    have wrapped : (front.length + data.length) % capacity = data.length - back.length := by
      rw [show front.length + data.length = (data.length - back.length) + capacity by omega,
        Nat.add_mod_right,Nat.mod_eq_of_lt (by omega)]
    -- The first part of the data ends the buffer, the rest starts it again.
    have tail : assign front.length (data.take back.length) (front ++ back) =
        front ++ data.take back.length := by
      rw [assign_append,List.length_take,Nat.min_eq_left (by omega)]
      simp
    have head : assign 0 (data.drop back.length) (front ++ data.take back.length) =
        data.drop back.length ++ (front.drop (data.length - back.length) ++ data.take back.length) := by
      have room : data.length - back.length ≤ front.length := by omega
      simp [assign,List.drop_append_of_le_length room]
    have old : (front ++ back).drop front.length ++ (front ++ back).take front.length ++ data =
        back ++ (front ++ data) := by simp
    have cut : data.length = back.length + (data.length - back.length) := by omega
    have room : data.length - back.length ≤ front.length := by omega
    have start : (data.drop back.length).length = data.length - back.length := List.length_drop
    rw [wrapped,tail,head,old,← start,List.drop_left,List.take_left,start]
    conv =>
      rhs
      rw [cut,← List.drop_drop,List.drop_left]
    rw [List.drop_append_of_le_length room,List.append_assoc,List.take_append_drop]

theorem taken_write (some_ : data.length ≠ 0) (room : rb.pos + data.length < capacity) :
    (rb.write data).pos = rb.pos + data.length ∧
      (rb.write data).buffer.take (rb.write data).pos = rb.buffer.take rb.pos ++ data := by
  have short : data.length < capacity := by omega
  obtain ⟨samples,pos,_⟩ := rb.write_short some_ short
  obtain ⟨front,back,whole,before,after⟩ := rb.parts
  rw [Nat.mod_eq_of_lt room] at pos
  refine ⟨pos,?_⟩
  rw [samples,pos,overwrite,whole,← after,← before,if_pos (by omega),assign_append,← List.length_append,
    List.take_left,List.take_left]

end RingBuffer

section
variable {α : Type} {capacity : Nat}

inductive Op (α : Type) where
  | write (data : List α)
  | read
  | clear

structure Tape (α : Type) (capacity : Nat) where
  ring : RingBuffer α capacity
  written : List α

def tapes [Zero α] : System (Tape α capacity) (Op α) where
  step := fun tape op =>
    match op with
    | .write data => some ⟨tape.ring.write data,tape.written ++ data⟩
    | .read => some tape
    | .clear => some ⟨tape.ring.clear,[]⟩

def blank [Zero α] (positive : 0 < capacity) : Tape α capacity := ⟨.new positive,[]⟩

def Mirrors (tape : Tape α capacity) : Prop :=
  tape.ring.len = min capacity tape.written.length ∧
    tape.ring.read = tape.written.drop (tape.written.length - tape.ring.len)

-- The lengths of writes after which the flag is right: nothing, a whole buffer or one
-- into a full buffer; or one that, counted twice, does not reach the end, one that just
-- reaches it, or one that, counted twice, goes all the way round.
def Fits (capacity already : Nat) (data : List α) : Prop :=
  data.length = 0 ∨ capacity ≤ data.length ∨ capacity ≤ already ∨
    already + 2 * data.length < capacity ∨ already + data.length = capacity ∨
    (capacity < already + data.length ∧ 2 * capacity ≤ already + 2 * data.length)

def WellTimed (tape : Tape α capacity) : Op α → Prop
  | .write data => Fits capacity tape.written.length data
  | _ => True

variable {tape : Tape α capacity}

theorem mirrors_full (full : tape.ring.full = true) : Mirrors tape ↔
    capacity ≤ tape.written.length ∧
      tape.ring.rotated = tape.written.drop (tape.written.length - capacity) := by
  simp only [Mirrors,RingBuffer.len,RingBuffer.read_eq,full,if_true]
  constructor
  · intro mirrors
    exact ⟨by omega,mirrors.2⟩
  · intro filled
    exact ⟨by omega,filled.2⟩

theorem mirrors_filling (notFull : tape.ring.full = false) : Mirrors tape ↔
    tape.ring.pos = tape.written.length ∧ tape.ring.buffer.take tape.ring.pos = tape.written := by
  have within := tape.ring.within
  simp only [Mirrors,RingBuffer.len,RingBuffer.read_eq,notFull,Bool.false_eq_true,if_false]
  constructor
  · intro mirrors
    have same : tape.ring.pos = tape.written.length := by omega
    refine ⟨same,?_⟩
    rw [mirrors.2,same,Nat.sub_self,List.drop_zero]
  · intro filled
    refine ⟨by omega,?_⟩
    rw [filled.2,filled.1,Nat.sub_self,List.drop_zero]

theorem rotated_filling (notFull : tape.ring.full = false) (mirrors : Mirrors tape) :
    tape.ring.rotated = tape.ring.buffer.drop tape.ring.pos ++ tape.written := by
  rw [RingBuffer.rotated,((mirrors_filling notFull).mp mirrors).2]

theorem mirrors_long (data : List α) (some_ : data.length ≠ 0) (long : capacity ≤ data.length) :
    Mirrors ⟨tape.ring.write data,tape.written ++ data⟩ := by
  obtain ⟨full,rotated⟩ := tape.ring.write_long some_ long
  refine (mirrors_full full).mpr ⟨?_,?_⟩
  · rw [List.length_append]
    omega
  · have cut : (tape.written ++ data).length - capacity =
        tape.written.length + (data.length - capacity) := by
      rw [List.length_append]
      omega
    rw [rotated,cut,← List.drop_drop,List.drop_left]

theorem mirrors_over (mirrors : Mirrors tape) (full : tape.ring.full = true) {data : List α}
    (some_ : data.length ≠ 0) (short : data.length < capacity) :
    Mirrors ⟨tape.ring.write data,tape.written ++ data⟩ := by
  obtain ⟨_,_,flag⟩ := tape.ring.write_short some_ short
  obtain ⟨filled,old⟩ := (mirrors_full full).mp mirrors
  refine (mirrors_full (flag.mpr (.inl full))).mpr ⟨?_,?_⟩
  · rw [List.length_append]
    omega
  · have cut : (tape.written ++ data).length - capacity =
        (tape.written.length - capacity) + data.length := by
      rw [List.length_append]
      omega
    have behind : (tape.written ++ data).drop (tape.written.length - capacity) =
        tape.written.drop (tape.written.length - capacity) ++ data :=
      List.drop_append_of_le_length (by omega)
    rw [RingBuffer.rotated_write _ some_ short,old,cut,← List.drop_drop,behind]

-- Short of the end: the flag is set too early if the data, counted twice, reaches it.
theorem mirrors_before (mirrors : Mirrors tape) (notFull : tape.ring.full = false) {data : List α}
    (some_ : data.length ≠ 0) (room : tape.written.length + data.length < capacity) :
    Mirrors ⟨tape.ring.write data,tape.written ++ data⟩ ↔
      tape.written.length + 2 * data.length < capacity := by
  obtain ⟨same,taken⟩ := (mirrors_filling notFull).mp mirrors
  rw [← same] at room
  obtain ⟨_,_,flag⟩ := tape.ring.write_short some_ (by omega)
  obtain ⟨pos,fresh⟩ := tape.ring.taken_write some_ room
  cases set : (tape.ring.write data).full with
  | true =>
    have early := flag.mp set
    rw [notFull] at early
    rw [mirrors_full set,List.length_append]
    constructor
    · intro filled
      omega
    · intro later
      rcases early with impossible | early | early
      · cases impossible
      · omega
      · omega
  | false =>
    have late : ¬capacity ≤ (tape.ring.write data).pos + data.length := by
      intro early
      have on := flag.mpr (.inr (.inr early))
      rw [set] at on
      cases on
    rw [mirrors_filling set]
    constructor
    · intro _
      omega
    · intro _
      constructor
      · rw [pos,same,List.length_append]
      · rw [fresh,taken]

-- Past the end: the flag is missed unless the data, counted twice, goes all the way round.
theorem mirrors_past (mirrors : Mirrors tape) (notFull : tape.ring.full = false) {data : List α}
    (some_ : data.length ≠ 0) (short : data.length < capacity)
    (past : capacity ≤ tape.written.length + data.length) :
    Mirrors ⟨tape.ring.write data,tape.written ++ data⟩ ↔
      tape.written.length + data.length = capacity ∨ 2 * capacity ≤ tape.written.length + 2 * data.length := by
  obtain ⟨same,_⟩ := (mirrors_filling notFull).mp mirrors
  have within := tape.ring.within
  obtain ⟨_,pos,flag⟩ := tape.ring.write_short some_ short
  rw [same] at pos
  have wrapped : (tape.ring.write data).pos = tape.written.length + data.length - capacity := by
    rw [pos,Nat.mod_eq_sub_mod past,Nat.mod_eq_of_lt (by omega)]
  cases set : (tape.ring.write data).full with
  | true =>
    have early := flag.mp set
    rw [notFull] at early
    have enough : tape.written.length + data.length = capacity ∨
        2 * capacity ≤ tape.written.length + 2 * data.length := by
      rcases early with impossible | early | early
      · cases impossible
      · omega
      · omega
    have filled : Mirrors ⟨tape.ring.write data,tape.written ++ data⟩ := by
      refine (mirrors_full set).mpr ⟨?_,?_⟩
      · rw [List.length_append]
        exact past
      · have junk : (tape.ring.buffer.drop tape.ring.pos).length = capacity - tape.written.length := by
          rw [List.length_drop,tape.ring.sized,same]
        have cut : data.length = (tape.ring.buffer.drop tape.ring.pos).length +
            ((tape.written ++ data).length - capacity) := by
          rw [junk,List.length_append]
          omega
        rw [RingBuffer.rotated_write _ some_ short,rotated_filling notFull mirrors,List.append_assoc]
        conv =>
          lhs
          rw [cut,← List.drop_drop,List.drop_left]
    exact ⟨fun _ => enough,fun _ => filled⟩
  | false =>
    rw [mirrors_filling set,wrapped,List.length_append]
    constructor
    · intro filled
      omega
    · intro enough
      have on : (tape.ring.write data).full = true := by
        refine flag.mpr (.inr ?_)
        rw [wrapped]
        omega
      rw [set] at on
      cases on

theorem mirrors_write (mirrors : Mirrors tape) (data : List α) :
    Mirrors ⟨tape.ring.write data,tape.written ++ data⟩ ↔ Fits capacity tape.written.length data := by
  unfold Fits
  by_cases some_ : data.length = 0
  · cases List.length_eq_zero_iff.mp some_
    rw [RingBuffer.write_nothing,List.append_nil]
    exact ⟨fun _ => .inl rfl,fun _ => mirrors⟩
  by_cases long : capacity ≤ data.length
  · exact ⟨fun _ => .inr (.inl long),fun _ => mirrors_long data some_ long⟩
  have short := Nat.lt_of_not_le long
  cases full : tape.ring.full with
  | true =>
    have filled := ((mirrors_full full).mp mirrors).1
    exact ⟨fun _ => .inr (.inr (.inl filled)),fun _ => mirrors_over mirrors full some_ short⟩
  | false =>
    have same := ((mirrors_filling full).mp mirrors).1
    have within := tape.ring.within
    by_cases past : capacity ≤ tape.written.length + data.length
    · rw [mirrors_past mirrors full some_ short past]
      omega
    · rw [mirrors_before mirrors full some_ (Nat.lt_of_not_le past)]
      omega

theorem mirrors_blank [Zero α] (positive : 0 < capacity) :
    Mirrors (blank positive : Tape α capacity) := (mirrors_filling rfl).mpr ⟨rfl,rfl⟩

-- In every run the buffer mirrors the last samples exactly if every write is well timed.
theorem ring_buffer_window_iff [Zero α] (positive : 0 < capacity) (ops : List (Op α)) :
    tapes.Always Mirrors (blank positive : Tape α capacity) ops ↔
      tapes.Meets WellTimed (blank positive : Tape α capacity) ops := by
  refine System.always_iff_meets (I:=fun _ => True) ?_ ?_ trivial (mirrors_blank positive) ops
  · intro _ _ _ _ _
    trivial
  · intro tape op next _ mirrors stepped
    cases op with
    | write data =>
      cases stepped
      exact mirrors_write mirrors data
    | read =>
      cases stepped
      exact ⟨fun _ => trivial,fun _ => mirrors⟩
    | clear =>
      cases stepped
      have cleared : Mirrors ⟨tape.ring.clear,[]⟩ := (mirrors_filling rfl).mpr ⟨rfl,rfl⟩
      exact ⟨fun _ => trivial,fun _ => cleared⟩

end

def short_steps : List (Op Int) := [.write [1],.read,.write [2]]

theorem short_steps_mirrored :
    tapes.Always Mirrors (blank (by decide) : Tape Int 4) short_steps := by
  refine (ring_buffer_window_iff (by decide) short_steps).mpr ?_
  intro next stepped
  cases stepped
  refine ⟨.inr (.inr (.inr (.inl (by decide)))),?_⟩
  intro next stepped
  cases stepped
  refine ⟨trivial,?_⟩
  intro next stepped
  cases stepped
  exact ⟨.inr (.inr (.inr (.inl (by decide)))),trivial⟩

theorem half_reported_full : ¬∀ (capacity : Nat) (positive : 0 < capacity) (ops : List (Op Int)),
    tapes.Always Mirrors (blank positive : Tape Int capacity) ops := by
  intro always
  have after := (always 2 (by decide) [.write [1]]).2 _ rfl
  exact absurd after.1 (by decide)

end HyprlandAgent.Voice
