import HyprlandAgent.Greedy
import Mathlib.Data.List.Basic

-- Substitutions one after another: the text with the blocks that were put in, beside the
-- text where each replaced character is struck out in its place.
namespace Greedy
open Pattern

def strike {α : Type} (mark : α) (mask : List Bool) (cells : List α) : List α :=
  mask.zipWith (fun covered cell => if covered then mark else cell) cells

-- A text in which blocks stand for what was replaced, beside the text of the same places:
-- there each replaced character has a mark, the first character of a block.
inductive Alike {α : Type} (mark : α) (tail : List α) : List α → List α → Prop where
  | nil : Alike mark tail [] []
  | keep (cell : α) (rest : Alike mark tail one two) : Alike mark tail (cell :: one) (cell :: two)
  | block (count : Nat) (rest : Alike mark tail one two) :
      Alike mark tail (mark :: (tail ++ one)) (mark :: (List.replicate count mark ++ two))

namespace Pattern
variable (mark : Char) (tail : List Char)

def steady : Pattern → Bool
  | .literal word => !word.contains mark
  | .atLeast count test => !test mark || (test mark && tail.all test && count ≤ 1)
  | .optional p => p.steady
  | .next p q => p.steady && q.steady

def quiet : Pattern → Bool
  | .literal word => word.head?.any fun wanted => !(mark :: tail).contains wanted
  | .atLeast count test => !test mark && !(mark :: tail).getLast?.any test && (mark :: tail).length ≤ count
  | .optional _ => false
  | .next p _ => p.quiet

end Pattern

section
variable {α : Type} {char : α → Char} {p q : Pattern} {mark : α} {tail one two : List α}

theorem Alike.refl (cells : List α) : Alike mark tail cells cells := by
  induction cells with
  | nil => exact .nil
  | cons cell rest ih => exact .keep cell ih

theorem takeWord_alike {word : List Char} (apart : char mark ∉ word) (alike : Alike mark tail one two) :
    Option.Rel (Alike mark tail) (takeWord char word one) (takeWord char word two) := by
  induction word generalizing one two with
  | nil => exact .some alike
  | cons wanted word ih =>
    obtain ⟨unwanted,apart⟩ := not_or.mp (mt List.mem_cons.mpr apart)
    cases alike with
    | nil => exact .none
    | keep cell rest =>
      rw [takeWord,takeWord]
      split
      · exact ih apart rest
      · exact .none
    | block count rest =>
      rw [takeWord,takeWord,if_neg unwanted,if_neg unwanted]
      exact .none

theorem run_closed {test : Char → Bool} (closed : test (char mark) = false) (alike : Alike mark tail one two) :
    (one.takeWhile fun cell => test (char cell)).length = (two.takeWhile fun cell => test (char cell)).length ∧
      Alike mark tail (one.dropWhile fun cell => test (char cell)) (two.dropWhile fun cell => test (char cell)) := by
  induction alike with
  | nil => exact ⟨rfl,.nil⟩
  | keep cell rest ih =>
    rw [List.takeWhile_cons,List.takeWhile_cons,List.dropWhile_cons,List.dropWhile_cons]
    split
    · exact ⟨congrArg (· + 1) ih.1,ih.2⟩
    · exact ⟨rfl,rest.keep cell⟩
  | block count rest _ =>
    simp only [List.takeWhile_cons,List.dropWhile_cons,closed,Bool.false_eq_true,if_false,true_and]
    exact rest.block count

theorem run_open {test : Char → Bool} (open_ : ∀ cell ∈ mark :: tail, test (char cell) = true)
    (alike : Alike mark tail one two) :
    (0 < (one.takeWhile fun cell => test (char cell)).length ↔ 0 < (two.takeWhile fun cell => test (char cell)).length) ∧
      Alike mark tail (one.dropWhile fun cell => test (char cell)) (two.dropWhile fun cell => test (char cell)) := by
  have marked : test (char mark) = true := open_ mark List.mem_cons_self
  induction alike with
  | nil => exact ⟨Iff.rfl,.nil⟩
  | keep cell rest ih =>
    rw [List.takeWhile_cons,List.takeWhile_cons,List.dropWhile_cons,List.dropWhile_cons]
    split
    · exact ⟨iff_of_true (Nat.succ_pos _) (Nat.succ_pos _),ih.2⟩
    · exact ⟨Iff.rfl,rest.keep cell⟩
  | block count rest ih =>
    have marks : ∀ cell ∈ List.replicate count mark, test (char cell) = true := by
      intro cell inside
      rw [List.eq_of_mem_replicate inside]
      exact marked
    have cells : ∀ cell ∈ tail, test (char cell) = true := fun cell inside => open_ cell (.tail _ inside)
    rw [List.takeWhile_cons,List.takeWhile_cons,List.dropWhile_cons,List.dropWhile_cons,if_pos marked,if_pos marked,
      if_pos marked,if_pos marked,List.dropWhile_append_of_pos cells,List.dropWhile_append_of_pos marks]
    exact ⟨iff_of_true (Nat.succ_pos _) (Nat.succ_pos _),ih.2⟩

-- The induction is on the pattern.
theorem take_alike (steady : p.steady (char mark) (tail.map char) = true) (alike : Alike mark tail one two) :
    Option.Rel (Alike mark tail) (p.take char one) (p.take char two) := by
  induction p generalizing one two with
  | literal word => exact takeWord_alike (by simpa [Pattern.steady] using steady) alike
  | atLeast count test =>
    rw [take,take]
    cases marked : test (char mark) with
    | false =>
      obtain ⟨lengths,rest⟩ := run_closed marked alike
      rw [lengths]
      split
      · exact .some rest
      · exact .none
    | true =>
      simp only [Pattern.steady,marked,Bool.not_true,Bool.false_or,Bool.true_and,Bool.and_eq_true,List.all_map,
        List.all_eq_true,decide_eq_true_eq] at steady
      have open_ : ∀ cell ∈ mark :: tail, test (char cell) = true := List.forall_mem_cons.mpr ⟨marked,steady.1⟩
      obtain ⟨lengths,rest⟩ := run_open open_ alike
      have enough : count ≤ (one.takeWhile fun cell => test (char cell)).length ↔
          count ≤ (two.takeWhile fun cell => test (char cell)).length := by
        have few := steady.2
        omega
      rw [if_congr enough rfl rfl]
      split
      · exact .some rest
      · exact .none
  | optional p ih =>
    have inner := ih steady alike
    rw [take,take]
    generalize p.take char one = left at inner ⊢
    generalize p.take char two = right at inner ⊢
    cases inner with
    | none => exact .some alike
    | some rest => exact .some rest
  | next p q first second =>
    rw [Pattern.steady,Bool.and_eq_true] at steady
    have inner := first steady.1 alike
    rw [take,take]
    generalize p.take char one = left at inner ⊢
    generalize p.take char two = right at inner ⊢
    cases inner with
    | none => exact .none
    | some rest => exact second steady.2 rest

theorem takeWhile_stopped {test : α → Bool} {cells : List α} (stop : ∃ cell ∈ cells, test cell = false) (rest : List α) :
    ((cells ++ rest).takeWhile test).length < cells.length := by
  obtain ⟨cell,inside,stopped⟩ := stop
  induction cells with
  | nil => cases inside
  | cons first others ih =>
    rw [List.cons_append,List.takeWhile_cons]
    split
    · rename_i passed
      rcases List.mem_cons.mp inside with rfl | later
      · rw [passed] at stopped
        cases stopped
      · exact Nat.succ_lt_succ (ih later)
    · exact Nat.succ_pos _

theorem take_quiet (quiet : p.quiet (char mark) (tail.map char) = true) {left : List α} (some_ : left ≠ [])
    (part : left <:+ mark :: tail) (rest : List α) : p.take char (left ++ rest) = none := by
  induction p with
  | literal word =>
    cases word with
    | nil => cases quiet
    | cons wanted word =>
      cases left with
      | nil => exact absurd rfl some_
      | cons cell others =>
        have unwanted : wanted ∉ (mark :: tail).map char := by simpa [Pattern.quiet] using quiet
        have apart : char cell ≠ wanted := fun same =>
          unwanted (same ▸ List.mem_map_of_mem (part.subset List.mem_cons_self))
        exact if_neg apart
  | atLeast count test =>
    simp only [Pattern.quiet,Bool.and_eq_true,decide_eq_true_eq,List.length_cons,List.length_map] at quiet
    obtain ⟨⟨_,last⟩,long⟩ := quiet
    have stop : ∃ cell ∈ left, test (char cell) = false := by
      refine ⟨left.getLast some_,List.getLast_mem some_,?_⟩
      obtain ⟨before,whole⟩ := part
      have same : ((mark :: tail).map char).getLast? = some (char (left.getLast some_)) := by
        rw [← whole,List.getLast?_map,List.getLast?_append,List.getLast?_eq_some_getLast some_]
        rfl
      rw [← List.map_cons,same] at last
      simpa using last
    have short := takeWhile_stopped stop rest
    have bound := part.length_le
    rw [List.length_cons] at bound
    exact if_neg (by omega)
  | optional p _ => cases quiet
  | next p q ih _ =>
    rw [take,ih quiet]
    rfl

theorem take_mark (quiet : p.quiet (char mark) (tail.map char) = true) (rest : List α) : p.take char (mark :: rest) = none := by
  induction p with
  | literal word =>
    cases word with
    | nil => cases quiet
    | cons wanted word =>
      have unwanted : wanted ∉ (mark :: tail).map char := by simpa [Pattern.quiet] using quiet
      have apart : char mark ≠ wanted := fun same => unwanted (same ▸ List.mem_cons_self)
      exact if_neg apart
  | atLeast count test =>
    simp only [Pattern.quiet,Bool.and_eq_true,decide_eq_true_eq,List.length_cons,List.length_map,Bool.not_eq_true'] at quiet
    obtain ⟨⟨stopped,_⟩,long⟩ := quiet
    have none_ : (mark :: rest).takeWhile (fun cell => test (char cell)) = [] := by
      rw [List.takeWhile_cons,if_neg (by simp [stopped])]
    rw [take,none_]
    exact if_neg (Nat.not_le.mpr (Nat.lt_of_lt_of_le (Nat.succ_pos _) long))
  | optional p _ => cases quiet
  | next p q ih _ =>
    rw [take,ih quiet]
    rfl

theorem sub_quiet {block left : List α} (quiet : p.quiet (char mark) (tail.map char) = true) (part : left <:+ mark :: tail)
    (rest : List α) : p.sub char block (left ++ rest) = left ++ p.sub char block rest := by
  induction left with
  | nil => rfl
  | cons cell others ih =>
    have stays := take_quiet quiet (List.cons_ne_nil cell others) part rest
    rw [List.cons_append] at stays ⊢
    rw [sub_none stays,ih ((List.suffix_cons cell others).trans part)]
    rfl

theorem cover_quiet (quiet : p.quiet (char mark) (tail.map char) = true) (count : Nat) (rest : List α) :
    p.cover char (List.replicate count mark ++ rest) = List.replicate count false ++ p.cover char rest := by
  induction count with
  | zero => rfl
  | succ count ih =>
    rw [List.replicate_succ,List.cons_append,cover_none (take_mark quiet _),ih]
    rfl

theorem strike_found {mask : List Bool} {taken : List α} (rest : List α) :
    strike mark (List.replicate taken.length true ++ mask) (taken ++ rest) =
      List.replicate taken.length mark ++ strike mark mask rest := by
  induction taken with
  | nil => rfl
  | cons cell others ih =>
    rw [List.length_cons,List.replicate_succ,List.replicate_succ]
    exact congrArg (mark :: ·) ih

theorem strike_marks {mask : List Bool} (count : Nat) (rest : List α) :
    strike mark (List.replicate count false ++ mask) (List.replicate count mark ++ rest) =
      List.replicate count mark ++ strike mark mask rest := by
  induction count with
  | zero => rfl
  | succ count ih => exact congrArg (mark :: ·) ih

theorem sub_alike (moves : p.advances = true) (steady : p.steady (char mark) (tail.map char) = true)
    (quiet : p.quiet (char mark) (tail.map char) = true) (alike : Alike mark tail one two) :
    Alike mark tail (p.sub char (mark :: tail) one) (strike mark (p.cover char two) two) := by
  induction length : one.length using Nat.strongRecOn generalizing one two with
  | ind count ih =>
    subst length
    cases alike with
    | nil => exact .nil
    | @keep left right cell rest =>
      have same := take_alike steady (.keep cell rest)
      cases first : p.take char (cell :: left) with
      | none =>
        rw [first] at same
        have second : p.take char (cell :: right) = none := by
          generalize p.take char (cell :: right) = taken at same
          cases same
          rfl
        rw [sub_none first,cover_none second]
        exact .keep cell (ih _ (Nat.lt_succ_self _) rest rfl)
      | some more =>
        rw [first] at same
        obtain ⟨others,second,rest⟩ : ∃ others, p.take char (cell :: right) = some others ∧ Alike mark tail more others := by
          generalize p.take char (cell :: right) = taken at same
          cases same with
          | some rest => exact ⟨_,rfl,rest⟩
        obtain ⟨taken,whole⟩ := take_suffix second
        have length : right.length - others.length + 1 = taken.length := by
          have shorter := take_advances moves second
          have lengths := congrArg List.length whole
          rw [List.length_append,List.length_cons] at lengths
          rw [List.length_cons] at shorter
          omega
        rw [sub_some moves first,cover_some moves second,length,← whole,strike_found,← length]
        exact .block _ (ih _ (take_advances moves first) rest rfl)
    | @block left right count rest =>
      have blocked : p.sub char (mark :: tail) (mark :: (tail ++ left)) = mark :: (tail ++ p.sub char (mark :: tail) left) :=
        sub_quiet quiet (List.suffix_refl _) left
      have marked : strike mark (p.cover char (mark :: (List.replicate count mark ++ right)))
          (mark :: (List.replicate count mark ++ right)) =
          mark :: (List.replicate count mark ++ strike mark (p.cover char right) right) := by
        have covered := cover_quiet quiet (count + 1) right
        rw [List.replicate_succ,List.cons_append] at covered
        rw [covered]
        exact strike_marks (count + 1) right
      rw [blocked,marked]
      refine .block count (ih _ ?_ rest rfl)
      rw [List.length_cons,List.length_append]
      omega

end

structure Fit (mark : Char) (tail : List Char) (p : Pattern) : Prop where
  moves : p.advances = true
  steady : p.steady mark tail = true
  quiet : p.quiet mark tail = true

section
variable {α : Type} (char : α → Char)

def subAll (block : List α) (patterns : List Pattern) (cells : List α) : List α :=
  patterns.foldl (fun cells p => p.sub char block cells) cells

def strikeAll (mark : α) (patterns : List Pattern) (cells : List α) : List α :=
  patterns.foldl (fun cells p => strike mark (p.cover char cells) cells) cells

-- The place is hidden by one of the patterns in their turn, each on the text where what the
-- former ones hid is struck out.
def StruckOut (mark : Char) : List Pattern → List Char → Nat → Prop
  | [],_,_ => False
  | p :: rest,text,place => p.Hides text place ∨ StruckOut mark rest (strike mark (p.cover id text) text) place

variable {char} {mark : α} {tail one two : List α} {patterns : List Pattern}

theorem subAll_alike (fit : ∀ p ∈ patterns, Fit (char mark) (tail.map char) p) (alike : Alike mark tail one two) :
    Alike mark tail (subAll char (mark :: tail) patterns one) (strikeAll char mark patterns two) := by
  induction patterns generalizing one two with
  | nil => exact alike
  | cons p rest ih =>
    obtain ⟨⟨moves,steady,quiet⟩,fit⟩ := List.forall_mem_cons.mp fit
    exact ih fit (sub_alike moves steady quiet alike)

-- Where the cells of a text came from.
variable {origin : α → Option Nat}

def Stands (origin : α → Option Nat) (cells : List α) (place : Nat) : Prop := ∃ cell ∈ cells, origin cell = some place

def InPlace (origin : α → Option Nat) (cells : List α) : Prop :=
  ∀ index cell place, cells[index]? = some cell → origin cell = some place → place = index

theorem alike_stands (made : ∀ cell ∈ mark :: tail, origin cell = none) (alike : Alike mark tail one two) (place : Nat) :
    Stands origin one place ↔ Stands origin two place := by
  have unborn {cells : List α} (marks : ∀ cell ∈ cells, cell = mark) : ∀ cell ∈ cells, origin cell = none := by
    intro cell inside
    rw [marks cell inside]
    exact made mark List.mem_cons_self
  have skipped {cells rest : List α} (none_ : ∀ cell ∈ cells, origin cell = none) :
      Stands origin (cells ++ rest) place ↔ Stands origin rest place := by
    unfold Stands
    constructor
    · rintro ⟨cell,inside,named⟩
      rcases List.mem_append.mp inside with new | old
      · rw [none_ cell new] at named
        cases named
      · exact ⟨cell,old,named⟩
    · rintro ⟨cell,inside,named⟩
      exact ⟨cell,List.mem_append_right _ inside,named⟩
  induction alike with
  | nil => exact Iff.rfl
  | keep cell rest ih =>
    unfold Stands at ih ⊢
    rw [List.exists_mem_cons_iff,List.exists_mem_cons_iff]
    exact or_congr_right ih
  | @block left right count rest ih =>
    have marks : ∀ cell ∈ mark :: List.replicate count mark, origin cell = none :=
      unborn (List.forall_mem_cons.mpr ⟨rfl,fun cell inside => List.eq_of_mem_replicate inside⟩)
    have blocked : Stands origin (mark :: tail ++ left) place ↔ Stands origin left place := skipped made
    exact blocked.trans (ih.trans (skipped marks).symm)

theorem strike_map (mask : List Bool) (cells : List α) :
    (strike mark mask cells).map char = strike (char mark) mask (cells.map char) := by
  induction mask generalizing cells with
  | nil => rfl
  | cons covered mask ih =>
    cases cells with
    | nil => rfl
    | cons cell rest =>
      have others := ih rest
      unfold strike at others ⊢
      rw [List.zipWith_cons_cons,List.map_cons,others]
      cases covered <;> rfl

theorem strike_getElem? (mask : List Bool) (cells : List α) (index : Nat) :
    (strike mark mask cells)[index]? = mask[index]?.bind fun covered =>
      cells[index]?.map fun cell => if covered then mark else cell := by
  rw [strike,List.getElem?_zipWith]
  cases mask[index]? with
  | none => rfl
  | some covered => cases cells[index]? <;> rfl

theorem strike_inPlace (unborn : origin mark = none) {mask : List Bool} {cells : List α} (inPlace : InPlace origin cells) :
    InPlace origin (strike mark mask cells) := by
  intro index cell place there named
  rw [strike_getElem?] at there
  obtain ⟨covered,_,there⟩ := Option.bind_eq_some_iff.mp there
  obtain ⟨old,was,made⟩ := Option.map_eq_some_iff.mp there
  cases covered with
  | false =>
    subst made
    exact inPlace index old place was named
  | true =>
    rw [← made,if_pos rfl,unborn] at named
    cases named

theorem stands_iff {cells : List α} (inPlace : InPlace origin cells) (place : Nat) :
    Stands origin cells place ↔ cells[place]?.bind origin = some place := by
  constructor
  · rintro ⟨cell,inside,named⟩
    obtain ⟨index,there⟩ := List.mem_iff_getElem?.mp inside
    obtain rfl := inPlace index cell place there named
    rw [there]
    exact named
  · intro named
    obtain ⟨cell,there,named⟩ := Option.bind_eq_some_iff.mp named
    exact ⟨cell,List.mem_of_getElem? there,named⟩

theorem strike_stands (unborn : origin mark = none) {mask : List Bool} {cells : List α} (whole : mask.length = cells.length)
    (inPlace : InPlace origin cells) (place : Nat) :
    Stands origin (strike mark mask cells) place ↔ Stands origin cells place ∧ mask[place]? ≠ some true := by
  rw [stands_iff inPlace,stands_iff (strike_inPlace unborn inPlace),strike_getElem?]
  cases here : mask[place]? with
  | none =>
    have absent : cells[place]? = none := by
      rw [List.getElem?_eq_none_iff] at here ⊢
      omega
    simp [absent]
  | some covered =>
    cases covered with
    | false => simp
    | true => cases cells[place]? <;> simp [unborn]

theorem strikeAll_stands (unborn : origin mark = none) (moves : ∀ p ∈ patterns, p.advances = true) {cells : List α}
    (inPlace : InPlace origin cells) (place : Nat) :
    Stands origin (strikeAll char mark patterns cells) place ↔
      Stands origin cells place ∧ ¬StruckOut (char mark) patterns (cells.map char) place := by
  induction patterns generalizing cells with
  | nil => simp [strikeAll,StruckOut]
  | cons p rest ih =>
    obtain ⟨first,moves⟩ := List.forall_mem_cons.mp moves
    have turn : strikeAll char mark (p :: rest) cells = strikeAll char mark rest (strike mark (p.cover char cells) cells) := rfl
    rw [turn,ih moves (strike_inPlace unborn inPlace),strike_stands unborn (cover_length first cells) inPlace,strike_map,
      StruckOut,Pattern.Hides,not_or,← and_assoc,cover_map first]

end
end Greedy
