import Mathlib.Data.List.Basic

-- Regular expressions over a text with a place in it: what stands on the left of the
-- place can be looked at, as by a word boundary.
namespace Regex

inductive Pattern where
  | empty
  | one (test : Char → Bool)
  | seq (first second : Pattern)
  | alt (left right : Pattern)
  | star (inner : Pattern)
  | boundary
  | finish

namespace Pattern

def lits : List Char → Pattern
  | [] => .empty
  | char :: rest => .seq (.one (· == char)) (lits rest)

def plus (p : Pattern) : Pattern := .seq p (.star p)

def optional (p : Pattern) : Pattern := .alt p .empty

end Pattern

-- A place in a text, with what is before it from there backwards.
structure Cursor where
  before : List Char
  after : List Char
  deriving DecidableEq, Repr

theorem Cursor.ext {a b : Cursor} (before : a.before = b.before) (after : a.after = b.after) : a = b := by
  cases a
  cases b
  cases before
  cases after
  rfl

section
variable (word : Char → Bool)

def Cursor.atBoundary (a : Cursor) : Bool := a.before.head?.any word != a.after.head?.any word

-- The end of the text, or before the line break that it ends with.
def Cursor.atFinish (a : Cursor) : Bool := a.after.isEmpty || a.after == ['\n']

inductive Matches : Pattern → Cursor → Cursor → Prop where
  | empty : Matches .empty a a
  | one {test : Char → Bool} (passed : test char = true) :
      Matches (.one test) ⟨before,char :: after⟩ ⟨char :: before,after⟩
  | seq (one : Matches p a b) (two : Matches q b c) : Matches (.seq p q) a c
  | left (one : Matches p a b) : Matches (.alt p q) a b
  | right (two : Matches q a b) : Matches (.alt p q) a b
  | done : Matches (.star p) a a
  | more (one : Matches p a b) (others : Matches (.star p) b c) : Matches (.star p) a c
  | boundary (there : a.atBoundary word = true) : Matches .boundary a a
  | finish (there : a.atFinish = true) : Matches .finish a a

-- The places that matches of a star end at, where each turn has to get on.
def turns (ends : Cursor → List Cursor) : Nat → Cursor → List Cursor
  | 0,a => [a]
  | count + 1,a =>
    a :: ((ends a).filter fun b => b.after.length < a.after.length).flatMap (turns ends count)

def ends : Pattern → Cursor → List Cursor
  | .empty,a => [a]
  | .one test,a =>
    match a.after with
    | char :: after => if test char then [⟨char :: a.before,after⟩] else []
    | [] => []
  | .seq p q,a => (ends p a).flatMap (ends q)
  | .alt p q,a => ends p a ++ ends q a
  | .star p,a => turns (ends p) a.after.length a
  | .boundary,a => if a.atBoundary word then [a] else []
  | .finish,a => if a.atFinish then [a] else []

def places (before : List Char) : List Char → List Cursor
  | [] => [⟨before,[]⟩]
  | char :: after => ⟨before,char :: after⟩ :: places (char :: before) after

-- `pattern.search(text)`
def search (p : Pattern) (text : List Char) : Bool := (places [] text).any fun a => !(ends word p a).isEmpty

end

section
variable {word : Char → Bool} {p q : Pattern} {a b : Cursor}

theorem Matches.taken (found : Matches word p a b) :
    ∃ part, a.after = part ++ b.after ∧ b.before = part.reverse ++ a.before := by
  induction found with
  | @one char before after test passed => exact ⟨[char],rfl,rfl⟩
  | seq _ _ first second =>
    obtain ⟨one,after,before⟩ := first
    obtain ⟨two,later,earlier⟩ := second
    exact ⟨one ++ two,by rw [after,later,List.append_assoc],by simp [earlier,before]⟩
  | more _ _ first second =>
    obtain ⟨one,after,before⟩ := first
    obtain ⟨two,later,earlier⟩ := second
    exact ⟨one ++ two,by rw [after,later,List.append_assoc],by simp [earlier,before]⟩
  | left _ ih => exact ih
  | right _ ih => exact ih
  | _ => exact ⟨[],rfl,rfl⟩

theorem Matches.same_place (found : Matches word p a b) (still : ¬b.after.length < a.after.length) : b = a := by
  obtain ⟨part,after,before⟩ := found.taken
  have none_ : part = [] := by
    have lengths := congrArg List.length after
    rw [List.length_append] at lengths
    exact List.length_eq_zero_iff.mp (by omega)
  subst none_
  exact Cursor.ext before after.symm

theorem mem_turns {step : Cursor → List Cursor} (exact_ : ∀ a b, b ∈ step a ↔ Matches word p a b) {count : Nat}
    (enough : a.after.length ≤ count) : b ∈ turns step count a ↔ Matches word (.star p) a b := by
  constructor
  · intro inside
    clear enough
    induction count generalizing a with
    | zero =>
      rw [List.mem_singleton.mp inside]
      exact .done
    | succ count ih =>
      rcases List.mem_cons.mp inside with rfl | later
      · exact .done
      · obtain ⟨c,stepped,others⟩ := List.mem_flatMap.mp later
        exact .more ((exact_ a c).mp (List.mem_filter.mp stepped).1) (ih others)
  · intro found
    generalize starred : Pattern.star p = pattern at found
    induction found generalizing count with
    | @done _ a =>
      cases count with
      | zero => exact List.mem_singleton_self a
      | succ count => exact List.mem_cons_self
    | @more _ a b c one _ _ ih =>
      cases starred
      by_cases onward : b.after.length < a.after.length
      · cases count with
        | zero => omega
        | succ count =>
          refine List.mem_cons_of_mem _ (List.mem_flatMap.mpr ⟨b,?_,ih (by omega) rfl⟩)
          exact List.mem_filter.mpr ⟨(exact_ a b).mpr one,decide_eq_true onward⟩
      · rw [one.same_place onward] at ih
        exact ih enough rfl
    | _ => cases starred

theorem mem_ends : b ∈ ends word p a ↔ Matches word p a b := by
  induction p generalizing a b with
  | empty =>
    constructor
    · intro inside
      rw [List.mem_singleton.mp inside]
      exact .empty
    · intro found
      cases found
      exact List.mem_singleton_self a
  | one test =>
    obtain ⟨before,after⟩ := a
    cases after with
    | nil =>
      constructor
      · intro inside
        cases inside
      · intro found
        cases found
    | cons char after =>
      simp only [ends,List.mem_ite_nil_right,List.mem_singleton]
      constructor
      · rintro ⟨passed,rfl⟩
        exact .one passed
      · intro found
        cases found with
        | one passed => exact ⟨passed,rfl⟩
  | seq p q first second =>
    constructor
    · intro inside
      obtain ⟨c,one,two⟩ := List.mem_flatMap.mp inside
      exact .seq (first.mp one) (second.mp two)
    · intro found
      cases found with
      | seq one two => exact List.mem_flatMap.mpr ⟨_,first.mpr one,second.mpr two⟩
  | alt p q first second =>
    constructor
    · intro inside
      rcases List.mem_append.mp inside with one | two
      · exact .left (first.mp one)
      · exact .right (second.mp two)
    · intro found
      cases found with
      | left one => exact List.mem_append_left _ (first.mpr one)
      | right two => exact List.mem_append_right _ (second.mpr two)
  | star p ih => exact mem_turns (fun a b => ih) (Nat.le_refl _)
  | boundary =>
    simp only [ends,List.mem_ite_nil_right,List.mem_singleton]
    constructor
    · rintro ⟨there,rfl⟩
      exact .boundary there
    · intro found
      cases found with
      | boundary there => exact ⟨there,rfl⟩
  | finish =>
    simp only [ends,List.mem_ite_nil_right,List.mem_singleton]
    constructor
    · rintro ⟨there,rfl⟩
      exact .finish there
    · intro found
      cases found with
      | finish there => exact ⟨there,rfl⟩

theorem mem_places {before text : List Char} : a ∈ places before text ↔
    ∃ passed, text = passed ++ a.after ∧ a.before = passed.reverse ++ before := by
  induction text generalizing before with
  | nil =>
    constructor
    · intro inside
      rw [List.mem_singleton.mp inside]
      exact ⟨[],rfl,rfl⟩
    · rintro ⟨passed,after,before'⟩
      obtain ⟨rfl,rest⟩ := List.append_eq_nil_iff.mp after.symm
      exact List.mem_singleton.mpr (Cursor.ext before' rest)
  | cons char rest ih =>
    rw [places,List.mem_cons,ih]
    constructor
    · rintro (rfl | ⟨passed,after,before'⟩)
      · exact ⟨[],rfl,rfl⟩
      · exact ⟨char :: passed,by rw [after,List.cons_append],by simp [before']⟩
    · rintro ⟨passed,after,before'⟩
      cases passed with
      | nil => exact .inl (Cursor.ext before' after.symm)
      | cons first others =>
        obtain ⟨rfl,later⟩ := List.cons.inj after
        exact .inr ⟨others,later,by simp [before']⟩

theorem search_iff {text : List Char} : search word p text = true ↔
    ∃ passed rest b, text = passed ++ rest ∧ Matches word p ⟨passed.reverse,rest⟩ b := by
  simp only [search,List.any_eq_true,Bool.not_eq_true',List.isEmpty_eq_false_iff_exists_mem,mem_ends]
  constructor
  · rintro ⟨a,inside,b,found⟩
    obtain ⟨passed,after,before⟩ := mem_places.mp inside
    have same : a = ⟨passed.reverse,a.after⟩ := Cursor.ext (by simpa using before) rfl
    exact ⟨passed,a.after,b,after,same ▸ found⟩
  · rintro ⟨passed,rest,b,split,found⟩
    exact ⟨_,mem_places.mpr ⟨passed,split,by simp⟩,b,found⟩

structure Spans (part : List Char) (a b : Cursor) : Prop where
  after : a.after = part ++ b.after
  before : b.before = part.reverse ++ a.before

theorem Spans.refl (a : Cursor) : Spans [] a a := ⟨rfl,rfl⟩

theorem Spans.trans {one two : List Char} {c : Cursor} (first : Spans one a b) (second : Spans two b c) :
    Spans (one ++ two) a c :=
  ⟨by rw [first.after,second.after,List.append_assoc],by simp [second.before,first.before]⟩

theorem Spans.split {one two : List Char} (spans : Spans (one ++ two) a b) : ∃ c, Spans one a c ∧ Spans two c b := by
  refine ⟨⟨one.reverse ++ a.before,two ++ b.after⟩,⟨?_,rfl⟩,⟨rfl,?_⟩⟩
  · rw [spans.after,List.append_assoc]
  · rw [spans.before,List.reverse_append,List.append_assoc]

theorem Spans.eq {c : Cursor} {part : List Char} (one : Spans part a b) (two : Spans part a c) : b = c :=
  Cursor.ext (one.before.trans two.before.symm) (List.append_cancel_left (one.after.symm.trans two.after))

theorem matches_seq : Matches word (.seq p q) a b ↔ ∃ c, Matches word p a c ∧ Matches word q c b := by
  constructor
  · intro found
    cases found with
    | seq one two => exact ⟨_,one,two⟩
  · rintro ⟨c,one,two⟩
    exact .seq one two

theorem matches_alt : Matches word (.alt p q) a b ↔ Matches word p a b ∨ Matches word q a b := by
  constructor
  · intro found
    cases found with
    | left one => exact .inl one
    | right two => exact .inr two
  · rintro (one | two)
    · exact .left one
    · exact .right two

theorem matches_empty : Matches word .empty a b ↔ b = a := by
  rw [← mem_ends,ends,List.mem_singleton]

theorem matches_boundary : Matches word .boundary a b ↔ a.atBoundary word = true ∧ b = a := by
  rw [← mem_ends,ends,List.mem_ite_nil_right,List.mem_singleton]

theorem matches_finish : Matches word .finish a b ↔ a.atFinish = true ∧ b = a := by
  rw [← mem_ends,ends,List.mem_ite_nil_right,List.mem_singleton]

theorem matches_one {test : Char → Bool} : Matches word (.one test) a b ↔ ∃ char, test char = true ∧ Spans [char] a b := by
  constructor
  · intro found
    cases found with
    | @one char _ _ _ passed => exact ⟨char,passed,rfl,rfl⟩
  · rintro ⟨char,passed,after,before⟩
    have start : a = ⟨a.before,char :: b.after⟩ := Cursor.ext rfl after
    have stop : b = ⟨char :: a.before,b.after⟩ := Cursor.ext before rfl
    rw [start,stop]
    exact .one passed

theorem matches_lits {text : List Char} : Matches word (.lits text) a b ↔ Spans text a b := by
  induction text generalizing a with
  | nil =>
    rw [Pattern.lits,matches_empty]
    constructor
    · rintro rfl
      exact .refl _
    · intro still
      exact still.eq (.refl a)
  | cons char rest ih =>
    simp only [Pattern.lits,matches_seq,matches_one,ih,beq_iff_eq]
    constructor
    · rintro ⟨c,⟨_,rfl,one⟩,others⟩
      exact one.trans others
    · rintro ⟨after,before⟩
      refine ⟨⟨char :: a.before,rest ++ b.after⟩,⟨char,rfl,after,rfl⟩,rfl,?_⟩
      simpa using before

theorem matches_star_one {test : Char → Bool} : Matches word (.star (.one test)) a b ↔
    ∃ part, (∀ char ∈ part, test char = true) ∧ Spans part a b := by
  constructor
  · intro found
    generalize starred : Pattern.star (.one test) = pattern at found
    induction found with
    | done => exact ⟨[],by simp,.refl _⟩
    | more one _ _ ih =>
      cases starred
      obtain ⟨char,passed,first⟩ := matches_one.mp one
      obtain ⟨part,others,rest⟩ := ih rfl
      refine ⟨char :: part,?_,first.trans rest⟩
      intro other inside
      rcases List.mem_cons.mp inside with rfl | later
      · exact passed
      · exact others other later
    | _ => cases starred
  · rintro ⟨part,passed,spans⟩
    induction part generalizing a with
    | nil =>
      rw [(spans.eq (.refl a) : b = a)]
      exact .done
    | cons char rest ih =>
      have first : Spans [char] a ⟨char :: a.before,rest ++ b.after⟩ := ⟨spans.after,rfl⟩
      refine .more (matches_one.mpr ⟨char,passed char List.mem_cons_self,first⟩) ?_
      refine ih (fun other inside => passed other (List.mem_cons_of_mem _ inside)) ⟨rfl,?_⟩
      simpa using spans.before

theorem matches_plus_one {test : Char → Bool} : Matches word (.plus (.one test)) a b ↔
    ∃ part ≠ [], (∀ char ∈ part, test char = true) ∧ Spans part a b := by
  simp only [Pattern.plus,matches_seq,matches_one,matches_star_one]
  constructor
  · rintro ⟨c,⟨char,passed,first⟩,part,others,rest⟩
    refine ⟨char :: part,List.cons_ne_nil _ _,?_,first.trans rest⟩
    intro other inside
    rcases List.mem_cons.mp inside with rfl | later
    · exact passed
    · exact others other later
  · rintro ⟨part,some_,passed,spans⟩
    cases part with
    | nil => exact absurd rfl some_
    | cons char rest =>
      refine ⟨⟨char :: a.before,rest ++ b.after⟩,⟨char,passed char List.mem_cons_self,spans.after,rfl⟩,rest,?_,rfl,?_⟩
      · exact fun other inside => passed other (List.mem_cons_of_mem _ inside)
      · simpa using spans.before

theorem matches_optional : Matches word (.optional p) a b ↔ Matches word p a b ∨ b = a := by
  rw [Pattern.optional,matches_alt,matches_empty]

end
end Regex
