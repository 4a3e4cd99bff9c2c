import HyprlandAgent.Safety.Fnmatch
import Mathlib.Data.List.TakeDrop
import Mathlib.Data.List.Infix

-- Which patterns stand for themselves and nothing else.
namespace HyprlandAgent.Fnmatch

def Literal : List Char → Prop
  | [] => True
  | '*' :: _ => False
  | '?' :: _ => False
  | '[' :: rest => untilClose rest = none ∧ Literal rest
  | _ :: rest => Literal rest

theorem translate_literal {pattern : List Char} (literal : Literal pattern) :
    translate 0 pattern = pattern.map .one := by
  induction pattern using Literal.induct with
  | case1 => rfl
  | case2 => exact literal.elim
  | case3 => exact literal.elim
  | case4 rest ih =>
    obtain ⟨unclosed,others⟩ := literal
    simp [translate,unclosed,ih others]
  | case5 char rest noStar noAny noOpen ih =>
    simp only [Literal] at literal
    simp [translate,ih literal]

theorem accepts_ones (chars text : List Char) : accepts (chars.map .one) text = true ↔ text = chars := by
  induction chars generalizing text with
  | nil => cases text <;> simp [accepts]
  | cons char rest ih =>
    cases text with
    | nil => simp [accepts]
    | cons first others =>
      simp only [List.map_cons,accepts,Token.admits,Bool.and_eq_true,beq_iff_eq,ih,List.cons.injEq]
      constructor
      · exact fun both => ⟨both.1.symm,both.2⟩
      · exact fun both => ⟨both.1.symm,both.2⟩

theorem fnmatch_literal {name pat : String} (literal : Literal pat.toList) :
    fnmatch name pat = true ↔ name = pat := by
  rw [fnmatch,translate_literal literal,accepts_ones,String.toList_inj]

def Token.loose : Token → Bool
  | .star => true
  | .any => true
  | _ => false

def Token.isBracket : Token → Bool
  | .bracket _ _ _ => true
  | _ => false

theorem untilClose_length {rest stuff : List Char} (closed : untilClose rest = some stuff) :
    stuff.length < rest.length := by
  unfold untilClose at closed
  simp only [List.span_eq_takeWhile_dropWhile] at closed
  generalize (if (rest.drop _).head? = some ']' then _ else _ : Nat) = lead at closed
  split at closed
  · rename_i inside close others parts
    obtain ⟨rfl,remain⟩ := Prod.mk.inj parts
    cases closed
    have whole := congrArg List.length
      (List.takeWhile_append_dropWhile (p:=(· != ']')) (l:=rest.drop lead))
    rw [List.length_append,remain,List.length_cons,List.length_drop] at whole
    rw [List.length_append,List.length_take]
    omega
  · cases closed

theorem translate_length (skip : Nat) (pattern : List Char) :
    (translate skip pattern).length ≤ pattern.length - skip ∧
      ((translate skip pattern).any Token.isBracket = true →
        (translate skip pattern).length < pattern.length - skip) := by
  induction skip,pattern using translate.induct with
  | case1 skip => simp [translate]
  | case2 skip char rest ih => simpa [translate] using ih
  | case3 rest ih =>
    simp only [translate,List.length_cons,List.any_cons,Token.isBracket,Bool.false_or]
    exact ⟨by omega,fun found => by have less := ih.2 found; omega⟩
  | case4 rest ih =>
    simp only [translate,List.length_cons,List.any_cons,Token.isBracket,Bool.false_or]
    exact ⟨by omega,fun found => by have less := ih.2 found; omega⟩
  | case5 rest stuff closed ih =>
    have inside := untilClose_length closed
    simp only [translate,closed,List.length_cons]
    exact ⟨by omega,fun _ => by omega⟩
  | case6 rest closed ih =>
    simp only [translate,closed,List.length_cons,List.any_cons,Token.isBracket,Bool.false_or]
    exact ⟨by omega,fun found => by have less := ih.2 found; omega⟩
  | case7 char rest noStar noAny noOpen ih =>
    simp only [translate,List.length_cons,List.any_cons,Token.isBracket,Bool.false_or]
    exact ⟨by omega,fun found => by have less := ih.2 found; omega⟩

theorem accepts_length {tokens : List Token} {text : List Char} (noStar : .star ∉ tokens)
    (accepted : accepts tokens text = true) : text.length = tokens.length := by
  induction tokens generalizing text with
  | nil => simpa [accepts] using accepted
  | cons token rest ih =>
    have later : .star ∉ rest := fun inside => noStar (List.mem_cons_of_mem _ inside)
    cases token with
    | star => exact absurd List.mem_cons_self noStar
    | _ =>
      cases text with
      | nil => simp [accepts] at accepted
      | cons char others =>
        simp only [accepts,Bool.and_eq_true] at accepted
        simp [ih later accepted.2]

structure Varied (text other : List Char) : Prop where
  apart : other ≠ text
  marked : 'z' ∈ other ∨ 'j' ∈ other
  within : ∀ char ∈ other, char ∈ text ∨ char = 'z' ∨ char = 'j'

theorem varied_inserted (text : List Char) : Varied text ('z' :: text) := by
  constructor
  · intro same
    have counted := congrArg List.length same
    simp at counted
  · exact .inl List.mem_cons_self
  · intro char inside
    rcases List.mem_cons.mp inside with new | old
    · exact .inr (.inl new)
    · exact .inl old

theorem varied_replaced {new char : Char} (fresh : new ≠ char) (either : new = 'z' ∨ new = 'j')
    (others : List Char) : Varied (char :: others) (new :: others) := by
  constructor
  · intro same
    exact fresh (List.cons.inj same).1
  · rcases either with rfl | rfl <;> simp
  · intro other inside
    rcases List.mem_cons.mp inside with rfl | old
    · exact .inr either
    · exact .inl (List.mem_cons_of_mem _ old)

theorem Varied.cons {text other : List Char} (varied : Varied text other) (char : Char) :
    Varied (char :: text) (char :: other) := by
  constructor
  · intro same
    exact varied.apart (List.cons.inj same).2
  · exact varied.marked.imp (List.mem_cons_of_mem _) (List.mem_cons_of_mem _)
  · intro letter inside
    rcases List.mem_cons.mp inside with rfl | old
    · exact .inl List.mem_cons_self
    · exact (varied.within letter old).imp (List.mem_cons_of_mem _) id

theorem accepts_varied {tokens : List Token} {text : List Char} (loose : tokens.any Token.loose = true)
    (accepted : accepts tokens text = true) : ∃ other, accepts tokens other = true ∧ Varied text other := by
  induction tokens generalizing text with
  | nil => cases loose
  | cons token rest ih =>
    cases token with
    | star =>
      refine ⟨'z' :: text,?_,varied_inserted text⟩
      simp only [accepts,List.any_eq_true] at accepted ⊢
      obtain ⟨tail,inside,matched⟩ := accepted
      refine ⟨tail,?_,matched⟩
      rw [List.mem_tails] at inside ⊢
      exact inside.trans (List.suffix_cons _ _)
    | any =>
      cases text with
      | nil => simp [accepts] at accepted
      | cons char others =>
        have matched : accepts rest others = true := by simpa [accepts,Token.admits] using accepted
        by_cases same : 'z' = char
        · exact ⟨'j' :: others,matched,varied_replaced (by subst same; decide) (.inr rfl) others⟩
        · exact ⟨'z' :: others,matched,varied_replaced same (.inl rfl) others⟩
    | _ =>
      cases text with
      | nil => simp [accepts] at accepted
      | cons char others =>
        simp only [accepts,Bool.and_eq_true] at accepted
        obtain ⟨other,matched,varied⟩ := ih loose accepted.2
        refine ⟨char :: other,?_,varied.cons char⟩
        simp only [accepts,accepted.1,matched,Bool.and_self]

theorem literal_of_ones {pattern : List Char} (tight : ¬(translate 0 pattern).any Token.loose = true)
    (noBracket : ¬(translate 0 pattern).any Token.isBracket = true) : Literal pattern := by
  induction pattern using Literal.induct with
  | case1 => trivial
  | case2 rest => simp [translate,Token.loose] at tight
  | case3 rest => simp [translate,Token.loose] at tight
  | case4 rest ih =>
    cases closed : untilClose rest with
    | none =>
      simp only [translate,closed,List.any_cons,Token.loose,Token.isBracket,Bool.false_or] at tight noBracket
      exact ⟨closed,ih tight noBracket⟩
    | some stuff =>
      have bracket : (bracketOf stuff).isBracket = true := by
        unfold bracketOf
        simp only
        split <;> rfl
      simp [translate,closed,bracket] at noBracket
  | case5 char rest noStar noAny noOpen ih =>
    simp only [translate,List.any_cons,Token.loose,Token.isBracket,Bool.false_or] at tight noBracket
    simp only [Literal]
    exact ih tight noBracket

theorem not_literal {pattern : List Char} (wild : ¬Literal pattern) :
    accepts (translate 0 pattern) pattern = false ∨
    ∃ other, accepts (translate 0 pattern) other = true ∧ Varied pattern other := by
  cases own : accepts (translate 0 pattern) pattern with
  | false => exact .inl rfl
  | true =>
    refine .inr (accepts_varied ?_ own)
    by_contra tight
    have noStar : .star ∉ translate 0 pattern := by
      intro inside
      exact tight (List.any_eq_true.mpr ⟨_,inside,rfl⟩)
    have counted := accepts_length noStar own
    have noBracket : ¬(translate 0 pattern).any Token.isBracket = true := by
      intro found
      have less := (translate_length 0 pattern).2 found
      omega
    exact wild (literal_of_ones tight noBracket)

end HyprlandAgent.Fnmatch
