import Mathlib.Data.List.TakeWhile

-- Patterns whose parts take all they can and never give anything back, and what is done
-- with their matches in a text from left to right.
namespace Greedy

inductive Pattern where
  | literal (word : List Char)
  | atLeast (count : Nat) (test : Char → Bool)
  | optional (p : Pattern)
  | next (p q : Pattern)

namespace Pattern
variable {α : Type} (char : α → Char)

def takeWord : List Char → List α → Option (List α)
  | [],cells => some cells
  | _ :: _,[] => none
  | wanted :: word,cell :: rest => if char cell = wanted then takeWord word rest else none

def take : Pattern → List α → Option (List α)
  | .literal word,cells => takeWord char word cells
  | .atLeast count test,cells =>
    if count ≤ (cells.takeWhile fun cell => test (char cell)).length then
      some (cells.dropWhile fun cell => test (char cell))
    else none
  | .optional p,cells => some ((p.take cells).getD cells)
  | .next p q,cells => (p.take cells).bind q.take

-- `pattern.sub(block, text)`, with how many characters of a match are still to come.
def subFrom (p : Pattern) (block : List α) : Nat → List α → List α
  | _,[] => []
  | skip + 1,_ :: rest => subFrom p block skip rest
  | 0,cell :: rest =>
    match p.take char (cell :: rest) with
    | some more => block ++ subFrom p block (rest.length - more.length) rest
    | none => cell :: subFrom p block 0 rest

def sub (p : Pattern) (block cells : List α) : List α := p.subFrom char block 0 cells

def coverFrom (p : Pattern) : Nat → List α → List Bool
  | _,[] => []
  | skip + 1,_ :: rest => true :: coverFrom p skip rest
  | 0,cell :: rest =>
    match p.take char (cell :: rest) with
    | some more => true :: coverFrom p (rest.length - more.length) rest
    | none => false :: coverFrom p 0 rest

def cover (p : Pattern) (cells : List α) : List Bool := p.coverFrom char 0 cells

def advances : Pattern → Bool
  | .literal word => !word.isEmpty
  | .atLeast count _ => 0 < count
  | .optional _ => false
  | .next p q => p.advances || q.advances

end Pattern

open Pattern

section
variable {α : Type} {char : α → Char} {p q : Pattern} {block cells more : List α}

theorem takeWord_length {word : List Char} (taken : takeWord char word cells = some more) :
    more <:+ cells ∧ cells.length = word.length + more.length := by
  induction word generalizing cells with
  | nil =>
    cases taken
    exact ⟨List.suffix_refl _,(Nat.zero_add _).symm⟩
  | cons wanted word ih =>
    cases cells with
    | nil => cases taken
    | cons cell rest =>
      rw [takeWord] at taken
      split at taken
      · obtain ⟨suffix,lengths⟩ := ih taken
        refine ⟨suffix.trans (List.suffix_cons cell rest),?_⟩
        rw [List.length_cons,List.length_cons]
        omega
      · cases taken

-- The induction is on the pattern.
theorem take_suffix (taken : p.take char cells = some more) : more <:+ cells := by
  induction p generalizing cells more with
  | literal word => exact (takeWord_length taken).1
  | atLeast count test =>
    rw [take] at taken
    split at taken
    · cases taken
      exact List.dropWhile_suffix _
    · cases taken
  | optional p ih =>
    cases inner : p.take char cells with
    | none =>
      rw [take,inner] at taken
      cases taken
      exact List.suffix_refl _
    | some rest =>
      rw [take,inner] at taken
      cases taken
      exact ih inner
  | next p q first second =>
    obtain ⟨rest,one,two⟩ := Option.bind_eq_some_iff.mp taken
    exact (second two).trans (first one)

theorem take_advances (moves : p.advances = true) (taken : p.take char cells = some more) :
    more.length < cells.length := by
  induction p generalizing cells more with
  | literal word =>
    have lengths := (takeWord_length taken).2
    cases word with
    | nil => cases moves
    | cons wanted word =>
      rw [List.length_cons] at lengths
      omega
  | atLeast count test =>
    rw [take] at taken
    split at taken
    · rename_i enough
      cases taken
      have split := congrArg List.length (List.takeWhile_append_dropWhile (p := fun cell => test (char cell)) (l := cells))
      have some_ : 0 < count := of_decide_eq_true moves
      rw [List.length_append] at split
      omega
    · cases taken
  | optional p _ => cases moves
  | next p q first second =>
    obtain ⟨rest,one,two⟩ := Option.bind_eq_some_iff.mp taken
    have shorter := (take_suffix one).length_le
    have further := (take_suffix two).length_le
    rcases (Bool.or_eq_true _ _).mp moves with moved | moved
    · have fewer := first moved one
      omega
    · have fewer := second moved two
      omega

theorem takeWord_map {word : List Char} : takeWord id word (cells.map char) = (takeWord char word cells).map (List.map char) := by
  induction word generalizing cells with
  | nil => rfl
  | cons wanted word ih =>
    cases cells with
    | nil => rfl
    | cons cell rest =>
      rw [List.map_cons,takeWord,takeWord,id]
      by_cases same : char cell = wanted
      · rw [if_pos same,if_pos same]
        exact ih
      · rw [if_neg same,if_neg same]
        rfl

theorem take_map (char : α → Char) (p : Pattern) (cells : List α) : p.take id (cells.map char) = (p.take char cells).map (List.map char) := by
  induction p generalizing cells with
  | literal word => exact takeWord_map
  | atLeast count test =>
    have same : (cells.map char).takeWhile (fun one => test (id one)) = (cells.takeWhile fun cell => test (char cell)).map char :=
      List.takeWhile_map ..
    have rest : (cells.map char).dropWhile (fun one => test (id one)) = (cells.dropWhile fun cell => test (char cell)).map char :=
      List.dropWhile_map ..
    rw [take,take,same,rest,List.length_map]
    split <;> rfl
  | optional p ih =>
    rw [take,take,ih]
    cases p.take char cells <;> rfl
  | next p q first second =>
    rw [take,take,first]
    cases p.take char cells with
    | none => rfl
    | some rest => exact second rest

theorem subFrom_skip (skip : Nat) (cells : List α) :
    p.subFrom char block skip cells = p.sub char block (cells.drop skip) := by
  induction cells generalizing skip with
  | nil =>
    rw [List.drop_nil]
    cases skip <;> rfl
  | cons cell rest ih =>
    cases skip with
    | zero => rfl
    | succ skip => exact ih skip

theorem coverFrom_skip {skip : Nat} (fits : skip ≤ cells.length) :
    p.coverFrom char skip cells = List.replicate skip true ++ p.cover char (cells.drop skip) := by
  induction cells generalizing skip with
  | nil =>
    have none_ : skip = 0 := Nat.le_zero.mp fits
    subst none_
    rfl
  | cons cell rest ih =>
    cases skip with
    | zero => rfl
    | succ skip =>
      rw [coverFrom,ih (Nat.le_of_succ_le_succ fits)]
      rfl

theorem take_rest {cell : α} {rest : List α} (moves : p.advances = true) (taken : p.take char (cell :: rest) = some more) :
    more.length ≤ rest.length ∧ rest.drop (rest.length - more.length) = more := by
  have shorter := Nat.le_of_lt_succ (take_advances moves taken)
  have suffix : more <:+ rest := List.suffix_of_suffix_length_le (take_suffix taken) (List.suffix_cons cell rest) shorter
  exact ⟨shorter,(List.suffix_iff_eq_drop.mp suffix).symm⟩

theorem sub_none {cell : α} {rest : List α} (stays : p.take char (cell :: rest) = none) :
    p.sub char block (cell :: rest) = cell :: p.sub char block rest := by
  rw [sub,subFrom,stays]
  rfl

theorem sub_some {cell : α} {rest : List α} (moves : p.advances = true) (taken : p.take char (cell :: rest) = some more) :
    p.sub char block (cell :: rest) = block ++ p.sub char block more := by
  rw [sub,subFrom,taken]
  simp only [subFrom_skip,(take_rest moves taken).2]

theorem cover_none {cell : α} {rest : List α} (stays : p.take char (cell :: rest) = none) :
    p.cover char (cell :: rest) = false :: p.cover char rest := by
  rw [cover,coverFrom,stays]
  rfl

theorem cover_some {cell : α} {rest : List α} (moves : p.advances = true) (taken : p.take char (cell :: rest) = some more) :
    p.cover char (cell :: rest) = List.replicate (rest.length - more.length + 1) true ++ p.cover char more := by
  rw [cover,coverFrom,taken]
  simp only [coverFrom_skip (Nat.sub_le rest.length more.length),(take_rest moves taken).2]
  rfl

theorem scan_induction (char : α → Char) (moves : p.advances = true) {motive : List α → Prop} (nil : motive [])
    (stay : ∀ cell rest, p.take char (cell :: rest) = none → motive rest → motive (cell :: rest))
    (found : ∀ cell rest more, p.take char (cell :: rest) = some more → motive more → motive (cell :: rest))
    (cells : List α) : motive cells := by
  induction length : cells.length using Nat.strongRecOn generalizing cells with
  | ind count ih =>
    cases cells with
    | nil => exact nil
    | cons cell rest =>
      subst length
      cases taken : p.take char (cell :: rest) with
      | none => exact stay cell rest taken (ih _ (Nat.lt_succ_self _) rest rfl)
      | some more => exact found cell rest more taken (ih _ (take_advances moves taken) more rfl)

theorem cover_length (moves : p.advances = true) (cells : List α) : (p.cover char cells).length = cells.length := by
  induction cells using scan_induction char moves with
  | nil => rfl
  | stay cell rest stays ih => rw [cover_none stays,List.length_cons,List.length_cons,ih]
  | found cell rest more taken ih =>
    have shorter := (take_rest moves taken).1
    rw [cover_some moves taken,List.length_append,List.length_replicate,ih,List.length_cons]
    omega

theorem cover_map (moves : p.advances = true) (cells : List α) : p.cover id (cells.map char) = p.cover char cells := by
  induction cells using scan_induction char moves with
  | nil => rfl
  | stay cell rest stays ih =>
    have same := take_map char p (cell :: rest)
    rw [stays] at same
    rw [cover_none stays,List.map_cons,cover_none same,ih]
  | found cell rest more taken ih =>
    have same := take_map char p (cell :: rest)
    rw [taken] at same
    rw [cover_some moves taken,List.map_cons,cover_some moves same,ih,List.length_map,List.length_map]

theorem sub_map (moves : p.advances = true) (block cells : List α) :
    (p.sub char block cells).map char = p.sub id (block.map char) (cells.map char) := by
  induction cells using scan_induction char moves with
  | nil => rfl
  | stay cell rest stays ih =>
    have same := take_map char p (cell :: rest)
    rw [stays] at same
    rw [sub_none stays,List.map_cons,List.map_cons,sub_none same,ih]
  | found cell rest more taken ih =>
    have same := take_map char p (cell :: rest)
    rw [taken] at same
    rw [sub_some moves taken,List.map_cons,sub_some moves same,List.map_append,ih]

end

def Pattern.Hides (p : Pattern) (text : List Char) (place : Nat) : Prop := (p.cover id text)[place]? = some true

def Absorbs (p : Pattern) : Prop :=
  ∀ text more inner later, p.take id text = some more → inner <:+ text → more.length < inner.length →
    p.take id inner = some later → more.length ≤ later.length

section
variable {p : Pattern} {text more : List Char}

theorem hides_iff (moves : p.advances = true) (absorbs : Absorbs p) (text : List Char) (place : Nat) :
    p.Hides text place ↔ ∃ before inner later, text = before ++ inner ∧ p.take id inner = some later ∧
      before.length ≤ place ∧ place + later.length < text.length := by
  unfold Hides
  induction text using scan_induction id moves generalizing place with
  | nil =>
    refine iff_of_false (by simp [cover,coverFrom]) ?_
    rintro ⟨_,_,_,_,_,_,short⟩
    exact Nat.not_lt_zero _ short
  | stay char rest stays ih =>
    rw [cover_none stays]
    cases place with
    | zero =>
      refine iff_of_false (by simp) ?_
      rintro ⟨before,inner,later,split,taken,first,_⟩
      rw [List.length_eq_zero_iff.mp (Nat.le_zero.mp first),List.nil_append] at split
      rw [← split,stays] at taken
      cases taken
    | succ place =>
      rw [List.getElem?_cons_succ,ih]
      constructor
      · rintro ⟨before,inner,later,split,taken,first,last⟩
        exact ⟨char :: before,inner,later,congrArg (char :: ·) split,taken,Nat.succ_le_succ first,by
          rw [List.length_cons]
          omega⟩
      · rintro ⟨before,inner,later,split,taken,first,last⟩
        cases before with
        | nil =>
          rw [List.nil_append] at split
          rw [← split,stays] at taken
          cases taken
        | cons _ before =>
          have others := (List.cons.inj split).2
          rw [List.length_cons] at first last
          exact ⟨before,inner,later,others,taken,by omega,by omega⟩
  | found char rest more taken ih =>
    obtain ⟨shorter,_⟩ := take_rest moves taken
    obtain ⟨front,whole⟩ := take_suffix taken
    have lengths := congrArg List.length whole
    rw [List.length_append,List.length_cons] at lengths
    have front_length : rest.length - more.length + 1 = front.length := by omega
    rw [cover_some moves taken,front_length]
    by_cases inside : place < front.length
    · refine iff_of_true ?_ ⟨[],char :: rest,more,rfl,taken,Nat.zero_le _,?_⟩
      · rw [List.getElem?_append_left (by rwa [List.length_replicate])]
        simp [inside]
      · rw [List.length_cons]
        omega
    · rw [List.getElem?_append_right (by rw [List.length_replicate]; omega),List.length_replicate,ih]
      constructor
      · rintro ⟨before,inner,later,split,found,first,last⟩
        refine ⟨front ++ before,inner,later,?_,found,?_,?_⟩
        · rw [List.append_assoc,← split,whole]
        · rw [List.length_append]
          omega
        · rw [List.length_cons]
          omega
      · rintro ⟨before,inner,later,split,found,first,last⟩
        have total := congrArg List.length split
        rw [List.length_append,List.length_cons] at total
        rw [List.length_cons] at last
        have behind : inner.length ≤ more.length := by
          apply Nat.le_of_not_lt
          intro longer
          have bound := absorbs _ _ inner later taken ⟨before,split.symm⟩ longer found
          omega
        have part : inner <:+ more := List.suffix_of_suffix_length_le ⟨before,split.symm⟩ ⟨front,whole⟩ behind
        obtain ⟨middle,rest_⟩ := part
        have sizes := congrArg List.length rest_
        rw [List.length_append] at sizes
        exact ⟨middle,inner,later,rest_.symm,found,by omega,by omega⟩

end

section
variable {word : List Char} {test pad : Char → Bool} {count : Nat} {text more : List Char}

theorem takeWord_iff {word text more : List Char} : takeWord id word text = some more ↔ text = word ++ more := by
  induction word generalizing text with
  | nil => exact ⟨fun same => Option.some.inj same,congrArg some⟩
  | cons wanted word ih =>
    cases text with
    | nil => exact iff_of_false nofun nofun
    | cons char rest =>
      rw [takeWord,id,List.cons_append,List.cons.injEq]
      by_cases same : char = wanted
      · rw [if_pos same,ih,and_iff_right same]
      · rw [if_neg same]
        exact iff_of_false nofun fun both => same both.1

theorem take_atLeast_iff : (Pattern.atLeast count test).take id text = some more ↔
    count ≤ (text.takeWhile test).length ∧ text.dropWhile test = more := by
  rw [take]
  by_cases enough : count ≤ (text.takeWhile fun char => test (id char)).length
  · rw [if_pos enough]
    exact ⟨fun same => ⟨enough,Option.some.inj same⟩,fun both => congrArg some both.2⟩
  · rw [if_neg enough]
    exact iff_of_false nofun fun both => enough both.1

theorem dropWhile_inside {inner : List Char} (part : inner <:+ text) (longer : (text.dropWhile test).length < inner.length) :
    inner.dropWhile test = text.dropWhile test := by
  induction text with
  | nil => rw [List.suffix_nil.mp part]
  | cons char rest ih =>
    rw [List.dropWhile_cons] at longer ⊢
    rcases List.suffix_cons_iff.mp part with rfl | part
    · exact List.dropWhile_cons
    · split at longer
      · rename_i passed
        rw [if_pos passed]
        exact ih part longer
      · have short := part.length_le
        rw [List.length_cons] at longer
        omega

theorem word_absorbs (inside : ∀ char ∈ word, test char = true) :
    Absorbs (.next (.literal word) (.atLeast count test)) := by
  intro text more inner later taken part longer found
  have run {text more : List Char} (taken : (Pattern.next (.literal word) (.atLeast count test)).take id text = some more) :
      text.dropWhile test = more := by
    obtain ⟨rest,worded,ran⟩ := Option.bind_eq_some_iff.mp taken
    rw [takeWord_iff.mp worded,List.dropWhile_append_of_pos inside]
    exact (take_atLeast_iff.mp ran).2
  have outer := run taken
  have same : more = later := by rw [← outer,← run found,dropWhile_inside part (outer ▸ longer)]
  exact Nat.le_of_eq (congrArg List.length same)

theorem pad_absorbs (apart : ∀ char, pad char = true → test char = false) (some_ : 0 < count) :
    Absorbs (.next (.atLeast count test) (.atLeast 0 pad)) := by
  intro text more inner later taken part longer found
  obtain ⟨rest,ran,padded⟩ := Option.bind_eq_some_iff.mp taken
  obtain ⟨others,run,padding⟩ := Option.bind_eq_some_iff.mp found
  obtain ⟨_,rfl⟩ := take_atLeast_iff.mp ran
  obtain ⟨enough,rfl⟩ := take_atLeast_iff.mp run
  obtain ⟨_,rfl⟩ := take_atLeast_iff.mp padded
  obtain ⟨_,rfl⟩ := take_atLeast_iff.mp padding
  by_cases within : (text.dropWhile test).length < inner.length
  · exact Nat.le_of_eq (by rw [dropWhile_inside part within])
  · have padded : inner <:+ text.dropWhile test :=
      List.suffix_of_suffix_length_le part (List.dropWhile_suffix _) (Nat.not_lt.mp within)
    have rest := dropWhile_inside padded longer
    cases inner with
    | nil => exact absurd longer (Nat.not_lt_zero _)
    | cons char others =>
      cases first : pad char with
      | true =>
        rw [List.takeWhile_cons,if_neg (by simp [apart char first])] at enough
        exact absurd enough (Nat.not_le.mpr some_)
      | false =>
        rw [List.dropWhile_cons,if_neg (by simp [first])] at rest
        rw [← rest] at longer
        exact absurd longer (Nat.lt_irrefl _)

theorem run_taken {body : List Char} (passed : ∀ char ∈ body, test char = true) (enough : count ≤ body.length)
    (after : List Char) : (Pattern.atLeast count test).take id (body ++ after) = some (after.dropWhile test) := by
  rw [take_atLeast_iff,List.takeWhile_append_of_pos passed,List.dropWhile_append_of_pos passed,List.length_append]
  exact ⟨Nat.le_add_right_of_le enough,rfl⟩

theorem run_split (taken : (Pattern.atLeast count test).take id text = some more) :
    ∃ body, text = body ++ more ∧ count ≤ body.length ∧ ∀ char ∈ body, test char = true := by
  obtain ⟨enough,rfl⟩ := take_atLeast_iff.mp taken
  exact ⟨text.takeWhile test,List.takeWhile_append_dropWhile.symm,enough,fun _ passed => List.mem_takeWhile_imp passed⟩

theorem hides_word_iff (inside : ∀ char ∈ word, test char = true) (some_ : 0 < count) (text : List Char) (place : Nat) :
    (Pattern.next (.literal word) (.atLeast count test)).Hides text place ↔
      ∃ before body after, text = before ++ (word ++ (body ++ after)) ∧ count ≤ body.length ∧
        (∀ char ∈ body, test char = true) ∧ before.length ≤ place ∧ place + after.length < text.length := by
  have moves : (Pattern.next (.literal word) (.atLeast count test)).advances = true := by simp [advances,some_]
  rw [hides_iff moves (word_absorbs inside)]
  constructor
  · rintro ⟨before,inner,later,split,taken,first,last⟩
    obtain ⟨rest,worded,ran⟩ := Option.bind_eq_some_iff.mp taken
    obtain ⟨body,run,enough,passed⟩ := run_split ran
    refine ⟨before,body,later,?_,enough,passed,first,last⟩
    rw [split,takeWord_iff.mp worded,run]
  · rintro ⟨before,body,after,split,enough,passed,first,last⟩
    have short := (List.dropWhile_suffix test (l := after)).length_le
    refine ⟨before,_,after.dropWhile test,split,?_,first,by omega⟩
    exact Option.bind_eq_some_iff.mpr ⟨_,takeWord_iff.mpr rfl,run_taken passed enough after⟩

theorem hides_pad_iff (apart : ∀ char, pad char = true → test char = false) (some_ : 0 < count) (text : List Char)
    (place : Nat) :
    (Pattern.next (.atLeast count test) (.atLeast 0 pad)).Hides text place ↔
      ∃ before body padding after, text = before ++ (body ++ (padding ++ after)) ∧ count ≤ body.length ∧
        (∀ char ∈ body, test char = true) ∧ (∀ char ∈ padding, pad char = true) ∧
        before.length ≤ place ∧ place + after.length < text.length := by
  have moves : (Pattern.next (.atLeast count test) (.atLeast 0 pad)).advances = true := by simp [advances,some_]
  rw [hides_iff moves (pad_absorbs apart some_)]
  constructor
  · rintro ⟨before,inner,later,split,taken,first,last⟩
    obtain ⟨rest,ran,padded⟩ := Option.bind_eq_some_iff.mp taken
    obtain ⟨body,run,enough,passed⟩ := run_split ran
    obtain ⟨padding,filled,_,pads⟩ := run_split padded
    refine ⟨before,body,padding,later,?_,enough,passed,pads,first,last⟩
    rw [split,run,filled]
  · rintro ⟨before,body,padding,after,split,enough,passed,pads,first,last⟩
    -- The run goes on behind the body only where there is no padding.
    have ran : ∃ later, (Pattern.next (.atLeast count test) (.atLeast 0 pad)).take id (body ++ (padding ++ after)) = some later ∧
        later.length ≤ after.length := by
      cases padding with
      | nil =>
        refine ⟨(after.dropWhile test).dropWhile pad,?_,?_⟩
        · exact Option.bind_eq_some_iff.mpr ⟨_,run_taken passed enough after,take_atLeast_iff.mpr ⟨Nat.zero_le _,rfl⟩⟩
        · exact ((List.dropWhile_suffix _).trans (List.dropWhile_suffix _)).length_le
      | cons char others =>
        have stops : (char :: others ++ after).dropWhile test = char :: others ++ after := by
          rw [List.cons_append,List.dropWhile_cons,if_neg (by simp [apart char (pads char List.mem_cons_self)])]
        refine ⟨after.dropWhile pad,?_,(List.dropWhile_suffix _).length_le⟩
        refine Option.bind_eq_some_iff.mpr ⟨_,run_taken passed enough _,?_⟩
        rw [stops]
        exact run_taken pads (Nat.zero_le _) after
    obtain ⟨later,taken,short⟩ := ran
    exact ⟨before,_,later,split,taken,first,by omega⟩

end
end Greedy
