import Mathlib.Algebra.GroupWithZero.Nat
import Mathlib.Data.List.Basic

-- Paths as texts and as lists of names, and the resolution of symbolic links over a
-- finite table of them.
namespace PosixPath

abbrev Name := List Char

-- `text.split("/")`
def split : List Char → List Name
  | [] => [[]]
  | char :: rest =>
    if char = '/' then [] :: split rest
    else match split rest with
      | [] => [[char]]
      | name :: names => (char :: name) :: names

-- `"/".join(names)`
def join : List Name → List Char
  | [] => []
  | [name] => name
  | name :: rest => name ++ '/' :: join rest

def curdir : Name := ['.']
def pardir : Name := ['.','.']

-- A name that stands between slashes.
structure Plain (name : Name) : Prop where
  some_ : name ≠ []
  inner : '/' ∉ name

theorem split_inner (text : List Char) : ∀ name ∈ split text, '/' ∉ name := by
  induction text with
  | nil =>
    intro name inside
    rw [List.mem_singleton.mp inside]
    exact List.not_mem_nil
  | cons char rest ih =>
    intro name inside
    by_cases slash : char = '/'
    · rw [split,if_pos slash] at inside
      rcases List.mem_cons.mp inside with rfl | later
      · exact List.not_mem_nil
      · exact ih name later
    · rw [split,if_neg slash] at inside
      cases names : split rest with
      | nil =>
        simp only [names,List.mem_singleton] at inside
        rw [inside,List.mem_singleton]
        exact fun same => slash same.symm
      | cons first others =>
        rw [names] at ih
        simp only [names] at inside
        rcases List.mem_cons.mp inside with rfl | later
        · intro held
          rcases List.mem_cons.mp held with same | there
          · exact slash same.symm
          · exact ih first List.mem_cons_self there
        · exact ih name (List.mem_cons_of_mem _ later)

-- A path as the library keeps it: what it starts with, and its names.
structure Path where
  root : List Char
  parts : List Name
  deriving DecidableEq

def Path.str (path : Path) : List Char :=
  if path.root = [] ∧ path.parts = [] then curdir else path.root ++ join path.parts

-- Two slashes at the start are kept, one or three and more are one.
def rootOf : List Char → List Char
  | '/' :: '/' :: '/' :: _ => ['/']
  | ['/','/'] => ['/','/']
  | '/' :: '/' :: _ => ['/','/']
  | '/' :: _ => ['/']
  | _ => []

def parse (text : List Char) : Path where
  root := rootOf text
  parts := (split text).filter fun name => name ≠ [] ∧ name ≠ curdir

abbrev Links := List (List Name × List Char)

def target (links : Links) (path : List Name) : Option (List Char) :=
  (links.find? fun link => link.1 == path).map Prod.snd

-- What is left to go: a name, or the note that a link is done.
inductive Todo where
  | name (name : Name)
  | resolved (link : List Name)

-- A walk through the file system: where it is, what is left, and the links met, with
-- where each leads once that is known.
structure Walk where
  path : List Name
  rest : List Todo
  seen : List (List Name × Option (List Name)) := []

def names (text : List Char) : List Todo := (split text).map .name

def absolute (text : List Char) : Bool := text.head? == some '/'

def Walk.met (walk : Walk) (path : List Name) : Option (Option (List Name)) :=
  (walk.seen.find? fun entry => entry.1 == path).map Prod.snd

-- One name of the loop of `realpath`. A name with a NUL is refused by the system call.
def enter (links : Links) (walk : Walk) (name : Name) (rest : List Todo) : Option Walk :=
  if name = [] ∨ name = curdir then some { walk with rest := rest }
  else if name = pardir then some { walk with path := walk.path.dropLast, rest := rest }
  else if '\x00' ∈ name then none
  else
    let newpath := walk.path ++ [name]
    match target links newpath with
    | none => some { walk with path := newpath, rest := rest }
    | some text =>
      match walk.met newpath with
      | some (some known) => some { walk with path := known, rest := rest }
      -- A loop: the link itself stays in the path.
      | some none => some { walk with path := newpath, rest := rest }
      | none => some {
          path := if absolute text then [] else walk.path
          rest := names text ++ .resolved newpath :: rest
          seen := (newpath,none) :: walk.seen }

def advance (links : Links) (walk : Walk) : Todo → List Todo → Option Walk
  | .resolved link,rest => some { walk with rest := rest, seen := (link,some walk.path) :: walk.seen }
  | .name name,rest => enter links walk name rest

inductive Ending where
  | arrived (path : List Name)
  | refused

def walkOn (links : Links) : Nat → Walk → Option Ending
  | fuel,walk =>
    match walk.rest,fuel with
    | [],_ => some (.arrived walk.path)
    | _ :: _,0 => none
    | todo :: rest,fuel + 1 =>
      match advance links walk todo rest with
      | some next => walkOn links fuel next
      | none => some .refused

def ahead (links : Links) (walk : Walk) : Nat :=
  ((links.filter fun link => (walk.met link.1).isNone).map fun link => (split link.2).length + 1).sum

def Walk.left (links : Links) (walk : Walk) : Nat := walk.rest.length + ahead links walk

def start (cwd : List Name) (text : List Char) : Walk where
  path := if absolute text then [] else cwd
  rest := names text

variable {links : Links} {walk next : Walk} {todo : Todo} {rest : List Todo} {text : List Char}

theorem sum_filter_le {α : Type} {f : α → Nat} {p q : α → Bool} (weaker : ∀ a, p a = true → q a = true) :
    ∀ list : List α, ((list.filter p).map f).sum ≤ ((list.filter q).map f).sum
  | [] => Nat.le_refl _
  | a :: more => by
    have others := sum_filter_le (f:=f) weaker more
    by_cases kept : p a = true
    · simp [kept,weaker a kept,others]
    · by_cases held : q a = true
      · simp only [List.filter_cons_of_neg kept,List.filter_cons_of_pos held,List.map_cons,List.sum_cons]
        omega
      · simpa [kept,held] using others

theorem sum_filter_drop {α : Type} {f : α → Nat} {p q : α → Bool} (weaker : ∀ a, p a = true → q a = true)
    {a : α} {list : List α} (inside : a ∈ list) (held : q a = true) (gone : ¬p a = true) :
    ((list.filter p).map f).sum + f a ≤ ((list.filter q).map f).sum := by
  induction list with
  | nil => exact absurd inside List.not_mem_nil
  | cons first more ih =>
    rcases List.mem_cons.mp inside with rfl | later
    · have others := sum_filter_le (f:=f) weaker more
      simp only [List.filter_cons_of_neg gone,List.filter_cons_of_pos held,List.map_cons,List.sum_cons]
      omega
    · have others := ih later
      by_cases kept : p first = true
      · simp only [List.filter_cons_of_pos kept,List.filter_cons_of_pos (weaker first kept),List.map_cons,
          List.sum_cons]
        omega
      · by_cases stays : q first = true
        · simp only [List.filter_cons_of_neg kept,List.filter_cons_of_pos stays,List.map_cons,List.sum_cons]
          omega
        · simpa [kept,stays] using others

theorem met_cons {path other : List Name} {value : Option (List Name)} {seen : List (List Name × Option (List Name))}
    {place : List Name} {more : List Todo} :
    Walk.met ⟨place,more,(other,value) :: seen⟩ path =
      if other = path then some value else Walk.met ⟨place,more,seen⟩ path := by
  by_cases same : other = path
  · simp [Walk.met,same]
  · simp [Walk.met,same]

theorem target_some {path : List Name} (found : target links path = some text) : (path,text) ∈ links := by
  obtain ⟨link,first,rfl⟩ := Option.map_eq_some_iff.mp found
  have same : link.1 = path := by simpa using List.find?_some first
  rw [← same]
  exact List.mem_of_find?_eq_some first

theorem enter_cases {name : Name} (entered : enter links walk name rest = some next) :
    (∃ place, next = { walk with path := place, rest := rest } ∧
      (place = walk.path ∨ place = walk.path.dropLast ∨
        (place = walk.path ++ [name] ∧ name ≠ []) ∨ walk.met (walk.path ++ [name]) = some (some place))) ∨
    ∃ text, target links (walk.path ++ [name]) = some text ∧ walk.met (walk.path ++ [name]) = none ∧
      next = ⟨if absolute text then [] else walk.path,names text ++ .resolved (walk.path ++ [name]) :: rest,
        (walk.path ++ [name],none) :: walk.seen⟩ := by
  unfold enter at entered
  by_cases skipped : name = [] ∨ name = curdir
  · rw [if_pos skipped] at entered
    cases entered
    exact .inl ⟨_,rfl,.inl rfl⟩
  rw [if_neg skipped] at entered
  have some_ : name ≠ [] := fun none_ => skipped (.inl none_)
  by_cases up : name = pardir
  · rw [if_pos up] at entered
    cases entered
    exact .inl ⟨_,rfl,.inr (.inl rfl)⟩
  rw [if_neg up] at entered
  by_cases refused : '\x00' ∈ name
  · rw [if_pos refused] at entered
    cases entered
  rw [if_neg refused] at entered
  cases found : target links (walk.path ++ [name]) with
  | none =>
    simp only [found,Option.some.injEq] at entered
    exact .inl ⟨_,entered.symm,.inr (.inr (.inl ⟨rfl,some_⟩))⟩
  | some text =>
    cases known : walk.met (walk.path ++ [name]) with
    | none =>
      simp only [found,known,Option.some.injEq] at entered
      exact .inr ⟨text,rfl,rfl,entered.symm⟩
    | some before =>
      cases before with
      | none =>
        simp only [found,known,Option.some.injEq] at entered
        exact .inl ⟨_,entered.symm,.inr (.inr (.inl ⟨rfl,some_⟩))⟩
      | some place =>
        simp only [found,known,Option.some.injEq] at entered
        exact .inl ⟨_,entered.symm,.inr (.inr (.inr rfl))⟩

theorem met_more {path other : List Name} {value : Option (List Name)} {place : List Name} {more : List Todo}
    (unmet : (Walk.met ⟨place,more,(other,value) :: walk.seen⟩ path).isNone = true) :
    (walk.met path).isNone = true := by
  rw [met_cons] at unmet
  split at unmet
  · cases unmet
  · exact unmet

theorem ahead_resolved {link : List Name} {value : Option (List Name)} :
    ahead links ⟨walk.path,rest,(link,value) :: walk.seen⟩ ≤ ahead links walk :=
  sum_filter_le (fun _ unmet => met_more unmet) links

theorem ahead_entered {path place : List Name} {more : List Todo} (found : target links path = some text)
    (unmet : walk.met path = none) :
    ahead links ⟨place,more,(path,none) :: walk.seen⟩ + ((split text).length + 1) ≤ ahead links walk := by
  refine sum_filter_drop (f:=fun link : List Name × List Char => (split link.2).length + 1)
    (fun _ unmet => met_more unmet) (target_some found) ?_ ?_
  · simp [unmet]
  · simp [met_cons]

theorem advance_left (turned : advance links walk todo rest = some next) :
    next.left links < Walk.left links { walk with rest := todo :: rest } := by
  show next.rest.length + ahead links next < (todo :: rest).length + ahead links walk
  cases todo with
  | resolved link =>
    cases turned
    have fewer := @ahead_resolved links walk rest link (some walk.path)
    simp only [List.length_cons]
    omega
  | name name =>
    rcases enter_cases turned with stayed | entered
    · obtain ⟨place,rfl,_⟩ := stayed
      have same : ahead links { walk with path := place, rest := rest } = ahead links walk := rfl
      simp only [List.length_cons,same]
      omega
    · obtain ⟨text,found,unmet,rfl⟩ := entered
      have fewer := @ahead_entered links walk text _ (if absolute text then [] else walk.path)
        (names text ++ .resolved (walk.path ++ [name]) :: rest) found unmet
      simp only [names,List.length_append,List.length_cons,List.length_map] at fewer ⊢
      omega

theorem walkOn_ends (fuel : Nat) (enough : walk.left links ≤ fuel) : (walkOn links fuel walk).isSome := by
  induction fuel generalizing walk with
  | zero =>
    unfold walkOn
    cases rest : walk.rest with
    | nil => rfl
    | cons todo more => simp [Walk.left,rest] at enough
  | succ fuel ih =>
    unfold walkOn
    cases rest : walk.rest with
    | nil => rfl
    | cons todo more =>
      have same : walk = { walk with rest := todo :: more } := by rw [← rest]
      cases turned : advance links walk todo more with
      | none => simp [turned]
      | some next =>
        simp only [turned]
        have nearer := advance_left turned
        rw [← same] at nearer
        exact ih (by omega)

def realpath (links : Links) (cwd : List Name) (text : List Char) : Ending :=
  (walkOn links ((start cwd text).left links) (start cwd text)).get (walkOn_ends _ (Nat.le_refl _))

-- Where a walk is, and where the links lead, is said with plain names.
structure Proper (walk : Walk) : Prop where
  path : ∀ name ∈ walk.path, Plain name
  rest : ∀ name, .name name ∈ walk.rest → '/' ∉ name
  seen : ∀ entry ∈ walk.seen, ∀ place, entry.2 = some place → ∀ name ∈ place, Plain name

theorem proper_snoc {path : List Name} {name : Name} (plain : ∀ name ∈ path, Plain name) (some_ : name ≠ [])
    (inner : '/' ∉ name) : ∀ other ∈ path ++ [name], Plain other := by
  intro other inside
  rcases List.mem_append.mp inside with before | last
  · exact plain other before
  · rw [List.mem_singleton.mp last]
    exact ⟨some_,inner⟩

theorem names_inner {name : Name} (inside : .name name ∈ names text) : '/' ∉ name := by
  obtain ⟨part,held,same⟩ := List.mem_map.mp inside
  cases same
  exact split_inner text name held

theorem advance_proper (proper : Proper walk) (first : walk.rest = todo :: rest)
    (turned : advance links walk todo rest = some next) : Proper next := by
  have others : ∀ name, .name name ∈ rest → '/' ∉ name := by
    intro name inside
    exact proper.rest name (first ▸ List.mem_cons_of_mem _ inside)
  cases todo with
  | resolved link =>
    cases turned
    refine ⟨proper.path,others,?_⟩
    intro entry inside place leads
    rcases List.mem_cons.mp inside with rfl | before
    · cases leads
      exact proper.path
    · exact proper.seen entry before place leads
  | name name =>
    have inner : '/' ∉ name := proper.rest name (first ▸ List.mem_cons_self)
    rcases enter_cases turned with stayed | entered
    · obtain ⟨place,rfl,where_⟩ := stayed
      refine ⟨?_,others,proper.seen⟩
      rcases where_ with rfl | rfl | ⟨rfl,some_⟩ | known
      · exact proper.path
      · intro other inside
        exact proper.path other (List.dropLast_subset _ inside)
      · exact proper_snoc proper.path some_ inner
      · obtain ⟨entry,found,leads⟩ := Option.map_eq_some_iff.mp known
        exact proper.seen entry (List.mem_of_find?_eq_some found) place leads
    · obtain ⟨text,found,unmet,rfl⟩ := entered
      refine ⟨?_,?_,?_⟩
      · intro other inside
        split at inside
        · exact absurd inside List.not_mem_nil
        · exact proper.path other inside
      · intro other inside
        rcases List.mem_append.mp inside with added | before
        · exact names_inner added
        · rcases List.mem_cons.mp before with same | later
          · cases same
          · exact others other later
      · intro entry inside place leads
        rcases List.mem_cons.mp inside with rfl | before
        · cases leads
        · exact proper.seen entry before place leads

theorem walkOn_proper {path : List Name} (fuel : Nat) (proper : Proper walk)
    (ends : walkOn links fuel walk = some (.arrived path)) : ∀ name ∈ path, Plain name := by
  induction fuel generalizing walk with
  | zero =>
    unfold walkOn at ends
    cases rest : walk.rest with
    | nil =>
      simp only [rest,Option.some.injEq,Ending.arrived.injEq] at ends
      exact ends ▸ proper.path
    | cons todo more => simp [rest] at ends
  | succ fuel ih =>
    unfold walkOn at ends
    cases rest : walk.rest with
    | nil =>
      simp only [rest,Option.some.injEq,Ending.arrived.injEq] at ends
      exact ends ▸ proper.path
    | cons todo more =>
      cases turned : advance links walk todo more with
      | none => simp [rest,turned] at ends
      | some next =>
        simp only [rest,turned] at ends
        exact ih (advance_proper proper rest turned) ends

theorem realpath_plain {cwd path : List Name} (working : ∀ name ∈ cwd, Plain name)
    (arrived : realpath links cwd text = .arrived path) : ∀ name ∈ path, Plain name := by
  have proper : Proper (start cwd text) := by
    refine ⟨?_,fun name inside => names_inner inside,fun _ inside => absurd inside List.not_mem_nil⟩
    intro name inside
    simp only [start] at inside
    split at inside
    · exact absurd inside List.not_mem_nil
    · exact working name inside
  have ends : walkOn links ((start cwd text).left links) (start cwd text) = some (.arrived path) := by
    rw [← arrived,realpath,Option.some_get]
  exact walkOn_proper _ proper ends

theorem prefix_before_slash {name other more : List Char} (inner : '/' ∉ name) :
    name <+: other ++ '/' :: more ↔ name <+: other := by
  induction name generalizing other with
  | nil => simp
  | cons char rest ih =>
    obtain ⟨apart,others⟩ := not_or.mp (List.mem_cons.not.mp inner)
    cases other with
    | nil => simp [List.cons_prefix_cons,Ne.symm apart]
    | cons first later =>
      rw [List.cons_append,List.cons_prefix_cons,List.cons_prefix_cons,ih others]

theorem prefix_through_slash {name other front back : List Char} (inner : '/' ∉ name) (plain : '/' ∉ other) :
    name ++ '/' :: front <+: other ++ '/' :: back ↔ name = other ∧ front <+: back := by
  induction name generalizing other with
  | nil =>
    cases other with
    | nil => simp [List.cons_prefix_cons]
    | cons first later =>
      obtain ⟨apart,_⟩ := not_or.mp (List.mem_cons.not.mp plain)
      simp [List.cons_prefix_cons,apart]
  | cons char rest ih =>
    obtain ⟨apart,others⟩ := not_or.mp (List.mem_cons.not.mp inner)
    cases other with
    | nil => simp [List.cons_prefix_cons,Ne.symm apart]
    | cons first later =>
      obtain ⟨_,plain⟩ := not_or.mp (List.mem_cons.not.mp plain)
      rw [List.cons_append,List.cons_append,List.cons_prefix_cons,ih others plain,List.cons.injEq,and_assoc]

theorem join_cons {name next : Name} {rest : List Name} :
    join (name :: next :: rest) = name ++ '/' :: join (next :: rest) := rfl

theorem join_prefix_iff {front parts : List Name} {last : Name} (leading : ∀ name ∈ front, Plain name)
    (plain : Plain last) (others : ∀ name ∈ parts, Plain name) :
    join (front ++ [last]) <+: join parts ↔
      ∃ name back, parts = front ++ name :: back ∧ last <+: name := by
  induction front generalizing parts with
  | nil =>
    rcases parts with _ | ⟨first,_ | ⟨second,rest⟩⟩
    · simp [join,plain.some_]
    · simp [join]
    · rw [join_cons,List.nil_append,join,prefix_before_slash plain.inner]
      simp
  | cons head more ih =>
    have own := leading head List.mem_cons_self
    have left : join (head :: more ++ [last]) = head ++ '/' :: join (more ++ [last]) := by
      cases more with
      | nil => rfl
      | cons next rest => rfl
    rw [left]
    rcases parts with _ | ⟨first,_ | ⟨second,rest⟩⟩
    · simp [join]
    · have single := others first List.mem_cons_self
      constructor
      · intro begins
        exact absurd (begins.subset (List.mem_append_right _ List.mem_cons_self)) single.inner
      · intro found
        obtain ⟨name,back,same,_⟩ := found
        simp at same
    · have single := others first List.mem_cons_self
      have remaining : join (more ++ [last]) <+: join (second :: rest) ↔ _ :=
        ih (fun name inside => leading name (List.mem_cons_of_mem _ inside))
          fun name inside => others name (List.mem_cons_of_mem _ inside)
      rw [join_cons,prefix_through_slash own.inner single.inner,remaining]
      constructor
      · intro both
        obtain ⟨rfl,name,back,same,begins⟩ := both
        exact ⟨name,back,by rw [same,List.cons_append],begins⟩
      · intro found
        obtain ⟨name,back,same,begins⟩ := found
        rw [List.cons_append,List.cons.injEq] at same
        exact ⟨same.1.symm,name,back,same.2,begins⟩

def Below (base path : Path) : Prop := base.root = path.root ∧ base.parts <+: path.parts

-- One path at or under a sibling of another whose name goes on after the other's.
def Beside (base path : Path) : Prop :=
  base.root = path.root ∧ ∃ front last name back, base.parts = front ++ [last] ∧
    path.parts = front ++ name :: back ∧ last <+: name ∧ last ≠ name

theorem Below.not_beside {base path : Path} (below : Below base path) : ¬Beside base path := by
  intro beside
  obtain ⟨_,front,last,name,back,same,held,_,apart⟩ := beside
  obtain ⟨more,whole⟩ := below.2
  rw [same,held,List.append_assoc,List.singleton_append] at whole
  have tails := List.append_cancel_left whole
  exact apart (List.cons.inj tails).1

theorem parse_plain (text : List Char) : ∀ name ∈ (parse text).parts, Plain name := by
  intro name inside
  obtain ⟨held,kept⟩ := List.mem_filter.mp inside
  simp only [decide_eq_true_eq] at kept
  exact ⟨kept.1,split_inner text name held⟩

theorem root_cases (text : List Char) : rootOf text = [] ∨ rootOf text = ['/'] ∨ rootOf text = ['/','/'] := by
  unfold rootOf
  split <;> simp

theorem join_head {parts : List Name} (plain : ∀ name ∈ parts, Plain name) :
    (join parts).head? ≠ some '/' := by
  rcases parts with _ | ⟨first,rest⟩
  · simp [join]
  · obtain ⟨some_,inner⟩ := plain first List.mem_cons_self
    obtain ⟨char,more,rfl⟩ := List.exists_cons_of_ne_nil some_
    have apart : char ≠ '/' := fun same => inner (same ▸ List.mem_cons_self)
    cases rest with
    | nil => simpa [join] using apart
    | cons next others => simpa [join] using apart

theorem str_rooted {path : Path} (rooted : path.root ≠ []) : path.str = path.root ++ join path.parts := by
  rw [Path.str,if_neg fun both => rooted both.1]

theorem str_single {path : Path} (single : path.root = ['/']) : path.str = '/' :: join path.parts := by
  rw [str_rooted (by simp [single]),single]
  rfl

section
variable {base path : Path}

theorem unrelated (apart : base.root ≠ path.root) : ¬(Below base path ∨ Beside base path) := by
  intro either
  rcases either with below | beside
  · exact apart below.1
  · exact apart beside.1

theorem str_relative_head (relative : base.root = []) (leading : ∀ name ∈ base.parts, Plain name) :
    base.str.head? ≠ some '/' ∧ base.str ≠ [] := by
  by_cases empty : base.parts = []
  · rw [Path.str,if_pos ⟨relative,empty⟩]
    simp [curdir]
  · rw [Path.str,if_neg fun both => empty both.2,relative,List.nil_append]
    refine ⟨join_head leading,?_⟩
    obtain ⟨name,rest,split⟩ := List.exists_cons_of_ne_nil empty
    have some_ := (leading name (split ▸ List.mem_cons_self)).some_
    rw [split]
    cases rest with
    | nil => exact some_
    | cons next more => simp [join]

theorem relative_not_prefix (relative : base.root = []) (leading : ∀ name ∈ base.parts, Plain name)
    (text : List Char) : ¬base.str <+: '/' :: text := by
  intro begins
  have first := str_relative_head relative leading
  obtain ⟨char,more,split⟩ := List.exists_cons_of_ne_nil first.2
  rw [split,List.cons_prefix_cons] at begins
  rw [split,begins.1] at first
  exact first.1 rfl

theorem double_not_prefix (two : base.root = ['/','/']) {names : List (List Char)}
    (others : ∀ name ∈ names, Plain name) : ¬base.str <+: '/' :: join names := by
  intro begins
  rw [str_rooted (by simp [two]),two,List.cons_append,List.cons_prefix_cons] at begins
  obtain ⟨more,same⟩ := begins.2
  have first := join_head others
  rw [← same] at first
  exact first rfl

theorem rooted_prefix_iff (one : base.root = ['/']) (leading : ∀ name ∈ base.parts, Plain name)
    (at_root : path.root = ['/']) (others : ∀ name ∈ path.parts, Plain name) :
    base.str <+: path.str ↔ Below base path ∨ Beside base path := by
  rw [str_single at_root,str_single one,List.cons_prefix_cons]
  simp only [Below,Beside,one,at_root,true_and]
  rcases List.eq_nil_or_concat base.parts with empty | ⟨front,last,split⟩
  · simp [empty,join]
  · rw [List.concat_eq_append] at split
    rw [split] at leading ⊢
    rw [join_prefix_iff (fun name inside => leading name (List.mem_append_left _ inside))
      (leading last (List.mem_append_right _ (List.mem_singleton_self _))) others]
    constructor
    · intro found
      obtain ⟨name,back,same,begins⟩ := found
      by_cases equal : last = name
      · exact .inl ⟨back,by rw [same,equal,List.append_assoc,List.singleton_append]⟩
      · exact .inr ⟨front,last,name,back,rfl,same,begins,equal⟩
    · intro either
      rcases either with below | beside
      · obtain ⟨back,same⟩ := below
        exact ⟨last,back,by rw [← same,List.append_assoc,List.singleton_append],List.prefix_refl _⟩
      · obtain ⟨before,name,other,back,same,held,begins,_⟩ := beside
        obtain ⟨rfl,only⟩ := List.append_inj' same rfl
        cases only
        exact ⟨other,back,held,begins⟩

theorem str_prefix_iff (root : base.root = [] ∨ base.root = ['/'] ∨ base.root = ['/','/'])
    (leading : ∀ name ∈ base.parts, Plain name) (at_root : path.root = ['/'])
    (others : ∀ name ∈ path.parts, Plain name) :
    base.str <+: path.str ↔ Below base path ∨ Beside base path := by
  rcases root with relative | one | two
  · rw [str_single at_root,iff_false_right (unrelated (by simp [relative,at_root]))]
    exact relative_not_prefix relative leading _
  · exact rooted_prefix_iff one leading at_root others
  · rw [str_single at_root,iff_false_right (unrelated (by simp [two,at_root]))]
    exact double_not_prefix two others

end

theorem parse_root {names : List Name} (plain : ∀ name ∈ names, Plain name) :
    (parse ('/' :: join names)).root = ['/'] := by
  have first := join_head plain
  show rootOf ('/' :: join names) = ['/']
  cases text : join names with
  | nil => rfl
  | cons char rest =>
    rw [text] at first
    have apart : char ≠ '/' := by simpa using first
    simp [rootOf,apart]

end PosixPath
