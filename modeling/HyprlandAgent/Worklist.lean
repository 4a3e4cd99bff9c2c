import Mathlib.Data.List.Basic
import Mathlib.Logic.Relation

-- Depth-first search with a stack and a set of seen nodes, over a finite list of edges.
namespace Worklist
variable {α : Type*} {edges : List (α × α)} {goal : α → Bool}

def Link (edges : List (α × α)) (one two : α) : Prop := (one,two) ∈ edges

def Reaches (edges : List (α × α)) : α → α → Prop := Relation.ReflTransGen (Link edges)

structure Frontier (edges : List (α × α)) (goal : α → Bool) (start : α) (stack seen : List α) : Prop where
  started : start ∈ seen ∨ start ∈ stack
  closed : ∀ one ∈ seen, ∀ two, Link edges one two → two ∈ seen ∨ two ∈ stack
  passed : ∀ one ∈ seen, goal one = false
  reached : ∀ one ∈ stack, Reaches edges start one

theorem Frontier.initial (start : α) : Frontier edges goal start [start] [] where
  started := .inr (List.mem_singleton_self start)
  closed := by intro one member; cases member
  passed := by intro one member; cases member
  reached := by
    intro one member
    cases List.mem_singleton.mp member
    exact .refl

theorem Frontier.skip {start current : α} {stack seen : List α}
    (frontier : Frontier edges goal start (current :: stack) seen) (before : current ∈ seen) :
    Frontier edges goal start stack seen where
  started := by
    rcases frontier.started with known | pushed
    · exact .inl known
    · rcases List.mem_cons.mp pushed with rfl | later
      · exact .inl before
      · exact .inr later
  closed := by
    intro one member two link
    rcases frontier.closed one member two link with known | pushed
    · exact .inl known
    · rcases List.mem_cons.mp pushed with rfl | later
      · exact .inl before
      · exact .inr later
  passed := frontier.passed
  reached := fun one member => frontier.reached one (List.mem_cons_of_mem _ member)

theorem Frontier.exhausted {start node : α} {seen : List α}
    (frontier : Frontier edges goal start [] seen) (path : Reaches edges start node) : node ∈ seen := by
  induction path with
  | refl => exact frontier.started.resolve_right List.not_mem_nil
  | tail _ link ih => exact (frontier.closed _ ih _ link).resolve_right List.not_mem_nil

variable [DecidableEq α]

def next (edges : List (α × α)) (node : α) : List α :=
  (edges.filter fun edge => edge.1 = node).map Prod.snd

-- The head of the list is the top of the stack: what was pushed last is taken first.
def search (edges : List (α × α)) (goal : α → Bool) : Nat → List α → List α → Option Bool
  | 0,_,_ => none
  | _ + 1,[],_ => some false
  | fuel + 1,current :: stack,seen =>
    if current ∈ seen then search edges goal fuel stack seen
    else if goal current then some true
    else search edges goal fuel ((next edges current).reverse ++ stack) (current :: seen)

theorem mem_next {one two : α} : two ∈ next edges one ↔ Link edges one two := by
  simp [next,Link]

def unseen (edges : List (α × α)) (seen : List α) : Nat :=
  (edges.filter fun edge => edge.1 ∉ seen).length

theorem unseen_nil : unseen edges [] = edges.length := by simp [unseen]

theorem unseen_cons {current : α} {seen : List α} (fresh : current ∉ seen) :
    unseen edges (current :: seen) + (next edges current).length = unseen edges seen := by
  induction edges with
  | nil => rfl
  | cons edge edges ih =>
    simp only [unseen,next,List.length_map,List.filter_cons,List.mem_cons] at ih ⊢
    by_cases same : edge.1 = current
    · simp only [same,fresh,true_or,not_true_eq_false,decide_false,decide_true,if_true,
        not_false_eq_true,List.length_cons,Bool.false_eq_true,if_false]
      omega
    · by_cases before : edge.1 ∈ seen
      · simpa [same,before] using ih
      · simp only [same,before,or_self,not_false_eq_true,decide_true,decide_false,if_true,
          List.length_cons,Bool.false_eq_true,if_false]
        omega

-- Every turn takes a node off the stack, and each edge puts one there at most once.
theorem search_ends (fuel : Nat) (stack seen : List α)
    (enough : stack.length + unseen edges seen < fuel) :
    ∃ found, search edges goal fuel stack seen = some found := by
  induction fuel generalizing stack seen with
  | zero => omega
  | succ fuel ih =>
    cases stack with
    | nil => exact ⟨false,rfl⟩
    | cons current stack =>
      simp only [List.length_cons] at enough
      rw [search]
      split
      · exact ih _ _ (by omega)
      · rename_i fresh
        split
        · exact ⟨true,rfl⟩
        · have spent : unseen edges (current :: seen) + (next edges current).length =
              unseen edges seen := unseen_cons fresh
          refine ih _ _ ?_
          simp only [List.length_append,List.length_reverse]
          omega

theorem Frontier.visit {start current : α} {stack seen : List α}
    (frontier : Frontier edges goal start (current :: stack) seen) (misses : goal current = false) :
    Frontier edges goal start ((next edges current).reverse ++ stack) (current :: seen) where
  started := by
    rcases frontier.started with known | pushed
    · exact .inl (List.mem_cons_of_mem _ known)
    · rcases List.mem_cons.mp pushed with rfl | later
      · exact .inl List.mem_cons_self
      · exact .inr (List.mem_append_right _ later)
  closed := by
    intro one member two link
    rcases List.mem_cons.mp member with rfl | old
    · exact .inr (List.mem_append_left _ (List.mem_reverse.mpr (mem_next.mpr link)))
    · rcases frontier.closed one old two link with known | pushed
      · exact .inl (List.mem_cons_of_mem _ known)
      · rcases List.mem_cons.mp pushed with rfl | later
        · exact .inl List.mem_cons_self
        · exact .inr (List.mem_append_right _ later)
  passed := by
    intro one member
    rcases List.mem_cons.mp member with rfl | old
    · exact misses
    · exact frontier.passed one old
  reached := by
    intro one member
    rcases List.mem_append.mp member with pushed | old
    · have link := mem_next.mp (List.mem_reverse.mp pushed)
      exact (frontier.reached current List.mem_cons_self).tail link
    · exact frontier.reached one (List.mem_cons_of_mem _ old)

theorem search_exact {start : α} (fuel : Nat) (stack seen : List α) (found : Bool)
    (frontier : Frontier edges goal start stack seen)
    (ended : search edges goal fuel stack seen = some found) :
    found = true ↔ ∃ node, Reaches edges start node ∧ goal node = true := by
  induction fuel generalizing stack seen with
  | zero => cases ended
  | succ fuel ih =>
    cases stack with
    | nil =>
      cases Option.some.inj ended
      constructor
      · intro absurd
        cases absurd
      · rintro ⟨node,path,marked⟩
        have clear := frontier.passed node (frontier.exhausted path)
        rw [marked] at clear
        exact clear.symm
    | cons current stack =>
      rw [search] at ended
      split at ended
      · rename_i before
        exact ih _ _ (frontier.skip before) ended
      · split at ended
        · rename_i marked
          cases Option.some.inj ended
          exact ⟨fun _ => ⟨current,frontier.reached current List.mem_cons_self,marked⟩,fun _ => rfl⟩
        · rename_i misses
          exact ih _ _ (frontier.visit (Bool.not_eq_true _ ▸ misses)) ended

theorem search_from {start : α} {fuel : Nat} (enough : edges.length + 1 < fuel) :
    ∃ found, search edges goal fuel [start] [] = some found ∧
      (found = true ↔ ∃ node, Reaches edges start node ∧ goal node = true) := by
  have bound : [start].length + unseen edges [] < fuel := by
    rw [unseen_nil,List.length_singleton]
    omega
  obtain ⟨found,ended⟩ := search_ends fuel [start] [] bound
  exact ⟨found,ended,search_exact fuel [start] [] found (.initial start) ended⟩

end Worklist
