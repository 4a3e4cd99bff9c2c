import Mathlib.Data.List.Infix

-- What stands at some places of a list, for those who know the items of a history by
-- the order in which they came.
namespace Places
variable {α β : Type*} {items : List α} {places later : List Nat} {n : Nat}

def pick (items : List α) (places : List Nat) : List α := places.filterMap fun i => items[i]?

theorem pick_append (items : List α) (one two : List Nat) : pick items (one ++ two) = pick items one ++ pick items two :=
  List.filterMap_append ..

theorem pick_first (within : n ≤ items.length) : pick items (List.range n) = items.take n := by
  induction n with
  | zero => rfl
  | succ n ih =>
    have inside : n < items.length := within
    rw [List.range_succ,pick_append,ih (Nat.le_of_lt inside),List.take_add_one]
    simp [pick,List.getElem?_eq_getElem inside]

@[simp] theorem pick_range (items : List α) : pick items (List.range items.length) = items := by
  rw [pick_first (Nat.le_refl _),List.take_length]

theorem pick_prefix (within : n ≤ items.length) (order : places ++ later = List.range n) : pick items places <+: items := by
  have whole := pick_first within
  rw [← order,pick_append] at whole
  exact (whole ▸ List.prefix_append _ _ : _ <+: items.take n).trans (List.take_prefix n items)

theorem pick_sublist (order : List.Sublist places (List.range items.length)) : List.Sublist (pick items places) items := by
  have picked := order.filterMap fun i => items[i]?
  have whole := pick_range items
  unfold pick at whole ⊢
  rwa [whole] at picked

theorem map_pick (f : α → β) (default : β) (inside : ∀ i ∈ places, i < items.length) :
    places.map (fun i => (items[i]?.map f).getD default) = (pick items places).map f := by
  induction places with
  | nil => rfl
  | cons i rest ih =>
    have here := List.getElem?_eq_getElem (inside i List.mem_cons_self)
    rw [List.map_cons,ih fun j later => inside j (List.mem_cons_of_mem _ later),pick,pick,List.filterMap_cons,here]
    rfl

end Places
