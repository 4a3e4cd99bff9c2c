import Mathlib.Data.List.DropRight

-- A bounded queue that makes room for a new item by dropping its oldest, beside what
-- its consumer has taken from it.
namespace LossyQueue
variable {α : Type*} {capacity : Nat}

structure Lane (α : Type*) where
  taken : List α := []
  queued : List α := []

inductive Op (α : Type*) where
  | offer (item : α)
  | take

def Lane.all (lane : Lane α) : List α := lane.taken ++ lane.queued

def Lane.step (capacity : Nat) (lane : Lane α) : Op α → Lane α
  | .offer item =>
    { lane with
      queued := (if lane.queued.length < capacity then lane.queued else lane.queued.tail) ++ [item] }
  | .take =>
    match lane.queued with
    | [] => lane
    | item :: rest => ⟨lane.taken ++ [item],rest⟩

def Lane.run (capacity : Nat) (lane : Lane α) (ops : List (Op α)) : Lane α :=
  ops.foldl (Lane.step capacity) lane

def Op.offered : Op α → Option α
  | .offer item => some item
  | .take => none

def offers (ops : List (Op α)) : List α := ops.filterMap Op.offered

@[simp] theorem offers_append (one two : List (Op α)) : offers (one ++ two) = offers one ++ offers two :=
  List.filterMap_append

@[simp] theorem offers_take : offers [(.take : Op α)] = [] := rfl

@[simp] theorem offers_offer (item : α) : offers [.offer item] = [item] := rfl

theorem run_snoc (lane : Lane α) (ops : List (Op α)) (op : Op α) :
    lane.run capacity (ops ++ [op]) = (lane.run capacity ops).step capacity op := by
  simp [Lane.run]

theorem step_offer (lane : Lane α) (item : α) : (lane.step capacity (.offer item)).queued =
    (if lane.queued.length < capacity then lane.queued else lane.queued.tail) ++ [item] := rfl

theorem step_take (lane : Lane α) : (lane.step capacity .take).all = lane.all := by
  obtain ⟨taken,queued⟩ := lane
  cases queued with
  | nil => rfl
  | cons item rest => simp [Lane.all,Lane.step]

theorem take_suffix (lane : Lane α) : (lane.step capacity .take).queued <:+ lane.queued := by
  obtain ⟨taken,queued⟩ := lane
  cases queued with
  | nil => exact List.suffix_rfl
  | cons item rest => exact List.suffix_cons item rest

theorem offer_suffix (lane : Lane α) (item : α) :
    (lane.step capacity (.offer item)).queued <:+ lane.queued ++ [item] := by
  rw [step_offer]
  split
  · exact List.suffix_rfl
  · obtain ⟨front,same⟩ := List.tail_suffix lane.queued
    exact ⟨front,by rw [← List.append_assoc,same]⟩

theorem offer_sublist (lane : Lane α) (item : α) :
    (lane.step capacity (.offer item)).all.Sublist (lane.all ++ [item]) := by
  have kept : (lane.step capacity (.offer item)).queued.Sublist (lane.queued ++ [item]) :=
    (offer_suffix lane item).sublist
  have grown := kept.append_left lane.taken
  rwa [← List.append_assoc] at grown

theorem run_sublist (ops : List (Op α)) : (Lane.run capacity {} ops).all.Sublist (offers ops) := by
  induction ops using List.reverseRecOn with
  | nil => exact List.Sublist.refl _
  | append_singleton ops op ih =>
    rw [run_snoc,offers_append]
    cases op with
    | offer item => exact (offer_sublist _ item).trans (ih.append_right [item])
    | take =>
      rw [step_take]
      simpa using ih

theorem run_newest (ops : List (Op α)) :
    (Lane.run capacity {} ops).all.getLast? = (offers ops).getLast? := by
  induction ops using List.reverseRecOn with
  | nil => rfl
  | append_singleton ops op ih =>
    rw [run_snoc,offers_append]
    cases op with
    | offer item => simp [Lane.all,step_offer]
    | take =>
      rw [step_take]
      simpa using ih

theorem run_within (lane : Lane α) (room : 0 < capacity) (within : lane.queued.length ≤ capacity)
    (ops : List (Op α)) : (lane.run capacity ops).queued.length ≤ capacity := by
  induction ops using List.reverseRecOn with
  | nil => exact within
  | append_singleton ops op ih =>
    rw [run_snoc]
    cases op with
    | offer item =>
      rw [step_offer,List.length_append,List.length_singleton]
      split
      · omega
      · rw [List.length_tail]
        omega
    | take => exact (take_suffix _).length_le.trans ih

theorem offer_rtake (lane : Lane α) (room : 0 < capacity) (within : lane.queued.length ≤ capacity)
    (item : α) :
    (lane.step capacity (.offer item)).queued = (lane.queued ++ [item]).rtake capacity := by
  rw [step_offer,List.rtake,List.length_append,List.length_singleton]
  split
  · rw [show lane.queued.length + 1 - capacity = 0 by omega,List.drop_zero]
  · rw [show lane.queued.length + 1 - capacity = 1 by omega,List.drop_append_of_le_length (by omega),
      List.drop_one]

theorem rtake_rtake_append (front back : List α) (n : Nat) :
    (front.rtake n ++ back).rtake n = (front ++ back).rtake n := by
  simp only [List.rtake_eq_reverse_take_reverse,List.reverse_append,List.reverse_reverse,
    List.take_append,List.take_take]
  congr 3
  omega

theorem run_offers (lane : Lane α) (room : 0 < capacity) (within : lane.queued.length ≤ capacity)
    (items : List α) :
    (lane.run capacity (items.map .offer)).queued = (lane.queued ++ items).rtake capacity := by
  induction items using List.reverseRecOn with
  | nil =>
    rw [List.append_nil,List.rtake,Nat.sub_eq_zero_of_le within,List.drop_zero]
    rfl
  | append_singleton items item ih =>
    rw [List.map_append,List.map_singleton,run_snoc,
      offer_rtake _ room (run_within lane room within _),ih,rtake_rtake_append,List.append_assoc]

end LossyQueue
