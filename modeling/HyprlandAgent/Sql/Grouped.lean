import Mathlib
import HyprlandAgent.Sql.Keyed

-- Joins on a key and the counts of groups.
namespace Sql.Keyed
variable {ρ σ κ : Type} [DecidableEq κ] {key : ρ → κ} {left : σ → κ} {rows : List ρ} {others : List σ} {k : κ}

-- `FROM others JOIN rows ON key = left`
def join (left : σ → κ) (key : ρ → κ) (others : List σ) (rows : List ρ) : List (σ × ρ) :=
  others.flatMap fun other => (select key (left other) rows).map fun row => (other,row)

-- `SELECT key, COUNT(*) ... GROUP BY key`
def counted (key : ρ → κ) (rows : List ρ) : List (κ × Nat) :=
  (rows.map key).dedup.map fun k => (k,(select key k rows).length)

theorem count_select : (select key k rows).length = (rows.map key).count k := by
  rw [select,← List.countP_eq_length_filter,List.count,List.countP_map]
  refine List.countP_congr fun row _ => ?_
  simp

theorem mem_counted {n : Nat} : (k,n) ∈ counted key rows ↔ 0 < n ∧ n = (select key k rows).length := by
  unfold counted
  rw [List.mem_map]
  constructor
  · rintro ⟨_,there,⟨⟩⟩
    rw [count_select]
    exact ⟨List.count_pos_iff.mpr (List.mem_dedup.mp there),rfl⟩
  · rintro ⟨some_,rfl⟩
    rw [count_select] at some_
    exact ⟨k,List.mem_dedup.mpr (List.count_pos_iff.mp some_),rfl⟩

theorem counted_keys : ((counted key rows).map Prod.fst).Nodup := by
  unfold counted
  rw [List.map_map,show Prod.fst ∘ (fun k => (k,(select key k rows).length)) = id from rfl,List.map_id]
  exact List.nodup_dedup _

theorem counted_total : ((counted key rows).map Prod.snd).sum = rows.length := by
  unfold counted
  rw [List.map_map,show (rows.map key).dedup.map (Prod.snd ∘ fun k => (k,(select key k rows).length)) =
    (rows.map key).dedup.map fun k => (rows.map key).count k from List.map_congr_left fun k _ => count_select,
    List.sum_map_count_dedup_eq_length,List.length_map]

theorem countP_or {p q : ρ → Bool} (apart : ∀ row ∈ rows, p row = true → q row = false) :
    rows.countP (fun row => p row || q row) = rows.countP p + rows.countP q := by
  induction rows with
  | nil => rfl
  | cons row rest ih =>
    rw [List.countP_cons,List.countP_cons,List.countP_cons,
      ih fun other inside => apart other (List.mem_cons_of_mem _ inside)]
    cases first : p row with
    | false => simp only [Bool.false_or,Bool.false_eq_true,if_false,Nat.add_zero,Nat.add_assoc]
    | true =>
      rw [apart row List.mem_cons_self first]
      simp only [Bool.true_or,Bool.false_eq_true,if_true,if_false,Nat.add_zero]
      omega

theorem mem_join {other : σ} {row : ρ} :
    (other,row) ∈ join left key others rows ↔ other ∈ others ∧ row ∈ rows ∧ key row = left other := by
  unfold join
  rw [List.mem_flatMap]
  constructor
  · rintro ⟨_,there,paired⟩
    obtain ⟨_,found,⟨⟩⟩ := List.mem_map.mp paired
    exact ⟨there,mem_select.mp found⟩
  · rintro ⟨there,found⟩
    exact ⟨other,there,List.mem_map_of_mem (mem_select.mpr found)⟩

theorem join_keys (unique : Unique left others) (alone : Unique key rows) :
    ((join left key others rows).map fun pair => key pair.2).Nodup := by
  have within : ((join left key others rows).map fun pair => key pair.2).Sublist (others.map left) := by
    clear unique
    induction others with
    | nil => exact List.Sublist.refl _
    | cons other rest ih =>
      unfold join at ih ⊢
      rw [List.flatMap_cons,List.map_append,List.map_map]
      cases found : select key (left other) rows with
      | nil => exact ih.cons _
      | cons row more =>
        have inside : row ∈ select key (left other) rows := by rw [found]; exact List.mem_cons_self
        obtain ⟨there,same⟩ := mem_select.mp inside
        have only := alone.alone there
        rw [same,found] at only
        cases only
        rw [List.map_cons,List.map_nil,List.singleton_append,Function.comp_apply,List.map_cons,same]
        exact ih.cons_cons _
  exact within.nodup unique

theorem length_join (unique : Unique left others) (p : σ × ρ → Bool) :
    ((join left key others rows).filter p).length =
      rows.countP fun row => (select left (key row) others).any fun other => p (other,row) := by
  induction others with
  | nil => exact (congrFun List.countP_false rows).symm
  | cons first rest ih =>
    unfold Unique at unique ih
    rw [List.map_cons,List.nodup_cons] at unique
    have split (row : ρ) : ((select left (key row) (first :: rest)).any fun other => p (other,row)) =
        ((key row = left first && p (first,row)) || (select left (key row) rest).any fun other => p (other,row)) := by
      unfold select
      rw [List.filter_cons]
      by_cases same : left first = key row
      · rw [if_pos (decide_eq_true same),List.any_cons,decide_eq_true same.symm,Bool.true_and]
      · rw [if_neg (fun there => same (of_decide_eq_true there)),
          decide_eq_false fun there => same there.symm,Bool.false_and,Bool.false_or]
    have apart (row : ρ) (_ : row ∈ rows) (here : (decide (key row = left first) && p (first,row)) = true) :
        ((select left (key row) rest).any fun other => p (other,row)) = false := by
      rw [Bool.and_eq_true,decide_eq_true_eq] at here
      have none_ : select left (key row) rest = [] := by
        rw [select_nil_iff,← Bool.not_eq_true,taken_iff,here.1]
        exact unique.1
      rw [none_]
      rfl
    rw [List.countP_congr (fun row _ => by rw [split]),countP_or apart,← ih unique.2]
    unfold join
    rw [List.flatMap_cons,List.filter_append,List.length_append,List.filter_map,List.length_map,
      ← List.countP_eq_length_filter,select,List.countP_filter]
    refine congrArg (· + _) (List.countP_congr fun row _ => ?_)
    simp only [Function.comp_apply,Bool.and_comm]

end Sql.Keyed
