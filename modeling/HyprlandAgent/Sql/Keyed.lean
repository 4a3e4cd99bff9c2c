import Mathlib.Data.List.Sort
import Mathlib.Order.OrderDual

-- The rows of one table: the statements that name a row by a key, and the reads that
-- order what they found.
namespace Sql.Keyed
variable {ρ κ π μ : Type} [DecidableEq κ] [DecidableEq π]

section
variable (key : ρ → κ)

-- `WHERE key = ?`
def select (k : κ) (rows : List ρ) : List ρ := rows.filter fun row => key row = k

def taken (k : κ) (rows : List ρ) : Bool := rows.any fun row => key row = k

-- `INSERT`; a key that is taken violates the constraint.
def insert (row : ρ) (rows : List ρ) : Option (List ρ) :=
  if taken key (key row) rows then none else some (rows ++ [row])

-- `UPDATE ... WHERE key = ?`
def update (k : κ) (change : ρ → ρ) (rows : List ρ) : List ρ :=
  rows.map fun row => if key row = k then change row else row

-- `INSERT ... ON CONFLICT(key) DO UPDATE`
def upsert (row : ρ) (change : ρ → ρ) (rows : List ρ) : List ρ :=
  if taken key (key row) rows then update key (key row) change rows else rows ++ [row]

-- `INSERT OR REPLACE`
def replace (row : ρ) (rows : List ρ) : List ρ := (rows.filter fun other => key other ≠ key row) ++ [row]

def Unique (rows : List ρ) : Prop := (rows.map key).Nodup

end

-- `ORDER BY measure DESC`; of equal rows the older one comes first.
def descending [LinearOrder μ] (measure : ρ → μ) (rows : List ρ) : List ρ :=
  rows.insertionSort fun one two => measure two ≤ measure one

-- `ORDER BY measure`
def ascending [LinearOrder μ] (measure : ρ → μ) (rows : List ρ) : List ρ :=
  descending (fun row => OrderDual.toDual (measure row)) rows

-- `LIMIT ?`; a negative limit is none.
def limited (limit : Int) (rows : List ρ) : List ρ :=
  if limit < 0 then rows else rows.take limit.toNat

variable {key : ρ → κ} {part : ρ → π} {k : κ} {row : ρ} {rows next : List ρ} {change : ρ → ρ}

theorem mem_select : row ∈ select key k rows ↔ row ∈ rows ∧ key row = k := by
  simp [select]

theorem select_append (one two : List ρ) : select key k (one ++ two) = select key k one ++ select key k two :=
  List.filter_append ..

theorem select_snoc_same : select key (key row) (rows ++ [row]) = select key (key row) rows ++ [row] := by
  rw [select_append]
  simp [select]

theorem select_snoc_other (other : key row ≠ k) : select key k (rows ++ [row]) = select key k rows := by
  rw [select_append]
  simp [select,other]

theorem select_update_same (stable : ∀ row, key (change row) = key row) :
    select key k (update key k change rows) = (select key k rows).map change := by
  induction rows with
  | nil => rfl
  | cons row rest ih =>
    unfold select update at ih ⊢
    rw [List.map_cons,List.filter_cons,List.filter_cons,ih]
    by_cases same : key row = k
    · simp [same,stable]
    · simp [same]

theorem select_update_other {other : κ} (stable : ∀ row, key (change row) = key row) (different : other ≠ k) :
    select key other (update key k change rows) = select key other rows := by
  induction rows with
  | nil => rfl
  | cons row rest ih =>
    unfold select update at ih ⊢
    rw [List.map_cons,List.filter_cons,List.filter_cons,ih]
    by_cases same : key row = k
    · simp [same,stable,different.symm]
    · simp [same]

theorem taken_iff : taken key k rows = true ↔ k ∈ rows.map key := by
  simp [taken]

theorem insert_iff : insert key row rows = some next ↔ key row ∉ rows.map key ∧ next = rows ++ [row] := by
  unfold insert
  rw [← taken_iff]
  split
  · rename_i there
    simp [there]
  · rename_i free
    simp [free,eq_comm]

theorem isSome_insert : (insert key row rows).isSome = !taken key (key row) rows := by
  unfold insert
  cases taken key (key row) rows with
  | true => rfl
  | false => rfl

theorem taken_select (refines : ∀ {one two : ρ}, key one = key two → part one = part two) :
    taken key (key row) (select part (part row) rows) = taken key (key row) rows := by
  rw [Bool.eq_iff_iff,taken_iff,taken_iff,List.mem_map,List.mem_map]
  constructor
  · rintro ⟨other,inside,same⟩
    exact ⟨other,(mem_select.mp inside).1,same⟩
  · rintro ⟨other,inside,same⟩
    exact ⟨other,mem_select.mpr ⟨inside,refines same⟩,same⟩

theorem Unique.insert (unique : Unique key rows) (inserted : insert key row rows = some next) :
    Unique key next := by
  obtain ⟨free,rfl⟩ := insert_iff.mp inserted
  unfold Unique at unique ⊢
  rw [List.map_append,List.nodup_append]
  refine ⟨unique,by simp,?_⟩
  rintro one there _ only rfl
  rw [List.map_cons,List.map_nil,List.mem_singleton] at only
  exact free (only ▸ there)

omit [DecidableEq κ] in
theorem map_key_update (stable : ∀ row, key (change row) = key row) :
    (update part p change rows).map key = rows.map key := by
  unfold update
  rw [List.map_map]
  refine List.map_congr_left fun row _ => ?_
  rw [Function.comp_apply]
  split
  · exact stable row
  · rfl

omit [DecidableEq κ] in
theorem Unique.update (unique : Unique key rows) (stable : ∀ row, key (change row) = key row) :
    Unique key (update part p change rows) := by
  unfold Unique
  rw [map_key_update stable]
  exact unique

theorem Unique.upsert (unique : Unique key rows) (stable : ∀ row, key (change row) = key row) :
    Unique key (upsert key row change rows) := by
  unfold Keyed.upsert
  split
  · exact unique.update stable
  · rename_i free
    exact unique.insert (insert_iff.mpr ⟨fun there => free (taken_iff.mpr there),rfl⟩)

theorem Unique.replace (unique : Unique key rows) : Unique key (replace key row rows) := by
  unfold Unique Keyed.replace at *
  rw [List.map_append,List.nodup_append]
  refine ⟨(List.filter_sublist.map key).nodup unique,by simp,?_⟩
  rintro _ there _ only rfl
  obtain ⟨other,inside,same⟩ := List.mem_map.mp there
  rw [List.map_cons,List.map_nil,List.mem_singleton] at only
  exact of_decide_eq_true (List.mem_filter.mp inside).2 (same.trans only)

theorem Unique.alone (unique : Unique key rows) (inside : row ∈ rows) : select key (key row) rows = [row] := by
  induction rows with
  | nil => cases inside
  | cons first rest ih =>
    unfold Unique at unique ih
    rw [List.map_cons,List.nodup_cons] at unique
    rcases List.mem_cons.mp inside with rfl | later
    · have none_ : select key (key row) rest = [] := by
        refine List.filter_eq_nil_iff.mpr fun other there => ?_
        simp only [decide_eq_true_eq]
        exact fun same => unique.1 (same ▸ List.mem_map_of_mem there)
      unfold Keyed.select at none_ ⊢
      rw [List.filter_cons,none_]
      simp
    · have different : key first ≠ key row := by
        intro same
        exact unique.1 (same ▸ List.mem_map_of_mem later)
      have found := ih unique.2 later
      unfold Keyed.select at found ⊢
      rw [List.filter_cons,found]
      simp [different]

theorem select_nil_iff : select key k rows = [] ↔ taken key k rows = false := by
  simp [select,taken]

theorem select_upsert_same (stable : ∀ row, key (change row) = key row) :
    select key (key row) (upsert key row change rows) =
      if (select key (key row) rows).isEmpty then [row] else (select key (key row) rows).map change := by
  unfold upsert
  cases there : taken key (key row) rows with
  | false =>
    rw [if_neg Bool.false_ne_true,select_snoc_same,select_nil_iff.mpr there]
    rfl
  | true =>
    have some_ : select key (key row) rows ≠ [] := by
      intro empty
      rw [select_nil_iff.mp empty] at there
      cases there
    rw [if_pos rfl,select_update_same stable,if_neg (by simpa using some_)]

theorem select_upsert_other (stable : ∀ row, key (change row) = key row) (other : k ≠ key row) :
    select key k (upsert key row change rows) = select key k rows := by
  unfold upsert
  split
  · exact select_update_other stable other
  · exact select_snoc_other other.symm

section
variable [LinearOrder μ] {measure : ρ → μ}

theorem mem_descending : row ∈ descending measure rows ↔ row ∈ rows := List.mem_insertionSort _

theorem descending_perm : (descending measure rows).Perm rows := List.perm_insertionSort ..

theorem descending_sorted : (descending measure rows).Pairwise fun one two => measure two ≤ measure one := by
  have total : Std.Total fun one two : ρ => measure two ≤ measure one := ⟨fun one two => le_total ..⟩
  have trans : IsTrans ρ fun one two => measure two ≤ measure one := ⟨fun _ _ _ first second => le_trans second first⟩
  exact List.pairwise_insertionSort _ rows

theorem ascending_sorted : (ascending measure rows).Pairwise fun one two => measure one ≤ measure two := by
  have sorted : (ascending measure rows).Pairwise fun one two =>
      OrderDual.toDual (measure two) ≤ OrderDual.toDual (measure one) := descending_sorted
  exact sorted.imp OrderDual.toDual_le_toDual.mp

theorem limited_initial (limit : Int) (rows : List ρ) : limited limit rows <+: rows := by
  unfold limited
  split
  · exact List.prefix_rfl
  · exact List.take_prefix ..

theorem limited_cut {limit : Int} (inside : row ∈ rows) (cut : row ∉ limited limit (descending measure rows)) :
    0 ≤ limit ∧ (limited limit (descending measure rows)).length = limit.toNat ∧
      ∀ other ∈ limited limit (descending measure rows), measure row ≤ measure other := by
  have listed : row ∈ descending measure rows := mem_descending.mpr inside
  unfold limited at cut ⊢
  split at cut
  · exact absurd listed cut
  · rename_i bounded
    rw [if_neg bounded]
    rw [← List.take_append_drop limit.toNat (descending measure rows)] at listed
    have later := (List.mem_append.mp listed).resolve_left cut
    refine ⟨Int.not_lt.mp bounded,?_,?_⟩
    · rw [List.length_take]
      have more := List.length_pos_of_mem later
      rw [List.length_drop] at more
      omega
    · intro other kept
      have sorted : (descending measure rows).Pairwise fun one two => measure two ≤ measure one := descending_sorted
      rw [← List.take_append_drop limit.toNat (descending measure rows),List.pairwise_append] at sorted
      exact sorted.2.2 other kept row later

end
end Sql.Keyed
