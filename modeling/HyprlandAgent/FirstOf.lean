import Mathlib.Data.List.Perm.Subperm

-- The first element of each key of a list, in the order of the list.
namespace HyprlandAgent.FirstOf

section
variable {α κ : Type} [DecidableEq κ] (key : α → κ)

def firsts (seen : List κ) : List α → List α
  | [] => []
  | a :: rest => if key a ∈ seen then firsts seen rest else a :: firsts (key a :: seen) rest

variable {key} {seen : List κ} {rows : List α}

theorem firsts_sublist : (firsts key seen rows).Sublist rows := by
  induction rows generalizing seen with
  | nil => exact .slnil
  | cons a rest ih =>
    rw [firsts]
    split
    · exact ih.cons a
    · exact ih.cons_cons a

theorem firsts_eq_nil (key : α → κ) : firsts key [] rows = [] ↔ rows = [] := by
  cases rows with
  | nil => exact ⟨fun _ => rfl,fun _ => rfl⟩
  | cons a rest => simp [firsts]

theorem mem_firsts {a : α} : a ∈ firsts key seen rows ↔
    key a ∉ seen ∧ rows.find? (fun b => key b = key a) = some a := by
  induction rows generalizing seen with
  | nil => simp [firsts]
  | cons b rest ih =>
    rw [firsts,List.find?_cons]
    by_cases known : key b ∈ seen
    · rw [if_pos known,ih]
      by_cases same : key b = key a
      · have old : key a ∈ seen := same ▸ known
        simp [old]
      · simp [same]
    · rw [if_neg known,List.mem_cons,ih]
      by_cases same : key b = key a
      · have new : key a ∉ seen := same ▸ known
        simp [same,new,eq_comm]
      · have other : a ≠ b := fun equal => same (congrArg key equal.symm)
        simp [same,other,Ne.symm same]

theorem nodup_firsts : (firsts key seen rows).Nodup := by
  induction rows generalizing seen with
  | nil => exact .nil
  | cons a rest ih =>
    rw [firsts]
    split
    · exact ih
    · refine List.nodup_cons.mpr ⟨?_,ih⟩
      intro again
      exact (mem_firsts.mp again).1 List.mem_cons_self

theorem find?_filter_kept {keep test : α → Bool} {b : α} (first : rows.find? test = some b) (kept : keep b = true) :
    (rows.filter keep).find? test = some b := by
  induction rows with
  | nil => cases first
  | cons a rest ih =>
    rw [List.find?_cons] at first
    rw [List.filter_cons]
    cases tested : test a with
    | true =>
      rw [tested] at first
      cases first
      rw [if_pos kept,List.find?_cons,tested]
    | false =>
      rw [tested] at first
      split
      · rw [List.find?_cons,tested]
        exact ih first
      · exact ih first

theorem filter_firsts_sublist {keep : α → Bool} {less : List κ} (fewer : less ⊆ seen) :
    ((firsts key seen rows).filter keep).Sublist (firsts key less (rows.filter keep)) := by
  induction rows generalizing seen less with
  | nil => exact .slnil
  | cons a rest ih =>
    rw [firsts]
    by_cases known : key a ∈ seen
    · rw [if_pos known]
      cases kept : keep a with
      | false =>
        rw [List.filter_cons_of_neg (by simp [kept])]
        exact ih fewer
      | true =>
        rw [List.filter_cons_of_pos kept,firsts]
        split
        · exact ih fewer
        · exact (ih (List.cons_subset.mpr ⟨known,fewer⟩)).cons a
    · have new : key a ∉ less := fun old => known (fewer old)
      rw [if_neg known]
      cases kept : keep a with
      | false =>
        rw [List.filter_cons_of_neg (by simp [kept]),List.filter_cons_of_neg (by simp [kept])]
        exact ih (List.Subset.trans fewer (List.subset_cons_self _ _))
      | true =>
        rw [List.filter_cons_of_pos kept,List.filter_cons_of_pos kept,firsts,if_neg new]
        exact (ih (List.cons_subset_cons _ fewer)).cons_cons a

theorem filter_firsts_iff {keep : α → Bool} :
    (firsts key [] rows).filter keep = firsts key [] (rows.filter keep) ↔
      ∀ a ∈ rows, keep a = true → ∀ b, rows.find? (fun c => key c = key a) = some b → keep b = true := by
  constructor
  · intro same a inside kept b first
    have one : (rows.filter keep).any (fun c => key c = key a) = true :=
      List.any_eq_true.mpr ⟨a,List.mem_filter.mpr ⟨inside,kept⟩,by simp⟩
    obtain ⟨c,there⟩ := Option.isSome_iff_exists.mp (by rwa [List.find?_isSome,← List.any_eq_true])
    have named : key c = key a := by simpa using List.find?_some there
    have chosen : c ∈ firsts key [] (rows.filter keep) := mem_firsts.mpr ⟨List.not_mem_nil,by rw [named,there]⟩
    rw [← same] at chosen
    obtain ⟨early,keptC⟩ := List.mem_filter.mp chosen
    have firstC := (mem_firsts.mp early).2
    rw [named,first] at firstC
    cases firstC
    exact keptC
  · intro kept
    refine (filter_firsts_sublist (List.Subset.refl _)).eq_of_length_le (nodup_firsts.subperm ?_).length_le
    intro c chosen
    have ⟨inside,keptC⟩ := List.mem_filter.mp (firsts_sublist.subset chosen)
    have some_ : (rows.find? fun d => key d = key c).isSome = true :=
      List.find?_isSome.mpr ⟨c,inside,by simp⟩
    obtain ⟨b,first⟩ := Option.isSome_iff_exists.mp some_
    have firstKept := find?_filter_kept first (kept c inside keptC b first)
    rw [(mem_firsts.mp chosen).2] at firstKept
    cases firstKept
    exact List.mem_filter.mpr ⟨mem_firsts.mpr ⟨List.not_mem_nil,first⟩,keptC⟩

theorem firsts_prefix {more : List α} : (firsts key seen rows).IsPrefix (firsts key seen (rows ++ more)) := by
  induction rows generalizing seen with
  | nil => exact List.nil_prefix
  | cons a rest ih =>
    rw [List.cons_append,firsts,firsts]
    split
    · exact ih
    · exact List.prefix_cons_inj a |>.mpr ih

theorem firsts_map {β : Type} (key : α → κ) (make : α → β) {name : β → κ} (same : ∀ a, name (make a) = key a) :
    (firsts key seen rows).map make = firsts name seen (rows.map make) := by
  induction rows generalizing seen with
  | nil => rfl
  | cons a rest ih =>
    rw [List.map_cons,firsts,firsts,same]
    split
    · exact ih
    · rw [List.map_cons,ih]

theorem firsts_concat {a : α} : firsts key seen (rows ++ [a]) =
    firsts key seen rows ++ if key a ∈ seen ∨ key a ∈ rows.map key then [] else [a] := by
  induction rows generalizing seen with
  | nil => simp [firsts]
  | cons b rest ih =>
    rw [List.cons_append,firsts,firsts]
    by_cases known : key b ∈ seen
    · rw [if_pos known,if_pos known,ih]
      have old : key a = key b → key a ∈ seen := fun same => same ▸ known
      have both : (key a ∈ seen ∨ key a ∈ rest.map key) ↔ key a ∈ seen ∨ key a ∈ (b :: rest).map key := by
        rw [List.map_cons,List.mem_cons,← or_assoc,or_iff_left_of_imp old]
      rw [if_congr both rfl rfl]
    · have both : (key a ∈ key b :: seen ∨ key a ∈ rest.map key) ↔ key a ∈ seen ∨ key a ∈ (b :: rest).map key := by
        rw [List.map_cons,List.mem_cons,List.mem_cons,or_assoc,or_left_comm]
      rw [if_neg known,if_neg known,ih,List.cons_append,if_congr both rfl rfl]

theorem filterMap_firsts_iff {β : Type} {make : α → Option β} :
    (firsts key [] rows).filterMap make = (firsts key [] (rows.filter fun a => (make a).isSome)).filterMap make ↔
      ∀ a ∈ rows, (make a).isSome = true →
        ∀ b, rows.find? (fun c => key c = key a) = some b → (make b).isSome = true := by
  have dropped (list : List α) : list.filterMap make = (list.filter fun a => (make a).isSome).filterMap make := by
    induction list with
    | nil => rfl
    | cons a rest ih => cases made : make a <;> simp [made,ih]
  have counted {list : List α} (all : ∀ a ∈ list, (make a).isSome = true) :
      (list.filterMap make).length = list.length := by
    induction list with
    | nil => rfl
    | cons a rest ih =>
      obtain ⟨b,made⟩ := Option.isSome_iff_exists.mp (all a List.mem_cons_self)
      rw [List.filterMap_cons_some made,List.length_cons,List.length_cons,
        ih fun c inside => all c (List.mem_cons_of_mem _ inside)]
  rw [← filter_firsts_iff,dropped]
  constructor
  · intro same
    have lengths := congrArg List.length same
    rw [counted fun a inside => (List.mem_filter.mp inside).2,
      counted fun a inside => (List.mem_filter.mp (firsts_sublist.subset inside)).2] at lengths
    exact (filter_firsts_sublist (List.Subset.refl _)).eq_of_length lengths
  · intro same
    rw [same]

end
end HyprlandAgent.FirstOf
