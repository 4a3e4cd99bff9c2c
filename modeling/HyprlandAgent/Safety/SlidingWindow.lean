import Mathlib.Algebra.Order.Group.Defs
import Mathlib.Algebra.Order.Sub.Basic
import Mathlib.Data.List.TakeWhile

-- A log of times in order, and a queue that keeps the end of it: what has left a
-- window at some time has left it for good.
namespace SlidingWindow
variable {τ : Type*} [AddCommGroup τ] [LinearOrder τ]

def recent (window now : τ) (log : List τ) : List τ :=
  log.filter fun time => now - window < time ∧ time ≤ now

def evict (cutoff : τ) (queue : List τ) : List τ := queue.dropWhile (· ≤ cutoff)

variable {window clock now time cutoff : τ} {log queue : List τ}

theorem recent_append (log more : List τ) :
    recent window now (log ++ more) = recent window now log ++ recent window now more :=
  List.filter_append ..

omit [AddCommGroup τ] in
theorem evict_eq (sorted : queue.Pairwise (· ≤ ·)) :
    evict cutoff queue = queue.filter fun time => cutoff < time := by
  induction queue with
  | nil => rfl
  | cons first rest ih =>
    obtain ⟨least,others⟩ := List.pairwise_cons.mp sorted
    by_cases old : first ≤ cutoff
    · have gone : ¬cutoff < first := not_lt_of_ge old
      have tail : evict cutoff (first :: rest) = evict cutoff rest := by simp [evict,old]
      rw [tail,ih others,List.filter_cons_of_neg (by simpa using gone)]
    · have all : ∀ time ∈ first :: rest, decide (cutoff < time) = true := by
        intro time inside
        rcases List.mem_cons.mp inside with rfl | later
        · simpa using old
        · simpa using lt_of_lt_of_le (not_le.mp old) (least time later)
      rw [List.filter_eq_self.mpr all]
      simp [evict,old]

-- The queue is the log without times that had left the window by `clock`.
structure Tracks (window clock : τ) (queue log : List τ) : Prop where
  sorted : log.Pairwise (· ≤ ·)
  past : ∀ time ∈ log, time ≤ clock
  cut : ∃ old, log = old ++ queue ∧ ∀ time ∈ old, time ≤ clock - window

theorem Tracks.nil : Tracks window clock [] [] :=
  ⟨.nil,fun _ inside => absurd inside List.not_mem_nil,[],rfl,fun _ inside => absurd inside List.not_mem_nil⟩

theorem Tracks.later [IsOrderedAddMonoid τ] (tracks : Tracks window clock queue log) (after : clock ≤ now) :
    Tracks window now queue log := by
  obtain ⟨old,whole,gone⟩ := tracks.cut
  refine ⟨tracks.sorted,?_,old,whole,?_⟩
  · intro time inside
    exact (tracks.past time inside).trans after
  · intro time inside
    exact (gone time inside).trans (sub_le_sub_right after window)

theorem Tracks.evict (tracks : Tracks window now queue log) :
    evict (now - window) queue = recent window now log ∧
      Tracks window now (SlidingWindow.evict (now - window) queue) log := by
  obtain ⟨old,whole,gone⟩ := tracks.cut
  have sorted := tracks.sorted
  rw [whole] at sorted
  have ordered := (List.pairwise_append.mp sorted).2.1
  have kept : SlidingWindow.evict (now - window) queue = recent window now log := by
    have none_old : recent window now old = [] := by
      apply List.filter_eq_nil_iff.mpr
      intro time inside
      have left := gone time inside
      simp [left]
    rw [evict_eq ordered,whole,recent_append,none_old,List.nil_append]
    apply List.filter_congr
    intro time inside
    have before : time ≤ now := tracks.past time (whole ▸ List.mem_append_right _ inside)
    simp [before]
  refine ⟨kept,tracks.sorted,tracks.past,?_⟩
  refine ⟨old ++ queue.takeWhile (· ≤ now - window),?_,?_⟩
  · rw [whole,List.append_assoc]
    exact congrArg _ (List.takeWhile_append_dropWhile).symm
  · intro time inside
    rcases List.mem_append.mp inside with before | cut
    · exact gone time before
    · simpa using List.mem_takeWhile_imp cut

theorem Tracks.append (tracks : Tracks window now queue log) :
    Tracks window now (queue ++ [now]) (log ++ [now]) := by
  obtain ⟨old,whole,gone⟩ := tracks.cut
  refine ⟨?_,?_,old,?_,gone⟩
  · refine List.pairwise_append.mpr ⟨tracks.sorted,List.pairwise_singleton _ _,?_⟩
    intro time inside last only
    rw [List.mem_singleton.mp only]
    exact tracks.past time inside
  · intro time inside
    rcases List.mem_append.mp inside with before | last
    · exact tracks.past time before
    · exact le_of_eq (List.mem_singleton.mp last)
  · rw [whole,List.append_assoc]

theorem recent_earlier [IsOrderedAddMonoid τ] (past : ∀ time ∈ log, time ≤ clock) (after : clock ≤ now) :
    (recent window now log).Sublist (recent window clock log) := by
  have narrower : recent window now log = recent window now (recent window clock log) := by
    unfold recent
    rw [List.filter_filter]
    apply List.filter_congr
    intro time inside
    have before := past time inside
    have wider : now - window < time → clock - window < time :=
      (sub_le_sub_right after window).trans_lt
    grind
  rw [narrower]
  exact List.filter_sublist

-- A log in which every time came while fewer than `limit` were in its window.
inductive Sparse (window : τ) (limit : Int) : List τ → Prop where
  | nil : Sparse window limit []
  | snoc {log : List τ} {now : τ} : Sparse window limit log → (∀ time ∈ log, time ≤ now) →
      ((recent window now log).length : Int) < limit → Sparse window limit (log ++ [now])

theorem Sparse.bounded [IsOrderedAddMonoid τ] {limit : Int} (sparse : Sparse window limit log) (now : τ) :
    ((recent window now log).length : Int) ≤ max 0 limit := by
  induction sparse with
  | nil => simp [recent]
  | @snoc log last before past room ih =>
    rw [recent_append,List.length_append]
    by_cases inside : now - window < last ∧ last ≤ now
    · have one : recent window now [last] = [last] := by simp [recent,inside]
      have fewer : (recent window now log).length ≤ (recent window last log).length := by
        refine (recent_earlier ?_ inside.2).length_le
        exact past
      rw [one]
      simp only [List.length_singleton]
      omega
    · have none_ : recent window now [last] = [] := by
        simp only [recent]
        rw [List.filter_eq_nil_iff]
        intro time only
        rw [List.mem_singleton.mp only]
        simpa using inside
      rw [none_]
      simpa using ih

end SlidingWindow
