import Mathlib.Data.List.Infix

-- A lock for the coroutines of one event loop, as `asyncio.Lock` is. A waiter that was
-- woken up or cancelled stays in the queue until its task gets its turn.
namespace AsyncLock
variable {ι : Type*}

structure Waiter (ι : Type*) where
  id : ι
  woken : Bool := false
  cancelled : Bool := false

-- `fut.done()` and `fut.cancelled()`: a future that was given its result is not cancelled
-- any more, though its task may be.
def Waiter.done (w : Waiter ι) : Bool := w.woken || w.cancelled

def Waiter.withdrawn (w : Waiter ι) : Bool := w.cancelled && !w.woken

def Waiter.quit [DecidableEq ι] (i : ι) (w : Waiter ι) : Waiter ι :=
  if w.id = i then { w with cancelled := true } else w

-- `entered` are those who got the lock, in that order, and `arrived` those who asked.
structure State (ι : Type*) where
  holder : Option ι := none
  waiters : List (Waiter ι) := []
  entered : List ι := []
  arrived : List ι := []

namespace State
variable (s : State ι)

-- `_wake_up_first`
def wakeFirst : State ι :=
  match s.waiters with
  | [] => s
  | w :: rest => if w.done then s else { s with waiters := { w with woken := true } :: rest }

def enter (i : ι) : State ι := { s with holder := some i,entered := s.entered ++ [i] }

-- `acquire`, up to its first suspension.
def acquire (i : ι) : State ι :=
  let asked : State ι := { s with arrived := s.arrived ++ [i] }
  if s.holder.isNone && s.waiters.all Waiter.withdrawn then asked.enter i
  else { asked with waiters := s.waiters ++ [⟨i,false,false⟩] }

def release : State ι := { s with holder := none }.wakeFirst

section
variable [DecidableEq ι]

-- `acquire`, from where its future was done.
def resume (i : ι) : Option (State ι) :=
  match s.waiters.find? fun w => w.id = i with
  | none => none
  | some w =>
    if w.done then
      let left : State ι := { s with waiters := s.waiters.filter fun other => other.id ≠ i }
      some (if w.cancelled then (if s.holder.isNone then left.wakeFirst else left) else left.enter i)
    else none

-- `Task.cancel` of a task that waits.
def cancel (i : ι) : State ι := { s with waiters := s.waiters.map (Waiter.quit i) }

end
end State

def State.hopeful (s : State ι) : List ι := (s.waiters.filter fun w => !w.withdrawn).map Waiter.id

-- Nobody is woken up while the lock is taken, or behind another waiter; a free lock has
-- been offered to the first of those who wait; and nobody overtakes.
structure Sound (s : State ι) : Prop where
  taken : s.holder.isSome = true → ∀ w ∈ s.waiters, w.woken = false
  first : ∀ w ∈ s.waiters.tail, w.woken = false
  offered : s.holder = none → ∀ w rest, s.waiters = w :: rest → w.done = true
  order : List.Sublist (s.entered ++ s.hopeful) s.arrived
  apart : (s.waiters.map Waiter.id).Nodup
  known : ∀ w ∈ s.waiters, w.id ∈ s.arrived

variable {s next : State ι} {i : ι}

theorem sound_fresh : Sound ({} : State ι) :=
  ⟨nofun,nofun,nofun,List.Sublist.refl _,List.nodup_nil,nofun⟩

@[simp] theorem wakeFirst_holder (s : State ι) : s.wakeFirst.holder = s.holder := by
  unfold State.wakeFirst
  repeat' split
  all_goals rfl

@[simp] theorem wakeFirst_entered (s : State ι) : s.wakeFirst.entered = s.entered := by
  unfold State.wakeFirst
  repeat' split
  all_goals rfl

@[simp] theorem wakeFirst_arrived (s : State ι) : s.wakeFirst.arrived = s.arrived := by
  unfold State.wakeFirst
  repeat' split
  all_goals rfl

theorem wakeFirst_sound (free : s.holder = none) (first : ∀ w ∈ s.waiters.tail, w.woken = false)
    (order : List.Sublist (s.entered ++ s.hopeful) s.arrived) (apart : (s.waiters.map Waiter.id).Nodup)
    (known : ∀ w ∈ s.waiters, w.id ∈ s.arrived) : Sound s.wakeFirst := by
  unfold State.wakeFirst
  split
  · rename_i nobody
    refine ⟨?_,first,?_,order,apart,known⟩
    · rw [free]
      nofun
    · intro _ w rest some_
      rw [nobody] at some_
      cases some_
  · rename_i w rest waiting
    rw [waiting] at first apart known
    split
    · rename_i done
      refine ⟨?_,by rwa [waiting],?_,order,by rwa [waiting],by rwa [waiting]⟩
      · rw [free]
        nofun
      · intro _ other others same
        obtain ⟨rfl,rfl⟩ := List.cons.inj (waiting.symm.trans same)
        exact done
    · rename_i asleep
      have hoped : State.hopeful { s with waiters := { w with woken := true } :: rest } = s.hopeful := by
        have live : w.withdrawn = false := by
          simp only [Waiter.done,Bool.or_eq_true,not_or,Bool.not_eq_true] at asleep
          simp [Waiter.withdrawn,asleep.2]
        unfold State.hopeful
        rw [waiting,List.filter_cons_of_pos (by simp [Waiter.withdrawn]),List.filter_cons_of_pos (by rw [live]; rfl)]
        rfl
      refine ⟨?_,first,?_,?_,apart,?_⟩
      · rw [free]
        nofun
      · intro _ other others same
        obtain ⟨rfl,rfl⟩ := List.cons.inj same
        rfl
      · rw [hoped]
        exact order
      · intro other inside
        rcases List.mem_cons.mp inside with rfl | later
        · exact known w List.mem_cons_self
        · exact known other (List.mem_cons_of_mem _ later)

theorem acquire_sound (sound : Sound s) (fresh : i ∉ s.arrived) : Sound (s.acquire i) := by
  unfold State.acquire
  dsimp only
  split
  · rename_i open_
    simp only [Bool.and_eq_true,Option.isNone_iff_eq_none,List.all_eq_true] at open_
    obtain ⟨_,gone⟩ := open_
    have asleep : ∀ w ∈ s.waiters, w.woken = false := by
      intro w inside
      have withdrawn := gone w inside
      simp only [Waiter.withdrawn,Bool.and_eq_true,Bool.not_eq_true'] at withdrawn
      exact withdrawn.2
    have nobody : s.hopeful = [] := by
      unfold State.hopeful
      rw [List.filter_eq_nil_iff.mpr fun w inside => by simp [gone w inside]]
      rfl
    refine ⟨fun _ => asleep,sound.first,nofun,?_,sound.apart,?_⟩
    · have same : State.hopeful (State.enter { s with arrived := s.arrived ++ [i] } i) = s.hopeful := rfl
      rw [same,nobody,List.append_nil]
      have before := sound.order
      rw [nobody,List.append_nil] at before
      exact before.append (List.Sublist.refl [i])
    · exact fun w inside => List.mem_append_left _ (sound.known w inside)
  · rename_i closed
    have last : State.hopeful { s with arrived := s.arrived ++ [i],waiters := s.waiters ++ [⟨i,false,false⟩] } =
        s.hopeful ++ [i] := by
      unfold State.hopeful
      rw [List.filter_append,List.map_append]
      rfl
    refine ⟨?_,?_,?_,?_,?_,?_⟩
    · intro held w inside
      rcases List.mem_append.mp inside with before | new
      · exact sound.taken held w before
      · rw [List.mem_singleton.mp new]
    · intro w inside
      have among : w ∈ s.waiters.tail ++ [⟨i,false,false⟩] := by
        cases waiting : s.waiters with
        | nil =>
          simp only [waiting] at inside
          cases inside
        | cons head rest =>
          simp only [waiting,List.cons_append,List.tail_cons] at inside ⊢
          exact inside
      rcases List.mem_append.mp among with before | new
      · exact sound.first w before
      · rw [List.mem_singleton.mp new]
    · intro free w rest same
      cases waiting : s.waiters with
      | nil =>
        refine absurd ?_ closed
        rw [show s.holder = none from free,waiting]
        rfl
      | cons head others =>
        simp only [waiting,List.cons_append] at same
        obtain ⟨rfl,_⟩ := List.cons.inj same
        exact sound.offered free _ _ waiting
    · rw [last]
      show List.Sublist (s.entered ++ (s.hopeful ++ [i])) (s.arrived ++ [i])
      rw [← List.append_assoc]
      exact sound.order.append (List.Sublist.refl [i])
    · rw [List.map_append]
      refine List.nodup_append.mpr ⟨sound.apart,by simp,?_⟩
      intro one before other new same
      obtain ⟨w,inside,rfl⟩ := List.mem_map.mp before
      obtain rfl : other = i := by simpa using new
      refine fresh ?_
      rw [← same]
      exact sound.known w inside
    · intro w inside
      rcases List.mem_append.mp inside with before | new
      · exact List.mem_append_left _ (sound.known w before)
      · rw [List.mem_singleton.mp new]
        exact List.mem_append_right _ (List.mem_singleton.mpr rfl)

theorem acquire_cases (s : State ι) (i : ι) : (s.acquire i).arrived = s.arrived ++ [i] ∧
    ((s.holder = none ∧ (s.acquire i).holder = some i ∧ (s.acquire i).entered = s.entered ++ [i]) ∨
      ((s.acquire i).holder = s.holder ∧ (s.acquire i).entered = s.entered)) := by
  unfold State.acquire
  dsimp only
  split
  · rename_i open_
    simp only [Bool.and_eq_true,Option.isNone_iff_eq_none] at open_
    exact ⟨rfl,.inl ⟨open_.1,rfl,rfl⟩⟩
  · exact ⟨rfl,.inr ⟨rfl,rfl⟩⟩

@[simp] theorem release_holder (s : State ι) : s.release.holder = none := wakeFirst_holder _
@[simp] theorem release_entered (s : State ι) : s.release.entered = s.entered := wakeFirst_entered _
@[simp] theorem release_arrived (s : State ι) : s.release.arrived = s.arrived := wakeFirst_arrived _

theorem release_sound (sound : Sound s) : Sound s.release :=
  wakeFirst_sound rfl sound.first sound.order sound.apart sound.known

section
variable [DecidableEq ι]

theorem resume_sound (sound : Sound s) (resumed : s.resume i = some next) : Sound next ∧
    ((s.holder = none ∧ next.holder = some i ∧ next.entered = s.entered ++ [i]) ∨
      (next.holder = s.holder ∧ next.entered = s.entered)) ∧ next.arrived = s.arrived := by
  unfold State.resume at resumed
  split at resumed
  · cases resumed
  · rename_i w found
    have inside := List.mem_of_find?_eq_some found
    obtain rfl : w.id = i := by simpa using List.find?_some found
    split at resumed
    · rename_i done
      dsimp only at resumed
      have shorter : List.Sublist (s.waiters.filter fun other => other.id ≠ w.id) s.waiters := List.filter_sublist
      have asleep : ∀ other ∈ (s.waiters.filter fun other => other.id ≠ w.id).tail, other.woken = false :=
        fun other later => sound.first other (shorter.tail.subset later)
      have order : List.Sublist
          (s.entered ++ State.hopeful { s with waiters := s.waiters.filter fun other => other.id ≠ w.id })
          s.arrived := ((List.Sublist.refl _).append ((shorter.filter _).map _)).trans sound.order
      have apart := sound.apart.sublist (shorter.map Waiter.id)
      have known : ∀ other ∈ s.waiters.filter fun other => other.id ≠ w.id, other.id ∈ s.arrived :=
        fun other among => sound.known other (shorter.subset among)
      by_cases quit : w.cancelled = true
      · rw [if_pos quit] at resumed
        split at resumed
        · rename_i free
          cases resumed
          refine ⟨wakeFirst_sound (Option.isNone_iff_eq_none.mp free) asleep order apart known,.inr ?_,?_⟩
          · exact ⟨wakeFirst_holder _,wakeFirst_entered _⟩
          · exact wakeFirst_arrived _
        · rename_i busy
          cases resumed
          refine ⟨⟨?_,asleep,?_,order,apart,known⟩,.inr ⟨rfl,rfl⟩,rfl⟩
          · exact fun held other among => sound.taken held other (shorter.subset among)
          · intro free
            rw [show s.holder = none from free] at busy
            exact absurd rfl busy
      · rw [if_neg quit] at resumed
        cases resumed
        -- It was woken up, so it waits in front of all others and the lock is free.
        have woken : w.woken = true := by
          rw [Waiter.done,Bool.or_eq_true] at done
          exact done.resolve_right quit
        have free : s.holder = none := by
          cases held : s.holder with
          | none => rfl
          | some other =>
            have none_ := sound.taken (by rw [held]; rfl) w inside
            rw [woken] at none_
            cases none_
        cases waiting : s.waiters with
        | nil =>
          rw [waiting] at inside
          cases inside
        | cons head rest =>
          have tail_ := sound.first
          have distinct := sound.apart
          rw [waiting] at inside tail_ distinct
          obtain rfl : w = head := by
            rcases List.mem_cons.mp inside with same | later
            · exact same
            · have none_ := tail_ w later
              rw [woken] at none_
              cases none_
          have left : (w :: rest).filter (fun other => other.id ≠ w.id) = rest := by
            rw [List.filter_cons_of_neg (by simp)]
            refine List.filter_eq_self.mpr fun other later => ?_
            have unlike := (List.nodup_cons.mp distinct).1
            simp only [ne_eq,decide_eq_true_eq]
            exact fun same => unlike (List.mem_map.mpr ⟨other,later,same⟩)
          rw [waiting,left] at asleep order apart known
          rw [left]
          refine ⟨⟨fun _ => tail_,asleep,nofun,?_,apart,known⟩,.inl ⟨free,rfl,rfl⟩,rfl⟩
          have live : w.withdrawn = false := by rw [Waiter.withdrawn,woken]; exact Bool.and_false _
          have hoped : s.hopeful = w.id :: State.hopeful { s with waiters := rest } := by
            unfold State.hopeful
            rw [waiting,List.filter_cons_of_pos (by rw [live]; rfl)]
            rfl
          have before := sound.order
          rw [hoped] at before
          show List.Sublist ((s.entered ++ [w.id]) ++ State.hopeful { s with waiters := rest }) s.arrived
          rw [List.append_assoc]
          exact before
    · cases resumed

theorem quit_keeps (i : ι) (w : Waiter ι) : (w.quit i).id = w.id ∧ (w.quit i).woken = w.woken ∧
    (w.done = true → (w.quit i).done = true) ∧ (w.withdrawn = true → (w.quit i).withdrawn = true) := by
  unfold Waiter.quit
  split
  · refine ⟨rfl,rfl,fun _ => Bool.or_true _,fun gone => ?_⟩
    rw [Waiter.withdrawn,Bool.and_eq_true] at gone
    rw [Waiter.withdrawn,gone.2]
    rfl
  · exact ⟨rfl,rfl,id,id⟩

theorem cancel_sound (sound : Sound s) (i : ι) : Sound (s.cancel i) := by
  have mapped : (s.cancel i).waiters = s.waiters.map (Waiter.quit i) := rfl
  have ids : (s.cancel i).waiters.map Waiter.id = s.waiters.map Waiter.id := by
    rw [mapped,List.map_map]
    exact List.map_congr_left fun w _ => (quit_keeps i w).1
  have still {waiters : List (Waiter ι)} (asleep : ∀ w ∈ waiters, w.woken = false) :
      ∀ w ∈ waiters.map (Waiter.quit i), w.woken = false := by
    intro w inside
    obtain ⟨before,there,rfl⟩ := List.mem_map.mp inside
    exact (quit_keeps i before).2.1.trans (asleep before there)
  have fewer (waiters : List (Waiter ι)) : List.Sublist
      (((waiters.map (Waiter.quit i)).filter fun w => !w.withdrawn).map Waiter.id)
      ((waiters.filter fun w => !w.withdrawn).map Waiter.id) := by
    induction waiters with
    | nil => exact .slnil
    | cons w rest ih =>
      obtain ⟨same,_,_,gone⟩ := quit_keeps i w
      rw [List.map_cons,List.filter_cons,List.filter_cons]
      cases before : w.withdrawn with
      | true =>
        rw [gone before]
        exact ih
      | false =>
        cases (w.quit i).withdrawn with
        | true => exact ih.cons _
        | false =>
          simp only [Bool.not_false,if_true,List.map_cons,same]
          exact ih.cons_cons _
  refine ⟨fun held => still (sound.taken held),?_,?_,?_,?_,?_⟩
  · rw [mapped,← List.map_tail]
    exact still sound.first
  · intro free w rest same
    rw [mapped] at same
    obtain ⟨before,others,waiting,rfl,_⟩ := List.map_eq_cons_iff.mp same
    exact (quit_keeps i before).2.2.1 (sound.offered free before others waiting)
  · exact ((List.Sublist.refl _).append (fewer s.waiters)).trans sound.order
  · rw [ids]
    exact sound.apart
  · rw [mapped]
    intro w inside
    obtain ⟨before,there,rfl⟩ := List.mem_map.mp inside
    rw [(quit_keeps i before).1]
    exact sound.known before there

end

end AsyncLock
