import Mathlib.Data.List.Infix

-- A counting semaphore whose waiters go on in the order they came, as
-- `asyncio.Semaphore` is. A waiter that was woken up already has its permit, and goes
-- on when its task gets its turn.
namespace Semaphore
variable {ι : Type*} {permits : Nat}

-- `entered` are all who got a permit and went on, `holders` those who have it still.
structure State (ι : Type*) where
  value : Nat
  woken : List ι := []
  waiting : List ι := []
  entered : List ι := []
  holders : List ι := []

namespace State
variable (s : State ι)

-- `_wake_up_next`
def wakeNext : State ι :=
  match s.waiting with
  | [] => s
  | i :: rest => { s with value := s.value - 1, woken := s.woken ++ [i], waiting := rest }

-- The `while` loop at the end of `acquire`; the second argument counts the waiters.
def drain (s : State ι) : Nat → State ι
  | 0 => s
  | n + 1 => if 0 < s.value then s.wakeNext.drain n else s

def locked : Bool := s.value == 0 || !s.woken.isEmpty || !s.waiting.isEmpty

-- `acquire`, up to its first suspension.
def acquire (i : ι) : State ι :=
  if s.locked then { s with waiting := s.waiting ++ [i] }
  else { s with value := s.value - 1, entered := s.entered ++ [i], holders := s.holders ++ [i] }

-- `acquire`, from where it was woken up.
def resume : Option (State ι) :=
  match s.woken with
  | [] => none
  | i :: rest =>
    some ({ s with woken := rest, entered := s.entered ++ [i], holders := s.holders ++ [i] }.drain
      s.waiting.length)

def release [DecidableEq ι] (i : ι) : State ι :=
  { s with value := s.value + 1, holders := s.holders.erase i }.wakeNext

def arrivals : List ι := s.entered ++ s.woken ++ s.waiting

end State

-- Permits are neither lost nor made, a permit is never left lying while somebody
-- waits, and only those who entered have one.
structure Sound (permits : Nat) (s : State ι) : Prop where
  counted : s.value + s.woken.length + s.holders.length = permits
  awake : s.waiting ≠ [] → s.value = 0 ∨ s.woken ≠ []
  held : s.holders.Sublist s.entered

variable {s next : State ι} {i : ι}

theorem sound_fresh (permits : Nat) : Sound permits ({ value := permits } : State ι) :=
  ⟨rfl,fun some_ => absurd rfl some_,List.Sublist.refl _⟩

section
variable (s)

@[simp] theorem wakeNext_arrivals : s.wakeNext.arrivals = s.arrivals := by
  unfold State.wakeNext
  split
  · rfl
  · rename_i waits
    simp [State.arrivals,waits]

@[simp] theorem wakeNext_entered : s.wakeNext.entered = s.entered := by
  unfold State.wakeNext
  split <;> rfl

@[simp] theorem wakeNext_holders : s.wakeNext.holders = s.holders := by
  unfold State.wakeNext
  split <;> rfl

theorem wakeNext_counted (spare : 0 < s.value) :
    s.wakeNext.value + s.wakeNext.woken.length = s.value + s.woken.length := by
  unfold State.wakeNext
  split
  · rfl
  · rw [List.length_append,List.length_singleton]
    dsimp only
    omega

theorem drain_arrivals (n : Nat) : (s.drain n).arrivals = s.arrivals := by
  induction n generalizing s with
  | zero => rfl
  | succ n ih =>
    rw [State.drain]
    split
    · rw [ih,wakeNext_arrivals]
    · rfl

theorem drain_entered (n : Nat) : (s.drain n).entered = s.entered := by
  induction n generalizing s with
  | zero => rfl
  | succ n ih =>
    rw [State.drain]
    split
    · rw [ih,wakeNext_entered]
    · rfl

theorem drain_holders (n : Nat) : (s.drain n).holders = s.holders := by
  induction n generalizing s with
  | zero => rfl
  | succ n ih =>
    rw [State.drain]
    split
    · rw [ih,wakeNext_holders]
    · rfl

theorem drain_counted (n : Nat) :
    (s.drain n).value + (s.drain n).woken.length = s.value + s.woken.length := by
  induction n generalizing s with
  | zero => rfl
  | succ n ih =>
    rw [State.drain]
    split
    · rename_i spare
      rw [ih,wakeNext_counted s spare]
    · rfl

theorem drain_awake : (s.drain s.waiting.length).value = 0 ∨ (s.drain s.waiting.length).waiting = [] := by
  generalize left : s.waiting.length = n
  induction n generalizing s with
  | zero => exact .inr (List.length_eq_zero_iff.mp left)
  | succ n ih =>
    rw [State.drain]
    split
    · refine ih s.wakeNext ?_
      unfold State.wakeNext
      split
      · rename_i none_
        rw [none_] at left
        cases left
      · rename_i waits
        rw [waits] at left
        exact Nat.succ.inj left
    · rename_i spent
      exact .inl (Nat.eq_zero_of_not_pos spent)

end

theorem acquire_arrivals (s : State ι) (i : ι) : (s.acquire i).arrivals = s.arrivals ++ [i] := by
  unfold State.acquire State.arrivals
  split
  · simp only [List.append_assoc]
  · rename_i free
    simp only [State.locked,Bool.or_eq_true,Bool.not_eq_true',List.isEmpty_eq_false_iff,not_or,not_not] at free
    simp [free.1.2,free.2]

theorem resume_arrivals (resumed : s.resume = some next) : next.arrivals = s.arrivals := by
  unfold State.resume at resumed
  split at resumed
  · cases resumed
  · rename_i woken
    cases resumed
    rw [drain_arrivals]
    simp [State.arrivals,woken]

@[simp] theorem release_arrivals [DecidableEq ι] (s : State ι) (i : ι) : (s.release i).arrivals = s.arrivals :=
  wakeNext_arrivals _

theorem acquire_sound (sound : Sound permits s) : Sound permits (s.acquire i) := by
  unfold State.acquire
  split
  · rename_i locked
    refine ⟨sound.counted,?_,sound.held⟩
    intro _
    simp only [State.locked,Bool.or_eq_true,beq_iff_eq,Bool.not_eq_true',List.isEmpty_eq_false_iff] at locked
    rcases locked with (spent | woken) | waiting
    · exact .inl spent
    · exact .inr woken
    · exact sound.awake waiting
  · rename_i free
    simp only [State.locked,Bool.or_eq_true,beq_iff_eq,Bool.not_eq_true',List.isEmpty_eq_false_iff,not_or,
      not_not] at free
    refine ⟨?_,fun some_ => absurd free.2 some_,?_⟩
    · have counted := sound.counted
      rw [List.length_append,List.length_singleton]
      dsimp only
      omega
    · exact sound.held.append_right [i]

theorem resume_cases (resumed : s.resume = some next) : ∃ i rest, s.woken = i :: rest ∧
    next.entered = s.entered ++ [i] ∧ next.holders = s.holders ++ [i] := by
  unfold State.resume at resumed
  split at resumed
  · cases resumed
  · rename_i i rest woken
    cases resumed
    exact ⟨i,rest,woken,drain_entered _ _,drain_holders _ _⟩

theorem resume_sound (sound : Sound permits s) (resumed : s.resume = some next) : Sound permits next := by
  obtain ⟨i,rest,woken,entered,holders⟩ := resume_cases resumed
  unfold State.resume at resumed
  rw [woken] at resumed
  cases resumed
  have counted := sound.counted
  rw [woken,List.length_cons] at counted
  refine ⟨?_,?_,?_⟩
  · rw [drain_counted,drain_holders,List.length_append,List.length_singleton]
    dsimp only
    omega
  · intro some_
    exact .inl ((drain_awake { s with woken := rest, entered := _, holders := _ }).resolve_right some_)
  · rw [entered,holders]
    exact sound.held.append_right [i]

theorem release_sound [DecidableEq ι] (sound : Sound permits s) (holds : i ∈ s.holders) :
    Sound permits (s.release i) := by
  have one := List.length_erase_of_mem holds
  have some_ : 0 < s.holders.length := List.length_pos_of_mem holds
  have counted := sound.counted
  refine ⟨?_,?_,?_⟩
  · unfold State.release
    rw [wakeNext_counted _ (Nat.succ_pos _),wakeNext_holders,one]
    dsimp only
    omega
  · unfold State.release State.wakeNext
    intro waits
    split at waits
    · rename_i none_
      exact absurd none_ waits
    · exact .inr (by simp)
  · unfold State.release
    rw [wakeNext_entered,wakeNext_holders]
    exact List.erase_sublist.trans sound.held

theorem Sound.nobody (sound : Sound permits s) (some_ : 0 < permits) (unheld : s.holders = [])
    (unwoken : s.woken = []) : s.waiting = [] := by
  by_contra waits
  have counted := sound.counted
  rw [unheld,unwoken] at counted
  rcases sound.awake waits with spent | woken
  · simp only [spent,List.length_nil] at counted
    omega
  · exact woken unwoken

theorem Sound.within (sound : Sound permits s) : s.holders.length ≤ permits := by
  have counted := sound.counted
  omega

end Semaphore
