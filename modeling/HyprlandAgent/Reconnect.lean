import Mathlib.Algebra.Order.Ring.Rat
import Mathlib.Data.List.Basic
import Mathlib.Tactic.Linarith
import Mathlib.Tactic.NormNum

-- A client that connects again for ever: it handles the messages of each connection
-- until that ends, and waits longer after each attempt that got it none.
namespace Reconnect
variable {σ μ ω : Type*}

-- `served` stands for a connection that was accepted and subscribed.
inductive Attempt (μ : Type*) where
  | refused
  | served (messages : List μ)

def Attempt.accepted : Attempt μ → Bool
  | .refused => false
  | .served _ => true

-- What handling a message leaves, shows, and whether it returned.
structure Follower (σ μ ω : Type*) where
  greeting : List ω
  handle : σ → μ → σ × List ω × Bool
  apology : List ω

inductive Act (ω : Type*) where
  | show_ (shown : ω)
  | sleep (seconds : Rat)

def Act.slept : Act ω → Option Rat
  | .show_ _ => none
  | .sleep seconds => some seconds

def longest : Rat := 30

def doubled (backoff : Rat) : Rat := min (backoff * 2) longest

def pause (backoff : Rat) : Attempt μ → Rat
  | .refused => backoff
  | .served _ => 1

namespace Follower
variable (f : Follower σ μ ω)

def serve : σ → List μ → σ × List ω
  | s,[] => (s,[])
  | s,message :: rest =>
    let (next,shown,returned) := f.handle s message
    if returned then ((serve next rest).1,shown ++ (serve next rest).2)
    else (next,shown ++ f.apology)

def served : σ → List μ → Bool
  | _,[] => true
  | s,message :: rest => (f.handle s message).2.2 && served (f.handle s message).1 rest

theorem serve_cons (s : σ) (message : μ) (rest : List μ) : (f.serve s (message :: rest)).2 =
    (f.handle s message).2.1 ++
      if (f.handle s message).2.2 then (f.serve (f.handle s message).1 rest).2 else f.apology := by
  rw [serve]
  dsimp only
  split <;> rfl

def attempt (s : σ) : Attempt μ → σ × List ω
  | .refused => (s,f.apology)
  | .served messages => ((f.serve s messages).1,f.greeting ++ (f.serve s messages).2)

def watch : σ → Rat → List (Attempt μ) → List (Act ω)
  | _,_,[] => []
  | s,backoff,asked :: rest =>
    let due := pause backoff asked
    (f.attempt s asked).2.map .show_ ++ .sleep due :: watch (f.attempt s asked).1 (doubled due) rest

end Follower

def delays : Rat → List (Attempt μ) → List Rat
  | _,[] => []
  | backoff,asked :: rest => pause backoff asked :: delays (doubled (pause backoff asked)) rest

@[simp] theorem delays_length (backoff : Rat) (attempts : List (Attempt μ)) :
    (delays backoff attempts).length = attempts.length := by
  induction attempts generalizing backoff with
  | nil => rfl
  | cons asked rest ih => simp [delays,ih]

theorem slept_shown (shown : List ω) : (shown.map Act.show_).filterMap Act.slept = [] := by
  induction shown with
  | nil => rfl
  | cons _ rest ih => exact ih

theorem watch_slept (f : Follower σ μ ω) (s : σ) (backoff : Rat) (attempts : List (Attempt μ)) :
    (f.watch s backoff attempts).filterMap Act.slept = delays backoff attempts := by
  induction attempts generalizing s backoff with
  | nil => rfl
  | cons asked rest ih =>
    rw [Follower.watch,List.filterMap_append,slept_shown,List.nil_append]
    exact congrArg (pause backoff asked :: ·) (ih _ _)

theorem delays_first (backoff : Rat) {attempts : List (Attempt μ)} (some_ : 0 < attempts.length) :
    (delays backoff attempts)[0]? = some (pause backoff attempts[0]) := by
  cases attempts with
  | nil => cases some_
  | cons asked rest => rfl

theorem delays_next (backoff : Rat) {attempts : List (Attempt μ)} {i : Nat} (within : i + 1 < attempts.length) :
    (delays backoff attempts)[i + 1]? =
      (delays backoff attempts)[i]?.map fun due => pause (doubled due) attempts[i + 1] := by
  induction attempts generalizing backoff i with
  | nil => cases within
  | cons asked rest ih =>
    have inner : i < rest.length := Nat.lt_of_succ_lt_succ within
    cases i with
    | zero =>
      rw [delays,List.getElem?_cons_succ,delays_first _ inner,List.getElem?_cons_zero]
      rfl
    | succ i => simpa only [delays,List.getElem?_cons_succ,List.getElem_cons_succ] using ih _ inner

theorem doubled_power (n : Nat) : doubled (min (2 ^ n) longest) = min (2 ^ (n + 1)) longest := by
  unfold doubled longest
  rw [pow_succ]
  rcases le_total ((2 : Rat) ^ n) 30 with small | large
  · rw [min_eq_left small]
  · rw [min_eq_right large,min_eq_right (by norm_num),min_eq_right (by linarith)]

theorem delays_power {attempts : List (Attempt μ)} {i j : Nat} (within : i < attempts.length) (order : j ≤ i)
    (anchor : j = 0 ∨ attempts[j]?.map Attempt.accepted = some true)
    (refused : ∀ k, j < k → k ≤ i → attempts[k]?.map Attempt.accepted = some false) :
    (delays 1 attempts)[i]? = some (min (2 ^ (i - j)) longest) := by
  have one : min ((2 : Rat) ^ 0) longest = 1 := by norm_num [longest]
  induction i with
  | zero =>
    obtain rfl : j = 0 := by omega
    rw [delays_first 1 within,Nat.sub_zero,one]
    cases attempts[0] <;> rfl
  | succ i ih =>
    rw [delays_next 1 within]
    rcases Nat.lt_or_ge i j with last | inside
    · obtain rfl : j = i + 1 := by omega
      have accepted := anchor.resolve_left (by omega)
      rw [List.getElem?_eq_getElem within] at accepted
      have counted : i < (delays (1 : Rat) attempts).length := by
        rw [delays_length]
        omega
      rw [List.getElem?_eq_getElem counted,Nat.sub_self,one]
      cases found : attempts[i + 1] with
      | refused =>
        rw [found] at accepted
        cases accepted
      | served messages => rfl
    · have earlier := ih (by omega) inside fun k above below => refused k above (by omega)
      have turned := refused (i + 1) (by omega) (Nat.le_refl _)
      rw [List.getElem?_eq_getElem within] at turned
      rw [earlier,show i + 1 - j = i - j + 1 by omega]
      cases found : attempts[i + 1] with
      | refused => exact congrArg some (doubled_power (i - j))
      | served messages =>
        rw [found] at turned
        cases turned

theorem delays_bounds {attempts : List (Attempt μ)} {backoff : Rat} (low : 1 ≤ backoff) (high : backoff ≤ longest) :
    ∀ due ∈ delays backoff attempts, 1 ≤ due ∧ due ≤ longest := by
  induction attempts generalizing backoff with
  | nil => exact fun due impossible => absurd impossible List.not_mem_nil
  | cons asked rest ih =>
    have slept : 1 ≤ pause backoff asked ∧ pause backoff asked ≤ longest := by
      cases asked with
      | refused => exact ⟨low,high⟩
      | served messages => exact ⟨le_refl _,by norm_num [pause,longest]⟩
    intro due inside
    rcases List.mem_cons.mp inside with rfl | later
    · exact slept
    · refine ih ?_ (min_le_right _ _) due later
      exact le_min (by linarith [slept.1]) (by norm_num [longest])

-- The waits of a client: one for each attempt, doubled at each attempt after the last
-- one that was served, and never outside of their bounds.
structure Waits (attempts : List (Attempt μ)) (slept : List Rat) : Prop where
  each : slept.length = attempts.length
  doubling : ∀ i j, i < attempts.length → j ≤ i →
    (j = 0 ∨ attempts[j]?.map Attempt.accepted = some true) →
    (∀ k, j < k → k ≤ i → attempts[k]?.map Attempt.accepted = some false) →
    slept[i]? = some (min (2 ^ (i - j)) longest)
  bounded : ∀ due ∈ slept, 1 ≤ due ∧ due ≤ longest

theorem watch_waits (f : Follower σ μ ω) (s : σ) (attempts : List (Attempt μ)) :
    Waits attempts ((f.watch s 1 attempts).filterMap Act.slept) := by
  rw [watch_slept]
  exact ⟨delays_length 1 attempts,fun _ _ within order anchor refused => delays_power within order anchor refused,
    delays_bounds (le_refl _) (by norm_num [longest])⟩

end Reconnect
