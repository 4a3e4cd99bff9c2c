import Mathlib.Logic.Basic

-- Transition systems given by a partial step function, and the runs whose steps
-- all meet a condition.
namespace Transition
variable {σ ε : Type*}

structure System (σ ε : Type*) where
  step : σ → ε → Option σ

-- Reached from `start` by steps that meet `good`, judged where each is taken.
inductive Run (M : System σ ε) (good : σ → ε → Prop) (start : σ) : σ → Prop where
  | refl : Run M good start start
  | step : Run M good start s → good s event → M.step s event = some next → Run M good start next

abbrev anyhow (_ : σ) (_ : ε) : Prop := True

abbrev Reachable (M : System σ ε) (start : σ) : σ → Prop := Run M anyhow start

theorem Run.trans {M : System σ ε} {good : σ → ε → Prop} (one : Run M good a b)
    (two : Run M good b c) : Run M good a c := by
  induction two with
  | refl => exact one
  | step _ met stepped ih => exact .step ih met stepped

theorem Run.relax {M : System σ ε} {good fair : σ → ε → Prop}
    (weaker : ∀ s event, good s event → fair s event) (run : Run M good start s) :
    Run M fair start s := by
  induction run with
  | refl => exact .refl
  | step _ met stepped ih => exact .step ih (weaker _ _ met) stepped

theorem Run.invariant {M : System σ ε} {good : σ → ε → Prop} {P : σ → Prop} (initial : P start)
    (step : ∀ s event next, P s → good s event → M.step s event = some next → P next)
    (run : Run M good start s) : P s := by
  induction run with
  | refl => exact initial
  | step _ met stepped ih => exact step _ _ _ ih met stepped

namespace System

def play (M : System σ ε) (s : σ) : List ε → Option σ
  | [] => some s
  | event :: rest => (M.step s event).bind fun next => M.play next rest

def under (M : System σ ε) (good : σ → ε → Prop) [∀ s event, Decidable (good s event)] :
    System σ ε where
  step := fun s event => if good s event then M.step s event else none

theorem play_under {M : System σ ε} {good : σ → ε → Prop} [∀ s event, Decidable (good s event)]
    {start s : σ} {events : List ε} (played : (M.under good).play start events = some s) :
    Run M good start s := by
  induction events generalizing start with
  | nil =>
    cases played
    exact .refl
  | cons event rest ih =>
    obtain ⟨next,stepped,others⟩ := Option.bind_eq_some_iff.mp played
    by_cases met : good start event
    · simp only [under,if_pos met] at stepped
      exact Run.trans (.step .refl met stepped) (ih others)
    · simp [under,met] at stepped

theorem play_reachable {M : System σ ε} {start s : σ} {events : List ε}
    (played : M.play start events = some s) : Reachable M start s := by
  induction events generalizing start with
  | nil =>
    cases played
    exact .refl
  | cons event rest ih =>
    obtain ⟨next,stepped,others⟩ := Option.bind_eq_some_iff.mp played
    exact Run.trans (.step .refl trivial stepped) (ih others)

theorem play_invariant {M : System σ ε} {P : List ε → σ → Prop} {start s : σ} {events : List ε}
    (initial : P [] start)
    (step : ∀ past s event next, P past s → M.step s event = some next → P (past ++ [event]) next)
    (played : M.play start events = some s) : P events s := by
  have further (past : List ε) (middle : σ) (held : P past middle)
      (others : M.play middle events = some s) : P (past ++ events) s := by
    clear played initial
    induction events generalizing past middle with
    | nil =>
      cases others
      rw [List.append_nil]
      exact held
    | cons event rest ih =>
      obtain ⟨next,stepped,later⟩ := Option.bind_eq_some_iff.mp others
      have continued := ih _ next (step past middle event next held stepped) later
      rwa [List.append_assoc] at continued
  exact further [] start initial played

theorem found_under {M : System σ ε} {good : σ → ε → Prop} [∀ s event, Decidable (good s event)]
    {start : σ} {events : List ε} {check : σ → Bool}
    (played : ((M.under good).play start events).any check = true) :
    ∃ s, Run M good start s ∧ check s = true := by
  obtain ⟨s,reached,shown⟩ := (Option.any_eq_true _ _).mp played
  exact ⟨s,play_under reached,shown⟩

theorem found {M : System σ ε} {start : σ} {events : List ε} {check : σ → Bool}
    (played : (M.play start events).any check = true) :
    ∃ s, Reachable M start s ∧ check s = true := by
  obtain ⟨s,reached,shown⟩ := (Option.any_eq_true _ _).mp played
  exact ⟨s,play_reachable reached,shown⟩

def follow (M : System σ ε) : σ → List (σ → ε) → Option σ
  | s,[] => some s
  | s,cue :: rest => (M.step s (cue s)).bind fun next => M.follow next rest

theorem follow_played {M : System σ ε} {start s : σ} {cues : List (σ → ε)}
    (followed : M.follow start cues = some s) : ∃ events, M.play start events = some s := by
  induction cues generalizing start with
  | nil => exact ⟨[],followed⟩
  | cons cue rest ih =>
    obtain ⟨next,stepped,others⟩ := Option.bind_eq_some_iff.mp followed
    obtain ⟨events,played⟩ := ih others
    exact ⟨cue start :: events,Option.bind_eq_some_iff.mpr ⟨next,stepped,played⟩⟩

def Always (M : System σ ε) (P : σ → Prop) (s : σ) : List ε → Prop
  | [] => P s
  | event :: rest => P s ∧ ∀ next, M.step s event = some next → M.Always P next rest

theorem Always.cons {M : System σ ε} {P : σ → Prop} {s next : σ} {event : ε} {rest : List ε}
    (holds : P s) (stepped : M.step s event = some next) (others : M.Always P next rest) :
    M.Always P s (event :: rest) := by
  refine ⟨holds,?_⟩
  intro reached same
  cases stepped.symm.trans same
  exact others

theorem Always.played {M : System σ ε} {P : σ → Prop} {s last : σ} {events : List ε}
    (always : M.Always P s events) (played : M.play s events = some last) : P last := by
  induction events generalizing s with
  | nil =>
    cases played
    exact always
  | cons event rest ih =>
    obtain ⟨next,stepped,others⟩ := Option.bind_eq_some_iff.mp played
    exact ih (always.2 next stepped) others

def Meets (M : System σ ε) (good : σ → ε → Prop) (s : σ) : List ε → Prop
  | [] => True
  | event :: rest => ∀ next, M.step s event = some next → good s event ∧ M.Meets good next rest

theorem always_iff_meets {M : System σ ε} {good : σ → ε → Prop} {P I : σ → Prop}
    (keeps : ∀ s event next, I s → M.step s event = some next → I next)
    (decides : ∀ s event next, I s → P s → M.step s event = some next → (P next ↔ good s event))
    {start : σ} (invariant : I start) (holds : P start) (events : List ε) :
    M.Always P start events ↔ M.Meets good start events := by
  induction events generalizing start with
  | nil => exact ⟨fun _ => trivial,fun _ => holds⟩
  | cons event rest ih =>
    constructor
    · intro given next stepped
      obtain ⟨_,always⟩ := given
      have after : P next := by
        have continued := always next stepped
        cases rest with
        | nil => exact continued
        | cons _ _ => exact continued.1
      have kept := keeps _ _ _ invariant stepped
      exact ⟨(decides _ _ _ invariant holds stepped).mp after,(ih kept after).mp (always next stepped)⟩
    · intro meets
      refine ⟨holds,?_⟩
      intro next stepped
      obtain ⟨met,others⟩ := meets next stepped
      have after := (decides _ _ _ invariant holds stepped).mpr met
      exact (ih (keeps _ _ _ invariant stepped) after).mpr others

theorem meets_iff_meets {M : System σ ε} {good fair : σ → ε → Prop} {I : σ → Prop}
    (keeps : ∀ s event next, I s → M.step s event = some next → I next)
    (agree : ∀ s event next, I s → M.step s event = some next → (good s event ↔ fair s event))
    {start : σ} (invariant : I start) (events : List ε) : M.Meets good start events ↔ M.Meets fair start events := by
  induction events generalizing start with
  | nil => exact .rfl
  | cons event rest ih =>
    refine forall₂_congr fun next stepped => and_congr ?_ ?_
    · exact agree start event next invariant stepped
    · exact ih (keeps start event next invariant stepped)

end System
end Transition
