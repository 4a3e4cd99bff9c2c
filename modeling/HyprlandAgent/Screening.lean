import Mathlib.Data.List.Basic

-- Computations that check one value after another and stop at the first they refuse: which
-- of them refuse in the way they are allowed to, told from the checks alone.
namespace Screening
variable {ε α β : Type} {allowed : ε → Prop}

-- A check is sound if it does not fail in another way, whether the value passes or not.
structure Probe where
  sound : Prop
  passes : Prop

def Sound : List Probe → Prop
  | [] => True
  | probe :: rest => probe.sound ∧ (probe.passes → Sound rest)

def Passes (probes : List Probe) : Prop := ∀ probe ∈ probes, probe.passes

-- The checks account for the computation.
structure Follows (allowed : ε → Prop) (run : Except ε α) (probes : List Probe) : Prop where
  sound : (∀ error, run = .error error → allowed error) ↔ Sound probes
  passes : (∃ value, run = .ok value) ↔ Passes probes

theorem passes_append {one two : List Probe} : Passes (one ++ two) ↔ Passes one ∧ Passes two := by
  simp only [Passes,List.mem_append,or_imp,forall_and]

theorem sound_append {one two : List Probe} :
    Sound (one ++ two) ↔ Sound one ∧ (Passes one → Sound two) := by
  induction one with
  | nil => simp [Sound,Passes]
  | cons probe rest ih =>
    simp only [List.cons_append,Sound,ih,Passes,List.forall_mem_cons]
    constructor
    · intro both
      exact ⟨⟨both.1,fun passed => (both.2 passed).1⟩,fun passed => (both.2 passed.1).2 passed.2⟩
    · intro both
      exact ⟨both.1.1,fun passed => ⟨both.1.2 passed,fun later => both.2 ⟨passed,later⟩⟩⟩

theorem Follows.ok (value : α) : Follows allowed (.ok value) [] where
  sound := iff_of_true (fun _ failed => by cases failed) trivial
  passes := iff_of_true ⟨value,rfl⟩ (List.forall_mem_nil _)

theorem Follows.single {run : Except ε α} {probe : Probe}
    (sound : (∀ error, run = .error error → allowed error) ↔ probe.sound)
    (passes : (∃ value, run = .ok value) ↔ probe.passes) : Follows allowed run [probe] where
  sound := sound.trans ⟨fun holds => ⟨holds,fun _ => trivial⟩,And.left⟩
  passes := passes.trans (List.forall_mem_singleton).symm

theorem Follows.bind {run : Except ε α} {next : α → Except ε β} {one two : List Probe}
    (first : Follows allowed run one)
    (second : ∀ value, run = .ok value → Follows allowed (next value) two) :
    Follows allowed (run >>= next) (one ++ two) := by
  cases run with
  | error error =>
    have stopped : ¬Passes one := by
      intro passed
      obtain ⟨value,same⟩ := first.passes.mpr passed
      cases same
    constructor
    · rw [sound_append]
      constructor
      · intro safe
        have early : Sound one := first.sound.mp fun other same => by cases same; exact safe error rfl
        exact ⟨early,fun passed => absurd passed stopped⟩
      · rintro ⟨safe,_⟩ other same
        cases same
        exact first.sound.mpr safe error rfl
    · rw [passes_append]
      exact iff_of_false (by rintro ⟨value,same⟩; cases same) fun both => stopped both.1
  | ok value =>
    have passed : Passes one := first.passes.mp ⟨value,rfl⟩
    have safe : Sound one := first.sound.mp fun error same => by cases same
    have later := second value rfl
    constructor
    · rw [sound_append]
      exact later.sound.trans ⟨fun holds => ⟨safe,fun _ => holds⟩,fun both => both.2 passed⟩
    · rw [passes_append]
      exact later.passes.trans ⟨fun holds => ⟨passed,holds⟩,And.right⟩

theorem Follows.map {run : Except ε α} {probes : List Probe} (follows : Follows allowed run probes)
    (f : α → β) : Follows allowed (f <$> run) probes := by
  have mapped := @Follows.bind ε α β allowed run (fun value => .ok (f value)) probes [] follows fun value _ => .ok (f value)
  rw [List.append_nil] at mapped
  cases run <;> exact mapped

theorem Follows.mapM {f : α → Except ε β} {probes : α → List Probe}
    (each : ∀ item, Follows allowed (f item) (probes item)) (items : List α) :
    Follows allowed (items.mapM f) (items.flatMap probes) := by
  induction items with
  | nil => exact .ok []
  | cons item items ih =>
    rw [List.mapM_cons,List.flatMap_cons]
    refine (each item).bind fun value _ => ?_
    have rest := @Follows.bind ε (List β) (List β) allowed _ (fun values => .ok (value :: values)) _ [] ih fun values _ => .ok _
    rwa [List.append_nil] at rest

theorem bind_ok {run : Except ε α} {next : α → Except ε β} {value : β} :
    (run >>= next) = .ok value ↔ ∃ first, run = .ok first ∧ next first = .ok value := by
  cases run with
  | error error =>
    refine iff_of_false (fun same => by cases same) ?_
    rintro ⟨first,same,_⟩
    cases same
  | ok first =>
    constructor
    · intro same
      exact ⟨first,rfl,same⟩
    · rintro ⟨other,same,later⟩
      cases same
      exact later

end Screening
