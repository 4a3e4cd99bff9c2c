import Mathlib.Data.List.Nodup
import HyprlandAgent.Store
import HyprlandAgent.Transition

-- The references that the schema declares: which operations of the daemon keep
-- them, no connection ever switching their enforcement on.
namespace HyprlandAgent.References
open Transition

-- The times and the score that a memory row carries.
structure Decay where
  createdAt : Seconds
  lastAccessedAt : Option Seconds := none
  decayScore : Option Rat := some 1

structure EpisodeRow extends Decay where
  runId : RunId
  task : String
  outcome : String
  summary : String
  contextClass : Option String
  actionsJson : String

structure ReflectionRow extends Decay where
  runId : RunId
  polarity : String
  text : String
  generatedBy : String

structure SkillRow extends Decay where
  skillId : String
  name : String
  description : String
  actionsJson : String
  sourceRunId : Option RunId
  status : String := "draft"

structure SkillOutcomeRow where
  skillId : String
  runId : RunId
  outcome : String
  ts : Seconds

-- The tables, and the runs whose bodies the executor has started.
structure Tables where
  rows : RunId → Rows := fun _ => {}
  episodes : List EpisodeRow := []
  reflections : List ReflectionRow := []
  skills : List SkillRow := []
  skillOutcomes : List SkillOutcomeRow := []
  tasks : List RunId := []

def byTask : StoreWrite → Bool
  | .updateRunStatus _ _ _ | .appendEvent _ | .updateRunMetrics _ _ _ | .upsertRunOutcome _ _ .derived _ => true
  | _ => false

-- `ingest` and `reflect` look the run up first; the two feedback events are the
-- two writes of one `record_feedback`.
inductive Operation where
  | submit (run : RunSummary)
  | write (run : RunId) (write : StoreWrite) (now : Seconds)
  | feedback (run : RunId) (kind : String) (comment : Option String) (now : Seconds)
  | feedbackOutcome (run : RunId) (kind : String) (comment : Option String) (now : Seconds)
  | ingest (episode : EpisodeRow)
  | reflect (reflection : ReflectionRow)
  | insertSkill (skill : SkillRow)
  | recordSkillOutcome (row : SkillOutcomeRow)
  | pruneDecayed (threshold : Rat) (halfLifeDays : Nat) (now : Seconds)

-- `pow` is SQL's `POW(0.5, x)`; a division by zero is null, and so is its power.
def Decay.score (pow : Rat → Rat) (halfLifeDays : Nat) (now : Seconds) (row : Decay) : Option Rat :=
  if halfLifeDays = 0 then none
  else some (pow ((now - row.lastAccessedAt.getD row.createdAt) / (halfLifeDays * 86400)))

-- `decay_score < threshold`, which a null score does not satisfy.
def below (threshold : Rat) (score : Option Rat) : Bool := score.any fun score => score < threshold

section
variable (pow : Rat → Rat)

def decayed (threshold : Rat) (halfLifeDays : Nat) (now : Seconds) (row : Decay) : Bool :=
  below threshold (row.score pow halfLifeDays now)

namespace Tables
variable (s : Tables)

def HasRun (run : RunId) : Prop := (s.rows run).run.isSome = true

def HasSkill (skill : String) : Prop := ∃ row ∈ s.skills, row.skillId = skill

instance (run : RunId) : Decidable (s.HasRun run) := inferInstanceAs (Decidable (_ = true))

instance (skill : String) : Decidable (s.HasSkill skill) :=
  inferInstanceAs (Decidable (∃ row ∈ s.skills, row.skillId = skill))

def store (run : RunId) (now : Seconds) (write : StoreWrite) : Tables :=
  { s with rows := Function.update s.rows run ((write.apply now (s.rows run)).getD (s.rows run)) }

def pruneDecayed (threshold : Rat) (halfLifeDays : Nat) (now : Seconds) : Tables :=
  { s with
    episodes := (s.episodes.map fun row =>
      { row with decayScore := row.score pow halfLifeDays now }).filter fun row =>
        !below threshold row.decayScore
    reflections := (s.reflections.map fun row =>
      { row with decayScore := row.score pow halfLifeDays now }).filter fun row =>
        !below threshold row.decayScore
    skills := (s.skills.map fun row =>
      { row with decayScore := row.score pow halfLifeDays now }).filter fun row =>
        !below threshold row.decayScore }

def step : Operation → Option Tables
  | .submit run =>
    if s.HasRun run.runId then some s
    else some { s.store run.runId 0 (.insertRun run) with tasks := s.tasks ++ [run.runId] }
  | .write run write now =>
    if run ∈ s.tasks ∧ byTask write = true then some (s.store run now write) else none
  | .feedback run kind comment now =>
    if run = "" ∨ kind = "" then some s else some (s.store run now (.insertFeedback kind comment))
  | .feedbackOutcome run kind comment now =>
    if (feedbackToOutcome kind).1 = .unknown then some s
    else some (s.store run now
      (.upsertRunOutcome (feedbackToOutcome kind).1 (feedbackToOutcome kind).2 .explicit comment))
  | .ingest episode =>
    if s.HasRun episode.runId then some
      { s with episodes := s.episodes.filter (fun row => row.runId != episode.runId) ++
          [{ episode with lastAccessedAt := none, decayScore := some 1 }] }
    else some s
  | .reflect reflection =>
    if s.HasRun reflection.runId then some
      { s with reflections := s.reflections ++
          [{ reflection with lastAccessedAt := none, decayScore := some 1 }] }
    else some s
  | .insertSkill skill => some
    { s with skills := s.skills.filter (fun row => row.skillId != skill.skillId) ++
        [{ skill with lastAccessedAt := none, decayScore := some 1, status := "draft" }] }
  | .recordSkillOutcome row => some
    { s with skillOutcomes := s.skillOutcomes.filter (fun old =>
        !(old.skillId == row.skillId && old.runId == row.runId)) ++ [row] }
  | .pruneDecayed threshold halfLifeDays now => some (s.pruneDecayed pow threshold halfLifeDays now)

-- Every reference names a row that is there.
structure Resolves (s : Tables) : Prop where
  events : ∀ run, (s.rows run).events ≠ [] → s.HasRun run
  outcomes : ∀ run, (s.rows run).outcome ≠ none → s.HasRun run
  feedback : ∀ run, (s.rows run).feedback ≠ [] → s.HasRun run
  episodes : ∀ row ∈ s.episodes, s.HasRun row.runId
  reflections : ∀ row ∈ s.reflections, s.HasRun row.runId
  sources : ∀ row ∈ s.skills, ∀ run, row.sourceRunId = some run → s.HasRun run
  skillOutcomes : ∀ row ∈ s.skillOutcomes, s.HasSkill row.skillId ∧ s.HasRun row.runId

-- The bodies that write belong to stored runs, and a skill has one row.
structure Keyed (s : Tables) : Prop where
  tasks : ∀ run ∈ s.tasks, s.HasRun run
  skills : (s.skills.map SkillRow.skillId).Nodup

end Tables

def tables : System Tables Operation := ⟨Tables.step pow⟩

-- Feedback names a stored run, a skill names none or a stored run, its outcome names a
-- stored skill and a stored run, and no skill is pruned that has outcomes.
def checked (s : Tables) : Operation → Prop
  | .feedback run kind _ _ => run = "" ∨ kind = "" ∨ s.HasRun run
  | .feedbackOutcome run kind _ _ => (feedbackToOutcome kind).1 = .unknown ∨ s.HasRun run
  | .insertSkill skill => ∀ run, skill.sourceRunId = some run → s.HasRun run
  | .recordSkillOutcome row => s.HasSkill row.skillId ∧ s.HasRun row.runId
  | .pruneDecayed threshold halfLifeDays now => ∀ row ∈ s.skillOutcomes, ∀ skill ∈ s.skills,
      skill.skillId = row.skillId → decayed pow threshold halfLifeDays now skill.toDecay = false
  | _ => True

end

variable {pow : Rat → Rat} {s next : Tables} {run : RunId} {write : StoreWrite} {now : Seconds}

theorem apply_keeps_run {rows after : Rows} (applied : write.apply now rows = some after)
    (present : rows.run.isSome = true) : after.run.isSome = true := by
  cases write with
  | insertRun new =>
    simp only [StoreWrite.apply,present,if_true] at applied
    cases applied
  | appendEvent event =>
    simp only [StoreWrite.apply] at applied
    split at applied
    · cases applied
    · cases applied
      exact present
  | updateRunStatus status endedAt error =>
    cases applied
    simpa using present
  | updateRunMetrics iterations actionCount durationS =>
    cases applied
    simpa using present
  | _ =>
    cases applied
    exact present

namespace Tables

theorem store_hasRun {other : RunId} (has : s.HasRun other) : (s.store run now write).HasRun other := by
  unfold HasRun store
  by_cases same : other = run
  · subst same
    simp only [Function.update_self]
    cases applied : write.apply now (s.rows other) with
    | none => exact has
    | some after => exact apply_keeps_run applied has
  · simp only [Function.update_of_ne same]
    exact has

theorem store_resolves (resolves : s.Resolves) (has : (s.store run now write).HasRun run) :
    (s.store run now write).Resolves := by
  have kept : ∀ other, (s.HasRun other → (s.store run now write).HasRun other) :=
    fun _ => store_hasRun
  have elsewhere : ∀ other, other ≠ run → (s.store run now write).rows other = s.rows other :=
    fun other different => Function.update_of_ne different _ _
  have named : ∀ other, (other ≠ run → s.HasRun other) → (s.store run now write).HasRun other := by
    intro other before
    by_cases same : other = run
    · exact same ▸ has
    · exact kept other (before same)
  constructor
  · intro other written
    apply named
    intro different
    rw [elsewhere other different] at written
    exact resolves.events other written
  · intro other written
    apply named
    intro different
    rw [elsewhere other different] at written
    exact resolves.outcomes other written
  · intro other written
    apply named
    intro different
    rw [elsewhere other different] at written
    exact resolves.feedback other written
  · exact fun row among => kept _ (resolves.episodes row among)
  · exact fun row among => kept _ (resolves.reflections row among)
  · exact fun row among source named => kept _ (resolves.sources row among source named)
  · exact fun row among => (resolves.skillOutcomes row among).imp id (kept _)

theorem store_keyed (keyed : s.Keyed) : (s.store run now write).Keyed :=
  ⟨fun other among => store_hasRun (keyed.tasks other among),keyed.skills⟩

theorem insertRun_hasRun (summary : RunSummary) (absent : ¬s.HasRun run) :
    (s.store run 0 (.insertRun summary)).HasRun run := by
  have free : (s.rows run).run.isSome = false := by simpa [HasRun] using absent
  simp [HasRun,store,StoreWrite.apply,free]

theorem insertFeedback_hasRun {kind : String} {comment : Option String}
    (has : (s.store run now (.insertFeedback kind comment)).HasRun run) : s.HasRun run := by
  simpa [HasRun,store,StoreWrite.apply] using has

theorem upsertOutcome_hasRun {outcome : RunOutcome} {score : Rat} {source : OutcomeSource}
    {rationale : Option String}
    (has : (s.store run now (.upsertRunOutcome outcome score source rationale)).HasRun run) :
    s.HasRun run := by
  simpa [HasRun,store,StoreWrite.apply] using has

theorem prune_hasSkill {threshold : Rat} {halfLifeDays : Nat} {skill : String} :
    (s.pruneDecayed pow threshold halfLifeDays now).HasSkill skill ↔
      ∃ row ∈ s.skills, row.skillId = skill ∧ decayed pow threshold halfLifeDays now row.toDecay = false := by
  unfold HasSkill pruneDecayed decayed
  constructor
  · intro given
    obtain ⟨row,among,same⟩ := given
    obtain ⟨mapped,kept⟩ := List.mem_filter.mp among
    obtain ⟨old,there,rfl⟩ := List.mem_map.mp mapped
    exact ⟨old,there,same,by simpa using kept⟩
  · intro given
    obtain ⟨row,there,same,kept⟩ := given
    exact ⟨_,List.mem_filter.mpr ⟨List.mem_map.mpr ⟨row,there,rfl⟩,by simpa using kept⟩,same⟩

theorem prune_subset (pow : Rat → Rat) (s : Tables) (threshold : Rat) (halfLifeDays : Nat) (now : Seconds) :
    (∀ row ∈ (s.pruneDecayed pow threshold halfLifeDays now).episodes, ∃ old ∈ s.episodes, old.runId = row.runId) ∧
      (∀ row ∈ (s.pruneDecayed pow threshold halfLifeDays now).reflections,
        ∃ old ∈ s.reflections, old.runId = row.runId) ∧
      ∀ row ∈ (s.pruneDecayed pow threshold halfLifeDays now).skills,
        ∃ old ∈ s.skills, old.sourceRunId = row.sourceRunId := by
  refine ⟨?_,?_,?_⟩
  · intro row among
    obtain ⟨old,there,rfl⟩ := List.mem_map.mp (List.mem_of_mem_filter among)
    exact ⟨old,there,rfl⟩
  · intro row among
    obtain ⟨old,there,rfl⟩ := List.mem_map.mp (List.mem_of_mem_filter among)
    exact ⟨old,there,rfl⟩
  · intro row among
    obtain ⟨old,there,rfl⟩ := List.mem_map.mp (List.mem_of_mem_filter among)
    exact ⟨old,there,rfl⟩

theorem prune_resolves {threshold : Rat} {halfLifeDays : Nat} (keyed : s.Keyed) (resolves : s.Resolves) :
    (s.pruneDecayed pow threshold halfLifeDays now).Resolves ↔
      checked pow s (.pruneDecayed threshold halfLifeDays now) := by
  constructor
  · intro after row among skill there same
    obtain ⟨kept,among',same',fresh⟩ := prune_hasSkill.mp (after.skillOutcomes row among).1
    have one : kept = skill := by
      apply List.inj_on_of_nodup_map keyed.skills among' there
      exact same'.trans same.symm
    exact one ▸ fresh
  · intro fresh
    obtain ⟨episodes,reflections,skills⟩ := prune_subset pow s threshold halfLifeDays now
    refine ⟨resolves.events,resolves.outcomes,resolves.feedback,?_,?_,?_,?_⟩
    · intro row among
      obtain ⟨old,there,same⟩ := episodes row among
      exact same ▸ resolves.episodes old there
    · intro row among
      obtain ⟨old,there,same⟩ := reflections row among
      exact same ▸ resolves.reflections old there
    · intro row among run named
      obtain ⟨old,there,same⟩ := skills row among
      exact resolves.sources old there run (same.trans named)
    · intro row among
      obtain ⟨⟨skill,there,same⟩,run⟩ := resolves.skillOutcomes row among
      exact ⟨prune_hasSkill.mpr ⟨skill,there,same,fresh row among skill there same⟩,run⟩

end Tables

open Tables

theorem skills_replaced (skill : SkillRow) (keys : (s.skills.map SkillRow.skillId).Nodup) :
    ((s.skills.filter (fun row => row.skillId != skill.skillId) ++ [skill]).map SkillRow.skillId).Nodup := by
  rw [List.map_append,List.nodup_append]
  refine ⟨keys.sublist (List.filter_sublist.map _),by simp,?_⟩
  intro kept there new added same
  obtain ⟨row,among,rfl⟩ := List.mem_map.mp there
  have other := (List.mem_filter.mp among).2
  have new_id : new = skill.skillId := by simpa using added
  rw [same,new_id] at other
  simp at other

theorem keyed_step {operation : Operation} (stepped : s.step pow operation = some next) (keyed : s.Keyed) :
    next.Keyed := by
  cases operation with
  | submit run =>
    simp only [step] at stepped
    split at stepped
    · cases stepped
      exact keyed
    · rename_i absent
      cases stepped
      refine ⟨?_,keyed.skills⟩
      intro other among
      rcases List.mem_append.mp among with before | new
      · exact store_hasRun (keyed.tasks other before)
      · rw [List.mem_singleton.mp new]
        exact insertRun_hasRun run absent
  | write run write now =>
    simp only [step] at stepped
    split at stepped
    · cases stepped
      exact store_keyed keyed
    · cases stepped
  | feedback run kind comment now =>
    simp only [step] at stepped
    split at stepped
    · cases stepped
      exact keyed
    · cases stepped
      exact store_keyed keyed
  | feedbackOutcome run kind comment now =>
    simp only [step] at stepped
    split at stepped
    · cases stepped
      exact keyed
    · cases stepped
      exact store_keyed keyed
  | ingest episode =>
    simp only [step] at stepped
    split at stepped
    · cases stepped
      exact ⟨keyed.tasks,keyed.skills⟩
    · cases stepped
      exact keyed
  | reflect reflection =>
    simp only [step] at stepped
    split at stepped
    · cases stepped
      exact ⟨keyed.tasks,keyed.skills⟩
    · cases stepped
      exact keyed
  | insertSkill skill =>
    cases stepped
    exact ⟨keyed.tasks,skills_replaced
      { skill with lastAccessedAt := none, decayScore := some 1, status := "draft" } keyed.skills⟩
  | recordSkillOutcome row =>
    cases stepped
    exact ⟨keyed.tasks,keyed.skills⟩
  | pruneDecayed threshold halfLifeDays now =>
    cases stepped
    refine ⟨keyed.tasks,?_⟩
    have ids : ((s.skills.map fun row =>
        { row with decayScore := row.score pow halfLifeDays now }).map SkillRow.skillId) =
        s.skills.map SkillRow.skillId := by
      rw [List.map_map]
      rfl
    apply List.Nodup.sublist (List.filter_sublist.map _)
    rw [ids]
    exact keyed.skills

theorem step_resolves {operation : Operation} (keyed : s.Keyed) (resolves : s.Resolves)
    (stepped : s.step pow operation = some next) : next.Resolves ↔ checked pow s operation := by
  cases operation with
  | submit run =>
    simp only [step] at stepped
    split at stepped
    · cases stepped
      exact ⟨fun _ => trivial,fun _ => resolves⟩
    · rename_i absent
      cases stepped
      refine ⟨fun _ => trivial,fun _ => ?_⟩
      have stored := store_resolves resolves (insertRun_hasRun run absent)
      exact ⟨stored.events,stored.outcomes,stored.feedback,stored.episodes,stored.reflections,
        stored.sources,stored.skillOutcomes⟩
  | write run write now =>
    simp only [step] at stepped
    split at stepped
    · rename_i allowed
      cases stepped
      exact ⟨fun _ => trivial,fun _ => store_resolves resolves (store_hasRun (keyed.tasks run allowed.1))⟩
    · cases stepped
  | feedback run kind comment now =>
    simp only [step] at stepped
    split at stepped
    · rename_i empty
      cases stepped
      exact ⟨fun _ => empty.imp id .inl,fun _ => resolves⟩
    · rename_i given
      cases stepped
      constructor
      · intro after
        refine .inr (.inr (insertFeedback_hasRun (after.feedback run ?_)))
        simp [store,StoreWrite.apply]
      · intro has
        have present := (or_assoc.mpr has).resolve_left given
        exact store_resolves resolves (store_hasRun present)
  | feedbackOutcome run kind comment now =>
    simp only [step] at stepped
    split at stepped
    · rename_i unknown
      cases stepped
      exact ⟨fun _ => .inl unknown,fun _ => resolves⟩
    · rename_i known
      cases stepped
      constructor
      · intro after
        refine .inr (upsertOutcome_hasRun (after.outcomes run ?_))
        simp [store,StoreWrite.apply]
      · intro has
        exact store_resolves resolves (store_hasRun (has.resolve_left known))
  | ingest episode =>
    simp only [step] at stepped
    split at stepped
    · rename_i has
      cases stepped
      refine ⟨fun _ => trivial,fun _ => ⟨resolves.events,resolves.outcomes,resolves.feedback,?_,
        resolves.reflections,resolves.sources,resolves.skillOutcomes⟩⟩
      intro row among
      rcases List.mem_append.mp among with kept | added
      · exact resolves.episodes row (List.mem_of_mem_filter kept)
      · rw [List.mem_singleton.mp added]
        exact has
    · cases stepped
      exact ⟨fun _ => trivial,fun _ => resolves⟩
  | reflect reflection =>
    simp only [step] at stepped
    split at stepped
    · rename_i has
      cases stepped
      refine ⟨fun _ => trivial,fun _ => ⟨resolves.events,resolves.outcomes,resolves.feedback,
        resolves.episodes,?_,resolves.sources,resolves.skillOutcomes⟩⟩
      intro row among
      rcases List.mem_append.mp among with kept | added
      · exact resolves.reflections row kept
      · rw [List.mem_singleton.mp added]
        exact has
    · cases stepped
      exact ⟨fun _ => trivial,fun _ => resolves⟩
  | insertSkill skill =>
    cases stepped
    constructor
    · intro after run named
      exact after.sources _ (List.mem_append_right _ List.mem_cons_self) run named
    · intro known
      refine ⟨resolves.events,resolves.outcomes,resolves.feedback,resolves.episodes,
        resolves.reflections,?_,?_⟩
      · intro row among run named
        rcases List.mem_append.mp among with kept | added
        · exact resolves.sources row (List.mem_of_mem_filter kept) run named
        · rw [List.mem_singleton.mp added] at named
          exact known run named
      · intro row among
        obtain ⟨⟨old,there,same⟩,run⟩ := resolves.skillOutcomes row among
        refine ⟨?_,run⟩
        by_cases replaced : old.skillId = skill.skillId
        · exact ⟨_,List.mem_append_right _ List.mem_cons_self,replaced.symm.trans same⟩
        · exact ⟨old,List.mem_append_left _ (List.mem_filter.mpr ⟨there,by simpa using replaced⟩),same⟩
  | recordSkillOutcome row =>
    cases stepped
    constructor
    · intro after
      exact after.skillOutcomes row (List.mem_append_right _ List.mem_cons_self)
    · intro known
      refine ⟨resolves.events,resolves.outcomes,resolves.feedback,resolves.episodes,
        resolves.reflections,resolves.sources,?_⟩
      intro other among
      rcases List.mem_append.mp among with kept | added
      · exact resolves.skillOutcomes other (List.mem_of_mem_filter kept)
      · rw [List.mem_singleton.mp added]
        exact known
  | pruneDecayed threshold halfLifeDays now =>
    cases stepped
    exact prune_resolves keyed resolves

-- From a fresh database: every state of a sequence of operations has all its
-- references in place if and only if every operation meets its condition.
theorem references_resolve_iff (pow : Rat → Rat) (operations : List Operation) :
    (tables pow).Always Resolves {} operations ↔ (tables pow).Meets (checked pow) {} operations := by
  refine System.always_iff_meets (I:=Keyed) ?_ ?_ ?_ ?_ operations
  · intro s operation next keyed stepped
    exact keyed_step stepped keyed
  · intro s operation next keyed resolves stepped
    exact step_resolves keyed resolves stepped
  · exact ⟨fun _ among => (by cases among),.nil⟩
  · refine ⟨fun _ written => absurd rfl written,fun _ written => absurd rfl written,
      fun _ written => absurd rfl written,fun _ among => (by cases among),fun _ among => (by cases among),
      fun _ among => (by cases among),fun _ among => (by cases among)⟩

def halving (x : Rat) : Rat := 1 / 2 ^ x.floor.toNat

def aRun : RunSummary := ⟨"r",.run,"task","claude",.running,0,none,none⟩

def aSkill : SkillRow :=
  { createdAt := 0, skillId := "k", name := "n", description := "d", actionsJson := "[]", sourceRunId := none }

theorem feedback_dangles : ¬(tables halving).Always Resolves {} [.feedback "ghost" "thumbs_up" none 0] := by
  intro given
  obtain ⟨_,always⟩ := given
  have resolves : Resolves _ := always _ rfl
  have has := resolves.feedback "ghost" (by simp [store,StoreWrite.apply])
  simp [HasRun,store,StoreWrite.apply] at has

theorem skill_outcome_dangles : ¬(tables halving).Always Resolves {}
    [.submit aRun,.insertSkill aSkill,.recordSkillOutcome ⟨"k","r","success",0⟩,
      .pruneDecayed (1 / 10) 1 345600] := by
  intro given
  obtain ⟨_,always⟩ := given
  have resolves : Resolves _ := (((always _ rfl).2 _ rfl).2 _ rfl).2 _ rfl
  obtain ⟨skill,_⟩ := resolves.skillOutcomes ⟨"k","r","success",0⟩ List.mem_cons_self
  obtain ⟨row,among,_,fresh⟩ := prune_hasSkill.mp skill
  rw [List.mem_singleton.mp among] at fresh
  revert fresh
  decide +kernel

theorem references_dangle :
    ¬(tables halving).Always Resolves {} [.feedback "ghost" "thumbs_up" none 0] ∧
      ¬(tables halving).Always Resolves {}
        [.submit aRun,.insertSkill aSkill,.recordSkillOutcome ⟨"k","r","success",0⟩,
          .pruneDecayed (1 / 10) 1 345600] :=
  ⟨feedback_dangles,skill_outcome_dangles⟩

end HyprlandAgent.References
