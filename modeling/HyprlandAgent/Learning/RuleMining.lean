import HyprlandAgent.JsonDumps
import HyprlandAgent.Learning.Agreement
import HyprlandAgent.Learning.AllowlistMining
import HyprlandAgent.Store
import Mathlib.Data.List.Induction

-- From the history of runs to proposed rules.
namespace HyprlandAgent.Learning
open JsonDumps Transition

-- The tables that the rule miner reads, under their primary keys. An episode is its
-- context class here, and an action is stored with a text for its kind.
structure History where
  runs : List RunRow
  outcomes : List (RunId × OutcomeRow)
  episodes : List (RunId × Option String)
  events : List (RunId × RunEventRecord)
  runsKeyed : (runs.map fun run => run.runId).Nodup
  outcomesKeyed : (outcomes.map Prod.fst).Nodup
  episodesKeyed : (episodes.map Prod.fst).Nodup
  eventsKeyed : (events.map fun event => (event.1,event.2.seq)).Nodup
  named : ∀ event ∈ events, event.2.kind = "action" →
    ∀ kind, event.2.payload.lookup "kind" = some kind → ∃ text, kind = .str text

structure MiningRow where
  run : RunRow
  outcome : RunOutcome
  contextClass : Option String

namespace History
variable (h : History) (cutoff : Seconds)

-- FROM runs JOIN run_outcomes LEFT JOIN episodes
def joined : List MiningRow :=
  h.runs.flatMap fun run => (h.outcomes.filter (·.1 = run.runId)).flatMap fun outcome =>
    match h.episodes.filter (·.1 = run.runId) with
    | [] => [⟨run,outcome.2.outcome,none⟩]
    | episodes => episodes.map fun episode => ⟨run,outcome.2.outcome,episode.2⟩

-- WHERE outcome = 'success' AND started_at >= ? ORDER BY started_at DESC
def selected : List MiningRow :=
  (h.joined.filter fun row => row.outcome = .success ∧ cutoff ≤ row.run.startedAt).mergeSort
    fun a b => b.run.startedAt ≤ a.run.startedAt

def kindOf (payload : Dict) : String :=
  match payload.lookup "kind" with
  | some (.str text) => text
  | _ => "?"

def actionKinds (runId : RunId) : List String :=
  ((h.events.filter fun event => event.1 = runId ∧ event.2.kind = "action").mergeSort
    fun a b => a.2.seq ≤ b.2.seq).map fun event => kindOf event.2.payload

end History

def contextOf : Option String → String
  | none => "any"
  | some text => if text = "" then "any" else text

structure Sighting where
  key : String × String
  runId : RunId

-- One turn of the first loop, over the rows; a run without actions is passed over.
def sight (h : History) (row : MiningRow) : Option Sighting :=
  let kinds := h.actionKinds row.run.runId
  if kinds = [] then none else some ⟨(contextOf row.contextClass,dumps kinds),row.run.runId⟩

def sightings (h : History) (cutoff : Seconds) : List Sighting := (h.selected cutoff).filterMap (sight h)

def counterOf (seen : List Sighting) : MissCounter := seen.foldl (fun counter sighting => bump sighting.key counter) []

-- `run_ids_map`
def runIds (seen : List Sighting) (key : String × String) : List RunId :=
  (seen.filter (·.key = key)).map (·.runId)

def limits : JsonLoads.Limits := ⟨4300,1000⟩

def candidateOf (seen : List Sighting) (entry : (String × String) × Nat) : Candidate where
  contextClass := entry.1.1
  actionKinds := loadsTexts limits entry.1.2
  count := entry.2
  sourceRuns := dumps ((runIds seen entry.1).take 5)

section
variable (yaml : Yaml) (digest : String → String)

def ruleIdOf (contextClass : String) (actionKinds : List String) : String :=
  digest (contextClass ++ "|" ++ dumps actionKinds)

-- The second loop, one candidate after another; the count is of those over the threshold.
-- What was counted under a text is written as the same text again.
def propose (clock : Candidate → Seconds) (candidates : List Candidate) (db : Database yaml.Text) :
    Database yaml.Text × Nat :=
  (candidates.foldl (fun db candidate => proposeRule yaml (ruleIdOf digest) db candidate (clock candidate)) db,
    candidates.countP (hitThreshold ≤ ·.count))

def doMine (h : History) (cutoff : Seconds) (clock : Candidate → Seconds) (db : Database yaml.Text) :
    Database yaml.Text × Nat :=
  let seen := sightings h cutoff
  propose yaml digest clock ((counterOf seen).map (candidateOf seen)) db

end

-- What the miner goes by, told from the tables.
namespace History
variable (h : History) (cutoff : Seconds)

def outcomeOf (runId : RunId) : Option RunOutcome := (h.outcomes.find? (·.1 = runId)).map (·.2.outcome)

def contextClassOf (runId : RunId) : String := contextOf ((h.episodes.find? (·.1 = runId)).bind Prod.snd)

def Had (contextClass : String) (kinds : List String) (run : RunRow) : Prop :=
  cutoff ≤ run.startedAt ∧ h.outcomeOf run.runId = some .success ∧
    h.contextClassOf run.runId = contextClass ∧ h.actionKinds run.runId = kinds

instance (contextClass : String) (kinds : List String) (run : RunRow) :
    Decidable (h.Had cutoff contextClass kinds run) := by
  unfold Had
  infer_instance

def hits (contextClass : String) (kinds : List String) : Nat :=
  h.runs.countP fun run => h.Had cutoff contextClass kinds run

def executedHits (contextClass : String) (kinds : List String) : Nat :=
  h.runs.countP fun run => h.Had cutoff contextClass kinds run ∧ run.kind = .run

theorem executedHits_le (contextClass : String) (kinds : List String) :
    h.executedHits cutoff contextClass kinds ≤ h.hits cutoff contextClass kinds := by
  apply List.countP_mono_left
  intro run _ had
  rw [decide_eq_true_eq] at had ⊢
  exact had.1

end History

theorem filter_keyed {α κ : Type} [DecidableEq κ] {key : α → κ} {rows : List α} (keyed : (rows.map key).Nodup)
    (wanted : κ) : rows.filter (key · = wanted) = (rows.find? (key · = wanted)).toList := by
  induction rows with
  | nil => rfl
  | cons row rest ih =>
    obtain ⟨fresh,keyed⟩ := List.nodup_cons.mp keyed
    by_cases same : key row = wanted
    · have none_ : rest.filter (key · = wanted) = [] := by
        apply List.filter_eq_nil_iff.mpr
        intro other inside again
        exact fresh (same ▸ (of_decide_eq_true again) ▸ List.mem_map_of_mem inside)
      simp [same,none_]
    · simpa [same] using ih keyed

section
variable {h : History} {cutoff : Seconds}

theorem joined_eq (h : History) : h.joined = h.runs.filterMap fun run =>
    (h.outcomes.find? (·.1 = run.runId)).map fun outcome =>
      ⟨run,outcome.2.outcome,(h.episodes.find? (·.1 = run.runId)).bind Prod.snd⟩ := by
  rw [History.joined,List.filterMap_eq_flatMap_toList]
  apply List.flatMap_congr
  intro run _
  rw [filter_keyed h.outcomesKeyed,filter_keyed h.episodesKeyed]
  cases h.outcomes.find? (·.1 = run.runId) with
  | none => rfl
  | some outcome => cases h.episodes.find? (·.1 = run.runId) <;> rfl

theorem sight_eq (h : History) (row : MiningRow) : sight h row =
    if h.actionKinds row.run.runId = [] then none
    else some ⟨(contextOf row.contextClass,dumps (h.actionKinds row.run.runId)),row.run.runId⟩ := rfl

theorem sighting_key {sighting : Sighting} (seen : sighting ∈ sightings h cutoff) :
    ∃ contextClass kinds, kinds ≠ [] ∧ sighting.key = (contextClass,dumps kinds) := by
  obtain ⟨row,_,made⟩ := List.mem_filterMap.mp seen
  rw [sight_eq] at made
  split at made
  · cases made
  · rename_i some_
    cases made
    exact ⟨_,_,some_,rfl⟩

theorem sight_counts (row : MiningRow) (contextClass : String) {kinds : List String} (some_ : kinds ≠ []) :
    ((sight h row).map fun sighting => decide (sighting.key = (contextClass,dumps kinds))).getD false = true ↔
      contextOf row.contextClass = contextClass ∧ h.actionKinds row.run.runId = kinds := by
  rw [sight_eq]
  by_cases empty : h.actionKinds row.run.runId = []
  · rw [if_pos empty,empty]
    exact iff_of_false Bool.false_ne_true fun both => some_ both.2.symm
  · have texts : dumps (h.actionKinds row.run.runId) = dumps kinds ↔ h.actionKinds row.run.runId = kinds :=
      ⟨dumps_injective,congrArg dumps⟩
    rw [if_neg empty]
    simp [texts]

theorem count_sightings (contextClass : String) {kinds : List String} (some_ : kinds ≠ []) :
    (sightings h cutoff).countP (·.key = (contextClass,dumps kinds)) = h.hits cutoff contextClass kinds := by
  rw [sightings,List.countP_filterMap,History.selected,(List.mergeSort_perm _ _).countP_eq,List.countP_filter,joined_eq,
    List.countP_filterMap,History.hits]
  apply List.countP_congr
  intro run _
  rw [decide_eq_true_eq,History.Had,History.outcomeOf,History.contextClassOf]
  cases h.outcomes.find? (·.1 = run.runId) with
  | none => simp
  | some outcome =>
    rw [Option.map_some,Option.map_some,Option.getD_some,Bool.and_eq_true,sight_counts _ _ some_,decide_eq_true_eq,
      Option.map_some,Option.some.injEq]
    constructor
    · rintro ⟨⟨context,kinds⟩,success,late⟩
      exact ⟨late,success,context,kinds⟩
    · rintro ⟨late,success,context,kinds⟩
      exact ⟨⟨context,kinds⟩,success,late⟩

end

section
variable {counter : MissCounter} {key : String × String}

theorem mem_keys_bump (entry : String × String) :
    key ∈ (bump entry counter).map Prod.fst ↔ key = entry ∨ key ∈ counter.map Prod.fst := by
  induction counter with
  | nil => simp [bump]
  | cons known rest ih =>
    rw [bump]
    by_cases same : known.1 = entry
    · rw [if_pos same]
      simp [same]
    · rw [if_neg same,List.map_cons,List.mem_cons,ih,List.map_cons,List.mem_cons]
      exact or_left_comm

theorem nodup_bump (keyed : (counter.map Prod.fst).Nodup) (entry : String × String) :
    ((bump entry counter).map Prod.fst).Nodup := by
  induction counter with
  | nil => exact List.nodup_singleton entry
  | cons known rest ih =>
    obtain ⟨fresh,keyed⟩ := List.nodup_cons.mp keyed
    rw [bump]
    by_cases same : known.1 = entry
    · rw [if_pos same]
      exact List.nodup_cons.mpr ⟨fresh,keyed⟩
    · rw [if_neg same]
      refine List.nodup_cons.mpr ⟨?_,ih keyed⟩
      intro again
      exact ((mem_keys_bump entry).mp again).elim same fresh

theorem counterOf_concat (seen : List Sighting) (sighting : Sighting) :
    counterOf (seen ++ [sighting]) = bump sighting.key (counterOf seen) := by
  rw [counterOf,List.foldl_append]
  rfl

theorem counterOf_keyed (seen : List Sighting) : ((counterOf seen).map Prod.fst).Nodup ∧ Positive (counterOf seen) := by
  induction seen using List.reverseRecOn with
  | nil => exact ⟨.nil,List.forall_mem_nil _⟩
  | append_singleton seen sighting ih =>
    rw [counterOf_concat]
    exact ⟨nodup_bump ih.1 _,ih.2.bump _⟩

theorem missed_counterOf (seen : List Sighting) : missed (counterOf seen) key = seen.countP (·.key = key) := by
  induction seen using List.reverseRecOn with
  | nil => rfl
  | append_singleton seen sighting ih =>
    rw [counterOf_concat,missed_bump,List.countP_append,List.countP_singleton]
    by_cases same : key = sighting.key
    · subst same
      simp [ih]
    · simp [same,Ne.symm same,ih]

theorem mem_counterOf {seen : List Sighting} {count : Nat} :
    (key,count) ∈ counterOf seen ↔ 0 < count ∧ seen.countP (·.key = key) = count := by
  obtain ⟨keyed,positive⟩ := counterOf_keyed seen
  rw [← missed_counterOf,missed]
  constructor
  · intro inside
    have some_ : ((counterOf seen).find? fun known => known.1 = key).isSome = true :=
      List.find?_isSome.mpr ⟨_,inside,decide_eq_true rfl⟩
    obtain ⟨entry,found⟩ := Option.isSome_iff_exists.mp some_
    have named : entry.1 = key := by simpa using List.find?_some found
    have same : entry = (key,count) := List.inj_on_of_nodup_map keyed (List.mem_of_find?_eq_some found) inside named
    rw [found,same]
    exact ⟨positive _ inside,rfl⟩
  · rintro ⟨some_,counted⟩
    cases found : (counterOf seen).find? fun known => known.1 = key with
    | none =>
      rw [found] at counted
      exact absurd counted (Nat.ne_of_lt some_)
    | some entry =>
      rw [found] at counted
      have named : entry.1 = key := by simpa using List.find?_some found
      have same : entry = (key,count) := Prod.ext named counted
      exact same ▸ List.mem_of_find?_eq_some found

end

section
variable {yaml : Yaml} {digest : String → String} {db : Database yaml.Text} {clock : Candidate → Seconds}

def HasRule {Text : Type} (digest : String → String) (db : Database Text) (contextClass : String) (kinds : List String) :
    Prop :=
  ∃ rule ∈ db.rules, rule.ruleId = ruleIdOf digest contextClass kinds

theorem proposeRule_rules (candidate : Candidate) (now : Seconds) :
    ∃ added, (proposeRule yaml (ruleIdOf digest) db candidate now).rules = db.rules ++ added := by
  unfold proposeRule Database.insertLearnedRule
  split
  · exact ⟨[],(List.append_nil _).symm⟩
  · split
    · exact ⟨[],(List.append_nil _).symm⟩
    · exact ⟨_,rfl⟩

theorem hasRule_proposeRule (candidate : Candidate) (now : Seconds) (contextClass : String) (kinds : List String) :
    HasRule digest (proposeRule yaml (ruleIdOf digest) db candidate now) contextClass kinds ↔
      HasRule digest db contextClass kinds ∨ hitThreshold ≤ candidate.count ∧
        ruleIdOf digest candidate.contextClass candidate.actionKinds = ruleIdOf digest contextClass kinds := by
  unfold proposeRule Database.insertLearnedRule HasRule
  by_cases few : candidate.count < hitThreshold
  · rw [if_pos few]
    exact (or_iff_left fun both => Nat.not_le.mpr few both.1).symm
  · rw [if_neg few,and_iff_right (Nat.not_lt.mp few)]
    split
    · rename_i known
      obtain ⟨rule,inside,named⟩ := List.any_eq_true.mp known
      refine (or_iff_left_of_imp ?_).symm
      intro same
      exact ⟨rule,inside,(of_decide_eq_true named).trans same⟩
    · simp only [List.mem_append,List.mem_singleton,or_and_right,exists_or,exists_eq_left]

theorem propose_rules (candidates : List Candidate) (db : Database yaml.Text) :
    db.rules <+: (propose yaml digest clock candidates db).1.rules := by
  unfold propose
  induction candidates generalizing db with
  | nil => exact List.prefix_refl _
  | cons candidate rest ih =>
    obtain ⟨added,grown⟩ := @proposeRule_rules yaml digest db candidate (clock candidate)
    exact (grown ▸ List.prefix_append db.rules added).trans (ih _)

theorem hasRule_propose (candidates : List Candidate) (db : Database yaml.Text) (contextClass : String)
    (kinds : List String) :
    HasRule digest (propose yaml digest clock candidates db).1 contextClass kinds ↔
      HasRule digest db contextClass kinds ∨ ∃ candidate ∈ candidates, hitThreshold ≤ candidate.count ∧
        ruleIdOf digest candidate.contextClass candidate.actionKinds = ruleIdOf digest contextClass kinds := by
  unfold propose
  induction candidates generalizing db with
  | nil => simp
  | cons candidate rest ih =>
    rw [List.foldl_cons,ih,hasRule_proposeRule,or_assoc,List.exists_mem_cons_iff]

end

section
variable {yaml : Yaml} {digest : String → String}

def Tells (digest : String → String) : Prop :=
  ∀ context contexts : String, ∀ kinds others : List String,
    digest (context ++ "|" ++ dumps kinds) = digest (contexts ++ "|" ++ dumps others) →
      context ++ "|" ++ dumps kinds = contexts ++ "|" ++ dumps others

def PairsApart (digest : String → String) : Prop :=
  ∀ context contexts : String, ∀ kinds others : List String,
    ruleIdOf digest context kinds = ruleIdOf digest contexts others → context = contexts ∧ kinds = others

theorem Tells.apart (tells : Tells digest) : PairsApart digest := by
  intro context contexts kinds others same
  exact marked_injective '|' (by decide) (tells _ _ _ _ same)

theorem candidateOf_kinds (seen : List Sighting) {entry : (String × String) × Nat} {contextClass : String}
    {kinds : List String} (key : entry.1 = (contextClass,dumps kinds)) :
    (candidateOf seen entry).contextClass = contextClass ∧ (candidateOf seen entry).actionKinds = kinds := by
  refine ⟨congrArg Prod.fst key,?_⟩
  rw [candidateOf,key]
  exact loadsTexts_dumps kinds (by decide)

theorem hasRule_doMine (tells : Tells digest) (h : History) (cutoff : Seconds) (clock : Candidate → Seconds)
    (db : Database yaml.Text) (contextClass : String) (kinds : List String) :
    HasRule digest (doMine yaml digest h cutoff clock db).1 contextClass kinds ↔
      HasRule digest db contextClass kinds ∨ kinds ≠ [] ∧ hitThreshold ≤ h.hits cutoff contextClass kinds := by
  rw [doMine,hasRule_propose]
  refine or_congr_right ⟨?_,?_⟩
  · rintro ⟨candidate,listed,enough,same⟩
    obtain ⟨entry,counted,rfl⟩ := List.mem_map.mp listed
    obtain ⟨some_,count⟩ := mem_counterOf.mp counted
    obtain ⟨sighting,seen,named⟩ := List.countP_pos_iff.mp (count ▸ some_)
    obtain ⟨context,others,filled,key⟩ := sighting_key seen
    have listedKey : entry.1 = (context,dumps others) := (of_decide_eq_true named).symm.trans key
    obtain ⟨sameContext,sameKinds⟩ := candidateOf_kinds (sightings h cutoff) listedKey
    rw [sameContext,sameKinds] at same
    obtain ⟨rfl,rfl⟩ := tells.apart _ _ _ _ same
    refine ⟨filled,?_⟩
    rw [← count_sightings _ filled,← listedKey,count]
    exact enough
  · rintro ⟨filled,enough⟩
    rw [← count_sightings _ filled] at enough
    have counted := mem_counterOf.mpr ⟨Nat.lt_of_lt_of_le (by decide) enough,rfl⟩
    obtain ⟨sameContext,sameKinds⟩ := @candidateOf_kinds (sightings h cutoff)
      ((contextClass,dumps kinds),(sightings h cutoff).countP (·.key = (contextClass,dumps kinds))) contextClass kinds rfl
    refine ⟨_,List.mem_map_of_mem counted,enough,?_⟩
    rw [sameContext,sameKinds]

theorem propose_mined (clock : Candidate → Seconds) (candidates : List Candidate) (db : Database yaml.Text) :
    (propose yaml digest clock candidates db).1 =
      (candidates.map fun candidate => .rule candidate (clock candidate)).foldl (mine yaml (ruleIdOf digest)) db := by
  rw [List.foldl_map]
  rfl

theorem Keyed.doMine {db : Database yaml.Text} (keyed : Keyed db) (h : History) (cutoff : Seconds)
    (clock : Candidate → Seconds) : Keyed (Learning.doMine yaml digest h cutoff clock db).1 := by
  have further (mined : List Mined) : Keyed (mined.foldl (Learning.mine yaml (ruleIdOf digest)) db) := by
    induction mined using List.reverseRecOn with
    | nil => exact keyed
    | append_singleton mined last ih =>
      rw [List.foldl_append]
      exact ih.mine last
  rw [Learning.doMine,propose_mined]
  exact further _

-- Mining again and again, over whatever histories, in whatever windows.
structure MiningRun where
  history : History
  cutoff : Seconds
  clock : Candidate → Seconds

def ruleMining (yaml : Yaml) (digest : String → String) : System (Database yaml.Text) MiningRun where
  step := fun db event => some (doMine yaml digest event.history event.cutoff event.clock db).1

theorem rows_kept {db later : Database yaml.Text} (run : Reachable (ruleMining yaml digest) db later) :
    db.rules <+: later.rules := by
  induction run with
  | refl => exact List.prefix_refl _
  | step _ _ stepped ih =>
    cases stepped
    exact ih.trans (propose_rules _ _)

-- The rules that are there after a mining are those that were, and those of the pairs that
-- enough executed runs of the window had.
def MinesExecuted (digest : String → String) (h : History) (cutoff : Seconds) {Text : Type}
    (db after : Database Text) : Prop :=
  ∀ contextClass kinds, HasRule digest after contextClass kinds ↔ HasRule digest db contextClass kinds ∨
    kinds ≠ [] ∧ hitThreshold ≤ h.executedHits cutoff contextClass kinds

theorem rules_mined_iff (yaml : Yaml) (digest : String → String) (tells : Tells digest) (h : History) (cutoff : Seconds)
    (clock : Candidate → Seconds) (db : Database yaml.Text) :
    (MinesExecuted digest h cutoff db (doMine yaml digest h cutoff clock db).1 ∧ PairsApart digest ∧
      ∀ later, Reachable (ruleMining yaml digest) db later → db.rules <+: later.rules) ↔
    ∀ contextClass kinds, kinds ≠ [] → hitThreshold ≤ h.hits cutoff contextClass kinds →
      HasRule digest db contextClass kinds ∨ hitThreshold ≤ h.executedHits cutoff contextClass kinds := by
  rw [and_iff_left ⟨tells.apart,fun later run => rows_kept run⟩]
  unfold MinesExecuted
  simp only [hasRule_doMine tells]
  constructor
  · intro exact_ contextClass kinds filled enough
    exact ((exact_ contextClass kinds).mp (.inr ⟨filled,enough⟩)).imp id And.right
  · intro backed contextClass kinds
    constructor
    · rintro (known | ⟨filled,enough⟩)
      · exact .inl known
      · exact (backed contextClass kinds filled enough).imp id (And.intro filled)
    · rintro (known | ⟨filled,enough⟩)
      · exact .inl known
      · exact .inr ⟨filled,Nat.le_trans enough (h.executedHits_le cutoff _ _)⟩

end

def focused (kind : RunKind) (runId : RunId) : RunRow where
  runId := runId
  kind := kind
  task := "focus the terminal"
  brain := "claude"
  status := .completed
  startedAt := 10

def focusing : RunEventRecord := ⟨1,11,"action",dict [("kind",.str "focus_window")]⟩

def completedRow : OutcomeRow := ⟨.success,4 / 5,.derived,none,12⟩

def focusedRuns : List RunId := ["a","b","c"]

def focusedHistory (kind : RunKind) : History where
  runs := focusedRuns.map (focused kind)
  outcomes := focusedRuns.map fun runId => (runId,completedRow)
  episodes := []
  events := focusedRuns.map fun runId => (runId,focusing)
  runsKeyed := (by decide : focusedRuns.Nodup)
  outcomesKeyed := (by decide : focusedRuns.Nodup)
  episodesKeyed := .nil
  eventsKeyed := (by decide : (focusedRuns.map fun runId => (runId,1)).Nodup)
  named := by
    intro event inside _ kind found
    obtain ⟨runId,_,rfl⟩ := List.mem_map.mp inside
    cases found
    exact ⟨_,rfl⟩

theorem focused_actionKinds (kind : RunKind) {runId : RunId} (listed : runId ∈ focusedRuns) :
    (focusedHistory kind).actionKinds runId = ["focus_window"] := by
  have one : ((focusedHistory kind).events.filter fun event => event.1 = runId ∧ event.2.kind = "action") =
      [(runId,focusing)] := by
    simp only [focusedRuns,List.mem_cons,List.not_mem_nil,or_false] at listed
    rcases listed with rfl | rfl | rfl <;> rfl
  rw [History.actionKinds,one,List.mergeSort_singleton]
  rfl

theorem focused_had (kind : RunKind) {runId : RunId} (listed : runId ∈ focusedRuns) :
    (focusedHistory kind).Had 0 "any" ["focus_window"] (focused kind runId) := by
  have late : (0 : Seconds) ≤ 10 := by decide +kernel
  refine ⟨late,?_,rfl,focused_actionKinds kind listed⟩
  simp only [focusedRuns,List.mem_cons,List.not_mem_nil,or_false] at listed
  rcases listed with rfl | rfl | rfl <;> rfl

theorem focused_hits (kind : RunKind) : (focusedHistory kind).hits 0 "any" ["focus_window"] = 3 := by
  have all : (focusedHistory kind).hits 0 "any" ["focus_window"] = (focusedHistory kind).runs.length := by
    apply List.countP_eq_length.mpr
    intro run inside
    obtain ⟨runId,listed,rfl⟩ := List.mem_map.mp inside
    exact decide_eq_true (focused_had kind listed)
  rw [all]
  rfl

def learnedNothing : Database plainYaml.Text := ⟨[],[],[],0⟩

theorem id_tells : Tells id := fun _ _ _ _ same => same

theorem focused_runs_mined : MinesExecuted id (focusedHistory .run) 0 learnedNothing
    (doMine plainYaml id (focusedHistory .run) 0 (fun _ => 20) learnedNothing).1 := by
  refine ((rules_mined_iff plainYaml id id_tells (focusedHistory .run) 0 (fun _ => 20) learnedNothing).mpr ?_).1
  intro contextClass kinds _ enough
  refine .inr (Nat.le_trans enough (List.countP_mono_left ?_))
  intro run inside had
  obtain ⟨runId,_,rfl⟩ := List.mem_map.mp inside
  exact decide_eq_true ⟨of_decide_eq_true had,rfl⟩

theorem planned_actions_mined : ¬∀ (yaml : Yaml) (digest : String → String), Tells digest →
    ∀ (h : History) (cutoff : Seconds) (clock : Candidate → Seconds) (db : Database yaml.Text),
      MinesExecuted digest h cutoff db (doMine yaml digest h cutoff clock db).1 := by
  intro all
  have mined := (all plainYaml id id_tells (focusedHistory .plan) 0 (fun _ => 20) learnedNothing) "any" ["focus_window"]
  rw [hasRule_doMine id_tells] at mined
  have enough : hitThreshold ≤ (focusedHistory .plan).hits 0 "any" ["focus_window"] := by
    rw [focused_hits]
    decide
  have none_ : (focusedHistory .plan).executedHits 0 "any" ["focus_window"] = 0 := by
    apply List.countP_eq_zero.mpr
    intro run inside executed
    obtain ⟨runId,_,rfl⟩ := List.mem_map.mp inside
    cases (of_decide_eq_true executed).2
  rcases mined.mp (.inr ⟨List.cons_ne_nil _ _,enough⟩) with ⟨rule,inside,_⟩ | ⟨_,few⟩
  · cases inside
  · rw [none_] at few
    exact absurd few (by decide)

end HyprlandAgent.Learning
