import HyprlandAgent.Config.Checks

-- The ranges that the configuration is documented to keep, and which documents keep them.
namespace HyprlandAgent.Config
open FirstOf Screening

structure Documented (config : AgentConfig) : Prop where
  recallK : 1 ≤ config.memory.recallK
  miningIntervalS : 1 ≤ config.learning.miningIntervalS
  halfLifeDays : 1 ≤ config.learning.decay.halfLifeDays
  cleanupIntervalS : 1 ≤ config.learning.decay.cleanupIntervalS
  pruneThreshold : ∃ value, config.learning.decay.pruneThreshold = .finite value ∧ 0 ≤ value ∧ value ≤ 1
  guiActionsPerMinute : 0 ≤ config.rateLimit.guiActionsPerMinute
  terminalCommandsPerMinute : 0 ≤ config.rateLimit.terminalCommandsPerMinute
  otherActionsPerMinute : 0 ≤ config.rateLimit.otherActionsPerMinute
  captureCapKb : 1 ≤ config.terminal.captureCapKb
  budgetTokens : 1 ≤ config.context.budgetTokens
  keepRounds : 0 ≤ config.context.keepRounds
  autoOrder : config.brain.autoOrder ≠ []
  onlyOnce : config.brain.autoOrder.Nodup

-- A configuration within its ranges, or a `ConfigError`.
def Kept : Except Raised AgentConfig → Prop
  | .ok config => Documented config
  | .error error => Refusal error

variable {runtime : Runtime} {data : Mapping}

theorem brainConfig_range {config : BrainConfig} (read : brainConfig runtime data = .ok config) :
    config.autoOrder ≠ [] ∧ config.autoOrder.Nodup := by
  obtain ⟨raw,_,later⟩ := bind_ok.mp read
  obtain ⟨default,_,later⟩ := bind_ok.mp later
  obtain ⟨autoOrder,ordered,later⟩ := bind_ok.mp later
  obtain ⟨rawProviders,_,later⟩ := bind_ok.mp later
  obtain ⟨flags,_,same⟩ := bind_ok.mp later
  cases same
  obtain ⟨order,_,checked⟩ := bind_ok.mp ordered
  dsimp only at checked
  split at checked
  · cases checked
  · rename_i filled
    cases checked
    exact ⟨filled,nodup_firsts⟩

theorem memoryConfig_range {config : MemoryConfig} (read : memoryConfig runtime data = .ok config) :
    1 ≤ config.recallK := by
  obtain ⟨raw,_,later⟩ := bind_ok.mp read
  obtain ⟨recallK,bounded,later⟩ := bind_ok.mp later
  obtain ⟨embedderModel,_,same⟩ := bind_ok.mp later
  cases same
  exact clampInt_bound bounded

def pruneOf (rawParent : Mapping) : Value := prune (fieldsOf (get rawParent "decay"))

theorem pruneThreshold_read {raw : Mapping} {p : Number} (read : pruneThreshold runtime raw = .ok p) :
    toFloat runtime (prune raw) = .ok p ∧ p.below 0 = false ∧ p.above 1 = false := by
  obtain ⟨q,found,within⟩ := (pruneThreshold_follows raw).passes.mp ⟨p,read⟩ _ (List.mem_singleton_self _)
  rw [pruneThreshold_value found within] at read
  cases read
  exact ⟨found,within⟩

structure DecayRange (runtime : Runtime) (rawParent : Mapping) (config : DecayConfig) : Prop where
  halfLifeDays : 1 ≤ config.halfLifeDays
  cleanupIntervalS : 1 ≤ config.cleanupIntervalS
  read : toFloat runtime (pruneOf rawParent) = .ok config.pruneThreshold
  within : config.pruneThreshold.below 0 = false ∧ config.pruneThreshold.above 1 = false

theorem decayConfig_range {config : DecayConfig} (read : decayConfig runtime data = .ok config) :
    DecayRange runtime data config := by
  obtain ⟨raw,section_,later⟩ := bind_ok.mp read
  obtain ⟨p,pruned,later⟩ := bind_ok.mp later
  obtain ⟨halfLifeDays,half,later⟩ := bind_ok.mp later
  obtain ⟨cleanupIntervalS,cleanup,same⟩ := bind_ok.mp later
  cases same
  rw [mapping_fields section_] at pruned
  obtain ⟨given,within⟩ := pruneThreshold_read pruned
  exact ⟨clampInt_bound half,clampInt_bound cleanup,given,within⟩

theorem learningConfig_range {config : LearningConfig} (read : learningConfig runtime data = .ok config) :
    1 ≤ config.miningIntervalS ∧ DecayRange runtime (fieldsOf (get data "learning")) config.decay := by
  obtain ⟨raw,section_,later⟩ := bind_ok.mp read
  obtain ⟨miningIntervalS,mining,later⟩ := bind_ok.mp later
  obtain ⟨decay,decayed,same⟩ := bind_ok.mp later
  cases same
  rw [mapping_fields section_] at decayed
  exact ⟨clampInt_bound mining,decayConfig_range decayed⟩

theorem rateLimitConfig_range {config : RateLimitConfig} (read : rateLimitConfig runtime data = .ok config) :
    0 ≤ config.guiActionsPerMinute ∧ 0 ≤ config.terminalCommandsPerMinute ∧ 0 ≤ config.otherActionsPerMinute := by
  obtain ⟨raw,_,later⟩ := bind_ok.mp read
  obtain ⟨gui,one,later⟩ := bind_ok.mp later
  obtain ⟨terminal,two,later⟩ := bind_ok.mp later
  obtain ⟨other,three,same⟩ := bind_ok.mp later
  cases same
  exact ⟨clampInt_bound one,clampInt_bound two,clampInt_bound three⟩

theorem terminalConfig_range {config : TerminalConfig} (read : terminalConfig runtime data = .ok config) :
    1 ≤ config.captureCapKb := by
  obtain ⟨raw,_,later⟩ := bind_ok.mp read
  obtain ⟨captureCapKb,bounded,same⟩ := bind_ok.mp later
  cases same
  exact clampInt_bound bounded

theorem contextConfig_range {config : ContextConfig} (read : contextConfig runtime data = .ok config) :
    1 ≤ config.budgetTokens ∧ 0 ≤ config.keepRounds := by
  obtain ⟨raw,_,later⟩ := bind_ok.mp read
  obtain ⟨budgetTokens,one,later⟩ := bind_ok.mp later
  obtain ⟨keepRounds,two,same⟩ := bind_ok.mp later
  cases same
  exact ⟨clampInt_bound one,clampInt_bound two⟩

theorem within_finite {p : Number} (within : p.below 0 = false ∧ p.above 1 = false) :
    (∃ value, p = .finite value ∧ 0 ≤ value ∧ value ≤ 1) ↔ p ≠ .nan := by
  cases p with
  | nan =>
    refine iff_of_false ?_ (fun other => other rfl)
    rintro ⟨value,same,_⟩
    cases same
  | inf negative => cases negative <;> simp [Number.below,Number.above] at within
  | finite value =>
    simp only [Number.below,Number.above,decide_eq_false_iff_not] at within
    exact iff_of_true ⟨value,rfl,Rat.not_lt.mp within.1,Rat.not_lt.mp within.2⟩ (fun same => by cases same)

def thresholdOf (document : Option Value) : Value := pruneOf (fieldsOf (get (fieldsOf document) "learning"))

theorem documented_iff {path : String} {document : Option Value} {config : AgentConfig}
    (read : loadConfig runtime path document = .ok config) :
    Documented config ↔ toFloat runtime (thresholdOf document) ≠ .ok .nan := by
  obtain ⟨fields,document_,later⟩ := bind_ok.mp read
  obtain ⟨audit,_,later⟩ := bind_ok.mp later
  obtain ⟨brain,brained,later⟩ := bind_ok.mp later
  obtain ⟨memory,remembered,later⟩ := bind_ok.mp later
  obtain ⟨learning,learned,later⟩ := bind_ok.mp later
  obtain ⟨rateLimit,limited,later⟩ := bind_ok.mp later
  obtain ⟨terminal,capped,later⟩ := bind_ok.mp later
  obtain ⟨integrations,_,later⟩ := bind_ok.mp later
  obtain ⟨context,bounded,same⟩ := bind_ok.mp later
  cases same
  obtain ⟨mining,decay⟩ := learningConfig_range learned
  rw [mapping_fields document_] at decay
  rw [thresholdOf,decay.read]
  have numbers := within_finite decay.within
  constructor
  · intro documented same
    exact numbers.mp documented.pruneThreshold (Except.ok.inj same)
  · intro other
    have rates := rateLimitConfig_range limited
    have context := contextConfig_range bounded
    have order := brainConfig_range brained
    exact {
      recallK := memoryConfig_range remembered
      miningIntervalS := mining
      halfLifeDays := decay.halfLifeDays
      cleanupIntervalS := decay.cleanupIntervalS
      pruneThreshold := numbers.mpr fun same => other (congrArg Except.ok same)
      guiActionsPerMinute := rates.1
      terminalCommandsPerMinute := rates.2.1
      otherActionsPerMinute := rates.2.2
      captureCapKb := terminalConfig_range capped
      budgetTokens := context.1
      keepRounds := context.2
      autoOrder := order.1
      onlyOnce := order.2 }

-- Up to the first value that is refused every conversion succeeds, and where none is refused
-- the threshold is a number.
structure Readable (runtime : Runtime) (document : Option Value) : Prop where
  sound : Sound (documentProbes runtime document)
  number : Passes (documentProbes runtime document) → toFloat runtime (thresholdOf document) ≠ .ok .nan

theorem loadConfig_kept_iff (runtime : Runtime) (path : String) (document : Option Value) :
    Kept (loadConfig runtime path document) ↔ Readable runtime document := by
  have follows := @loadConfig_follows runtime path document
  cases result : loadConfig runtime path document with
  | error error =>
    rw [result] at follows
    have stopped : ¬Passes (documentProbes runtime document) := by
      intro passed
      obtain ⟨config,same⟩ := follows.passes.mpr passed
      cases same
    constructor
    · intro refusal
      exact ⟨follows.sound.mp (refusal_error.mpr refusal),fun passed => absurd passed stopped⟩
    · intro readable
      exact refusal_error.mp (follows.sound.mpr readable.sound)
  | ok config =>
    have numbers := documented_iff result
    rw [result] at follows
    constructor
    · intro documented
      exact ⟨follows.sound.mp fun error failed => (by cases failed),fun _ => numbers.mp documented⟩
    · intro readable
      exact numbers.mpr (readable.number (follows.passes.mp ⟨config,rfl⟩))

def plainRuntime : Runtime where
  lowerOther := id
  reprText := id
  intText := fun _ => none
  floatText := fun _ => none
  floatInt := fun value => some (.finite value)
  intOther := fun _ => none
  floatOther := fun _ => none
  truthyOther := fun _ => true
  str := fun _ => some ""
  repr := fun _ => some ""
  intStr := fun value => some (toString value)
  floatStr := fun _ => ""

-- `memory: {recall_k: null}`
def nullRecall : Value := .dict [(.str "memory",.dict [(.str "recall_k",.null)])]

theorem null_recall_escapes : ¬∀ (runtime : Runtime) (path : String) (document : Option Value),
    Kept (loadConfig runtime path document) := by
  intro kept
  have escaped : loadConfig plainRuntime "config.yaml" (some nullRecall) = .error .typeError := rfl
  have refusal := kept plainRuntime "config.yaml" (some nullRecall)
  rw [escaped] at refusal
  exact typeError_escapes refusal

theorem missing_config_uses_defaults (runtime : Runtime) (path : String) :
    ∃ config, loadConfig runtime path none = .ok config ∧ Documented config := by
  have passed : Passes (documentProbes runtime none) := by
    have auto : lower runtime.lowerOther "auto" = "auto" := rfl
    have threshold : Number.below 0 (.finite (1 / 10)) = false ∧ Number.above 1 (.finite (1 / 10)) = false := by
      decide +kernel
    simpa [Passes,documentProbes,brainProbes,memoryProbes,learningProbes,decayProbes,rateLimitProbes,
      terminalProbes,integrationsProbes,contextProbes,orderProbes,namesProbes,mappingProbe,intProbe,strProbe,
      pruneProbe,defaultProbe,auditProbe,fieldsOf,IsMapping,given,get,prune,toInt,toFloat,toStr,auto] using threshold
  obtain ⟨config,read⟩ := (loadConfig_follows path none).passes.mpr passed
  refine ⟨config,read,(documented_iff read).mpr ?_⟩
  intro same
  cases same

end HyprlandAgent.Config
