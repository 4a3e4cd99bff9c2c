import HyprlandAgent.Screening
import HyprlandAgent.FirstOf
import Mathlib.Data.Rat.Defs

-- Local configuration for provider selection and daemon behaviour.
namespace HyprlandAgent.Config
open FirstOf

inductive Provider where
  | claude | openai | moonshot | groq | together | zai | qwen
  deriving DecidableEq, Repr

def Provider.value : Provider → String
  | .claude => "claude"
  | .openai => "openai"
  | .moonshot => "moonshot"
  | .groq => "groq"
  | .together => "together"
  | .zai => "zai"
  | .qwen => "qwen"

def knownProviders : List Provider := [.claude,.openai,.moonshot,.groq,.together,.zai,.qwen]

def defaultAutoOrder : List Provider := knownProviders

def Provider.ofValue (text : String) : Option Provider :=
  knownProviders.find? fun provider => provider.value == text

@[simp] theorem Provider.ofValue_value (provider : Provider) : Provider.ofValue provider.value = some provider := by
  cases provider <;> decide

def brainAliases : List (String × String) :=
  [("claude","claude"),("openai","openai"),("gpt","openai"),("moonshot","moonshot"),("kimi","moonshot"),
    ("k2","moonshot"),("groq","groq"),("together","together"),("togetherai","together"),("zai","zai"),
    ("glm","zai"),("z.ai","zai"),("qwen","qwen"),("dashscope","qwen")]

-- A Python float.
inductive Number where
  | nan
  | inf (negative : Bool)
  | finite (value : Rat)
  deriving DecidableEq, Repr

-- Comparisons with a bound; one with NaN is false.
def Number.below (bound : Rat) : Number → Bool
  | .nan => false
  | .inf negative => negative
  | .finite value => decide (value < bound)

def Number.above (bound : Rat) : Number → Bool
  | .nan => false
  | .inf negative => !negative
  | .finite value => decide (bound < value)

-- What `yaml.safe_load` makes of a document. Dates, bytes, sets and the like are known
-- only by what is asked of them.
inductive Value where
  | null
  | bool (value : Bool)
  | int (value : Int)
  | float (value : Number)
  | str (text : String)
  | list (items : List Value)
  | dict (fields : List (Value × Value))
  | other (object : Nat)
  deriving Inhabited

abbrev Mapping := List (Value × Value)

-- The parts of the language that depend on more than is modelled here. A text is missing where
-- it cannot be made, as that of an integer with too many digits.
structure Runtime where
  lowerOther : String → String
  reprText : String → String
  intText : String → Option Int
  floatText : String → Option Number
  floatInt : Int → Option Number
  intOther : Nat → Option Int
  floatOther : Nat → Option Number
  truthyOther : Nat → Bool
  str : Value → Option String
  repr : Value → Option String
  intStr : Int → Option String
  floatStr : Number → String

-- What leaves a parser: a `ConfigError`, or an exception of the language.
inductive Raised where
  | config (text : String)
  | typeError
  | valueError
  | overflowError
  deriving DecidableEq, Repr

structure BrainConfig where
  default : Option Provider := none
  autoOrder : List Provider := defaultAutoOrder
  providers : Provider → Bool := fun _ => true

def BrainConfig.isEnabled (config : BrainConfig) (provider : Provider) : Bool := config.providers provider

structure MemoryConfig where
  enabled : Bool
  recallK : Int
  embedderModel : String
  filterFailureInRecall : Bool

structure DecayConfig where
  enabled : Bool
  halfLifeDays : Int
  pruneThreshold : Number
  cleanupIntervalS : Int

structure LearningConfig where
  enabled : Bool
  miningIntervalS : Int
  ruleMiningEnabled : Bool
  allowlistMiningEnabled : Bool
  decay : DecayConfig

structure RateLimitConfig where
  guiActionsPerMinute : Int
  terminalCommandsPerMinute : Int
  otherActionsPerMinute : Int

structure TerminalConfig where
  captureCapKb : Int

structure IntegrationsConfig where
  enabled : List String
  binaryOverrides : List (String × String)
  makoAppName : String
  voiceEnabled : Bool

structure ContextConfig where
  budgetTokens : Int
  keepRounds : Int

structure AgentConfig where
  brain : BrainConfig
  memory : MemoryConfig
  learning : LearningConfig
  rateLimit : RateLimitConfig
  terminal : TerminalConfig
  integrations : IntegrationsConfig
  context : ContextConfig
  auditLog : Bool

-- `str.lower`; what becomes of other than ASCII characters is left to the runtime.
def lower (lowerOther : String → String) (text : String) : String :=
  if text.toList.all fun char => char.toNat < 128 then String.ofList (text.toList.map Char.toLower)
  else lowerOther text

-- `BRAIN_ALIASES.get(name, name)`
def canonical (name : String) : String := (brainAliases.lookup name).getD name

def get (raw : Mapping) (key : String) : Option Value :=
  raw.findSome? fun
    | (.str name,value) => if name = key then some value else none
    | _ => none

section
variable (runtime : Runtime)

def truthy : Value → Bool
  | .null => false
  | .bool value => value
  | .int value => value != 0
  | .float value => value != .finite 0
  | .str text => text != ""
  | .list items => !items.isEmpty
  | .dict fields => !fields.isEmpty
  | .other object => runtime.truthyOther object

def convert {α : Type} (raised : Raised) : Option α → Except Raised α
  | some value => .ok value
  | none => .error raised

-- `int(value)`
def toInt : Value → Except Raised Int
  | .null => .error .typeError
  | .bool value => .ok (if value then 1 else 0)
  | .int value => .ok value
  | .float .nan => .error .valueError
  | .float (.inf _) => .error .overflowError
  | .float (.finite value) => .ok (value.num.tdiv value.den)
  | .str text => convert .valueError (runtime.intText text)
  | .list _ => .error .typeError
  | .dict _ => .error .typeError
  | .other object => convert .typeError (runtime.intOther object)

-- `float(value)`
def toFloat : Value → Except Raised Number
  | .null => .error .typeError
  | .bool value => .ok (.finite (if value then 1 else 0))
  | .int value => convert .overflowError (runtime.floatInt value)
  | .float value => .ok value
  | .str text => convert .valueError (runtime.floatText text)
  | .list _ => .error .typeError
  | .dict _ => .error .typeError
  | .other object => convert .typeError (runtime.floatOther object)

-- `str(value)`
def toStr : Value → Except Raised String
  | .str text => .ok text
  | value => convert .valueError (runtime.str value)

def refuse {α : Type} (shown : Option String) (message : String → String) : Except Raised α :=
  match shown with
  | some shown => .error (.config (message shown))
  | none => .error .valueError

def normalizeProvider (name : Value) : Except Raised Provider :=
  match name with
  | .str text =>
    match Provider.ofValue (canonical (lower runtime.lowerOther text)) with
    | some provider => .ok provider
    | none => .error (.config ("Unknown provider " ++ runtime.reprText text))
  | _ => refuse (runtime.repr name) fun shown => "Provider names must be strings, got " ++ shown

-- `data.get(name, {}) or {}`, which has to be a mapping.
def mapping (value : Option Value) (message : String) : Except Raised Mapping :=
  match value with
  | none => .ok []
  | some value =>
    if truthy runtime value then
      match value with
      | .dict fields => .ok fields
      | _ => .error (.config message)
    else .ok []

-- `bool(raw.get(key, default))`
def flag (raw : Mapping) (key : String) (default : Bool) : Bool :=
  match get raw key with
  | none => default
  | some value => truthy runtime value

def readMapping (path : String) (document : Option Value) : Except Raised Mapping :=
  mapping runtime document (path ++ " must contain a YAML mapping")

def brainDefault (raw : Mapping) : Except Raised (Option Provider) :=
  match (get raw "default").getD (.str "auto") with
  | .str text =>
    let default := lower runtime.lowerOther text
    if default = "auto" then .ok none else some <$> normalizeProvider runtime (.str default)
  | _ => .error (.config "brain.default must be a string")

def givenOrder (raw : Mapping) : Except Raised (List Provider) :=
  match get raw "auto_order" with
  | none => .ok defaultAutoOrder
  | some (.list items) => items.mapM (normalizeProvider runtime)
  | some _ => .error (.config "brain.auto_order must be a list")

def brainAutoOrder (raw : Mapping) : Except Raised (List Provider) := do
  let order ← givenOrder runtime raw
  let autoOrder := firsts id [] order
  if autoOrder = [] then throw (.config "brain.auto_order must contain at least one provider")
  else return autoOrder

def providerFlag (entry : Value × Value) : Except Raised (Provider × Bool) := do
  let provider ← normalizeProvider runtime entry.1
  let name := match entry.1 with
    | .str text => text
    | _ => ""
  match entry.2 with
  | .bool value => return (provider,value)
  | .dict providerCfg =>
    match (get providerCfg "enabled").getD (.bool true) with
    | .bool value => return (provider,value)
    | _ => throw (.config ("brain.providers." ++ name ++ ".enabled must be true or false"))
  | _ => throw (.config ("brain.providers." ++ name ++ " must be a mapping or boolean"))

def setFlag (enabled : Provider → Bool) (entry : Provider × Bool) : Provider → Bool :=
  fun provider => if provider = entry.1 then entry.2 else enabled provider

def brainConfig (data : Mapping) : Except Raised BrainConfig := do
  let raw ← mapping runtime (get data "brain") "brain must be a mapping"
  let default ← brainDefault runtime raw
  let autoOrder ← brainAutoOrder runtime raw
  let rawProviders ← mapping runtime (get raw "providers") "brain.providers must be a mapping"
  let flags ← rawProviders.mapM (providerFlag runtime)
  return ⟨default,autoOrder,flags.foldl setFlag fun _ => true⟩

def clampInt (raw : Mapping) (key : String) (default lo : Int) (hi : Option Int := none) : Except Raised Int := do
  let value ← toInt runtime ((get raw key).getD (.int default))
  if value < lo then
    refuse (runtime.intStr value) fun shown => key ++ " must be >= " ++ toString lo ++ ", got " ++ shown
  else
    match hi with
    | none => return value
    | some hi =>
      if value > hi then
        refuse (runtime.intStr value) fun shown => key ++ " must be <= " ++ toString hi ++ ", got " ++ shown
      else return value

def memoryConfig (data : Mapping) : Except Raised MemoryConfig := do
  let raw ← mapping runtime (get data "memory") "memory must be a mapping"
  let recallK ← clampInt runtime raw "recall_k" 3 1
  let embedderModel ← toStr runtime ((get raw "embedder_model").getD (.str "intfloat/multilingual-e5-large"))
  return ⟨flag runtime raw "enabled" true,recallK,embedderModel,flag runtime raw "filter_failure_in_recall" true⟩

def pruneThreshold (raw : Mapping) : Except Raised Number := do
  let prune ← toFloat runtime ((get raw "prune_threshold").getD (.float (.finite (1 / 10))))
  if prune.below 0 || prune.above 1 then
    throw (.config ("learning.decay.prune_threshold must be 0.0..1.0, got " ++ runtime.floatStr prune))
  else return prune

def decayConfig (rawParent : Mapping) : Except Raised DecayConfig := do
  let raw ← mapping runtime (get rawParent "decay") "learning.decay must be a mapping"
  let prune ← pruneThreshold runtime raw
  let halfLifeDays ← clampInt runtime raw "half_life_days" 90 1
  let cleanupIntervalS ← clampInt runtime raw "cleanup_interval_s" 3600 1
  return ⟨flag runtime raw "enabled" true,halfLifeDays,prune,cleanupIntervalS⟩

def learningConfig (data : Mapping) : Except Raised LearningConfig := do
  let raw ← mapping runtime (get data "learning") "learning must be a mapping"
  let miningIntervalS ← clampInt runtime raw "mining_interval_s" 300 1
  let decay ← decayConfig runtime raw
  return ⟨flag runtime raw "enabled" true,miningIntervalS,flag runtime raw "rule_mining_enabled" true,
    flag runtime raw "allowlist_mining_enabled" true,decay⟩

def rateLimitConfig (data : Mapping) : Except Raised RateLimitConfig := do
  let raw ← mapping runtime (get data "rate_limit") "rate_limit must be a mapping"
  let gui ← clampInt runtime raw "gui_actions_per_minute" 30 0
  let terminal ← clampInt runtime raw "terminal_commands_per_minute" 10 0
  let other ← clampInt runtime raw "other_actions_per_minute" 60 0
  return ⟨gui,terminal,other⟩

def terminalConfig (data : Mapping) : Except Raised TerminalConfig := do
  let raw ← mapping runtime (get data "terminal") "terminal must be a mapping"
  let captureCapKb ← clampInt runtime raw "capture_cap_kb" 64 1
  return ⟨captureCapKb⟩

def integrationsKeys : List String := ["enabled","binary_overrides","mako_app_name","voice"]

def recognised : Value → Bool
  | .str name => integrationsKeys.contains name
  | _ => false

def reprOf : Value → Option String
  | .str text => some (runtime.reprText text)
  | value => runtime.repr value

def knownKey (field : Value × Value) : Except Raised Unit :=
  if recognised field.1 then .ok ()
  else refuse (reprOf runtime field.1) fun shown => "integrations." ++ shown ++ " is not a recognised key"

def enabledNames (raw : Mapping) : Except Raised (List String) :=
  match (get raw "enabled").getD (.list []) with
  | .list items => items.mapM (toStr runtime)
  | _ => .error (.config "integrations.enabled must be a list of integration names")

def overrideEntry (field : Value × Value) : Except Raised (String × String) := do
  let key ← toStr runtime field.1
  let value ← toStr runtime field.2
  return (key,value)

-- `{str(k): str(v) ...}`: a key that comes again takes the later value.
def setOverride (overrides : List (String × String)) (entry : String × String) : List (String × String) :=
  if overrides.any fun known => known.1 == entry.1 then
    overrides.map fun known => if known.1 == entry.1 then entry else known
  else overrides ++ [entry]

def integrationsConfig (data : Mapping) : Except Raised IntegrationsConfig := do
  let raw ← mapping runtime (get data "integrations") "integrations must be a mapping"
  let _ ← raw.mapM (knownKey runtime)
  let enabled ← enabledNames runtime raw
  let rawOverrides ← mapping runtime (get raw "binary_overrides") "integrations.binary_overrides must be a mapping"
  let overrides ← rawOverrides.mapM (overrideEntry runtime)
  let makoAppName ← toStr runtime ((get raw "mako_app_name").getD (.str "hyprland-agent"))
  let rawVoice ← mapping runtime (get raw "voice") "integrations.voice must be a mapping"
  return ⟨enabled,overrides.foldl setOverride [],makoAppName,flag runtime rawVoice "enabled" false⟩

def contextConfig (data : Mapping) : Except Raised ContextConfig := do
  let raw ← mapping runtime (get data "context") "context must be a mapping"
  let budgetTokens ← clampInt runtime raw "budget_tokens" 160000 1
  let keepRounds ← clampInt runtime raw "keep_rounds" 3 0
  return ⟨budgetTokens,keepRounds⟩

def auditLog (data : Mapping) : Except Raised Bool :=
  match (get data "audit_log").getD (.bool false) with
  | .bool value => .ok value
  | _ => .error (.config "audit_log must be true or false")

def loadConfig (path : String) (document : Option Value) : Except Raised AgentConfig := do
  let data ← readMapping runtime path document
  let auditLog ← auditLog data
  let brain ← brainConfig runtime data
  let memory ← memoryConfig runtime data
  let learning ← learningConfig runtime data
  let rateLimit ← rateLimitConfig runtime data
  let terminal ← terminalConfig runtime data
  let integrations ← integrationsConfig runtime data
  let context ← contextConfig runtime data
  return ⟨brain,memory,learning,rateLimit,terminal,integrations,context,auditLog⟩

end

end HyprlandAgent.Config
