import HyprlandAgent.Config
import HyprlandAgent.Orchestrator

-- Brain router: which provider a task is given to, from the client's request to the provider
-- that is built.
namespace HyprlandAgent.Router
open Config Orchestrator

def providerName : Provider → String
  | .claude => "Claude"
  | .openai => "OpenAI"
  | .moonshot => "Moonshot"
  | .groq => "Groq"
  | .together => "Together"
  | .zai => "Z.AI"
  | .qwen => "Qwen"

def keyEnv : Provider → String
  | .claude => "ANTHROPIC_API_KEY"
  | .openai => "OPENAI_API_KEY"
  | .moonshot => "MOONSHOT_API_KEY"
  | .groq => "GROQ_API_KEY"
  | .together => "TOGETHER_API_KEY"
  | .zai => "ZAI_API_KEY"
  | .qwen => "DASHSCOPE_API_KEY"

-- The environment: what a variable is set to, the empty text where it is not.
abbrev Environ := String → String

inductive Failure where
  | brainSelection (text : String)
  | runtime (text : String)
  | escaped (error : Raised)
  deriving DecidableEq, Repr

section
variable (lowerOther : String → String) (environ : Environ)

def canonicalProvider (name : String) : Except Failure Provider :=
  match Provider.ofValue (canonical (lower lowerOther name)) with
  | some provider => .ok provider
  | none => .error (.brainSelection ("Unknown brain provider: " ++ name))

def credentialed (provider : Provider) : Bool := !(strip (environ (keyEnv provider)).toList).isEmpty

def providerAvailable (provider : Provider) : Bool × String :=
  if credentialed environ provider then
    (true,if provider = .claude then "available" else keyEnv provider ++ " set")
  else (false,keyEnv provider ++ " not set")

def buildProvider (provider : Provider) : Except Failure Provider :=
  if provider = .claude then .ok provider
  else if credentialed environ provider then .ok provider
  else .error (.runtime (providerName provider ++ " brain selected but " ++ keyEnv provider ++
    " not set. Export it or add it to ~/.config/hyprland-agent/env."))

def tryOrder (config : BrainConfig) (path : String) : List Provider → List String → Except Failure Provider
  | [],checked =>
    .error (.brainSelection ("No enabled brain provider is available from " ++ path ++ ": " ++
      "; ".intercalate checked))
  | provider :: rest,checked =>
    if !config.isEnabled provider then tryOrder config path rest (checked ++ [provider.value ++ ": disabled"])
    else
      let (available,reason) := providerAvailable environ provider
      if available then buildProvider environ provider
      else tryOrder config path rest (checked ++ [provider.value ++ ": " ++ reason])

def defaultText (config : BrainConfig) : String :=
  match config.default with
  | some provider => provider.value
  | none => "auto"

-- `(override or configured_default or "auto").lower()`
def choice (config : BrainConfig) (override : Option String) : String :=
  lower lowerOther (match override with
    | some name => if name = "" then defaultText config else name
    | none => defaultText config)

def selectBrain (config : BrainConfig) (path : String) (override : Option String) : Except Failure Provider :=
  let choice := choice lowerOther config override
  if choice ≠ "auto" then
    match canonicalProvider lowerOther choice with
    | .error failure => .error failure
    | .ok provider =>
      if !config.isEnabled provider then
        .error (.brainSelection ("Brain provider '" ++ provider.value ++ "' is disabled in " ++ path))
      else
        let (available,reason) := providerAvailable environ provider
        if !available then
          .error (.brainSelection ("Brain provider '" ++ provider.value ++ "' unavailable: " ++ reason))
        else buildProvider environ provider
  else tryOrder environ config path config.autoOrder []

def getBrain (loaded : Except Raised Config.AgentConfig) (path : String) (override : Option String) :
    Except Failure Provider :=
  match loaded with
  | .error (.config text) => .error (.brainSelection ("Invalid provider config " ++ path ++ ": " ++ text))
  | .error error => .error (.escaped error)
  | .ok config => selectBrain lowerOther environ config.brain path override

end

-- Who submits a task, with the brain that the user gave: `agent run` and `agent plan`, a run
-- again with the brain of the first, the launcher, the modal, the voice sidecar with the brain
-- of its own configuration, or another program on the socket.
inductive Client where
  | command (brain : Option String)
  | rerun (brain : Option String) (recorded : String)
  | launcher (brain : Option String)
  | modal (brain : Option String)
  | voice (brain : Option String)
  | rpc (brain : Option String)

-- `brain or other`
def orElse (brain : Option String) (other : String) : String :=
  match brain with
  | some name => if name = "" then other else name
  | none => other

def Client.param : Client → Option String
  | .command brain => some (orElse brain "auto")
  | .rerun brain recorded => some (orElse brain recorded)
  | .launcher brain => some (brain.getD "auto")
  | .modal brain => some (brain.getD "auto")
  | .voice brain => some (brain.getD "auto")
  | .rpc brain => brain

-- `params.get("brain", "auto")`
def Client.sent (client : Client) : String := client.param.getD "auto"

def submit (lowerOther : String → String) (environ : Environ) (loaded : Except Raised Config.AgentConfig)
    (path : String) (client : Client) : Except Failure Provider :=
  getBrain lowerOther environ loaded path (some client.sent)

-- The brain that the user asked for. To run a run again is to ask for the brain it is
-- recorded with, also where that is `auto`.
def Client.named : Client → Option String
  | .command brain => brain.filter (· ≠ "")
  | .rerun brain recorded => (some (orElse brain recorded)).filter (· ≠ "")
  | .launcher brain => brain.filter (· ≠ "")
  | .modal brain => brain.filter (· ≠ "")
  | .voice brain => brain.filter (· ≠ "")
  | .rpc brain => brain.filter (· ≠ "")

def usable (environ : Environ) (config : BrainConfig) (provider : Provider) : Bool :=
  config.isEnabled provider && credentialed environ provider

def firstUsable (environ : Environ) (config : BrainConfig) : Option Provider :=
  config.autoOrder.find? (usable environ config)

def resolve (lowerOther : String → String) (name : String) : Option Provider :=
  Provider.ofValue (canonical (lower lowerOther (lower lowerOther name)))

-- The brain that was asked for; else the configured default; else, as for `auto`, the first
-- that can be used.
def wanted (lowerOther : String → String) (environ : Environ) (config : BrainConfig) (named : Option String) :
    Option Provider :=
  match named with
  | some name =>
    if lower lowerOther name = "auto" then firstUsable environ config
    else (resolve lowerOther name).filter (usable environ config)
  | none =>
    match config.default with
    | some provider => some provider |>.filter (usable environ config)
    | none => firstUsable environ config

structure Obeys (environ : Environ) (config : BrainConfig) (wanted : Option Provider)
    (result : Except Failure Provider) : Prop where
  used : ∀ provider, result = .ok provider ↔ wanted = some provider
  refused : (∃ failure, result = .error failure) ↔ wanted = none
  never : ∀ provider, result = .ok provider → config.isEnabled provider = true ∧ credentialed environ provider = true

section
variable {lowerOther : String → String} {environ : Environ} {config : BrainConfig} {path : String}

theorem buildProvider_credentialed {provider : Provider} (key : credentialed environ provider = true) :
    buildProvider environ provider = .ok provider := by
  unfold buildProvider
  rw [if_pos key]
  exact ite_self _

theorem providerAvailable_fst (provider : Provider) :
    (providerAvailable environ provider).1 = credentialed environ provider := by
  unfold providerAvailable
  split <;> simp_all

def Finds (found : Option Provider) (result : Except Failure Provider) : Prop :=
  match found with
  | some provider => result = .ok provider
  | none => ∃ failure, result = .error failure

theorem tryOrder_finds (order : List Provider) (checked : List String) :
    Finds (order.find? (usable environ config)) (tryOrder environ config path order checked) := by
  induction order generalizing checked with
  | nil => exact ⟨_,rfl⟩
  | cons provider rest ih =>
    rw [tryOrder,List.find?_cons]
    cases enabled : config.isEnabled provider with
    | false => simpa [usable,enabled] using ih _
    | true =>
      have available := @providerAvailable_fst environ provider
      cases key : credentialed environ provider with
      | false =>
        rw [key] at available
        simpa [usable,enabled,key,available] using ih _
      | true =>
        rw [key] at available
        simp [usable,enabled,key,available,Finds,buildProvider_credentialed key]

theorem lower_auto : lower lowerOther "auto" = "auto" := rfl

theorem lower_value (provider : Provider) : lower lowerOther provider.value = provider.value := by
  cases provider <;> rfl

theorem canonical_value (provider : Provider) : canonical provider.value = provider.value := by
  cases provider <;> decide

theorem value_ne_auto (provider : Provider) : provider.value ≠ "auto" := by
  cases provider <;> decide

theorem resolve_value (provider : Provider) : resolve lowerOther provider.value = some provider := by
  rw [resolve,lower_value,lower_value,canonical_value,Provider.ofValue_value]

theorem selectBrain_auto {override : Option String} (auto : choice lowerOther config override = "auto") :
    Finds (firstUsable environ config) (selectBrain lowerOther environ config path override) := by
  unfold selectBrain
  rw [auto]
  exact tryOrder_finds config.autoOrder []

theorem canonicalProvider_eq (name : String) : canonicalProvider lowerOther name =
    match Provider.ofValue (canonical (lower lowerOther name)) with
    | some provider => .ok provider
    | none => .error (.brainSelection ("Unknown brain provider: " ++ name)) := by
  delta canonicalProvider
  rfl

theorem selectBrain_named {override : Option String} {name : String} {found : Option Provider}
    (resolved : resolve lowerOther name = found) (chosen : choice lowerOther config override = lower lowerOther name)
    (apart : lower lowerOther name ≠ "auto") :
    Finds (found.filter (usable environ config)) (selectBrain lowerOther environ config path override) := by
  rw [← resolved]
  unfold selectBrain resolve
  simp only [chosen,ne_eq,apart,not_false_eq_true,if_true,canonicalProvider_eq]
  cases Provider.ofValue (canonical (lower lowerOther (lower lowerOther name))) with
  | none => exact ⟨_,rfl⟩
  | some provider =>
    have available := @providerAvailable_fst environ provider
    cases enabled : config.isEnabled provider with
    | false =>
      simp only [Option.filter_some,usable,enabled,Bool.false_and,Bool.false_eq_true,if_false,Bool.not_false,if_true]
      exact ⟨_,rfl⟩
    | true =>
      cases key : credentialed environ provider with
      | false =>
        rw [key] at available
        simp only [Option.filter_some,usable,enabled,key,available]
        exact ⟨_,rfl⟩
      | true =>
        rw [key] at available
        simp only [Option.filter_some,usable,enabled,key,available,Bool.and_self,if_true,Bool.not_true,
          Bool.false_eq_true,if_false]
        exact buildProvider_credentialed key

theorem selectBrain_default {override : Option String}
    (chosen : choice lowerOther config override = lower lowerOther (defaultText config)) :
    Finds (wanted lowerOther environ config none) (selectBrain lowerOther environ config path override) := by
  unfold wanted
  cases default : config.default with
  | none =>
    have text : defaultText config = "auto" := by rw [defaultText,default]
    rw [text,lower_auto] at chosen
    exact selectBrain_auto chosen
  | some provider =>
    have text : defaultText config = provider.value := by rw [defaultText,default]
    have apart : lower lowerOther provider.value ≠ "auto" := by
      rw [lower_value]
      exact value_ne_auto provider
    rw [text] at chosen
    exact selectBrain_named (resolve_value provider) chosen apart

theorem finds_obeys {found other : Option Provider} {result : Except Failure Provider} (finds : Finds found result)
    (held : ∀ provider, found = some provider → usable environ config provider = true) :
    Obeys environ config other result ↔ found = other := by
  cases found with
  | none =>
    obtain ⟨failure,same⟩ := finds
    constructor
    · intro obeys
      exact (obeys.refused.mp ⟨failure,same⟩).symm
    · rintro rfl
      refine ⟨fun provider => iff_of_false ?_ ?_,iff_of_true ⟨failure,same⟩ rfl,?_⟩
      · rw [same]
        exact fun equal => by cases equal
      · exact fun equal => by cases equal
      · intro provider equal
        rw [same] at equal
        cases equal
  | some provider =>
    have same : result = .ok provider := finds
    have both := held provider rfl
    rw [usable,Bool.and_eq_true] at both
    constructor
    · intro obeys
      exact ((obeys.used provider).mp same).symm
    · rintro rfl
      refine ⟨?_,iff_of_false ?_ ?_,?_⟩
      · intro second
        rw [same]
        exact ⟨fun equal => congrArg some (Except.ok.inj equal),fun equal => congrArg Except.ok (Option.some.inj equal)⟩
      · rintro ⟨failure,equal⟩
        rw [same] at equal
        cases equal
      · exact fun equal => by cases equal
      · intro second equal
        rw [same] at equal
        cases equal
        exact both

theorem firstUsable_usable {provider : Provider} (found : firstUsable environ config = some provider) :
    usable environ config provider = true := List.find?_some found

theorem wanted_usable {named : Option String} {provider : Provider}
    (found : wanted lowerOther environ config named = some provider) : usable environ config provider = true := by
  unfold wanted at found
  split at found
  · split at found
    · exact firstUsable_usable found
    · exact (Option.filter_eq_some_iff.mp found).2
  · split at found
    · exact (Option.filter_eq_some_iff.mp found).2
    · exact firstUsable_usable found

theorem named_sent {client : Client} {name : String} (named : client.named = some name) :
    client.sent = name ∧ name ≠ "" := by
  cases client with
  | command brain | launcher brain | modal brain | voice brain | rpc brain =>
    obtain ⟨same,filled⟩ := Option.filter_eq_some_iff.mp named
    subst same
    have filled : name ≠ "" := by simpa using filled
    exact ⟨by simp [Client.sent,Client.param,orElse,filled],filled⟩
  | rerun brain recorded =>
    have kept : (some (orElse brain recorded)).filter (· ≠ "") = some name := named
    obtain ⟨same,filled⟩ := Option.filter_eq_some_iff.mp kept
    cases same
    exact ⟨rfl,by simpa using filled⟩

theorem unnamed_sent {client : Client} (unnamed : client.named = none) : client.sent = "auto" ∨ client.sent = "" := by
  cases client with
  | command brain | launcher brain | modal brain | voice brain | rpc brain =>
    cases brain with
    | none => exact .inl rfl
    | some name =>
      have empty : name = "" := by simpa [Client.named,Option.filter_eq_none_iff] using unnamed
      subst empty
      simp [Client.sent,Client.param,orElse]
  | rerun brain recorded =>
    right
    simpa [Client.named,Client.sent,Client.param] using unnamed

theorem wanted_named (name : String) : wanted lowerOther environ config (some name) =
    if lower lowerOther name = "auto" then firstUsable environ config
    else (resolve lowerOther name).filter (usable environ config) := rfl

-- Somebody named a brain, or an empty text was sent for it, or the default is `auto`, or the
-- first of the order that can be used is the default, or it and all of the order cannot be.
def Agrees (environ : Environ) (config : BrainConfig) (client : Client) : Prop :=
  client.named.isSome ∨ client.sent = "" ∨ config.default = none ∨
    ∃ provider, config.default = some provider ∧
      firstUsable environ config = if usable environ config provider then some provider else none

theorem submit_obeys_iff (lowerOther : String → String) (environ : Environ) (config : Config.AgentConfig)
    (path : String) (client : Client) :
    Obeys environ config.brain (wanted lowerOther environ config.brain client.named)
        (submit lowerOther environ (.ok config) path client) ↔ Agrees environ config.brain client := by
  have reaches : submit lowerOther environ (.ok config) path client =
      selectBrain lowerOther environ config.brain path (some client.sent) := rfl
  rw [reaches]
  cases named : client.named with
  | some name =>
    obtain ⟨sent,filled⟩ := named_sent named
    have chosen : choice lowerOther config.brain (some client.sent) = lower lowerOther name := by
      simp only [choice,sent,filled,if_false]
    have finds : Finds (wanted lowerOther environ config.brain (some name))
        (selectBrain lowerOther environ config.brain path (some client.sent)) := by
      rw [wanted_named]
      by_cases auto : lower lowerOther name = "auto"
      · rw [if_pos auto]
        exact selectBrain_auto (chosen.trans auto)
      · obtain ⟨found,resolved⟩ : ∃ found, resolve lowerOther name = found := ⟨_,rfl⟩
        rw [if_neg auto,resolved]
        exact selectBrain_named resolved chosen auto
    exact iff_of_true ((finds_obeys finds fun _ => wanted_usable).mpr rfl) (.inl (by simp [named]))
  | none =>
    have absent : ¬client.named.isSome := by simp [named]
    rcases unnamed_sent named with sent | sent
    · have finds : Finds (firstUsable environ config.brain)
          (selectBrain lowerOther environ config.brain path (some client.sent)) := by
        rw [sent]
        exact selectBrain_auto lower_auto
      have filled : ¬client.sent = "" := by simp [sent]
      rw [finds_obeys finds fun _ => firstUsable_usable]
      unfold wanted Agrees
      cases default : config.brain.default with
      | none => exact iff_of_true rfl (.inr (.inr (.inl rfl)))
      | some provider =>
        simp only [absent,filled,Option.filter_some,false_or,Option.some.injEq,exists_eq_left',reduceCtorEq]
    · have finds : Finds (wanted lowerOther environ config.brain none)
          (selectBrain lowerOther environ config.brain path (some client.sent)) := by
        rw [sent]
        exact selectBrain_default (by rw [choice,if_pos rfl])
      exact iff_of_true ((finds_obeys finds fun _ => wanted_usable).mpr rfl) (.inr (.inl sent))

end

def openaiDefault : Config.AgentConfig where
  brain := { default := some .openai }
  memory := ⟨true,3,"",true⟩
  learning := ⟨true,300,true,true,⟨true,90,.finite 0,3600⟩⟩
  rateLimit := ⟨30,10,60⟩
  terminal := ⟨64⟩
  integrations := ⟨[],[],"hyprland-agent",false⟩
  context := ⟨160000,3⟩
  auditLog := false

theorem configured_default_ignored : ¬∀ (lowerOther : String → String) (environ : Environ)
    (config : Config.AgentConfig) (path : String) (client : Client),
    Obeys environ config.brain (wanted lowerOther environ config.brain client.named)
      (submit lowerOther environ (.ok config) path client) := by
  intro obeys
  have run := obeys id (fun _ => "key") openaiDefault "config.yaml" (.command none)
  have built : submit id (fun _ => "key") (.ok openaiDefault) "config.yaml" (.command none) = .ok .claude := by
    decide
  have other : wanted id (fun _ => "key") openaiDefault.brain none = some .openai := by decide
  have same := (run.used .claude).mp built
  rw [show (Client.command none).named = none from rfl,other] at same
  cases same

end HyprlandAgent.Router
