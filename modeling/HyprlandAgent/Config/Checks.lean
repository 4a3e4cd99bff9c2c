import HyprlandAgent.Config

-- What each field of the configuration has to be like: the checks of a document in the order
-- in which its values are read.
namespace HyprlandAgent.Config
open FirstOf Screening

def Refusal (error : Raised) : Prop := ∃ text, error = .config text

section
variable (runtime : Runtime)

def given (raw : Mapping) (key : String) (default : Value) : Value := (get raw key).getD default

def fieldsOf : Option Value → Mapping
  | some (.dict fields) => fields
  | _ => []

def IsMapping : Option Value → Prop
  | none => True
  | some (.dict _) => True
  | some value => truthy runtime value = false

def NamesProvider (value : Value) : Prop :=
  ∃ text provider, value = .str text ∧ Provider.ofValue (canonical (lower runtime.lowerOther text)) = some provider

def mappingProbe (value : Option Value) : Probe := ⟨True,IsMapping runtime value⟩

def intProbe (raw : Mapping) (key : String) (default lo : Int) : Probe where
  sound := ∃ n, toInt runtime (given raw key (.int default)) = .ok n ∧ (lo ≤ n ∨ (runtime.intStr n).isSome)
  passes := ∃ n, toInt runtime (given raw key (.int default)) = .ok n ∧ lo ≤ n

def strProbe (value : Value) : Probe where
  sound := ∃ text, toStr runtime value = .ok text
  passes := ∃ text, toStr runtime value = .ok text

def prune (raw : Mapping) : Value := given raw "prune_threshold" (.float (.finite (1 / 10)))

def pruneProbe (raw : Mapping) : Probe where
  sound := ∃ p, toFloat runtime (prune raw) = .ok p
  passes := ∃ p, toFloat runtime (prune raw) = .ok p ∧ p.below 0 = false ∧ p.above 1 = false

def nameProbe (value : Value) : Probe where
  sound := (∃ text, value = .str text) ∨ (runtime.repr value).isSome
  passes := NamesProvider runtime value

def defaultProbe (raw : Mapping) : Probe where
  sound := True
  passes := ∃ text, given raw "default" (.str "auto") = .str text ∧
    (lower runtime.lowerOther text = "auto" ∨ NamesProvider runtime (.str (lower runtime.lowerOther text)))

def orderProbes (raw : Mapping) : List Probe :=
  match get raw "auto_order" with
  | none => []
  | some (.list items) => items.map (nameProbe runtime) ++ [⟨True,items ≠ []⟩]
  | some _ => [⟨True,False⟩]

def GivesFlag : Value → Prop
  | .bool _ => True
  | .dict providerCfg => ∃ value, given providerCfg "enabled" (.bool true) = .bool value
  | _ => False

def entryProbes (entry : Value × Value) : List Probe := [nameProbe runtime entry.1,⟨True,GivesFlag entry.2⟩]

def brainProbes (data : Mapping) : List Probe :=
  let raw := fieldsOf (get data "brain")
  let rawProviders := fieldsOf (get raw "providers")
  mappingProbe runtime (get data "brain") :: defaultProbe runtime raw :: (orderProbes runtime raw ++
    mappingProbe runtime (get raw "providers") :: rawProviders.flatMap (entryProbes runtime))

def memoryProbes (data : Mapping) : List Probe :=
  let raw := fieldsOf (get data "memory")
  [mappingProbe runtime (get data "memory"),intProbe runtime raw "recall_k" 3 1,
    strProbe runtime (given raw "embedder_model" (.str "intfloat/multilingual-e5-large"))]

def decayProbes (rawParent : Mapping) : List Probe :=
  let raw := fieldsOf (get rawParent "decay")
  [mappingProbe runtime (get rawParent "decay"),pruneProbe runtime raw,
    intProbe runtime raw "half_life_days" 90 1,intProbe runtime raw "cleanup_interval_s" 3600 1]

def learningProbes (data : Mapping) : List Probe :=
  let raw := fieldsOf (get data "learning")
  mappingProbe runtime (get data "learning") :: intProbe runtime raw "mining_interval_s" 300 1 ::
    decayProbes runtime raw

def rateLimitProbes (data : Mapping) : List Probe :=
  let raw := fieldsOf (get data "rate_limit")
  [mappingProbe runtime (get data "rate_limit"),intProbe runtime raw "gui_actions_per_minute" 30 0,
    intProbe runtime raw "terminal_commands_per_minute" 10 0,intProbe runtime raw "other_actions_per_minute" 60 0]

def terminalProbes (data : Mapping) : List Probe :=
  [mappingProbe runtime (get data "terminal"),
    intProbe runtime (fieldsOf (get data "terminal")) "capture_cap_kb" 64 1]

def keyProbe (field : Value × Value) : Probe where
  sound := recognised field.1 = true ∨ (reprOf runtime field.1).isSome
  passes := recognised field.1 = true

def namesProbes (raw : Mapping) : List Probe :=
  match given raw "enabled" (.list []) with
  | .list items => items.map (strProbe runtime)
  | _ => [⟨True,False⟩]

def overrideProbes (field : Value × Value) : List Probe := [strProbe runtime field.1,strProbe runtime field.2]

def integrationsProbes (data : Mapping) : List Probe :=
  let raw := fieldsOf (get data "integrations")
  let rawOverrides := fieldsOf (get raw "binary_overrides")
  mappingProbe runtime (get data "integrations") :: (raw.map (keyProbe runtime) ++ (namesProbes runtime raw ++
    mappingProbe runtime (get raw "binary_overrides") :: (rawOverrides.flatMap (overrideProbes runtime) ++
      [strProbe runtime (given raw "mako_app_name" (.str "hyprland-agent")),mappingProbe runtime (get raw "voice")])))

def contextProbes (data : Mapping) : List Probe :=
  let raw := fieldsOf (get data "context")
  [mappingProbe runtime (get data "context"),intProbe runtime raw "budget_tokens" 160000 1,
    intProbe runtime raw "keep_rounds" 3 0]

def auditProbe (data : Mapping) : Probe := ⟨True,∃ value, given data "audit_log" (.bool false) = .bool value⟩

def documentProbes (document : Option Value) : List Probe :=
  let data := fieldsOf document
  mappingProbe runtime document :: auditProbe data :: (brainProbes runtime data ++ (memoryProbes runtime data ++
    (learningProbes runtime data ++ (rateLimitProbes runtime data ++ (terminalProbes runtime data ++
      (integrationsProbes runtime data ++ contextProbes runtime data))))))

end

variable {runtime : Runtime} {α : Type}

theorem refusal_error {error : Raised} :
    (∀ other, (Except.error error : Except Raised α) = .error other → Refusal other) ↔ Refusal error := by
  constructor
  · intro safe
    exact safe error rfl
  · intro refusal other same
    cases same
    exact refusal

theorem refusal_config {text : String} : Refusal (.config text) := ⟨text,rfl⟩

theorem refuse_safe {shown : Option String} {message : String → String} :
    (∀ error, (refuse shown message : Except Raised α) = .error error → Refusal error) ↔ shown.isSome := by
  cases shown with
  | none =>
    refine refusal_error.trans (iff_of_false ?_ (by simp))
    rintro ⟨text,same⟩
    cases same
  | some shown => exact refusal_error.trans (iff_of_true refusal_config rfl)

theorem refuse_fails {shown : Option String} {message : String → String} :
    ¬∃ value, (refuse shown message : Except Raised α) = .ok value := by
  cases shown <;> rintro ⟨value,same⟩ <;> cases same

theorem passes_follows {value : α} {sound passes : Prop} (safe : sound) (holds : passes) :
    Follows Refusal (.ok value : Except Raised α) [⟨sound,passes⟩] :=
  .single (iff_of_true (fun _ failed => by cases failed) safe) (iff_of_true ⟨value,rfl⟩ holds)

theorem refused_follows {text : String} {sound passes : Prop} (safe : sound) (fails : ¬passes) :
    Follows Refusal (.error (.config text) : Except Raised α) [⟨sound,passes⟩] :=
  .single (iff_of_true (refusal_error.mpr refusal_config) safe)
    (iff_of_false (by rintro ⟨value,same⟩; cases same) fails)

theorem refuse_follows {shown : Option String} {message : String → String} {sound passes : Prop}
    (safe : shown.isSome ↔ sound) (fails : ¬passes) :
    Follows Refusal (refuse shown message : Except Raised α) [⟨sound,passes⟩] :=
  .single (refuse_safe.trans safe) (iff_of_false refuse_fails fails)

theorem mapping_follows (value : Option Value) (message : String) :
    Follows Refusal (mapping runtime value message) [mappingProbe runtime value] := by
  cases value with
  | none => exact passes_follows trivial trivial
  | some value =>
    by_cases filled : truthy runtime value = true
    · simp only [mapping,filled,if_true]
      cases value with
      | dict fields => exact passes_follows trivial trivial
      | null | bool _ | int _ | float _ | str _ | list _ | other _ =>
        refine refused_follows trivial ?_
        rw [IsMapping,filled]
        · exact Bool.noConfusion
        · exact fun _ same => nomatch same
    · have empty := Bool.eq_false_iff.mpr filled
      simp only [mapping,empty,Bool.false_eq_true,if_false]
      cases value with
      | dict fields => exact passes_follows trivial trivial
      | null | bool _ | int _ | float _ | str _ | list _ | other _ => exact passes_follows trivial empty

theorem mapping_fields {value : Option Value} {message : String} {raw : Mapping}
    (read : mapping runtime value message = .ok raw) : raw = fieldsOf value := by
  cases value with
  | none => cases read; rfl
  | some value =>
    by_cases filled : truthy runtime value = true
    · simp only [mapping,filled,if_true] at read
      split at read
      · cases read
        rfl
      · cases read
    · simp only [mapping,filled] at read
      cases read
      cases value with
      | dict fields =>
        cases fields with
        | nil => rfl
        | cons field fields => exact absurd rfl filled
      | null | bool _ | int _ | float _ | str _ | list _ | other _ => rfl

theorem convert_fails {raised : Raised} (escapes : ¬Refusal raised) (result : Option α) :
    (∀ error, convert raised result = .error error → Refusal error) ↔ ∃ value, convert raised result = .ok value := by
  cases result with
  | none => exact iff_of_false (fun safe => escapes (safe _ rfl)) (by rintro ⟨value,same⟩; cases same)
  | some value => exact iff_of_true (fun _ failed => by cases failed) ⟨value,rfl⟩

theorem typeError_escapes : ¬Refusal .typeError := by rintro ⟨text,same⟩; cases same

theorem valueError_escapes : ¬Refusal .valueError := by rintro ⟨text,same⟩; cases same

theorem overflowError_escapes : ¬Refusal .overflowError := by rintro ⟨text,same⟩; cases same

theorem error_escapes {raised : Raised} (escapes : ¬Refusal raised) :
    (∀ error, (Except.error raised : Except Raised α) = .error error → Refusal error) ↔
      ∃ value, (Except.error raised : Except Raised α) = .ok value :=
  iff_of_false (fun safe => escapes (safe _ rfl)) (by rintro ⟨value,same⟩; cases same)

theorem ok_safe {value : α} : (∀ error, (Except.ok value : Except Raised α) = .error error → Refusal error) ↔
    ∃ other, (Except.ok value : Except Raised α) = .ok other :=
  iff_of_true (fun _ failed => by cases failed) ⟨value,rfl⟩

theorem toInt_safe (value : Value) :
    (∀ error, toInt runtime value = .error error → Refusal error) ↔ ∃ n, toInt runtime value = .ok n := by
  cases value with
  | null | list _ | dict _ => exact error_escapes typeError_escapes
  | bool _ | int _ => exact ok_safe
  | float value =>
    cases value with
    | nan => exact error_escapes valueError_escapes
    | inf _ => exact error_escapes overflowError_escapes
    | finite _ => exact ok_safe
  | str text => exact convert_fails valueError_escapes _
  | other object => exact convert_fails typeError_escapes _

theorem toFloat_safe (value : Value) :
    (∀ error, toFloat runtime value = .error error → Refusal error) ↔ ∃ p, toFloat runtime value = .ok p := by
  cases value with
  | null | list _ | dict _ => exact error_escapes typeError_escapes
  | bool _ | float _ => exact ok_safe
  | int value => exact convert_fails overflowError_escapes _
  | str text => exact convert_fails valueError_escapes _
  | other object => exact convert_fails typeError_escapes _

theorem toStr_safe (value : Value) :
    (∀ error, toStr runtime value = .error error → Refusal error) ↔ ∃ text, toStr runtime value = .ok text := by
  cases value with
  | str text => exact ok_safe
  | null | bool _ | int _ | float _ | list _ | dict _ | other _ => exact convert_fails valueError_escapes _

theorem escapes_follows {β : Type} {converted : Except Raised β} {error : Raised} {probe : Probe}
    (safe : (∀ raised, converted = .error raised → Refusal raised) ↔ ∃ value, converted = .ok value)
    (read : converted = .error error) (sound : probe.sound → ∃ value, converted = .ok value)
    (passes : probe.passes → ∃ value, converted = .ok value) :
    Follows Refusal (.error error : Except Raised α) [probe] := by
  have none_ : ¬∃ value, converted = .ok value := by
    rw [read]
    rintro ⟨value,same⟩
    cases same
  rw [read] at safe
  refine .single (iff_of_false (fun refused => ?_) (mt sound none_)) (iff_of_false ?_ (mt passes none_))
  · apply none_
    rw [read]
    apply safe.mp
    intro raised same
    cases same
    exact refused error rfl
  · rintro ⟨value,same⟩
    cases same

theorem toStr_follows (value : Value) : Follows Refusal (toStr runtime value) [strProbe runtime value] :=
  .single (toStr_safe value) Iff.rfl

section
variable {raw : Mapping} {key : String} {default lo n : Int}

theorem clampInt_error {error : Raised} (read : toInt runtime (given raw key (.int default)) = .error error) :
    clampInt runtime raw key default lo = .error error := by
  rw [given] at read
  rw [clampInt,read]
  rfl

theorem clampInt_small (read : toInt runtime (given raw key (.int default)) = .ok n) (small : n < lo) :
    clampInt runtime raw key default lo =
      refuse (runtime.intStr n) fun shown => key ++ " must be >= " ++ toString lo ++ ", got " ++ shown := by
  rw [given] at read
  rw [clampInt,read]
  exact if_pos small

theorem clampInt_value (read : toInt runtime (given raw key (.int default)) = .ok n) (enough : lo ≤ n) :
    clampInt runtime raw key default lo = .ok n := by
  rw [given] at read
  rw [clampInt,read]
  exact if_neg (Int.not_lt.mpr enough)

theorem clampInt_follows (raw : Mapping) (key : String) (default lo : Int) :
    Follows Refusal (clampInt runtime raw key default lo) [intProbe runtime raw key default lo] := by
  cases read : toInt runtime (given raw key (.int default)) with
  | error error =>
    rw [clampInt_error read]
    exact escapes_follows (toInt_safe _) read (fun ⟨n,found,_⟩ => ⟨n,found⟩) fun ⟨n,found,_⟩ => ⟨n,found⟩
  | ok n =>
    have only (P : Int → Prop) : (∃ m, toInt runtime (given raw key (.int default)) = .ok m ∧ P m) ↔ P n := by
      rw [read]
      simp
    rw [intProbe,only,only]
    by_cases enough : lo ≤ n
    · rw [clampInt_value read enough]
      exact passes_follows (.inl enough) enough
    · rw [clampInt_small read (Int.not_le.mp enough)]
      exact refuse_follows (by simp [enough]) enough

theorem clampInt_bound (read : clampInt runtime raw key default lo = .ok n) : lo ≤ n := by
  obtain ⟨m,found,enough⟩ := (clampInt_follows raw key default lo).passes.mp ⟨n,read⟩ _ (List.mem_singleton_self _)
  rw [clampInt_value found enough] at read
  cases read
  exact enough

end

theorem pruneThreshold_error {raw : Mapping} {error : Raised} (read : toFloat runtime (prune raw) = .error error) :
    pruneThreshold runtime raw = .error error := by
  rw [prune,given] at read
  rw [pruneThreshold,read]
  rfl

theorem pruneThreshold_value {raw : Mapping} {p : Number} (read : toFloat runtime (prune raw) = .ok p)
    (within : p.below 0 = false ∧ p.above 1 = false) : pruneThreshold runtime raw = .ok p := by
  rw [prune,given] at read
  rw [pruneThreshold,read]
  exact if_neg (by simp [within])

theorem pruneThreshold_outside {raw : Mapping} {p : Number} (read : toFloat runtime (prune raw) = .ok p)
    (outside : ¬(p.below 0 = false ∧ p.above 1 = false)) : ∃ text, pruneThreshold runtime raw = .error (.config text) := by
  rw [prune,given] at read
  rw [pruneThreshold,read]
  refine ⟨_,if_pos ?_⟩
  cases low : p.below 0 <;> cases high : p.above 1 <;> simp_all

theorem pruneThreshold_follows (raw : Mapping) :
    Follows Refusal (pruneThreshold runtime raw) [pruneProbe runtime raw] := by
  cases read : toFloat runtime (prune raw) with
  | error error =>
    rw [pruneThreshold_error read]
    exact escapes_follows (toFloat_safe _) read id fun ⟨p,found,_⟩ => ⟨p,found⟩
  | ok p =>
    have only (P : Number → Prop) : (∃ q, toFloat runtime (prune raw) = .ok q ∧ P q) ↔ P p := by
      rw [read]
      simp
    rw [pruneProbe,only]
    by_cases within : p.below 0 = false ∧ p.above 1 = false
    · rw [pruneThreshold_value read within]
      exact passes_follows ⟨p,read⟩ within
    · obtain ⟨text,refused⟩ := pruneThreshold_outside read within
      rw [refused]
      exact refused_follows ⟨p,read⟩ within

theorem normalizeProvider_follows (value : Value) :
    Follows Refusal (normalizeProvider runtime value) [nameProbe runtime value] := by
  cases value with
  | str text =>
    unfold normalizeProvider
    dsimp only
    split
    · rename_i provider known
      exact passes_follows (.inl ⟨text,rfl⟩) ⟨text,provider,rfl,known⟩
    · rename_i unknown
      refine refused_follows (.inl ⟨text,rfl⟩) ?_
      rintro ⟨other,provider,same,known⟩
      cases same
      rw [unknown] at known
      cases known
  | null | bool _ | int _ | float _ | list _ | dict _ | other _ =>
    refine refuse_follows ?_ ?_
    · simp
    · rintro ⟨text,provider,same,_⟩
      cases same

theorem brainDefault_follows (raw : Mapping) :
    Follows Refusal (brainDefault runtime raw) [defaultProbe runtime raw] := by
  unfold brainDefault defaultProbe given
  cases (get raw "default").getD (.str "auto") with
  | str text =>
    dsimp only
    by_cases auto : lower runtime.lowerOther text = "auto"
    · rw [if_pos auto]
      exact passes_follows trivial ⟨text,rfl,.inl auto⟩
    · rw [if_neg auto]
      have named := (@normalizeProvider_follows runtime (.str (lower runtime.lowerOther text))).map some
      have only (P : String → Prop) : (∃ other, Value.str text = .str other ∧ P other) ↔ P text := by simp
      rw [only]
      refine .single ?_ ?_
      · exact named.sound.trans (iff_of_true ⟨.inl ⟨_,rfl⟩,fun _ => trivial⟩ trivial)
      · rw [named.passes]
        simp only [Passes,List.forall_mem_singleton,nameProbe,auto,false_or]
  | null | bool _ | int _ | float _ | list _ | dict _ | other _ =>
    refine refused_follows trivial ?_
    rintro ⟨text,same,_⟩
    cases same

theorem mapM_probes {β : Type} {f : α → Except Raised β} {probe : α → Probe}
    (each : ∀ item, Follows Refusal (f item) [probe item]) (items : List α) :
    Follows Refusal (items.mapM f) (items.map probe) := by
  rw [List.map_eq_flatMap]
  exact Follows.mapM each items

theorem mapM_empty {β : Type} {f : α → Except Raised β} {items : List α} {values : List β}
    (read : items.mapM f = .ok values) : values = [] ↔ items = [] := by
  cases items with
  | nil => cases read; simp
  | cons item items =>
    rw [List.mapM_cons] at read
    obtain ⟨first,_,later⟩ := bind_ok.mp read
    obtain ⟨rest,_,same⟩ := bind_ok.mp later
    cases same
    simp

theorem brainAutoOrder_follows (raw : Mapping) :
    Follows Refusal (brainAutoOrder runtime raw) (orderProbes runtime raw) := by
  unfold brainAutoOrder givenOrder orderProbes
  cases get raw "auto_order" with
  | none => exact .ok _
  | some value =>
    cases value with
    | list items =>
      dsimp only
      refine (mapM_probes normalizeProvider_follows items).bind fun order read => ?_
      by_cases empty : items = []
      · have none : firsts id [] order = [] := (firsts_eq_nil id).mpr ((mapM_empty read).mpr empty)
        rw [if_pos none]
        exact refused_follows trivial (fun filled => filled empty)
      · have some : ¬firsts id [] order = [] := fun none =>
          empty ((mapM_empty read).mp ((firsts_eq_nil id).mp none))
        rw [if_neg some]
        exact passes_follows trivial empty
    | null | bool _ | int _ | float _ | str _ | dict _ | other _ =>
      exact refused_follows trivial id

theorem providerFlag_follows (entry : Value × Value) :
    Follows Refusal (providerFlag runtime entry) (entryProbes runtime entry) := by
  refine (normalizeProvider_follows entry.1).bind fun provider _ => ?_
  cases entry.2 with
  | bool value => exact passes_follows trivial trivial
  | dict providerCfg =>
    dsimp only [GivesFlag,given]
    cases (get providerCfg "enabled").getD (.bool true) with
    | bool value => exact passes_follows trivial ⟨value,rfl⟩
    | null | int _ | float _ | str _ | list _ | dict _ | other _ =>
      refine refused_follows trivial ?_
      rintro ⟨value,same⟩
      cases same
  | null | int _ | float _ | str _ | list _ | other _ => exact refused_follows trivial id

theorem brainConfig_follows (data : Mapping) :
    Follows Refusal (brainConfig runtime data) (brainProbes runtime data) := by
  refine (mapping_follows _ _).bind fun raw read => ?_
  rw [← mapping_fields read]
  refine (brainDefault_follows raw).bind fun default _ => ?_
  refine (brainAutoOrder_follows raw).bind fun autoOrder _ => ?_
  refine (mapping_follows _ _).bind fun rawProviders found => ?_
  rw [← mapping_fields found]
  exact (Follows.mapM providerFlag_follows rawProviders).map _

theorem memoryConfig_follows (data : Mapping) :
    Follows Refusal (memoryConfig runtime data) (memoryProbes runtime data) := by
  refine (mapping_follows _ _).bind fun raw read => ?_
  rw [← mapping_fields read]
  exact (clampInt_follows _ _ _ _).bind fun _ _ => (toStr_follows _).map _

theorem decayConfig_follows (rawParent : Mapping) :
    Follows Refusal (decayConfig runtime rawParent) (decayProbes runtime rawParent) := by
  refine (mapping_follows _ _).bind fun raw read => ?_
  rw [← mapping_fields read]
  refine (pruneThreshold_follows raw).bind fun _ _ => ?_
  exact (clampInt_follows _ _ _ _).bind fun _ _ => (clampInt_follows _ _ _ _).map _

theorem learningConfig_follows (data : Mapping) :
    Follows Refusal (learningConfig runtime data) (learningProbes runtime data) := by
  refine (mapping_follows _ _).bind fun raw read => ?_
  rw [← mapping_fields read]
  exact (clampInt_follows _ _ _ _).bind fun _ _ => (decayConfig_follows raw).map _

theorem rateLimitConfig_follows (data : Mapping) :
    Follows Refusal (rateLimitConfig runtime data) (rateLimitProbes runtime data) := by
  refine (mapping_follows _ _).bind fun raw read => ?_
  rw [← mapping_fields read]
  refine (clampInt_follows _ _ _ _).bind fun _ _ => ?_
  exact (clampInt_follows _ _ _ _).bind fun _ _ => (clampInt_follows _ _ _ _).map _

theorem terminalConfig_follows (data : Mapping) :
    Follows Refusal (terminalConfig runtime data) (terminalProbes runtime data) := by
  refine (mapping_follows _ _).bind fun raw read => ?_
  rw [← mapping_fields read]
  exact (clampInt_follows _ _ _ _).map _

theorem knownKey_follows (field : Value × Value) :
    Follows Refusal (knownKey runtime field) [keyProbe runtime field] := by
  unfold knownKey
  by_cases known : recognised field.1 = true
  · rw [if_pos known]
    exact passes_follows (.inl known) known
  · rw [if_neg known]
    exact refuse_follows (by simp [known]) known

theorem enabledNames_follows (raw : Mapping) :
    Follows Refusal (enabledNames runtime raw) (namesProbes runtime raw) := by
  unfold enabledNames namesProbes given
  cases (get raw "enabled").getD (.list []) with
  | list items => exact mapM_probes toStr_follows items
  | null | bool _ | int _ | float _ | str _ | dict _ | other _ => exact refused_follows trivial id

theorem overrideEntry_follows (field : Value × Value) :
    Follows Refusal (overrideEntry runtime field) (overrideProbes runtime field) :=
  (toStr_follows _).bind fun _ _ => (toStr_follows _).map _

theorem integrationsConfig_follows (data : Mapping) :
    Follows Refusal (integrationsConfig runtime data) (integrationsProbes runtime data) := by
  refine (mapping_follows _ _).bind fun raw read => ?_
  rw [← mapping_fields read]
  refine (mapM_probes knownKey_follows raw).bind fun _ _ => ?_
  refine (enabledNames_follows raw).bind fun _ _ => ?_
  refine (mapping_follows _ _).bind fun rawOverrides found => ?_
  rw [← mapping_fields found]
  refine (Follows.mapM overrideEntry_follows rawOverrides).bind fun _ _ => ?_
  exact (toStr_follows _).bind fun _ _ => (mapping_follows _ _).map _

theorem contextConfig_follows (data : Mapping) :
    Follows Refusal (contextConfig runtime data) (contextProbes runtime data) := by
  refine (mapping_follows _ _).bind fun raw read => ?_
  rw [← mapping_fields read]
  exact (clampInt_follows _ _ _ _).bind fun _ _ => (clampInt_follows _ _ _ _).map _

theorem auditLog_follows (data : Mapping) : Follows Refusal (auditLog data) [auditProbe data] := by
  unfold auditLog auditProbe given
  cases (get data "audit_log").getD (.bool false) with
  | bool value => exact passes_follows trivial ⟨value,rfl⟩
  | null | int _ | float _ | str _ | list _ | dict _ | other _ =>
    refine refused_follows trivial ?_
    rintro ⟨value,same⟩
    cases same

theorem loadConfig_follows (path : String) (document : Option Value) :
    Follows Refusal (loadConfig runtime path document) (documentProbes runtime document) := by
  refine (mapping_follows _ _).bind fun data read => ?_
  rw [← mapping_fields read]
  refine (auditLog_follows data).bind fun _ _ => ?_
  refine (brainConfig_follows data).bind fun _ _ => ?_
  refine (memoryConfig_follows data).bind fun _ _ => ?_
  refine (learningConfig_follows data).bind fun _ _ => ?_
  refine (rateLimitConfig_follows data).bind fun _ _ => ?_
  refine (terminalConfig_follows data).bind fun _ _ => ?_
  exact (integrationsConfig_follows data).bind fun _ _ => (contextConfig_follows data).map _

end HyprlandAgent.Config
