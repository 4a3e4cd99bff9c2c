import HyprlandAgent.Learning.Grants

-- The calls that look a proposal up by its id, and what each makes of one that is stored
-- or is not.
namespace HyprlandAgent.Learning

-- The creation time of each skill, and the order in which SQLite returns them.
structure Listing where
  createdAt : String → Seconds
  newest : List Skill → List Skill
  newest_perm : ∀ skills, (newest skills).Perm skills
  newest_sorted : ∀ skills, (newest skills).Pairwise fun a b => createdAt b.skillId ≤ createdAt a.skillId

def listSkills {Text : Type} (listing : Listing) (db : Database Text) (status : Option Status) (limit : Nat) :
    List Skill :=
  match status with
  | some status => (listing.newest (db.skills.filter (·.status = status))).take limit
  | none => (listing.newest db.skills).take limit

inductive Explanation (Text : Type) where
  | skill (id name description actions : String) (status : Status)
  | rule (id : String) (confidence : Rat) (hitCount : Nat) (yaml : Text) (status : Status)
  | allowlist (id appClass titlePat : String) (hitCount : Nat) (status : Status)

section
variable {yaml : Yaml} (python : Python) (listing : Listing) (s : State yaml)

def explain (kind proposalId : String) : Except Failure (Explanation yaml.Text) :=
  let kind := python.lower kind
  if kind = "skill" then
    match (listSkills listing s.db none 50).find? (·.skillId = proposalId) with
    | none => .error (.keyError ("skill " ++ python.repr proposalId ++ " not found"))
    | some skill => .ok (.skill proposalId skill.name skill.description skill.actionsJson skill.status)
  else if kind = "rule" then
    match s.db.rules.find? (·.ruleId = proposalId) with
    | none => .error (.keyError ("rule " ++ python.repr proposalId ++ " not found"))
    | some rule => .ok (.rule proposalId rule.confidence rule.hitCount rule.yaml rule.status)
  else if kind = "allowlist" then
    match s.db.proposals.find? (·.proposalId.repr = proposalId) with
    | none => .error (.keyError ("allowlist proposal " ++ python.repr proposalId ++ " not found"))
    | some prop => .ok (.allowlist proposalId prop.appClass prop.titlePat prop.hitCount prop.status)
  else .error (.valueError ("Unknown kind: " ++ python.repr kind))

end

inductive Kind where
  | skill | rule | allowlist
  deriving DecidableEq, Repr

def Kind.value : Kind → String
  | .skill => "skill"
  | .rule => "rule"
  | .allowlist => "allowlist"

def Stored {Text : Type} (db : Database Text) (kind : Kind) (proposalId : String) : Prop :=
  match kind with
  | .skill => ∃ skill ∈ db.skills, skill.skillId = proposalId
  | .rule => ∃ rule ∈ db.rules, rule.ruleId = proposalId
  | .allowlist => ∃ prop ∈ db.proposals, prop.proposalId.repr = proposalId

section
variable {yaml : Yaml} {α : Type}

def Refused (s : State yaml) (call : State yaml × Except Failure α) : Prop :=
  call.1 = s ∧ ∃ text, call.2 = .error (.keyError text)

def Succeeded (call : State yaml × Except Failure α) : Prop := ∃ value, call.2 = .ok value

def Knows (s : State yaml) (kind : Kind) (proposalId : String) (call : State yaml × Except Failure α) : Prop :=
  (Refused s call ↔ ¬Stored s.db kind proposalId) ∧ (Stored s.db kind proposalId → Succeeded call)

theorem Succeeded.not_refused {s : State yaml} {call : State yaml × Except Failure α} (succeeded : Succeeded call) :
    ¬Refused s call := by
  rintro ⟨_,text,refused⟩
  obtain ⟨value,same⟩ := succeeded
  rw [refused] at same
  cases same

theorem knows_stored {s : State yaml} {kind : Kind} {proposalId : String} {call : State yaml × Except Failure α}
    (stored : Stored s.db kind proposalId) : Knows s kind proposalId call ↔ Succeeded call := by
  constructor
  · intro knows
    exact knows.2 stored
  · intro succeeded
    exact ⟨⟨fun refused => absurd refused succeeded.not_refused,fun absent => absurd stored absent⟩,
      fun _ => succeeded⟩

theorem knows_absent {s : State yaml} {kind : Kind} {proposalId : String} {call : State yaml × Except Failure α}
    (absent : ¬Stored s.db kind proposalId) : Knows s kind proposalId call ↔ Refused s call := by
  constructor
  · intro knows
    exact knows.1.mpr absent
  · intro refused
    exact ⟨⟨fun _ => absent,fun _ => refused⟩,fun stored => absurd stored absent⟩

end

section
variable {yaml : Yaml} (python : Python) (listing : Listing) (s : State yaml)

structure Agree (kind : Kind) (proposalId : String) (now : Seconds) : Prop where
  approve : Knows s kind proposalId (Learning.approve python s kind.value proposalId now)
  reject : Knows s kind proposalId (Learning.reject python s kind.value proposalId now)
  explain : Knows s kind proposalId (s,Learning.explain python listing s kind.value proposalId)

-- A stored proposal that every call finds: a skill that is among the fifty newest, or one
-- that its file can take.
def Found (kind : Kind) (proposalId : String) : Prop :=
  match kind with
  | .skill => ∃ skill ∈ (listing.newest s.db.skills).take 50, skill.skillId = proposalId
  | .rule => yaml.Readable "rules" s.learnedRules ∧
    ∃ rule, s.db.rules.find? (·.ruleId = proposalId) = some rule ∧
      ∃ fields, yaml.mapping (some rule.yaml) = .ok fields ∧ (items (get fields "rules")).isSome = true
  | .allowlist => yaml.Readable "allow" s.allowlist ∧ Stored s.db .allowlist proposalId

variable {python} {listing} {s} {kind : Kind} {proposalId : String} {now : Seconds}

theorem lower_value (kind : Kind) : python.lower kind.value = kind.value := by
  cases kind with
  | skill => exact lower_known rfl rfl
  | rule => exact lower_known rfl rfl
  | allowlist => exact lower_known rfl rfl

theorem Found.stored (found : Found listing s kind proposalId) : Stored s.db kind proposalId := by
  cases kind with
  | skill =>
    obtain ⟨skill,inside,named⟩ := found
    exact ⟨skill,(listing.newest_perm _).subset (List.mem_of_mem_take inside),named⟩
  | rule =>
    obtain ⟨_,rule,there,_⟩ := found
    exact ⟨rule,List.mem_of_find?_eq_some there,by simpa using List.find?_some there⟩
  | allowlist => exact found.2

theorem kind_rule : ¬Kind.rule.value = "skill" := by decide

theorem kind_allowlist : ¬Kind.allowlist.value = "skill" ∧ ¬Kind.allowlist.value = "rule" := by decide

-- Rejecting never looks, so that it is never refused.
theorem reject_not_refused : ¬Refused s (reject python s kind.value proposalId now) := by
  rintro ⟨_,text,refused⟩
  unfold reject at refused
  simp only [lower_value] at refused
  cases kind with
  | skill => cases refused
  | rule => cases refused
  | allowlist =>
    simp only [if_neg kind_allowlist.1,if_neg kind_allowlist.2] at refused
    rw [if_pos (by rfl)] at refused
    cases number : python.int proposalId with
    | none => simp [number] at refused
    | some id => simp [number] at refused

theorem reject_succeeded (stored : Stored s.db kind proposalId) :
    Succeeded (reject python s kind.value proposalId now) := by
  unfold reject
  simp only [lower_value]
  cases kind with
  | skill => exact ⟨_,rfl⟩
  | rule => exact ⟨_,rfl⟩
  | allowlist =>
    obtain ⟨prop,_,named⟩ := stored
    have number : python.int proposalId = some (prop.proposalId : Int) := by
      rw [← named]
      exact python.int_str _
    simp only [if_neg kind_allowlist.1,if_neg kind_allowlist.2,number]
    exact ⟨_,rfl⟩

theorem find?_rule : (s.db.rules.find? (·.ruleId = proposalId)).isSome = true ↔ Stored s.db .rule proposalId := by
  simp [Stored]

theorem find?_proposal : (s.db.proposals.find? (·.proposalId.repr = proposalId)).isSome = true ↔
    Stored s.db .allowlist proposalId := by
  simp [Stored]

theorem appendLearnedRule_ok {file : Option yaml.Text} {ruleYaml : yaml.Text} :
    (∃ new, appendLearnedRule yaml file ruleYaml = .ok new) ↔ yaml.Readable "rules" file ∧
      ∃ fields, yaml.mapping (some ruleYaml) = .ok fields ∧ (items (get fields "rules")).isSome = true := by
  constructor
  · rintro ⟨new,written⟩
    unfold appendLearnedRule at written
    simp only [bind,Except.bind] at written
    cases existing : yaml.mapping file with
    | error failure => simp [existing] at written
    | ok fields =>
      cases added : yaml.mapping (some ruleYaml) with
      | error failure => simp [existing,added] at written
      | ok more =>
        simp only [existing,added] at written
        split at written
        · rename_i list new list_ new_
          exact ⟨⟨fields,list,existing,list_⟩,more,rfl,by rw [new_]; rfl⟩
        · cases written
        · cases written
  · rintro ⟨⟨fields,list,existing,list_⟩,more,added,some_⟩
    obtain ⟨new,new_⟩ := Option.isSome_iff_exists.mp some_
    refine ⟨yaml.dump (.obj [("rules",.arr (list ++ new))]),?_⟩
    simp only [appendLearnedRule,bind,Except.bind,existing,added,list_,new_]

theorem appendAllowlistEntry_ok {file : Option yaml.Text} {appClass titlePat : String} :
    (∃ new, appendAllowlistEntry yaml file appClass titlePat = .ok new) ↔ yaml.Readable "allow" file := by
  constructor
  · rintro ⟨new,written⟩
    unfold appendAllowlistEntry at written
    simp only [bind,Except.bind] at written
    cases existing : yaml.mapping file with
    | error failure => simp [existing] at written
    | ok fields =>
      simp only [existing] at written
      split at written
      · rename_i list list_
        exact ⟨fields,list,existing,list_⟩
      · cases written
  · rintro ⟨fields,list,existing,list_⟩
    have written : appendAllowlistEntry yaml file appClass titlePat = .ok (yaml.dump (.obj [("allow",.arr
        (if list.any (alike (allowlistEntry appClass titlePat)) then list
          else list ++ [allowlistEntry appClass titlePat]))])) := by
      simp only [appendAllowlistEntry,bind,Except.bind,existing,list_]
    exact ⟨_,written⟩

theorem approve_rule_succeeded {rule : LearnedRule yaml.Text}
    (there : s.db.rules.find? (·.ruleId = proposalId) = some rule) :
    Succeeded (approve python s Kind.rule.value proposalId now) ↔
      ∃ file, appendLearnedRule yaml s.learnedRules rule.yaml = .ok file := by
  unfold approve
  simp only [lower_value,if_neg kind_rule,there]
  cases written : appendLearnedRule yaml s.learnedRules rule.yaml with
  | error failure => simp [Succeeded,Kind.value]
  | ok file => simp [Succeeded,Kind.value]

theorem approve_entry_succeeded {prop : AllowlistProposal}
    (there : s.db.proposals.find? (·.proposalId.repr = proposalId) = some prop) :
    Succeeded (approve python s Kind.allowlist.value proposalId now) ↔
      ∃ file, appendAllowlistEntry yaml s.allowlist prop.appClass prop.titlePat = .ok file := by
  have named : prop.proposalId.repr = proposalId := by simpa using List.find?_some there
  have number : python.int proposalId = some (prop.proposalId : Int) := by
    rw [← named]
    exact python.int_str _
  unfold approve
  simp only [lower_value,if_neg kind_allowlist.1,if_neg kind_allowlist.2,there]
  cases written : appendAllowlistEntry yaml s.allowlist prop.appClass prop.titlePat with
  | error failure => simp [Succeeded,Kind.value]
  | ok file => simp [Succeeded,Kind.value,number]

theorem explain_skill_succeeded : Succeeded (s,explain python listing s Kind.skill.value proposalId) ↔
    ∃ skill ∈ (listing.newest s.db.skills).take 50, skill.skillId = proposalId := by
  unfold explain
  simp only [lower_value,listSkills]
  cases there : ((listing.newest s.db.skills).take 50).find? (·.skillId = proposalId) with
  | none =>
    have missing := List.find?_eq_none.mp there
    simp only [decide_eq_true_eq] at missing
    constructor
    · rintro ⟨value,same⟩
      cases same
    · rintro ⟨skill,inside,named⟩
      exact absurd named (missing skill inside)
  | some skill =>
    constructor
    · intro _
      exact ⟨skill,List.mem_of_find?_eq_some there,by simpa using List.find?_some there⟩
    · intro _
      exact ⟨_,rfl⟩

theorem explain_rule_succeeded (stored : Stored s.db .rule proposalId) :
    Succeeded (s,explain python listing s Kind.rule.value proposalId) := by
  obtain ⟨rule,there⟩ := Option.isSome_iff_exists.mp (find?_rule.mpr stored)
  unfold explain
  simp only [lower_value,if_neg kind_rule,there]
  exact ⟨_,rfl⟩

theorem explain_entry_succeeded (stored : Stored s.db .allowlist proposalId) :
    Succeeded (s,explain python listing s Kind.allowlist.value proposalId) := by
  obtain ⟨prop,there⟩ := Option.isSome_iff_exists.mp (find?_proposal.mpr stored)
  unfold explain
  simp only [lower_value,if_neg kind_allowlist.1,if_neg kind_allowlist.2,there]
  exact ⟨_,rfl⟩

theorem agree_stored (stored : Stored s.db kind proposalId) : Agree python listing s kind proposalId now ↔
    Succeeded (approve python s kind.value proposalId now) ∧
      Succeeded (s,explain python listing s kind.value proposalId) := by
  constructor
  · intro agree
    exact ⟨(knows_stored stored).mp agree.approve,(knows_stored stored).mp agree.explain⟩
  · rintro ⟨approved,explained⟩
    exact ⟨(knows_stored stored).mpr approved,(knows_stored stored).mpr (reject_succeeded stored),
      (knows_stored stored).mpr explained⟩

-- The three agree exactly about the proposals that are stored and that each of them finds;
-- about one that is not stored they never do.
theorem agree_iff : Agree python listing s kind proposalId now ↔ Found listing s kind proposalId := by
  by_cases stored : Stored s.db kind proposalId
  · rw [agree_stored stored]
    cases kind with
    | skill =>
      rw [explain_skill_succeeded]
      constructor
      · exact And.right
      · intro found
        refine ⟨?_,found⟩
        unfold approve
        simp only [lower_value]
        exact ⟨_,rfl⟩
    | rule =>
      obtain ⟨rule,there⟩ := Option.isSome_iff_exists.mp (find?_rule.mpr stored)
      rw [approve_rule_succeeded there,appendLearnedRule_ok]
      constructor
      · rintro ⟨⟨readable,new⟩,_⟩
        exact ⟨readable,rule,there,new⟩
      · rintro ⟨readable,other,found,new⟩
        rw [there] at found
        cases found
        exact ⟨⟨readable,new⟩,explain_rule_succeeded stored⟩
    | allowlist =>
      obtain ⟨prop,there⟩ := Option.isSome_iff_exists.mp (find?_proposal.mpr stored)
      rw [approve_entry_succeeded there,appendAllowlistEntry_ok]
      constructor
      · rintro ⟨readable,_⟩
        exact ⟨readable,stored⟩
      · rintro ⟨readable,_⟩
        exact ⟨readable,explain_entry_succeeded stored⟩
  · constructor
    · intro agree
      exact absurd ((knows_absent stored).mp agree.reject) reject_not_refused
    · intro found
      exact absurd found.stored stored

end

def emptyState : State plainYaml := ⟨⟨[],[],[],0⟩,none,none⟩

def sortingListing : Listing where
  createdAt _ := 0
  newest skills := skills
  newest_perm _ := .refl _
  newest_sorted skills := by
    induction skills with
    | nil => exact .nil
    | cons skill rest ih => exact .cons (fun _ _ => Rat.le_refl) ih

theorem unknown_rule_rejected : ¬Agree asciiPython sortingListing emptyState .rule "r1" 0 := by
  intro agree
  have unknown : ¬Stored emptyState.db .rule "r1" := by
    rintro ⟨rule,inside,_⟩
    cases inside
  exact reject_not_refused ((knows_absent unknown).mp agree.reject)

end HyprlandAgent.Learning
