import HyprlandAgent.Learning.Proposals
import HyprlandAgent.Transition

-- The learning API: what approving and rejecting a proposal does to the tables and
-- to the two files it may be written to.
namespace HyprlandAgent.Learning
open Transition

def asciiLower (char : Char) : Char :=
  if 65 ≤ char.toNat ∧ char.toNat ≤ 90 then Char.ofNat (char.toNat + 32) else char

-- What Python brings: `int(str(n))` is `n`; lower case is the known one for ASCII
-- and changes no text twice.
structure Python where
  lower : String → String
  int : String → Option Int
  repr : String → String
  int_str : ∀ n : Nat, int n.repr = some (n : Int)
  lower_ascii : ∀ text : String, (∀ char ∈ text.toList, char.toNat < 128) →
    lower text = String.ofList (text.toList.map asciiLower)
  lower_fixed : ∀ text : String,
    (∀ char ∈ text.toList, lower (String.singleton char) = String.singleton char) → lower text = text
  lower_settled : ∀ text : String,
    ∀ char ∈ (lower text).toList, lower (String.singleton char) = String.singleton char

theorem asciiLower_asciiLower (char : Char) : asciiLower (asciiLower char) = asciiLower char := by
  by_cases upper : 65 ≤ char.toNat ∧ char.toNat ≤ 90
  · have lowered : asciiLower char = Char.ofNat (char.toNat + 32) := by rw [asciiLower,if_pos upper]
    have number : (Char.ofNat (char.toNat + 32)).toNat = char.toNat + 32 := by
      have valid : (char.toNat + 32).isValidChar := .inl (by omega)
      rw [Char.ofNat,dif_pos valid]
      rfl
    rw [lowered,asciiLower,if_neg (by omega)]
  · have same : asciiLower char = char := by rw [asciiLower,if_neg upper]
    rw [same,same]

-- Where only ASCII is met.
def asciiPython : Python where
  lower := fun text => String.ofList (text.toList.map asciiLower)
  int := fun text =>
    if text.toList ≠ [] ∧ text.toList.all Char.isDigit then some (Nat.ofDigitChars 10 text.toList 0)
    else none
  repr := fun text => "'" ++ text ++ "'"
  int_str := by
    intro n
    have digits : n.repr.toList.all Char.isDigit = true := by
      rw [Nat.toList_repr,List.all_eq_true]
      intro char inside
      exact Nat.isDigit_of_mem_toDigits (by decide) (by decide) inside
    have some_digit : n.repr.toList ≠ [] := by
      rw [Nat.toList_repr]
      exact Nat.toDigits_ne_nil
    rw [if_pos ⟨some_digit,digits⟩]
    simp [Nat.toList_repr]
  lower_ascii := fun _ _ => rfl
  lower_fixed := by
    intro text fixed
    have same : text.toList.map asciiLower = text.toList := by
      refine (List.map_congr_left ?_).trans (List.map_id' _)
      intro char inside
      simpa using fixed char inside
    rw [same,String.ofList_toList]
  lower_settled := by
    intro text char inside
    rw [String.toList_ofList] at inside
    obtain ⟨first,_,rfl⟩ := List.mem_map.mp inside
    simp [asciiLower_asciiLower]

structure Decision where
  kind : String
  id : String
  status : Status

-- The tables, and the files learned_rules.yaml and allowlist.yaml where they exist.
structure State (yaml : Yaml) where
  db : Database yaml.Text
  learnedRules : Option yaml.Text
  allowlist : Option yaml.Text

section
variable (yaml : Yaml)

def appendLearnedRule (file : Option yaml.Text) (ruleYaml : yaml.Text) : Except Failure yaml.Text := do
  let existing ← yaml.mapping file
  let new ← yaml.mapping (some ruleYaml)
  match get existing "rules",items (get new "rules") with
  | .arr existingRules,some newRules => .ok (yaml.dump (.obj [("rules",.arr (existingRules ++ newRules))]))
  | .arr _,none => .error .typeError
  | _,_ => .error .attributeError

def allowlistEntry (appClass titlePat : String) : Json :=
  .obj [("class",.str appClass),("title",.str titlePat)]

def appendAllowlistEntry (file : Option yaml.Text) (appClass titlePat : String) :
    Except Failure yaml.Text := do
  let existing ← yaml.mapping file
  match get existing "allow" with
  | .arr allow =>
    let entry := allowlistEntry appClass titlePat
    let allow := if allow.any (alike entry) then allow else allow ++ [entry]
    .ok (yaml.dump (.obj [("allow",.arr allow)]))
  | _ => .error .typeError

variable {yaml} (python : Python) (s : State yaml)

-- The file is written before the status, and a call that raises keeps what it has
-- written so far.
def approve (kind proposalId : String) (now : Seconds) : State yaml × Except Failure Decision :=
  let kind := python.lower kind
  if kind = "skill" then
    ({ s with db := s.db.updateSkillStatus proposalId .approved },.ok ⟨"skill",proposalId,.approved⟩)
  else if kind = "rule" then
    match s.db.rules.find? (·.ruleId = proposalId) with
    | none => (s,.error (.keyError ("rule " ++ python.repr proposalId ++ " not found")))
    | some rule =>
      match appendLearnedRule yaml s.learnedRules rule.yaml with
      | .error failure => (s,.error failure)
      | .ok file =>
        ({ s with
          db := s.db.updateLearnedRuleStatus proposalId .approved now
          learnedRules := some file },.ok ⟨"rule",proposalId,.approved⟩)
  else if kind = "allowlist" then
    match s.db.proposals.find? (·.proposalId.repr = proposalId) with
    | none => (s,.error (.keyError ("allowlist proposal " ++ python.repr proposalId ++ " not found")))
    | some prop =>
      match appendAllowlistEntry yaml s.allowlist prop.appClass prop.titlePat with
      | .error failure => (s,.error failure)
      | .ok file =>
        let written := { s with allowlist := some file }
        match python.int proposalId with
        | none => (written,.error (.valueError ("invalid literal for int() with base 10: " ++ python.repr proposalId)))
        | some id =>
          ({ written with db := written.db.updateAllowlistProposalStatus id .approved },
            .ok ⟨"allowlist",proposalId,.approved⟩)
  else (s,.error (.valueError ("Unknown kind: " ++ python.repr kind)))

def reject (kind proposalId : String) (now : Seconds) : State yaml × Except Failure Decision :=
  let kind := python.lower kind
  if kind = "skill" then
    ({ s with db := s.db.updateSkillStatus proposalId .rejected },.ok ⟨kind,proposalId,.rejected⟩)
  else if kind = "rule" then
    ({ s with db := s.db.updateLearnedRuleStatus proposalId .rejected now },.ok ⟨kind,proposalId,.rejected⟩)
  else if kind = "allowlist" then
    match python.int proposalId with
    | none => (s,.error (.valueError ("invalid literal for int() with base 10: " ++ python.repr proposalId)))
    | some id =>
      ({ s with db := s.db.updateAllowlistProposalStatus id .rejected },.ok ⟨kind,proposalId,.rejected⟩)
  else (s,.error (.valueError ("Unknown kind: " ++ python.repr kind)))

end

inductive Call where
  | approve (kind proposalId : String) (now : Seconds)
  | reject (kind proposalId : String) (now : Seconds)

section
variable {yaml : Yaml} (python : Python)

def answer (s : State yaml) : Call → State yaml × Except Failure Decision
  | .approve kind proposalId now => approve python s kind proposalId now
  | .reject kind proposalId now => reject python s kind proposalId now

def system : System (State yaml) Call := ⟨fun s call => some (answer python s call).1⟩

variable {python} {s : State yaml} {kind proposalId : String} {now : Seconds}

theorem approve_cases (python : Python) (s : State yaml) (kind proposalId : String) (now : Seconds) :
    (python.lower kind = "skill" ∧ (approve python s kind proposalId now).1 =
      { s with db := s.db.updateSkillStatus proposalId .approved }) ∨
    (python.lower kind = "rule" ∧ ∃ rule, s.db.rules.find? (·.ruleId = proposalId) = some rule ∧
      ∃ file, appendLearnedRule yaml s.learnedRules rule.yaml = .ok file ∧
        (approve python s kind proposalId now).1 =
          { s with
            db := s.db.updateLearnedRuleStatus proposalId .approved now
            learnedRules := some file }) ∨
    (python.lower kind = "allowlist" ∧
      ∃ prop, s.db.proposals.find? (·.proposalId.repr = proposalId) = some prop ∧
      ∃ file, appendAllowlistEntry yaml s.allowlist prop.appClass prop.titlePat = .ok file ∧
        (approve python s kind proposalId now).1 =
          { s with
            db := s.db.updateAllowlistProposalStatus prop.proposalId .approved
            allowlist := some file }) ∨
    (python.lower kind ≠ "skill" ∧
      (python.lower kind = "rule" → ∀ rule, s.db.rules.find? (·.ruleId = proposalId) = some rule →
        ∀ file, appendLearnedRule yaml s.learnedRules rule.yaml ≠ .ok file) ∧
      (approve python s kind proposalId now).1 = s) := by
  unfold approve
  by_cases skill : python.lower kind = "skill"
  · simp only [if_pos skill]
    exact .inl ⟨skill,trivial⟩
  by_cases rule : python.lower kind = "rule"
  · simp only [if_neg skill,if_pos rule]
    cases there : s.db.rules.find? (·.ruleId = proposalId) with
    | none => exact .inr (.inr (.inr ⟨skill,by simp,rfl⟩))
    | some found =>
      cases written : appendLearnedRule yaml s.learnedRules found.yaml with
      | error failure => exact .inr (.inr (.inr ⟨skill,by simp [written],by simp [written]⟩))
      | ok file => exact .inr (.inl ⟨rule,found,rfl,file,written,by simp [written]⟩)
  by_cases allowlist : python.lower kind = "allowlist"
  · simp only [if_neg skill,if_neg rule,if_pos allowlist]
    have refused : python.lower kind = "rule" → ∀ rule, s.db.rules.find? (·.ruleId = proposalId) = some rule →
        ∀ file, appendLearnedRule yaml s.learnedRules rule.yaml ≠ .ok file := fun same => absurd same rule
    cases there : s.db.proposals.find? (·.proposalId.repr = proposalId) with
    | none => exact .inr (.inr (.inr ⟨skill,refused,rfl⟩))
    | some found =>
      cases written : appendAllowlistEntry yaml s.allowlist found.appClass found.titlePat with
      | error failure => exact .inr (.inr (.inr ⟨skill,refused,by simp [written]⟩))
      | ok file =>
        have named : found.proposalId.repr = proposalId := by simpa using List.find?_some there
        have number : python.int proposalId = some (found.proposalId : Int) := by
          rw [← named]
          exact python.int_str _
        exact .inr (.inr (.inl ⟨allowlist,found,rfl,file,written,by simp [written,number]⟩))
  · simp only [if_neg skill,if_neg rule,if_neg allowlist]
    exact .inr (.inr (.inr ⟨skill,fun same => absurd same rule,trivial⟩))

theorem reject_cases (python : Python) (s : State yaml) (kind proposalId : String) (now : Seconds) :
    (python.lower kind = "skill" ∧ (reject python s kind proposalId now).1 =
      { s with db := s.db.updateSkillStatus proposalId .rejected }) ∨
    (python.lower kind = "rule" ∧ (reject python s kind proposalId now).1 =
      { s with db := s.db.updateLearnedRuleStatus proposalId .rejected now }) ∨
    (python.lower kind = "allowlist" ∧ ∃ id, python.int proposalId = some id ∧
      (reject python s kind proposalId now).1 =
        { s with db := s.db.updateAllowlistProposalStatus id .rejected }) ∨
    (python.lower kind ≠ "skill" ∧ python.lower kind ≠ "rule" ∧
      (python.lower kind = "allowlist" → python.int proposalId = none) ∧
      (reject python s kind proposalId now).1 = s) := by
  unfold reject
  by_cases skill : python.lower kind = "skill"
  · simp only [if_pos skill]
    exact .inl ⟨skill,trivial⟩
  by_cases rule : python.lower kind = "rule"
  · simp only [if_neg skill,if_pos rule]
    exact .inr (.inl ⟨rule,trivial⟩)
  by_cases allowlist : python.lower kind = "allowlist"
  · simp only [if_neg skill,if_neg rule,if_pos allowlist]
    cases number : python.int proposalId with
    | none => exact .inr (.inr (.inr ⟨skill,rule,fun _ => rfl,rfl⟩))
    | some id => exact .inr (.inr (.inl ⟨allowlist,id,rfl,rfl⟩))
  · simp only [if_neg skill,if_neg rule,if_neg allowlist]
    exact .inr (.inr (.inr ⟨skill,rule,fun same => absurd same allowlist,trivial⟩))

end
end HyprlandAgent.Learning
