import HyprlandAgent.Learning.ConfigFiles

-- The tables of what was learned, and what the miners put into them.
namespace HyprlandAgent.Learning

inductive Status where
  | draft | proposed | pending | approved | rejected
  deriving DecidableEq, Repr

structure Skill where
  skillId : String
  name : String
  description : String
  actionsJson : String
  status : Status

structure LearnedRule (Text : Type) where
  ruleId : String
  yaml : Text
  confidence : Rat
  hitCount : Nat := 0
  sourceRuns : String
  status : Status := .proposed
  proposedAt : Seconds
  decidedAt : Option Seconds := none

structure AllowlistProposal where
  proposalId : Nat
  appClass : String
  titlePat : String
  hitCount : Nat
  lastSeen : Seconds
  status : Status

-- The last number that AUTOINCREMENT gave out stands beside the tables.
structure Database (Text : Type) where
  skills : List Skill
  rules : List (LearnedRule Text)
  proposals : List AllowlistProposal
  lastProposal : Nat

namespace Database
variable {Text : Type} (db : Database Text)

def updateSkillStatus (skillId : String) (status : Status) : Database Text :=
  { db with skills := db.skills.map fun skill =>
      if skill.skillId = skillId then { skill with status } else skill }

-- INSERT OR IGNORE
def insertLearnedRule (rule : LearnedRule Text) : Database Text :=
  if db.rules.any (·.ruleId = rule.ruleId) then db else { db with rules := db.rules ++ [rule] }

def updateLearnedRuleStatus (ruleId : String) (status : Status) (now : Seconds) : Database Text :=
  { db with rules := db.rules.map fun rule =>
      if rule.ruleId = ruleId then { rule with status,decidedAt := some now } else rule }

-- INSERT .. ON CONFLICT(app_class, title_pat) DO UPDATE .. WHERE status = 'pending'
def upsertAllowlistProposal (appClass titlePat : String) (now : Seconds) : Database Text :=
  if db.proposals.any fun proposal => proposal.appClass = appClass ∧ proposal.titlePat = titlePat then
    { db with proposals := db.proposals.map fun proposal =>
        if (proposal.appClass = appClass ∧ proposal.titlePat = titlePat) ∧ proposal.status = .pending then
          { proposal with hitCount := proposal.hitCount + 1,lastSeen := now }
        else proposal }
  else
    { db with
      proposals := db.proposals ++ [⟨db.lastProposal + 1,appClass,titlePat,1,now,.pending⟩]
      lastProposal := db.lastProposal + 1 }

def updateAllowlistProposalStatus (proposalId : Int) (status : Status) : Database Text :=
  { db with proposals := db.proposals.map fun proposal =>
      if (proposal.proposalId : Int) = proposalId then { proposal with status } else proposal }

end Database

def hitThreshold : Nat := 3

-- A context class with the kinds of actions it was seen with, how often, and in
-- which runs.
structure Candidate where
  contextClass : String
  actionKinds : List String
  count : Nat
  sourceRuns : String

def minedBlock (contextClass : String) (actionKinds : List String) : Json :=
  .obj [("on",.str "openwindow"),("match",.obj [("class",.str contextClass)]),
    ("actions",.arr [.obj [("log",.str ("auto: " ++ ", ".intercalate (actionKinds.take 3)))]])]

section
variable (yaml : Yaml) (ruleId : String → List String → String)

def ruleYaml (contextClass : String) (actionKinds : List String) : yaml.Text :=
  yaml.dump (.obj [("rules",.arr [minedBlock contextClass actionKinds])])

-- One turn of the rule miner's second loop; `rule_id` is the digest of the pair, and
-- the confidence `min(1.0, count / 10)`.
def proposeRule (db : Database yaml.Text) (candidate : Candidate) (now : Seconds) :
    Database yaml.Text :=
  if candidate.count < hitThreshold then db
  else db.insertLearnedRule {
    ruleId := ruleId candidate.contextClass candidate.actionKinds
    yaml := ruleYaml yaml candidate.contextClass candidate.actionKinds
    confidence := mkRat (min 10 candidate.count) 10
    sourceRuns := candidate.sourceRuns
    proposedAt := now }

-- What one write of a miner was about: a candidate, or an entry of the miss counter.
inductive Mined where
  | rule (candidate : Candidate) (now : Seconds)
  | miss (appClass title : String) (now : Seconds)

-- The title of a blocked window is not looked at.
def mine (db : Database yaml.Text) : Mined → Database yaml.Text
  | .rule candidate now => proposeRule yaml ruleId db candidate now
  | .miss appClass _ now => db.upsertAllowlistProposal appClass "*" now

def minedDatabase (skills : List Skill) (mined : List Mined) : Database yaml.Text :=
  mined.foldl (mine yaml ruleId) ⟨skills,[],[],0⟩

end

section
variable {α κ : Type} {key : α → κ} {rows : List α}

theorem unique_append {row : α} (unique : ∀ a ∈ rows, ∀ b ∈ rows, key a = key b → a = b)
    (fresh : ∀ other ∈ rows, key other ≠ key row) :
    ∀ a ∈ rows ++ [row], ∀ b ∈ rows ++ [row], key a = key b → a = b := by
  intro a inA b inB same
  rcases List.mem_append.mp inA with oldA | newA <;> rcases List.mem_append.mp inB with oldB | newB
  · exact unique a oldA b oldB same
  · rw [List.mem_singleton.mp newB] at same
    exact absurd same (fresh a oldA)
  · rw [List.mem_singleton.mp newA] at same
    exact absurd same.symm (fresh b oldB)
  · rw [List.mem_singleton.mp newA,List.mem_singleton.mp newB]

theorem unique_map {change : α → α} (unique : ∀ a ∈ rows, ∀ b ∈ rows, key a = key b → a = b)
    (kept : ∀ row, key (change row) = key row) :
    ∀ a ∈ rows.map change, ∀ b ∈ rows.map change, key a = key b → a = b := by
  intro a inA b inB same
  obtain ⟨x,inX,rfl⟩ := List.mem_map.mp inA
  obtain ⟨y,inY,rfl⟩ := List.mem_map.mp inB
  rw [kept,kept] at same
  rw [unique x inX y inY same]

end

section
variable {Text : Type} {db : Database Text}

-- The keys of the tables are unique, and every proposal is for a whole class.
structure Keyed (db : Database Text) : Prop where
  rules : ∀ a ∈ db.rules, ∀ b ∈ db.rules, a.ruleId = b.ruleId → a = b
  ids : ∀ a ∈ db.proposals, ∀ b ∈ db.proposals, a.proposalId = b.proposalId → a = b
  classes : ∀ a ∈ db.proposals, ∀ b ∈ db.proposals, a.appClass = b.appClass → a = b
  titles : ∀ proposal ∈ db.proposals, proposal.titlePat = "*"
  numbers : ∀ proposal ∈ db.proposals, proposal.proposalId ≤ db.lastProposal

theorem Keyed.mapRules (keyed : Keyed db) (change : LearnedRule Text → LearnedRule Text)
    (kept : ∀ rule, (change rule).ruleId = rule.ruleId) :
    Keyed { db with rules := db.rules.map change } :=
  ⟨unique_map keyed.rules kept,keyed.ids,keyed.classes,keyed.titles,keyed.numbers⟩

theorem Keyed.mapProposals (keyed : Keyed db) (change : AllowlistProposal → AllowlistProposal)
    (kept : ∀ proposal, (change proposal).proposalId = proposal.proposalId ∧
      (change proposal).appClass = proposal.appClass ∧ (change proposal).titlePat = proposal.titlePat) :
    Keyed { db with proposals := db.proposals.map change } := by
  refine ⟨keyed.rules,unique_map keyed.ids fun proposal => (kept proposal).1,
    unique_map keyed.classes fun proposal => (kept proposal).2.1,?_,?_⟩
  · intro a inA
    obtain ⟨x,inX,rfl⟩ := List.mem_map.mp inA
    rw [(kept x).2.2]
    exact keyed.titles x inX
  · intro a inA
    obtain ⟨x,inX,rfl⟩ := List.mem_map.mp inA
    rw [(kept x).1]
    exact keyed.numbers x inX

theorem Keyed.updateSkillStatus (keyed : Keyed db) (skillId : String) (status : Status) :
    Keyed (db.updateSkillStatus skillId status) :=
  ⟨keyed.rules,keyed.ids,keyed.classes,keyed.titles,keyed.numbers⟩

theorem Keyed.updateLearnedRuleStatus (keyed : Keyed db) (ruleId : String) (status : Status)
    (now : Seconds) : Keyed (db.updateLearnedRuleStatus ruleId status now) := by
  apply keyed.mapRules
  intro rule
  split <;> rfl

theorem Keyed.updateAllowlistProposalStatus (keyed : Keyed db) (proposalId : Int) (status : Status) :
    Keyed (db.updateAllowlistProposalStatus proposalId status) := by
  apply keyed.mapProposals
  intro proposal
  split <;> exact ⟨rfl,rfl,rfl⟩

theorem Keyed.insertLearnedRule (keyed : Keyed db) (rule : LearnedRule Text) :
    Keyed (db.insertLearnedRule rule) := by
  unfold Database.insertLearnedRule
  by_cases known : db.rules.any (·.ruleId = rule.ruleId) = true
  · rw [if_pos known]
    exact keyed
  · rw [if_neg known]
    have fresh : ∀ other ∈ db.rules, other.ruleId ≠ rule.ruleId := by simpa using known
    exact ⟨unique_append keyed.rules fresh,keyed.ids,keyed.classes,keyed.titles,keyed.numbers⟩

theorem Keyed.upsertAllowlistProposal (keyed : Keyed db) (appClass : String) (now : Seconds) :
    Keyed (db.upsertAllowlistProposal appClass "*" now) := by
  unfold Database.upsertAllowlistProposal
  by_cases known : (db.proposals.any fun proposal =>
      proposal.appClass = appClass ∧ proposal.titlePat = "*") = true
  · rw [if_pos known]
    apply keyed.mapProposals
    intro proposal
    split <;> exact ⟨rfl,rfl,rfl⟩
  · rw [if_neg known]
    have fresh : ∀ other ∈ db.proposals, other.appClass ≠ appClass := by
      intro other inside same
      exact known (List.any_eq_true.mpr ⟨other,inside,by simp [same,keyed.titles other inside]⟩)
    have lower : ∀ other ∈ db.proposals, other.proposalId ≠ db.lastProposal + 1 := by
      intro other inside
      have bound := keyed.numbers other inside
      omega
    refine ⟨keyed.rules,unique_append keyed.ids lower,unique_append keyed.classes fresh,?_,?_⟩
    · intro a inA
      rcases List.mem_append.mp inA with old | new
      · exact keyed.titles a old
      · rw [List.mem_singleton.mp new]
    · intro a inA
      rcases List.mem_append.mp inA with old | new
      · exact Nat.le_succ_of_le (keyed.numbers a old)
      · rw [List.mem_singleton.mp new]

end

section
variable {yaml : Yaml} {ruleId : String → List String → String} {db : Database yaml.Text}

-- What only the miners wrote: every rule has the text of its pair, and nothing is
-- decided yet.
structure Undecided (db : Database yaml.Text) : Prop where
  rules : ∀ rule ∈ db.rules, rule.status = .proposed ∧
    ∃ contextClass actionKinds, rule.yaml = ruleYaml yaml contextClass actionKinds
  proposals : ∀ proposal ∈ db.proposals, proposal.status = .pending

theorem Undecided.mine (undecided : Undecided db) (mined : Mined) :
    Undecided (Learning.mine yaml ruleId db mined) := by
  cases mined with
  | rule candidate now =>
    simp only [Learning.mine,proposeRule,Database.insertLearnedRule]
    split
    · exact undecided
    · split
      · exact undecided
      · refine ⟨?_,undecided.proposals⟩
        intro rule inside
        rcases List.mem_append.mp inside with old | new
        · exact undecided.rules rule old
        · rw [List.mem_singleton.mp new]
          exact ⟨rfl,_,_,rfl⟩
  | miss appClass title now =>
    simp only [Learning.mine,Database.upsertAllowlistProposal]
    split
    · refine ⟨undecided.rules,?_⟩
      intro proposal inside
      obtain ⟨old,inOld,rfl⟩ := List.mem_map.mp inside
      split
      · exact undecided.proposals old inOld
      · exact undecided.proposals old inOld
    · refine ⟨undecided.rules,?_⟩
      intro proposal inside
      rcases List.mem_append.mp inside with old | new
      · exact undecided.proposals proposal old
      · rw [List.mem_singleton.mp new]

theorem Keyed.mine (keyed : Keyed db) (mined : Mined) : Keyed (Learning.mine yaml ruleId db mined) := by
  cases mined with
  | rule candidate now =>
    simp only [Learning.mine,proposeRule]
    split
    · exact keyed
    · exact keyed.insertLearnedRule _
  | miss appClass title now => exact keyed.upsertAllowlistProposal appClass now

theorem mined_keyed (yaml : Yaml) (ruleId : String → List String → String) (skills : List Skill) (mined : List Mined) :
    Keyed (minedDatabase yaml ruleId skills mined) ∧ Undecided (minedDatabase yaml ruleId skills mined) := by
  have further (db : Database yaml.Text) (kept : Keyed db ∧ Undecided db) :
      Keyed (mined.foldl (mine yaml ruleId) db) ∧ Undecided (mined.foldl (mine yaml ruleId) db) := by
    induction mined generalizing db with
    | nil => exact kept
    | cons first rest ih => exact ih _ ⟨kept.1.mine first,kept.2.mine first⟩
  apply further
  refine ⟨⟨?_,?_,?_,?_,?_⟩,?_,?_⟩
  all_goals
    intro row inside
    cases inside

end
end HyprlandAgent.Learning
