import HyprlandAgent.Learning.Api

-- Whether the files say the same as the tables: a block or an entry is written
-- exactly where its proposal is approved.
namespace HyprlandAgent.Learning
open Transition

section
variable {yaml : Yaml}

theorem minedText_entries (contextClass : String) (actionKinds : List String) :
    yaml.entries "rules" (some (ruleYaml yaml contextClass actionKinds)) =
      [(minedBlock contextClass actionKinds).sortKeys] := Yaml.entries_dump _ _

theorem append_mined {file : Option yaml.Text} (readable : yaml.Readable "rules" file)
    (contextClass : String) (actionKinds : List String) :
    ∃ new, appendLearnedRule yaml file (ruleYaml yaml contextClass actionKinds) = .ok new ∧
      yaml.Readable "rules" (some new) ∧
      yaml.entries "rules" (some new) =
        yaml.entries "rules" file ++ [(minedBlock contextClass actionKinds).sortKeys] := by
  obtain ⟨fields,existing,read,found⟩ := readable
  obtain ⟨new,parsed,same⟩ := yaml.mapping_dump "rules" [minedBlock contextClass actionKinds]
  refine ⟨yaml.dump (.obj [("rules",.arr (existing ++ new))]),?_,yaml.readable_dump _ _,?_⟩
  · have block : get [("rules",Json.arr new)] "rules" = .arr new := by simp [get]
    simp only [appendLearnedRule,read,ruleYaml,parsed,Except.bind,bind,found,block,items]
  · rw [Yaml.entries_dump,List.map_append,same,Yaml.entries_of read found]
    rfl

theorem entry_sortKeys (appClass titlePat : String) :
    (allowlistEntry appClass titlePat).sortKeys = allowlistEntry appClass titlePat := by
  have ordered : "class" ≤ "title" := by decide
  simp [allowlistEntry,Json.sortKeys,sortFields,ordered]

theorem append_entry {file : Option yaml.Text} {appClass titlePat : String} {new : yaml.Text}
    (written : appendAllowlistEntry yaml file appClass titlePat = .ok new) :
    yaml.entries "allow" (some new) =
      if allowlistEntry appClass titlePat ∈ yaml.entries "allow" file then yaml.entries "allow" file
      else yaml.entries "allow" file ++ [allowlistEntry appClass titlePat] := by
  unfold appendAllowlistEntry at written
  cases read : yaml.mapping file with
  | error failure => simp [read,bind,Except.bind] at written
  | ok fields =>
    simp only [read,bind,Except.bind] at written
    cases found : get fields "allow" with
    | arr allow =>
      simp only [found,Except.ok.injEq] at written
      subst written
      have there : allow.any (alike (allowlistEntry appClass titlePat)) = true ↔
          allowlistEntry appClass titlePat ∈ yaml.entries "allow" file := by
        rw [Yaml.entries_of read found]
        simp only [List.any_eq_true,List.mem_map,alike,entry_sortKeys,beq_iff_eq]
        constructor
        · intro found
          obtain ⟨value,inside,same⟩ := found
          exact ⟨value,inside,same.symm⟩
        · intro found
          obtain ⟨value,inside,same⟩ := found
          exact ⟨value,inside,same.symm⟩
      rw [Yaml.entries_dump]
      by_cases known : allowlistEntry appClass titlePat ∈ yaml.entries "allow" file
      · rw [if_pos (there.mpr known),if_pos known,Yaml.entries_of read found]
      · rw [if_neg (fun any => known (there.mp any)),if_neg known,List.map_append,
          Yaml.entries_of read found,List.map_singleton,entry_sortKeys]
    | _ => simp [found] at written

end

section
variable {yaml : Yaml} (python : Python) (user : List Json)

def AllowlistProposal.entry (prop : AllowlistProposal) : Json := allowlistEntry prop.appClass prop.titlePat

-- The block of a mined rule is in learned_rules.yaml, and the entry of a proposal
-- that is not the user's in allowlist.yaml, exactly if it is approved; what the user
-- wrote is still there.
structure Agrees (s : State yaml) : Prop where
  rules : ∀ rule ∈ s.db.rules, ∀ contextClass actionKinds,
    rule.yaml = ruleYaml yaml contextClass actionKinds →
    ((minedBlock contextClass actionKinds).sortKeys ∈ yaml.entries "rules" s.learnedRules ↔
      rule.status = .approved)
  proposals : ∀ prop ∈ s.db.proposals, prop.entry ∉ user →
    (prop.entry ∈ yaml.entries "allow" s.allowlist ↔ prop.status = .approved)
  kept : user <+: yaml.entries "allow" s.allowlist

-- The calls that part the files from the tables: rejecting what was approved, and
-- approving one of two rules that have the same block.
def Breaks (s : State yaml) : Call → Prop
  | .approve kind proposalId _ => python.lower kind = "rule" ∧
      ∃ rule ∈ s.db.rules, rule.ruleId = proposalId ∧ ∃ twin ∈ s.db.rules, twin.ruleId ≠ proposalId ∧
        yaml.entries "rules" (some twin.yaml) = yaml.entries "rules" (some rule.yaml) ∧
        twin.status ≠ .approved
  | .reject kind proposalId _ =>
      (python.lower kind = "rule" ∧
        ∃ rule ∈ s.db.rules, rule.ruleId = proposalId ∧ rule.status = .approved) ∨
      (python.lower kind = "allowlist" ∧ ∃ prop ∈ s.db.proposals,
        python.int proposalId = some (prop.proposalId : Int) ∧ prop.status = .approved ∧ prop.entry ∉ user)

structure Sane (s : State yaml) : Prop where
  keyed : Keyed s.db
  mined : ∀ rule ∈ s.db.rules, ∃ contextClass actionKinds,
    rule.yaml = ruleYaml yaml contextClass actionKinds
  readable : yaml.Readable "rules" s.learnedRules

end

section
variable {yaml : Yaml} {python : Python} {user : List Json} {s : State yaml}

theorem rules_updated (db : Database yaml.Text) (file : Option yaml.Text) (ruleId : String)
    (status : Status) (now : Seconds) :
    (∀ rule ∈ (db.updateLearnedRuleStatus ruleId status now).rules, ∀ contextClass actionKinds,
      rule.yaml = ruleYaml yaml contextClass actionKinds →
      ((minedBlock contextClass actionKinds).sortKeys ∈ yaml.entries "rules" file ↔
        rule.status = .approved)) ↔
    ∀ rule ∈ db.rules, ∀ contextClass actionKinds, rule.yaml = ruleYaml yaml contextClass actionKinds →
      ((minedBlock contextClass actionKinds).sortKeys ∈ yaml.entries "rules" file ↔
        (if rule.ruleId = ruleId then status else rule.status) = .approved) := by
  simp only [Database.updateLearnedRuleStatus,List.forall_mem_map]
  constructor
  · intro updated rule inside contextClass actionKinds mined
    have said := updated rule inside contextClass actionKinds
    by_cases same : rule.ruleId = ruleId
    · simp only [if_pos same] at said ⊢
      exact said mined
    · simp only [if_neg same] at said ⊢
      exact said mined
  · intro before rule inside contextClass actionKinds mined
    have said := before rule inside contextClass actionKinds
    by_cases same : rule.ruleId = ruleId
    · simp only [if_pos same] at mined said ⊢
      exact said mined
    · simp only [if_neg same] at mined said ⊢
      exact said mined

theorem proposals_updated (db : Database yaml.Text) (file : Option yaml.Text) (proposalId : Int)
    (status : Status) :
    (∀ prop ∈ (db.updateAllowlistProposalStatus proposalId status).proposals, prop.entry ∉ user →
      (prop.entry ∈ yaml.entries "allow" file ↔ prop.status = .approved)) ↔
    ∀ prop ∈ db.proposals, prop.entry ∉ user →
      (prop.entry ∈ yaml.entries "allow" file ↔
        (if (prop.proposalId : Int) = proposalId then status else prop.status) = .approved) := by
  simp only [Database.updateAllowlistProposalStatus,List.forall_mem_map]
  constructor
  · intro updated prop inside new
    have said := updated prop inside
    by_cases same : (prop.proposalId : Int) = proposalId
    · simp only [if_pos same] at said ⊢
      exact said new
    · simp only [if_neg same] at said ⊢
      exact said new
  · intro before prop inside new
    have said := before prop inside
    by_cases same : (prop.proposalId : Int) = proposalId
    · simp only [if_pos same] at new said ⊢
      exact said new
    · simp only [if_neg same] at new said ⊢
      exact said new

theorem found_rule (sane : Sane s) {proposalId : String} {rule : LearnedRule yaml.Text}
    (there : s.db.rules.find? (·.ruleId = proposalId) = some rule) :
    rule ∈ s.db.rules ∧ rule.ruleId = proposalId ∧
      ∀ other ∈ s.db.rules, other.ruleId = proposalId → other = rule := by
  have inside := List.mem_of_find?_eq_some there
  have named : rule.ruleId = proposalId := by simpa using List.find?_some there
  refine ⟨inside,named,?_⟩
  intro other inOther same
  exact sane.keyed.rules other inOther rule inside (same.trans named.symm)

theorem rule_found (sane : Sane s) {rule : LearnedRule yaml.Text} (inside : rule ∈ s.db.rules) :
    s.db.rules.find? (·.ruleId = rule.ruleId) = some rule := by
  cases there : s.db.rules.find? (·.ruleId = rule.ruleId) with
  | none =>
    have missed := List.find?_eq_none.mp there rule inside
    simp at missed
  | some other => rw [(found_rule sane there).2.2 rule inside rfl]

theorem agrees_approve_rule (sane : Sane s) (agrees : Agrees user s) {rule : LearnedRule yaml.Text}
    {kind : String} (isRule : python.lower kind = "rule") (inside : rule ∈ s.db.rules) (now : Seconds)
    {file : yaml.Text} (written : yaml.entries "rules" (some file) =
      yaml.entries "rules" s.learnedRules ++ yaml.entries "rules" (some rule.yaml)) :
    Agrees user { s with
      db := s.db.updateLearnedRuleStatus rule.ruleId .approved now,learnedRules := some file } ↔
    ¬Breaks python user s (.approve kind rule.ruleId now) := by
  obtain ⟨context,kinds,text⟩ := sane.mined rule inside
  rw [text,minedText_entries] at written
  constructor
  · intro after broken
    obtain ⟨_,other,inOther,named,twin,inTwin,apart,same,undecided⟩ := broken
    cases sane.keyed.rules other inOther rule inside named
    obtain ⟨twinContext,twinKinds,twinText⟩ := sane.mined twin inTwin
    rw [text,twinText,minedText_entries,minedText_entries,List.singleton_inj] at same
    have said := (rules_updated _ _ _ _ _).mp after.rules twin inTwin twinContext twinKinds twinText
    rw [written,same,if_neg apart] at said
    exact undecided (said.mp (by simp))
  · intro free
    refine ⟨(rules_updated _ _ _ _ _).mpr ?_,agrees.proposals,agrees.kept⟩
    intro other inOther otherContext otherKinds otherText
    rw [written]
    by_cases same : other.ruleId = rule.ruleId
    · cases sane.keyed.rules other inOther rule inside same
      rw [text] at otherText
      have block : (minedBlock otherContext otherKinds).sortKeys = (minedBlock context kinds).sortKeys := by
        have entries := congrArg (fun text => yaml.entries "rules" (some text)) otherText
        rwa [minedText_entries,minedText_entries,List.singleton_inj,eq_comm] at entries
      simp [block]
    · have before := agrees.rules other inOther otherContext otherKinds otherText
      rw [if_neg same,← before,List.mem_append,List.mem_singleton]
      constructor
      · intro there
        rcases there with old | twin
        · exact old
        · apply before.mpr
          by_contra undecided
          refine free ⟨isRule,rule,inside,rfl,other,inOther,same,?_,undecided⟩
          rw [text,otherText,minedText_entries,minedText_entries,twin]
      · exact .inl

theorem agrees_approve_entry (sane : Sane s) (agrees : Agrees user s) {prop : AllowlistProposal}
    (inside : prop ∈ s.db.proposals) {file : yaml.Text}
    (written : yaml.entries "allow" (some file) =
      if prop.entry ∈ yaml.entries "allow" s.allowlist then yaml.entries "allow" s.allowlist
      else yaml.entries "allow" s.allowlist ++ [prop.entry]) :
    Agrees user { s with
      db := s.db.updateAllowlistProposalStatus prop.proposalId .approved,allowlist := some file } := by
  have there (value : Json) : value ∈ yaml.entries "allow" (some file) ↔
      value ∈ yaml.entries "allow" s.allowlist ∨ value = prop.entry := by
    rw [written]
    split
    · rename_i known
      constructor
      · exact .inl
      · intro either
        rcases either with old | rfl
        · exact old
        · exact known
    · simp
  refine ⟨agrees.rules,(proposals_updated _ _ _ _).mpr ?_,?_⟩
  · intro other inOther new
    rw [there]
    by_cases same : other.proposalId = prop.proposalId
    · cases sane.keyed.ids other inOther prop inside same
      simp
    · have apart : other.entry ≠ prop.entry := by
        intro equal
        have classes : other.appClass = prop.appClass := by
          simp only [AllowlistProposal.entry,allowlistEntry,Json.obj.injEq,List.cons.injEq,Prod.mk.injEq,
            Json.str.injEq,true_and] at equal
          exact equal.1
        exact same (congrArg _ (sane.keyed.classes other inOther prop inside classes))
      have different : (other.proposalId : Int) ≠ prop.proposalId := by
        intro equal
        exact same (Int.ofNat.inj equal)
      rw [if_neg different,← agrees.proposals other inOther new]
      simp [apart]
  · rw [written]
    split
    · exact agrees.kept
    · exact agrees.kept.trans (List.prefix_append _ _)

theorem keyed_step (python : Python) (keyed : Keyed s.db) (call : Call) : Keyed (answer python s call).1.db := by
  cases call with
  | approve kind proposalId now =>
    obtain ⟨_,done⟩ | ⟨_,_,_,_,_,done⟩ | ⟨_,_,_,_,_,done⟩ | ⟨_,_,done⟩ :=
      approve_cases python s kind proposalId now
    all_goals rw [answer,done]
    · exact keyed.updateSkillStatus _ _
    · exact keyed.updateLearnedRuleStatus _ _ _
    · exact keyed.updateAllowlistProposalStatus _ _
    · exact keyed
  | reject kind proposalId now =>
    obtain ⟨_,done⟩ | ⟨_,done⟩ | ⟨_,_,_,done⟩ | ⟨_,_,_,done⟩ :=
      reject_cases python s kind proposalId now
    all_goals rw [answer,done]
    · exact keyed.updateSkillStatus _ _
    · exact keyed.updateLearnedRuleStatus _ _ _
    · exact keyed.updateAllowlistProposalStatus _ _
    · exact keyed

theorem mined_updated (mined : ∀ rule ∈ s.db.rules, ∃ contextClass actionKinds,
      rule.yaml = ruleYaml yaml contextClass actionKinds) (ruleId : String) (status : Status) (now : Seconds) :
    ∀ rule ∈ (s.db.updateLearnedRuleStatus ruleId status now).rules, ∃ contextClass actionKinds,
      rule.yaml = ruleYaml yaml contextClass actionKinds := by
  intro rule inside
  obtain ⟨old,inOld,rfl⟩ := List.mem_map.mp inside
  split
  · exact mined old inOld
  · exact mined old inOld

theorem sane_step (sane : Sane s) (call : Call) : Sane (answer python s call).1 := by
  have keyed := keyed_step python sane.keyed call
  cases call with
  | approve kind proposalId now =>
    obtain ⟨_,done⟩ | ⟨_,rule,there,file,written,done⟩ | ⟨_,prop,_,file,_,done⟩ | ⟨_,_,done⟩ :=
      approve_cases python s kind proposalId now
    all_goals rw [answer,done] at keyed ⊢
    · exact ⟨keyed,sane.mined,sane.readable⟩
    · obtain ⟨context,kinds,text⟩ := sane.mined rule (found_rule sane there).1
      obtain ⟨new,appended,readable,_⟩ := append_mined sane.readable context kinds
      rw [text,appended] at written
      cases written
      exact ⟨keyed,mined_updated sane.mined _ _ _,readable⟩
    · exact ⟨keyed,sane.mined,sane.readable⟩
    · exact sane
  | reject kind proposalId now =>
    obtain ⟨_,done⟩ | ⟨_,done⟩ | ⟨_,id,_,done⟩ | ⟨_,_,_,done⟩ :=
      reject_cases python s kind proposalId now
    all_goals rw [answer,done] at keyed ⊢
    · exact ⟨keyed,sane.mined,sane.readable⟩
    · exact ⟨keyed,mined_updated sane.mined _ _ _,sane.readable⟩
    · exact ⟨keyed,sane.mined,sane.readable⟩
    · exact sane

theorem agrees_reject_rule (sane : Sane s) (agrees : Agrees user s) {kind : String}
    (isRule : python.lower kind = "rule") (proposalId : String) (now : Seconds) :
    Agrees user { s with db := s.db.updateLearnedRuleStatus proposalId .rejected now } ↔
    ¬Breaks python user s (.reject kind proposalId now) := by
  constructor
  · intro after broken
    rcases broken with ⟨_,rule,inside,named,approved⟩ | ⟨isEntry,_⟩
    · obtain ⟨context,kinds,text⟩ := sane.mined rule inside
      have said := (rules_updated _ _ _ _ _).mp after.rules rule inside context kinds text
      rw [if_pos named] at said
      cases said.mp ((agrees.rules rule inside context kinds text).mpr approved)
    · rw [isRule] at isEntry
      revert isEntry
      decide
  · intro free
    refine ⟨(rules_updated _ _ _ _ _).mpr ?_,agrees.proposals,agrees.kept⟩
    intro rule inside context kinds text
    have before := agrees.rules rule inside context kinds text
    by_cases named : rule.ruleId = proposalId
    · rw [if_pos named,before]
      constructor
      · intro approved
        exact absurd (.inl ⟨isRule,rule,inside,named,approved⟩) free
      · intro rejected
        cases rejected
    · rw [if_neg named]
      exact before

theorem agrees_reject_entry (agrees : Agrees user s) {kind proposalId : String}
    (isEntry : python.lower kind = "allowlist") {id : Int} (number : python.int proposalId = some id)
    (now : Seconds) :
    Agrees user { s with db := s.db.updateAllowlistProposalStatus id .rejected } ↔
    ¬Breaks python user s (.reject kind proposalId now) := by
  constructor
  · intro after broken
    rcases broken with ⟨isRule,_⟩ | ⟨_,prop,inside,named,approved,new⟩
    · rw [isEntry] at isRule
      revert isRule
      decide
    · rw [number] at named
      have said := (proposals_updated _ _ _ _).mp after.proposals prop inside new
      rw [if_pos (Option.some.inj named).symm] at said
      cases said.mp ((agrees.proposals prop inside new).mpr approved)
  · intro free
    refine ⟨agrees.rules,(proposals_updated _ _ _ _).mpr ?_,agrees.kept⟩
    intro prop inside new
    have before := agrees.proposals prop inside new
    by_cases named : (prop.proposalId : Int) = id
    · rw [if_pos named,before]
      constructor
      · intro approved
        rw [← named] at number
        exact absurd (.inr ⟨isEntry,prop,inside,number,approved,new⟩) free
      · intro rejected
        cases rejected
    · rw [if_neg named]
      exact before

theorem agrees_step (sane : Sane s) (agrees : Agrees user s) (call : Call) :
    Agrees user (answer python s call).1 ↔ ¬Breaks python user s call := by
  cases call with
  | approve kind proposalId now =>
    obtain ⟨isSkill,done⟩ | ⟨isRule,rule,there,file,written,done⟩ | ⟨isEntry,prop,there,file,written,done⟩ |
      ⟨_,refused,done⟩ := approve_cases python s kind proposalId now
    · simp only [answer,done]
      have kept : Agrees user { s with db := s.db.updateSkillStatus proposalId .approved } :=
        ⟨agrees.rules,agrees.proposals,agrees.kept⟩
      have free : ¬Breaks python user s (.approve kind proposalId now) := by
        intro broken
        rw [Breaks,isSkill] at broken
        revert broken
        simp
      exact ⟨fun _ => free,fun _ => kept⟩
    · obtain ⟨inside,named,_⟩ := found_rule sane there
      obtain ⟨context,kinds,text⟩ := sane.mined rule inside
      obtain ⟨new,appended,_,entries⟩ := append_mined sane.readable context kinds
      rw [text,appended] at written
      cases written
      simp only [answer,done]
      subst named
      apply agrees_approve_rule sane agrees isRule inside now
      rw [entries,text,minedText_entries]
    · simp only [answer,done]
      have kept := agrees_approve_entry sane agrees (List.mem_of_find?_eq_some there)
        (append_entry written)
      have free : ¬Breaks python user s (.approve kind proposalId now) := by
        intro broken
        rw [Breaks,isEntry] at broken
        revert broken
        simp
      exact ⟨fun _ => free,fun _ => kept⟩
    · simp only [answer,done]
      have free : ¬Breaks python user s (.approve kind proposalId now) := by
        intro broken
        obtain ⟨isRule,rule,inside,named,_⟩ := broken
        subst named
        obtain ⟨context,kinds,text⟩ := sane.mined rule inside
        obtain ⟨new,appended,_⟩ := append_mined sane.readable context kinds
        rw [← text] at appended
        exact refused isRule rule (rule_found sane inside) new appended
      exact ⟨fun _ => free,fun _ => agrees⟩
  | reject kind proposalId now =>
    obtain ⟨isSkill,done⟩ | ⟨isRule,done⟩ | ⟨isEntry,id,number,done⟩ | ⟨_,noRule,noEntry,done⟩ :=
      reject_cases python s kind proposalId now
    · simp only [answer,done]
      have kept : Agrees user { s with db := s.db.updateSkillStatus proposalId .rejected } :=
        ⟨agrees.rules,agrees.proposals,agrees.kept⟩
      have free : ¬Breaks python user s (.reject kind proposalId now) := by
        intro broken
        rw [Breaks,isSkill] at broken
        revert broken
        simp
      exact ⟨fun _ => free,fun _ => kept⟩
    · simp only [answer,done]
      exact agrees_reject_rule sane agrees isRule proposalId now
    · simp only [answer,done]
      exact agrees_reject_entry agrees isEntry number now
    · simp only [answer,done]
      have free : ¬Breaks python user s (.reject kind proposalId now) := by
        intro broken
        rcases broken with ⟨isRule,_⟩ | ⟨isEntry,_,_,number,_⟩
        · exact noRule isRule
        · rw [noEntry isEntry] at number
          cases number
      exact ⟨fun _ => free,fun _ => agrees⟩

end

section
variable {yaml : Yaml} (ruleId : String → List String → String)

def start (skills : List Skill) (mined : List Mined) (learnedRules allowlist : Option yaml.Text) :
    State yaml := ⟨minedDatabase yaml ruleId skills mined,learnedRules,allowlist⟩

def Vacant (file : Option yaml.Text) : Prop :=
  ∃ fields, yaml.mapping file = .ok fields ∧ get fields "rules" = .arr []

variable {ruleId} {skills : List Skill} {mined : List Mined} {learnedRules allowlist : Option yaml.Text}

theorem start_sane (vacant : Vacant learnedRules) :
    Sane (start ruleId skills mined learnedRules allowlist) := by
  obtain ⟨keyed,undecided⟩ := mined_keyed yaml ruleId skills mined
  obtain ⟨fields,read,none⟩ := vacant
  refine ⟨keyed,?_,⟨fields,_,read,none⟩⟩
  intro rule inside
  exact (undecided.rules rule inside).2

theorem start_agrees (vacant : Vacant learnedRules) :
    Agrees (yaml.entries "allow" allowlist) (start ruleId skills mined learnedRules allowlist) := by
  obtain ⟨_,undecided⟩ := mined_keyed yaml ruleId skills mined
  obtain ⟨fields,read,none⟩ := vacant
  refine ⟨?_,?_,List.prefix_rfl⟩
  · intro rule inside context kinds _
    simp [start,Yaml.entries_of read none,(undecided.rules rule inside).1]
  · intro prop inside new
    simp [start,new,undecided.proposals prop inside]

end

-- The files agree with the tables after every call exactly if no call rejects what
-- was approved, or approves one of two rules with the same block.
theorem files_agree_iff (yaml : Yaml) (python : Python) (ruleId : String → List String → String)
    (skills : List Skill) (mined : List Mined) (learnedRules allowlist : Option yaml.Text)
    (vacant : Vacant learnedRules) (calls : List Call) :
    (system python).Always (Agrees (yaml.entries "allow" allowlist))
      (start ruleId skills mined learnedRules allowlist) calls ↔
    (system python).Meets (fun s call => ¬Breaks python (yaml.entries "allow" allowlist) s call)
      (start ruleId skills mined learnedRules allowlist) calls := by
  have keeps : ∀ (s : State yaml) call next, Sane s → (system python).step s call = some next →
      Sane next := by
    intro s call next sane stepped
    cases stepped
    exact sane_step sane call
  have decides : ∀ (s : State yaml) call next, Sane s → Agrees (yaml.entries "allow" allowlist) s →
      (system python).step s call = some next →
      (Agrees (yaml.entries "allow" allowlist) next ↔
        ¬Breaks python (yaml.entries "allow" allowlist) s call) := by
    intro s call next sane agrees stepped
    cases stepped
    exact agrees_step sane agrees call
  exact System.always_iff_meets keeps decides (start_sane vacant) (start_agrees vacant) calls

def plainYaml : Yaml where
  Text := Json
  safeLoad := some
  dump := id
  load_dump := fun value => ⟨value,rfl,rfl⟩

def footBlocked : List Mined := [.miss "foot" "shell" 0]

def footMined : List Mined := .rule ⟨"foot",["click"],3,"[]"⟩ 0 :: footBlocked

def granted : List Call := [.approve "allowlist" "1" 1,.approve "rule" "foot" 2,.approve "allowlist" "1" 3]

def revoked : List Call := [.approve "allowlist" "1" 1,.reject "allowlist" "1" 2]

theorem granted_agrees :
    (system asciiPython).Always (Agrees (plainYaml.entries "allow" none))
      (start (fun contextClass _ => contextClass) [] footMined none none : State plainYaml) granted := by
  refine (files_agree_iff plainYaml asciiPython (fun contextClass _ => contextClass) [] footMined none none ?_
    granted).mpr ?_
  · exact ⟨[],rfl,rfl⟩
  · intro next stepped
    cases stepped
    refine ⟨fun broken => absurd broken.1 (by decide),?_⟩
    intro next stepped
    cases stepped
    refine ⟨?_,fun next stepped => ⟨fun broken => absurd broken.1 (by decide),trivial⟩⟩
    intro broken
    obtain ⟨_,_,_,_,twin,inside,other,_⟩ := broken
    -- there is one rule, and no other has its block
    rw [List.mem_singleton.mp inside] at other
    exact other rfl

theorem revoked_still_granted :
    ¬∀ (yaml : Yaml) (python : Python) (ruleId : String → List String → String)
      (skills : List Skill) (mined : List Mined) (learnedRules allowlist : Option yaml.Text)
      (calls : List Call), Vacant learnedRules →
      (system python).Always (Agrees (yaml.entries "allow" allowlist))
        (start ruleId skills mined learnedRules allowlist) calls := by
  intro always
  have agrees := always plainYaml asciiPython (fun _ _ => "") [] footBlocked none none revoked ⟨[],rfl,rfl⟩
  have last := ((agrees.2 _ rfl).2 _ rfl).proposals ⟨1,"foot","*",1,0,.rejected⟩ (List.mem_of_mem_head? rfl)
  have written := last (by simp [Yaml.entries,Yaml.mapping,get])
  cases written.mp (List.mem_of_mem_head? rfl)

end HyprlandAgent.Learning
