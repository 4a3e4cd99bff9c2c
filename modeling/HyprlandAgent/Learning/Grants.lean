import HyprlandAgent.Learning.Agreement
import HyprlandAgent.Safety.Allowlist
import HyprlandAgent.Safety.Literal

-- What an approved proposal lets the agent act on: `is_allowed` over the file as it
-- stands, with what it raises.
namespace HyprlandAgent.Learning
open Fnmatch Transition

section
variable {yaml : Yaml} (python : Python)

-- A value under one of the keys of a rule, which `.lower()` needs to be a string.
def patternOf (fields : List (String × Json)) (key : String) : Except Failure String :=
  match (fields.lookup key).getD (.str "*") with
  | .str text => .ok text
  | _ => .error .attributeError

-- The title is looked at only where the class matches.
def ruleAllows (window : Window) : Json → Except Failure Bool
  | .obj fields => do
    let classPat ← patternOf fields "class"
    if fnmatch (python.lower window.appClass) (python.lower classPat) then
      let titlePat ← patternOf fields "title"
      .ok (fnmatch (python.lower window.title) (python.lower titlePat))
    else .ok false
  | _ => .error .attributeError

def anyAllows (window : Window) : List Json → Except Failure Bool
  | [] => .ok false
  | rule :: rest => do
    if ← ruleAllows python window rule then .ok true else anyAllows window rest

def loadRules (file : Option yaml.Text) : Except Failure Json := do
  let data ← yaml.mapping file
  .ok (get data "allow")

def verdict (file : Option yaml.Text) (window : Window) : Except Failure Bool :=
  if alwaysDenied python.lower window then .ok false
  else do
    let rules ← loadRules file
    if rules.truthy then
      match items rules with
      | some values => anyAllows python window values
      | none => .error .typeError
    else .ok false

end

section
variable {python : Python} {window : Window}

theorem lookup_orderedInsert (key : String) (field : String × Json) (fields : List (String × Json)) :
    (List.orderedInsert (fun a b => a.1 ≤ b.1) field fields).lookup key = (field :: fields).lookup key := by
  obtain ⟨name,value⟩ := field
  induction fields with
  | nil => rfl
  | cons first rest ih =>
    obtain ⟨other,kept⟩ := first
    rw [List.orderedInsert_cons]
    split
    · rfl
    · rename_i later
      have apart : other ≠ name := by
        intro same
        rw [same] at later
        exact later (String.le_refl name)
      simp only [List.lookup_cons] at ih ⊢
      rw [ih]
      by_cases hit : key = other
      · have missed : (key == name) = false := by simp [hit,apart]
        have found : (key == other) = true := by simp [hit]
        rw [missed,found]
      · have missed : (key == other) = false := by simp [hit]
        rw [missed]

theorem lookup_sorted (key : String) (fields : List (String × Json)) :
    ((sortFields fields).insertionSort fun a b => a.1 ≤ b.1).lookup key =
      (fields.lookup key).map Json.sortKeys := by
  induction fields with
  | nil => rfl
  | cons field rest ih =>
    obtain ⟨name,value⟩ := field
    simp only [sortFields,List.insertionSort_cons,lookup_orderedInsert,List.lookup_cons,ih]
    split <;> rfl

theorem patternOf_sorted (key : String) (fields : List (String × Json)) :
    patternOf ((sortFields fields).insertionSort fun a b => a.1 ≤ b.1) key = patternOf fields key := by
  simp only [patternOf,lookup_sorted]
  cases found : fields.lookup key with
  | none => rfl
  | some value => cases value <;> simp [Json.sortKeys]

theorem ruleAllows_sorted (rule : Json) :
    ruleAllows python window rule.sortKeys = ruleAllows python window rule := by
  cases rule with
  | obj fields => simp only [Json.sortKeys,ruleAllows,patternOf_sorted]
  | _ => rfl

theorem anyAllows_sorted (rules : List Json) :
    anyAllows python window (rules.map Json.sortKeys) = anyAllows python window rules := by
  induction rules with
  | nil => rfl
  | cons rule rest ih => simp only [List.map_cons,anyAllows,ruleAllows_sorted,ih]

theorem anyAllows_append (rules : List Json) (rule : Json) :
    anyAllows python window (rules ++ [rule]) =
      (anyAllows python window rules).bind fun allowed =>
        if allowed then .ok true else ruleAllows python window rule := by
  induction rules with
  | nil =>
    simp only [List.nil_append,anyAllows,bind,Except.bind]
    cases ruleAllows python window rule with
    | error failure => rfl
    | ok allowed => cases allowed <;> rfl
  | cons first rest ih =>
    simp only [List.cons_append,anyAllows,bind,Except.bind]
    cases ruleAllows python window first with
    | error failure => rfl
    | ok allowed =>
      cases allowed with
      | true => rfl
      | false => simpa [Except.bind] using ih

theorem anyAllows_found {rules : List Json} {rule : Json} (inside : rule ∈ rules)
    (none_ : anyAllows python window rules = .ok false) : ruleAllows python window rule = .ok false := by
  induction rules with
  | nil => cases inside
  | cons first rest ih =>
    simp only [anyAllows,bind,Except.bind] at none_
    cases asked : ruleAllows python window first with
    | error failure => simp [asked] at none_
    | ok allowed =>
      cases allowed with
      | true => simp [asked] at none_
      | false =>
        rcases List.mem_cons.mp inside with rfl | later
        · exact asked
        · exact ih later (by simpa [asked] using none_)

end

section
variable {yaml : Yaml} (python : Python)

def Allowed (file : Option yaml.Text) (window : Window) : Prop := verdict python file window = .ok true

def WellFormed (file : Option yaml.Text) : Prop :=
  ∀ rule ∈ yaml.entries "allow" file, ∃ fields, rule = .obj fields ∧
    ∀ key ∈ ["class","title"], ∀ value, fields.lookup key = some value → ∃ text, value = .str text

-- What a proposal for a class is to do to the file: the windows of that class are
-- allowed, and else nothing changes.
def Grants (appClass : String) (before after : Option yaml.Text) (window : Window) : Prop :=
  Allowed python after window ↔ Allowed python before window ∨
    (python.lower window.appClass = python.lower appClass ∧ alwaysDenied python.lower window = false)

-- Where the class as a pattern says something else than the class as a text, or an
-- entry that cannot be read stands before the new one.
def Misread (appClass : String) (before : Option yaml.Text) (window : Window) : Prop :=
  alwaysDenied python.lower window = false ∧
  ((verdict python before window = .ok false ∧
      ¬(fnmatch (python.lower window.appClass) (python.lower appClass) = true ↔
        python.lower window.appClass = python.lower appClass)) ∨
    ((∃ failure, verdict python before window = .error failure) ∧
      python.lower window.appClass = python.lower appClass))

inductive Approved (appClass : String) (before after : Option yaml.Text) : Prop where
  | mk {ruleId : String → List String → String} {skills : List Skill} {mined : List Mined}
      {learnedRules allowlist : Option yaml.Text} {s next : State yaml} {prop : AllowlistProposal}
      {now : Seconds} {decision : Decision}
      (run : Reachable (system python) (start ruleId skills mined learnedRules allowlist) s)
      (inside : prop ∈ s.db.proposals) (named : prop.appClass = appClass)
      (approved : approve python { s with allowlist := before } "allowlist" prop.proposalId.repr now =
        (next,.ok decision))
      (written : next.allowlist = after) : Approved appClass before after

variable {python} {before after : Option yaml.Text} {window : Window} {appClass : String}

theorem lower_known {text : String} (ascii : text.toList.all (·.toNat < 128) = true)
    (same : text.toList.map asciiLower = text.toList) : python.lower text = text := by
  rw [python.lower_ascii,same,String.ofList_toList]
  intro char inside
  simpa using List.all_eq_true.mp ascii char inside

theorem lower_star : python.lower "*" = "*" := lower_known rfl rfl

theorem lower_allowlist : python.lower "allowlist" = "allowlist" := lower_known rfl rfl

theorem fnmatch_star (text : String) : fnmatch text "*" = true := by
  have parsed : translate 0 "*".toList = [.star] := rfl
  rw [fnmatch,parsed,accepts,List.any_eq_true]
  exact ⟨[],(List.mem_tails _ _).mpr (List.nil_suffix),rfl⟩

theorem entry_allows (appClass : String) : ruleAllows python window (allowlistEntry appClass "*") =
    .ok (fnmatch (python.lower window.appClass) (python.lower appClass)) := by
  have class_ : patternOf [("class",.str appClass),("title",.str "*")] "class" = .ok appClass := rfl
  have title : patternOf [("class",.str appClass),("title",.str "*")] "title" = .ok "*" := rfl
  simp only [ruleAllows,allowlistEntry,class_,title,bind,Except.bind,lower_star,fnmatch_star]
  cases fnmatch (python.lower window.appClass) (python.lower appClass) <;> rfl

theorem verdict_readable (readable : yaml.Readable "allow" before) : verdict python before window =
    if alwaysDenied python.lower window then .ok false
    else anyAllows python window (yaml.entries "allow" before) := by
  obtain ⟨fields,values,read,found⟩ := readable
  rw [Yaml.entries_of read found,anyAllows_sorted]
  simp only [verdict,loadRules,read,found,bind,Except.bind]
  cases values with
  | nil => rfl
  | cons first rest => rfl

theorem append_readable {titlePat : String} {new : yaml.Text}
    (written : appendAllowlistEntry yaml before appClass titlePat = .ok new) :
    yaml.Readable "allow" before ∧ yaml.Readable "allow" (some new) := by
  unfold appendAllowlistEntry at written
  cases read : yaml.mapping before with
  | error failure => simp [read,bind,Except.bind] at written
  | ok fields =>
    simp only [read,bind,Except.bind] at written
    cases found : get fields "allow" with
    | arr allow =>
      simp only [found,Except.ok.injEq] at written
      subst written
      exact ⟨⟨fields,allow,read,found⟩,yaml.readable_dump _ _⟩
    | _ => simp [found] at written

theorem allowed_after {new : yaml.Text} (written : appendAllowlistEntry yaml before appClass "*" = .ok new) :
    Allowed python (some new) window ↔ Allowed python before window ∨
      (alwaysDenied python.lower window = false ∧ verdict python before window = .ok false ∧
        fnmatch (python.lower window.appClass) (python.lower appClass) = true) := by
  obtain ⟨old,new_⟩ := append_readable written
  rw [Allowed,Allowed,verdict_readable old,verdict_readable new_,append_entry written]
  cases denied : alwaysDenied python.lower window with
  | true => simp
  | false =>
    simp only [Bool.false_eq_true,if_false]
    split
    · rename_i there
      constructor
      · exact .inl
      · intro either
        rcases either with allowed | ⟨_,silent,matched⟩
        · exact allowed
        · have asked := anyAllows_found there silent
          rw [entry_allows,matched] at asked
          cases asked
    · rw [anyAllows_append,entry_allows]
      cases anyAllows python window (yaml.entries "allow" before) with
      | error failure => simp [Except.bind]
      | ok allowed => cases allowed <;> simp [Except.bind]

theorem grants_iff {new : yaml.Text} (written : appendAllowlistEntry yaml before appClass "*" = .ok new) :
    Grants python appClass before (some new) window ↔ ¬Misread python appClass before window := by
  rw [Grants,allowed_after written,Misread,Allowed]
  cases denied : alwaysDenied python.lower window with
  | true => simp
  | false =>
    cases verdict python before window with
    | error failure => simp
    | ok allowed => cases allowed <;> simp

theorem proposal_found {db : Database yaml.Text} (keyed : Keyed db) {prop : AllowlistProposal}
    (inside : prop ∈ db.proposals) (python : Python) :
    db.proposals.find? (·.proposalId.repr = prop.proposalId.repr) = some prop := by
  cases there : db.proposals.find? (·.proposalId.repr = prop.proposalId.repr) with
  | none =>
    have missed := List.find?_eq_none.mp there prop inside
    simp at missed
  | some other =>
    have named : other.proposalId.repr = prop.proposalId.repr := by simpa using List.find?_some there
    have number := python.int_str other.proposalId
    rw [named,python.int_str] at number
    have same := Int.ofNat.inj (Option.some.inj number)
    rw [keyed.ids other (List.mem_of_find?_eq_some there) prop inside same.symm]

theorem approve_entry {s : State yaml} (keyed : Keyed s.db) {prop : AllowlistProposal}
    (inside : prop ∈ s.db.proposals) (now : Seconds) {new : yaml.Text}
    (written : appendAllowlistEntry yaml s.allowlist prop.appClass prop.titlePat = .ok new) :
    approve python s "allowlist" prop.proposalId.repr now =
      ({ s with
        db := s.db.updateAllowlistProposalStatus prop.proposalId .approved
        allowlist := some new },.ok ⟨"allowlist",prop.proposalId.repr,.approved⟩) := by
  simp only [approve,lower_allowlist]
  rw [if_neg (by decide),if_neg (by decide),if_pos trivial,proposal_found keyed inside python]
  simp only [written,python.int_str]

theorem approve_entry_refused {s : State yaml} (keyed : Keyed s.db) {prop : AllowlistProposal}
    (inside : prop ∈ s.db.proposals) (now : Seconds) {failure : Failure}
    (refused : appendAllowlistEntry yaml s.allowlist prop.appClass prop.titlePat = .error failure) :
    approve python s "allowlist" prop.proposalId.repr now = (s,.error failure) := by
  simp only [approve,lower_allowlist]
  rw [if_neg (by decide),if_neg (by decide),if_pos trivial,proposal_found keyed inside python]
  simp only [refused]

theorem reachable_keyed {ruleId : String → List String → String} {skills : List Skill} {mined : List Mined}
    {learnedRules allowlist : Option yaml.Text} {s : State yaml}
    (run : Reachable (system python) (start ruleId skills mined learnedRules allowlist) s) : Keyed s.db := by
  refine run.invariant (P:=fun s => Keyed s.db) (mined_keyed yaml ruleId skills mined).1 ?_
  intro s call next keyed _ stepped
  cases stepped
  exact keyed_step python keyed call

theorem approved_written (approved : Approved python appClass before after) :
    ∃ new, after = some new ∧ appendAllowlistEntry yaml before appClass "*" = .ok new := by
  obtain ⟨run,inside,named,done,written⟩ := approved
  rename_i s next prop now decision
  have keyed := reachable_keyed run
  subst named
  have title := keyed.titles prop inside
  cases append : appendAllowlistEntry yaml before prop.appClass prop.titlePat with
  | error failure =>
    rw [approve_entry_refused (s:={ s with allowlist := before }) keyed inside now append] at done
    cases done
  | ok new =>
    rw [approve_entry (s:={ s with allowlist := before }) keyed inside now append] at done
    cases done
    rw [title] at append
    exact ⟨new,written.symm,append⟩

theorem ruleAllows_wellFormed (wellFormed : WellFormed before) {rule : Json}
    (inside : rule ∈ yaml.entries "allow" before) : ∃ allowed, ruleAllows python window rule = .ok allowed := by
  obtain ⟨fields,rfl,texts⟩ := wellFormed rule inside
  have pattern (key : String) (known : key ∈ ["class","title"]) : ∃ text, patternOf fields key = .ok text := by
    unfold patternOf
    cases found : fields.lookup key with
    | none => exact ⟨"*",rfl⟩
    | some value =>
      obtain ⟨text,rfl⟩ := texts key known value found
      exact ⟨text,rfl⟩
  obtain ⟨classPat,readClass⟩ := pattern "class" (by simp)
  obtain ⟨titlePat,readTitle⟩ := pattern "title" (by simp)
  simp only [ruleAllows,readClass,readTitle,bind,Except.bind]
  split
  · exact ⟨_,rfl⟩
  · exact ⟨_,rfl⟩

theorem anyAllows_total {rules : List Json}
    (total : ∀ rule ∈ rules, ∃ allowed, ruleAllows python window rule = .ok allowed) :
    ∃ allowed, anyAllows python window rules = .ok allowed := by
  induction rules with
  | nil => exact ⟨false,rfl⟩
  | cons rule rest ih =>
    obtain ⟨allowed,asked⟩ := total rule List.mem_cons_self
    obtain ⟨others,later⟩ := ih fun other inside => total other (List.mem_cons_of_mem _ inside)
    simp only [anyAllows,asked,bind,Except.bind]
    cases allowed with
    | true => exact ⟨true,rfl⟩
    | false => exact ⟨others,later⟩

theorem not_misread {new : yaml.Text} (written : appendAllowlistEntry yaml before appClass "*" = .ok new)
    (wellFormed : WellFormed before) (literal : Literal (python.lower appClass).toList) :
    ¬Misread python appClass before window := by
  intro misread
  obtain ⟨listed,reason⟩ := misread
  rcases reason with ⟨_,apart⟩ | ⟨⟨failure,raised⟩,_⟩
  · exact apart (fnmatch_literal literal)
  · rw [verdict_readable (append_readable written).1,if_neg (by simp [listed])] at raised
    obtain ⟨allowed,answered⟩ := anyAllows_total fun rule inside =>
      ruleAllows_wellFormed wellFormed inside
    rw [answered] at raised
    cases raised

end

section
variable {yaml : Yaml} {python : Python} {appClass : String}

def windowOf (appClass : String) : Window :=
  ⟨"0x1","",appClass,1,(0,0),(0,0),false,false,1,0⟩

theorem first_approved (yaml : Yaml) (python : Python) (appClass : String) : ∃ new : yaml.Text,
    appendAllowlistEntry yaml none appClass "*" = .ok new ∧
      Approved python appClass none (some new) := by
  have written : appendAllowlistEntry yaml none appClass "*" =
      .ok (yaml.dump (.obj [("allow",.arr [allowlistEntry appClass "*"])])) := rfl
  let s : State yaml := start (fun _ _ => "") [] [.miss appClass "" 0] none none
  have keyed : Keyed s.db := (mined_keyed yaml (fun _ _ => "") [] [.miss appClass "" 0]).1
  have inside : (⟨1,appClass,"*",1,0,.pending⟩ : AllowlistProposal) ∈ s.db.proposals :=
    List.mem_of_mem_head? rfl
  exact ⟨_,written,.mk (s:=s) .refl inside rfl
    (approve_entry (s:={ s with allowlist := none }) keyed inside 0 written) rfl⟩

theorem denied_letters : ∀ name ∈ alwaysDeny, 'z' ∉ name.toList ∧ 'j' ∉ name.toList := by decide

theorem wild_misread (yaml : Yaml) (wild : ¬Literal (python.lower appClass).toList)
    (denied : python.lower appClass ∉ alwaysDeny) :
    ∃ window, Misread python appClass (none : Option yaml.Text) window := by
  have silent (window : Window) : verdict python (none : Option yaml.Text) window = .ok false := by
    unfold verdict
    split
    · rfl
    · rfl
  rcases not_literal wild with missed | ⟨other,matched,apart,new,from_⟩
  · refine ⟨windowOf appClass,?_,.inl ⟨silent _,?_⟩⟩
    · simpa [alwaysDenied,windowOf] using denied
    · intro same
      have own := same.mpr rfl
      rw [fnmatch] at own
      simp only [windowOf] at own
      rw [missed] at own
      cases own
  · have settled : python.lower (String.ofList other) = String.ofList other := by
      apply python.lower_fixed
      intro char inside
      rw [String.toList_ofList] at inside
      rcases from_ char inside with old | rfl | rfl
      · exact python.lower_settled _ char old
      · exact lower_known rfl rfl
      · exact lower_known rfl rfl
    refine ⟨windowOf (String.ofList other),?_,.inl ⟨silent _,?_⟩⟩
    · simp only [alwaysDenied,windowOf,settled,← Bool.not_eq_true,List.contains_iff_mem]
      intro listed
      have letters := denied_letters _ listed
      rw [String.toList_ofList] at letters
      exact new.elim letters.1 letters.2
    · intro same
      simp only [windowOf,settled,fnmatch,String.toList_ofList] at same
      have equal := same.mp matched
      apply apart
      rw [← equal,String.toList_ofList]

end

theorem denied_literal : ∀ name ∈ alwaysDeny, Literal name.toList := by
  intro name inside
  simp only [alwaysDeny,List.mem_cons,List.not_mem_nil,or_false] at inside
  rcases inside with rfl | rfl | rfl | rfl
  all_goals simp [Literal]

-- Approving a blocked class does to each window what it is to do, unless the class is
-- misread there; it does so in every file that is well formed exactly if the class in
-- lower case has no wildcard.
theorem approval_grants_class_iff (yaml : Yaml) (python : Python) (appClass : String) :
    (∀ (before after : Option yaml.Text) (window : Window), Approved python appClass before after →
      (Grants python appClass before after window ↔ ¬Misread python appClass before window)) ∧
    ((∀ before after : Option yaml.Text, Approved python appClass before after → WellFormed before →
        ∀ window, Grants python appClass before after window) ↔
      Literal (python.lower appClass).toList) := by
  have each (before after : Option yaml.Text) (window : Window)
      (approved : Approved python appClass before after) :
      Grants python appClass before after window ↔ ¬Misread python appClass before window := by
    obtain ⟨new,rfl,written⟩ := approved_written approved
    exact grants_iff written
  refine ⟨each,?_,?_⟩
  · intro always
    by_contra wild
    have open_ : python.lower appClass ∉ alwaysDeny := fun listed => wild (denied_literal _ listed)
    obtain ⟨window,misread⟩ := wild_misread yaml wild open_
    obtain ⟨new,_,approved⟩ := first_approved yaml python appClass
    have wellFormed : WellFormed (none : Option yaml.Text) := by
      intro rule inside
      simp [Yaml.entries,Yaml.mapping,get] at inside
    exact (each _ _ window approved).mp (always _ _ approved wellFormed window) misread
  · intro literal before after approved wellFormed window
    obtain ⟨new,rfl,written⟩ := approved_written approved
    exact (each _ _ window approved).mpr (not_misread written wellFormed literal)

theorem star_grants_all : ¬∀ (yaml : Yaml) (python : Python) (appClass : String)
    (before after : Option yaml.Text) (window : Window), Approved python appClass before after →
      Grants python appClass before after window := by
  intro always
  obtain ⟨new,written,approved⟩ := first_approved plainYaml asciiPython "*"
  have granted := always plainYaml asciiPython "*" none (some new) (windowOf "foot") approved
  have silent : verdict asciiPython (none : Option plainYaml.Text) (windowOf "foot") = .ok false := rfl
  have matched : fnmatch (asciiPython.lower "foot") (asciiPython.lower "*") = true := by
    rw [lower_star]
    exact fnmatch_star _
  rcases granted.mp ((allowed_after written).mpr (.inr ⟨by decide,silent,matched⟩)) with before | ⟨same,_⟩
  · rw [Allowed,silent] at before
    cases before
  · revert same
    decide

end HyprlandAgent.Learning
