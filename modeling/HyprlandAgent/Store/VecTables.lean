import HyprlandAgent.Store.Migration

-- The vector tables over a history of opens, with the extension at hand or not.
namespace Migration
open Coroutine Sql
variable {f g : File} {name : String} {available : Bool} {episodes skills : Bool} {version : Nat}

def Present (f : File) (name : String) : Bool := (f.tables name).isSome

def aside : Statement → Bool
  | .createTable name _ | .createTableIfAbsent name _ | .dropTable name =>
    name != "episode_vecs" && name != "skill_vecs"
  | .renameTable name next =>
    name != "episode_vecs" && name != "skill_vecs" && next != "episode_vecs" && next != "skill_vecs"
  | .setUserVersion _ => false
  | _ => true

structure Vectors (episodes skills : Bool) (version : Nat) (f : File) : Prop where
  episodes : Present f "episode_vecs" = episodes
  skills : Present f "skill_vecs" = skills
  version : f.userVersion = version

theorem present_setTable (new : Option Table) (other : name ≠ "episode_vecs" ∧ name ≠ "skill_vecs")
    (vectors : Vectors episodes skills version f) :
    Vectors episodes skills version (f.setTable name new) := by
  refine ⟨?_,?_,vectors.version⟩
  · unfold Present
    rw [setTable_other (Ne.symm other.1)]
    exact vectors.episodes
  · unfold Present
    rw [setTable_other (Ne.symm other.2)]
    exact vectors.skills

theorem present_overwrite {t new : Table} (found : f.tables name = some t)
    (vectors : Vectors episodes skills version f) :
    Vectors episodes skills version (f.setTable name (some new)) := by
  have same : ∀ other, Present (f.setTable name (some new)) other = Present f other := by
    intro other
    unfold Present
    by_cases this : other = name
    · subst this
      rw [setTable_same,found]
      rfl
    · rw [setTable_other this]
  exact ⟨(same _).trans vectors.episodes,(same _).trans vectors.skills,vectors.version⟩

theorem aside_vectors {statement : Statement} (quiet : aside statement = true)
    (applied : statement.apply f = .ok g) (vectors : Vectors episodes skills version f) :
    Vectors episodes skills version g := by
  cases statement with
  | pragma text =>
    cases applied
    exact vectors
  | createTable name columns =>
    simp only [aside,Bool.and_eq_true,bne_iff_ne] at quiet
    simp only [Statement.apply] at applied
    split at applied
    · cases applied
    · cases applied
      exact present_setTable _ quiet vectors
  | createTableIfAbsent name columns =>
    simp only [aside,Bool.and_eq_true,bne_iff_ne] at quiet
    simp only [Statement.apply] at applied
    split at applied
    · cases applied
      exact vectors
    · cases applied
      exact present_setTable _ quiet vectors
  | createIndexIfAbsent unique name table columns =>
    have same : g.tables = f.tables ∧ g.userVersion = f.userVersion := by
      simp only [Statement.apply] at applied
      split at applied
      · cases applied
        exact ⟨rfl,rfl⟩
      · split at applied
        · cases applied
        · split at applied
          · split at applied
            · cases applied
            · cases applied
              exact ⟨rfl,rfl⟩
          · cases applied
    obtain ⟨tables,kept⟩ := same
    refine ⟨?_,?_,kept.trans vectors.version⟩
    · unfold Present
      rw [tables]
      exact vectors.episodes
    · unfold Present
      rw [tables]
      exact vectors.skills
  | addColumn table column default =>
    simp only [Statement.apply] at applied
    split at applied
    · cases applied
    · rename_i t found
      split at applied
      · cases applied
      · cases applied
        exact present_overwrite found vectors
  | fillNull table column value =>
    simp only [Statement.apply] at applied
    split at applied
    · cases applied
    · rename_i t found
      split at applied
      · cases applied
        exact present_overwrite found vectors
      · cases applied
  | insertSelect target source columns coalesce =>
    simp only [Statement.apply] at applied
    split at applied
    · rename_i into t found there
      split at applied
      · cases applied
        exact present_overwrite found vectors
      · cases applied
    · cases applied
    · cases applied
  | dropTable name =>
    simp only [aside,Bool.and_eq_true,bne_iff_ne] at quiet
    simp only [Statement.apply] at applied
    split at applied
    · cases applied
      have gone := present_setTable none quiet vectors
      exact ⟨gone.episodes,gone.skills,gone.version⟩
    · cases applied
  | renameTable name next =>
    simp only [aside,Bool.and_eq_true,bne_iff_ne] at quiet
    obtain ⟨⟨⟨here,also⟩,there⟩,too⟩ := quiet
    simp only [Statement.apply] at applied
    split at applied
    · cases applied
    · cases applied
    · rename_i t found free
      cases applied
      have moved := present_setTable (some t) ⟨there,too⟩
        (present_setTable none ⟨here,also⟩ vectors)
      exact ⟨moved.episodes,moved.skills,moved.version⟩
  | setUserVersion version => cases quiet

def Leaves (available : Bool) (P : File → Prop) (p : Prog sql α) (Q : α → File → Prop) : Prop :=
  Triple (semantics available) (fun _ _ => True) (fun c => P c.current) p
    (ending (fun value c => Q value c.current) fun _ _ => True)

theorem Leaves.bind {P : File → Prop} {Q : α → File → Prop} {T : β → File → Prop} {p : Prog sql α}
    {next : α → Prog sql β} (first : Leaves available P p Q)
    (second : ∀ value, Leaves available (Q value) (next value) T) : Leaves available P (p >>= next) T :=
  Triple.seq first second

theorem run_leaves {P Q : File → Prop} {statement : Statement} (begins : Bool) (c : Connection)
    (moves : ∀ f g, P f → statement.apply f = .ok g → Q g) (holds : P c.current) :
    ending (S:=sql) (fun _ c => Q c.current) (fun _ _ => True) (c.run begins statement).1
      (c.run begins statement).2 := by
  unfold Connection.run
  cases applied : statement.apply c.current with
  | error e => trivial
  | ok g =>
    have after := moves _ g holds applied
    dsimp only [ending]
    split <;> exact after

theorem execute_leaves {P Q : File → Prop} {statement : Statement}
    (moves : ∀ f g, P f → statement.apply f = .ok g → Q g) :
    Leaves available P (execute statement) fun _ => Q :=
  Triple.exec (fun _ _ => trivial) fun c holds => run_leaves _ c moves holds

def Aside : Op → Prop
  | .execute statement | .script statement => aside statement = true
  | _ => True

theorem aside_leaves {p : Prog sql α} (all : p.All Aside) :
    Leaves available (Vectors episodes skills version) p fun _ => Vectors episodes skills version := by
  have along : Triple (semantics available) (fun _ _ => True)
      (fun c => Vectors episodes skills version c.current) p
      fun _ c => Vectors episodes skills version c.current := by
    refine Triple.along all (fun _ _ _ _ impossible => impossible.elim) (fun _ _ _ _ => trivial) ?_
    intro op quiet c reply next vectors acted
    have moved : (c.exec available op).2 = next := congrArg Prod.snd acted
    subst moved
    have ran : ∀ begins statement, aside statement = true →
        Vectors episodes skills version (c.run begins statement).2.current := by
      intro begins statement quiet
      unfold Connection.run
      cases applied : statement.apply c.current with
      | error e => exact vectors
      | ok g =>
        have after := aside_vectors quiet applied vectors
        dsimp only
        split <;> exact after
    cases op with
    | execute statement => exact ran _ statement quiet
    | script statement => exact ran _ statement quiet
    | _ => exact vectors
  apply along.mono
  intro result c vectors
  cases result with
  | ok value => exact vectors
  | error e => trivial

section
open Prog

theorem script_aside {statements : List Statement} (quiet : statements.all aside = true) :
    (script statements).All Aside := by
  induction statements with
  | nil => exact All.pure ()
  | cons statement rest ih =>
    simp only [List.all_cons,Bool.and_eq_true] at quiet
    exact All.bind (All.perform quiet.1) fun _ => ih quiet.2

theorem executescript_aside {statements : List Statement} (quiet : statements.all aside = true) :
    (executescript statements).All Aside :=
  All.bind (All.perform trivial) fun _ => script_aside quiet

theorem addMissing_aside {cols : List String} {table column : String} {default : Value} :
    (addMissing cols table column default).All Aside := by
  unfold addMissing
  split
  · exact All.pure ()
  · exact All.perform rfl

theorem prepareRuns_aside : prepareRuns.All Aside := by
  unfold prepareRuns
  refine All.bind (executescript_aside (by decide)) fun _ => ?_
  refine All.bind (All.perform trivial) fun cols => ?_
  refine All.bind addMissing_aside fun _ => ?_
  refine All.bind addMissing_aside fun _ => ?_
  refine All.bind ?_ fun _ => All.perform trivial
  unfold onlyIf
  split
  · exact executescript_aside (by decide)
  · exact All.pure ()

theorem addDecay_aside {now : Rat} {table : String} : (addDecay now table).All Aside := by
  unfold addDecay
  refine All.bind (All.perform trivial) fun cols => ?_
  refine All.bind addMissing_aside fun _ => ?_
  split
  · exact All.pure ()
  · exact All.bind (All.perform rfl) fun _ => All.perform rfl

end

theorem version_leaves {next : Nat} :
    Leaves available (Vectors episodes skills version)
      (do
        execute (.setUserVersion next)
        commit)
      fun _ => Vectors episodes skills next := by
  refine Leaves.bind (execute_leaves (Q:=Vectors episodes skills next) ?_) fun _ => ?_
  · intro f g vectors applied
    cases applied
    exact ⟨vectors.episodes,vectors.skills,rfl⟩
  · exact aside_leaves (Prog.All.perform trivial)

theorem onlyIf_leaves {P Q : File → Prop} {needed : Bool} {part : Prog sql Unit}
    (does : needed = true → Leaves available P part fun _ => Q)
    (skips : needed = false → ∀ f, P f → Q f) : Leaves available P (onlyIf needed part) fun _ => Q := by
  cases needed with
  | true => exact does rfl
  | false => exact Triple.pure fun c => skips rfl c.current

theorem created_present {columns : List String} (applied : (Statement.createTableIfAbsent name columns).apply f = .ok g) :
    Present g name = true ∧ g.userVersion = f.userVersion ∧
      ∀ other, other ≠ name → Present g other = Present f other := by
  simp only [Statement.apply] at applied
  split at applied
  · rename_i t found
    cases applied
    exact ⟨by simp [Present,found],rfl,fun _ _ => rfl⟩
  · cases applied
    refine ⟨by simp [Present],rfl,?_⟩
    intro other different
    unfold Present
    rw [setTable_other different]

theorem v2_leaves : Leaves available (Vectors episodes skills version) applyV2Migration
    fun _ => Vectors episodes skills 2 := by
  unfold applyV2Migration
  refine Leaves.bind (aside_leaves (Prog.All.perform trivial)) fun cols => ?_
  refine Leaves.bind (aside_leaves addMissing_aside) fun _ => ?_
  refine Leaves.bind (aside_leaves addMissing_aside) fun _ => ?_
  refine Leaves.bind (aside_leaves addMissing_aside) fun _ => ?_
  exact Leaves.bind (aside_leaves (executescript_aside (by decide))) fun _ => version_leaves

theorem v3_leaves {vecOk : Bool} : Leaves available (Vectors episodes skills version)
    (applyV3Migration vecOk) fun _ => Vectors (episodes || vecOk) skills 3 := by
  unfold applyV3Migration
  refine Leaves.bind (aside_leaves (executescript_aside (by decide))) fun _ => ?_
  refine Leaves.bind (Q:=fun _ => Vectors (episodes || vecOk) skills version) (onlyIf_leaves ?_ ?_)
    fun _ => version_leaves
  · intro same
    subst same
    apply execute_leaves
    intro f g vectors applied
    obtain ⟨present,kept,others⟩ := created_present applied
    exact ⟨by simpa using present,(others _ (by decide)).trans vectors.skills,kept.trans vectors.version⟩
  · intro same f vectors
    subst same
    exact ⟨by simpa using vectors.episodes,vectors.skills,vectors.version⟩

theorem v4_leaves {vecOk : Bool} : Leaves available (Vectors episodes skills version)
    (applyV4Migration vecOk) fun _ => Vectors episodes (skills || vecOk) 4 := by
  unfold applyV4Migration
  refine Leaves.bind (aside_leaves (executescript_aside (by decide))) fun _ => ?_
  refine Leaves.bind (Q:=fun _ => Vectors episodes (skills || vecOk) version) (onlyIf_leaves ?_ ?_)
    fun _ => version_leaves
  · intro same
    subst same
    apply execute_leaves
    intro f g vectors applied
    obtain ⟨present,kept,others⟩ := created_present applied
    exact ⟨(others _ (by decide)).trans vectors.episodes,by simpa using present,kept.trans vectors.version⟩
  · intro same f vectors
    subst same
    exact ⟨vectors.episodes,by simpa using vectors.skills,vectors.version⟩

theorem v5_leaves {now : Rat} : Leaves available (Vectors episodes skills version)
    (applyV5Migration now) fun _ => Vectors episodes skills 5 := by
  unfold applyV5Migration
  refine Leaves.bind (aside_leaves addDecay_aside) fun _ => ?_
  refine Leaves.bind (aside_leaves addDecay_aside) fun _ => ?_
  exact Leaves.bind (aside_leaves addDecay_aside) fun _ => version_leaves

theorem loadVec_leaves : Leaves available (Vectors episodes skills version) loadVec
    fun vecOk f => vecOk = available ∧ Vectors episodes skills version f := by
  unfold loadVec
  have loaded : Triple (semantics available) (fun _ _ => True)
      (fun c => Vectors episodes skills version c.current) (ask .loadExtension)
      (ending (fun _ c => available = true ∧ Vectors episodes skills version c.current)
        fun _ c => available = false ∧ Vectors episodes skills version c.current) := by
    apply Triple.exec (fun _ _ => trivial)
    intro c vectors
    cases available <;> exact ⟨rfl,vectors⟩
  have answered : Triple (semantics available) (fun _ _ => True)
      (fun c => Vectors episodes skills version c.current)
      (do
        ask .loadExtension
        pure true)
      (ending (fun vecOk c => vecOk = available ∧ Vectors episodes skills version c.current)
        fun _ c => available = false ∧ Vectors episodes skills version c.current) :=
    Triple.seq loaded fun _ => Triple.pure fun _ reached => ⟨reached.1.symm,reached.2⟩
  exact Triple.caught answered fun _ => Triple.pure fun _ reached => ⟨reached.1.symm,reached.2⟩

theorem Leaves.given {P : File → Prop} {Q : α → File → Prop} {p : Prog sql α} {fact : Prop}
    (leaves : fact → Leaves available P p Q) : Leaves available (fun f => fact ∧ P f) p Q :=
  fun c both => leaves both.1 c both.2

theorem upgrade_leaves {episodes' skills' : Bool} {before next : Nat} {migration : Prog sql Unit}
    (step : before ≤ next)
    (does : ∀ now, Leaves available (Vectors episodes skills now) migration
      fun _ => Vectors episodes' skills' next) :
    Leaves available (Vectors episodes skills (max version before)) (onlyIf (version < next) migration)
      fun _ => Vectors (if version < next then episodes' else episodes)
        (if version < next then skills' else skills) (max version next) := by
  apply onlyIf_leaves
  · intro needed
    have below : version < next := of_decide_eq_true needed
    rw [if_pos below,if_pos below,Nat.max_eq_right (Nat.le_of_lt below)]
    exact does _
  · intro done f vectors
    have reached : ¬version < next := of_decide_eq_false done
    have same : max version next = max version before := by omega
    rw [if_neg reached,if_neg reached,same]
    exact vectors

theorem initDb_leaves {now : Rat} : Leaves available (Vectors episodes skills version) (initDb now)
    fun vecOk f => vecOk = available ∧ Vectors (if version < 3 then episodes || available else episodes)
      (if version < 4 then skills || available else skills) (max version 5) f := by
  unfold initDb
  refine Leaves.bind loadVec_leaves fun vecOk => Leaves.given ?_
  intro same
  subst same
  refine Leaves.bind (aside_leaves prepareRuns_aside) fun _ => ?_
  have read : Leaves vecOk (Vectors episodes skills version) (ask .userVersion)
      fun userVer f => userVer = version ∧ Vectors episodes skills version f :=
    Triple.exec (fun _ _ => trivial) fun _ vectors => ⟨vectors.version,vectors⟩
  refine Leaves.bind read fun userVer => Leaves.given ?_
  intro same
  subst same
  have start : Leaves vecOk (Vectors episodes skills (max userVer 0))
      (onlyIf (userVer < 2) applyV2Migration) fun _ =>
        Vectors (if userVer < 2 then episodes else episodes) (if userVer < 2 then skills else skills)
          (max userVer 2) := upgrade_leaves (Nat.zero_le 2) fun _ => v2_leaves
  rw [Nat.max_zero,ite_self,ite_self] at start
  refine Leaves.bind start fun _ => ?_
  refine Leaves.bind (upgrade_leaves (by decide) fun _ => v3_leaves) fun _ => ?_
  rw [ite_self]
  refine Leaves.bind (upgrade_leaves (by decide) fun _ => v4_leaves) fun _ => ?_
  rw [ite_self]
  refine Leaves.bind (upgrade_leaves (by decide) fun _ => v5_leaves) fun _ => ?_
  rw [ite_self,ite_self]
  exact Triple.pure fun _ vectors => ⟨rfl,vectors⟩

theorem open_vectors {now : Rat} {fuel : Nat} {vecOk : Bool}
    (opened : (openStore available now fuel f).2 = .ended (.ok vecOk)) :
    vecOk = available ∧ Vectors
      (if f.userVersion < 3 then Present f "episode_vecs" || available else Present f "episode_vecs")
      (if f.userVersion < 4 then Present f "skill_vecs" || available else Present f "skill_vecs")
      (max f.userVersion 5) (openStore available now fuel f).1 := by
  have leaves := @initDb_leaves available (Present f "episode_vecs") (Present f "skill_vecs") f.userVersion now
  have lived := holds_live (leaves ⟨f,none⟩ ⟨rfl,rfl,rfl⟩) fuel
  unfold openStore session at opened ⊢
  dsimp only at opened ⊢
  rw [opened] at lived ⊢
  exact lived

inductive Opened : File → List (Bool × Rat) → Bool → File → Prop where
  | last {f : File} {available vecOk : Bool} {now : Rat} {fuel : Nat} :
      (openStore available now fuel f).2 = .ended (.ok vecOk) →
      Opened f [(available,now)] vecOk (openStore available now fuel f).1
  | earlier {f g : File} {available before vecOk : Bool} {now : Rat} {fuel : Nat}
      {rest : List (Bool × Rat)} : (openStore available now fuel f).2 = .ended (.ok before) →
      Opened (openStore available now fuel f).1 rest vecOk g →
      Opened f ((available,now) :: rest) vecOk g

theorem opened_late {opens : List (Bool × Rat)} {vecOk : Bool} (history : Opened f opens vecOk g)
    (late : 4 ≤ f.userVersion) :
    Present g "episode_vecs" = Present f "episode_vecs" ∧ Present g "skill_vecs" = Present f "skill_vecs" := by
  induction history with
  | last opened =>
    obtain ⟨_,vectors⟩ := open_vectors opened
    refine ⟨vectors.episodes.trans (if_neg (by omega)),vectors.skills.trans (if_neg (by omega))⟩
  | earlier opened _ ih =>
    obtain ⟨_,vectors⟩ := open_vectors opened
    have version := vectors.version
    obtain ⟨episodes,skills⟩ := ih (by omega)
    exact ⟨episodes.trans (vectors.episodes.trans (if_neg (by omega))),
      skills.trans (vectors.skills.trans (if_neg (by omega)))⟩

theorem opened_vectors {first : Bool × Rat} {rest : List (Bool × Rat)} {vecOk : Bool}
    (history : Opened f (first :: rest) vecOk g) :
    (Present g "episode_vecs" = true ↔
        Present f "episode_vecs" = true ∨ f.userVersion < 3 ∧ first.1 = true) ∧
      (Present g "skill_vecs" = true ↔
        Present f "skill_vecs" = true ∨ f.userVersion < 4 ∧ first.1 = true) := by
  have after : ∀ {kept brought : Bool} {version next : Nat}, (if version < next then kept || brought else kept) = true ↔
      kept = true ∨ version < next ∧ brought = true := by
    intro kept brought version next
    by_cases below : version < next
    · simp [below]
    · simp [below]
  cases history with
  | last opened =>
    obtain ⟨_,vectors⟩ := open_vectors opened
    rw [vectors.episodes,vectors.skills]
    exact ⟨after,after⟩
  | earlier opened others =>
    obtain ⟨_,vectors⟩ := open_vectors opened
    have version := vectors.version
    obtain ⟨episodes,skills⟩ := opened_late others (by omega)
    rw [episodes,skills,vectors.episodes,vectors.skills]
    exact ⟨after,after⟩

theorem opened_last {first : Bool × Rat} {rest : List (Bool × Rat)} {vecOk : Bool}
    (history : Opened f (first :: rest) vecOk g) :
    vecOk = ((first :: rest).getLast (List.cons_ne_nil _ _)).1 := by
  induction rest generalizing f first with
  | nil =>
    cases history with
    | last opened => exact (open_vectors opened).1
    | earlier opened others => cases others
  | cons second rest ih =>
    cases history with
    | earlier opened others => exact ih others

-- After any history of opens: with the extension loaded both vector tables exist,
-- if and only if it was not loaded at the last one, or each table was there at the
-- first one or made by it.
theorem vec_tables_iff {first : Bool × Rat} {rest : List (Bool × Rat)} {vecOk : Bool}
    (history : Opened f (first :: rest) vecOk g) :
    (vecOk = true → Present g "episode_vecs" = true ∧ Present g "skill_vecs" = true) ↔
      (((first :: rest).getLast (List.cons_ne_nil _ _)).1 = true →
        (Present f "episode_vecs" = true ∨ f.userVersion < 3 ∧ first.1 = true) ∧
          (Present f "skill_vecs" = true ∨ f.userVersion < 4 ∧ first.1 = true)) := by
  obtain ⟨episodes,skills⟩ := opened_vectors history
  rw [opened_last history,episodes,skills]

def answer : Outcome Bool → Option Bool
  | .ended (.ok vecOk) => some vecOk
  | _ => none

theorem answered {outcome : Outcome Bool} {vecOk : Bool} (same : answer outcome = some vecOk) :
    outcome = .ended (.ok vecOk) := by
  unfold answer at same
  split at same
  · cases same
    rfl
  · cases same

theorem extension_from_the_start : ∃ g, Opened {} [(true,0),(false,1),(true,2)] true g ∧
    Present g "episode_vecs" = true ∧ Present g "skill_vecs" = true := by
  have first := answered (show answer (openStore true 0 100 {}).2 = some true by decide +kernel)
  have second := answered
    (show answer (openStore false 1 100 (openStore true 0 100 {}).1).2 = some false by decide +kernel)
  have third := answered (show answer (openStore true 2 100
    (openStore false 1 100 (openStore true 0 100 {}).1).1).2 = some true by decide +kernel)
  have history := Opened.earlier first (.earlier second (.last third))
  have fresh : ({} : File).userVersion = 0 := rfl
  refine ⟨_,history,(vec_tables_iff history).mpr ?_ rfl⟩
  intro _
  exact ⟨.inr ⟨by omega,rfl⟩,.inr ⟨by omega,rfl⟩⟩

theorem extension_came_late : ∃ g, Opened {} [(false,0),(true,1)] true g ∧
    Present g "episode_vecs" = false ∧ Present g "skill_vecs" = false := by
  have first := answered (show answer (openStore false 0 100 {}).2 = some false by decide +kernel)
  have second := answered
    (show answer (openStore true 1 100 (openStore false 0 100 {}).1).2 = some true by decide +kernel)
  refine ⟨_,.earlier first (.last second),?_⟩
  decide +kernel

end Migration
