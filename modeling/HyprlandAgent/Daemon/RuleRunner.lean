import Mathlib.Data.List.TakeWhile
import HyprlandAgent.Daemon.Rules
import HyprlandAgent.Orchestrator
import HyprlandAgent.Shlex

-- Rule action executor: what an action asks of the desktop, and which processes a `run`
-- action starts.
namespace HyprlandAgent.RuleRunner

def runDeny : List String :=
  ["rm","rmdir","dd","mkfs","shutdown","reboot","poweroff","halt","init","kill","killall","pkill",
    "sudo","su","doas"]

def envWhitelist : List String :=
  ["PATH","HOME","USER","DISPLAY","WAYLAND_DISPLAY","XDG_RUNTIME_DIR","XDG_SESSION_TYPE",
    "HYPRLAND_INSTANCE_SIGNATURE","DBUS_SESSION_BUS_ADDRESS","LANG","LC_ALL"]

def safeEnv (baseEnv : List (String × String)) : List (String × String) :=
  baseEnv.filter fun entry => envWhitelist.contains entry.1

-- What an action comes to, beside its log lines. Without `env` the process has the
-- environment of the daemon.
inductive Deed where
  | nothing
  | dispatch (cmd : String)
  | createSubprocessExec (argv : List String) (env : Option (List (String × String)))
  deriving DecidableEq

-- The `run` branch; `environ` is the environment of the daemon.
def runValue (environ : List (String × String)) (value : String) : Deed :=
  let raw := Orchestrator.strip value.toList
  if raw = [] then .nothing
  else
    match Shlex.split raw with
    | .error _ => .nothing
    | .ok words =>
      let argv := words.map String.ofList
      if runDeny.contains (argv.headD "") then .nothing
      else .createSubprocessExec argv (some (safeEnv environ))

def execAction (environ : List (String × String)) (action : RuleAction) : Deed :=
  match action.kind with
  | .log => .nothing
  | .dispatch => .dispatch action.value
  | .notify => .createSubprocessExec ["notify-send","hyprland-agent",action.value] none
  | .run => runValue environ action.value

-- Whether a process is started for an argument vector: never without a program, or with
-- one that has no name.
structure Processes where
  starts : List String → Bool
  no_program : starts [] = false
  no_name : ∀ rest, starts ("" :: rest) = false

-- `os.path.basename`
def baseName (path : String) : String :=
  String.ofList (path.toList.reverse.takeWhile (· != '/')).reverse

section
variable (os : Processes) (environ : List (String × String)) (value : String)

def spawned : Option (List String) :=
  match execAction environ ⟨.run,value⟩ with
  | .createSubprocessExec argv _ => if os.starts argv then some argv else none
  | _ => none

def words : Option (List String) :=
  match Shlex.split (Orchestrator.strip value.toList) with
  | .ok words => some (words.map String.ofList)
  | .error _ => none

-- No denied program is started, and nothing at all for a value that is no command.
structure Guarded : Prop where
  allowed : ∀ argv, spawned os environ value = some argv →
    ∃ program rest, argv = program :: rest ∧ baseName program ∉ runDeny
  command : (∀ program rest, words value = some (program :: rest) → program = "") →
    spawned os environ value = none

-- A denied program that is named by its path.
def Evades : Prop := ∃ program rest, words value = some (program :: rest) ∧
  os.starts (program :: rest) = true ∧ '/' ∈ program.toList ∧ baseName program ∈ runDeny

end

section
variable {os : Processes} {environ : List (String × String)} {value : String} {argv : List String}

theorem baseName_plain {name : String} (plain : '/' ∉ name.toList) : baseName name = name := by
  have all : name.toList.reverse.takeWhile (· != '/') = name.toList.reverse := by
    apply List.takeWhile_eq_self_iff.mpr
    intro char inside
    have apart : char ≠ '/' := by
      intro same
      exact plain (same ▸ List.mem_reverse.mp inside)
    simpa using apart
  rw [baseName,all,List.reverse_reverse,String.ofList_toList]

theorem runDeny_plain : ∀ name ∈ runDeny, '/' ∉ name.toList := by decide

theorem split_blank : Shlex.split [] = .ok [] := rfl

theorem spawned_iff : spawned os environ value = some argv ↔
    words value = some argv ∧ os.starts argv = true ∧ argv.headD "" ∉ runDeny := by
  unfold spawned execAction runValue words
  simp only
  by_cases blank : Orchestrator.strip value.toList = []
  · rw [if_pos blank,blank,split_blank]
    simp only [List.map_nil,Option.some.injEq]
    constructor
    · intro none_
      cases none_
    · intro started
      obtain ⟨rfl,started,_⟩ := started
      rw [os.no_program] at started
      cases started
  · rw [if_neg blank]
    cases Shlex.split (Orchestrator.strip value.toList) with
    | error failure => simp
    | ok read =>
      simp only [List.contains_iff_mem,Option.some.injEq]
      by_cases denied : (read.map String.ofList).headD "" ∈ runDeny
      · rw [if_pos denied]
        constructor
        · intro none_
          cases none_
        · intro started
          obtain ⟨rfl,_,listed⟩ := started
          exact absurd denied listed
      · rw [if_neg denied]
        by_cases started : os.starts (read.map String.ofList) = true
        · simp only [if_pos started,Option.some.injEq]
          constructor
          · intro same
            subst same
            exact ⟨rfl,started,denied⟩
          · intro all
            exact all.1
        · simp only [if_neg started]
          constructor
          · intro none_
            cases none_
          · intro all
            obtain ⟨rfl,other,_⟩ := all
            exact absurd other started

theorem spawned_program (some_ : spawned os environ value = some argv) :
    ∃ program rest, argv = program :: rest ∧ program ≠ "" := by
  obtain ⟨_,started,_⟩ := spawned_iff.mp some_
  cases argv with
  | nil =>
    rw [os.no_program] at started
    cases started
  | cons program rest =>
    refine ⟨program,rest,rfl,?_⟩
    intro nameless
    rw [nameless,os.no_name] at started
    cases started

-- The guard holds exactly where no denied program is named by a path.
theorem guarded_iff (os : Processes) (environ : List (String × String)) (value : String) :
    Guarded os environ value ↔ ¬Evades os value := by
  constructor
  · intro guarded evades
    obtain ⟨program,rest,read,started,slash,denied⟩ := evades
    have unlisted : (program :: rest).headD "" ∉ runDeny := fun listed => runDeny_plain program listed slash
    obtain ⟨_,_,same,allowed⟩ := guarded.allowed _ (spawned_iff.mpr ⟨read,started,unlisted⟩)
    cases same
    exact allowed denied
  · intro caught
    constructor
    · intro argv some_
      obtain ⟨program,rest,rfl,_⟩ := spawned_program some_
      obtain ⟨read,started,unlisted⟩ := spawned_iff.mp some_
      refine ⟨program,rest,rfl,?_⟩
      intro denied
      by_cases slash : '/' ∈ program.toList
      · exact caught ⟨program,rest,read,started,slash,denied⟩
      · rw [baseName_plain slash] at denied
        exact unlisted denied
    · intro nameless
      cases some_ : spawned os environ value with
      | none => rfl
      | some argv =>
        obtain ⟨program,rest,rfl,named⟩ := spawned_program some_
        exact absurd (nameless program rest (spawned_iff.mp some_).1) named

end

def anyProcess : Processes where
  starts := fun argv => argv.headD "" != ""
  no_program := rfl
  no_name := fun _ => rfl

theorem path_evades : ¬ ∀ os environ value, Guarded os environ value := by
  intro always
  have guarded := always anyProcess [] "/bin/rm -rf /home"
  refine (guarded_iff _ _ _).mp guarded ⟨"/bin/rm",["-rf","/home"],?_,by decide,by decide,by decide⟩
  decide

end HyprlandAgent.RuleRunner
