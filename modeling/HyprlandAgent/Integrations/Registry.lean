import HyprlandAgent.Daemon.Handshake

-- The registry of the integrations: it sets them up one after the other, asks them for
-- actions on behalf of any number of runs, and tears them down while runs still ask.
namespace HyprlandAgent.Registry
open Transition

-- `none` where `capabilities` raises; only the versions of the capabilities count here.
structure Integration where
  name : String
  versions : Option (List String)
  deriving DecidableEq

-- `none` where importing or creating the integration raises.
structure EntryPoint where
  name : String
  integration : Option Integration

inductive Status where
  | ready
  | degraded
  | missing
  deriving DecidableEq

def major (int : String → Option Int) (version : String) : Int := Handshake.parseMajor int version

def versionOk (int : String → Option Int) (specVersion : String) : Bool :=
  major int specVersion == major int Handshake.protocolVersion

-- What the daemon does with the registry. `load` and `teardown` wait for one
-- integration at a time; an exception of `capabilities` ends the start of the daemon.
inductive Phase where
  | loading (rest : List EntryPoint)
  | settingUp (integration : Integration) (rest : List EntryPoint)
  | failed
  | serving
  | stopping (rest : List Integration)
  | closed

-- A `handle`: the integrations that had nothing to say or raised, and the one it waits
-- for, that answered or that it was cancelled at.
inductive Call (ρ : Type) where
  | asking (passed : List Integration) (current : Integration)
  | answered (passed : List Integration) (last : Integration) (result : ρ)
  | unanswered (passed : List Integration)
  | cancelled (passed : List Integration) (current : Integration)

-- `setUps` and `tearDowns` record what was set up and torn down, in this order.
structure State (ρ : Type) where
  phase : Phase
  integrations : List Integration := []
  status : String → Option Status := fun _ => none
  calls : List (Call ρ) := []
  setUps : List Integration := []
  tearDowns : List Integration := []

inductive Event (ρ : Type) where
  | loads
  | setUp (ok : Bool)
  | close
  | tornDown
  | handle
  | answers (call : Nat) (result : Option ρ)
  | cancels (call : Nat)

section
variable {ρ : Type} (int : String → Option Int) (enabled : Option (List String))

def admits (name : String) : Bool :=
  match enabled with
  | none => true
  | some names => names.contains name

def State.put (s : State ρ) (name : String) (status : Status) : State ρ :=
  { s with status := Function.update s.status name (some status) }

-- The body of the loop of `load` up to where it waits.
def State.load (s : State ρ) (ep : EntryPoint) (rest : List EntryPoint) : State ρ :=
  if !admits enabled ep.name then { s with phase := .loading rest }
  else
    match ep.integration with
    | none => { s.put ep.name .missing with phase := .loading rest }
    | some integration =>
      match integration.versions with
      | none => { s with phase := .failed }
      | some versions =>
        if versions.all (versionOk int) then { s with phase := .settingUp integration rest }
        else { s.put integration.name .missing with phase := .loading rest }

-- The loop of `teardown` up to where it waits, or up to its end.
def State.stop (s : State ρ) : List Integration → State ρ
  | [] => { s with phase := .closed, integrations := [] }
  | rest => { s with phase := .stopping rest }

-- The list is read by index, as it is at that moment.
def State.next (s : State ρ) (passed : List Integration) : Call ρ :=
  match s.integrations[passed.length]? with
  | some integration => .asking passed integration
  | none => .unanswered passed

def State.set (s : State ρ) (n : Nat) (call : Call ρ) : State ρ := { s with calls := s.calls.set n call }

def Phase.open_ : Phase → Bool
  | .serving | .stopping _ | .closed => true
  | _ => false

def step (s : State ρ) : Event ρ → Option (State ρ)
  | .loads =>
    match s.phase with
    | .loading [] => some { s with phase := .serving }
    | .loading (ep :: rest) => some (s.load int enabled ep rest)
    | _ => none
  | .setUp ok =>
    match s.phase with
    | .settingUp integration rest => some
        (if ok then { s.put integration.name .ready with
            phase := .loading rest
            integrations := s.integrations ++ [integration]
            setUps := s.setUps ++ [integration] }
          else { s.put integration.name .degraded with phase := .loading rest })
    | _ => none
  | .close =>
    match s.phase with
    | .serving => some (s.stop s.integrations.reverse)
    | _ => none
  | .tornDown =>
    match s.phase with
    | .stopping (integration :: rest) =>
      some { s.stop rest with tearDowns := s.tearDowns ++ [integration] }
    | _ => none
  | .handle => if s.phase.open_ then some { s with calls := s.calls ++ [s.next []] } else none
  | .answers call result =>
    match s.calls[call]? with
    | some (.asking passed current) =>
      match result with
      | some result => some (s.set call (.answered passed current result))
      | none => some (s.set call (s.next (passed ++ [current])))
    | _ => none
  | .cancels call =>
    match s.calls[call]? with
    | some (.asking passed current) => some (s.set call (.cancelled passed current))
    | _ => none

def registry : System (State ρ) (Event ρ) := ⟨step int enabled⟩

end

def start {ρ : Type} (eps : List EntryPoint) : State ρ := { phase := .loading eps }

def Phase.coming : Phase → List EntryPoint
  | .loading rest | .settingUp _ rest => rest
  | _ => []

def Phase.waiting : Phase → List Integration
  | .settingUp integration _ => [integration]
  | _ => []

def Welcome (int : String → Option Int) (enabled : Option (List String)) (eps : List EntryPoint)
    (integration : Integration) : Prop :=
  ∃ ep ∈ eps, admits enabled ep.name = true ∧ ep.integration = some integration ∧
    ∃ versions, integration.versions = some versions ∧ versions.all (versionOk int) = true

def Call.Fair {ρ : Type} (setUps : List Integration) (closed : Prop) : Call ρ → Prop
  | .asking passed current => passed ++ [current] <+: setUps
  | .answered passed last _ => passed ++ [last] <+: setUps
  | .unanswered passed => passed <+: setUps ∧ (passed = setUps ∨ closed)
  | .cancelled passed current => passed ++ [current] <+: setUps

def Phase.torn (setUps tearDowns : List Integration) : Phase → Prop
  | .stopping rest => setUps.reverse = tearDowns ++ rest
  | .closed => setUps.reverse = tearDowns
  | _ => tearDowns = []

structure Orderly {ρ : Type} (int : String → Option Int) (enabled : Option (List String)) (eps : List EntryPoint)
    (s : State ρ) : Prop where
  order : List.Sublist (s.setUps ++ s.phase.waiting ++ s.phase.coming.filterMap EntryPoint.integration)
    (eps.filterMap EntryPoint.integration)
  welcome : ∀ integration ∈ s.setUps ++ s.phase.waiting, Welcome int enabled eps integration
  coming : s.phase.coming ⊆ eps
  held : s.phase = .closed ∧ s.integrations = [] ∨ s.phase ≠ .closed ∧ s.integrations = s.setUps
  torn : s.phase.torn s.setUps s.tearDowns
  asked : ∀ call ∈ s.calls, call.Fair s.setUps (s.phase = .closed)
  quiet : s.phase.open_ = false → s.calls = []
  ready : ∀ name, s.status name = some .ready → ∃ integration ∈ s.setUps, integration.name = name

section
variable {ρ : Type} {int : String → Option Int} {enabled : Option (List String)} {eps : List EntryPoint}
  {s : State ρ}

theorem orderly_start : Orderly int enabled eps (start eps : State ρ) where
  order := List.Sublist.refl _
  welcome := fun _ inside => absurd inside List.not_mem_nil
  coming := List.Subset.refl _
  held := .inr ⟨fun same => (by cases same),rfl⟩
  torn := rfl
  asked := fun _ inside => absurd inside List.not_mem_nil
  quiet := fun _ => rfl
  ready := fun _ same => by cases same

theorem Orderly.next (orderly : Orderly int enabled eps s) {passed : List Integration} (prior : passed <+: s.setUps) :
    (s.next passed).Fair s.setUps (s.phase = .closed) := by
  unfold State.next
  rcases orderly.held with ⟨closed,none_⟩ | ⟨_,all⟩
  · rw [none_,List.getElem?_nil]
    exact ⟨prior,.inr closed⟩
  · rw [all]
    obtain ⟨later,whole⟩ := prior
    cases later with
    | nil =>
      rw [List.append_nil] at whole
      rw [← whole,List.getElem?_eq_none le_rfl]
      exact ⟨List.prefix_refl _,.inl rfl⟩
    | cons current later =>
      rw [← whole,List.getElem?_append_right le_rfl,Nat.sub_self]
      exact ⟨later,by rw [List.append_assoc]; rfl⟩

theorem Call.Fair.closing {setUps : List Integration} {before after : Prop} {call : Call ρ}
    (fair : call.Fair setUps before) (closing : before → after) : call.Fair setUps after := by
  cases call with
  | unanswered passed => exact ⟨fair.1,fair.2.imp_right closing⟩
  | _ => exact fair

theorem ready_put {name : String} {status : Status} {setUps : List Integration} (other : status ≠ .ready)
    (ready : ∀ name, s.status name = some .ready → ∃ integration ∈ setUps, integration.name = name)
    (wanted : String) (same : Function.update s.status name (some status) wanted = some .ready) :
    ∃ integration ∈ setUps, integration.name = wanted := by
  by_cases mine : wanted = name
  · subst mine
    rw [Function.update_self] at same
    exact absurd (Option.some.inj same) other
  · rw [Function.update_of_ne mine] at same
    exact ready wanted same

theorem torn_early {phase : Phase} {setUps tearDowns : List Integration} (early : phase.open_ = false) :
    phase.torn setUps tearDowns ↔ tearDowns = [] := by
  cases phase with
  | stopping rest => cases early
  | closed => cases early
  | _ => exact Iff.rfl

theorem Orderly.unclosed (orderly : Orderly int enabled eps s) (unclosed : s.phase ≠ .closed) :
    s.integrations = s.setUps := by
  rcases orderly.held with ⟨closed,_⟩ | ⟨_,held⟩
  · exact absurd closed unclosed
  · exact held

theorem orderly_early {s : State ρ} (early : s.phase.open_ = false) (calls : s.calls = [])
    (held : s.integrations = s.setUps) (torn : s.tearDowns = [])
    (order : List.Sublist (s.setUps ++ s.phase.waiting ++ s.phase.coming.filterMap EntryPoint.integration)
      (eps.filterMap EntryPoint.integration))
    (welcome : ∀ integration ∈ s.setUps ++ s.phase.waiting, Welcome int enabled eps integration)
    (coming : s.phase.coming ⊆ eps)
    (ready : ∀ name, s.status name = some .ready → ∃ integration ∈ s.setUps, integration.name = name) :
    Orderly int enabled eps s where
  order := order
  welcome := welcome
  coming := coming
  held := .inr ⟨fun closed => (by rw [closed] at early; cases early),held⟩
  torn := (torn_early early).mpr torn
  asked := fun call inside => by rw [calls] at inside; cases inside
  quiet := fun _ => calls
  ready := ready

theorem Orderly.early (orderly : Orderly int enabled eps s) (early : s.phase.open_ = false) :
    s.integrations = s.setUps ∧ s.tearDowns = [] ∧ s.calls = [] := by
  refine ⟨orderly.unclosed ?_,(torn_early early).mp orderly.torn,orderly.quiet early⟩
  intro closed
  rw [closed] at early
  cases early

theorem orderly_loads {ep : EntryPoint} {rest : List EntryPoint} (orderly : Orderly int enabled eps s)
    (at_ : s.phase = .loading (ep :: rest)) : Orderly int enabled eps (s.load int enabled ep rest) := by
  have early : s.phase.open_ = false := by rw [at_]; rfl
  obtain ⟨held,torn,calls⟩ := orderly.early early
  have order : List.Sublist (s.setUps ++ [] ++ (ep :: rest).filterMap EntryPoint.integration)
      (eps.filterMap EntryPoint.integration) := by
    have order := orderly.order
    rw [at_] at order
    exact order
  have coming : ep :: rest ⊆ eps := by
    have coming := orderly.coming
    rw [at_] at coming
    exact coming
  have welcome : ∀ integration ∈ s.setUps ++ [], Welcome int enabled eps integration := by
    rw [List.append_nil]
    exact fun integration inside => orderly.welcome integration (List.mem_append_left _ inside)
  have shorter : List.Sublist (s.setUps ++ [] ++ rest.filterMap EntryPoint.integration)
      (eps.filterMap EntryPoint.integration) :=
    (((List.sublist_cons_self ep rest).filterMap _).append_left _).trans order
  have none_ : List.Sublist (s.setUps ++ [] ++ ([] : List EntryPoint).filterMap EntryPoint.integration)
      (eps.filterMap EntryPoint.integration) :=
    (((List.nil_sublist rest).filterMap _).append_left _).trans shorter
  unfold State.load
  split
  · exact orderly_early rfl calls held torn shorter welcome (List.subset_of_cons_subset coming) orderly.ready
  · rename_i wanted
    split
    · refine orderly_early rfl calls held torn shorter welcome (List.subset_of_cons_subset coming) ?_
      exact ready_put (by decide) orderly.ready
    · rename_i integration loaded
      split
      · exact orderly_early rfl calls held torn none_ welcome (List.nil_subset _) orderly.ready
      · rename_i versions told
        split
        · rename_i fitting
          refine orderly_early rfl calls held torn ?_ ?_ (List.subset_of_cons_subset coming) orderly.ready
          · rw [List.append_nil,List.filterMap_cons_some loaded] at order
            show List.Sublist (s.setUps ++ [integration] ++ rest.filterMap EntryPoint.integration) _
            rw [List.append_assoc]
            exact order
          · intro other inside
            rcases List.mem_append.mp inside with before | new
            · exact orderly.welcome other (List.mem_append_left _ before)
            · rw [List.mem_singleton.mp new]
              exact ⟨ep,coming List.mem_cons_self,by simpa using wanted,loaded,versions,told,fitting⟩
        · refine orderly_early rfl calls held torn shorter welcome (List.subset_of_cons_subset coming) ?_
          exact ready_put (by decide) orderly.ready

theorem orderly_setUp {integration : Integration} {rest : List EntryPoint} (orderly : Orderly int enabled eps s)
    (at_ : s.phase = .settingUp integration rest) (ok : Bool) : Orderly int enabled eps
      (if ok then { s.put integration.name .ready with
          phase := .loading rest
          integrations := s.integrations ++ [integration]
          setUps := s.setUps ++ [integration] }
        else { s.put integration.name .degraded with phase := .loading rest }) := by
  have early : s.phase.open_ = false := by rw [at_]; rfl
  obtain ⟨held,torn,calls⟩ := orderly.early early
  have order : List.Sublist (s.setUps ++ [integration] ++ rest.filterMap EntryPoint.integration)
      (eps.filterMap EntryPoint.integration) := by
    have order := orderly.order
    rw [at_] at order
    exact order
  have coming : rest ⊆ eps := by
    have coming := orderly.coming
    rw [at_] at coming
    exact coming
  have welcome : ∀ other ∈ s.setUps ++ [integration], Welcome int enabled eps other := by
    have welcome := orderly.welcome
    rw [at_] at welcome
    exact welcome
  split
  · refine orderly_early rfl calls (congrArg (· ++ [integration]) held) torn ?_ ?_ coming ?_
    · show List.Sublist (s.setUps ++ [integration] ++ [] ++ rest.filterMap EntryPoint.integration) _
      rw [List.append_nil]
      exact order
    · show ∀ other ∈ s.setUps ++ [integration] ++ [], Welcome int enabled eps other
      rw [List.append_nil]
      exact welcome
    · intro name same
      by_cases mine : name = integration.name
      · exact ⟨integration,List.mem_append_right _ List.mem_cons_self,mine.symm⟩
      · have before : s.status name = some .ready := (Function.update_of_ne mine _ _).symm.trans same
        obtain ⟨other,inside,named⟩ := orderly.ready name before
        exact ⟨other,List.mem_append_left _ inside,named⟩
  · refine orderly_early rfl calls held torn ?_ ?_ coming (ready_put (by decide) orderly.ready)
    · refine List.Sublist.trans ?_ order
      exact ((List.nil_sublist [integration]).append_left _).append_right _
    · show ∀ other ∈ s.setUps ++ [], Welcome int enabled eps other
      rw [List.append_nil]
      exact fun other inside => welcome other (List.mem_append_left _ inside)

theorem Orderly.withCalls (orderly : Orderly int enabled eps s) (opened : s.phase.open_ = true) {calls : List (Call ρ)}
    (fair : ∀ call ∈ calls, call.Fair s.setUps (s.phase = .closed)) :
    Orderly int enabled eps { s with calls := calls } :=
  { orderly with
    asked := fair
    quiet := fun early => by cases opened.symm.trans early }

theorem Orderly.setCall (orderly : Orderly int enabled eps s) {n : Nat} {old : Call ρ}
    (found : s.calls[n]? = some old) (call : Call ρ) (fair : call.Fair s.setUps (s.phase = .closed)) :
    Orderly int enabled eps (s.set n call) := by
  have inside := List.mem_of_getElem? found
  have opened : s.phase.open_ = true := by
    cases early : s.phase.open_ with
    | true => rfl
    | false =>
      rw [orderly.quiet early] at inside
      cases inside
  refine orderly.withCalls opened fun other present => ?_
  rcases List.mem_or_eq_of_mem_set present with before | rfl
  · exact orderly.asked other before
  · exact fair

theorem orderly_stop {rest : List Integration} {tearDowns : List Integration} (orderly : Orderly int enabled eps s)
    (unclosed : s.phase ≠ .closed) (nothing : s.phase.coming = [] ∧ s.phase.waiting = [])
    (left : s.setUps.reverse = tearDowns ++ rest) :
    Orderly int enabled eps { s.stop rest with tearDowns := tearDowns } := by
  have held := orderly.unclosed unclosed
  have order := orderly.order
  have welcome := orderly.welcome
  rw [nothing.1,nothing.2] at order
  rw [nothing.2] at welcome
  cases rest with
  | nil =>
    rw [List.append_nil] at left
    exact ⟨order,welcome,List.nil_subset _,.inl ⟨rfl,rfl⟩,left,
      fun call inside => (orderly.asked call inside).closing fun _ => rfl,fun early => (by cases early),orderly.ready⟩
  | cons integration rest =>
    exact ⟨order,welcome,List.nil_subset _,.inr ⟨fun same => (by cases same),held⟩,left,
      fun call inside => (orderly.asked call inside).closing fun closed => absurd closed unclosed,
      fun early => (by cases early),orderly.ready⟩

theorem orderly_opened (orderly : Orderly int enabled eps s) (at_ : s.phase = .loading []) :
    Orderly int enabled eps { s with phase := .serving } := by
  have early : s.phase.open_ = false := by rw [at_]; rfl
  obtain ⟨held,torn,calls⟩ := orderly.early early
  have order := orderly.order
  have welcome := orderly.welcome
  rw [at_] at order welcome
  refine ⟨order,welcome,List.nil_subset _,.inr ⟨fun same => (by cases same),held⟩,torn,?_,
    fun same => (by cases same),orderly.ready⟩
  intro call inside
  rw [calls] at inside
  cases inside

theorem orderly_close (orderly : Orderly int enabled eps s) (at_ : s.phase = .serving) :
    Orderly int enabled eps (s.stop s.integrations.reverse) := by
  have unclosed : s.phase ≠ .closed := by
    rw [at_]
    exact fun same => by cases same
  have torn : s.tearDowns = [] := by
    have torn := orderly.torn
    rw [at_] at torn
    exact torn
  have left : s.setUps.reverse = s.tearDowns ++ s.integrations.reverse := by
    rw [torn,orderly.unclosed unclosed,List.nil_append]
  have stopped := orderly_stop orderly unclosed (by rw [at_]; exact ⟨rfl,rfl⟩) left
  cases rest : s.integrations.reverse with
  | nil => rw [rest] at stopped; exact stopped
  | cons integration others => rw [rest] at stopped; exact stopped

theorem orderly_step {event : Event ρ} {next : State ρ} (orderly : Orderly int enabled eps s)
    (stepped : step int enabled s event = some next) : Orderly int enabled eps next := by
  cases event with
  | loads =>
    simp only [step] at stepped
    split at stepped
    · rename_i at_
      cases stepped
      exact orderly_opened orderly at_
    · rename_i at_
      cases stepped
      exact orderly_loads orderly at_
    · cases stepped
  | setUp ok =>
    simp only [step] at stepped
    split at stepped
    · rename_i at_
      rw [← Option.some.inj stepped]
      exact orderly_setUp orderly at_ ok
    · cases stepped
  | close =>
    simp only [step] at stepped
    split at stepped
    · rename_i at_
      cases stepped
      exact orderly_close orderly at_
    · cases stepped
  | tornDown =>
    simp only [step] at stepped
    split at stepped
    · rename_i integration rest at_
      cases stepped
      have torn := orderly.torn
      rw [at_] at torn
      refine orderly_stop orderly (by rw [at_]; exact fun same => (by cases same))
        (by rw [at_]; exact ⟨rfl,rfl⟩) ?_
      rw [List.append_assoc]
      exact torn
    · cases stepped
  | handle =>
    simp only [step] at stepped
    split at stepped
    · rename_i opened
      cases stepped
      refine orderly.withCalls opened fun call inside => ?_
      rcases List.mem_append.mp inside with before | new
      · exact orderly.asked call before
      · rw [List.mem_singleton.mp new]
        exact orderly.next (List.nil_prefix)
    · cases stepped
  | answers n result =>
    simp only [step] at stepped
    split at stepped
    · rename_i passed current found
      have fair : passed ++ [current] <+: s.setUps := orderly.asked _ (List.mem_of_getElem? found)
      cases result with
      | some result =>
        cases stepped
        exact orderly.setCall found (.answered passed current result) fair
      | none =>
        cases stepped
        exact orderly.setCall found _ (orderly.next fair)
    · cases stepped
  | cancels n =>
    simp only [step] at stepped
    split at stepped
    · rename_i passed current found
      cases stepped
      have fair : passed ++ [current] <+: s.setUps := orderly.asked _ (List.mem_of_getElem? found)
      exact orderly.setCall found (.cancelled passed current) fair
    · cases stepped

-- However setting up, asking, tearing down and cancelling take turns: only wanted
-- integrations of the daemon's version are set up, in the order of their entry points;
-- each is torn down once, in the opposite order, and all of them by the end; and every
-- call asks them in order, up to the first that answers.
theorem registry_orderly (reached : Reachable (registry int enabled) (start eps) s) :
    Orderly int enabled eps s := by
  apply reached.invariant orderly_start
  intro s event next orderly _ stepped
  exact orderly_step orderly stepped

end

def idle : Integration := ⟨"idle",some ["1.0"]⟩
def mako : Integration := ⟨"mako",some ["1.2"]⟩

def twoIntegrations : List (Event Nat) :=
  [.loads,.setUp true,.loads,.loads,.setUp true,.loads,.handle,.answers 0 none,.close,.tornDown,.handle,.tornDown,
    .answers 0 (some 7),.answers 1 none]

theorem registry_orderly_closed : ∃ s : State Nat, s.setUps = [idle,mako] ∧ s.tearDowns = [mako,idle] ∧
    Orderly Handshake.oneOrTwo none [⟨"idle",some idle⟩,⟨"fuzzel",none⟩,⟨"mako",some mako⟩] s := by
  have played : ((registry Handshake.oneOrTwo none).play
      (start [⟨"idle",some idle⟩,⟨"fuzzel",none⟩,⟨"mako",some mako⟩]) twoIntegrations).any (fun s =>
        s.setUps == [idle,mako] && s.tearDowns == [mako,idle]) = true := by
    decide +kernel
  obtain ⟨s,run,shown⟩ := System.found played
  rw [Bool.and_eq_true,beq_iff_eq,beq_iff_eq] at shown
  exact ⟨s,shown.1,shown.2,registry_orderly run⟩

end HyprlandAgent.Registry
