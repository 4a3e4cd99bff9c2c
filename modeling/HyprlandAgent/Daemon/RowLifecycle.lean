import HyprlandAgent.Daemon.Chronicle
import HyprlandAgent.Daemon.Rehearsal

-- Rows that say running: who still looks after them, and how one is left behind.
namespace HyprlandAgent
open Coroutine RunExecutor
variable {h : Host} {run : RunId} {w : World} {stop : Bool} {focused : Option Window}
  {rules : List AllowRule} {l : Loop effects TaskId World}

-- The submission is in progress, or the body is created and not done.
def Attended (run : RunId) (l : Loop effects TaskId World) : Prop :=
  (l.phases ⟨run,.submit⟩).active = true ∨ (l.phases (bodyOf run)).active = true

-- Nothing went wrong that would leave the row to itself: the brain could be had, no
-- insertion landed behind its caller's back, the body was not cancelled before its
-- first step, and its last status write was not lost.
structure Unabandoned (run : RunId) (l : Loop effects TaskId World) : Prop where
  brain : (l.world.ledgers run).brainRaised = false
  insertion : (l.world.ledgers run).insertCut = false
  entered : ∀ result, l.tasks (bodyOf run) = some (.finished result) → (l.world.ledgers run).begun = true
  status : (l.world.ledgers run).statusLost = false

theorem Ended.status (ended : Ended run w) (kept : (w.ledgers run).statusLost = false) :
    ∃ status, (w.cells run).rows.status = some status ∧ status.terminal = true := by
  have settled : ∀ {o issued tail decided cut status}, issued.getLast? = some status →
      closing run o issued tail decided cut w →
      ∃ status, (w.cells run).rows.status = some status ∧ status.terminal = true := by
    intro o issued tail decided cut status last records
    have asked : issued ≠ [] := List.ne_nil_of_mem (List.mem_of_getLast? last)
    obtain ⟨final,ends⟩ := Option.isSome_iff_exists.mp
      (List.getLast?_isSome.mpr (records.kept kept asked))
    refine ⟨final,?_,records.final final (records.commits final (List.mem_of_getLast? ends))⟩
    rw [records.row,ends]
    rfl
  cases ended with
  | broken last shape records => exact settled last records
  | whole last shape records outcomes => exact settled last records

theorem steady_rowless (steady : Steady run (· = ({},{})) w) : (w.cells run).rows.status = none :=
  congrArg (fun state => state.1.rows.status) steady.1

theorem unbegun_active (born : Born h run l) (unbegun : (l.world.ledgers run).begun = false)
    (launched : (l.world.ledgers run).launched ≠ none)
    (entered : ∀ result, l.tasks (bodyOf run) = some (.finished result) →
      (l.world.ledgers run).begun = true) : (l.phases (bodyOf run)).active = true := by
  cases found : l.tasks (bodyOf run) with
  | none => exact absurd (congrArg Prod.snd (born.unlaunched found)) launched
  | some task =>
    cases task with
    | created program c =>
      unfold Loop.phases
      rw [found]
      rfl
    | live program c =>
      have begun := born.live program c found
      rw [unbegun] at begun
      cases begun
    | finished result =>
      have begun := entered result found
      rw [unbegun] at begun
      cases begun

-- In every state reached, a row that says running is attended, unless something
-- abandoned it.
theorem running_attended (path : Reached (daemon h) (boot stop focused rules) l) (run : RunId)
    (running : (l.world.cells run).rows.status = some .running) (unabandoned : Unabandoned run l) :
    Attended run l := by
  have born := daemon_born path run
  cases daemon_chapter path run with
  | running live shape records =>
    right
    unfold Loop.phases
    rw [live]
    rfl
  | ended finished ended =>
    obtain ⟨status,row,terminal⟩ := ended.status unabandoned.status
    rw [running] at row
    cases row
    cases terminal
  | opening unbegun state =>
    cases found : l.tasks ⟨run,.submit⟩ with
    | none =>
      rw [steady_rowless (born.dormant (.inl found))] at running
      cases running
    | some task =>
      cases task with
      | created program c =>
        left
        unfold Loop.phases
        rw [found]
        rfl
      | live program c =>
        left
        unfold Loop.phases
        rw [found]
        rfl
      | finished result =>
        rcases born.told.2 result found with begun | left
        · rw [unbegun] at begun
          cases begun
        · cases result with
          | ok value =>
            right
            refine unbegun_active born unbegun ?_ unabandoned.entered
            obtain ⟨⟨kind,task,brainName,brain,startedAt,same⟩,_⟩ := left
            have launched : (l.world.ledgers run).launched = some (kind,task,brain) :=
              congrArg (fun state => state.2.launched) same
            rw [launched]
            exact Option.some_ne_none _
          | error exc =>
            rcases left with ⟨⟨_,raised | cut⟩,_⟩ | fresh
            · rw [unabandoned.brain] at raised
              cases raised
            · rw [unabandoned.insertion] at cut
              cases cut
            · rw [steady_rowless fresh] at running
              cases running

theorem running_attended_rehearsed : ∃ l, Reached (daemon plainHost) idle l ∧
    (l.world.cells "r").rows.status = some .running ∧ Attended "r" l := by
  have played : (drive (daemon plainHost) idle (begins .run ++ works 20)).any (fun l =>
      (l.world.cells "r").rows.status == some .running && (!(l.world.ledgers "r").brainRaised &&
        (!(l.world.ledgers "r").insertCut && (phaseOf (l.tasks (bodyOf "r")) == .live &&
          !(l.world.ledgers "r").statusLost)))) = true := by
    decide +kernel
  obtain ⟨l,path,shown⟩ := rehearsed played
  simp only [Bool.and_eq_true,beq_iff_eq,Bool.not_eq_true'] at shown
  obtain ⟨row,brain,insertion,live,status⟩ := shown
  refine ⟨l,path,row,running_attended path "r" row ⟨brain,insertion,?_,status⟩⟩
  intro result finished
  rw [finished] at live
  cases live

def brainless : List Cue :=
  (opens .run).take 5 ++ [raises ⟨"r",.submit⟩ (.other "No API key") .dropped]

def unentered : List Cue := opens .run ++ [calls (.cancel "r"),starts (bodyOf "r")]

theorem running_unattended :
    (∃ l, Reached (daemon plainHost) idle l ∧ (l.world.cells "r").rows.status = some .running ∧
      (l.world.ledgers "r").brainRaised = true ∧ ¬ Attended "r" l) ∧
    ∃ l, Reached (daemon plainHost) idle l ∧ (l.world.cells "r").rows.status = some .running ∧
      (l.world.ledgers "r").begun = false ∧ ¬ Attended "r" l := by
  have brain : (drive (daemon plainHost) idle brainless).any (fun l =>
      (l.world.cells "r").rows.status == some .running && ((l.world.ledgers "r").brainRaised &&
        !((l.phases ⟨"r",.submit⟩).active || (l.phases (bodyOf "r")).active))) = true := by
    decide +kernel
  have early : (drive (daemon plainHost) idle unentered).any (fun l =>
      (l.world.cells "r").rows.status == some .running && (!(l.world.ledgers "r").begun &&
        !((l.phases ⟨"r",.submit⟩).active || (l.phases (bodyOf "r")).active))) = true := by
    decide +kernel
  obtain ⟨l,path,shown⟩ := rehearsed brain
  obtain ⟨l',path',shown'⟩ := rehearsed early
  simp only [Bool.and_eq_true,beq_iff_eq,Bool.not_eq_true'] at shown shown'
  refine ⟨⟨l,path,shown.1,shown.2.1,?_⟩,l',path',shown'.1,shown'.2.1,?_⟩
  · simpa [Attended] using shown.2.2
  · simpa [Attended] using shown'.2.2

end HyprlandAgent
