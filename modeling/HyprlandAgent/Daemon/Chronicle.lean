import HyprlandAgent.Daemon.Ending

-- What any state of the daemon says about a run: nothing yet, its records while
-- the body is at work, or its records after the end.
namespace HyprlandAgent
open Coroutine RunExecutor Orchestrator
variable {h : Host} {run : RunId} {stop : Bool} {focused : Option Window} {rules : List AllowRule}
  {l : Loop effects TaskId World}

inductive Chapter (run : RunId) (l : Loop effects TaskId World) : Prop where
  | opening (unbegun : (l.world.ledgers run).begun = false)
      (state : Barren run l.world ∨ Steady run (handedOver run) l.world) : Chapter run l
  | running {program : Async Unit} {c : Bool} {o : Origin} {issued : List RunStatus} {tail : List Dict}
      {decided : Option RunStatus} {cut : Bool}
      (live : l.tasks (bodyOf run) = some (.live program c)) (shape : Tail run o issued tail)
      (records : closing run o issued tail decided cut l.world) : Chapter run l
  | ended {result : Except Exc Unit} (finished : l.tasks (bodyOf run) = some (.finished result))
      (records : Ended run l.world) : Chapter run l

theorem daemon_records (path : Reached (daemon h) (boot stop focused rules) l) (run : RunId) :
    Tracks (bodyOf run) (body h run) (observed run)
      (fun _ w => (w.ledgers run).begun = true → Ended run w) l :=
  body_reached (fun _ _ _ outer ended => outer.ended ended) (fun _ _ _ rely ended => rely.ended ended)
    runTask_triple path

theorem unbegun_opening (path : Reached (daemon h) (boot stop focused rules) l)
    (unbegun : (l.world.ledgers run).begun = false) :
    Barren run l.world ∨ Steady run (handedOver run) l.world := by
  have born := daemon_born path run
  have fresh : asleep run l → Barren run l.world := by
    intro sleeping
    refine (born.dormant sleeping).barren ?_
    intro state same
    subst same
    exact ⟨rfl,rfl,rfl,rfl,rfl,rfl,rfl,rfl⟩
  cases found : l.tasks ⟨run,.submit⟩ with
  | none => exact .inl (fresh (.inl found))
  | some task =>
    cases task with
    | created program c => exact .inl (fresh (.inr ⟨program,c,found⟩))
    | live program c =>
      have ordered := disciplined_reached boot_disciplined path
      obtain ⟨op,more,rfl⟩ := ordered.standing _ _ _ found
      rcases (holds_pre (born.told.1 _ _ found)).barren with begun | barren
      · rw [unbegun] at begun
        cases begun
      · exact .inl barren
    | finished result =>
      rcases born.told.2 result found with begun | left
      · rw [unbegun] at begun
        cases begun
      cases result with
      | ok value => exact .inr left
      | error exc =>
        rcases left with ⟨_,barren⟩ | steady
        · exact .inl barren
        · refine .inl (steady.barren ?_)
          intro state same
          subst same
          exact ⟨rfl,rfl,rfl,rfl,rfl,rfl,rfl,rfl⟩

theorem daemon_chapter (path : Reached (daemon h) (boot stop focused rules) l) (run : RunId) :
    Chapter run l := by
  have born := daemon_born path run
  cases begun : (l.world.ledgers run).begun with
  | false => exact .opening begun (unbegun_opening path begun)
  | true =>
    obtain ⟨stands,left⟩ := daemon_records path run
    cases found : l.tasks (bodyOf run) with
    | none =>
      have unbegun : (l.world.ledgers run).begun = false := congrArg Prod.fst (born.unlaunched found)
      rw [begun] at unbegun
      cases unbegun
    | some task =>
      cases task with
      | created program c =>
        obtain ⟨_,_,_,marked,_⟩ := born.created _ _ found
        have unbegun : (l.world.ledgers run).begun = false := congrArg Prod.fst marked
        rw [begun] at unbegun
        cases unbegun
      | live program c =>
        have ordered := disciplined_reached boot_disciplined path
        obtain ⟨op,more,rfl⟩ := ordered.standing _ _ _ found
        obtain ⟨o,issued,tail,decided,cut,shape,records⟩ := holds_pre (stands _ _ found)
        exact .running found shape records
      | finished result => exact .ended found (left result found begun)

end HyprlandAgent
