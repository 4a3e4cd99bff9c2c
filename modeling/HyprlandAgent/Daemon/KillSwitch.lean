import HyprlandAgent.Daemon.Chronicle
import HyprlandAgent.Daemon.Rehearsal

-- The kill switch: how many actions a run still starts once the flag is armed.
namespace HyprlandAgent
open Coroutine RunExecutor Orchestrator
variable {h : Host} {run : RunId} {w next : World} {slack : Nat} {alert : Bool} {stop : Bool}
  {focused : Option Window} {rules : List AllowRule} {l : Loop effects TaskId World}

abbrev counters (past : Ledger) : Bool × Nat × Option Nat := (past.begun,past.started,past.watch)

-- An armed run starts at most `slack` further actions; an alert one still faces
-- the flag or a cancellation.
structure Heeding (run : RunId) (slack : Nat) (alert : Bool) (s : World × Bool) : Prop where
  begun : (s.1.ledgers run).begun = true
  bound : ∀ n, (s.1.ledgers run).watch = some n → (s.1.ledgers run).started ≤ n + slack
  alarm : alert = true → (s.1.ledgers run).watch = none ∨ s.1.stop = true ∨ s.2 = true

theorem counters_unwritten : Unwritten counters where
  issue := by
    intro write failed fate past
    cases write with
    | upsertRunOutcome outcome score source rationale => cases source <;> rfl
    | _ => rfl
  commit := by
    intro write now past
    cases write <;> rfl

theorem Heeding.kept {s t : World × Bool} (heeding : Heeding run slack alert s)
    (same : counters (t.1.ledgers run) = counters (s.1.ledgers run))
    (alarm : s.1.stop = true ∨ s.2 = true → t.1.stop = true ∨ t.2 = true) :
    Heeding run slack alert t := by
  simp only [counters,Prod.mk.injEq] at same
  obtain ⟨begun,started,watch⟩ := same
  refine ⟨begun.trans heeding.begun,?_,?_⟩
  · rw [started,watch]
    exact heeding.bound
  · intro alerted
    rw [watch]
    exact (heeding.alarm alerted).imp id alarm

theorem Heeding.unwatched {s t : World × Bool} (heeding : Heeding run slack alert s)
    (begun : (t.1.ledgers run).begun = (s.1.ledgers run).begun)
    (watch : (t.1.ledgers run).watch = none) : Heeding run slack alert t := by
  refine ⟨begun.trans heeding.begun,?_,fun _ => .inl watch⟩
  intro n watched
  rw [watch] at watched
  cases watched

theorem Heeding.spent {s t : World × Bool} (heeding : Heeding run slack alert s)
    (same : counters (t.1.ledgers run) = counters (s.1.ledgers run)) : Heeding run slack false t := by
  simp only [counters,Prod.mk.injEq] at same
  obtain ⟨begun,started,watch⟩ := same
  refine ⟨begun.trans heeding.begun,?_,fun impossible => absurd impossible Bool.false_ne_true⟩
  rw [started,watch]
  exact heeding.bound

theorem Heeding.relaxed {s : World × Bool} (heeding : Heeding run slack alert s) :
    Heeding run slack false s := heeding.spent rfl

theorem Heeding.more {s : World × Bool} (heeding : Heeding run slack alert s) (bounded : slack ≤ 1) :
    Heeding run 1 alert s := by
  refine ⟨heeding.begun,?_,heeding.alarm⟩
  intro n watched
  have bound := heeding.bound n watched
  omega

theorem Drift.heeding (drift : Drift h run w next) (heeding : Heeding run slack alert (w,c)) :
    Heeding run slack alert (next,c) := by
  have begun : (next.ledgers run).begun = (w.ledgers run).begun := by rw [drift.ledger]
  have started : (next.ledgers run).started = (w.ledgers run).started := by rw [drift.ledger]
  rcases drift.flag with ⟨stop,watch⟩ | ⟨_,unwatched⟩
  · apply heeding.kept (by simp [begun,started,watch])
    rw [stop]
    exact id
  · exact heeding.unwatched begun unwatched

theorem Armed.heeding (armed : Armed run w next) (heeding : Heeding run slack alert (w,c)) :
    Heeding run slack alert (next,c) := by
  rcases armed.ledger with same | watched
  · exact heeding.kept (by rw [same]) fun _ => .inl armed.stop
  · refine ⟨?_,?_,fun _ => .inr (.inl armed.stop)⟩
    · rw [watched]
      exact heeding.begun
    · rw [watched]
      intro n marked
      cases before : (w.ledgers run).watch with
      | none =>
        rw [before] at marked
        have same : (w.ledgers run).started = n := Option.some.inj marked
        simp only [same]
        omega
      | some m =>
        rw [before] at marked
        have same : m = n := Option.some.inj marked
        exact heeding.bound n (same ▸ before)

theorem Landed.aside (landed : Landed run w next) : Aside w next := by
  obtain ⟨index,job,now,found,rfl⟩ := landed
  cases committed : (w.atCell run fun cell =>
      { cell with orphans := cell.orphans.eraseIdx index }).commit run now job with
  | none => exact ⟨rfl,rfl,rfl⟩
  | some after =>
    obtain ⟨⟨focused,rules,stop⟩,_⟩ := World.commit_aside committed
    exact ⟨focused,rules,stop⟩

theorem Outer.heeding (outer : Outer h run w next) (heeding : Heeding run slack alert (w,c)) :
    Heeding run slack alert (next,c) := by
  cases outer with
  | drift drift => exact drift.heeding heeding
  | armed armed => exact armed.heeding heeding
  | landed landed =>
    apply heeding.kept (counters_unwritten.landed landed)
    rw [landed.aside.stop]
    exact id

theorem Rely.heeding {excuse : World → World → Prop} {s t : World × Bool}
    (rely : Rely h run excuse s t) (heeding : Heeding run slack alert s) :
    Heeding run slack alert t ∨ excuse s.1 t.1 := by
  cases rely with
  | drift drift => exact .inl (drift.heeding heeding)
  | remarked remarked =>
    refine .inl (heeding.kept (by rw [remarked.ledger]) ?_)
    rw [remarked.stop]
    exact id
  | requested requested => exact .inl (heeding.kept (by rw [requested.ledger]) fun _ => .inr rfl)
  | polled polled => exact .inl (heeding.kept (by rw [polled.ledger]) fun _ => .inr rfl)
  | excused excused => exact .inr excused

theorem heeding_stable (op : Op) : Stable ((body h run).env op) (Heeding run slack alert) := by
  intro s t moved heeding
  rcases moved with ⟨outer,same⟩ | ⟨_,rely⟩
  · have after : Heeding run slack alert (t.1,s.2) := outer.heeding heeding
    rw [← same] at after
    exact after
  · rcases rely.heeding heeding with after | ⟨unbegun,_⟩
    · exact after
    · rw [heeding.begun] at unbegun
      cases unbegun

abbrev heedful (run : RunId) (_ : Op) (s : World × Bool) : Prop := Heeding run 1 false s

theorem perform_counters {i : TaskId} {op : Op} {reply : effects.Reply op}
    (performed : w.perform h i op reply choice = some next) (kept : op ≠ .unlinkFlag)
    (other : ∀ kind, op ≠ .checkLimit kind) (run : RunId) :
    counters (next.ledgers run) = counters (w.ledgers run) ∧ next.stop = w.stop ∧
      next.erasures = w.erasures := by
  cases effect_happened (World.perform_effect performed) with
  | nothing => exact ⟨rfl,rfl,rfl⟩
  | @marked op reply choice change misses marks uncounted =>
    have keeps : ∀ past, counters (change past) = counters past := by
      intro past
      have started := uncounted other past
      obtain ⟨_,_,_,_,_,_,same⟩ := marks past
      rw [same] at started ⊢
      simp only [counters,Prod.mk.injEq] at started ⊢
      exact ⟨trivial,started,trivial⟩
    exact ⟨note_part counters keeps run,rfl,rfl⟩
  | held owned looped => exact ⟨rfl,rfl,rfl⟩
  | refocused focused => exact ⟨rfl,rfl,rfl⟩
  | disarmed => exact absurd rfl kept
  | created =>
    refine ⟨note_part counters ?_ run,rfl,rfl⟩
    intro past
    rfl
  | wrote answered =>
    obtain ⟨aside,erasures⟩ := World.wrote_aside answered
    exact ⟨counters_unwritten.wrote answered run,aside.stop,erasures⟩
  | audited answered =>
    obtain ⟨aside,erasures⟩ := World.answer_aside answered
    exact ⟨counters_unwritten.answered answered run,aside.stop,erasures⟩

theorem heeding_perform {op : Op} (bounded : slack ≤ 1) (kept : op ≠ .unlinkFlag)
    (other : ∀ kind, op ≠ .checkLimit kind) :
    Triple (body h run) (heedful run) (Heeding run slack alert) (perform op)
      (ending (fun _ => Heeding run slack alert)
        (onCancel (Heeding run slack false) (Heeding run slack alert))) := by
  apply Triple.perform (heeding_stable op)
  · intro s heeding
    exact heeding.relaxed.more bounded
  · intro s reply t heeding acted
    obtain ⟨delivered,_,_,choice,performed⟩ := acted
    obtain ⟨same,flag,_⟩ := perform_counters performed kept other run
    have uncancelled : replyCancelled (daemon h) reply = false → Heeding run slack alert t := by
      intro plain
      apply heeding.kept same
      rw [flag]
      intro either
      rcases either with armed | cancelled
      · exact .inl armed
      · rw [← delivered,plain] at cancelled
        cases cancelled
    cases reply with
    | ok value => exact uncancelled rfl
    | error exc =>
      cases exc with
      | cancelled => exact heeding.spent same
      | _ => exact uncancelled rfl

theorem heed_disarm : Triple (body h run) (heedful run) (Heeding run 1 true) (perform .unlinkFlag)
    (ending (fun _ => Heeding run 1 true) fun _ => Heeding run 1 false) := by
  apply Triple.perform (heeding_stable _) (fun s heeding => heeding.relaxed)
  intro s reply t heeding acted
  obtain ⟨_,calm,_,choice,performed⟩ := acted
  have uncancelled := calm rfl
  have done := World.perform_effect performed
  cases reply with
  | error exc =>
    have same : s.1 = t.1 := Option.some.inj done
    exact heeding.spent (by rw [same])
  | ok value =>
    have moved : s.1.disarm = t.1 := Option.some.inj done
    have begun : (t.1.ledgers run).begun = (s.1.ledgers run).begun := by
      rw [← moved]
      unfold World.disarm
      split <;> rfl
    apply heeding.unwatched begun
    rw [← moved]
    unfold World.disarm
    split
    · rfl
    · rename_i unarmed
      rcases heeding.alarm rfl with unwatched | armed | cancelling
      · exact unwatched
      · exact absurd armed unarmed
      · rw [uncancelled] at cancelling
        cases cancelling

theorem heed_check : Triple (body h run) (heedful run) (Heeding run 1 true) (perform .isStopped)
    (ending (fun stopped s => if stopped then Heeding run 1 false s else Heeding run 0 true s)
      fun _ => Heeding run 1 false) := by
  apply Triple.perform (heeding_stable _) (fun s heeding => heeding.relaxed)
  intro s reply t heeding acted
  obtain ⟨_,calm,_,choice,performed⟩ := acted
  have uncancelled := calm rfl
  obtain ⟨same,flag,_⟩ := perform_counters performed (by simp) (by simp) run
  have done := World.perform_effect performed
  cases reply with
  | error exc => exact heeding.spent same
  | ok stopped =>
    cases stopped with
    | true => exact heeding.spent same
    | false =>
      simp only [World.effect] at done
      split at done
      · rename_i unarmed
        have unwatched : (s.1.ledgers run).watch = none := by
          rcases heeding.alarm rfl with unwatched | armed | cancelling
          · exact unwatched
          · rw [← unarmed] at armed
            cases armed
          · rw [uncancelled] at cancelling
            cases cancelling
        simp only [counters,Prod.mk.injEq] at same
        obtain ⟨begun,_,watch⟩ := same
        refine ⟨begun.trans heeding.begun,?_,fun _ => .inl (watch.trans unwatched)⟩
        intro n watched
        rw [watch,unwatched] at watched
        cases watched
      · cases done

theorem heed_limit (kind : String) :
    Triple (body h run) (heedful run) (Heeding run 0 true) (perform (.checkLimit kind))
      (ending (fun _ => Heeding run 1 true) fun _ => Heeding run 1 false) := by
  refine Triple.perform (heeding_stable _) (fun s heeding => (heeding.more (by omega)).relaxed) ?_
  intro s reply t heeding acted
  obtain ⟨_,calm,_,choice,performed⟩ := acted
  have uncancelled := calm rfl
  have done := World.perform_effect performed
  cases reply with
  | error exc => cases done
  | ok value =>
    have moved : (s.1.note run fun past => { past with started := past.started + 1 }) = t.1 :=
      Option.some.inj done
    refine ⟨?_,?_,?_⟩
    · rw [← moved,World.note_same]
      exact heeding.begun
    · rw [← moved,World.note_same]
      intro n watched
      have bound := heeding.bound n watched
      simp only
      omega
    · intro alerted
      rw [← moved,World.note_same,World.note_stop]
      rcases heeding.alarm alerted with unwatched | armed | cancelling
      · exact .inl unwatched
      · exact .inr (.inl armed)
      · rw [uncancelled] at cancelling
        cases cancelling

def obedience (run : RunId) : Outline (World × Bool) where
  fresh := Heeding run 1 true
  before := Heeding run 1 true
  seen := fun _ => Heeding run 1 true
  going := Heeding run 1 true
  checked := Heeding run 0 true
  leaving := Heeding run 1 false
  cut := Heeding run 1 false
  elapsed := Heeding run 1 false
  broken := Heeding run 1 false

theorem heeding_step {op : Op} (bounded : slack ≤ 1) (kept : op ≠ .unlinkFlag)
    (other : ∀ kind, op ≠ .checkLimit kind) :
    Triple (body h run) (heedful run) (Heeding run slack alert) (perform op)
      (ending (fun _ => Heeding run slack alert) fun _ => Heeding run 1 false) := by
  refine (heeding_perform bounded kept other).relax (fun _ _ reached => reached) ?_
  apply onCancel_either
  · intro s reached
    exact reached.more bounded
  · intro s reached
    exact reached.relaxed.more bounded

theorem obedience_sound (h : Host) (run : RunId) :
    (obedience run).Sound (body h run) (heedful run) (contextOf h run) := by
  have tells : ∀ {slack alert} kind payload, slack ≤ 1 →
      Triple (body h run) (heedful run) (Heeding run slack alert) ((contextOf h run).emit kind payload)
        (ending (fun _ => Heeding run slack alert) fun _ => Heeding run 1 false) := by
    intro slack alert kind payload bounded
    refine emit_around ?_ kind payload
    intro op emission
    apply heeding_step bounded
    · cases emission <;> simp
    · cases emission <;> simp
  refine
    { disarm := heed_disarm
      mkdir := heeding_step le_rfl (by simp) (by simp)
      look := heeding_step le_rfl (by simp) (by simp)
      unfocused := fun _ seen => seen
      gate := ?_
      emit := ?_
      done := (tells "done" ∅ le_rfl).relax (fun _ _ reached => reached.relaxed) fun _ _ reached => reached
      act := ?_
      cleanup := ?_
      check := ?_
      configure := fun tool => heeding_step (Nat.zero_le 1) (by simp) (by simp)
      limit := heed_limit
      relax := fun _ checked => checked.more (Nat.zero_le 1)
      fail := fun _ going => going.relaxed
      abandon := fun _ cut => cut }
  · intro window
    refine (heeding_step le_rfl (by simp) (by simp)).relax ?_ fun _ _ reached => reached
    intro allowed s reached
    cases allowed with
    | true => exact reached
    | false => exact reached.relaxed
  · intro X emits kind payload _ _
    cases emits with
    | checked => exact tells kind payload (Nat.zero_le 1)
    | _ => exact tells kind payload le_rfl
  · intro op desktop
    apply heeding_perform le_rfl
    · cases desktop <;> simp
    · cases desktop <;> simp
  · intro tool
    refine (heeding_step le_rfl (by simp) (by simp)).mono ?_
    intro result s reached
    cases result <;> exact reached
  · apply heed_check.mono
    intro result s reached
    cases result with
    | ok stopped => cases stopped <;> exact reached
    | error exc => exact reached

theorem runTask_heedful (kind : RunKind) (task : String) (brain : Brain) :
    Triple (body h run) (heedful run) (Heeding run 1 true) (runTask h run kind task brain)
      fun _ => Heeding run 1 false := by
  have orchestrated : Triple (body h run) (heedful run) (Heeding run 1 true)
      (orchestrate h run kind task brain) fun _ => Heeding run 1 false := by
    have left : ∀ (result : Except Exc Unit) s,
        ending (S:=effects) (fun _ s => (obedience run).leaving s ∨ (obedience run).elapsed s)
          (fun _ => (obedience run).broken) result s → Heeding run 1 false s := by
      intro result s reached
      cases result with
      | ok value => exact reached.elim id id
      | error exc => exact reached
    unfold orchestrate
    cases kind with
    | plan => exact ((obedience_sound h run).plan_follows task brain (some h.config)).mono left
    | run => exact ((obedience_sound h run).run_follows h task brain (some h.config)).mono left
  refine runTask_around ?_ (heeding_step le_rfl (by simp) (by simp))
    (heeding_step le_rfl (by simp) (by simp)) orchestrated
  intro op books
  refine (heeding_step le_rfl ?_ ?_).mono ?_
  · cases books <;> simp
  · cases books <;> simp
  · intro result s reached
    cases result <;> exact reached

inductive WatchStep (run : RunId) (l : Loop effects TaskId World) :
    Event effects TaskId Choice Callback Outside → World → Prop where
  | kept : (after.ledgers run).watch = (l.world.ledgers run).watch → after.stop = l.world.stop →
      (l.world.ledgers run).started ≤ (after.ledgers run).started →
      after.erasures = l.world.erasures → WatchStep run l event after
  | erased : (after.ledgers run).watch = none → after.erasures = l.world.erasures + 1 →
      WatchStep run l event after
  | polled : (after.ledgers run).watch = (l.world.ledgers run).watch →
      (after.ledgers run).started = (l.world.ledgers run).started →
      after.erasures = l.world.erasures → WatchStep run l (.callback .poll) after
  | armed : after.stop = true → (after.ledgers run).started = (l.world.ledgers run).started →
      (after.ledgers run).watch = (if (l.phases (bodyOf run)).active then
        (l.world.ledgers run).watch.or (some (l.world.ledgers run).started)
        else (l.world.ledgers run).watch) →
      after.erasures = l.world.erasures → WatchStep run l (.outside .arm) after

theorem perform_watch {l : Loop effects TaskId World} {i : TaskId} {op : Op} {reply : effects.Reply op}
    (performed : l.world.perform h i op reply choice = some next) (run : RunId) :
    WatchStep run l event next := by
  have plain : op ≠ .unlinkFlag → (∀ kind, op ≠ .checkLimit kind) → WatchStep run l event next := by
    intro kept other
    obtain ⟨same,stop,erasures⟩ := perform_counters performed kept other run
    simp only [counters,Prod.mk.injEq] at same
    obtain ⟨_,started,watch⟩ := same
    exact .kept watch stop (Nat.le_of_eq started.symm) erasures
  have done := World.perform_effect performed
  cases op with
  | unlinkFlag =>
    cases reply with
    | error exc =>
      cases done
      exact .kept rfl rfl le_rfl rfl
    | ok value =>
      cases done
      unfold World.disarm
      split
      · exact .erased rfl rfl
      · exact .kept rfl rfl le_rfl rfl
  | checkLimit kind =>
    cases reply with
    | error exc => cases done
    | ok value =>
      cases done
      have watch : ((l.world.note i.run fun past => { past with started := past.started + 1 }).ledgers
          run).watch = (l.world.ledgers run).watch := by
        refine note_part Ledger.watch ?_ run
        intro past
        rfl
      refine .kept watch rfl ?_ rfl
      by_cases same : run = i.run
      · subst same
        rw [World.note_same]
        exact Nat.le_succ _
      · rw [World.note_other same]
  | _ => exact plain (by simp) (by simp)

theorem watch_step {l next : Loop effects TaskId World} (step : Advance (daemon h) l event next)
    (run : RunId) : WatchStep run l event next.world := by
  cases step with
  | act at_op may performed => exact perform_watch performed run
  | @start i program idle fresh =>
    have watch : ((l.world.enter i).ledgers run).watch = (l.world.ledgers run).watch := by
      unfold World.enter
      split
      · refine note_part Ledger.watch ?_ run
        intro past
        rfl
      · rfl
    have started : ((l.world.enter i).ledgers run).started = (l.world.ledgers run).started := by
      unfold World.enter
      split
      · refine note_part Ledger.started ?_ run
        intro past
        rfl
      · rfl
    refine .kept watch ?_ (Nat.le_of_eq started.symm) ?_
    · unfold daemon World.enter
      dsimp only
      split <;> rfl
    · unfold daemon World.enter
      dsimp only
      split <;> rfl
  | kill idle doomed => exact .kept rfl rfl le_rfl rfl
  | callback idle occurred =>
    cases callback_cases occurred with
    | poll armed => exact .polled rfl rfl rfl
    | _ => exact .kept rfl rfl le_rfl rfl
  | @outside kind world occurred =>
    cases kind with
    | arm =>
      cases occurred
      refine .armed rfl ?_ ?_ rfl
      · dsimp only
        split <;> rfl
      · dsimp only
        split <;> rfl
    | focus window => cases occurred; exact .kept rfl rfl le_rfl rfl
    | edit rules => cases occurred; exact .kept rfl rfl le_rfl rfl
    | land other index now =>
      simp only [daemon,outside] at occurred
      split at occurred
      · rename_i job found
        cases occurred
        cases committed : (l.world.atCell other fun cell =>
            { cell with orphans := cell.orphans.eraseIdx index }).commit other now job with
        | none => exact .kept rfl rfl le_rfl rfl
        | some after =>
          obtain ⟨⟨_,_,stop⟩,erasures⟩ := World.commit_aside committed
          have same := counters_unwritten.committed committed run
          simp only [counters,Prod.mk.injEq] at same
          obtain ⟨_,started,watch⟩ := same
          exact .kept watch stop (Nat.le_of_eq started.symm) erasures
      · cases occurred

structure Alarmed (run : RunId) (l : Loop effects TaskId World) : Prop where
  absent : l.tasks (bodyOf run) = none → (l.world.ledgers run).watch = none
  created : ∀ program c, l.tasks (bodyOf run) = some (.created program c) →
    (l.world.ledgers run).watch = none ∨ l.world.stop = true ∨ c = true
  behind : ∀ n, (l.world.ledgers run).watch = some n → n ≤ (l.world.ledgers run).started

theorem absent_inactive {l : Loop effects TaskId World} {i : TaskId} (absent : l.tasks i = none) :
    (l.phases i).active = false := by
  unfold Loop.phases
  rw [absent]
  rfl

theorem alarmed_step {l next : Loop effects TaskId World} (alarmed : Alarmed run l)
    (step : Advance (daemon h) l event next) : Alarmed run next := by
  have unwatched : l.tasks (bodyOf run) = none →
      (next.world.ledgers run).watch = none := by
    intro absent
    have before := alarmed.absent absent
    cases watch_step step run with
    | kept watch _ _ _ => exact watch.trans before
    | erased none _ => exact none
    | polled watch _ _ => exact watch.trans before
    | armed _ _ watch _ =>
      rw [absent_inactive absent] at watch
      exact watch.trans before
  refine ⟨fun absent => unwatched (absent_before step absent).1,?_,?_⟩
  · intro program c created
    rcases created_before_cancel step created with ⟨before,found,keeps,cancels⟩ | ⟨absent,_⟩
    · have prior := alarmed.created program before found
      cases watch_step step run with
      | kept watch stop _ _ =>
        rw [watch,stop]
        exact prior.imp id fun either => either.imp id keeps
      | erased none _ => exact .inl none
      | polled _ _ _ =>
        obtain ⟨arrival,occurred⟩ := callback_occurred step
        have taken : arrival.cancels (bodyOf run) = true := by
          have called : Called l.world l.phases .poll arrival := callback_cases occurred
          cases called
          simp [Loop.phases,found,phaseOf,Phase.active]
        exact .inr (.inr (cancels .poll arrival rfl occurred taken))
      | armed stop _ _ _ => exact .inr (.inl stop)
    · exact .inl (unwatched absent)
  · intro n watched
    cases watch_step step run with
    | kept watch _ started _ =>
      rw [watch] at watched
      exact (alarmed.behind n watched).trans started
    | erased none _ =>
      rw [none] at watched
      cases watched
    | polled watch started _ =>
      rw [watch] at watched
      rw [started]
      exact alarmed.behind n watched
    | armed _ started watch _ =>
      rw [watch] at watched
      rw [started]
      split at watched
      · cases before : (l.world.ledgers run).watch with
        | none =>
          rw [before] at watched
          exact Nat.le_of_eq (Option.some.inj watched).symm
        | some m =>
          rw [before] at watched
          cases watched
          exact alarmed.behind n before
      · exact alarmed.behind n watched

theorem daemon_alarmed (path : Reached (daemon h) (boot stop focused rules) l) (run : RunId) :
    Alarmed run l := by
  apply path.invariant (P:=Alarmed run)
  · exact ⟨fun _ => rfl,fun _ _ present => absurd present boot_absent,fun _ watched => by cases watched⟩
  · intro l event next _ alarmed advanced
    exact alarmed_step alarmed (advance_cases advanced)

theorem entered_heeding (path : Reached (daemon h) (boot stop focused rules) l)
    (created : l.tasks (bodyOf run) = some (.created program false)) :
    (((l.world.enter (bodyOf run)).ledgers run).watch = none ∨ (l.world.enter (bodyOf run)).stop = true) := by
  have alarmed := (daemon_alarmed path run).created program false created
  have watch : ((l.world.enter (bodyOf run)).ledgers run).watch = (l.world.ledgers run).watch := by
    simp [World.enter]
  rw [watch]
  rcases alarmed with unwatched | armed | impossible
  · exact .inl unwatched
  · exact .inr armed
  · cases impossible

theorem watched_bound (path : Reached (daemon h) (boot stop focused rules) l) (run : RunId) :
    ∀ n, (l.world.ledgers run).watch = some n → (l.world.ledgers run).started ≤ n + 1 := by
  have tracks : Tracks (bodyOf run) (body h run) (heedful run)
      (fun _ w => (w.ledgers run).begun = true → Heeding run 1 false (w,false)) l := by
    refine body_reached_ready
      (fun w => (w.ledgers run).watch = none ∨ w.stop = true) ?_ ?_ ?_ ?_ path
    · intro result w next outer heeding
      exact outer.heeding heeding
    · intro result s t rely heeding
      have waiting : Heeding run 1 false s := ⟨heeding.begun,heeding.bound,fun impossible => by cases impossible⟩
      rcases rely.heeding waiting with after | impossible
      · exact ⟨after.begun,after.bound,fun impossible => by cases impossible⟩
      · exact impossible.elim
    · intro l program prior _ created
      exact entered_heeding prior created
    · intro kind task brain
      refine ((runTask_heedful kind task brain).weaken ?_).mono ?_
      · intro s given
        obtain ⟨⟨⟨brainName,startedAt,same⟩,_⟩,ready,_⟩ := given
        have started : (s.1.ledgers run).started = 0 := congrArg (fun state => state.2.started) same
        refine ⟨congrArg (fun state => state.2.begun) same,?_,fun _ => ready.imp id .inl⟩
        intro n _
        omega
      · intro result s heeding
        exact ⟨heeding.begun,heeding.bound,fun impossible => by cases impossible⟩
  cases daemon_chapter path run with
  | opening unbegun state =>
    have started : (l.world.ledgers run).started = 0 := by
      rcases state with barren | ⟨⟨kind,task,brainName,brain,startedAt,same⟩,_⟩
      · exact barren.bare.started
      · exact congrArg (fun state => state.2.started) same
    intro n _
    omega
  | running live shape records =>
    obtain ⟨op,more,rfl⟩ := (disciplined_reached boot_disciplined path).standing _ _ _ live
    exact (holds_pre (tracks.1 _ _ live)).bound
  | ended finished records =>
    have begun : (l.world.ledgers run).begun = true := by
      cases records with
      | broken last shape records => exact records.begun
      | whole last shape records outcomes => exact records.begun
    exact (tracks.2 _ finished begun).bound

theorem armed_watch {before : Loop effects TaskId World}
    (armed : l.advance (daemon h) (.outside .arm) = some before)
    (active : (l.phases (bodyOf run)).active = true) :
    (before.world.ledgers run).watch =
        (l.world.ledgers run).watch.or (some (l.world.ledgers run).started) ∧
      before.world.erasures = l.world.erasures := by
  cases advance_cases armed with
  | outside occurred =>
    cases occurred
    simp [active]

theorem mark_stays {before after : Loop effects TaskId World} (more : Reached (daemon h) before after)
    (marked : (before.world.ledgers run).watch = some m) :
    before.world.erasures ≤ after.world.erasures ∧
      (after.world.erasures = before.world.erasures → (after.world.ledgers run).watch = some m) := by
  refine more.invariant (P:=fun l => before.world.erasures ≤ l.world.erasures ∧
    (l.world.erasures = before.world.erasures → (l.world.ledgers run).watch = some m)) ?_ ?_
  · exact ⟨le_rfl,fun _ => marked⟩
  · intro l event next _ held advanced
    obtain ⟨grown,stays⟩ := held
    cases watch_step (advance_cases advanced) run with
    | kept watch _ _ erasures =>
      rw [watch,erasures]
      exact ⟨grown,stays⟩
    | erased _ erasures =>
      rw [erasures]
      refine ⟨by omega,?_⟩
      intro unerased
      omega
    | polled watch _ erasures =>
      rw [watch,erasures]
      exact ⟨grown,stays⟩
    | armed _ _ watch erasures =>
      rw [erasures]
      refine ⟨grown,?_⟩
      intro unerased
      rw [watch,stays unerased]
      split <;> rfl

-- Once the flag is armed while a run's task is active, the run starts at most one
-- further action, unless a run or plan that begins erases the flag.
theorem one_more_action {before after : Loop effects TaskId World}
    (path : Reached (daemon h) (boot stop focused rules) l)
    (active : (l.phases (bodyOf run)).active = true)
    (armed : l.advance (daemon h) (.outside .arm) = some before)
    (more : Reached (daemon h) before after)
    (unerased : after.world.erasures = l.world.erasures) :
    (after.world.ledgers run).started ≤ (l.world.ledgers run).started + 1 := by
  obtain ⟨watch,erasures⟩ := armed_watch armed active
  have held : ∃ m, m ≤ (l.world.ledgers run).started ∧ (before.world.ledgers run).watch = some m := by
    cases marked : (l.world.ledgers run).watch with
    | none =>
      rw [marked] at watch
      exact ⟨_,le_rfl,watch⟩
    | some m =>
      rw [marked] at watch
      exact ⟨m,(daemon_alarmed path run).behind m marked,watch⟩
  obtain ⟨m,behind,marked⟩ := held
  have whole : Reached (daemon h) (boot stop focused rules) after :=
    Reached.trans (.step path armed) more
  have kept := (mark_stays more marked).2 (unerased.trans erasures.symm)
  have bound := watched_bound whole run m kept
  omega

def threeClicks : List Cue :=
  begins .run ++ List.replicate 36 (goes [click,click,click] (bodyOf "r") {})

def clicksOut : List Cue := List.replicate 16 (goes [click,click,click] (bodyOf "r") {})

theorem one_more_click : ∃ l before after, Reached (daemon plainHost) idle l ∧
    (l.phases (bodyOf "r")).active = true ∧ l.advance (daemon plainHost) (.outside .arm) = some before ∧
    Reached (daemon plainHost) before after ∧ after.phases (bodyOf "r") = .finished ∧
      (after.world.ledgers "r").started ≤ (l.world.ledgers "r").started + 1 := by
  have played : (drive (daemon plainHost) idle threeClicks).any (fun l =>
      (l.phases (bodyOf "r")).active && (l.advance (daemon plainHost) (.outside .arm)).any fun before =>
        (drive (daemon plainHost) before clicksOut).any fun after =>
          after.phases (bodyOf "r") == .finished && after.world.erasures == l.world.erasures) = true := by
    decide +kernel
  obtain ⟨l,path,shown⟩ := rehearsed played
  simp only [Bool.and_eq_true,Option.any_eq_true,beq_iff_eq] at shown
  obtain ⟨active,before,armed,after,driven,ended,unerased⟩ := shown
  have more := drive_reached driven
  exact ⟨l,before,after,path,active,armed,more,ended,one_more_action path active armed more unerased⟩

-- A plan called "p" is submitted, and its body makes sure that the switch is off;
-- "r" then goes on to its third click.
def erasedByPlan : List Cue :=
  [calls (.submit "p" .plan "task" "claude"),starts ⟨"p",.submit⟩] ++
    List.replicate 6 (goes [] ⟨"p",.submit⟩ {}) ++ [starts (bodyOf "p")] ++
    List.replicate 6 (goes [] (bodyOf "p") {}) ++
    List.replicate 20 (goes [click,click,click] (bodyOf "r") {})

theorem arm_erased_by_plan : ∃ l before after, Reached (daemon plainHost) idle l ∧
    (l.phases (bodyOf "r")).active = true ∧
    l.advance (daemon plainHost) (.outside .arm) = some before ∧
    Reached (daemon plainHost) before after ∧
      (after.world.ledgers "r").started = (l.world.ledgers "r").started + 2 := by
  have played : (drive (daemon plainHost) idle threeClicks).any (fun l =>
      (l.phases (bodyOf "r")).active && (l.advance (daemon plainHost) (.outside .arm)).any fun before =>
        (drive (daemon plainHost) before erasedByPlan).any fun after =>
          (after.world.ledgers "r").started == (l.world.ledgers "r").started + 2) = true := by
    decide +kernel
  obtain ⟨l,path,shown⟩ := rehearsed played
  simp only [Bool.and_eq_true,Option.any_eq_true,beq_iff_eq] at shown
  obtain ⟨active,before,armed,after,driven,started⟩ := shown
  exact ⟨l,before,after,path,active,armed,drive_reached driven,started⟩

end HyprlandAgent
