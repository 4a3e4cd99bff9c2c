import HyprlandAgent.Daemon.Birth
import HyprlandAgent.Daemon.Rehearsal

-- The focus gate: the window that was checked, and the one that input reaches.
namespace HyprlandAgent
open Coroutine RunExecutor Orchestrator
variable {h : Host} {run : RunId} {w next : World} {X : Option Window → Prop} {stop : Bool}
  {focused : Option Window} {rules : List AllowRule} {l : Loop effects TaskId World}

-- The run has read the focused window. Since then it strayed, or the window in
-- front is one it may act on, or it is still the one described by `X`.
structure Watched (h : Host) (run : RunId) (X : Option Window → Prop) (w : World) : Prop where
  begun : (w.ledgers run).begun = true
  gated : (w.ledgers run).gated = true
  faced : (w.ledgers run).strayed = true ∨ w.clear h = true ∨ X w.focused

def Begun (run : RunId) (w : World) : Prop := (w.ledgers run).begun = true

def facing (h : Host) (run : RunId) (op : Op) (s : World × Bool) : Prop :=
  ∀ sent, op = .input sent → (s.1.ledgers run).strayed = true ∨ s.1.clear h = true

theorem clear_same (focus : next.focused = w.focused) (rules : next.rules = w.rules) :
    next.clear h = w.clear h := by
  unfold World.clear
  rw [focus,rules]

theorem Watched.same (watched : Watched h run X w) (focus : next.focused = w.focused)
    (rules : next.rules = w.rules) (begun : (next.ledgers run).begun = (w.ledgers run).begun)
    (gated : (w.ledgers run).gated = true → (next.ledgers run).gated = true)
    (strayed : (next.ledgers run).strayed = (w.ledgers run).strayed) : Watched h run X next := by
  refine ⟨begun.trans watched.begun,gated watched.gated,?_⟩
  rw [strayed,clear_same focus rules,focus]
  exact watched.faced

theorem refocused_faced {strayed gated clear : Bool} (read : gated = true) {P : Prop} :
    (strayed || (gated && !clear)) = true ∨ clear = true ∨ P := by
  subst read
  cases clear with
  | true => exact .inr (.inl rfl)
  | false => exact .inl (by simp)

theorem Drift.watched (drift : Drift h run w next) (watched : Watched h run X w) :
    Watched h run X next := by
  have begun : (next.ledgers run).begun = (w.ledgers run).begun := by rw [drift.ledger]
  have gated : (next.ledgers run).gated = (w.ledgers run).gated := by rw [drift.ledger]
  rcases drift.focus with ⟨focus,rules,strayed⟩ | strayed
  · exact watched.same focus rules begun (fun read => gated.trans read) strayed
  · refine ⟨begun.trans watched.begun,gated.trans watched.gated,?_⟩
    rw [strayed]
    exact refocused_faced watched.gated

def sight (past : Ledger) : Bool × Bool × Bool := (past.begun,past.gated,past.strayed)

theorem sight_unwritten : Unwritten sight where
  issue := by
    intro write failed fate past
    cases write with
    | upsertRunOutcome outcome score source rationale => cases source <;> rfl
    | _ => rfl
  commit := by
    intro write now past
    cases write <;> rfl

theorem Watched.aside (watched : Watched h run X w) (aside : Aside w next)
    (marks : sight (next.ledgers run) = sight (w.ledgers run)) : Watched h run X next := by
  simp only [sight,Prod.mk.injEq] at marks
  obtain ⟨begun,gated,strayed⟩ := marks
  exact watched.same aside.focused aside.rules begun (fun read => gated.trans read) strayed

theorem commit_watched {job : Job} (committed : w.commit other now job = some next)
    (watched : Watched h run X w) : Watched h run X next :=
  watched.aside (World.commit_aside committed).1 (sight_unwritten.committed committed run)

theorem atCell_watched (change : Cell → Cell) (watched : Watched h run X w) :
    Watched h run X (w.atCell other change) := ⟨watched.begun,watched.gated,watched.faced⟩

theorem Outer.watched (outer : Outer h run w next) (watched : Watched h run X w) :
    Watched h run X next := by
  cases outer with
  | drift drift => exact drift.watched watched
  | armed armed =>
    rcases armed.ledger with same | marked
    · exact watched.same armed.focused armed.rules (by rw [same]) (by rw [same]; exact id) (by rw [same])
    · exact watched.same armed.focused armed.rules (by rw [marked]) (by rw [marked]; exact id)
        (by rw [marked])
  | landed landed =>
    obtain ⟨index,job,now,found,rfl⟩ := landed
    have rest : Watched h run X (w.atCell run fun cell =>
        { cell with orphans := cell.orphans.eraseIdx index }) := atCell_watched _ watched
    cases committed : (w.atCell run fun cell =>
        { cell with orphans := cell.orphans.eraseIdx index }).commit run now job with
    | none => exact rest
    | some after => exact commit_watched committed rest

theorem Rely.watched {s t : World × Bool} (rely : Rely h run (unbegunStep run) s t)
    (watched : Watched h run X s.1) : Watched h run X t.1 := by
  cases rely with
  | drift drift => exact drift.watched watched
  | remarked remarked =>
    exact watched.same remarked.focused remarked.rules (by rw [remarked.ledger])
      (by rw [remarked.ledger]; exact id) (by rw [remarked.ledger])
  | requested requested =>
    exact watched.same requested.focused requested.rules (by rw [requested.ledger])
      (by rw [requested.ledger]; exact id) (by rw [requested.ledger])
  | polled polled =>
    exact watched.same polled.focused polled.rules (by rw [polled.ledger])
      (by rw [polled.ledger]; exact id) (by rw [polled.ledger])
  | excused excused =>
    have begun := watched.begun
    rw [excused.1] at begun
    cases begun

theorem perform_watched {op : Op} {reply : effects.Reply op} (watched : Watched h run X w)
    (performed : w.perform h (bodyOf run) op reply choice = some next) : Watched h run X next := by
  cases effect_happened (World.perform_effect performed) with
  | nothing => exact watched
  | marked misses marks uncounted =>
    obtain ⟨gated,_,_,_,_,kept,same⟩ := marks (w.ledgers run)
    refine watched.same rfl rfl ?_ ?_ ?_
    · rw [World.note_same,same]
    · rw [World.note_same,same]
      exact kept
    · rw [World.note_same,same]
  | held owned looped => exact atCell_watched _ watched
  | refocused focused =>
    exact (refocus_drift h run w focused w.rules).watched watched
  | disarmed => exact (disarm_drift h run w).watched watched
  | @created kind task brain value chosen owner =>
    by_cases same : run = owner
    · subst same
      exact watched.same rfl rfl (by rw [World.note_same]) (by rw [World.note_same]; exact id)
        (by rw [World.note_same])
    · exact (note_drift _ same).watched watched
  | wrote answered =>
    exact watched.aside (World.wrote_aside answered).1 (sight_unwritten.wrote answered run)
  | audited answered =>
    exact watched.aside (World.answer_aside answered).1 (sight_unwritten.answered answered run)

theorem watched_stable (op : Op) : Stable ((body h run).env op) fun s => Watched h run X s.1 := by
  intro s t moved watched
  rcases moved with ⟨outer,_⟩ | ⟨_,rely⟩
  · exact outer.watched watched
  · exact rely.watched watched

theorem begun_stable (op : Op) : Stable ((body h run).env op) fun s => Begun run s.1 := by
  intro s t moved begun
  rcases moved with ⟨outer,_⟩ | ⟨_,rely⟩
  · exact (congrArg Prod.fst (outer_birth outer)).trans begun
  · rcases rely_birth rely with same | ⟨unbegun,_⟩
    · exact (congrArg Prod.fst same).trans begun
    · rw [show (s.1.ledgers run).begun = true from begun] at unbegun
      cases unbegun

def Plain (op : Op) : Prop := ∀ sent, op ≠ .input sent

theorem plain_facing {op : Op} (plain : Plain op) (s : World × Bool) :
    facing h run op s := fun sent same => absurd same (plain sent)

theorem begun_perform {op : Op} (plain : Plain op) :
    Triple (body h run) (facing h run) (fun s => Begun run s.1) (perform op)
      fun _ s => Begun run s.1 := by
  apply Triple.perform (begun_stable op) (fun s _ => plain_facing plain s)
  intro s reply t begun acted
  obtain ⟨_,_,_,choice,performed⟩ := acted
  exact (perform_begun performed run).trans begun

theorem watched_perform (op : Op) :
    Triple (body h run) (facing h run) (fun s => Watched h run (fun _ => False) s.1) (perform op)
      fun _ s => Watched h run (fun _ => False) s.1 := by
  apply Triple.perform (watched_stable op)
  · intro s watched sent _
    rcases watched.faced with strayed | clear | impossible
    · exact .inl strayed
    · exact .inr clear
    · exact impossible.elim
  · intro s reply t watched acted
    obtain ⟨_,_,_,choice,performed⟩ := acted
    exact perform_watched watched performed

theorem faced_look : Triple (body h run) (facing h run) (fun s => Begun run s.1)
    (perform .activeWindow)
    (ending (fun seen s => Watched h run (· = seen) s.1) fun _ s => Begun run s.1) := by
  refine Triple.perform (begun_stable _) (fun s _ => plain_facing (by simp [Plain]) s) ?_
  intro s reply t begun acted
  obtain ⟨_,_,_,choice,performed⟩ := acted
  have after : Begun run t.1 := (perform_begun performed run).trans begun
  have done := World.perform_effect performed
  cases reply with
  | error exc => exact after
  | ok seen =>
    simp only [World.effect] at done
    split at done
    · rename_i front
      have moved := Option.some.inj done
      refine ⟨after,?_,.inr (.inr ?_)⟩
      · rw [← moved,World.note_same]
      · rw [← moved]
        exact front.symm
    · cases done

theorem faced_gate (window : Window) : Triple (body h run) (facing h run)
    (fun s => Watched h run (· = some window) s.1) (perform (.isAllowed window))
    (ending (fun allowed s => if allowed then Watched h run (fun _ => False) s.1 else Begun run s.1)
      fun _ s => Begun run s.1) := by
  refine Triple.perform (watched_stable _) (fun s _ => plain_facing (by simp [Plain]) s) ?_
  intro s reply t watched acted
  obtain ⟨_,_,_,choice,performed⟩ := acted
  have after := perform_watched watched performed
  have done := World.perform_effect performed
  cases reply with
  | error exc => exact after.begun
  | ok allowed =>
    cases allowed with
    | false => exact after.begun
    | true =>
      simp only [World.effect] at done
      split at done
      · rename_i checked
        have moved := Option.some.inj done
        refine ⟨after.begun,after.gated,?_⟩
        rcases after.faced with strayed | clear | front
        · exact .inl strayed
        · exact .inr (.inl clear)
        · refine .inr (.inl ?_)
          unfold World.clear
          rw [front,← moved]
          exact checked.symm
      · cases done

def gate (h : Host) (run : RunId) : Outline (World × Bool) where
  fresh := fun s => Begun run s.1
  before := fun s => Begun run s.1
  seen := fun window s => Watched h run (· = window) s.1
  going := fun s => Watched h run (fun _ => False) s.1
  checked := fun s => Watched h run (fun _ => False) s.1
  leaving := fun s => Begun run s.1
  cut := fun s => Begun run s.1
  elapsed := fun s => Begun run s.1
  broken := fun s => Begun run s.1

theorem emission_plain {op : Op} (emission : Emission run op) : Plain op := by
  intro sent
  cases emission <;> simp

theorem gate_sound (h : Host) (run : RunId) :
    (gate h run).Sound (body h run) (facing h run) (contextOf h run) := by
  have still : ∀ {α : Type} {p : Async α} {E : World × Bool → Prop},
      Triple (body h run) (facing h run) E p (fun _ => E) →
      Triple (body h run) (facing h run) E p (ending (fun _ => E) fun _ => E) := by
    intro α p E kept
    apply kept.mono
    intro result s reached
    cases result <;> exact reached
  have begins : ∀ kind payload, Triple (body h run) (facing h run) (fun s => Begun run s.1)
      ((contextOf h run).emit kind payload)
      (ending (fun _ s => Begun run s.1) fun _ s => Begun run s.1) := by
    intro kind payload
    exact emit_around (fun op emission => still (begun_perform (emission_plain emission))) kind payload
  have past : ∀ {α : Type} {p : Async α},
      Triple (body h run) (facing h run) (fun s => Watched h run (fun _ => False) s.1) p
        (fun _ s => Watched h run (fun _ => False) s.1) →
      Triple (body h run) (facing h run) (fun s => Watched h run (fun _ => False) s.1) p
        (ending (fun _ s => Watched h run (fun _ => False) s.1) fun _ s => Begun run s.1) := by
    intro α p kept
    exact (still kept).relax (fun _ _ reached => reached) fun _ _ reached => reached.begun
  have tells : ∀ kind payload, Triple (body h run) (facing h run)
      (fun s => Watched h run (fun _ => False) s.1) ((contextOf h run).emit kind payload)
      (ending (fun _ s => Watched h run (fun _ => False) s.1) fun _ s => Begun run s.1) := by
    intro kind payload
    exact emit_around (fun op emission => past (watched_perform op)) kind payload
  refine
    { disarm := still (begun_perform (by simp [Plain]))
      mkdir := still (begun_perform (by simp [Plain]))
      look := faced_look
      unfocused := ?_
      gate := ?_
      emit := ?_
      done := (tells _ _).relax (fun _ _ reached => reached.begun) fun _ _ reached => reached
      act := ?_
      cleanup := fun tool => begun_perform (by simp [Plain])
      check := ?_
      configure := fun tool => past (watched_perform _)
      limit := fun kind => past (watched_perform _)
      relax := fun _ going => going
      fail := fun _ going => going.begun
      abandon := fun _ begun => begun }
  · intro s seen
    refine ⟨seen.begun,seen.gated,?_⟩
    rcases seen.faced with strayed | clear | front
    · exact .inl strayed
    · exact .inr (.inl clear)
    · refine .inr (.inl ?_)
      unfold World.clear
      rw [front]
      rfl
  · intro window
    refine (faced_gate window).relax ?_ fun _ _ reached => reached
    intro allowed s reached
    cases allowed <;> exact reached
  · intro Y emits kind payload _ _
    cases emits with
    | going => exact tells kind payload
    | checked => exact tells kind payload
    | _ => exact begins kind payload
  · intro op desktop
    refine (still (watched_perform op)).relax (fun _ _ reached => reached) ?_
    intro exc s reached
    cases exc with
    | cancelled => exact reached.begun
    | _ => exact reached
  · refine (past (watched_perform .isStopped)).relax ?_ fun _ _ reached => reached
    intro stopped s reached
    cases stopped with
    | true => exact reached.begun
    | false => exact reached

theorem books_plain {op : Op} (books : Bookkeeping run op) : Plain op := by
  intro sent
  cases books <;> simp

theorem runTask_gated (kind : RunKind) (task : String) (brain : Brain) :
    Triple (body h run) (facing h run) (fun s => Pristine run kind task brain s.1)
      (runTask h run kind task brain) fun _ _ => True := by
  have kept : ∀ {op : Op}, Plain op →
      Triple (body h run) (facing h run) (fun s => Begun run s.1) (perform op)
        (ending (fun _ s => Begun run s.1) fun _ s => Begun run s.1) := by
    intro op plain
    refine (begun_perform plain).mono ?_
    intro result s reached
    cases result <;> exact reached
  have orchestrated : Triple (body h run) (facing h run) (fun s => Begun run s.1)
      (orchestrate h run kind task brain) fun _ s => Begun run s.1 := by
    have left : ∀ (result : Except Exc Unit) s,
        ending (S:=effects) (fun _ s => (gate h run).leaving s ∨ (gate h run).elapsed s)
          (fun _ => (gate h run).broken) result s → Begun run s.1 := by
      intro result s reached
      cases result with
      | ok value => exact reached.elim id id
      | error exc => exact reached
    unfold orchestrate
    cases kind with
    | plan => exact ((gate_sound h run).plan_follows task brain (some h.config)).mono left
    | run => exact ((gate_sound h run).run_follows h task brain (some h.config)).mono left
  have whole := runTask_around (fun op books => begun_perform (h:=h) (books_plain books))
    (kept (by simp [Plain])) (kept (by simp [Plain])) orchestrated
  refine (whole.weaken ?_).mono fun _ _ _ => trivial
  intro s given
  obtain ⟨⟨brainName,startedAt,same⟩,_⟩ := given
  exact congrArg (fun state => state.2.begun) same

-- Wherever a run is about to send input, the window in front is one the allowlist
-- lets it act on, as long as no change of focus or allowlist since its gate has
-- brought another one there.
theorem input_faces_allowed (path : Reached (daemon h) (boot stop focused rules) l)
    (at_input : l.tasks (bodyOf run) = some (.live (.await (.input sent) more) c))
    (straight : (l.world.ledgers run).strayed = false) :
    l.world.clear h = true ∧
      ∀ window, l.world.focused = some window → h.lower window.appClass ∉ alwaysDeny := by
  have tracks : Tracks (bodyOf run) (body h run) (facing h run)
      (fun _ w => (w.ledgers run).begun = true → True) l :=
    body_reached (fun _ _ _ _ _ => trivial) (fun _ _ _ _ _ => trivial) runTask_gated path
  have clear : l.world.clear h = true := by
    rcases holds_pre (tracks.1 _ _ at_input) sent rfl with strayed | clear
    · rw [straight] at strayed
      cases strayed
    · exact clear
  refine ⟨clear,?_⟩
  intro window front denied
  unfold World.clear at clear
  rw [front] at clear
  have refused := not_allowed_of_denied l.world.rules denied
  rw [show isAllowed h.lower l.world.rules window = true from clear] at refused
  cases refused

def aboutToSend (l : Loop effects TaskId World) (i : TaskId) : Bool :=
  match l.tasks i with
  | some (.live (.await (.input _) _) _) => true
  | _ => false

theorem aboutToSend_at {i : TaskId} (about : aboutToSend l i = true) :
    ∃ sent more c, l.tasks i = some (.live (.await (.input sent) more) c) := by
  unfold aboutToSend at about
  split at about
  · exact ⟨_,_,_,by assumption⟩
  · cases about

def secondTerminal : Window := { terminal with address := "0x2" }

theorem input_faces_terminal : ∃ l, Reached (daemon plainHost) idle l ∧ aboutToSend l (bodyOf "r") = true ∧
    l.world.focused = some secondTerminal ∧ l.world.clear plainHost = true ∧
      ∀ window, l.world.focused = some window → plainHost.lower window.appClass ∉ alwaysDeny := by
  have played : (drive (daemon plainHost) idle
      (begins .run ++ works 30 ++ [happens (.focus (some secondTerminal))] ++ works 6)).any (fun l =>
        aboutToSend l (bodyOf "r") && ((l.world.ledgers "r").gated && !(l.world.ledgers "r").strayed &&
          decide (l.world.focused = some secondTerminal))) = true := by decide +kernel
  obtain ⟨l,path,shown⟩ := rehearsed played
  simp only [Bool.and_eq_true,Bool.not_eq_true',decide_eq_true_eq] at shown
  obtain ⟨about,⟨_,straight⟩,front⟩ := shown
  obtain ⟨sent,more,c,at_input⟩ := aboutToSend_at about
  exact ⟨l,path,about,front,input_faces_allowed path at_input straight⟩

theorem input_reaches_vault : ∃ l, Reached (daemon plainHost) idle l ∧
    (∃ sent more c, l.tasks (bodyOf "r") = some (.live (.await (.input sent) more) c)) ∧
    l.world.focused = some vault ∧ vault.appClass ∈ alwaysDeny ∧ l.world.clear plainHost = false := by
  have played : (drive (daemon plainHost) idle
      (begins .run ++ works 36 ++ [happens (.focus (some vault))])).any (fun l =>
        aboutToSend l (bodyOf "r") && (decide (l.world.focused = some vault) &&
          !l.world.clear plainHost)) = true := by decide +kernel
  obtain ⟨l,path,shown⟩ := rehearsed played
  simp only [Bool.and_eq_true,Bool.not_eq_true',decide_eq_true_eq] at shown
  obtain ⟨about,front,unclear⟩ := shown
  exact ⟨l,path,aboutToSend_at about,front,by decide,unclear⟩

end HyprlandAgent
