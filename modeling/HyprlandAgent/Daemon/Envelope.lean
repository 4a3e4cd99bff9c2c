import HyprlandAgent.Daemon.EventStream

-- One event in three sinks: its row, its audit line and its message.
namespace HyprlandAgent
open Coroutine RunExecutor Orchestrator
variable {h : Host} {run : RunId} {stop : Bool} {focused : Option Window} {rules : List AllowRule}
  {l : Loop effects TaskId World}

-- A record tells of the event: under the envelope's names what the envelope says,
-- and all else of the payload.
structure Carries (envelope : List String) (run : RunId) (event : RunEventRecord) (record : Dict) : Prop where
  owner : record.lookup "run_id" = some (.str run)
  named : record.lookup "kind" = some (.str event.kind)
  payload : ∀ key value, key ∉ envelope → event.payload.lookup key = some value → record.lookup key = some value

structure SinksAgree (run : RunId) (event : RunEventRecord) (line message : Dict) : Prop where
  audited : Carries ["run_id","seq","kind"] run event line
  numbered : line.lookup "seq" = some (.int event.seq)
  told : Carries ["run_id","kind"] run event message

-- The kind that the consumers of a record dispatch on.
def kindOf (record : Dict) : Option String :=
  match record.lookup "kind" with
  | some (.str kind) => some kind
  | _ => none

section
variable {event : RunEventRecord}

theorem message_lookup (key : String) : (messageOf run event).lookup key =
    (event.payload.lookup key).or
      (if key = "kind" then some (.str event.kind) else if key = "run_id" then some (.str run) else none) := by
  unfold messageOf runMessage
  rw [lookup_merged,show [("run_id",Json.str run),("kind",.str event.kind)] =
    [("run_id",.str run)] ++ [("kind",.str event.kind)] from rfl,lookup_dict_snoc,
    show [("run_id",Json.str run)] = [] ++ [("run_id",.str run)] from rfl,lookup_dict_snoc]
  rfl

theorem entry_lookup (key : String) : (auditEntry run event).lookup key =
    (event.payload.lookup key).or
      (if key = "kind" then some (.str event.kind) else if key = "seq" then some (.int event.seq)
        else if key = "run_id" then some (.str run) else none) := by
  unfold auditEntry
  rw [lookup_merged,show [("run_id",Json.str run),("seq",.int event.seq),("kind",.str event.kind)] =
    [("run_id",.str run),("seq",.int event.seq)] ++ [("kind",.str event.kind)] from rfl,lookup_dict_snoc,
    show [("run_id",Json.str run),("seq",.int event.seq)] =
      [("run_id",.str run)] ++ [("seq",.int event.seq)] from rfl,lookup_dict_snoc,
    show [("run_id",Json.str run)] = [] ++ [("run_id",.str run)] from rfl,lookup_dict_snoc]
  rfl

theorem kindOf_message (emittable : Emittable event.kind event.payload) :
    kindOf (messageOf run event) = some event.kind ∨
      ∃ action : ActionKind, kindOf (messageOf run event) = some action.value := by
  have kind := emittable.kind
  unfold kindOf
  rw [message_lookup]
  split at kind
  · obtain ⟨action,held⟩ := kind
    exact .inr ⟨action,by rw [held]; rfl⟩
  · exact .inl (by rw [kind]; rfl)

theorem action_kind_other (action : ActionKind) : action.value ≠ "action" ∧ action.value ≠ "action_result" := by
  cases action <;> decide

theorem sinks_agree_of (emittable : Emittable event.kind event.payload) :
    SinksAgree run event (auditEntry run event) (messageOf run event) ↔
      event.kind ≠ "action" ∧ event.kind ≠ "action_result" := by
  have noRun := emittable.run
  have noSeq := emittable.seq
  have kind := emittable.kind
  constructor
  · intro agree
    by_contra carrying
    have carries : carriesKind event.kind = true := by
      simp only [carriesKind,Bool.or_eq_true,beq_iff_eq]
      by_contra other
      exact carrying (not_or.mp other)
    rw [if_pos carries] at kind
    obtain ⟨action,held⟩ := kind
    have read := agree.told.named
    rw [message_lookup,held] at read
    have same : action.value = event.kind := by simpa using read
    obtain ⟨one,two⟩ := action_kind_other action
    rw [same] at one two
    exact carrying ⟨one,two⟩
  · intro given
    obtain ⟨one,two⟩ := given
    have plain : ¬ carriesKind event.kind = true := by simp [carriesKind,one,two]
    rw [if_neg plain] at kind
    refine ⟨⟨?_,?_,?_⟩,?_,⟨?_,?_,?_⟩⟩
    · rw [entry_lookup,noRun]
      rfl
    · rw [entry_lookup,kind]
      rfl
    · intro key value _ held
      rw [entry_lookup,held]
      rfl
    · rw [entry_lookup,noSeq]
      rfl
    · rw [message_lookup,noRun]
      rfl
    · rw [message_lookup,kind]
      rfl
    · intro key value _ held
      rw [message_lookup,held]
      rfl

end

-- In every state, the audit log holds the lines of stored events, the topic their
-- messages, and a stored event reads the same in all three exactly when it is
-- neither an action nor the result of one.
theorem sinks_agree_iff (path : Reached (daemon h) (boot stop focused rules) l) (run : RunId) :
    (∀ line ∈ (l.world.cells run).audit,
        ∃ event ∈ (l.world.cells run).rows.events, line = auditEntry run event) ∧
      ((l.world.cells run).published = [] ∨ ∃ o said verdict finish,
        Topic run (l.world.cells run) (l.world.ledgers run) o said verdict finish) ∧
      ∀ event ∈ (l.world.cells run).rows.events,
        (SinksAgree run event (auditEntry run event) (messageOf run event) ↔
          event.kind ≠ "action" ∧ event.kind ≠ "action_result") := by
  have chapter := daemon_chapter path run
  refine ⟨chapter.audited,chapter.topic,?_⟩
  intro event stored
  exact sinks_agree_of (chapter.emittable event stored)

def actionTold : List Cue := begins .run ++ works 34

theorem action_told : (drive (daemon plainHost) idle actionTold).any (fun l =>
    (l.world.cells "r").rows.events.any (fun event => event.kind == "action" &&
      kindOf (messageOf "r" event) == some "click") &&
    (l.world.cells "r").published.any fun message => kindOf message == some "click") = true := by
  decide +kernel

theorem sinks_agree_rehearsed : ∃ l, Reached (daemon plainHost) idle l ∧
    (∀ line ∈ (l.world.cells "r").audit,
        ∃ event ∈ (l.world.cells "r").rows.events, line = auditEntry "r" event) ∧
      ((l.world.cells "r").published = [] ∨ ∃ o said verdict finish,
        Topic "r" (l.world.cells "r") (l.world.ledgers "r") o said verdict finish) ∧
      ∀ event ∈ (l.world.cells "r").rows.events,
        (SinksAgree "r" event (auditEntry "r" event) (messageOf "r" event) ↔
          event.kind ≠ "action" ∧ event.kind ≠ "action_result") := by
  obtain ⟨l,path,_⟩ := rehearsed action_told
  exact ⟨l,path,sinks_agree_iff path "r"⟩

theorem action_kind_replaced : ∃ l, Reached (daemon plainHost) idle l ∧
    (∃ message ∈ (l.world.cells "r").published, kindOf message = some "click") ∧
    ∃ event ∈ (l.world.cells "r").rows.events,
      ¬ SinksAgree "r" event (auditEntry "r" event) (messageOf "r" event) := by
  obtain ⟨l,path,shown⟩ := rehearsed action_told
  simp only [Bool.and_eq_true,List.any_eq_true,beq_iff_eq] at shown
  obtain ⟨⟨event,stored,action,click⟩,message,inside,told⟩ := shown
  refine ⟨l,path,⟨message,inside,told⟩,event,stored,?_⟩
  intro agree
  have read : kindOf (messageOf "r" event) = some event.kind := by
    unfold kindOf
    rw [agree.told.named]
  rw [click,action] at read
  exact absurd (Option.some.inj read) (by decide)

end HyprlandAgent
