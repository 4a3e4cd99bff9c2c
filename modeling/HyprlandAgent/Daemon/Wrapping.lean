import HyprlandAgent.Daemon.RunExecutor

-- What a run's body does around its orchestration: the timeout, the status, the
-- announcement and the `finally` block.
namespace HyprlandAgent
open Coroutine RunExecutor
variable {σ : Type} {h : Host} {run : RunId}

inductive Bookkeeping (run : RunId) : Op → Prop where
  | clock : Bookkeeping run (.tool .time)
  | enter (timeout : Seconds) : Bookkeeping run (.enterTimeout run timeout)
  | leave : Bookkeeping run (.leaveTimeout run)
  | status {status : RunStatus} (terminal : status.terminal = true) (error : Option String) :
      Bookkeeping run (.store run (.updateRunStatus status none error))
  | metrics (durationS : Seconds) :
      Bookkeeping run (.store run (.updateRunMetrics none none (some durationS)))
  | outcome (outcome : RunOutcome) (score : Rat) :
      Bookkeeping run (.store run (.upsertRunOutcome outcome score .derived none))
  | pop : Bookkeeping run (.seqPop run)
  | tell (message : Dict) : Bookkeeping run (.publish run message)

inductive Emission (run : RunId) : Op → Prop where
  | number : Emission run (.seqNext run)
  | clock : Emission run (.tool .time)
  | append (event : RunEventRecord) : Emission run (.store run (.appendEvent event))
  | audit (entry : Dict) : Emission run (.auditAppend run entry)
  | tell (message : Dict) : Emission run (.publish run message)

theorem emit_around {R : Semantics effects σ} {pre : Op → σ → Prop} {X E : σ → Prop}
    (emission : ∀ op, Emission run op → Triple R pre X (perform op) (ending (fun _ => X) fun _ => E))
    (kind : String) (payload : Dict) :
    Triple R pre X ((contextOf h run).emit kind payload) (ending (fun _ => X) fun _ => E) := by
  apply Triple.seq (emission _ .number)
  intro seq
  apply Triple.seq (emission _ .clock)
  intro ts
  refine Triple.seq (emission _ (.append _)) ?_
  intro _
  have audited : Triple R pre X (audit h run (auditEntry run ⟨seq,ts,kind,payload⟩))
      (ending (fun _ => X) fun _ => E) := by
    unfold audit
    split
    · exact emission _ (.audit _)
    · exact Triple.pure fun _ reached => reached
  apply Triple.seq audited
  intro _
  exact emission _ (.tell _)

section
variable {R : Semantics effects σ} {pre : Op → σ → Prop} {S E : σ → Prop}
  (books : ∀ op, Bookkeeping run op → Triple R pre E (perform op) fun _ => E)
include books

theorem waitFor_around {timeout : Seconds} {inner : Async Unit}
    (enter : Triple R pre S (perform (.enterTimeout run timeout)) (ending (fun _ => S) fun _ => E))
    (kept : Triple R pre S inner fun _ => E) :
    Triple R pre S (waitFor run timeout inner) fun _ => E := by
  unfold waitFor
  apply Triple.bind enter
  intro _
  apply Triple.settle kept
  intro result
  apply Triple.chain (books _ .leave)
  intro own
  split
  · split
    · exact Triple.raise fun _ reached => reached
    · exact Triple.raise fun _ reached => reached
  · exact Triple.ofExcept fun _ reached => reached

theorem announce_around {status : RunStatus} (terminal : status.terminal = true)
    (error : Option String) (kind : String) (payload : Dict) :
    Triple R pre E (updateStatus run status error >>= fun _ => publish run kind payload) fun _ => E := by
  refine Triple.chain (books _ (.status terminal error)) ?_
  intro _
  exact books _ (.tell _)

theorem recordFailure_around (kind : RunKind) (exc : Exc) :
    Triple R pre E (recordFailure run kind exc) fun _ => E := by
  unfold recordFailure
  split
  · exact announce_around books rfl _ _ _
  · exact announce_around books rfl _ _ _
  · refine Triple.chain (books _ (.status rfl none)) ?_
    intro _
    refine Triple.chain (books _ (.tell _)) ?_
    intro _
    exact Triple.raise fun _ reached => reached
  · exact announce_around books rfl _ _ _

theorem attempt_around {kind : RunKind} {inner : Async Unit}
    (waited : Triple R pre S (waitFor run runTimeout inner) fun _ => E) :
    Triple R pre S (attempt run kind inner) fun _ => E := by
  unfold attempt
  refine Triple.settle (Triple.chain waited ?_) ?_
  · intro _
    exact announce_around books rfl _ _ _
  · intro result
    cases result with
    | ok value => exact Triple.pure fun _ reached => reached
    | error exc =>
      apply Triple.settle (recordFailure_around books kind exc)
      intro ended
      exact Triple.pure fun _ reached => reached

theorem finish_around (task : String) (tStart : Seconds) (status : RunStatus) :
    Triple R pre E (finish run task tStart status) fun _ => E := by
  unfold finish
  apply Triple.chain (books _ .clock)
  intro now
  refine Triple.chain (books _ (.metrics _)) ?_
  intro _
  refine Triple.chain (books _ (.outcome _ _)) ?_
  intro _
  apply Triple.chain (books _ .pop)
  intro _
  exact books _ (.tell _)

theorem runTask_around {kind : RunKind} {task : String} {brain : Brain}
    (clock : Triple R pre S (ask .time) (ending (fun _ => S) fun _ => E))
    (enter : Triple R pre S (perform (.enterTimeout run runTimeout)) (ending (fun _ => S) fun _ => E))
    (kept : Triple R pre S (orchestrate h run kind task brain) fun _ => E) :
    Triple R pre S (runTask h run kind task brain) fun _ => E := by
  unfold runTask
  apply Triple.bind clock
  intro tStart
  refine Triple.chain (attempt_around books (waitFor_around books enter kept)) ?_
  intro given
  obtain ⟨status,ended⟩ := given
  apply Triple.chain (finish_around books task tStart status)
  intro _
  exact Triple.ofExcept fun _ reached => reached

end
end HyprlandAgent
