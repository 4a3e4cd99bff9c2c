import HyprlandAgent.Coroutine.Program

-- Assertions about a coroutine that shares its state with others: what holds
-- whenever it stands at an operation, and what holds of each of its endings.
namespace Coroutine
open Relation
variable {S : Signature} {σ α β : Type}

-- `act` is what performing an operation may do to the state and reply; `env` is
-- what may happen to the state while the coroutine stands at that operation.
structure Semantics (S : Signature) (σ : Type) where
  act : σ → (op : S.Op) → S.Reply op → σ → Prop
  env : S.Op → σ → σ → Prop

-- By recursion on the program. `pre` is owed at every operation, after any
-- interference; `post` is owed at the end, and interference after it is not
-- the coroutine's business.
def Holds (R : Semantics S σ) (pre : S.Op → σ → Prop) (post : Except S.Exc α → σ → Prop) :
    Prog S α → σ → Prop
  | .ret value,s => post (.ok value) s
  | .raise exc,s => post (.error exc) s
  | .await op next,s => ∀ s₁, ReflTransGen (R.env op) s s₁ →
      pre op s₁ ∧ ∀ reply s₂, R.act s₁ op reply s₂ → Holds R pre post (next reply) s₂

def Triple (R : Semantics S σ) (pre : S.Op → σ → Prop) (P : σ → Prop) (p : Prog S α)
    (Q : Except S.Exc α → σ → Prop) : Prop :=
  ∀ s, P s → Holds R pre Q p s

def ending (ok : α → σ → Prop) (err : S.Exc → σ → Prop) : Except S.Exc α → σ → Prop
  | .ok value => ok value
  | .error exc => err exc

@[simp] theorem ending_ok (ok : α → σ → Prop) (err : S.Exc → σ → Prop) (value : α) :
    ending ok err (.ok value) = ok value := rfl

@[simp] theorem ending_error (ok : α → σ → Prop) (err : S.Exc → σ → Prop) (exc : S.Exc) :
    ending ok err (.error exc) = err exc := rfl

def Stable (step : σ → σ → Prop) (P : σ → Prop) : Prop := ∀ s t, step s t → P s → P t

theorem Stable.reach {step : σ → σ → Prop} {P : σ → Prop} (stable : Stable step P)
    (path : ReflTransGen step s t) (holds : P s) : P t := by
  induction path with
  | refl => exact holds
  | tail _ last ih => exact stable _ _ last ih

theorem Stable.and {step : σ → σ → Prop} {P Q : σ → Prop} (left : Stable step P)
    (right : Stable step Q) : Stable step fun s => P s ∧ Q s :=
  fun s t moved both => ⟨left s t moved both.1,right s t moved both.2⟩

variable {R : Semantics S σ} {pre : S.Op → σ → Prop}

theorem holds_env {post : Except S.Exc α → σ → Prop} {op : S.Op} {next : S.Reply op → Prog S α}
    (holds : Holds R pre post (.await op next) s) (moved : R.env op s t) :
    Holds R pre post (.await op next) t :=
  fun s₁ path => holds s₁ (.head moved path)

theorem holds_act {post : Except S.Exc α → σ → Prop} {op : S.Op} {next : S.Reply op → Prog S α}
    {reply : S.Reply op} (holds : Holds R pre post (.await op next) s)
    (acted : R.act s op reply t) : Holds R pre post (next reply) t :=
  (holds s .refl).2 reply t acted

theorem holds_pre {post : Except S.Exc α → σ → Prop} {op : S.Op} {next : S.Reply op → Prog S α}
    (holds : Holds R pre post (.await op next) s) : pre op s :=
  (holds s .refl).1

theorem Holds.mono {post post' : Except S.Exc α → σ → Prop} {p : Prog S α}
    (weaker : ∀ result s, post result s → post' result s)
    (holds : Holds R pre post p s) : Holds R pre post' p s := by
  induction p generalizing s with
  | ret value => exact weaker _ _ holds
  | raise exc => exact weaker _ _ holds
  | await op next ih =>
    intro s₁ path
    obtain ⟨owed,after⟩ := holds s₁ path
    exact ⟨owed,fun reply s₂ acted => ih reply (after reply s₂ acted)⟩

theorem Holds.settle {middle : Except S.Exc α → σ → Prop} {post : Except S.Exc β → σ → Prop}
    {p : Prog S α} {next : Except S.Exc α → Prog S β} (first : Holds R pre middle p s)
    (second : ∀ result t, middle result t → Holds R pre post (next result) t) :
    Holds R pre post (p.settle next) s := by
  induction p generalizing s with
  | ret value => exact second _ _ first
  | raise exc => exact second _ _ first
  | await op more ih =>
    intro s₁ path
    obtain ⟨owed,after⟩ := first s₁ path
    exact ⟨owed,fun reply s₂ acted => ih reply (after reply s₂ acted)⟩

variable {P : σ → Prop}

theorem Triple.weaken {P' : σ → Prop} {Q : Except S.Exc α → σ → Prop} {p : Prog S α}
    (stronger : ∀ s, P' s → P s) (triple : Triple R pre P p Q) : Triple R pre P' p Q :=
  fun s holds => triple s (stronger s holds)

theorem Triple.mono {Q Q' : Except S.Exc α → σ → Prop} {p : Prog S α}
    (weaker : ∀ result s, Q result s → Q' result s) (triple : Triple R pre P p Q) :
    Triple R pre P p Q' :=
  fun s holds => (triple s holds).mono weaker

theorem Triple.relax {ok ok' : α → σ → Prop} {err err' : S.Exc → σ → Prop} {p : Prog S α}
    (oks : ∀ value s, ok value s → ok' value s) (errs : ∀ exc s, err exc s → err' exc s)
    (triple : Triple R pre P p (ending ok err)) : Triple R pre P p (ending ok' err') := by
  apply triple.mono
  intro result s reached
  cases result with
  | ok value => exact oks value s reached
  | error exc => exact errs exc s reached

theorem Triple.settle {middle : Except S.Exc α → σ → Prop} {Q : Except S.Exc β → σ → Prop}
    {p : Prog S α} {next : Except S.Exc α → Prog S β} (first : Triple R pre P p middle)
    (second : ∀ result, Triple R pre (middle result) (next result) Q) :
    Triple R pre P (p.settle next) Q :=
  fun s holds => (first s holds).settle fun result t reached => second result t reached

theorem Triple.ret {Q : Except S.Exc α → σ → Prop} {value : α}
    (done : ∀ s, P s → Q (.ok value) s) : Triple R pre P (.ret value) Q := done

theorem Triple.pure {Q : Except S.Exc α → σ → Prop} {value : α}
    (done : ∀ s, P s → Q (.ok value) s) : Triple R pre P (Pure.pure value) Q := done

theorem Triple.raise {Q : Except S.Exc α → σ → Prop} {exc : S.Exc}
    (done : ∀ s, P s → Q (.error exc) s) : Triple R pre P (.raise exc) Q := done

theorem Triple.ofExcept {Q : Except S.Exc α → σ → Prop} {result : Except S.Exc α}
    (done : ∀ s, P s → Q result s) : Triple R pre P (Prog.ofExcept result) Q := by
  cases result with
  | ok value => exact done
  | error exc => exact done

theorem Triple.bind {mid : α → σ → Prop} {Q : Except S.Exc β → σ → Prop} {p : Prog S α}
    {next : α → Prog S β}
    (first : Triple R pre P p (ending mid fun exc => Q (.error exc)))
    (second : ∀ value, Triple R pre (mid value) (next value) Q) :
    Triple R pre P (p >>= next) Q := by
  apply Triple.settle first
  intro result
  cases result with
  | ok value => exact second value
  | error exc => exact Triple.raise fun _ failed => failed

theorem Triple.seq {mid : α → σ → Prop} {ok : β → σ → Prop} {err : S.Exc → σ → Prop}
    {p : Prog S α} {next : α → Prog S β} (first : Triple R pre P p (ending mid err))
    (second : ∀ value, Triple R pre (mid value) (next value) (ending ok err)) :
    Triple R pre P (p >>= next) (ending ok err) := by
  apply Triple.settle first
  intro result
  cases result with
  | ok value => exact second value
  | error exc => exact Triple.raise fun _ failed => failed

theorem Triple.caught {ok : α → σ → Prop} {inner outer : S.Exc → σ → Prop} {p : Prog S α}
    {handler : S.Exc → Prog S α} (first : Triple R pre P p (ending ok inner))
    (second : ∀ exc, Triple R pre (inner exc) (handler exc) (ending ok outer)) :
    Triple R pre P (p.tryCatch handler) (ending ok outer) := by
  apply Triple.settle first
  intro result
  cases result with
  | ok value => exact Triple.ret fun _ reached => reached
  | error exc => exact second exc

theorem Triple.tryCatch {err : S.Exc → σ → Prop} {Q : Except S.Exc α → σ → Prop} {p : Prog S α}
    {handler : S.Exc → Prog S α}
    (first : Triple R pre P p (ending (fun value => Q (.ok value)) err))
    (second : ∀ exc, Triple R pre (err exc) (handler exc) Q) :
    Triple R pre P (p.tryCatch handler) Q := by
  apply Triple.settle first
  intro result
  cases result with
  | ok value => exact Triple.ret fun _ reached => reached
  | error exc => exact second exc

theorem Triple.tryFinally {middle : Except S.Exc α → σ → Prop} {Q : Except S.Exc α → σ → Prop}
    {p : Prog S α} {cleanup : Prog S Unit} (first : Triple R pre P p middle)
    (second : ∀ result, Triple R pre (middle result) cleanup
      (ending (fun _ => Q result) fun exc => Q (.error exc))) :
    Triple R pre P (p.tryFinally cleanup) Q :=
  Triple.settle first fun result =>
    Triple.bind (second result) fun _ => Triple.ofExcept fun _ reached => reached

theorem Triple.perform {Q : Except S.Exc (S.Res op) → σ → Prop}
    (stable : Stable (R.env op) P) (owed : ∀ s, P s → pre op s)
    (acts : ∀ s reply t, P s → R.act s op reply t → Q reply t) :
    Triple R pre P (Prog.perform op) Q := by
  intro s holds s₁ path
  have reached : P s₁ := stable.reach path holds
  refine ⟨owed s₁ reached,fun reply s₂ acted => ?_⟩
  have ended : Q reply s₂ := acts s₁ reply s₂ reached acted
  cases reply with
  | ok value => exact ended
  | error exc => exact ended

theorem Triple.chain {E : σ → Prop} {p : Prog S α} {next : α → Prog S β}
    (first : Triple R pre P p fun _ => E) (second : ∀ value, Triple R pre E (next value) fun _ => E) :
    Triple R pre P (p >>= next) fun _ => E := by
  apply Triple.settle first
  intro result
  cases result with
  | ok value => exact second value
  | error exc => exact Triple.raise fun _ reached => reached

def blank (S : Signature) : Semantics S Unit where
  act := fun _ _ _ _ => True
  env := fun _ _ _ => False

def Prog.All (legal : S.Op → Prop) (p : Prog S α) : Prop :=
  Holds (blank S) (fun op _ => legal op) (fun _ _ => True) p ()

theorem Prog.All.next {legal : S.Op → Prop} {op : S.Op} {next : S.Reply op → Prog S α}
    (all : (Prog.await op next).All legal) (reply : S.Reply op) : (next reply).All legal :=
  holds_act all True.intro

theorem Prog.All.head {legal : S.Op → Prop} {op : S.Op} {next : S.Reply op → Prog S α}
    (all : (Prog.await op next).All legal) : legal op :=
  holds_pre all

namespace Prog.All
variable {legal : S.Op → Prop}

theorem settle {p : Prog S α} {next : Except S.Exc α → Prog S β} (first : p.All legal)
    (second : ∀ result, (next result).All legal) : (p.settle next).All legal := by
  apply Holds.settle first
  intro result _ _
  exact second result

theorem bind {p : Prog S α} {next : α → Prog S β} (first : p.All legal)
    (second : ∀ value, (next value).All legal) : (p >>= next).All legal := by
  apply settle first
  intro result
  cases result with
  | ok value => exact second value
  | error exc => exact True.intro

theorem imp {lax : S.Op → Prop} {p : Prog S α} (implies : ∀ op, legal op → lax op) (all : p.All legal) :
    p.All lax := by
  induction p with
  | ret value => exact True.intro
  | raise exc => exact True.intro
  | await op next ih =>
    intro s path
    refine ⟨implies op all.head,?_⟩
    intro reply t acted
    exact ih reply (all.next reply)

theorem pure (value : α) : (Pure.pure value : Prog S α).All legal := True.intro

theorem raise (exc : S.Exc) : (.raise exc : Prog S α).All legal := True.intro

theorem ofExcept (result : Except S.Exc α) : (Prog.ofExcept result).All legal := by
  cases result <;> exact True.intro

theorem perform {op : S.Op} (allowed : legal op) : (Prog.perform op).All legal := by
  intro s path
  refine ⟨allowed,?_⟩
  intro reply t acted
  exact ofExcept reply

end Prog.All

def Prog.Every (P : Prog S α → Prop) : Prog S α → Prop
  | .ret value => P (.ret value)
  | .raise exc => P (.raise exc)
  | .await op next => P (.await op next) ∧ ∀ reply, (next reply).Every P

theorem Prog.Every.here {P : Prog S α → Prop} {p : Prog S α} (every : p.Every P) : P p := by
  cases p with
  | ret value => exact every
  | raise exc => exact every
  | await op next => exact every.1

theorem Prog.Every.next {P : Prog S α → Prop} {op : S.Op} {next : S.Reply op → Prog S α}
    (every : (Prog.await op next).Every P) (reply : S.Reply op) : (next reply).Every P :=
  every.2 reply

theorem Triple.along {quiet : S.Op → Prop} {p : Prog S α} (all : p.All quiet)
    (stable : ∀ op, quiet op → Stable (R.env op) P) (owed : ∀ op, quiet op → ∀ s, P s → pre op s)
    (acts : ∀ op, quiet op → ∀ s reply t, P s → R.act s op reply t → P t) :
    Triple R pre P p fun _ => P := by
  induction p with
  | ret value => exact fun _ holds => holds
  | raise exc => exact fun _ holds => holds
  | await op next ih =>
    intro s holds s₁ path
    have reached : P s₁ := (stable op all.head).reach path holds
    refine ⟨owed op all.head s₁ reached,?_⟩
    intro reply t acted
    exact ih reply (all.next reply) t (acts op all.head s₁ reply t reached acted)

end Coroutine
