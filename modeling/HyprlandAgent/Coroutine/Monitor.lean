import Mathlib.Data.List.Induction
import HyprlandAgent.Coroutine.Logic

-- Reference monitors: what a coroutine may ask for, told from what it asked for before
-- and how that was answered.
namespace Coroutine
variable {S : Signature} {μ α β : Type}

structure Asked (S : Signature) where
  op : S.Op
  reply : S.Reply op

-- What a coroutine has asked for at some point, whatever it was answered.
inductive Plays : Prog S α → List (Asked S) → Prop where
  | here {p : Prog S α} : Plays p []
  | await {op : S.Op} {next : S.Reply op → Prog S α} {reply : S.Reply op} {rest : List (Asked S)} :
      Plays (next reply) rest → Plays (.await op next) (⟨op,reply⟩ :: rest)

-- All that a coroutine asked for, with what it came to.
inductive Ends : Prog S α → List (Asked S) → Except S.Exc α → Prop where
  | ret {value : α} : Ends (.ret value) [] (.ok value)
  | raise {exc : S.Exc} : Ends (.raise exc) [] (.error exc)
  | await {op : S.Op} {next : S.Reply op → Prog S α} {reply : S.Reply op} {rest : List (Asked S)}
      {result : Except S.Exc α} : Ends (next reply) rest result → Ends (.await op next) (⟨op,reply⟩ :: rest) result

def replay (answer : (op : S.Op) → S.Reply op) : Nat → Prog S α → List (Asked S)
  | n + 1,.await op next => ⟨op,answer op⟩ :: replay answer n (next (answer op))
  | _,_ => []

theorem replay_plays (answer : (op : S.Op) → S.Reply op) (n : Nat) (p : Prog S α) : Plays p (replay answer n p) := by
  induction n generalizing p with
  | zero => exact .here
  | succ n ih =>
    cases p with
    | await op next => exact .await (ih _)
    | ret value => exact .here
    | raise exc => exact .here

theorem Prog.All.plays {legal : S.Op → Prop} {p : Prog S α} {trace : List (Asked S)} (all : p.All legal)
    (plays : Plays p trace) : ∀ asked ∈ trace, legal asked.op := by
  induction plays with
  | here => exact fun _ impossible => absurd impossible List.not_mem_nil
  | await plays ih =>
    intro asked inside
    rcases List.mem_cons.mp inside with rfl | later
    · exact all.head
    · exact ih (all.next _) asked later

structure Monitor (S : Signature) (μ : Type) where
  start : μ
  note : μ → Asked S → μ
  allows : μ → S.Op → Prop

namespace Monitor
variable (m : Monitor S μ)

def after (trace : List (Asked S)) : μ := trace.foldl m.note m.start

def Accepts (trace : List (Asked S)) : Prop :=
  ∀ front asked rest, trace = front ++ asked :: rest → m.allows (m.after front) asked.op

def semantics : Semantics S μ where
  act := fun s op reply t => t = m.note s ⟨op,reply⟩
  env := fun _ _ _ => False

abbrev Watched (P : μ → Prop) (p : Prog S α) (Q : Except S.Exc α → μ → Prop) : Prop :=
  Triple m.semantics (fun op s => m.allows s op) P p Q

variable {m}

theorem after_snoc (trace : List (Asked S)) (asked : Asked S) :
    m.after (trace ++ [asked]) = m.note (m.after trace) asked := List.foldl_append

theorem accepts_of_holds {post : Except S.Exc α → μ → Prop} {p : Prog S α} {s : μ} {trace : List (Asked S)}
    (holds : Holds m.semantics (fun op s => m.allows s op) post p s) (plays : Plays p trace)
    {front rest : List (Asked S)} {asked : Asked S} (split : trace = front ++ asked :: rest) :
    m.allows (front.foldl m.note s) asked.op := by
  induction plays generalizing front s with
  | here => simp at split
  | @await op next reply later plays ih =>
    cases front with
    | nil =>
      obtain ⟨rfl,rfl⟩ := List.cons.inj split
      exact holds_pre holds
    | cons first front =>
      obtain ⟨rfl,others⟩ := List.cons.inj split
      exact ih (holds_act holds rfl) others

theorem Watched.accepts {Q : Except S.Exc α → μ → Prop} {P : μ → Prop} {p : Prog S α} (watched : m.Watched P p Q)
    (initial : P m.start) {trace : List (Asked S)} (plays : Plays p trace) : m.Accepts trace :=
  fun _ _ _ split => accepts_of_holds (watched m.start initial) plays split

theorem ends_of_holds {post : Except S.Exc α → μ → Prop} {p : Prog S α} {s : μ} {trace : List (Asked S)}
    {result : Except S.Exc α} (holds : Holds m.semantics (fun op s => m.allows s op) post p s)
    (ends : Ends p trace result) : post result (trace.foldl m.note s) := by
  induction ends generalizing s with
  | ret => exact holds
  | raise => exact holds
  | await _ ih => exact ih (holds_act holds rfl)

theorem Watched.ends {Q : Except S.Exc α → μ → Prop} {P : μ → Prop} {p : Prog S α} (watched : m.Watched P p Q)
    (initial : P m.start) {trace : List (Asked S)} {result : Except S.Exc α} (ends : Ends p trace result) :
    Q result (m.after trace) :=
  ends_of_holds (watched m.start initial) ends

theorem Accepts.front {front rest : List (Asked S)} (accepted : m.Accepts (front ++ rest)) : m.Accepts front := by
  rintro before asked later rfl
  exact accepted before asked (later ++ rest) (by rw [List.append_assoc,List.cons_append])

theorem Accepts.invariant {P : List (Asked S) → μ → Prop} {trace : List (Asked S)} (accepted : m.Accepts trace)
    (initial : P [] m.start)
    (step : ∀ front asked s, P front s → m.allows s asked.op → P (front ++ [asked]) (m.note s asked)) :
    P trace (m.after trace) := by
  induction trace using List.reverseRecOn with
  | nil => exact initial
  | append_singleton trace asked ih =>
    rw [after_snoc]
    exact step trace asked _ (ih accepted.front) (accepted trace asked [] rfl)

theorem watched_perform {P : μ → Prop} {op : S.Op} {Q : Except S.Exc (S.Res op) → μ → Prop}
    (allowed : ∀ s, P s → m.allows s op) (after : ∀ s reply, P s → Q reply (m.note s ⟨op,reply⟩)) :
    m.Watched P (Prog.perform op) Q := by
  refine Triple.perform (fun _ _ impossible => impossible.elim) allowed ?_
  rintro s reply _ holds rfl
  exact after s reply holds

theorem watched_along {P : μ → Prop} {quiet : S.Op → Prop} {p : Prog S α} (all : p.All quiet)
    (allowed : ∀ op, quiet op → ∀ s, P s → m.allows s op)
    (kept : ∀ op, quiet op → ∀ s reply, P s → P (m.note s ⟨op,reply⟩)) : m.Watched P p fun _ => P := by
  refine Triple.along all (fun _ _ _ _ impossible => impossible.elim) allowed ?_
  rintro op calm s reply _ holds rfl
  exact kept op calm s reply holds

end Monitor
end Coroutine
