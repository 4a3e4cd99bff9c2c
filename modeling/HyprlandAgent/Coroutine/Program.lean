import Mathlib.Logic.Relation

-- Coroutines as data: what a coroutine asks its event loop for, and how it goes
-- on with each reply. Nothing here knows which operations there are.
namespace Coroutine

structure Signature where
  Op : Type
  Res : Op → Type
  Exc : Type

abbrev Signature.Reply (S : Signature) (op : S.Op) := Except S.Exc (S.Res op)

-- `await` stands for every operation, suspending or not: the loop decides which.
-- A reply is a value or an exception thrown in at that point.
inductive Prog (S : Signature) (α : Type) where
  | ret (value : α)
  | raise (exc : S.Exc)
  | await (op : S.Op) (next : S.Reply op → Prog S α)

namespace Prog
variable {S : Signature} {α β γ : Type}

-- The one sequencing primitive: `next` sees how the first part ended. Binding,
-- catching and cleaning up differ only in what they do with the two endings.
def settle : Prog S α → (Except S.Exc α → Prog S β) → Prog S β
  | .ret value,next => next (.ok value)
  | .raise exc,next => next (.error exc)
  | .await op more,next => .await op fun reply => (more reply).settle next

def ofExcept : Except S.Exc α → Prog S α
  | .ok value => .ret value
  | .error exc => .raise exc

def andThen (first : Prog S α) (next : α → Prog S β) : Prog S β :=
  first.settle fun
    | .ok value => next value
    | .error exc => .raise exc

def perform (op : S.Op) : Prog S (S.Res op) := .await op ofExcept

-- `try: first  except: handler exc`; a handler passes on what it does not catch.
def tryCatch (first : Prog S α) (handler : S.Exc → Prog S α) : Prog S α :=
  first.settle fun
    | .ok value => .ret value
    | .error exc => handler exc

-- `finally`: the cleanup runs on both endings and its own exception wins.
def tryFinally (first : Prog S α) (cleanup : Prog S Unit) : Prog S α :=
  first.settle fun ending => cleanup.andThen fun _ => ofExcept ending

instance : Monad (Prog S) where
  pure := .ret
  bind := andThen

@[simp] theorem settle_ret (value : α) (next : Except S.Exc α → Prog S β) :
    (ret value).settle next = next (.ok value) := rfl

@[simp] theorem settle_raise (exc : S.Exc) (next : Except S.Exc α → Prog S β) :
    (raise exc).settle next = next (.error exc) := rfl

@[simp] theorem settle_await (op : S.Op) (more : S.Reply op → Prog S α)
    (next : Except S.Exc α → Prog S β) :
    (await op more).settle next = .await op fun reply => (more reply).settle next := rfl

end Prog
end Coroutine
