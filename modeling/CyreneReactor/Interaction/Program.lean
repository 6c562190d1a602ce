import Mathlib.Logic.Relation

namespace Interaction

/-! Programs that share state with other programs and own one re-entrant lock.

A program is a finite tree of calls to an outer world.  Every call names an
operation and continues with whatever answer the world gives, so a statement
about all answers is a statement about all behaviours of that world.  Taking
and giving back the lock are part of the tree because the meaning of a call
depends on whether its caller holds the lock.
-/

/-- The operations a program may call, each with the type of its answers. -/
structure Signature where
  Op : Type
  Answer : Op → Type

inductive Program (signature : Signature) (α : Type) where
  | pure (value : α)
  | call (op : signature.Op) (next : signature.Answer op → Program signature α)
  | acquire (next : Program signature α)
  | release (next : Program signature α)

namespace Program

variable {signature : Signature} {α β γ : Type}

def bind : Program signature α → (α → Program signature β) → Program signature β
  | .pure value, next => next value
  | .call op rest, next => .call op fun answer => (rest answer).bind next
  | .acquire rest, next => .acquire (rest.bind next)
  | .release rest, next => .release (rest.bind next)

theorem bind_pure (program : Program signature α) : program.bind .pure = program := by
  induction program with
  | pure value => rfl
  | call op rest ih => simp only [bind, ih]
  | acquire rest ih => simp only [bind, ih]
  | release rest ih => simp only [bind, ih]

theorem bind_assoc (program : Program signature α)
    (first : α → Program signature β) (second : β → Program signature γ) :
    (program.bind first).bind second = program.bind fun value => (first value).bind second := by
  induction program with
  | pure value => rfl
  | call op rest ih => simp only [bind, ih]
  | acquire rest ih => simp only [bind, ih]
  | release rest ih => simp only [bind, ih]

instance : Monad (Program signature) where
  pure := .pure
  bind := .bind

instance : LawfulMonad (Program signature) :=
  LawfulMonad.mk' (Program signature) bind_pure (fun _ _ => rfl) bind_assoc

/-- One call, returning its answer. -/
def perform (op : signature.Op) : Program signature (signature.Answer op) :=
  .call op .pure

/-- Run `body` inside the lock and give the lock back with its result. -/
def locked (body : Program signature α) : Program signature α :=
  .acquire (body.bind fun value => .release (.pure value))

@[simp] theorem pure_def (value : α) :
    (Pure.pure value : Program signature α) = .pure value := rfl

@[simp] theorem bind_def (program : Program signature α) (next : α → Program signature β) :
    program >>= next = program.bind next := rfl

end Program

/-- Programs that end with a value or raise. -/
abbrev Fallible (signature : Signature) (ε α : Type) := ExceptT ε (Program signature) α

namespace Fallible

variable {signature : Signature} {ε α β : Type}

/-- A call whose answer is used as a value. -/
def perform (op : signature.Op) : Fallible signature ε (signature.Answer op) :=
  ExceptT.lift (Program.perform op)

/-- `with lock:` gives the lock back whether the body returns or raises. -/
def locked (body : Fallible signature ε α) : Fallible signature ε α :=
  ExceptT.mk (Program.locked body.run)

/-- Turn an outcome that was already computed into a program. -/
def ofExcept (outcome : Except ε α) : Fallible signature ε α :=
  ExceptT.mk (.pure outcome)

/-- Run the program and hand its outcome, value or error, to the caller. -/
def attempt (body : Fallible signature ε α) : Program signature (Except ε α) :=
  body.run

end Fallible

end Interaction
