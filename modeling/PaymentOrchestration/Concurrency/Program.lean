import Mathlib.Logic.Function.Basic

/-!
This module contains command trees: programs of an asynchronous party that shares its world with
others. A program stops at every command it issues, so that other parties can run in between.
-/

/--
A program over the commands `Cmd`. A command is answered by the world, with a value of its response
type or with an exception.
-/
inductive Prog (Cmd : Type) (Resp : Cmd → Type) (ε : Type) (α : Type) : Type where
  | pure (a : α)
  | throw (e : ε)
  | op (c : Cmd) (k : Except ε (Resp c) → Prog Cmd Resp ε α)
  /-- Either branch may be the one that goes on. -/
  | alt (p q : Prog Cmd Resp ε α)

namespace Prog

variable {Cmd : Type} {Resp : Cmd → Type} {ε : Type} {α β γ : Type}

def bind (p : Prog Cmd Resp ε α) (f : α → Prog Cmd Resp ε β) : Prog Cmd Resp ε β :=
  match p with
  | .pure a => f a
  | .throw e => .throw e
  | .op c k => .op c (fun r => (k r).bind f)
  | .alt p q => .alt (p.bind f) (q.bind f)

def tryCatch (p : Prog Cmd Resp ε α) (handler : ε → Prog Cmd Resp ε α) : Prog Cmd Resp ε α :=
  match p with
  | .pure a => .pure a
  | .throw e => handler e
  | .op c k => .op c (fun r => (k r).tryCatch handler)
  | .alt p q => .alt (p.tryCatch handler) (q.tryCatch handler)

instance : Monad (Prog Cmd Resp ε) where
  pure := .pure
  bind := bind

instance : MonadExcept ε (Prog Cmd Resp ε) where
  throw := .throw
  tryCatch := tryCatch

/--
Issue a command and wait for its answer.
-/
def perform (c : Cmd) : Prog Cmd Resp ε (Resp c) :=
  .op c fun
    | .ok a => .pure a
    | .error e => .throw e

/-!
Promises that run at the same time. Between two commands of one of them the other may issue any
number of its own.
-/

/--
What is left of a promise whose partner was rejected with `e`. The rejection may be delivered at
once or after further commands of the promise.
-/
def reject (e : ε) (p : Prog Cmd Resp ε α) : Prog Cmd Resp ε β :=
  match p with
  | .pure _ => .throw e
  | .throw _ => .throw e
  | .op c k => .alt (.throw e) (.op c (fun r => (k r).reject e))
  | .alt p q => .alt (p.reject e) (q.reject e)

/--
Let the right promise run before the left one issues its next command. `step q` is the program that
lets the left promise issue that command when `q` is left of the right one.
-/
def letRight (step : Prog Cmd Resp ε β → Prog Cmd Resp ε γ) (q : Prog Cmd Resp ε β)
    : Prog Cmd Resp ε γ :=
  match q with
  | .pure b => step (.pure b)
  | .throw e => .alt (.throw e) (step (.throw e))
  | .op d l => .alt (step (.op d l)) (.op d (fun r => (l r).letRight step))
  | .alt p q => .alt (p.letRight step) (q.letRight step)

/--
`Promise.all` of two promises.
-/
def both (p : Prog Cmd Resp ε α) (q : Prog Cmd Resp ε β) : Prog Cmd Resp ε (α × β) :=
  match p with
  | .pure a => q.bind (fun b => .pure (a, b))
  | .throw e => q.reject e
  | .op c k => q.letRight (fun q => .op c (fun r => (k r).both q))
  | .alt p p' => .alt (p.both q) (p'.both q)

/--
`Promise.all` of a list of promises.
-/
def all (ps : List (Prog Cmd Resp ε α)) : Prog Cmd Resp ε (List α) :=
  match ps with
  | [] => .pure []
  | p :: ps => (p.both (all ps)).bind (fun r => .pure (r.1 :: r.2))

@[simp]
theorem pure_def (a : α) : (Pure.pure a : Prog Cmd Resp ε α) = .pure a := by
  rfl

@[simp]
theorem throw_def (e : ε) : (MonadExcept.throw e : Prog Cmd Resp ε α) = .throw e := by
  rfl

@[simp]
theorem bind_def (p : Prog Cmd Resp ε α) (f : α → Prog Cmd Resp ε β) : p >>= f = p.bind f := by
  rfl

@[simp]
theorem tryCatch_def (p : Prog Cmd Resp ε α) (handler : ε → Prog Cmd Resp ε α)
    : MonadExcept.tryCatch p handler = p.tryCatch handler := by
  rfl

end Prog
