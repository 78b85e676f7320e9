/-
# Bytewise.Attempt — what comes of applying a parser once.

An attempt ends in one of four ways: with a value, with a failure that another parser may make good, with a
fault that nothing makes good, or not at all within the steps it was given. Beside its ending it has a trace,
the events reported on the way. Attempts are sequenced by `bind`: the second one starts where the first one
ended with a value, and its trace follows the first one's.

`Attempt.settle` is the one place where a failure becomes a value. Everything that goes on after a
failure (options, lookahead, choice, tracing, the entry points) is written with it.
-/
import Bytewise.Event

namespace Bytewise

/-- **`Ending α`** — how an attempt ends. -/
inductive Ending (α : Type) where
  /-- With a value. -/
  | done (value : α)
  /-- Without a match. -/
  | failed (reason : Reason)
  /-- With a fault. -/
  | raised (fault : Fault)
  /-- Not within the steps it was given. -/
  | unfinished
  deriving DecidableEq

/-- **`Attempt α`** — an ending, and the events reported on the way to it. -/
structure Attempt (α : Type) where
  ending : Ending α
  trace : List Event
  deriving DecidableEq

namespace Attempt

variable {α β γ : Type}

/-- Ends with a value. -/
def done (value : α) : Attempt α := ⟨.done value, []⟩

/-- Ends without a match. -/
def fail (reason : Reason) : Attempt α := ⟨.failed reason, []⟩

/-- Ends with a fault. -/
def raise (fault : Fault) : Attempt α := ⟨.raised fault, []⟩

/-- Does not end within the steps it was given. -/
def unfinished : Attempt α := ⟨.unfinished, []⟩

/-- Reports an event. -/
def emit (event : Event) : Attempt Unit := ⟨.done (), [event]⟩

/-- Reports an event if its channel is on. -/
def note (on : Bool) (event : Event) : Attempt Unit :=
  if on then emit event else done ()

/-- A computation that may be a fault, as an attempt that reports nothing. -/
def ofExcept : Except Fault α → Attempt α
  | .ok a => done a
  | .error fault => raise fault

/-- **`bind x f`** — goes on with `f` where `x` ended with a value; the traces follow each other. -/
def bind (x : Attempt α) (f : α → Attempt β) : Attempt β :=
  match x with
  | ⟨.done a, trace⟩ =>
    let next := f a
    ⟨next.ending, trace ++ next.trace⟩
  | ⟨.failed reason, trace⟩ => ⟨.failed reason, trace⟩
  | ⟨.raised fault, trace⟩ => ⟨.raised fault, trace⟩
  | ⟨.unfinished, trace⟩ => ⟨.unfinished, trace⟩

instance : Monad Attempt where
  pure := done
  bind := bind

/-- **`settle x`** — a match or a failure as a value, so that what follows can go on after a failure. A
fault stays a fault. -/
def settle (x : Attempt α) : Attempt (Except Reason α) :=
  match x with
  | ⟨.done a, trace⟩ => ⟨.done (.ok a), trace⟩
  | ⟨.failed reason, trace⟩ => ⟨.done (.error reason), trace⟩
  | ⟨.raised fault, trace⟩ => ⟨.raised fault, trace⟩
  | ⟨.unfinished, trace⟩ => ⟨.unfinished, trace⟩

/-! ## Equations -/

@[simp] theorem pure_eq (a : α) : (pure a : Attempt α) = done a := rfl

@[simp] theorem bind_eq (x : Attempt α) (f : α → Attempt β) : x >>= f = x.bind f := rfl

@[simp] theorem done_bind (a : α) (f : α → Attempt β) : (done a).bind f = f a := rfl

@[simp] theorem fail_bind (reason : Reason) (f : α → Attempt β) : (fail reason).bind f = fail reason := rfl

@[simp] theorem raise_bind (fault : Fault) (f : α → Attempt β) : (raise fault).bind f = raise fault := rfl

@[simp] theorem unfinished_bind (f : α → Attempt β) : unfinished.bind f = unfinished := rfl

@[simp] theorem note_true (event : Event) : note true event = emit event := rfl

@[simp] theorem note_false (event : Event) : note false event = done () := rfl

@[simp] theorem ofExcept_ok (a : α) : ofExcept (.ok a) = done a := rfl

@[simp] theorem ofExcept_error (fault : Fault) : (ofExcept (.error fault) : Attempt α) = raise fault := rfl

@[simp] theorem settle_done (a : α) : (done a).settle = done (.ok a) := rfl

@[simp] theorem settle_fail (reason : Reason) :
    (fail reason : Attempt α).settle = done (.error reason) := rfl

@[simp] theorem settle_raise (fault : Fault) : (raise fault : Attempt α).settle = raise fault := rfl

@[simp] theorem settle_unfinished : (unfinished : Attempt α).settle = unfinished := rfl

theorem bind_done (x : Attempt α) : x.bind done = x := by
  rcases x with ⟨_ | _ | _ | _, trace⟩ <;> simp [bind, done]

theorem bind_assoc (x : Attempt α) (f : α → Attempt β) (g : β → Attempt γ) :
    (x.bind f).bind g = x.bind fun a => (f a).bind g := by
  rcases x with ⟨a | _ | _ | _, trace⟩ <;> try rfl
  rcases h : f a with ⟨_ | _ | _ | _, inner⟩ <;> simp [bind, h]

instance : LawfulMonad Attempt := LawfulMonad.mk' Attempt bind_done (fun _ _ => rfl) bind_assoc

end Attempt

end Bytewise
