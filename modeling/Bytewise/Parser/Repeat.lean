/-
# Bytewise.Parser.Repeat — a parser again and again.

Both repetitions, collecting values (`many1`, `many`) and taking bytes (`span`), walk the same *chain*: the parser
is applied where its last match left off until something stops it. A match that leaves a window as long as the
one it started from is stuck, for it would be repeated for ever, and that is a fault. The guard looks at the
*length* of the window and at nothing else: a parser that moves backwards is not stuck.

A parser that never comes to rest (one that moves back and forth, say) has an endless chain, so chains are
walked within a budget of steps; a chain that outlasts its budget is `unfinished`. For parsers that
only shorten the window a budget above the window's length is never used up.
-/
import Bytewise.Parser.Basic

namespace Bytewise

/-- What stopped a chain. -/
inductive Halt where
  /-- The chain was not to go on from here. -/
  | full
  /-- The parser failed. -/
  | failed (reason : Reason)
  /-- The parser matched and left the window as long as it was. -/
  | stuck
  /-- The parser ended with a fault. -/
  | raised (fault : Fault)
  /-- The parser did not end, or the budget was used up. -/
  | unfinished
  deriving DecidableEq

/-- **`Chain α`** — the matches of a parser one after the other. -/
structure Chain (α : Type) where
  /-- The values of the matches, in order. -/
  values : List α
  /-- Where the last match left off, or where the chain began. -/
  last : Cursor
  halt : Halt
  trace : List Event

namespace Chain

variable {α β : Type}

/-- The chain with one more match in front. -/
def cons (value : α) (trace : List Event) (k : Chain α) : Chain α :=
  { k with values := value :: k.values, trace := trace ++ k.trace }

/-- What a repetition makes of a chain: a chain that is full or ended in a failure has the given
ending, a stuck one is a fault in the repetition's name. -/
def finish (k : Chain α) (repetition : String) (ending : Ending β) : Attempt β :=
  match k.halt with
  | .full | .failed _ => ⟨ending, k.trace⟩
  | .stuck => ⟨.raised (.noProgress repetition), k.trace⟩
  | .raised fault => ⟨.raised fault, k.trace⟩
  | .unfinished => ⟨.unfinished, k.trace⟩

end Chain

namespace Parser

variable {α : Type}

/-- Walks the chain on from `c`, with the values and the events so far, latest first. -/
def chainFrom (p : Parser α) (goOn : Cursor → Bool) :
    (budget : Nat) → (c : Cursor) → (values : List α) → (trace : List Event) → Chain α
  | 0, c, values, trace => ⟨values.reverse, c, .unfinished, trace.reverse⟩
  | budget + 1, c, values, trace =>
    if goOn c then
      match p c with
      | ⟨.done m, events⟩ =>
        if m.rest.length = c.length then
          ⟨values.reverse, c, .stuck, (events.reverse ++ trace).reverse⟩
        else
          chainFrom p goOn budget m.rest (m.value :: values) (events.reverse ++ trace)
      | ⟨.failed reason, events⟩ =>
        ⟨values.reverse, c, .failed reason, (events.reverse ++ trace).reverse⟩
      | ⟨.raised fault, events⟩ =>
        ⟨values.reverse, c, .raised fault, (events.reverse ++ trace).reverse⟩
      | ⟨.unfinished, events⟩ =>
        ⟨values.reverse, c, .unfinished, (events.reverse ++ trace).reverse⟩
    else
      ⟨values.reverse, c, .full, trace.reverse⟩

/-- **`chain p goOn budget c`** — the matches of `p` from `c` on, for as long as `goOn` holds where the next
one would start. -/
def chain (p : Parser α) (goOn : Cursor → Bool) (budget : Nat) (c : Cursor) : Chain α :=
  p.chainFrom goOn budget c [] []

/-- **`many1 budget p`** — the values of `p` until it fails, at least one. -/
def many1 (budget : Nat) (p : Parser α) : Parser (List α) := fun c =>
  let k := p.chain (fun _ => true) budget c
  k.finish "one_or_more"
    (if k.values.isEmpty then .failed .noRepetition else .done ⟨k.values, k.last⟩)

/-- **`many budget p`** — the values of `p` until it fails, possibly none. -/
def many (budget : Nat) (p : Parser α) : Parser (List α) := fun c => do
  match ← (many1 budget p c).settle with
  | .ok m => return m
  | .error _ => return ⟨[], c⟩

/-- **`span budget p`** — the bytes that `p` matches again and again until it fails or no input is left. Fails
on an empty window only. Where the chain comes back to the position it began at, nothing was taken and the
input is untouched. -/
def span (budget : Nat) (p : Parser α) : Parser (List UInt8) := fun c =>
  if c.atEnd then .fail .emptyInput
  else
    let k := p.chain (fun here => !here.atEnd) budget c
    k.finish "take_while"
      (.done (if k.last.pos = c.pos then ⟨[], c⟩ else ⟨c.sliceTo k.last.pos, k.last⟩))

/-! ## The chain, step by step -/

/-- What was gathered before does not change the walk. -/
theorem chainFrom_eq (p : Parser α) (goOn : Cursor → Bool) (budget : Nat) (c : Cursor)
    (values : List α) (trace : List Event) :
    p.chainFrom goOn budget c values trace =
      let k := p.chain goOn budget c
      ⟨values.reverse ++ k.values, k.last, k.halt, trace.reverse ++ k.trace⟩ := by
  induction budget generalizing c values trace with
  | zero => simp [chain, chainFrom]
  | succ budget ih =>
    by_cases hgo : goOn c
    · rcases hp : p c with ⟨m | _ | _ | _, events⟩
      · by_cases hlen : m.rest.length = c.length
        · simp [chain, chainFrom, hgo, hp, hlen]
        · simp only [chain, chainFrom, hgo, hp, hlen, if_true, if_false]
          rw [ih, ih m.rest [m.value]]
          simp
      all_goals simp [chain, chainFrom, hgo, hp]
    · simp [chain, chainFrom, hgo]

@[simp] theorem chain_zero (p : Parser α) (goOn : Cursor → Bool) (c : Cursor) :
    p.chain goOn 0 c = ⟨[], c, .unfinished, []⟩ := rfl

/-- **One step of a chain.** -/
theorem chain_succ (p : Parser α) (goOn : Cursor → Bool) (budget : Nat) (c : Cursor) :
    p.chain goOn (budget + 1) c =
      if goOn c then
        match p c with
        | ⟨.done m, events⟩ =>
          if m.rest.length = c.length then ⟨[], c, .stuck, events⟩
          else (p.chain goOn budget m.rest).cons m.value events
        | ⟨.failed reason, events⟩ => ⟨[], c, .failed reason, events⟩
        | ⟨.raised fault, events⟩ => ⟨[], c, .raised fault, events⟩
        | ⟨.unfinished, events⟩ => ⟨[], c, .unfinished, events⟩
      else ⟨[], c, .full, []⟩ := by
  by_cases hgo : goOn c
  · rcases hp : p c with ⟨m | _ | _ | _, events⟩
    · by_cases hlen : m.rest.length = c.length
      · simp [chain, chainFrom, hgo, hp, hlen]
      · rw [chain, chainFrom]
        simp only [hgo, hp, hlen, if_true, if_false]
        rw [chainFrom_eq]
        simp [Chain.cons]
    all_goals simp [chain, chainFrom, hgo, hp]
  · simp [chain, chainFrom, hgo]

end Parser

end Bytewise
