/-
# Bytewise.Parser.Basic — parsers and their matches.

A parser is any function from cursors to attempts at a match. The type promises nothing about where the rest
of the input begins: a parser written by hand may move backwards, jump or change the window, and the
combinators of this library have to say what they do with such a parser too.
-/
import Bytewise.Attempt
import Bytewise.Cursor.Basic

namespace Bytewise

/-- **`Match α`** — the value that a parser produced and the input that it left. -/
structure Match (α : Type) where
  value : α
  rest : Cursor
  deriving DecidableEq

/-- **`Parser α`** — tries to match at a cursor. -/
abbrev Parser (α : Type) := Cursor → Attempt (Match α)

namespace Parser

variable {α β : Type}

/-- Matches everywhere, consumes nothing and produces `value`. -/
def succeed (value : α) : Parser α := fun c => .done ⟨value, c⟩

/-- Matches nowhere. -/
def reject (reason : Reason) : Parser α := fun _ => .fail reason

/-- **`map f p`** — the value of `p` through a function that may refuse it. -/
def map (f : α → Except Fault β) (p : Parser α) : Parser β := fun c => do
  let m ← p c
  let value ← .ofExcept (f m.value)
  return ⟨value, m.rest⟩

/-- The value of `p` through a function that accepts every value. -/
def as (f : α → β) (p : Parser α) : Parser β :=
  p.map fun a => .ok (f a)

/-- Moves by `count`, and is a fault where the cursor cannot move so. -/
def move (count : Int) : Parser Unit := fun c => do
  let rest ← .ofExcept (c.advance count)
  return ⟨(), rest⟩

/-- Goes to another window over the same source and produces the position it came from. -/
def jump (pos stop : Int) : Parser Nat := fun c => do
  let rest ← .ofExcept (Cursor.ofBounds c.source pos stop)
  return ⟨c.pos, rest⟩

/-- Produces the next byte without consuming it, and is a fault at the end of the window. -/
def here : Parser UInt8 := fun c => do
  let b ← .ofExcept c.current
  return ⟨b, c⟩

/-- Applies `p` to a window of at most `count` bytes. The rest keeps the shortened end. -/
def within (count : Int) (p : Parser α) : Parser α := fun c =>
  p (c.limit count)

end Parser

end Bytewise
