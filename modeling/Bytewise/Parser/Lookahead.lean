/-
# Bytewise.Parser.Lookahead — options, lookahead and the end of the input.

`optional`, `lookahead` and `notFollowedBy` are the parsers that give input back: they leave the cursor where it
was, `optional` only where its parser failed. The tests for the end of the input consume nothing either.
-/
import Bytewise.Parser.Basic

namespace Bytewise.Parser

variable {α : Type}

/-- **`optional p`** — the value of `p`, or none and the input untouched where `p` fails. -/
def optional (p : Parser α) : Parser (Option α) := fun c => do
  match ← (p c).settle with
  | .ok m => return ⟨some m.value, m.rest⟩
  | .error _ => return ⟨none, c⟩

/-- **`lookahead p`** — the value of `p`, and the input untouched. -/
def lookahead (p : Parser α) : Parser α := fun c => do
  let m ← p c
  return ⟨m.value, c⟩

/-- **`notFollowedBy p`** — matches without consuming anything exactly where `p` fails. -/
def notFollowedBy (p : Parser α) : Parser Unit := fun c => do
  match ← (p c).settle with
  | .ok _ => .fail .parserSucceeded
  | .error _ => return ⟨(), c⟩

/-- Matches where no input is left. -/
def endOfInput : Parser Unit := fun c =>
  if c.atEnd then .done ⟨(), c⟩ else .fail .notEmpty

/-- Matches where input is left. It is the negation of `endOfInput` and fails as a negation does. -/
def moreInput : Parser Unit :=
  notFollowedBy endOfInput

/-- **`whole p`** — `p`, after which no input may be left. -/
def whole (p : Parser α) : Parser α := fun c => do
  let m ← p c
  let last ← endOfInput m.rest
  return ⟨m.value, last.rest⟩

end Bytewise.Parser
