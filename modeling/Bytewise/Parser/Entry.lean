/-
# Bytewise.Parser.Entry — where a caller starts a parse.

`run` applies a parser to a window that is not larger than a limit. `parse` asks for the whole window and turns a
failure into a fault. A failure is reported on the core channel. Parsers that are applied directly are not
limited.
-/
import Bytewise.Parser.Lookahead

namespace Bytewise.Parser

variable {α : Type}

/-- The largest input, in bytes, for callers that give no limit of their own. -/
def defaultLimit : Nat := 64 * 1024 * 1024

/-- Refuses a window larger than the limit. A limit that is not positive allows every size. -/
def checkSize (limit : Option Int) (c : Cursor) : Except Fault Unit :=
  let most := limit.getD defaultLimit
  if 0 < most ∧ most < c.length then .error (.inputTooLarge c.length most) else .ok ()

/-- **`run levels limit p`** — `p` on a window of allowed size. -/
def run (levels : Levels) (limit : Option Int) (p : Parser α) : Parser α := fun c => do
  .ofExcept (checkSize limit c)
  match ← (p c).settle with
  | .ok m => return m
  | .error reason =>
    Attempt.note levels.core (.parseFailed c.length reason)
    .fail reason

/-- **`parse levels limit p c`** — the value of `p` on the whole window; a failure is a fault. -/
def parse (levels : Levels) (limit : Option Int) (p : Parser α) (c : Cursor) : Attempt α := do
  match ← (run levels limit p.whole c).settle with
  | .ok m => return m.value
  | .error reason => .raise (.parseFailed reason)

end Bytewise.Parser
