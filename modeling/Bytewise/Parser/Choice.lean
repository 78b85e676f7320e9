/-
# Bytewise.Parser.Choice — the first alternative that matches.

Alternatives are tried in order at the same cursor. The first that does not fail decides, be it by a match
or by a fault; there is no longest match. If all fail the choice reports a reason of its own.
-/
import Bytewise.Parser.Basic

namespace Bytewise.Parser

variable {α : Type}

/-- **`firstOf ps`** — the match of the first parser that does not fail. -/
def firstOf : List (Parser α) → Parser α
  | [], _ => .fail .noParserSucceeded
  | p :: ps, c => do
    match ← (p c).settle with
    | .ok m => return m
    | .error _ => firstOf ps c

end Bytewise.Parser
