/-
# Bytewise.Outcome — a match or a failure, as callers compare and show it.

An outcome is what is left of an attempt that ended without a fault, its trace apart. Two matches are the same
if their values are the same (in the callers' equality, where true is 1) and their cursors are equal; two
failures if their reasons are. A match and a failure never are.
-/
import Bytewise.Cursor.Printer
import Bytewise.Parser.Basic
import Bytewise.Value.Printer

namespace Bytewise

/-- **`Outcome`** — a match, or the reason of a failure. -/
abbrev Outcome := Except Reason (Match Value)

namespace Outcome

/-- The outcome is a match. -/
def isMatch : Outcome → Bool
  | .ok _ => true
  | .error _ => false

/-- **`same a b`** — the equality of outcomes that callers see. -/
def same : Outcome → Outcome → Bool
  | .ok m, .ok n => m.value.same n.value && m.rest == n.rest
  | .error r, .error s => r == s
  | _, _ => false

/-- **`display o`** — a match by its value and its rest, a failure by the tag and the text of its reason. -/
def display : Outcome → String
  | .ok m => "ParseResult(value=" ++ m.value.display ++ ", cursor=" ++ m.rest.display ++ ")"
  | .error r =>
    "ParseFailure(reason=<FailureReason." ++ r.tag ++ ": " ++ Text.quoted r.text ++ ">)"

end Outcome

end Bytewise
