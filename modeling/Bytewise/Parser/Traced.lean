/-
# Bytewise.Parser.Traced — a labelled parser that reports its attempts.

Labelling changes no ending. While the tracing channel is on, an attempt is reported twice: before the
parser is applied, and after it matched or failed. After a fault there is no second report.
-/
import Bytewise.Parser.Basic

namespace Bytewise.Parser

variable {α : Type}

/-- **`traced on label p`** — `p`, whose attempts are reported under `label` if `on` is set. -/
def traced (on : Bool) (label : String) (p : Parser α) : Parser α := fun c =>
  if on then do
    Attempt.emit (.trying label c.pos (c.sliceAhead Event.previewLength))
    match ← (p c).settle with
    | .ok m =>
      let consumed : Int := c.length - m.rest.length
      Attempt.emit (.matched label consumed (m.rest.sliceAhead Event.previewLength))
      return m
    | .error reason =>
      Attempt.emit (.failed label c.pos reason)
      .fail reason
  else p c

end Bytewise.Parser
