/-
# Bytewise.Fault — what ends a parse without an answer.

A failed match is an ordinary answer (`Reason`); a *fault* is not. It leaves every combinator at once,
no alternative is tried after it and no repetition goes on. The constructors are the causes; the wording
is in `Fault.message` alone.
-/
import Bytewise.Reason
import Bytewise.Text.Grouped

namespace Bytewise

/-- **`Fault`** — the causes that end a construction, a cursor operation or a parse without an answer. -/
inductive Fault where
  /-- A window that does not lie inside its source of `size` bytes. -/
  | invalidWindow (pos stop size : Int)
  /-- The next byte was asked for at the end of the window. -/
  | endOfInput (pos : Int)
  /-- The input is larger than the caller allows. -/
  | inputTooLarge (size limit : Int)
  /-- The parser inside a repetition matched without making the window shorter or longer. -/
  | noProgress (repetition : String)
  /-- A rule was applied before it was defined. -/
  | undefinedRule (name : String)
  /-- A rule was defined a second time. -/
  | redefinedRule (name : String)
  /-- A parse of the whole input failed. -/
  | parseFailed (reason : Reason)
  /-- A take of a negative number of bytes. -/
  | negativeCount (count : Int)
  /-- A number that is no byte. -/
  | byteOutOfRange (value : Int)
  /-- A literal for a single byte that does not hold exactly one. -/
  | notOneByte (count : Nat)
  /-- A choice without alternatives. -/
  | noAlternatives
  /-- A predicate or a function of the caller refused its argument. -/
  | refused (message : String)
  /-- The bytes have to be read as one block, and the caller's storage is not one. -/
  | scattered
  /-- A write into storage that cannot be written. -/
  | readOnly
  /-- A write outside the storage. -/
  | outOfBounds
  /-- A write of a number that is no byte. -/
  | unfitByte
  /-- A write, through a view, of a number that is no byte. -/
  | unfitViewByte
  /-- Storage that changes its size while cursors point into it. -/
  | pinned
  /-- A digest of storage that may grow. -/
  | unhashable
  /-- A digest of a view through which the bytes can be written. -/
  | unhashableView
  deriving DecidableEq

namespace Fault

/-- What a report shows for the fault. -/
def message : Fault → String
  | invalidWindow pos stop size =>
    "Invalid cursor window [" ++ toString pos ++ ", " ++ toString stop ++ ") for source of "
      ++ toString size ++ " bytes"
  | endOfInput pos => "Unexpected EOF at position " ++ toString pos
  | inputTooLarge size limit =>
    "Input size (" ++ Text.grouped size ++ " bytes) exceeds maximum (" ++ Text.grouped limit
      ++ " bytes). Pass max_input_size to increase the limit or 0 to disable it."
  | noProgress repetition =>
    repetition ++ ": inner parser succeeded without consuming input; "
      ++ "repeating it would never terminate"
  | undefinedRule name => "Forward parser '" ++ name ++ "' used before define() was called"
  | redefinedRule name => "Forward parser '" ++ name ++ "' is already defined"
  | parseFailed reason => "Parse failed: " ++ reason.text
  | negativeCount count => "take() count must be non-negative, got " ++ toString count
  | byteOutOfRange value => "byte() value must be in range 0-255, got " ++ toString value
  | notOneByte count => "byte() expects a single byte, got " ++ toString count ++ " bytes"
  | noAlternatives => "any_of() requires at least one parser"
  | refused message => message
  | scattered => "the storage is not one block of bytes"
  | readOnly => "the storage cannot be written"
  | outOfBounds => "the storage has no such index"
  | unfitByte => "byte must be in range(0, 256)"
  | unfitViewByte => "memoryview: invalid value for format 'B'"
  | pinned => "the storage cannot change its size while a cursor points into it"
  | unhashable => "storage that may grow has no digest"
  | unhashableView => "cannot hash writable memoryview object"

end Fault

end Bytewise
