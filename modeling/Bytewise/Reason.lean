/-
# Bytewise.Reason — why a parser did not match.

A failed match carries one of eleven fixed reasons and nothing else: no position, no partial value,
no message built at run time. Each reason has a *text* (what a report shows) and a *tag* (the constant
by which it is looked up). Both are injective, so either one names the reason.
-/

namespace Bytewise

/-- **`Reason`** — the reasons for which a parser reports that it did not match. -/
inductive Reason where
  /-- Input is left where none was expected. -/
  | notEmpty
  /-- A negative lookahead met a parser that matched. -/
  | parserSucceeded
  /-- Every alternative of a choice failed. -/
  | noParserSucceeded
  /-- A repetition that needs one match found none. -/
  | noRepetition
  /-- A byte was expected and the window is empty. -/
  | emptyInput
  /-- The window is shorter than the literal. -/
  | notEnoughBytes
  /-- The window is long enough and does not begin with the literal. -/
  | wrongBytes
  /-- The next byte is not the expected one. -/
  | wrongByte
  /-- A take of zero bytes, which fails on every input. -/
  | takeZero
  /-- The window is shorter than the number of bytes to take. -/
  | takeNotEnough
  /-- A scan that has to consume something consumed nothing. -/
  | nothingConsumed
  deriving DecidableEq

namespace Reason

/-- What a report shows for the reason. -/
def text : Reason → String
  | notEmpty => "not empty"
  | parserSucceeded => "parser succeeded"
  | noParserSucceeded => "No parser succeeded"
  | noRepetition => "Parser failed to succeed once"
  | emptyInput => "Empty input"
  | notEnoughBytes => "Not enough bytes"
  | wrongBytes => "Wrong bytes"
  | wrongByte => "Wrong byte"
  | takeZero => "take(cnt) cannot have cnt == 0"
  | takeNotEnough => "take(cnt) not enough bytes"
  | nothingConsumed => "did not consume 1 byte"

/-- The constant by which the reason is looked up. -/
def tag : Reason → String
  | notEmpty => "NOT_EMPTY"
  | parserSucceeded => "PARSER_SUCCEEDED"
  | noParserSucceeded => "NO_PARSER_SUCCEEDED"
  | noRepetition => "NO_REPETITION"
  | emptyInput => "EMPTY_INPUT"
  | notEnoughBytes => "NOT_ENOUGH_BYTES"
  | wrongBytes => "WRONG_BYTES"
  | wrongByte => "WRONG_BYTE"
  | takeZero => "TAKE_ZERO"
  | takeNotEnough => "TAKE_NOT_ENOUGH"
  | nothingConsumed => "NOTHING_CONSUMED"

/-- Every reason once, in the order in which they are listed to a reader. -/
def all : List Reason :=
  [notEmpty, parserSucceeded, noParserSucceeded, noRepetition, emptyInput, notEnoughBytes,
    wrongBytes, wrongByte, takeZero, takeNotEnough, nothingConsumed]

/-- The reason with this tag. -/
def ofTag? (name : String) : Option Reason :=
  all.find? fun r => r.tag == name

theorem mem_all (r : Reason) : r ∈ all := by
  cases r <;> decide

theorem nodup_all : all.Nodup := by
  decide

/-- A tag finds its own reason again, so tags are injective. -/
theorem ofTag?_tag (r : Reason) : ofTag? r.tag = some r := by
  cases r <;> rfl

end Reason

end Bytewise
