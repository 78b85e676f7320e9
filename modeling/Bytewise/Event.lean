/-
# Bytewise.Event — what a parse reports while it runs.

There are two channels. The *tracing* channel reports every attempt of a labelled parser: first that it
is tried, then that it matched or failed. The *core* channel reports that a parse failed and that a rule was
defined. A channel that is off receives nothing.
-/
import Bytewise.Fault
import Bytewise.Text.Quoted

namespace Bytewise

/-- Where an event is reported. -/
inductive Channel where
  | core
  | tracing
  deriving DecidableEq

/-- The name of the channel in a report. -/
def Channel.label : Channel → String
  | .core => "core"
  | .tracing => "tracing"

/-- The channels that are on. -/
structure Levels where
  core : Bool := false
  tracing : Bool := false
  deriving DecidableEq

/-- **`Event`** — one line of the report. -/
inductive Event where
  /-- A labelled parser is about to be applied at `pos`, where `next` are the next bytes. -/
  | trying (label : String) (pos : Nat) (next : List UInt8)
  /-- A labelled parser matched. The window lost `consumed` bytes, and `next` are those after the match. -/
  | matched (label : String) (consumed : Int) (next : List UInt8)
  /-- A labelled parser failed at `pos`. -/
  | failed (label : String) (pos : Nat) (reason : Reason)
  /-- The parse of a window of `size` bytes failed. -/
  | parseFailed (size : Nat) (reason : Reason)
  /-- The rule with this name was defined. -/
  | ruleDefined (name : String)
  deriving DecidableEq

namespace Event

/-- The number of bytes that a tracing event shows. -/
def previewLength : Nat := 16

/-- The channel that receives the event. -/
def channel : Event → Channel
  | trying .. | matched .. | failed .. => .tracing
  | parseFailed .. | ruleDefined .. => .core

/-- The line of the report. -/
def message : Event → String
  | trying label pos next =>
    "trying " ++ label ++ " at " ++ toString pos ++ ", next bytes " ++ Text.quotedBytes next
  | matched label consumed next =>
    "matched " ++ label ++ ", consumed " ++ toString consumed ++ " bytes, next bytes "
      ++ Text.quotedBytes next
  | failed label pos reason => "failed " ++ label ++ " at " ++ toString pos ++ ": " ++ reason.text
  | parseFailed size reason => "Parse of " ++ toString size ++ " bytes failed: " ++ reason.text
  | ruleDefined name => "Forward parser '" ++ name ++ "' defined"

end Event

end Bytewise
