/-
# Bytewise.Grammar.Meaning — the parser that a grammar stands for.

The meaning of a grammar depends on its *setting*: whether the tracing channel is on, how many steps a repetition
may take, and what parser each rule stands for. Given these it is the combinator of the same name applied to
the meanings of the parts.
-/
import Bytewise.Grammar.Basic
import Bytewise.Parser.Choice
import Bytewise.Parser.Lookahead
import Bytewise.Parser.Repeat
import Bytewise.Parser.Sequence
import Bytewise.Parser.Terminal
import Bytewise.Parser.Traced

namespace Bytewise

/-- What the meaning of a grammar depends on. -/
structure Setting where
  /-- The tracing channel is on. -/
  tracing : Bool
  /-- The number of steps that a repetition may take. -/
  budget : Nat
  /-- The parser that a rule stands for. -/
  call : Rule → Parser Value

namespace Value

/-- The value of an option: nothing for none. -/
def ofOption : Option Value → Value
  | some v => v
  | .none => .none

end Value

namespace Grammar

mutual

/-- **`parser σ g`** — the parser that `g` stands for in the setting `σ`. -/
def parser (σ : Setting) : Grammar → Parser Value
  | .take count => (Parser.take count).as .bytes
  | .byte expected => (Parser.byte expected).as .ofByte
  | .literal expected => (Parser.literal expected).as .bytes
  | .satisfy test => (Parser.satisfy test).as .ofByte
  | .upToFirst test => (Parser.upToFirst test).as .bytes
  | .upToFirst1 test => (Parser.upToFirst test).nonempty.as .bytes
  | .upToLast test => (Parser.upToLast test).as .bytes
  | .upToLast1 test => (Parser.upToLast test).nonempty.as .bytes
  | .span inner => (Parser.span σ.budget (inner.parser σ)).as .bytes
  | .span1 inner => (Parser.span σ.budget (inner.parser σ)).nonempty.as .bytes
  | .map f inner => (inner.parser σ).map f
  | .separated left separator right =>
    (Parser.separated (left.parser σ) (separator.parser σ) (right.parser σ)).as fun v => .pair v.1 v.2
  | .andThen first second => Parser.andThen (first.parser σ) (second.parser σ)
  | .before first second => Parser.before (first.parser σ) (second.parser σ)
  | .optional inner => (Parser.optional (inner.parser σ)).as .ofOption
  | .notFollowedBy inner => (Parser.notFollowedBy (inner.parser σ)).as fun _ => .none
  | .lookahead inner => Parser.lookahead (inner.parser σ)
  | .many1 inner => (Parser.many1 σ.budget (inner.parser σ)).as .list
  | .many inner => (Parser.many σ.budget (inner.parser σ)).as .list
  | .firstOf alternatives => Parser.firstOf (parsers σ alternatives)
  | .endOfInput => Parser.endOfInput.as fun _ => .none
  | .moreInput => Parser.moreInput.as fun _ => .none
  | .whole inner => Parser.whole (inner.parser σ)
  | .traced label inner => Parser.traced σ.tracing label (inner.parser σ)
  | .rule r => σ.call r
  | .leaf p => p
  | .within count inner => Parser.within count (inner.parser σ)

/-- The parsers that grammars stand for, in order. -/
def parsers (σ : Setting) : List Grammar → List (Parser Value)
  | [] => []
  | g :: gs => g.parser σ :: parsers σ gs

end

theorem parsers_eq_map (σ : Setting) (gs : List Grammar) : parsers σ gs = gs.map (parser σ) := by
  induction gs with
  | nil => rfl
  | cons g gs ih => simp [parsers, ih]

end Grammar

end Bytewise
