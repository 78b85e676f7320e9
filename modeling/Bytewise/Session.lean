/-
# Bytewise.Session — a dialogue about named grammars.

A session remembers which grammar each name stands for, which rules are defined, which channels are on, and a
cursor that successive matches move along. A name is looked up when a grammar is put together; giving a name
to something else later does not change grammars that exist already. A declared rule is a grammar like any
other: it may have several names, and it can be defined under each of them.
-/
import Bytewise.Parser.Entry
import Bytewise.Rulebook

namespace Bytewise

/-- **`Session`** — what is remembered from one request to the next. -/
structure Session where
  /-- The names, latest first. -/
  names : List (String × Grammar) := []
  book : Rulebook := {}
  levels : Levels := {}
  /-- Where the next match starts. -/
  current : Cursor := .ofBytes .empty

namespace Session

/-- The number of steps and of nested calls that a request may take: more than any caller waits for. -/
def fuel : Nat := Nat.pow 2 40

/-- The grammar that `name` stands for. -/
def lookup? (s : Session) (name : String) : Option Grammar :=
  s.names.lookup name

/-- The rule that `name` stands for, if it stands for a rule by itself. -/
def rule? (s : Session) (name : String) : Option Rule :=
  match s.lookup? name with
  | some (.rule r) => some r
  | _ => none

/-- Declares a new rule under `name`; its name in reports is `title`. -/
def declare (s : Session) (name title : String) : Rule × Session :=
  let (r, book) := s.book.declare title
  (r, { s with book, names := (name, .rule r) :: s.names })

/-- Declares several rules, each under its name and with its title. -/
def declareAll (s : Session) (titles : List (String × String)) : Session :=
  titles.foldl (fun s nt => (s.declare nt.1 nt.2).2) s

/-- Defines a rule, and reports that on the core channel. -/
def define (s : Session) (r : Rule) (g : Grammar) : Attempt Session := do
  let book ← .ofExcept (s.book.define r g)
  Attempt.note s.levels.core (.ruleDefined r.name)
  return { s with book }

/-- Gives a grammar a name. -/
def bind (s : Session) (name : String) (g : Grammar) : Session :=
  { s with names := (name, g) :: s.names }

/-- The parser that a grammar stands for in this session. -/
def parser (s : Session) (g : Grammar) : Parser Value :=
  s.book.parser s.levels.tracing fuel g

/-- Applies a grammar at a cursor, without a limit on the size. -/
def apply (s : Session) (g : Grammar) (c : Cursor) : Attempt (Match Value) :=
  s.parser g c

/-- Applies a grammar to a window of allowed size. -/
def run (s : Session) (limit : Option Int) (g : Grammar) (c : Cursor) : Attempt (Match Value) :=
  Parser.run s.levels limit (s.parser g) c

/-- The value of a grammar on a whole window of allowed size. -/
def parse (s : Session) (limit : Option Int) (g : Grammar) (c : Cursor) : Attempt Value :=
  Parser.parse s.levels limit (s.parser g) c

/-- The session after an attempt at its cursor: a match moves the cursor, anything else leaves it. -/
def follow (s : Session) (attempt : Attempt (Match Value)) : Session :=
  match attempt.ending with
  | .done m => { s with current := m.rest }
  | _ => s

/-- Applies a grammar at the session's cursor and follows a match. -/
def advance (s : Session) (g : Grammar) : Attempt (Match Value) × Session :=
  let attempt := s.apply g s.current
  (attempt, s.follow attempt)

end Session

end Bytewise
