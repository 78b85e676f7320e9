/-
# Bytewise.Rulebook — rules, declared first and defined once.

A rule can be used in grammars as soon as it is declared, which is how grammars become recursive. It is defined
at most once; applying it before that is a fault. What a rule stands for may call rules again, so its meaning
is given for a number of nested calls: within the calls it is given, a rule behaves like its definition.
-/
import Bytewise.Grammar.Meaning

namespace Bytewise

/-- **`Rulebook`** — the rules declared so far and the definitions of some of them. -/
structure Rulebook where
  /-- The number that the next declared rule gets. -/
  next : Nat := 0
  /-- The definitions, latest first. -/
  definitions : List (Rule × Grammar) := []

namespace Rulebook

/-- The name of a rule that is declared without one. -/
def defaultName : String := "forward"

/-- A new rule, different from all declared before. -/
def declare (book : Rulebook) (name : String) : Rule × Rulebook :=
  (⟨book.next, name⟩, { book with next := book.next + 1 })

/-- The definition of a rule. -/
def find? (book : Rulebook) (r : Rule) : Option Grammar :=
  book.definitions.lookup r

/-- The rule has a definition. -/
def isDefined (book : Rulebook) (r : Rule) : Bool :=
  (book.find? r).isSome

/-- **`define r g`** — binds a rule to a grammar, once. -/
def define (book : Rulebook) (r : Rule) (g : Grammar) : Except Fault Rulebook :=
  if book.isDefined r then .error (.redefinedRule r.name)
  else .ok { book with definitions := (r, g) :: book.definitions }

/-- A rule as a report shows it: by its name and whether it is defined. -/
def display (book : Rulebook) (r : Rule) : String :=
  "ForwardParser(" ++ Text.quoted r.name ++ ", "
    ++ (if book.isDefined r then "defined" else "undefined") ++ ")"

/-- **`call tracing depth r`** — the parser that a rule stands for, with at most `depth` calls inside each
other. -/
def call (book : Rulebook) (tracing : Bool) : (depth : Nat) → Rule → Parser Value
  | 0, _, _ => .unfinished
  | depth + 1, r, c =>
    match book.find? r with
    | none => .raise (.undefinedRule r.name)
    | some g => g.parser ⟨tracing, depth, book.call tracing depth⟩ c

/-- **`parser tracing fuel g`** — the parser that a grammar over these rules stands for, with at most `fuel`
calls inside each other and at most `fuel` steps in each repetition. -/
def parser (book : Rulebook) (tracing : Bool) (fuel : Nat) (g : Grammar) : Parser Value :=
  g.parser ⟨tracing, fuel, book.call tracing fuel⟩

/-! ## Definitions are kept -/

/-- Defining a rule that has no definition gives it that one, and changes no other. -/
theorem find?_of_define {book book' : Rulebook} {r : Rule} {g : Grammar}
    (h : book.define r g = .ok book') (s : Rule) :
    book'.find? s = if s = r then some g else book.find? s := by
  unfold define at h
  split at h
  · cases h
  · cases h
    rw [find?, List.lookup_cons]
    by_cases hs : s = r
    · rw [if_pos hs, beq_iff_eq.2 hs]
    · rw [if_neg hs, beq_eq_false_iff_ne.2 hs, find?]

/-- A rule is refused a definition exactly if it has one. -/
theorem define_eq_error_iff (book : Rulebook) (r : Rule) (g : Grammar) :
    (∃ fault, book.define r g = .error fault) ↔ book.isDefined r = true := by
  unfold define
  split <;> simp_all

end Rulebook

end Bytewise
