/-
# Bytewise.Value.Transform — functions that a grammar can apply to its values.

A transform takes the values it is meant for and refuses all others; the refusal names the transform.
-/
import Bytewise.Fault
import Bytewise.Value.Printer

namespace Bytewise

/-- **`Transform`** — a function from values to values that may refuse its argument. -/
inductive Transform where
  /-- The number of bytes, of items of a list, or of parts of a pair. -/
  | length
  /-- The number that decimal digits stand for. -/
  | decimal
  /-- The sum of integers. -/
  | sum
  /-- One more than the greatest of some integers, and one for none. -/
  | depth
  /-- Pairs of bytes as a dictionary: each key once, where it came first, with its last entry. -/
  | dictionary
  /-- The text of a value. -/
  | display
  /-- Nothing, whatever the value. -/
  | discard
  /-- Whether a value counts as true. -/
  | truth
  /-- The pair of a value with itself. -/
  | twice
  /-- The list of one value. -/
  | singleton
  /-- Refuses every value. -/
  | refuse
  deriving DecidableEq

namespace Transform

/-- The name of the transform in a refusal. -/
def label : Transform → String
  | length => "len"
  | decimal => "int"
  | sum => "sum"
  | depth => "depth"
  | dictionary => "dict"
  | display => "repr"
  | discard => "null"
  | truth => "truthy"
  | twice => "pair"
  | singleton => "list"
  | refuse => "boom"

/-- Every transform once. -/
def all : List Transform :=
  [length, decimal, sum, depth, dictionary, display, discard, truth, twice, singleton, refuse]

/-- The transform with this label. -/
def ofLabel? (name : String) : Option Transform :=
  all.find? fun t => t.label == name

/-- The byte of an ASCII digit. -/
def isDigit (b : UInt8) : Bool :=
  0x30 ≤ b && b ≤ 0x39

/-- The number that ASCII digits stand for. -/
def ofDigits (bs : List UInt8) : Nat :=
  bs.foldl (fun n b => 10 * n + (b.toNat - 0x30)) 0

/-- The integers of a list that holds nothing else. -/
def integers? : List Value → Option (List Int)
  | [] => some []
  | .int n :: vs => (integers? vs).map (n :: ·)
  | _ => none

/-- The pairs of bytes of a list that holds nothing else. -/
def entries? : List Value → Option (List (List UInt8 × List UInt8))
  | [] => some []
  | .pair (.bytes key) (.bytes entry) :: vs => (entries? vs).map ((key, entry) :: ·)
  | _ => none

/-- Gives `key` a new entry: in its old place, or else in the last one. -/
def put (key entry : List UInt8) :
    List (List UInt8 × List UInt8) → List (List UInt8 × List UInt8)
  | [] => [(key, entry)]
  | (k, e) :: rest => if k == key then (k, entry) :: rest else (k, e) :: put key entry rest

/-- Each key once, where it came first, with its last entry. -/
def lastEntries (entries : List (List UInt8 × List UInt8)) : List (List UInt8 × List UInt8) :=
  entries.foldl (fun table kv => put kv.1 kv.2 table) []

/-- The value of the transform, if it is meant for the argument. -/
def eval? : Transform → Value → Option Value
  | length, .bytes bs => some (.int bs.length)
  | length, .list items => some (.int items.length)
  | length, .pair _ _ => some (.int 2)
  | decimal, .bytes bs =>
    if !bs.isEmpty && bs.all isDigit then some (.int (ofDigits bs)) else none
  | sum, .list items => (integers? items).map fun ns => .int (ns.foldr (· + ·) 0)
  | depth, .list items => (integers? items).map fun ns => .int (1 + ns.max?.getD 0)
  | dictionary, .list items =>
    (entries? items).map fun entries =>
      .list ((lastEntries entries).map fun kv => .pair (.bytes kv.1) (.bytes kv.2))
  | display, v => some (.text v.display)
  | discard, _ => some .none
  | truth, v => some (.bool v.truth)
  | twice, v => some (.pair v v)
  | singleton, v => some (.list [v])
  | _, _ => none

/-- **`apply t v`** — the value of the transform, or a refusal in its name. -/
def apply (t : Transform) (v : Value) : Except Fault Value :=
  match t.eval? v with
  | some w => .ok w
  | none => .error (.refused ("map " ++ t.label ++ ": bad value"))

theorem ofLabel?_label (t : Transform) : ofLabel? t.label = some t := by
  cases t <;> rfl

end Transform

end Bytewise
