/-
# Bytewise.Predicate — tests of single bytes.

A test may refuse a byte, which is a fault and not a "no". Conjunction and disjunction are decided from the left:
the right test is not made where the left one decides, so its refusals do not show there.
-/
import Bytewise.Fault

namespace Bytewise

/-- **`Predicate`** — a test of one byte that may refuse it. -/
abbrev Predicate := UInt8 → Except Fault Bool

namespace Predicate

/-- The test that answers by a truth value and never refuses. -/
def ofBool (test : UInt8 → Bool) : Predicate := fun b => .ok (test b)

/-- One of the listed bytes. -/
def oneOf (bs : List UInt8) : Predicate := ofBool bs.contains

/-- A byte between two bounds, both included. -/
def range (low high : Int) : Predicate :=
  ofBool fun b => low ≤ (b.toNat : Int) && (b.toNat : Int) ≤ high

/-- A byte that has a bit in common with the mask. Only the mask's lowest eight bits count. -/
def mask (bits : Int) : Predicate :=
  ofBool fun b => b &&& UInt8.ofNat (bits % 256).toNat != 0

/-- The opposite answer. -/
def negate (p : Predicate) : Predicate := fun b => do
  return !(← p b)

/-- Both, the left one first. -/
def both (p q : Predicate) : Predicate := fun b => do
  if ← p b then q b else return false

/-- One of the two, the left one first. -/
def either (p q : Predicate) : Predicate := fun b => do
  if ← p b then return true else q b

/-- Refuses the byte with this number and answers "no" to all others. -/
def refuseOn (n : Int) : Predicate := fun b =>
  if (b.toNat : Int) = n then .error (.refused ("boom " ++ toString n)) else .ok false

end Predicate

end Bytewise
