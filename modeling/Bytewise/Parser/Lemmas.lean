/-
# Bytewise.Parser.Lemmas — terminals, as equations on the window.

Every terminal only moves forward, so its faults from the cursor never arise and its result is a function of the
window: what it takes is a prefix, and what it leaves is the cursor moved past that prefix.
-/
import Bytewise.Cursor.Search
import Bytewise.Parser.Terminal

namespace Bytewise

namespace Parser

/-- A take, on the window. -/
theorem take_eq (count : Nat) (c : Cursor) :
    take count c =
      if count = 0 then .fail .takeZero
      else if c.length < count then .fail .takeNotEnough
      else .done ⟨c.window.take count, c.skip count⟩ := by
  simp only [take, Cursor.advance_natCast, Cursor.sliceAhead_natCast, Attempt.ofExcept_ok,
    Attempt.bind_eq, Attempt.done_bind, Attempt.pure_eq]

/-- A literal, on the window. -/
theorem literal_eq (expected : List UInt8) (c : Cursor) :
    literal expected c =
      if c.window = [] then .fail .emptyInput
      else if c.length < expected.length then .fail .notEnoughBytes
      else if c.startsWith expected then .done ⟨expected, c.skip expected.length⟩
      else .fail .wrongBytes := by
  simp only [literal, Cursor.advance_natCast, Attempt.ofExcept_ok, Attempt.bind_eq,
    Attempt.done_bind, Attempt.pure_eq, Cursor.atEnd_iff]

/-- A tested byte, on the window. -/
theorem satisfy_eq (test : UInt8 → Except Fault Bool) (c : Cursor) :
    satisfy test c =
      match c.window with
      | [] => .fail .emptyInput
      | b :: _ =>
        match test b with
        | .error fault => .raise fault
        | .ok true => .done ⟨b, c.skip 1⟩
        | .ok false => .fail .wrongByte := by
  simp only [satisfy, Cursor.atEnd_iff, Cursor.current_eq, Cursor.advance_one]
  cases hw : c.window with
  | nil => rfl
  | cons b bs =>
    rw [if_neg (List.cons_ne_nil b bs)]
    simp only [Attempt.ofExcept_ok, Attempt.bind_eq, Attempt.done_bind]
    cases test b with
    | error fault => rfl
    | ok answer => cases answer <;> rfl

/-- A scan, on the window: it takes what stands before the offset found, or everything. -/
theorem splitAt_eq (search : Cursor → Except Fault (Option Nat)) (c : Cursor) :
    splitAt search c =
      match search c with
      | .error fault => .raise fault
      | .ok offset =>
        .done ⟨c.window.take (offset.getD c.length), c.skip (offset.getD c.length)⟩ := by
  rw [splitAt]
  cases search c with
  | error fault => rfl
  | ok offset =>
    simp only [Cursor.advance_natCast, Cursor.sliceAhead_natCast, Attempt.ofExcept_ok,
      Attempt.bind_eq, Attempt.done_bind, Attempt.pure_eq]

end Parser

end Bytewise
