/-
# Bytewise.Cursor.Printer — cursors as a report shows them.
-/
import Bytewise.Cursor.Basic
import Bytewise.Text.Quoted

namespace Bytewise.Cursor

/-- The number of bytes of its window that a shown cursor gives. -/
def displayLength : Nat := 32

/-- **`display c`** — the bounds of the window and its first bytes. -/
def display (c : Cursor) : String :=
  "Cursor(pos=" ++ toString c.pos ++ ", end=" ++ toString c.stop ++ ", rest="
    ++ Text.quotedBytes (c.sliceAhead displayLength) ++ ")"

end Bytewise.Cursor
