/-
# Bytewise.Workbench — cursors over storage that may change under them.

A workbench holds the caller's storage, a current cursor over it, and cursors put aside under names. Cursors do
not copy the storage: a byte that is written shows in all of them, and while they exist the storage cannot
change its size.
-/
import Bytewise.Buffer
import Bytewise.Session

namespace Bytewise

/-- **`Workbench`** — storage and the cursors that point into it. -/
structure Workbench where
  buffer : Buffer
  current : Cursor
  /-- The cursors put aside, latest first. -/
  saved : List (String × Cursor) := []

namespace Workbench

/-- A workbench whose current cursor is the window `[pos, stop)` over the storage. -/
def ofBuffer (buffer : Buffer) (pos stop : Int) : Except Fault Workbench := do
  return { buffer, current := ← buffer.cursor pos stop }

/-- Another window over the same bytes. -/
def window (w : Workbench) (pos stop : Int) : Except Fault Cursor :=
  Cursor.ofBounds w.current.source pos stop

/-- Makes another cursor the current one. -/
def go (w : Workbench) (c : Cursor) : Workbench :=
  { w with current := c }

/-- Puts the current cursor aside. -/
def save (w : Workbench) (name : String) : Workbench :=
  { w with saved := (name, w.current) :: w.saved }

/-- The cursor put aside under a name, most recently if there are several. -/
def saved? (w : Workbench) (name : String) : Option Cursor :=
  w.saved.lookup name

/-- A cursor over the storage's bytes as they are now. The storage never changes its size; a cursor over
a source of another size is not over this storage, and stays as it is. -/
def reread (source : ByteArray) (c : Cursor) : Cursor :=
  if h : source.size = c.source.size then c.onto source h else c

/-- Writes a byte into the storage; every cursor sees it. -/
def write (w : Workbench) (index value : Int) : Except Fault Workbench := do
  let buffer ← w.buffer.write index value
  let reread := reread buffer.bytes
  return {
    buffer
    current := reread w.current
    saved := w.saved.map fun nc => (nc.1, reread nc.2) }

/-- Adds bytes at the end of the storage, into which the current cursor points. -/
def grow (w : Workbench) (extra : List UInt8) : Except Fault Workbench := do
  return { w with buffer := ← w.buffer.growPinned extra }

/-- The current cursor has the same digest as the window `[pos, stop)` over other storage. The current cursor
is asked for its digest before the other cursor is made. -/
def sameDigest (w : Workbench) (other : Buffer) (pos stop : Int) : Except Fault Bool := do
  w.buffer.checkDigest
  let c ← other.cursor pos stop
  other.checkDigest
  return w.current == c

/-- Applies a grammar at the current cursor and follows a match. -/
def advance (w : Workbench) (s : Session) (g : Grammar) : Attempt (Match Value) × Workbench :=
  let attempt := s.apply g w.current
  match attempt.ending with
  | .done m => (attempt, w.go m.rest)
  | _ => (attempt, w)

end Workbench

end Bytewise
