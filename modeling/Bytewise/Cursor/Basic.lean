/-
# Bytewise.Cursor.Basic — a window over bytes that stay where they are.

A cursor is a window `[pos, stop)` over a source. Moving it makes a new cursor over the same source and
copies nothing. The two bounds are fields of the type, so every cursor that exists is valid; what can go
wrong is *making* one (`ofBounds`, `advance`), and that is a `Fault`.

`Cursor.window` is the list of bytes in the window. It is the view through which every operation is
described: `Bytewise.Cursor.Lemmas` has one equation per operation.
-/
import Bytewise.Fault

namespace Bytewise

/-- **`Cursor`** — the window `[pos, stop)` over `source`. -/
structure Cursor where
  /-- All the bytes, also those outside the window. -/
  source : ByteArray
  /-- Where the window begins. -/
  pos : Nat
  /-- Where the window ends: the first position outside it. -/
  stop : Nat
  pos_le_stop : pos ≤ stop
  stop_le_size : stop ≤ source.size

namespace Cursor

/-- Cursors are the same if they have the same source and the same bounds. -/
theorem eq_iff (c d : Cursor) : c = d ↔ c.source = d.source ∧ c.pos = d.pos ∧ c.stop = d.stop := by
  cases c
  cases d
  simp only [mk.injEq]

instance : DecidableEq Cursor := fun c d =>
  letI : Decidable (c.source = d.source) := ByteArray.instDecidableEq c.source d.source
  decidable_of_iff _ (eq_iff c d).symm

/-! ## Making cursors -/

/-- The window over a whole source. -/
def ofBytes (source : ByteArray) : Cursor :=
  ⟨source, 0, source.size, Nat.zero_le _, Nat.le_refl _⟩

/-- **`ofBounds source pos stop`** — the window `[pos, stop)`, if it lies inside the source. A `stop` of
`-1` stands for the end of the source. -/
def ofBounds (source : ByteArray) (pos stop : Int) : Except Fault Cursor :=
  let last : Int := if stop = -1 then source.size else stop
  if h : 0 ≤ pos ∧ pos ≤ last ∧ last ≤ source.size then
    .ok ⟨source, pos.toNat, last.toNat, by omega, by omega⟩
  else
    .error (.invalidWindow pos last source.size)

/-- The same window over other bytes of the same number. -/
def onto (c : Cursor) (source : ByteArray) (h : source.size = c.source.size) : Cursor :=
  ⟨source, c.pos, c.stop, c.pos_le_stop, h ▸ c.stop_le_size⟩

/-! ## Reading the window -/

/-- The number of bytes in the window. -/
def length (c : Cursor) : Nat :=
  c.stop - c.pos

/-- The window holds no byte. -/
def atEnd (c : Cursor) : Bool :=
  c.stop ≤ c.pos

/-- The bytes of the window. -/
def window (c : Cursor) : List UInt8 :=
  (c.source.extract c.pos c.stop).data.toList

/-- The byte `k` places after the start of the window, if it lies in the window. -/
@[inline] def byte? (c : Cursor) (k : Nat) : Option UInt8 :=
  if h : c.pos + k < c.stop then
    some (c.source.get (c.pos + k) (Nat.lt_of_lt_of_le h c.stop_le_size))
  else
    none

/-- The byte at an offset from the start of the window. An offset outside the window, a negative one
included, has none. -/
def peek (c : Cursor) (offset : Int) : Option UInt8 :=
  if 0 ≤ offset then c.byte? offset.toNat else none

/-- The first byte of the window. Asking at the end of the window is a fault. -/
def current (c : Cursor) : Except Fault UInt8 :=
  match c.byte? 0 with
  | some b => .ok b
  | none => .error (.endOfInput c.pos)

/-- **`sliceTo bound`** — the source's bytes from the start of the window up to the position `bound`, which
is cut down to the window's end. A negative `bound` counts back from the end of the *source*; it is not
cut down, so it can reach bytes behind the window. -/
def sliceTo (c : Cursor) (bound : Int) : List UInt8 :=
  let last := min bound c.stop
  let last := if last < 0 then last + c.source.size else last
  (c.source.extract c.pos last.toNat).data.toList

/-- The next `count` bytes, or as many as the window has. -/
def sliceAhead (c : Cursor) (count : Int) : List UInt8 :=
  c.sliceTo (c.pos + count)

/-- The bytes from offset `k` on begin with the given ones. -/
def matchesAt (c : Cursor) : List UInt8 → (k : Nat) → Bool
  | [], _ => true
  | b :: bs, k =>
    match c.byte? k with
    | some here => here == b && c.matchesAt bs (k + 1)
    | none => false

/-- The window begins with `literal`. -/
def startsWith (c : Cursor) (literal : List UInt8) : Bool :=
  literal.length ≤ c.length && c.matchesAt literal 0

/-! ## Moving the window -/

/-- The window without its first `count` bytes. -/
def skip (c : Cursor) (count : Nat) : Cursor :=
  ⟨c.source, min (c.pos + count) c.stop, c.stop, Nat.min_le_right _ _, c.stop_le_size⟩

/-- **`advance count`** — moves the start by `count` and stops at the end of the window. A negative count
moves back, outside the old window if need be; before the start of the source it is a fault. -/
def advance (c : Cursor) (count : Int) : Except Fault Cursor :=
  ofBounds c.source (min (c.pos + count) c.stop) c.stop

/-- The window cut down to at most `count` bytes; a negative count is zero. -/
def limit (c : Cursor) (count : Int) : Cursor :=
  ⟨c.source, c.pos, min (c.pos + count.toNat) c.stop,
    Nat.le_min.2 ⟨Nat.le_add_right _ _, c.pos_le_stop⟩,
    Nat.le_trans (Nat.min_le_right _ _) c.stop_le_size⟩

/-! ## Searching the window

The test of a byte may itself be a fault, which ends the search: the order in which bytes are tested
shows. -/

/-- The first offset at `k` or after it, among the next `todo` ones, whose byte passes the test. -/
def findFrom (c : Cursor) (test : UInt8 → Except Fault Bool) :
    (todo : Nat) → (k : Nat) → Except Fault (Option Nat)
  | 0, _ => .ok none
  | todo + 1, k =>
    match c.byte? k with
    | none => .ok none
    | some b =>
      match test b with
      | .error fault => .error fault
      | .ok true => .ok (some k)
      | .ok false => c.findFrom test todo (k + 1)

/-- The last offset below `k` whose byte passes the test. -/
def findBelow (c : Cursor) (test : UInt8 → Except Fault Bool) : (k : Nat) → Except Fault (Option Nat)
  | 0 => .ok none
  | k + 1 =>
    match c.byte? k with
    | none => .ok none
    | some b =>
      match test b with
      | .error fault => .error fault
      | .ok true => .ok (some k)
      | .ok false => c.findBelow test k

/-- **`findFirst test`** — the offset of the first byte of the window that passes the test, tested from the
front. -/
def findFirst (c : Cursor) (test : UInt8 → Except Fault Bool) : Except Fault (Option Nat) :=
  c.findFrom test c.length 0

/-- **`findLast test`** — the offset of the last byte of the window that passes the test, tested from the
back. -/
def findLast (c : Cursor) (test : UInt8 → Except Fault Bool) : Except Fault (Option Nat) :=
  c.findBelow test c.length

end Cursor

end Bytewise
