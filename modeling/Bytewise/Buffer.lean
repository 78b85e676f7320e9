/-
# Bytewise.Buffer — how a caller stores the bytes.

A cursor reads plain bytes one after the other. The caller may hold them in other ways: in storage that can
grow or be written through a view, as items wider than a byte, in rows, or as a view that skips every other
byte or runs backwards. This module says which bytes such storage shows, when they can be read as a source
or as a literal, and when the storage can be written or has a digest.

Two readings differ. A *source* only needs plain bytes, in any order; storage of other items has to be read
as one block. A *literal to compare with* is always read as one block.
-/
import Bytewise.Cursor.Basic

namespace Bytewise

/-- Who may change the bytes. -/
inductive Storage where
  /-- Nobody. -/
  | frozen
  /-- The owner: bytes can be written, and the storage can grow while no cursor points into it. -/
  | growable
  /-- A view of bytes that nobody changes. -/
  | frozenView
  /-- A view through which the bytes can be written. -/
  | writableView
  deriving DecidableEq

/-- Which of the stored bytes are shown, and in what order. -/
inductive Order where
  /-- All of them, first to last. -/
  | straight
  /-- The first, third, fifth, … -/
  | everyOther
  /-- All of them, last to first. -/
  | reversed
  deriving DecidableEq

namespace Order

/-- How many of `size` stored bytes are shown. -/
def count (size : Nat) : Order → Nat
  | straight | reversed => size
  | everyOther => (size + 1) / 2

/-- Where the byte shown at place `k` is stored. -/
def index (size k : Nat) : Order → Nat
  | straight => k
  | everyOther => 2 * k
  | reversed => size - 1 - k

/-- Every shown byte is a stored one. -/
theorem index_lt {size k : Nat} {order : Order} (h : k < order.count size) :
    order.index size k < size := by
  cases order <;> simp only [count] at h <;> simp only [index] <;> omega

end Order

/-- **`Buffer`** — stored bytes and the way they are shown. -/
structure Buffer where
  /-- The bytes as they lie in storage. -/
  raw : ByteArray
  storage : Storage := .frozen
  order : Order := .straight
  /-- The items are single unsigned bytes in one row. -/
  plain : Bool := true

namespace Buffer

/-- The number of bytes that the storage shows. -/
def size (b : Buffer) : Nat :=
  b.order.count b.raw.size

/-- Adds the last `todo` shown bytes to those gathered so far. -/
def gather (b : Buffer) : (todo : Nat) → todo ≤ b.size → ByteArray → ByteArray
  | 0, _, out => out
  | todo + 1, h, out =>
    have hk : b.order.index b.raw.size (b.size - (todo + 1)) < b.raw.size :=
      Order.index_lt (by simp only [size] at h ⊢; omega)
    b.gather todo (Nat.le_of_succ_le h) (out.push (b.raw.get _ hk))

/-- **`bytes b`** — the bytes that the storage shows. -/
def bytes (b : Buffer) : ByteArray :=
  match b.order with
  | .straight => b.raw
  | _ => b.gather b.size (Nat.le_refl _) (ByteArray.emptyWithCapacity b.size)

theorem size_gather (b : Buffer) (todo : Nat) (h : todo ≤ b.size) (out : ByteArray) :
    (b.gather todo h out).size = out.size + todo := by
  induction todo generalizing out with
  | zero => rfl
  | succ todo ih =>
    show (b.gather todo _ (out.push _)).size = _
    rw [ih, ByteArray.size_push]
    omega

/-- The storage shows as many bytes as its order says. -/
theorem size_bytes (b : Buffer) : b.bytes.size = b.size := by
  cases h : b.order with
  | straight => simp only [bytes, size, h, Order.count]
  | everyOther | reversed =>
    simp only [bytes, h, size_gather]
    exact Nat.zero_add _

/-- A copy of the bytes that the storage shows. Copying works for every storage. -/
def copy (b : Buffer) : List UInt8 :=
  b.bytes.data.toList

/-- The shown bytes lie side by side in ascending order. A single byte always does; no byte at all
does only if the storage is shown straight. -/
def isBlock (b : Buffer) : Bool :=
  b.order == .straight || b.size == 1

/-- The bytes as the source of a cursor. -/
def source (b : Buffer) : Except Fault ByteArray :=
  if b.plain || b.isBlock then .ok b.bytes else .error .scattered

/-- The bytes as a literal to compare a window with. -/
def literal (b : Buffer) : Except Fault (List UInt8) :=
  if b.isBlock then .ok b.copy else .error .scattered

/-- The window `[pos, stop)` over the shown bytes. -/
def cursor (b : Buffer) (pos stop : Int) : Except Fault Cursor := do
  Cursor.ofBounds (← b.source) pos stop

/-- Storage has a digest only if nobody can change its bytes. -/
def checkDigest (b : Buffer) : Except Fault Unit :=
  match b.storage with
  | .frozen | .frozenView => .ok ()
  | .growable => .error .unhashable
  | .writableView => .error .unhashableView

/-- The place in storage that an index means. A negative index counts back from the end. -/
def place (b : Buffer) (index : Int) : Except Fault (Fin b.raw.size) :=
  let k := if index < 0 then index + b.raw.size else index
  if h : 0 ≤ k ∧ k < b.raw.size then .ok ⟨k.toNat, by omega⟩ else .error .outOfBounds

/-- A number as a byte, or the given fault. -/
def asByte (unfit : Fault) (value : Int) : Except Fault UInt8 :=
  if 0 ≤ value ∧ value ≤ 255 then .ok (UInt8.ofNat value.toNat) else .error unfit

/-- The storage with one byte changed. -/
def set (b : Buffer) (k : Fin b.raw.size) (value : UInt8) : Buffer :=
  { b with raw := b.raw.set k.val value k.isLt }

/-- Writes one byte, if the storage can be written. The owner looks at the value first, a view at the index. -/
def write (b : Buffer) (index value : Int) : Except Fault Buffer :=
  match b.storage with
  | .frozen | .frozenView => .error .readOnly
  | .growable => do
    let byte ← asByte .unfitByte value
    return b.set (← b.place index) byte
  | .writableView => do
    let k ← b.place index
    return b.set k (← asByte .unfitViewByte value)

/-- Adds bytes at the end while a cursor points into the storage: only adding none is possible. -/
def growPinned (b : Buffer) (extra : List UInt8) : Except Fault Buffer :=
  if extra.isEmpty then .ok b else .error .pinned

end Buffer

end Bytewise
