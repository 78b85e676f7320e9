/-
# Bytewise.Grammar.Build — grammars from arguments that may be unfit.

Most nodes accept every argument. The ones below do not: a take of a negative number of bytes, a byte that is no
byte, and a choice without alternatives are refused when the grammar is made, before any input is seen.
-/
import Bytewise.Buffer
import Bytewise.Grammar.Basic

namespace Bytewise.Grammar

/-- A take of `count` bytes, which must not be negative. -/
def ofCount (count : Int) : Except Fault Grammar :=
  if count < 0 then .error (.negativeCount count) else .ok (.take count.toNat)

/-- The byte with this number. -/
def ofNumber (value : Int) : Except Fault Grammar :=
  if 0 ≤ value ∧ value ≤ 255 then .ok (.byte (UInt8.ofNat value.toNat))
  else .error (.byteOutOfRange value)

/-- The only byte of a buffer. -/
def ofOnlyByte (b : Buffer) : Except Fault Grammar :=
  let bytes := b.bytes
  if h : bytes.size = 1 then .ok (.byte (bytes.get 0 (by omega)))
  else .error (.notOneByte bytes.size)

/-- The bytes of a buffer. -/
def ofBytes (b : Buffer) : Grammar :=
  .literal b.copy

/-- A choice among alternatives, of which there must be one. -/
def ofAlternatives (alternatives : List Grammar) : Except Fault Grammar :=
  if alternatives.isEmpty then .error .noAlternatives else .ok (.firstOf alternatives)

end Bytewise.Grammar
