/-
# Bytewise.Parser.Terminal — parsers that read bytes themselves.

Three families. *Fixed* terminals match a number of bytes, a literal or one byte. *Scans* take the bytes in
front of the first, or of the last, byte that passes a test; without such a byte they take the whole
window, so they never fail. `Parser.nonempty` is the variant of any scan that has to take something.

The order of the checks is part of the behaviour: a literal reports an empty window before a short one, and
a short one before a wrong one.
-/
import Bytewise.Parser.Basic

namespace Bytewise.Parser

/-- **`take count`** — the next `count` bytes. A take of zero bytes fails on every input. -/
def take (count : Nat) : Parser (List UInt8) := fun c =>
  if count = 0 then .fail .takeZero
  else if c.length < count then .fail .takeNotEnough
  else do
    let rest ← .ofExcept (c.advance count)
    return ⟨c.sliceAhead count, rest⟩

/-- **`literal expected`** — exactly these bytes. On an empty window even the empty literal fails. -/
def literal (expected : List UInt8) : Parser (List UInt8) := fun c =>
  if c.atEnd then .fail .emptyInput
  else if c.length < expected.length then .fail .notEnoughBytes
  else if c.startsWith expected then do
    let rest ← .ofExcept (c.advance expected.length)
    return ⟨expected, rest⟩
  else .fail .wrongBytes

/-- **`satisfy test`** — one byte that passes the test. -/
def satisfy (test : UInt8 → Except Fault Bool) : Parser UInt8 := fun c =>
  if c.atEnd then .fail .emptyInput
  else do
    let b ← .ofExcept c.current
    if ← .ofExcept (test b) then
      let rest ← .ofExcept (c.advance 1)
      return ⟨b, rest⟩
    else .fail .wrongByte

/-- **`byte expected`** — exactly this byte. -/
def byte (expected : UInt8) : Parser UInt8 :=
  satisfy fun b => .ok (b == expected)

/-- Takes the bytes in front of the offset that a search finds, or the whole window if it finds none. -/
def splitAt (search : Cursor → Except Fault (Option Nat)) : Parser (List UInt8) := fun c => do
  let offset := (← .ofExcept (search c)).getD c.length
  let rest ← .ofExcept (c.advance offset)
  return ⟨c.sliceAhead offset, rest⟩

/-- **`upToFirst test`** — the bytes in front of the first one that passes the test. -/
def upToFirst (test : UInt8 → Except Fault Bool) : Parser (List UInt8) :=
  splitAt fun c => c.findFirst test

/-- **`upToLast test`** — the bytes in front of the last one that passes the test. -/
def upToLast (test : UInt8 → Except Fault Bool) : Parser (List UInt8) :=
  splitAt fun c => c.findLast test

/-- **`nonempty p`** — matches where `p` does, and fails where `p` produces no bytes. -/
def nonempty (p : Parser (List UInt8)) : Parser (List UInt8) := fun c => do
  let m ← p c
  if m.value.isEmpty then .fail .nothingConsumed else return m

end Bytewise.Parser
