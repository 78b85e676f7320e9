/-
# Bytewise.Text.Quoted — bytes and text between quotes.

Reports show bytes as `b'…'` and names as `'…'`. The quote is the single one, unless the content holds
a single quote and no double one. Inside, a backslash and the chosen quote get a backslash in front;
tab, line feed and carriage return have short forms; every other character that is not shown as itself is
written by its number, in two, four or eight hexadecimal digits after `\x`, `\u` or `\U`.

Bytes show themselves in the range of visible ASCII only. Text shows every printable character.
-/
import Bytewise.Text.Printable

namespace Bytewise.Text

/-- The `width` lowest hexadecimal digits of `n`, highest first. -/
def hexDigits (width n : Nat) : List Char :=
  match width with
  | 0 => []
  | w + 1 => hexDigits w (n / 16) ++ [Nat.digitChar (n % 16)]

/-- The quote that surrounds `content`: single, unless a single quote occurs in it and no double one. -/
def quoteOf (content : List Char) : Char :=
  if content.contains '\'' && !content.contains '"' then '"' else '\''

/-- One character between quotes. `shown` says which characters stand for themselves. -/
def escapeChar (shown : Char → Bool) (quote c : Char) : List Char :=
  if c == '\\' || c == quote then ['\\', c]
  else if c == '\t' then ['\\', 't']
  else if c == '\n' then ['\\', 'n']
  else if c == '\r' then ['\\', 'r']
  else if shown c then [c]
  else if c.toNat < 0x100 then '\\' :: 'x' :: hexDigits 2 c.toNat
  else if c.toNat < 0x10000 then '\\' :: 'u' :: hexDigits 4 c.toNat
  else '\\' :: 'U' :: hexDigits 8 c.toNat

/-- `content` between quotes. -/
def surround (shown : Char → Bool) (content : List Char) : List Char :=
  let quote := quoteOf content
  quote :: (content.flatMap (escapeChar shown quote) ++ [quote])

/-- The characters from the blank to the tilde. -/
def isVisibleAscii (c : Char) : Bool :=
  0x20 ≤ c.toNat && c.toNat < 0x7f

/-- **`quoted s`** — a text between quotes: visible ASCII and printable characters beyond ASCII stand
for themselves. -/
def quoted (s : String) : String :=
  String.ofList <|
    surround (fun c => if c.toNat < 0x80 then isVisibleAscii c else isPrintable c) s.toList

/-- **`quotedBytes bs`** — bytes between quotes after a `b`: visible ASCII stands for itself. -/
def quotedBytes (bs : List UInt8) : String :=
  String.ofList ('b' :: surround isVisibleAscii (bs.map fun b => Char.ofNat b.toNat))

/-- Bytes as pairs of hexadecimal digits. -/
def hexBytes (bs : List UInt8) : String :=
  String.ofList (bs.flatMap fun b => hexDigits 2 b.toNat)

end Bytewise.Text
