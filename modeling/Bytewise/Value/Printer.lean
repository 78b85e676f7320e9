/-
# Bytewise.Value.Printer — values as a report shows them.

Lists stand in square brackets and pairs in round ones, their parts after a comma and a blank. Bytes and
text are quoted.
-/
import Bytewise.Text.Quoted
import Bytewise.Value.Basic

namespace Bytewise.Value

mutual

/-- **`display v`** — the text of a value. -/
def display : Value → String
  | .none => "None"
  | .bool true => "True"
  | .bool false => "False"
  | .int n => toString n
  | .bytes bs => Text.quotedBytes bs
  | .text s => Text.quoted s
  | .list items => "[" ++ ", ".intercalate (displayAll items) ++ "]"
  | .pair left right => "(" ++ display left ++ ", " ++ display right ++ ")"

/-- The texts of values, in order. -/
def displayAll : List Value → List String
  | [] => []
  | v :: vs => display v :: displayAll vs

end

end Bytewise.Value
