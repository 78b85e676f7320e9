/-
# Bytewise.Parser.Sequence — one parser after the other.

Each parser starts where the one before it left off, and the first that does not match decides. Nothing here
gives input back: what was consumed before a failure stays consumed.
-/
import Bytewise.Parser.Basic

namespace Bytewise.Parser

variable {α β γ : Type}

/-- **`andThen p q`** — `p`, then `q`; the value is the second one. -/
def andThen (p : Parser α) (q : Parser β) : Parser β := fun c => do
  let first ← p c
  q first.rest

/-- **`before p q`** — `p`, then `q`; the value is the first one. -/
def before (p : Parser α) (q : Parser β) : Parser α := fun c => do
  let first ← p c
  let second ← q first.rest
  return ⟨first.value, second.rest⟩

/-- **`separated p s q`** — `p`, then `s`, then `q`; the values of the outer two. -/
def separated (p : Parser α) (s : Parser β) (q : Parser γ) : Parser (α × γ) := fun c => do
  let first ← p c
  let separator ← s first.rest
  let second ← q separator.rest
  return ⟨(first.value, second.value), second.rest⟩

end Bytewise.Parser
