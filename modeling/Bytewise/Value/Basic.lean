/-
# Bytewise.Value.Basic — what a grammar produces.

Grammars put together at run time need one type for all they can produce: nothing, truth values, integers, bytes,
text, lists and pairs. `Value.same` is the equality that callers see, in which a truth value equals the
number it stands for, also deep inside a list or a pair. Lean's own equality, which tells these two apart, can be decided
as well.
-/

namespace Bytewise

/-- **`Value`** — a value that a grammar produces. -/
inductive Value where
  | none
  | bool (b : Bool)
  | int (n : Int)
  | bytes (bs : List UInt8)
  | text (s : String)
  | list (items : List Value)
  | pair (left right : Value)

namespace Value

/-- A byte as a value is its number. -/
def ofByte (b : UInt8) : Value :=
  .int b.toNat

/-- The number that a truth value or an integer stands for. -/
def number? : Value → Option Int
  | .bool b => some (if b then 1 else 0)
  | .int n => some n
  | _ => Option.none

mutual

/-- **`same v w`** — equality in which true is 1 and false is 0. -/
def same : Value → Value → Bool
  | .none, .none => true
  | .bool a, w => w.number? == some (if a then 1 else 0)
  | .int n, w => w.number? == some n
  | .bytes a, .bytes b => a == b
  | .text a, .text b => a == b
  | .list a, .list b => sameAll a b
  | .pair a b, .pair c d => same a c && same b d
  | _, _ => false

/-- Two lists of the same length whose items are the same. -/
def sameAll : List Value → List Value → Bool
  | [], [] => true
  | v :: vs, w :: ws => same v w && sameAll vs ws
  | _, _ => false

end

/-! ## Equality as values are built -/

mutual

/-- Whether two values are built alike. Other than for callers, a truth value is no number here. -/
def identical : Value → Value → Bool
  | .none, .none => true
  | .bool a, .bool b => a == b
  | .int m, .int n => m == n
  | .bytes a, .bytes b => a == b
  | .text a, .text b => a == b
  | .list a, .list b => identicalAll a b
  | .pair a b, .pair c d => identical a c && identical b d
  | _, _ => false

/-- Whether the values of two lists are built alike, one by one. -/
def identicalAll : List Value → List Value → Bool
  | [], [] => true
  | v :: vs, w :: ws => identical v w && identicalAll vs ws
  | _, _ => false

end

mutual

theorem identical_iff : ∀ v w : Value, identical v w = true ↔ v = w
  | .none, w | .bool _, w | .int _, w | .bytes _, w | .text _, w => by cases w <;> simp [identical]
  | .list items, w => by cases w <;> simp [identical, identicalAll_iff items]
  | .pair left right, w => by cases w <;> simp [identical, identical_iff left, identical_iff right]

theorem identicalAll_iff : ∀ vs ws : List Value, identicalAll vs ws = true ↔ vs = ws
  | [], ws => by cases ws <;> simp [identicalAll]
  | v :: vs, ws => by cases ws <;> simp [identicalAll, identical_iff v, identicalAll_iff vs]

end

instance : DecidableEq Value := fun v w => decidable_of_iff _ (identical_iff v w)

/-- The values that count as true: all but nothing, false, zero and what is empty. -/
def truth : Value → Bool
  | .none => false
  | .bool b => b
  | .int n => n != 0
  | .bytes bs => !bs.isEmpty
  | .text s => !s.isEmpty
  | .list items => !items.isEmpty
  | .pair _ _ => true

end Value

end Bytewise
