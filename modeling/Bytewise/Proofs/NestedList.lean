/-
# Bytewise.Proofs.NestedList — nested lists of numbers, written and read back.

A nested list is a number or a list of nested lists. It is written with decimal digits, square brackets and commas. The
grammar that reads it is an ordered choice between digits and brackets, and between the brackets it calls itself in a
greedy repetition with an optional comma. What was written is what is read (`Rulebook.parse_nested`).

Two scans have to stop in the right place. The digits of a number end where no digit follows, which is why the
derivation of a rendering asks for that (`NoDigit`) of what stands behind it. The items of a list end at its closing
bracket, because there the choice has no alternative left.
-/
import Bytewise.Proofs.Entry
import Bytewise.Value.Transform
import Mathlib.Data.List.Basic

namespace Bytewise

/-! ## Decimal digits -/

namespace Transform

/-- **`digits n`** — the ASCII digits of a number, the most significant one first. -/
def digits (n : Nat) : List UInt8 :=
  (Nat.toDigits 10 n).map fun ch => UInt8.ofNat ch.toNat

/-- The byte of an ASCII digit has the digit's code. -/
theorem toNat_ofNat_digit {ch : Char} (h : ch.isDigit = true) :
    (UInt8.ofNat ch.toNat).toNat = ch.toNat ∧ 0x30 ≤ ch.toNat ∧ ch.toNat ≤ 0x39 := by
  have hcode : 0x30 ≤ ch.toNat ∧ ch.toNat ≤ 0x39 := by
    rw [Char.isDigit, Bool.and_eq_true, decide_eq_true_iff, decide_eq_true_iff] at h
    exact h
  refine ⟨?_, hcode⟩
  rw [UInt8.toNat_ofNat']
  omega

theorem digits_ne_nil (n : Nat) : digits n ≠ [] := by
  rw [digits, Ne, List.map_eq_nil_iff]
  exact Nat.toDigits_ne_nil

theorem isDigit_of_mem_digits {n : Nat} {b : UInt8} (h : b ∈ digits n) : isDigit b = true := by
  obtain ⟨ch, hch, rfl⟩ := List.mem_map.1 h
  obtain ⟨hcode, hlow, hhigh⟩ := toNat_ofNat_digit (Nat.isDigit_of_mem_toDigits (by decide) (by decide) hch)
  rw [isDigit, Bool.and_eq_true, decide_eq_true_iff, decide_eq_true_iff, UInt8.le_iff_toNat_le,
    UInt8.le_iff_toNat_le, hcode]
  exact ⟨hlow, hhigh⟩

/-- **The digits of a number stand for it.** -/
theorem ofDigits_digits (n : Nat) : ofDigits (digits n) = n := by
  have hstep : ∀ (m : Nat) (ch : Char), ch ∈ Nat.toDigits 10 n →
      10 * m + ((UInt8.ofNat ch.toNat).toNat - 0x30) = 10 * m + (ch.toNat - '0'.toNat) := by
    intro m ch hch
    rw [(toNat_ofNat_digit (Nat.isDigit_of_mem_toDigits (by decide) (by decide) hch)).1]
    rfl
  calc ofDigits (digits n)
      = (Nat.toDigits 10 n).foldl (fun m ch => 10 * m + ((UInt8.ofNat ch.toNat).toNat - 0x30)) 0 := by
        rw [ofDigits, digits, List.foldl_map]
    _ = Nat.ofDigitChars 10 (Nat.toDigits 10 n) 0 := List.foldl_ext _ _ 0 hstep
    _ = n := Nat.ofDigitChars_toDigits (by decide) (by decide)

/-- The transform takes the digits of a number to the number. -/
theorem decimal_apply (n : Nat) : decimal.apply (.bytes (digits n)) = .ok (.int n) := by
  have hnonempty : (digits n).isEmpty = false := List.isEmpty_eq_false_iff.2 (digits_ne_nil n)
  have hall : (digits n).all isDigit = true := List.all_eq_true.2 fun b hb => isDigit_of_mem_digits hb
  rw [apply, eval?, hnonempty, hall, ofDigits_digits]
  rfl

end Transform

/-! ## Nested lists and their renderings -/

/-- **`Nested`** — a number, or a list of nested lists. -/
inductive Nested where
  | number (n : Nat)
  | list (items : List Nested)

namespace Nested

mutual

/-- **`render t`** — a number in decimal digits, a list in square brackets with commas between its items. -/
def render : Nested → List UInt8
  | .number n => Transform.digits n
  | .list items => 0x5b :: ([0x2c].intercalate (renderEach items) ++ [0x5d])

/-- The renderings of the items, one by one. -/
def renderEach : List Nested → List (List UInt8)
  | [] => []
  | t :: ts => t.render :: renderEach ts

end

mutual

/-- The nested list as a grammar produces it. -/
def value : Nested → Value
  | .number n => .int n
  | .list items => .list (valueEach items)

/-- The values of the items, one by one. -/
def valueEach : List Nested → List Value
  | [] => []
  | t :: ts => t.value :: valueEach ts

end

mutual

/-- No two nested lists have the same value. -/
theorem value_inj : ∀ {t u : Nested}, t.value = u.value → t = u
  | .number m, .number n, h => by
    rw [value, value, Value.int.injEq, Int.natCast_inj] at h
    rw [h]
  | .number _, .list _, h => by rw [value, value] at h; cases h
  | .list _, .number _, h => by rw [value, value] at h; cases h
  | .list ts, .list us, h => by
    rw [value, value, Value.list.injEq] at h
    rw [valueEach_inj h]

theorem valueEach_inj : ∀ {ts us : List Nested}, valueEach ts = valueEach us → ts = us
  | [], [], _ => rfl
  | [], _ :: _, h => by rw [valueEach, valueEach] at h; cases h
  | _ :: _, [], h => by rw [valueEach, valueEach] at h; cases h
  | t :: ts, u :: us, h => by
    rw [valueEach, valueEach, List.cons.injEq] at h
    rw [value_inj h.1, valueEach_inj h.2]

end

theorem render_ne_nil (t : Nested) : t.render ≠ [] := by
  cases t with
  | number n =>
    rw [render]
    exact Transform.digits_ne_nil n
  | list items =>
    rw [render]
    exact List.cons_ne_nil _ _

end Nested

namespace Rulebook

/-! ## The grammar -/

/-- Decimal digits, as the number they stand for. -/
def number : Grammar :=
  .map Transform.decimal.apply (.span1 (.satisfy (Predicate.ofBool Transform.isDigit)))

/-- The rule of a nested list. -/
def element : Rule :=
  ⟨0, "value"⟩

/-- A nested list with a comma behind it or none. -/
def item : Grammar :=
  .before (.rule element) (.optional (.byte 0x2c))

/-- Items in square brackets. -/
def array : Grammar :=
  .andThen (.byte 0x5b) (.before (.many item) (.byte 0x5d))

/-- A nested list is a number or an array. -/
def nestedLists : Rulebook where
  next := 1
  definitions := [(element, .firstOf [number, array])]

/-- The rule is declared and then defined. -/
example : (Rulebook.declare {} "value").1 = element ∧
    (Rulebook.declare {} "value").2.define element (.firstOf [number, array]) = .ok nestedLists :=
  ⟨rfl, rfl⟩

/-- What the choice derives the rule derives. -/
theorem derives_element {w : List UInt8} {d : Verdict}
    (h : nestedLists.Derives (.firstOf [number, array]) w d) : nestedLists.Derives (.rule element) w d :=
  .rule rfl h

/-! ## Numbers -/

/-- **`NoDigit w`** — `w` does not begin with a digit. -/
def NoDigit (w : List UInt8) : Prop :=
  ∀ b ∈ w.head?, Transform.isDigit b = false

theorem noDigit_cons {b : UInt8} (w : List UInt8) (h : Transform.isDigit b = false) : NoDigit (b :: w) := by
  intro b' hb'
  cases hb'
  exact h

/-- **The digits of a number are read as the number,** if no further digit follows. -/
theorem derives_number {book : Rulebook} (n : Nat) {rest : List UInt8} (hrest : NoDigit rest) :
    book.Derives number (Transform.digits n ++ rest) (.ok (.int n) rest) := by
  have hdigits : ∀ b ∈ Transform.digits n, Predicate.ofBool Transform.isDigit b = .ok true :=
    fun b hb => congrArg Except.ok (Transform.isDigit_of_mem_digits hb)
  have hend : ∀ b ∈ rest.head?, Predicate.ofBool Transform.isDigit b = .ok false :=
    fun b hb => congrArg Except.ok (hrest b hb)
  exact .map (derives_span1_satisfy (Transform.digits_ne_nil n) hdigits hend) (Transform.decimal_apply n)

/-- No number begins with a byte that is no digit. -/
theorem derives_number_other {book : Rulebook} {b : UInt8} (w : List UInt8) (hb : Transform.isDigit b = false) :
    book.Derives number (b :: w) (.fail .nothingConsumed) :=
  .map_fail (derives_span1_satisfy_other (congrArg Except.ok hb))

/-! ## Lists -/

/-- A closing bracket begins no nested list, which ends the items of a list. -/
theorem derives_item_close (rest : List UInt8) :
    nestedLists.Derives item (0x5d :: rest) (.fail .noParserSucceeded) :=
  .before_fail (derives_element (.firstOf_tail (derives_number_other rest (by decide))
    (.firstOf_tail (.andThen_fail (.byte_other (by decide))) .firstOf_nil)))

/-- Items between brackets are a list. The number before it in the choice fails at the bracket. -/
theorem derives_array {w rest : List UInt8} {vs : List Value}
    (h : nestedLists.Repeats false item w vs (0x5d :: rest)) :
    nestedLists.Derives (.rule element) (0x5b :: w) (.ok (.list vs) rest) :=
  derives_element (.firstOf_tail (derives_number_other w (by decide))
    (.firstOf_head (.andThen .byte (.before (.many h) .byte))))

mutual

/-- **A rendering is read as the nested list,** if no digit stands behind it. The recursion is on the nested list. -/
theorem derives_nested : ∀ (t : Nested) {rest : List UInt8}, NoDigit rest →
    nestedLists.Derives (.rule element) (t.render ++ rest) (.ok t.value rest)
  | .number n, rest, hrest => by
    rw [Nested.render, Nested.value]
    exact derives_element (.firstOf_head (derives_number n hrest))
  | .list items, rest, _ => by
    rw [Nested.render, Nested.value, List.cons_append, List.append_assoc, List.singleton_append]
    exact derives_array (repeats_items items rest)

/-- Renderings with commas between them are items, up to the closing bracket. -/
theorem repeats_items : ∀ (ts : List Nested) (rest : List UInt8),
    nestedLists.Repeats false item ([0x2c].intercalate (Nested.renderEach ts) ++ 0x5d :: rest)
      (Nested.valueEach ts) (0x5d :: rest)
  | [], rest => .stop (derives_item_close rest)
  | [t], rest => by
    -- behind the last item stands the bracket and no comma
    have hlast := derives_nested t (noDigit_cons rest (b := 0x5d) (by decide))
    rw [Nested.renderEach, Nested.renderEach, List.intercalate_singleton]
    exact .step_append t.render_ne_nil (.before hlast (.optional_none (.byte_other (by decide)))) (repeats_items [] rest)
  | t :: u :: ts, rest => by
    -- here the comma belongs to the step
    have hcomma : t.render ++ [0x2c] ≠ [] := List.append_ne_nil_of_right_ne_nil _ (List.cons_ne_nil _ _)
    rw [Nested.renderEach, Nested.renderEach, List.intercalate_cons_cons, ← Nested.renderEach, List.append_assoc,
      Nested.valueEach]
    refine .step_append hcomma ?_ (repeats_items (u :: ts) rest)
    rw [List.append_assoc, List.singleton_append]
    exact .before (derives_nested t (noDigit_cons _ (by decide))) (.optional .byte)

end

/-- Of a whole rendering nothing is left. -/
theorem derives_of_eq_render {t : Nested} {w : List UInt8} (h : w = t.render) :
    nestedLists.Derives (.rule element) w (.ok t.value []) := by
  have hend : NoDigit [] := nofun
  have hderives := derives_nested t hend
  rwa [List.append_nil, ← h] at hderives

/-- No two nested lists have the same rendering. -/
theorem render_inj {t u : Nested} (h : t.render = u.render) : t = u := by
  have hsame := Derives.unique (derives_of_eq_render rfl) (derives_of_eq_render h)
  injection hsame with hvalue _
  exact Nested.value_inj hvalue

/-! ## The parse -/

/-- **Nested lists are read as they were written.** Without a limit on the size, the parse of a window that is the
rendering of a nested list gives the nested list. -/
theorem parse_nested (levels : Levels) (c : Cursor) (t : Nested) (h : c.window = t.render) :
    nestedLists.Parses levels (some 0) (.rule element) c (.done t.value) :=
  parses_of_derives (Parser.checkSize_of_nonpos le_rfl c) (derives_of_eq_render h)

/-- The document `[10,[2,3],[]]`. -/
theorem parse_nested_document :
    let c := Cursor.ofBytes "[10,[2,3],[]]".toUTF8
    let t := Nested.list [.number 10, .list [.number 2, .number 3], .list []]
    c.window = t.render ∧ nestedLists.Parses {} (some 0) (.rule element) c
      (.done (.list [.int 10, .list [.int 2, .int 3], .list []])) :=
  have h : (Cursor.ofBytes "[10,[2,3],[]]".toUTF8).window =
      (Nested.list [.number 10, .list [.number 2, .number 3], .list []]).render := by decide +kernel
  ⟨h, parse_nested _ _ _ h⟩

end Rulebook

end Bytewise
