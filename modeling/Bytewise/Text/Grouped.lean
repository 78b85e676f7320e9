/-
# Bytewise.Text.Grouped — integers with a comma between groups of three digits.

The digits are grouped from the right and a minus sign stands before the first group: `-1,234,567`.
-/

namespace Bytewise.Text

/-- Puts a comma after every third digit that another digit follows. The digits come last one first,
so the groups count from the right of the number. -/
def groupDigits : List Char → List Char
  | a :: b :: c :: d :: rest => a :: b :: c :: ',' :: groupDigits (d :: rest)
  | digits => digits

/-- **`grouped n`** — the decimal text of `n` in groups of three digits. -/
def grouped (n : Int) : String :=
  let digits := String.ofList (groupDigits n.natAbs.repr.toList.reverse).reverse
  if n < 0 then "-" ++ digits else digits

/-- Grouping only adds commas: without them the digits are the old ones. -/
theorem filter_groupDigits (digits : List Char) (h : ',' ∉ digits) :
    (groupDigits digits).filter (· != ',') = digits := by
  fun_induction groupDigits digits with
  | case1 a b c d rest ih =>
    simp only [List.mem_cons, not_or] at h
    obtain ⟨ha, hb, hc, hd, hr⟩ := h
    have ih := ih (by simp only [List.mem_cons, not_or]; exact ⟨hd, hr⟩)
    simp [ih, Ne.symm ha, Ne.symm hb, Ne.symm hc]
  | case2 digits _ =>
    refine List.filter_eq_self.2 fun x hx => ?_
    have : x ≠ ',' := fun e => h (e ▸ hx)
    simpa using this

end Bytewise.Text
