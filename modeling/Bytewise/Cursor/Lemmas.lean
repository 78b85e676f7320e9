/-
# Bytewise.Cursor.Lemmas — the cursor seen through its window.

One equation per operation, each in terms of `Cursor.window`, the list of bytes between the bounds. Forward
moves drop from the list, limits take from it, reads index it. What does *not* factor through the window is
here as well, by its absence: `advance` by a negative count and `sliceTo` with a negative bound look at the
source outside the bounds, and their equations need the count or the bound not to be negative.
-/
import Bytewise.Cursor.Basic

namespace Bytewise.Cursor

/-! ## The window as a list -/

/-- The window is a piece of the source. -/
theorem window_eq (c : Cursor) : c.window = (c.source.data.toList.drop c.pos).take c.length := by
  simp [window, length, List.extract_eq_take_drop]

@[simp] theorem length_window (c : Cursor) : c.window.length = c.length := by
  have hs : c.source.data.size = c.source.size := rfl
  have := c.stop_le_size
  simp only [window_eq, List.length_take, List.length_drop, Array.length_toList, length]
  omega

/-- The window of a cursor over the whole of its source. -/
theorem window_ofBytes (source : ByteArray) : (ofBytes source).window = source.data.toList := by
  have hs : source.data.toList.length = source.size := Array.length_toList
  rw [window_eq]
  exact List.take_of_length_le (Nat.le_of_eq hs)

@[ext] theorem ext {c d : Cursor} (hs : c.source = d.source) (hp : c.pos = d.pos)
    (he : c.stop = d.stop) : c = d := by
  cases c; cases d; simp_all

theorem pos_add_length (c : Cursor) : c.pos + c.length = c.stop := by
  have := c.pos_le_stop
  simp only [length]
  omega

/-! ## Reading -/

theorem atEnd_eq (c : Cursor) : c.atEnd = decide (c.length = 0) := by
  have := c.pos_le_stop
  simp only [atEnd, length]
  exact decide_eq_decide.2 (by omega)

theorem atEnd_iff (c : Cursor) : c.atEnd = true ↔ c.window = [] := by
  rw [atEnd_eq, decide_eq_true_iff, ← length_window, List.length_eq_zero_iff]

/-- **Reads index the window.** -/
theorem byte?_eq (c : Cursor) (k : Nat) : c.byte? k = c.window[k]? := by
  have hs : c.source.data.size = c.source.size := rfl
  have hle := c.stop_le_size
  by_cases h : c.pos + k < c.stop
  · have hk : k < c.length := by simp only [length]; omega
    rw [byte?, dif_pos h, window_eq, List.getElem?_take_of_lt hk, List.getElem?_drop,
      List.getElem?_eq_getElem (by rw [Array.length_toList]; omega)]
    rfl
  · rw [byte?, dif_neg h, List.getElem?_eq_none]
    rw [length_window, length]
    omega

theorem peek_eq (c : Cursor) (offset : Int) :
    c.peek offset = if 0 ≤ offset then c.window[offset.toNat]? else none := by
  simp only [peek, byte?_eq]

/-- The current byte is the head of the window. -/
theorem current_eq (c : Cursor) :
    c.current = match c.window with
      | [] => .error (.endOfInput c.pos)
      | b :: _ => .ok b := by
  rw [current, byte?_eq]
  cases c.window <;> rfl

/-! ## Moving -/

/-- **A forward move drops bytes.** -/
@[simp] theorem window_skip (c : Cursor) (count : Nat) :
    (c.skip count).window = c.window.drop count := by
  have := c.pos_le_stop
  have hs : c.source.data.size = c.source.size := rfl
  have hle := c.stop_le_size
  apply List.ext_getElem?
  intro k
  simp only [window_eq, skip, length, List.getElem?_take, List.getElem?_drop]
  by_cases hk : k < c.stop - min (c.pos + count) c.stop
  · have h1 : count + k < c.stop - c.pos := by omega
    have h2 : min (c.pos + count) c.stop + k = c.pos + (count + k) := by omega
    rw [if_pos hk, if_pos h1, h2]
  · have h1 : ¬ count + k < c.stop - c.pos := by omega
    rw [if_neg hk, if_neg h1]

@[simp] theorem length_skip (c : Cursor) (count : Nat) : (c.skip count).length = c.length - count := by
  rw [← length_window, window_skip, List.length_drop, length_window]

@[simp] theorem source_skip (c : Cursor) (count : Nat) : (c.skip count).source = c.source := rfl

@[simp] theorem stop_skip (c : Cursor) (count : Nat) : (c.skip count).stop = c.stop := rfl

theorem pos_skip (c : Cursor) (count : Nat) : (c.skip count).pos = min (c.pos + count) c.stop := rfl

/-- Inside the window a forward move is not cut off. -/
theorem pos_skip_of_le {c : Cursor} {count : Nat} (h : count ≤ c.length) : (c.skip count).pos = c.pos + count := by
  have := c.pos_le_stop
  rw [pos_skip]
  simp only [length] at h
  omega

/-- Skipping twice is skipping once. -/
theorem skip_skip (c : Cursor) (j k : Nat) : (c.skip j).skip k = c.skip (j + k) := by
  refine Cursor.ext rfl ?_ rfl
  rw [pos_skip, pos_skip, pos_skip, stop_skip]
  omega

theorem skip_zero (c : Cursor) : c.skip 0 = c := by
  have := c.pos_le_stop
  refine Cursor.ext rfl ?_ rfl
  rw [pos_skip]
  omega

/-- Making a cursor from its own bounds gives it back, wherever in the source the window lies. -/
theorem ofBounds_self (c : Cursor) : ofBounds c.source c.pos c.stop = .ok c := by
  have h1 := c.pos_le_stop
  have h2 := c.stop_le_size
  have hne : ¬ (c.stop : Int) = -1 := by omega
  have hin : 0 ≤ (c.pos : Int) ∧ (c.pos : Int) ≤ (c.stop : Int) ∧ (c.stop : Int) ≤ c.source.size := by
    omega
  simp only [ofBounds, if_neg hne, dif_pos hin]
  rfl

/-- Moving forward is never a fault. -/
theorem advance_natCast (c : Cursor) (count : Nat) : c.advance count = .ok (c.skip count) := by
  rw [advance, ← ofBounds_self (c.skip count), pos_skip, source_skip, stop_skip]
  congr 1
  omega

theorem advance_one (c : Cursor) : c.advance 1 = .ok (c.skip 1) :=
  advance_natCast c 1

/-- **A limit takes bytes.** -/
@[simp] theorem window_limit (c : Cursor) (count : Int) :
    (c.limit count).window = c.window.take count.toNat := by
  have := c.pos_le_stop
  simp only [window_eq, limit, length, List.take_take]
  congr 1
  omega

/-! ## Slices -/

/-- A slice up to a position that is not negative stays inside the window. -/
theorem sliceTo_of_nonneg (c : Cursor) {bound : Int} (h : 0 ≤ bound) :
    c.sliceTo bound = c.window.take (bound - c.pos).toNat := by
  have := c.pos_le_stop
  have hneg : ¬ min bound (c.stop : Int) < 0 := by omega
  simp only [sliceTo, if_neg hneg, window_eq, length, List.take_take, ByteArray.data_extract,
    Array.toList_extract, List.extract_eq_take_drop]
  congr 1
  omega

/-- **A slice ahead takes bytes.** -/
theorem sliceAhead_natCast (c : Cursor) (count : Nat) : c.sliceAhead count = c.window.take count := by
  rw [sliceAhead, sliceTo_of_nonneg c (by omega)]
  congr 1
  omega

/-! ## Literals -/

/-- Matching from offset `k` on is being a prefix of what follows the first `k` bytes. -/
theorem matchesAt_iff (c : Cursor) (bs : List UInt8) (k : Nat) :
    c.matchesAt bs k = true ↔ bs <+: c.window.drop k := by
  induction bs generalizing k with
  | nil => simp [matchesAt]
  | cons b bs ih =>
    rw [matchesAt, byte?_eq]
    by_cases hk : k < c.window.length
    · rw [List.drop_eq_getElem_cons hk, List.getElem?_eq_getElem hk, List.cons_prefix_cons, ← ih,
        @eq_comm _ b]
      simp only [Bool.and_eq_true, beq_iff_eq]
    · have hle : c.window.length ≤ k := by omega
      rw [List.drop_eq_nil_of_le hle, List.getElem?_eq_none hle]
      simp

/-- The window begins with a literal exactly if the literal is a prefix of it. -/
theorem startsWith_iff (c : Cursor) (literal : List UInt8) :
    c.startsWith literal = true ↔ literal <+: c.window := by
  rw [startsWith, Bool.and_eq_true, decide_eq_true_iff, matchesAt_iff, List.drop_zero]
  constructor
  · rintro ⟨_, h⟩
    exact h
  · intro h
    refine ⟨?_, h⟩
    rw [← length_window]
    exact h.length_le

end Bytewise.Cursor
