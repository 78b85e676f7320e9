/-
# Bytewise.Proofs.Slices — which bytes a slice shows.

A slice begins where the window begins, and it is meant to end in the window: a position behind the window's end is cut
down to it. Nothing is done about a position that is too small. One that is not negative lies before the window and
gives the empty slice. A negative one, however, is read as a distance from the end of the *source*, so the slice
runs on through the window and may come out behind it.

So the slice is the piece of the window that it should be exactly if its bound is not negative, or so far below zero that
nothing is left of the source (`sliceTo_eq_take_iff`, `sliceAhead_eq_take_iff`), and it keeps inside the window exactly
if the bound is not negative or falls short of the window's end when counted from behind (`sliceTo_prefix_window_iff`).
-/
import Bytewise.Cursor.Lemmas

namespace Bytewise.Cursor

/-- **`c.onward`** — the bytes of the source from the start of the window on. -/
def onward (c : Cursor) : List UInt8 :=
  c.source.data.toList.drop c.pos

variable (c : Cursor)

theorem length_onward : c.onward.length = c.source.size - c.pos := by
  simp only [onward, List.length_drop, Array.length_toList]
  rfl

/-- The window is the beginning of them. -/
theorem window_eq_take_onward : c.window = c.onward.take c.length :=
  c.window_eq

/-! ## Slices of the source -/

/-- **A slice is a piece of the source**, up to the bound or, if that is negative, up to as many bytes before the source's
end. -/
theorem sliceTo_eq_take_onward (bound : Int) :
    c.sliceTo bound =
      c.onward.take ((if bound < 0 then bound + c.source.size else min bound c.stop) - c.pos).toNat := by
  have hstop := Int.natCast_nonneg c.stop
  by_cases hneg : bound < 0
  · have hcut : min bound (c.stop : Int) = bound := by omega
    simp only [sliceTo, hcut, if_pos hneg, onward, ByteArray.data_extract, Array.toList_extract,
      List.extract_eq_take_drop]
    congr 1
    omega
  · have hcut : ¬ min bound (c.stop : Int) < 0 := by omega
    simp only [sliceTo, if_neg hcut, if_neg hneg, onward, ByteArray.data_extract, Array.toList_extract,
      List.extract_eq_take_drop]
    congr 1
    omega

theorem sliceTo_of_neg {bound : Int} (h : bound < 0) :
    c.sliceTo bound = c.onward.take (bound + c.source.size - c.pos).toNat := by
  rw [sliceTo_eq_take_onward, if_pos h]

/-- A bound that is not negative gives the piece of the window up to it. -/
theorem sliceTo_eq_take_window {bound : Int} (h : 0 ≤ bound) :
    c.sliceTo bound = c.window.take (max 0 (min bound c.stop - c.pos)).toNat := by
  have hpos := c.pos_le_stop
  rw [sliceTo_eq_take_onward, if_neg (by omega), window_eq_take_onward, List.take_take, length]
  congr 1
  omega

/-- A negative bound leaves nothing exactly if that many bytes from the end of the source reach back to the window's
start. -/
theorem sliceTo_eq_nil_iff_of_neg {bound : Int} (h : bound < 0) :
    c.sliceTo bound = [] ↔ c.source.size + bound ≤ c.pos := by
  have hlength := c.length_onward
  have hpos := c.pos_le_stop
  have hstop := c.stop_le_size
  rw [c.sliceTo_of_neg h, ← List.length_eq_zero_iff, List.length_take, hlength]
  omega

/-- **A slice is the piece of the window up to its bound** exactly if the bound is not negative, or nothing is left. -/
theorem sliceTo_eq_take_iff (bound : Int) :
    c.sliceTo bound = c.window.take (max 0 (min bound c.stop - c.pos)).toNat ↔
      0 ≤ bound ∨ c.source.size + bound ≤ c.pos := by
  rcases Int.lt_or_le bound 0 with hneg | hnonneg
  · have hnothing : (max 0 (min bound (c.stop : Int) - c.pos)).toNat = 0 := by omega
    rw [hnothing, List.take_zero, c.sliceTo_eq_nil_iff_of_neg hneg]
    omega
  · exact iff_of_true (c.sliceTo_eq_take_window hnonneg) (Or.inl hnonneg)

/-- **A slice ahead is that many bytes of the window** exactly if it does not end before the start of the source, or
nothing is left. -/
theorem sliceAhead_eq_take_iff (count : Int) :
    c.sliceAhead count = c.window.take (min (max count 0) c.length).toNat ↔
      0 ≤ c.pos + count ∨ c.source.size + count ≤ 0 := by
  have hlength := c.pos_add_length
  have hpiece : (max 0 (min (c.pos + count) (c.stop : Int) - c.pos)).toNat = (min (max count 0) (c.length : Int)).toNat := by
    omega
  have hbound := c.sliceTo_eq_take_iff (c.pos + count)
  rw [hpiece] at hbound
  rw [sliceAhead, hbound]
  omega

/-- **A slice stays inside the window** exactly if its bound is not negative, or comes to lie before the window's end when
it is counted from the end of the source. -/
theorem sliceTo_prefix_window_iff (bound : Int) :
    c.sliceTo bound <+: c.window ↔ 0 ≤ bound ∨ c.source.size + bound ≤ c.stop := by
  have hlength := c.length_onward
  have hpos := c.pos_le_stop
  have hstop := c.stop_le_size
  rcases Int.lt_or_le bound 0 with hneg | hnonneg
  · rw [c.sliceTo_of_neg hneg, window_eq_take_onward, length]
    constructor
    · intro hprefix
      have hle := hprefix.length_le
      simp only [List.length_take, hlength] at hle
      omega
    · intro hbound
      exact List.take_prefix_take_left (by omega)
  · exact iff_of_true (c.sliceTo_eq_take_window hnonneg ▸ List.take_prefix _ _) (Or.inl hnonneg)

/-! ## Slices and the window -/

/-- Slices up to positions that are not negative are the same over all sources in which the same window stands at the same
place. -/
theorem sliceTo_congr {c d : Cursor} (hwindow : d.window = c.window) (hpos : d.pos = c.pos) {bound : Int}
    (h : 0 ≤ bound) : d.sliceTo bound = c.sliceTo bound := by
  rw [d.sliceTo_of_nonneg h, c.sliceTo_of_nonneg h, hwindow, hpos]

/-- **Which slices are pieces of the window.** A slice is the piece of the window up to its bound if the bound is not
negative, and then it depends on the window and its position only; the same holds of a slice ahead that does not end
before the start of the source. A negative bound gives a piece of the source that ends so far before the source's end.
This is the piece of the window that it should be, which is none, only if nothing is left of the source, and it stays inside
the window only if it does not come out behind it. -/
theorem slices_of_window (c : Cursor) (n : Int) :
    (c.sliceTo n = c.window.take (max 0 (min n c.stop - c.pos)).toNat ↔ 0 ≤ n ∨ c.source.size + n ≤ c.pos) ∧
      (c.sliceAhead n = c.window.take (min (max n 0) c.window.length).toNat ↔
        0 ≤ c.pos + n ∨ c.source.size + n ≤ 0) ∧
      (∀ d : Cursor, d.window = c.window → d.pos = c.pos →
        (0 ≤ n → d.sliceTo n = c.sliceTo n) ∧ (0 ≤ c.pos + n → d.sliceAhead n = c.sliceAhead n)) ∧
      (n < 0 → c.sliceTo n = c.onward.take (n + c.source.size - c.pos).toNat) ∧
      (c.sliceTo n <+: c.window ↔ 0 ≤ n ∨ c.source.size + n ≤ c.stop) := by
  refine ⟨c.sliceTo_eq_take_iff n, ?_, fun d hwindow hpos => ⟨?_, ?_⟩, c.sliceTo_of_neg, c.sliceTo_prefix_window_iff n⟩
  · rw [c.length_window]
    exact c.sliceAhead_eq_take_iff n
  · exact sliceTo_congr hwindow hpos
  · intro hcount
    rw [sliceAhead, sliceAhead, hpos]
    exact sliceTo_congr hwindow hpos hcount

/-- A window of two bytes in the middle of five, in another place of another source: slices ahead up to its end and behind
it are the same over both sources. -/
theorem slices_of_window_hello :
    let c : Cursor := ⟨⟨#[0x68, 0x65, 0x6c, 0x6c, 0x6f]⟩, 1, 3, by decide, by decide⟩
    let d : Cursor := ⟨⟨#[0x00, 0x65, 0x6c]⟩, 1, 3, by decide, by decide⟩
    d.window = c.window ∧ d.pos = c.pos ∧ (0 : Int) ≤ c.pos + 9 ∧ c.sliceAhead 9 = [0x65, 0x6c] ∧
      d.sliceAhead 9 = c.sliceAhead 9 ∧ (-1 : Int) < 0 ∧ c.sliceTo (-1) = [0x65, 0x6c, 0x6c] := by
  intro c d
  have hwindow : d.window = c.window := by decide +kernel
  have hcount : (0 : Int) ≤ c.pos + 9 := by decide
  obtain ⟨-, hahead, hsame, -⟩ := slices_of_window c 9
  obtain ⟨-, -, -, hnegative, -⟩ := slices_of_window c (-1)
  refine ⟨hwindow, rfl, hcount, ?_, (hsame d hwindow rfl).2 hcount, by decide, ?_⟩
  · rw [hahead.2 (Or.inl hcount)]
    decide +kernel
  · rw [hnegative (by decide)]
    decide +kernel

/-- **A slice that leaves the window.** Up to position -1 there is nothing of a window, and before its start there is nothing
ahead. But what is shown is the window and bytes behind it. -/
theorem slice_outside_window :
    let c : Cursor := ⟨⟨#[0x68, 0x65, 0x6c, 0x6c, 0x6f]⟩, 0, 2, by decide, by decide⟩
    let d : Cursor := ⟨⟨#[0x68, 0x65, 0x6c, 0x6c, 0x6f]⟩, 1, 3, by decide, by decide⟩
    c.window = [0x68, 0x65] ∧ c.window.take (max 0 (min (-1 : Int) c.stop - c.pos)).toNat = [] ∧
      c.sliceTo (-1) = [0x68, 0x65, 0x6c, 0x6c] ∧
      d.window = [0x65, 0x6c] ∧ d.window.take (min (max (-2 : Int) 0) d.window.length).toNat = [] ∧
      d.sliceAhead (-2) = [0x65, 0x6c, 0x6c] := by
  decide +kernel

end Bytewise.Cursor
