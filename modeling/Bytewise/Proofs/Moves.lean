/-
# Bytewise.Proofs.Moves — where moves lead, and what a cursor shows there.

A cursor begins as a window that a caller asks for, and from there on it moves: by a count forward or back, or to a window
that ends sooner. Every count is allowed. So a move cuts its bounds to size and hands them on as integers, and whoever
makes the new cursor takes an end of `-1` for the end of the source. That this is sound is said first: what was cut to size is
never `-1`, a limit is always granted (`ofBounds_limit`), and an advance is refused exactly if it goes before the source
(`advance_eq_error_iff`). After any moves, therefore, the cursor is over the same source and its end is no later than it was
(`moveAll_keeps`).

Such a cursor shows the list of bytes between its bounds and nothing else (`Views`). Moves that do not go back drop from the
list or take from it, and so on from move to move (`window_moveAll`). What two moves make together follows from where they
lead: that advances add up holds of counts back as well, unless the first was cut off (`advance_advance_iff`).
-/
import Bytewise.Buffer
import Bytewise.Cursor.Search

namespace Bytewise

/-- **`Move`** — a way from one cursor to the next. -/
inductive Move where
  | advance (count : Int)
  | limit (count : Int)

namespace Move

/-- A move that does not go back. -/
def Forward : Move → Prop
  | advance count => 0 ≤ count
  | limit _ => True

/-- What such a move does to a list of bytes. -/
def onBytes (w : List UInt8) : Move → List UInt8
  | advance count => w.drop count.toNat
  | limit count => w.take (max count 0).toNat

end Move

namespace Cursor

variable {c d : Cursor} {source : ByteArray} {pos stop : Int} {fault : Fault}

/-- **`c.move m`** — the cursor to which the move leads. -/
def move (c : Cursor) : Move → Except Fault Cursor
  | .advance count => c.advance count
  | .limit count => .ok (c.limit count)

/-- **`c.moveAll ms`** — the cursor to which the moves lead, one after the other. -/
def moveAll (c : Cursor) (moves : List Move) : Except Fault Cursor :=
  moves.foldlM move c

/-! ## Making a cursor -/

/-- The end that a bound stands for. -/
def endOf (source : ByteArray) (stop : Int) : Int :=
  if stop = -1 then source.size else stop

/-- **`Fits source pos stop`** — the bounds lie in the source, in this order. -/
def Fits (source : ByteArray) (pos stop : Int) : Prop :=
  0 ≤ pos ∧ pos ≤ endOf source stop ∧ endOf source stop ≤ source.size

instance decidableFits (source : ByteArray) (pos stop : Int) : Decidable (Fits source pos stop) :=
  inferInstanceAs (Decidable (_ ∧ _ ∧ _))

theorem endOf_of_nonneg (h : 0 ≤ stop) : endOf source stop = stop :=
  if_neg (by omega)

/-- Bounds that fit make a cursor that has them. -/
theorem ofBounds_of_fits (h : Fits source pos stop) :
    ∃ c : Cursor, ofBounds source pos stop = .ok c ∧
      c.source = source ∧ (c.pos : Int) = pos ∧ (c.stop : Int) = endOf source stop := by
  have hstop : 0 ≤ endOf source stop := Int.le_trans h.1 h.2.1
  exact ⟨_, dif_pos h, rfl, Int.toNat_of_nonneg h.1, Int.toNat_of_nonneg hstop⟩

/-- Bounds that do not fit are refused, with a fault that names them. -/
theorem ofBounds_of_not_fits (h : ¬ Fits source pos stop) :
    ofBounds source pos stop = .error (.invalidWindow pos (endOf source stop) source.size) :=
  dif_neg h

/-- **What bounds make** is the cursor that has them, over the same source. -/
theorem ofBounds_eq_ok_iff :
    ofBounds source pos stop = .ok c ↔
      c.source = source ∧ (c.pos : Int) = pos ∧ (c.stop : Int) = endOf source stop := by
  constructor
  · intro h
    by_cases hfits : Fits source pos stop
    · obtain ⟨d, hd, hbounds⟩ := ofBounds_of_fits hfits
      obtain rfl : d = c := Except.ok.inj (hd.symm.trans h)
      exact hbounds
    · rw [ofBounds_of_not_fits hfits] at h
      cases h
  · rintro ⟨rfl, rfl, hstop⟩
    -- whatever made the cursor, its own bounds fit
    have hfits : Fits c.source c.pos stop := by
      have hle := c.pos_le_stop
      have hsize := c.stop_le_size
      unfold Fits
      omega
    obtain ⟨d, hd, hsource, hpos, hstop'⟩ := ofBounds_of_fits hfits
    obtain rfl : d = c := Cursor.ext hsource (Int.natCast_inj.1 hpos) (Int.natCast_inj.1 (hstop'.trans hstop.symm))
    exact hd

/-- **What is refused** is what does not fit. -/
theorem ofBounds_eq_error_iff :
    ofBounds source pos stop = .error fault ↔
      ¬ Fits source pos stop ∧ fault = .invalidWindow pos (endOf source stop) source.size := by
  by_cases hfits : Fits source pos stop
  · obtain ⟨c, hc, -⟩ := ofBounds_of_fits hfits
    rw [hc]
    exact iff_of_false nofun fun h => h.1 hfits
  · rw [ofBounds_of_not_fits hfits, Except.error.injEq, and_iff_right hfits, eq_comm]

theorem exists_ofBounds_iff : (∃ c, ofBounds source pos stop = .ok c) ↔ Fits source pos stop := by
  constructor
  · rintro ⟨c, hc⟩
    by_cases hfits : Fits source pos stop
    · exact hfits
    · rw [ofBounds_of_not_fits hfits] at hc
      cases hc
  · intro hfits
    obtain ⟨c, hc, -⟩ := ofBounds_of_fits hfits
    exact ⟨c, hc⟩

/-- Bounds with one end make the same only if they begin at one position. -/
theorem ofBounds_eq_ofBounds_iff {pos' : Int} :
    ofBounds source pos stop = ofBounds source pos' stop ↔ pos = pos' := by
  constructor
  · intro h
    cases hmade : ofBounds source pos stop with
    | ok c =>
      have hpos := (ofBounds_eq_ok_iff.1 hmade).2.1
      have hpos' := (ofBounds_eq_ok_iff.1 (h.symm.trans hmade)).2.1
      exact hpos.symm.trans hpos'
    | error fault =>
      have hfault := (ofBounds_eq_error_iff.1 hmade).2
      have hfault' := (ofBounds_eq_error_iff.1 (h.symm.trans hmade)).2
      exact (Fault.invalidWindow.inj (hfault.symm.trans hfault')).1
  · rintro rfl
    rfl

/-! ## One move -/

theorem advance_eq_ok_iff {count : Int} :
    c.advance count = .ok d ↔ d.source = c.source ∧ (d.pos : Int) = min (c.pos + count) c.stop ∧ d.stop = c.stop := by
  rw [advance, ofBounds_eq_ok_iff, endOf_of_nonneg (Int.natCast_nonneg c.stop), Int.natCast_inj]

/-- **An advance is refused** exactly if it goes before the start of the source. -/
theorem advance_eq_error_iff {count : Int} :
    c.advance count = .error fault ↔
      c.pos + count < 0 ∧ fault = .invalidWindow (c.pos + count) c.stop c.source.size := by
  have hstop := c.stop_le_size
  have hend : endOf c.source c.stop = c.stop := endOf_of_nonneg (Int.natCast_nonneg c.stop)
  rw [advance, ofBounds_eq_error_iff, Fits, hend]
  constructor
  · rintro ⟨hfits, rfl⟩
    have hback : c.pos + count < 0 := by omega
    exact ⟨hback, by rw [Int.min_eq_left (by omega)]⟩
  · rintro ⟨hback, rfl⟩
    exact ⟨by omega, by rw [Int.min_eq_left (by omega)]⟩

/-- Two cursors with one source and one end are advanced to the same place, or both refused for the same reason, exactly if
the positions asked for are the same. -/
theorem advance_eq_advance_iff (hsource : d.source = c.source) (hstop : d.stop = c.stop) {count count' : Int} :
    d.advance count = c.advance count' ↔ min (d.pos + count) (c.stop : Int) = min (c.pos + count') c.stop := by
  rw [advance, advance, hsource, hstop, ofBounds_eq_ofBounds_iff]

theorem exists_advance_eq_ok {count : Int} (h : 0 ≤ c.pos + count) : ∃ d, c.advance count = .ok d := by
  cases hmade : c.advance count with
  | ok d => exact ⟨d, rfl⟩
  | error fault => exact absurd (advance_eq_error_iff.1 hmade).1 (Int.not_lt.2 h)

theorem stop_limit (c : Cursor) (count : Int) : ((c.limit count).stop : Int) = min (c.pos + max count 0) c.stop := by
  simp only [limit]
  omega

/-- **A limit is always granted**: the bounds that it asks for make the limited cursor. -/
theorem ofBounds_limit (c : Cursor) (count : Int) :
    ofBounds c.source c.pos (min (c.pos + max count 0) c.stop) = .ok (c.limit count) := by
  rw [ofBounds_eq_ok_iff, endOf_of_nonneg (by omega)]
  exact ⟨rfl, rfl, c.stop_limit count⟩

/-- A move keeps the source and does not take the end further. -/
theorem move_keeps {m : Move} (h : c.move m = .ok d) : d.source = c.source ∧ d.stop ≤ c.stop := by
  cases m with
  | advance count =>
    obtain ⟨hsource, -, hstop⟩ := advance_eq_ok_iff.1 h
    exact ⟨hsource, Nat.le_of_eq hstop⟩
  | limit count =>
    obtain rfl := Except.ok.inj h
    exact ⟨rfl, Nat.min_le_right _ _⟩

/-- A move that does not go back is granted, and does to the window what it does to lists. -/
theorem window_move {m : Move} (h : m.Forward) : ∃ d, c.move m = .ok d ∧ d.window = m.onBytes c.window := by
  cases m with
  | advance count =>
    obtain ⟨count, rfl⟩ := Int.eq_ofNat_of_zero_le h
    exact ⟨c.skip count, c.advance_natCast count, c.window_skip count⟩
  | limit count =>
    refine ⟨c.limit count, rfl, ?_⟩
    rw [window_limit, Move.onBytes]
    congr 1
    omega

/-! ## Many moves -/

theorem moveAll_cons_eq_ok_iff {m : Move} {moves : List Move} {e : Cursor} :
    c.moveAll (m :: moves) = .ok e ↔ ∃ d, c.move m = .ok d ∧ d.moveAll moves = .ok e := by
  rw [moveAll, List.foldlM_cons]
  cases c.move m with
  | ok d => simp [moveAll, bind, Except.bind]
  | error fault => simp [bind, Except.bind]

/-- **After any moves** the source is the same, and the end is no later. -/
theorem moveAll_keeps {moves : List Move} (h : c.moveAll moves = .ok d) :
    d.source = c.source ∧ d.stop ≤ c.stop := by
  induction moves generalizing c with
  | nil =>
    obtain rfl := Except.ok.inj h
    exact ⟨rfl, Nat.le_refl _⟩
  | cons m moves ih =>
    obtain ⟨next, hnext, hrest⟩ := moveAll_cons_eq_ok_iff.1 h
    obtain ⟨hsource, hstop⟩ := move_keeps hnext
    obtain ⟨hsource', hstop'⟩ := ih hrest
    exact ⟨hsource'.trans hsource, Nat.le_trans hstop' hstop⟩

/-- **Moves that do not go back** are all granted, and the window goes through what they do to lists. -/
theorem window_moveAll {moves : List Move} (h : ∀ m ∈ moves, m.Forward) :
    ∃ d, c.moveAll moves = .ok d ∧ d.window = moves.foldl Move.onBytes c.window := by
  induction moves generalizing c with
  | nil => exact ⟨c, rfl, rfl⟩
  | cons m moves ih =>
    obtain ⟨hm, hmoves⟩ := List.forall_mem_cons.1 h
    obtain ⟨next, hnext, hwindow⟩ := window_move (c := c) hm
    obtain ⟨d, hd, hwindow'⟩ := ih (c := next) hmoves
    refine ⟨d, moveAll_cons_eq_ok_iff.2 ⟨next, hnext, hd⟩, ?_⟩
    rw [hwindow', hwindow, List.foldl_cons]

/-! ## Moves one after the other -/

/-- **Two advances are one** unless the first is refused, or is cut off at the end of the window before the second goes
back. -/
theorem advance_advance_iff (c : Cursor) (a b : Int) :
    (c.advance a >>= fun d => d.advance b) = c.advance (a + b) ↔
      b = 0 ∨ 0 ≤ c.pos + a ∧ (0 ≤ b ∨ c.pos + a ≤ c.stop) := by
  have hstop := c.pos_le_stop
  rcases Int.lt_or_le (c.pos + a) 0 with hback | hforth
  · -- the first is refused, and its fault is that of the whole
    have hfirst := advance_eq_error_iff.2 ⟨hback, rfl⟩
    have hwhole : (c.advance a >>= fun d => d.advance b) = c.advance a := by
      rw [hfirst]
      rfl
    rw [hwhole, advance_eq_advance_iff rfl rfl]
    omega
  · -- the second starts where the first was cut off, if it was
    obtain ⟨d, hd⟩ := exists_advance_eq_ok hforth
    obtain ⟨hsource, hpos, hend⟩ := advance_eq_ok_iff.1 hd
    have hwhole : (c.advance a >>= fun d => d.advance b) = d.advance b := by
      rw [hd]
      rfl
    rw [hwhole, advance_eq_advance_iff hsource hend]
    omega

/-- Two limits are the smaller one. -/
theorem limit_limit (c : Cursor) (a b : Int) : (c.limit a).limit b = c.limit (min a b) := by
  refine Cursor.ext rfl rfl ?_
  simp only [limit]
  omega

/-- **An advance may be put off until after a limit** that leaves room for it. -/
theorem advance_limit {a b : Int} (ha : 0 ≤ c.pos + a) (hb : 0 ≤ b) (hab : 0 ≤ a + b) :
    (c.advance a).map (fun d => d.limit b) = (c.limit (a + b)).advance a := by
  have hstop := c.pos_le_stop
  obtain ⟨d, hd⟩ := exists_advance_eq_ok ha
  obtain ⟨hsource, hpos, hend⟩ := advance_eq_ok_iff.1 hd
  have hcut := c.stop_limit (a + b)
  have hcut' := d.stop_limit b
  have hlater : (c.limit (a + b)).advance a = .ok (d.limit b) := by
    refine advance_eq_ok_iff.2 ⟨hsource, ?_, ?_⟩
    · show (d.pos : Int) = min (c.pos + a) (c.limit (a + b)).stop
      omega
    · omega
  rw [hd, hlater]
  rfl

/-! ## What a cursor shows -/

/-- Only at the end of the window is there no current byte. -/
theorem current_eq_error_iff (c : Cursor) : c.current = .error (.endOfInput c.pos) ↔ c.window = [] := by
  rw [current_eq]
  cases c.window <;> simp

/-- **`c.KeepsTo source`** — the cursor is a window of the source, and no move takes it out of there. -/
structure KeepsTo (c : Cursor) (source : ByteArray) : Prop where
  source_eq : c.source = source
  bounds : 0 ≤ (c.pos : Int) ∧ (c.pos : Int) ≤ c.stop ∧ (c.stop : Int) ≤ source.size
  /-- The end never grows. -/
  stop_le : ∀ moves d, c.moveAll moves = .ok d → d.stop ≤ c.stop
  /-- An advance leads that much further on, or to the end of the window. -/
  advance_granted : ∀ (n : Int) (d : Cursor),
    c.advance n = .ok d ↔ d.source = source ∧ (d.pos : Int) = min (c.pos + n) c.stop ∧ d.stop = c.stop
  /-- An advance is refused exactly if it goes before the start of the source. -/
  advance_refused : ∀ (n : Int) (fault : Fault),
    c.advance n = .error fault ↔ c.pos + n < 0 ∧ fault = .invalidWindow (c.pos + n) c.stop source.size
  /-- The bounds that a limit asks for are granted. -/
  limit_granted : ∀ n : Int, ofBounds source c.pos (min (c.pos + max n 0) c.stop) = .ok (c.limit n)

/-- **`c.Views w`** — what is read at the cursor is read off the list `w`, and moves that do not go back are moves in it. -/
structure Views (c : Cursor) (w : List UInt8) : Prop where
  window_eq : c.window = w
  length_eq : c.length = w.length
  atEnd_iff : c.atEnd = true ↔ w = []
  current_eq : ∀ h : 0 < w.length, c.current = .ok w[0]
  current_eq_error_iff : c.current = .error (.endOfInput c.pos) ↔ w = []
  peek_eq : ∀ (k : Nat) (h : k < w.length), c.peek k = some w[k]
  peek_eq_none : ∀ k : Int, ¬ (0 ≤ k ∧ k < w.length) → c.peek k = none
  startsWith_iff : ∀ literal, c.startsWith literal = true ↔ literal <+: w
  findFirst_eq : ∀ test, c.findFirst test = firstIndex test w
  findLast_eq : ∀ test, c.findLast test = lastIndex test w
  window_advance : ∀ n : Int, 0 ≤ n → ∃ d, c.advance n = .ok d ∧ d.window = w.drop n.toNat
  window_limit : ∀ n : Int, (c.limit n).window = w.take (max n 0).toNat
  window_moves : ∀ moves : List Move, (∀ m ∈ moves, m.Forward) →
    ∃ d, c.moveAll moves = .ok d ∧ d.window = moves.foldl Move.onBytes w

/-- **`c.Composes`** — what two moves from the cursor make together. -/
structure Composes (c : Cursor) : Prop where
  /-- Forward or back, two advances add up, unless the first is refused or is cut off before the second goes back. -/
  advance_advance_iff : ∀ a b : Int, (c.advance a >>= fun d => d.advance b) = c.advance (a + b) ↔
    b = 0 ∨ 0 ≤ c.pos + a ∧ (0 ≤ b ∨ c.pos + a ≤ c.stop)
  limit_limit : ∀ a b : Int, (c.limit a).limit b = c.limit (min a b)
  /-- An advance can wait for a limit that leaves room for it. -/
  advance_limit : ∀ a b : Int, 0 ≤ c.pos + a → 0 ≤ b → 0 ≤ a + b →
    (c.advance a).map (fun d => d.limit b) = (c.limit (a + b)).advance a

theorem keepsTo_source (c : Cursor) : c.KeepsTo c.source where
  source_eq := rfl
  bounds := by
    have hpos := c.pos_le_stop
    have hsize := c.stop_le_size
    omega
  stop_le _ _ h := (moveAll_keeps h).2
  advance_granted _ _ := advance_eq_ok_iff
  advance_refused _ _ := advance_eq_error_iff
  limit_granted := c.ofBounds_limit

theorem views_window (c : Cursor) : c.Views c.window where
  window_eq := rfl
  length_eq := c.length_window.symm
  atEnd_iff := c.atEnd_iff
  current_eq h := by
    rw [current, byte?_eq, List.getElem?_eq_getElem h]
  current_eq_error_iff := c.current_eq_error_iff
  peek_eq k h := by
    rw [c.peek_eq, if_pos (Int.natCast_nonneg k), Int.toNat_natCast, List.getElem?_eq_getElem h]
  peek_eq_none k h := by
    rw [c.peek_eq]
    split
    · exact List.getElem?_eq_none (by omega)
    · rfl
  startsWith_iff := c.startsWith_iff
  findFirst_eq := c.findFirst_eq
  findLast_eq := c.findLast_eq
  window_advance n h := window_move (c := c) (m := .advance n) h
  window_limit n := by
    obtain ⟨d, hd, hwindow⟩ := window_move (c := c) (m := .limit n) trivial
    obtain rfl := Except.ok.inj hd
    exact hwindow
  window_moves _ h := window_moveAll h

theorem composes (c : Cursor) : c.Composes where
  advance_advance_iff := c.advance_advance_iff
  limit_limit := c.limit_limit
  advance_limit _ _ := advance_limit

/-- **A cursor stands for the bytes between its bounds.** Out of stored bytes a window is made exactly if its bounds fit, and
bounds that do not are refused. Whatever moves have led from there to a cursor, it keeps to these bytes, reading it is reading
the list of those between its bounds, and its moves compose. -/
theorem reached_views_bytes {storage : Buffer} {source : ByteArray} (hsource : storage.source = .ok source) (pos stop : Int) :
    ((∃ c, storage.cursor pos stop = .ok c) ↔ Fits source pos stop) ∧
      (¬ Fits source pos stop →
        storage.cursor pos stop = .error (.invalidWindow pos (endOf source stop) source.size)) ∧
      ∀ c, storage.cursor pos stop = .ok c →
        (c.pos : Int) = pos ∧ (c.stop : Int) = endOf source stop ∧
          ∀ moves d, c.moveAll moves = .ok d →
            d.KeepsTo source ∧ d.Views ((source.data.toList.drop d.pos).take (d.stop - d.pos)) ∧ d.Composes := by
  have hcursor : storage.cursor pos stop = ofBounds source pos stop := by
    rw [Buffer.cursor, hsource]
    rfl
  rw [hcursor]
  refine ⟨exists_ofBounds_iff, ofBounds_of_not_fits, fun c hc => ?_⟩
  obtain ⟨rfl, hpos, hstop⟩ := ofBounds_eq_ok_iff.1 hc
  refine ⟨hpos, hstop, fun moves d hd => ?_⟩
  rw [← (moveAll_keeps hd).1]
  refine ⟨d.keepsTo_source, ?_, d.composes⟩
  have hviews := d.views_window
  rwa [d.window_eq] at hviews

/-- Five bytes in a storage that shows them backwards. A limit, an advance that is cut off, a step back to the start and one
more limit lead to two bytes in the middle; the byte behind them shows in no answer. -/
theorem reached_views_bytes_hello :
    let storage : Buffer := ⟨⟨#[0x6f, 0x6c, 0x6c, 0x65, 0x68]⟩, .frozenView, .reversed, true⟩
    let source : ByteArray := ⟨#[0x68, 0x65, 0x6c, 0x6c, 0x6f]⟩
    let c : Cursor := ⟨source, 1, 5, by decide, by decide⟩
    let d : Cursor := ⟨source, 1, 3, by decide, by decide⟩
    storage.source = .ok source ∧ ¬ Fits source 6 (-1) ∧ storage.cursor 6 (-1) = .error (.invalidWindow 6 5 5) ∧
      storage.cursor 1 (-1) = .ok c ∧ c.moveAll [.limit 3, .advance 9, .advance (-3), .limit 2] = .ok d ∧
      d.length = 2 ∧ d.current = .ok 0x65 ∧ d.peek 1 = some 0x6c ∧ d.peek 2 = none ∧
      d.startsWith [0x65, 0x6c, 0x6c] = false ∧ d.advance (-2) = .error (.invalidWindow (-1) 3 5) ∧
      (d.advance 9 >>= fun e => e.advance (-1)) ≠ d.advance 8 ∧
      (d.advance (-1) >>= fun e => e.advance 2) = d.advance 1 := by
  intro storage source c d
  have hsource : storage.source = .ok source := rfl
  obtain ⟨-, hrefused, -⟩ := reached_views_bytes hsource 6 (-1)
  obtain ⟨-, -, hmade⟩ := reached_views_bytes hsource 1 (-1)
  have hfits : ¬ Fits source 6 (-1) := by decide +kernel
  have hc : storage.cursor 1 (-1) = .ok c := rfl
  have hd : c.moveAll [.limit 3, .advance 9, .advance (-3), .limit 2] = .ok d := rfl
  obtain ⟨-, -, hreached⟩ := hmade c hc
  obtain ⟨hkeeps, hviews, hcomposes⟩ := hreached _ d hd
  have hwindow : (source.data.toList.drop d.pos).take (d.stop - d.pos) = [0x65, 0x6c] := by decide +kernel
  rw [hwindow] at hviews
  refine ⟨hsource, hfits, hrefused hfits, hc, hd, hviews.length_eq, hviews.current_eq (by decide),
    hviews.peek_eq 1 (by decide), hviews.peek_eq_none 2 (by decide), ?_, ?_, ?_, ?_⟩
  · rw [Bool.eq_false_iff, Ne, hviews.startsWith_iff]
    decide
  · exact (hkeeps.advance_refused (-2) _).2 ⟨by decide, rfl⟩
  · exact fun h => absurd ((hcomposes.advance_advance_iff 9 (-1)).1 h) (by decide)
  · exact (hcomposes.advance_advance_iff (-1) 2).2 (by decide)

end Cursor

end Bytewise
