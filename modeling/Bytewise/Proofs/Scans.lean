/-
# Bytewise.Proofs.Scans — where a scan splits its window.

A test marks the bytes that it does not answer with "no": those that pass and those that it refuses. A scan from the front
is decided by the first marked byte, a scan from the back by the last one, and `scans_split` says how: a refusal is the
scan's fault, and otherwise the window is split in front of the byte. Without a marked byte the scan takes everything. The
variants that have to take something differ from this in one place.

The same bytes can be taken by repeating a parser until it fails. `scans_agree` compares the scans with such repetitions,
byte by byte and piece by piece.
-/
import Bytewise.Proofs.Greedy

namespace Bytewise

/-! ## Marked bytes -/

namespace Predicate

/-- **`test.FirstMark w k b`** — `b` stands at index `k`, and it is the first byte of `w` that the test does not answer
with "no". -/
structure FirstMark (test : Predicate) (w : List UInt8) (k : Nat) (b : UInt8) : Prop where
  getElem?_eq : w[k]? = some b
  marked : test b ≠ .ok false
  before : ∀ x ∈ w.take k, test x = .ok false

/-- **`test.LastMark w k b`** — `b` stands at index `k`, and it is the last byte of `w` that the test does not answer
with "no". -/
structure LastMark (test : Predicate) (w : List UInt8) (k : Nat) (b : UInt8) : Prop where
  getElem?_eq : w[k]? = some b
  marked : test b ≠ .ok false
  after : ∀ x ∈ w.drop (k + 1), test x = .ok false

variable {test : Predicate} {w : List UInt8} {k : Nat} {b : UInt8}

/-- A list with a first marked byte, or without any. -/
theorem exists_firstMark_or (test : Predicate) (w : List UInt8) :
    (∃ k b, test.FirstMark w k b) ∨ ∀ x ∈ w, test x = .ok false := by
  induction w with
  | nil => exact Or.inr nofun
  | cons x w ih =>
    by_cases hx : test x = .ok false
    · rcases ih with ⟨k, b, hb⟩ | hnone
      · left
        exact ⟨k + 1, b, by simpa using hb.getElem?_eq, hb.marked, List.forall_mem_cons.2 ⟨hx, hb.before⟩⟩
      · exact Or.inr (List.forall_mem_cons.2 ⟨hx, hnone⟩)
    · exact Or.inl ⟨0, x, rfl, hx, nofun⟩

/-- A list with a last marked byte, or without any. -/
theorem exists_lastMark_or (test : Predicate) (w : List UInt8) :
    (∃ k b, test.LastMark w k b) ∨ ∀ x ∈ w, test x = .ok false := by
  induction w with
  | nil => exact Or.inr nofun
  | cons x w ih =>
    rcases ih with ⟨k, b, hb⟩ | hnone
    · exact Or.inl ⟨k + 1, b, by simpa using hb.getElem?_eq, hb.marked, hb.after⟩
    · by_cases hx : test x = .ok false
      · exact Or.inr (List.forall_mem_cons.2 ⟨hx, hnone⟩)
      · exact Or.inl ⟨0, x, rfl, hx, hnone⟩

/-- The bytes on both sides of an index, and the byte there. -/
theorem eq_append_of_getElem? (h : w[k]? = some b) : w = w.take k ++ b :: w.drop (k + 1) := by
  obtain ⟨hlt, rfl⟩ := List.getElem?_eq_some_iff.1 h
  rw [← List.drop_eq_getElem_cons hlt, List.take_append_drop]

/-- Bytes answered with "no" in front only shift what a search finds. -/
theorem firstIndex_append {front : List UInt8} (hfront : ∀ x ∈ front, test x = .ok false) (rest : List UInt8) :
    firstIndex test (front ++ rest) = (firstIndex test rest).map (Option.map (· + front.length)) := by
  induction front with
  | nil =>
    rw [List.nil_append]
    cases firstIndex test rest with
    | error fault => rfl
    | ok index => cases index <;> rfl
  | cons x front ih =>
    obtain ⟨hx, hrest⟩ := List.forall_mem_cons.1 hfront
    rw [List.cons_append, firstIndex, hx]
    dsimp only
    rw [ih hrest]
    cases firstIndex test rest with
    | error fault => rfl
    | ok index => cases index <;> simp [Except.map, Nat.add_assoc]

/-- A search that begins at a marked byte ends there. -/
theorem firstIndex_cons_of_marked (h : test b ≠ .ok false) (rest : List UInt8) :
    firstIndex test (b :: rest) = (test b).map fun _ => some 0 := by
  rw [firstIndex]
  cases hb : test b with
  | error fault => rfl
  | ok answer =>
    cases answer with
    | true => rfl
    | false => exact absurd hb h

/-- **The search from the front ends at the first marked byte.** -/
theorem FirstMark.firstIndex_eq (h : test.FirstMark w k b) : firstIndex test w = (test b).map fun _ => some k := by
  obtain ⟨hlt, -⟩ := List.getElem?_eq_some_iff.1 h.getElem?_eq
  have hlen : (w.take k).length = k := List.length_take_of_le (Nat.le_of_lt hlt)
  rw [eq_append_of_getElem? h.getElem?_eq, firstIndex_append h.before, firstIndex_cons_of_marked h.marked, hlen]
  cases test b <;> simp [Except.map]

/-- **The search from the back ends at the last marked byte.** -/
theorem LastMark.lastIndex_eq (h : test.LastMark w k b) : lastIndex test w = (test b).map fun _ => some k := by
  obtain ⟨hlt, -⟩ := List.getElem?_eq_some_iff.1 h.getElem?_eq
  have hafter : ∀ x ∈ (w.drop (k + 1)).reverse, test x = .ok false := by
    intro x hx
    exact h.after x (List.mem_reverse.1 hx)
  have hreverse : w.reverse = (w.drop (k + 1)).reverse ++ b :: (w.take k).reverse := by
    conv => lhs; rw [eq_append_of_getElem? h.getElem?_eq]
    simp
  have hindex : w.length - 1 - (w.length - (k + 1)) = k := by omega
  rw [lastIndex, hreverse, firstIndex_append hafter, firstIndex_cons_of_marked h.marked]
  cases test b <;> simp [Except.map, hindex]

end Predicate

/-! ## Split points -/

namespace Parser

/-- **`scan.SplitsBy test mark c`** — at `c`, the byte that `mark` names decides what `scan` and its variant that has to
take something do. -/
structure SplitsBy (scan : Parser (List UInt8)) (test : Predicate) (mark : Nat → UInt8 → Prop) (c : Cursor) :
    Prop where
  /-- A marked byte that the test refuses is a fault. -/
  refused : ∀ k b fault, mark k b → test b = .error fault →
    (scan c).ending = .raised fault ∧ (scan.nonempty c).ending = .raised fault
  /-- In front of a marked byte that passes the window is split. -/
  passed : ∀ k b, mark k b → test b = .ok true →
    ∃ rest : Cursor, rest.source = c.source ∧ rest.pos = c.pos + k ∧ rest.stop = c.stop ∧
      rest.window = b :: c.window.drop (k + 1) ∧
      (scan c).ending = .done ⟨c.window.take k, rest⟩ ∧
      (scan.nonempty c).ending = if k = 0 then .failed .nothingConsumed else .done ⟨c.window.take k, rest⟩
  /-- Without a marked byte everything is taken. -/
  unmarked : (∀ k b, ¬ mark k b) →
    ∃ rest : Cursor, rest.source = c.source ∧ rest.pos = c.stop ∧ rest.stop = c.stop ∧
      (scan c).ending = .done ⟨c.window, rest⟩ ∧
      (scan.nonempty c).ending = if c.window = [] then .failed .nothingConsumed else .done ⟨c.window, rest⟩
  /-- A scan never fails. -/
  never_failed : ∀ reason, (scan c).ending ≠ .failed reason
  /-- Its variant fails exactly where there is nothing to take. -/
  failed_iff : ∀ reason, (scan.nonempty c).ending = .failed reason ↔
    reason = .nothingConsumed ∧ (c.window = [] ∨ ∃ b, mark 0 b ∧ test b = .ok true)

variable {search : Cursor → Except Fault (Option Nat)} {c : Cursor}

/-- How a scan ends, by what its search finds. -/
theorem ending_splitAt (search : Cursor → Except Fault (Option Nat)) (c : Cursor) :
    (splitAt search c).ending =
      match search c with
      | .error fault => .raised fault
      | .ok offset => .done ⟨c.window.take (offset.getD c.length), c.skip (offset.getD c.length)⟩ := by
  rw [splitAt_eq]
  cases search c <;> rfl

/-- How its variant ends. -/
theorem ending_nonempty_splitAt (search : Cursor → Except Fault (Option Nat)) (c : Cursor) :
    ((splitAt search).nonempty c).ending =
      match search c with
      | .error fault => .raised fault
      | .ok offset =>
        if c.window.take (offset.getD c.length) = [] then .failed .nothingConsumed
        else .done ⟨c.window.take (offset.getD c.length), c.skip (offset.getD c.length)⟩ := by
  rw [ending_nonempty, ending_splitAt]
  cases search c with
  | error fault => rfl
  | ok offset => simp only [Ending.resume_done, List.isEmpty_iff]

section

variable {test : Predicate} {mark : Nat → UInt8 → Prop} {k : Nat} {b : UInt8}

/-- At a byte of the window that its search stops at, a scan splits the window. -/
theorem ending_splitAt_of_some (hb : c.window[k]? = some b) (hfound : search c = .ok (some k)) :
    (c.skip k).pos = c.pos + k ∧ (c.skip k).window = b :: c.window.drop (k + 1) ∧
      (splitAt search c).ending = .done ⟨c.window.take k, c.skip k⟩ ∧
      ((splitAt search).nonempty c).ending =
        if k = 0 then .failed .nothingConsumed else .done ⟨c.window.take k, c.skip k⟩ := by
  obtain ⟨hlt, rfl⟩ := List.getElem?_eq_some_iff.1 hb
  have hle : k ≤ c.length := by
    rw [Cursor.length_window] at hlt
    omega
  have hne : c.window ≠ [] := List.ne_nil_of_length_pos (Nat.zero_lt_of_lt hlt)
  refine ⟨Cursor.pos_skip_of_le hle, ?_, ?_, ?_⟩
  · rw [Cursor.window_skip, List.drop_eq_getElem_cons hlt]
  · rw [ending_splitAt, hfound]
    rfl
  · rw [ending_nonempty_splitAt, hfound]
    simp only [Option.getD_some, List.take_eq_nil_iff, hne, or_false]

/-- Where its search finds nothing, a scan takes everything. -/
theorem ending_splitAt_of_none (hfound : search c = .ok none) :
    (c.skip c.length).pos = c.stop ∧
      (splitAt search c).ending = .done ⟨c.window, c.skip c.length⟩ ∧
      ((splitAt search).nonempty c).ending =
        if c.window = [] then .failed .nothingConsumed else .done ⟨c.window, c.skip c.length⟩ := by
  have hall : c.window.take c.length = c.window := by rw [← Cursor.length_window, List.take_length]
  refine ⟨?_, ?_, ?_⟩
  · rw [Cursor.pos_skip, Cursor.pos_add_length, Nat.min_self]
  · rw [ending_splitAt, hfound]
    simp only [Option.getD_none, hall]
  · rw [ending_nonempty_splitAt, hfound]
    simp only [Option.getD_none, hall]

/-- **`Finds search test mark c`** — at `c`, the search ends at the byte that `mark` names, with the answer of the test. -/
structure Finds (search : Cursor → Except Fault (Option Nat)) (test : Predicate) (mark : Nat → UInt8 → Prop)
    (c : Cursor) : Prop where
  getElem?_eq : ∀ k b, mark k b → c.window[k]? = some b
  marked : ∀ k b, mark k b → test b ≠ .ok false
  found : ∀ k b, mark k b → search c = (test b).map fun _ => some k
  nothing : (∀ k b, ¬ mark k b) → search c = .ok none

theorem Finds.of_passed (h : Finds search test mark c) (hkb : mark k b) (hb : test b = .ok true) :
    search c = .ok (some k) := by
  rw [h.found k b hkb, hb]
  rfl

theorem Finds.of_refused (h : Finds search test mark c) (hkb : mark k b) {fault : Fault} (hb : test b = .error fault) :
    search c = .error fault := by
  rw [h.found k b hkb, hb]
  rfl

/-- The marked byte passes or is refused, or there is none. -/
theorem Finds.passed_or_refused_or (h : Finds search test mark c) :
    (∃ k b, mark k b ∧ test b = .ok true) ∨ (∃ k b fault, mark k b ∧ test b = .error fault) ∨ ∀ k b, ¬ mark k b := by
  by_cases hmark : ∃ k b, mark k b
  · obtain ⟨k, b, hkb⟩ := hmark
    cases hb : test b with
    | error fault => exact Or.inr (Or.inl ⟨k, b, fault, hkb, hb⟩)
    | ok answer =>
      cases answer with
      | true => exact Or.inl ⟨k, b, hkb, hb⟩
      | false => exact absurd hb (h.marked k b hkb)
  · exact Or.inr (Or.inr fun k b hkb => hmark ⟨k, b, hkb⟩)

/-- A scan that has to take something fails where there is nothing in front of the marked byte, or nothing at all. -/
theorem Finds.failed_nonempty_iff (h : Finds search test mark c) (reason : Reason) :
    ((splitAt search).nonempty c).ending = .failed reason ↔
      reason = .nothingConsumed ∧ (c.window = [] ∨ ∃ b, mark 0 b ∧ test b = .ok true) := by
  constructor
  · intro hfailed
    rcases h.passed_or_refused_or with ⟨k, b, hkb, hb⟩ | ⟨k, b, fault, hkb, hb⟩ | hnone
    · rw [(ending_splitAt_of_some (h.getElem?_eq k b hkb) (h.of_passed hkb hb)).2.2.2] at hfailed
      split at hfailed
      · rename_i hzero
        subst hzero
        exact ⟨(Ending.failed.inj hfailed).symm, Or.inr ⟨b, hkb, hb⟩⟩
      · cases hfailed
    · rw [ending_nonempty_splitAt, h.of_refused hkb hb] at hfailed
      cases hfailed
    · rw [(ending_splitAt_of_none (h.nothing hnone)).2.2] at hfailed
      split at hfailed
      · rename_i hempty
        exact ⟨(Ending.failed.inj hfailed).symm, Or.inl hempty⟩
      · cases hfailed
  · rintro ⟨rfl, hempty | ⟨b, hkb, hb⟩⟩
    · -- an empty window has no byte that could be marked
      have hnone : ∀ k b, ¬ mark k b := by
        intro k b hkb
        have hbyte := h.getElem?_eq k b hkb
        rw [hempty] at hbyte
        cases hbyte
      rw [(ending_splitAt_of_none (h.nothing hnone)).2.2, if_pos hempty]
    · rw [(ending_splitAt_of_some (h.getElem?_eq 0 b hkb) (h.of_passed hkb hb)).2.2.2, if_pos rfl]

/-- **A scan splits its window by the byte that its search ends at.** -/
theorem Finds.splitsBy (h : Finds search test mark c) : (splitAt search).SplitsBy test mark c := by
  refine ⟨fun k b fault hkb hb => ?_, fun k b hkb hb => ?_, fun hnone => ?_, fun reason => ?_, h.failed_nonempty_iff⟩
  · rw [ending_splitAt, ending_nonempty_splitAt, h.of_refused hkb hb]
    exact ⟨rfl, rfl⟩
  · obtain ⟨hpos, hwindow, hscan, hvariant⟩ :=
      ending_splitAt_of_some (h.getElem?_eq k b hkb) (h.of_passed hkb hb)
    exact ⟨c.skip k, rfl, hpos, rfl, hwindow, hscan, hvariant⟩
  · obtain ⟨hpos, hscan, hvariant⟩ := ending_splitAt_of_none (h.nothing hnone)
    exact ⟨c.skip c.length, rfl, hpos, rfl, hscan, hvariant⟩
  · rw [ending_splitAt]
    cases search c <;> nofun

end

/-- The search from the front ends at the first marked byte, or finds nothing. -/
theorem finds_findFirst (test : Predicate) (c : Cursor) :
    Finds (fun c => c.findFirst test) test (test.FirstMark c.window) c := by
  refine ⟨fun k b h => h.getElem?_eq, fun k b h => h.marked, fun k b h => ?_, fun hnone => ?_⟩
  · show c.findFirst test = _
    rw [Cursor.findFirst_eq, h.firstIndex_eq]
  · show c.findFirst test = _
    rw [Cursor.findFirst_eq, firstIndex_eq_none_iff]
    exact (test.exists_firstMark_or c.window).resolve_left fun ⟨k, b, h⟩ => hnone k b h

/-- The search from the back ends at the last marked byte, or finds nothing. -/
theorem finds_findLast (test : Predicate) (c : Cursor) :
    Finds (fun c => c.findLast test) test (test.LastMark c.window) c := by
  refine ⟨fun k b h => h.getElem?_eq, fun k b h => h.marked, fun k b h => ?_, fun hnone => ?_⟩
  · show c.findLast test = _
    rw [Cursor.findLast_eq, h.lastIndex_eq]
  · show c.findLast test = _
    rw [Cursor.findLast_eq, lastIndex_eq_none_iff]
    exact (test.exists_lastMark_or c.window).resolve_left fun ⟨k, b, h⟩ => hnone k b h

/-- **The exact split points of the scans.** The first marked byte decides the scan from the front, the last one the scan
from the back: its refusal is the fault, and else what stands in front of it is taken and the rest starts with it. So
nothing that is taken from the front passes, and from the back nothing behind the rest's first byte does. -/
theorem scans_split (test : Predicate) (c : Cursor) :
    (upToFirst test).SplitsBy test (test.FirstMark c.window) c ∧
      (upToLast test).SplitsBy test (test.LastMark c.window) c :=
  ⟨(finds_findFirst test c).splitsBy, (finds_findLast test c).splitsBy⟩

/-- A slash that passes, and an exclamation mark in front of it that is refused: the scan from the front meets the mark,
the scan from the back does not get to it. -/
theorem scans_split_path :
    let c : Cursor := ⟨⟨#[0x2f, 0x61, 0x21, 0x62, 0x2f, 0x63, 0x2f]⟩, 1, 6, by decide, by decide⟩
    let test : Predicate := fun b => if b = 0x21 then .error (.refused "!") else .ok (b == 0x2f)
    test.FirstMark c.window 1 0x21 ∧ test.LastMark c.window 3 0x2f ∧
      (upToFirst test c).ending = .raised (.refused "!") ∧
      ∃ rest : Cursor, rest.pos = 4 ∧ rest.stop = 6 ∧ rest.window = [0x2f, 0x63] ∧
        (upToLast test c).ending = .done ⟨[0x61, 0x21, 0x62], rest⟩ := by
  intro c test
  have hfirst : test.FirstMark c.window 1 0x21 := ⟨by decide +kernel, nofun, List.forall_mem_singleton.2 rfl⟩
  have hlast : test.LastMark c.window 3 0x2f := ⟨by decide +kernel, nofun, List.forall_mem_singleton.2 rfl⟩
  obtain ⟨hfront, hback⟩ := scans_split test c
  obtain ⟨rest, -, hpos, hstop, hwindow, hscan, -⟩ := hback.passed 3 0x2f hlast rfl
  exact ⟨hfirst, hlast, (hfront.refused 1 0x21 _ hfirst rfl).1, rest, hpos, hstop, hwindow, hscan⟩

/-! ## Scans as repetitions -/

section

variable {test : Predicate} {budget : Nat}

/-- The opposite test of single bytes, on the window. -/
theorem ending_satisfy_negate (test : Predicate) (c : Cursor) :
    (satisfy test.negate c).ending =
      match c.window with
      | [] => .failed .emptyInput
      | b :: _ =>
        match test b with
        | .error fault => .raised fault
        | .ok true => .failed .wrongByte
        | .ok false => .done ⟨b, c.skip 1⟩ := by
  rw [satisfy_eq]
  rcases c.window with _ | ⟨b, bs⟩
  · rfl
  · dsimp only
    unfold Predicate.negate
    rcases test b with fault | _ | _ <;> rfl

/-- What a walk by single bytes has passed over is answered with "no" by the opposite test. -/
theorem Walk.forall_passed {d : Cursor} {ms : List (Match UInt8)} (h : (satisfy test.negate).Walk c ms d) :
    ∃ front, c.window = front ++ d.window ∧ ∀ x ∈ front, test x = .ok false := by
  induction h with
  | nil c => exact ⟨[], rfl, nofun⟩
  | @cons c d m ms hm _ _ ih =>
    obtain ⟨front, hwindow, hfront⟩ := ih
    rw [ending_satisfy_negate] at hm
    rcases hw : c.window with _ | ⟨b, bs⟩
    · rw [hw] at hm
      cases hm
    · rw [hw] at hm
      dsimp only at hm
      split at hm
      · cases hm
      · cases hm
      · rename_i hb
        obtain rfl := Ending.done.inj hm
        have hbs : bs = front ++ d.window := by rw [← hwindow, Cursor.window_skip, hw]; rfl
        exact ⟨b :: front, by rw [hbs, List.cons_append], List.forall_mem_cons.2 ⟨hb, hfront⟩⟩

/-- So a search from the front may begin where such a walk ends. -/
theorem Walk.findFirst_eq {d : Cursor} {ms : List (Match UInt8)} (h : (satisfy test.negate).Walk c ms d) :
    c.findFirst test = (firstIndex test d.window).map (Option.map (· + (d.pos - c.pos))) := by
  obtain ⟨front, hwindow, hfront⟩ := h.forall_passed
  have hconsumed := (h.isRestOf (onlyAdvances_satisfy _)).pos_sub_add_length
  have hlen : front.length = d.pos - c.pos := by
    have := congrArg List.length hwindow
    rw [List.length_append, Cursor.length_window, Cursor.length_window] at this
    omega
  rw [Cursor.findFirst_eq, hwindow, Predicate.firstIndex_append hfront, hlen]

/-- **A scan byte by byte.** Repeating the opposite test takes the bytes in front of the first one that passes. -/
theorem ending_span_negate (hc : c.window ≠ []) (hbudget : c.length < budget) :
    (span budget (satisfy test.negate) c).ending = (upToFirst test c).ending := by
  have hp : (satisfy test.negate).OnlyAdvances := onlyAdvances_satisfy _
  obtain ⟨ms, d, hlongest⟩ := exists_isLongestWalk (satisfy test.negate) c
  obtain ⟨hwalk, hd⟩ := isLongestWalk_iff.1 hlongest
  have hrest := hwalk.isRestOf hp
  have hlength := d.length_window
  have hstop := ending_satisfy_negate test d
  rw [upToFirst, ending_splitAt, hwalk.findFirst_eq]
  -- the byte at the end of the walk decides both
  rcases hw : d.window with _ | ⟨b, bs⟩
  · rw [hw, List.length_nil] at hlength
    have hall : c.length = d.pos - c.pos := by rw [← hrest.pos_sub_add_length, ← hlength, Nat.add_zero]
    rw [hwalk.ending_span_of_end hp hc hbudget (Or.inl hw)]
    show _ = Ending.done (⟨c.window.take c.length, c.skip c.length⟩ : Match (List UInt8))
    rw [hall, ← hrest.eq_skip]
  · rw [hw] at hstop
    dsimp only at hstop
    rw [firstIndex]
    rcases hb : test b with fault | _ | _
    · rw [hb] at hstop
      rw [hwalk.ending_span_of_raised hp hc hbudget (by rw [hw]; exact List.cons_ne_nil b bs) hstop]
      rfl
    · -- a byte that is answered with "no" would have been walked over
      rw [hb] at hstop
      refine absurd ?_ (hd _ hstop)
      rw [hw, List.length_cons] at hlength
      rw [Cursor.length_skip]
      omega
    · rw [hb] at hstop
      rw [hwalk.ending_span_of_end hp hc hbudget (Or.inr ⟨_, hstop⟩)]
      show _ = Ending.done
        (⟨c.window.take (0 + (d.pos - c.pos)), c.skip (0 + (d.pos - c.pos))⟩ : Match (List UInt8))
      rw [Nat.zero_add, ← hrest.eq_skip]

/-- **`SettlesOn search`** — from the byte that it has found, the search finds that byte again. -/
def SettlesOn (search : Cursor → Except Fault (Option Nat)) : Prop :=
  ∀ c k, search c = .ok (some k) → k ≤ c.length ∧ search (c.skip k) = .ok (some 0)

theorem settlesOn_findFirst (test : Predicate) : SettlesOn fun c => c.findFirst test := by
  intro c k hfound
  dsimp only at hfound ⊢
  rw [Cursor.findFirst_eq] at hfound ⊢
  obtain ⟨front, b, back, hsplit, rfl, -, hb⟩ := firstIndex_eq_some_iff.1 hfound
  refine ⟨?_, ?_⟩
  · rw [← Cursor.length_window, hsplit, List.length_append]
    omega
  · rw [Cursor.window_skip, hsplit, List.drop_left, firstIndex, hb]

theorem settlesOn_findLast (test : Predicate) : SettlesOn fun c => c.findLast test := by
  intro c k hfound
  dsimp only at hfound ⊢
  rw [Cursor.findLast_eq] at hfound ⊢
  obtain ⟨front, b, back, hsplit, rfl, hb, hback⟩ := lastIndex_eq_some_iff.1 hfound
  refine ⟨?_, ?_⟩
  · rw [← Cursor.length_window, hsplit, List.length_append]
    omega
  · rw [Cursor.window_skip, hsplit, List.drop_left]
    exact lastIndex_eq_some_iff.2 ⟨[], b, back, rfl, rfl, hb, hback⟩

/-- Behind a piece that was taken there is nothing more to take. -/
theorem SettlesOn.end_of_found (hsearch : SettlesOn search) {offset : Option Nat} (hfound : search c = .ok offset) :
    offset.getD c.length ≤ c.length ∧
      ((c.skip (offset.getD c.length)).window = [] ∨
        ∃ reason, ((splitAt search).nonempty (c.skip (offset.getD c.length))).ending = .failed reason) := by
  rcases offset with _ | k
  · refine ⟨Nat.le_refl _, Or.inl ?_⟩
    rw [Cursor.window_skip, Option.getD_none, ← Cursor.length_window, List.drop_length]
  · obtain ⟨hle, hagain⟩ := hsearch c k hfound
    refine ⟨hle, Or.inr ⟨.nothingConsumed, ?_⟩⟩
    rw [Option.getD_some, ending_nonempty_splitAt, hagain]
    rfl

/-- **A scan piece by piece.** A scan that has to take something matches once at most: then it stands in front of the byte
that it has found, or at the end of the window. -/
theorem ending_span_nonempty_splitAt (hsearch : SettlesOn search) (hc : c.window ≠ []) (hbudget : c.length < budget) :
    (span budget (splitAt search).nonempty c).ending = (splitAt search c).ending := by
  have hp : (splitAt search).nonempty.OnlyAdvances := (onlyAdvances_splitAt search).nonempty
  have hpiece := ending_nonempty_splitAt search c
  rw [ending_splitAt]
  rcases hfound : search c with fault | offset
  · rw [hfound] at hpiece
    exact (Walk.nil c).ending_span_of_raised hp hc hbudget hc hpiece
  · rw [hfound] at hpiece
    dsimp only at hpiece ⊢
    obtain ⟨hle, hend⟩ := hsearch.end_of_found hfound
    generalize offset.getD c.length = k at hpiece hle hend ⊢
    -- the walk has one match, or none where there is nothing in front of the byte
    obtain ⟨ms, hwalk⟩ : ∃ ms, (splitAt search).nonempty.Walk c ms (c.skip k) := by
      by_cases hnothing : k = 0
      · exact ⟨[], by rw [hnothing, Cursor.skip_zero]; exact .nil c⟩
      · have htaken : c.window.take k ≠ [] := by simp [List.take_eq_nil_iff, hnothing, hc]
        have hless : (c.skip k).length < c.length := by
          rw [Cursor.length_skip]
          omega
        rw [if_neg htaken] at hpiece
        exact ⟨_, .cons hpiece hless (.nil _)⟩
    rw [hwalk.ending_span_of_end hp hc hbudget hend, Cursor.pos_skip_of_le hle, Nat.add_sub_cancel_left]

end

/-- **Scans are repetitions.** On a window that is not empty, the scan from the front takes what the opposite test of
single bytes takes again and again, and what its own variant takes again and again; the two variants that have to take
something agree as well. The scan from the back takes what its own variant takes again and again. Each time the values and
rests are the same, and so are the faults. -/
theorem scans_agree (test : Predicate) {c : Cursor} (hc : c.window ≠ []) {budget : Nat} (hbudget : c.length < budget) :
    (span budget (satisfy test.negate) c).ending = (upToFirst test c).ending ∧
      (span budget (upToFirst test).nonempty c).ending = (upToFirst test c).ending ∧
      ((upToFirst test).nonempty c).ending = ((span budget (satisfy test.negate)).nonempty c).ending ∧
      (span budget (upToLast test).nonempty c).ending = (upToLast test c).ending := by
  refine ⟨ending_span_negate hc hbudget, ?_, ?_, ?_⟩
  · exact ending_span_nonempty_splitAt (settlesOn_findFirst test) hc hbudget
  · rw [ending_nonempty, ending_nonempty, ending_span_negate hc hbudget]
  · exact ending_span_nonempty_splitAt (settlesOn_findLast test) hc hbudget

/-- A path: its first part, and all but its last part. -/
theorem scans_agree_path :
    let c : Cursor := ⟨⟨#[0x2f, 0x61, 0x2f, 0x62, 0x2f, 0x63, 0x2f]⟩, 1, 6, by decide, by decide⟩
    let slash : Predicate := .oneOf [0x2f]
    c.window ≠ [] ∧ c.length < 6 ∧
      (span 6 (satisfy slash.negate) c).ending = .done ⟨[0x61], c.skip 1⟩ ∧
      (span 6 (upToLast slash).nonempty c).ending = .done ⟨[0x61, 0x2f, 0x62], c.skip 3⟩ := by
  intro c slash
  have hc : c.window ≠ [] := by decide +kernel
  have hbudget : c.length < 6 := by decide
  obtain ⟨hbytes, -, -, hpieces⟩ := scans_agree slash hc hbudget
  have hfirst : (upToFirst slash c).ending = .done ⟨[0x61], c.skip 1⟩ := by decide +kernel
  have hlast : (upToLast slash c).ending = .done ⟨[0x61, 0x2f, 0x62], c.skip 3⟩ := by decide +kernel
  exact ⟨hc, hbudget, hbytes.trans hfirst, hpieces.trans hlast⟩

end Parser

end Bytewise
