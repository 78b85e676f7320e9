/-
# Bytewise.Proofs.Brackets — tracing events as brackets.

A labelled parser reports that it is tried and then that it matched or failed. The first report is an opening bracket
and the second one the closing bracket that belongs to it. `Bracketed c` are the words in which every bracket is closed by
its own, and in which the numbers and the bytes of both are right for windows inside of `c`.

A word that is broken off has brackets that nothing closes. `BrokenOff c frames` are these words, with the brackets that
are open at their end. Two things are known of them: they can be closed (`BrokenOff.exists_closing`), and a scan with a stack
finds just these brackets (`BrokenOff.unclosed_eq`).
-/
import Bytewise.Event
import Bytewise.Proofs.Suffix

namespace Bytewise

/-! ## The brackets of one application -/

/-- The bytes of a window that a tracing event shows: the first sixteen, or all if there are fewer. -/
def Cursor.preview (c : Cursor) : List UInt8 :=
  c.window.take 16

/-- **`Frame`** — a labelled parser applied to a window. -/
structure Frame where
  label : String
  cursor : Cursor

namespace Frame

/-- The opening bracket. -/
def trying (f : Frame) : Event :=
  .trying f.label f.cursor.pos f.cursor.preview

/-- The closing bracket of a match that takes `consumed` bytes. -/
def matched (f : Frame) (consumed : Nat) : Event :=
  .matched f.label consumed (f.cursor.skip consumed).preview

/-- The closing bracket of a failure. -/
def failed (f : Frame) (reason : Reason) : Event :=
  .failed f.label f.cursor.pos reason

end Frame

/-! ## Bracketed words -/

/-- **`Bracketed c events`** — every application that is tried is closed once, by a match of no more bytes than its window has
or by a failure, after all that was tried inside of it. Its window is a rest of `c`, and the windows inside of it are rests
of its own. -/
inductive Bracketed : Cursor → List Event → Prop
  | nil {c : Cursor} : Bracketed c []
  | matched {c : Cursor} {f : Frame} {consumed : Nat} {inner rest : List Event} :
      f.cursor.IsRestOf c → consumed ≤ f.cursor.length → Bracketed f.cursor inner → Bracketed c rest →
      Bracketed c (f.trying :: (inner ++ f.matched consumed :: rest))
  | failed {c : Cursor} {f : Frame} {reason : Reason} {inner rest : List Event} :
      f.cursor.IsRestOf c → Bracketed f.cursor inner → Bracketed c rest →
      Bracketed c (f.trying :: (inner ++ f.failed reason :: rest))

/-- **`BrokenOff c frames events`** — a bracketed word up to a place where exactly `frames` are tried and not closed, the
outermost first. -/
inductive BrokenOff : Cursor → List Frame → List Event → Prop
  | outside {c : Cursor} {events : List Event} : Bracketed c events → BrokenOff c [] events
  | inside {c : Cursor} {f : Frame} {frames : List Frame} {before inner : List Event} :
      Bracketed c before → f.cursor.IsRestOf c → BrokenOff f.cursor frames inner →
      BrokenOff c (f :: frames) (before ++ f.trying :: inner)

variable {c d : Cursor} {f : Frame} {frames : List Frame} {before events rest : List Event}

/-- What is bracketed for a rest is bracketed for the window. -/
theorem Bracketed.mono (h : Bracketed d events) (hdc : d.IsRestOf c) : Bracketed c events := by
  induction h with
  | nil => exact .nil
  | matched hf hconsumed hinner _ _ ih => exact .matched (hf.trans hdc) hconsumed hinner (ih hdc)
  | failed hf hinner _ _ ih => exact .failed (hf.trans hdc) hinner (ih hdc)

theorem Bracketed.append (h : Bracketed c events) (hrest : Bracketed c rest) : Bracketed c (events ++ rest) := by
  induction h with
  | nil => exact hrest
  | matched hf hconsumed hinner _ _ ih =>
    rw [List.cons_append, List.append_assoc, List.cons_append]
    exact .matched hf hconsumed hinner (ih hrest)
  | failed hf hinner _ _ ih =>
    rw [List.cons_append, List.append_assoc, List.cons_append]
    exact .failed hf hinner (ih hrest)

namespace BrokenOff

theorem mono (h : BrokenOff d frames events) (hdc : d.IsRestOf c) : BrokenOff c frames events := by
  cases h with
  | outside hevents => exact .outside (hevents.mono hdc)
  | inside hbefore hf hinner => exact .inside (hbefore.mono hdc) (hf.trans hdc) hinner

/-- Behind a bracketed word nothing is open that was not. -/
theorem after (hbefore : Bracketed c before) (h : BrokenOff c frames events) : BrokenOff c frames (before ++ events) := by
  cases h with
  | outside hevents => exact .outside (hbefore.append hevents)
  | inside hbefore' hf hinner =>
    rw [← List.append_assoc]
    exact .inside (hbefore.append hbefore') hf hinner

/-- **A word that is broken off begins a bracketed one.** What is open can be closed from the inside, by failures. -/
theorem exists_closing (h : BrokenOff c frames events) : ∃ closing, Bracketed c (events ++ closing) := by
  induction h with
  | outside hevents => exact ⟨[], by rw [List.append_nil]; exact hevents⟩
  | @inside c f frames before inner hbefore hf _ ih =>
    obtain ⟨closing, hclosing⟩ := ih
    have hlast : Bracketed c (f.trying :: ((inner ++ closing) ++ f.failed .notEmpty :: [])) := .failed hf hclosing .nil
    refine ⟨closing ++ [f.failed .notEmpty], ?_⟩
    rw [List.append_assoc, List.cons_append, ← List.append_assoc inner]
    exact hbefore.append hlast

end BrokenOff

/-! ## The scan with a stack -/

namespace Event

/-- One step of the scan: an opening bracket goes on the stack, a closing one takes the last bracket from it. -/
def scan (stack : List Event) : Event → List Event
  | trying label pos next => stack ++ [trying label pos next]
  | matched .. | failed .. => stack.dropLast
  | parseFailed .. | ruleDefined .. => stack

/-- **`unclosed events`** — the opening brackets that nothing closes, in order. -/
def unclosed (events : List Event) : List Event :=
  events.foldl scan []

end Event

theorem Frame.scan_trying (f : Frame) (stack : List Event) : Event.scan stack f.trying = stack ++ [f.trying] := rfl

/-- A bracketed word leaves the stack as it was. -/
theorem Bracketed.foldl_scan (h : Bracketed c events) (stack : List Event) : events.foldl Event.scan stack = stack := by
  induction h generalizing stack with
  | nil => rfl
  | matched _ _ _ _ ihinner ihrest | failed _ _ _ ihinner ihrest =>
    rw [List.foldl_cons, List.foldl_append, List.foldl_cons, Frame.scan_trying, ihinner, ihrest]
    exact List.dropLast_concat

theorem BrokenOff.foldl_scan (h : BrokenOff c frames events) (stack : List Event) :
    events.foldl Event.scan stack = stack ++ frames.map Frame.trying := by
  induction h generalizing stack with
  | outside hevents => rw [hevents.foldl_scan, List.map_nil, List.append_nil]
  | inside hbefore _ _ ih =>
    rw [List.foldl_append, hbefore.foldl_scan, List.foldl_cons, Frame.scan_trying, ih, List.map_cons, List.append_assoc,
      List.singleton_append]

/-- **The scan finds what is open.** -/
theorem BrokenOff.unclosed_eq (h : BrokenOff c frames events) : Event.unclosed events = frames.map Frame.trying :=
  h.foldl_scan []

/-! ## Labelled parsers -/

namespace Frame

theorem trying_eq (label : String) (c : Cursor) :
    Event.trying label c.pos (c.sliceAhead Event.previewLength) = trying ⟨label, c⟩ := by
  rw [Cursor.sliceAhead_natCast]
  rfl

/-- The report of a match that leaves a rest: as many bytes were consumed as the rest is shorter, and the bytes shown are
the ones behind them. -/
theorem matched_eq (label : String) (h : d.IsRestOf c) :
    Event.matched label (c.length - d.length) (d.sliceAhead Event.previewLength) =
      matched ⟨label, c⟩ (d.pos - c.pos) := by
  have hlength : (c.length : Int) - d.length = (d.pos - c.pos : Nat) := by
    have := h.pos_sub_add_length
    omega
  rw [hlength, Cursor.sliceAhead_natCast, matched, ← h.eq_skip]
  rfl

end Frame

namespace Parser

variable {α : Type} {p : Parser α} {trace : List Event} {m : Match α}

/-- **What a labelled parser reports of a match** stands around what is reported inside. -/
theorem traced_done (label : String) (h : p c = ⟨.done m, trace⟩) (hrest : m.rest.IsRestOf c) :
    traced true label p c =
      ⟨.done m, Frame.trying ⟨label, c⟩ :: (trace ++ [Frame.matched ⟨label, c⟩ (m.rest.pos - c.pos)])⟩ := by
  rw [← Frame.trying_eq, ← Frame.matched_eq label hrest, traced, if_pos rfl, h]
  rfl

theorem traced_failed (label : String) {reason : Reason} (h : p c = ⟨.failed reason, trace⟩) :
    traced true label p c =
      ⟨.failed reason, Frame.trying ⟨label, c⟩ :: (trace ++ [Frame.failed ⟨label, c⟩ reason])⟩ := by
  rw [← Frame.trying_eq, traced, if_pos rfl, h]
  rfl

/-- After a fault the second report is missing. -/
theorem traced_raised (label : String) {fault : Fault} (h : p c = ⟨.raised fault, trace⟩) :
    traced true label p c = ⟨.raised fault, Frame.trying ⟨label, c⟩ :: trace⟩ := by
  rw [← Frame.trying_eq, traced, if_pos rfl, h]
  rfl

theorem traced_unfinished (label : String) (h : p c = ⟨.unfinished, trace⟩) :
    traced true label p c = ⟨.unfinished, Frame.trying ⟨label, c⟩ :: trace⟩ := by
  rw [← Frame.trying_eq, traced, if_pos rfl, h]
  rfl

end Parser

end Bytewise
