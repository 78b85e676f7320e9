/-
# Bytewise.Proofs.HeaderLines — header lines, written and read back.

A header is a name and a content. It is written as a line: the name, a colon, a space, the content, and the two bytes
that end a line. The grammar that reads the lines back scans three times in each of them. The name reaches to the first
byte that no name holds, one space may follow the colon, and the content reaches to the first carriage return, whatever
else it holds. What was written is what is read (`Rulebook.parse_headers`), down to no line at all.

The scans are kept apart by what a header may hold, so that is part of the type: a name has a byte and no separator, and
a content has no carriage return. Everything else is allowed in a content, and it may be empty.
-/
import Bytewise.Proofs.Entry
import Mathlib.Data.List.Basic

namespace Bytewise

/-! ## Headers and their lines -/

/-- The bytes that no name holds: the colon behind it and the two that end a line. -/
def separators : List UInt8 :=
  [0x3a, 0x0d, 0x0a]

/-- **`Header`** — a name and a content that can stand on one line. -/
structure Header where
  name : List UInt8
  content : List UInt8
  name_ne_nil : name ≠ []
  name_plain : ∀ b ∈ name, b ∉ separators
  content_plain : 0x0d ∉ content

namespace Header

/-- **`render h`** — the line of a header. -/
def render (h : Header) : List UInt8 :=
  h.name ++ 0x3a :: 0x20 :: (h.content ++ [0x0d, 0x0a])

/-- The lines of all headers, one behind the other. -/
def renderAll (hs : List Header) : List UInt8 :=
  hs.flatMap render

/-- The header as a grammar produces it. -/
def value (h : Header) : Value :=
  .pair (.bytes h.name) (.bytes h.content)

/-- Headers with the same value are the same, because the rest of a header are proofs. -/
theorem value_injective : Function.Injective value := by
  intro h h' heq
  obtain ⟨name, content, _, _, _⟩ := h
  obtain ⟨name', content', _, _, _⟩ := h'
  rw [value, value, Value.pair.injEq, Value.bytes.injEq, Value.bytes.injEq] at heq
  obtain ⟨rfl, rfl⟩ := heq
  rfl

/-- A line with anything behind it, scan by scan. -/
theorem render_append (h : Header) (rest : List UInt8) :
    h.render ++ rest = h.name ++ 0x3a :: 0x20 :: (h.content ++ 0x0d :: 0x0a :: rest) := by
  rw [render, List.append_assoc, List.cons_append, List.cons_append, List.append_assoc]
  rfl

theorem render_ne_nil (h : Header) : h.render ≠ [] :=
  List.append_ne_nil_of_left_ne_nil h.name_ne_nil _

end Header

namespace Rulebook

/-! ## The grammar -/

/-- A name: bytes up to a separator, and at least one. -/
def headerName : Grammar :=
  .span1 (.satisfy (Predicate.oneOf separators).negate)

/-- A content: bytes up to the first carriage return, behind a space or none. -/
def headerContent : Grammar :=
  .andThen (.optional (.byte 0x20)) (.upToFirst (Predicate.oneOf [0x0d]))

/-- A line: a name and a content with a colon between them, and the end of the line. -/
def headerLine : Grammar :=
  .before (.separated headerName (.byte 0x3a) headerContent) (.literal [0x0d, 0x0a])

variable {book : Rulebook}

/-! ## One line -/

/-- The name is taken whole, because the colon behind it is the first separator. -/
theorem derives_headerName (h : Header) (rest : List UInt8) :
    book.Derives headerName (h.name ++ 0x3a :: rest) (.ok (.bytes h.name) (0x3a :: rest)) := by
  have hname : ∀ b ∈ h.name, (Predicate.oneOf separators).negate b = .ok true := by
    intro b hb
    have hplain : separators.contains b = false := by
      rw [List.contains_eq_mem, decide_eq_false_iff_not]
      exact h.name_plain b hb
    show Except.ok (!separators.contains b) = .ok true
    rw [hplain]
    rfl
  have hcolon : ∀ b ∈ (0x3a :: rest).head?, (Predicate.oneOf separators).negate b = .ok false := by
    intro b hb
    cases hb
    rfl
  exact derives_span1_satisfy h.name_ne_nil hname hcolon

/-- Of a content one space in front is passed over, and the rest is taken up to the end of the line. -/
theorem derives_headerContent (h : Header) (rest : List UInt8) :
    book.Derives headerContent (0x20 :: (h.content ++ 0x0d :: rest)) (.ok (.bytes h.content) (0x0d :: rest)) := by
  have hcontent : ∀ b ∈ h.content, Predicate.oneOf [0x0d] b = .ok false := by
    intro b hb
    have hplain : b ∉ [0x0d] := by
      rw [List.mem_singleton]
      rintro rfl
      exact h.content_plain hb
    show Except.ok (List.contains [0x0d] b) = .ok false
    rw [List.contains_eq_mem, decide_eq_false hplain]
  exact .andThen (.optional .byte) (.upToFirst rfl hcontent rfl)

/-- **A line is read as its header,** whatever stands behind it. -/
theorem derives_headerLine (h : Header) (rest : List UInt8) :
    book.Derives headerLine (h.render ++ rest) (.ok h.value rest) := by
  rw [h.render_append]
  have hend : book.Derives (.literal [0x0d, 0x0a]) (0x0d :: 0x0a :: rest) (.ok (.bytes [0x0d, 0x0a]) rest) :=
    .literal (List.cons_ne_nil _ _) rfl
  exact .before (.separated (derives_headerName h _) .byte (derives_headerContent h _)) hend

/-- Behind the last line there is none: the name already fails. -/
theorem derives_headerLine_nil : book.Derives headerLine [] (.fail .emptyInput) :=
  .before_fail (.separated_fail (.span1_fail .span_empty))

/-! ## All lines -/

/-- Lines are read one by one, in their order. The recursion is on the headers. -/
theorem repeats_headerLine : ∀ hs : List Header,
    book.Repeats false headerLine (Header.renderAll hs) (hs.map Header.value) []
  | [] => .stop derives_headerLine_nil
  | h :: hs => by
    rw [Header.renderAll, List.flatMap_cons, ← Header.renderAll, List.map_cons]
    exact .step_append h.render_ne_nil (derives_headerLine h _) (repeats_headerLine hs)

theorem derives_headerLines (hs : List Header) :
    book.Derives (.many headerLine) (Header.renderAll hs) (.ok (.list (hs.map Header.value)) []) :=
  .many (repeats_headerLine hs)

/-- No two lists of headers have the same lines. -/
theorem renderAll_injective : Function.Injective Header.renderAll := by
  intro hs hs' h
  have hderives : Rulebook.Derives {} (.many headerLine) (Header.renderAll hs) _ := derives_headerLines hs
  rw [h] at hderives
  have hsame := hderives.unique (derives_headerLines hs')
  injection hsame with hvalue _
  injection hvalue with hvalues
  exact List.map_injective_iff.2 Header.value_injective hvalues

/-! ## The parse -/

/-- **Header lines are read as they were written.** Without a limit on the size, the parse of a window that holds the lines
of some headers gives the headers, in their order. -/
theorem parse_headers (book : Rulebook) (levels : Levels) {limit : Int} (hlimit : limit ≤ 0) (c : Cursor)
    (hs : List Header) (h : c.window = Header.renderAll hs) :
    book.Parses levels (some limit) (.many headerLine) c (.done (.list (hs.map Header.value))) :=
  parses_of_derives (Parser.checkSize_of_nonpos hlimit c) (h ▸ derives_headerLines hs)

/-- A header without content, and one whose content begins with a space and holds a colon and the end of a line. -/
theorem parse_headers_odd_contents :
    let c := Cursor.ofBytes "Empty: \r\nOdd:  a:b\n\r\n".toUTF8
    let empty : Header := ⟨"Empty".toUTF8.data.toList, [], by decide +kernel, by decide +kernel, by decide +kernel⟩
    let odd : Header := ⟨"Odd".toUTF8.data.toList, " a:b\n".toUTF8.data.toList, by decide +kernel, by decide +kernel,
      by decide +kernel⟩
    c.window = Header.renderAll [empty, odd] ∧
      Rulebook.Parses {} {} (some 0) (.many headerLine) c (.done (.list [empty.value, odd.value])) := by
  intro c empty odd
  have h : c.window = Header.renderAll [empty, odd] := by decide +kernel
  exact ⟨h, parse_headers {} {} le_rfl c [empty, odd] h⟩

end Rulebook

end Bytewise
