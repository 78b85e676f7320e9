/-
# Bytewise.Proofs.Entry — what a parse of a whole window gives.

`Rulebook.Parses` is to the entry point what `Rulebook.Ends` is to a direct application: how a parse ends once it is given
enough fuel. If the size of the window is allowed, this can be read off a derivation. A verdict that leaves nothing is
the value of the parse, one that leaves something and a failure are the fault that reports them.
-/
import Bytewise.Parser.Entry
import Bytewise.Proofs.Peg.Completeness

namespace Bytewise

namespace Parser

variable {α : Type}

/-- A limit that is not positive allows every window. -/
theorem checkSize_of_nonpos {limit : Int} (h : limit ≤ 0) (c : Cursor) : checkSize (some limit) c = .ok () := by
  have hnot : ¬ (0 < limit ∧ limit < c.length) := fun hboth => absurd hboth.1 (Int.not_lt.2 h)
  rw [checkSize, Option.getD_some, if_neg hnot]

/-- **A parse ends as the whole parser does**, with a failure turned into a fault, if the size is allowed. -/
theorem ending_parse (levels : Levels) {limit : Option Int} (p : Parser α) {c : Cursor}
    (hsize : checkSize limit c = .ok ()) :
    (parse levels limit p c).ending =
      (p.whole c).ending.resume (fun m => .done m.value) fun reason => .raised (.parseFailed reason) := by
  simp only [parse, run, hsize, Attempt.ofExcept_ok, Attempt.bind_eq, Attempt.done_bind, Attempt.pure_eq]
  rcases p.whole c with ⟨m | reason | fault | _, trace⟩
  · rfl
  · -- the report on the core channel changes no ending
    cases levels.core <;> rfl
  · rfl
  · rfl

end Parser

namespace Rulebook

variable {book : Rulebook} {levels : Levels} {limit : Option Int} {g : Grammar} {c : Cursor}

/-- **`book.Parses levels limit g c e`** — the parse of the window `c` by `g` ends with `e`, whatever the fuel is as long as
it is enough. -/
def Parses (book : Rulebook) (levels : Levels) (limit : Option Int) (g : Grammar) (c : Cursor) (e : Ending Value) : Prop :=
  Ending.Settles (fun fuel => (Parser.parse levels limit (book.parser levels.tracing fuel g) c).ending) e

/-- What the whole grammar ends with decides what the parse ends with. -/
theorem parses_of_resume (hsize : Parser.checkSize limit c = .ok ()) {e : Ending Value}
    (h : Ending.Settles
      (fun fuel => (book.parser levels.tracing fuel (.whole g) c).ending.resume (fun m => .done m.value)
        fun reason => .raised (.parseFailed reason)) e) :
    book.Parses levels limit g c e := by
  unfold Parses
  simp only [Parser.ending_parse levels _ hsize]
  exact h

/-- A derivation that leaves nothing gives the value. -/
theorem parses_of_derives (hsize : Parser.checkSize limit c = .ok ()) {value : Value}
    (h : book.Derives g c.window (.ok value [])) : book.Parses levels limit g c (.done value) := by
  have hwhole : book.Derives (.whole g) c.window (.ok value []) := .whole (.before h .endOfInput)
  obtain ⟨m, hm, -, rfl, -⟩ := hwhole.answers c rfl
  exact parses_of_resume hsize (.resume_done hm (.const nofun))

theorem parses_of_derives_whole_fail (hsize : Parser.checkSize limit c = .ok ()) {reason : Reason}
    (h : book.Derives (.whole g) c.window (.fail reason)) :
    book.Parses levels limit g c (.raised (.parseFailed reason)) :=
  parses_of_resume hsize (.resume_failed (h.answers c rfl) (.const nofun))

/-- A derivation that leaves something is a failure: input is left. -/
theorem parses_of_derives_more (hsize : Parser.checkSize limit c = .ok ()) {value : Value} {b : UInt8}
    {rest : List UInt8} (h : book.Derives g c.window (.ok value (b :: rest))) :
    book.Parses levels limit g c (.raised (.parseFailed .notEmpty)) :=
  parses_of_derives_whole_fail hsize (.whole (.before_fail_second h .endOfInput_more))

/-- A failure is the fault with its reason. -/
theorem parses_of_derives_fail (hsize : Parser.checkSize limit c = .ok ()) {reason : Reason}
    (h : book.Derives g c.window (.fail reason)) :
    book.Parses levels limit g c (.raised (.parseFailed reason)) :=
  parses_of_derives_whole_fail hsize (.whole (.before_fail h))

end Rulebook

end Bytewise
