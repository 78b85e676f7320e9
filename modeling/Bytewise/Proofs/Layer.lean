/-
# Bytewise.Proofs.Layer — how a grammar ends, one equation a constructor.

What a grammar stands for is one combinator applied to the meanings of its parts. Here its ending is written as a
function of their endings, with the values already in the form in which a grammar produces them, and
terminals as functions of the window. These equations are what inductions over grammars rewrite with: they open
neither the combinators nor the traces.
-/
import Bytewise.Proofs.Ending
import Bytewise.Rulebook

namespace Bytewise

/-- A match of no bytes as the failure of a scan that has to consume something. -/
def Match.refuseEmpty (m : Match Value) : Ending (Match Value) :=
  match m.value with
  | .bytes [] => .failed .nothingConsumed
  | _ => .done m

namespace Grammar

variable (σ : Setting) (c : Cursor)

/-! ## Terminals, on the window -/

theorem ending_take (count : Nat) :
    ((Grammar.take count).parser σ c).ending =
      if count = 0 then .failed .takeZero
      else if c.length < count then .failed .takeNotEnough
      else .done ⟨.bytes (c.window.take count), c.skip count⟩ := by
  show ((Parser.take count).as Value.bytes c).ending = _
  rw [Parser.ending_as, Parser.take_eq]
  split
  · rfl
  · split <;> rfl

theorem ending_literal (expected : List UInt8) :
    ((Grammar.literal expected).parser σ c).ending =
      if c.window = [] then .failed .emptyInput
      else if c.length < expected.length then .failed .notEnoughBytes
      else if c.startsWith expected then .done ⟨.bytes expected, c.skip expected.length⟩
      else .failed .wrongBytes := by
  show ((Parser.literal expected).as Value.bytes c).ending = _
  rw [Parser.ending_as, Parser.literal_eq]
  split
  · rfl
  · split
    · rfl
    · split <;> rfl

theorem ending_satisfy (test : Predicate) :
    ((Grammar.satisfy test).parser σ c).ending =
      match c.window with
      | [] => .failed .emptyInput
      | b :: _ =>
        match test b with
        | .error fault => .raised fault
        | .ok true => .done ⟨.ofByte b, c.skip 1⟩
        | .ok false => .failed .wrongByte := by
  show ((Parser.satisfy test).as Value.ofByte c).ending = _
  rw [Parser.ending_as, Parser.satisfy_eq]
  cases c.window with
  | nil => rfl
  | cons b bs =>
    dsimp only
    cases test b with
    | error fault => rfl
    | ok answer => cases answer <;> rfl

/-- A byte is the byte that passes the comparison with it. -/
theorem parser_byte (expected : UInt8) :
    (Grammar.byte expected).parser σ = (Grammar.satisfy fun b => .ok (b == expected)).parser σ := rfl

theorem ending_upToFirst (test : Predicate) :
    ((Grammar.upToFirst test).parser σ c).ending =
      match firstIndex test c.window with
      | .error fault => .raised fault
      | .ok offset =>
        .done ⟨.bytes (c.window.take (offset.getD c.length)), c.skip (offset.getD c.length)⟩ := by
  show ((Parser.upToFirst test).as Value.bytes c).ending = _
  rw [Parser.ending_as, Parser.upToFirst, Parser.splitAt_eq, Cursor.findFirst_eq]
  cases firstIndex test c.window <;> rfl

theorem ending_upToLast (test : Predicate) :
    ((Grammar.upToLast test).parser σ c).ending =
      match lastIndex test c.window with
      | .error fault => .raised fault
      | .ok offset =>
        .done ⟨.bytes (c.window.take (offset.getD c.length)), c.skip (offset.getD c.length)⟩ := by
  show ((Parser.upToLast test).as Value.bytes c).ending = _
  rw [Parser.ending_as, Parser.upToLast, Parser.splitAt_eq, Cursor.findLast_eq]
  cases lastIndex test c.window <;> rfl

theorem ending_endOfInput :
    (Grammar.endOfInput.parser σ c).ending =
      if c.atEnd then .done ⟨.none, c⟩ else .failed .notEmpty := by
  show (Parser.endOfInput.as (fun _ => Value.none) c).ending = _
  rw [Parser.ending_as, Parser.ending_endOfInput]
  split <;> rfl

theorem ending_moreInput :
    (Grammar.moreInput.parser σ c).ending =
      if c.atEnd then .failed .parserSucceeded else .done ⟨.none, c⟩ := by
  show (Parser.moreInput.as (fun _ => Value.none) c).ending = _
  rw [Parser.ending_as, Parser.ending_moreInput]
  split <;> rfl

/-! ## Combinators, on the endings of their parts -/

/-- The three scans that have to take something refuse what the plain ones give if that is nothing. -/
theorem ending_nonempty_as (p : Parser (List UInt8)) :
    (p.nonempty.as Value.bytes c).ending = (p.as Value.bytes c).ending.resume Match.refuseEmpty .failed := by
  rw [Parser.ending_as, Parser.ending_as, Parser.ending_nonempty, Ending.resume_resume, Ending.resume_resume]
  congr 1
  funext m
  cases hv : m.value <;> simp [Match.refuseEmpty, hv]

theorem ending_upToFirst1 (test : Predicate) :
    ((Grammar.upToFirst1 test).parser σ c).ending =
      ((Grammar.upToFirst test).parser σ c).ending.resume Match.refuseEmpty .failed :=
  ending_nonempty_as c _

theorem ending_upToLast1 (test : Predicate) :
    ((Grammar.upToLast1 test).parser σ c).ending =
      ((Grammar.upToLast test).parser σ c).ending.resume Match.refuseEmpty .failed :=
  ending_nonempty_as c _

theorem ending_span1 (inner : Grammar) :
    ((Grammar.span1 inner).parser σ c).ending =
      ((Grammar.span inner).parser σ c).ending.resume Match.refuseEmpty .failed :=
  ending_nonempty_as c _

theorem ending_span (inner : Grammar) :
    ((Grammar.span inner).parser σ c).ending =
      if c.atEnd then .failed .emptyInput
      else
        (Parser.repeated (fun here => !here.atEnd) "take_while" σ.budget (inner.parser σ) c).ending.resume
          (fun m =>
            let slice : Match (List UInt8) :=
              if m.rest.pos = c.pos then ⟨[], c⟩ else ⟨c.sliceTo m.rest.pos, m.rest⟩
            .done ⟨.bytes slice.value, slice.rest⟩)
          .failed := by
  show ((Parser.span σ.budget (inner.parser σ)).as Value.bytes c).ending = _
  rw [Parser.ending_as, Parser.ending_span]
  split
  · rfl
  · exact Ending.resume_resume _ _ _ _ _

theorem ending_map (f : Value → Except Fault Value) (inner : Grammar) :
    ((Grammar.map f inner).parser σ c).ending =
      (inner.parser σ c).ending.resume
        (fun m =>
          match f m.value with
          | .ok value => .done ⟨value, m.rest⟩
          | .error fault => .raised fault)
        .failed := by
  show ((inner.parser σ).map f c).ending = _
  rw [Parser.ending_map]
  congr 1
  funext m
  cases f m.value <;> rfl

theorem ending_separated (left separator right : Grammar) :
    ((Grammar.separated left separator right).parser σ c).ending =
      (left.parser σ c).ending.resume
        (fun first =>
          (separator.parser σ first.rest).ending.resume
            (fun between =>
              (right.parser σ between.rest).ending.resume
                (fun second => .done ⟨.pair first.value second.value, second.rest⟩) .failed)
            .failed)
        .failed := by
  show ((Parser.separated (left.parser σ) (separator.parser σ) (right.parser σ)).as
    (fun v => Value.pair v.1 v.2) c).ending = _
  rw [Parser.ending_as, Parser.ending_separated]
  simp only [Ending.resume_resume, Ending.resume_done, Ending.resume_failed]

theorem ending_andThen (first second : Grammar) :
    ((Grammar.andThen first second).parser σ c).ending =
      (first.parser σ c).ending.resume (fun m => (second.parser σ m.rest).ending) .failed :=
  Parser.ending_andThen _ _ c

theorem ending_before (first second : Grammar) :
    ((Grammar.before first second).parser σ c).ending =
      (first.parser σ c).ending.resume
        (fun m => (second.parser σ m.rest).ending.resume (fun n => .done ⟨m.value, n.rest⟩) .failed)
        .failed :=
  Parser.ending_before _ _ c

theorem ending_optional (inner : Grammar) :
    ((Grammar.optional inner).parser σ c).ending =
      (inner.parser σ c).ending.resume .done fun _ => .done ⟨.none, c⟩ := by
  show ((Parser.optional (inner.parser σ)).as Value.ofOption c).ending = _
  rw [Parser.ending_as, Parser.ending_optional, Ending.resume_resume]
  rfl

theorem ending_notFollowedBy (inner : Grammar) :
    ((Grammar.notFollowedBy inner).parser σ c).ending =
      (inner.parser σ c).ending.resume (fun _ => .failed .parserSucceeded) fun _ => .done ⟨.none, c⟩ := by
  show ((Parser.notFollowedBy (inner.parser σ)).as (fun _ => Value.none) c).ending = _
  rw [Parser.ending_as, Parser.ending_notFollowedBy, Ending.resume_resume]
  rfl

theorem ending_lookahead (inner : Grammar) :
    ((Grammar.lookahead inner).parser σ c).ending =
      (inner.parser σ c).ending.resume (fun m => .done ⟨m.value, c⟩) .failed :=
  Parser.ending_lookahead _ c

theorem ending_many (inner : Grammar) :
    ((Grammar.many inner).parser σ c).ending =
      (Parser.repeated (fun _ => true) "one_or_more" σ.budget (inner.parser σ) c).ending.resume
        (fun m => .done ⟨.list m.value, m.rest⟩) .failed := by
  show ((Parser.many σ.budget (inner.parser σ)).as Value.list c).ending = _
  rw [Parser.ending_as, Parser.many_eq]

theorem ending_many1 (inner : Grammar) :
    ((Grammar.many1 inner).parser σ c).ending =
      (Parser.repeated (fun _ => true) "one_or_more" σ.budget (inner.parser σ) c).ending.resume
        (fun m => if m.value.isEmpty then .failed .noRepetition else .done ⟨.list m.value, m.rest⟩)
        .failed := by
  show ((Parser.many1 σ.budget (inner.parser σ)).as Value.list c).ending = _
  rw [Parser.ending_as, Parser.ending_many1, Parser.many_eq, Ending.resume_resume]
  congr 1
  funext m
  split <;> rfl

theorem ending_firstOf_nil :
    ((Grammar.firstOf []).parser σ c).ending = .failed .noParserSucceeded := rfl

theorem ending_firstOf_cons (g : Grammar) (gs : List Grammar) :
    ((Grammar.firstOf (g :: gs)).parser σ c).ending =
      (g.parser σ c).ending.resume .done fun _ => ((Grammar.firstOf gs).parser σ c).ending :=
  Parser.ending_firstOf_cons _ _ c

theorem ending_whole (inner : Grammar) :
    ((Grammar.whole inner).parser σ c).ending =
      (inner.parser σ c).ending.resume (fun m => if m.rest.atEnd then .done m else .failed .notEmpty)
        .failed :=
  Parser.ending_whole _ c

theorem ending_traced (label : String) (inner : Grammar) :
    ((Grammar.traced label inner).parser σ c).ending = (inner.parser σ c).ending :=
  Parser.ending_traced _ label _ c

end Grammar

namespace Rulebook

/-- **`book.setting tracing fuel`** — the setting in which `fuel` bounds the calls and the repetitions. -/
def setting (book : Rulebook) (tracing : Bool) (fuel : Nat) : Setting :=
  ⟨tracing, fuel, book.call tracing fuel⟩

theorem parser_eq (book : Rulebook) (tracing : Bool) (fuel : Nat) (g : Grammar) :
    book.parser tracing fuel g = g.parser (book.setting tracing fuel) := rfl

end Rulebook

end Bytewise
