/-
# Bytewise.Proofs.Peg.Semantics — grammars read as parsing expressions.

The reference semantics. It is a relation between a grammar, a list of bytes and a verdict, given by rules and by
nothing else: no cursors, no positions, no fuel and no traces. Terminals look at the head or a prefix of the list,
scans split it, sequences hand on what is left of it, a choice goes on where its first alternative fails, and a
repetition is greedy.

There is no rule for a test or a function that refuses its argument, for a rule without a definition and for a
repeated grammar that matches without consuming: in these cases there is no verdict.
-/
import Bytewise.Rulebook

namespace Bytewise

/-- **`Verdict`** — what a parsing expression says of a list of bytes: a value and what is left, or a reason. -/
inductive Verdict where
  | ok (value : Value) (rest : List UInt8)
  | fail (reason : Reason)

mutual

/-- **`book.Derives g w d`** — `g`, read as a parsing expression over the rules of `book`, has the verdict `d` on
`w`. -/
inductive Rulebook.Derives (book : Rulebook) : Grammar → List UInt8 → Verdict → Prop
  -- terminals: the head or a prefix of the list
  | take {count : Nat} {w front rest : List UInt8} :
      count ≠ 0 → w = front ++ rest → front.length = count →
      Derives book (.take count) w (.ok (.bytes front) rest)
  | take_zero {w : List UInt8} : Derives book (.take 0) w (.fail .takeZero)
  | take_short {count : Nat} {w : List UInt8} :
      w.length < count → Derives book (.take count) w (.fail .takeNotEnough)
  | byte {b : UInt8} {rest : List UInt8} : Derives book (.byte b) (b :: rest) (.ok (.ofByte b) rest)
  | byte_other {expected b : UInt8} {rest : List UInt8} :
      b ≠ expected → Derives book (.byte expected) (b :: rest) (.fail .wrongByte)
  | byte_empty {expected : UInt8} : Derives book (.byte expected) [] (.fail .emptyInput)
  | satisfy {test : Predicate} {b : UInt8} {rest : List UInt8} :
      test b = .ok true → Derives book (.satisfy test) (b :: rest) (.ok (.ofByte b) rest)
  | satisfy_other {test : Predicate} {b : UInt8} {rest : List UInt8} :
      test b = .ok false → Derives book (.satisfy test) (b :: rest) (.fail .wrongByte)
  | satisfy_empty {test : Predicate} : Derives book (.satisfy test) [] (.fail .emptyInput)
  | literal {expected w rest : List UInt8} :
      w ≠ [] → w = expected ++ rest → Derives book (.literal expected) w (.ok (.bytes expected) rest)
  | literal_empty {expected : List UInt8} : Derives book (.literal expected) [] (.fail .emptyInput)
  | literal_short {expected w : List UInt8} :
      w ≠ [] → w.length < expected.length → Derives book (.literal expected) w (.fail .notEnoughBytes)
  | literal_other {expected w : List UInt8} :
      w ≠ [] → expected.length ≤ w.length → ¬ expected <+: w →
      Derives book (.literal expected) w (.fail .wrongBytes)
  | endOfInput : Derives book .endOfInput [] (.ok .none [])
  | endOfInput_more {b : UInt8} {rest : List UInt8} :
      Derives book .endOfInput (b :: rest) (.fail .notEmpty)
  | moreInput {b : UInt8} {rest : List UInt8} :
      Derives book .moreInput (b :: rest) (.ok .none (b :: rest))
  | moreInput_empty : Derives book .moreInput [] (.fail .parserSucceeded)
  -- scans: the list is split before the first or the last byte that passes, or not at all
  | upToFirst {test : Predicate} {w front back : List UInt8} {b : UInt8} :
      w = front ++ b :: back → (∀ x ∈ front, test x = .ok false) → test b = .ok true →
      Derives book (.upToFirst test) w (.ok (.bytes front) (b :: back))
  | upToFirst_all {test : Predicate} {w : List UInt8} :
      (∀ x ∈ w, test x = .ok false) → Derives book (.upToFirst test) w (.ok (.bytes w) [])
  | upToLast {test : Predicate} {w front back : List UInt8} {b : UInt8} :
      w = front ++ b :: back → test b = .ok true → (∀ x ∈ back, test x = .ok false) →
      Derives book (.upToLast test) w (.ok (.bytes front) (b :: back))
  | upToLast_all {test : Predicate} {w : List UInt8} :
      (∀ x ∈ w, test x = .ok false) → Derives book (.upToLast test) w (.ok (.bytes w) [])
  | upToFirst1 {test : Predicate} {w front rest : List UInt8} :
      Derives book (.upToFirst test) w (.ok (.bytes front) rest) → front ≠ [] →
      Derives book (.upToFirst1 test) w (.ok (.bytes front) rest)
  | upToFirst1_nothing {test : Predicate} {w rest : List UInt8} :
      Derives book (.upToFirst test) w (.ok (.bytes []) rest) →
      Derives book (.upToFirst1 test) w (.fail .nothingConsumed)
  | upToLast1 {test : Predicate} {w front rest : List UInt8} :
      Derives book (.upToLast test) w (.ok (.bytes front) rest) → front ≠ [] →
      Derives book (.upToLast1 test) w (.ok (.bytes front) rest)
  | upToLast1_nothing {test : Predicate} {w rest : List UInt8} :
      Derives book (.upToLast test) w (.ok (.bytes []) rest) →
      Derives book (.upToLast1 test) w (.fail .nothingConsumed)
  -- repetitions
  | many {inner : Grammar} {w rest : List UInt8} {vs : List Value} :
      Repeats book false inner w vs rest → Derives book (.many inner) w (.ok (.list vs) rest)
  | many1 {inner : Grammar} {w rest : List UInt8} {v : Value} {vs : List Value} :
      Repeats book false inner w (v :: vs) rest → Derives book (.many1 inner) w (.ok (.list (v :: vs)) rest)
  | many1_none {inner : Grammar} {w rest : List UInt8} :
      Repeats book false inner w [] rest → Derives book (.many1 inner) w (.fail .noRepetition)
  | span {inner : Grammar} {w front rest : List UInt8} {vs : List Value} :
      w ≠ [] → Repeats book true inner w vs rest → w = front ++ rest →
      Derives book (.span inner) w (.ok (.bytes front) rest)
  | span_empty {inner : Grammar} : Derives book (.span inner) [] (.fail .emptyInput)
  | span1 {inner : Grammar} {w front rest : List UInt8} :
      Derives book (.span inner) w (.ok (.bytes front) rest) → front ≠ [] →
      Derives book (.span1 inner) w (.ok (.bytes front) rest)
  | span1_nothing {inner : Grammar} {w rest : List UInt8} :
      Derives book (.span inner) w (.ok (.bytes []) rest) →
      Derives book (.span1 inner) w (.fail .nothingConsumed)
  | span1_fail {inner : Grammar} {w : List UInt8} {reason : Reason} :
      Derives book (.span inner) w (.fail reason) → Derives book (.span1 inner) w (.fail reason)
  -- sequences, from left to right
  | andThen {first second : Grammar} {w rest : List UInt8} {v : Value} {d : Verdict} :
      Derives book first w (.ok v rest) → Derives book second rest d →
      Derives book (.andThen first second) w d
  | andThen_fail {first second : Grammar} {w : List UInt8} {reason : Reason} :
      Derives book first w (.fail reason) → Derives book (.andThen first second) w (.fail reason)
  | before {first second : Grammar} {w rest rest' : List UInt8} {v v' : Value} :
      Derives book first w (.ok v rest) → Derives book second rest (.ok v' rest') →
      Derives book (.before first second) w (.ok v rest')
  | before_fail {first second : Grammar} {w : List UInt8} {reason : Reason} :
      Derives book first w (.fail reason) → Derives book (.before first second) w (.fail reason)
  | before_fail_second {first second : Grammar} {w rest : List UInt8} {v : Value} {reason : Reason} :
      Derives book first w (.ok v rest) → Derives book second rest (.fail reason) →
      Derives book (.before first second) w (.fail reason)
  | separated {left separator right : Grammar} {w rest rest' rest'' : List UInt8} {v v' v'' : Value} :
      Derives book left w (.ok v rest) → Derives book separator rest (.ok v' rest') →
      Derives book right rest' (.ok v'' rest'') →
      Derives book (.separated left separator right) w (.ok (.pair v v'') rest'')
  | separated_fail {left separator right : Grammar} {w : List UInt8} {reason : Reason} :
      Derives book left w (.fail reason) →
      Derives book (.separated left separator right) w (.fail reason)
  | separated_fail_separator {left separator right : Grammar} {w rest : List UInt8} {v : Value}
      {reason : Reason} :
      Derives book left w (.ok v rest) → Derives book separator rest (.fail reason) →
      Derives book (.separated left separator right) w (.fail reason)
  | separated_fail_right {left separator right : Grammar} {w rest rest' : List UInt8} {v v' : Value}
      {reason : Reason} :
      Derives book left w (.ok v rest) → Derives book separator rest (.ok v' rest') →
      Derives book right rest' (.fail reason) →
      Derives book (.separated left separator right) w (.fail reason)
  | whole {inner : Grammar} {w : List UInt8} {d : Verdict} :
      Derives book (.before inner .endOfInput) w d → Derives book (.whole inner) w d
  -- option, lookaheads and ordered choice
  | optional {inner : Grammar} {w rest : List UInt8} {v : Value} :
      Derives book inner w (.ok v rest) → Derives book (.optional inner) w (.ok v rest)
  | optional_none {inner : Grammar} {w : List UInt8} {reason : Reason} :
      Derives book inner w (.fail reason) → Derives book (.optional inner) w (.ok .none w)
  | lookahead {inner : Grammar} {w rest : List UInt8} {v : Value} :
      Derives book inner w (.ok v rest) → Derives book (.lookahead inner) w (.ok v w)
  | lookahead_fail {inner : Grammar} {w : List UInt8} {reason : Reason} :
      Derives book inner w (.fail reason) → Derives book (.lookahead inner) w (.fail reason)
  | notFollowedBy {inner : Grammar} {w : List UInt8} {reason : Reason} :
      Derives book inner w (.fail reason) → Derives book (.notFollowedBy inner) w (.ok .none w)
  | notFollowedBy_fail {inner : Grammar} {w rest : List UInt8} {v : Value} :
      Derives book inner w (.ok v rest) → Derives book (.notFollowedBy inner) w (.fail .parserSucceeded)
  | firstOf_nil {w : List UInt8} : Derives book (.firstOf []) w (.fail .noParserSucceeded)
  | firstOf_head {g : Grammar} {gs : List Grammar} {w rest : List UInt8} {v : Value} :
      Derives book g w (.ok v rest) → Derives book (.firstOf (g :: gs)) w (.ok v rest)
  | firstOf_tail {g : Grammar} {gs : List Grammar} {w : List UInt8} {reason : Reason} {d : Verdict} :
      Derives book g w (.fail reason) → Derives book (.firstOf gs) w d →
      Derives book (.firstOf (g :: gs)) w d
  -- functions, labels and rules
  | map {f : Value → Except Fault Value} {inner : Grammar} {w rest : List UInt8} {v v' : Value} :
      Derives book inner w (.ok v rest) → f v = .ok v' → Derives book (.map f inner) w (.ok v' rest)
  | map_fail {f : Value → Except Fault Value} {inner : Grammar} {w : List UInt8} {reason : Reason} :
      Derives book inner w (.fail reason) → Derives book (.map f inner) w (.fail reason)
  | traced {label : String} {inner : Grammar} {w : List UInt8} {d : Verdict} :
      Derives book inner w d → Derives book (.traced label inner) w d
  | rule {r : Rule} {g : Grammar} {w : List UInt8} {d : Verdict} :
      book.find? r = some g → Derives book g w d → Derives book (.rule r) w d

/-- **`book.Repeats untilEnd g w vs rest`** — repeated greedily from `w`, `g` matches with the values `vs` and leaves
`rest`. Every step shortens the list. The repetition stops where `g` fails and, if `untilEnd` is set, at the end of
the list, where it does not ask `g`. -/
inductive Rulebook.Repeats (book : Rulebook) : Bool → Grammar → List UInt8 → List Value → List UInt8 → Prop
  | stop {untilEnd : Bool} {g : Grammar} {w : List UInt8} {reason : Reason} :
      Derives book g w (.fail reason) → Repeats book untilEnd g w [] w
  | atEnd {g : Grammar} : Repeats book true g [] [] []
  | step {untilEnd : Bool} {g : Grammar} {w w' rest : List UInt8} {v : Value} {vs : List Value} :
      Derives book g w (.ok v w') → w'.length < w.length → Repeats book untilEnd g w' vs rest →
      Repeats book untilEnd g w (v :: vs) rest

end

/-! ## Steps and runs -/

namespace Rulebook

variable {book : Rulebook} {test : Predicate} {front w rest : List UInt8}

/-- A step over some bytes in front is progress if there is one at least. -/
theorem Repeats.step_append {untilEnd : Bool} {g : Grammar} {v : Value} {vs : List Value} (hne : front ≠ [])
    (hstep : book.Derives g (front ++ w) (.ok v w)) (hrest : book.Repeats untilEnd g w vs rest) :
    book.Repeats untilEnd g (front ++ w) (v :: vs) rest := by
  have hpos : 0 < front.length := List.length_pos_iff.2 hne
  have hshorter : w.length < (front ++ w).length := by
    rw [List.length_append]
    omega
  exact .step hstep hshorter hrest

/-- A repeated test takes bytes that pass it one by one, up to where the next byte does not pass. -/
theorem repeats_satisfy (hfront : ∀ b ∈ front, test b = .ok true) (hrest : ∀ b ∈ rest.head?, test b = .ok false) :
    book.Repeats true (.satisfy test) (front ++ rest) (front.map Value.ofByte) rest := by
  induction front with
  | nil =>
    cases rest with
    | nil => exact .atEnd
    | cons b rest => exact .stop (.satisfy_other (hrest b rfl))
  | cons b front ih =>
    have hb : test b = .ok true := hfront b List.mem_cons_self
    have htail : ∀ x ∈ front, test x = .ok true := fun x hx => hfront x (List.mem_cons_of_mem b hx)
    exact .step (.satisfy hb) (Nat.lt_succ_self _) (ih htail)

/-- Bytes that pass a test are taken together, if there is one and the byte behind them does not pass. -/
theorem derives_span1_satisfy (hne : front ≠ []) (hfront : ∀ b ∈ front, test b = .ok true)
    (hrest : ∀ b ∈ rest.head?, test b = .ok false) :
    book.Derives (.span1 (.satisfy test)) (front ++ rest) (.ok (.bytes front) rest) := by
  have hinput : front ++ rest ≠ [] := fun h => hne (List.append_eq_nil_iff.1 h).1
  exact .span1 (.span hinput (repeats_satisfy hfront hrest) rfl) hne

/-- Without such a byte in front nothing is taken. -/
theorem derives_span1_satisfy_other {b : UInt8} (hb : test b = .ok false) :
    book.Derives (.span1 (.satisfy test)) (b :: rest) (.fail .nothingConsumed) := by
  have hhead : ∀ x ∈ (b :: rest).head?, test x = .ok false := by
    intro x hx
    cases hx
    exact hb
  have hnone : book.Repeats true (.satisfy test) ([] ++ b :: rest) ([].map Value.ofByte) (b :: rest) :=
    repeats_satisfy nofun hhead
  exact .span1_nothing (.span (List.cons_ne_nil b rest) hnone (List.nil_append _).symm)

end Rulebook

end Bytewise
