/-
# Bytewise.Proofs.Library — grammars that use the combinators only.

The statements about "every parser built with the library" are statements about `Grammar.IsLibrary`: trees without
a parser written by hand and without a narrowed window. Where parsers written by hand are admitted as
leaves, provided that they behave, the statement is about `Grammar.Over`, which names what they have to satisfy.

`Rulebook.parser_induct` packages the induction that all of them share. What one layer of combinators keeps,
whatever the rules stand for, is kept by rules that call each other to any depth.
-/
import Bytewise.Rulebook

namespace Bytewise

/-- **`g.Over P`** — `g` is put together from combinators and from leaves that satisfy `P`. -/
inductive Grammar.Over (P : Parser Value → Prop) : Grammar → Prop
  | take (count : Nat) : Over P (.take count)
  | byte (expected : UInt8) : Over P (.byte expected)
  | literal (expected : List UInt8) : Over P (.literal expected)
  | satisfy (test : Predicate) : Over P (.satisfy test)
  | upToFirst (test : Predicate) : Over P (.upToFirst test)
  | upToFirst1 (test : Predicate) : Over P (.upToFirst1 test)
  | upToLast (test : Predicate) : Over P (.upToLast test)
  | upToLast1 (test : Predicate) : Over P (.upToLast1 test)
  | span {inner : Grammar} : Over P inner → Over P (.span inner)
  | span1 {inner : Grammar} : Over P inner → Over P (.span1 inner)
  | map (f : Value → Except Fault Value) {inner : Grammar} : Over P inner → Over P (.map f inner)
  | separated {left separator right : Grammar} :
      Over P left → Over P separator → Over P right → Over P (.separated left separator right)
  | andThen {first second : Grammar} : Over P first → Over P second → Over P (.andThen first second)
  | before {first second : Grammar} : Over P first → Over P second → Over P (.before first second)
  | optional {inner : Grammar} : Over P inner → Over P (.optional inner)
  | notFollowedBy {inner : Grammar} : Over P inner → Over P (.notFollowedBy inner)
  | lookahead {inner : Grammar} : Over P inner → Over P (.lookahead inner)
  | many1 {inner : Grammar} : Over P inner → Over P (.many1 inner)
  | many {inner : Grammar} : Over P inner → Over P (.many inner)
  | firstOf {alternatives : List Grammar} :
      (∀ g ∈ alternatives, Over P g) → Over P (.firstOf alternatives)
  | endOfInput : Over P .endOfInput
  | moreInput : Over P .moreInput
  | whole {inner : Grammar} : Over P inner → Over P (.whole inner)
  | traced (label : String) {inner : Grammar} : Over P inner → Over P (.traced label inner)
  | rule (r : Rule) : Over P (.rule r)
  | leaf {p : Parser Value} : P p → Over P (.leaf p)

/-- **`g.IsLibrary`** — `g` is put together from combinators only. -/
def Grammar.IsLibrary (g : Grammar) : Prop :=
  g.Over fun _ => False

/-- **`book.Over P`** — every definition is put together from combinators and from leaves that satisfy `P`. -/
def Rulebook.Over (P : Parser Value → Prop) (book : Rulebook) : Prop :=
  ∀ r g, book.find? r = some g → g.Over P

/-- **`book.IsLibrary`** — every definition is put together from combinators only. -/
def Rulebook.IsLibrary (book : Rulebook) : Prop :=
  book.Over fun _ => False

variable {P Q : Parser Value → Prop}

theorem Grammar.Over.mono (hPQ : ∀ p, P p → Q p) {g : Grammar} (h : g.Over P) : g.Over Q := by
  induction h with
  | take count => exact .take count
  | byte expected => exact .byte expected
  | literal expected => exact .literal expected
  | satisfy test => exact .satisfy test
  | upToFirst test => exact .upToFirst test
  | upToFirst1 test => exact .upToFirst1 test
  | upToLast test => exact .upToLast test
  | upToLast1 test => exact .upToLast1 test
  | span _ ih => exact .span ih
  | span1 _ ih => exact .span1 ih
  | map f _ ih => exact .map f ih
  | separated _ _ _ ihl ihs ihr => exact .separated ihl ihs ihr
  | andThen _ _ ihf ihs => exact .andThen ihf ihs
  | before _ _ ihf ihs => exact .before ihf ihs
  | optional _ ih => exact .optional ih
  | notFollowedBy _ ih => exact .notFollowedBy ih
  | lookahead _ ih => exact .lookahead ih
  | many1 _ ih => exact .many1 ih
  | many _ ih => exact .many ih
  | firstOf _ ih => exact .firstOf ih
  | endOfInput => exact .endOfInput
  | moreInput => exact .moreInput
  | whole _ ih => exact .whole ih
  | traced label _ ih => exact .traced label ih
  | rule r => exact .rule r
  | leaf hp => exact .leaf (hPQ _ hp)

/-- Without leaves it does not matter what is asked of them. -/
theorem Grammar.IsLibrary.over {g : Grammar} (h : g.IsLibrary) : g.Over P :=
  Grammar.Over.mono (fun _ hp => hp.elim) h

theorem Rulebook.IsLibrary.over {book : Rulebook} (h : book.IsLibrary) : book.Over P :=
  fun r g hg => Grammar.IsLibrary.over (h r g hg)

theorem Rulebook.mem_definitions_of_find? {book : Rulebook} {r : Rule} {g : Grammar}
    (h : book.find? r = some g) : (r, g) ∈ book.definitions := by
  obtain ⟨before, after, hsplit, -⟩ := List.lookup_eq_some_iff.1 h
  rw [hsplit]
  simp

/-- It is enough to look at the definitions one by one. -/
theorem Rulebook.over_of_forall_mem {book : Rulebook} (h : ∀ d ∈ book.definitions, d.2.Over P) :
    book.Over P :=
  fun r g hg => h (r, g) (mem_definitions_of_find? hg)

namespace Rulebook

variable (book : Rulebook) (tracing : Bool)

/-! ## Rules, call by call -/

@[simp] theorem call_zero (r : Rule) : book.call tracing 0 r = fun _ => .unfinished := rfl

theorem call_of_none {r : Rule} (h : book.find? r = none) (depth : Nat) :
    book.call tracing (depth + 1) r = fun _ => .raise (.undefinedRule r.name) := by
  funext c
  rw [call, h]

/-- **A rule behaves like its definition,** with one call less. -/
theorem call_of_some {r : Rule} {g : Grammar} (h : book.find? r = some g) (depth : Nat) :
    book.call tracing (depth + 1) r = book.parser tracing depth g := by
  funext c
  rw [call, h]
  rfl

/-- What holds of the parsers of all definitions at every depth holds of all rules. The induction is on the
number of calls inside each other, because a definition may use any rule, itself included. -/
theorem call_induct
    (unfinished : Q fun _ => .unfinished)
    (undefined : ∀ name, Q fun _ => .raise (.undefinedRule name))
    (step : ∀ σ : Setting, (∀ r, Q (σ.call r)) → ∀ g : Grammar, g.Over P → Q (g.parser σ))
    (hbook : book.Over P) : ∀ depth r, Q (book.call tracing depth r) := by
  intro depth
  induction depth with
  | zero => exact fun r => unfinished
  | succ depth ih =>
    intro r
    cases h : book.find? r with
    | none =>
      rw [call_of_none book tracing h]
      exact undefined r.name
    | some g =>
      rw [call_of_some book tracing h]
      exact step ⟨tracing, depth, book.call tracing depth⟩ ih g (hbook r g h)

/-- **What one layer of combinators keeps, every parser keeps.** -/
theorem parser_induct
    (unfinished : Q fun _ => .unfinished)
    (undefined : ∀ name, Q fun _ => .raise (.undefinedRule name))
    (step : ∀ σ : Setting, (∀ r, Q (σ.call r)) → ∀ g : Grammar, g.Over P → Q (g.parser σ))
    (hbook : book.Over P) (fuel : Nat) {g : Grammar} (hg : g.Over P) : Q (book.parser tracing fuel g) :=
  step ⟨tracing, fuel, book.call tracing fuel⟩
    (call_induct book tracing unfinished undefined step hbook fuel) g hg

/-! ## A recursive rulebook -/

/-- The rule of `parens`. -/
def group : Rule := ⟨0, "group"⟩

/-- Round brackets inside each other: a group is an opening bracket, a group or nothing, and a closing bracket. -/
def parens : Rulebook where
  next := 1
  definitions := [(group, .andThen (.byte 0x28) (.before (.optional (.rule group)) (.byte 0x29)))]

/-- Nested brackets and one more byte, in the middle of a source. -/
def nested : Cursor :=
  ⟨⟨#[0x61, 0x28, 0x28, 0x29, 0x29, 0x62, 0x63]⟩, 1, 6, by decide, by decide⟩

theorem isLibrary_parens : parens.IsLibrary := by
  refine over_of_forall_mem fun d hd => ?_
  obtain rfl := List.mem_singleton.1 hd
  exact .andThen (.byte _) (.before (.optional (.rule _)) (.byte _))

end Rulebook

end Bytewise
