/-
# Bytewise.Grammar.Basic — parsers as syntax trees.

A grammar is the tree of combinators that a parser is made of. Having the tree lets a caller put a parser
together at run time, lets rules refer to each other by name before they are defined, and lets statements speak
about all parsers that the combinators can build. `Bytewise.Grammar.Meaning` says which parser a tree
stands for.

Two kinds of node step outside the combinators: `leaf` is a parser written by hand, and `within` narrows
the window for the parser inside it.
-/
import Bytewise.Parser.Basic
import Bytewise.Predicate
import Bytewise.Value.Basic

namespace Bytewise

/-- **`Rule`** — a name that stands for a grammar. Rules are told apart by `number`; `name` is for
reports only, and several rules may have the same. -/
structure Rule where
  number : Nat
  name : String
  deriving DecidableEq

/-- **`Grammar`** — the syntax tree of a parser. -/
inductive Grammar where
  | take (count : Nat)
  | byte (expected : UInt8)
  | literal (expected : List UInt8)
  | satisfy (test : Predicate)
  | upToFirst (test : Predicate)
  | upToFirst1 (test : Predicate)
  | upToLast (test : Predicate)
  | upToLast1 (test : Predicate)
  | span (inner : Grammar)
  | span1 (inner : Grammar)
  | map (f : Value → Except Fault Value) (inner : Grammar)
  | separated (left separator right : Grammar)
  | andThen (first second : Grammar)
  | before (first second : Grammar)
  | optional (inner : Grammar)
  | notFollowedBy (inner : Grammar)
  | lookahead (inner : Grammar)
  | many1 (inner : Grammar)
  | many (inner : Grammar)
  | firstOf (alternatives : List Grammar)
  | endOfInput
  | moreInput
  | whole (inner : Grammar)
  | traced (label : String) (inner : Grammar)
  | rule (r : Rule)
  | leaf (p : Parser Value)
  | within (count : Int) (inner : Grammar)

namespace Grammar

/-- **Induction on grammars.** The case of a choice has the hypothesis for every alternative. -/
@[elab_as_elim, induction_eliminator]
theorem induct {motive : Grammar → Prop}
    (take : ∀ count, motive (.take count))
    (byte : ∀ expected, motive (.byte expected))
    (literal : ∀ expected, motive (.literal expected))
    (satisfy : ∀ test, motive (.satisfy test))
    (upToFirst : ∀ test, motive (.upToFirst test))
    (upToFirst1 : ∀ test, motive (.upToFirst1 test))
    (upToLast : ∀ test, motive (.upToLast test))
    (upToLast1 : ∀ test, motive (.upToLast1 test))
    (span : ∀ inner, motive inner → motive (.span inner))
    (span1 : ∀ inner, motive inner → motive (.span1 inner))
    (map : ∀ f inner, motive inner → motive (.map f inner))
    (separated : ∀ left separator right, motive left → motive separator → motive right →
      motive (.separated left separator right))
    (andThen : ∀ first second, motive first → motive second → motive (.andThen first second))
    (before : ∀ first second, motive first → motive second → motive (.before first second))
    (optional : ∀ inner, motive inner → motive (.optional inner))
    (notFollowedBy : ∀ inner, motive inner → motive (.notFollowedBy inner))
    (lookahead : ∀ inner, motive inner → motive (.lookahead inner))
    (many1 : ∀ inner, motive inner → motive (.many1 inner))
    (many : ∀ inner, motive inner → motive (.many inner))
    (firstOf : ∀ alternatives, (∀ g ∈ alternatives, motive g) → motive (.firstOf alternatives))
    (endOfInput : motive .endOfInput)
    (moreInput : motive .moreInput)
    (whole : ∀ inner, motive inner → motive (.whole inner))
    (traced : ∀ label inner, motive inner → motive (.traced label inner))
    (rule : ∀ r, motive (.rule r))
    (leaf : ∀ p, motive (.leaf p))
    (within : ∀ count inner, motive inner → motive (.within count inner))
    (g : Grammar) : motive g :=
  @Grammar.rec motive (fun gs => ∀ g ∈ gs, motive g)
    take byte literal satisfy upToFirst upToFirst1 upToLast upToLast1 span span1 map separated
    andThen before optional notFollowedBy lookahead many1 many firstOf endOfInput moreInput whole
    traced rule leaf within (fun _ h => nomatch h)
    (fun _ _ hg hgs _ h => (List.mem_cons.1 h).elim (fun e => e ▸ hg) (hgs _)) g

end Grammar

end Bytewise
