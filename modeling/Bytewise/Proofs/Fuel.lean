/-
# Bytewise.Proofs.Fuel — more fuel never changes an answer.

A parser over a rulebook is run with fuel: a bound on the calls inside each other and on the steps of each
repetition. An attempt that is cut short ends `unfinished`, no combinator turns that into anything else, and
so an attempt that did end ends the same, trace included, with any larger fuel (`parser_eq_of_le`).

`Rulebook.Ends` is the notion without fuel that this makes possible: how an application ends once it is given
enough. Termination, agreement of two runs and the reference semantics are stated with it.

The comparison is made once for any set of *lost* faults, which count as no answer either. Rulebooks with more
definitions compare in the same way if applying an undefined rule is counted as lost.
-/
import Bytewise.Proofs.Congruence
import Bytewise.Proofs.Library
import Mathlib.Order.Filter.AtTopBot.Basic

namespace Bytewise

variable {α β : Type} {lost : Fault → Prop}

/-! ## One attempt approximates another -/

/-- **`e.Lost lost`** — the ending is no answer: the attempt did not end, or ended with a lost fault. -/
def Ending.Lost (lost : Fault → Prop) : Ending α → Prop
  | .done _ => False
  | .failed _ => False
  | .raised fault => lost fault
  | .unfinished => True

/-- **`x.Approx lost y`** — `y` is `x`, unless `x` is no answer. -/
def Attempt.Approx (lost : Fault → Prop) (x y : Attempt α) : Prop :=
  x.ending.Lost lost ∨ x = y

/-- **`p.Approx lost q`** — everywhere `p` gives the answer of `q` or none. -/
def Parser.Approx (lost : Fault → Prop) (p q : Parser α) : Prop :=
  ∀ c, (p c).Approx lost (q c)

namespace Attempt.Approx

theorem refl (x : Attempt α) : x.Approx lost x := Or.inr rfl

/-- What is lost in the first part of a sequence is lost in the sequence. -/
theorem bind {x y : Attempt α} {f g : α → Attempt β} (hx : x.Approx lost y)
    (hf : ∀ a, (f a).Approx lost (g a)) : (x.bind f).Approx lost (y.bind g) := by
  rcases hx with hlost | rfl
  · -- nothing follows an attempt without an answer
    left
    rw [ending_bind]
    cases he : x.ending <;> simp_all [Ending.Lost]
  · rcases x with ⟨a | reason | fault | _, trace⟩
    · rcases hf a with hlost | heq
      · exact Or.inl hlost
      · right
        simp only [Attempt.bind, heq]
    all_goals exact Or.inr rfl

/-- No failure is made good that was lost before. -/
theorem settle {x y : Attempt α} (hx : x.Approx lost y) : x.settle.Approx lost y.settle := by
  rcases hx with hlost | rfl
  · left
    rcases x with ⟨_ | _ | _ | _, trace⟩
    · exact hlost.elim
    · exact hlost.elim
    · exact hlost
    · exact hlost
  · exact refl _

/-- An answer stays. -/
theorem eq_of_not_lost {x y : Attempt α} (h : x.Approx lost y) (hx : ¬ x.ending.Lost lost) : x = y :=
  h.resolve_left hx

/-- Where no fault is lost, an attempt that ended stays. -/
theorem eq_of_ne_unfinished {x y : Attempt α} (h : x.Approx (fun _ => False) y)
    (hx : x.ending ≠ .unfinished) : x = y := by
  refine h.eq_of_not_lost fun hlost => ?_
  cases he : x.ending with
  | done | failed | raised => simp [he, Ending.Lost] at hlost
  | unfinished => exact hx he

/-- **Approximation is a congruence.** Every combinator keeps it. -/
theorem isCongruence : IsCongruence fun _ => Approx lost where
  quiet _ := refl _
  bind := bind
  settle := settle

/-- A larger budget may take the place of a smaller one: an attempt that was cut short approximates all others. -/
theorem outlasts {budget budget' : Nat} (h : budget ≤ budget') : Outlasts (fun _ => Approx lost) budget budget' :=
  ⟨h, fun _ _ _ => Or.inl trivial⟩

end Attempt.Approx

/-! ## Grammars and rules -/

/-- **A grammar is monotone in what it is given**: a larger budget and better rules. -/
theorem Grammar.parser_approx {σ τ : Setting} (htracing : σ.tracing = τ.tracing) (hbudget : σ.budget ≤ τ.budget)
    (hcall : ∀ r, (σ.call r).Approx lost (τ.call r)) (g : Grammar) :
    (g.parser σ).Approx lost (g.parser τ) := by
  have hR : Attempt.IsCongruence fun _ => Attempt.Approx lost := Attempt.Approx.isCongruence
  have hmore : Attempt.Outlasts (fun _ => Attempt.Approx lost) σ.budget τ.budget := Attempt.Approx.outlasts hbudget
  show Parser.Related (fun _ => Attempt.Approx lost) _ _
  induction g with
  | take | byte | literal | satisfy | upToFirst | upToFirst1 | upToLast | upToLast1 => exact fun c => .refl _
  | endOfInput | moreInput | leaf => exact fun c => .refl _
  | span inner ih => exact (ih.span hR hmore).as hR _
  | span1 inner ih => exact ((ih.span hR hmore).nonempty hR).as hR _
  | map f inner ih => exact ih.map hR f
  | separated left separator right ihl ihs ihr => exact (ihl.separated hR ihs ihr).as hR _
  | andThen first second ihf ihs => exact ihf.andThen hR ihs
  | before first second ihf ihs => exact ihf.before hR ihs
  | optional inner ih => exact (ih.optional hR).as hR _
  | notFollowedBy inner ih => exact (ih.notFollowedBy hR).as hR _
  | lookahead inner ih => exact ih.lookahead hR
  | many1 inner ih => exact (ih.many1 hR hmore).as hR _
  | many inner ih => exact (ih.many hR hmore).as hR _
  | firstOf alternatives ih =>
    rw [Grammar.parser, Grammar.parser, parsers_eq_map, parsers_eq_map]
    exact .firstOf hR _ _ alternatives ih
  | whole inner ih => exact ih.whole hR
  | traced label inner ih =>
    rw [Grammar.parser, Grammar.parser, htracing]
    exact ih.traced hR _ label fun _ _ _ => .refl _
  | rule r => exact hcall r
  | within count inner ih => exact fun c => ih (c.limit count)

namespace Rulebook

variable {book book' : Rulebook} {tracing : Bool}

theorem parser_approx_of_call {fuel fuel' : Nat} (hle : fuel ≤ fuel')
    (hcall : ∀ r, (book.call tracing fuel r).Approx lost (book'.call tracing fuel' r)) (g : Grammar) :
    (book.parser tracing fuel g).Approx lost (book'.parser tracing fuel' g) := by
  unfold Rulebook.parser
  apply Grammar.parser_approx
  · rfl
  · exact hle
  · exact hcall

/-- The calls of two rulebooks, of which the second defines the same rules and, if applying an undefined rule is
lost, possibly more. The induction is on the depth: each call hands one call less to its definition. -/
theorem call_approx
    (hfind : ∀ r, book.find? r = book'.find? r ∨ book.find? r = none ∧ lost (.undefinedRule r.name)) :
    ∀ {depth depth' : Nat}, depth ≤ depth' →
      ∀ r, (book.call tracing depth r).Approx lost (book'.call tracing depth' r) := by
  intro depth
  induction depth with
  | zero => exact fun _ r c => Or.inl trivial
  | succ depth ih =>
    intro depth' hle r
    -- the second depth is not zero either, so both calls look up the rule
    obtain ⟨more, rfl⟩ : ∃ more, depth' = more + 1 := ⟨depth' - 1, by omega⟩
    have hcall := ih (Nat.le_of_succ_le_succ hle)
    rcases hfind r with hsame | ⟨hnone, hlost⟩
    · cases h : book.find? r with
      | none =>
        rw [call_of_none book tracing h, call_of_none book' tracing (hsame ▸ h)]
        exact fun c => .refl _
      | some g =>
        rw [call_of_some book tracing h, call_of_some book' tracing (hsame ▸ h)]
        exact parser_approx_of_call (Nat.le_of_succ_le_succ hle) hcall g
    · rw [call_of_none book tracing hnone]
      exact fun c => Or.inl hlost

theorem parser_approx
    (hfind : ∀ r, book.find? r = book'.find? r ∨ book.find? r = none ∧ lost (.undefinedRule r.name))
    {fuel fuel' : Nat} (hle : fuel ≤ fuel') (g : Grammar) :
    (book.parser tracing fuel g).Approx lost (book'.parser tracing fuel' g) :=
  parser_approx_of_call hle (call_approx hfind hle) g

/-- **More fuel never changes an answer,** and not its trace either. -/
theorem parser_eq_of_le {g : Grammar} {c : Cursor} {fuel fuel' : Nat} (hle : fuel ≤ fuel')
    (h : (book.parser tracing fuel g c).ending ≠ .unfinished) :
    book.parser tracing fuel' g c = book.parser tracing fuel g c := by
  -- no fault is lost here: every fault is an answer
  have happrox : (book.parser tracing fuel g).Approx (fun _ => False) (book.parser tracing fuel' g) :=
    parser_approx (fun r => Or.inl rfl) hle g
  exact ((happrox c).eq_of_ne_unfinished h).symm

end Rulebook

/-! ## Endings for ever more fuel -/

namespace Ending

/-- **`Settles x e`** — from some amount of fuel on, the endings `x` are `e`, and `e` is an answer. -/
def Settles (x : Nat → Ending α) (e : Ending α) : Prop :=
  e ≠ .unfinished ∧ ∀ᶠ fuel in Filter.atTop, x fuel = e

/-- **`Halts x`** — the endings `x` settle. -/
def Halts (x : Nat → Ending α) : Prop :=
  ∃ e, Settles x e

variable {x : Nat → Ending α} {hit : Nat → α → Ending β} {miss : Nat → Reason → Ending β} {e : Ending β}

theorem Settles.const (he : e ≠ .unfinished) : Settles (fun _ => e) e :=
  ⟨he, Filter.Eventually.of_forall fun _ => rfl⟩

theorem Settles.exists_fuel {d : Ending α} (h : Settles x d) : ∃ fuel, x fuel = d :=
  h.2.exists

/-- Endings settle in one way only. -/
theorem Settles.unique {d d' : Ending α} (h : Settles x d) (h' : Settles x d') : d = d' := by
  obtain ⟨fuel, hfuel, hfuel'⟩ := (h.2.and h'.2).exists
  rw [← hfuel, ← hfuel']

/-- What follows a match settles as it does after that match. -/
theorem Settles.resume_done {a : α} (hx : Settles x (.done a)) (hhit : Settles (fun fuel => hit fuel a) e) :
    Settles (fun fuel => (x fuel).resume (hit fuel) (miss fuel)) e := by
  refine ⟨hhit.1, ?_⟩
  filter_upwards [hx.2, hhit.2] with fuel hfuel hfuel'
  rw [hfuel, Ending.resume_done, hfuel']

/-- What follows a failure settles as it does after that failure. -/
theorem Settles.resume_failed {reason : Reason} (hx : Settles x (.failed reason))
    (hmiss : Settles (fun fuel => miss fuel reason) e) :
    Settles (fun fuel => (x fuel).resume (hit fuel) (miss fuel)) e := by
  refine ⟨hmiss.1, ?_⟩
  filter_upwards [hx.2, hmiss.2] with fuel hfuel hfuel'
  rw [hfuel, Ending.resume_failed, hfuel']

theorem Settles.resume_raised {fault : Fault} (hx : Settles x (.raised fault)) :
    Settles (fun fuel => (x fuel).resume (hit fuel) (miss fuel)) (.raised fault) := by
  refine ⟨nofun, ?_⟩
  filter_upwards [hx.2] with fuel hfuel
  rw [hfuel, Ending.resume_raised]

theorem Halts.const (he : e ≠ .unfinished) : Halts fun _ => e :=
  ⟨e, .const he⟩

/-- A sequence halts if its first part does, and its second part after every ending of the first. -/
theorem Halts.resume (hx : Halts x) (hhit : ∀ a, Settles x (.done a) → Halts fun fuel => hit fuel a)
    (hmiss : ∀ reason, Settles x (.failed reason) → Halts fun fuel => miss fuel reason) :
    Halts fun fuel => (x fuel).resume (hit fuel) (miss fuel) := by
  obtain ⟨d, hd⟩ := hx
  cases d with
  | done a =>
    obtain ⟨e, he⟩ := hhit a hd
    exact ⟨e, hd.resume_done he⟩
  | failed reason =>
    obtain ⟨e, he⟩ := hmiss reason hd
    exact ⟨e, hd.resume_failed he⟩
  | raised fault => exact ⟨_, hd.resume_raised⟩
  | unfinished => exact absurd rfl hd.1

/-- A repetition may be unrolled once before it is given fuel: then the inner parser and the rest of the repetition
have the same amount. -/
theorem Settles.of_repeated_succ {p : Nat → Parser α} {goOn : Cursor → Bool} {repetition : String} {c : Cursor}
    {e : Ending (Match (List α))} (hmono : ∀ fuel, (p fuel).Approx (fun _ => False) (p (fuel + 1)))
    (h : Settles (fun fuel => (Parser.repeated goOn repetition (fuel + 1) (p fuel) c).ending) e) :
    Settles (fun fuel => (Parser.repeated goOn repetition fuel (p fuel) c).ending) e := by
  refine ⟨h.1, ?_⟩
  obtain ⟨least, hleast⟩ := Filter.eventually_atTop.1 h.2
  refine Filter.eventually_atTop.2 ⟨least + 1, fun fuel hle => ?_⟩
  -- `less + 1` steps with an inner parser of fuel `less` are an answer, and the inner parser of fuel `less + 1`
  -- only knows more answers
  obtain ⟨less, rfl⟩ : ∃ less, fuel = less + 1 := ⟨fuel - 1, by omega⟩
  have hless : (Parser.repeated goOn repetition (less + 1) (p less) c).ending = e := hleast less (by omega)
  have happrox : (Parser.repeated goOn repetition (less + 1) (p less) c).Approx (fun _ => False) _ :=
    Parser.Related.repeated Attempt.Approx.isCongruence (hmono less) goOn repetition (.refl (less + 1)) c
  show (Parser.repeated goOn repetition (less + 1) (p (less + 1)) c).ending = e
  rw [← happrox.eq_of_ne_unfinished (by rw [hless]; exact h.1), hless]

end Ending

/-! ## How an application ends -/

namespace Rulebook

variable {book : Rulebook} {tracing : Bool}

/-- **`book.Ends tracing g c e`** — applied to `c`, the parser that `g` stands for ends with `e`, whatever the
fuel is as long as it is enough. -/
def Ends (book : Rulebook) (tracing : Bool) (g : Grammar) (c : Cursor) (e : Ending (Match Value)) : Prop :=
  Ending.Settles (fun fuel => (book.parser tracing fuel g c).ending) e

variable {g : Grammar} {c : Cursor} {e : Ending (Match Value)}

/-- Fuel that was enough once is enough. -/
theorem ends_of_ending {fuel : Nat} (h : (book.parser tracing fuel g c).ending = e) (he : e ≠ .unfinished) :
    book.Ends tracing g c e := by
  refine ⟨he, Filter.eventually_atTop.2 ⟨fuel, fun fuel' hle => ?_⟩⟩
  show (book.parser tracing fuel' g c).ending = e
  rw [parser_eq_of_le hle (h ▸ he), h]

/-- How an application ends may be read off any equation for its endings. -/
theorem Ends.of_eq {x : Nat → Ending (Match Value)} (hx : ∀ fuel, (book.parser tracing fuel g c).ending = x fuel)
    (h : Ending.Settles x e) : book.Ends tracing g c e := by
  rw [← funext hx] at h
  exact h

/-- **Ending with `e` is ending with `e` for some amount of fuel.** -/
theorem ends_iff :
    book.Ends tracing g c e ↔ e ≠ .unfinished ∧ ∃ fuel, (book.parser tracing fuel g c).ending = e := by
  constructor
  · exact fun h => ⟨h.1, h.exists_fuel⟩
  · rintro ⟨he, fuel, hfuel⟩
    exact ends_of_ending hfuel he

/-- With more fuel a parser only gives more answers. -/
theorem parser_approx_succ (book : Rulebook) (tracing : Bool) (g : Grammar) (fuel : Nat) :
    (book.parser tracing fuel g).Approx (fun _ => False) (book.parser tracing (fuel + 1) g) :=
  parser_approx (fun _ => Or.inl rfl) (Nat.le_succ fuel) g

/-- A rule ends as its definition does. -/
theorem ends_rule {r : Rule} (h : book.find? r = some g) (hg : book.Ends tracing g c e) :
    book.Ends tracing (.rule r) c e := by
  obtain ⟨fuel, hfuel⟩ := hg.exists_fuel
  have hcall : (book.parser tracing (fuel + 1) (.rule r) c).ending = e := by
    show (book.call tracing (fuel + 1) r c).ending = e
    rw [call_of_some book tracing h, hfuel]
  exact ends_of_ending hcall hg.1

/-- A rule without a definition ends with the fault that says so. -/
theorem ends_rule_of_none {r : Rule} (h : book.find? r = none) :
    book.Ends tracing (.rule r) c (.raised (.undefinedRule r.name)) := by
  have hcall : (book.parser tracing 1 (.rule r) c).ending = .raised (.undefinedRule r.name) := by
    show (book.call tracing 1 r c).ending = _
    rw [call_of_none book tracing h]
    rfl
  exact ends_of_ending hcall nofun

end Rulebook

end Bytewise
