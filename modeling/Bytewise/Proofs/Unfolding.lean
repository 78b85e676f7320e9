/-
# Bytewise.Proofs.Unfolding — a rule may be replaced by its definition.

A rule behaves like its definition, at the price of one call. So a grammar in which some rules are replaced by their
definitions makes the same attempts, and it stays so if rules are replaced inside the definitions too, where every
level of a recursion changes at once (`unfolding_transparent`).

What does change is the fuel. The two sides are compared with `Attempt.Approx`, once each way. What is unfolded needs no
more fuel than what it was unfolded from (`parser_approx_unfolded`). The other way it may need more: one more call for
each replacement inside another one, and that again at every level of the recursion. How much that is does not matter. It
is enough that there is some amount from which on every call is matched (`eventually_call_approx_folded`), and it exists
because a rulebook has finitely many definitions.

The induction over the replacements is the same for both ways (`Grammar.eventually_related_unfolded`).
-/
import Bytewise.Proofs.Fuel
import Bytewise.Proofs.Termination
import Bytewise.Proofs.Transparency
import Mathlib.Order.Filter.Finite

namespace Bytewise

open Filter

/-! ## Replacing rules -/

/-- **`book.Unfolds g g'`** — `g'` is `g`, except that some rules are replaced by their definitions in `book`. The copy of
a definition is a grammar like any other, and rules in it may be replaced as well. -/
inductive Rulebook.Unfolds (book : Rulebook) : Grammar → Grammar → Prop
  | refl (g : Grammar) : Unfolds book g g
  | rule {r : Rule} {d d' : Grammar} : book.find? r = some d → Unfolds book d d' → Unfolds book (.rule r) d'
  | span {inner inner' : Grammar} : Unfolds book inner inner' → Unfolds book (.span inner) (.span inner')
  | span1 {inner inner' : Grammar} : Unfolds book inner inner' → Unfolds book (.span1 inner) (.span1 inner')
  | map (f : Value → Except Fault Value) {inner inner' : Grammar} :
      Unfolds book inner inner' → Unfolds book (.map f inner) (.map f inner')
  | separated {left left' separator separator' right right' : Grammar} :
      Unfolds book left left' → Unfolds book separator separator' → Unfolds book right right' →
        Unfolds book (.separated left separator right) (.separated left' separator' right')
  | andThen {first first' second second' : Grammar} :
      Unfolds book first first' → Unfolds book second second' →
        Unfolds book (.andThen first second) (.andThen first' second')
  | before {first first' second second' : Grammar} :
      Unfolds book first first' → Unfolds book second second' →
        Unfolds book (.before first second) (.before first' second')
  | optional {inner inner' : Grammar} : Unfolds book inner inner' → Unfolds book (.optional inner) (.optional inner')
  | notFollowedBy {inner inner' : Grammar} :
      Unfolds book inner inner' → Unfolds book (.notFollowedBy inner) (.notFollowedBy inner')
  | lookahead {inner inner' : Grammar} : Unfolds book inner inner' → Unfolds book (.lookahead inner) (.lookahead inner')
  | many1 {inner inner' : Grammar} : Unfolds book inner inner' → Unfolds book (.many1 inner) (.many1 inner')
  | many {inner inner' : Grammar} : Unfolds book inner inner' → Unfolds book (.many inner) (.many inner')
  | firstOf (pairs : List (Grammar × Grammar)) :
      (∀ both ∈ pairs, Unfolds book both.1 both.2) →
        Unfolds book (.firstOf (pairs.map Prod.fst)) (.firstOf (pairs.map Prod.snd))
  | whole {inner inner' : Grammar} : Unfolds book inner inner' → Unfolds book (.whole inner) (.whole inner')
  | traced (label : String) {inner inner' : Grammar} :
      Unfolds book inner inner' → Unfolds book (.traced label inner) (.traced label inner')
  | within (count : Int) {inner inner' : Grammar} :
      Unfolds book inner inner' → Unfolds book (.within count inner) (.within count inner')

/-- **`book.UnfoldsTo book'`** — `book'` defines the rules of `book`, by their definitions with some rules replaced. -/
def Rulebook.UnfoldsTo (book book' : Rulebook) : Prop :=
  ∀ r, Option.Rel book.Unfolds (book.find? r) (book'.find? r)

/-! ## One layer -/

namespace Attempt

/-- A congruence, read from right to left, is one. -/
theorem IsCongruence.flip {R : (α : Type) → Attempt α → Attempt α → Prop} (hR : IsCongruence R) :
    IsCongruence fun α x y => R α y x where
  quiet := hR.quiet
  bind hx hf := hR.bind hx hf
  settle hx := hR.settle hx

namespace Approx

variable {α : Type} {lost : Fault → Prop} {x y z : Attempt α}

theorem trans (hxy : x.Approx lost y) (hyz : y.Approx lost z) : x.Approx lost z := by
  rcases hxy with hlost | rfl
  · exact Or.inl hlost
  · exact hyz

end Approx

end Attempt

section

variable {book : Rulebook} {R : (α : Type) → Attempt α → Attempt α → Prop}

/-- **One layer of combinators, with rules and with what they are replaced by.** The rules on the left hand side get more
and more calls. That a rule is related to what its definition is related to is left to the comparison: there the two sides
do not have the same number of calls any more. -/
theorem Grammar.eventually_related_unfolded (σ : Nat → Setting) (τ : Setting) (hR : Attempt.IsCongruence R)
    (hreport : ∀ event, R Unit (.emit event) (.emit event)) (htracing : ∀ n, (σ n).tracing = τ.tracing)
    (hbudget : ∀ n, (σ n).budget = τ.budget)
    (hsame : ∀ᶠ n in atTop, ∀ g : Grammar, Parser.Related R (g.parser (σ n)) (g.parser τ))
    (hrule : ∀ (r : Rule) (d : Grammar) (q : Parser Value), book.find? r = some d →
      (∀ᶠ n in atTop, Parser.Related R (d.parser (σ n)) q) → ∀ᶠ n in atTop, Parser.Related R ((σ n).call r) q)
    {g g' : Grammar} (h : book.Unfolds g g') : ∀ᶠ n in atTop, Parser.Related R (g.parser (σ n)) (g'.parser τ) := by
  have hsteps : ∀ n, Attempt.Outlasts R (σ n).budget τ.budget := fun n => hbudget n ▸ .refl _
  induction h with
  | refl g => exact hsame.mono fun n hn => hn g
  | rule hfind _ ih => exact hrule _ _ _ hfind ih
  | span _ ih => exact ih.mono fun n hn => (hn.span hR (hsteps n)).as hR _
  | span1 _ ih => exact ih.mono fun n hn => ((hn.span hR (hsteps n)).nonempty hR).as hR _
  | map f _ ih => exact ih.mono fun n hn => hn.map hR f
  | separated _ _ _ ihl ihs ihr =>
    filter_upwards [ihl, ihs, ihr] with n hl hs hr
    exact (hl.separated hR hs hr).as hR _
  | andThen _ _ ihf ihs =>
    filter_upwards [ihf, ihs] with n hf hs
    exact hf.andThen hR hs
  | before _ _ ihf ihs =>
    filter_upwards [ihf, ihs] with n hf hs
    exact hf.before hR hs
  | optional _ ih => exact ih.mono fun n hn => (hn.optional hR).as hR _
  | notFollowedBy _ ih => exact ih.mono fun n hn => (hn.notFollowedBy hR).as hR _
  | lookahead _ ih => exact ih.mono fun n hn => hn.lookahead hR
  | many1 _ ih => exact ih.mono fun n hn => (hn.many1 hR (hsteps n)).as hR _
  | many _ ih => exact ih.mono fun n hn => (hn.many hR (hsteps n)).as hR _
  | firstOf pairs _ ih =>
    have hall : ∀ᶠ n in atTop, ∀ both ∈ pairs, Parser.Related R (both.1.parser (σ n)) (both.2.parser τ) :=
      (eventually_all_finite pairs.finite_toSet).2 ih
    refine hall.mono fun n hn => ?_
    rw [parser, parser, parsers_eq_map, parsers_eq_map, List.map_map, List.map_map]
    exact .firstOf hR _ _ pairs hn
  | whole _ ih => exact ih.mono fun n hn => hn.whole hR
  | traced label _ ih =>
    refine ih.mono fun n hn => ?_
    rw [parser, parser, htracing n]
    exact hn.traced hR _ label fun _ event _ => hreport event
  | within count _ ih => exact ih.mono fun n hn c => hn (c.limit count)

end

namespace Rulebook

variable {book book' : Rulebook} {tracing : Bool} {fuel : Nat} {g g' d : Grammar} {r : Rule} {q : Parser Value}

/-- A rule has definitions on both sides or on none. -/
theorem UnfoldsTo.find?_cases (h : book.UnfoldsTo book') (r : Rule) :
    (book.find? r = none ∧ book'.find? r = none) ∨
      ∃ d d', book.find? r = some d ∧ book'.find? r = some d' ∧ book.Unfolds d d' := by
  have hr := h r
  generalize book.find? r = o at hr ⊢
  generalize book'.find? r = o' at hr ⊢
  cases hr with
  | none => exact Or.inl ⟨rfl, rfl⟩
  | some hd => exact Or.inr ⟨_, _, rfl, rfl, hd⟩

/-! ## What is unfolded goes at least as far -/

/-- A rule gives the answers of its definition, or fewer. -/
theorem call_approx_definition (h : book.find? r = some d) (tracing : Bool) (fuel : Nat) :
    (book.call tracing fuel r).Approx (fun _ => False) (book.parser tracing fuel d) := by
  cases fuel with
  | zero => exact fun c => Or.inl trivial
  | succ fuel =>
    rw [call_of_some book tracing h]
    exact parser_approx_succ book tracing d fuel

theorem parser_approx_unfolded_of_call
    (hcall : ∀ r, (book.call tracing fuel r).Approx (fun _ => False) (book'.call tracing fuel r))
    (h : book.Unfolds g g') :
    (book.parser tracing fuel g).Approx (fun _ => False) (book'.parser tracing fuel g') := by
  have happrox : ∀ᶠ _ : Nat in atTop,
      (book.parser tracing fuel g).Approx (fun _ => False) (book'.parser tracing fuel g') := by
    refine Grammar.eventually_related_unfolded (fun _ => book.setting tracing fuel) (book'.setting tracing fuel)
      Attempt.Approx.isCongruence (fun _ => .refl _) (fun _ => rfl) (fun _ => rfl) ?_ ?_ h
    · exact .of_forall fun _ g => parser_approx_of_call (Nat.le_refl fuel) hcall g
    · exact fun r d q hfind hd => hd.mono fun _ hq c => (call_approx_definition hfind tracing fuel c).trans (hq c)
  obtain ⟨-, hfuel⟩ := happrox.exists
  exact hfuel

/-- The calls of the unfolded rulebook. The induction is on their depth, because each definition is unfolded. -/
theorem call_approx_unfolded (hbook : book.UnfoldsTo book') (tracing : Bool) (fuel : Nat) :
    ∀ r, (book.call tracing fuel r).Approx (fun _ => False) (book'.call tracing fuel r) := by
  induction fuel with
  | zero => exact fun r c => Or.inl trivial
  | succ fuel ih =>
    intro r
    rcases hbook.find?_cases r with ⟨h, h'⟩ | ⟨d, d', h, h', hd⟩
    · rw [call_of_none book tracing h, call_of_none book' tracing h']
      exact fun c => .refl _
    · rw [call_of_some book tracing h, call_of_some book' tracing h']
      exact parser_approx_unfolded_of_call ih hd

/-- **What is unfolded goes at least as far** as what it was unfolded from, with the same fuel. -/
theorem parser_approx_unfolded (hbook : book.UnfoldsTo book') (hg : book.Unfolds g g') (tracing : Bool) (fuel : Nat) :
    (book.parser tracing fuel g).Approx (fun _ => False) (book'.parser tracing fuel g') :=
  parser_approx_unfolded_of_call (call_approx_unfolded hbook tracing fuel) hg

/-! ## With more calls the rules catch up -/

/-- Repetitions may have as many steps as there are calls. -/
theorem parser_approx_of_le_depth {depth : Nat} (hle : fuel ≤ depth) (g : Grammar) :
    (g.parser ⟨tracing, fuel, book.call tracing depth⟩).Approx (fun _ => False) (book.parser tracing depth g) := by
  unfold Rulebook.parser
  apply Grammar.parser_approx
  · rfl
  · exact hle
  · exact fun r c => .refl _

/-- What a definition is sure to match in the end, its rule is too: it takes one more call. -/
theorem eventually_call_of_definition (h : book.find? r = some d)
    (hq : ∀ᶠ depth in atTop, q.Approx (fun _ => False) (d.parser ⟨tracing, fuel, book.call tracing depth⟩)) :
    ∀ᶠ depth in atTop, q.Approx (fun _ => False) (book.call tracing depth r) := by
  obtain ⟨least, hleast⟩ := eventually_atTop.1 hq
  refine eventually_atTop.2 ⟨max least fuel + 1, fun depth hle => ?_⟩
  obtain ⟨less, rfl⟩ : ∃ less, depth = less + 1 := ⟨depth - 1, by omega⟩
  rw [call_of_some book tracing h]
  exact fun c => (hleast less (by omega) c).trans (parser_approx_of_le_depth (by omega) d c)

theorem eventually_parser_approx_folded_of_call
    (hcall : ∀ᶠ depth in atTop, ∀ r, (book'.call tracing fuel r).Approx (fun _ => False) (book.call tracing depth r))
    (h : book.Unfolds g g') :
    ∀ᶠ depth in atTop, (book'.parser tracing fuel g').Approx (fun _ => False)
      (g.parser ⟨tracing, fuel, book.call tracing depth⟩) := by
  refine Grammar.eventually_related_unfolded (fun depth => ⟨tracing, fuel, book.call tracing depth⟩)
    (book'.setting tracing fuel) Attempt.Approx.isCongruence.flip (fun _ => .refl _) (fun _ => rfl) (fun _ => rfl) ?_ ?_ h
  · refine hcall.mono fun depth hdepth g => ?_
    show (g.parser _).Approx (fun _ => False) (g.parser _)
    apply Grammar.parser_approx
    · rfl
    · exact Nat.le_refl fuel
    · exact hdepth
  · exact fun r d q hfind hd => eventually_call_of_definition hfind hd

/-- **The calls of the unfolded rulebook are matched** by calls of the rulebook it was unfolded from. Again the
induction is on their depth. There is one amount of calls for all rules, since only finitely many are defined. -/
theorem eventually_call_approx_folded (hbook : book.UnfoldsTo book') (tracing : Bool) (fuel : Nat) :
    ∀ᶠ depth in atTop, ∀ r, (book'.call tracing fuel r).Approx (fun _ => False) (book.call tracing depth r) := by
  induction fuel with
  | zero => exact .of_forall fun depth r c => Or.inl trivial
  | succ fuel ih =>
    have hdefined : ∀ᶠ depth in atTop, ∀ r ∈ {r | ∃ d, book.find? r = some d},
        (book'.call tracing (fuel + 1) r).Approx (fun _ => False) (book.call tracing depth r) := by
      refine (eventually_all_finite book.finite_defined).2 fun r hr => ?_
      obtain ⟨d₀, h₀⟩ := hr
      rcases hbook.find?_cases r with ⟨h, -⟩ | ⟨d, d', h, h', hd⟩
      · rw [h] at h₀
        cases h₀
      · rw [call_of_some book' tracing h']
        exact eventually_call_of_definition h (eventually_parser_approx_folded_of_call ih hd)
    filter_upwards [hdefined, eventually_gt_atTop 0] with depth hdepth hpos r
    rcases hbook.find?_cases r with ⟨h, h'⟩ | ⟨d, -, h, -⟩
    · obtain ⟨less, rfl⟩ : ∃ less, depth = less + 1 := ⟨depth - 1, by omega⟩
      rw [call_of_none book tracing h, call_of_none book' tracing h']
      exact fun c => .refl _
    · exact hdepth r ⟨d, h⟩

/-- **What a grammar was unfolded from catches up** with what is unfolded. -/
theorem exists_parser_approx_folded (hbook : book.UnfoldsTo book') (hg : book.Unfolds g g') (tracing : Bool)
    (fuel : Nat) : ∃ more, (book'.parser tracing fuel g').Approx (fun _ => False) (book.parser tracing more g) := by
  have hfolded : ∀ᶠ depth in atTop, (book'.parser tracing fuel g').Approx (fun _ => False)
      (g.parser ⟨tracing, fuel, book.call tracing depth⟩) :=
    eventually_parser_approx_folded_of_call (eventually_call_approx_folded hbook tracing fuel) hg
  obtain ⟨more, hmore, hle⟩ := (hfolded.and (eventually_ge_atTop fuel)).exists
  exact ⟨more, fun c => (hmore c).trans (parser_approx_of_le_depth hle g c)⟩

/-! ## Unfolding is transparent -/

/-- **Rules may be replaced by their definitions,** wherever one likes, in a grammar and in the definitions themselves. An
application ends on both sides or on neither, and where it ends the two attempts are the same: their match, failure or
fault, and their trace. -/
theorem unfolding_transparent (hbook : book.UnfoldsTo book') (hg : book.Unfolds g g') (tracing : Bool) (c : Cursor) :
    ((∃ fuel, (book.parser tracing fuel g c).ending ≠ .unfinished) ↔
        ∃ fuel, (book'.parser tracing fuel g' c).ending ≠ .unfinished) ∧
      ∀ fuel fuel', (book.parser tracing fuel g c).ending ≠ .unfinished →
        (book'.parser tracing fuel' g' c).ending ≠ .unfinished →
        book'.parser tracing fuel' g' c = book.parser tracing fuel g c := by
  have hunfolded : ∀ fuel, (book.parser tracing fuel g c).ending ≠ .unfinished →
      book.parser tracing fuel g c = book'.parser tracing fuel g' c :=
    fun fuel => (parser_approx_unfolded hbook hg tracing fuel c).eq_of_ne_unfinished
  refine ⟨⟨?_, ?_⟩, fun fuel fuel' hends hends' => ?_⟩
  · rintro ⟨fuel, hends⟩
    exact ⟨fuel, hunfolded fuel hends ▸ hends⟩
  · rintro ⟨fuel, hends⟩
    obtain ⟨more, hmore⟩ := exists_parser_approx_folded hbook hg tracing fuel
    exact ⟨more, (hmore c).eq_of_ne_unfinished hends ▸ hends⟩
  · have hsame := hunfolded fuel hends
    rw [hsame] at hends ⊢
    -- two finished attempts on one side are the same, whichever has more fuel
    rcases Nat.le_total fuel fuel' with hle | hle
    · exact parser_eq_of_le hle hends
    · exact (parser_eq_of_le hle hends').symm

/-- A group as `labelled` defines it, around what stands for the next one. -/
def labelledGroup (inner : Grammar) : Grammar :=
  .traced "group" (.andThen (.byte 0x28) (.before (.optional (.traced "inside" inner)) (.byte 0x29)))

/-- `labelled`, where a group knows two levels before it comes back to its rule. -/
def unrolled : Rulebook where
  next := 1
  definitions := [(group, labelledGroup (labelledGroup (.rule group)))]

theorem unfolds_labelledGroup {inner inner' : Grammar} (h : labelled.Unfolds inner inner') :
    labelled.Unfolds (labelledGroup inner) (labelledGroup inner') :=
  .traced "group" (.andThen (.refl _) (.before (.optional (.traced "inside" h)) (.refl _)))

theorem unfoldsTo_unrolled : labelled.UnfoldsTo unrolled := by
  intro r
  show Option.Rel _ (List.lookup r [(group, labelledGroup (.rule group))]) (List.lookup r [(group, _)])
  rw [List.lookup_cons, List.lookup_cons]
  cases r == group with
  | true => exact .some (unfolds_labelledGroup (.rule rfl (.refl _)))
  | false => exact .none

/-- The ten lines of nested brackets, from the rule with three calls inside each other and from its unfolding with one. -/
theorem unfolding_transparent_unrolled :
    let g : Grammar := .rule group
    let g' : Grammar := labelledGroup (labelledGroup (.rule group))
    labelled.UnfoldsTo unrolled ∧ labelled.Unfolds g g' ∧
      (labelled.parser true 3 g nested).ending ≠ .unfinished ∧
      (unrolled.parser true 1 g' nested).ending ≠ .unfinished ∧
      (labelled.parser true 3 g nested).trace.length = 10 ∧
      unrolled.parser true 1 g' nested = labelled.parser true 3 g nested := by
  intro g g'
  have hg : labelled.Unfolds g g' := .rule rfl (unfolds_labelledGroup (.rule rfl (.refl _)))
  have hends : (labelled.parser true 3 g nested).ending ≠ .unfinished := by decide +kernel
  have hends' : (unrolled.parser true 1 g' nested).ending ≠ .unfinished := by decide +kernel
  obtain ⟨-, hsame⟩ := unfolding_transparent unfoldsTo_unrolled hg true nested
  exact ⟨unfoldsTo_unrolled, hg, hends, hends', by decide +kernel, hsame 3 1 hends hends'⟩

end Rulebook

end Bytewise
