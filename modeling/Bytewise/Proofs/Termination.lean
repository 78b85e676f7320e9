/-
# Bytewise.Proofs.Termination — guarded recursion ends.

A rule is exposed in a grammar if the grammar may apply it before it has consumed a byte. A rulebook is guarded if
no rule comes back to itself through exposed rules: then every application ends, with a match, a failure or a fault
(`Rulebook.ends_of_guarded`).

Three things decrease, one inside the other. An application that is not exposed has a shorter window; on the same
window, an exposed rule is further down in an order without cycles; and inside one definition the grammar gets
smaller. The three inductions stand in this file in the opposite order: trees, rules, windows.
-/
import Bytewise.Proofs.Consuming
import Bytewise.Proofs.Fuel
import Mathlib.Order.WellFoundedSet

namespace Bytewise

namespace Grammar

mutual

/-- **`exposed g`** — the rules that `g` may apply before it has consumed a byte, as far as its tree shows. What
stands behind a consuming part is not exposed. -/
def exposed : Grammar → List Rule
  | .take _ => []
  | .byte _ => []
  | .literal _ => []
  | .satisfy _ => []
  | .upToFirst _ => []
  | .upToFirst1 _ => []
  | .upToLast _ => []
  | .upToLast1 _ => []
  | .span inner => inner.exposed
  | .span1 inner => inner.exposed
  | .map _ inner => inner.exposed
  | .separated left separator right =>
    left.exposed ++ ((if left.consuming then [] else separator.exposed) ++
      if left.consuming || separator.consuming then [] else right.exposed)
  | .andThen first second => first.exposed ++ if first.consuming then [] else second.exposed
  | .before first second => first.exposed ++ if first.consuming then [] else second.exposed
  | .optional inner => inner.exposed
  | .notFollowedBy inner => inner.exposed
  | .lookahead inner => inner.exposed
  | .many1 inner => inner.exposed
  | .many inner => inner.exposed
  | .firstOf alternatives => exposedInAny alternatives
  | .endOfInput => []
  | .moreInput => []
  | .whole inner => inner.exposed
  | .traced _ inner => inner.exposed
  | .rule r => [r]
  | .leaf _ => []
  | .within _ inner => inner.exposed

/-- The rules exposed in any of the grammars. -/
def exposedInAny : List Grammar → List Rule
  | [] => []
  | g :: gs => g.exposed ++ exposedInAny gs

end

theorem mem_exposedInAny {g : Grammar} {gs : List Grammar} {r : Rule} (hg : g ∈ gs) (hr : r ∈ g.exposed) :
    r ∈ exposedInAny gs := by
  induction gs with
  | nil => cases hg
  | cons head gs ih =>
    rw [exposedInAny, List.mem_append]
    rcases List.mem_cons.1 hg with rfl | htail
    · exact Or.inl hr
    · exact Or.inr (ih htail)

end Grammar

namespace Rulebook

/-- **`book.Exposes f g`** — the definition of `f` exposes `g`. -/
def Exposes (book : Rulebook) (f g : Rule) : Prop :=
  ∃ d, book.find? f = some d ∧ g ∈ d.exposed

/-- **`book.Guarded`** — no rule comes back to itself through exposed rules. -/
def Guarded (book : Rulebook) : Prop :=
  ∀ r, ¬ Relation.TransGen book.Exposes r r

variable {book : Rulebook}

/-- Only finitely many rules are defined. -/
theorem finite_defined (book : Rulebook) : {r | ∃ d, book.find? r = some d}.Finite := by
  refine (List.finite_toSet (book.definitions.map Prod.fst)).subset ?_
  rintro r ⟨d, hd⟩
  exact List.mem_map.2 ⟨(r, d), mem_definitions_of_find? hd, rfl⟩

/-- **Induction along exposed rules.** In a guarded rulebook a property holds of all rules if it holds of each rule
whose definition exposes only rules with the property. -/
theorem Guarded.induction (h : book.Guarded) {P : Rule → Prop}
    (step : ∀ r, (∀ s, book.Exposes r s → P s) → P r) (r : Rule) : P r := by
  let below : Rule → Rule → Prop := fun s r => Relation.TransGen book.Exposes r s
  have htrans : IsTrans Rule below := ⟨fun _ _ _ hst hrs => Relation.TransGen.trans hrs hst⟩
  have hirrefl : Std.Irrefl below := ⟨h⟩
  have horder : IsStrictOrder Rule below := { }
  have hwf : {r | ∃ d, book.find? r = some d}.WellFoundedOn below := book.finite_defined.wellFoundedOn
  -- a rule without a definition exposes nothing, so the finite part carries the induction
  have hundefined : ∀ r, (¬ ∃ d, book.find? r = some d) → P r := by
    intro r hr
    apply step
    rintro s ⟨d, hd, -⟩
    exact absurd ⟨d, hd⟩ hr
  by_cases hr : ∃ d, book.find? r = some d
  · refine hwf.induction hr fun r _ ih => step r fun s hs => ?_
    by_cases hs' : ∃ d, book.find? s = some d
    · exact ih s hs' (.single hs)
    · exact hundefined s hs'
  · exact hundefined r hr

/-- Numbers that go down along every exposed rule leave no way back. -/
theorem guarded_of_rank (rank : Rule → Nat) (h : ∀ f g, book.Exposes f g → rank g < rank f) : book.Guarded := by
  have hpath : ∀ f g, Relation.TransGen book.Exposes f g → rank g < rank f := by
    intro f g hfg
    induction hfg with
    | single hstep => exact h _ _ hstep
    | tail _ hstep ih => exact Nat.lt_trans (h _ _ hstep) ih
  exact fun r hr => Nat.lt_irrefl _ (hpath r r hr)

end Rulebook

/-! ## Terminals -/

namespace Grammar

variable (σ : Setting) (c : Cursor)

theorem take_ne_unfinished (count : Nat) : ((Grammar.take count).parser σ c).ending ≠ .unfinished := by
  rw [ending_take]
  split
  · nofun
  · split <;> nofun

theorem literal_ne_unfinished (expected : List UInt8) :
    ((Grammar.literal expected).parser σ c).ending ≠ .unfinished := by
  rw [ending_literal]
  split
  · nofun
  · split
    · nofun
    · split <;> nofun

theorem satisfy_ne_unfinished (test : Predicate) :
    ((Grammar.satisfy test).parser σ c).ending ≠ .unfinished := by
  rw [ending_satisfy]
  split
  · nofun
  · split <;> nofun

theorem upToFirst_ne_unfinished (test : Predicate) :
    ((Grammar.upToFirst test).parser σ c).ending ≠ .unfinished := by
  rw [ending_upToFirst]
  split <;> nofun

theorem upToLast_ne_unfinished (test : Predicate) :
    ((Grammar.upToLast test).parser σ c).ending ≠ .unfinished := by
  rw [ending_upToLast]
  split <;> nofun

theorem endOfInput_ne_unfinished : (Grammar.endOfInput.parser σ c).ending ≠ .unfinished := by
  rw [ending_endOfInput]
  split <;> nofun

theorem moreInput_ne_unfinished : (Grammar.moreInput.parser σ c).ending ≠ .unfinished := by
  rw [ending_moreInput]
  split <;> nofun

end Grammar

namespace Rulebook

variable {book : Rulebook} {tracing : Bool} {n : Nat}

/-! ## Repetitions -/

/-- **`book.HaltsOn tracing g n`** — applied to a window of at most `n` bytes, `g` ends. -/
def HaltsOn (book : Rulebook) (tracing : Bool) (g : Grammar) (n : Nat) : Prop :=
  ∀ c : Cursor, c.length ≤ n → ∃ e, book.Ends tracing g c e

/-- What ends without any calls ends. -/
theorem haltsOn_of_ne_unfinished {g : Grammar}
    (h : ∀ σ c, (g.parser σ c).ending ≠ .unfinished) : book.HaltsOn tracing g n :=
  fun c _ => ⟨_, ends_of_ending rfl (h (book.setting tracing 0) c)⟩

/-- A match leaves a window that is shorter by what the tree shows to be consumed. -/
theorem Ends.shortens (hbook : book.IsLibrary) {g : Grammar} (hg : g.IsLibrary) {c : Cursor} {m : Match Value}
    (h : book.Ends tracing g c (.done m)) : m.rest.length + g.consuming.toNat ≤ c.length := by
  obtain ⟨fuel, hfuel⟩ := (ends_iff.1 h).2
  have hcall := call_onlyAdvances hbook.over tracing fuel
  exact Grammar.parser_shortens (σ := book.setting tracing fuel) hcall hg.over c m hfuel

/-- A repetition of a parser that ends does end: every step but the last leaves a shorter window. -/
theorem halts_repeated (hbook : book.IsLibrary) {g : Grammar} (hg : g.IsLibrary) (h : book.HaltsOn tracing g n)
    (goOn : Cursor → Bool) (repetition : String) (c : Cursor) (hc : c.length ≤ n) :
    Ending.Halts fun fuel =>
      (Parser.repeated goOn repetition fuel (book.parser tracing fuel g) c).ending := by
  induction hlen : c.length using Nat.strong_induction_on generalizing c with
  | _ len ih =>
    subst hlen
    -- the repetition and its inner parser have the same fuel, so the first step is unrolled with one more
    suffices hstep : Ending.Halts fun fuel =>
        (Parser.repeated goOn repetition (fuel + 1) (book.parser tracing fuel g) c).ending by
      obtain ⟨e, he⟩ := hstep
      exact ⟨e, .of_repeated_succ (book.parser_approx_succ tracing g) he⟩
    simp only [Parser.ending_repeated_succ]
    split
    · -- a step that does not end the repetition leaves less than `c.length` bytes
      refine Ending.Halts.resume (h c hc) (fun m hm => ?_) fun reason _ => .const nofun
      have hrest := Ends.shortens hbook hg hm
      split
      · exact .const nofun
      · refine Ending.Halts.resume (ih m.rest.length (by omega) m.rest (by omega) rfl) ?_ ?_
        · exact fun n _ => .const nofun
        · exact fun reason _ => .const nofun
    · exact .const nofun

/-- A scan that has to take something ends where the plain one does. -/
theorem haltsOn_refuseEmpty {g g' : Grammar} (h : book.HaltsOn tracing g n)
    (heq : ∀ σ c, (g'.parser σ c).ending = (g.parser σ c).ending.resume Match.refuseEmpty .failed) :
    book.HaltsOn tracing g' n := by
  intro c hc
  show Ending.Halts fun fuel => (g'.parser (book.setting tracing fuel) c).ending
  simp only [heq]
  refine Ending.Halts.resume (h c hc) (fun m _ => .const ?_) fun reason _ => .const nofun
  unfold Match.refuseEmpty
  split <;> nofun

theorem haltsOn_span (hbook : book.IsLibrary) {g : Grammar} (hg : g.IsLibrary) (h : book.HaltsOn tracing g n) :
    book.HaltsOn tracing (.span g) n := by
  intro c hc
  show Ending.Halts fun fuel => ((Grammar.span g).parser (book.setting tracing fuel) c).ending
  simp only [Grammar.ending_span]
  split
  · exact .const nofun
  · refine Ending.Halts.resume (halts_repeated hbook hg h _ _ c hc) ?_ ?_
    · exact fun m _ => .const nofun
    · exact fun reason _ => .const nofun

theorem haltsOn_many (hbook : book.IsLibrary) {g : Grammar} (hg : g.IsLibrary) (h : book.HaltsOn tracing g n) :
    book.HaltsOn tracing (.many g) n := by
  intro c hc
  show Ending.Halts fun fuel => ((Grammar.many g).parser (book.setting tracing fuel) c).ending
  simp only [Grammar.ending_many]
  refine Ending.Halts.resume (halts_repeated hbook hg h _ _ c hc) ?_ ?_
  · exact fun m _ => .const nofun
  · exact fun reason _ => .const nofun

theorem haltsOn_many1 (hbook : book.IsLibrary) {g : Grammar} (hg : g.IsLibrary) (h : book.HaltsOn tracing g n) :
    book.HaltsOn tracing (.many1 g) n := by
  intro c hc
  show Ending.Halts fun fuel => ((Grammar.many1 g).parser (book.setting tracing fuel) c).ending
  simp only [Grammar.ending_many1]
  refine Ending.Halts.resume (halts_repeated hbook hg h _ _ c hc) (fun m _ => ?_) ?_
  · split <;> exact .const nofun
  · exact fun reason _ => .const nofun

/-! ## Combinators -/

section

variable {g first second : Grammar}

theorem haltsOn_map (f : Value → Except Fault Value) (h : book.HaltsOn tracing g n) :
    book.HaltsOn tracing (.map f g) n := by
  intro c hc
  show Ending.Halts fun fuel => ((Grammar.map f g).parser (book.setting tracing fuel) c).ending
  simp only [Grammar.ending_map]
  refine Ending.Halts.resume (h c hc) (fun m _ => ?_) fun reason _ => .const nofun
  split <;> exact .const nofun

theorem haltsOn_optional (h : book.HaltsOn tracing g n) : book.HaltsOn tracing (.optional g) n := by
  intro c hc
  show Ending.Halts fun fuel => ((Grammar.optional g).parser (book.setting tracing fuel) c).ending
  simp only [Grammar.ending_optional]
  exact Ending.Halts.resume (h c hc) (fun m _ => .const nofun) fun reason _ => .const nofun

theorem haltsOn_notFollowedBy (h : book.HaltsOn tracing g n) :
    book.HaltsOn tracing (.notFollowedBy g) n := by
  intro c hc
  show Ending.Halts fun fuel => ((Grammar.notFollowedBy g).parser (book.setting tracing fuel) c).ending
  simp only [Grammar.ending_notFollowedBy]
  exact Ending.Halts.resume (h c hc) (fun m _ => .const nofun) fun reason _ => .const nofun

theorem haltsOn_lookahead (h : book.HaltsOn tracing g n) : book.HaltsOn tracing (.lookahead g) n := by
  intro c hc
  show Ending.Halts fun fuel => ((Grammar.lookahead g).parser (book.setting tracing fuel) c).ending
  simp only [Grammar.ending_lookahead]
  exact Ending.Halts.resume (h c hc) (fun m _ => .const nofun) fun reason _ => .const nofun

theorem haltsOn_whole (h : book.HaltsOn tracing g n) : book.HaltsOn tracing (.whole g) n := by
  intro c hc
  show Ending.Halts fun fuel => ((Grammar.whole g).parser (book.setting tracing fuel) c).ending
  simp only [Grammar.ending_whole]
  refine Ending.Halts.resume (h c hc) (fun m _ => ?_) fun reason _ => .const nofun
  split <;> exact .const nofun

theorem haltsOn_traced (label : String) (h : book.HaltsOn tracing g n) :
    book.HaltsOn tracing (.traced label g) n := by
  intro c hc
  show Ending.Halts fun fuel => ((Grammar.traced label g).parser (book.setting tracing fuel) c).ending
  simp only [Grammar.ending_traced]
  exact h c hc

/-- A choice tries its alternatives on the same window. -/
theorem haltsOn_firstOf : ∀ {gs : List Grammar}, (∀ g ∈ gs, book.HaltsOn tracing g n) →
    book.HaltsOn tracing (.firstOf gs) n
  | [], _ => haltsOn_of_ne_unfinished fun _ _ => nofun
  | g :: gs, h => by
    obtain ⟨hg, hgs⟩ := List.forall_mem_cons.1 h
    intro c hc
    show Ending.Halts fun fuel => ((Grammar.firstOf (g :: gs)).parser (book.setting tracing fuel) c).ending
    simp only [Grammar.ending_firstOf_cons]
    refine Ending.Halts.resume (hg c hc) (fun m _ => .const nofun) fun reason _ => ?_
    exact haltsOn_firstOf hgs c hc

/-- What follows a match is only asked for where a match leads to. -/
theorem haltsOn_andThen (h : book.HaltsOn tracing first n)
    (h' : ∀ c m, c.length ≤ n → book.Ends tracing first c (.done m) → ∃ e, book.Ends tracing second m.rest e) :
    book.HaltsOn tracing (.andThen first second) n := by
  intro c hc
  show Ending.Halts fun fuel => ((Grammar.andThen first second).parser (book.setting tracing fuel) c).ending
  simp only [Grammar.ending_andThen]
  exact Ending.Halts.resume (h c hc) (fun m hm => h' c m hc hm) fun reason _ => .const nofun

theorem haltsOn_before (h : book.HaltsOn tracing first n)
    (h' : ∀ c m, c.length ≤ n → book.Ends tracing first c (.done m) → ∃ e, book.Ends tracing second m.rest e) :
    book.HaltsOn tracing (.before first second) n := by
  intro c hc
  show Ending.Halts fun fuel => ((Grammar.before first second).parser (book.setting tracing fuel) c).ending
  simp only [Grammar.ending_before]
  refine Ending.Halts.resume (h c hc) (fun m hm => ?_) fun reason _ => .const nofun
  exact Ending.Halts.resume (h' c m hc hm) (fun _ _ => .const nofun) fun reason _ => .const nofun

end

theorem haltsOn_separated {left separator right : Grammar} (h : book.HaltsOn tracing left n)
    (h' : ∀ c m, c.length ≤ n → book.Ends tracing left c (.done m) → ∃ e, book.Ends tracing separator m.rest e)
    (h'' : ∀ c m k, c.length ≤ n → book.Ends tracing left c (.done m) →
      book.Ends tracing separator m.rest (.done k) → ∃ e, book.Ends tracing right k.rest e) :
    book.HaltsOn tracing (.separated left separator right) n := by
  intro c hc
  show Ending.Halts fun fuel =>
    ((Grammar.separated left separator right).parser (book.setting tracing fuel) c).ending
  simp only [Grammar.ending_separated]
  refine Ending.Halts.resume (h c hc) (fun m hm => ?_) fun reason _ => .const nofun
  refine Ending.Halts.resume (h' c m hc hm) (fun k hk => ?_) fun reason _ => .const nofun
  exact Ending.Halts.resume (h'' c m k hc hm hk) (fun _ _ => .const nofun) fun reason _ => .const nofun

/-! ## Trees, rules, windows -/

/-- A part of a sequence ends where the parts before it have led. If these are consuming, the window is
shorter; if they are not, what the part exposes is exposed in the sequence. -/
theorem ends_behind {consumed : Bool} {g : Grammar} (hg : g.IsLibrary)
    (hless : ∀ m < n, ∀ g : Grammar, g.IsLibrary → book.HaltsOn tracing g m)
    (hexposed : ∀ r ∈ if consumed then [] else g.exposed, book.HaltsOn tracing (.rule r) n)
    (ih : (∀ r ∈ g.exposed, book.HaltsOn tracing (.rule r) n) → book.HaltsOn tracing g n)
    {c : Cursor} (hc : c.length + consumed.toNat ≤ n) : ∃ e, book.Ends tracing g c e := by
  cases consumed with
  | true =>
    have hlt : c.length < n := hc
    exact hless c.length hlt g hg c le_rfl
  | false => exact ih hexposed c hc

/-- **A tree ends if everything ends on shorter windows** and the rules exposed in it end on this one. -/
theorem haltsOn_of_exposed (hbook : book.IsLibrary)
    (hless : ∀ m < n, ∀ g : Grammar, g.IsLibrary → book.HaltsOn tracing g m) {g : Grammar} (hg : g.IsLibrary)
    (hexposed : ∀ r ∈ g.exposed, book.HaltsOn tracing (.rule r) n) : book.HaltsOn tracing g n := by
  induction hg with
  -- terminals do not depend on anything
  | take count => exact haltsOn_of_ne_unfinished fun σ c => Grammar.take_ne_unfinished σ c count
  | byte expected => exact haltsOn_of_ne_unfinished fun σ c => Grammar.satisfy_ne_unfinished σ c _
  | literal expected => exact haltsOn_of_ne_unfinished fun σ c => Grammar.literal_ne_unfinished σ c expected
  | satisfy test => exact haltsOn_of_ne_unfinished fun σ c => Grammar.satisfy_ne_unfinished σ c test
  | upToFirst test => exact haltsOn_of_ne_unfinished fun σ c => Grammar.upToFirst_ne_unfinished σ c test
  | upToLast test => exact haltsOn_of_ne_unfinished fun σ c => Grammar.upToLast_ne_unfinished σ c test
  | upToFirst1 test =>
    exact haltsOn_refuseEmpty (haltsOn_of_ne_unfinished fun σ c => Grammar.upToFirst_ne_unfinished σ c test)
      fun σ c => Grammar.ending_upToFirst1 σ c test
  | upToLast1 test =>
    exact haltsOn_refuseEmpty (haltsOn_of_ne_unfinished fun σ c => Grammar.upToLast_ne_unfinished σ c test)
      fun σ c => Grammar.ending_upToLast1 σ c test
  | endOfInput => exact haltsOn_of_ne_unfinished Grammar.endOfInput_ne_unfinished
  | moreInput => exact haltsOn_of_ne_unfinished Grammar.moreInput_ne_unfinished
  -- what these expose is what their parts expose
  | span h ih => exact haltsOn_span hbook h (ih hexposed)
  | @span1 inner h ih =>
    exact haltsOn_refuseEmpty (haltsOn_span hbook h (ih hexposed)) fun σ c => Grammar.ending_span1 σ c inner
  | many h ih => exact haltsOn_many hbook h (ih hexposed)
  | many1 h ih => exact haltsOn_many1 hbook h (ih hexposed)
  | map f _ ih => exact haltsOn_map f (ih hexposed)
  | optional _ ih => exact haltsOn_optional (ih hexposed)
  | notFollowedBy _ ih => exact haltsOn_notFollowedBy (ih hexposed)
  | lookahead _ ih => exact haltsOn_lookahead (ih hexposed)
  | whole _ ih => exact haltsOn_whole (ih hexposed)
  | traced label _ ih => exact haltsOn_traced label (ih hexposed)
  | firstOf _ ih =>
    refine haltsOn_firstOf fun g hg => ih g hg fun r hr => ?_
    exact hexposed r (Grammar.mem_exposedInAny hg hr)
  -- a later part of a sequence is asked on the window that the parts before it leave
  | andThen hf hs ihf ihs =>
    obtain ⟨hfirst, hsecond⟩ := List.forall_mem_append.1 hexposed
    refine haltsOn_andThen (ihf hfirst) fun c m hc hm => ?_
    have hrest := Ends.shortens hbook hf hm
    exact ends_behind hs hless hsecond ihs (by omega)
  | before hf hs ihf ihs =>
    obtain ⟨hfirst, hsecond⟩ := List.forall_mem_append.1 hexposed
    refine haltsOn_before (ihf hfirst) fun c m hc hm => ?_
    have hrest := Ends.shortens hbook hf hm
    exact ends_behind hs hless hsecond ihs (by omega)
  | @separated left separator right hl hs hr ihl ihs ihr =>
    obtain ⟨hleft, hbehind⟩ := List.forall_mem_append.1 hexposed
    obtain ⟨hseparator, hright⟩ := List.forall_mem_append.1 hbehind
    refine haltsOn_separated (ihl hleft) (fun c m hc hm => ?_) fun c m k hc hm hk => ?_
    · have hrest := Ends.shortens hbook hl hm
      exact ends_behind hs hless hseparator ihs (by omega)
    · have hrest := Ends.shortens hbook hl hm
      have hrest' := Ends.shortens hbook hs hk
      have hadd := toNat_or_le left.consuming separator.consuming
      exact ends_behind hr hless hright ihr (by omega)
  | rule r => exact hexposed r List.mem_cons_self
  | leaf hp => exact hp.elim

/-- **A guarded rulebook ends on every window.** The induction on the window gives the shorter ones; on the same
window, the rules that a definition exposes come before the rule itself. -/
theorem haltsOn_of_guarded (hbook : book.IsLibrary) (hguarded : book.Guarded) (tracing : Bool) :
    ∀ n, ∀ g : Grammar, g.IsLibrary → book.HaltsOn tracing g n := by
  intro n
  induction n using Nat.strong_induction_on with
  | _ n hless =>
    -- on this window, first the rules in the order of the exposed ones, then any tree over them
    have hrule : ∀ r, book.HaltsOn tracing (.rule r) n := by
      refine hguarded.induction fun r ih c hc => ?_
      cases hfind : book.find? r with
      | none => exact ⟨_, ends_rule_of_none hfind⟩
      | some d =>
        have hd : book.HaltsOn tracing d n :=
          haltsOn_of_exposed hbook hless (hbook r d hfind) fun s hs => ih s ⟨d, hfind, hs⟩
        obtain ⟨e, he⟩ := hd c hc
        exact ⟨e, ends_rule hfind he⟩
    exact fun g hg => haltsOn_of_exposed hbook hless hg fun r _ => hrule r

/-- **Guarded recursion terminates**: with a match, with a failure or with a fault. -/
theorem ends_of_guarded (hbook : book.IsLibrary) (hguarded : book.Guarded) {g : Grammar} (hg : g.IsLibrary)
    (tracing : Bool) (c : Cursor) :
    (∃ m, book.Ends tracing g c (.done m)) ∨ (∃ reason, book.Ends tracing g c (.failed reason)) ∨
      ∃ fault, book.Ends tracing g c (.raised fault) := by
  obtain ⟨e, he⟩ := haltsOn_of_guarded hbook hguarded tracing c.length g hg c le_rfl
  cases e with
  | done m => exact Or.inl ⟨m, he⟩
  | failed reason => exact Or.inr (Or.inl ⟨reason, he⟩)
  | raised fault => exact Or.inr (Or.inr ⟨fault, he⟩)
  | unfinished => exact absurd rfl he.1

/-- The only rule of `parens` stands behind a bracket in its definition. -/
theorem guarded_parens : parens.Guarded := by
  refine guarded_of_rank (fun _ => 0) ?_
  rintro f g ⟨d, hd, hg⟩
  obtain rfl : d = _ := congrArg Prod.snd (List.mem_singleton.1 (mem_definitions_of_find? hd))
  exact absurd hg List.not_mem_nil

/-- Groups in any number. -/
theorem ends_of_guarded_parens :
    let g : Grammar := .many (.rule group)
    parens.IsLibrary ∧ parens.Guarded ∧ g.IsLibrary ∧
      ((∃ m, parens.Ends false g nested (.done m)) ∨ (∃ reason, parens.Ends false g nested (.failed reason)) ∨
        ∃ fault, parens.Ends false g nested (.raised fault)) := by
  intro g
  have hg : g.IsLibrary := .many (.rule group)
  exact ⟨isLibrary_parens, guarded_parens, hg, ends_of_guarded isLibrary_parens guarded_parens hg false nested⟩

end Rulebook

end Bytewise
