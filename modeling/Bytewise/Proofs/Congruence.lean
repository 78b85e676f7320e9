/-
# Bytewise.Proofs.Congruence — relations between attempts that every combinator keeps.

Two runs are compared again and again: with less fuel and with more, over fewer definitions and over more, with labels
and without. Each time the comparison is a relation between attempts, and each time the same has to be known of it.
After an attempt there are only two ways on, in a sequence (`Attempt.bind`) or with its failure made good
(`Attempt.settle`). A relation that both of them keep, and that holds of silent attempts and themselves, is a
congruence: every combinator keeps it, its trace included.

Two combinators ask for more. A repetition may have a smaller budget on one side only if an attempt that was cut short
is related to everything (`Attempt.Outlasts`), and a label only stays if the relation allows for its reports.
-/
import Bytewise.Proofs.Ending

namespace Bytewise

/-- The label that a tracing event is about. -/
def Event.label? : Event → Option String
  | .trying label _ _ | .matched label _ _ | .failed label _ _ => some label
  | .parseFailed _ _ | .ruleDefined _ => none

namespace Attempt

/-- **`IsCongruence R`** — `R` is kept by the two ways of going on after an attempt, and relates every attempt that
reports nothing to itself. -/
structure IsCongruence (R : (α : Type) → Attempt α → Attempt α → Prop) : Prop where
  quiet {α : Type} {x : Attempt α} : x.trace = [] → R α x x
  bind {α β : Type} {x y : Attempt α} {f g : α → Attempt β} :
    R α x y → (∀ a, R β (f a) (g a)) → R β (x.bind f) (y.bind g)
  settle {α : Type} {x y : Attempt α} : R α x y → R (Except Reason α) x.settle y.settle

/-- **`Outlasts R budget budget'`** — the second budget is the larger one, and if it really is larger then `R` relates an
attempt that was cut short to every other. -/
def Outlasts (R : (α : Type) → Attempt α → Attempt α → Prop) (budget budget' : Nat) : Prop :=
  budget ≤ budget' ∧ (budget < budget' → ∀ (α : Type) (y : Attempt α), R α .unfinished y)

variable {R : (α : Type) → Attempt α → Attempt α → Prop}

theorem Outlasts.refl (budget : Nat) : Outlasts R budget budget :=
  ⟨Nat.le_refl budget, fun h => absurd h (Nat.lt_irrefl budget)⟩

theorem Outlasts.of_succ {budget budget' : Nat} (h : Outlasts R (budget + 1) (budget' + 1)) :
    Outlasts R budget budget' :=
  ⟨Nat.le_of_succ_le_succ h.1, fun hlt => h.2 (Nat.succ_lt_succ hlt)⟩

theorem trace_ofExcept {α : Type} (e : Except Fault α) : (ofExcept e).trace = [] := by
  cases e <;> rfl

/-- What may be refused with a fault is related to itself. -/
theorem IsCongruence.ofExcept (hR : IsCongruence R) {α : Type} (e : Except Fault α) :
    R α (.ofExcept e) (.ofExcept e) :=
  hR.quiet (trace_ofExcept e)

theorem IsCongruence.done (hR : IsCongruence R) {α : Type} (a : α) : R α (.done a) (.done a) :=
  hR.quiet rfl

theorem IsCongruence.fail (hR : IsCongruence R) {α : Type} (reason : Reason) : R α (.fail reason) (.fail reason) :=
  hR.quiet rfl

/-- Going on after a match or a failure alike. -/
theorem IsCongruence.settle_bind (hR : IsCongruence R) {α β : Type} {x y : Attempt α} {f g : Except Reason α → Attempt β}
    (h : R α x y) (hok : ∀ a, R β (f (.ok a)) (g (.ok a)))
    (herror : ∀ reason, R β (f (.error reason)) (g (.error reason))) : R β (x.settle.bind f) (y.settle.bind g) := by
  refine hR.bind (hR.settle h) fun outcome => ?_
  cases outcome with
  | ok a => exact hok a
  | error reason => exact herror reason

/-- **`x.ReportsOnly Q`** — `Q` holds of every event that `x` reports. -/
def ReportsOnly {α : Type} (Q : Event → Prop) (x : Attempt α) : Prop :=
  ∀ event ∈ x.trace, Q event

/-- Of two attempts only the first one is looked at: what it reports is limited to some events. -/
theorem isCongruence_reportsOnly (Q : Event → Prop) : IsCongruence fun _ x _ => x.ReportsOnly Q where
  quiet {α x} h := by
    intro event hevent
    rw [h] at hevent
    cases hevent
  bind {α β x y f g} hx hf := by
    rcases x with ⟨a | reason | fault | _, trace⟩
    · intro event hevent
      rcases List.mem_append.1 hevent with hfirst | hnext
      · exact hx event hfirst
      · exact hf a event hnext
    all_goals exact hx
  settle {α x y} hx := by
    rcases x with ⟨_ | _ | _ | _, trace⟩ <;> exact hx

end Attempt

namespace Parser

/-- **`Related R p q`** — everywhere the attempts of `p` and `q` are related. -/
def Related (R : (α : Type) → Attempt α → Attempt α → Prop) {α : Type} (p q : Parser α) : Prop :=
  ∀ c, R (Match α) (p c) (q c)

variable {R : (α : Type) → Attempt α → Attempt α → Prop} (hR : Attempt.IsCongruence R)

include hR

/-! ## Terminals report nothing -/

theorem related_take (count : Nat) : Related R (take count) (take count) := by
  intro c
  unfold take
  split
  · exact hR.fail _
  · split
    · exact hR.fail _
    · exact hR.bind (hR.ofExcept _) fun _ => hR.done _

theorem related_literal (expected : List UInt8) : Related R (literal expected) (literal expected) := by
  intro c
  unfold literal
  split
  · exact hR.fail _
  · split
    · exact hR.fail _
    · split
      · exact hR.bind (hR.ofExcept _) fun _ => hR.done _
      · exact hR.fail _

theorem related_satisfy (test : UInt8 → Except Fault Bool) : Related R (satisfy test) (satisfy test) := by
  intro c
  unfold satisfy
  split
  · exact hR.fail _
  · refine hR.bind (hR.ofExcept _) fun b => hR.bind (hR.ofExcept _) fun passed => ?_
    cases passed with
    | true => exact hR.bind (hR.ofExcept _) fun _ => hR.done _
    | false => exact hR.fail _

theorem related_splitAt (search : Cursor → Except Fault (Option Nat)) : Related R (splitAt search) (splitAt search) :=
  fun _ => hR.bind (hR.ofExcept _) fun _ => hR.bind (hR.ofExcept _) fun _ => hR.done _

theorem related_endOfInput : Related R endOfInput endOfInput := by
  intro c
  unfold endOfInput
  split
  · exact hR.done _
  · exact hR.fail _

/-! ## Combinators -/

section

variable {α β γ : Type} {p p' : Parser α} {q q' : Parser β} {s s' : Parser γ}

theorem Related.map (hp : Related R p p') (f : α → Except Fault β) : Related R (p.map f) (p'.map f) :=
  fun c => hR.bind (hp c) fun _ => hR.bind (hR.ofExcept _) fun _ => hR.done _

theorem Related.as (hp : Related R p p') (f : α → β) : Related R (p.as f) (p'.as f) :=
  hp.map hR _

theorem Related.nonempty {p p' : Parser (List UInt8)} (hp : Related R p p') : Related R p.nonempty p'.nonempty := by
  refine fun c => hR.bind (hp c) fun m => ?_
  split
  · exact hR.fail _
  · exact hR.done m

theorem Related.andThen (hp : Related R p p') (hq : Related R q q') :
    Related R (Parser.andThen p q) (Parser.andThen p' q') :=
  fun c => hR.bind (hp c) fun first => hq first.rest

theorem Related.before (hp : Related R p p') (hq : Related R q q') :
    Related R (Parser.before p q) (Parser.before p' q') :=
  fun c => hR.bind (hp c) fun first => hR.bind (hq first.rest) fun _ => hR.done _

theorem Related.separated (hp : Related R p p') (hs : Related R s s') (hq : Related R q q') :
    Related R (Parser.separated p s q) (Parser.separated p' s' q') :=
  fun c => hR.bind (hp c) fun first => hR.bind (hs first.rest) fun separator =>
    hR.bind (hq separator.rest) fun _ => hR.done _

theorem Related.optional (hp : Related R p p') : Related R (Parser.optional p) (Parser.optional p') :=
  fun c => hR.settle_bind (hp c) (fun _ => hR.done _) fun _ => hR.done _

theorem Related.lookahead (hp : Related R p p') : Related R (Parser.lookahead p) (Parser.lookahead p') :=
  fun c => hR.bind (hp c) fun _ => hR.done _

theorem Related.notFollowedBy (hp : Related R p p') : Related R (Parser.notFollowedBy p) (Parser.notFollowedBy p') :=
  fun c => hR.settle_bind (hp c) (fun _ => hR.fail _) fun _ => hR.done _

theorem related_moreInput : Related R moreInput moreInput :=
  (related_endOfInput hR).notFollowedBy hR

theorem Related.whole (hp : Related R p p') : Related R (Parser.whole p) (Parser.whole p') :=
  fun c => hR.bind (hp c) fun m => hR.bind (related_endOfInput hR m.rest) fun _ => hR.done _

/-- A choice, alternative by alternative. -/
theorem Related.firstOf {ι : Type} (f g : ι → Parser α) :
    ∀ l : List ι, (∀ i ∈ l, Related R (f i) (g i)) → Related R (Parser.firstOf (l.map f)) (Parser.firstOf (l.map g))
  | [], _ => fun _ => hR.fail _
  | i :: l, h => by
    refine fun c => hR.settle_bind (h i List.mem_cons_self c) (fun m => hR.done m) fun _ => ?_
    exact Related.firstOf f g l (fun j hj => h j (List.mem_cons_of_mem i hj)) c

/-- A repetition, step by step. The larger budget is only used where the smaller one is used up. -/
theorem Related.repeated (hp : Related R p p') (goOn : Cursor → Bool) (repetition : String) {budget budget' : Nat}
    (hbudget : Attempt.Outlasts R budget budget') :
    Related R (Parser.repeated goOn repetition budget p) (Parser.repeated goOn repetition budget' p') := by
  induction budget generalizing budget' with
  | zero =>
    cases budget' with
    | zero => exact fun c => hR.quiet rfl
    | succ more => exact fun c => hbudget.2 (Nat.succ_pos more) _ _
  | succ budget ih =>
    obtain ⟨more, rfl⟩ : ∃ more, budget' = more + 1 := ⟨budget' - 1, by have := hbudget.1; omega⟩
    intro c
    rw [repeated_succ, repeated_succ]
    split
    · refine hR.settle_bind (hp c) (fun m => ?_) fun _ => hR.done _
      dsimp only
      split
      · exact hR.quiet rfl
      · exact hR.bind (ih hbudget.of_succ m.rest) fun _ => hR.done _
    · exact hR.done _

variable {budget budget' : Nat}

theorem Related.many (hp : Related R p p') (hbudget : Attempt.Outlasts R budget budget') :
    Related R (Parser.many budget p) (Parser.many budget' p') := by
  intro c
  rw [many_eq, many_eq]
  exact hp.repeated hR _ _ hbudget c

theorem Related.many1 (hp : Related R p p') (hbudget : Attempt.Outlasts R budget budget') :
    Related R (Parser.many1 budget p) (Parser.many1 budget' p') := by
  intro c
  rw [many1_eq, many1_eq]
  refine hR.bind (hp.repeated hR _ _ hbudget c) fun m => ?_
  split
  · exact hR.fail _
  · exact hR.done m

theorem Related.span (hp : Related R p p') (hbudget : Attempt.Outlasts R budget budget') :
    Related R (Parser.span budget p) (Parser.span budget' p') := by
  intro c
  rw [span_eq, span_eq]
  split
  · exact hR.fail _
  · exact hR.bind (hp.repeated hR _ _ hbudget c) fun _ => hR.done _

/-- The same label on both sides stays, if its reports are related to themselves. -/
theorem Related.traced (hp : Related R p p') (on : Bool) (label : String)
    (hreport : on = true → ∀ event : Event, event.label? = some label → R Unit (.emit event) (.emit event)) :
    Related R (Parser.traced on label p) (Parser.traced on label p') := by
  intro c
  unfold Parser.traced
  split
  · rename_i hon
    refine hR.bind (hreport hon _ rfl) fun _ => hR.settle_bind (hp c) (fun m => ?_) fun reason => ?_
    · exact hR.bind (hreport hon _ rfl) fun _ => hR.done m
    · exact hR.bind (hreport hon _ rfl) fun _ => hR.fail reason
  · exact hp c

end

end Parser

end Bytewise
