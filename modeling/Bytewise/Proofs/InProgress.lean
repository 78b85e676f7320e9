/-
# Bytewise.Proofs.InProgress — which applications are in progress when a fault is raised.

An application consists of others: those of the parts of its grammar, as far as they are reached, and that of the
definition if the grammar is a rule (`Rulebook.Applies`). A fault ends all applications around it and no other. So
the ones in progress when it is raised are found from outside, by going to the part whose application was ended by a
fault for as long as there is one (`Rulebook.InProgress`). There is at most one such part (`Applies.unique`), hence what is in
progress is determined.

Nothing here looks at a trace. `Bytewise.Proofs.Bracketing` compares.
-/
import Bytewise.Proofs.Brackets
import Bytewise.Proofs.Faults

namespace Bytewise

/-! ## Applications inside each other -/

namespace Grammar

/-- **`opening g c`** — the part that `g` applies first, to its own window. A scan over an empty window applies none. -/
def opening : Grammar → Cursor → Option Grammar
  | .span inner, c | .span1 inner, c => if c.atEnd then none else some inner
  | g, _ => g.parts.head?

/-- What the application of a grammar itself reports: one frame if it is labelled. -/
def frame : Grammar → Cursor → List Frame
  | .traced label _, c => [⟨label, c⟩]
  | _, _ => []

end Grammar

namespace Rulebook

/-- **`book.Applies g c h d`** — while `g` is applied to `c`, it applies `h` to `d`, directly and not through another
application. -/
inductive Applies (book : Rulebook) : Grammar → Cursor → Grammar → Cursor → Prop
  | opening {g h : Grammar} {c : Cursor} : g.opening c = some h → Applies book g c h c
  -- sequences go on where the part before matched
  | andThen {first second : Grammar} {c : Cursor} {m : Match Value} :
      book.Ends true first c (.done m) → Applies book (.andThen first second) c second m.rest
  | before {first second : Grammar} {c : Cursor} {m : Match Value} :
      book.Ends true first c (.done m) → Applies book (.before first second) c second m.rest
  | separator {left separator right : Grammar} {c : Cursor} {m : Match Value} :
      book.Ends true left c (.done m) → Applies book (.separated left separator right) c separator m.rest
  | right {left separator right : Grammar} {c : Cursor} {m n : Match Value} :
      book.Ends true left c (.done m) → book.Ends true separator m.rest (.done n) →
      Applies book (.separated left separator right) c right n.rest
  -- a choice goes on where the alternative before failed
  | alternative {g h : Grammar} {gs : List Grammar} {c d : Cursor} {reason : Reason} :
      book.Ends true g c (.failed reason) → Applies book (.firstOf gs) c h d → Applies book (.firstOf (g :: gs)) c h d
  -- after a match that is not stuck, a repetition does what it would do if it began there
  | again {g inner h : Grammar} {name : String} {c d : Cursor} {m : Match Value} :
      g.repetition? = some (name, inner) → book.Ends true inner c (.done m) → m.rest.length ≠ c.length →
      Applies book g m.rest h d → Applies book g c h d
  | definition {r : Rule} {g : Grammar} {c : Cursor} : book.find? r = some g → Applies book (.rule r) c g c

/-- **`book.Raises g c`** — the application of `g` to `c` is ended by a fault. -/
def Raises (book : Rulebook) (g : Grammar) (c : Cursor) : Prop :=
  ∃ fault, book.Ends true g c (.raised fault)

/-- **`book.InProgress g c frames`** — if the application of `g` to `c` is ended by a fault, then `frames` are the labelled
applications in progress when it is raised, the outermost first. The fault is raised by `g` itself, or inside an
application that `g` applies and that is ended by a fault. -/
inductive InProgress (book : Rulebook) : Grammar → Cursor → List Frame → Prop
  | innermost {g : Grammar} {c : Cursor} :
      (∀ h d, book.Applies g c h d → ¬ book.Raises h d) → InProgress book g c (g.frame c)
  | inside {g h : Grammar} {c d : Cursor} {frames : List Frame} :
      book.Applies g c h d → book.Raises h d → InProgress book h d frames →
      InProgress book g c (g.frame c ++ frames)

variable {book : Rulebook} {g h inner : Grammar} {c d : Cursor} {m n : Match Value} {reason : Reason}
  {frames frames' : List Frame} {name : String}

/-! ## A fault is raised in one place -/

/-- What is ended by a fault does not match. -/
theorem Raises.not_done (hraises : book.Raises g c) : ¬ book.Ends true g c (.done m) := by
  obtain ⟨fault, hfault⟩ := hraises
  intro hdone
  cases Ending.Settles.unique hfault hdone

theorem Raises.not_failed (hraises : book.Raises g c) : ¬ book.Ends true g c (.failed reason) := by
  obtain ⟨fault, hfault⟩ := hraises
  intro hfailed
  cases Ending.Settles.unique hfault hfailed

theorem Ends.match_unique (hm : book.Ends true g c (.done m)) (hn : book.Ends true g c (.done n)) : m = n :=
  Ending.done.inj (Ending.Settles.unique hm hn)

theorem mem_parts_of_opening (hopening : g.opening c = some h) : h ∈ g.parts := by
  cases g with
  | span | span1 =>
    rw [Grammar.opening] at hopening
    split at hopening
    · cases hopening
    · cases hopening
      exact List.mem_singleton_self _
  | _ => exact List.mem_of_mem_head? hopening

/-- A repetition has one part. -/
theorem parts_of_repetition (hg : g.repetition? = some (name, inner)) : g.parts = [inner] := by
  cases g with
  | span | span1 | many | many1 =>
    cases hg
    rfl
  | _ => cases hg

theorem opening_of_repetition (hg : g.repetition? = some (name, inner)) (hopening : g.opening c = some h) :
    h = inner := by
  have hmem := mem_parts_of_opening hopening
  rwa [parts_of_repetition hg, List.mem_singleton] at hmem

/-- Where the part applied first is ended by a fault, no other is applied. -/
theorem Applies.eq_opening {first : Grammar} (hopening : g.opening c = some first) (hraises : book.Raises first c)
    (happlies : book.Applies g c h d) : h = first ∧ d = c := by
  cases happlies with
  | opening hopening' =>
    rw [hopening] at hopening'
    cases hopening'
    exact ⟨rfl, rfl⟩
  | andThen hdone | before hdone | separator hdone | right hdone _ =>
    cases hopening
    exact absurd hdone hraises.not_done
  | alternative hfailed _ =>
    cases hopening
    exact absurd hfailed hraises.not_failed
  | again hg hdone _ _ =>
    rw [opening_of_repetition hg hopening] at hraises
    exact absurd hdone hraises.not_done
  | definition => cases hopening

/-- After a first part that matches, only the second one is left. -/
theorem Applies.of_andThen {first second : Grammar} (hdone : book.Ends true first c (.done m)) (hraises : book.Raises h d)
    (happlies : book.Applies (.andThen first second) c h d) : h = second ∧ d = m.rest := by
  cases happlies with
  | opening hopening =>
    cases hopening
    exact absurd hdone hraises.not_done
  | andThen hdone' =>
    cases hdone.match_unique hdone'
    exact ⟨rfl, rfl⟩
  | again hg => cases hg

theorem Applies.of_before {first second : Grammar} (hdone : book.Ends true first c (.done m)) (hraises : book.Raises h d)
    (happlies : book.Applies (.before first second) c h d) : h = second ∧ d = m.rest := by
  cases happlies with
  | opening hopening =>
    cases hopening
    exact absurd hdone hraises.not_done
  | before hdone' =>
    cases hdone.match_unique hdone'
    exact ⟨rfl, rfl⟩
  | again hg => cases hg

/-- After a left part that matches, the separator is left, or what stands right of a separator that matches. -/
theorem Applies.of_separated {left separator right : Grammar} (hdone : book.Ends true left c (.done m))
    (hraises : book.Raises h d) (happlies : book.Applies (.separated left separator right) c h d) :
    (h = separator ∧ d = m.rest) ∨ ∃ n, book.Ends true separator m.rest (.done n) ∧ h = right ∧ d = n.rest := by
  cases happlies with
  | opening hopening =>
    cases hopening
    exact absurd hdone hraises.not_done
  | separator hdone' =>
    cases hdone.match_unique hdone'
    exact Or.inl ⟨rfl, rfl⟩
  | right hdone' hseparator =>
    cases hdone.match_unique hdone'
    exact Or.inr ⟨_, hseparator, rfl, rfl⟩
  | again hg => cases hg

/-- After an alternative that fails, a choice applies what the choice among the others applies. -/
theorem Applies.of_firstOf_cons {gs : List Grammar} (hfailed : book.Ends true g c (.failed reason))
    (hraises : book.Raises h d) (happlies : book.Applies (.firstOf (g :: gs)) c h d) :
    book.Applies (.firstOf gs) c h d := by
  cases happlies with
  | opening hopening =>
    cases hopening
    exact absurd hfailed hraises.not_failed
  | alternative _ hothers => exact hothers
  | again hg => cases hg

/-- After a match that is no fault, a repetition has not been stuck and applies what it would apply from there on. -/
theorem Applies.of_repetition (hg : g.repetition? = some (name, inner)) (hdone : book.Ends true inner c (.done m))
    (hraises : book.Raises h d) (happlies : book.Applies g c h d) :
    m.rest.length ≠ c.length ∧ book.Applies g m.rest h d := by
  cases happlies with
  | opening hopening =>
    rw [opening_of_repetition hg hopening] at hraises
    exact absurd hdone hraises.not_done
  | again hg' hdone' hlength hrest =>
    rw [hg] at hg'
    cases hg'
    cases hdone.match_unique hdone'
    exact ⟨hlength, hrest⟩
  | andThen | before | separator | right | alternative | definition => cases hg

/-- **At most one of the parts of an application is ended by a fault.** The induction is on the way to the one that is: on
every step of it, the other would be found on the same way. -/
theorem Applies.unique (happlies : book.Applies g c h d) (hraises : book.Raises h d) :
    ∀ {h' : Grammar} {d' : Cursor}, book.Applies g c h' d' → book.Raises h' d' → h' = h ∧ d' = d := by
  induction happlies with
  | opening hopening => exact fun happlies' _ => happlies'.eq_opening hopening hraises
  | andThen hdone => exact fun happlies' hraises' => happlies'.of_andThen hdone hraises'
  | before hdone => exact fun happlies' hraises' => happlies'.of_before hdone hraises'
  | separator hdone =>
    intro h' d' happlies' hraises'
    rcases happlies'.of_separated hdone hraises' with hsame | ⟨n, hseparator, -⟩
    · exact hsame
    · exact absurd hseparator hraises.not_done
  | right hdone hseparator =>
    intro h' d' happlies' hraises'
    rcases happlies'.of_separated hdone hraises' with ⟨rfl, rfl⟩ | ⟨n, hseparator', rfl, rfl⟩
    · exact absurd hseparator hraises'.not_done
    · cases hseparator.match_unique hseparator'
      exact ⟨rfl, rfl⟩
  | alternative hfailed _ ih =>
    exact fun happlies' hraises' => ih hraises (happlies'.of_firstOf_cons hfailed hraises') hraises'
  | again hg hdone _ _ ih =>
    exact fun happlies' hraises' => ih hraises (happlies'.of_repetition hg hdone hraises').2 hraises'
  | definition hfind =>
    intro h' d' happlies' _
    cases happlies' with
    | opening hopening => cases hopening
    | again hg => cases hg
    | definition hfind' =>
      rw [hfind] at hfind'
      cases hfind'
      exact ⟨rfl, rfl⟩

/-- **What is in progress is determined.** -/
theorem InProgress.unique (hframes : book.InProgress g c frames) : book.InProgress g c frames' → frames' = frames := by
  induction hframes generalizing frames' with
  | innermost hnone =>
    intro hframes'
    cases hframes' with
    | innermost _ => rfl
    | inside happlies hraises _ => exact absurd hraises (hnone _ _ happlies)
  | inside happlies hraises _ ih =>
    intro hframes'
    cases hframes' with
    | innermost hnone => exact absurd hraises (hnone _ _ happlies)
    | inside happlies' hraises' hinner =>
      obtain ⟨rfl, rfl⟩ := happlies.unique hraises happlies' hraises'
      rw [ih hinner]

/-! ## Repetitions and choices, step by step -/

theorem frame_of_repetition (hg : g.repetition? = some (name, inner)) : g.frame c = [] := by
  cases g with
  | span | span1 | many | many1 => rfl
  | _ => cases hg

/-- After a match that is not stuck, in progress in a repetition is what would be if it began there. -/
theorem InProgress.again (hg : g.repetition? = some (name, inner)) (hdone : book.Ends true inner c (.done m))
    (hlength : m.rest.length ≠ c.length) (hframes : book.InProgress g m.rest frames) : book.InProgress g c frames := by
  cases hframes with
  | innermost hnone =>
    rw [frame_of_repetition hg, ← frame_of_repetition (c := c) hg]
    exact .innermost fun h d happlies hraises => hnone h d (happlies.of_repetition hg hdone hraises).2 hraises
  | inside happlies hraises hinner =>
    rw [frame_of_repetition hg, ← frame_of_repetition (c := c) hg]
    exact .inside (.again hg hdone hlength happlies) hraises hinner

/-- After an alternative that fails, in progress in a choice is what is in the choice among the others. -/
theorem InProgress.alternative {gs : List Grammar} (hfailed : book.Ends true g c (.failed reason))
    (hframes : book.InProgress (.firstOf gs) c frames) : book.InProgress (.firstOf (g :: gs)) c frames := by
  cases hframes with
  | innermost hnone =>
    exact .innermost fun h d happlies hraises => hnone h d (happlies.of_firstOf_cons hfailed hraises) hraises
  | inside happlies hraises hinner => exact .inside (.alternative hfailed happlies) hraises hinner

end Rulebook

end Bytewise
