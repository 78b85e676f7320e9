/-
# Bytewise.Proofs.Infallible — grammars that never fail.

Scans match everywhere, and so do options and plain repetitions whatever they are put around. `Grammar.Infallible` is the
class of grammars that is made from these: sequences of infallible parts, and choices in which one alternative is
infallible, the others being what they may. The class is sound (`Grammar.parser_neverFails`): such a grammar matches, ends
with a fault or does not end, but there is no input on which it fails.

That is no good thing inside a repetition, which ends where its parser fails. A repetition that collects the values of an
infallible grammar never has an outcome: it goes on to the end of the window, and there the guard stops it if nothing else
has. A repetition that takes bytes does not apply the grammar at the end of the window, so it does match, but
nowhere else (`Rulebook.infallible_repetition`).
-/
import Bytewise.Proofs.Fuel
import Bytewise.Proofs.Greedy
import Bytewise.Proofs.Layer

namespace Bytewise

/-! ## The class -/

/-- **`g.Infallible`** — as far as its tree shows, there is no input on which `g` fails. -/
inductive Grammar.Infallible : Grammar → Prop
  | upToFirst (test : Predicate) : Infallible (.upToFirst test)
  | upToLast (test : Predicate) : Infallible (.upToLast test)
  | optional (inner : Grammar) : Infallible (.optional inner)
  | many (inner : Grammar) : Infallible (.many inner)
  | map (f : Value → Except Fault Value) {inner : Grammar} : Infallible inner → Infallible (.map f inner)
  | lookahead {inner : Grammar} : Infallible inner → Infallible (.lookahead inner)
  | traced (label : String) {inner : Grammar} : Infallible inner → Infallible (.traced label inner)
  | andThen {first second : Grammar} : Infallible first → Infallible second → Infallible (.andThen first second)
  | before {first second : Grammar} : Infallible first → Infallible second → Infallible (.before first second)
  | separated {left separator right : Grammar} :
      Infallible left → Infallible separator → Infallible right → Infallible (.separated left separator right)
  | firstOf {g : Grammar} {alternatives : List Grammar} :
      g ∈ alternatives → Infallible g → Infallible (.firstOf alternatives)

/-! ## Parsers that never fail -/

namespace Ending

variable {α β : Type}

/-- Where nothing is asked there is nothing to know. -/
theorem yields_true (e : Ending α) : e.Yields (fun _ => True) fun _ => True := by
  cases e <;> trivial

/-- After an ending that is no failure it does not matter what follows a failure. -/
theorem resume_congr_of_yields {Q : α → Prop} {e : Ending α} (he : e.Yields Q fun _ => False) (hit : α → Ending β)
    (miss miss' : Reason → Ending β) : e.resume hit miss = e.resume hit miss' := by
  cases e with
  | failed reason => exact he.elim
  | done | raised | unfinished => rfl

end Ending

/-- **`p.NeverFails`** — everywhere `p` matches, raises or does not end. -/
def Parser.NeverFails {α : Type} (p : Parser α) : Prop :=
  ∀ c, (p c).ending.Yields (fun _ => True) fun _ => False

namespace Parser

variable {α : Type} {p : Parser α}

theorem NeverFails.ne_failed (hp : p.NeverFails) (c : Cursor) (reason : Reason) : (p c).ending ≠ .failed reason := by
  intro hfailed
  have hyields := hp c
  rw [hfailed] at hyields
  exact hyields

/-- A repetition as such makes good the failure in which it ends, whatever is repeated. -/
theorem repeated_neverFails (p : Parser α) (goOn : Cursor → Bool) (repetition : String) (budget : Nat) :
    (repeated goOn repetition budget p).NeverFails := by
  induction budget with
  | zero => exact fun c => trivial
  | succ budget ih =>
    intro c
    rw [ending_repeated_succ]
    split
    · refine (Ending.yields_true _).resume (fun m _ => ?_) fun _ _ => trivial
      split
      · exact trivial
      · exact (ih m.rest).resume (fun n _ => trivial) nofun
    · exact trivial

end Parser

/-! ## The class is sound -/

namespace Grammar

variable {σ : Setting}

/-- One alternative that never fails is enough: those in front of it match, raise or let it have its turn. -/
theorem neverFails_firstOf {g : Grammar} (hg : (g.parser σ).NeverFails) :
    ∀ {alternatives : List Grammar}, g ∈ alternatives → ((Grammar.firstOf alternatives).parser σ).NeverFails
  | head :: tail, hmem => by
    intro c
    rw [ending_firstOf_cons]
    rcases List.mem_cons.1 hmem with rfl | htail
    · exact (hg c).resume (fun m _ => trivial) nofun
    · exact (Ending.yields_true _).resume (fun m _ => trivial) fun _ _ => neverFails_firstOf hg htail c

/-- **An infallible grammar never fails,** whatever its rules stand for. -/
theorem parser_neverFails {g : Grammar} (h : g.Infallible) : (g.parser σ).NeverFails := by
  induction h with
  | upToFirst test =>
    intro c
    rw [ending_upToFirst]
    split <;> trivial
  | upToLast test =>
    intro c
    rw [ending_upToLast]
    split <;> trivial
  | optional inner =>
    intro c
    rw [ending_optional]
    exact (Ending.yields_true _).resume (fun m _ => trivial) fun _ _ => trivial
  | many inner =>
    intro c
    rw [ending_many]
    exact (Parser.repeated_neverFails _ _ _ _ c).resume (fun m _ => trivial) nofun
  | map f _ ih =>
    intro c
    rw [ending_map]
    refine (ih c).resume (fun m _ => ?_) nofun
    cases f m.value <;> trivial
  | lookahead _ ih =>
    intro c
    rw [ending_lookahead]
    exact (ih c).resume (fun m _ => trivial) nofun
  | traced label _ ih =>
    intro c
    rw [ending_traced]
    exact ih c
  | andThen _ _ ihf ihs =>
    intro c
    rw [ending_andThen]
    exact (ihf c).resume (fun m _ => ihs m.rest) nofun
  | before _ _ ihf ihs =>
    intro c
    rw [ending_before]
    exact (ihf c).resume (fun m _ => (ihs m.rest).resume (fun n _ => trivial) nofun) nofun
  | separated _ _ _ ihl ihs ihr =>
    intro c
    rw [ending_separated]
    refine (ihl c).resume (fun first _ => ?_) nofun
    refine (ihs first.rest).resume (fun between _ => ?_) nofun
    exact (ihr between.rest).resume (fun second _ => trivial) nofun
  | firstOf hmem _ ih => exact neverFails_firstOf ih hmem

end Grammar

/-! ## Repetitions of infallible grammars -/

namespace Parser

variable {α : Type} {p : Parser α}

/-- A repetition that takes bytes ends where its parser fails or with the window, and a parser that never fails leaves it
only the second. -/
theorem NeverFails.holds_span (hp : p.OnlyAdvances) (hnever : p.NeverFails) (budget : Nat) (c : Cursor) :
    (span budget p c).ending.Holds fun m => m.rest.window = [] := by
  rw [ending_span]
  split
  · exact .failed _
  · refine (walk_of_repeated hp _ "take_while" budget c).resume (fun m hm => ?_) .failed
    obtain ⟨ms, hwalk, -, hstop⟩ := hm
    rw [(hwalk.isRestOf hp).slice_eq]
    refine .done ?_
    rw [← Cursor.atEnd_iff]
    by_contra hmore
    obtain ⟨reason, hfailed⟩ := hstop (by simpa using hmore)
    exact hnever.ne_failed m.rest reason hfailed

end Parser

namespace Grammar

variable {σ : Setting} {g : Grammar} {c : Cursor}

/-- Both collecting repetitions apply the grammar where it stops, and there a match has them stuck. -/
theorem exists_ending_repetitions (hg : (g.parser σ).OnlyAdvances) (hnever : (g.parser σ).NeverFails)
    (hbudget : c.length < σ.budget) :
    ∃ d : Cursor, d.IsRestOf c ∧
      ((Grammar.many1 g).parser σ c).ending =
        (g.parser σ d).ending.resume (fun _ => .raised (.noProgress "one_or_more")) .failed ∧
      ((Grammar.many g).parser σ c).ending =
        (g.parser σ d).ending.resume (fun _ => .raised (.noProgress "one_or_more")) .failed := by
  obtain ⟨ms, d, hlongest⟩ := Parser.exists_isLongestWalk (g.parser σ) c
  have hmany := hlongest.ending_many hg hbudget
  rw [Parser.many_eq] at hmany
  refine ⟨d, hlongest.1.isRestOf hg, ?_, ?_⟩
  · rw [ending_many1, hmany, Ending.resume_resume]
    exact Ending.resume_congr_of_yields (hnever d) _ _ _
  · rw [ending_many, hmany, Ending.resume_resume]
    exact Ending.resume_congr_of_yields (hnever d) _ _ _

end Grammar

namespace Rulebook

variable {book : Rulebook} {tracing : Bool} {g : Grammar} {c : Cursor} {e : Ending (Match Value)}

/-- **How a collecting repetition ends** if what is repeated never fails: with the guard's fault, or with one that its
parser raises somewhere in the window. -/
theorem raised_of_ends_repetition (hbook : book.IsLibrary) (hg : g.IsLibrary) (hinfallible : g.Infallible)
    (h : book.Ends tracing (.many1 g) c e ∨ book.Ends tracing (.many g) c e) :
    ∃ fault, e = .raised fault ∧
      (fault = .noProgress "one_or_more" ∨ ∃ d : Cursor, d.IsRestOf c ∧ book.Ends tracing g d (.raised fault)) := by
  have he : e ≠ .unfinished := h.elim And.left And.left
  -- enough fuel to end, and enough to go the longest walk
  obtain ⟨fuel, hfuel, hlarge⟩ : ∃ fuel, ((book.parser tracing fuel (.many1 g) c).ending = e ∨
      (book.parser tracing fuel (.many g) c).ending = e) ∧ c.length < fuel := by
    have hlarge := Filter.eventually_gt_atTop c.length
    rcases h with h | h
    · exact ((h.2.mono fun _ => Or.inl).and hlarge).exists
    · exact ((h.2.mono fun _ => Or.inr).and hlarge).exists
  have hadvances : (book.parser tracing fuel g).OnlyAdvances := parser_onlyAdvances hbook.over tracing fuel hg.over
  have hnever : (book.parser tracing fuel g).NeverFails := Grammar.parser_neverFails hinfallible
  obtain ⟨d, hrest, hmany1, hmany⟩ := Grammar.exists_ending_repetitions hadvances hnever hlarge
  have hends : (book.parser tracing fuel g d).ending.resume (fun _ => .raised (.noProgress "one_or_more")) .failed = e :=
    hfuel.elim hmany1.symm.trans hmany.symm.trans
  cases hd : (book.parser tracing fuel g d).ending with
  | done m =>
    rw [hd, Ending.resume_done] at hends
    exact ⟨_, hends.symm, Or.inl rfl⟩
  | failed reason => exact absurd hd (hnever.ne_failed d reason)
  | raised fault =>
    rw [hd, Ending.resume_raised] at hends
    exact ⟨fault, hends.symm, Or.inr ⟨d, hrest, ends_of_ending hd nofun⟩⟩
  | unfinished =>
    rw [hd, Ending.resume_unfinished] at hends
    exact absurd hends.symm he

/-- **Repetitions of infallible grammars.** An infallible grammar never fails. If the repetitions that collect its values
end, they are stuck or raise a fault of the grammar; a negative lookahead for it never matches; and the repetition
that takes bytes matches only to the end of the window. -/
theorem infallible_repetition (hbook : book.IsLibrary) (hg : g.IsLibrary) (hinfallible : g.Infallible) (tracing : Bool)
    (c : Cursor) :
    (∀ reason, ¬ book.Ends tracing g c (.failed reason)) ∧
      (∀ e, book.Ends tracing (.many1 g) c e ∨ book.Ends tracing (.many g) c e →
        ∃ fault, e = .raised fault ∧
          (fault = .noProgress "one_or_more" ∨
            ∃ d : Cursor, d.IsRestOf c ∧ book.Ends tracing g d (.raised fault))) ∧
      (∀ m, ¬ book.Ends tracing (.notFollowedBy g) c (.done m)) ∧
      ∀ m, book.Ends tracing (.span g) c (.done m) → m.rest.window = [] := by
  have hnever : ∀ fuel, (book.parser tracing fuel g).NeverFails := fun fuel => Grammar.parser_neverFails hinfallible
  refine ⟨fun reason h => ?_, fun e => raised_of_ends_repetition hbook hg hinfallible, fun m h => ?_, fun m h => ?_⟩
  · obtain ⟨fuel, hfuel⟩ := h.exists_fuel
    exact (hnever fuel).ne_failed c reason hfuel
  · obtain ⟨fuel, hfuel⟩ := h.exists_fuel
    rw [parser_eq, Grammar.ending_notFollowedBy] at hfuel
    cases he : (book.parser tracing fuel g c).ending with
    | failed reason => exact (hnever fuel).ne_failed c reason he
    | done | raised | unfinished =>
      rw [← parser_eq, he] at hfuel
      cases hfuel
  · obtain ⟨fuel, hfuel⟩ := h.exists_fuel
    have hadvances : (book.parser tracing fuel g).OnlyAdvances := parser_onlyAdvances hbook.over tracing fuel hg.over
    have hspan := (hnever fuel).holds_span hadvances fuel c
    have hvalue : (book.parser tracing fuel (.span g) c).ending.Holds fun m => m.rest.window = [] := by
      show ((Parser.span fuel (book.parser tracing fuel g)).as Value.bytes c).ending.Holds _
      rw [Parser.ending_as]
      exact hspan.resume (fun n hn => .done hn) .failed
    exact hvalue m hfuel

/-- A group of brackets, or all bytes up to the first letter of one kind: the brackets are the first match and the byte
behind them is the second. The window is used up, and only then do the repetitions differ. -/
theorem infallible_repetition_parens :
    let g : Grammar := .firstOf [.rule group, .upToFirst fun b => .ok (b == 0x61)]
    let taken : Match Value := ⟨.bytes [0x28, 0x28, 0x29, 0x29, 0x62], nested.skip 5⟩
    parens.IsLibrary ∧ g.IsLibrary ∧ g.Infallible ∧
      (∀ reason, ¬ parens.Ends false g nested (.failed reason)) ∧
      parens.Ends false (.many1 g) nested (.raised (.noProgress "one_or_more")) ∧
      parens.Ends false (.many g) nested (.raised (.noProgress "one_or_more")) ∧
      (∃ fault, (.raised (.noProgress "one_or_more") : Ending (Match Value)) = .raised fault ∧
        (fault = .noProgress "one_or_more" ∨
          ∃ d : Cursor, d.IsRestOf nested ∧ parens.Ends false g d (.raised fault))) ∧
      (∀ m, ¬ parens.Ends false (.notFollowedBy g) nested (.done m)) ∧
      parens.Ends false (.span g) nested (.done taken) ∧ taken.rest.window = [] := by
  intro g taken
  have hg : g.IsLibrary := by
    refine .firstOf fun alternative hmem => ?_
    obtain rfl | rfl : alternative = .rule group ∨ alternative = .upToFirst fun b => .ok (b == 0x61) := by
      simpa using hmem
    · exact .rule _
    · exact .upToFirst _
  have hinfallible : g.Infallible := .firstOf (List.mem_cons_of_mem _ List.mem_cons_self) (.upToFirst _)
  have hmany1 : parens.Ends false (.many1 g) nested (.raised (.noProgress "one_or_more")) := by
    have hfuel : (parens.parser false 4 (.many1 g) nested).ending = .raised (.noProgress "one_or_more") := by
      decide +kernel
    exact ends_of_ending hfuel nofun
  have hmany : parens.Ends false (.many g) nested (.raised (.noProgress "one_or_more")) := by
    have hfuel : (parens.parser false 4 (.many g) nested).ending = .raised (.noProgress "one_or_more") := by
      decide +kernel
    exact ends_of_ending hfuel nofun
  have hspan : parens.Ends false (.span g) nested (.done taken) := by
    have hfuel : (parens.parser false 4 (.span g) nested).ending = .done taken := by decide +kernel
    exact ends_of_ending hfuel nofun
  obtain ⟨hfails, hraises, hmatches, hleaves⟩ := infallible_repetition isLibrary_parens hg hinfallible false nested
  exact ⟨isLibrary_parens, hg, hinfallible, hfails, hmany1, hmany, hraises _ (Or.inl hmany1), hmatches, hspan,
    hleaves _ hspan⟩

end Rulebook

end Bytewise
