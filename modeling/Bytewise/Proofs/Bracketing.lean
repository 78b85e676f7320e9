/-
# Bytewise.Proofs.Bracketing — the trace of an application is bracketed.

An application that gives an outcome reports a bracketed word. One that is ended by a fault reports the beginning of such a
word, and what is open at its end are the labelled parsers whose application was in progress when the fault was raised
(`Rulebook.trace_bracketed`).

The invariant is `Attempt.Reports`. It says of every ending what the trace looks like, and it is kept by the two ways of
going on after an attempt. From this it is proved for one layer of combinators and then, by induction on the depth of the
calls, for rules.
-/
import Bytewise.Proofs.InProgress

namespace Bytewise

/-! ## What an attempt reports -/

namespace Attempt

variable {α β : Type} {c d : Cursor} {P Q : List Frame → Prop}

/-- **`x.Reports c P`** — the trace of `x` is bracketed inside the window `c` if `x` is an outcome, and broken off if it is
not. After a fault the frames that are open satisfy `P`. -/
def Reports (c : Cursor) (P : List Frame → Prop) (x : Attempt α) : Prop :=
  match x.ending with
  | .done _ | .failed _ => Bracketed c x.trace
  | .raised _ => ∃ frames, P frames ∧ BrokenOff c frames x.trace
  | .unfinished => ∃ frames, BrokenOff c frames x.trace

namespace Reports

/-- An attempt that reports nothing. If it is a fault then nothing is open. -/
theorem quiet {x : Attempt α} (htrace : x.trace = []) (hraised : ∀ fault, x.ending = .raised fault → P []) :
    x.Reports c P := by
  rcases x with ⟨value | reason | fault | _, trace⟩ <;> cases htrace
  · exact .nil
  · exact .nil
  · exact ⟨[], hraised fault rfl, .outside .nil⟩
  · exact ⟨[], .outside .nil⟩

theorem done (value : α) : (Attempt.done value).Reports c P :=
  quiet rfl nofun

theorem fail (reason : Reason) : (Attempt.fail reason : Attempt α).Reports c P :=
  quiet rfl nofun

theorem raise {fault : Fault} (h : P []) : (Attempt.raise fault : Attempt α).Reports c P :=
  quiet rfl fun _ _ => h

/-- Reports on a rest are reports on the window. -/
theorem mono {x : Attempt α} (hx : x.Reports d P) (hdc : d.IsRestOf c)
    (hraised : ∀ fault, x.ending = .raised fault → ∀ frames, P frames → Q frames) : x.Reports c Q := by
  rcases x with ⟨value | reason | fault | _, trace⟩
  · exact Bracketed.mono hx hdc
  · exact Bracketed.mono hx hdc
  · obtain ⟨frames, hframes, htrace⟩ := hx
    exact ⟨frames, hraised fault rfl frames hframes, htrace.mono hdc⟩
  · obtain ⟨frames, htrace⟩ := hx
    exact ⟨frames, htrace.mono hdc⟩

/-- However it ends, what an attempt reports can be closed. -/
theorem brokenOff {x : Attempt α} (hx : x.Reports c P) : ∃ frames, BrokenOff c frames x.trace := by
  rcases x with ⟨value | reason | fault | _, trace⟩
  · exact ⟨[], .outside hx⟩
  · exact ⟨[], .outside hx⟩
  · obtain ⟨frames, -, htrace⟩ := hx
    exact ⟨frames, htrace⟩
  · exact hx

/-- A bracketed word in front of what is reported. -/
theorem after {y : Attempt α} {before : List Event} (hbefore : Bracketed c before) (hy : y.Reports c P) :
    (⟨y.ending, before ++ y.trace⟩ : Attempt α).Reports c P := by
  rcases y with ⟨value | reason | fault | _, trace⟩
  · exact Bracketed.append hbefore hy
  · exact Bracketed.append hbefore hy
  · obtain ⟨frames, hframes, htrace⟩ := hy
    exact ⟨frames, hframes, .after hbefore htrace⟩
  · obtain ⟨frames, htrace⟩ := hy
    exact ⟨frames, .after hbefore htrace⟩

theorem bind {x : Attempt α} {f : α → Attempt β} (hx : x.Reports c P)
    (hf : ∀ a, x.ending = .done a → (f a).Reports c P) : (x.bind f).Reports c P := by
  rcases x with ⟨a | reason | fault | _, trace⟩
  · exact after hx (hf a rfl)
  · exact hx
  · exact hx
  · exact hx

/-- Going on after a failure. -/
theorem settle_bind {x : Attempt α} {f : Except Reason α → Attempt β} (hx : x.Reports c P)
    (hok : ∀ a, x.ending = .done a → (f (.ok a)).Reports c P)
    (herror : ∀ reason, x.ending = .failed reason → (f (.error reason)).Reports c P) :
    (x.settle.bind f).Reports c P := by
  rcases x with ⟨a | reason | fault | _, trace⟩
  · exact after hx (hok a rfl)
  · exact after hx (herror reason rfl)
  · exact hx
  · exact hx

/-- A function that accepts every value reports nothing. -/
theorem as {p : Parser α} (hp : (p c).Reports c P) (f : α → β) : (p.as f c).Reports c P :=
  hp.bind fun _ _ => done _

theorem nonempty {p : Parser (List UInt8)} (hp : (p c).Reports c P) : (p.nonempty c).Reports c P := by
  refine hp.bind fun m _ => ?_
  split
  · exact fail _
  · exact done m

end Reports

/-- To report nothing is kept by every combinator but labels. -/
theorem isCongruence_quiet : IsCongruence fun _ x _ => x.trace = [] := by
  simp only [List.eq_nil_iff_forall_not_mem]
  exact isCongruence_reportsOnly fun _ => False

end Attempt

/-! ## One layer of combinators -/

namespace Rulebook

variable {book : Rulebook} {fuel : Nat} {g inner first second : Grammar} {name : String}

/-- **`book.Reports fuel g`** — at every window, the parser of `g` reports a bracketed word, and after a fault what is open is
in progress. -/
def Reports (book : Rulebook) (fuel : Nat) (g : Grammar) : Prop :=
  ∀ c, (book.parser true fuel g c).Reports c (book.InProgress g c)

namespace Reports

/-- What a part reports, as a report of the whole. -/
theorem part {h : Grammar} {c d : Cursor} (hh : book.Reports fuel h) (happlies : book.Applies g c h d)
    (hrest : d.IsRestOf c) (hframe : g.frame c = []) :
    (book.parser true fuel h d).Reports c (book.InProgress g c) := by
  refine (hh d).mono hrest fun fault hraised frames hframes => ?_
  have hraises : book.Raises h d := ⟨fault, ends_of_ending hraised nofun⟩
  have hinside := InProgress.inside happlies hraises hframes
  rwa [hframe, List.nil_append] at hinside

/-- What the first part reports, which is applied to the same window. -/
theorem opening {h : Grammar} {c : Cursor} (hh : book.Reports fuel h) (hopening : g.opening c = some h)
    (hframe : g.frame c = []) : (book.parser true fuel h c).Reports c (book.InProgress g c) :=
  hh.part (.opening hopening) (.refl c) hframe

/-- A terminal reports nothing and applies nothing, so a fault is its own. -/
theorem of_quiet (hparts : g.parts = []) (hrule : ∀ r, g ≠ .rule r) (hframe : ∀ c, g.frame c = [])
    (htrace : ∀ c, (book.parser true fuel g c).trace = []) : book.Reports fuel g := by
  refine fun c => .quiet (htrace c) fun _ _ => ?_
  rw [← hframe c]
  refine .innermost fun h d happlies _ => ?_
  cases happlies with
  | opening hopening =>
    have hmem := mem_parts_of_opening hopening
    rw [hparts] at hmem
    cases hmem
  | definition => exact hrule _ rfl
  | again hg =>
    rw [parts_of_repetition hg] at hparts
    cases hparts
  | andThen | before | separator | right | alternative => cases hparts

theorem map (f : Value → Except Fault Value) (hinner : book.Reports fuel inner) : book.Reports fuel (.map f inner) := by
  refine fun c => (hinner.opening rfl rfl).bind fun m hm => ?_
  refine .bind ?_ fun value _ => .done _
  -- the part has matched, so a function that refuses the value raises a fault of the map itself
  refine .quiet (Attempt.trace_ofExcept _) fun _ _ => .innermost fun h d happlies hraises => ?_
  cases happlies with
  | opening hopening =>
    cases hopening
    exact hraises.not_done (ends_of_ending hm nofun)
  | again hg => cases hg

theorem andThen (hfirst : book.Reports fuel first) (hadvances : (book.parser true fuel first).OnlyAdvances)
    (hsecond : book.Reports fuel second) : book.Reports fuel (.andThen first second) := by
  refine fun c => (hfirst.opening rfl rfl).bind fun m hm => ?_
  exact hsecond.part (.andThen (ends_of_ending hm nofun)) (hadvances c m hm) rfl

theorem before (hfirst : book.Reports fuel first) (hadvances : (book.parser true fuel first).OnlyAdvances)
    (hsecond : book.Reports fuel second) : book.Reports fuel (.before first second) := by
  refine fun c => (hfirst.opening rfl rfl).bind fun m hm => ?_
  exact (hsecond.part (.before (ends_of_ending hm nofun)) (hadvances c m hm) rfl).bind fun _ _ => .done _

theorem separated {left separator right : Grammar} (hleft : book.Reports fuel left)
    (hadvances : (book.parser true fuel left).OnlyAdvances) (hseparator : book.Reports fuel separator)
    (hadvances' : (book.parser true fuel separator).OnlyAdvances) (hright : book.Reports fuel right) :
    book.Reports fuel (.separated left separator right) := by
  refine fun c => .as ?_ _
  refine (hleft.opening rfl rfl).bind fun m hm => ?_
  have hm' := ends_of_ending hm nofun
  refine (hseparator.part (.separator hm') (hadvances c m hm) rfl).bind fun n hn => ?_
  have hrest := (hadvances' m.rest n hn).trans (hadvances c m hm)
  exact (hright.part (.right hm' (ends_of_ending hn nofun)) hrest rfl).bind fun _ _ => .done _

theorem optional (hinner : book.Reports fuel inner) : book.Reports fuel (.optional inner) := by
  refine fun c => .as ?_ _
  exact (hinner.opening rfl rfl).settle_bind (fun _ _ => .done _) fun _ _ => .done _

theorem notFollowedBy (hinner : book.Reports fuel inner) : book.Reports fuel (.notFollowedBy inner) := by
  refine fun c => .as ?_ _
  exact (hinner.opening rfl rfl).settle_bind (fun _ _ => .fail _) fun _ _ => .done _

theorem lookahead (hinner : book.Reports fuel inner) : book.Reports fuel (.lookahead inner) :=
  fun _ => (hinner.opening rfl rfl).bind fun _ _ => .done _

theorem whole (hinner : book.Reports fuel inner) : book.Reports fuel (.whole inner) := by
  refine fun c => (hinner.opening rfl rfl).bind fun m _ => .bind ?_ fun _ _ => .done _
  refine .quiet (Parser.related_endOfInput Attempt.isCongruence_quiet m.rest) fun fault hfault => ?_
  rw [Parser.ending_endOfInput] at hfault
  split at hfault <;> cases hfault

/-- A choice, alternative by alternative. -/
theorem firstOf : ∀ {gs : List Grammar}, (∀ g ∈ gs, book.Reports fuel g) → book.Reports fuel (.firstOf gs)
  | [], _ => fun _ => .fail _
  | g :: gs, h => by
    have hothers : book.Reports fuel (.firstOf gs) := firstOf fun k hk => h k (List.mem_cons_of_mem g hk)
    refine fun c => ((h g List.mem_cons_self).opening rfl rfl).settle_bind (fun _ _ => .done _)
      fun reason hreason => ?_
    exact (hothers c).mono (.refl c) fun _ _ _ hframes => hframes.alternative (ends_of_ending hreason nofun)

/-- A repetition, step by step. What is reported from the second step on is what the repetition would report if it began
there. -/
theorem repeated {goOn : Cursor → Bool} (hg : g.repetition? = some (name, inner))
    (hopening : ∀ c, goOn c = true → g.opening c = some inner) (hinner : book.Reports fuel inner)
    (hadvances : (book.parser true fuel inner).OnlyAdvances) (repetition : String) (budget : Nat) (c : Cursor) :
    (Parser.repeated goOn repetition budget (book.parser true fuel inner) c).Reports c (book.InProgress g c) := by
  induction budget generalizing c with
  | zero => exact .quiet rfl nofun
  | succ budget ih =>
    rw [Parser.repeated_succ]
    split
    · rename_i hgo
      have hpart := hinner.opening (hopening c hgo) (frame_of_repetition hg)
      refine hpart.settle_bind (fun m hm => ?_) fun _ _ => .done _
      have hdone : book.Ends true inner c (.done m) := ends_of_ending hm nofun
      dsimp only
      split
      · -- stuck: the parts have matched, and the fault is one of the repetition itself
        rename_i hlength
        refine .raise ?_
        rw [← frame_of_repetition (c := c) hg]
        exact .innermost fun h d happlies hraises => (happlies.of_repetition hg hdone hraises).1 hlength
      · rename_i hlength
        refine .bind ?_ fun _ _ => .done _
        exact (ih m.rest).mono (hadvances c m hm) fun _ _ _ hframes => hframes.again hg hdone hlength
    · exact .done _

theorem many (hinner : book.Reports fuel inner) (hadvances : (book.parser true fuel inner).OnlyAdvances) :
    book.Reports fuel (.many inner) := by
  refine fun c => .as ?_ _
  rw [Parser.many_eq]
  exact repeated rfl (fun _ _ => rfl) hinner hadvances _ _ c

theorem many1 (hinner : book.Reports fuel inner) (hadvances : (book.parser true fuel inner).OnlyAdvances) :
    book.Reports fuel (.many1 inner) := by
  refine fun c => .as ?_ _
  rw [Parser.many1_eq]
  refine (repeated rfl (fun _ _ => rfl) hinner hadvances _ _ c).bind fun m _ => ?_
  split
  · exact .fail _
  · exact .done m

/-- The scan under both of its names. -/
theorem span_of_repetition (hg : g.repetition? = some (name, inner))
    (hopening : ∀ c, g.opening c = if c.atEnd then none else some inner) (hinner : book.Reports fuel inner)
    (hadvances : (book.parser true fuel inner).OnlyAdvances) (c : Cursor) :
    (Parser.span fuel (book.parser true fuel inner) c).Reports c (book.InProgress g c) := by
  rw [Parser.span_eq]
  split
  · exact .fail _
  · refine (repeated hg (fun d hd => ?_) hinner hadvances _ _ c).bind fun m _ => .done _
    rw [hopening, if_neg (by simpa using hd)]

theorem span (hinner : book.Reports fuel inner) (hadvances : (book.parser true fuel inner).OnlyAdvances) :
    book.Reports fuel (.span inner) :=
  fun c => (span_of_repetition rfl (fun _ => rfl) hinner hadvances c).as _

theorem span1 (hinner : book.Reports fuel inner) (hadvances : (book.parser true fuel inner).OnlyAdvances) :
    book.Reports fuel (.span1 inner) :=
  fun c => (span_of_repetition rfl (fun _ => rfl) hinner hadvances c).nonempty.as _

/-- **A label opens a bracket and closes it.** After a fault it stays open, and it is the outermost one. -/
theorem traced (label : String) (hinner : book.Reports fuel inner)
    (hadvances : (book.parser true fuel inner).OnlyAdvances) : book.Reports fuel (.traced label inner) := by
  intro c
  have hreports := hinner c
  show (Parser.traced true label (book.parser true fuel inner) c).Reports c _
  rcases hp : book.parser true fuel inner c with ⟨m | reason | fault | _, trace⟩
  all_goals rw [hp] at hreports
  · have hrest := hadvances c m (congrArg Attempt.ending hp)
    have hlength := hrest.pos_sub_add_length
    rw [Parser.traced_done label hp hrest]
    exact Bracketed.matched (f := ⟨label, c⟩) (.refl c) (by show _ ≤ c.length; omega) hreports .nil
  · rw [Parser.traced_failed label hp]
    exact Bracketed.failed (f := ⟨label, c⟩) (.refl c) hreports .nil
  · obtain ⟨frames, hframes, htrace⟩ := hreports
    have hraises : book.Raises inner c := ⟨fault, ends_of_ending (congrArg Attempt.ending hp) nofun⟩
    rw [Parser.traced_raised label hp]
    exact ⟨_, .inside (.opening rfl) hraises hframes, .inside (f := ⟨label, c⟩) .nil (.refl c) htrace⟩
  · obtain ⟨frames, htrace⟩ := hreports
    rw [Parser.traced_unfinished label hp]
    exact ⟨_, .inside (f := ⟨label, c⟩) .nil (.refl c) htrace⟩

end Reports

/-- **One layer of combinators reports what it should,** if the rules do. -/
theorem reports_of_rules (hbook : book.IsLibrary) (hrules : ∀ r, book.Reports fuel (.rule r)) (hg : g.IsLibrary) :
    book.Reports fuel g := by
  have hadvances : ∀ {h : Grammar}, h.IsLibrary → (book.parser true fuel h).OnlyAdvances :=
    fun hh => parser_onlyAdvances hbook.over true fuel hh.over
  have hquiet := Attempt.isCongruence_quiet
  induction hg with
  | take count => exact .of_quiet rfl nofun (fun _ => rfl) ((Parser.related_take hquiet count).as hquiet _)
  | byte expected => exact .of_quiet rfl nofun (fun _ => rfl) ((Parser.related_satisfy hquiet _).as hquiet _)
  | literal expected => exact .of_quiet rfl nofun (fun _ => rfl) ((Parser.related_literal hquiet expected).as hquiet _)
  | satisfy test => exact .of_quiet rfl nofun (fun _ => rfl) ((Parser.related_satisfy hquiet test).as hquiet _)
  | upToFirst test | upToLast test =>
    exact .of_quiet rfl nofun (fun _ => rfl) ((Parser.related_splitAt hquiet _).as hquiet _)
  | upToFirst1 test | upToLast1 test =>
    exact .of_quiet rfl nofun (fun _ => rfl) (((Parser.related_splitAt hquiet _).nonempty hquiet).as hquiet _)
  | endOfInput => exact .of_quiet rfl nofun (fun _ => rfl) ((Parser.related_endOfInput hquiet).as hquiet _)
  | moreInput => exact .of_quiet rfl nofun (fun _ => rfl) ((Parser.related_moreInput hquiet).as hquiet _)
  | span h ih => exact ih.span (hadvances h)
  | span1 h ih => exact ih.span1 (hadvances h)
  | map f _ ih => exact ih.map f
  | separated hl hs _ ihl ihs ihr => exact ihl.separated (hadvances hl) ihs (hadvances hs) ihr
  | andThen hf _ ihf ihs => exact ihf.andThen (hadvances hf) ihs
  | before hf _ ihf ihs => exact ihf.before (hadvances hf) ihs
  | optional _ ih => exact ih.optional
  | notFollowedBy _ ih => exact ih.notFollowedBy
  | lookahead _ ih => exact ih.lookahead
  | many1 h ih => exact ih.many1 (hadvances h)
  | many h ih => exact ih.many (hadvances h)
  | firstOf _ ih => exact .firstOf ih
  | whole _ ih => exact ih.whole
  | traced label h ih => exact ih.traced label (hadvances h)
  | rule r => exact hrules r
  | leaf hp => exact hp.elim

/-- Rules report what their definitions report. The induction is on the depth of the calls. -/
theorem reports_rule (hbook : book.IsLibrary) (fuel : Nat) : ∀ r, book.Reports fuel (.rule r) := by
  induction fuel with
  | zero => exact fun r c => .quiet rfl nofun
  | succ fuel ih =>
    intro r c
    show (book.call true (fuel + 1) r c).Reports c _
    cases hfind : book.find? r with
    | none =>
      rw [call_of_none book true hfind]
      refine .raise (.innermost fun h d happlies _ => ?_)
      cases happlies with
      | opening hopening => cases hopening
      | again hg => cases hg
      | definition hfind' =>
        rw [hfind] at hfind'
        cases hfind'
    | some d =>
      rw [call_of_some book true hfind]
      exact (reports_of_rules hbook ih (hbook r d hfind)).part (.definition hfind) (.refl c) rfl

/-- **The trace is bracketed.** With the tracing channel on, an application that gives an outcome reports a bracketed word,
and every application reports the beginning of one. After a fault the brackets that nothing closes are those of the
labelled applications that were in progress. -/
theorem trace_bracketed (hbook : book.IsLibrary) (hg : g.IsLibrary) (fuel : Nat) (c : Cursor) :
    let x := book.parser true fuel g c
    ((∃ m, x.ending = .done m) ∨ (∃ reason, x.ending = .failed reason) → Bracketed c x.trace) ∧
      (∃ word, Bracketed c word ∧ x.trace <+: word) ∧
      ((∃ fault, x.ending = .raised fault) →
        ∃ frames, (∀ frames', book.InProgress g c frames' ↔ frames' = frames) ∧
          Event.unclosed x.trace = frames.map Frame.trying) := by
  intro x
  have hreports : x.Reports c (book.InProgress g c) := reports_of_rules hbook (reports_rule hbook fuel) hg c
  obtain ⟨ending, trace⟩ := x
  refine ⟨?_, ?_, ?_⟩
  · rintro (⟨m, rfl⟩ | ⟨reason, rfl⟩)
    · exact hreports
    · exact hreports
  · obtain ⟨frames, htrace⟩ := hreports.brokenOff
    obtain ⟨closing, hword⟩ := htrace.exists_closing
    exact ⟨trace ++ closing, hword, List.prefix_append trace closing⟩
  · rintro ⟨fault, rfl⟩
    obtain ⟨frames, hframes, htrace⟩ := hreports
    refine ⟨frames, fun frames' => ⟨hframes.unique, ?_⟩, htrace.unclosed_eq⟩
    rintro rfl
    exact hframes

/-- Brackets in a labelled repetition, and a rule without a definition wherever something else follows an opening one.
Seventeen more bytes are behind them, so that every report cuts what it shows. If they follow `()` everything is closed. If
they follow `()(` the second item is in progress when the rule is applied, and the attempt to close its bracket is not: it
has failed before. -/
theorem trace_bracketed_items :
    let book : Rulebook := {}
    let close : Grammar := .firstOf [.traced "close" (.byte 0x29), .traced "unknown" (.rule group)]
    let g : Grammar := .traced "items" (.many (.traced "item" (.andThen (.traced "open" (.byte 0x28)) close)))
    let c := Cursor.ofBytes ⟨#[0x28, 0x29, 1, 2, 3, 4, 5, 6, 7, 8, 9, 10, 11, 12, 13, 14, 15, 16, 17]⟩
    let d := Cursor.ofBytes ⟨#[0x28, 0x29, 0x28, 1, 2, 3, 4, 5, 6, 7, 8, 9, 10, 11, 12, 13, 14, 15, 16, 17]⟩
    let frames : List Frame := [⟨"items", d⟩, ⟨"item", d.skip 2⟩, ⟨"unknown", d.skip 3⟩]
    let opened : List Event :=
      [.trying "items" 0 [0x28, 0x29, 0x28, 1, 2, 3, 4, 5, 6, 7, 8, 9, 10, 11, 12, 13],
        .trying "item" 2 [0x28, 1, 2, 3, 4, 5, 6, 7, 8, 9, 10, 11, 12, 13, 14, 15],
        .trying "unknown" 3 [1, 2, 3, 4, 5, 6, 7, 8, 9, 10, 11, 12, 13, 14, 15, 16]]
    book.IsLibrary ∧ g.IsLibrary ∧
      Bracketed c (book.parser true 4 g c).trace ∧ (book.parser true 4 g c).trace.length = 12 ∧
      (book.parser true 4 g c).trace.head? =
        some (.trying "items" 0 [0x28, 0x29, 1, 2, 3, 4, 5, 6, 7, 8, 9, 10, 11, 12, 13, 14]) ∧
      (book.parser true 4 g c).trace.getLast? =
        some (.matched "items" 2 [1, 2, 3, 4, 5, 6, 7, 8, 9, 10, 11, 12, 13, 14, 15, 16]) ∧
      (book.parser true 4 g d).ending = .raised (.undefinedRule "group") ∧
      (∃ word, Bracketed d word ∧ (book.parser true 4 g d).trace <+: word) ∧
      Event.unclosed (book.parser true 4 g d).trace = opened ∧ frames.map Frame.trying = opened ∧
      ∃ frames', book.InProgress g d frames' ∧ frames'.map Frame.trying = opened := by
  intro book close g c d frames opened
  have hbook : book.IsLibrary := nofun
  have hclose : close.IsLibrary :=
    .firstOf (List.forall_mem_cons.2 ⟨.traced "close" (.byte _), List.forall_mem_singleton.2 (.traced "unknown" (.rule _))⟩)
  have hg : g.IsLibrary := .traced "items" (.many (.traced "item" (.andThen (.traced "open" (.byte _)) hclose)))
  have hmatched : ∃ m, (book.parser true 4 g c).ending = .done m := by decide +kernel
  have hraised : (book.parser true 4 g d).ending = .raised (.undefinedRule "group") := by decide +kernel
  have hopened : Event.unclosed (book.parser true 4 g d).trace = opened := by decide +kernel
  have houtcome := (trace_bracketed hbook hg 4 c).1 (Or.inl hmatched)
  obtain ⟨-, hprefix, hopen⟩ := trace_bracketed hbook hg 4 d
  obtain ⟨frames', hframes', hunclosed⟩ := hopen ⟨_, hraised⟩
  exact ⟨hbook, hg, houtcome, by decide +kernel, by decide +kernel, by decide +kernel, hraised, hprefix, hopened,
    by decide +kernel, frames', (hframes' frames').2 rfl, hunclosed.symm.trans hopened⟩

end Rulebook

end Bytewise
