/-
# Bytewise.Proofs.Transparency — a label only adds its own lines.

`Grammar.unlabel` takes one label out of a grammar and `Rulebook.unlabel` out of all definitions. The grammar with the
label and the one without are run side by side: after every attempt of the one stands an attempt of the other, and the
two are compared by a congruence. Which congruence depends on what is asked. Endings are the same under any two settings
of the channels; with the channels set alike the tracing log of the second run is that of the first without the lines
of the label; and with the tracing channel off there are no lines at all.

The induction over the grammar is done once (`Grammar.related_unlabel`), for every congruence that allows for the label
to be missing in the second run (`Parser.TakesOut`).
-/
import Bytewise.Parser.Entry
import Bytewise.Proofs.Congruence
import Bytewise.Proofs.Fuel

namespace Bytewise

/-! ## Taking a label out -/

namespace Grammar

mutual

/-- **`unlabel label g`** — `g`, where every parser that is traced under `label` stands there by itself. -/
def unlabel (label : String) : Grammar → Grammar
  | .take count => .take count
  | .byte expected => .byte expected
  | .literal expected => .literal expected
  | .satisfy test => .satisfy test
  | .upToFirst test => .upToFirst test
  | .upToFirst1 test => .upToFirst1 test
  | .upToLast test => .upToLast test
  | .upToLast1 test => .upToLast1 test
  | .span inner => .span (inner.unlabel label)
  | .span1 inner => .span1 (inner.unlabel label)
  | .map f inner => .map f (inner.unlabel label)
  | .separated left separator right =>
    .separated (left.unlabel label) (separator.unlabel label) (right.unlabel label)
  | .andThen first second => .andThen (first.unlabel label) (second.unlabel label)
  | .before first second => .before (first.unlabel label) (second.unlabel label)
  | .optional inner => .optional (inner.unlabel label)
  | .notFollowedBy inner => .notFollowedBy (inner.unlabel label)
  | .lookahead inner => .lookahead (inner.unlabel label)
  | .many1 inner => .many1 (inner.unlabel label)
  | .many inner => .many (inner.unlabel label)
  | .firstOf alternatives => .firstOf (unlabelAll label alternatives)
  | .endOfInput => .endOfInput
  | .moreInput => .moreInput
  | .whole inner => .whole (inner.unlabel label)
  | .traced l inner => if l = label then inner.unlabel label else .traced l (inner.unlabel label)
  | .rule r => .rule r
  | .leaf p => .leaf p
  | .within count inner => .within count (inner.unlabel label)

/-- The grammars without the label, in order. -/
def unlabelAll (label : String) : List Grammar → List Grammar
  | [] => []
  | g :: gs => g.unlabel label :: unlabelAll label gs

end

theorem unlabelAll_eq_map (label : String) (gs : List Grammar) : unlabelAll label gs = gs.map (unlabel label) := by
  induction gs with
  | nil => rw [unlabelAll, List.map_nil]
  | cons g gs ih => rw [unlabelAll, ih, List.map_cons]

end Grammar

/-- **`unlabel label book`** — the same rules, with the label taken out of every definition. -/
def Rulebook.unlabel (label : String) (book : Rulebook) : Rulebook :=
  { book with definitions := book.definitions.map fun d => (d.1, d.2.unlabel label) }

theorem Rulebook.find?_unlabel (label : String) (book : Rulebook) (r : Rule) :
    (book.unlabel label).find? r = (book.find? r).map (Grammar.unlabel label) := by
  unfold Rulebook.find? Rulebook.unlabel
  dsimp only
  induction book.definitions with
  | nil => rfl
  | cons d ds ih =>
    rw [List.map_cons, List.lookup_cons, List.lookup_cons, ih]
    cases r == d.1 <;> rfl

/-! ## Running both side by side -/

/-- **`TakesOut R label tracing tracing'`** — `R` allows for the label to be missing in the second run, and for all others
to be in both, with these settings of the tracing channel. -/
def Parser.TakesOut (R : (α : Type) → Attempt α → Attempt α → Prop) (label : String) (tracing tracing' : Bool) : Prop :=
  ∀ (l : String) (p q : Parser Value), Parser.Related R p q →
    Parser.Related R (Parser.traced tracing l p) (if l = label then q else Parser.traced tracing' l q)

variable {R : (α : Type) → Attempt α → Attempt α → Prop} {label : String}

/-- **One layer of combinators with the label and without.** -/
theorem Grammar.related_unlabel {σ τ : Setting} (hR : Attempt.IsCongruence R)
    (hlabel : Parser.TakesOut R label σ.tracing τ.tracing) (hbudget : σ.budget = τ.budget)
    (hcall : ∀ r, Parser.Related R (σ.call r) (τ.call r)) {g : Grammar} (hg : g.IsLibrary) :
    Parser.Related R (g.parser σ) ((g.unlabel label).parser τ) := by
  have hsame : Attempt.Outlasts R σ.budget τ.budget := hbudget ▸ .refl σ.budget
  induction hg with
  | take count => exact (Parser.related_take hR count).as hR _
  | byte expected => exact (Parser.related_satisfy hR _).as hR _
  | literal expected => exact (Parser.related_literal hR expected).as hR _
  | satisfy test => exact (Parser.related_satisfy hR test).as hR _
  | upToFirst test | upToLast test => exact (Parser.related_splitAt hR _).as hR _
  | upToFirst1 test | upToLast1 test => exact ((Parser.related_splitAt hR _).nonempty hR).as hR _
  | span _ ih => exact (ih.span hR hsame).as hR _
  | span1 _ ih => exact ((ih.span hR hsame).nonempty hR).as hR _
  | map f _ ih => exact ih.map hR f
  | separated _ _ _ ihl ihs ihr => exact (ihl.separated hR ihs ihr).as hR _
  | andThen _ _ ihf ihs => exact ihf.andThen hR ihs
  | before _ _ ihf ihs => exact ihf.before hR ihs
  | optional _ ih => exact (ih.optional hR).as hR _
  | notFollowedBy _ ih => exact (ih.notFollowedBy hR).as hR _
  | lookahead _ ih => exact ih.lookahead hR
  | many1 _ ih => exact (ih.many1 hR hsame).as hR _
  | many _ ih => exact (ih.many hR hsame).as hR _
  | firstOf _ ih =>
    rw [unlabel, unlabelAll_eq_map, parser, parser, parsers_eq_map, parsers_eq_map, List.map_map]
    exact .firstOf hR _ _ _ ih
  | endOfInput => exact (Parser.related_endOfInput hR).as hR _
  | moreInput => exact (Parser.related_moreInput hR).as hR _
  | whole _ ih => exact ih.whole hR
  | traced l _ ih =>
    have hboth := hlabel l _ _ ih
    rw [unlabel]
    split at hboth <;> rename_i hl
    · rw [if_pos hl]
      exact hboth
    · rw [if_neg hl]
      exact hboth
  | rule r => exact hcall r
  | leaf hp => exact hp.elim

namespace Rulebook

variable {tracing tracing' : Bool} {book : Rulebook}

/-- A grammar over rules that are related already. -/
theorem parser_related_of_call (hR : Attempt.IsCongruence R) (hlabel : Parser.TakesOut R label tracing tracing') {fuel : Nat}
    (hcall : ∀ r, Parser.Related R (book.call tracing fuel r) ((book.unlabel label).call tracing' fuel r))
    {g : Grammar} (hg : g.IsLibrary) :
    Parser.Related R (book.parser tracing fuel g) ((book.unlabel label).parser tracing' fuel (g.unlabel label)) := by
  unfold Rulebook.parser
  apply Grammar.related_unlabel hR
  · exact hlabel
  · rfl
  · exact hcall
  · exact hg

/-- Calls with the label and without. The induction is on their depth, because a definition may use any rule. -/
theorem call_related_unlabel (hR : Attempt.IsCongruence R) (hlabel : Parser.TakesOut R label tracing tracing')
    (hbook : book.IsLibrary) (depth : Nat) :
    ∀ r, Parser.Related R (book.call tracing depth r) ((book.unlabel label).call tracing' depth r) := by
  induction depth with
  | zero => exact fun r c => hR.quiet rfl
  | succ depth ih =>
    intro r
    have hfind := find?_unlabel label book r
    cases h : book.find? r with
    | none =>
      rw [h, Option.map_none] at hfind
      rw [call_of_none book tracing h, call_of_none _ tracing' hfind]
      exact fun c => hR.quiet rfl
    | some d =>
      rw [h, Option.map_some] at hfind
      rw [call_of_some book tracing h, call_of_some _ tracing' hfind]
      exact parser_related_of_call hR hlabel ih (hbook r d h)

/-- **With the label and without, every application is related,** recursive rules included. -/
theorem parser_related_unlabel (hR : Attempt.IsCongruence R) (hlabel : Parser.TakesOut R label tracing tracing')
    (hbook : book.IsLibrary) (fuel : Nat) {g : Grammar} (hg : g.IsLibrary) :
    Parser.Related R (book.parser tracing fuel g) ((book.unlabel label).parser tracing' fuel (g.unlabel label)) :=
  parser_related_of_call hR hlabel (call_related_unlabel hR hlabel hbook fuel) hg

end Rulebook

/-! ## The three comparisons -/

/-- The lines of one label are dropped together, or are all kept. -/
theorem Event.filter_label {l : String} (label : String) {events : List Event}
    (h : ∀ event ∈ events, event.label? = some l) :
    (events.filter fun event => event.label? ≠ some label) = if l = label then [] else events := by
  split
  · rename_i hl
    rw [List.filter_eq_nil_iff]
    intro event hmem
    simp [h event hmem, hl]
  · rename_i hl
    rw [List.filter_eq_self]
    intro event hmem
    simp [h event hmem, hl]

namespace Attempt

variable {α : Type}

/-- **`x.tracingLog`** — what an attempt reports on the tracing channel. -/
def tracingLog (x : Attempt α) : List Event :=
  x.trace.filter fun event => event.channel = .tracing

/-- **`x.SameEnding y`** — both end alike, whatever they report. -/
def SameEnding (x y : Attempt α) : Prop :=
  y.ending = x.ending

/-- **`x.Unlabels label y`** — `y` ends as `x` does and has its tracing log, except for the lines of the label. -/
structure Unlabels (label : String) (x y : Attempt α) : Prop where
  ending_eq : y.ending = x.ending
  tracingLog_eq : y.tracingLog = x.tracingLog.filter fun event => event.label? ≠ some label

theorem isCongruence_sameEnding : IsCongruence fun _ => SameEnding where
  quiet _ := rfl
  bind {α β x y f g} hx hf := by
    show (y.bind g).ending = (x.bind f).ending
    rw [ending_bind, ending_bind, hx]
    congr 1
    funext a
    exact hf a
  settle {α x y} hx := by
    obtain ⟨e, trace⟩ := x
    obtain ⟨e', trace'⟩ := y
    obtain rfl : e' = e := hx
    cases e' <;> rfl

theorem isCongruence_unlabels (label : String) : IsCongruence fun _ => Unlabels label where
  quiet {α x} h := by
    refine ⟨rfl, ?_⟩
    rw [tracingLog, h]
    rfl
  bind {α β x y f g} hx hf := by
    obtain ⟨e, trace⟩ := x
    obtain ⟨e', trace'⟩ := y
    obtain ⟨rfl, hlog⟩ := hx
    cases e' with
    | done a =>
      -- both logs go on after the first part
      refine ⟨(hf a).ending_eq, ?_⟩
      have hnext := (hf a).tracingLog_eq
      simp only [Attempt.bind, tracingLog, List.filter_append] at hlog hnext ⊢
      rw [hlog, hnext]
    | failed | raised | unfinished => exact ⟨rfl, hlog⟩
  settle {α x y} hx := by
    obtain ⟨e, trace⟩ := x
    obtain ⟨e', trace'⟩ := y
    obtain ⟨rfl, hlog⟩ := hx
    cases e' <;> exact ⟨rfl, hlog⟩

/-- Of the two attempts only the first one is looked at: it reports nothing on the tracing channel. -/
theorem isCongruence_silent : IsCongruence fun _ x _ => x.tracingLog = [] := by
  have hiff : ∀ {α : Type} (x : Attempt α), x.tracingLog = [] ↔ x.ReportsOnly fun event => ¬ event.channel = .tracing := by
    intro α x
    unfold tracingLog ReportsOnly
    rw [List.filter_eq_nil_iff]
    simp only [decide_eq_true_eq]
  simp only [hiff]
  exact isCongruence_reportsOnly _

end Attempt

namespace Parser

variable {α : Type}

/-- **The lines of a label stand around those of its parser.** -/
theorem tracingLog_traced (on : Bool) (label : String) (p : Parser α) (c : Cursor) :
    ∃ before after, (traced on label p c).tracingLog = before ++ (p c).tracingLog ++ after ∧
      (∀ event ∈ before, event.label? = some label) ∧ ∀ event ∈ after, event.label? = some label := by
  cases on with
  | false => exact ⟨[], [], by simp [traced], nofun, nofun⟩
  | true =>
    have hunfold : traced true label p c = _ := if_pos rfl
    let before : List Event := [.trying label c.pos (c.sliceAhead Event.previewLength)]
    have hbefore : ∀ event ∈ before, event.label? = some label := List.forall_mem_singleton.2 rfl
    rcases h : p c with ⟨m | reason | fault | _, trace⟩
    · let after : List Event :=
        [.matched label (c.length - m.rest.length) (m.rest.sliceAhead Event.previewLength)]
      refine ⟨before, after, ?_, hbefore, List.forall_mem_singleton.2 rfl⟩
      rw [hunfold, h]
      simp [Attempt.tracingLog, before, after, Attempt.bind, Attempt.settle, Attempt.emit, Attempt.done, Event.channel]
    · let after : List Event := [.failed label c.pos reason]
      refine ⟨before, after, ?_, hbefore, List.forall_mem_singleton.2 rfl⟩
      rw [hunfold, h]
      simp [Attempt.tracingLog, before, after, Attempt.bind, Attempt.settle, Attempt.emit, Attempt.fail, Event.channel]
    all_goals
      refine ⟨before, [], ?_, hbefore, nofun⟩
      rw [hunfold, h]
      simp [Attempt.tracingLog, before, Attempt.bind, Attempt.settle, Attempt.emit, Event.channel]

theorem takesOut_sameEnding (label : String) (tracing tracing' : Bool) :
    TakesOut (fun _ => Attempt.SameEnding) label tracing tracing' := by
  intro l p q h c
  have hq : (q c).ending = (p c).ending := h c
  unfold Attempt.SameEnding
  split
  · rw [hq, ending_traced]
  · rw [ending_traced, ending_traced, hq]

theorem takesOut_unlabels (label : String) (tracing : Bool) :
    TakesOut (fun _ => Attempt.Unlabels label) label tracing tracing := by
  intro l p q h
  split
  · rename_i hl
    intro c
    refine ⟨by rw [ending_traced]; exact (h c).ending_eq, ?_⟩
    -- what stands around the lines of the parser itself is dropped
    obtain ⟨before, after, hlog, hbefore, hafter⟩ := tracingLog_traced tracing l p c
    rw [(h c).tracingLog_eq, hlog, List.filter_append, List.filter_append, Event.filter_label label hbefore,
      Event.filter_label label hafter, if_pos hl, if_pos hl, List.nil_append, List.append_nil]
  · rename_i hl
    refine h.traced (Attempt.isCongruence_unlabels label) tracing l fun _ event hevent => ⟨rfl, ?_⟩
    -- a line of another label is kept
    have hlog : ∀ line ∈ (Attempt.emit event).tracingLog, line.label? = some l := by
      intro line hline
      obtain rfl := List.mem_singleton.1 (List.mem_filter.1 hline).1
      exact hevent
    rw [Event.filter_label label hlog, if_neg hl]

theorem takesOut_silent (label : String) (tracing' : Bool) :
    TakesOut (fun _ x _ => x.tracingLog = []) label false tracing' :=
  fun _ _ _ h c => h c

end Parser

/-! ## Entry points -/

namespace Rulebook

/-- How a caller applies a grammar. -/
inductive Entry where
  /-- Directly. -/
  | apply
  /-- To a window of allowed size, and with a report on the core channel if that fails. -/
  | run (limit : Option Int)

/-- **`enter book levels fuel g entry`** — the parser that a caller applies, with these channels on. -/
def enter (book : Rulebook) (levels : Levels) (fuel : Nat) (g : Grammar) : Entry → Parser Value
  | .apply => book.parser levels.tracing fuel g
  | .run limit => Parser.run levels limit (book.parser levels.tracing fuel g)

end Rulebook

/-- The entry point keeps a congruence that takes no notice of the core channel. -/
theorem Parser.Related.run (hR : Attempt.IsCongruence R) {levels levels' : Levels} (limit : Option Int)
    {α : Type} {p q : Parser α} (hp : Parser.Related R p q)
    (hreport : ∀ event : Event, event.channel = .core → R Unit (.note levels.core event) (.note levels'.core event)) :
    Parser.Related R (Parser.run levels limit p) (Parser.run levels' limit q) := by
  refine fun c => hR.bind (hR.ofExcept _) fun _ => hR.settle_bind (hp c) (fun m => hR.done m) fun reason => ?_
  exact hR.bind (hreport _ rfl) fun _ => hR.fail reason

namespace Attempt

theorem ending_note (on : Bool) (event : Event) : (note on event).ending = .done () := by
  cases on <;> rfl

theorem tracingLog_note {event : Event} (h : event.channel = .core) (on : Bool) : (note on event).tracingLog = [] := by
  cases on with
  | false => rfl
  | true =>
    show [event].filter _ = []
    rw [List.filter_eq_nil_iff]
    intro line hline
    obtain rfl := List.mem_singleton.1 hline
    simp [h]

end Attempt

namespace Rulebook

variable {tracing tracing' : Bool} {book : Rulebook} {g : Grammar}

theorem enter_related_unlabel (hR : Attempt.IsCongruence R) {levels levels' : Levels}
    (hlabel : Parser.TakesOut R label levels.tracing levels'.tracing)
    (hreport : ∀ event : Event, event.channel = .core → R Unit (.note levels.core event) (.note levels'.core event))
    (hbook : book.IsLibrary) (fuel : Nat) (hg : g.IsLibrary) (entry : Entry) :
    Parser.Related R (book.enter levels fuel g entry)
      ((book.unlabel label).enter levels' fuel (g.unlabel label) entry) := by
  have hp := parser_related_unlabel hR hlabel hbook fuel hg
  cases entry with
  | apply => exact hp
  | run limit => exact hp.run hR limit hreport

/-- **Tracing is transparent.** Taking a label out changes nothing but the lines of that label: under any two settings of
the channels every application ends in the same way, and where the tracing channel is set alike its log loses the lines
of the label and keeps all others, in their order. While the tracing channel is off, its log is empty. -/
theorem unlabel_transparent (hbook : book.IsLibrary) (hg : g.IsLibrary) (label : String) (levels levels' : Levels)
    (entry : Entry) (fuel : Nat) (c : Cursor) :
    let x := book.enter levels fuel g entry c
    let y := (book.unlabel label).enter levels' fuel (g.unlabel label) entry c
    y.ending = x.ending ∧
      (levels'.tracing = levels.tracing → y.tracingLog = x.tracingLog.filter fun event => event.label? ≠ some label) ∧
      (levels.tracing = false → x.tracingLog = []) := by
  intro x y
  refine ⟨?_, fun hlevels => ?_, fun hoff => ?_⟩
  · have hlabel := Parser.takesOut_sameEnding label levels.tracing levels'.tracing
    refine enter_related_unlabel Attempt.isCongruence_sameEnding hlabel (fun event _ => ?_) hbook fuel hg entry c
    show Attempt.ending _ = Attempt.ending _
    rw [Attempt.ending_note, Attempt.ending_note]
  · have hlabel : Parser.TakesOut (fun _ => Attempt.Unlabels label) label levels.tracing levels'.tracing := by
      rw [hlevels]
      exact Parser.takesOut_unlabels label levels.tracing
    have hboth : x.Unlabels label y := by
      refine enter_related_unlabel (Attempt.isCongruence_unlabels label) hlabel (fun event hcore => ⟨?_, ?_⟩) hbook fuel
        hg entry c
      · rw [Attempt.ending_note, Attempt.ending_note]
      · rw [Attempt.tracingLog_note hcore, Attempt.tracingLog_note hcore, List.filter_nil]
    exact hboth.tracingLog_eq
  · -- the second run is not looked at, so it may have the same settings
    have hlabel : Parser.TakesOut (fun _ x _ => x.tracingLog = []) label levels.tracing levels.tracing := by
      rw [hoff]
      exact Parser.takesOut_silent label false
    have hsilent : Parser.Related (fun _ x _ => x.tracingLog = []) (book.enter levels fuel g entry)
        ((book.unlabel label).enter levels fuel (g.unlabel label) entry) :=
      enter_related_unlabel Attempt.isCongruence_silent hlabel (fun event hcore => Attempt.tracingLog_note hcore _) hbook
        fuel hg entry
    exact hsilent c

/-- `parens` with a label on every group and another one on what stands in a group. -/
def labelled : Rulebook where
  next := 1
  definitions :=
    [(group, .traced "group"
      (.andThen (.byte 0x28) (.before (.optional (.traced "inside" (.rule group))) (.byte 0x29))))]

/-- On nested brackets three groups are tried and two are found, which makes six lines. Inside stands one that is
found and one that is not: their four lines stay. -/
theorem unlabel_transparent_labelled :
    let g : Grammar := .rule group
    let on : Levels := ⟨false, true⟩
    let off : Levels := ⟨true, false⟩
    let x := labelled.enter on 4 g .apply nested
    let y := (labelled.unlabel "group").enter on 4 (g.unlabel "group") .apply nested
    labelled.IsLibrary ∧ g.IsLibrary ∧ x.tracingLog.length = 10 ∧ y.tracingLog.length = 4 ∧
      (∃ m, x.ending = .done m) ∧ y.ending = x.ending ∧
      y.tracingLog = (x.tracingLog.filter fun event => event.label? ≠ some "group") ∧
      (labelled.enter off 4 g .apply nested).tracingLog = [] := by
  intro g on off x y
  have hbook : labelled.IsLibrary := by
    refine over_of_forall_mem fun d hd => ?_
    obtain rfl := List.mem_singleton.1 hd
    exact .traced "group" (.andThen (.byte _) (.before (.optional (.traced "inside" (.rule _))) (.byte _)))
  have hg : g.IsLibrary := .rule group
  have hon := unlabel_transparent hbook hg "group" on on .apply 4 nested
  have hoff := unlabel_transparent hbook hg "group" off on .apply 4 nested
  exact ⟨hbook, hg, by decide +kernel, by decide +kernel, by decide +kernel, hon.1, hon.2.1 rfl, hoff.2.2 rfl⟩

end Rulebook

end Bytewise
