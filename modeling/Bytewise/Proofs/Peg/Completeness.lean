/-
# Bytewise.Proofs.Peg.Completeness — what can be derived a parser answers.

A derivation is followed rule by rule. For each rule there is a lemma that says the same of applications
(`Answers`): given enough fuel, the parser reaches the verdict from every cursor with these bytes in its window.
With soundness this makes the reference semantics and the parsers agree (`Rulebook.ends_iff_derives`).
-/
import Bytewise.Proofs.Fuel
import Bytewise.Proofs.Peg.Soundness

namespace Bytewise

namespace Rulebook

variable {book : Rulebook} {tracing : Bool}

/-! ## Answers -/

/-- **`book.Returns tracing g c d`** — applied to `c`, `g` ends with the verdict `d`, and a match leaves a rest of
`c`. -/
def Returns (book : Rulebook) (tracing : Bool) (g : Grammar) (c : Cursor) : Verdict → Prop
  | .ok value rest =>
    ∃ m, book.Ends tracing g c (.done m) ∧ m.rest.IsRestOf c ∧ m.value = value ∧ m.rest.window = rest
  | .fail reason => book.Ends tracing g c (.failed reason)

/-- **`book.Answers tracing g w d`** — on every cursor with the window `w`, `g` returns `d`. -/
def Answers (book : Rulebook) (tracing : Bool) (g : Grammar) (w : List UInt8) (d : Verdict) : Prop :=
  ∀ c : Cursor, c.window = w → book.Returns tracing g c d

/-- What ends like another application further on returns the same. -/
theorem Returns.imp {g g' : Grammar} {c c' : Cursor} {d : Verdict} (h : book.Returns tracing g' c' d)
    (hrest : c'.IsRestOf c) (himp : ∀ e, book.Ends tracing g' c' e → book.Ends tracing g c e) :
    book.Returns tracing g c d := by
  cases d with
  | ok value rest =>
    obtain ⟨m, hm, hrest', hv, hw⟩ := h
    exact ⟨m, himp _ hm, hrest'.trans hrest, hv, hw⟩
  | fail reason => exact himp _ h

/-- An application that returns a verdict ends, and not with a fault. -/
theorem Returns.exists_ends {g : Grammar} {c : Cursor} {d : Verdict} (h : book.Returns tracing g c d) :
    ∃ e, book.Ends tracing g c e ∧ ∀ fault, e ≠ .raised fault := by
  cases d with
  | ok value rest =>
    obtain ⟨m, hm, -⟩ := h
    exact ⟨_, hm, nofun⟩
  | fail reason => exact ⟨_, h, nofun⟩

/-- A terminal returns what it ends with in any setting. -/
theorem returns_of_skip {g : Grammar} {c : Cursor} {front rest : List UInt8} {value : Value}
    (hc : c.window = front ++ rest)
    (h : ∀ σ, (g.parser σ c).ending = .done ⟨value, c.skip front.length⟩) :
    book.Returns tracing g c (.ok value rest) := by
  refine ⟨_, ends_of_ending (h (book.setting tracing 0)) nofun, c.isRestOf_skip _, rfl, ?_⟩
  show (c.skip front.length).window = rest
  rw [Cursor.window_skip, hc, List.drop_left]

theorem returns_of_failed {g : Grammar} {c : Cursor} {reason : Reason}
    (h : ∀ σ, (g.parser σ c).ending = .failed reason) : book.Returns tracing g c (.fail reason) :=
  ends_of_ending (h (book.setting tracing 0)) nofun

/-! ## Terminals -/

section

variable {w front rest expected : List UInt8} {b : UInt8} {test : Predicate}

theorem answers_take {count : Nat} (hcount : count ≠ 0) (hw : w = front ++ rest) (hfront : front.length = count) :
    book.Answers tracing (.take count) w (.ok (.bytes front) rest) := by
  intro c hc
  subst hw hfront
  have hlen : ¬ c.length < front.length := by
    rw [← Cursor.length_window, hc, List.length_append]
    omega
  refine returns_of_skip hc fun σ => ?_
  rw [Grammar.ending_take, if_neg hcount, if_neg hlen, hc, List.take_left]

theorem answers_take_zero : book.Answers tracing (.take 0) w (.fail .takeZero) :=
  fun c _ => returns_of_failed fun σ => by rw [Grammar.ending_take, if_pos rfl]

theorem answers_take_short {count : Nat} (hlen : w.length < count) :
    book.Answers tracing (.take count) w (.fail .takeNotEnough) := by
  intro c hc
  subst hc
  rw [Cursor.length_window] at hlen
  refine returns_of_failed fun σ => ?_
  rw [Grammar.ending_take, if_neg (by omega), if_pos hlen]

theorem answers_satisfy (hb : test b = .ok true) :
    book.Answers tracing (.satisfy test) (b :: rest) (.ok (.ofByte b) rest) := by
  intro c hc
  refine returns_of_skip (hc.trans List.singleton_append.symm) fun σ => ?_
  rw [Grammar.ending_satisfy, hc]
  dsimp only
  rw [hb]
  rfl

theorem answers_satisfy_other (hb : test b = .ok false) :
    book.Answers tracing (.satisfy test) (b :: rest) (.fail .wrongByte) := by
  intro c hc
  refine returns_of_failed fun σ => ?_
  rw [Grammar.ending_satisfy, hc]
  dsimp only
  rw [hb]

theorem answers_satisfy_empty : book.Answers tracing (.satisfy test) [] (.fail .emptyInput) :=
  fun c hc => returns_of_failed fun σ => by rw [Grammar.ending_satisfy, hc]

/-- A byte answers as the comparison with it does. -/
theorem answers_byte_of_satisfy {d : Verdict}
    (h : book.Answers tracing (.satisfy fun x => .ok (x == b)) w d) : book.Answers tracing (.byte b) w d :=
  fun c hc => (h c hc).imp (.refl c) fun _ he => he

theorem answers_literal (hne : w ≠ []) (hw : w = expected ++ rest) :
    book.Answers tracing (.literal expected) w (.ok (.bytes expected) rest) := by
  intro c hc
  subst hw
  have hlen : ¬ c.length < expected.length := by
    rw [← Cursor.length_window, hc, List.length_append]
    omega
  have hstarts : c.startsWith expected = true := (c.startsWith_iff expected).2 ⟨rest, hc.symm⟩
  refine returns_of_skip hc fun σ => ?_
  rw [Grammar.ending_literal, if_neg (hc ▸ hne), if_neg hlen, if_pos hstarts]

theorem answers_literal_empty : book.Answers tracing (.literal expected) [] (.fail .emptyInput) :=
  fun c hc => returns_of_failed fun σ => by rw [Grammar.ending_literal, if_pos hc]

theorem answers_literal_short (hne : w ≠ []) (hlen : w.length < expected.length) :
    book.Answers tracing (.literal expected) w (.fail .notEnoughBytes) := by
  intro c hc
  subst hc
  rw [Cursor.length_window] at hlen
  refine returns_of_failed fun σ => ?_
  rw [Grammar.ending_literal, if_neg hne, if_pos hlen]

theorem answers_literal_other (hne : w ≠ []) (hlen : expected.length ≤ w.length) (hother : ¬ expected <+: w) :
    book.Answers tracing (.literal expected) w (.fail .wrongBytes) := by
  intro c hc
  subst hc
  rw [Cursor.length_window] at hlen
  refine returns_of_failed fun σ => ?_
  rw [Grammar.ending_literal, if_neg hne, if_neg (Nat.not_lt.2 hlen),
    if_neg fun hstarts => hother ((c.startsWith_iff expected).1 hstarts)]

theorem answers_endOfInput : book.Answers tracing .endOfInput [] (.ok .none []) := by
  intro c hc
  have hend : (book.parser tracing 0 .endOfInput c).ending = .done ⟨.none, c⟩ := by
    rw [parser_eq, Grammar.ending_endOfInput, if_pos (c.atEnd_iff.2 hc)]
  exact ⟨_, ends_of_ending hend nofun, .refl c, rfl, hc⟩

theorem answers_endOfInput_more : book.Answers tracing .endOfInput (b :: rest) (.fail .notEmpty) := by
  intro c hc
  refine returns_of_failed fun σ => ?_
  rw [Grammar.ending_endOfInput, if_neg fun hend => List.cons_ne_nil b rest (hc ▸ c.atEnd_iff.1 hend)]

theorem answers_moreInput : book.Answers tracing .moreInput (b :: rest) (.ok .none (b :: rest)) := by
  intro c hc
  have hmore : (book.parser tracing 0 .moreInput c).ending = .done ⟨.none, c⟩ := by
    rw [parser_eq, Grammar.ending_moreInput,
      if_neg fun hend => List.cons_ne_nil b rest (hc ▸ c.atEnd_iff.1 hend)]
  exact ⟨_, ends_of_ending hmore nofun, .refl c, rfl, hc⟩

theorem answers_moreInput_empty : book.Answers tracing .moreInput [] (.fail .parserSucceeded) := by
  intro c hc
  refine returns_of_failed fun σ => ?_
  rw [Grammar.ending_moreInput, if_pos (c.atEnd_iff.2 hc)]

/-! ## Scans -/

/-- A scan that finds a byte skips what stands before it. -/
theorem answers_upToFirst (hw : w = front ++ b :: rest) (hfront : ∀ x ∈ front, test x = .ok false)
    (hb : test b = .ok true) :
    book.Answers tracing (.upToFirst test) w (.ok (.bytes front) (b :: rest)) := by
  intro c hc
  have hsplit : c.window = front ++ b :: rest := hc.trans hw
  have hfound : firstIndex test c.window = .ok (some front.length) :=
    firstIndex_eq_some_iff.2 ⟨front, b, rest, hsplit, rfl, hfront, hb⟩
  refine returns_of_skip hsplit fun σ => ?_
  rw [Grammar.ending_upToFirst, hfound]
  dsimp only
  rw [Option.getD_some, hsplit, List.take_left]

theorem answers_upToFirst_all (h : ∀ x ∈ w, test x = .ok false) :
    book.Answers tracing (.upToFirst test) w (.ok (.bytes w) []) := by
  intro c hc
  subst hc
  refine returns_of_skip (List.append_nil _).symm fun σ => ?_
  rw [Grammar.ending_upToFirst, firstIndex_eq_none_iff.2 h]
  dsimp only
  rw [Option.getD_none, ← Cursor.length_window, List.take_length]

theorem answers_upToLast (hw : w = front ++ b :: rest) (hb : test b = .ok true)
    (hrest : ∀ x ∈ rest, test x = .ok false) :
    book.Answers tracing (.upToLast test) w (.ok (.bytes front) (b :: rest)) := by
  intro c hc
  have hsplit : c.window = front ++ b :: rest := hc.trans hw
  have hfound : lastIndex test c.window = .ok (some front.length) :=
    lastIndex_eq_some_iff.2 ⟨front, b, rest, hsplit, rfl, hb, hrest⟩
  refine returns_of_skip hsplit fun σ => ?_
  rw [Grammar.ending_upToLast, hfound]
  dsimp only
  rw [Option.getD_some, hsplit, List.take_left]

theorem answers_upToLast_all (h : ∀ x ∈ w, test x = .ok false) :
    book.Answers tracing (.upToLast test) w (.ok (.bytes w) []) := by
  intro c hc
  subst hc
  refine returns_of_skip (List.append_nil _).symm fun σ => ?_
  rw [Grammar.ending_upToLast, lastIndex_eq_none_iff.2 h]
  dsimp only
  rw [Option.getD_none, ← Cursor.length_window, List.take_length]

end

/-! ## Scans that have to take something -/

section

variable {plain refusing : Grammar} {w front rest : List UInt8}
  (heq : ∀ σ c, (refusing.parser σ c).ending = (plain.parser σ c).ending.resume Match.refuseEmpty .failed)

include heq

theorem answers_something (h : book.Answers tracing plain w (.ok (.bytes front) rest)) (hfront : front ≠ []) :
    book.Answers tracing refusing w (.ok (.bytes front) rest) := by
  intro c hc
  obtain ⟨m, hm, hrest, hv, hw⟩ := h c hc
  have hkeep : m.refuseEmpty = .done m := by
    obtain ⟨b, bs, rfl⟩ := List.exists_cons_of_ne_nil hfront
    unfold Match.refuseEmpty
    rw [hv]
  refine ⟨m, .of_eq (fun fuel => heq (book.setting tracing fuel) c) (.resume_done hm ?_), hrest, hv, hw⟩
  rw [hkeep]
  exact .const nofun

theorem answers_nothing (h : book.Answers tracing plain w (.ok (.bytes []) rest)) :
    book.Answers tracing refusing w (.fail .nothingConsumed) := by
  intro c hc
  obtain ⟨m, hm, -, hv, -⟩ := h c hc
  have hrefuse : m.refuseEmpty = .failed .nothingConsumed := by
    unfold Match.refuseEmpty
    rw [hv]
  refine .of_eq (fun fuel => heq (book.setting tracing fuel) c) (.resume_done hm ?_)
  rw [hrefuse]
  exact .const nofun

theorem answers_refusing_fail {reason : Reason} (h : book.Answers tracing plain w (.fail reason)) :
    book.Answers tracing refusing w (.fail reason) :=
  fun c hc => .of_eq (fun fuel => heq (book.setting tracing fuel) c) (.resume_failed (h c hc) (.const nofun))

end

/-! ## Repetitions -/

/-- **`book.AnswersRepeat tracing untilEnd g w vs rest`** — on every cursor with the window `w`, a repetition of `g`
that stops at the end of the window if `untilEnd` is set gives the values `vs` and leaves `rest`. -/
def AnswersRepeat (book : Rulebook) (tracing untilEnd : Bool) (g : Grammar) (w : List UInt8) (vs : List Value)
    (rest : List UInt8) : Prop :=
  ∀ (goOn : Cursor → Bool) (repetition : String), (∀ c, goOn c = !(untilEnd && c.atEnd)) →
    ∀ c : Cursor, c.window = w →
      ∃ m : Match (List Value),
        Ending.Settles
          (fun fuel => (Parser.repeated goOn repetition fuel (book.parser tracing fuel g) c).ending) (.done m) ∧
          m.rest.IsRestOf c ∧ m.value = vs ∧ m.rest.window = rest

section

variable {inner : Grammar} {untilEnd : Bool} {w w' front rest : List UInt8} {v : Value} {vs : List Value}

theorem answersRepeat_stop {reason : Reason} (h : book.Answers tracing inner w (.fail reason)) :
    book.AnswersRepeat tracing untilEnd inner w [] w := by
  intro goOn repetition hgoOn c hc
  refine ⟨⟨[], c⟩, .of_repeated_succ (book.parser_approx_succ tracing inner) ?_, .refl c, rfl, hc⟩
  simp only [Parser.ending_repeated_succ]
  split
  · exact .resume_failed (h c hc) (.const nofun)
  · exact .const nofun

theorem answersRepeat_atEnd : book.AnswersRepeat tracing true inner [] [] [] := by
  intro goOn repetition hgoOn c hc
  have hstop : ¬ goOn c = true := by
    rw [hgoOn, c.atEnd_iff.2 hc]
    decide
  refine ⟨⟨[], c⟩, .of_repeated_succ (book.parser_approx_succ tracing inner) ?_, .refl c, rfl, hc⟩
  simp only [Parser.ending_repeated_succ, if_neg hstop]
  exact .const nofun

/-- One more step in front of a repetition. The list gets shorter, so it was not empty, and the step is progress. -/
theorem answersRepeat_step (h : book.Answers tracing inner w (.ok v w')) (hlt : w'.length < w.length)
    (hrest : book.AnswersRepeat tracing untilEnd inner w' vs rest) :
    book.AnswersRepeat tracing untilEnd inner w (v :: vs) rest := by
  intro goOn repetition hgoOn c hc
  obtain ⟨m, hm, hmrest, hv, hw⟩ := h c hc
  obtain ⟨n, hn, hnrest, hvs, hw'⟩ := hrest goOn repetition hgoOn m.rest hw
  subst hc hw hv hvs hw'
  rw [Cursor.length_window, Cursor.length_window] at hlt
  -- there was something to shorten, so the loop did ask at `c`
  have hgo : goOn c = true := by
    have hne : c.atEnd = false := by
      rw [Cursor.atEnd_eq, decide_eq_false_iff_not]
      omega
    rw [hgoOn, hne, Bool.and_false, Bool.not_false]
  have hmoved : ¬ m.rest.length = c.length := Nat.ne_of_lt hlt
  refine ⟨⟨m.value :: n.value, n.rest⟩, .of_repeated_succ (book.parser_approx_succ tracing inner) ?_,
    hnrest.trans hmrest, rfl, rfl⟩
  simp only [Parser.ending_repeated_succ, if_pos hgo]
  refine .resume_done hm ?_
  simp only [if_neg hmoved]
  exact .resume_done hn (.const nofun)

theorem answers_many (h : book.AnswersRepeat tracing false inner w vs rest) :
    book.Answers tracing (.many inner) w (.ok (.list vs) rest) := by
  intro c hc
  obtain ⟨m, hm, hrest, hv, hw⟩ := h (fun _ => true) "one_or_more" (fun _ => rfl) c hc
  refine ⟨⟨.list m.value, m.rest⟩, ?_, hrest, congrArg Value.list hv, hw⟩
  exact .of_eq (fun fuel => Grammar.ending_many (book.setting tracing fuel) c inner)
    (.resume_done hm (.const nofun))

theorem answers_many1 (h : book.AnswersRepeat tracing false inner w (v :: vs) rest) :
    book.Answers tracing (.many1 inner) w (.ok (.list (v :: vs)) rest) := by
  intro c hc
  obtain ⟨m, hm, hrest, hv, hw⟩ := h (fun _ => true) "one_or_more" (fun _ => rfl) c hc
  refine ⟨⟨.list m.value, m.rest⟩, ?_, hrest, congrArg Value.list hv, hw⟩
  refine .of_eq (fun fuel => Grammar.ending_many1 (book.setting tracing fuel) c inner) (.resume_done hm ?_)
  rw [hv]
  exact .const nofun

theorem answers_many1_none (h : book.AnswersRepeat tracing false inner w [] rest) :
    book.Answers tracing (.many1 inner) w (.fail .noRepetition) := by
  intro c hc
  obtain ⟨m, hm, -, hv, -⟩ := h (fun _ => true) "one_or_more" (fun _ => rfl) c hc
  refine .of_eq (fun fuel => Grammar.ending_many1 (book.setting tracing fuel) c inner) (.resume_done hm ?_)
  rw [hv]
  exact .const nofun

/-- What `span` slices from the source are the bytes in front of what the repetition leaves. -/
theorem answers_span (hne : w ≠ []) (h : book.AnswersRepeat tracing true inner w vs rest) (hw : w = front ++ rest) :
    book.Answers tracing (.span inner) w (.ok (.bytes front) rest) := by
  intro c hc
  have hgoOn : ∀ c : Cursor, (!c.atEnd) = !(true && c.atEnd) := fun _ => by rw [Bool.true_and]
  obtain ⟨m, hm, hrest, -, hmw⟩ := h (fun here => !here.atEnd) "take_while" hgoOn c hc
  -- two splits of the window with the same second part
  have hfront : c.window.take (m.rest.pos - c.pos) = front := by
    have hsplit : c.window.take (m.rest.pos - c.pos) ++ rest = front ++ rest := by
      rw [← hmw, hrest.window_eq, List.take_append_drop, ← hrest.window_eq, hmw, hc, hw]
    exact List.append_cancel_right hsplit
  have hend : ¬ c.atEnd = true := fun hend => hne (hc ▸ c.atEnd_iff.1 hend)
  refine ⟨⟨.bytes front, m.rest⟩, ?_, hrest, rfl, hmw⟩
  refine .of_eq (fun fuel => Grammar.ending_span (book.setting tracing fuel) c inner) ?_
  simp only [if_neg hend]
  refine .resume_done hm ?_
  rw [hrest.slice_eq, hfront]
  exact .const nofun

theorem answers_span_empty : book.Answers tracing (.span inner) [] (.fail .emptyInput) := by
  intro c hc
  refine returns_of_failed fun σ => ?_
  rw [Grammar.ending_span, if_pos (c.atEnd_iff.2 hc)]

end

/-! ## Sequences -/

section

variable {first second left separator right inner : Grammar} {w rest rest' rest'' : List UInt8}
  {v v' v'' : Value} {reason : Reason} {d : Verdict}

theorem answers_andThen (h : book.Answers tracing first w (.ok v rest)) (h' : book.Answers tracing second rest d) :
    book.Answers tracing (.andThen first second) w d := by
  intro c hc
  obtain ⟨m, hm, hrest, -, hw⟩ := h c hc
  refine (h' m.rest hw).imp hrest fun e he => ?_
  exact .of_eq (fun fuel => Grammar.ending_andThen (book.setting tracing fuel) c first second)
    (.resume_done hm he)

theorem answers_andThen_fail (h : book.Answers tracing first w (.fail reason)) :
    book.Answers tracing (.andThen first second) w (.fail reason) :=
  fun c hc => .of_eq (fun fuel => Grammar.ending_andThen (book.setting tracing fuel) c first second)
    (.resume_failed (h c hc) (.const nofun))

theorem answers_before (h : book.Answers tracing first w (.ok v rest))
    (h' : book.Answers tracing second rest (.ok v' rest')) :
    book.Answers tracing (.before first second) w (.ok v rest') := by
  intro c hc
  obtain ⟨m, hm, hrest, hv, hw⟩ := h c hc
  obtain ⟨n, hn, hrest', -, hw'⟩ := h' m.rest hw
  refine ⟨⟨m.value, n.rest⟩, ?_, hrest'.trans hrest, hv, hw'⟩
  exact .of_eq (fun fuel => Grammar.ending_before (book.setting tracing fuel) c first second)
    (.resume_done hm (.resume_done hn (.const nofun)))

theorem answers_before_fail (h : book.Answers tracing first w (.fail reason)) :
    book.Answers tracing (.before first second) w (.fail reason) :=
  fun c hc => .of_eq (fun fuel => Grammar.ending_before (book.setting tracing fuel) c first second)
    (.resume_failed (h c hc) (.const nofun))

theorem answers_before_fail_second (h : book.Answers tracing first w (.ok v rest))
    (h' : book.Answers tracing second rest (.fail reason)) :
    book.Answers tracing (.before first second) w (.fail reason) := by
  intro c hc
  obtain ⟨m, hm, -, -, hw⟩ := h c hc
  exact .of_eq (fun fuel => Grammar.ending_before (book.setting tracing fuel) c first second)
    (.resume_done hm (.resume_failed (h' m.rest hw) (.const nofun)))

theorem answers_separated (h : book.Answers tracing left w (.ok v rest))
    (h' : book.Answers tracing separator rest (.ok v' rest'))
    (h'' : book.Answers tracing right rest' (.ok v'' rest'')) :
    book.Answers tracing (.separated left separator right) w (.ok (.pair v v'') rest'') := by
  intro c hc
  obtain ⟨m, hm, hrest, hv, hw⟩ := h c hc
  obtain ⟨k, hk, hrest', -, hw'⟩ := h' m.rest hw
  obtain ⟨n, hn, hrest'', hv'', hw''⟩ := h'' k.rest hw'
  refine ⟨⟨.pair m.value n.value, n.rest⟩, ?_, hrest''.trans (hrest'.trans hrest), ?_, hw''⟩
  · exact .of_eq (fun fuel => Grammar.ending_separated (book.setting tracing fuel) c left separator right)
      (.resume_done hm (.resume_done hk (.resume_done hn (.const nofun))))
  · rw [hv, hv'']

theorem answers_separated_fail (h : book.Answers tracing left w (.fail reason)) :
    book.Answers tracing (.separated left separator right) w (.fail reason) :=
  fun c hc => .of_eq (fun fuel => Grammar.ending_separated (book.setting tracing fuel) c left separator right)
    (.resume_failed (h c hc) (.const nofun))

theorem answers_separated_fail_separator (h : book.Answers tracing left w (.ok v rest))
    (h' : book.Answers tracing separator rest (.fail reason)) :
    book.Answers tracing (.separated left separator right) w (.fail reason) := by
  intro c hc
  obtain ⟨m, hm, -, -, hw⟩ := h c hc
  exact .of_eq (fun fuel => Grammar.ending_separated (book.setting tracing fuel) c left separator right)
    (.resume_done hm (.resume_failed (h' m.rest hw) (.const nofun)))

theorem answers_separated_fail_right (h : book.Answers tracing left w (.ok v rest))
    (h' : book.Answers tracing separator rest (.ok v' rest'))
    (h'' : book.Answers tracing right rest' (.fail reason)) :
    book.Answers tracing (.separated left separator right) w (.fail reason) := by
  intro c hc
  obtain ⟨m, hm, -, -, hw⟩ := h c hc
  obtain ⟨k, hk, -, -, hw'⟩ := h' m.rest hw
  exact .of_eq (fun fuel => Grammar.ending_separated (book.setting tracing fuel) c left separator right)
    (.resume_done hm (.resume_done hk (.resume_failed (h'' k.rest hw') (.const nofun))))

/-- `whole` asks for the end of the input itself, and ends as the sequence with `endOfInput` does. -/
theorem answers_whole (h : book.Answers tracing (.before inner .endOfInput) w d) :
    book.Answers tracing (.whole inner) w d := by
  -- neither of the two looks at the value that `endOfInput` has
  have heq : ∀ fuel c, (book.parser tracing fuel (.whole inner) c).ending =
      (book.parser tracing fuel (.before inner .endOfInput) c).ending := by
    intro fuel c
    rw [parser_eq, parser_eq, Grammar.ending_whole, Grammar.ending_before]
    congr 1
    funext m
    rw [Grammar.ending_endOfInput]
    split <;> rfl
  exact fun c hc => (h c hc).imp (.refl c) fun e he => .of_eq (fun fuel => heq fuel c) he

/-! ## Option, lookaheads and choice -/

theorem answers_optional (h : book.Answers tracing inner w (.ok v rest)) :
    book.Answers tracing (.optional inner) w (.ok v rest) := by
  intro c hc
  obtain ⟨m, hm, hrest, hv, hw⟩ := h c hc
  refine ⟨m, ?_, hrest, hv, hw⟩
  exact .of_eq (fun fuel => Grammar.ending_optional (book.setting tracing fuel) c inner)
    (.resume_done hm (.const nofun))

theorem answers_optional_none (h : book.Answers tracing inner w (.fail reason)) :
    book.Answers tracing (.optional inner) w (.ok .none w) := by
  intro c hc
  refine ⟨⟨.none, c⟩, ?_, .refl c, rfl, hc⟩
  exact .of_eq (fun fuel => Grammar.ending_optional (book.setting tracing fuel) c inner)
    (.resume_failed (h c hc) (.const nofun))

theorem answers_lookahead (h : book.Answers tracing inner w (.ok v rest)) :
    book.Answers tracing (.lookahead inner) w (.ok v w) := by
  intro c hc
  obtain ⟨m, hm, -, hv, -⟩ := h c hc
  refine ⟨⟨m.value, c⟩, ?_, .refl c, hv, hc⟩
  exact .of_eq (fun fuel => Grammar.ending_lookahead (book.setting tracing fuel) c inner)
    (.resume_done hm (.const nofun))

theorem answers_lookahead_fail (h : book.Answers tracing inner w (.fail reason)) :
    book.Answers tracing (.lookahead inner) w (.fail reason) :=
  fun c hc => .of_eq (fun fuel => Grammar.ending_lookahead (book.setting tracing fuel) c inner)
    (.resume_failed (h c hc) (.const nofun))

theorem answers_notFollowedBy (h : book.Answers tracing inner w (.fail reason)) :
    book.Answers tracing (.notFollowedBy inner) w (.ok .none w) := by
  intro c hc
  refine ⟨⟨.none, c⟩, ?_, .refl c, rfl, hc⟩
  exact .of_eq (fun fuel => Grammar.ending_notFollowedBy (book.setting tracing fuel) c inner)
    (.resume_failed (h c hc) (.const nofun))

theorem answers_notFollowedBy_fail (h : book.Answers tracing inner w (.ok v rest)) :
    book.Answers tracing (.notFollowedBy inner) w (.fail .parserSucceeded) := by
  intro c hc
  obtain ⟨m, hm, -, -, -⟩ := h c hc
  exact .of_eq (fun fuel => Grammar.ending_notFollowedBy (book.setting tracing fuel) c inner)
    (.resume_done hm (.const nofun))

theorem answers_firstOf_nil : book.Answers tracing (.firstOf []) w (.fail .noParserSucceeded) :=
  fun c _ => returns_of_failed fun σ => Grammar.ending_firstOf_nil σ c

theorem answers_firstOf_head {gs : List Grammar} (h : book.Answers tracing inner w (.ok v rest)) :
    book.Answers tracing (.firstOf (inner :: gs)) w (.ok v rest) := by
  intro c hc
  obtain ⟨m, hm, hrest, hv, hw⟩ := h c hc
  refine ⟨m, ?_, hrest, hv, hw⟩
  exact .of_eq (fun fuel => Grammar.ending_firstOf_cons (book.setting tracing fuel) c inner gs)
    (.resume_done hm (.const nofun))

theorem answers_firstOf_tail {gs : List Grammar} (h : book.Answers tracing inner w (.fail reason))
    (h' : book.Answers tracing (.firstOf gs) w d) : book.Answers tracing (.firstOf (inner :: gs)) w d := by
  intro c hc
  refine (h' c hc).imp (.refl c) fun e he => ?_
  exact .of_eq (fun fuel => Grammar.ending_firstOf_cons (book.setting tracing fuel) c inner gs)
    (.resume_failed (h c hc) he)

/-! ## Functions, labels and rules -/

theorem answers_map {f : Value → Except Fault Value} (h : book.Answers tracing inner w (.ok v rest))
    (hf : f v = .ok v') : book.Answers tracing (.map f inner) w (.ok v' rest) := by
  intro c hc
  obtain ⟨m, hm, hrest, rfl, hw⟩ := h c hc
  refine ⟨⟨v', m.rest⟩, ?_, hrest, rfl, hw⟩
  refine .of_eq (fun fuel => Grammar.ending_map (book.setting tracing fuel) c f inner) (.resume_done hm ?_)
  rw [hf]
  exact .const nofun

theorem answers_map_fail {f : Value → Except Fault Value} (h : book.Answers tracing inner w (.fail reason)) :
    book.Answers tracing (.map f inner) w (.fail reason) :=
  fun c hc => .of_eq (fun fuel => Grammar.ending_map (book.setting tracing fuel) c f inner)
    (.resume_failed (h c hc) (.const nofun))

theorem answers_traced {label : String} (h : book.Answers tracing inner w d) :
    book.Answers tracing (.traced label inner) w d :=
  fun c hc => (h c hc).imp (.refl c) fun _ he =>
    .of_eq (fun fuel => Grammar.ending_traced (book.setting tracing fuel) c label inner) he

theorem answers_rule {r : Rule} (hfind : book.find? r = some inner) (h : book.Answers tracing inner w d) :
    book.Answers tracing (.rule r) w d :=
  fun c hc => (h c hc).imp (.refl c) fun _ he => ends_rule hfind he

end

/-! ## Derivations -/

mutual

/-- **What can be derived is answered.** The recursion is on the derivation: its last rule says which lemma. -/
theorem Derives.answers {g : Grammar} {w : List UInt8} {d : Verdict} :
    book.Derives g w d → book.Answers tracing g w d
  | .take hcount hw hfront => answers_take hcount hw hfront
  | .take_zero => answers_take_zero
  | .take_short hlen => answers_take_short hlen
  | .byte => answers_byte_of_satisfy (answers_satisfy (by simp))
  | .byte_other hne => answers_byte_of_satisfy (answers_satisfy_other (by simpa using hne))
  | .byte_empty => answers_byte_of_satisfy answers_satisfy_empty
  | .satisfy hb => answers_satisfy hb
  | .satisfy_other hb => answers_satisfy_other hb
  | .satisfy_empty => answers_satisfy_empty
  | .literal hne hw => answers_literal hne hw
  | .literal_empty => answers_literal_empty
  | .literal_short hne hlen => answers_literal_short hne hlen
  | .literal_other hne hlen hother => answers_literal_other hne hlen hother
  | .endOfInput => answers_endOfInput
  | .endOfInput_more => answers_endOfInput_more
  | .moreInput => answers_moreInput
  | .moreInput_empty => answers_moreInput_empty
  | .upToFirst hw hfront hb => answers_upToFirst hw hfront hb
  | .upToFirst_all h => answers_upToFirst_all h
  | .upToLast hw hb hback => answers_upToLast hw hb hback
  | .upToLast_all h => answers_upToLast_all h
  | .upToFirst1 h hne => answers_something (fun σ c => Grammar.ending_upToFirst1 σ c _) h.answers hne
  | .upToFirst1_nothing h => answers_nothing (fun σ c => Grammar.ending_upToFirst1 σ c _) h.answers
  | .upToLast1 h hne => answers_something (fun σ c => Grammar.ending_upToLast1 σ c _) h.answers hne
  | .upToLast1_nothing h => answers_nothing (fun σ c => Grammar.ending_upToLast1 σ c _) h.answers
  | .many h => answers_many h.answers
  | .many1 h => answers_many1 h.answers
  | .many1_none h => answers_many1_none h.answers
  | .span hne h hw => answers_span hne h.answers hw
  | .span_empty => answers_span_empty
  | .span1 h hne => answers_something (fun σ c => Grammar.ending_span1 σ c _) h.answers hne
  | .span1_nothing h => answers_nothing (fun σ c => Grammar.ending_span1 σ c _) h.answers
  | .span1_fail h => answers_refusing_fail (fun σ c => Grammar.ending_span1 σ c _) h.answers
  | .andThen h h' => answers_andThen h.answers h'.answers
  | .andThen_fail h => answers_andThen_fail h.answers
  | .before h h' => answers_before h.answers h'.answers
  | .before_fail h => answers_before_fail h.answers
  | .before_fail_second h h' => answers_before_fail_second h.answers h'.answers
  | .separated h h' h'' => answers_separated h.answers h'.answers h''.answers
  | .separated_fail h => answers_separated_fail h.answers
  | .separated_fail_separator h h' => answers_separated_fail_separator h.answers h'.answers
  | .separated_fail_right h h' h'' => answers_separated_fail_right h.answers h'.answers h''.answers
  | .whole h => answers_whole h.answers
  | .optional h => answers_optional h.answers
  | .optional_none h => answers_optional_none h.answers
  | .lookahead h => answers_lookahead h.answers
  | .lookahead_fail h => answers_lookahead_fail h.answers
  | .notFollowedBy h => answers_notFollowedBy h.answers
  | .notFollowedBy_fail h => answers_notFollowedBy_fail h.answers
  | .firstOf_nil => answers_firstOf_nil
  | .firstOf_head h => answers_firstOf_head h.answers
  | .firstOf_tail h h' => answers_firstOf_tail h.answers h'.answers
  | .map h hf => answers_map h.answers hf
  | .map_fail h => answers_map_fail h.answers
  | .traced h => answers_traced h.answers
  | .rule hfind h => answers_rule hfind h.answers

theorem Repeats.answers {untilEnd : Bool} {g : Grammar} {w rest : List UInt8} {vs : List Value} :
    book.Repeats untilEnd g w vs rest → book.AnswersRepeat tracing untilEnd g w vs rest
  | .stop h => answersRepeat_stop h.answers
  | .atEnd => answersRepeat_atEnd
  | .step h hlt h' => answersRepeat_step h.answers hlt h'.answers

end

/-- An application returns one verdict. -/
theorem Returns.unique {g : Grammar} {c : Cursor} {d d' : Verdict} (h : book.Returns tracing g c d)
    (h' : book.Returns tracing g c d') : d = d' := by
  rcases d with ⟨v, rest⟩ | reason <;> rcases d' with ⟨v', rest'⟩ | reason'
  · obtain ⟨m, hm, -, rfl, rfl⟩ := h
    obtain ⟨m', hm', -, rfl, rfl⟩ := h'
    cases Ending.Settles.unique hm hm'
    rfl
  · obtain ⟨m, hm, -⟩ := h
    cases Ending.Settles.unique hm h'
  · obtain ⟨m', hm', -⟩ := h'
    cases Ending.Settles.unique h hm'
  · cases Ending.Settles.unique h h'
    rfl

/-- **The reference semantics is a function,** though nothing in its rules says so: a list of bytes is the window of
some cursor, and there the parser decides. -/
theorem Derives.unique {g : Grammar} {w : List UInt8} {d d' : Verdict} (h : book.Derives g w d)
    (h' : book.Derives g w d') : d = d' := by
  have hw : (Cursor.ofBytes ⟨w.toArray⟩).window = w := Cursor.window_ofBytes _
  have hreturns : book.Returns false g (Cursor.ofBytes ⟨w.toArray⟩) d := h.answers _ hw
  have hreturns' : book.Returns false g (Cursor.ofBytes ⟨w.toArray⟩) d' := h'.answers _ hw
  exact hreturns.unique hreturns'

/-! ## Agreement -/

/-- What an application ends with has been derived, if it is a verdict. -/
theorem derives_of_ends (hbook : book.IsLibrary) {g : Grammar} (hg : g.IsLibrary) {c : Cursor}
    {e : Ending (Match Value)} (h : book.Ends tracing g c e) :
    e.Yields (fun m => book.Derives g c.window (.ok m.value m.rest.window))
      fun reason => book.Derives g c.window (.fail reason) := by
  obtain ⟨fuel, hfuel⟩ := (ends_iff.1 h).2
  rw [← hfuel]
  exact parser_follows hbook hg tracing fuel c

end Rulebook

end Bytewise
