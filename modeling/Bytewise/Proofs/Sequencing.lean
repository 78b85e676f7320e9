/-
# Bytewise.Proofs.Sequencing — parsers in a row, however they are bracketed.

Three combinators apply one parser after the other, and they differ in what they keep of the values. Nested into each
other they put brackets around a row of parsers. The brackets say which values are kept and how they are paired, and
nothing else: every bracketing applies the parsers of the row in their order, each to what the one before it left, and
stops at the first that does not match (`bracketing_keeps_row`).

All three are instances of `Parser.combine`, so there is one step to be proved. The parsers in the row are any functions
from cursors to attempts, and the values are of any type in which two of them can be paired.
-/
import Bytewise.Proofs.Ending
import Bytewise.Value.Basic

namespace Bytewise

/-! ## Rows of parsers -/

/-- **`x.rest`** — what an attempt leaves of the input, without the value of the match. -/
def Attempt.rest {α : Type} (x : Attempt (Match α)) : Attempt Cursor :=
  x.bind fun m => .done m.rest

/-- What goes on only after a match does not go on after anything else. -/
theorem Attempt.bind_of_ne_done {α : Type} {x : Attempt α} (h : ∀ a, x.ending ≠ .done a) (f : α → Attempt α) :
    x.bind f = x := by
  rcases x with ⟨a | reason | fault | _, trace⟩
  · exact absurd rfl (h a)
  all_goals rfl

namespace Parser

variable {α β γ V : Type}

/-- **`Passes ps c vs d trace`** — from `c` on the parsers match one after the other, each where the one before it left
off. Their values are `vs`, the last one leaves `d`, and their reports are `trace`. -/
inductive Passes : List (Parser V) → Cursor → List V → Cursor → List Event → Prop
  | nil (c : Cursor) : Passes [] c [] c []
  | cons {p : Parser V} {ps : List (Parser V)} {c d : Cursor} {m : Match V} {vs : List V} {first later : List Event} :
      p c = ⟨.done m, first⟩ → Passes ps m.rest vs d later → Passes (p :: ps) c (m.value :: vs) d (first ++ later)

/-- **`StopsIn ps c e trace`** — applied in the same way, one of the parsers does not match but ends with `e`. The reports
are those up to its end: the parsers behind it are not applied. -/
inductive StopsIn : List (Parser V) → Cursor → Ending (Match V) → List Event → Prop
  | here {p : Parser V} {c : Cursor} {e : Ending (Match V)} {trace : List Event} (ps : List (Parser V)) :
      p c = ⟨e, trace⟩ → (∀ m, e ≠ .done m) → StopsIn (p :: ps) c e trace
  | later {p : Parser V} {ps : List (Parser V)} {c : Cursor} {m : Match V} {e : Ending (Match V)}
      {first later : List Event} :
      p c = ⟨.done m, first⟩ → StopsIn ps m.rest e later → StopsIn (p :: ps) c e (first ++ later)

variable {ps qs : List (Parser V)} {c d d' : Cursor} {vs us : List V} {e e' : Ending (Match V)}
  {trace trace' : List Event}

theorem Passes.append (h : Passes ps c vs d trace) (h' : Passes qs d us d' trace') :
    Passes (ps ++ qs) c (vs ++ us) d' (trace ++ trace') := by
  induction h with
  | nil c => exact h'
  | cons hp _ ih =>
    rw [List.append_assoc]
    exact .cons hp (ih h')

theorem Passes.stopsIn_append (h : Passes ps c vs d trace) (h' : StopsIn qs d e trace') :
    StopsIn (ps ++ qs) c e (trace ++ trace') := by
  induction h with
  | nil c => exact h'
  | cons hp _ ih =>
    rw [List.append_assoc]
    exact .later hp (ih h')

theorem StopsIn.append (h : StopsIn ps c e trace) (qs : List (Parser V)) : StopsIn (ps ++ qs) c e trace := by
  induction h with
  | here ps hp he => exact .here (ps ++ qs) hp he
  | later hp _ ih => exact .later hp ih

theorem StopsIn.ne_done (h : StopsIn ps c e trace) (m : Match V) : e ≠ .done m := by
  induction h with
  | here ps hp he => exact he m
  | later _ _ ih => exact ih

/-- A row passes in one way. -/
theorem Passes.unique (h : Passes ps c vs d trace) (h' : Passes ps c us d' trace') :
    vs = us ∧ d = d' ∧ trace = trace' := by
  induction h generalizing us trace' with
  | nil c =>
    cases h'
    exact ⟨rfl, rfl, rfl⟩
  | cons hp _ ih =>
    cases h' with
    | cons hp' hps' =>
      cases hp.symm.trans hp'
      obtain ⟨rfl, rfl, rfl⟩ := ih hps'
      exact ⟨rfl, rfl, rfl⟩

/-- A row that passes does not stop. -/
theorem Passes.not_stopsIn (h : Passes ps c vs d trace) : ¬ StopsIn ps c e trace' := by
  induction h generalizing trace' with
  | nil c => exact nofun
  | cons hp _ ih =>
    intro hstops
    cases hstops with
    | here _ hp' he => cases hp.symm.trans hp'; exact he _ rfl
    | later hp' hps' => cases hp.symm.trans hp'; exact ih hps'

/-- A row stops in one way. -/
theorem StopsIn.unique (h : StopsIn ps c e trace) (h' : StopsIn ps c e' trace') : e = e' ∧ trace = trace' := by
  induction h generalizing trace' with
  | here ps hp he =>
    cases h' with
    | here _ hp' _ => cases hp.symm.trans hp'; exact ⟨rfl, rfl⟩
    | later hp' _ => cases hp.symm.trans hp'; exact absurd rfl (he _)
  | later hp _ ih =>
    cases h' with
    | here _ hp' he => cases hp.symm.trans hp'; exact absurd rfl (he _)
    | later hp' hps' =>
      cases hp.symm.trans hp'
      obtain ⟨rfl, rfl⟩ := ih hps'
      exact ⟨rfl, rfl⟩

/-! ## The one step of all three combinators -/

/-- **`combine f p q`** — `p`, then `q`, and of their values what `f` makes of them. -/
def combine (f : α → β → γ) (p : Parser α) (q : Parser β) : Parser γ := fun c => do
  let m ← p c
  let n ← q m.rest
  return ⟨f m.value n.value, n.rest⟩

theorem andThen_eq_combine (p : Parser α) (q : Parser β) : andThen p q = combine (fun _ v => v) p q := by
  funext c
  simp only [andThen, combine, Attempt.bind_eq, Attempt.pure_eq]
  congr 1
  funext m
  exact (Attempt.bind_done (q m.rest)).symm

theorem before_eq_combine (p : Parser α) (q : Parser β) : before p q = combine (fun v _ => v) p q := rfl

/-- Of three parsers the middle one belongs to the first: its value is not kept. -/
theorem separated_as_eq_combine (pair : V → V → V) (p s q : Parser V) :
    (separated p s q).as (fun v => pair v.1 v.2) = combine pair (before p s) q := by
  funext c
  simp only [Parser.as, map, separated, combine, before, Attempt.bind_eq, Attempt.pure_eq, Attempt.bind_assoc,
    Attempt.ofExcept_ok, Attempt.done_bind]

/-- **`p.Traverses ps K`** — everywhere `p` matches if the row `ps` passes, and leaves what the row leaves, with a value
that `K` allows for the values of the row; and where the row stops `p` ends in the same way. -/
def Traverses (p : Parser V) (ps : List (Parser V)) (K : List V → V → Prop) : Prop :=
  ∀ c, (∃ vs v d trace, Passes ps c vs d trace ∧ K vs v ∧ p c = ⟨.done ⟨v, d⟩, trace⟩) ∨
    ∃ e trace, StopsIn ps c e trace ∧ p c = ⟨e, trace⟩

theorem traverses_self (p : Parser V) : p.Traverses [p] fun vs v => vs = [v] := by
  intro c
  have hnil : ∀ {m : Match V} {first : List Event}, p c = ⟨.done m, first⟩ → Passes [p] c [m.value] m.rest first := by
    intro m first hp
    have hpasses := Passes.cons hp (.nil m.rest)
    rwa [List.append_nil] at hpasses
  rcases hp : p c with ⟨m | reason | fault | _, first⟩
  · exact Or.inl ⟨[m.value], m.value, m.rest, first, hnil hp, rfl, rfl⟩
  · exact Or.inr ⟨_, first, .here [] hp nofun, rfl⟩
  · exact Or.inr ⟨_, first, .here [] hp nofun, rfl⟩
  · exact Or.inr ⟨_, first, .here [] hp nofun, rfl⟩

namespace Traverses

variable {p q : Parser V} {K L : List V → V → Prop}

theorem mono (hp : p.Traverses ps K) (h : ∀ vs v, K vs v → L vs v) : p.Traverses ps L := by
  intro c
  rcases hp c with ⟨vs, v, d, trace, hpasses, hK, hend⟩ | hstops
  · exact Or.inl ⟨vs, v, d, trace, hpasses, h vs v hK, hend⟩
  · exact Or.inr hstops

/-- **One step.** Two parsers that are combined traverse the rows of both, one behind the other. -/
theorem combine (hp : p.Traverses ps K) (hq : q.Traverses qs L) (f : V → V → V) :
    (Parser.combine f p q).Traverses (ps ++ qs)
      fun ws w => ∃ vs us v u, ws = vs ++ us ∧ w = f v u ∧ K vs v ∧ L us u := by
  intro c
  simp only [Parser.combine, Attempt.bind_eq, Attempt.pure_eq]
  rcases hp c with ⟨vs, v, d, first, hfirst, hK, hend⟩ | ⟨e, first, hfirst, hend⟩
  · rcases hq d with ⟨us, u, d', second, hsecond, hL, hend'⟩ | ⟨e, second, hsecond, hend'⟩
    · refine Or.inl ⟨vs ++ us, f v u, d', first ++ second, hfirst.append hsecond, ⟨vs, us, v, u, rfl, rfl, hK, hL⟩, ?_⟩
      simp [hend, hend', Attempt.bind, Attempt.done]
    · refine Or.inr ⟨e, first ++ second, hfirst.stopsIn_append hsecond, ?_⟩
      have hstays : ∀ f, (q d).bind f = ⟨e, second⟩ := by
        rw [hend']
        exact Attempt.bind_of_ne_done hsecond.ne_done
      rw [hend]
      show (⟨((q d).bind _).ending, first ++ ((q d).bind _).trace⟩ : Attempt (Match V)) = _
      rw [hstays]
  · refine Or.inr ⟨e, first, hfirst.append qs, ?_⟩
    rw [hend]
    exact Attempt.bind_of_ne_done hfirst.ne_done _

/-- Where the row is known to pass or to stop, so is the parser. -/
theorem eq_of_stopsIn (hp : p.Traverses ps K) (h : StopsIn ps c e trace) : p c = ⟨e, trace⟩ := by
  rcases hp c with ⟨vs, v, d, trace', hpasses, -, -⟩ | ⟨e', trace', hstops, hend⟩
  · exact absurd h hpasses.not_stopsIn
  · obtain ⟨rfl, rfl⟩ := h.unique hstops
    exact hend

theorem eq_of_passes (hp : p.Traverses ps K) (h : Passes ps c vs d trace) :
    ∃ v, K vs v ∧ p c = ⟨.done ⟨v, d⟩, trace⟩ := by
  rcases hp c with ⟨us, v, d', trace', hpasses, hK, hend⟩ | ⟨e', trace', hstops, -⟩
  · obtain ⟨rfl, rfl, rfl⟩ := h.unique hpasses
    exact ⟨v, hK, hend⟩
  · exact absurd hstops h.not_stopsIn

/-- Parsers that traverse the same row leave the same. -/
theorem rest_eq (hp : p.Traverses ps K) (hq : q.Traverses ps L) (c : Cursor) : (p c).rest = (q c).rest := by
  rcases hp c with ⟨vs, v, d, trace, hpasses, -, hend⟩ | ⟨e, trace, hstops, hend⟩
  · obtain ⟨u, -, hend'⟩ := hq.eq_of_passes hpasses
    rw [hend, hend']
    rfl
  · rw [hend, hq.eq_of_stopsIn hstops]

end Traverses

end Parser

/-! ## Bracketings -/

/-- **`Sequence α`** — things in a row, put in brackets by the three ways of sequencing. -/
inductive Sequence (α : Type) where
  | single (a : α)
  | andThen (first second : Sequence α)
  | before (first second : Sequence α)
  | separated (left separator right : Sequence α)

namespace Sequence

variable {α β V : Type}

/-- The things in the row, from left to right. -/
def toList : Sequence α → List α
  | .single a => [a]
  | .andThen first second | .before first second => first.toList ++ second.toList
  | .separated left separator right => left.toList ++ separator.toList ++ right.toList

/-- **`s.kept pair`** — what is kept of a row of values: the right one of `andThen`, the left one of `before`, the pair of
the outer ones of `separated`. -/
def kept (pair : V → V → V) : Sequence V → V
  | .single v => v
  | .andThen _ second => second.kept pair
  | .before first _ => first.kept pair
  | .separated left _ right => pair (left.kept pair) (right.kept pair)

/-- **`s.parser pair`** — the parser that a bracketing of parsers stands for. -/
def parser (pair : V → V → V) : Sequence (Parser V) → Parser V
  | .single p => p
  | .andThen first second => Parser.andThen (first.parser pair) (second.parser pair)
  | .before first second => Parser.before (first.parser pair) (second.parser pair)
  | .separated left separator right =>
    (Parser.separated (left.parser pair) (separator.parser pair) (right.parser pair)).as fun v => pair v.1 v.2

/-- **`s.SameBrackets t`** — the brackets are the same, around things that may be different. -/
inductive SameBrackets : Sequence α → Sequence β → Prop
  | single (a : α) (b : β) : SameBrackets (.single a) (.single b)
  | andThen {first second : Sequence α} {first' second' : Sequence β} :
      SameBrackets first first' → SameBrackets second second' →
      SameBrackets (.andThen first second) (.andThen first' second')
  | before {first second : Sequence α} {first' second' : Sequence β} :
      SameBrackets first first' → SameBrackets second second' →
      SameBrackets (.before first second) (.before first' second')
  | separated {left separator right : Sequence α} {left' separator' right' : Sequence β} :
      SameBrackets left left' → SameBrackets separator separator' → SameBrackets right right' →
      SameBrackets (.separated left separator right) (.separated left' separator' right')

theorem SameBrackets.length_toList {s : Sequence α} {t : Sequence β} (h : s.SameBrackets t) :
    s.toList.length = t.toList.length := by
  induction h with
  | single a b => rfl
  | andThen _ _ ihf ihs => simp only [toList, List.length_append, ihf, ihs]
  | before _ _ ihf ihs => simp only [toList, List.length_append, ihf, ihs]
  | separated _ _ _ ihl ihs ihr => simp only [toList, List.length_append, ihl, ihs, ihr]

theorem SameBrackets.length_eq {s s' : Sequence α} {t : Sequence β} (h : s.SameBrackets t) (h' : s'.SameBrackets t) :
    s.toList.length = s'.toList.length :=
  h.length_toList.trans h'.length_toList.symm

/-- Things in a row can be put into the same brackets in one way. -/
theorem SameBrackets.unique {s s' : Sequence α} {t : Sequence β} (h : s.SameBrackets t) (h' : s'.SameBrackets t)
    (hlist : s.toList = s'.toList) : s = s' := by
  induction h generalizing s' with
  | single a b =>
    cases h' with
    | single a' _ =>
      cases hlist
      rfl
  | andThen hf hs ihf ihs =>
    cases h' with
    | andThen hf' hs' =>
      obtain ⟨hfirst, hsecond⟩ := List.append_inj hlist (hf.length_eq hf')
      rw [ihf hf' hfirst, ihs hs' hsecond]
  | before hf hs ihf ihs =>
    cases h' with
    | before hf' hs' =>
      obtain ⟨hfirst, hsecond⟩ := List.append_inj hlist (hf.length_eq hf')
      rw [ihf hf' hfirst, ihs hs' hsecond]
  | separated hl hs hr ihl ihs ihr =>
    cases h' with
    | separated hl' hs' hr' =>
      obtain ⟨hfront, hright⟩ := List.append_inj hlist ((hl.before hs).length_eq (hl'.before hs'))
      obtain ⟨hleft, hseparator⟩ := List.append_inj hfront (hl.length_eq hl')
      rw [ihl hl' hleft, ihs hs' hseparator, ihr hr' hright]

/-- **`t.Keeps pair ws w`** — with the values `ws` in the place of its parsers, the bracketing `t` keeps `w`. -/
def Keeps (pair : V → V → V) (t : Sequence (Parser V)) (ws : List V) (w : V) : Prop :=
  ∃ s : Sequence V, s.SameBrackets t ∧ s.toList = ws ∧ s.kept pair = w

/-- **Every bracketing traverses its row.** -/
theorem parser_traverses (pair : V → V → V) (t : Sequence (Parser V)) :
    (t.parser pair).Traverses t.toList (t.Keeps pair) := by
  induction t with
  | single p =>
    refine (Parser.traverses_self p).mono ?_
    rintro vs v rfl
    exact ⟨.single v, .single v p, rfl, rfl⟩
  | andThen first second ihf ihs =>
    rw [parser, toList, Parser.andThen_eq_combine]
    refine (ihf.combine ihs _).mono ?_
    rintro ws w ⟨_, _, _, _, rfl, rfl, ⟨s, hs, rfl, rfl⟩, ⟨t, ht, rfl, rfl⟩⟩
    exact ⟨.andThen s t, .andThen hs ht, rfl, rfl⟩
  | before first second ihf ihs =>
    rw [parser, toList, Parser.before_eq_combine]
    refine (ihf.combine ihs _).mono ?_
    rintro ws w ⟨_, _, _, _, rfl, rfl, ⟨s, hs, rfl, rfl⟩, ⟨t, ht, rfl, rfl⟩⟩
    exact ⟨.before s t, .before hs ht, rfl, rfl⟩
  | separated left separator right ihl ihs ihr =>
    rw [parser, toList, Parser.separated_as_eq_combine, Parser.before_eq_combine]
    refine ((ihl.combine ihs _).combine ihr pair).mono ?_
    rintro ws w ⟨_, _, _, _, rfl, rfl, ⟨_, _, _, _, rfl, rfl, ⟨l, hl, rfl, rfl⟩, ⟨s, hs, rfl, -⟩⟩, ⟨r, hr, rfl, rfl⟩⟩
    exact ⟨.separated l s r, .separated hl hs hr, rfl, rfl⟩

/-- **Brackets say which values are kept, and nothing else.** A bracketing of parsers matches exactly if its row passes; it
leaves what the last parser leaves, and its value is what is kept of the values of the row. It ends otherwise exactly as
the first parser in the row that does not match. So two bracketings of one row leave the same, fail with the same reason,
raise the same fault and report the same. -/
theorem bracketing_keeps_row (pair : V → V → V) (t : Sequence (Parser V)) (c : Cursor) :
    (∀ m trace, t.parser pair c = ⟨.done m, trace⟩ ↔
      ∃ s : Sequence V, s.SameBrackets t ∧ Parser.Passes t.toList c s.toList m.rest trace ∧ m.value = s.kept pair) ∧
    (∀ e trace, (∀ m, e ≠ .done m) → (t.parser pair c = ⟨e, trace⟩ ↔ Parser.StopsIn t.toList c e trace)) ∧
    ∀ u : Sequence (Parser V), u.toList = t.toList → (u.parser pair c).rest = (t.parser pair c).rest := by
  have ht := parser_traverses pair t
  refine ⟨fun m trace => ⟨fun hend => ?_, ?_⟩, fun e trace he => ⟨fun hend => ?_, ht.eq_of_stopsIn⟩, fun u hu => ?_⟩
  · rcases ht c with ⟨_, _, d, trace', hpasses, ⟨s, hs, rfl, rfl⟩, hend'⟩ | ⟨e, trace', hstops, hend'⟩
    · cases hend.symm.trans hend'
      exact ⟨s, hs, hpasses, rfl⟩
    · cases hend.symm.trans hend'
      exact absurd rfl (hstops.ne_done m)
  · rintro ⟨s, hs, hpasses, hvalue⟩
    obtain ⟨_, ⟨s', hs', hlist, rfl⟩, hend⟩ := ht.eq_of_passes hpasses
    -- the values of the row determine what stands in the brackets
    rw [hs'.unique hs hlist, ← hvalue] at hend
    exact hend
  · rcases ht c with ⟨_, v, d, trace', -, -, hend'⟩ | ⟨e', trace', hstops, hend'⟩
    · cases hend.symm.trans hend'
      exact absurd rfl (he _)
    · cases hend.symm.trans hend'
      exact hstops
  · have hrow := parser_traverses pair u
    rw [hu] at hrow
    exact hrow.rest_eq ht c

/-- A key, a sign and two bytes. One bracketing keeps the key and the bytes as a pair and one keeps the key alone. Both take
five bytes, and with one byte too few both stop in the third parser. -/
theorem bracketing_keeps_row_key_value :
    let key : Parser Value := (Parser.upToFirst fun b => .ok (b == 0x3d)).as .bytes
    let sign : Parser Value := (Parser.byte 0x3d).as .ofByte
    let two : Parser Value := (Parser.take 2).as .bytes
    let t : Sequence (Parser Value) := .separated (.single key) (.single sign) (.single two)
    let u : Sequence (Parser Value) := .before (.single key) (.andThen (.single sign) (.single two))
    let c := Cursor.ofBytes "id=42".toUTF8
    let short := Cursor.ofBytes "id=4".toUTF8
    (∃ s : Sequence Value, s.SameBrackets t ∧ Parser.Passes t.toList c s.toList (c.skip 5) [] ∧
      .pair (.bytes [0x69, 0x64]) (.bytes [0x34, 0x32]) = s.kept .pair) ∧
      Parser.StopsIn t.toList short (.failed .takeNotEnough) [] ∧
      (u.parser .pair c).rest = (t.parser .pair c).rest ∧
      (u.parser .pair short).rest = (t.parser .pair short).rest := by
  intro key sign two t u c short
  let m : Match Value := ⟨.pair (.bytes [0x69, 0x64]) (.bytes [0x34, 0x32]), c.skip 5⟩
  have hmatch : t.parser .pair c = ⟨.done m, []⟩ := by decide +kernel
  have hstop : t.parser .pair short = ⟨.failed .takeNotEnough, []⟩ := by decide +kernel
  obtain ⟨hpasses, -, hrest⟩ := bracketing_keeps_row .pair t c
  obtain ⟨-, hstops, hrest'⟩ := bracketing_keeps_row .pair t short
  exact ⟨(hpasses m []).1 hmatch, (hstops (.failed .takeNotEnough) [] nofun).1 hstop, hrest u rfl, hrest' u rfl⟩

end Sequence

end Bytewise
