/-
# Bytewise.Proofs.Reads — every read lies in the window.

The operations of a cursor are total: an index without a byte and a slice that is cut short go by in silence. So that
parsers never rely on this is not seen from how they end. Here the same parsers are written down once more, over two
reads that do not forgive: `byteAt` is a fault for every position outside the window, and `bytesBetween` is one for
bounds that are not in order or not both in the window. Each operation makes the reads that it needs, at the positions
that it computes.

The checked parsers are the parsers (`Rulebook.checked_eq`): no such fault is ever met, in any nesting of combinators
and in any step of a repetition. With what `Bytewise.Proofs.Faults` says of the other faults this leaves one way for an
application to end without an outcome (`Rulebook.outcome_or_noProgress`).
-/
import Bytewise.Proofs.Faults

namespace Bytewise

namespace Cursor

/-- **`byteAt i`** — the byte at the position `i` of the source. Outside the window there is a fault. -/
def byteAt (c : Cursor) (i : Int) : Except Fault UInt8 :=
  match c.peek (i - c.pos) with
  | some b => .ok b
  | none => .error .outOfBounds

/-- **`bytesBetween i j`** — the bytes from the position `i` up to the position `j`. Both have to lie in the window or at
its end, in this order; otherwise there is a fault. -/
def bytesBetween (c : Cursor) (i j : Int) : Except Fault (List UInt8) :=
  if c.pos ≤ i ∧ i ≤ j ∧ j ≤ c.stop then .ok (c.source.extract i.toNat j.toNat).data.toList
  else .error .outOfBounds

variable (c : Cursor)

theorem byteAt_of_lt {k : Nat} (h : k < c.window.length) : c.byteAt (c.pos + k) = .ok c.window[k] := by
  have hoffset : (c.pos : Int) + k - c.pos = k := by omega
  rw [byteAt, hoffset, peek_eq, if_pos (Int.natCast_nonneg k), Int.toNat_natCast, List.getElem?_eq_getElem h]

/-- A piece of the window from its start on. -/
theorem bytesBetween_of_le {k : Nat} (h : k ≤ c.length) : c.bytesBetween c.pos (c.pos + k) = .ok (c.window.take k) := by
  have hstop := c.pos_add_length
  have hk : ((c.pos : Int) + k).toNat = c.pos + k := by omega
  have hcut : c.pos + k - c.pos = min k (c.stop - c.pos) := by
    rw [length] at h
    omega
  rw [bytesBetween, if_pos (by omega), Int.toNat_natCast, hk]
  simp only [window_eq, length, List.take_take, ByteArray.data_extract, Array.toList_extract,
    List.extract_eq_take_drop, hcut]

end Cursor

/-! ## Cursor operations, with the reads that they make -/

namespace Checked

/-- The first byte of the window. -/
def current (c : Cursor) : Except Fault UInt8 :=
  if c.atEnd then .error (.endOfInput c.pos) else c.byteAt c.pos

/-- The bytes up to a position, which is cut down to the end of the window. -/
def sliceTo (c : Cursor) (bound : Int) : Except Fault (List UInt8) :=
  c.bytesBetween c.pos (min bound c.stop)

/-- The next `count` bytes, or as many as the window has. -/
def sliceAhead (c : Cursor) (count : Int) : Except Fault (List UInt8) :=
  sliceTo c (c.pos + count)

/-- Compares the literal with as many bytes of a window that is long enough. -/
def startsWith (c : Cursor) (literal : List UInt8) : Except Fault Bool := do
  if c.length < literal.length then return false
  else return (← c.bytesBetween c.pos (c.pos + literal.length)) == literal

/-- Searches the bytes of the window from the front. -/
def findFirst (test : Predicate) (c : Cursor) : Except Fault (Option Nat) := do
  firstIndex test (← c.bytesBetween c.pos c.stop)

/-- Searches the offsets below `k` from the back, reading byte by byte. -/
def findBelow (test : Predicate) (c : Cursor) : (k : Nat) → Except Fault (Option Nat)
  | 0 => return none
  | k + 1 => do
    if ← test (← c.byteAt (c.pos + k)) then return some k else findBelow test c k

/-- Searches the window from the back. -/
def findLast (test : Predicate) (c : Cursor) : Except Fault (Option Nat) :=
  findBelow test c c.length

variable (c : Cursor)

theorem current_eq : current c = c.current := by
  rw [current, Cursor.current_eq]
  cases hw : c.window with
  | nil => rw [if_pos ((c.atEnd_iff).2 hw)]
  | cons b bs =>
    have hlt : 0 < c.window.length := by
      rw [hw]
      exact Nat.zero_lt_succ _
    have hread := c.byteAt_of_lt hlt
    simp only [hw, List.getElem_cons_zero, Int.natCast_zero, Int.add_zero] at hread
    rw [if_neg (by rw [c.atEnd_iff, hw]; exact List.cons_ne_nil b bs), hread]

/-- A slice up to a position that is not before the window reads nothing but the window. -/
theorem sliceTo_eq {bound : Int} (h : c.pos ≤ bound) : sliceTo c bound = .ok (c.sliceTo bound) := by
  have hstop := c.pos_add_length
  obtain ⟨k, hk⟩ : ∃ k : Nat, bound = c.pos + k := ⟨(bound - c.pos).toNat, by omega⟩
  have hbound : min bound (c.stop : Int) = c.pos + (min k c.length : Nat) := by omega
  have hoffset : (bound - c.pos).toNat = k := by omega
  rw [sliceTo, hbound, c.bytesBetween_of_le (Nat.min_le_right k c.length), c.sliceTo_of_nonneg (by omega), hoffset,
    ← List.take_take, ← c.length_window, List.take_length]

theorem sliceAhead_eq (count : Nat) : sliceAhead c count = .ok (c.sliceAhead count) := by
  rw [sliceAhead, sliceTo_eq c (by omega)]
  rfl

theorem startsWith_eq (literal : List UInt8) : startsWith c literal = .ok (c.startsWith literal) := by
  rw [startsWith]
  split
  · rename_i hshort
    have hnot : c.startsWith literal = false := by
      rw [Cursor.startsWith, decide_eq_false (by omega), Bool.false_and]
    rw [hnot]
    rfl
  · rename_i hlong
    rw [c.bytesBetween_of_le (by omega)]
    show Except.ok (c.window.take literal.length == literal) = _
    congr 1
    rw [Bool.eq_iff_iff, beq_iff_eq, c.startsWith_iff, List.prefix_iff_eq_take, eq_comm]

theorem findFirst_eq (test : Predicate) : findFirst test c = c.findFirst test := by
  have hstop : (c.stop : Int) = c.pos + (c.length : Nat) := by
    have := c.pos_add_length
    omega
  rw [findFirst, hstop, c.bytesBetween_of_le (Nat.le_refl _), c.findFirst_eq, ← c.length_window, List.take_length]
  rfl

theorem findBelow_eq (test : Predicate) : ∀ k, k ≤ c.length → findBelow test c k = c.findBelow test k
  | 0, _ => rfl
  | k + 1, h => by
    have hk : k < c.window.length := by
      rw [c.length_window]
      exact h
    rw [findBelow, Cursor.findBelow, c.byteAt_of_lt hk, c.byte?_eq, List.getElem?_eq_getElem hk]
    show (test c.window[k] >>= fun found => if found then _ else _) = _
    dsimp only
    cases test c.window[k] with
    | error fault => rfl
    | ok found =>
      cases found with
      | true => rfl
      | false => exact findBelow_eq test k (Nat.le_of_succ_le h)

theorem findLast_eq (test : Predicate) : findLast test c = c.findLast test :=
  findBelow_eq c test c.length (Nat.le_refl _)

/-! ## Parsers, with the reads that they make -/

/-- The next `count` bytes. -/
def take (count : Nat) : Parser (List UInt8) := fun c =>
  if count = 0 then .fail .takeZero
  else if c.length < count then .fail .takeNotEnough
  else do
    let bytes ← .ofExcept (sliceAhead c count)
    let rest ← .ofExcept (c.advance count)
    return ⟨bytes, rest⟩

/-- Exactly these bytes. -/
def literal (expected : List UInt8) : Parser (List UInt8) := fun c =>
  if c.atEnd then .fail .emptyInput
  else if c.length < expected.length then .fail .notEnoughBytes
  else do
    if ← .ofExcept (startsWith c expected) then
      let rest ← .ofExcept (c.advance expected.length)
      return ⟨expected, rest⟩
    else .fail .wrongBytes

/-- One byte that passes the test. -/
def satisfy (test : Predicate) : Parser UInt8 := fun c =>
  if c.atEnd then .fail .emptyInput
  else do
    let b ← .ofExcept (current c)
    if ← .ofExcept (test b) then
      let rest ← .ofExcept (c.advance 1)
      return ⟨b, rest⟩
    else .fail .wrongByte

/-- The bytes in front of the offset that a search finds, or the whole window. -/
def splitAt (search : Cursor → Except Fault (Option Nat)) : Parser (List UInt8) := fun c => do
  let offset := (← .ofExcept (search c)).getD c.length
  let bytes ← .ofExcept (sliceAhead c offset)
  let rest ← .ofExcept (c.advance offset)
  return ⟨bytes, rest⟩

/-- The bytes that `p` matches again and again. They are read when the repetition is over, up to where it came. -/
def span {α : Type} (budget : Nat) (p : Parser α) : Parser (List UInt8) := fun c =>
  if c.atEnd then .fail .emptyInput
  else do
    let m ← Parser.repeated (fun here => !here.atEnd) "take_while" budget p c
    if m.rest.pos = c.pos then return ⟨[], c⟩
    else
      let bytes ← .ofExcept (sliceTo c m.rest.pos)
      return ⟨bytes, m.rest⟩

/-- `p`, whose attempts are reported with the bytes that come next. -/
def traced {α : Type} (on : Bool) (label : String) (p : Parser α) : Parser α := fun c =>
  if on then do
    let next ← .ofExcept (sliceAhead c Event.previewLength)
    Attempt.emit (.trying label c.pos next)
    match ← (p c).settle with
    | .ok m =>
      let next ← .ofExcept (sliceAhead m.rest Event.previewLength)
      Attempt.emit (.matched label ((c.length : Int) - m.rest.length) next)
      return m
    | .error reason =>
      Attempt.emit (.failed label c.pos reason)
      .fail reason
  else p c

theorem take_eq (count : Nat) : take count = Parser.take count := by
  funext c
  simp only [take, Parser.take, sliceAhead_eq, Attempt.ofExcept_ok, Attempt.bind_eq, Attempt.done_bind]

theorem literal_eq (expected : List UInt8) : literal expected = Parser.literal expected := by
  funext c
  simp only [literal, Parser.literal, startsWith_eq, Attempt.ofExcept_ok, Attempt.bind_eq, Attempt.done_bind]

theorem satisfy_eq (test : Predicate) : satisfy test = Parser.satisfy test := by
  funext c
  simp only [satisfy, Parser.satisfy, current_eq]

theorem splitAt_eq {search search' : Cursor → Except Fault (Option Nat)} (h : ∀ c, search c = search' c) :
    splitAt search = Parser.splitAt search' := by
  funext c
  simp only [splitAt, Parser.splitAt, h, sliceAhead_eq, Attempt.ofExcept_ok, Attempt.bind_eq, Attempt.done_bind]

theorem traced_eq {α : Type} (on : Bool) (label : String) (p : Parser α) : traced on label p = Parser.traced on label p := by
  funext c
  have hnext : ∀ here : Cursor, Attempt.ofExcept (sliceAhead here Event.previewLength) =
      .done (here.sliceAhead Event.previewLength) := by
    intro here
    rw [sliceAhead_eq, Attempt.ofExcept_ok]
  cases on with
  | false => rfl
  | true =>
    show (Attempt.ofExcept (sliceAhead c Event.previewLength)).bind _ = _
    rw [hnext, Attempt.done_bind]
    refine congrArg (Attempt.bind _) (funext fun _ => congrArg (Attempt.bind _) (funext fun outcome => ?_))
    cases outcome with
    | ok m =>
      show (Attempt.ofExcept (sliceAhead m.rest Event.previewLength)).bind _ = _
      rw [hnext, Attempt.done_bind]
    | error reason => rfl

/-- The repetition comes to an end behind the start of the window, because its steps only advance. -/
theorem span_eq {α : Type} {p : Parser α} (hp : p.OnlyAdvances) (budget : Nat) : span budget p = Parser.span budget p := by
  funext c
  rw [span, Parser.span_eq]
  split
  · rfl
  · have hrest := hp.repeated (fun here => !here.atEnd) "take_while" budget c
    rcases hrep : Parser.repeated (fun here => !here.atEnd) "take_while" budget p c with ⟨m | reason | fault | _, trace⟩
    · have hpos := (hrest m (by rw [hrep])).pos_le
      simp only [Attempt.bind_eq, Attempt.bind, sliceTo_eq c (Int.ofNat_le.2 hpos), Attempt.ofExcept_ok,
        Attempt.done, Attempt.pure_eq]
      split <;> rfl
    all_goals rfl

end Checked

/-! ## Grammars, with the reads that they make -/

namespace Grammar

mutual

/-- **`checked σ g`** — the parser that `g` stands for, with checked reads. -/
def checked (σ : Setting) : Grammar → Parser Value
  | .take count => (Checked.take count).as .bytes
  | .byte expected => (Checked.satisfy fun b => .ok (b == expected)).as .ofByte
  | .literal expected => (Checked.literal expected).as .bytes
  | .satisfy test => (Checked.satisfy test).as .ofByte
  | .upToFirst test => (Checked.splitAt (Checked.findFirst test)).as .bytes
  | .upToFirst1 test => (Checked.splitAt (Checked.findFirst test)).nonempty.as .bytes
  | .upToLast test => (Checked.splitAt (Checked.findLast test)).as .bytes
  | .upToLast1 test => (Checked.splitAt (Checked.findLast test)).nonempty.as .bytes
  | .span inner => (Checked.span σ.budget (inner.checked σ)).as .bytes
  | .span1 inner => (Checked.span σ.budget (inner.checked σ)).nonempty.as .bytes
  | .map f inner => (inner.checked σ).map f
  | .separated left separator right =>
    (Parser.separated (left.checked σ) (separator.checked σ) (right.checked σ)).as fun v => .pair v.1 v.2
  | .andThen first second => Parser.andThen (first.checked σ) (second.checked σ)
  | .before first second => Parser.before (first.checked σ) (second.checked σ)
  | .optional inner => (Parser.optional (inner.checked σ)).as .ofOption
  | .notFollowedBy inner => (Parser.notFollowedBy (inner.checked σ)).as fun _ => .none
  | .lookahead inner => Parser.lookahead (inner.checked σ)
  | .many1 inner => (Parser.many1 σ.budget (inner.checked σ)).as .list
  | .many inner => (Parser.many σ.budget (inner.checked σ)).as .list
  | .firstOf alternatives => Parser.firstOf (checkedAll σ alternatives)
  | .endOfInput => Parser.endOfInput.as fun _ => .none
  | .moreInput => Parser.moreInput.as fun _ => .none
  | .whole inner => Parser.whole (inner.checked σ)
  | .traced label inner => Checked.traced σ.tracing label (inner.checked σ)
  | .rule r => σ.call r
  | .leaf p => p
  | .within count inner => Parser.within count (inner.checked σ)

/-- The parsers that grammars stand for, in order, with checked reads. -/
def checkedAll (σ : Setting) : List Grammar → List (Parser Value)
  | [] => []
  | g :: gs => g.checked σ :: checkedAll σ gs

end

theorem checkedAll_eq {σ : Setting} : ∀ {gs : List Grammar}, (∀ g ∈ gs, g.checked σ = g.parser σ) →
    checkedAll σ gs = parsers σ gs
  | [], _ => by rw [checkedAll, parsers]
  | g :: gs, h => by
    rw [checkedAll, parsers, h g List.mem_cons_self, checkedAll_eq fun g' hg' => h g' (List.mem_cons_of_mem g hg')]

/-- One layer of combinators over rules that only advance meets no read outside the window. -/
theorem checked_eq {σ : Setting} (hadvances : ∀ r, (σ.call r).OnlyAdvances) {g : Grammar} (hg : g.IsLibrary) :
    g.checked σ = g.parser σ := by
  induction hg with
  | take count => rw [checked, parser, Checked.take_eq]
  | byte expected => rw [checked, parser, Checked.satisfy_eq, Parser.byte]
  | literal expected => rw [checked, parser, Checked.literal_eq]
  | satisfy test => rw [checked, parser, Checked.satisfy_eq]
  | upToFirst test => rw [checked, parser, Checked.splitAt_eq (Checked.findFirst_eq · test), Parser.upToFirst]
  | upToFirst1 test => rw [checked, parser, Checked.splitAt_eq (Checked.findFirst_eq · test), Parser.upToFirst]
  | upToLast test => rw [checked, parser, Checked.splitAt_eq (Checked.findLast_eq · test), Parser.upToLast]
  | upToLast1 test => rw [checked, parser, Checked.splitAt_eq (Checked.findLast_eq · test), Parser.upToLast]
  | span h ih => rw [checked, parser, ih, Checked.span_eq (parser_onlyAdvances hadvances (IsLibrary.over h))]
  | span1 h ih => rw [checked, parser, ih, Checked.span_eq (parser_onlyAdvances hadvances (IsLibrary.over h))]
  | map f _ ih => rw [checked, parser, ih]
  | separated _ _ _ ihl ihs ihr => rw [checked, parser, ihl, ihs, ihr]
  | andThen _ _ ihf ihs => rw [checked, parser, ihf, ihs]
  | before _ _ ihf ihs => rw [checked, parser, ihf, ihs]
  | optional _ ih => rw [checked, parser, ih]
  | notFollowedBy _ ih => rw [checked, parser, ih]
  | lookahead _ ih => rw [checked, parser, ih]
  | many1 _ ih => rw [checked, parser, ih]
  | many _ ih => rw [checked, parser, ih]
  | firstOf _ ih => rw [checked, parser, checkedAll_eq ih]
  | endOfInput => rw [checked, parser]
  | moreInput => rw [checked, parser]
  | whole _ ih => rw [checked, parser, ih]
  | traced label _ ih => rw [checked, parser, ih, Checked.traced_eq]
  | rule r => rw [checked, parser]
  | leaf hp => exact hp.elim

end Grammar

namespace Rulebook

/-- The parser that a rule stands for, with checked reads. -/
def checkedCall (book : Rulebook) (tracing : Bool) : (depth : Nat) → Rule → Parser Value
  | 0, _, _ => .unfinished
  | depth + 1, r, c =>
    match book.find? r with
    | none => .raise (.undefinedRule r.name)
    | some g => g.checked ⟨tracing, depth, book.checkedCall tracing depth⟩ c

/-- **`checked tracing fuel g`** — the parser that a grammar over these rules stands for, with checked reads. -/
def checked (book : Rulebook) (tracing : Bool) (fuel : Nat) (g : Grammar) : Parser Value :=
  g.checked ⟨tracing, fuel, book.checkedCall tracing fuel⟩

variable {book : Rulebook} {g : Grammar}

theorem checkedCall_eq (hbook : book.IsLibrary) (tracing : Bool) (depth : Nat) :
    book.checkedCall tracing depth = book.call tracing depth := by
  induction depth with
  | zero => rfl
  | succ depth ih =>
    funext r c
    rw [checkedCall, call]
    cases hfind : book.find? r with
    | none => rfl
    | some d =>
      dsimp only
      rw [ih, Grammar.checked_eq (call_onlyAdvances hbook.over tracing depth) (hbook r d hfind)]

/-- **No read lies outside the window.** Checking the reads changes nothing: not how an application ends and not what it
reports. -/
theorem checked_eq (hbook : book.IsLibrary) (hg : g.IsLibrary) (tracing : Bool) (fuel : Nat) :
    book.checked tracing fuel g = book.parser tracing fuel g := by
  rw [checked, checkedCall_eq hbook, Grammar.checked_eq (call_onlyAdvances hbook.over tracing fuel) hg, parser]

/-- **Only a repetition that is stuck escapes.** Where the tests and functions refuse nothing and the rules are defined, an
application that ends has an outcome, or a repetition in it made no progress. The cursors raise nothing: not at the end
of the window, not for a window that cannot be, and, as the checked parser does the same, not for a read outside
the window. -/
theorem outcome_or_noProgress (hbook : book.IsLibrary) (hg : g.IsLibrary)
    (htotal : ∀ h, book.Reaches g h → ∀ fault, ¬ h.Refuses fault)
    (hdefined : ∀ r, book.Reaches g (.rule r) → book.isDefined r = true) {tracing : Bool} {c : Cursor}
    {e : Ending (Match Value)} (h : book.Ends tracing g c e) :
    ((∃ m, e = .done m) ∨ (∃ reason, e = .failed reason) ∨ ∃ repetition, e = .raised (.noProgress repetition)) ∧
      ∀ fuel, book.checked tracing fuel g c = book.parser tracing fuel g c := by
  refine ⟨?_, fun fuel => congrFun (checked_eq hbook hg tracing fuel) c⟩
  cases e with
  | done m => exact Or.inl ⟨m, rfl⟩
  | failed reason => exact Or.inr (Or.inl ⟨reason, rfl⟩)
  | unfinished => exact absurd rfl h.1
  | raised fault =>
    obtain ⟨k, hk, hmay⟩ := mayRaise_of_ends hbook hg h
    cases hmay with
    | refused hrefuses => exact absurd hrefuses (htotal k hk fault)
    | undefined hnone =>
      have hsome := hdefined _ hk
      rw [isDefined, hnone] at hsome
      cases hsome
    | stuck _ _ => exact Or.inr (Or.inr ⟨_, rfl⟩)

/-- A group or nothing, again and again: after the brackets comes a letter, and there the repetition is stuck. -/
theorem outcome_or_noProgress_parens :
    let g : Grammar := .many (.optional (.rule group))
    let e : Ending (Match Value) := .raised (.noProgress "one_or_more")
    parens.IsLibrary ∧ g.IsLibrary ∧ (∀ h, parens.Reaches g h → ∀ fault, ¬ h.Refuses fault) ∧
      (∀ r, parens.Reaches g (.rule r) → parens.isDefined r = true) ∧ parens.Ends false g nested e ∧
      ((∃ m, e = .done m) ∨ (∃ reason, e = .failed reason) ∨ ∃ repetition, e = .raised (.noProgress repetition)) ∧
      ∀ fuel, parens.checked false fuel g nested = parens.parser false fuel g nested := by
  intro g e
  have hg : g.IsLibrary := .many (.optional (.rule group))
  have htotal : ∀ h, parens.Reaches g h → ∀ fault, ¬ h.Refuses fault := by
    let N : Grammar → Prop := fun h => ∀ fault, ¬ h.Refuses fault
    have hparens : ∀ r d, parens.find? r = some d → d.Everywhere N :=
      everywhere_parens (fun _ _ => id) (fun _ => id) (fun _ _ => id) (fun _ _ _ => id) fun _ _ _ => id
    have hinner : (Grammar.optional (.rule group)).Everywhere N :=
      ⟨fun _ => id, List.forall_mem_singleton.2 ⟨fun _ => id, nofun⟩⟩
    exact fun h hreaches => hreaches.of_everywhere hparens ⟨fun _ => id, List.forall_mem_singleton.2 hinner⟩
  have hdefined : ∀ r, parens.Reaches g (.rule r) → parens.isDefined r = true := by
    let N : Grammar → Prop := fun h => ∀ r, h = .rule r → parens.isDefined r = true
    have hgroup : N (.rule group) := by
      rintro r hr
      cases hr
      rfl
    have hparens : ∀ r d, parens.find? r = some d → d.Everywhere N :=
      everywhere_parens (fun _ => nofun) hgroup (fun _ => nofun) (fun _ _ => nofun) fun _ _ => nofun
    have hinner : (Grammar.optional (.rule group)).Everywhere N :=
      ⟨nofun, List.forall_mem_singleton.2 ⟨hgroup, nofun⟩⟩
    exact fun r hreaches => hreaches.of_everywhere hparens ⟨nofun, List.forall_mem_singleton.2 hinner⟩ r rfl
  have hraised : (parens.parser false 3 g nested).ending = e := by decide +kernel
  have he : parens.Ends false g nested e := ends_of_ending hraised nofun
  exact ⟨isLibrary_parens, hg, htotal, hdefined, he, outcome_or_noProgress isLibrary_parens hg htotal hdefined he⟩

end Rulebook

end Bytewise
