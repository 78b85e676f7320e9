/-
# Bytewise.Proofs.Confinement — a parser reads its window and nothing else.

Two cursors whose windows hold the same bytes are told apart by no parser that is made of combinators: not by
where the window lies, nor by what stands around it. This is a statement about two runs. They are kept in step
by `Parser.ReadsWindow`: with equal windows both runs end in the same way, and where they match they have the
same value and skip the same number of bytes, so that what is left are equal windows again.

The relation is closed under every combinator and hence holds at any fuel. `alike_of_window_eq` says
what it means for applications as a whole.
-/
import Bytewise.Proofs.Fuel
import Bytewise.Proofs.Suffix

namespace Bytewise

/-! ## Two runs in step -/

namespace Ending

variable {α α' β β' : Type}

/-- **`e.Rel R e'`** — two attempts ended in the same way, and if with values, with values related by `R`. -/
inductive Rel (R : α → α' → Prop) : Ending α → Ending α' → Prop
  | done {a : α} {a' : α'} : R a a' → Rel R (.done a) (.done a')
  | failed (reason : Reason) : Rel R (.failed reason) (.failed reason)
  | raised (fault : Fault) : Rel R (.raised fault) (.raised fault)
  | unfinished : Rel R .unfinished .unfinished

variable {R : α → α' → Prop} {S : β → β' → Prop}

theorem Rel.mono {R' : α → α' → Prop} (hR : ∀ a a', R a a' → R' a a') {e : Ending α} {e' : Ending α'}
    (h : e.Rel R e') : e.Rel R' e' := by
  cases h with
  | done h => exact .done (hR _ _ h)
  | failed reason => exact .failed reason
  | raised fault => exact .raised fault
  | unfinished => exact .unfinished

/-- What follows two endings in step is in step. -/
theorem Rel.resume {e : Ending α} {e' : Ending α'} {hit : α → Ending β} {hit' : α' → Ending β'}
    {miss : Reason → Ending β} {miss' : Reason → Ending β'} (h : e.Rel R e')
    (hhit : ∀ a a', R a a' → (hit a).Rel S (hit' a'))
    (hmiss : ∀ reason, (miss reason).Rel S (miss' reason)) :
    (e.resume hit miss).Rel S (e'.resume hit' miss') := by
  cases h with
  | done h => exact hhit _ _ h
  | failed reason => exact hmiss reason
  | raised fault => exact .raised fault
  | unfinished => exact .unfinished

/-- Two runs end together or not at all. -/
theorem Rel.ne_unfinished_iff {e : Ending α} {e' : Ending α'} (h : e.Rel R e') :
    e ≠ .unfinished ↔ e' ≠ .unfinished := by
  cases h <;> simp

end Ending

namespace Cursor

/-- The window of a copy of a window. -/
theorem window_ofBytes_extract (c : Cursor) :
    (ofBytes (c.source.extract c.pos c.stop)).window = c.window :=
  window_ofBytes _

variable {c d : Cursor}

theorem length_congr (h : c.window = d.window) : c.length = d.length := by
  rw [← length_window, h, length_window]

theorem atEnd_congr (h : c.window = d.window) : c.atEnd = d.atEnd := by
  rw [atEnd_eq, atEnd_eq, length_congr h]

theorem window_skip_congr (h : c.window = d.window) (k : Nat) : (c.skip k).window = (d.skip k).window := by
  rw [window_skip, window_skip, h]

theorem startsWith_congr (h : c.window = d.window) (literal : List UInt8) :
    c.startsWith literal = d.startsWith literal := by
  rw [Bool.eq_iff_iff, startsWith_iff, startsWith_iff, h]

end Cursor

/-- **`Match.InStep c d m n`** — the matches `m` from `c` and `n` from `d` have the same value and skip the same
number of bytes. -/
structure Match.InStep {α : Type} (c d : Cursor) (m n : Match α) : Prop where
  value_eq : m.value = n.value
  rest_eq : ∃ k, m.rest = c.skip k ∧ n.rest = d.skip k

/-- **`Match.SameFrom c d m n`** — the match `m` from `c` and the match `n` from `d` have the same value and consumed
the same number of bytes. -/
structure Match.SameFrom (c d : Cursor) (m n : Match Value) : Prop where
  value_eq : m.value = n.value
  consumed_eq : (m.rest.pos : Int) - c.pos = n.rest.pos - d.pos

/-- Runs in step consume the same. -/
theorem Match.InStep.sameFrom {c d : Cursor} {m n : Match Value} (h : Match.InStep c d m n)
    (hw : c.window = d.window) : Match.SameFrom c d m n := by
  refine ⟨h.value_eq, ?_⟩
  obtain ⟨k, hm, hn⟩ := h.rest_eq
  have hlen := Cursor.length_congr hw
  have hc := c.pos_add_length
  have hd := d.pos_add_length
  rw [hm, hn, Cursor.pos_skip, Cursor.pos_skip]
  omega

/-- **`p.ReadsWindow`** — `p` does the same wherever the window holds the same bytes. -/
def Parser.ReadsWindow {α : Type} (p : Parser α) : Prop :=
  ∀ c d, c.window = d.window → (p c).ending.Rel (Match.InStep c d) (p d).ending

namespace Match.InStep

variable {α β : Type} {c d : Cursor}

theorem skip (a : α) (k : Nat) : Match.InStep c d ⟨a, c.skip k⟩ ⟨a, d.skip k⟩ :=
  ⟨rfl, k, rfl, rfl⟩

theorem stay (a : α) : Match.InStep c d ⟨a, c⟩ ⟨a, d⟩ :=
  ⟨rfl, 0, c.skip_zero.symm, d.skip_zero.symm⟩

variable {m n : Match α} {m' n' : Match β}

/-- What is left of equal windows are equal windows. -/
theorem window_eq (h : Match.InStep c d m n) (hw : c.window = d.window) : m.rest.window = n.rest.window := by
  obtain ⟨k, hm, hn⟩ := h.rest_eq
  rw [hm, hn, Cursor.window_skip_congr hw]

/-- The value may be replaced. -/
theorem withValue (h : Match.InStep c d m n) (b : β) : Match.InStep c d ⟨b, m.rest⟩ ⟨b, n.rest⟩ :=
  ⟨rfl, h.rest_eq⟩

/-- Matches in a row skip the sum of what each of them skips. -/
theorem trans (h : Match.InStep c d m n) (h' : Match.InStep m.rest n.rest m' n') :
    Match.InStep c d m' n' := by
  obtain ⟨j, hm, hn⟩ := h.rest_eq
  obtain ⟨k, hm', hn'⟩ := h'.rest_eq
  refine ⟨h'.value_eq, j + k, ?_, ?_⟩
  · rw [hm', hm, Cursor.skip_skip]
  · rw [hn', hn, Cursor.skip_skip]

end Match.InStep

/-! ## Every combinator reads its window only -/

namespace Parser

variable {α β γ : Type}

theorem readsWindow_take (count : Nat) : (take count).ReadsWindow := by
  intro c d hw
  rw [take_eq, take_eq, Cursor.length_congr hw, hw]
  split
  · exact .failed _
  · split
    · exact .failed _
    · exact .done (.skip _ _)

theorem readsWindow_literal (expected : List UInt8) : (literal expected).ReadsWindow := by
  intro c d hw
  rw [literal_eq, literal_eq, Cursor.length_congr hw, Cursor.startsWith_congr hw, hw]
  split
  · exact .failed _
  · split
    · exact .failed _
    · split
      · exact .done (.skip _ _)
      · exact .failed _

theorem readsWindow_satisfy (test : UInt8 → Except Fault Bool) : (satisfy test).ReadsWindow := by
  intro c d hw
  rw [satisfy_eq, satisfy_eq, hw]
  cases d.window with
  | nil => exact .failed _
  | cons b bs =>
    dsimp only
    cases test b with
    | error fault => exact .raised fault
    | ok answer =>
      cases answer with
      | true => exact .done (.skip _ _)
      | false => exact .failed _

/-- A scan reads its window if its search does. -/
theorem readsWindow_splitAt {search : Cursor → Except Fault (Option Nat)}
    (hsearch : ∀ c d, c.window = d.window → search c = search d) : (splitAt search).ReadsWindow := by
  intro c d hw
  rw [splitAt_eq, splitAt_eq, hsearch c d hw, Cursor.length_congr hw, hw]
  cases search d with
  | error fault => exact .raised fault
  | ok offset => exact .done (.skip _ _)

theorem readsWindow_upToFirst (test : UInt8 → Except Fault Bool) : (upToFirst test).ReadsWindow := by
  refine readsWindow_splitAt fun c d hw => ?_
  rw [Cursor.findFirst_eq, Cursor.findFirst_eq, hw]

theorem readsWindow_upToLast (test : UInt8 → Except Fault Bool) : (upToLast test).ReadsWindow := by
  refine readsWindow_splitAt fun c d hw => ?_
  rw [Cursor.findLast_eq, Cursor.findLast_eq, hw]

theorem readsWindow_endOfInput : endOfInput.ReadsWindow := by
  intro c d hw
  rw [ending_endOfInput, ending_endOfInput, Cursor.atEnd_congr hw]
  split
  · exact .done (.stay _)
  · exact .failed _

theorem readsWindow_moreInput : moreInput.ReadsWindow := by
  intro c d hw
  rw [ending_moreInput, ending_moreInput, Cursor.atEnd_congr hw]
  split
  · exact .failed _
  · exact .done (.stay _)

namespace ReadsWindow

variable {p : Parser α} {q : Parser β} {s : Parser γ}

theorem map (f : α → Except Fault β) (hp : p.ReadsWindow) : (p.map f).ReadsWindow := by
  intro c d hw
  rw [ending_map, ending_map]
  refine (hp c d hw).resume (fun m n hmn => ?_) .failed
  rw [hmn.value_eq]
  cases f n.value with
  | error fault => exact .raised fault
  | ok value => exact .done (hmn.withValue value)

theorem as (f : α → β) (hp : p.ReadsWindow) : (p.as f).ReadsWindow :=
  hp.map _

theorem nonempty {p : Parser (List UInt8)} (hp : p.ReadsWindow) : p.nonempty.ReadsWindow := by
  intro c d hw
  rw [ending_nonempty, ending_nonempty]
  refine (hp c d hw).resume (fun m n hmn => ?_) .failed
  rw [hmn.value_eq]
  split
  · exact .failed _
  · exact .done hmn

theorem andThen (hp : p.ReadsWindow) (hq : q.ReadsWindow) : (Parser.andThen p q).ReadsWindow := by
  intro c d hw
  rw [ending_andThen, ending_andThen]
  refine (hp c d hw).resume (fun first first' hfirst => ?_) .failed
  exact (hq _ _ (hfirst.window_eq hw)).mono fun _ _ h => hfirst.trans h

theorem before (hp : p.ReadsWindow) (hq : q.ReadsWindow) : (Parser.before p q).ReadsWindow := by
  intro c d hw
  rw [ending_before, ending_before]
  refine (hp c d hw).resume (fun first first' hfirst => ?_) .failed
  refine (hq _ _ (hfirst.window_eq hw)).resume (fun second second' hsecond => ?_) .failed
  rw [hfirst.value_eq]
  exact .done ((hfirst.trans hsecond).withValue _)

theorem separated (hp : p.ReadsWindow) (hs : s.ReadsWindow) (hq : q.ReadsWindow) :
    (Parser.separated p s q).ReadsWindow := by
  intro c d hw
  rw [ending_separated, ending_separated]
  refine (hp c d hw).resume (fun first first' hfirst => ?_) .failed
  have hw' := hfirst.window_eq hw
  refine (hs _ _ hw').resume (fun separator separator' hseparator => ?_) .failed
  refine (hq _ _ (hseparator.window_eq hw')).resume (fun second second' hsecond => ?_) .failed
  rw [hfirst.value_eq, hsecond.value_eq]
  exact .done ((hfirst.trans (hseparator.trans hsecond)).withValue _)

theorem optional (hp : p.ReadsWindow) : (Parser.optional p).ReadsWindow := by
  intro c d hw
  rw [ending_optional, ending_optional]
  refine (hp c d hw).resume (fun m n hmn => ?_) fun _ => .done (.stay _)
  rw [hmn.value_eq]
  exact .done (hmn.withValue _)

theorem lookahead (hp : p.ReadsWindow) : (Parser.lookahead p).ReadsWindow := by
  intro c d hw
  rw [ending_lookahead, ending_lookahead]
  refine (hp c d hw).resume (fun m n hmn => ?_) .failed
  rw [hmn.value_eq]
  exact .done (.stay _)

theorem notFollowedBy (hp : p.ReadsWindow) : (Parser.notFollowedBy p).ReadsWindow := by
  intro c d hw
  rw [ending_notFollowedBy, ending_notFollowedBy]
  exact (hp c d hw).resume (fun _ _ _ => .failed _) fun _ => .done (.stay _)

theorem whole (hp : p.ReadsWindow) : (Parser.whole p).ReadsWindow := by
  intro c d hw
  rw [ending_whole, ending_whole]
  refine (hp c d hw).resume (fun m n hmn => ?_) .failed
  rw [Cursor.atEnd_congr (hmn.window_eq hw)]
  split
  · exact .done hmn
  · exact .failed _

theorem traced (on : Bool) (label : String) (hp : p.ReadsWindow) :
    (Parser.traced on label p).ReadsWindow := by
  intro c d hw
  rw [ending_traced, ending_traced]
  exact hp c d hw

theorem firstOf : ∀ {ps : List (Parser α)}, (∀ p ∈ ps, p.ReadsWindow) → (Parser.firstOf ps).ReadsWindow
  | [], _ => fun _ _ _ => .failed _
  | p :: ps, h => by
    intro c d hw
    rw [ending_firstOf_cons, ending_firstOf_cons]
    exact (h p List.mem_cons_self c d hw).resume (fun _ _ hmn => .done hmn) fun _ =>
      firstOf (fun q hq => h q (List.mem_cons_of_mem p hq)) c d hw

/-- The guard of a repetition compares lengths, and these are the same in both runs. -/
theorem repeated {goOn : Cursor → Bool} (hgoOn : ∀ c d, c.window = d.window → goOn c = goOn d)
    (repetition : String) (budget : Nat) (hp : p.ReadsWindow) :
    (Parser.repeated goOn repetition budget p).ReadsWindow := by
  induction budget with
  | zero => exact fun _ _ _ => .unfinished
  | succ budget ih =>
    intro c d hw
    rw [ending_repeated_succ, ending_repeated_succ, hgoOn c d hw, Cursor.length_congr hw]
    split
    · refine (hp c d hw).resume (fun m n hmn => ?_) fun _ => .done (.stay _)
      -- the windows after this step are equal again, so both runs pass the guard or neither does
      have hw' := hmn.window_eq hw
      rw [Cursor.length_congr hw']
      split
      · exact .raised _
      · refine (ih m.rest n.rest hw').resume (fun m' n' hmn' => ?_) .failed
        rw [hmn.value_eq, hmn'.value_eq]
        exact .done ((hmn.trans hmn').withValue _)
    · exact .done (.stay _)

theorem many (budget : Nat) (hp : p.ReadsWindow) : (Parser.many budget p).ReadsWindow := by
  intro c d hw
  rw [many_eq, many_eq]
  exact hp.repeated (fun _ _ _ => rfl) _ budget c d hw

theorem many1 (budget : Nat) (hp : p.ReadsWindow) : (Parser.many1 budget p).ReadsWindow := by
  intro c d hw
  rw [ending_many1, ending_many1]
  refine (hp.many budget c d hw).resume (fun m n hmn => ?_) .failed
  rw [hmn.value_eq]
  split
  · exact .failed _
  · exact .done hmn

/-- `span` compares positions and slices the source, both between the start of the window and the end of the chain.
As the chain has skipped as much in the one run as in the other, nothing outside the window shows. -/
theorem span (budget : Nat) (hp : p.ReadsWindow) : (Parser.span budget p).ReadsWindow := by
  intro c d hw
  rw [ending_span, ending_span, Cursor.atEnd_congr hw]
  split
  · exact .failed _
  · have hgoOn : ∀ c d : Cursor, c.window = d.window → (!c.atEnd) = !d.atEnd := by
      intro c d hw
      rw [Cursor.atEnd_congr hw]
    refine (hp.repeated hgoOn _ budget c d hw).resume (fun m n hmn => ?_) .failed
    obtain ⟨k, hm, hn⟩ := hmn.rest_eq
    have hconsumed : (c.skip k).pos - c.pos = (d.skip k).pos - d.pos := by
      have hlen := Cursor.length_congr hw
      have hc := c.pos_add_length
      have hd := d.pos_add_length
      rw [Cursor.pos_skip, Cursor.pos_skip]
      omega
    rw [hm, hn, (c.isRestOf_skip k).slice_eq, (d.isRestOf_skip k).slice_eq, hconsumed, hw]
    exact .done (.skip _ k)

end ReadsWindow

end Parser

/-! ## Grammars read their window only -/

/-- One layer of combinators over leaves and rules that read their window. -/
theorem Grammar.parser_readsWindow {σ : Setting} (hcall : ∀ r, (σ.call r).ReadsWindow) {g : Grammar}
    (hg : g.Over Parser.ReadsWindow) : (g.parser σ).ReadsWindow := by
  induction hg with
  | take count => exact (Parser.readsWindow_take count).as _
  | byte expected => exact (Parser.readsWindow_satisfy _).as _
  | literal expected => exact (Parser.readsWindow_literal expected).as _
  | satisfy test => exact (Parser.readsWindow_satisfy test).as _
  | upToFirst test => exact (Parser.readsWindow_upToFirst test).as _
  | upToFirst1 test => exact (Parser.readsWindow_upToFirst test).nonempty.as _
  | upToLast test => exact (Parser.readsWindow_upToLast test).as _
  | upToLast1 test => exact (Parser.readsWindow_upToLast test).nonempty.as _
  | span _ ih => exact (ih.span _).as _
  | span1 _ ih => exact (ih.span _).nonempty.as _
  | map f _ ih => exact ih.map f
  | separated _ _ _ ihl ihs ihr => exact (ihl.separated ihs ihr).as _
  | andThen _ _ ihf ihs => exact ihf.andThen ihs
  | before _ _ ihf ihs => exact ihf.before ihs
  | optional _ ih => exact ih.optional.as _
  | notFollowedBy _ ih => exact ih.notFollowedBy.as _
  | lookahead _ ih => exact ih.lookahead
  | many1 _ ih => exact (ih.many1 _).as _
  | many _ ih => exact (ih.many _).as _
  | firstOf _ ih =>
    rw [Grammar.parser, parsers_eq_map]
    exact .firstOf (List.forall_mem_map.2 ih)
  | endOfInput => exact Parser.readsWindow_endOfInput.as _
  | moreInput => exact Parser.readsWindow_moreInput.as _
  | whole _ ih => exact ih.whole
  | traced label _ ih => exact ih.traced _ label
  | rule r => exact hcall r
  | leaf hp => exact hp

namespace Rulebook

variable {book : Rulebook}

/-- At every fuel two runs over equal windows stay in step. -/
theorem parser_readsWindow (hbook : book.Over Parser.ReadsWindow) (tracing : Bool) (fuel : Nat)
    {g : Grammar} (hg : g.Over Parser.ReadsWindow) : (book.parser tracing fuel g).ReadsWindow :=
  book.parser_induct tracing (fun _ _ _ => .unfinished) (fun _ _ _ _ => .raised _)
    (fun _ hcall _ hg => Grammar.parser_readsWindow hcall hg) hbook fuel hg

/-! ## Two applications -/

/-- **`book.Alike tracing g c d`** — applied to `c` and to `d`, the parser that `g` stands for does the same: it
matches twice, with the same value and after as many bytes, or fails twice for the same reason, or ends
twice with the same fault, or never ends. -/
def Alike (book : Rulebook) (tracing : Bool) (g : Grammar) (c d : Cursor) : Prop :=
  (∃ e e', book.Ends tracing g c e ∧ book.Ends tracing g d e' ∧ e.Rel (Match.SameFrom c d) e') ∨
    (∀ e, ¬ book.Ends tracing g c e) ∧ ∀ e, ¬ book.Ends tracing g d e

/-- Fuel that is enough for one of two equal windows is enough for the other. -/
theorem alike_of_ends (hbook : book.IsLibrary) {g : Grammar} (hg : g.IsLibrary) {tracing : Bool} {c d : Cursor}
    (hw : c.window = d.window) {e : Ending (Match Value)} (h : book.Ends tracing g c e) :
    ∃ e', book.Ends tracing g d e' ∧ e.Rel (Match.SameFrom c d) e' := by
  obtain ⟨fuel, hfuel⟩ := h.exists_fuel
  have hrel := parser_readsWindow hbook.over tracing fuel hg.over c d hw
  rw [hfuel] at hrel
  exact ⟨_, ends_of_ending rfl (hrel.ne_unfinished_iff.1 h.1), hrel.mono fun _ _ h => h.sameFrom hw⟩

/-- **A parser reads its window and nothing else.** Cursors with equal windows are not told apart, whatever their
sources, their positions and their ends are; in particular a window does as well as a copy of its bytes. -/
theorem alike_of_window_eq (hbook : book.IsLibrary) {g : Grammar} (hg : g.IsLibrary) (tracing : Bool)
    {c d : Cursor} (hw : c.window = d.window) :
    book.Alike tracing g c d ∧
      book.Alike tracing g c (Cursor.ofBytes (c.source.extract c.pos c.stop)) := by
  have key : ∀ d : Cursor, c.window = d.window → book.Alike tracing g c d := by
    intro d hw
    -- whether the first application ends is not decided by any fuel, hence classically
    by_cases hc : ∃ e, book.Ends tracing g c e
    · obtain ⟨e, he⟩ := hc
      obtain ⟨e', he', hrel⟩ := alike_of_ends hbook hg hw he
      exact Or.inl ⟨e, e', he, he', hrel⟩
    · right
      refine ⟨fun e he => hc ⟨e, he⟩, fun e he => ?_⟩
      obtain ⟨e', he', -⟩ := alike_of_ends hbook hg hw.symm he
      exact hc ⟨e', he'⟩
  exact ⟨key d hw, key _ (Cursor.window_ofBytes_extract c).symm⟩

/-- The same brackets twice: once among letters, and once among more brackets, none of which is read. -/
theorem alike_of_window_eq_parens :
    let c : Cursor := ⟨⟨#[0x61, 0x28, 0x28, 0x29, 0x29, 0x62]⟩, 1, 5, by decide, by decide⟩
    let d : Cursor := ⟨⟨#[0x28, 0x28, 0x28, 0x28, 0x29, 0x29, 0x29, 0x29]⟩, 2, 6, by decide, by decide⟩
    let g : Grammar := .many1 (.rule group)
    parens.IsLibrary ∧ g.IsLibrary ∧ c.window = d.window ∧ parens.Alike false g c d ∧
      parens.Alike false g c (Cursor.ofBytes (c.source.extract c.pos c.stop)) := by
  intro c d g
  have hg : g.IsLibrary := .many1 (.rule group)
  have hw : c.window = d.window := by decide +kernel
  exact ⟨isLibrary_parens, hg, hw, alike_of_window_eq isLibrary_parens hg false hw⟩

end Rulebook

end Bytewise
