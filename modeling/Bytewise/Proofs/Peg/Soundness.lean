/-
# Bytewise.Proofs.Peg.Soundness — what a parser answers can be derived.

Whatever an application ends with, a match or a failure, the reference semantics has a derivation of it. One
layer of combinators is followed by the rules of the same name (`Rulebook.follows_layer`), a repetition by the rules of
`Repeats`, step by step, and calls of rules by induction on their depth.
-/
import Bytewise.Proofs.Consuming
import Bytewise.Proofs.Peg.Semantics

namespace Bytewise

namespace Rulebook

variable {book : Rulebook} {σ : Setting}

/-- **`book.Follows g p`** — wherever `p` matches or fails, `g` has that verdict on the window. -/
def Follows (book : Rulebook) (g : Grammar) (p : Parser Value) : Prop :=
  ∀ c, (p c).ending.Yields (fun m => book.Derives g c.window (.ok m.value m.rest.window))
    fun reason => book.Derives g c.window (.fail reason)

/-! ## Terminals and scans -/

theorem follows_take (count : Nat) : book.Follows (.take count) ((Grammar.take count).parser σ) := by
  intro c
  have hlen := c.length_window
  rw [Grammar.ending_take]
  split
  · rename_i hzero
    subst hzero
    exact .take_zero
  · rename_i hzero
    split
    · exact .take_short (by omega)
    · show book.Derives _ _ (.ok _ (c.skip count).window)
      rw [Cursor.window_skip]
      refine .take hzero (List.take_append_drop count c.window).symm ?_
      rw [List.length_take]
      omega

theorem follows_satisfy (test : Predicate) : book.Follows (.satisfy test) ((Grammar.satisfy test).parser σ) := by
  intro c
  rw [Grammar.ending_satisfy]
  cases hw : c.window with
  | nil => exact .satisfy_empty
  | cons b rest =>
    dsimp only
    split
    · trivial
    · rename_i hb
      show book.Derives _ _ (.ok _ (c.skip 1).window)
      rw [Cursor.window_skip, hw]
      exact .satisfy hb
    · rename_i hb
      exact .satisfy_other hb

theorem follows_byte (expected : UInt8) : book.Follows (.byte expected) ((Grammar.byte expected).parser σ) := by
  intro c
  rw [Grammar.parser_byte, Grammar.ending_satisfy]
  cases hw : c.window with
  | nil => exact .byte_empty
  | cons b rest =>
    dsimp only
    split
    · trivial
    · rename_i hb
      obtain rfl : b = expected := by simpa using hb
      show book.Derives _ _ (.ok _ (c.skip 1).window)
      rw [Cursor.window_skip, hw]
      exact .byte
    · rename_i hb
      exact .byte_other (by simpa using hb)

theorem follows_literal (expected : List UInt8) :
    book.Follows (.literal expected) ((Grammar.literal expected).parser σ) := by
  intro c
  have hlen := c.length_window
  rw [Grammar.ending_literal]
  split
  · rename_i hw
    rw [hw]
    exact .literal_empty
  · rename_i hw
    split
    · exact .literal_short hw (by omega)
    · split
      · rename_i hstarts
        obtain ⟨rest, hrest⟩ := (c.startsWith_iff expected).1 hstarts
        show book.Derives _ _ (.ok _ (c.skip expected.length).window)
        rw [Cursor.window_skip, ← hrest, List.drop_left]
        exact .literal (hrest ▸ hw) rfl
      · rename_i hstarts
        exact .literal_other hw (by omega) fun h => hstarts ((c.startsWith_iff expected).2 h)

theorem follows_endOfInput : book.Follows .endOfInput (Grammar.endOfInput.parser σ) := by
  intro c
  rw [Grammar.ending_endOfInput]
  split
  · rename_i hend
    show book.Derives _ c.window (.ok _ c.window)
    rw [c.atEnd_iff.1 hend]
    exact .endOfInput
  · rename_i hend
    obtain ⟨b, rest, hw⟩ := List.exists_cons_of_ne_nil fun h => hend (c.atEnd_iff.2 h)
    rw [hw]
    exact .endOfInput_more

theorem follows_moreInput : book.Follows .moreInput (Grammar.moreInput.parser σ) := by
  intro c
  rw [Grammar.ending_moreInput]
  split
  · rename_i hend
    rw [c.atEnd_iff.1 hend]
    exact .moreInput_empty
  · rename_i hend
    obtain ⟨b, rest, hw⟩ := List.exists_cons_of_ne_nil fun h => hend (c.atEnd_iff.2 h)
    show book.Derives _ c.window (.ok _ c.window)
    rw [hw]
    exact .moreInput

theorem follows_upToFirst (test : Predicate) :
    book.Follows (.upToFirst test) ((Grammar.upToFirst test).parser σ) := by
  intro c
  rw [Grammar.ending_upToFirst]
  cases hfound : firstIndex test c.window with
  | error fault => trivial
  | ok offset =>
    show book.Derives _ _ (.ok _ (c.skip (offset.getD c.length)).window)
    rw [Cursor.window_skip, ← Cursor.length_window]
    cases offset with
    | none =>
      rw [Option.getD_none, List.take_length, List.drop_length]
      exact .upToFirst_all (firstIndex_eq_none_iff.1 hfound)
    | some i =>
      obtain ⟨front, b, back, hsplit, rfl, hfront, hb⟩ := firstIndex_eq_some_iff.1 hfound
      rw [Option.getD_some, hsplit, List.take_left, List.drop_left]
      exact .upToFirst rfl hfront hb

theorem follows_upToLast (test : Predicate) :
    book.Follows (.upToLast test) ((Grammar.upToLast test).parser σ) := by
  intro c
  rw [Grammar.ending_upToLast]
  cases hfound : lastIndex test c.window with
  | error fault => trivial
  | ok offset =>
    show book.Derives _ _ (.ok _ (c.skip (offset.getD c.length)).window)
    rw [Cursor.window_skip, ← Cursor.length_window]
    cases offset with
    | none =>
      rw [Option.getD_none, List.take_length, List.drop_length]
      exact .upToLast_all (lastIndex_eq_none_iff.1 hfound)
    | some i =>
      obtain ⟨front, b, back, hsplit, rfl, hb, hback⟩ := lastIndex_eq_some_iff.1 hfound
      rw [Option.getD_some, hsplit, List.take_left, List.drop_left]
      exact .upToLast rfl hb hback

/-! ## Repetitions -/

section

variable {inner : Grammar} {p : Parser Value}

/-- **A repetition follows `Repeats`**, one step after the other; it never fails. -/
theorem repeated_follows (hp : book.Follows inner p) (hadvances : p.OnlyAdvances) {untilEnd : Bool}
    {goOn : Cursor → Bool} (hgoOn : ∀ c, goOn c = !(untilEnd && c.atEnd)) (repetition : String) (budget : Nat)
    (c : Cursor) :
    (Parser.repeated goOn repetition budget p c).ending.Yields
      (fun m => book.Repeats untilEnd inner c.window m.value m.rest.window) fun _ => False := by
  induction budget generalizing c with
  | zero => trivial
  | succ budget ih =>
    rw [Parser.ending_repeated_succ]
    split
    · refine ((hp c).and_holds (hadvances c)).resume (fun m hm => ?_) fun reason hreason => .stop hreason
      obtain ⟨hderives, hrest⟩ := hm
      have hle := hrest.length_le
      split
      · trivial
      · -- the window is not as long as before, and it cannot be longer
        rename_i hne
        refine (ih m.rest).resume (fun n hn => ?_) fun _ hfalse => hfalse
        refine .step hderives ?_ hn
        rw [Cursor.length_window, Cursor.length_window]
        omega
    · rename_i hstop
      -- the loop does not ask at the end of the window, and only `untilEnd` makes it stop there
      have hend : (untilEnd && c.atEnd) = true := by simpa [hgoOn] using hstop
      obtain ⟨rfl, hatEnd⟩ := (Bool.and_eq_true _ _).mp hend
      show book.Repeats true inner c.window [] c.window
      rw [c.atEnd_iff.1 hatEnd]
      exact .atEnd

variable (hinner : book.Follows inner (inner.parser σ)) (hadvances : (inner.parser σ).OnlyAdvances)

include hinner hadvances

theorem follows_many : book.Follows (.many inner) ((Grammar.many inner).parser σ) := by
  intro c
  have hgoOn : ∀ c : Cursor, true = !(false && c.atEnd) := fun _ => rfl
  rw [Grammar.ending_many]
  refine (repeated_follows hinner hadvances hgoOn _ σ.budget c).resume ?_ fun _ hfalse => hfalse.elim
  exact fun m hm => .many hm

theorem follows_many1 : book.Follows (.many1 inner) ((Grammar.many1 inner).parser σ) := by
  intro c
  have hgoOn : ∀ c : Cursor, true = !(false && c.atEnd) := fun _ => rfl
  rw [Grammar.ending_many1]
  refine (repeated_follows hinner hadvances hgoOn _ σ.budget c).resume ?_ fun _ hfalse => hfalse.elim
  intro m hm
  cases hv : m.value with
  | nil =>
    rw [hv] at hm
    exact .many1_none hm
  | cons v vs =>
    rw [hv] at hm
    exact .many1 hm

theorem follows_span : book.Follows (.span inner) ((Grammar.span inner).parser σ) := by
  intro c
  have hgoOn : ∀ c : Cursor, (!c.atEnd) = !(true && c.atEnd) := fun _ => by rw [Bool.true_and]
  rw [Grammar.ending_span]
  split
  · rename_i hend
    rw [c.atEnd_iff.1 hend]
    exact .span_empty
  · rename_i hend
    have hrest := hadvances.repeated (fun here => !here.atEnd) "take_while" σ.budget c
    refine ((repeated_follows hinner hadvances hgoOn _ σ.budget c).and_holds hrest).resume ?_
      fun _ hfalse => hfalse.elim
    rintro m ⟨hm, hrest⟩
    rw [hrest.slice_eq]
    refine .span (fun hw => hend (c.atEnd_iff.2 hw)) hm ?_
    rw [hrest.window_eq, List.take_append_drop]

end

/-! ## Scans that have to take something -/

/-- A scan that refuses to take nothing follows its rules if the plain scan does. -/
theorem follows_refuseEmpty {plain refusing : Grammar} (hplain : book.Follows plain (plain.parser σ))
    (hslice : ∀ c, (plain.parser σ c).ending.Holds (Match.IsSlice c))
    (heq : ∀ c, (refusing.parser σ c).ending = (plain.parser σ c).ending.resume Match.refuseEmpty .failed)
    (something : ∀ {w front rest}, book.Derives plain w (.ok (.bytes front) rest) → front ≠ [] →
      book.Derives refusing w (.ok (.bytes front) rest))
    (nothing : ∀ {w rest}, book.Derives plain w (.ok (.bytes []) rest) →
      book.Derives refusing w (.fail .nothingConsumed))
    (fail : ∀ {w reason}, book.Derives plain w (.fail reason) → book.Derives refusing w (.fail reason)) :
    book.Follows refusing (refusing.parser σ) := by
  intro c
  rw [heq]
  refine ((hplain c).and_holds (hslice c)).resume ?_ fun reason hreason => fail hreason
  rintro m ⟨hm, hm'⟩
  -- that the value is a slice makes the test of the value a test of what was consumed
  unfold Match.refuseEmpty
  rw [hm'.value_eq] at hm ⊢
  cases hfront : c.window.take (m.rest.pos - c.pos) with
  | nil =>
    rw [hfront] at hm
    exact nothing hm
  | cons b front =>
    rw [hfront] at hm
    have hderives := something hm (List.cons_ne_nil b front)
    rw [← hfront, ← hm'.value_eq] at hderives
    exact hderives

theorem follows_upToFirst1 (test : Predicate) :
    book.Follows (.upToFirst1 test) ((Grammar.upToFirst1 test).parser σ) := by
  apply follows_refuseEmpty (follows_upToFirst test) (Grammar.isSlice_upToFirst test)
  · exact fun c => Grammar.ending_upToFirst1 σ c test
  · exact .upToFirst1
  · exact .upToFirst1_nothing
  · exact nofun

theorem follows_upToLast1 (test : Predicate) :
    book.Follows (.upToLast1 test) ((Grammar.upToLast1 test).parser σ) := by
  apply follows_refuseEmpty (follows_upToLast test) (Grammar.isSlice_upToLast test)
  · exact fun c => Grammar.ending_upToLast1 σ c test
  · exact .upToLast1
  · exact .upToLast1_nothing
  · exact nofun

theorem follows_span1 {inner : Grammar} (hinner : book.Follows inner (inner.parser σ))
    (hadvances : (inner.parser σ).OnlyAdvances) :
    book.Follows (.span1 inner) ((Grammar.span1 inner).parser σ) := by
  apply follows_refuseEmpty (follows_span hinner hadvances) (Grammar.isSlice_span hadvances)
  · exact fun c => Grammar.ending_span1 σ c inner
  · exact .span1
  · exact .span1_nothing
  · exact .span1_fail

/-! ## Sequences, lookaheads and choice -/

section

variable {inner first second : Grammar}

theorem follows_andThen (hfirst : book.Follows first (first.parser σ))
    (hsecond : book.Follows second (second.parser σ)) :
    book.Follows (.andThen first second) ((Grammar.andThen first second).parser σ) := by
  intro c
  rw [Grammar.ending_andThen]
  refine (hfirst c).resume (fun m hm => ?_) fun reason hreason => .andThen_fail hreason
  exact (hsecond m.rest).mono (fun n hn => .andThen hm hn) fun reason hreason => .andThen hm hreason

theorem follows_before (hfirst : book.Follows first (first.parser σ))
    (hsecond : book.Follows second (second.parser σ)) :
    book.Follows (.before first second) ((Grammar.before first second).parser σ) := by
  intro c
  rw [Grammar.ending_before]
  refine (hfirst c).resume (fun m hm => ?_) fun reason hreason => .before_fail hreason
  refine (hsecond m.rest).resume (fun n hn => ?_) fun reason hreason => ?_
  · exact .before hm hn
  · exact .before_fail_second hm hreason

theorem follows_separated {left separator right : Grammar} (hleft : book.Follows left (left.parser σ))
    (hseparator : book.Follows separator (separator.parser σ)) (hright : book.Follows right (right.parser σ)) :
    book.Follows (.separated left separator right) ((Grammar.separated left separator right).parser σ) := by
  intro c
  rw [Grammar.ending_separated]
  refine (hleft c).resume (fun m hm => ?_) fun reason hreason => .separated_fail hreason
  refine (hseparator m.rest).resume (fun k hk => ?_) fun reason hreason => ?_
  · refine (hright k.rest).resume (fun n hn => ?_) fun reason hreason => ?_
    · exact .separated hm hk hn
    · exact .separated_fail_right hm hk hreason
  · exact .separated_fail_separator hm hreason

/-- The test for the end is that of `endOfInput`. -/
theorem follows_whole (hinner : book.Follows inner (inner.parser σ)) :
    book.Follows (.whole inner) ((Grammar.whole inner).parser σ) := by
  intro c
  rw [Grammar.ending_whole]
  refine (hinner c).resume (fun m hm => ?_) fun reason hreason => .whole (.before_fail hreason)
  split
  · rename_i hend
    show book.Derives _ _ (.ok m.value m.rest.window)
    rw [m.rest.atEnd_iff.1 hend] at hm ⊢
    exact .whole (.before hm .endOfInput)
  · rename_i hend
    obtain ⟨b, rest, hw⟩ := List.exists_cons_of_ne_nil fun h => hend (m.rest.atEnd_iff.2 h)
    rw [hw] at hm
    exact .whole (.before_fail_second hm .endOfInput_more)

theorem follows_optional (hinner : book.Follows inner (inner.parser σ)) :
    book.Follows (.optional inner) ((Grammar.optional inner).parser σ) := by
  intro c
  rw [Grammar.ending_optional]
  exact (hinner c).resume (fun m hm => .optional hm) fun reason hreason => .optional_none hreason

theorem follows_lookahead (hinner : book.Follows inner (inner.parser σ)) :
    book.Follows (.lookahead inner) ((Grammar.lookahead inner).parser σ) := by
  intro c
  rw [Grammar.ending_lookahead]
  exact (hinner c).resume (fun m hm => .lookahead hm) fun reason hreason => .lookahead_fail hreason

theorem follows_notFollowedBy (hinner : book.Follows inner (inner.parser σ)) :
    book.Follows (.notFollowedBy inner) ((Grammar.notFollowedBy inner).parser σ) := by
  intro c
  rw [Grammar.ending_notFollowedBy]
  exact (hinner c).resume (fun m hm => .notFollowedBy_fail hm) fun reason hreason => .notFollowedBy hreason

theorem follows_firstOf : ∀ {gs : List Grammar}, (∀ g ∈ gs, book.Follows g (g.parser σ)) →
    book.Follows (.firstOf gs) ((Grammar.firstOf gs).parser σ)
  | [], _ => fun _ => .firstOf_nil
  | g :: gs, h => by
    obtain ⟨hg, hgs⟩ := List.forall_mem_cons.1 h
    intro c
    rw [Grammar.ending_firstOf_cons]
    refine (hg c).resume (fun m hm => .firstOf_head hm) fun reason hreason => ?_
    refine (follows_firstOf hgs c).mono (fun n hn => ?_) fun reason' hreason' => ?_
    · exact .firstOf_tail hreason hn
    · exact .firstOf_tail hreason hreason'

theorem follows_map (f : Value → Except Fault Value) (hinner : book.Follows inner (inner.parser σ)) :
    book.Follows (.map f inner) ((Grammar.map f inner).parser σ) := by
  intro c
  rw [Grammar.ending_map]
  refine (hinner c).resume (fun m hm => ?_) fun reason hreason => .map_fail hreason
  cases hf : f m.value with
  | error fault => trivial
  | ok value => exact .map hm hf

theorem follows_traced (label : String) (hinner : book.Follows inner (inner.parser σ)) :
    book.Follows (.traced label inner) ((Grammar.traced label inner).parser σ) := by
  intro c
  rw [Grammar.ending_traced]
  exact (hinner c).mono (fun m hm => .traced hm) fun reason hreason => .traced hreason

end

/-! ## Grammars and rules -/

/-- **One layer of combinators follows the rules** if what the rules stand for does. -/
theorem follows_layer (hadvances : ∀ r, (σ.call r).OnlyAdvances)
    (hcall : ∀ r, book.Follows (.rule r) (σ.call r)) {g : Grammar} (hg : g.IsLibrary) :
    book.Follows g (g.parser σ) := by
  have honly : ∀ {inner : Grammar}, inner.IsLibrary → (inner.parser σ).OnlyAdvances :=
    fun h => Grammar.parser_onlyAdvances hadvances (Grammar.IsLibrary.over h)
  induction hg with
  | take count => exact follows_take count
  | byte expected => exact follows_byte expected
  | literal expected => exact follows_literal expected
  | satisfy test => exact follows_satisfy test
  | upToFirst test => exact follows_upToFirst test
  | upToFirst1 test => exact follows_upToFirst1 test
  | upToLast test => exact follows_upToLast test
  | upToLast1 test => exact follows_upToLast1 test
  | span h ih => exact follows_span ih (honly h)
  | span1 h ih => exact follows_span1 ih (honly h)
  | map f _ ih => exact follows_map f ih
  | separated _ _ _ ihl ihs ihr => exact follows_separated ihl ihs ihr
  | andThen _ _ ihf ihs => exact follows_andThen ihf ihs
  | before _ _ ihf ihs => exact follows_before ihf ihs
  | optional _ ih => exact follows_optional ih
  | notFollowedBy _ ih => exact follows_notFollowedBy ih
  | lookahead _ ih => exact follows_lookahead ih
  | many1 h ih => exact follows_many1 ih (honly h)
  | many h ih => exact follows_many ih (honly h)
  | firstOf _ ih => exact follows_firstOf ih
  | endOfInput => exact follows_endOfInput
  | moreInput => exact follows_moreInput
  | whole _ ih => exact follows_whole ih
  | traced label _ ih => exact follows_traced label ih
  | rule r => exact hcall r
  | leaf hp => exact hp.elim

/-- A rule follows its definition, call by call. -/
theorem call_follows (hbook : book.IsLibrary) (tracing : Bool) (depth : Nat) (r : Rule) :
    book.Follows (.rule r) (book.call tracing depth r) := by
  induction depth generalizing r with
  | zero => exact fun c => trivial
  | succ depth ih =>
    cases hfind : book.find? r with
    | none =>
      rw [call_of_none book tracing hfind]
      exact fun c => trivial
    | some g =>
      rw [call_of_some book tracing hfind]
      intro c
      have hadvances : ∀ r, (book.call tracing depth r).OnlyAdvances := call_onlyAdvances hbook.over tracing depth
      have hg : book.Follows g (book.parser tracing depth g) :=
        follows_layer (σ := book.setting tracing depth) hadvances ih (hbook r g hfind)
      exact (hg c).mono (fun m hm => .rule hfind hm) fun reason hreason => .rule hfind hreason

/-- **Every parser over a rulebook follows the rules of the reference semantics.** -/
theorem parser_follows (hbook : book.IsLibrary) {g : Grammar} (hg : g.IsLibrary) (tracing : Bool) (fuel : Nat) :
    book.Follows g (book.parser tracing fuel g) := by
  have hadvances : ∀ r, (book.call tracing fuel r).OnlyAdvances := call_onlyAdvances hbook.over tracing fuel
  exact follows_layer (σ := book.setting tracing fuel) hadvances (call_follows hbook tracing fuel) hg

end Rulebook

end Bytewise
