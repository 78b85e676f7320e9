/-
# Bytewise.Proofs.Suffix — what a match leaves is a suffix of the window.

A match of a combinator leaves a cursor over the same source, with the same end, that starts where the old
one did or later. This is a property of the combinators and of the leaves together (`Parser.OnlyAdvances`): every
combinator keeps it, so a grammar has it if its leaves do, and grammars without leaves have it outright.
`match_rest_isRestOf` is the statement for grammars over any rules; everything that reasons about how
much a parser consumed starts from it.
-/
import Bytewise.Proofs.Ending
import Bytewise.Proofs.Library

namespace Bytewise

/-! ## Suffixes of a window -/

/-- **`d.IsRestOf c`** — `d` is what is left of `c` after some bytes. -/
structure Cursor.IsRestOf (d c : Cursor) : Prop where
  source_eq : d.source = c.source
  stop_eq : d.stop = c.stop
  pos_le : c.pos ≤ d.pos

namespace Cursor

variable {b c d : Cursor}

theorem IsRestOf.refl (c : Cursor) : c.IsRestOf c :=
  ⟨rfl, rfl, Nat.le_refl _⟩

theorem IsRestOf.trans (hdc : d.IsRestOf c) (hcb : c.IsRestOf b) : d.IsRestOf b :=
  ⟨hdc.source_eq.trans hcb.source_eq, hdc.stop_eq.trans hcb.stop_eq, Nat.le_trans hcb.pos_le hdc.pos_le⟩

theorem isRestOf_skip (c : Cursor) (count : Nat) : (c.skip count).IsRestOf c := by
  refine ⟨rfl, rfl, ?_⟩
  rw [pos_skip]
  exact Nat.le_min.2 ⟨Nat.le_add_right _ _, c.pos_le_stop⟩

/-- A rest starts in the window or at its end. -/
theorem IsRestOf.pos_le_stop (h : d.IsRestOf c) : d.pos ≤ c.stop :=
  h.stop_eq ▸ d.pos_le_stop

theorem IsRestOf.length_le (h : d.IsRestOf c) : d.length ≤ c.length := by
  have hpos := h.pos_le
  rw [length, length, h.stop_eq]
  omega

/-- A rest is what skipping gives. -/
theorem IsRestOf.eq_skip (h : d.IsRestOf c) : d = c.skip (d.pos - c.pos) := by
  have hpos := h.pos_le
  have hstop := h.pos_le_stop
  refine Cursor.ext h.source_eq ?_ h.stop_eq
  rw [pos_skip]
  omega

/-- **The bytes of a rest** are those of the window without the first ones. -/
theorem IsRestOf.window_eq (h : d.IsRestOf c) : d.window = c.window.drop (d.pos - c.pos) := by
  conv => lhs; rw [h.eq_skip, window_skip]

/-- What was consumed and what is left make up the window. -/
theorem IsRestOf.pos_sub_add_length (h : d.IsRestOf c) : d.pos - c.pos + d.length = c.length := by
  have hpos := h.pos_le
  have hd := d.pos_le_stop
  have hstop := h.stop_eq
  simp only [length]
  omega

/-- The bytes from a window's start to the start of its rest, which is what `span` gives. Where nothing was
consumed the rest is the window itself. -/
theorem IsRestOf.slice_eq (h : d.IsRestOf c) :
    (if d.pos = c.pos then ⟨[], c⟩ else ⟨c.sliceTo d.pos, d⟩ : Match (List UInt8)) =
      ⟨c.window.take (d.pos - c.pos), d⟩ := by
  have hpos := h.pos_le
  split
  · rename_i heq
    rw [heq, Nat.sub_self, List.take_zero, Cursor.ext h.source_eq heq h.stop_eq]
  · have hto : ((d.pos : Int) - c.pos).toNat = d.pos - c.pos := by omega
    rw [sliceTo_of_nonneg c (Int.natCast_nonneg d.pos), hto]

end Cursor

/-! ## Parsers that only advance -/

/-- **`p.OnlyAdvances`** — a match of `p` leaves a rest of the window it started from. -/
def Parser.OnlyAdvances {α : Type} (p : Parser α) : Prop :=
  ∀ c, (p c).ending.Holds fun m => m.rest.IsRestOf c

namespace Parser

variable {α β γ : Type}

theorem onlyAdvances_take (count : Nat) : (take count).OnlyAdvances := by
  intro c
  rw [take_eq]
  split
  · exact .failed _
  · split
    · exact .failed _
    · exact .done (c.isRestOf_skip count)

theorem onlyAdvances_literal (expected : List UInt8) : (literal expected).OnlyAdvances := by
  intro c
  rw [literal_eq]
  split
  · exact .failed _
  · split
    · exact .failed _
    · split
      · exact .done (c.isRestOf_skip _)
      · exact .failed _

theorem onlyAdvances_satisfy (test : UInt8 → Except Fault Bool) : (satisfy test).OnlyAdvances := by
  intro c
  rw [satisfy_eq]
  cases c.window with
  | nil => exact .failed _
  | cons b bs =>
    dsimp only
    cases test b with
    | error fault => exact .raised fault
    | ok answer =>
      cases answer with
      | true => exact .done (c.isRestOf_skip 1)
      | false => exact .failed _

/-- A scan moves to a place in the window, wherever its search found one. -/
theorem onlyAdvances_splitAt (search : Cursor → Except Fault (Option Nat)) :
    (splitAt search).OnlyAdvances := by
  intro c
  rw [splitAt_eq]
  cases search c with
  | error fault => exact .raised fault
  | ok offset => exact .done (c.isRestOf_skip _)

theorem onlyAdvances_endOfInput : endOfInput.OnlyAdvances := by
  intro c
  rw [ending_endOfInput]
  split
  · exact .done (.refl c)
  · exact .failed _

theorem onlyAdvances_moreInput : moreInput.OnlyAdvances := by
  intro c
  rw [ending_moreInput]
  split
  · exact .failed _
  · exact .done (.refl c)

namespace OnlyAdvances

variable {p : Parser α} {q : Parser β} {s : Parser γ}

theorem map (f : α → Except Fault β) (hp : p.OnlyAdvances) : (p.map f).OnlyAdvances := by
  intro c
  rw [ending_map]
  refine (hp c).resume (fun m hm => ?_) .failed
  cases f m.value with
  | error fault => exact .raised fault
  | ok value => exact .done hm

theorem as (f : α → β) (hp : p.OnlyAdvances) : (p.as f).OnlyAdvances :=
  hp.map _

theorem nonempty {p : Parser (List UInt8)} (hp : p.OnlyAdvances) : p.nonempty.OnlyAdvances := by
  intro c
  rw [ending_nonempty]
  refine (hp c).resume (fun m hm => ?_) .failed
  split
  · exact .failed _
  · exact .done hm

theorem andThen (hp : p.OnlyAdvances) (hq : q.OnlyAdvances) : (Parser.andThen p q).OnlyAdvances := by
  intro c
  rw [ending_andThen]
  exact (hp c).resume (fun first hfirst => (hq first.rest).mono fun _ h => h.trans hfirst) .failed

theorem before (hp : p.OnlyAdvances) (hq : q.OnlyAdvances) : (Parser.before p q).OnlyAdvances := by
  intro c
  rw [ending_before]
  refine (hp c).resume (fun first hfirst => ?_) .failed
  exact (hq first.rest).resume (fun second hsecond => .done (hsecond.trans hfirst)) .failed

theorem separated (hp : p.OnlyAdvances) (hs : s.OnlyAdvances) (hq : q.OnlyAdvances) :
    (Parser.separated p s q).OnlyAdvances := by
  intro c
  rw [ending_separated]
  refine (hp c).resume (fun first hfirst => ?_) .failed
  refine (hs first.rest).resume (fun separator hseparator => ?_) .failed
  refine (hq separator.rest).resume (fun second hsecond => ?_) .failed
  exact .done (hsecond.trans (hseparator.trans hfirst))

theorem optional (hp : p.OnlyAdvances) : (Parser.optional p).OnlyAdvances := by
  intro c
  rw [ending_optional]
  exact (hp c).resume (fun _ hm => .done hm) fun _ => .done (.refl c)

theorem lookahead (hp : p.OnlyAdvances) : (Parser.lookahead p).OnlyAdvances := by
  intro c
  rw [ending_lookahead]
  exact (hp c).resume (fun _ _ => .done (.refl c)) .failed

theorem notFollowedBy (hp : p.OnlyAdvances) : (Parser.notFollowedBy p).OnlyAdvances := by
  intro c
  rw [ending_notFollowedBy]
  exact (hp c).resume (fun _ _ => .failed _) fun _ => .done (.refl c)

theorem whole (hp : p.OnlyAdvances) : (Parser.whole p).OnlyAdvances := by
  intro c
  rw [ending_whole]
  refine (hp c).resume (fun m hm => ?_) .failed
  split
  · exact .done hm
  · exact .failed _

theorem traced (on : Bool) (label : String) (hp : p.OnlyAdvances) :
    (Parser.traced on label p).OnlyAdvances := by
  intro c
  rw [ending_traced]
  exact hp c

theorem firstOf : ∀ {ps : List (Parser α)}, (∀ p ∈ ps, p.OnlyAdvances) → (Parser.firstOf ps).OnlyAdvances
  | [], _ => fun _ => .failed _
  | p :: ps, h => by
    intro c
    rw [ending_firstOf_cons]
    exact (h p List.mem_cons_self c).resume (fun _ hm => .done hm) fun _ =>
      firstOf (fun q hq => h q (List.mem_cons_of_mem p hq)) c

/-- Step by step: each match of the inner parser leaves a rest of the rest before it. -/
theorem repeated (goOn : Cursor → Bool) (repetition : String) (budget : Nat) (hp : p.OnlyAdvances) :
    (Parser.repeated goOn repetition budget p).OnlyAdvances := by
  induction budget with
  | zero => exact fun c => .unfinished
  | succ budget ih =>
    intro c
    rw [ending_repeated_succ]
    split
    · refine (hp c).resume (fun m hm => ?_) fun _ => .done (.refl c)
      split
      · exact .raised _
      · exact (ih m.rest).resume (fun n hn => .done (hn.trans hm)) .failed
    · exact .done (.refl c)

theorem many (budget : Nat) (hp : p.OnlyAdvances) : (Parser.many budget p).OnlyAdvances := by
  intro c
  -- in this form, without the handler that turns no match into the empty list
  rw [many_eq]
  exact hp.repeated _ _ budget c

theorem many1 (budget : Nat) (hp : p.OnlyAdvances) : (Parser.many1 budget p).OnlyAdvances := by
  intro c
  rw [ending_many1]
  refine (hp.many budget c).resume (fun m hm => ?_) .failed
  split
  · exact .failed _
  · exact .done hm

theorem span (budget : Nat) (hp : p.OnlyAdvances) : (Parser.span budget p).OnlyAdvances := by
  intro c
  rw [ending_span]
  split
  · exact .failed _
  · refine (hp.repeated _ _ budget c).resume (fun m hm => .done ?_) .failed
    -- only the value depends on whether the chain has moved; either way its end is a rest
    split
    · exact .refl c
    · exact hm

end OnlyAdvances

end Parser

/-! ## Grammars that only advance -/

/-- One layer of combinators over leaves and rules that only advance. -/
theorem Grammar.parser_onlyAdvances {σ : Setting} (hcall : ∀ r, (σ.call r).OnlyAdvances) {g : Grammar}
    (hg : g.Over Parser.OnlyAdvances) : (g.parser σ).OnlyAdvances := by
  induction hg with
  | take count => exact (Parser.onlyAdvances_take count).as _
  | byte expected => exact (Parser.onlyAdvances_satisfy _).as _
  | literal expected => exact (Parser.onlyAdvances_literal expected).as _
  | satisfy test => exact (Parser.onlyAdvances_satisfy test).as _
  | upToFirst test | upToLast test => exact (Parser.onlyAdvances_splitAt _).as _
  | upToFirst1 test | upToLast1 test => exact (Parser.onlyAdvances_splitAt _).nonempty.as _
  | span _ ih => exact (ih.span _).as _
  | span1 _ ih => exact (ih.span _).nonempty.as _
  | map f _ ih => exact ih.map f
  | separated _ _ _ ihl ihs ihr => exact (ihl.separated ihs ihr).as _
  | andThen _ _ ihf ihs => exact ihf.andThen ihs
  | before _ _ ihf ihs => exact ihf.before ihs
  | optional _ ih => exact ih.optional.as _
  | notFollowedBy _ ih => exact ih.notFollowedBy.as _
  | lookahead _ ih => exact ih.lookahead
  | many1 _ ih => exact (ih.many1 _).as _
  | many _ ih => exact (ih.many _).as _
  | firstOf _ ih =>
    rw [Grammar.parser, parsers_eq_map]
    exact .firstOf (List.forall_mem_map.2 ih)
  | endOfInput => exact Parser.onlyAdvances_endOfInput.as _
  | moreInput => exact Parser.onlyAdvances_moreInput.as _
  | whole _ ih => exact ih.whole
  | traced label _ ih => exact ih.traced _ label
  | rule r => exact hcall r
  | leaf hp => exact hp

namespace Rulebook

variable {book : Rulebook}

theorem parser_onlyAdvances (hbook : book.Over Parser.OnlyAdvances) (tracing : Bool) (fuel : Nat)
    {g : Grammar} (hg : g.Over Parser.OnlyAdvances) : (book.parser tracing fuel g).OnlyAdvances :=
  book.parser_induct tracing (fun _ => .unfinished) (fun _ _ => .raised _)
    (fun _ hcall _ hg => Grammar.parser_onlyAdvances hcall hg) hbook fuel hg

theorem call_onlyAdvances (hbook : book.Over Parser.OnlyAdvances) (tracing : Bool) (depth : Nat) (r : Rule) :
    (book.call tracing depth r).OnlyAdvances :=
  book.call_induct tracing (fun _ => .unfinished) (fun _ _ => .raised _)
    (fun _ hcall _ hg => Grammar.parser_onlyAdvances hcall hg) hbook depth r

/-- **What a match leaves is a suffix of the window.** Source and end stay, and the start moves forward inside the
window. It holds over every rulebook, with leaves written by hand wherever these keep it themselves. -/
theorem match_rest_isRestOf (hbook : book.Over Parser.OnlyAdvances) {g : Grammar}
    (hg : g.Over Parser.OnlyAdvances) {tracing : Bool} {fuel : Nat} {c : Cursor} {m : Match Value}
    (h : (book.parser tracing fuel g c).ending = .done m) :
    m.rest.source = c.source ∧ m.rest.stop = c.stop ∧ c.pos ≤ m.rest.pos ∧ m.rest.pos ≤ c.stop := by
  have hrest := parser_onlyAdvances hbook tracing fuel hg c m h
  exact ⟨hrest.source_eq, hrest.stop_eq, hrest.pos_le, hrest.pos_le_stop⟩

/-- A leaf that passes over one byte, then nested brackets, in a window that starts after the first byte of its
source and ends before the last. -/
theorem match_rest_isRestOf_parens :
    let c : Cursor := ⟨⟨#[0x61, 0x62, 0x28, 0x28, 0x29, 0x29, 0x63, 0x64]⟩, 1, 7, by decide, by decide⟩
    let pass : Parser Value := fun c => .done ⟨.none, c.skip 1⟩
    let g : Grammar := .andThen (.leaf pass) (.rule group)
    let m : Match Value := ⟨.none, c.skip 5⟩
    parens.Over Parser.OnlyAdvances ∧ g.Over Parser.OnlyAdvances ∧
      (parens.parser false 3 g c).ending = .done m ∧
      m.rest.source = c.source ∧ m.rest.stop = c.stop ∧ c.pos ≤ m.rest.pos ∧ m.rest.pos ≤ c.stop := by
  intro c pass g m
  have hbook : parens.Over Parser.OnlyAdvances := isLibrary_parens.over
  have hpass : pass.OnlyAdvances := fun c => .done (c.isRestOf_skip 1)
  have hg : g.Over Parser.OnlyAdvances := .andThen (.leaf hpass) (.rule group)
  have hm : (parens.parser false 3 g c).ending = .done m := by decide +kernel
  exact ⟨hbook, hg, hm, match_rest_isRestOf hbook hg hm⟩

end Rulebook

end Bytewise
