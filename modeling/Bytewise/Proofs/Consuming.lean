/-
# Bytewise.Proofs.Consuming — grammars that consume a byte whenever they match.

`Grammar.consuming` is a syntactic test: it looks at the tree and never into a rule. It is sound
(`Grammar.parser_shortens`): a match of a grammar that passes it leaves a shorter window, whatever the rules stand for,
as long as they only advance.

The bound is kept as a number, so that a sequence adds up what its parts consume and no case has to be made of
which part it is. Scans that have to take something are judged by their value; that this is the same as having moved
is `Match.IsSlice`: the value of a scan is what stands between its two ends.
-/
import Bytewise.Proofs.Layer
import Bytewise.Proofs.Suffix

namespace Bytewise

namespace Grammar

mutual

/-- **`consuming g`** — `g` cannot match without consuming a byte, as far as its tree shows. -/
def consuming : Grammar → Bool
  | .take _ => true
  | .byte _ => true
  | .literal expected => !expected.isEmpty
  | .satisfy _ => true
  | .upToFirst _ => false
  | .upToFirst1 _ => true
  | .upToLast _ => false
  | .upToLast1 _ => true
  | .span _ => false
  | .span1 _ => true
  | .map _ inner => inner.consuming
  | .separated left separator right => left.consuming || separator.consuming || right.consuming
  | .andThen first second => first.consuming || second.consuming
  | .before first second => first.consuming || second.consuming
  | .optional _ => false
  | .notFollowedBy _ => false
  | .lookahead _ => false
  | .many1 _ => true
  | .many _ => false
  | .firstOf alternatives => allConsuming alternatives
  | .endOfInput => false
  | .moreInput => false
  | .whole inner => inner.consuming
  | .traced _ inner => inner.consuming
  | .rule _ => false
  | .leaf _ => false
  | .within _ _ => false

/-- Every one of the grammars is consuming. -/
def allConsuming : List Grammar → Bool
  | [] => true
  | g :: gs => g.consuming && allConsuming gs

end

end Grammar

/-! ## The value of a scan -/

/-- **`m.IsSlice c`** — the value of `m` is what was consumed of `c`. -/
structure Match.IsSlice (c : Cursor) (m : Match Value) : Prop where
  rest_isRestOf : m.rest.IsRestOf c
  value_eq : m.value = .bytes (c.window.take (m.rest.pos - c.pos))

namespace Match

variable {c : Cursor} {m : Match Value}

/-- Taking and skipping the same number of bytes makes a slice, also if the window has fewer. -/
theorem isSlice_skip (c : Cursor) (count : Nat) :
    Match.IsSlice c ⟨.bytes (c.window.take count), c.skip count⟩ := by
  have hpos := c.pos_le_stop
  refine ⟨c.isRestOf_skip count, ?_⟩
  rcases Nat.le_total count c.length with hle | hle
  · rw [Cursor.pos_skip_of_le hle, Nat.add_sub_cancel_left]
  · have hcount : (c.skip count).pos - c.pos = c.length := by
      rw [Cursor.pos_skip]
      simp only [Cursor.length] at hle ⊢
      omega
    rw [hcount, List.take_of_length_le (by rw [Cursor.length_window]; exact hle), ← Cursor.length_window,
      List.take_length]

/-- A slice that is not refused as empty was consumed. -/
theorem IsSlice.refuseEmpty (h : m.IsSlice c) :
    m.refuseEmpty.Holds fun m => m.rest.length + 1 ≤ c.length := by
  have hsum := h.rest_isRestOf.pos_sub_add_length
  unfold Match.refuseEmpty
  rw [h.value_eq]
  split
  · exact .failed _
  · rename_i hne
    refine .done ?_
    -- the slice between two equal positions is empty, and that was refused
    have hmoved : m.rest.pos - c.pos ≠ 0 := by
      intro hzero
      rw [hzero, List.take_zero] at hne
      exact hne rfl
    omega

end Match

namespace Grammar

variable {σ : Setting}

theorem isSlice_upToFirst (test : Predicate) (c : Cursor) :
    ((Grammar.upToFirst test).parser σ c).ending.Holds (Match.IsSlice c) := by
  rw [ending_upToFirst]
  cases firstIndex test c.window with
  | error fault => exact .raised fault
  | ok offset => exact .done (Match.isSlice_skip c _)

theorem isSlice_upToLast (test : Predicate) (c : Cursor) :
    ((Grammar.upToLast test).parser σ c).ending.Holds (Match.IsSlice c) := by
  rw [ending_upToLast]
  cases lastIndex test c.window with
  | error fault => exact .raised fault
  | ok offset => exact .done (Match.isSlice_skip c _)

theorem isSlice_span {inner : Grammar} (hinner : (inner.parser σ).OnlyAdvances) (c : Cursor) :
    ((Grammar.span inner).parser σ c).ending.Holds (Match.IsSlice c) := by
  rw [ending_span]
  split
  · exact .failed _
  · refine (hinner.repeated _ _ σ.budget c).resume (fun m hm => ?_) .failed
    rw [hm.slice_eq]
    exact .done ⟨hm, rfl⟩

end Grammar

/-! ## What a match consumes at least -/

/-- **`p.Shortens count`** — a match of `p` consumes at least `count` bytes. -/
def Parser.Shortens {α : Type} (count : Nat) (p : Parser α) : Prop :=
  ∀ c, (p c).ending.Holds fun m => m.rest.length + count ≤ c.length

theorem Parser.OnlyAdvances.shortens {α : Type} {p : Parser α} (h : p.OnlyAdvances) : p.Shortens 0 :=
  fun c => (h c).mono fun _ hm => hm.length_le

/-- A repetition with a value has made a step, and a step is a match that leaves a shorter window. -/
theorem Parser.OnlyAdvances.repeated_shortens {α : Type} {p : Parser α} (h : p.OnlyAdvances)
    (goOn : Cursor → Bool) (repetition : String) (budget : Nat) (c : Cursor) :
    (Parser.repeated goOn repetition budget p c).ending.Holds fun m =>
      m.value ≠ [] → m.rest.length + 1 ≤ c.length := by
  cases budget with
  | zero => exact .unfinished
  | succ budget =>
    rw [ending_repeated_succ]
    split
    · refine (h c).resume (fun m hm => ?_) fun _ => .done fun hne => absurd rfl hne
      have hle := hm.length_le
      split
      · exact .raised _
      · refine (h.repeated goOn repetition budget m.rest).resume (fun n hn => .done fun _ => ?_) .failed
        have hle' := hn.length_le
        show n.rest.length + 1 ≤ c.length
        omega
    · exact .done fun hne => absurd rfl hne

theorem toNat_or_le (a b : Bool) : (a || b).toNat ≤ a.toNat + b.toNat := by
  cases a <;> cases b <;> decide

theorem toNat_and_le_left (a b : Bool) : (a && b).toNat ≤ a.toNat := by
  cases a <;> cases b <;> decide

theorem toNat_and_le_right (a b : Bool) : (a && b).toNat ≤ b.toNat := by
  cases a <;> cases b <;> decide

namespace Grammar

theorem shortens_satisfy {σ : Setting} (test : Predicate) : ((Grammar.satisfy test).parser σ).Shortens 1 := by
  intro c
  have hlen := c.length_window
  rw [ending_satisfy]
  cases hw : c.window with
  | nil => exact .failed _
  | cons b bs =>
    rw [hw, List.length_cons] at hlen
    dsimp only
    split
    · exact .raised _
    · refine .done ?_
      show (c.skip 1).length + 1 ≤ c.length
      rw [Cursor.length_skip]
      omega
    · exact .failed _

/-- A choice consumes at least what the least of its alternatives does. -/
theorem shortens_firstOf {σ : Setting} : ∀ {gs : List Grammar},
    (∀ g ∈ gs, (g.parser σ).Shortens g.consuming.toNat) →
      ((Grammar.firstOf gs).parser σ).Shortens (allConsuming gs).toNat
  | [], _ => fun _ => .failed _
  | g :: gs, h => by
    intro c
    have hrest := shortens_firstOf fun h' hh' => h h' (List.mem_cons_of_mem g hh')
    have hleft := toNat_and_le_left g.consuming (allConsuming gs)
    have hright := toNat_and_le_right g.consuming (allConsuming gs)
    rw [ending_firstOf_cons]
    refine (h g List.mem_cons_self c).resume (fun m hm => .done ?_) fun _ => (hrest c).mono fun m hm => ?_
    · show m.rest.length + (g.consuming && allConsuming gs).toNat ≤ c.length
      omega
    · show m.rest.length + (g.consuming && allConsuming gs).toNat ≤ c.length
      omega

/-- **The test is sound.** What the tree shows to be consumed is consumed. -/
theorem parser_shortens {σ : Setting} (hcall : ∀ r, (σ.call r).OnlyAdvances) {g : Grammar}
    (hg : g.Over Parser.OnlyAdvances) : (g.parser σ).Shortens g.consuming.toNat := by
  induction hg with
  -- what is not consuming consumes at least nothing, because it only advances
  | upToFirst test => exact (parser_onlyAdvances hcall (.upToFirst test)).shortens
  | upToLast test => exact (parser_onlyAdvances hcall (.upToLast test)).shortens
  | span h => exact (parser_onlyAdvances hcall (.span h)).shortens
  | optional h => exact (parser_onlyAdvances hcall (.optional h)).shortens
  | notFollowedBy h => exact (parser_onlyAdvances hcall (.notFollowedBy h)).shortens
  | lookahead h => exact (parser_onlyAdvances hcall (.lookahead h)).shortens
  | many h => exact (parser_onlyAdvances hcall (.many h)).shortens
  | endOfInput => exact (parser_onlyAdvances hcall .endOfInput).shortens
  | moreInput => exact (parser_onlyAdvances hcall .moreInput).shortens
  | rule r => exact (hcall r).shortens
  | leaf hp => exact Parser.OnlyAdvances.shortens hp
  -- terminals skip at least one byte of a window that has it
  | take count =>
    intro c
    rw [ending_take]
    split
    · exact .failed _
    · split
      · exact .failed _
      · refine .done ?_
        show (c.skip count).length + 1 ≤ c.length
        rw [Cursor.length_skip]
        omega
  | literal expected =>
    intro c
    rw [ending_literal]
    split
    · exact .failed _
    · split
      · exact .failed _
      · split
        · refine .done ?_
          show (c.skip expected.length).length + (!expected.isEmpty).toNat ≤ c.length
          rw [Cursor.length_skip]
          cases expected with
          | nil => simp
          | cons b bs =>
            simp only [List.length_cons, List.isEmpty_cons, Bool.not_false, Bool.toNat_true] at *
            omega
        · exact .failed _
  | byte expected =>
    rw [parser_byte]
    exact shortens_satisfy _
  | satisfy test => exact shortens_satisfy test
  -- scans and repetitions refuse the match in which nothing was consumed
  | upToFirst1 test =>
    intro c
    rw [ending_upToFirst1]
    exact (isSlice_upToFirst test c).resume (fun _ hm => hm.refuseEmpty) .failed
  | upToLast1 test =>
    intro c
    rw [ending_upToLast1]
    exact (isSlice_upToLast test c).resume (fun _ hm => hm.refuseEmpty) .failed
  | span1 h =>
    intro c
    rw [ending_span1]
    exact (isSlice_span (parser_onlyAdvances hcall h) c).resume (fun _ hm => hm.refuseEmpty) .failed
  | many1 h =>
    intro c
    rw [ending_many1]
    refine ((parser_onlyAdvances hcall h).repeated_shortens _ _ σ.budget c).resume (fun m hm => ?_) .failed
    split
    · exact .failed _
    · rename_i hne
      exact .done (hm fun hnil => hne (by rw [hnil]; rfl))
  | map f _ ih =>
    intro c
    rw [ending_map]
    refine (ih c).resume (fun m hm => ?_) .failed
    cases f m.value with
    | error fault => exact .raised fault
    | ok value => exact .done hm
  | whole _ ih =>
    intro c
    rw [ending_whole]
    refine (ih c).resume (fun m hm => ?_) .failed
    split
    · exact .done hm
    · exact .failed _
  | traced label _ ih =>
    intro c
    rw [ending_traced]
    exact ih c
  -- in a sequence the bounds add up, so it does not matter which part is the consuming one
  | @andThen first second _ _ ihf ihs =>
    intro c
    have hadd := toNat_or_le first.consuming second.consuming
    rw [ending_andThen]
    refine (ihf c).resume (fun m hm => (ihs m.rest).mono fun n hn => ?_) .failed
    show n.rest.length + (first.consuming || second.consuming).toNat ≤ c.length
    omega
  | @before first second _ _ ihf ihs =>
    intro c
    have hadd := toNat_or_le first.consuming second.consuming
    rw [ending_before]
    refine (ihf c).resume (fun m hm => ?_) .failed
    refine (ihs m.rest).resume (fun n hn => .done ?_) .failed
    show n.rest.length + (first.consuming || second.consuming).toNat ≤ c.length
    omega
  | @separated left separator right _ _ _ ihl ihs ihr =>
    intro c
    have hadd := toNat_or_le (left.consuming || separator.consuming) right.consuming
    have hadd' := toNat_or_le left.consuming separator.consuming
    rw [ending_separated]
    refine (ihl c).resume (fun first hfirst => ?_) .failed
    refine (ihs first.rest).resume (fun between hbetween => ?_) .failed
    refine (ihr between.rest).resume (fun second hsecond => .done ?_) .failed
    show second.rest.length + (left.consuming || separator.consuming || right.consuming).toNat ≤ c.length
    omega
  | firstOf _ ih => exact shortens_firstOf ih

end Grammar

end Bytewise
