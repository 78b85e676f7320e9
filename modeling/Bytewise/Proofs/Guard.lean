/-
# Bytewise.Proofs.Guard — what the guard of a repetition sees.

A repetition goes on where its parser left off, and a guard is to keep it from doing so for ever. The guard compares the
length of the window that a match left with the length of the one that the parser was applied to. It does not look at where
the two stand. So a repetition is stuck exactly if somewhere on its way a match leaves a window of the same length
(`guard_sees_length`); every other match is a step, and the parser is applied once more behind it.

Where a match leaves a rest of its window, which it does in all combinators, the guard sees what it has to see: the length is
the same exactly if the position is (`Cursor.IsRestOf.length_eq_iff`). A parser written by hand may move back, which
makes the window longer, or cut the window's end, which makes it shorter. Both are counted as steps although nothing was
consumed (`guard_passes_unconsumed`), and a parser that moves back and forth is repeated for ever
(`many_unfinished_back_and_forth`).
-/
import Bytewise.Proofs.Suffix

namespace Bytewise

/-- **A rest of a window is as long as the window** exactly if it does not start later. -/
theorem Cursor.IsRestOf.length_eq_iff {c d : Cursor} (h : d.IsRestOf c) : d.length = c.length ↔ d.pos ≤ c.pos := by
  have hpos := h.pos_le
  have hsum := h.pos_sub_add_length
  omega

namespace Parser

variable {α : Type} {p : Parser α} {goOn : Cursor → Bool} {repetition : String} {c d : Cursor} {budget steps : Nat}

/-! ## Where a repetition applies its parser -/

/-- **`p.Strides goOn steps c d`** — so many matches lead from `c` to `d`, one after the other, and the guard of a
repetition that goes on as `goOn` says lets all of them pass. -/
inductive Strides (p : Parser α) (goOn : Cursor → Bool) : Nat → Cursor → Cursor → Prop
  | refl (c : Cursor) : Strides p goOn 0 c c
  | step {steps : Nat} {c d : Cursor} {m : Match α} :
      goOn c = true → (p c).ending = .done m → m.rest.length ≠ c.length → Strides p goOn steps m.rest d →
        Strides p goOn (steps + 1) c d

/-- **`p.Visits goOn budget c d`** — a repetition from `c` on applies `p` at `d`, within its budget. -/
def Visits (p : Parser α) (goOn : Cursor → Bool) (budget : Nat) (c d : Cursor) : Prop :=
  ∃ steps, steps < budget ∧ p.Strides goOn steps c d ∧ goOn d = true

/-- **`p.StaysAt d`** — `p` matches at `d` and leaves a window of the same length. -/
def StaysAt (p : Parser α) (d : Cursor) : Prop :=
  ∃ m, (p d).ending = .done m ∧ m.rest.length = d.length

/-- What is visited may be the place itself, or lies behind a step. -/
theorem Visits.succ_iff :
    p.Visits goOn (budget + 1) c d ↔
      goOn c = true ∧
        (d = c ∨ ∃ m, (p c).ending = .done m ∧ m.rest.length ≠ c.length ∧ p.Visits goOn budget m.rest d) := by
  constructor
  · rintro ⟨steps, hless, hsteps, hgo⟩
    cases hsteps with
    | refl => exact ⟨hgo, Or.inl rfl⟩
    | @step steps _ _ m hgo' hm hpass htail =>
      exact ⟨hgo', Or.inr ⟨m, hm, hpass, steps, Nat.lt_of_succ_lt_succ hless, htail, hgo⟩⟩
  · rintro ⟨hgo, rfl | ⟨m, hm, hpass, steps, hless, htail, hgo'⟩⟩
    · exact ⟨0, Nat.succ_pos budget, .refl _, hgo⟩
    · exact ⟨steps + 1, Nat.succ_lt_succ hless, .step hgo hm hpass htail, hgo'⟩

/-- **One step of a repetition, for its faults.** They are those of the parser, the guard's own, and those that are met
behind a step that the guard lets pass. -/
theorem ending_repeated_succ_eq_raised_iff {fault : Fault} :
    (repeated goOn repetition (budget + 1) p c).ending = .raised fault ↔
      goOn c = true ∧
        ((p c).ending = .raised fault ∨ fault = .noProgress repetition ∧ p.StaysAt c ∨
          ∃ m, (p c).ending = .done m ∧ m.rest.length ≠ c.length ∧
            (repeated goOn repetition budget p m.rest).ending = .raised fault) := by
  rw [ending_repeated_succ]
  cases goOn c with
  | false => simp
  | true =>
    cases he : (p c).ending with
    | done m =>
      by_cases hsame : m.rest.length = c.length
      · simp [StaysAt, he, hsame, eq_comm]
      · cases hrest : (repeated goOn repetition budget p m.rest).ending <;> simp [StaysAt, he, hsame, hrest]
    | failed | raised | unfinished => simp [StaysAt, he]

/-- **Every fault of a repetition** is met where it applies its parser: it is the parser's own there, or it is the guard's
and the parser stays there. And whatever is met there is the repetition's fault. -/
theorem ending_repeated_eq_raised_iff {fault : Fault} :
    (repeated goOn repetition budget p c).ending = .raised fault ↔
      ∃ d, p.Visits goOn budget c d ∧
        ((p d).ending = .raised fault ∨ fault = .noProgress repetition ∧ p.StaysAt d) := by
  induction budget generalizing c with
  | zero =>
    constructor
    · nofun
    · rintro ⟨d, ⟨steps, hless, -⟩, -⟩
      exact absurd hless (Nat.not_lt_zero steps)
  | succ budget ih =>
    rw [ending_repeated_succ_eq_raised_iff]
    constructor
    · rintro ⟨hgo, hraised | hstays | ⟨m, hm, hpass, hrest⟩⟩
      · exact ⟨c, Visits.succ_iff.2 ⟨hgo, Or.inl rfl⟩, Or.inl hraised⟩
      · exact ⟨c, Visits.succ_iff.2 ⟨hgo, Or.inl rfl⟩, Or.inr hstays⟩
      · obtain ⟨d, hvisits, hmet⟩ := ih.1 hrest
        exact ⟨d, Visits.succ_iff.2 ⟨hgo, Or.inr ⟨m, hm, hpass, hvisits⟩⟩, hmet⟩
    · rintro ⟨d, hvisits, hmet⟩
      obtain ⟨hgo, rfl | ⟨m, hm, hpass, hvisits'⟩⟩ := Visits.succ_iff.1 hvisits
      · exact ⟨hgo, hmet.imp_right Or.inl⟩
      · exact ⟨hgo, Or.inr (Or.inr ⟨m, hm, hpass, ih.2 ⟨d, hvisits', hmet⟩⟩)⟩

/-! ## The three repetitions -/

theorem ending_many_eq_raised_iff {fault : Fault} :
    (many budget p c).ending = .raised fault ↔
      (repeated (fun _ => true) "one_or_more" budget p c).ending = .raised fault := by
  rw [many_eq]

theorem ending_many1_eq_raised_iff {fault : Fault} :
    (many1 budget p c).ending = .raised fault ↔
      (repeated (fun _ => true) "one_or_more" budget p c).ending = .raised fault := by
  rw [ending_many1, many_eq]
  cases (repeated (fun _ => true) "one_or_more" budget p c).ending with
  | done m =>
    rw [Ending.resume_done]
    split <;> simp
  | failed | raised | unfinished => simp

theorem ending_span_eq_raised_iff {fault : Fault} :
    (span budget p c).ending = .raised fault ↔
      (repeated (fun here => !here.atEnd) "take_while" budget p c).ending = .raised fault := by
  rw [ending_span]
  split
  · -- at the end of the window neither applies the parser
    rename_i hend
    cases budget with
    | zero => simp
    | succ budget => simp [ending_repeated_succ, hend]
  · cases (repeated (fun here => !here.atEnd) "take_while" budget p c).ending <;> simp

/-- **The guard of a repetition sees lengths.** All three repetitions report that they are stuck exactly if at one of the
places where they apply the parser it leaves a window of the same length, or raises the same fault by itself. So a
match that leaves a rest of its window and does not advance is never counted as a step. -/
theorem guard_sees_length (p : Parser α) (budget : Nat) (c : Cursor) :
    ((many1 budget p c).ending = .raised (.noProgress "one_or_more") ↔
        ∃ d, p.Visits (fun _ => true) budget c d ∧
          (p.StaysAt d ∨ (p d).ending = .raised (.noProgress "one_or_more"))) ∧
      ((many budget p c).ending = .raised (.noProgress "one_or_more") ↔
        ∃ d, p.Visits (fun _ => true) budget c d ∧
          (p.StaysAt d ∨ (p d).ending = .raised (.noProgress "one_or_more"))) ∧
      ((span budget p c).ending = .raised (.noProgress "take_while") ↔
        ∃ d, p.Visits (fun here => !here.atEnd) budget c d ∧
          (p.StaysAt d ∨ (p d).ending = .raised (.noProgress "take_while"))) ∧
      ∀ d m, (p d).ending = .done m → m.rest.IsRestOf d → m.rest.pos ≤ d.pos →
        (p.Visits (fun _ => true) budget c d →
          (many1 budget p c).ending = .raised (.noProgress "one_or_more") ∧
            (many budget p c).ending = .raised (.noProgress "one_or_more")) ∧
        (p.Visits (fun here => !here.atEnd) budget c d →
          (span budget p c).ending = .raised (.noProgress "take_while")) := by
  have hstuck : ∀ goOn repetition, (repeated goOn repetition budget p c).ending = .raised (.noProgress repetition) ↔
      ∃ d, p.Visits goOn budget c d ∧ (p.StaysAt d ∨ (p d).ending = .raised (.noProgress repetition)) := by
    intro goOn repetition
    simp only [ending_repeated_eq_raised_iff, true_and, or_comm]
  have hmany1 : (many1 budget p c).ending = .raised (.noProgress "one_or_more") ↔ _ :=
    ending_many1_eq_raised_iff.trans (hstuck _ _)
  have hmany : (many budget p c).ending = .raised (.noProgress "one_or_more") ↔ _ :=
    ending_many_eq_raised_iff.trans (hstuck _ _)
  have hspan : (span budget p c).ending = .raised (.noProgress "take_while") ↔ _ :=
    ending_span_eq_raised_iff.trans (hstuck _ _)
  refine ⟨hmany1, hmany, hspan, fun d m hm hrest hpos => ?_⟩
  have hstays : p.StaysAt d := ⟨m, hm, hrest.length_eq_iff.2 hpos⟩
  exact ⟨fun hvisits => ⟨hmany1.2 ⟨d, hvisits, Or.inl hstays⟩, hmany.2 ⟨d, hvisits, Or.inl hstays⟩⟩,
    fun hvisits => hspan.2 ⟨d, hvisits, Or.inl hstays⟩⟩

/-- Letters with a comma behind each, and then a lookahead that finds another letter: it is the third match, and it stays
where it is. -/
theorem guard_sees_length_lookahead :
    let c : Cursor := ⟨⟨#[0x61, 0x2c, 0x61, 0x2c, 0x61]⟩, 0, 5, by decide, by decide⟩
    let item : Parser UInt8 := firstOf [before (byte 0x61) (byte 0x2c), lookahead (byte 0x61)]
    let d : Cursor := c.skip 4
    item.Visits (fun _ => true) 3 c d ∧ item.Visits (fun here => !here.atEnd) 3 c d ∧
      (item d).ending = .done ⟨0x61, d⟩ ∧ d.IsRestOf d ∧ d.pos ≤ d.pos ∧
      (many1 3 item c).ending = .raised (.noProgress "one_or_more") ∧
      (many 3 item c).ending = .raised (.noProgress "one_or_more") ∧
      (span 3 item c).ending = .raised (.noProgress "take_while") := by
  intro c item d
  have hfirst : (item c).ending = .done ⟨0x61, c.skip 2⟩ := by decide +kernel
  have hsecond : (item (c.skip 2)).ending = .done ⟨0x61, c.skip 4⟩ := by decide +kernel
  have hthird : (item d).ending = .done ⟨0x61, d⟩ := by decide +kernel
  have hvisits : ∀ goOn, goOn c = true → goOn (c.skip 2) = true → goOn d = true → item.Visits goOn 3 c d :=
    fun goOn hc hnext hd => ⟨2, by decide, .step hc hfirst (by decide) (.step hnext hsecond (by decide) (.refl _)), hd⟩
  have hcollects : item.Visits (fun _ => true) 3 c d := hvisits _ rfl rfl rfl
  have htakes : item.Visits (fun here => !here.atEnd) 3 c d := hvisits _ (by decide) (by decide) (by decide)
  obtain ⟨-, -, -, hstuck⟩ := guard_sees_length item 3 c
  obtain ⟨hmany, hspan⟩ := hstuck d _ hthird (.refl d) (Nat.le_refl _)
  exact ⟨hcollects, htakes, hthird, .refl d, Nat.le_refl _, (hmany hcollects).1, (hmany hcollects).2, hspan htakes⟩

/-! ## Parsers written by hand -/

/-- A parser that takes a byte, and moves back where there is none, is repeated for ever. -/
theorem many_unfinished_back_and_forth (budget : Nat) :
    let c : Cursor := ⟨⟨#[0x61]⟩, 0, 1, by decide, by decide⟩
    let p : Parser Unit := firstOf [(byte 0x61).as fun _ => (), move (-1)]
    (many budget p c).ending = .unfinished := by
  intro c p
  have hforth : (p c).ending = .done ⟨(), c.skip 1⟩ := by decide +kernel
  have hback : (p (c.skip 1)).ending = .done ⟨(), c⟩ := by decide +kernel
  -- the windows are as long as 1 and 0, so the guard lets every step pass, at both places
  have hboth : (repeated (fun _ => true) "one_or_more" budget p c).ending = .unfinished ∧
      (repeated (fun _ => true) "one_or_more" budget p (c.skip 1)).ending = .unfinished := by
    induction budget with
    | zero => exact ⟨rfl, rfl⟩
    | succ budget ih =>
      obtain ⟨hc, hnext⟩ := ih
      constructor
      · rw [ending_repeated_succ, if_pos rfl, hforth, Ending.resume_done, if_neg (by decide), hnext, Ending.resume_unfinished]
      · rw [ending_repeated_succ, if_pos rfl, hback, Ending.resume_done, if_neg (by decide), hc, Ending.resume_unfinished]
  rw [many_eq]
  exact hboth.1

/-- **Steps that consume nothing are counted.** One parser moves back in front of where the repetition began, another one
stays in place and cuts the window to nothing. In each repetition the match is a step, and the repetition matches. -/
theorem guard_passes_unconsumed :
    let start : Cursor := ⟨⟨#[0x61, 0x62]⟩, 0, 2, by decide, by decide⟩
    let c : Cursor := ⟨⟨#[0x61, 0x62]⟩, 1, 2, by decide, by decide⟩
    let back : Parser Unit := andThen (byte 0x62) (move (-2))
    let cut : Parser Unit := andThen moreInput (within 0 (succeed ()))
    ((back c).ending = .done ⟨(), start⟩ ∧ start.pos ≤ c.pos ∧
        (many1 2 back c).ending = .done ⟨[()], start⟩ ∧ (many 2 back c).ending = .done ⟨[()], start⟩ ∧
        (span 2 back c).ending = .done ⟨[], start⟩) ∧
      ((cut start).ending = .done ⟨(), start.limit 0⟩ ∧ (start.limit 0).pos ≤ start.pos ∧
        (many1 2 cut start).ending = .done ⟨[()], start.limit 0⟩ ∧
        (many 2 cut start).ending = .done ⟨[()], start.limit 0⟩ ∧ (span 2 cut start).ending = .done ⟨[], start⟩) := by
  decide +kernel

end Parser

end Bytewise
